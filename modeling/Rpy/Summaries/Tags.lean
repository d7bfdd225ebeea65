/-
  Rpy.Summaries.Tags
  ──────────────────
  **THE TAGS OF A SUMMARY** (`_jsx_errors` of `app/validation.py`).

  One pass goes over the tags with a stack of the open ones.  After a closing
  tag that does not match it goes on with the stack as it is, so that from
  there on the stack says nothing; but the error is not taken back.

    • `JsxTag`, `jsxTags`    — what `_JSX_TAG_RE` reads of a text,
    • `HasClassAttribute`    — what `_CLASS_RE` looks for,
    • `scan_iff`             — the pass and the stack of `matchStack`,
    • `jsxErrors_eq_nil_iff` — a text has no errors exactly when its tags are
                               allowed and well nested.
-/
import Rpy.Foundation.Nesting
import Rpy.Summaries.Labelled

namespace Rpy.Summaries.Validation

open Rpy.Foundation
open Regex

/-! ## §1. Tags. -/

/-- A match of `_JSX_TAG_RE`. -/
structure JsxTag where
  name : String
  closing : Bool
  selfClosing : Bool
deriving Repr, DecidableEq

/-- `match.groups()` -/
def JsxTag.ofMatch (m : Match) : JsxTag where
  name := String.ofList ((m.group "tag").getD [])
  closing := !((m.group "closing").getD []).isEmpty
  selfClosing := !((m.group "selfClosing").getD []).isEmpty

/-- The tags of a text, from left to right. -/
def jsxTags (u : Unicode) (text : String) : List JsxTag :=
  ((jsxTagPattern u).findIter text.toList).map JsxTag.ofMatch

/-- The bracket a tag is, unless it closes itself. -/
def JsxTag.bracket (tag : JsxTag) : Option (Bracket String) :=
  if tag.selfClosing then none
  else if tag.closing then some (.closing tag.name)
  else some (.opening tag.name)

/-- A text with an attribute `class`: the word, up to its case, at the edge of
a word, with an equals sign after it and white space between them at most. -/
def HasClassAttribute (u : Unicode) (text : String) : Prop :=
  ∃ before name gap after : List Char, text.toList = before ++ (name ++ (gap ++ '=' :: after)) ∧
    before.getLast?.any u.isWord ≠ name.head?.any u.isWord ∧
    List.Forall₂ (fun x c => u.sameCase x c = true) "class".toList name ∧
    ∀ c ∈ gap, u.isSpace c = true

/-! ## §2. The pass. -/

/-- A tag that is not allowed is noted. -/
def JsxScan.note (scan : JsxScan) (name : String) : JsxScan :=
  if allowedJsxComponents.contains name then scan
  else { scan with disallowed := scan.disallowed ++ [name] }

@[simp] theorem JsxScan.note_stack (scan : JsxScan) (name : String) :
    (scan.note name).stack = scan.stack := by
  unfold JsxScan.note
  split <;> rfl

@[simp] theorem JsxScan.note_errors (scan : JsxScan) (name : String) :
    (scan.note name).errors = scan.errors := by
  unfold JsxScan.note
  split <;> rfl

theorem JsxScan.note_disallowed (scan : JsxScan) (name : String) :
    (scan.note name).disallowed = [] ↔
      scan.disallowed = [] ∧ name ∈ allowedJsxComponents := by
  unfold JsxScan.note
  split
  · rename_i hallowed
    exact (and_iff_left (List.contains_iff_mem.1 hallowed)).symm
  · rename_i hforeign
    have hnot : name ∉ allowedJsxComponents := fun h => hforeign (List.contains_iff_mem.2 h)
    simp [hnot]

/-- What one tag does, by the bracket it is. -/
theorem JsxScan.tag_eq (scan : JsxScan) (m : Match) :
    scan.tag m =
      let seen := scan.note (JsxTag.ofMatch m).name
      match (JsxTag.ofMatch m).bracket with
      | none => seen
      | some (.opening name) => { seen with stack := name :: seen.stack }
      | some (.closing name) =>
          if seen.stack.head? = some name then { seen with stack := seen.stack.tail }
          else { seen with errors := seen.errors ++ ["unbalanced JSX tag: " ++ name] } := by
  unfold JsxScan.tag JsxTag.bracket JsxTag.ofMatch
  simp only
  cases ((m.group "selfClosing").getD []).isEmpty with
  | false => rfl
  | true =>
      cases ((m.group "closing").getD []).isEmpty with
      | false => rfl
      | true => rfl

/-- A tag leaves no less behind: what was noted, and what is not allowed. -/
theorem JsxScan.tag_disallowed (scan : JsxScan) (m : Match) :
    (scan.tag m).disallowed = [] ↔
      scan.disallowed = [] ∧ (JsxTag.ofMatch m).name ∈ allowedJsxComponents := by
  rw [← JsxScan.note_disallowed, JsxScan.tag_eq]
  simp only
  split
  · rfl
  · rfl
  · split <;> rfl

/-- The tags that were noted are those that are not allowed. -/
theorem scan_disallowed (ms : List Match) : ∀ scan : JsxScan,
    (ms.foldl JsxScan.tag scan).disallowed = [] ↔
      scan.disallowed = [] ∧
        ∀ tag ∈ ms.map JsxTag.ofMatch, tag.name ∈ allowedJsxComponents := by
  induction ms with
  | nil =>
      intro scan
      simp
  | cons m ms ih =>
      intro scan
      rw [List.foldl_cons, ih, JsxScan.tag_disallowed, List.map_cons, List.forall_mem_cons,
        and_assoc]

/-- **The pass ends without an error and without an open tag exactly when the
stack of its brackets does.**  The invariant is that of the stack: as long as
there is no error, the two stacks are one. -/
theorem scan_iff (ms : List Match) : ∀ scan : JsxScan,
    ((ms.foldl JsxScan.tag scan).errors = [] ∧ (ms.foldl JsxScan.tag scan).stack = []) ↔
      scan.errors = [] ∧
        matchStack scan.stack ((ms.map JsxTag.ofMatch).filterMap JsxTag.bracket) = some [] := by
  induction ms with
  | nil =>
      intro scan
      simp [matchStack]
  | cons m ms ih =>
      intro scan
      rw [List.foldl_cons, ih, JsxScan.tag_eq, List.map_cons, List.filterMap_cons]
      cases hbracket : (JsxTag.ofMatch m).bracket with
      | none => simp
      | some bracket =>
          cases bracket with
          | opening name => simp [matchStack]
          | closing name =>
              cases hstack : scan.stack with
              | nil => simp [hstack, matchStack]
              | cons top stack =>
                  by_cases htop : top = name
                  · simp [hstack, matchStack, htop]
                  · simp [hstack, matchStack, htop]

/-! ## §3. The attribute. -/

theorem startsBy_iff {same : Char → Char → Bool} : ∀ {xs cs : List Char},
    startsBy same xs cs = true ↔
      ∃ name rest, cs = name ++ rest ∧ List.Forall₂ (fun x c => same x c = true) xs name := by
  intro xs
  induction xs with
  | nil =>
      intro cs
      exact iff_of_true rfl ⟨[], cs, rfl, .nil⟩
  | cons x xs ih =>
      intro cs
      cases cs with
      | nil =>
          refine iff_of_false Bool.false_ne_true ?_
          rintro ⟨name, rest, hnil, hname⟩
          obtain ⟨rfl, -⟩ := List.append_eq_nil_iff.1 hnil.symm
          cases hname
      | cons c cs =>
          rw [startsBy, Bool.and_eq_true, ih]
          constructor
          · rintro ⟨hx, name, rest, rfl, hname⟩
            exact ⟨c :: name, rest, rfl, .cons hx hname⟩
          · rintro ⟨name, rest, hcs, hname⟩
            cases hname with
            | @cons _ c' _ name hx hname =>
                obtain ⟨rfl, rfl⟩ := List.cons.inj hcs
                exact ⟨hx, name, rest, rfl, hname⟩

theorem head?_name {same : Char → Char → Bool} {x : Char} {xs name : List Char}
    (h : List.Forall₂ (fun x c => same x c = true) (x :: xs) name) (rest : List Char) :
    (name ++ rest).head? = name.head? := by
  cases h with
  | cons _ _ => rfl

/-- What the pattern reads at a place. -/
theorem steps_classPattern (u : Unicode) (c : Cursor) : steps (classPattern u) c ≠ [] ↔
    ∃ name gap after : List Char, c.after = name ++ (gap ++ '=' :: after) ∧
      c.before.head?.any u.isWord ≠ name.head?.any u.isWord ∧
      List.Forall₂ (fun x c => u.sameCase x c = true) "class".toList name ∧
      ∀ c ∈ gap, u.isSpace c = true := by
  rw [classPattern, steps_cat_cons, word]
  show (if atBoundary u.isWord c then [c] else []).flatMap _ ≠ [] ↔ _
  constructor
  · intro hne
    obtain ⟨d, hd⟩ := List.exists_mem_of_ne_nil _ hne
    -- A match: the boundary, the name, the blanks and the sign, one after the other.
    obtain ⟨c', hboundary, hd⟩ := List.mem_flatMap.1 hd
    split at hboundary
    · rename_i hedge
      rw [List.mem_singleton.1 hboundary, steps_cat_cons, steps_textBy] at hd
      obtain ⟨e, hword, hd⟩ := List.mem_flatMap.1 hd
      split at hword
      · rename_i hstarts
        obtain ⟨name, rest, hafter, hname⟩ := startsBy_iff.1 hstarts
        rw [List.mem_singleton.1 hword, hname.length_eq, steps_cat_cons] at hd
        obtain ⟨f, hspaces, hd⟩ := List.mem_flatMap.1 hd
        rw [spaces, Regex.star, steps_star] at hspaces
        obtain ⟨k, rfl, -, hall⟩ := mem_many hspaces
        have hrest : (c.skip name.length).after = rest := after_skip hafter
        rw [hrest] at hall
        have hdrop : ((c.skip name.length).skip k).after = rest.drop k :=
          congrArg (List.drop k) hrest
        change d ∈ steps (only '=') ((c.skip name.length).skip k) at hd
        rw [only, steps_char, next, hdrop] at hd
        cases hlast : rest.drop k with
        | nil =>
            rw [hlast] at hd
            cases hd
        | cons x after =>
            rw [hlast] at hd
            split at hd
            · rename_i hsign
              have hx : x = '=' := eq_of_beq hsign
              refine ⟨name, rest.take k, after, ?_, ?_, hname, hall⟩
              · rw [← hx, ← hlast, List.take_append_drop, hafter]
              · rw [atBoundary, hafter, head?_name hname] at hedge
                simpa using hedge
            · cases hd
      · cases hword
    · cases hboundary
  -- Back: each step of the pattern can be taken, so there is a match.
  · rintro ⟨name, gap, after, hafter, hedge, hname, hgap⟩ hnil
    have hboundary : atBoundary u.isWord c = true := by
      rw [atBoundary, hafter, head?_name hname]
      simpa using hedge
    have hstarts : startsBy u.sameCase "class".toList c.after = true :=
      startsBy_iff.2 ⟨name, _, hafter, hname⟩
    have hrest : (c.skip name.length).after = gap ++ '=' :: after := after_skip hafter
    have hspaces : (c.skip name.length).skip gap.length ∈
        steps (spaces u) (c.skip name.length) := by
      rw [spaces, Regex.star, steps_star]
      apply skip_mem_many hrest hgap
      rw [hrest, List.length_append]
      omega
    have hsign : next (· == '=') ((c.skip name.length).skip gap.length) = true :=
      (next_of_after (after_skip hrest)).trans rfl
    have hlast : ((c.skip name.length).skip gap.length).skip 1 ∈
        steps (cat [only '=']) ((c.skip name.length).skip gap.length) := by
      show _ ∈ steps (only '=') _
      rw [only, steps_char, if_pos hsign]
      exact List.mem_singleton_self _
    rw [if_pos hboundary, List.flatMap_singleton, steps_cat_cons, steps_textBy, if_pos hstarts,
      List.flatMap_singleton, hname.length_eq, steps_cat_cons] at hnil
    have hmem := List.mem_flatMap.2 ⟨_, hspaces, hlast⟩
    rw [hnil] at hmem
    cases hmem

/-- `_CLASS_RE` finds the attribute where there is one. -/
theorem occursIn_classPattern (u : Unicode) (text : String) :
    (classPattern u).occursIn text.toList = true ↔ HasClassAttribute u text := by
  rw [occursIn_iff]
  constructor
  · rintro ⟨before, after, htext, hsteps⟩
    obtain ⟨name, gap, rest, rfl, hedge, hname, hgap⟩ := (steps_classPattern u _).1 hsteps
    rw [List.head?_reverse] at hedge
    exact ⟨before, name, gap, rest, htext, hedge, hname, hgap⟩
  · rintro ⟨before, name, gap, rest, htext, hedge, hname, hgap⟩
    refine ⟨before, _, htext, (steps_classPattern u _).2 ⟨name, gap, rest, rfl, ?_, hname, hgap⟩⟩
    rw [List.head?_reverse]
    exact hedge

/-! ## §4. The errors. -/

theorem sortedTexts_eq_nil (values : List String) : sortedTexts values = [] ↔ values = [] := by
  have hlength : (sortedTexts values).length = values.dedup.length := by
    rw [sortedTexts, List.length_mergeSort]
  rw [← List.length_eq_zero_iff, hlength, List.length_eq_zero_iff, List.dedup_eq_nil]

/-- **A text has no errors exactly when it has no attribute `class`, its tags
are allowed, and those that do not close themselves are well nested.** -/
theorem jsxErrors_eq_nil_iff (u : Unicode) (text : String) :
    jsxErrors u text = [] ↔
      ¬ HasClassAttribute u text ∧
      (∀ tag ∈ jsxTags u text, tag.name ∈ allowedJsxComponents) ∧
      Nested ((jsxTags u text).filterMap JsxTag.bracket) := by
  let errors :=
    if (classPattern u).occursIn text.toList then
      ["JSX must use className= instead of class="]
    else []
  let scan := ((jsxTagPattern u).findIter text.toList).foldl JsxScan.tag { errors }
  have hclass : errors = [] ↔ ¬ HasClassAttribute u text := by
    rw [← occursIn_classPattern]
    show (if _ then _ else _) = [] ↔ _
    split
    · rename_i hoccurs
      exact iff_of_false (List.cons_ne_nil _ _) (fun h => h hoccurs)
    · rename_i hnone
      exact iff_of_true rfl hnone
  have hscan : scan.errors = [] ∧ scan.stack = [] ↔
      errors = [] ∧ Nested ((jsxTags u text).filterMap JsxTag.bracket) := by
    rw [← nested_iff]
    exact scan_iff _ { errors }
  have hnoted : scan.disallowed = [] ↔
      ∀ tag ∈ jsxTags u text, tag.name ∈ allowedJsxComponents :=
    (scan_disallowed _ { errors }).trans (and_iff_right rfl)
  have hopen : (if scan.stack.isEmpty then []
      else ["unclosed JSX tags: " ++ String.intercalate ", " scan.stack.reverse]) = [] ↔
      scan.stack = [] := by
    cases scan.stack with
    | nil => exact iff_of_true rfl rfl
    | cons name stack => exact iff_of_false (List.cons_ne_nil _ _) (List.cons_ne_nil _ _)
  show scan.errors ++ _ ++ _ = [] ↔ _
  rw [List.append_eq_nil_iff, List.append_eq_nil_iff, hopen, List.map_eq_nil_iff,
    sortedTexts_eq_nil, hscan, hclass, hnoted, and_assoc]
  exact and_congr_right fun _ => and_comm

end Rpy.Summaries.Validation

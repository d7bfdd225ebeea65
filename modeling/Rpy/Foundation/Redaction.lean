/-
  Rpy.Foundation.Redaction
  ────────────────────────
  **A TEXT WITH PARTS OF IT REPLACED BY A MARK.**

  A mark stands between two characters that the texts to be hidden do not
  have.  Such a text is then never made up of a mark and what is next to it:
  where it occurs after a replacement it occurred before, or in the mark.

    • `Redacted`            — some parts of a text are replaced by a mark,
    • `infix_of_redacted`   — what occurs in it occurred before, or in a mark,
    • `replaceAll`          — `text.replace(old, new)`,
    • `not_infix_replaceAll` — what is replaced occurs no more,
    • `mem_steps_group`     — what a group records,
    • `Regex.subBy`         — `pattern.sub(function, text)`,
    • `redacted_subBy`      — it redacts where the function does.
-/
import Rpy.Foundation.Occurrence

namespace Rpy.Foundation

/-! ## §1. Texts. -/

/-- The second text is the first with parts of it replaced by a mark. -/
inductive Redacted (mark : List Char) : List Char → List Char → Prop where
  | nil : Redacted mark [] []
  | keep (x : Char) {a b : List Char} : Redacted mark a b → Redacted mark (x :: a) (x :: b)
  | hide (gone : List Char) {a b : List Char} :
      Redacted mark a b → Redacted mark (gone ++ a) (mark ++ b)

namespace Redacted

variable {mark a b : List Char}

theorem keepAll (w : List Char) (h : Redacted mark a b) : Redacted mark (w ++ a) (w ++ b) := by
  induction w with
  | nil => exact h
  | cons x w ih => exact .keep x ih

theorem refl (a : List Char) : Redacted mark a a := by
  have h : Redacted mark (a ++ []) (a ++ []) := keepAll a .nil
  rw [List.append_nil] at h
  exact h

theorem append {a' b' : List Char} (h : Redacted mark a b) (h' : Redacted mark a' b') :
    Redacted mark (a ++ a') (b ++ b') := by
  induction h with
  | nil => exact h'
  | keep x _ ih => exact .keep x ih
  | hide gone _ ih =>
      rw [List.append_assoc, List.append_assoc]
      exact .hide gone ih

end Redacted

/-! ## §2. What occurs in them. -/

/-- A text without a character occurs on one side of it. -/
theorem infix_append_cons {s l r : List Char} {x : Char} (hx : x ∉ s)
    (h : s <:+: l ++ x :: r) : s <:+: l ∨ s <:+: r := by
  obtain ⟨front, back, h⟩ := h
  rw [List.append_assoc] at h
  rcases List.append_eq_append_iff.1 h with ⟨more, hl, hrest⟩ | ⟨more, hfront, hrest⟩
  · -- it begins before the character, and so ends before it
    rcases List.append_eq_append_iff.1 hrest with ⟨more', hmore, -⟩ | ⟨more', hs, hback⟩
    · exact .inl ⟨front, more', by rw [hl, hmore, List.append_assoc]⟩
    · cases more' with
      | nil => exact .inl ⟨front, [], by rw [hl, hs]; simp⟩
      | cons y more' =>
          have hy : x = y := (List.cons.inj hback).1
          exact absurd (hs ▸ List.mem_append_right more (hy ▸ List.mem_cons_self)) hx
  · -- it begins after the character, or with it
    cases more with
    | nil =>
        cases s with
        | nil => exact .inl (List.nil_infix)
        | cons y s =>
            have hy : x = y := (List.cons.inj hrest).1
            exact absurd (hy ▸ List.mem_cons_self) hx
    | cons y more =>
        exact .inr ⟨more, back, by
          rw [List.append_assoc]
          exact (List.cons.inj hrest).2.symm⟩

section Marks

variable {first last : Char} {body a b s : List Char}

/-- What a redacted text begins with, the text began with. -/
theorem prefix_of_redacted (hfirst : first ∉ s)
    (h : Redacted (first :: (body ++ [last])) a b) (hs : s <+: b) : s <+: a := by
  induction h generalizing s with
  | nil => exact hs
  | keep x _ ih =>
      cases s with
      | nil => exact List.nil_prefix
      | cons y s =>
          obtain ⟨rfl, hrest⟩ := List.cons_prefix_cons.1 hs
          exact List.cons_prefix_cons.2 ⟨rfl, ih (fun hmem => hfirst (.tail _ hmem)) hrest⟩
  | hide gone _ _ =>
      cases s with
      | nil => exact List.nil_prefix
      | cons y s =>
          obtain ⟨rfl, -⟩ := List.cons_prefix_cons.1 hs
          exact absurd List.mem_cons_self hfirst

/-- What occurs in a mark and the text after it occurs in the one or in the
other. -/
theorem infix_mark_append (hfirst : first ∉ s) (hlast : last ∉ s)
    (hs : s <:+: first :: (body ++ [last]) ++ b) : s <:+: body ∨ s <:+: b := by
  have hsplit : first :: (body ++ [last]) ++ b = [] ++ first :: (body ++ last :: b) := by
    rw [List.nil_append, List.cons_append, List.append_assoc]
    rfl
  rw [hsplit] at hs
  rcases infix_append_cons hfirst hs with hnil | hrest
  · rw [List.infix_nil.1 hnil]
    exact .inl List.nil_infix
  · exact infix_append_cons hlast hrest

/-- **What occurs in a redacted text occurred in the text, or does in the
mark.** -/
theorem infix_of_redacted (hfirst : first ∉ s) (hlast : last ∉ s)
    (h : Redacted (first :: (body ++ [last])) a b) (hs : s <:+: b) : s <:+: a ∨ s <:+: body := by
  induction h with
  | nil => exact .inl hs
  | @keep x a b h ih =>
      rcases List.infix_cons_iff.1 hs with hprefix | hoccurs
      · exact .inl (prefix_of_redacted hfirst (.keep x h) hprefix).isInfix
      · rcases ih hoccurs with hbefore | hbody
        · exact .inl (hbefore.trans (List.suffix_cons x a).isInfix)
        · exact .inr hbody
  | @hide gone a b _ ih =>
      rcases infix_mark_append hfirst hlast hs with hbody | hoccurs
      · exact .inr hbody
      · rcases ih hoccurs with hbefore | hbody
        · exact .inl (hbefore.trans (List.suffix_append gone a).isInfix)
        · exact .inr hbody

end Marks

/-! ## §3. Replacing a text. -/

/-- `text.replace(old, new)` for an `old` that is not empty, where so many
characters of an occurrence are still to be passed over. -/
def replaceFrom (old new : List Char) : Nat → List Char → List Char
  | _, [] => []
  | passed + 1, _ :: cs => replaceFrom old new passed cs
  | 0, x :: cs =>
      if old.isPrefixOf (x :: cs) then new ++ replaceFrom old new (old.length - 1) cs
      else x :: replaceFrom old new 0 cs

/-- `text.replace(old, new)` -/
def replaceAll (old new text : List Char) : List Char := replaceFrom old new 0 text

/-- A replacement redacts. -/
theorem redacted_replaceFrom {old mark : List Char} : ∀ (text : List Char) (passed : Nat),
    Redacted mark (text.drop passed) (replaceFrom old mark passed text) := by
  intro text
  induction text with
  | nil =>
      intro passed
      rw [List.drop_nil]
      cases passed <;> exact .nil
  | cons x cs ih =>
      intro passed
      cases passed with
      | succ passed => exact ih passed
      | zero =>
          rw [replaceFrom]
          split
          · have hsplit : (x :: cs).drop 0 =
                (x :: cs.take (old.length - 1)) ++ cs.drop (old.length - 1) := by
              rw [List.drop_zero, List.cons_append, List.take_append_drop]
            rw [hsplit]
            exact .hide _ (ih (old.length - 1))
          · exact .keep x (ih 0)

theorem redacted_replaceAll (old mark text : List Char) :
    Redacted mark text (replaceAll old mark text) :=
  redacted_replaceFrom text 0

/-- **What is replaced by a mark occurs no more.** -/
theorem not_infix_replaceAll {first last : Char} {body old : List Char} (hne : old ≠ [])
    (hfirst : first ∉ old) (hlast : last ∉ old) (hbody : ¬ old <:+: body) (text : List Char) :
    ¬ old <:+: replaceAll old (first :: (body ++ [last])) text := by
  suffices h : ∀ passed, ¬ old <:+: replaceFrom old (first :: (body ++ [last])) passed text from
    h 0
  induction text with
  | nil =>
      intro passed hoccurs
      apply hne
      cases passed <;> exact List.infix_nil.1 hoccurs
  | cons x cs ih =>
      intro passed hoccurs
      cases passed with
      | succ passed => exact ih passed hoccurs
      | zero =>
          rw [replaceFrom] at hoccurs
          split at hoccurs
          · rcases infix_mark_append hfirst hlast hoccurs with hmark | hrest
            · exact hbody hmark
            · exact ih _ hrest
          · rename_i hstarts
            rcases List.infix_cons_iff.1 hoccurs with hprefix | hrest
            · -- it began here before the rest was replaced
              have hkept : Redacted (first :: (body ++ [last])) (x :: cs)
                  (x :: replaceFrom old (first :: (body ++ [last])) 0 cs) :=
                .keep x (redacted_replaceFrom cs 0)
              exact hstarts (List.isPrefixOf_iff_prefix.2
                (prefix_of_redacted hfirst hkept hprefix))
            · exact ih 0 hrest

namespace Regex

/-! ## §4. Replacing the matches of a pattern. -/

/-- A pattern without groups reads a text and records nothing. -/
theorem mem_steps_plain {a : Regex} (ha : a.groupNames = []) {c d : Cursor} (hd : d ∈ steps a c) :
    ∃ w, c.Spans w d ∧ d.groups = c.groups := by
  obtain ⟨w, hw⟩ := spans_of_mem_steps hd
  exact ⟨w, hw, groups_of_mem_steps ha hd⟩

/-- A group records the text it reads. -/
theorem mem_steps_group {name : String} {a : Regex} (ha : a.groupNames = []) {c d : Cursor}
    (hd : d ∈ steps (.group name a) c) :
    ∃ w, c.Spans w d ∧ d.groups = (name, w) :: c.groups := by
  obtain ⟨e, he, rfl⟩ := List.mem_map.1 hd
  obtain ⟨w, hw, hgroups⟩ := mem_steps_plain ha he
  refine ⟨w, ⟨hw.after, hw.before, hw.offset⟩, ?_⟩
  show (name, c.upTo e) :: e.groups = (name, w) :: c.groups
  rw [hw.upTo, hgroups]

/-- A literal character reads itself. -/
theorem mem_steps_only {x : Char} {c d : Cursor} (hd : d ∈ steps (only x) c) :
    c.Spans [x] d ∧ d.groups = c.groups := by
  rw [only, steps_char] at hd
  split at hd
  · rename_i hnext
    rw [List.mem_singleton.1 hd]
    cases hafter : c.after with
    | nil =>
        rw [next, hafter] at hnext
        cases hnext
    | cons y rest =>
        rw [next_of_after hafter] at hnext
        obtain rfl : y = x := of_decide_eq_true hnext
        exact ⟨spans_one hafter, rfl⟩
  · cases hd

/-- The text from a place on with its matches replaced.  After an empty match
the search goes on one character later. -/
def subByFrom (r : Regex) (repl : Match → List Char) : Nat → Cursor → List Char
  | 0, c => c.after
  | fuel + 1, c =>
      match (steps r c).head? with
      | some d =>
          if c.offset < d.offset then
            repl ⟨c, d⟩ ++ subByFrom r repl fuel { d with groups := [] }
          else
            match c.after with
            | [] => repl ⟨c, d⟩
            | x :: _ => repl ⟨c, d⟩ ++ x :: subByFrom r repl fuel (c.skip 1)
      | none =>
          match c.after with
          | [] => []
          | x :: _ => x :: subByFrom r repl fuel (c.skip 1)

/-- `pattern.sub(function, text)` -/
def subBy (r : Regex) (repl : Match → List Char) (cs : List Char) : List Char :=
  subByFrom r repl (cs.length + 1) (start cs)

/-- **A substitution redacts where its function does.** -/
theorem redacted_subBy {mark : List Char} {r : Regex} {repl : Match → List Char}
    (hrepl : ∀ c, ∀ d ∈ steps r c, Redacted mark (c.upTo d) (repl ⟨c, d⟩)) (cs : List Char) :
    Redacted mark cs (subBy r repl cs) := by
  suffices h : ∀ fuel c, Redacted mark c.after (subByFrom r repl fuel c) from h _ (start cs)
  intro fuel
  induction fuel with
  | zero =>
      intro c
      exact .refl _
  | succ fuel ih =>
      intro c
      rw [subByFrom]
      cases hhead : (steps r c).head? with
      -- No match here: the character is kept.
      | none =>
          cases hafter : c.after with
          | nil => exact .nil
          | cons x rest =>
              have hlater : (c.skip 1).after = rest := after_skip_one hafter
              have hrest := ih (c.skip 1)
              rw [hlater] at hrest
              exact .keep x hrest
      | some d =>
          have hd : d ∈ steps r c := List.mem_of_mem_head? hhead
          -- The match spans `w`, and what replaces it is a redaction of `w`.
          obtain ⟨w, hw⟩ := spans_of_mem_steps hd
          have hmatch := hrepl c d hd
          rw [hw.upTo] at hmatch
          simp only
          split
          · rw [hw.after]
            exact hmatch.append (ih { d with groups := [] })
          -- An empty match moves the scan by one character, which is kept.
          · rename_i hempty
            have hlength := hw.offset
            obtain rfl : w = [] := List.length_eq_zero_iff.1 (by omega)
            cases hafter : c.after with
            | nil => exact hmatch
            | cons x rest =>
                have hlater : (c.skip 1).after = rest := after_skip_one hafter
                have hrest := ih (c.skip 1)
                rw [hlater] at hrest
                exact hmatch.append (.keep x hrest)

end Regex

end Rpy.Foundation

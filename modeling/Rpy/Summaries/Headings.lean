/-
  Rpy.Summaries.Headings
  ──────────────────────
  **THE HEADINGS OF A DOCUMENT** (`_HEADING_RE` of `app/validation.py`).

  A heading is one to six `#` at the start of a line, white space, and a
  title up to the end of its line; the white space may go on over line
  breaks.  A document made of plain lines and of headings has exactly
  their titles.

    • `Block`            — a plain line, or a heading,
    • `heading_match`    — what the pattern matches at a heading,
    • `heading_mismatch` — and where it matches nothing,
    • `titles_blocks`    — the titles of a document, from its blocks.
-/
import Rpy.Summaries.Rendering

namespace Rpy.Summaries

open Rpy.Foundation
open Regex

/-! ## §1. Blocks. -/

/-- Does a line begin with one to six `#` and then white space or its end? -/
def startsHeading (u : Unicode) (cs : List Char) : Bool :=
  let level := (cs.takeWhile (· == '#')).length
  1 ≤ level && level ≤ 6 && (cs.drop level).head?.all u.isSpace

/-- A part of a document. -/
inductive Block where
  | line (cs : List Char)
  | heading (level : Nat) (gap title : List Char)
deriving Repr, DecidableEq

def Block.text : Block → List Char
  | .line cs => cs
  | .heading level gap title => List.replicate level '#' ++ (gap ++ title)

def Block.title? : Block → Option (List Char)
  | .line _ => none
  | .heading _ _ title => some title

/-- A line that is no heading. -/
structure PlainLine (u : Unicode) (cs : List Char) : Prop where
  noBreak : '\n' ∉ cs
  noHeading : startsHeading u cs = false
  noIndent : ∀ c ∈ cs.head?, u.isSpace c = false

/-- The parts of a heading. -/
structure HeadingParts (u : Unicode) (level : Nat) (gap title : List Char) : Prop where
  level_pos : 1 ≤ level
  level_le : level ≤ 6
  gap_ne : gap ≠ []
  gap_space : ∀ c ∈ gap, u.isSpace c = true
  title_ne : title ≠ []
  title_first : ∀ c ∈ title.head?, u.isSpace c = false
  title_last : ∀ c ∈ title.getLast?, u.isSpace c = false
  title_noBreak : '\n' ∉ title

def Block.Ok (u : Unicode) : Block → Prop
  | .line cs => PlainLine u cs
  | .heading level gap title => HeadingParts u level gap title

section Pattern

variable {u : Unicode}

theorem isSpace_hash : u.isSpace '#' = false := u.isSpace_ascii '#' (by decide)

theorem isSpace_newline : u.isSpace '\n' = true := u.isSpace_ascii '\n' (by decide)

theorem isSpace_blank : u.isSpace ' ' = true := u.isSpace_ascii ' ' (by decide)

/-! ## §2. The end of a heading. -/

/-- `\s*$` -/
def closing (u : Unicode) : Regex := .seq (Regex.star (.char u.isSpace)) .lineEnd

/-- What follows the title of a heading. -/
def EndsLine (tail : List Char) : Prop := ∀ c ∈ tail.head?, c = '\n'

theorem self_mem_many (step : Cursor → List Cursor) (greedy : Bool) (fuel : List Char)
    (c : Cursor) : c ∈ many step greedy fuel c := by
  cases fuel with
  | nil => exact List.mem_singleton_self c
  | cons x fuel =>
      rw [many]
      cases greedy with
      | true => exact List.mem_append_right _ (List.mem_singleton_self c)
      | false => exact List.mem_cons_self

theorem steps_lineEnd (c : Cursor) :
    steps .lineEnd c = if c.after.head?.all (· == '\n') then [c] else [] := rfl

theorem mem_closing {c d : Cursor} (h : d ∈ steps (closing u) c) :
    ∃ w, d = c.skip w ∧ w ≤ c.after.length ∧ (∀ x ∈ c.after.take w, u.isSpace x = true) ∧
      EndsLine (c.after.drop w) := by
  rw [closing, steps, Regex.star, steps_star] at h
  obtain ⟨e, he, hd⟩ := List.mem_flatMap.1 h
  obtain ⟨w, hw, hlength, hall⟩ := mem_many he
  rw [steps_lineEnd] at hd
  split at hd
  · next hend =>
      rw [List.mem_singleton] at hd
      refine ⟨w, by rw [hd, hw], hlength, hall, fun x hx => ?_⟩
      rw [hw] at hend
      change (c.after.drop w).head?.all (· == '\n') = true at hend
      rw [Option.mem_def] at hx
      rw [hx] at hend
      exact eq_of_beq hend
  · cases hd

/-- A title does not end before its last character. -/
theorem closing_inside {c : Cursor} (part : List Char) {tail : List Char}
    (hafter : c.after = part ++ tail)
    (hne : part ≠ []) (hbreak : '\n' ∉ part)
    (hlast : ∀ x ∈ part.getLast?, u.isSpace x = false) : steps (closing u) c = [] := by
  rw [List.eq_nil_iff_forall_not_mem]
  intro d hd
  obtain ⟨w, -, -, hall, hend⟩ := mem_closing hd
  rw [hafter] at hall hend
  by_cases hw : w < part.length
  · have hdrop : ((part ++ tail).drop w).head? = some part[w] := by
      rw [List.head?_drop, List.getElem?_append_left hw, List.getElem?_eq_getElem hw]
    have hnewline := hend part[w] (by rw [hdrop]; rfl)
    exact hbreak (hnewline ▸ List.getElem_mem hw)
  · have hmem : part.getLast hne ∈ (part ++ tail).take w := by
      rw [List.take_append]
      refine List.mem_append_left _ ?_
      rw [List.take_of_length_le (by omega)]
      exact List.getLast_mem hne
    have hspace := hall _ hmem
    rw [hlast _ (List.getLast?_eq_some_getLast hne)] at hspace
    cases hspace

/-- It ends there, and the match goes on over white space up to the end of a line. -/
theorem closing_after {c : Cursor} (h : EndsLine c.after) :
    ∃ w, (steps (closing u) c).head? = some (c.skip w) ∧ w ≤ c.after.length ∧
      (∀ x ∈ c.after.take w, u.isSpace x = true) ∧ EndsLine (c.after.drop w) := by
  have hself : c ∈ steps (closing u) c := by
    rw [closing, steps, Regex.star, steps_star]
    refine List.mem_flatMap.2 ⟨c, self_mem_many _ _ _ c, ?_⟩
    have hend : c.after.head?.all (· == '\n') = true := by
      cases hhead : c.after.head? with
      | none => rfl
      | some x => exact beq_iff_eq.2 (h x hhead)
    rw [steps_lineEnd, if_pos hend]
    exact List.mem_singleton_self c
  obtain ⟨d, hd⟩ : ∃ d, (steps (closing u) c).head? = some d := by
    cases hsteps : steps (closing u) c with
    | nil =>
        rw [hsteps] at hself
        cases hself
    | cons d rest => exact ⟨d, rfl⟩
  obtain ⟨w, rfl, hlength, hall, hend⟩ := mem_closing (List.mem_of_mem_head? hd)
  exact ⟨w, hd, hlength, hall, hend⟩

/-! ## §3. The pattern at a place. -/

/-- `#{1,6}\s+(?P<title>.+?)` and the rest -/
theorem steps_heading (c : Cursor) : steps (headingPattern u) c =
    if c.before.head?.all (· == '\n') then
      (steps (between 1 6 (only '#')) c).flatMap fun d =>
        (steps (plus (.char u.isSpace)) d).flatMap fun e =>
          (steps (plusLazy (.char (· != '\n'))) e).flatMap fun f =>
            steps (closing u) { f with groups := ("title", e.upTo f) :: f.groups }
    else [] := by
  have hpattern : headingPattern u = .seq .lineStart (.seq (between 1 6 (only '#'))
      (.seq (plus (.char u.isSpace))
        (.seq (.group "title" (plusLazy (.char (· != '\n')))) (closing u)))) := rfl
  have htitle : ∀ e, steps (.seq (.group "title" (plusLazy (.char (· != '\n')))) (closing u)) e =
      (steps (plusLazy (.char (· != '\n'))) e).flatMap fun f =>
        steps (closing u) { f with groups := ("title", e.upTo f) :: f.groups } := by
    intro e
    rw [steps, steps, List.flatMap_map]
  rw [hpattern, steps, steps]
  split
  · rw [List.flatMap_singleton, steps]
    refine congrArg (fun g => (steps (between 1 6 (only '#')) c).flatMap g) (funext fun d => ?_)
    rw [steps]
    exact congrArg (fun g => (steps (plus (.char u.isSpace)) d).flatMap g) (funext htitle)
  · rfl

/-- **The pattern matches nothing but at the start of a line, before one to
six `#` and white space.** -/
theorem heading_mismatch {c : Cursor}
    (h : ¬ (c.before.head?.all (· == '\n') = true ∧ ∃ k, 1 ≤ k ∧ k ≤ 6 ∧ k ≤ c.after.length ∧
      (∀ x ∈ c.after.take k, x = '#') ∧ (c.after.drop k).head?.any u.isSpace = true)) :
    steps (headingPattern u) c = [] := by
  rw [List.eq_nil_iff_forall_not_mem]
  intro m hm
  rw [steps_heading] at hm
  split at hm
  · next hstart =>
      obtain ⟨d, hd, hm⟩ := List.mem_flatMap.1 hm
      obtain ⟨e, he, -⟩ := List.mem_flatMap.1 hm
      obtain ⟨k, hpos, hle, rfl, hlength, hall⟩ := mem_between (by decide) hd
      obtain ⟨hspace, -⟩ := mem_plus he
      exact h ⟨hstart, k, hpos, hle, hlength, fun x hx => eq_of_beq (hall x hx), hspace⟩
  · cases hm

/-- **The pattern matches a heading, and its title.** -/
theorem heading_match {c : Cursor} {level : Nat} {gap title tail : List Char}
    (hparts : HeadingParts u level gap title) (hstart : c.before.head?.all (· == '\n') = true)
    (hafter : c.after = List.replicate level '#' ++ (gap ++ (title ++ tail)))
    (htail : EndsLine tail) :
    ∃ w, (steps (headingPattern u) c).head? =
        some { c.skip (level + gap.length + title.length + w) with
          groups := ("title", title) :: c.groups } ∧
      w ≤ tail.length ∧ (∀ x ∈ tail.take w, u.isSpace x = true) ∧ EndsLine (tail.drop w) := by
  -- The places after the marks, after the gap and after the title.
  have hlevel : (List.replicate level '#').length = level := List.length_replicate
  have hd : (c.skip level).after = gap ++ (title ++ tail) := by
    have hskip := after_skip hafter
    rwa [hlevel] at hskip
  have he : ((c.skip level).skip gap.length).after = title ++ tail := after_skip hd
  have hf : (((c.skip level).skip gap.length).skip title.length).after = tail := after_skip he
  obtain ⟨w, hw, hlength, hall, hend⟩ := closing_after (u := u)
    (c := { ((c.skip level).skip gap.length).skip title.length with
      groups := ("title", title) :: c.groups }) (by rw [hf]; exact htail)
  simp only [hf] at hlength hall hend
  refine ⟨w, ?_, hlength, hall, hend⟩
  rw [steps_heading, if_pos hstart]
  refine head?_between (List.replicate level '#') hafter ?_ ?_ ?_ ?_ ?_
  · intro hnil
    have hpos := hparts.level_pos
    have hzero := congrArg List.length hnil
    rw [hlevel] at hzero
    change level = 0 at hzero
    omega
  · intro x hx
    rw [List.eq_of_mem_replicate hx]
    rfl
  · -- the run of `#` ends at the white space
    cases hgap : gap with
    | nil => exact absurd hgap hparts.gap_ne
    | cons x rest =>
        have hx := hparts.gap_space x (by rw [hgap]; exact List.mem_cons_self)
        show (x == '#') = false
        rw [beq_eq_false_iff_ne]
        rintro rfl
        rw [isSpace_hash] at hx
        cases hx
  · rw [hlevel]
    exact hparts.level_le
  · rw [hlevel]
    refine head?_plus_greedy hd hparts.gap_ne hparts.gap_space ?_ ?_
    · cases htitle : title with
      | nil => exact absurd htitle hparts.title_ne
      | cons x rest => exact hparts.title_first x (by rw [htitle]; rfl)
    -- The title is lazy: it ends where the closing pattern first matches, which is at the end
    -- of the line.
    · refine head?_plus_lazy he hparts.title_ne ?_ ?_ ?_
      · intro x hx
        rw [bne_iff_ne]
        rintro rfl
        exact hparts.title_noBreak hx
      · intro k _ hk
        have hpart : ((c.skip level).skip gap.length).after.drop k = title.drop k ++ tail := by
          rw [he, List.drop_append_of_le_length (Nat.le_of_lt hk)]
        refine closing_inside (title.drop k) hpart ?_ ?_ ?_
        · rw [Ne, List.drop_eq_nil_iff]
          omega
        · exact fun hmem => hparts.title_noBreak (List.mem_of_mem_drop hmem)
        · intro x hx
          rw [List.getLast?_drop, if_neg (by omega)] at hx
          exact hparts.title_last x hx
      -- What the group holds is the title.
      · have hupto : ((c.skip level).skip gap.length).upTo
            (((c.skip level).skip gap.length).skip title.length) = title := by
          rw [Cursor.upTo, he]
          show (title ++ tail).take (_ + title.length - _) = title
          rw [Nat.add_sub_cancel_left, List.take_left]
        rw [hupto]
        refine hw.trans (congrArg some ?_)
        rw [← skip_skip, ← skip_skip, ← skip_skip]
        rfl

/-! ## §4. Going through a document. -/

/-- The titles found from a place on. -/
def titlesFrom (u : Unicode) (fuel : List Char) (offset : Nat) (before after : List Char) :
    List (List Char) :=
  (findFrom (headingPattern u) fuel offset before after).map fun m =>
    (m.group "title").getD []

/-- No place inside a line is the start of one. -/
theorem mismatch_inside {c : Cursor} {x : Char} {before : List Char}
    (hbefore : c.before = x :: before) (hx : x ≠ '\n') : steps (headingPattern u) c = [] := by
  refine heading_mismatch fun hmatch => ?_
  have hstart := hmatch.1
  rw [hbefore] at hstart
  exact hx (eq_of_beq hstart)

/-- No heading starts with another character than `#`. -/
theorem mismatch_head {c : Cursor} (h : ∀ x ∈ c.after.head?, x ≠ '#') :
    steps (headingPattern u) c = [] := by
  refine heading_mismatch fun ⟨_, k, hpos, _, hlength, hall, _⟩ => ?_
  cases hafter : c.after with
  | nil =>
      rw [hafter] at hlength
      change k ≤ 0 at hlength
      omega
  | cons x rest =>
      obtain ⟨j, rfl⟩ : ∃ j, k = j + 1 := ⟨k - 1, by omega⟩
      rw [hafter, List.take_succ_cons] at hall
      exact h x (by rw [hafter]; rfl) (hall x List.mem_cons_self)

/-- No plain line is a heading. -/
theorem mismatch_plain {c : Cursor} {cs tail : List Char} (hplain : PlainLine u cs)
    (hafter : c.after = cs ++ tail) (htail : EndsLine tail) :
    steps (headingPattern u) c = [] := by
  refine heading_mismatch fun ⟨_, k, hpos, hle, hlength, hall, hspace⟩ => ?_
  rw [hafter] at hlength hall hspace
  -- the run of `#` stops before the end of the line
  have hk : k ≤ cs.length := by
    by_contra hlong
    have hsome : tail.head? = some (tail.head (by rintro rfl; simp at hlength; omega)) :=
      List.head?_eq_some_head _
    have hnewline := htail _ hsome
    have hmem : tail.head? ∈ ((cs ++ tail).take k).map some := by
      rw [List.take_append, List.take_of_length_le (by omega), List.map_append]
      refine List.mem_append_right _ ?_
      cases htl : tail with
      | nil => simp [htl] at hsome
      | cons x rest =>
          obtain ⟨j, hj⟩ : ∃ j, k - cs.length = j + 1 := ⟨k - cs.length - 1, by omega⟩
          rw [hj, List.take_succ_cons]
          exact List.mem_cons_self
    rw [hsome] at hmem
    obtain ⟨x, hx, hxeq⟩ := List.mem_map.1 hmem
    rw [Option.some.inj hxeq] at hx
    exact absurd (hnewline.symm.trans (hall _ hx)) (by decide)
  have hprefix : ∀ x ∈ cs.take k, x = '#' := by
    intro x hx
    refine hall x ?_
    rw [List.take_append_of_le_length hk]
    exact hx
  have hsplit : cs = List.replicate k '#' ++ cs.drop k := by
    have hrun : cs.take k = List.replicate k '#' :=
      List.eq_replicate_iff.2 ⟨List.length_take_of_le hk, hprefix⟩
    rw [← hrun, List.take_append_drop]
  rw [List.drop_append_of_le_length hk] at hspace
  have hstop : ∀ x ∈ (cs.drop k).head?, (x == '#') = false := by
    intro x hx
    rw [beq_eq_false_iff_ne]
    rintro rfl
    rw [List.head?_append, Option.mem_def.1 hx] at hspace
    change u.isSpace '#' = true at hspace
    rw [isSpace_hash] at hspace
    cases hspace
  have hlevel : (cs.takeWhile (· == '#')).length = k := by
    rw [hsplit, List.takeWhile_append_of_pos fun x hx => beq_iff_eq.2 (List.eq_of_mem_replicate hx)]
    have hnone : (cs.drop k).takeWhile (· == '#') = [] := by
      cases hdrop : cs.drop k with
      | nil => rfl
      | cons x rest =>
          rw [List.takeWhile_cons_of_neg]
          rw [hstop x (by rw [hdrop]; rfl)]
          exact Bool.false_ne_true
    rw [hnone, List.append_nil, List.length_replicate]
  have hstarts : startsHeading u cs = true := by
    unfold startsHeading
    simp only [hlevel, Bool.and_eq_true, decide_eq_true_eq]
    refine ⟨⟨hpos, hle⟩, ?_⟩
    cases hdrop : (cs.drop k).head? with
    | none => rfl
    | some x =>
        rw [List.head?_append, hdrop] at hspace
        exact hspace
  rw [hplain.noHeading] at hstarts
  cases hstarts

theorem titlesFrom_skip {fuel : List Char} {offset : Nat} {before rest : List Char} {x : Char}
    (h : steps (headingPattern u) { offset, before, after := x :: rest } = []) :
    titlesFrom u fuel offset before (x :: rest) =
      titlesFrom u fuel (offset + 1) (x :: before) rest := by
  rw [titlesFrom, titlesFrom, findFrom_of_none h]

theorem titlesFrom_nil (fuel : List Char) (offset : Nat) (before : List Char) :
    titlesFrom u fuel offset before [] = [] := by
  have hnone : steps (headingPattern u) { offset, before, after := [] } = [] :=
    mismatch_head fun x hx => (nomatch hx)
  rw [titlesFrom, findFrom_nil hnone]
  rfl

/-- The rest of a line has no heading. -/
theorem titlesFrom_inside (fuel cs : List Char) (hbreak : '\n' ∉ cs) :
    ∀ (offset : Nat) {x : Char} (before : List Char), x ≠ '\n' →
      titlesFrom u fuel offset (x :: before) cs = [] ∧
      ∀ rest, ∃ offset' before', titlesFrom u fuel offset (x :: before) (cs ++ '\n' :: rest) =
        titlesFrom u fuel offset' ('\n' :: before') rest := by
  induction cs with
  | nil =>
      intro offset x before hx
      exact ⟨titlesFrom_nil _ _ _, fun rest =>
        ⟨_, _, titlesFrom_skip (mismatch_inside rfl hx)⟩⟩
  | cons y cs ih =>
      intro offset x before hx
      rw [List.mem_cons, not_or] at hbreak
      obtain ⟨hnil, hrest⟩ := ih hbreak.2 (offset + 1) (x :: before)
        (Ne.symm hbreak.1)
      refine ⟨?_, fun rest => ?_⟩
      · rw [titlesFrom_skip (mismatch_inside rfl hx)]
        exact hnil
      · rw [List.cons_append, titlesFrom_skip (mismatch_inside rfl hx)]
        exact hrest rest

/-- A plain line has no heading. -/
theorem titlesFrom_line (fuel : List Char) {cs : List Char} (hplain : PlainLine u cs)
    (offset : Nat) (before : List Char) :
    titlesFrom u fuel offset before cs = [] ∧
      ∀ rest, ∃ offset' before', titlesFrom u fuel offset before (cs ++ '\n' :: rest) =
        titlesFrom u fuel offset' ('\n' :: before') rest := by
  have hfirst : ∀ tail, EndsLine tail →
      steps (headingPattern u) { offset, before, after := cs ++ tail } = [] := fun tail htail =>
    mismatch_plain hplain rfl htail
  cases hcs : cs with
  | nil =>
      refine ⟨titlesFrom_nil _ _ _, fun rest => ⟨_, _, titlesFrom_skip ?_⟩⟩
      have hskip := hfirst ('\n' :: rest) fun x hx => (Option.some.inj hx).symm
      rwa [hcs] at hskip
  | cons x more =>
      have hbreak := hplain.noBreak
      rw [hcs, List.mem_cons, not_or] at hbreak
      obtain ⟨hnil, hrest⟩ := titlesFrom_inside (u := u) fuel more hbreak.2
        (offset + 1) before (Ne.symm hbreak.1)
      refine ⟨?_, fun rest => ?_⟩
      · have hskip := hfirst [] fun x hx => (nomatch hx)
        rw [hcs, List.append_nil] at hskip
        rw [titlesFrom_skip hskip]
        exact hnil
      · have hskip := hfirst ('\n' :: rest) fun x hx => (Option.some.inj hx).symm
        rw [hcs, List.cons_append] at hskip
        rw [List.cons_append, titlesFrom_skip hskip]
        exact hrest rest

/-- The text of blocks. -/
def blocksText (blocks : List Block) : List Char := joinLines (blocks.map Block.text)

/-- The text of blocks after a line. -/
def blocksTail (blocks : List Block) : List Char :=
  if blocks = [] then [] else '\n' :: blocksText blocks

theorem blocksText_cons (b : Block) (blocks : List Block) :
    blocksText (b :: blocks) = b.text ++ blocksTail blocks := by
  cases blocks with
  | nil => exact (List.append_nil _).symm
  | cons c blocks => rfl

theorem endsLine_blocksTail (blocks : List Block) : EndsLine (blocksTail blocks) := by
  intro x hx
  unfold blocksTail at hx
  split at hx
  · cases hx
  · exact (Option.some.inj hx).symm

/-- A block does not begin with white space. -/
theorem Block.Ok.noIndent {b : Block} (h : b.Ok u) : ∀ c ∈ b.text.head?, u.isSpace c = false := by
  cases b with
  | line cs => exact PlainLine.noIndent h
  | heading level gap title =>
      intro c hc
      obtain ⟨k, hk⟩ : ∃ k, level = k + 1 := ⟨level - 1, by
        have hpos := HeadingParts.level_pos h
        omega⟩
      rw [Block.text, hk, List.replicate_succ] at hc
      rw [← Option.some.inj hc]
      exact isSpace_hash

/-- **What is left after a heading has the titles of the blocks after it.** -/
theorem titlesFrom_tail (fuel : List Char) (w : Nat) : ∀ {blocks : List Block} (offset : Nat)
    (before : List Char), (∀ b ∈ blocks, b.Ok u) →
      (∀ more, more <:+ blocks → ∀ offset' before',
        titlesFrom u fuel offset' ('\n' :: before') (blocksText more) =
          more.filterMap Block.title?) →
      w ≤ (blocksTail blocks).length → (∀ x ∈ (blocksTail blocks).take w, u.isSpace x = true) →
      EndsLine ((blocksTail blocks).drop w) →
        titlesFrom u fuel offset before ((blocksTail blocks).drop w) =
          blocks.filterMap Block.title? := by
  induction w with
  | zero =>
      intro blocks offset before _ hmain _ _ _
      cases blocks with
      | nil => exact titlesFrom_nil _ _ _
      | cons b blocks =>
          have htail : (blocksTail (b :: blocks)).drop 0 = '\n' :: blocksText (b :: blocks) := rfl
          rw [htail, titlesFrom_skip (mismatch_head fun x hx => ?_)]
          · exact hmain _ List.suffix_rfl _ _
          · rw [← Option.some.inj hx]
            decide
  | succ w ih =>
      intro blocks offset before hok hmain hlength hall hend
      cases blocks with
      | nil => cases hlength
      | cons b blocks =>
          have htail : blocksTail (b :: blocks) = '\n' :: blocksText (b :: blocks) := rfl
          rw [htail, List.drop_succ_cons] at hend ⊢
          rw [htail, List.take_succ_cons] at hall
          rw [htail, List.length_cons] at hlength
          -- the white space reaches over the block, so that it is an empty line
          have hempty : b.text = [] := by
            cases htext : b.text with
            | nil => rfl
            | cons x t =>
                have hx := (hok b List.mem_cons_self).noIndent x (by rw [htext]; rfl)
                have hspace : u.isSpace x = true := by
                  rw [blocksText_cons, htext] at hall hend
                  cases w with
                  | zero =>
                      rw [hend x rfl]
                      exact isSpace_newline
                  | succ w =>
                      refine hall x (List.mem_cons_of_mem _ ?_)
                      rw [List.cons_append, List.take_succ_cons]
                      exact List.mem_cons_self
                rw [hx] at hspace
                cases hspace
          have htitle : b.title? = none := by
            cases b with
            | line cs => rfl
            | heading level gap title =>
                have hzero := congrArg List.length hempty
                have hpos := HeadingParts.level_pos (hok _ List.mem_cons_self)
                rw [Block.text, List.length_append, List.length_replicate] at hzero
                change level + _ = 0 at hzero
                omega
          rw [blocksText_cons, hempty, List.nil_append] at hall hend hlength ⊢
          rw [List.filterMap_cons_none htitle]
          refine ih _ _ (fun c hc => hok c (List.mem_cons_of_mem _ hc))
            (fun more hmore => hmain more (hmore.trans (List.suffix_cons b blocks))) ?_ ?_ hend
          · omega
          · exact fun x hx => hall x (List.mem_cons_of_mem _ hx)

/-- **The titles of a document are those of its blocks.** -/
theorem titles_blocks : ∀ (n : Nat) {blocks : List Block} {fuel : List Char} (offset : Nat)
    (before : List Char), blocks.length ≤ n → blocks.length ≤ fuel.length →
      (∀ b ∈ blocks, b.Ok u) → before.head?.all (· == '\n') = true →
        titlesFrom u fuel offset before (blocksText blocks) = blocks.filterMap Block.title? := by
  intro n
  -- By the number of blocks: a heading may take the breaks after it along, so its tail is no
  -- single block shorter.
  induction n with
  | zero =>
      intro blocks fuel offset before hn _ _ _
      obtain rfl : blocks = [] := List.length_eq_zero_iff.1 (Nat.le_zero.1 hn)
      exact titlesFrom_nil _ _ _
  | succ n ih =>
      intro blocks fuel offset before hn hfuel hok hstart
      cases blocks with
      | nil => exact titlesFrom_nil _ _ _
      | cons b blocks =>
          rw [List.length_cons] at hn hfuel
          have hrest : ∀ c ∈ blocks, c.Ok u := fun c hc => hok c (List.mem_cons_of_mem _ hc)
          have hb := hok b List.mem_cons_self
          rw [blocksText_cons]
          cases b with
          | line cs =>
              -- No heading begins on an ordinary line.
              obtain ⟨hnil, hline⟩ := titlesFrom_line fuel hb offset before
              rw [List.filterMap_cons_none rfl, Block.text]
              cases hblocks : blocks with
              | nil =>
                  rw [blocksTail, if_pos rfl, List.append_nil]
                  exact hnil
              | cons c more =>
                  rw [blocksTail, if_neg (List.cons_ne_nil c more), ← hblocks]
                  obtain ⟨offset', before', heq⟩ := hline (blocksText blocks)
                  rw [heq]
                  exact ih _ _ (by omega) (by omega) hrest rfl
          | heading level gap title =>
              cases fuel with
              | nil => exact absurd hfuel (by simp)
              | cons y fuel =>
                  rw [List.length_cons] at hfuel
                  have hafter : Block.text (.heading level gap title) ++ blocksTail blocks =
                      List.replicate level '#' ++ (gap ++ (title ++ blocksTail blocks)) := by
                    simp only [Block.text, List.append_assoc]
                  -- The match takes the heading and `w` blanks of what follows.
                  obtain ⟨w, hmatch, hw, hall, hend⟩ := heading_match
                    (c := {
                      offset, before
                      after := Block.text (.heading level gap title) ++ blocksTail blocks })
                    hb hstart hafter (endsLine_blocksTail blocks)
                  have htitle : Block.title? (.heading level gap title) = some title := rfl
                  have hpos := HeadingParts.level_pos hb
                  have hlonger : offset < offset + (level + gap.length + title.length + w) := by
                    omega
                  rw [titlesFrom, findFrom_of_match hmatch hlonger, List.map_cons,
                    List.filterMap_cons_some htitle]
                  have hdrop : (Block.text (.heading level gap title) ++ blocksTail blocks).drop
                      (level + gap.length + title.length + w) = (blocksTail blocks).drop w := by
                    have hlength : (Block.text (.heading level gap title)).length =
                        level + gap.length + title.length := by
                      simp only [Block.text, List.length_append, List.length_replicate,
                        Nat.add_assoc]
                    rw [← hlength, List.drop_append]
                    rw [List.drop_of_length_le (by omega), List.nil_append, Nat.add_sub_cancel_left]
                  have htitles := titlesFrom_tail fuel w
                    (offset + (level + gap.length + title.length + w))
                    (((Block.text (.heading level gap title) ++ blocksTail blocks).take
                      (level + gap.length + title.length + w)).reverse ++ before)
                    hrest
                    (fun more hmore offset' before' =>
                      ih _ _ (by have := hmore.length_le; omega) (by have := hmore.length_le; omega)
                        (fun c hc => hrest c (hmore.subset hc)) rfl)
                    hw hall hend
                  refine congrArg₂ List.cons rfl ?_
                  rw [← htitles, titlesFrom]
                  show ((findFrom (headingPattern u) fuel _ _
                    ((Block.text (.heading level gap title) ++ blocksTail blocks).drop
                      (level + gap.length + title.length + w))).map _) = _
                  rw [hdrop]
                  rfl

end Pattern

end Rpy.Summaries

/-
  Rpy.Summaries.Prose
  ───────────────────
  **INLINE TEXTS** (`_inline` and `_prose_line` of `app/summary_output.py`).

  An inline text has no white space at its ends, and inside it one blank
  at a time; a line of prose does not begin like a block of markdown.

    • `inlineText`, `proseLine` — the two forms of a text,
    • `inlineText_inlineText`, `proseLine_proseLine` — a text in its form
                                stays as it is,
    • `length_proseLine`        — the word joiner is one character more.
-/
import Mathlib.Data.List.Chain
import Rpy.Platform

namespace Rpy.Summaries

open Rpy.Foundation

/-! ## §1. Definitions. -/

/-- `_SPACE_RE.sub(" ", text)`: a run of white space becomes a blank;
`inRun` says whether the character before was of the run. -/
def squeeze (u : Unicode) (inRun : Bool) : List Char → List Char
  | [] => []
  | c :: cs =>
      if u.isSpace c then
        if inRun then squeeze u true cs else ' ' :: squeeze u true cs
      else c :: squeeze u false cs

/-- `_inline` of a text. -/
def inlineText (u : Unicode) (s : String) : String :=
  u.strip (String.ofList (squeeze u false s.toList))

/-- `_inline`. -/
def inline (u : Unicode) (value : Json) : String :=
  inlineText u (u.str (value.orElse (.str "")))

/-- `text.startswith(("#", "<", "`", "- ", "* "))` -/
def startsBlock (text : List Char) : Bool :=
  match text with
  | c :: d :: _ => c == '#' || c == '<' || c == '\x60' || ((c == '-' || c == '*') && d == ' ')
  | [c] => c == '#' || c == '<' || c == '\x60'
  | [] => false

/-- `_prose_line` of a text. -/
def proseLine (u : Unicode) (s : String) : String :=
  let text := inlineText u s
  if startsBlock text.toList then String.ofList ('\u2060' :: text.toList) else text

/-! ## §2. Tidy characters. -/

section Tidy

variable {u : Unicode}

/-- White space is one blank at a time. -/
structure Tidy (u : Unicode) (cs : List Char) : Prop where
  blank : ∀ c ∈ cs, u.isSpace c = true → c = ' '
  single : cs.IsChain fun c d => ¬ (u.isSpace c = true ∧ u.isSpace d = true)

theorem Tidy.inside {cs ds : List Char} (h : Tidy u cs) (hds : ds <:+: cs) : Tidy u ds where
  blank := fun c hc => h.blank c (hds.subset hc)
  single := List.IsChain.infix h.single hds

/-- No white space is left as it is but the blank, and what follows white
space is something else. -/
theorem tidy_squeeze (cs : List Char) : ∀ inRun, Tidy u (squeeze u inRun cs) ∧
    (inRun = true → ∀ c ∈ (squeeze u inRun cs).head?, u.isSpace c = false) := by
  induction cs with
  | nil =>
      intro inRun
      exact ⟨⟨by simp [squeeze], by simp [squeeze]⟩, by simp [squeeze]⟩
  | cons c cs ih =>
      intro inRun
      by_cases hc : u.isSpace c = true
      · obtain ⟨htidy, hhead⟩ := ih true
        cases inRun with
        | true =>
            rw [squeeze, if_pos hc, if_pos rfl]
            exact ⟨htidy, hhead⟩
        | false =>
            rw [squeeze, if_pos hc, if_neg Bool.false_ne_true]
            refine ⟨⟨?_, ?_⟩, fun h => (nomatch h)⟩
            · intro d hd hspace
              rcases List.mem_cons.1 hd with rfl | hd
              · rfl
              · exact htidy.blank d hd hspace
            · refine List.isChain_cons.2 ⟨fun d hd hboth => ?_, htidy.single⟩
              have hnot := hhead rfl d hd
              rw [hboth.2] at hnot
              cases hnot
      · obtain ⟨htidy, -⟩ := ih false
        rw [squeeze, if_neg hc]
        refine ⟨⟨?_, ?_⟩, fun _ d hd => ?_⟩
        · intro d hd hspace
          rcases List.mem_cons.1 hd with rfl | hd
          · exact absurd hspace hc
          · exact htidy.blank d hd hspace
        · exact List.isChain_cons.2 ⟨fun d _ hboth => hc hboth.1, htidy.single⟩
        · obtain rfl := Option.some.inj hd
          simpa using hc

/-- Tidy characters stay as they are. -/
theorem squeeze_of_tidy {cs : List Char} (h : Tidy u cs) : ∀ inRun,
    (inRun = true → ∀ c ∈ cs.head?, u.isSpace c = false) → squeeze u inRun cs = cs := by
  induction cs with
  | nil =>
      intro inRun _
      rfl
  | cons c cs ih =>
      intro inRun hhead
      have htail : Tidy u cs := h.inside (List.suffix_cons c cs).isInfix
      by_cases hc : u.isSpace c = true
      · cases inRun with
        | true =>
            have hnot := hhead rfl c rfl
            rw [hc] at hnot
            cases hnot
        | false =>
            obtain rfl := h.blank c List.mem_cons_self hc
            rw [squeeze, if_pos hc, if_neg Bool.false_ne_true, ih htail true]
            intro _ d hd
            have hpair := (List.isChain_cons.1 h.single).1 d hd
            cases hd' : u.isSpace d with
            | false => rfl
            | true => exact absurd ⟨hc, hd'⟩ hpair
      · rw [squeeze, if_neg hc, ih htail false fun h => (nomatch h)]

theorem length_squeeze_le (cs : List Char) : ∀ inRun, (squeeze u inRun cs).length ≤ cs.length := by
  induction cs with
  | nil =>
      intro inRun
      exact Nat.le_refl _
  | cons c cs ih =>
      intro inRun
      have htrue := ih true
      have hfalse := ih false
      rw [squeeze]
      split
      · split
        · rw [List.length_cons]
          omega
        · rw [List.length_cons, List.length_cons]
          omega
      · rw [List.length_cons, List.length_cons]
        omega

theorem stripChars_inside (cs : List Char) : u.stripChars cs <:+: cs :=
  (List.rdropWhile_prefix _ _).isInfix.trans (List.dropWhile_suffix _).isInfix

/-! ## §3. Inline texts. -/

/-- Characters in their inline form. -/
structure Inline (u : Unicode) (cs : List Char) : Prop where
  tidy : Tidy u cs
  stripped : u.stripChars cs = cs

theorem inline_inlineText (s : String) : Inline u (inlineText u s).toList := by
  have htext : (inlineText u s).toList = u.stripChars (squeeze u false s.toList) := by
    unfold inlineText
    rw [u.strip_eq, String.toList_ofList, String.toList_ofList]
  rw [htext]
  exact ⟨(tidy_squeeze s.toList false).1.inside (stripChars_inside _), u.stripChars_idem _⟩

/-- A text in its inline form stays as it is. -/
theorem Inline.inlineText_eq {s : String} (h : Inline u s.toList) : inlineText u s = s := by
  unfold inlineText
  rw [u.strip_eq, String.toList_ofList, squeeze_of_tidy h.tidy false fun h => (nomatch h),
    h.stripped, String.ofList_toList]

theorem inlineText_inlineText (s : String) : inlineText u (inlineText u s) = inlineText u s :=
  (inline_inlineText s).inlineText_eq

/-- Nothing is longer in its inline form. -/
theorem length_inlineText_le (s : String) : (inlineText u s).length ≤ s.length := by
  have htext : (inlineText u s).toList = u.stripChars (squeeze u false s.toList) := by
    unfold inlineText
    rw [u.strip_eq, String.toList_ofList, String.toList_ofList]
  rw [← String.length_toList, ← String.length_toList, htext]
  exact ((stripChars_inside _).length_le).trans (length_squeeze_le s.toList false)

theorem Inline.dropWhile_eq {cs : List Char} (h : Inline u cs) : cs.dropWhile u.isSpace = cs := by
  have hlength := (List.rdropWhile_prefix u.isSpace (cs.dropWhile u.isSpace)).length_le
  have hstripped : (cs.dropWhile u.isSpace).rdropWhile u.isSpace = cs := h.stripped
  rw [hstripped] at hlength
  exact (List.dropWhile_suffix _).eq_of_length_le hlength

/-- An inline text does not begin with white space, -/
theorem Inline.first {cs : List Char} (h : Inline u cs) : ∀ c ∈ cs.head?, u.isSpace c = false := by
  have hlead := h.dropWhile_eq
  intro c hc
  cases hcs : cs with
  | nil =>
      rw [hcs] at hc
      cases hc
  | cons d t =>
      rw [hcs] at hc hlead
      obtain rfl := Option.some.inj hc
      by_contra hspace
      have hsuffix : t.dropWhile u.isSpace <:+ t := List.dropWhile_suffix _
      have hlength := hsuffix.length_le
      rw [List.dropWhile_cons_of_pos (by simpa using hspace)] at hlead
      rw [hlead, List.length_cons] at hlength
      omega

/-- and it does not end with it. -/
theorem Inline.last {cs : List Char} (h : Inline u cs) :
    ∀ c ∈ cs.getLast?, u.isSpace c = false := by
  have hlead := h.dropWhile_eq
  have hself : cs.rdropWhile u.isSpace = cs := by
    have hstripped : (cs.dropWhile u.isSpace).rdropWhile u.isSpace = cs := h.stripped
    rwa [hlead] at hstripped
  intro c hc
  have hne : cs ≠ [] := by
    rintro rfl
    cases hc
  rw [List.getLast?_eq_some_getLast hne] at hc
  rw [← Option.some.inj hc]
  simpa using List.rdropWhile_eq_self_iff.1 hself hne

/-! ## §4. Lines of prose. -/

/-- A word joiner before an inline text is part of it. -/
theorem Inline.wordJoiner {c : Char} {cs : List Char} (h : Inline u (c :: cs)) :
    Inline u ('\u2060' :: c :: cs) := by
  have hjoiner : u.isSpace '\u2060' = false := u.isSpace_wordJoiner
  refine ⟨⟨?_, ?_⟩, ?_⟩
  · intro d hd hspace
    rcases List.mem_cons.1 hd with rfl | hd
    · rw [hjoiner] at hspace
      cases hspace
    · exact h.tidy.blank d hd hspace
  · refine List.isChain_cons.2 ⟨fun d _ hboth => ?_, h.tidy.single⟩
    rw [hjoiner] at hboth
    cases hboth.1
  · unfold Platform.stripChars
    rw [List.dropWhile_cons_of_neg (by simp [hjoiner]), List.rdropWhile_eq_self_iff]
    intro hl
    rw [List.getLast_cons (List.cons_ne_nil c cs), h.last _ (List.getLast?_eq_some_getLast _)]
    exact Bool.false_ne_true

theorem startsBlock_cons {cs : List Char} (h : startsBlock cs = true) :
    ∃ c t, cs = c :: t := by
  cases cs with
  | nil => cases h
  | cons c t => exact ⟨c, t, rfl⟩

theorem startsBlock_wordJoiner (cs : List Char) : startsBlock ('\u2060' :: cs) = false := by
  cases cs <;> rfl

theorem proseLine_of_block {s : String} (h : startsBlock (inlineText u s).toList = true) :
    proseLine u s = String.ofList ('\u2060' :: (inlineText u s).toList) := by
  unfold proseLine
  exact if_pos h

theorem proseLine_of_not_block {s : String} (h : startsBlock (inlineText u s).toList = false) :
    proseLine u s = inlineText u s := by
  unfold proseLine
  exact if_neg (by simp [h])

/-- A line of prose is inline, and begins no block. -/
theorem inline_proseLine (s : String) :
    Inline u (proseLine u s).toList ∧ startsBlock (proseLine u s).toList = false := by
  cases hblock : startsBlock (inlineText u s).toList with
  | true =>
      rw [proseLine_of_block hblock, String.toList_ofList]
      refine ⟨?_, startsBlock_wordJoiner _⟩
      obtain ⟨c, t, hct⟩ := startsBlock_cons hblock
      have hinline := inline_inlineText (u := u) s
      rw [hct] at hinline ⊢
      exact hinline.wordJoiner
  | false =>
      rw [proseLine_of_not_block hblock]
      exact ⟨inline_inlineText s, hblock⟩

theorem inlineText_proseLine (s : String) : inlineText u (proseLine u s) = proseLine u s :=
  (inline_proseLine s).1.inlineText_eq

/-- **A line of prose stays as it is.** -/
theorem proseLine_proseLine (s : String) : proseLine u (proseLine u s) = proseLine u s := by
  have hblock : startsBlock (inlineText u (proseLine u s)).toList = false := by
    rw [inlineText_proseLine]
    exact (inline_proseLine s).2
  rw [proseLine_of_not_block hblock, inlineText_proseLine]

/-- Only the empty text has the empty line. -/
theorem proseLine_eq_empty {s : String} : proseLine u s = "" ↔ inlineText u s = "" := by
  cases hblock : startsBlock (inlineText u s).toList with
  | true =>
      obtain ⟨c, t, hct⟩ := startsBlock_cons hblock
      rw [proseLine_of_block hblock]
      constructor
      · intro h
        have hlist := congrArg String.toList h
        rw [String.toList_ofList] at hlist
        simp at hlist
      · intro h
        rw [h] at hct
        simp at hct
  | false => rw [proseLine_of_not_block hblock]

/-- **The word joiner is one character more.** -/
theorem length_proseLine (s : String) : (proseLine u s).length =
    (inlineText u s).length + if startsBlock (inlineText u s).toList then 1 else 0 := by
  cases hblock : startsBlock (inlineText u s).toList with
  | true =>
      rw [proseLine_of_block hblock, ← String.length_toList, String.toList_ofList,
        List.length_cons, String.length_toList, if_pos rfl]
  | false => rw [proseLine_of_not_block hblock, if_neg Bool.false_ne_true, Nat.add_zero]

end Tidy

end Rpy.Summaries

/-
  Rpy.Summaries.AmountText
  ────────────────────────
  **THE AMOUNT OF A TEXT AND OF ITS INLINE FORM** (`decimal_amount` of
  `app/legal_facts.py`, `_inline` of `app/summary_output.py`).

  Of the text of an amount a currency at its beginning and all white space
  are taken away.  So it does not matter how much white space there is.

    • `amountDigits`                  — what is left of a text,
    • `decimalAmountOfText_inlineText` — an inline text states the same amount,
    • `decimalAmountOfText_heading`   — a heading states none.
-/
import Rpy.Summaries.Labelled

namespace Rpy.Summaries

open Rpy.Foundation
open Regex

section Amount

variable {u : Unicode}

/-! ## §1. What is left of a text. -/

/-- The text as it is compared: a no-break space is a blank. -/
def blanked (cs : List Char) : List Char := cs.map fun c => if c == '\u00a0' then ' ' else c

/-- The text without a currency and white space. -/
def amountDigits (u : Unicode) (cs : List Char) : List Char :=
  (match (Regex.seq (currency u) (Regex.star (.char u.isSpace))).matchStart cs with
    | some m => m.last.after
    | none => cs).filter fun c => !u.isSpace c

/-- The number that is read from what is left. -/
def amountOfDigits (u : Unicode) (rendered : List Char) : Option Rat :=
  let minus := opt (only '-')
  if rendered.isEmpty then none
  else if (cat [minus, between 1 3 (.char u.isDecimal),
      plus (.seq (only '.') (digitsExactly u 3)),
      opt (.seq (only ',') (digitRun u))]).fullMatch rendered then
    some (decimalOf u ((rendered.filter (· != '.')).map fun c => if c == ',' then '.' else c))
  else if (cat [minus, digitRun u, only ',', digitRun u]).fullMatch rendered then
    some (decimalOf u (rendered.map fun c => if c == ',' then '.' else c))
  else if (cat [minus, digitRun u, opt (.seq (only '.') (digitRun u))]).fullMatch rendered then
    some (decimalOf u rendered)
  else none

/-- An amount is read from its digits, what is around them being taken out. -/
theorem decimalAmountOfText_eq (s : String) : decimalAmountOfText u s =
    amountOfDigits u (amountDigits u (blanked (u.stripChars s.toList))) := rfl

/-- Nothing is left of white space. -/
theorem filter_of_blank {cs : List Char} (h : ∀ c ∈ cs, u.isSpace c = true) :
    cs.filter (fun c => !u.isSpace c) = [] :=
  List.filter_eq_nil_iff.2 fun c hc => by simp [h c hc]

/-- The white space that a match goes over is taken away anyway. -/
theorem head?_spaces (c : Cursor) (more : List Cursor) :
    ∃ d, (steps (Regex.star (.char u.isSpace)) c ++ more).head? = some d ∧
      d.after.filter (fun x => !u.isSpace x) = c.after.filter fun x => !u.isSpace x := by
  have hself : c ∈ steps (Regex.star (.char u.isSpace)) c := by
    rw [Regex.star, steps_star]
    exact self_mem_many _ _ _ c
  cases hsteps : steps (Regex.star (.char u.isSpace)) c with
  | nil =>
      rw [hsteps] at hself
      cases hself
  | cons d ds =>
      refine ⟨d, rfl, ?_⟩
      obtain ⟨w, rest, hafter, hw, rfl⟩ := (readsTexts_star u.isSpace c d).1
        (by rw [hsteps]; exact List.mem_cons_self)
      rw [after_skip hafter, hafter, List.filter_append, filter_of_blank hw, List.nil_append]

/-- A currency is a literal at the beginning. -/
theorem amountDigits_eq (cs : List Char) : amountDigits u cs =
    (if startsBy u.sameCase "R$".toList cs then cs.drop 2
      else if startsBy u.sameCase "BRL".toList cs then cs.drop 3 else cs).filter
        fun c => !u.isSpace c := by
  have hsteps : steps (.seq (currency u) (Regex.star (.char u.isSpace))) (start cs) =
      ((if startsBy u.sameCase "R$".toList cs then [(start cs).skip 2] else []) ++
        (if startsBy u.sameCase "BRL".toList cs then [(start cs).skip 3] else [])).flatMap
          (steps (Regex.star (.char u.isSpace))) := by
    rw [steps_seq, currency, steps, steps_textBy, steps_textBy]
    rfl
  unfold amountDigits matchStart
  rw [hsteps]
  have hafter : ∀ k, ((start cs).skip k).after = cs.drop k := fun _ => rfl
  by_cases hreal : startsBy u.sameCase "R$".toList cs = true
  · rw [if_pos hreal, if_pos hreal, List.singleton_append, List.flatMap_cons]
    obtain ⟨d, hd, hrest⟩ := head?_spaces (u := u) ((start cs).skip 2)
      ((if startsBy u.sameCase "BRL".toList cs then [(start cs).skip 3] else []).flatMap
        (steps (Regex.star (.char u.isSpace))))
    rw [hd]
    exact hrest
  by_cases hbrl : startsBy u.sameCase "BRL".toList cs = true
  · rw [if_neg hreal, if_neg hreal, if_pos hbrl, if_pos hbrl, List.nil_append, List.flatMap_cons]
    obtain ⟨d, hd, hrest⟩ := head?_spaces (u := u) ((start cs).skip 3)
      (([] : List Cursor).flatMap (steps (Regex.star (.char u.isSpace))))
    rw [hd]
    exact hrest
  · rw [if_neg hreal, if_neg hreal, if_neg hbrl, if_neg hbrl]
    rfl

/-! ## §2. White space makes no difference. -/

/-- A literal whose characters are not taken for white space. -/
def NotBlank (u : Unicode) (literal : List Char) : Prop :=
  ∀ x ∈ literal, ∀ y, u.isSpace y = true → u.sameCase x y = false

/-- The signs of the currency are no white space. -/
theorem notBlank_currency (hu : ReadsLabels u) {literal : List Char}
    (h : literal ∈ ["R$".toList, "BRL".toList]) : NotBlank u literal := by
  have hall : ∀ l ∈ ["R$".toList, "BRL".toList], l.all (fun x =>
      decide (inLabel x = true ∧ x.toNat < 128 ∧ asciiSpace x = false)) = true := by
    decide
  intro x hx y hy
  obtain ⟨hin, hascii, hspace⟩ := of_decide_eq_true (List.all_eq_true.1 (hall literal h) x hx)
  exact hu.noBlank x y hin (by rw [u.isSpace_ascii x hascii, hspace]) hy

/-- Two texts that differ only in white space: a literal begins both or
neither, and the same is left of them. -/
structure SameBlanked (u : Unicode) (cs ds : List Char) : Prop where
  starts : ∀ literal, NotBlank u literal →
    startsBy u.sameCase literal cs = startsBy u.sameCase literal ds
  rest : ∀ literal, NotBlank u literal → startsBy u.sameCase literal ds = true →
    (cs.drop literal.length).filter (fun c => !u.isSpace c) =
      (ds.drop literal.length).filter fun c => !u.isSpace c

/-- **The digits do not depend on the white space.** -/
theorem SameBlanked.amountDigits (hu : ReadsLabels u) {cs ds : List Char}
    (h : SameBlanked u cs ds) : amountDigits u cs = amountDigits u ds := by
  have hreal : NotBlank u "R$".toList := notBlank_currency hu List.mem_cons_self
  have hbrl : NotBlank u "BRL".toList := notBlank_currency hu (by simp)
  rw [amountDigits_eq, amountDigits_eq, h.starts _ hreal, h.starts _ hbrl]
  by_cases hr : startsBy u.sameCase "R$".toList ds = true
  · rw [if_pos hr, if_pos hr]
    exact h.rest _ hreal hr
  by_cases hb : startsBy u.sameCase "BRL".toList ds = true
  · rw [if_neg hr, if_neg hr, if_pos hb, if_pos hb]
    exact h.rest _ hbrl hb
  · rw [if_neg hr, if_neg hr, if_neg hb, if_neg hb]
    exact h.rest [] (List.forall_mem_nil _) rfl

/-- A text is the same as itself. -/
theorem sameBlanked_refl (cs : List Char) : SameBlanked u cs cs := ⟨fun _ _ => rfl, fun _ _ _ => rfl⟩

/-- The same character before both. -/
theorem SameBlanked.cons {cs ds : List Char} (h : SameBlanked u cs ds) (c : Char) :
    SameBlanked u (c :: cs) (c :: ds) := by
  constructor
  · intro literal hliteral
    cases literal with
    | nil => rfl
    | cons x literal =>
        rw [startsBy, startsBy, h.starts literal (List.forall_mem_cons.1 hliteral).2]
  · intro literal hliteral hstarts
    cases literal with
    | nil =>
        have hrest := h.rest [] (List.forall_mem_nil _) rfl
        simp only [List.length_nil, List.drop_zero] at hrest ⊢
        rw [List.filter_cons, List.filter_cons, hrest]
    | cons x literal =>
        rw [startsBy, Bool.and_eq_true] at hstarts
        exact h.rest literal (List.forall_mem_cons.1 hliteral).2 hstarts.2

/-- White space at both places. -/
theorem sameBlanked_of_blank {cs ds : List Char} (hcs : ∀ c ∈ cs.head?, u.isSpace c = true)
    (hds : ∀ c ∈ ds.head?, u.isSpace c = true)
    (h : cs.filter (fun c => !u.isSpace c) = ds.filter fun c => !u.isSpace c) :
    SameBlanked u cs ds := by
  have hnone : ∀ {es : List Char}, (∀ c ∈ es.head?, u.isSpace c = true) →
      ∀ x literal, NotBlank u (x :: literal) → startsBy u.sameCase (x :: literal) es = false := by
    intro es hes x literal hliteral
    cases es with
    | nil => rfl
    | cons c es =>
        rw [startsBy, hliteral x List.mem_cons_self c (hes c rfl), Bool.false_and]
  constructor
  · intro literal hliteral
    cases literal with
    | nil => cases cs <;> cases ds <;> rfl
    | cons x literal => rw [hnone hcs x literal hliteral, hnone hds x literal hliteral]
  · intro literal hliteral hstarts
    cases literal with
    | nil => exact h
    | cons x literal =>
        rw [hnone hds x literal hliteral] at hstarts
        cases hstarts

/-- One character, the fixed blank being a blank. -/
theorem blanked_cons (c : Char) (cs : List Char) :
    blanked (c :: cs) = (if c == '\u00a0' then ' ' else c) :: blanked cs := rfl

/-- What is white space stays white space. -/
theorem isSpace_blanked {c : Char} (h : u.isSpace c = true) :
    u.isSpace (if c == '\u00a0' then ' ' else c) = true := by
  split
  · exact isSpace_blank
  · exact h

/-- White space after a text. -/
theorem sameBlanked_trailing {blanks : List Char} (h : ∀ c ∈ blanks, u.isSpace c = true)
    (cs : List Char) : SameBlanked u (blanked (cs ++ blanks)) (blanked cs) := by
  induction cs with
  | nil =>
      have hblank : ∀ c ∈ blanked blanks, u.isSpace c = true := by
        intro c hc
        obtain ⟨d, hd, rfl⟩ := List.mem_map.1 hc
        exact isSpace_blanked (h d hd)
      refine sameBlanked_of_blank (fun c hc => hblank c (List.mem_of_mem_head? hc)) ?_ ?_
      · intro c hc
        cases hc
      · exact filter_of_blank hblank
  | cons c cs ih =>
      rw [List.cons_append, blanked_cons, blanked_cons]
      exact ih.cons _

/-- Squeezing takes out nothing but white space. -/
theorem filter_squeeze (cs : List Char) : ∀ inRun,
    (blanked (squeeze u inRun cs)).filter (fun c => !u.isSpace c) =
      (blanked cs).filter fun c => !u.isSpace c := by
  have hblank : u.isSpace ' ' = true := isSpace_blank
  induction cs with
  | nil => exact fun _ => rfl
  | cons c cs ih =>
      intro inRun
      rw [squeeze]
      by_cases hc : u.isSpace c = true
      · have hspace := isSpace_blanked hc
        have hright : (blanked (c :: cs)).filter (fun d => !u.isSpace d) =
            (blanked cs).filter fun d => !u.isSpace d := by
          rw [blanked_cons, List.filter_cons_of_neg (by simp only [hspace]; decide)]
        rw [if_pos hc, hright]
        cases inRun with
        | true => exact ih true
        | false =>
            have hspace' := isSpace_blanked hblank
            rw [if_neg Bool.false_ne_true, blanked_cons,
              List.filter_cons_of_neg (by simp only [hspace']; decide)]
            exact ih true
      · rw [if_neg hc, blanked_cons, blanked_cons, List.filter_cons, List.filter_cons, ih false]

/-- One blank for a run of white space. -/
theorem sameBlanked_squeeze (cs : List Char) :
    SameBlanked u (blanked (squeeze u false cs)) (blanked cs) := by
  induction cs with
  | nil => exact sameBlanked_refl _
  | cons c cs ih =>
      by_cases hc : u.isSpace c = true
      · have hfilter := filter_squeeze (u := u) (c :: cs) false
        have hsqueeze : squeeze u false (c :: cs) = ' ' :: squeeze u true cs := by
          rw [squeeze, if_pos hc, if_neg Bool.false_ne_true]
        rw [hsqueeze] at hfilter ⊢
        refine sameBlanked_of_blank ?_ ?_ hfilter
        · intro x hx
          rw [← Option.some.inj hx]
          exact isSpace_blanked isSpace_blank
        · intro x hx
          rw [← Option.some.inj hx]
          exact isSpace_blanked hc
      · have hsqueeze : squeeze u false (c :: cs) = c :: squeeze u false cs := by
          rw [squeeze, if_neg hc]
        rw [hsqueeze, blanked_cons, blanked_cons]
        exact ih.cons _

/-- White space before a text is none in its squeezed form. -/
theorem dropWhile_squeeze (cs : List Char) : ∀ inRun,
    (squeeze u inRun cs).dropWhile u.isSpace = squeeze u false (cs.dropWhile u.isSpace) := by
  induction cs with
  | nil => exact fun _ => rfl
  | cons c cs ih =>
      intro inRun
      rw [squeeze]
      by_cases hc : u.isSpace c = true
      · rw [if_pos hc, List.dropWhile_cons_of_pos hc]
        cases inRun with
        | true => exact ih true
        | false =>
            rw [if_neg Bool.false_ne_true, List.dropWhile_cons_of_pos isSpace_blank]
            exact ih true
      · rw [if_neg hc, List.dropWhile_cons_of_neg hc, List.dropWhile_cons_of_neg hc, squeeze,
          if_neg hc]

/-- What is left of a text, whether white space is stripped off its end or not. -/
theorem amountDigits_rdropWhile (hu : ReadsLabels u) (cs : List Char) :
    amountDigits u (blanked (cs.rdropWhile u.isSpace)) = amountDigits u (blanked cs) := by
  have hsplit : cs.rdropWhile u.isSpace ++ cs.rtakeWhile u.isSpace = cs :=
    List.rdropWhile_append_rtakeWhile
  have hblanks : ∀ c ∈ cs.rtakeWhile u.isSpace, u.isSpace c = true := fun c hc =>
    List.mem_rtakeWhile_imp hc
  have hsame := (sameBlanked_trailing hblanks (cs.rdropWhile u.isSpace)).amountDigits hu
  rw [hsplit] at hsame
  exact hsame.symm

/-- **An inline text states the amount of the text.** -/
theorem decimalAmountOfText_inlineText (hu : ReadsLabels u) (s : String) :
    decimalAmountOfText u (inlineText u s) = decimalAmountOfText u s := by
  have htext : u.stripChars (inlineText u s).toList = u.stripChars (squeeze u false s.toList) := by
    unfold inlineText
    rw [u.strip_eq, String.toList_ofList, String.toList_ofList, u.stripChars_idem]
  rw [decimalAmountOfText_eq, decimalAmountOfText_eq, htext]
  unfold Platform.stripChars
  rw [dropWhile_squeeze, amountDigits_rdropWhile hu, amountDigits_rdropWhile hu,
    (sameBlanked_squeeze _).amountDigits hu]

/-! ## §3. Texts without an amount. -/

/-- There is no amount in white space. -/
theorem decimalAmountOfText_blank {s : String} (h : ∀ c ∈ s.toList, u.isSpace c = true) :
    decimalAmountOfText u s = none := by
  have hnil : u.stripChars s.toList = [] := by
    unfold Platform.stripChars
    rw [List.dropWhile_eq_nil_iff.2 h]
    rfl
  rw [decimalAmountOfText_eq, hnil]
  have hnone : amountDigits u (blanked []) = [] := by
    rw [amountDigits_eq]
    rfl
  rw [hnone]
  rfl

/-- A number begins with a digit or a sign. -/
theorem amountOfDigits_hash (hu : ReadsLabels u) (cs : List Char) :
    amountOfDigits u ('#' :: cs) = none := by
  have hdigit : next u.isDecimal (start ('#' :: cs)) = false := by
    rw [next_of_after (c := start ('#' :: cs)) rfl, hu.noDigit]
  have hsign : steps (opt (only '-')) (start ('#' :: cs)) = [start ('#' :: cs)] := by
    have hnext : next (· == '-') (start ('#' :: cs)) = false := rfl
    rw [steps_opt, only, steps_char, hnext]
    rfl
  have hnone : ∀ (r : Regex) (rs : List Regex), steps r (start ('#' :: cs)) = [] →
      (cat (opt (only '-') :: r :: rs)).fullMatch ('#' :: cs) = false := by
    intro r rs hr
    unfold fullMatch
    rw [steps_cat_cons, hsign, List.flatMap_singleton, steps_cat_cons, hr]
    rfl
  have hfew : steps (between 1 3 (.char u.isDecimal)) (start ('#' :: cs)) = [] := by
    rw [steps_between, hdigit]
    rfl
  have hrun : steps (digitRun u) (start ('#' :: cs)) = [] := by
    rw [digitRun, plus, steps_plus, hdigit]
    rfl
  have hempty : ¬ ('#' :: cs).isEmpty = true := Bool.false_ne_true
  unfold amountOfDigits
  simp only [hnone _ _ hfew, hnone _ _ hrun, if_neg hempty, Bool.false_eq_true, if_false]

/-- **A heading states no amount.** -/
theorem decimalAmountOfText_heading (hu : ReadsLabels u) {title : List Char}
    (h : u.stripChars ('#' :: title) = '#' :: title) :
    decimalAmountOfText u (String.ofList ('#' :: title)) = none := by
  have hother : ∀ literal ∈ ["R$".toList, "BRL".toList],
      startsBy u.sameCase literal (blanked ('#' :: title)) = false := by
    intro literal hliteral
    have hall : ∀ l ∈ ["R$".toList, "BRL".toList], l.head?.any (fun x =>
        inLabel x && !sameLetter x '#') = true := by
      decide
    have hhead := hall literal hliteral
    cases literal with
    | nil => cases hhead
    | cons x literal =>
        obtain ⟨hin, hnot⟩ := Bool.and_eq_true_iff.1 hhead
        rw [Bool.not_eq_true'] at hnot
        show (u.sameCase x '#' && _) = false
        rw [hu.sameCase x '#' hin (by decide), hnot, Bool.false_and]
  have hdigits : amountDigits u (blanked ('#' :: title)) =
      '#' :: (blanked title).filter fun c => !u.isSpace c := by
    rw [amountDigits_eq, hother _ List.mem_cons_self, hother "BRL".toList (by simp)]
    show ('#' :: blanked title).filter _ = _
    rw [List.filter_cons_of_pos (by rw [isSpace_hash]; rfl)]
  rw [decimalAmountOfText_eq, String.toList_ofList, h, hdigits, amountOfDigits_hash hu]

end Amount

end Rpy.Summaries

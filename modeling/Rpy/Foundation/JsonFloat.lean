/-
  Rpy.Foundation.JsonFloat
  ────────────────────────
  **THE PARTS OF A NUMBER, AND THE TEXT OF A FLOAT.**

  A number has whole digits, and may have a fraction and an exponent; the
  reader splits a text into these.  The text `repr` gives a float has a
  fraction or an exponent or both.

    • `IsWhole`, `IsFraction`, `IsExponent` — the parts,
    • `intDigits_whole`, `fraction_text`, `exponent_text` — each is read,
    • `repr_parts`      — the parts of the text of a float,
    • `repr_injective`  — **two floats have two texts**.
-/
import Rpy.Foundation.JsonParse

namespace Rpy.Foundation

namespace Json

/-! ## §1. Digits. -/

/-- Some digits. -/
def AreDigits (cs : List Char) : Prop := cs ≠ [] ∧ ∀ c ∈ cs, c.isDigit = true

/-- The digits before the point: `0`, or digits that do not begin with it. -/
def IsWhole (cs : List Char) : Prop := cs = ['0'] ∨ AreDigits cs ∧ ∃ c t, cs = c :: t ∧ c ≠ '0'

/-- The point and the digits after it, if they are there. -/
def IsFraction (cs : List Char) : Prop := cs = [] ∨ ∃ ds, cs = '.' :: ds ∧ AreDigits ds

/-- The exponent, if it is there. -/
def IsExponent (cs : List Char) : Prop :=
  cs = [] ∨ ∃ e s ds, cs = e :: (s ++ ds) ∧ (e = 'e' ∨ e = 'E') ∧
    (s = [] ∨ s = ['-'] ∨ s = ['+']) ∧ AreDigits ds

/-- The digits of a number are digits, and there is one at least. -/
theorem areDigits_toDigits (n : Nat) : AreDigits (Nat.toDigits 10 n) :=
  ⟨Nat.toDigits_ne_nil, fun _ hc => Nat.isDigit_of_mem_toDigits (by decide) (by decide) hc⟩

/-- Digits after digits. -/
theorem AreDigits.append {cs ds : List Char} (hcs : AreDigits cs)
    (hds : ∀ c ∈ ds, c.isDigit = true) : AreDigits (cs ++ ds) :=
  ⟨fun h => hcs.1 (List.append_eq_nil_iff.1 h).1, List.forall_mem_append.2 ⟨hcs.2, hds⟩⟩

/-- A zero is a digit. -/
theorem areDigits_zero : AreDigits ['0'] :=
  ⟨List.cons_ne_nil _ _, List.all_eq_true.1 (by decide)⟩

theorem isDigit_replicate_zero (n : Nat) : ∀ c ∈ List.replicate n '0', c.isDigit = true := by
  intro c hc
  rw [List.eq_of_mem_replicate hc]
  rfl

/-- The digits up to what ends them. -/
theorem digits_append {ds rest : List Char} (hds : ∀ c ∈ ds, c.isDigit = true)
    (hrest : digits rest = []) : digits (ds ++ rest) = ds := by
  unfold digits at hrest ⊢
  rw [List.takeWhile_append_of_pos hds, hrest, List.append_nil]

/-- No digit is left where a number ends. -/
theorem digits_delimited {r : List Char} (hr : Delimited r) : digits r = [] := by
  rcases hr with rfl | ⟨c, t, rfl, rfl | rfl | rfl | rfl | rfl | rfl | rfl⟩ <;> rfl

/-- The whole part is read up to the first character that is no digit. -/
theorem intDigits_whole {whole rest : List Char} (hwhole : IsWhole whole)
    (hrest : digits rest = []) : intDigits (whole ++ rest) = whole := by
  rcases hwhole with rfl | ⟨hdigits, c, t, rfl, hc⟩
  · rfl
  · have hrun : intDigits (c :: (t ++ rest)) = digits (c :: (t ++ rest)) := by
      unfold intDigits
      split
      · next h => exact absurd (List.cons.inj h).1 hc
      · rfl
    rw [List.cons_append, hrun, ← List.cons_append, digits_append hdigits.2 hrest]

/-- The exponent is read where there is one. -/
theorem exponent_text {ex r : List Char} (hex : IsExponent ex) (hr : Delimited r) :
    exponent (ex ++ r) = ex := by
  rcases hex with rfl | ⟨e, s, ds, rfl, he, hs, hds⟩
  · exact exponent_delimited hr
  · have hrun : digits (ds ++ r) = ds := digits_append hds.2 (digits_delimited hr)
    have hne : ds.isEmpty = false := List.isEmpty_eq_false_iff.2 hds.1
    have hsign : ((s ++ (ds ++ r)).take 1).filter (fun c => c == '-' || c == '+') = s := by
      rcases hs with rfl | rfl | rfl
      · -- a digit is no sign
        obtain ⟨d, more, rfl⟩ := List.exists_cons_of_ne_nil hds.1
        have hd : d.isDigit = true := hds.2 d List.mem_cons_self
        have hminus : (d == '-') = false := beq_eq_false_iff_ne.2 (by rintro rfl; cases hd)
        have hplus : (d == '+') = false := beq_eq_false_iff_ne.2 (by rintro rfl; cases hd)
        simp [hminus, hplus]
      · rfl
      · rfl
    have hmark : (e == 'e' || e == 'E') = true := by rcases he with rfl | rfl <;> rfl
    rw [List.cons_append, List.append_assoc, exponent]
    simp only [hmark, if_true, hsign, List.drop_left, hrun, hne, Bool.false_eq_true, if_false]

/-- So is the fraction. -/
theorem fraction_text {frac ex r : List Char} (hfrac : IsFraction frac) (hex : IsExponent ex)
    (hr : Delimited r) : fraction (frac ++ (ex ++ r)) = frac := by
  have hstop : digits (ex ++ r) = [] := by
    rcases hex with rfl | ⟨e, s, ds, rfl, rfl | rfl, -⟩
    · exact digits_delimited hr
    · rfl
    · rfl
  rcases hfrac with rfl | ⟨ds, rfl, hds⟩
  · rcases hex with rfl | ⟨e, s, ds, rfl, rfl | rfl, -⟩
    · exact fraction_delimited hr
    · rfl
    · rfl
  · have hrun : digits (ds ++ (ex ++ r)) = ds := digits_append hds.2 hstop
    have hne : ds.isEmpty = false := List.isEmpty_eq_false_iff.2 hds.1
    simp [fraction, hrun, hne]

/-- What follows the whole digits is no digit. -/
theorem digits_after_whole {frac ex r : List Char} (hfrac : IsFraction frac)
    (hex : IsExponent ex) (hr : Delimited r) : digits (frac ++ (ex ++ r)) = [] := by
  rcases hfrac with rfl | ⟨ds, rfl, -⟩
  · rcases hex with rfl | ⟨e, s, ds, rfl, rfl | rfl, -⟩
    · exact digits_delimited hr
    · rfl
    · rfl
  · rfl

/-- The whole part begins with a digit. -/
theorem IsWhole.head {whole : List Char} (h : IsWhole whole) :
    ∃ c t, whole = c :: t ∧ c.isDigit = true := by
  rcases h with rfl | ⟨hdigits, c, t, rfl, -⟩
  · exact ⟨'0', [], rfl, rfl⟩
  · exact ⟨c, t, rfl, hdigits.2 c List.mem_cons_self⟩

/-- A number that is not zero begins with no zero, whatever digits follow. -/
theorem IsWhole.of_toDigits_append {n : Nat} {ds : List Char}
    (hds : ∀ c ∈ ds, c.isDigit = true) (hn : n ≠ 0) : IsWhole (Nat.toDigits 10 n ++ ds) := by
  refine .inr ⟨(areDigits_toDigits n).append hds, ?_⟩
  cases htext : Nat.toDigits 10 n with
  | nil => exact absurd htext Nat.toDigits_ne_nil
  | cons c t =>
      refine ⟨c, t ++ ds, rfl, ?_⟩
      rintro rfl
      exact hn (eq_zero_of_toDigits htext)

/-- Nor do its first digits. -/
theorem IsWhole.of_take {n k : Nat} (hn : n ≠ 0) (hk : 0 < k) :
    IsWhole ((Nat.toDigits 10 n).take k) := by
  have hall := areDigits_toDigits n
  cases htext : Nat.toDigits 10 n with
  | nil => exact absurd htext Nat.toDigits_ne_nil
  | cons c t =>
      rw [htext] at hall
      obtain ⟨k, rfl⟩ : ∃ j, k = j + 1 := ⟨k - 1, by omega⟩
      rw [List.take_succ_cons]
      refine .inr ⟨⟨List.cons_ne_nil _ _, ?_⟩, c, t.take k, rfl, ?_⟩
      · exact fun d hd => hall.2 d (List.mem_of_mem_take (List.take_succ_cons ▸ hd))
      · rintro rfl
        exact hn (eq_zero_of_toDigits htext)

/-- The digits that are left of a number. -/
theorem areDigits_drop {n k : Nat} (hk : k < (Nat.toDigits 10 n).length) :
    AreDigits ((Nat.toDigits 10 n).drop k) := by
  refine ⟨fun h => ?_, fun c hc => (areDigits_toDigits n).2 c (List.mem_of_mem_drop hc)⟩
  have hlength := congrArg List.length h
  rw [List.length_drop, List.length_nil] at hlength
  omega

/-- The digits of an exponent. -/
theorem areDigits_twoDigits (n : Nat) : AreDigits (twoDigits n).toList := by
  have hn : AreDigits (toString n).toList := by
    show AreDigits (Nat.repr n).toList
    rw [Nat.toList_repr]
    exact areDigits_toDigits n
  unfold twoDigits
  by_cases hsmall : n < 10
  · rw [if_pos hsmall, String.toList_append]
    exact AreDigits.append areDigits_zero hn.2
  · rw [if_neg hsmall]
    exact hn

/-! ## §2. The text of a float. -/

/-- The number that the digits around the point make. -/
def mantissa (whole frac : List Char) : Nat :=
  Nat.ofDigitChars 10 (whole ++ frac.drop 1) 0

/-- The power of ten that the last of these digits counts. -/
def power (frac ex : List Char) : Int :=
  (if (ex.drop 1).take 1 = ['-'] then -(Nat.ofDigitChars 10 (ex.drop 2) 0 : Int)
    else Nat.ofDigitChars 10 (ex.drop 2) 0) - (frac.drop 1).length

/-- Zeros in front do not count. -/
theorem ofDigitChars_zeros_append (k n : Nat) :
    Nat.ofDigitChars 10 (List.replicate k '0' ++ Nat.toDigits 10 n) 0 = n := by
  rw [Nat.ofDigitChars_append, Nat.ofDigitChars_replicate_zero, Nat.mul_zero,
    Nat.ofDigitChars_ten_toDigits]

/-- Zeros at the end do. -/
theorem ofDigitChars_append_zeros (k n : Nat) :
    Nat.ofDigitChars 10 (Nat.toDigits 10 n ++ List.replicate k '0') 0 = n * 10 ^ k := by
  rw [Nat.ofDigitChars_append, Nat.ofDigitChars_replicate_zero,
    Nat.ofDigitChars_ten_toDigits, Nat.mul_comm]

/-- The exponent is read back. -/
theorem ofDigitChars_twoDigits (n : Nat) :
    Nat.ofDigitChars 10 (twoDigits n).toList 0 = n := by
  have hdigits : (toString n).toList = Nat.toDigits 10 n := Nat.toList_repr
  unfold twoDigits
  by_cases hsmall : n < 10
  · rw [if_pos hsmall, String.toList_append, hdigits]
    exact ofDigitChars_zeros_append 1 n
  · rw [if_neg hsmall, hdigits, Nat.ofDigitChars_ten_toDigits]

/-- The exponent that `repr` writes. -/
theorem power_exponent (frac : List Char) (e : Int) :
    power frac ('e' :: (if e < 0 then '-' else '+') :: (twoDigits e.natAbs).toList) =
      e - (frac.drop 1).length := by
  unfold power
  simp only [List.drop_succ_cons, List.drop_zero, List.take_succ_cons, List.take_zero,
    ofDigitChars_twoDigits]
  by_cases he : e < 0
  · rw [if_pos he, if_pos rfl]
    omega
  · rw [if_neg he, if_neg (by decide)]
    omega

/-- The text of a float without its sign. -/
theorem body_parts (d : Decimal) : ∃ whole frac ex,
    d.repr = (if d.neg then "-" else "") ++ String.ofList (whole ++ (frac ++ ex)) ∧
      IsWhole whole ∧ IsFraction frac ∧ IsExponent ex ∧ (frac.isEmpty && ex.isEmpty) = false ∧
      ∃ k : Nat, mantissa whole frac = d.digits * 10 ^ k ∧ power frac ex = d.exp - k := by
  have hdigits : (toString d.digits).toList = Nat.toDigits 10 d.digits := Nat.toList_repr
  have hpos : 0 < (Nat.toDigits 10 d.digits).length :=
    List.length_pos_of_ne_nil Nat.toDigits_ne_nil
  -- zero is written with one digit and no exponent
  have hzero : d.digits = 0 → (Nat.toDigits 10 d.digits).length = 1 ∧ d.exp = 0 := by
    intro h
    have hnormal := d.normal
    rw [h]
    exact ⟨rfl, by omega⟩
  unfold Decimal.repr
  simp only [hdigits]
  generalize hlength : (Nat.toDigits 10 d.digits).length = len at hpos hzero
  by_cases hrange : -4 < (len : Int) + d.exp ∧ (len : Int) + d.exp ≤ 16
  · rw [if_pos hrange]
    by_cases hsmall : (len : Int) + d.exp ≤ 0
    · rw [if_pos hsmall]
      refine ⟨['0'], '.' :: (List.replicate (-((len : Int) + d.exp)).toNat '0' ++
        Nat.toDigits 10 d.digits), [], ?_, .inl rfl, .inr ⟨_, rfl, ?_⟩, .inl rfl, rfl, 0, ?_, ?_⟩
      · rw [List.append_nil]
        rfl
      · exact ⟨fun h => Nat.toDigits_ne_nil (List.append_eq_nil_iff.1 h).2,
          List.forall_mem_append.2 ⟨isDigit_replicate_zero _, (areDigits_toDigits _).2⟩⟩
      · rw [Nat.pow_zero, Nat.mul_one]
        exact ofDigitChars_zeros_append (_ + 1) d.digits
      · show 0 - (((List.replicate _ '0' ++ Nat.toDigits 10 d.digits).length : Nat) : Int) = _
        rw [List.length_append, List.length_replicate, hlength]
        omega
    rw [if_neg hsmall]
    by_cases hlarge : (len : Int) ≤ (len : Int) + d.exp
    · rw [if_pos hlarge]
      refine ⟨Nat.toDigits 10 d.digits ++ List.replicate d.exp.toNat '0', ".0".toList, [],
        by rw [List.append_nil], ?_, .inr ⟨['0'], rfl, areDigits_zero⟩, .inl rfl, rfl,
        d.exp.toNat + 1, ?_, ?_⟩
      · by_cases hn : d.digits = 0
        · rw [hn, (hzero hn).2]
          exact .inl rfl
        · exact .of_toDigits_append (isDigit_replicate_zero _) hn
      · show Nat.ofDigitChars 10 (_ ++ List.replicate 1 '0') 0 = _
        rw [List.append_assoc, List.replicate_append_replicate]
        exact ofDigitChars_append_zeros _ _
      · show 0 - ((1 : Nat) : Int) = _
        omega
    · rw [if_neg hlarge]
      have hn : d.digits ≠ 0 := by
        intro h
        have := hzero h
        omega
      refine ⟨(Nat.toDigits 10 d.digits).take ((len : Int) + d.exp).toNat,
        '.' :: (Nat.toDigits 10 d.digits).drop ((len : Int) + d.exp).toNat, [],
        by rw [List.append_nil], .of_take hn (by omega),
        .inr ⟨_, rfl, areDigits_drop (by omega)⟩, .inl rfl, rfl, 0, ?_, ?_⟩
      · rw [Nat.pow_zero, Nat.mul_one]
        unfold mantissa
        rw [List.drop_succ_cons, List.drop_zero, List.take_append_drop,
          Nat.ofDigitChars_ten_toDigits]
      · show 0 - ((List.drop 1 ('.' :: _)).length : Int) = _
        rw [List.drop_succ_cons, List.drop_zero, List.length_drop, hlength]
        omega
  · rw [if_neg hrange]
    have hn : d.digits ≠ 0 := by
      intro h
      have := hzero h
      omega
    have hsign : ∀ e : Int, [if e < 0 then '-' else '+'] = [] ∨
        [if e < 0 then '-' else '+'] = ['-'] ∨ [if e < 0 then '-' else '+'] = ['+'] := by
      intro e
      by_cases he : e < 0
      · exact .inr (.inl (by rw [if_pos he]))
      · exact .inr (.inr (by rw [if_neg he]))
    refine ⟨(Nat.toDigits 10 d.digits).take 1,
      if len = 1 then [] else '.' :: (Nat.toDigits 10 d.digits).drop 1,
      'e' :: (if (len : Int) + d.exp - 1 < 0 then '-' else '+') ::
        (twoDigits ((len : Int) + d.exp - 1).natAbs).toList,
      by rw [List.append_assoc], .of_take hn (by decide), ?_,
      .inr ⟨'e', [_], _, rfl, .inl rfl, hsign _, areDigits_twoDigits _⟩, Bool.and_false _, 0,
      ?_, ?_⟩
    · by_cases hone : len = 1
      · exact .inl (if_pos hone)
      · exact .inr ⟨_, if_neg hone, areDigits_drop (by omega)⟩
    · -- the digits are the first one and those after the point
      have hall : (Nat.toDigits 10 d.digits).take 1 ++
          (if len = 1 then [] else '.' :: (Nat.toDigits 10 d.digits).drop 1).drop 1 =
          Nat.toDigits 10 d.digits := by
        by_cases hone : len = 1
        · rw [if_pos hone, List.drop_nil, List.append_nil, List.take_of_length_le (by omega)]
        · rw [if_neg hone, List.drop_succ_cons, List.drop_zero, List.take_append_drop]
      unfold mantissa
      rw [hall, Nat.ofDigitChars_ten_toDigits, Nat.pow_zero, Nat.mul_one]
    · rw [power_exponent]
      by_cases hone : len = 1
      · rw [if_pos hone, hone]
        show _ - ((0 : Nat) : Int) = _
        omega
      · rw [if_neg hone, List.drop_succ_cons, List.drop_zero, List.length_drop, hlength]
        omega

/-- The parts of the text of a float. -/
theorem repr_parts (d : Decimal) : ∃ sign whole frac ex,
    d.repr.toList = sign ++ (whole ++ (frac ++ ex)) ∧ sign = (if d.neg then ['-'] else []) ∧
      IsWhole whole ∧ IsFraction frac ∧ IsExponent ex ∧ (frac.isEmpty && ex.isEmpty) = false ∧
      ∃ k : Nat, mantissa whole frac = d.digits * 10 ^ k ∧ power frac ex = d.exp - k := by
  obtain ⟨whole, frac, ex, htext, hparts⟩ := body_parts d
  refine ⟨if d.neg then ['-'] else [], whole, frac, ex, ?_, rfl, hparts⟩
  rw [htext, String.toList_append, String.toList_ofList]
  cases d.neg <;> rfl

/-- A minus sign stands before a float or nothing does. -/
theorem sign_cases (neg : Bool) :
    (if neg then ['-'] else []) = [] ∨ (if neg then ['-'] else []) = ['-'] := by
  cases neg
  · exact .inl rfl
  · exact .inr rfl

/-- The sign is read when there is one. -/
theorem sign_text {sign whole : List Char} (rest : List Char) (hsign : sign = [] ∨ sign = ['-'])
    (hwhole : IsWhole whole) :
    ((sign ++ (whole ++ rest)).take 1).filter (· == '-') = sign := by
  rcases hsign with rfl | rfl
  · obtain ⟨c, t, rfl, hc⟩ := hwhole.head
    have hne : (c == '-') = false := by
      rw [beq_eq_false_iff_ne]
      rintro rfl
      cases hc
    simp [hne]
  · rfl

/-! ## §3. Two floats have two texts. -/

/-- The number a text of a float stands for, with the digits it is written with. -/
def written (cs : List Char) : Bool × Nat × Int :=
  let sign := (cs.take 1).filter (· == '-')
  let body := cs.drop sign.length
  let whole := intDigits body
  let rest := body.drop whole.length
  let frac := fraction rest
  let ex := exponent (rest.drop frac.length)
  (!sign.isEmpty, mantissa whole frac, power frac ex)

/-- A float is written with its own digits, or with zeros after them. -/
theorem written_repr (d : Decimal) :
    ∃ k : Nat, written d.repr.toList = (d.neg, d.digits * 10 ^ k, d.exp - k) := by
  obtain ⟨sign, whole, frac, ex, htext, hneg, hwhole, hfrac, hex, -, k, hmantissa, hpower⟩ :=
    repr_parts d
  have hend : Delimited ([] : List Char) := .inl rfl
  have hminus := sign_text (frac ++ ex) (hneg ▸ sign_cases d.neg : sign = [] ∨ sign = ['-']) hwhole
  have hint : intDigits (whole ++ (frac ++ ex)) = whole := by
    have hstop := digits_after_whole hfrac hex hend
    rw [List.append_nil] at hstop
    exact intDigits_whole hwhole hstop
  have hfraction : fraction (frac ++ ex) = frac := by
    simpa only [List.append_nil] using fraction_text hfrac hex hend
  have hexponent : exponent ex = ex := by
    simpa only [List.append_nil] using exponent_text hex hend
  have hsign : (!sign.isEmpty) = d.neg := by
    rw [hneg]
    cases d.neg <;> rfl
  refine ⟨k, ?_⟩
  rw [htext]
  unfold written
  simp only [hminus, List.drop_left, hint, hfraction, hexponent, hsign, hmantissa, hpower]

/-- A number without a zero at its end has one way to be written. -/
theorem digits_eq_of_scaled {m n k : Nat} {e f : Int} (h : m = n * 10 ^ k) (hexp : e + k = f)
    (hm : m % 10 ≠ 0 ∨ (m = 0 ∧ e = 0)) (hn : n % 10 ≠ 0 ∨ (n = 0 ∧ f = 0)) : m = n ∧ e = f := by
  cases k with
  | zero =>
      rw [Nat.pow_zero, Nat.mul_one] at h
      exact ⟨h, by omega⟩
  | succ k =>
      have hten : m % 10 = 0 := by
        rw [h, Nat.pow_succ, ← Nat.mul_assoc]
        exact Nat.mul_mod_left _ _
      obtain ⟨hm, he⟩ := hm.resolve_left (fun hne => hne hten)
      have hzero : n = 0 := by
        by_contra hne
        have hpos : 0 < n * 10 ^ (k + 1) :=
          Nat.mul_pos (Nat.pos_of_ne_zero hne) (Nat.pow_pos (by decide))
        omega
      omega

/-- **Two floats have two texts.** -/
theorem repr_injective {d e : Decimal} (h : d.repr = e.repr) : d = e := by
  obtain ⟨k, hd⟩ := written_repr d
  obtain ⟨l, he⟩ := written_repr e
  rw [h, he] at hd
  simp only [Prod.mk.injEq] at hd
  obtain ⟨hneg, hdigits, hexp⟩ := hd
  obtain ⟨dneg, m, x, hm⟩ := d
  obtain ⟨eneg, n, y, hn⟩ := e
  dsimp only at hneg hdigits hexp
  have hboth : m = n ∧ x = y := by
    rcases Nat.le_total k l with hkl | hlk
    · -- `e` has the more zeros, so the digits of `d` are those of `e` and zeros
      have hscale : m = n * 10 ^ (l - k) := by
        refine Nat.eq_of_mul_eq_mul_right (Nat.pow_pos (n := k) (by decide : 0 < 10)) ?_
        rw [Nat.mul_assoc, ← Nat.pow_add, Nat.sub_add_cancel hkl, hdigits]
      exact digits_eq_of_scaled hscale (by omega) hm hn
    · have hscale : n = m * 10 ^ (k - l) := by
        refine Nat.eq_of_mul_eq_mul_right (Nat.pow_pos (n := l) (by decide : 0 < 10)) ?_
        rw [Nat.mul_assoc, ← Nat.pow_add, Nat.sub_add_cancel hlk, hdigits]
      obtain ⟨hnm, hyx⟩ := digits_eq_of_scaled hscale (by omega) hn hm
      exact ⟨hnm.symm, hyx.symm⟩
  obtain ⟨rfl, rfl⟩ := hboth
  obtain rfl := hneg
  rfl

end Json

end Rpy.Foundation

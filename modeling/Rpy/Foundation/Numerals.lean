/-
  Rpy.Foundation.Numerals
  ───────────────────────
  **COMPARING NUMERALS DIGIT BY DIGIT.**

  A numeral is the list of its digits, the highest one first.  Without
  leading zeros the longer of two numerals is the greater one, and of two
  that are as long the one that comes later in the order of dictionaries.

    • `numeral`             — the value of a numeral,
    • `numeral_dropZeros`   — leading zeros do not count,
    • `numeral_lt_iff`      — numerals of one length,
    • `exceeds`, `exceeds_iff` — numerals without leading zeros,
    • `numeral_toDigits`    — the digits that are written of a number.
-/
import Mathlib.Data.List.Lex
import Mathlib.Data.Nat.Digits.Defs

namespace Rpy.Foundation

/-! ## §1. Values. -/

/-- The value of a numeral in base `b`. -/
def numeral (b : Nat) (ds : List Nat) : Nat := Nat.ofDigits b ds.reverse

variable {b : Nat} {ds es : List Nat}

@[simp] theorem numeral_nil : numeral b [] = 0 := rfl

theorem numeral_cons (d : Nat) (ds : List Nat) :
    numeral b (d :: ds) = d * b ^ ds.length + numeral b ds := by
  unfold numeral
  rw [List.reverse_cons, Nat.ofDigits_append, Nat.ofDigits_singleton, List.length_reverse,
    Nat.mul_comm, Nat.add_comm]

/-- The value as it is computed from the left. -/
theorem numeral_eq_foldl (ds : List Nat) :
    numeral b ds = ds.foldl (fun n d => b * n + d) 0 := by
  unfold numeral
  rw [Nat.ofDigits_eq_foldr, List.foldr_reverse]
  simp [Nat.add_comm]

theorem numeral_lt_pow (hds : ∀ d ∈ ds, d < b) : numeral b ds < b ^ ds.length := by
  induction ds with
  | nil => exact Nat.one_pos
  | cons d ds ih =>
      obtain ⟨hd, hds⟩ := List.forall_mem_cons.1 hds
      have hrest := ih hds
      have hfirst : (d + 1) * b ^ ds.length ≤ b * b ^ ds.length := Nat.mul_le_mul_right _ hd
      rw [numeral_cons, List.length_cons, Nat.pow_succ, Nat.mul_comm (b ^ ds.length)]
      rw [Nat.add_mul, Nat.one_mul] at hfirst
      omega

/-- Leading zeros do not count. -/
theorem numeral_dropZeros (ds : List Nat) :
    numeral b (ds.dropWhile (· == 0)) = numeral b ds := by
  induction ds with
  | nil => rfl
  | cons d ds ih =>
      cases d with
      | zero =>
          show numeral b (ds.dropWhile (· == 0)) = _
          rw [ih, numeral_cons, Nat.zero_mul, Nat.zero_add]
      | succ d => rfl

theorem pow_le_numeral {d : Nat} (hd : d ≠ 0) (ds : List Nat) :
    b ^ ds.length ≤ numeral b (d :: ds) := by
  have hfirst : 1 * b ^ ds.length ≤ d * b ^ ds.length :=
    Nat.mul_le_mul_right _ (Nat.pos_of_ne_zero hd)
  rw [numeral_cons]
  omega

/-! ## §2. Order. -/

/-- **Of two numerals of one length the lesser comes first in the order of
dictionaries.** -/
theorem numeral_lt_iff : ∀ {ds es : List Nat}, ds.length = es.length → (∀ d ∈ ds, d < b) →
    (∀ e ∈ es, e < b) → (numeral b ds < numeral b es ↔ ds < es) := by
  intro ds
  induction ds with
  | nil =>
      intro es hlength _ _
      obtain rfl := List.length_eq_zero_iff.1 hlength.symm
      exact iff_of_false (Nat.lt_irrefl _) (List.lt_irrefl _)
  | cons d ds ih =>
      intro es hlength hds hes
      cases es with
      | nil => cases hlength
      | cons e es =>
          obtain ⟨hd, hds⟩ := List.forall_mem_cons.1 hds
          obtain ⟨he, hes⟩ := List.forall_mem_cons.1 hes
          have hrest : ds.length = es.length := Nat.succ.inj hlength
          have hlow := numeral_lt_pow hds
          have hlow' := numeral_lt_pow hes
          rw [← hrest] at hlow'
          rw [List.cons_lt_cons_iff, numeral_cons, numeral_cons, ← hrest, ← ih hrest hds hes]
          rcases Nat.lt_trichotomy d e with hlt | rfl | hgt
          · -- the first digit decides
            have hstep : (d + 1) * b ^ ds.length ≤ e * b ^ ds.length :=
              Nat.mul_le_mul_right _ hlt
            rw [Nat.add_mul, Nat.one_mul] at hstep
            exact iff_of_true (by omega) (.inl hlt)
          · constructor
            · intro h
              exact .inr ⟨rfl, by omega⟩
            · rintro (h | ⟨-, h⟩)
              · exact absurd h (Nat.lt_irrefl _)
              · omega
          · have hstep : (e + 1) * b ^ ds.length ≤ d * b ^ ds.length :=
              Nat.mul_le_mul_right _ hgt
            rw [Nat.add_mul, Nat.one_mul] at hstep
            refine iff_of_false (by omega) ?_
            rintro (h | ⟨h, -⟩)
            · exact absurd h (Nat.lt_asymm hgt)
            · exact absurd h (Nat.ne_of_gt hgt)

/-- A numeral without leading zeros; the numeral of zero is one zero. -/
def Trimmed (ds : List Nat) : Prop := ds = [0] ∨ ∃ d rest, ds = d :: rest ∧ d ≠ 0

/-- Is the first numeral longer, or as long and later in the order of
dictionaries? -/
def exceeds {α : Type*} [LT α] [DecidableEq α] [DecidableLT α] (ds es : List α) : Bool :=
  es.length < ds.length || (ds.length == es.length && decide (es < ds))

/-- A longer numeral is the greater one, but for zero. -/
theorem numeral_lt_of_length_lt (hds : ∀ d ∈ ds, d < b) (hes : Trimmed es)
    (hlength : ds.length < es.length) (hne : ds ≠ []) : numeral b ds < numeral b es := by
  rcases hes with rfl | ⟨e, rest, rfl, he⟩
  · rw [List.length_singleton, Nat.lt_one_iff, List.length_eq_zero_iff] at hlength
    exact absurd hlength hne
  · have hb : 0 < b := by
      obtain ⟨d, hd⟩ := List.exists_mem_of_ne_nil ds hne
      exact Nat.lt_of_le_of_lt (Nat.zero_le d) (hds d hd)
    calc numeral b ds < b ^ ds.length := numeral_lt_pow hds
      _ ≤ b ^ rest.length := Nat.pow_le_pow_right hb (Nat.le_of_lt_succ hlength)
      _ ≤ numeral b (e :: rest) := pow_le_numeral he rest

theorem Trimmed.ne_nil (h : Trimmed ds) : ds ≠ [] := by
  rcases h with rfl | ⟨d, rest, rfl, -⟩
  · exact List.cons_ne_nil _ _
  · exact List.cons_ne_nil _ _

/-- **Of two numerals without leading zeros the one that exceeds is the
greater.** -/
theorem exceeds_iff (hds : ∀ d ∈ ds, d < b) (hes : ∀ e ∈ es, e < b) (ht : Trimmed ds)
    (ht' : Trimmed es) : exceeds ds es = true ↔ numeral b es < numeral b ds := by
  unfold exceeds
  rw [Bool.or_eq_true, decide_eq_true_eq, Bool.and_eq_true, beq_iff_eq, decide_eq_true_eq]
  rcases Nat.lt_trichotomy ds.length es.length with hshort | hsame | hlong
  · have hlt := numeral_lt_of_length_lt hds ht' hshort ht.ne_nil
    exact iff_of_false (by omega) (by omega)
  · rw [numeral_lt_iff hsame.symm hes hds]
    constructor
    · rintro (h | ⟨-, h⟩)
      · omega
      · exact h
    · intro h
      exact .inr ⟨hsame, h⟩
  · exact iff_of_true (.inl hlong) (numeral_lt_of_length_lt hes ht hlong ht'.ne_nil)

/-! ## §3. Digits that are written. -/

/-- Only zero is written with a zero first. -/
theorem eq_zero_of_toDigits {n : Nat} {t : List Char} (h : Nat.toDigits 10 n = '0' :: t) :
    n = 0 := by
  induction n using Nat.strongRecOn generalizing t with
  | ind n ih =>
      by_cases hn : n < 10
      · rw [Nat.toDigits_of_lt_base hn, List.cons.injEq, Nat.digitChar_eq_zero] at h
        exact h.1
      · rw [Nat.toDigits_of_base_le (by decide) (by omega)] at h
        cases hhead : Nat.toDigits 10 (n / 10) with
        | nil => exact absurd hhead Nat.toDigits_ne_nil
        | cons c cs =>
            rw [hhead, List.cons_append, List.cons.injEq] at h
            have hzero := ih (n / 10) (by omega) (by rw [hhead, h.1])
            omega

theorem digit_bounds {c : Char} (h : c.isDigit = true) : 48 ≤ c.toNat ∧ c.toNat ≤ 57 := by
  rw [Char.isDigit, Bool.and_eq_true, decide_eq_true_eq, decide_eq_true_eq] at h
  exact ⟨UInt32.le_iff_toNat_le.1 h.1, UInt32.le_iff_toNat_le.1 h.2⟩

/-- A digit other than the zero has a value other than zero. -/
theorem digit_ne_zero {c : Char} (h : c.isDigit = true) (hc : c ≠ '0') :
    c.toNat - '0'.toNat ≠ 0 := by
  intro hzero
  have hbounds := digit_bounds h
  have hsame : c.toNat = '0'.toNat := by
    show c.toNat = 48
    change c.toNat - 48 = 0 at hzero
    omega
  exact hc (Char.toNat_inj.1 hsame)

/-- The digits of a number have no leading zero. -/
theorem trimmed_toDigits (n : Nat) :
    Trimmed ((Nat.toDigits 10 n).map fun c => c.toNat - '0'.toNat) := by
  by_cases hn : n = 0
  · rw [hn]
    exact .inl rfl
  · cases htext : Nat.toDigits 10 n with
    | nil => exact absurd htext Nat.toDigits_ne_nil
    | cons c cs =>
        have hdigit : c.isDigit = true :=
          Nat.isDigit_of_mem_toDigits (b := 10) (n := n) (by decide) (by decide)
            (htext ▸ List.mem_cons_self)
        refine .inr ⟨_, _, rfl, digit_ne_zero hdigit ?_⟩
        rintro rfl
        exact hn (eq_zero_of_toDigits htext)

/-- The value of the digits of a number. -/
theorem numeral_toDigits (n : Nat) :
    numeral 10 ((Nat.toDigits 10 n).map fun c => c.toNat - '0'.toNat) = n := by
  rw [numeral_eq_foldl, List.foldl_map, ← Nat.ofDigitChars_eq_foldl,
    Nat.ofDigitChars_ten_toDigits]

/-- Lists compare as their images do, where their members do. -/
theorem map_lt_map_iff {α β : Type*} [LT α] [LT β] {f : α → β} : ∀ {xs ys : List α},
    (∀ x ∈ xs, ∀ y ∈ ys, (f x < f y ↔ x < y) ∧ (f x = f y ↔ x = y)) →
      (xs.map f < ys.map f ↔ xs < ys) := by
  intro xs
  induction xs with
  | nil =>
      intro ys _
      cases ys with
      | nil => exact iff_of_false (List.not_lt_nil _) (List.not_lt_nil _)
      | cons y ys => exact iff_of_true (List.nil_lt_cons _ _) (List.nil_lt_cons _ _)
  | cons x xs ih =>
      intro ys h
      cases ys with
      | nil => exact iff_of_false (List.not_lt_nil _) (List.not_lt_nil _)
      | cons y ys =>
          obtain ⟨hlt, heq⟩ := h x List.mem_cons_self y List.mem_cons_self
          have hrest := ih fun x' hx' y' hy' =>
            h x' (List.mem_cons_of_mem x hx') y' (List.mem_cons_of_mem y hy')
          rw [List.map_cons, List.map_cons, List.cons_lt_cons_iff, List.cons_lt_cons_iff, hlt, heq,
            hrest]

end Rpy.Foundation

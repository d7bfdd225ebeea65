/-
  Rpy.Foundation.Shortlist
  ────────────────────────
  **THE BEST OF A LIST.**

  To order a list and to keep a prefix of it is to keep its best elements.
  The file names nothing of any particular program.

    • `pairwise_insertionSort_of` — a list ordered by a total preorder,
    • `pairwise_insertionSort_by`  — by a key first, by something else where
                                    the keys are equal,
    • `rel_of_mem_take`           — a kept element is before one left out,
    • `mem_take_iff_count`        — the first elements, by what is before them,
    • `mem_drop_iff_count`        — the last elements, by what is above them,
    • `length_filter_le_of_subset` — counting along an inclusion,
    • `length_filter_take_iff`    — filtering after the cut, and before it.
-/
import Mathlib.Data.List.Sort

namespace Rpy.Foundation

variable {α : Type*}

/-! ## §1. Ordering. -/

/-- A list ordered by insertion is ordered. -/
theorem pairwise_insertionSort_of {r : α → α → Prop} [DecidableRel r]
    (total : ∀ a b, r a b ∨ r b a) (trans : ∀ a b c, r a b → r b c → r a c) (l : List α) :
    (l.insertionSort r).Pairwise r := by
  have : Std.Total r := ⟨total⟩
  have : IsTrans α r := ⟨trans⟩
  exact List.pairwise_insertionSort r l

/-- **A list ordered by a key**, and where two keys are equal by `tie`. -/
theorem pairwise_insertionSort_by {β : Type*} {r : β → β → Prop} (irrefl : ∀ x, ¬r x x)
    (trans : ∀ x y z, r x y → r y z → r x z) (total : ∀ x y, r x y ∨ x = y ∨ r y x)
    (key : α → β) {tie : α → α → Prop} (tieTotal : ∀ a b, tie a b ∨ tie b a)
    (tieTrans : ∀ a b c, tie a b → tie b c → tie a c)
    [DecidableRel fun a b => r (key a) (key b) ∨ (¬r (key b) (key a) ∧ tie a b)] (l : List α) :
    (l.insertionSort fun a b => r (key a) (key b) ∨ (¬r (key b) (key a) ∧ tie a b)).Pairwise
      fun a b => r (key a) (key b) ∨ (¬r (key b) (key a) ∧ tie a b) := by
  -- what is not above comes before, through anything in between
  have hleft : ∀ {x y z : β}, ¬r y x → r y z → r x z := by
    intro x y z hyx hyz
    rcases total x y with hxy | rfl | hxy
    · exact trans x y z hxy hyz
    · exact hyz
    · exact absurd hxy hyx
  refine pairwise_insertionSort_of (fun a b => ?_) (fun a b c hab hbc => ?_) l
  · rcases total (key a) (key b) with hlt | heq | hlt
    · exact .inl (.inl hlt)
    · rw [heq]
      exact (tieTotal a b).imp (fun hle => .inr ⟨irrefl _, hle⟩) fun hle => .inr ⟨irrefl _, hle⟩
    · exact .inr (.inl hlt)
  · rcases hab with hab | ⟨hab, htie⟩
    · refine .inl ?_
      rcases hbc with hbc | ⟨hbc, -⟩
      · exact trans _ _ _ hab hbc
      · rcases total (key b) (key c) with hlt | heq | hlt
        · exact trans _ _ _ hab hlt
        · exact heq ▸ hab
        · exact absurd hlt hbc
    · rcases hbc with hbc | ⟨hbc, htie'⟩
      · exact .inl (hleft hab hbc)
      · refine .inr ⟨fun hca => ?_, tieTrans a b c htie htie'⟩
        rcases total (key b) (key c) with hlt | heq | hlt
        · exact hab (trans _ _ _ hlt hca)
        · exact hab (heq ▸ hca)
        · exact hbc hlt

/-- **A kept element is before every element that is left out.** -/
theorem rel_of_mem_take {r : α → α → Prop} {l : List α} (hl : l.Pairwise r) {k : Nat} {x y : α}
    (hx : x ∈ l.take k) (hy : y ∈ l) (hout : y ∉ l.take k) : r x y := by
  rw [← List.take_append_drop k l] at hl hy
  rcases List.mem_append.1 hy with hy | hy
  · exact absurd hy hout
  · exact (List.pairwise_append.1 hl).2.2 x hx y hy

/-- **The last elements of an ordered list** are those that have few above
them. -/
theorem mem_drop_iff_count {f : α → Int} {l : List α} (hl : l.Pairwise fun a b => f a < f b)
    {k : Nat} {x : α} (hx : x ∈ l) :
    x ∈ l.drop (l.length - k) ↔ (l.filter fun y => f x < f y).length < k := by
  induction l with
  | nil => cases hx
  | cons a l ih =>
      rw [List.pairwise_cons] at hl
      rcases List.mem_cons.1 hx with rfl | hx
      · -- everything that follows the first is above it
        have habove : (x :: l).filter (fun y => decide (f x < f y)) = l := by
          rw [List.filter_cons_of_neg (by simp)]
          exact List.filter_eq_self.2 fun y hy => decide_eq_true (hl.1 y hy)
        rw [habove, List.length_cons]
        by_cases hk : l.length < k
        · rw [show l.length + 1 - k = 0 by omega]
          exact iff_of_true List.mem_cons_self hk
        · rw [show l.length + 1 - k = (l.length - k) + 1 by omega, List.drop_succ_cons]
          refine iff_of_false (fun hmem => ?_) hk
          exact absurd (hl.1 x (List.mem_of_mem_drop hmem)) (lt_irrefl _)
      · have hfirst : (a :: l).filter (fun y => decide (f x < f y)) =
            l.filter fun y => decide (f x < f y) := by
          refine List.filter_cons_of_neg ?_
          have hlt := hl.1 x hx
          simp only [decide_eq_true_eq]
          omega
        rw [hfirst, List.length_cons]
        by_cases hk : l.length < k
        · rw [show l.length + 1 - k = 0 by omega]
          refine iff_of_true (List.mem_cons_of_mem _ hx) ?_
          exact Nat.lt_of_le_of_lt (List.length_filter_le _ _) hk
        · rw [show l.length + 1 - k = (l.length - k) + 1 by omega, List.drop_succ_cons]
          exact ih hl.2 hx

/-- **The first elements of an ordered list** are those that have few before
them. -/
theorem mem_take_iff_count {lt : α → α → Bool} (irrefl : ∀ a, lt a a = false)
    (asymm : ∀ a b, lt a b = true → lt b a = false) {l : List α}
    (hl : l.Pairwise fun a b => lt a b = true) {k : Nat} {x : α} (hx : x ∈ l) :
    x ∈ l.take k ↔ (l.filter fun y => lt y x).length < k := by
  induction l generalizing k with
  | nil => cases hx
  | cons a l ih =>
      rw [List.pairwise_cons] at hl
      cases k with
      | zero =>
          rw [List.take_zero]
          exact iff_of_false (List.not_mem_nil) (Nat.not_lt_zero _)
      | succ k =>
          rw [List.take_succ_cons]
          rcases List.mem_cons.1 hx with rfl | hx
          · -- nothing is before the first
            have hnone : (x :: l).filter (fun y => lt y x) = [] := by
              refine List.filter_eq_nil_iff.2 fun y hy => ?_
              rcases List.mem_cons.1 hy with rfl | hy
              · rw [irrefl]
                exact Bool.false_ne_true
              · rw [asymm x y (hl.1 y hy)]
                exact Bool.false_ne_true
            rw [hnone]
            exact iff_of_true List.mem_cons_self (Nat.succ_pos k)
          · have hlt := hl.1 x hx
            have hne : x ≠ a := by
              intro heq
              rw [heq, irrefl] at hlt
              cases hlt
            have hcount : (a :: l).filter (fun y => lt y x) = a :: l.filter fun y => lt y x :=
              List.filter_cons_of_pos hlt
            rw [hcount, List.length_cons, List.mem_cons, or_iff_right hne, ih hl.2 hx]
            omega

/-- The first element of an ordered list is the one nothing is below. -/
theorem mem_take_one_iff {f : α → Int} {l : List α} (hl : l.Pairwise fun a b => f a < f b)
    {x : α} (hx : x ∈ l) : x ∈ l.take 1 ↔ ∀ y ∈ l, f x ≤ f y := by
  cases l with
  | nil => cases hx
  | cons a l =>
      rw [List.pairwise_cons] at hl
      rw [List.take_succ_cons, List.take_zero, List.mem_singleton]
      constructor
      · rintro rfl y hy
        rcases List.mem_cons.1 hy with rfl | hy
        · exact le_refl _
        · exact le_of_lt (hl.1 y hy)
      · intro hleast
        rcases List.mem_cons.1 hx with hxa | hx
        · exact hxa
        · have hle := hleast a List.mem_cons_self
          have hlt := hl.1 x hx
          omega

/-! ## §2. Counting. -/

/-- Counting along an inclusion. -/
theorem length_filter_le_of_subset {xs ys : List α} (hxs : xs.Nodup) {p q : α → Bool}
    (h : ∀ x ∈ xs, p x = true → x ∈ ys ∧ q x = true) :
    (xs.filter p).length ≤ (ys.filter q).length := by
  refine (List.subperm_of_subset (hxs.filter p) fun x hx => ?_).length_le
  obtain ⟨hmem, hp⟩ := List.mem_filter.1 hx
  obtain ⟨hy, hq⟩ := h x hmem hp
  exact List.mem_filter.2 ⟨hy, hq⟩

/-- **Filtering what was kept** gives as many as keeping what was filtered,
exactly when nothing that is filtered out was kept before the rest. -/
theorem length_filter_take_iff {l : List α} (hl : l.Nodup) (p : α → Bool) (k : Nat) :
    ((l.take k).filter p).length = min k (l.filter p).length ↔
      ∀ x ∈ l.take k, p x = false → ∀ y ∈ l, p y = true → y ∈ l.take k := by
  have hsplit : (l.filter p).length =
      ((l.take k).filter p).length + ((l.drop k).filter p).length := by
    rw [← List.length_append, ← List.filter_append, List.take_append_drop]
  have htake : (l.take k).length = min k l.length := List.length_take
  have hdrop : (l.drop k).length = l.length - k := List.length_drop
  have hkept : ((l.take k).filter p).length ≤ (l.take k).length := List.length_filter_le _ _
  have hleft : ((l.drop k).filter p).length ≤ (l.drop k).length := List.length_filter_le _ _
  constructor
  · intro hcount x hx hpx y hy hpy
    have hless : ((l.take k).filter p).length < (l.take k).length := by
      refine List.length_filter_lt_length_iff_exists.2 ⟨x, hx, ?_⟩
      rw [hpx]
      exact Bool.false_ne_true
    have hnone : (l.drop k).filter p = [] := List.length_eq_zero_iff.1 (by omega)
    rw [← List.take_append_drop k l] at hy
    rcases List.mem_append.1 hy with hy | hy
    · exact hy
    · rw [List.filter_eq_nil_iff] at hnone
      exact absurd hpy (hnone y hy)
  · intro hclear
    by_cases hall : ∀ x ∈ l.take k, p x = true
    · rw [List.filter_eq_self.2 hall] at hsplit ⊢
      omega
    · obtain ⟨x, hx⟩ := not_forall.1 hall
      obtain ⟨hx, hpx⟩ := Classical.not_imp.1 hx
      have hnone : (l.drop k).filter p = [] := by
        refine List.filter_eq_nil_iff.2 fun y hy hpy => ?_
        have hkeep := hclear x hx (by simpa using hpx) y (List.mem_of_mem_drop hy) hpy
        exact List.disjoint_take_drop hl (le_refl k) hkeep hy
      rw [hnone, List.length_nil, Nat.add_zero] at hsplit
      omega

end Rpy.Foundation

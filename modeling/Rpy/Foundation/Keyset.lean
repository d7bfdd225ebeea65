/-
  Rpy.Foundation.Keyset
  ─────────────────────
  **READING A TABLE PAGE BY PAGE.**

  A page is what follows a key, in the order of the keys, up to a limit.
  A reader that asks for what follows the last key it has seen goes over the
  ordered table once.  The file names nothing of any particular program.

    • `filter_insertionSort` — to filter and to order commute,
    • `flatten_chunks`       — chunks of a list, one after the other,
    • `filter_take_eq_drop`  — what is left after a prefix is dealt with,
    • `inOrder_append`       — rows with later keys come after,
    • `page_of_split`        — a page is the beginning of what is left.
-/
import Mathlib.Data.List.Sort
import Mathlib.Order.Basic

namespace Rpy.Foundation

variable {α κ : Type*}

/-! ## §1. Ordering and filtering. -/

section Filter

variable {r : α → α → Prop} [DecidableRel r]

theorem filter_orderedInsert_of_not (p : α → Bool) {a : α} (ha : p a = false) (l : List α) :
    (l.orderedInsert r a).filter p = l.filter p := by
  induction l with
  | nil => simp [ha]
  | cons b l ih =>
      rw [List.orderedInsert_cons]
      split
      · simp [ha]
      · simp only [List.filter_cons, ih]

theorem filter_orderedInsert_of_pos (trans : ∀ a b c, r a b → r b c → r a c) (p : α → Bool)
    {a : α} (ha : p a = true) {l : List α} (hl : l.Pairwise r) :
    (l.orderedInsert r a).filter p = (l.filter p).orderedInsert r a := by
  induction l with
  | nil => simp [ha]
  | cons b l ih =>
      obtain ⟨hb, hl⟩ := List.pairwise_cons.1 hl
      rw [List.orderedInsert_cons]
      by_cases hab : r a b
      · rw [if_pos hab, List.filter_cons_of_pos ha]
        cases hkept : (b :: l).filter p with
        | nil => rfl
        | cons c rest =>
            -- the first element that is kept is not before `b`
            have hc : r a c := by
              have hmem : c ∈ b :: l := (List.mem_filter.1 (hkept ▸ List.mem_cons_self)).1
              rcases List.mem_cons.1 hmem with rfl | hmem
              · exact hab
              · exact trans _ _ _ hab (hb c hmem)
            rw [List.orderedInsert_cons, if_pos hc]
      · rw [if_neg hab]
        cases hpb : p b with
        | false => rw [List.filter_cons_of_neg (by simp [hpb]),
            List.filter_cons_of_neg (by simp [hpb]), ih hl]
        | true => rw [List.filter_cons_of_pos hpb, List.filter_cons_of_pos hpb, ih hl,
            List.orderedInsert_cons, if_neg hab]

/-- **To filter and to order commute**: the order is stable. -/
theorem filter_insertionSort (total : ∀ a b, r a b ∨ r b a)
    (trans : ∀ a b c, r a b → r b c → r a c) (p : α → Bool) (l : List α) :
    (l.insertionSort r).filter p = (l.filter p).insertionSort r := by
  have : Std.Total r := ⟨total⟩
  have : IsTrans α r := ⟨trans⟩
  induction l with
  | nil => rfl
  | cons a l ih =>
      rw [List.insertionSort_cons]
      cases ha : p a with
      | false => rw [filter_orderedInsert_of_not p ha, ih,
          List.filter_cons_of_neg (by simp [ha])]
      | true => rw [filter_orderedInsert_of_pos trans p ha (List.pairwise_insertionSort r l), ih,
          List.filter_cons_of_pos ha, List.insertionSort_cons]

end Filter

/-! ## §2. Chunks. -/

/-- **The first `n` chunks of `k` elements** are the first `n * k` elements. -/
theorem flatten_chunks (k n : Nat) (rows : List α) :
    ((List.range n).map fun i => (rows.drop (i * k)).take k).flatten = rows.take (n * k) := by
  induction n with
  | zero => simp
  | succ n ih =>
      rw [List.range_succ, List.map_append, List.flatten_append, ih, Nat.succ_mul, List.take_add]
      simp

/-- What is left of a list without the names of its first elements. -/
theorem filter_take_eq_drop [BEq κ] [LawfulBEq κ] {key : α → κ} {l : List α}
    (h : (l.map key).Nodup) (n : Nat) :
    (l.filter fun a => !((l.take n).map key).contains (key a)) = l.drop n := by
  have hsplit : (((l.take n) ++ (l.drop n)).map key).Nodup := (List.take_append_drop n l).symm ▸ h
  rw [List.map_append, List.nodup_append] at hsplit
  conv_lhs => arg 2; rw [← List.take_append_drop n l]
  rw [List.filter_append, List.filter_eq_nil_iff.2, List.nil_append, List.filter_eq_self]
  · intro a ha
    rw [Bool.not_eq_true', ← Bool.not_eq_true, List.contains_iff_mem]
    exact fun hmem => hsplit.2.2 _ hmem _ (List.mem_map_of_mem ha) rfl
  · intro a ha
    rw [Bool.not_eq_true, Bool.not_eq_false', List.contains_iff_mem]
    exact List.mem_map_of_mem ha

/-! ## §3. Pages. -/

section Pages

variable [LinearOrder κ]

/-- `WHERE key > after ORDER BY key LIMIT limit`. -/
def page (key : α → κ) (limit : Nat) (after : Option κ) (rows : List α) : List α :=
  ((rows.filter fun row => after.all fun k => decide (k < key row)).insertionSort
    fun a b => key a ≤ key b).take limit

/-- The rows by their keys. -/
def inOrder (key : α → κ) (rows : List α) : List α :=
  rows.insertionSort fun a b => key a ≤ key b

theorem perm_inOrder (key : α → κ) (rows : List α) : (inOrder key rows).Perm rows :=
  List.perm_insertionSort _ rows

/-- Where no two rows have one key, the rows in order have increasing keys. -/
theorem pairwise_inOrder {key : α → κ} {rows : List α} (h : (rows.map key).Nodup) :
    (inOrder key rows).Pairwise fun a b => key a < key b := by
  have : Std.Total fun a b : α => key a ≤ key b := ⟨fun a b => le_total (key a) (key b)⟩
  have : IsTrans α fun a b => key a ≤ key b := ⟨fun _ _ _ => le_trans⟩
  have hle := List.pairwise_insertionSort (fun a b : α => key a ≤ key b) rows
  have hne : (inOrder key rows).Pairwise fun a b => key a ≠ key b :=
    List.pairwise_map.1 (((perm_inOrder key rows).map key).nodup_iff.2 h)
  exact (hle.and hne).imp fun h => lt_of_le_of_ne h.1 h.2

/-- The rows of a table come in one order, however they are listed. -/
theorem inOrder_eq_of_perm {key : α → κ} {xs ys : List α} (hperm : xs.Perm ys)
    (h : (ys.map key).Nodup) : inOrder key xs = inOrder key ys :=
  List.Perm.eq_of_pairwise (fun _ _ _ _ hab hba => absurd hab (lt_asymm hba))
    (pairwise_inOrder ((hperm.map key).nodup_iff.2 h)) (pairwise_inOrder h)
    ((perm_inOrder key xs).trans (hperm.trans (perm_inOrder key ys).symm))

/-- Rows with later keys come after. -/
theorem inOrder_append {key : α → κ} {xs ys : List α} (h : ((xs ++ ys).map key).Nodup)
    (hlater : ∀ x ∈ xs, ∀ y ∈ ys, key x < key y) :
    inOrder key (xs ++ ys) = inOrder key xs ++ inOrder key ys := by
  have hparts := h
  rw [List.map_append, List.nodup_append] at hparts
  refine List.Perm.eq_of_pairwise (fun _ _ _ _ hab hba => absurd hab (lt_asymm hba))
    (pairwise_inOrder h) ?_ ((perm_inOrder key _).trans
      ((perm_inOrder key xs).append (perm_inOrder key ys)).symm)
  refine List.pairwise_append.2 ⟨pairwise_inOrder hparts.1, pairwise_inOrder hparts.2.1, ?_⟩
  exact fun x hx y hy => hlater x ((perm_inOrder key xs).mem_iff.1 hx) y
    ((perm_inOrder key ys).mem_iff.1 hy)

/-- **A page is the beginning of what is left**, where the key is that of
the last row seen. -/
theorem page_of_split {key : α → κ} {rows seen left : List α} (h : (rows.map key).Nodup)
    (hsplit : inOrder key rows = seen ++ left) (limit : Nat) :
    page key limit (seen.getLast?.map key) rows = left.take limit := by
  have hsorted := pairwise_inOrder h
  rw [hsplit] at hsorted
  obtain ⟨hseen, -, hbefore⟩ := List.pairwise_append.1 hsorted
  unfold page
  rw [← filter_insertionSort (fun a b => le_total (key a) (key b)) fun _ _ _ => le_trans]
  show ((inOrder key rows).filter _).take limit = _
  rw [hsplit, List.filter_append]
  rcases List.eq_nil_or_concat' seen with rfl | ⟨front, last, rfl⟩
  · simp
  · have hfront : ∀ row ∈ front ++ [last], ¬key last < key row := by
      intro row hrow
      rcases List.mem_append.1 hrow with hrow | hrow
      · exact not_lt_of_gt ((List.pairwise_append.1 hseen).2.2 row hrow last (by simp))
      · rw [List.mem_singleton.1 hrow]
        exact lt_irrefl _
    have hleft : ∀ row ∈ left, key last < key row := hbefore last (by simp)
    have hlast : (front ++ [last]).getLast?.map key = some (key last) := by simp
    simp only [hlast, Option.all_some]
    rw [List.filter_eq_nil_iff.2 (by simpa using hfront), List.nil_append,
      List.filter_eq_self.2 (by simpa using hleft)]

end Pages

end Rpy.Foundation

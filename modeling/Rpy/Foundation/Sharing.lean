/-
  Rpy.Foundation.Sharing
  ──────────────────────
  **SHARING A BUDGET, AND CUTTING WITH A MARK.**

  Items are cut one after the other, each to an equal part of what remains
  for it and for those that follow.  What one item leaves is shared among
  the next, so that no item gets less than an equal part of the whole.
  The file names nothing of any particular program.

    • `shareOut`          — the loop, for any way to cut,
    • `forall₂_shareOut`  — every item gets an equal part at least,
    • `sum_shareOut_le`   — the budget is kept,
    • `cutTo`             — cutting a list with a mark at the cut,
    • `cutTo_cutTo`       — a list that was cut before.
-/
import Mathlib.Algebra.GroupWithZero.Nat
import Mathlib.Data.List.Forall2

namespace Rpy.Foundation

variable {α β : Type*}

/-! ## §1. The budget. -/

/-- What the pairing says of the second of each pair alone. -/
theorem forall_mem_of_forall₂ {p : β → Prop} {l : List α} {m : List β}
    (h : List.Forall₂ (fun _ b => p b) l m) : ∀ b ∈ m, p b := by
  induction h with
  | nil => exact fun _ hb => nomatch hb
  | cons hp _ ih => exact List.forall_mem_cons.2 ⟨hp, ih⟩

/-- Each item is cut to an equal part of what remains. -/
def shareOut (size : β → Nat) (cut : α → Nat → β) : Nat → List α → List β
  | _, [] => []
  | remaining, item :: rest =>
      let taken := cut item (remaining / (rest.length + 1))
      taken :: shareOut size cut (remaining - size taken) rest

section Shares

variable {size : β → Nat} {cut : α → Nat → β} (hcut : ∀ item limit, size (cut item limit) ≤ limit)

include hcut

/-- **No item gets less than an equal part.** -/
theorem forall₂_shareOut {part : Nat} (items : List α) :
    ∀ {remaining : Nat}, items.length * part ≤ remaining →
      List.Forall₂ (fun item taken => ∃ limit, part ≤ limit ∧ taken = cut item limit) items
        (shareOut size cut remaining items) := by
  induction items with
  | nil => exact fun _ => .nil
  | cons item rest ih =>
      intro remaining h
      rw [List.length_cons] at h
      -- the part of this item, and what it is at most
      have hpart : part ≤ remaining / (rest.length + 1) := by
        rw [Nat.le_div_iff_mul_le (Nat.succ_pos _), Nat.mul_comm]
        exact h
      refine .cons ⟨_, hpart, rfl⟩ (ih ?_)
      have hall : (rest.length + 1) * (remaining / (rest.length + 1)) ≤ remaining :=
        Nat.mul_div_le _ _
      have hrest : rest.length * part ≤ rest.length * (remaining / (rest.length + 1)) :=
        Nat.mul_le_mul_left _ hpart
      have hsize := hcut item (remaining / (rest.length + 1))
      rw [Nat.succ_mul] at hall
      omega

/-- **The budget is kept.** -/
theorem sum_shareOut_le (items : List α) (remaining : Nat) :
    ((shareOut size cut remaining items).map size).sum ≤ remaining := by
  induction items generalizing remaining with
  | nil => exact Nat.zero_le _
  | cons item rest ih =>
      show size (cut item (remaining / (rest.length + 1))) +
        ((shareOut size cut _ rest).map size).sum ≤ remaining
      have hsize := hcut item (remaining / (rest.length + 1))
      have hpart : remaining / (rest.length + 1) ≤ remaining := Nat.div_le_self _ _
      have hrest := ih (remaining - size (cut item (remaining / (rest.length + 1))))
      omega

end Shares

/-! ## §2. The mark. -/

/-- The list cut to the limit, with the mark where there is room for it. -/
def cutTo (mark l : List α) (limit : Nat) : List α :=
  if l.length ≤ limit then l
  else if limit ≤ mark.length then l.take limit
  else l.take (limit - mark.length) ++ mark

/-- The list, or a prefix of it with or without the mark. -/
def Shortens (mark l out : List α) : Prop :=
  out = l ∨ ∃ k, out = l.take k ∨ out = l.take k ++ mark

/-- A list that is cut again where the first cut had room for the mark and
the second has not, can keep a beginning of the first mark. -/
def ShortensTwice (mark : List α) (limit : Nat) (l out : List α) : Prop :=
  Shortens mark l out ∨
    mark.length < limit ∧ limit < 2 * mark.length ∧ limit < l.length ∧
      out.length ≤ mark.length ∧ ∃ k, out = l.take (limit - mark.length) ++ mark.take k

section Marks

variable {mark l : List α} {limit again : Nat}

theorem cutTo_of_le (h : l.length ≤ limit) : cutTo mark l limit = l := if_pos h

theorem cutTo_of_lt (h : limit < l.length) (hroom : limit ≤ mark.length) :
    cutTo mark l limit = l.take limit := by
  unfold cutTo
  rw [if_neg (Nat.not_le.2 h), if_pos hroom]

theorem cutTo_of_room (h : limit < l.length) (hroom : mark.length < limit) :
    cutTo mark l limit = l.take (limit - mark.length) ++ mark := by
  unfold cutTo
  rw [if_neg (Nat.not_le.2 h), if_neg (Nat.not_le.2 hroom)]

theorem length_cutTo_le (mark l : List α) (limit : Nat) : (cutTo mark l limit).length ≤ limit := by
  by_cases h : l.length ≤ limit
  · rw [cutTo_of_le h]
    exact h
  · by_cases hroom : limit ≤ mark.length
    · rw [cutTo_of_lt (by omega) hroom, List.length_take]
      omega
    · rw [cutTo_of_room (by omega) (by omega), List.length_append, List.length_take]
      omega

theorem shortens_cutTo (mark l : List α) (limit : Nat) : Shortens mark l (cutTo mark l limit) := by
  by_cases h : l.length ≤ limit
  · exact .inl (cutTo_of_le h)
  · by_cases hroom : limit ≤ mark.length
    · exact .inr ⟨limit, .inl (cutTo_of_lt (by omega) hroom)⟩
    · exact .inr ⟨limit - mark.length, .inr (cutTo_of_room (by omega) (by omega))⟩

/-- **A list that was cut before.** -/
theorem cutTo_cutTo : ShortensTwice mark limit l (cutTo mark (cutTo mark l limit) again) := by
  by_cases hfits : l.length ≤ limit
  · rw [cutTo_of_le hfits]
    exact .inl (shortens_cutTo mark l again)
  by_cases hagain : (cutTo mark l limit).length ≤ again
  · rw [cutTo_of_le hagain]
    exact .inl (shortens_cutTo mark l limit)
  have hlimit := length_cutTo_le mark l limit
  by_cases hroom : limit ≤ mark.length
  · -- neither cut has room for the mark
    rw [cutTo_of_lt (by omega) (show again ≤ mark.length by omega),
      cutTo_of_lt (by omega) hroom, List.take_take]
    exact .inl (.inr ⟨min again limit, .inl rfl⟩)
  have hfirst := cutTo_of_room (l := l) (by omega) (Nat.not_le.1 hroom)
  have hlength : (l.take (limit - mark.length)).length = limit - mark.length := by
    rw [List.length_take]
    omega
  by_cases hsecond : again ≤ mark.length
  · rw [cutTo_of_lt (by omega) hsecond, hfirst, List.take_append, hlength, List.take_take]
    by_cases hbefore : again ≤ limit - mark.length
    · -- the second cut is before the first mark
      rw [Nat.min_eq_left hbefore, Nat.sub_eq_zero_of_le hbefore, List.take_zero,
        List.append_nil]
      exact .inl (.inr ⟨again, .inl rfl⟩)
    · rw [Nat.min_eq_right (by omega)]
      refine .inr ⟨by omega, by omega, by omega, ?_, again - (limit - mark.length), rfl⟩
      rw [List.length_append, hlength, List.length_take]
      omega
  · -- both have room: what the second keeps is before the first mark
    rw [cutTo_of_room (by omega) (by omega), hfirst, List.take_append, hlength, List.take_take,
      Nat.min_eq_left (by omega), show again - mark.length - (limit - mark.length) = 0 by omega,
      List.take_zero, List.append_nil]
    exact .inl (.inr ⟨again - mark.length, .inr rfl⟩)

end Marks

end Rpy.Foundation

/-
  Rpy.Foundation.Tiling
  ─────────────────────
  **SPANS THAT COVER A LIST BUT FOR ITS GAPS.**

  A span is a pair of positions, its start and its stop.  `Tiles` says that
  spans follow one another from a position to the end of a list, and that
  the elements between two of them are gaps.  The file names nothing of any
  particular program.

    • `Tiles.within`  — each span is a part of the list,
    • `Tiles.ordered` — the spans are disjoint and in order,
    • `Tiles.covers`  — an element that is no gap is in one span.
-/
import Mathlib.Data.List.Basic

namespace Rpy.Foundation

variable {α : Type*}

/-- The spans tile the list from a position on. -/
inductive Tiles (xs : List α) (gap : α → Bool) (limit : Nat) : Nat → List (Nat × Nat) → Prop
  | done {start : Nat} (hend : xs.length ≤ start) : Tiles xs gap limit start []
  | span {start stop next : Nat} {rest : List (Nat × Nat)} (hstart : start < stop)
      (hlimit : stop ≤ start + limit) (hstop : stop ≤ next) (hnext : next ≤ xs.length)
      (hgap : ∀ x ∈ (xs.drop stop).take (next - stop), gap x = true)
      (hrest : Tiles xs gap limit next rest) : Tiles xs gap limit start ((start, stop) :: rest)

namespace Tiles

variable {xs : List α} {gap : α → Bool} {limit start : Nat} {spans : List (Nat × Nat)}

theorem within (h : Tiles xs gap limit start spans) :
    ∀ span ∈ spans, start ≤ span.1 ∧ span.1 < span.2 ∧ span.2 ≤ xs.length ∧
      span.2 ≤ span.1 + limit := by
  induction h with
  | done _ => exact fun span hspan => nomatch hspan
  | span hstart hlimit hstop hnext _ _ ih =>
      rw [List.forall_mem_cons]
      refine ⟨⟨Nat.le_refl _, hstart, Nat.le_trans hstop hnext, hlimit⟩, fun span hspan => ?_⟩
      obtain ⟨hle, hrest⟩ := ih span hspan
      exact ⟨by omega, hrest⟩

theorem ordered (h : Tiles xs gap limit start spans) :
    spans.Pairwise fun a b => a.2 ≤ b.1 := by
  induction h with
  | done _ => exact .nil
  | span _ _ hstop _ _ hrest ih =>
      exact .cons (fun span hspan => Nat.le_trans hstop (hrest.within span hspan).1) ih

/-- **An element that is no gap is in one span.** -/
theorem covers (h : Tiles xs gap limit start spans) {i : Nat} (hi : start ≤ i)
    (hlength : i < xs.length) (hsolid : gap xs[i] = false) :
    ∃! span, span ∈ spans ∧ span.1 ≤ i ∧ i < span.2 := by
  induction h with
  | done hend => omega
  | @span start stop next rest hstart _ hstop _ hgap hrest ih =>
      by_cases hin : i < stop
      · refine ⟨(start, stop), ⟨List.mem_cons_self, hi, hin⟩, ?_⟩
        rintro span ⟨hmem, hlow, _⟩
        rcases List.mem_cons.1 hmem with rfl | hmem
        · rfl
        · -- a later span begins after this one
          have hlater := (hrest.within span hmem).1
          omega
      · have hnext : next ≤ i := by
          by_contra hbefore
          have hmem : xs[i] ∈ (xs.drop stop).take (next - stop) := by
            refine List.mem_iff_getElem.2 ⟨i - stop, ?_, ?_⟩
            · rw [List.length_take, List.length_drop]
              omega
            · rw [List.getElem_take, List.getElem_drop]
              congr 1
              omega
          rw [hgap _ hmem] at hsolid
          cases hsolid
        obtain ⟨span, ⟨hmem, hlow, hhigh⟩, honly⟩ := ih hnext
        refine ⟨span, ⟨List.mem_cons_of_mem _ hmem, hlow, hhigh⟩, ?_⟩
        rintro other ⟨hother, hlow', hhigh'⟩
        rcases List.mem_cons.1 hother with rfl | hother
        · exact absurd hhigh' hin
        · exact honly other ⟨hother, hlow', hhigh'⟩

end Tiles

end Rpy.Foundation

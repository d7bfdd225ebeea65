/-
  Rpy.Foundation.Distinct
  ───────────────────────
  **LOOPS THAT KEEP KEYS AND REFUSE A REPEAT.**

  Such a loop goes through a list, checks each element, and gives up when
  the check fails or the key of the element was kept before.  What it says
  of the list does not depend on the order of the list.

    • `keepRound`        — one round,
    • `foldlM_keepRound` — when the loop gets to the end, and with what.
-/
import Mathlib.Data.List.Nodup
import Mathlib.Tactic.TypeStar
import Rpy.Foundation.Raising

namespace Rpy.Foundation

section Keep

variable {α κ : Type*} [BEq κ] [LawfulBEq κ]

/-- One round: the key of an element that passes the check and is new. -/
def keepRound (ok : α → Bool) (key : α → κ) (seen : List κ) (x : α) : Option (List κ) :=
  if ok x && !seen.contains (key x) then some (seen ++ [key x]) else none

theorem keepRound_eq_some {ok : α → Bool} {key : α → κ} {seen out : List κ} {x : α} :
    keepRound ok key seen x = some out ↔
      ok x = true ∧ key x ∉ seen ∧ out = seen ++ [key x] := by
  unfold keepRound
  by_cases hok : ok x = true
  · by_cases hseen : key x ∈ seen
    · simp [hok, hseen]
    · simp only [hok, hseen, Bool.true_and, Bool.not_eq_true',
        decide_false, if_true, List.contains_eq_mem, Option.some.injEq, true_and, not_false_eq_true]
      exact eq_comm
  · simp [hok]

/-- **The loop gets to the end when every element passes the check and no key
comes twice**; it has kept the keys in order. -/
theorem foldlM_keepRound {ok : α → Bool} {key : α → κ} {xs : List α} {seen out : List κ} :
    xs.foldlM (keepRound ok key) seen = some out ↔
      (∀ x ∈ xs, ok x = true) ∧ (xs.map key).Nodup ∧ (∀ x ∈ xs, key x ∉ seen) ∧
        out = seen ++ xs.map key := by
  induction xs generalizing seen with
  | nil =>
      constructor
      · intro h
        exact ⟨List.forall_mem_nil _, List.nodup_nil, List.forall_mem_nil _,
          (Option.some.inj h).symm.trans (List.append_nil seen).symm⟩
      · rintro ⟨-, -, -, rfl⟩
        exact congrArg some (List.append_nil seen).symm
  | cons x xs ih =>
      rw [List.foldlM_cons, Option.bind_eq_bind, Option.bind_eq_some_iff]
      constructor
      · rintro ⟨next, hnext, hrest⟩
        obtain ⟨hok, hnew, rfl⟩ := keepRound_eq_some.1 hnext
        obtain ⟨hall, hnodup, hfresh, rfl⟩ := ih.1 hrest
        have hkey : key x ∉ xs.map key := by
          intro hmem
          obtain ⟨y, hy, heq⟩ := List.mem_map.1 hmem
          exact hfresh y hy (List.mem_append_right _ (List.mem_singleton.2 heq))
        refine ⟨List.forall_mem_cons.2 ⟨hok, hall⟩, List.nodup_cons.2 ⟨hkey, hnodup⟩,
          List.forall_mem_cons.2 ⟨hnew, fun y hy hseen => ?_⟩, ?_⟩
        · exact hfresh y hy (List.mem_append_left _ hseen)
        · rw [List.map_cons, List.append_assoc]
          rfl
      · rintro ⟨hall, hnodup, hfresh, rfl⟩
        obtain ⟨hok, hall⟩ := List.forall_mem_cons.1 hall
        obtain ⟨hkey, hnodup⟩ := List.nodup_cons.1 hnodup
        obtain ⟨hnew, hfresh⟩ := List.forall_mem_cons.1 hfresh
        refine ⟨seen ++ [key x], keepRound_eq_some.2 ⟨hok, hnew, rfl⟩, ih.2 ⟨hall, hnodup, ?_, ?_⟩⟩
        · intro y hy hseen
          rcases List.mem_append.1 hseen with hseen | hlast
          · exact hfresh y hy hseen
          · exact hkey (List.mem_map.2 ⟨y, hy, List.mem_singleton.1 hlast⟩)
        · rw [List.append_assoc]
          rfl

end Keep

section Stages

universe u v w

variable {ε : Type u} {σ : Type v} {α : Type w}

/-- A loop that gets to its end got through its first round. -/
theorem foldlM_cons_eq_ok {f : σ → α → Except ε σ} {x : α} {xs : List α} {s s' : σ} :
    (x :: xs).foldlM f s = .ok s' ↔ ∃ m, f s x = .ok m ∧ xs.foldlM f m = .ok s' := by
  rw [List.foldlM_cons]
  exact bind_eq_ok

end Stages

end Rpy.Foundation

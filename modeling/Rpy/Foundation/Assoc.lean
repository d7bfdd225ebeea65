/-
  Rpy.Foundation.Assoc
  ────────────────────
  **ASSOCIATION LISTS.**

  A dictionary is the list of its keys with their values, and
  `List.lookup` reads it.

    • `assign`             — a key is given a value where it stands, or at
                             the end,
    • `lookup_assign`, `mem_assign`, `map_assign`, `nodup_keys_assign` — what
                             is read afterwards,
    • `isSome_lookup_iff`, `lookup_eq_some_iff` — keys and members.
-/
import Mathlib.Data.List.Basic
import Mathlib.Tactic.ByContra

namespace Rpy.Foundation

variable {α β : Type} [DecidableEq α]

/-- `members[key] = value` -/
def assign (key : α) (value : β) : List (α × β) → List (α × β)
  | [] => [(key, value)]
  | (name, old) :: members =>
      if name = key then (key, value) :: members else (name, old) :: assign key value members

theorem lookup_cons_iff (key name : α) (value : β) (members : List (α × β)) :
    ((name, value) :: members).lookup key =
      if key = name then some value else members.lookup key := by
  rw [List.lookup_cons]
  by_cases h : key = name
  · rw [if_pos h, beq_iff_eq.2 h]
  · rw [if_neg h, beq_eq_false_iff_ne.2 h]

theorem lookup_assign (key other : α) (value : β) (members : List (α × β)) :
    (assign key value members).lookup other =
      if other = key then some value else members.lookup other := by
  induction members with
  | nil => rw [assign, lookup_cons_iff]
  | cons m members ih =>
      obtain ⟨name, old⟩ := m
      rw [assign]
      by_cases hname : name = key
      · subst hname
        rw [if_pos rfl, lookup_cons_iff, lookup_cons_iff]
        split <;> rfl
      · rw [if_neg hname, lookup_cons_iff, ih, lookup_cons_iff]
        by_cases hother : other = name
        · rw [if_pos hother, if_pos hother, if_neg fun h => hname (hother.symm.trans h)]
        · rw [if_neg hother, if_neg hother]

theorem mem_assign {key : α} {value : β} {members : List (α × β)} {p : α × β}
    (h : p ∈ assign key value members) : p = (key, value) ∨ p ∈ members := by
  induction members with
  | nil => exact .inl (List.mem_singleton.1 h)
  | cons m members ih =>
      obtain ⟨name, old⟩ := m
      rw [assign] at h
      split at h
      · rcases List.mem_cons.1 h with rfl | h
        · exact .inl rfl
        · exact .inr (List.mem_cons_of_mem _ h)
      · rcases List.mem_cons.1 h with rfl | h
        · exact .inr List.mem_cons_self
        · exact (ih h).imp_right (List.mem_cons_of_mem _)

/-- Changing the values commutes with the assignment. -/
theorem map_assign {γ : Type} (f : β → γ) (key : α) (value : β) (members : List (α × β)) :
    (assign key value members).map (Prod.map id f) =
      assign key (f value) (members.map (Prod.map id f)) := by
  induction members with
  | nil => rfl
  | cons m members ih =>
      obtain ⟨name, old⟩ := m
      rw [List.map_cons, assign]
      show _ = assign key (f value) ((name, f old) :: members.map (Prod.map id f))
      rw [assign]
      split
      · rfl
      · rw [List.map_cons, ih]
        rfl

/-- An assignment keeps the keys distinct. -/
theorem nodup_keys_assign {key : α} {value : β} {members : List (α × β)}
    (h : (members.map Prod.fst).Nodup) : ((assign key value members).map Prod.fst).Nodup := by
  induction members with
  | nil => exact List.nodup_cons.2 ⟨List.not_mem_nil, List.nodup_nil⟩
  | cons m members ih =>
      obtain ⟨name, old⟩ := m
      rw [List.map_cons, List.nodup_cons] at h
      rw [assign]
      split
      · next hname =>
          rw [List.map_cons, List.nodup_cons]
          exact ⟨hname ▸ h.1, h.2⟩
      · next hname =>
          rw [List.map_cons, List.nodup_cons]
          refine ⟨fun hmem => ?_, ih h.2⟩
          obtain ⟨p, hp, hfst⟩ := List.mem_map.1 hmem
          rcases mem_assign hp with rfl | hp
          · exact hname hfst.symm
          · exact h.1 (List.mem_map.2 ⟨p, hp, hfst⟩)

/-- A key is found when it is there. -/
theorem isSome_lookup_iff (key : α) (members : List (α × β)) :
    (members.lookup key).isSome = true ↔ key ∈ members.map Prod.fst := by
  induction members with
  | nil => simp
  | cons m members ih =>
      obtain ⟨name, value⟩ := m
      rw [lookup_cons_iff, List.map_cons, List.mem_cons]
      by_cases hname : key = name
      · simp [hname]
      · rw [if_neg hname, ih]
        simp [hname]

/-- Where the keys are distinct, exactly the members are found. -/
theorem lookup_eq_some_iff {members : List (α × β)} (h : (members.map Prod.fst).Nodup)
    {key : α} {value : β} : members.lookup key = some value ↔ (key, value) ∈ members := by
  induction members with
  | nil => simp
  | cons m members ih =>
      obtain ⟨name, first⟩ := m
      rw [List.map_cons, List.nodup_cons] at h
      rw [lookup_cons_iff, List.mem_cons, Prod.mk.injEq]
      by_cases hname : key = name
      · subst hname
        have hnot : (key, value) ∉ members := fun hmem =>
          h.1 (List.mem_map.2 ⟨(key, value), hmem, rfl⟩)
        simp [hnot, eq_comm]
      · rw [if_neg hname, ih h.2]
        simp [hname]

end Rpy.Foundation

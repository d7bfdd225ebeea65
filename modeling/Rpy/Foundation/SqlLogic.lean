/-
  Rpy.Foundation.SqlLogic
  ───────────────────────
  **THREE-VALUED CONDITIONS AND THE ROWS A `WHERE` CLAUSE SELECTS.**

  A condition is true, false or NULL, and its evaluation can raise (a cast
  out of range).  A `WHERE` clause evaluates its conditions in order, stops
  at the first that is not true, and keeps the row when there is none.

    • `sqlOr_eq_true`, `sqlNot_eq_true`, `sqlEq_eq_true` — when a
                                 compound condition is true,
    • `holdsAll_eq_true` — a row that is kept meets every condition,
    • `mem_selectWhere`  — the rows a query returns,
    • `isOk_selectWhere` — when it raises,
    • `flatMap_sublist`  — a join that finds one row at most.
-/
import Rpy.Foundation.Raising

namespace Rpy.Foundation

universe u

/-! ## §1. Conditions. -/

/-- A truth value of SQL; `none` is NULL. -/
abbrev SqlBool := Option Bool

def sqlNot (a : SqlBool) : SqlBool := a.map (! ·)

def sqlOr : SqlBool → SqlBool → SqlBool
  | some true, _ | _, some true => some true
  | some false, some false => some false
  | _, _ => none

/-- `a = b`: NULL when one of the two is. -/
def sqlEq {α : Type u} [DecidableEq α] : Option α → Option α → SqlBool
  | some a, some b => some (a == b)
  | _, _ => none

@[simp]
theorem sqlNot_eq_true {a : SqlBool} : sqlNot a = some true ↔ a = some false := by
  rcases a with _ | _ | _ <;> simp [sqlNot]

@[simp]
theorem sqlOr_eq_true {a b : SqlBool} :
    sqlOr a b = some true ↔ a = some true ∨ b = some true := by
  rcases a with _ | _ | _ <;> rcases b with _ | _ | _ <;> simp [sqlOr]

@[simp]
theorem sqlEq_eq_true {α : Type u} [DecidableEq α] {a b : Option α} :
    sqlEq a b = some true ↔ ∃ x, a = some x ∧ b = some x := by
  cases a with
  | none => simp [sqlEq]
  | some x =>
      cases b with
      | none => simp [sqlEq]
      | some y =>
          simp only [sqlEq, Option.some.injEq, beq_iff_eq, exists_eq_left']
          exact eq_comm

/-! ## §2. Selection. -/

variable {ε ρ : Type}

/-- The conditions of a `WHERE` clause on one row. -/
def holdsAll : List (Except ε SqlBool) → Except ε Bool
  | [] => .ok true
  | .error e :: _ => .error e
  | .ok (some true) :: conditions => holdsAll conditions
  | .ok _ :: _ => .ok false

theorem holdsAll_eq_true {conditions : List (Except ε SqlBool)} :
    holdsAll conditions = .ok true ↔ ∀ c ∈ conditions, c = .ok (some true) := by
  induction conditions with
  | nil => simp [holdsAll]
  | cons c conditions ih =>
      rcases c with e | _ | _ | _ <;> simp [holdsAll, ih]

/-- `SELECT … FROM rows WHERE p`. -/
def selectWhere (p : ρ → Except ε Bool) : List ρ → Except ε (List ρ)
  | [] => .ok []
  | r :: rows => do
      let keep ← p r
      let kept ← selectWhere p rows
      return if keep then r :: kept else kept

/-- **The rows a query returns** are the rows that meet its condition. -/
theorem mem_selectWhere {p : ρ → Except ε Bool} {rows out : List ρ}
    (h : selectWhere p rows = .ok out) (r : ρ) :
    r ∈ out ↔ r ∈ rows ∧ p r = .ok true := by
  induction rows generalizing out with
  | nil =>
      obtain rfl := Except.ok.inj h
      simp
  | cons r₀ rows ih =>
      obtain ⟨keep, hkeep, h⟩ := bind_eq_ok.1 h
      obtain ⟨kept, hkept, h⟩ := bind_eq_ok.1 h
      obtain rfl := Except.ok.inj h
      cases keep with
      | true =>
          rw [if_pos rfl, List.mem_cons, List.mem_cons, ih hkept]
          constructor
          · rintro (rfl | ⟨hr, hp⟩)
            · exact ⟨.inl rfl, hkeep⟩
            · exact ⟨.inr hr, hp⟩
          · rintro ⟨rfl | hr, hp⟩
            · exact .inl rfl
            · exact .inr ⟨hr, hp⟩
      | false =>
          rw [if_neg (by simp), ih hkept, List.mem_cons]
          constructor
          · rintro ⟨hr, hp⟩
            exact ⟨.inr hr, hp⟩
          · rintro ⟨rfl | hr, hp⟩
            · rw [hkeep] at hp
              cases hp
            · exact ⟨hr, hp⟩

/-- A query raises where its condition raises on a row. -/
theorem isOk_selectWhere {p : ρ → Except ε Bool} {rows : List ρ} :
    (selectWhere p rows).isOk = true ↔ ∀ r ∈ rows, (p r).isOk = true := by
  induction rows with
  | nil => exact iff_of_true rfl fun r hr => nomatch hr
  | cons r rows ih =>
      rw [List.forall_mem_cons, selectWhere, ← ih]
      cases p r with
      | error e => exact iff_of_false (fun h => nomatch h) fun h => nomatch h.1
      | ok keep =>
          cases selectWhere p rows with
          | error e => exact iff_of_false (fun h => nomatch h) fun h => nomatch h.2
          | ok kept => exact iff_of_true rfl ⟨rfl, rfl⟩

/-- A query returns the rows in their order. -/
theorem selectWhere_sublist {p : ρ → Except ε Bool} {rows out : List ρ}
    (h : selectWhere p rows = .ok out) : out.Sublist rows := by
  induction rows generalizing out with
  | nil =>
      obtain rfl := Except.ok.inj h
      exact .slnil
  | cons r rows ih =>
      obtain ⟨keep, _, h⟩ := bind_eq_ok.1 h
      obtain ⟨kept, hkept, h⟩ := bind_eq_ok.1 h
      obtain rfl := Except.ok.inj h
      cases keep with
      | true => exact (ih hkept).cons_cons r
      | false => exact (ih hkept).cons r

/-- Rows that the condition rejects can as well be absent. -/
theorem selectWhere_filter {p : ρ → Except ε Bool} {keep : ρ → Bool} {rows : List ρ}
    (h : ∀ r ∈ rows, keep r = false → p r = .ok false) :
    selectWhere p (rows.filter keep) = selectWhere p rows := by
  induction rows with
  | nil => rfl
  | cons r rows ih =>
      obtain ⟨hr, hrows⟩ := List.forall_mem_cons.1 h
      cases hkeep : keep r with
      | true =>
          rw [List.filter_cons_of_pos hkeep, selectWhere, selectWhere, ih hrows]
      | false =>
          rw [List.filter_cons_of_neg (by simp [hkeep]), ih hrows]
          conv_rhs => rw [selectWhere, hr hkeep]
          exact (bind_pure _).symm

/-! ## §3. Joins. -/

/-- A key finds one row at most. -/
theorem filter_key_sublist {κ : Type} {key : ρ → κ} {rows : List ρ}
    (hkey : (rows.map key).Nodup) {p : ρ → Bool} {k : κ}
    (hp : ∀ r ∈ rows, p r = true → key r = k) : ((rows.filter p).map key).Sublist [k] := by
  have hnodup : ((rows.filter p).map key).Nodup := (List.filter_sublist.map key).nodup hkey
  have hall : ∀ x ∈ (rows.filter p).map key, x = k := by
    rw [List.forall_mem_map]
    exact fun r hr => hp r (List.mem_filter.1 hr).1 (List.mem_filter.1 hr).2
  generalize (rows.filter p).map key = keys at hnodup hall
  match keys with
  | [] => exact List.nil_sublist _
  | [x] =>
      rw [hall x List.mem_cons_self]
  | x :: y :: rest =>
      have hx := hall x List.mem_cons_self
      have hy := hall y (List.mem_cons_of_mem _ List.mem_cons_self)
      rw [List.nodup_cons, hx, hy] at hnodup
      exact absurd List.mem_cons_self hnodup.1

/-- What a loop collects, one element at most at a time. -/
theorem flatMap_sublist {α β γ : Type} {f : α → List β} {g : β → γ} {h : α → γ} {p : α → Bool}
    {l : List α} (hstep : ∀ x ∈ l, ((f x).map g).Sublist (if p x then [h x] else [])) :
    ((l.flatMap f).map g).Sublist ((l.filter p).map h) := by
  induction l with
  | nil => exact .slnil
  | cons x l ih =>
      rw [List.flatMap_cons, List.map_append]
      have hx := hstep x List.mem_cons_self
      have hrest := ih fun y hy => hstep y (List.mem_cons_of_mem _ hy)
      cases hp : p x with
      | true =>
          rw [hp, if_pos rfl] at hx
          rw [List.filter_cons_of_pos hp]
          exact hx.append hrest
      | false =>
          rw [hp, if_neg Bool.false_ne_true] at hx
          rw [List.filter_cons_of_neg (by simp [hp])]
          exact hx.append hrest

/-- A join over the rows that it can use. -/
theorem flatMap_filter_eq {α β : Type} {keep : α → Bool} {f g : α → List β} {l : List α}
    (hkeep : ∀ x ∈ l, keep x = true → f x = g x) (hdrop : ∀ x ∈ l, keep x = false → g x = []) :
    (l.filter keep).flatMap f = l.flatMap g := by
  induction l with
  | nil => rfl
  | cons x l ih =>
      obtain ⟨hx, hl⟩ := List.forall_mem_cons.1 hkeep
      obtain ⟨hx', hl'⟩ := List.forall_mem_cons.1 hdrop
      rw [List.flatMap_cons, ← ih hl hl']
      cases hk : keep x with
      | true => rw [List.filter_cons_of_pos hk, List.flatMap_cons, hx hk]
      | false => rw [List.filter_cons_of_neg (by simp [hk]), hx' hk, List.nil_append]

/-- The same where the join hands its rows on. -/
theorem filter_filter_of_imp {α : Type} {keep p : α → Bool} {l : List α}
    (h : ∀ x ∈ l, p x = true → keep x = true) : (l.filter keep).filter p = l.filter p := by
  rw [List.filter_filter]
  refine List.filter_congr fun x hx => ?_
  cases hp : p x with
  | false => rfl
  | true => rw [h x hx hp]; rfl

/-- A row is joined with one row at most. -/
theorem map_const_sublist {α β : Type} {l : List α} (hl : l.length ≤ 1) (b : β) :
    (l.map fun _ => b).Sublist [b] := by
  match l with
  | [] => exact List.nil_sublist _
  | [_] => exact List.Sublist.refl _
  | _ :: _ :: _ =>
      simp only [List.length_cons] at hl
      omega

end Rpy.Foundation

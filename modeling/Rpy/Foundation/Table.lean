/-
  Rpy.Foundation.Table
  ────────────────────
  **ROWS OF A RELATIONAL TABLE UNDER `UPDATE … WHERE … RETURNING`.**

  A table is the list of its rows.  An `UPDATE` rewrites the rows its
  `WHERE` clause selects and leaves the others, and returns the rewritten
  ones.  The rules say what a caller needs to know without unfolding the
  statement:

    • `mem_updateWhere`      — where a row of the result comes from,
    • `updateWhere_eq_self`  — an `UPDATE` that selects no row is no change,
    • `map_updateWhere`      — a column the assignment keeps is unchanged,
    • `returning_eq_nil_iff` — no row returned means no row selected,
    • `countP_updateWhere_le` — how many rows meet a condition afterwards.
-/
import Mathlib.Data.List.Nodup
import Mathlib.Tactic.TypeStar

namespace Rpy.Foundation

variable {ρ κ α : Type*}

/-- `UPDATE … SET f WHERE p`: the selected rows rewritten, the others kept. -/
def updateWhere (p : ρ → Bool) (f : ρ → ρ) (rows : List ρ) : List ρ :=
  rows.map fun r => if p r then f r else r

/-- The rows `UPDATE … SET f WHERE p RETURNING *` returns. -/
def returning (p : ρ → Bool) (f : ρ → ρ) (rows : List ρ) : List ρ :=
  (rows.filter p).map f

/-! ## §1. Where a row comes from. -/

theorem mem_updateWhere {p : ρ → Bool} {f : ρ → ρ} {rows : List ρ} {r : ρ} :
    r ∈ updateWhere p f rows ↔
      (∃ r₀ ∈ rows, p r₀ = true ∧ r = f r₀) ∨ (r ∈ rows ∧ p r = false) := by
  unfold updateWhere
  rw [List.mem_map]
  constructor
  · rintro ⟨r₀, hr₀, rfl⟩
    cases hp : p r₀ with
    | true => exact .inl ⟨r₀, hr₀, hp, by simp⟩
    | false => exact .inr ⟨by simpa [hp] using hr₀, by simp [hp]⟩
  · rintro (⟨r₀, hr₀, hp, rfl⟩ | ⟨hr, hp⟩)
    · exact ⟨r₀, hr₀, by simp [hp]⟩
    · exact ⟨r, hr, by simp [hp]⟩

/-- The successor of a row under an `UPDATE` is in the result. -/
theorem updateWhere_mem_of_mem {p : ρ → Bool} {f : ρ → ρ} {rows : List ρ} {r : ρ}
    (hr : r ∈ rows) : (if p r then f r else r) ∈ updateWhere p f rows :=
  List.mem_map_of_mem hr

/-- **An `UPDATE` that selects no row changes nothing.** -/
theorem updateWhere_eq_self {p : ρ → Bool} {f : ρ → ρ} {rows : List ρ}
    (h : ∀ r ∈ rows, p r = false) : updateWhere p f rows = rows := by
  unfold updateWhere
  calc rows.map (fun r => if p r then f r else r)
      = rows.map id := List.map_congr_left fun r hr => by simp [h r hr]
    _ = rows := List.map_id rows

/-- A column that the assignment keeps is the same column afterwards. -/
theorem map_updateWhere {p : ρ → Bool} {f : ρ → ρ} {g : ρ → κ}
    (h : ∀ r, g (f r) = g r) (rows : List ρ) :
    (updateWhere p f rows).map g = rows.map g := by
  unfold updateWhere
  rw [List.map_map]
  refine List.map_congr_left fun r _ => ?_
  show g (if p r then f r else r) = g r
  split
  · exact h r
  · rfl

/-- The same for a nullable column, read as the list of its values. -/
theorem filterMap_updateWhere {p : ρ → Bool} {f : ρ → ρ} {g : ρ → Option κ}
    (h : ∀ r, g (f r) = g r) (rows : List ρ) :
    (updateWhere p f rows).filterMap g = rows.filterMap g := by
  unfold updateWhere
  rw [List.filterMap_map]
  refine List.filterMap_congr fun r _ => ?_
  show g (if p r then f r else r) = g r
  split
  · exact h r
  · rfl

/-- A nullable unique column that an `UPDATE` keeps or clears has no new
values afterwards. -/
theorem filterMap_updateWhere_sublist {p : ρ → Bool} {f : ρ → ρ} {g : ρ → Option κ}
    (h : ∀ r, g (f r) = g r ∨ g (f r) = none) (rows : List ρ) :
    ((updateWhere p f rows).filterMap g).Sublist (rows.filterMap g) := by
  induction rows with
  | nil => exact .slnil
  | cons r rs ih =>
      show (((if p r then f r else r) :: updateWhere p f rs).filterMap g).Sublist _
      have hhead : g (if p r then f r else r) = g r ∨ g (if p r then f r else r) = none := by
        split
        · exact h r
        · exact .inl rfl
      rcases hhead with hsame | hnone
      · cases hr : g r with
        | none =>
            rw [List.filterMap_cons_none (hsame.trans hr), List.filterMap_cons_none hr]
            exact ih
        | some x =>
            rw [List.filterMap_cons_some (hsame.trans hr), List.filterMap_cons_some hr]
            exact ih.cons_cons x
      · rw [List.filterMap_cons_none hnone]
        cases hr : g r with
        | none =>
            rw [List.filterMap_cons_none hr]
            exact ih
        | some x =>
            rw [List.filterMap_cons_some hr]
            exact ih.cons x

/-- An `UPDATE` of one row, found by a unique key, that gives a nullable
unique column a value no row has. -/
theorem nodup_filterMap_updateWhere {p : ρ → Bool} {f : ρ → ρ} {key : ρ → κ} {k : κ}
    {col : ρ → Option α} {x : α} {rows : List ρ} (hkeys : (rows.map key).Nodup)
    (hp : ∀ r, p r = true → key r = k ∧ col r = none ∧ col (f r) = some x)
    (hcol : (rows.filterMap col).Nodup) (hfresh : x ∉ rows.filterMap col) :
    ((updateWhere p f rows).filterMap col).Nodup := by
  induction rows with
  | nil => exact hcol
  | cons r rs ih =>
      obtain ⟨hr, hrs⟩ := List.nodup_cons.1 hkeys
      show ((if p r then f r else r) :: updateWhere p f rs |>.filterMap col).Nodup
      cases hpr : p r with
      | true =>
          obtain ⟨hkey, hnone, hsome⟩ := hp r hpr
          -- the key is unique, so the rest of the table is not selected
          have hrest : updateWhere p f rs = rs := updateWhere_eq_self fun q hq => by
            cases hpq : p q with
            | false => rfl
            | true => exact absurd (hkey ▸ (hp q hpq).1 ▸ List.mem_map_of_mem hq) hr
          rw [List.filterMap_cons_none hnone] at hcol hfresh
          rw [if_pos rfl, List.filterMap_cons_some hsome, hrest]
          exact List.nodup_cons.2 ⟨hfresh, hcol⟩
      | false =>
          rw [if_neg (by simp)]
          cases hc : col r with
          | none =>
              rw [List.filterMap_cons_none hc] at hcol hfresh ⊢
              exact ih hrs hcol hfresh
          | some y =>
              rw [List.filterMap_cons_some hc] at hcol hfresh ⊢
              obtain ⟨hy, hcol⟩ := List.nodup_cons.1 hcol
              obtain ⟨hxy, hfresh⟩ := not_or.1 (mt List.mem_cons.2 hfresh)
              refine List.nodup_cons.2 ⟨fun hmem => ?_, ih hrs hcol hfresh⟩
              obtain ⟨q, hq, hqy⟩ := List.mem_filterMap.1 hmem
              rcases mem_updateWhere.1 hq with ⟨q₀, -, hpq, rfl⟩ | ⟨hq', -⟩
              · exact hxy (Option.some.inj ((hp q₀ hpq).2.2.symm.trans hqy))
              · exact hy (List.mem_filterMap.2 ⟨q, hq', hqy⟩)

/-! ## §2. What is returned. -/

theorem mem_returning {p : ρ → Bool} {f : ρ → ρ} {rows : List ρ} {r : ρ} :
    r ∈ returning p f rows ↔ ∃ r₀ ∈ rows, p r₀ = true ∧ r = f r₀ := by
  unfold returning
  rw [List.mem_map]
  constructor
  · rintro ⟨r₀, hr₀, rfl⟩
    exact ⟨r₀, (List.mem_filter.1 hr₀).1, (List.mem_filter.1 hr₀).2, rfl⟩
  · rintro ⟨r₀, hr₀, hp, rfl⟩
    exact ⟨r₀, List.mem_filter.2 ⟨hr₀, hp⟩, rfl⟩

theorem returning_eq_nil_iff {p : ρ → Bool} {f : ρ → ρ} {rows : List ρ} :
    returning p f rows = [] ↔ ∀ r ∈ rows, p r = false := by
  simp [returning, List.filter_eq_nil_iff]

/-- A lookup finds the one row that has what it looks for. -/
theorem find?_eq_some_of_unique {p : ρ → Bool} {rows : List ρ} {r : ρ} (hr : r ∈ rows)
    (hp : p r = true) (hunique : ∀ s ∈ rows, p s = true → s = r) : rows.find? p = some r := by
  cases hfind : rows.find? p with
  | none =>
      have hnot := List.find?_eq_none.1 hfind r hr
      exact absurd hp hnot
  | some s =>
      have hs := List.find?_some hfind
      rw [hunique s (List.mem_of_find?_eq_some hfind) hs]

/-- The row a lookup finds has the key. -/
theorem key_of_find?_eq_some [BEq κ] [LawfulBEq κ] {key : ρ → κ} {k : κ} {rows : List ρ} {r : ρ}
    (h : rows.find? (fun r => key r == k) = some r) : key r = k := by
  have hk := List.find?_some h
  exact eq_of_beq hk

/-- Two rows of a table with unique keys that agree on the key are one row. -/
theorem eq_of_nodup_key {key : ρ → κ} {rows : List ρ} (h : (rows.map key).Nodup)
    {a b : ρ} (ha : a ∈ rows) (hb : b ∈ rows) (hab : key a = key b) : a = b :=
  List.inj_on_of_nodup_map h ha hb hab

/-- The same for a nullable unique column, where it has a value. -/
theorem eq_of_nodup_filterMap {col : ρ → Option κ} {rows : List ρ}
    (h : (rows.filterMap col).Nodup) {a b : ρ} (ha : a ∈ rows) (hb : b ∈ rows) {k : κ}
    (hak : col a = some k) (hbk : col b = some k) : a = b := by
  induction rows with
  | nil => cases ha
  | cons r rs ih =>
      cases hr : col r with
      | none =>
          rw [List.filterMap_cons_none hr] at h
          have hmem : ∀ {c : ρ}, c ∈ r :: rs → col c = some k → c ∈ rs := by
            intro c hc hck
            rcases List.mem_cons.1 hc with rfl | hc
            · rw [hr] at hck
              cases hck
            · exact hc
          exact ih h (hmem ha hak) (hmem hb hbk)
      | some y =>
          rw [List.filterMap_cons_some hr] at h
          obtain ⟨hy, h⟩ := List.nodup_cons.1 h
          -- the value stands at most once, so both rows are the first or neither is
          have hfirst : ∀ {c : ρ}, c ∈ rs → col c = some k → col r ≠ some k := by
            intro c hc hck hrk
            rw [hr] at hrk
            obtain rfl := Option.some.inj hrk
            exact hy (List.mem_filterMap.2 ⟨c, hc, hck⟩)
          rcases List.mem_cons.1 ha with hra | hars
          · rcases List.mem_cons.1 hb with hrb | hbrs
            · rw [hra, hrb]
            · exact absurd (hra ▸ hak) (hfirst hbrs hbk)
          · rcases List.mem_cons.1 hb with hrb | hbrs
            · exact absurd (hrb ▸ hbk) (hfirst hars hak)
            · exact ih h hars hbrs

/-- A question about some rows, asked of another table with these rows. -/
theorem any_congr_of_mem {p : ρ → Bool} {rows rows' : List ρ}
    (h : ∀ r, p r = true → (r ∈ rows ↔ r ∈ rows')) : rows.any p = rows'.any p := by
  rw [Bool.eq_iff_iff, List.any_eq_true, List.any_eq_true]
  constructor
  · rintro ⟨r, hr, hp⟩
    exact ⟨r, (h r hp).1 hr, hp⟩
  · rintro ⟨r, hr, hp⟩
    exact ⟨r, (h r hp).2 hr, hp⟩

/-- What the row of one key adds, where the other rows add nothing. -/
theorem flatMap_eq_of_unique {key : ρ → κ} {rows : List ρ} {r : ρ} {f : ρ → List α}
    (hkeys : (rows.map key).Nodup) (hr : r ∈ rows)
    (hnil : ∀ r' ∈ rows, key r' ≠ key r → f r' = []) : rows.flatMap f = f r := by
  induction rows with
  | nil => cases hr
  | cons q qs ih =>
      obtain ⟨hq, hqs⟩ := List.nodup_cons.1 hkeys
      obtain ⟨hnilq, hnils⟩ := List.forall_mem_cons.1 hnil
      rw [List.flatMap_cons]
      rcases List.mem_cons.1 hr with rfl | hr
      · have hrest : qs.flatMap f = [] := by
          refine List.flatMap_eq_nil_iff.2 fun r' hr' => hnils r' hr' fun hkey => ?_
          exact hq (hkey ▸ List.mem_map_of_mem hr')
        rw [hrest, List.append_nil]
      · have hne : key q ≠ key r := fun hkey => hq (hkey ▸ List.mem_map_of_mem hr)
        rw [hnilq hne, List.nil_append, ih hqs hr hnils]

/-- A query that is met by the row of one key alone. -/
theorem filter_eq_singleton_of_key {key : ρ → κ} {p : ρ → Bool} {rows : List ρ} {r : ρ}
    (hkeys : (rows.map key).Nodup) (hr : r ∈ rows) (hp : p r = true)
    (hother : ∀ r' ∈ rows, p r' = true → key r' = key r) : rows.filter p = [r] := by
  have hflat : rows.filter p = rows.flatMap fun r => if p r then [r] else [] := by
    clear hkeys hr hother
    induction rows with
    | nil => rfl
    | cons q qs ih =>
        rw [List.filter_cons, List.flatMap_cons, ih]
        split <;> rfl
  rw [hflat, flatMap_eq_of_unique hkeys hr fun r' hr' hne => ?_, if_pos hp]
  exact if_neg fun hp' => hne (hother r' hr' hp')

/-! ## §3. How many rows there are. -/

section Counting

variable {p q : ρ → Bool} {f : ρ → ρ} {rows : List ρ}

/-- An `UPDATE` that makes no row meet `q` counts no more of them. -/
theorem countP_updateWhere_le (h : ∀ r ∈ rows, p r = true → q (f r) = true → q r = true) :
    (updateWhere p f rows).countP q ≤ rows.countP q := by
  unfold updateWhere
  rw [List.countP_map]
  refine List.countP_mono_left fun r hr hq => ?_
  by_cases hp : p r = true
  · exact h r hr hp (by simpa [hp] using hq)
  · simpa [hp] using hq

/-- An `UPDATE` that leaves `q` as it was counts as many. -/
theorem countP_updateWhere_eq (h : ∀ r ∈ rows, p r = true → q (f r) = q r) :
    (updateWhere p f rows).countP q = rows.countP q := by
  unfold updateWhere
  rw [List.countP_map]
  refine List.countP_congr fun r hr => ?_
  by_cases hp : p r = true
  · simp [hp, h r hr hp]
  · simp [hp]

/-- It counts fewer if a row it rewrites met `q` and no longer does. -/
theorem countP_updateWhere_lt (h : ∀ r ∈ rows, p r = true → q (f r) = true → q r = true)
    {r₀ : ρ} (hr₀ : r₀ ∈ rows) (hp : p r₀ = true) (hq : q r₀ = true) (hnot : q (f r₀) = false) :
    (updateWhere p f rows).countP q < rows.countP q := by
  induction rows with
  | nil => cases hr₀
  | cons r rs ih =>
      have hrest : (updateWhere p f rs).countP q ≤ rs.countP q :=
        countP_updateWhere_le fun x hx => h x (List.mem_cons_of_mem _ hx)
      have hhead : q (if p r then f r else r) = true → q r = true := by
        intro hq'
        by_cases hpr : p r = true
        · exact h r List.mem_cons_self hpr (by simpa [hpr] using hq')
        · simpa [hpr] using hq'
      show ((if p r then f r else r) :: updateWhere p f rs).countP q < (r :: rs).countP q
      rw [List.countP_cons, List.countP_cons]
      rcases List.mem_cons.1 hr₀ with rfl | hmem
      · rw [if_pos hp, hnot, if_pos hq]
        simp only [Bool.false_eq_true, if_false]
        omega
      · have hlt := ih (fun x hx => h x (List.mem_cons_of_mem _ hx)) hmem
        by_cases hq' : q (if p r then f r else r) = true
        · rw [if_pos hq', if_pos (hhead hq')]
          omega
        · rw [if_neg hq']
          omega

/-- A `DELETE` of a row that met `q` leaves fewer of them. -/
theorem countP_filter_lt {r₀ : ρ} (hr₀ : r₀ ∈ rows) (hp : p r₀ = false) (hq : q r₀ = true) :
    (rows.filter p).countP q < rows.countP q := by
  induction rows with
  | nil => cases hr₀
  | cons r rs ih =>
      have hrest : (rs.filter p).countP q ≤ rs.countP q := List.filter_sublist.countP_le
      rcases List.mem_cons.1 hr₀ with rfl | hmem
      · rw [List.filter_cons_of_neg (by simp [hp]), List.countP_cons_of_pos hq]
        omega
      · have hlt := ih hmem
        by_cases hpr : p r = true
        · rw [List.filter_cons_of_pos hpr, List.countP_cons, List.countP_cons]
          omega
        · rw [List.filter_cons_of_neg hpr, List.countP_cons]
          omega

end Counting

end Rpy.Foundation

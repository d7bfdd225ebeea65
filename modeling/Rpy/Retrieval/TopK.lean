/-
  Rpy.Retrieval.TopK
  ──────────────────
  **WHEN VECTOR SEARCH GIVES THE NEAREST ELIGIBLE MOVEMENTS.**

  The legacy path filters by eligibility and then takes the nearest; the
  path of the embedding spaces takes the nearest and then filters.  The
  second gives too few when a movement that is not eligible is among the
  nearest and an eligible one is behind it.

    • `TopK`                 — the nearest of the eligible movements,
    • `Unobstructed`         — nothing ineligible stands before the eligible,
    • `vectorSearch_topK_iff` — the search gives the first exactly under the
                               second.
-/
import Rpy.Retrieval.Optimality

namespace Rpy.Retrieval

open Rpy.Foundation

variable {F : Type}

/-! ## §1. The vectors a search compares. -/

/-- The keys of the tables, a movement has one vector in a space and a version
one movement of a number, and the dimensions of their columns. -/
structure Database.Keyed (db : Database F) : Prop where
  embeddings : (db.stepEmbeddings.map fun e => (e.stepId, e.provider, e.model)).Nodup
  numbers : (db.steps.map fun ps => (ps.versionId, ps.stepNumber)).Nodup
  /-- `process_steps.embedding vector(1536)` -/
  column : ∀ ps ∈ db.steps, ∀ v ∈ ps.embedding, v.length = 1536
  /-- `process_step_embeddings.embedding vector(1024)` -/
  spaceColumn : ∀ e ∈ db.stepEmbeddings, e.embedding.length = 1024

/-- The plans of the searches are exact: no index scan leaves a movement out. -/
def Deployment.ExactPlans (d : Deployment F) : Prop := ∀ query id, d.visits query id = true

/-- A vector that PostgreSQL can be given. -/
structure Floats.Castable (f : Floats F) (xs : List F) : Prop where
  nonempty : xs ≠ []
  short : xs.length ≤ 16000
  storable : ∀ x ∈ xs, f.storable x = true

theorem Floats.toVector_iff {f : Floats F} {xs query : List F} :
    f.toVector xs = .ok query ↔ f.Castable xs ∧ query = xs := by
  unfold Floats.toVector
  by_cases hempty : xs = []
  · rw [if_pos (List.isEmpty_iff.2 hempty)]
    exact ⟨fun h => (by cases h), fun h => absurd hempty h.1.nonempty⟩
  rw [if_neg fun h => hempty (List.isEmpty_iff.1 h)]
  by_cases hlong : 16000 < xs.length
  · rw [if_pos hlong]
    exact ⟨fun h => (by cases h), fun h => absurd hlong (Nat.not_lt.2 h.1.short)⟩
  rw [if_neg hlong]
  by_cases hall : ∀ x ∈ xs, f.storable x = true
  · have hnone : ¬ xs.any (fun x => !f.storable x) = true := by
      rw [List.any_eq_true]
      rintro ⟨x, hx, hnot⟩
      rw [hall x hx] at hnot
      cases hnot
    rw [if_neg hnone]
    constructor
    · intro h
      exact ⟨⟨hempty, Nat.not_lt.1 hlong, hall⟩, (Except.ok.inj h).symm⟩
    · rintro ⟨-, rfl⟩
      rfl
  · have hsome : xs.any (fun x => !f.storable x) = true := by
      simpa using hall
    rw [if_pos hsome]
    exact ⟨fun h => (by cases h), fun h => absurd h.1.storable hall⟩

theorem Floats.cosine_iff {f : Floats F} {a b : List F} {x : F} :
    f.cosine a b = .ok x ↔ a.length = b.length ∧ x = f.distance a b := by
  unfold Floats.cosine
  by_cases hlength : a.length = b.length
  · rw [if_neg (not_not.2 hlength)]
    exact ⟨fun h => ⟨hlength, (Except.ok.inj h).symm⟩, fun h => congrArg Except.ok h.2.symm⟩
  · rw [if_pos hlength]
    exact ⟨fun h => (by cases h), fun h => absurd h.1 hlength⟩

/-- **The distances to a query** of its dimensions. -/
theorem Floats.mapM_cosine {α β : Type} {f : Floats F} {vector : α → List F} {query : List F}
    {out : α → F → β} {rows : List α} {found : List β} :
    rows.mapM (fun row => (f.cosine (vector row) query).map (out row)) = .ok found ↔
      (∀ row ∈ rows, (vector row).length = query.length) ∧
        found = rows.map fun row => out row (f.distance (vector row) query) := by
  refine mapM_eq_ok_iff fun row b => map_eq_ok.trans ⟨?_, ?_⟩
  · rintro ⟨x, hx, rfl⟩
    obtain ⟨hlength, rfl⟩ := Floats.cosine_iff.1 hx
    exact ⟨hlength, rfl⟩
  · rintro ⟨hlength, rfl⟩
    exact ⟨_, Floats.cosine_iff.2 ⟨hlength, rfl⟩, rfl⟩

/-- Distances are compared as the values of a linear order are, and
similarity goes against them. -/
structure Floats.Measures (f : Floats F) : Prop extends f.Linear where
  similarity : ∀ a b, f.lt a b = false → f.lt (f.similarity b) (f.similarity a) = false

/-- The space that is searched; `none` is the column of the legacy path. -/
def Deployment.searchedSpace (d : Deployment F) : Except String (Option EmbeddingSpace) := do
  if ← d.runtimeEnabled then return some (← d.activeRuntime)
  else return none

/-- The movements of a version with a vector in the space, with their
distances. -/
def Deployment.measured (d : Deployment F) (db : Database F) (versionId : Uuid)
    (embedding : List F) : Option EmbeddingSpace → List (ProcessStep F × F)
  | none =>
      (db.steps.filter fun ps => ps.versionId == versionId && ps.embedding.isSome).map fun ps =>
        (ps, d.floats.distance (ps.embedding.getD []) embedding)
  | some space =>
      db.stepEmbeddings.flatMap fun e =>
        (db.steps.filter fun ps => ps.id == e.stepId && ps.versionId == versionId &&
          space.holds ps.id e).map fun ps => (ps, d.floats.distance e.embedding embedding)

section Rows

variable {db : Database F}

/-- Joining gives a movement once at most. -/
theorem joined_sublist : (db.joined.map Prod.fst).Sublist db.steps := by
  have hone : ∀ ps ∈ db.steps, (((db.versions.filter fun pv => pv.id == ps.versionId).flatMap
      fun pv => (db.processes.filter fun p => p.id == pv.processId).map fun p =>
        (ps, pv, p)).map Prod.fst).Sublist (if true then [ps] else []) := by
    intro ps _
    rw [if_pos rfl]
    have hversions : ((db.versions.filter fun pv => pv.id == ps.versionId).map
        ProcessVersion.id).Sublist [ps.versionId] :=
      filter_key_sublist db.versions_nodup fun pv _ hid => eq_of_beq hid
    have hprocesses : ∀ pv ∈ db.versions.filter fun pv => pv.id == ps.versionId,
        (((db.processes.filter fun p => p.id == pv.processId).map fun p =>
          (ps, pv, p)).map Prod.fst).Sublist (if true then [ps] else []) := by
      intro pv _
      have hids : ((db.processes.filter fun p => p.id == pv.processId).map
          Process.id).Sublist [pv.processId] :=
        filter_key_sublist db.processes_nodup fun p _ hid => eq_of_beq hid
      rw [if_pos rfl, List.map_map]
      refine map_const_sublist ?_ ps
      have hlength := hids.length_le
      rwa [List.length_map] at hlength
    have hjoin := flatMap_sublist (p := fun _ => true) (h := fun _ => ps) hprocesses
    refine hjoin.trans (map_const_sublist ?_ ps)
    rw [List.filter_true]
    have hlength := hversions.length_le
    rwa [List.length_map] at hlength
  have hall := flatMap_sublist (p := fun _ => true) (h := fun ps => ps) hone
  rw [List.filter_true, List.map_id'] at hall
  exact hall

theorem mem_steps_of_joined {row : ProcessStep F × ProcessVersion × Process}
    (h : row ∈ db.joined) : row.1 ∈ db.steps :=
  joined_sublist.subset (List.mem_map_of_mem h)

variable {pg : Postgres} {versionId : Uuid} {also : ProcessStep F → Bool}
  {rows : List (ProcessStep F)}

/-- What a query with the predicate returns comes in the order of the
table. -/
theorem selectSteps_sublist (h : db.selectSteps pg versionId also = .ok rows) :
    rows.Sublist db.steps := by
  obtain ⟨joined, hjoined, h⟩ := bind_eq_ok.1 h
  obtain rfl := Except.ok.inj h
  exact ((selectWhere_sublist hjoined).map Prod.fst).trans joined_sublist

/-- **What a query with the predicate returns**: the eligible movements. -/
theorem mem_selectSteps (h : db.selectSteps pg versionId also = .ok rows)
    {ps : ProcessStep F} :
    ps ∈ rows ↔ ps ∈ db.steps ∧ also ps = true ∧ db.EligibleStep pg versionId ps.id := by
  constructor
  · intro hps
    have heligible := db.selectSteps_eligible h hps
    have hmem := (selectSteps_sublist h).subset hps
    refine ⟨hmem, ?_, heligible⟩
    obtain ⟨joined, hjoined, h⟩ := bind_eq_ok.1 h
    obtain rfl := Except.ok.inj h
    obtain ⟨row, hrow, rfl⟩ := List.mem_map.1 hps
    have hholds := ((mem_selectWhere hjoined row).1 hrow).2
    rw [holdsAll_eq_true] at hholds
    have halso := hholds _ (List.mem_cons_of_mem _ List.mem_cons_self)
    exact Option.some.inj (Except.ok.inj halso)
  · rintro ⟨hmem, halso, row, hrow, hid, hversion, heligible⟩
    obtain rfl : row.1 = ps := eq_of_nodup_key db.steps_nodup (mem_steps_of_joined hrow) hmem hid
    obtain ⟨joined, hjoined, h⟩ := bind_eq_ok.1 h
    obtain rfl := Except.ok.inj h
    refine List.mem_map_of_mem ((mem_selectWhere hjoined row).2 ⟨hrow, ?_⟩)
    rw [hversion, halso, beq_self_eq_true]
    exact heligible

/-- A query with the predicate raises where the predicate raises on a
movement it is asked of. -/
theorem isOk_selectSteps :
    (db.selectSteps pg versionId also).isOk = true ↔
      ∀ row ∈ db.joined, row.1.versionId = versionId → also row.1 = true →
        (eligible pg row.1 row.2.1 row.2.2).isOk = true := by
  have hisOk : (db.selectSteps pg versionId also).isOk =
      (selectWhere (fun row => holdsAll (.ok (some (row.1.versionId == versionId)) ::
        .ok (some (also row.1)) :: eligibleConditions pg row.1 row.2.1 row.2.2))
          db.joined).isOk := by
    unfold Database.selectSteps
    cases selectWhere (fun row : ProcessStep F × ProcessVersion × Process =>
        holdsAll (.ok (some (row.1.versionId == versionId)) ::
          .ok (some (also row.1)) :: eligibleConditions pg row.1 row.2.1 row.2.2)) db.joined with
    | error e => rfl
    | ok joined => rfl
  rw [hisOk, isOk_selectWhere]
  refine forall₂_congr fun row _ => ?_
  by_cases hversion : row.1.versionId = versionId
  · rw [hversion, beq_self_eq_true]
    cases halso : also row.1 with
    | false => exact iff_of_true rfl fun _ h => nomatch h
    | true => exact ⟨fun h _ _ => h, fun h => h rfl rfl⟩
  · rw [beq_eq_false_iff_ne.2 hversion]
    exact iff_of_true rfl fun h => absurd h hversion

/-- The distances of a search are those of movements of the version. -/
theorem mem_measured {d : Deployment F} {embedding : List F} {space : Option EmbeddingSpace}
    {row : ProcessStep F × F} (h : row ∈ d.measured db versionId embedding space) :
    row.1 ∈ db.steps ∧ row.1.versionId = versionId := by
  cases space with
  | none =>
      obtain ⟨ps, hps, rfl⟩ := List.mem_map.1 h
      obtain ⟨hmem, hp⟩ := List.mem_filter.1 hps
      rw [Bool.and_eq_true] at hp
      exact ⟨hmem, eq_of_beq hp.1⟩
  | some space =>
      obtain ⟨e, _, hrow⟩ := List.mem_flatMap.1 h
      obtain ⟨ps, hps, rfl⟩ := List.mem_map.1 hrow
      obtain ⟨hmem, hp⟩ := List.mem_filter.1 hps
      rw [Bool.and_eq_true, Bool.and_eq_true] at hp
      exact ⟨hmem, eq_of_beq hp.1.2⟩

/-- A movement is measured once at most. -/
theorem measured_nodup (hkeyed : db.Keyed) (d : Deployment F) (versionId : Uuid)
    (embedding : List F) (space : Option EmbeddingSpace) :
    ((d.measured db versionId embedding space).map fun row => row.1.id).Nodup := by
  cases space with
  | none =>
      unfold Deployment.measured
      rw [List.map_map]
      exact (List.filter_sublist.map _).nodup db.steps_nodup
  | some space =>
      -- An embedding row of the space belongs to one movement at most, by the key of the
      -- movements.
      have hone : ∀ e ∈ db.stepEmbeddings, (((db.steps.filter fun ps =>
          ps.id == e.stepId && ps.versionId == versionId && space.holds ps.id e).map fun ps =>
            (ps, d.floats.distance e.embedding embedding)).map fun row => row.1.id).Sublist
          (if e.provider == space.provider && e.model == space.model then [e.stepId]
            else []) := by
        intro e _
        rw [List.map_map]
        cases hspace : e.provider == space.provider && e.model == space.model with
        | true =>
            rw [if_pos rfl]
            refine filter_key_sublist db.steps_nodup fun ps _ hp => ?_
            rw [Bool.and_eq_true, Bool.and_eq_true] at hp
            exact eq_of_beq hp.1.1
        | false =>
            have hnone : (db.steps.filter fun ps => ps.id == e.stepId &&
                ps.versionId == versionId && space.holds ps.id e) = [] := by
              refine List.filter_eq_nil_iff.2 fun ps _ hp => ?_
              unfold EmbeddingSpace.holds at hp
              rw [Bool.and_assoc (e.stepId == ps.id), hspace, Bool.and_false, Bool.and_false] at hp
              cases hp
            rw [hnone]
            exact List.nil_sublist _
      refine (flatMap_sublist hone).nodup ?_
      -- The key of the table leaves one embedding for each movement in the space.
      have hkeys : ((db.stepEmbeddings.filter fun e =>
          e.provider == space.provider && e.model == space.model).map fun e =>
            (e.stepId, e.provider, e.model)).Nodup :=
        (List.filter_sublist.map _).nodup hkeyed.embeddings
      have hsame : ((db.stepEmbeddings.filter fun e =>
          e.provider == space.provider && e.model == space.model).map fun e =>
            (e.stepId, e.provider, e.model)) =
          ((db.stepEmbeddings.filter fun e =>
            e.provider == space.provider && e.model == space.model).map
              StepEmbedding.stepId).map fun id => (id, space.provider, space.model) := by
        rw [List.map_map]
        refine List.map_congr_left fun e he => ?_
        have hp := (List.mem_filter.1 he).2
        rw [Bool.and_eq_true] at hp
        show (e.stepId, e.provider, e.model) = (e.stepId, space.provider, space.model)
        rw [eq_of_beq hp.1, eq_of_beq hp.2]
      rw [hsame] at hkeys
      exact hkeys.of_map _

/-- Measured movements are told apart by their numbers. -/
theorem eq_of_stepNumber (hkeyed : db.Keyed) {d : Deployment F} {embedding : List F}
    {space : Option EmbeddingSpace} {a b : ProcessStep F × F}
    (ha : a ∈ d.measured db versionId embedding space)
    (hb : b ∈ d.measured db versionId embedding space)
    (hnumber : a.1.stepNumber = b.1.stepNumber) : a = b := by
  obtain ⟨hamem, haversion⟩ := mem_measured ha
  obtain ⟨hbmem, hbversion⟩ := mem_measured hb
  have hstep : a.1 = b.1 := by
    refine eq_of_nodup_key hkeyed.numbers hamem hbmem ?_
    rw [haversion, hbversion, hnumber]
  exact eq_of_nodup_key (measured_nodup hkeyed d versionId embedding space) ha hb
    (congrArg ProcessStep.id hstep)

end Rows

/-! ## §2. The nearest of the eligible. -/

/-- The eligible movements of a version with a vector in the space, and
their distances. -/
def Deployment.eligibleRows (d : Deployment F) (db : Database F) (versionId : Uuid)
    (embedding : List F) (space : Option EmbeddingSpace) : List (Uuid × F) :=
  ((d.measured db versionId embedding space).filter fun row =>
    decide (db.EligibleStep d.postgres versionId row.1.id)).map fun row => (row.1.id, row.2)

/-- The scores are those of as many of the rows as the limit asks for, and
none that is left out is more similar. -/
structure TopK (f : Floats F) (rows : List (Uuid × F)) (limit : Nat)
    (scores : List (Uuid × F)) : Prop where
  nodup : (scores.map Prod.fst).Nodup
  eligible : ∀ score ∈ scores, score.1 ∈ rows.map Prod.fst
  size : scores.length = min limit rows.length
  best : ∀ score ∈ scores, ∀ kept ∈ rows, kept.1 = score.1 →
    ∀ out ∈ rows, out.1 ∉ scores.map Prod.fst →
      f.lt (f.similarity kept.2) (f.similarity out.2) = false

/-- **A prefix of the rows ordered by their distances** is the nearest of
them. -/
theorem topK_of_sorted {f : Floats F} (h : f.Measures) {rows sorted : List (Uuid × F)}
    (hids : (rows.map Prod.fst).Nodup) (hperm : sorted.Perm rows)
    (hsorted : sorted.Pairwise fun a b => f.lt b.2 a.2 = false) (limit : Nat) :
    TopK f rows limit ((sorted.take limit).map fun row => (row.1, f.score row.2)) := by
  have hfst : ((sorted.take limit).map fun row => (row.1, f.score row.2)).map Prod.fst =
      (sorted.take limit).map Prod.fst := by
    rw [List.map_map]
    rfl
  have hnodup : (sorted.map Prod.fst).Nodup := (hperm.map _).nodup_iff.2 hids
  refine ⟨?_, ?_, ?_, ?_⟩
  · rw [hfst]
    exact ((List.take_sublist _ _).map _).nodup hnodup
  · rw [List.forall_mem_map]
    intro row hrow
    have hin : row ∈ rows := hperm.mem_iff.1 (List.mem_of_mem_take hrow)
    show row.1 ∈ rows.map Prod.fst
    exact List.mem_map_of_mem hin
  · rw [List.length_map, List.length_take, hperm.length_eq]
  · rw [List.forall_mem_map, hfst]
    intro row hrow kept hkept hid out hout hleft
    have hin := hperm.mem_iff.1 (List.mem_of_mem_take hrow)
    obtain rfl : kept = row := eq_of_nodup_key hids hkept hin hid
    refine h.similarity _ _ (rel_of_mem_take hsorted hrow (hperm.mem_iff.2 hout) fun hmem => ?_)
    exact hleft (List.mem_map_of_mem hmem)

/-! ## §3. The condition. -/

/-- Is the one movement before the other in the order of the search? -/
def Floats.nearer (f : Floats F) (a b : ProcessStep F × F) : Bool :=
  f.lt a.2 b.2 || (!f.lt b.2 a.2 && decide (b.1.stepNumber < a.1.stepNumber))

/-- Is the movement one of the `limit` nearest, eligible or not? -/
def Floats.amongNearest (f : Floats F) (rows : List (ProcessStep F × F)) (limit : Nat)
    (row : ProcessStep F × F) : Bool :=
  decide ((rows.filter fun other => f.nearer other row).length < limit)

/-- Nothing keeps the search from the eligible movements: the query is a vector
that PostgreSQL can be given, one of the space or, where it is compared, of
the legacy column; the predicate can be evaluated on the movements it is
asked of; and no movement that is not eligible stands among the nearest of a
space while an eligible one stands behind them. -/
structure Unobstructed (d : Deployment F) (db : Database F) (versionId : Uuid)
    (embedding : List F) (limit : Nat) (space : Option EmbeddingSpace) : Prop where
  castable : d.floats.Castable embedding
  dimensions : ∀ s ∈ space, d.assertDimensions s embedding = .ok ()
  column : space = none →
    (∃ row ∈ d.measured db versionId embedding none,
      db.EligibleStep d.postgres versionId row.1.id) → embedding.length = 1536
  evaluates : ∀ row ∈ db.joined, row.1.versionId = versionId →
    (∃ measured ∈ d.measured db versionId embedding space, measured.1.id = row.1.id ∧
      (space.isSome = true → d.floats.amongNearest (d.measured db versionId embedding space)
        limit measured = true)) →
    (eligible d.postgres row.1 row.2.1 row.2.2).isOk = true
  uncrowded : space.isSome = true →
    ∀ a ∈ d.measured db versionId embedding space,
      d.floats.amongNearest (d.measured db versionId embedding space) limit a = true →
      ¬db.EligibleStep d.postgres versionId a.1.id →
      ∀ b ∈ d.measured db versionId embedding space,
        db.EligibleStep d.postgres versionId b.1.id →
        d.floats.amongNearest (d.measured db versionId embedding space) limit b = true

/-! ## §4. The legacy path. -/

section Search

variable {d : Deployment F} {db : Database F} {versionId : Uuid} {embedding : List F}

/-- `ORDER BY` a distance. -/
theorem pairwise_of_distance {f : Floats F} (h : f.Linear) (rows : List (Uuid × F)) :
    (rows.insertionSort fun a b => ¬f.lt b.2 a.2).Pairwise fun a b => f.lt b.2 a.2 = false := by
  have hsorted := pairwise_insertionSort_of (r := fun a b : Uuid × F => ¬f.lt b.2 a.2 = true)
    (fun a b => ?_) (fun a b c hab hbc => ?_) rows
  · exact hsorted.imp fun hle => Bool.not_eq_true _ ▸ hle
  · rw [Bool.not_eq_true, Bool.not_eq_true]
    exact (h.not_lt_total _ _).symm
  · rw [Bool.not_eq_true] at hab hbc ⊢
    exact h.not_lt_trans hbc hab

theorem nodup_eligibleRows (hkeyed : db.Keyed) (space : Option EmbeddingSpace) :
    ((d.eligibleRows db versionId embedding space).map Prod.fst).Nodup := by
  unfold Deployment.eligibleRows
  rw [List.map_map]
  exact (List.filter_sublist.map _).nodup (measured_nodup hkeyed d versionId embedding space)

/-- The rows of the legacy query are the eligible rows. -/
theorem legacyRows_perm {rows : List (ProcessStep F)}
    (h : db.selectSteps d.postgres versionId (fun ps => ps.embedding.isSome) = .ok rows) :
    (rows.map fun ps => (ps.id, d.floats.distance (ps.embedding.getD []) embedding)).Perm
      (d.eligibleRows db versionId embedding none) := by
  have hrows : rows.Perm (db.steps.filter fun ps =>
      (ps.versionId == versionId && ps.embedding.isSome) &&
        decide (db.EligibleStep d.postgres versionId ps.id)) := by
    have hsteps : db.steps.Nodup := db.steps_nodup.of_map _
    refine (List.perm_ext_iff_of_nodup ((selectSteps_sublist h).nodup hsteps)
      (hsteps.filter _)).2 fun ps => ?_
    rw [mem_selectSteps h, List.mem_filter, Bool.and_eq_true, Bool.and_eq_true, beq_iff_eq,
      decide_eq_true_eq]
    constructor
    · rintro ⟨hmem, hvector, heligible⟩
      refine ⟨hmem, ⟨?_, hvector⟩, heligible⟩
      obtain ⟨row, hrow, hid, hversion, _⟩ := heligible
      rw [← eq_of_nodup_key db.steps_nodup (mem_steps_of_joined hrow) hmem hid]
      exact hversion
    · rintro ⟨hmem, ⟨_, hvector⟩, heligible⟩
      exact ⟨hmem, hvector, heligible⟩
  have hmeasured : d.eligibleRows db versionId embedding none = (db.steps.filter fun ps =>
      (ps.versionId == versionId && ps.embedding.isSome) &&
        decide (db.EligibleStep d.postgres versionId ps.id)).map fun ps =>
          (ps.id, d.floats.distance (ps.embedding.getD []) embedding) := by
    unfold Deployment.eligibleRows Deployment.measured
    rw [List.filter_map, List.map_map, List.filter_filter]
    simp only [Function.comp_def, Bool.and_comm]
  rw [hmeasured]
  exact hrows.map _

/-- The legacy query asks the predicate of every movement with a vector. -/
theorem legacy_evaluates_iff (limit : Nat) :
    (db.selectSteps d.postgres versionId fun ps => ps.embedding.isSome).isOk = true ↔
      ∀ row ∈ db.joined, row.1.versionId = versionId →
        (∃ measured ∈ d.measured db versionId embedding none, measured.1.id = row.1.id ∧
          ((none : Option EmbeddingSpace).isSome = true → d.floats.amongNearest
            (d.measured db versionId embedding none) limit measured = true)) →
        (eligible d.postgres row.1 row.2.1 row.2.2).isOk = true := by
  rw [isOk_selectSteps]
  constructor
  · intro hasked row hrow hversion hmeasured
    obtain ⟨measured, hmeasured, hid, _⟩ := hmeasured
    refine hasked row hrow hversion ?_
    obtain ⟨ps, hps, rfl⟩ := List.mem_map.1 hmeasured
    obtain ⟨hmem, hp⟩ := List.mem_filter.1 hps
    rw [Bool.and_eq_true] at hp
    rw [← eq_of_nodup_key db.steps_nodup hmem (mem_steps_of_joined hrow) hid]
    exact hp.2
  · intro hclear row hrow hversion hvector
    refine hclear row hrow hversion
      ⟨(row.1, d.floats.distance (row.1.embedding.getD []) embedding), ?_, rfl,
        fun hspace => (nomatch hspace)⟩
    refine List.mem_map_of_mem (f := fun ps : ProcessStep F =>
      (ps, d.floats.distance (ps.embedding.getD []) embedding)) (List.mem_filter.2
        ⟨mem_steps_of_joined hrow, ?_⟩)
    rw [Bool.and_eq_true, beq_iff_eq]
    exact ⟨hversion, hvector⟩

/-- The legacy query compares its vector with those of the eligible movements,
which have the dimensions of the column. -/
theorem legacy_column_iff (hkeyed : db.Keyed) {rows : List (ProcessStep F)}
    (h : db.selectSteps d.postgres versionId (fun ps => ps.embedding.isSome) = .ok rows) :
    (∀ ps ∈ rows, (ps.embedding.getD []).length = embedding.length) ↔
      ((∃ row ∈ d.measured db versionId embedding none,
        db.EligibleStep d.postgres versionId row.1.id) → embedding.length = 1536) := by
  have hcolumn : ∀ ps ∈ rows, (ps.embedding.getD []).length = 1536 := by
    intro ps hps
    obtain ⟨hmem, hvector, _⟩ := (mem_selectSteps h).1 hps
    obtain ⟨v, hv⟩ := Option.isSome_iff_exists.1 hvector
    rw [hv]
    exact hkeyed.column ps hmem v hv
  constructor
  · rintro hall ⟨row, hrow, heligible⟩
    obtain ⟨ps, hps, rfl⟩ := List.mem_map.1 hrow
    obtain ⟨hmem, hp⟩ := List.mem_filter.1 hps
    rw [Bool.and_eq_true] at hp
    have hin := (mem_selectSteps h).2 ⟨hmem, hp.2, heligible⟩
    rw [← hall ps hin, hcolumn ps hin]
  · intro hlength ps hps
    obtain ⟨hmem, hvector, heligible⟩ := (mem_selectSteps h).1 hps
    rw [hcolumn ps hps]
    obtain ⟨row, hrow, hid, hversion, _⟩ := id heligible
    refine (hlength ⟨(ps, _), List.mem_map_of_mem (f := fun ps : ProcessStep F =>
      (ps, d.floats.distance (ps.embedding.getD []) embedding))
        (List.mem_filter.2 ⟨hmem, ?_⟩), heligible⟩).symm
    rw [← eq_of_nodup_key db.steps_nodup (mem_steps_of_joined hrow) hmem hid, Bool.and_eq_true,
      beq_iff_eq]
    refine ⟨hversion, ?_⟩
    rw [eq_of_nodup_key db.steps_nodup (mem_steps_of_joined hrow) hmem hid]
    exact hvector

/-! ## §5. The path of the spaces. -/

/-- The scores of the eligible movements. -/
theorem eligibleScoreMap_eq {pg : Postgres} {S : Type} {scores out : List (Uuid × S)}
    (h : eligibleScoreMap pg db versionId scores = .ok out) :
    out = scores.filter fun score => decide (db.EligibleStep pg versionId score.1) := by
  unfold eligibleScoreMap at h
  by_cases hempty : scores.isEmpty = true
  · rw [if_pos hempty] at h
    rw [List.isEmpty_iff.1 hempty]
    exact (Except.ok.inj h).symm
  · rw [if_neg hempty] at h
    obtain ⟨rows, hrows, h⟩ := bind_eq_ok.1 h
    obtain rfl := Except.ok.inj h
    refine List.filter_congr fun score hscore => ?_
    rw [Bool.eq_iff_iff, List.contains_iff_mem, decide_eq_true_eq]
    constructor
    · intro hid
      obtain ⟨ps, hps, hid⟩ := List.mem_map.1 hid
      rw [← hid]
      exact db.selectSteps_eligible hrows hps
    · intro heligible
      obtain ⟨row, hrow, hid, _⟩ := id heligible
      rw [← hid] at heligible ⊢
      refine List.mem_map_of_mem ((mem_selectSteps hrows).2
        ⟨mem_steps_of_joined hrow, ?_, heligible⟩)
      rw [List.contains_iff_mem, hid]
      exact List.mem_map_of_mem hscore

/-- The second query asks the predicate of the movements that were found. -/
theorem isOk_eligibleScoreMap {pg : Postgres} {S : Type} {scores : List (Uuid × S)} :
    (eligibleScoreMap pg db versionId scores).isOk = true ↔
      ∀ row ∈ db.joined, row.1.versionId = versionId → row.1.id ∈ scores.map Prod.fst →
        (eligible pg row.1 row.2.1 row.2.2).isOk = true := by
  unfold eligibleScoreMap
  by_cases hempty : scores.isEmpty = true
  · rw [if_pos hempty, List.isEmpty_iff.1 hempty]
    exact iff_of_true rfl fun row _ _ hid => nomatch hid
  · rw [if_neg hempty]
    have hisOk : ((db.selectSteps pg versionId fun ps => (scores.map Prod.fst).contains ps.id) >>=
        fun rows => pure (scores.filter fun score =>
          (rows.map ProcessStep.id).contains score.1)).isOk =
        (db.selectSteps pg versionId fun ps => (scores.map Prod.fst).contains ps.id).isOk := by
      cases db.selectSteps pg versionId fun ps => (scores.map Prod.fst).contains ps.id with
      | error e => rfl
      | ok rows => rfl
    exact (Bool.eq_iff_iff.1 hisOk).trans (isOk_selectSteps.trans (forall₂_congr fun row _ =>
      forall_congr' fun _ => imp_congr_left List.contains_iff_mem))

/-- The rows of a space in the order of the search. -/
def Deployment.ordered (d : Deployment F) (db : Database F) (versionId : Uuid)
    (embedding : List F) (space : EmbeddingSpace) : List (ProcessStep F × F) :=
  (d.measured db versionId embedding (some space)).insertionSort fun a b =>
    d.floats.lt a.2 b.2 ∨ (¬d.floats.lt b.2 a.2 ∧ b.1.stepNumber ≤ a.1.stepNumber)

/-- **The rows of a space in the order of the search** are what the first query
gives, if the vector of the query is one of the space. -/
theorem vectorSearchSpace_iff (hexact : d.ExactPlans) (hkeyed : db.Keyed) {space : EmbeddingSpace}
    (hspace : space.dimensions = 1024) {limit : Nat} (hlimit : 0 < limit)
    {scores : List (Uuid × F)} :
    d.vectorSearchSpace db space versionId embedding limit = .ok scores ↔
      d.floats.Castable embedding ∧ d.assertDimensions space embedding = .ok () ∧
        scores = ((d.ordered db versionId embedding space).take limit).map fun row =>
          (row.1.id, d.floats.score row.2) := by
  -- The rows the query visits, under the exact plan all that there are.
  let found : List (ProcessStep F × List F) := db.stepEmbeddings.flatMap fun e =>
    (db.steps.filter fun ps => ps.id == e.stepId && ps.versionId == versionId &&
      space.holds ps.id e && d.visits embedding ps.id).map fun ps => (ps, e.embedding)
  have hmeasured : (found.map fun row => (row.1, d.floats.distance row.2 embedding)) =
      d.measured db versionId embedding (some space) := by
    have hvisits : ∀ id, d.visits embedding id = true := hexact embedding
    unfold Deployment.measured
    simp only [found, hvisits, Bool.and_true, List.map_flatMap, List.map_map]
    rfl
  -- The column holds vectors of 1024 elements, so the operator raises nothing here.
  have hcolumn : ∀ row ∈ found, row.2.length = 1024 := by
    intro row hrow
    obtain ⟨e, he, hrow⟩ := List.mem_flatMap.1 hrow
    obtain ⟨ps, -, rfl⟩ := List.mem_map.1 hrow
    exact hkeyed.spaceColumn e he
  unfold Deployment.vectorSearchSpace
  rw [if_neg (Nat.ne_of_gt hlimit)]
  constructor
  · intro hok
    obtain ⟨_, hdimensions, hok⟩ := bind_eq_ok.1 hok
    obtain ⟨query, hquery, hbody⟩ := bind_eq_ok.1 hok
    obtain ⟨hcastable, rfl⟩ := Floats.toVector_iff.1 hquery
    obtain ⟨rows, hrows, hscores⟩ := bind_eq_ok.1 hbody
    obtain ⟨-, rfl⟩ := Floats.mapM_cosine.1 hrows
    obtain rfl := Except.ok.inj hscores
    refine ⟨hcastable, hdimensions, ?_⟩
    show (((found.map fun row => (row.1, d.floats.distance row.2 query)).insertionSort _).take
      limit).map _ = _
    rw [hmeasured]
    rfl
  · rintro ⟨hcastable, hdimensions, rfl⟩
    have hlength : embedding.length = 1024 := by
      unfold Deployment.assertDimensions at hdimensions
      by_contra hne
      rw [if_pos (by rwa [hspace])] at hdimensions
      cases hdimensions
    refine bind_eq_ok.2 ⟨(), hdimensions, bind_eq_ok.2 ⟨embedding,
      Floats.toVector_iff.2 ⟨hcastable, rfl⟩, bind_eq_ok.2 ⟨_, Floats.mapM_cosine.2
        ⟨fun row hrow => ?_, rfl⟩, ?_⟩⟩⟩
    · rw [hcolumn row hrow, hlength]
    · show Except.ok ((((found.map fun row => (row.1, d.floats.distance row.2 embedding)
        ).insertionSort _).take limit).map _) = _
      rw [hmeasured]
      rfl

theorem Floats.Linear.nearer_irrefl {f : Floats F} (h : f.Linear) (a : ProcessStep F × F) :
    f.nearer a a = false := by
  unfold Floats.nearer
  rw [h.irrefl]
  simp

theorem Floats.Linear.nearer_asymm {f : Floats F} (h : f.Linear) {a b : ProcessStep F × F}
    (hab : f.nearer a b = true) : f.nearer b a = false := by
  unfold Floats.nearer at hab ⊢
  rw [Bool.or_eq_true, Bool.and_eq_true, Bool.not_eq_true', decide_eq_true_eq] at hab
  rcases hab with hlt | ⟨hnlt, hnumber⟩
  · rw [h.asymm hlt, hlt]
    rfl
  · rw [hnlt, Bool.false_or, decide_eq_false (by omega), Bool.and_false]

/-- The order of the search is strict on the rows of a space. -/
theorem pairwise_ordered (h : d.floats.Linear) (hkeyed : db.Keyed) (space : EmbeddingSpace) :
    (d.ordered db versionId embedding space).Pairwise fun a b => d.floats.nearer a b = true := by
  have hsorted : (d.ordered db versionId embedding space).Pairwise fun a b =>
      d.floats.lt a.2 b.2 = true ∨
        (¬d.floats.lt b.2 a.2 = true ∧ b.1.stepNumber ≤ a.1.stepNumber) := by
    refine pairwise_insertionSort_by (r := fun x y => d.floats.lt x y = true) (fun x => ?_)
      h.trans h.total Prod.snd
      (fun a b : ProcessStep F × F => le_total b.1.stepNumber a.1.stepNumber)
      (fun a b c hab hbc => le_trans hbc hab) _
    rw [h.irrefl]
    exact Bool.false_ne_true
  have hperm : (d.ordered db versionId embedding space).Perm
      (d.measured db versionId embedding (some space)) := List.perm_insertionSort _ _
  have hnodup : (d.ordered db versionId embedding space).Nodup :=
    hperm.nodup_iff.2 (measured_nodup hkeyed d versionId embedding (some space)).of_map
  refine (hsorted.and hnodup).imp_of_mem fun {a b} ha hb hpair => ?_
  -- No two rows share a number, so the order is strict.
  have hne : a.1.stepNumber ≠ b.1.stepNumber := fun hnumber =>
    hpair.2 (eq_of_stepNumber hkeyed (hperm.mem_iff.1 ha) (hperm.mem_iff.1 hb) hnumber)
  unfold Floats.nearer
  rw [Bool.or_eq_true, Bool.and_eq_true, Bool.not_eq_true', decide_eq_true_eq]
  refine hpair.1.imp_right fun hle => ⟨by simpa using hle.1, ?_⟩
  have hle := hle.2
  omega

theorem ordered_perm (space : EmbeddingSpace) :
    (d.ordered db versionId embedding space).Perm
      (d.measured db versionId embedding (some space)) :=
  List.perm_insertionSort _ _

/-- The rows the search takes are those among the nearest. -/
theorem mem_take_ordered (h : d.floats.Linear) (hkeyed : db.Keyed) {space : EmbeddingSpace}
    (limit : Nat) {row : ProcessStep F × F}
    (hrow : row ∈ d.measured db versionId embedding (some space)) :
    row ∈ (d.ordered db versionId embedding space).take limit ↔
      d.floats.amongNearest (d.measured db versionId embedding (some space)) limit row = true := by
  have hperm : (d.ordered db versionId embedding space).Perm
      (d.measured db versionId embedding (some space)) := ordered_perm space
  unfold Floats.amongNearest
  rw [mem_take_iff_count h.nearer_irrefl (fun a b => h.nearer_asymm)
    (pairwise_ordered h hkeyed space) (hperm.mem_iff.2 hrow), (hperm.filter _).length_eq,
    decide_eq_true_eq]

/-- What the two queries of the path give. -/
def Deployment.spaceScores (d : Deployment F) (db : Database F) (versionId : Uuid)
    (embedding : List F) (limit : Nat) (space : EmbeddingSpace) : List (Uuid × F) :=
  (((d.ordered db versionId embedding space).take limit).map fun row =>
    (row.1.id, d.floats.score row.2)).filter fun score =>
      decide (db.EligibleStep d.postgres versionId score.1)

theorem spaceScores_eq (limit : Nat) (space : EmbeddingSpace) :
    d.spaceScores db versionId embedding limit space =
      (((d.ordered db versionId embedding space).take limit).filter fun row =>
        decide (db.EligibleStep d.postgres versionId row.1.id)).map fun row =>
          (row.1.id, d.floats.score row.2) := by
  unfold Deployment.spaceScores
  rw [List.filter_map]
  rfl

/-- **Taking before filtering** gives the nearest eligible movements exactly
when no other stands before them. -/
theorem spaceScores_topK_iff (h : d.floats.Measures) (hkeyed : db.Keyed) (limit : Nat)
    (space : EmbeddingSpace) :
    TopK d.floats (d.eligibleRows db versionId embedding (some space)) limit
        (d.spaceScores db versionId embedding limit space) ↔
      ∀ a ∈ d.measured db versionId embedding (some space),
        d.floats.amongNearest (d.measured db versionId embedding (some space)) limit a = true →
        ¬db.EligibleStep d.postgres versionId a.1.id →
        ∀ b ∈ d.measured db versionId embedding (some space),
          db.EligibleStep d.postgres versionId b.1.id →
          d.floats.amongNearest (d.measured db versionId embedding (some space)) limit b =
            true := by
  have hperm : (d.ordered db versionId embedding space).Perm
      (d.measured db versionId embedding (some space)) := ordered_perm space
  have hids : ((d.ordered db versionId embedding space).map fun row => row.1.id).Nodup :=
    (hperm.map _).nodup_iff.2 (measured_nodup hkeyed d versionId embedding (some space))
  -- The cut comes before the filter: nothing is missing if and only if what was cut away has
  -- no eligible row, or what was kept only eligible ones.
  have hcut := length_filter_take_iff (hids.of_map _)
    (fun row => decide (db.EligibleStep d.postgres versionId row.1.id)) limit
  -- To be among the first `limit` rows is to be among the nearest.
  have hcondition : (∀ a ∈ (d.ordered db versionId embedding space).take limit,
      decide (db.EligibleStep d.postgres versionId a.1.id) = false →
      ∀ b ∈ d.ordered db versionId embedding space,
        decide (db.EligibleStep d.postgres versionId b.1.id) = true →
        b ∈ (d.ordered db versionId embedding space).take limit) ↔
      ∀ a ∈ d.measured db versionId embedding (some space),
        d.floats.amongNearest (d.measured db versionId embedding (some space)) limit a = true →
        ¬db.EligibleStep d.postgres versionId a.1.id →
        ∀ b ∈ d.measured db versionId embedding (some space),
          db.EligibleStep d.postgres versionId b.1.id →
          d.floats.amongNearest (d.measured db versionId embedding (some space)) limit b =
            true := by
    constructor
    · intro hclear a ha hnear hnot b hb heligible
      rw [← mem_take_ordered h.toLinear hkeyed limit ha] at hnear
      rw [← mem_take_ordered h.toLinear hkeyed limit hb]
      exact hclear a hnear (decide_eq_false hnot) b (hperm.mem_iff.2 hb) (decide_eq_true heligible)
    · intro hclear a ha hnot b hb heligible
      have hamem := hperm.mem_iff.1 (List.mem_of_mem_take ha)
      have hbmem := hperm.mem_iff.1 hb
      rw [mem_take_ordered h.toLinear hkeyed limit hamem] at ha
      rw [mem_take_ordered h.toLinear hkeyed limit hbmem]
      exact hclear a hamem ha (of_decide_eq_false hnot) b hbmem (of_decide_eq_true heligible)
  have hrows : (d.eligibleRows db versionId embedding (some space)).length =
      ((d.ordered db versionId embedding space).filter fun row =>
        decide (db.EligibleStep d.postgres versionId row.1.id)).length := by
    unfold Deployment.eligibleRows
    rw [List.length_map, (hperm.filter _).length_eq]
  rw [← hcondition, ← hcut, ← hrows]
  have hlength : (d.spaceScores db versionId embedding limit space).length =
      (((d.ordered db versionId embedding space).take limit).filter fun row =>
        decide (db.EligibleStep d.postgres versionId row.1.id)).length := by
    rw [spaceScores_eq, List.length_map]
  rw [← hlength]
  refine ⟨fun htop => htop.size, fun hsize => ⟨?_, ?_, hsize, ?_⟩⟩
  · rw [spaceScores_eq, List.map_map]
    exact ((List.filter_sublist.trans (List.take_sublist _ _)).map _).nodup hids
  · rw [spaceScores_eq, List.forall_mem_map]
    intro row hrow
    obtain ⟨htake, heligible⟩ := List.mem_filter.1 hrow
    unfold Deployment.eligibleRows
    rw [List.map_map]
    exact List.mem_map_of_mem (f := fun row : ProcessStep F × F => row.1.id) (List.mem_filter.2
      ⟨hperm.mem_iff.1 (List.mem_of_mem_take htake), heligible⟩)
  · rw [spaceScores_eq, List.forall_mem_map]
    intro row hrow kept hkept hid out hout hleft
    obtain ⟨keptRow, hkeptRow, rfl⟩ := List.mem_map.1 hkept
    obtain ⟨outRow, houtRow, rfl⟩ := List.mem_map.1 hout
    have htake := (List.mem_filter.1 hrow).1
    have hin := List.mem_of_mem_take htake
    obtain rfl : keptRow = row :=
      eq_of_nodup_key hids (hperm.mem_iff.2 (List.mem_filter.1 hkeptRow).1) hin hid
    have houtMem := hperm.mem_iff.2 (List.mem_filter.1 houtRow).1
    -- A row that is left out was behind the cut, hence behind every row that is kept.
    have hbehind : outRow ∉ (d.ordered db versionId embedding space).take limit := by
      intro hmem
      refine hleft ?_
      rw [List.map_map]
      exact List.mem_map_of_mem (f := fun row : ProcessStep F × F => row.1.id)
        (List.mem_filter.2 ⟨hmem, (List.mem_filter.1 houtRow).2⟩)
    have hnearer := rel_of_mem_take (pairwise_ordered h.toLinear hkeyed space) htake houtMem hbehind
    refine h.similarity _ _ ?_
    unfold Floats.nearer at hnearer
    rw [Bool.or_eq_true, Bool.and_eq_true, Bool.not_eq_true'] at hnearer
    rcases hnearer with hlt | hle
    · exact h.asymm hlt
    · exact hle.1

/-- The second query can be answered where the predicate can be evaluated on
the nearest movements. -/
theorem space_isOk_iff (h : d.floats.Linear) (hkeyed : db.Keyed) (limit : Nat)
    (space : EmbeddingSpace) :
    (eligibleScoreMap d.postgres db versionId
      (((d.ordered db versionId embedding space).take limit).map fun row =>
        (row.1.id, d.floats.score row.2))).isOk = true ↔
      ∀ row ∈ db.joined, row.1.versionId = versionId →
        (∃ measured ∈ d.measured db versionId embedding (some space),
          measured.1.id = row.1.id ∧ ((some space).isSome = true →
            d.floats.amongNearest (d.measured db versionId embedding (some space)) limit
              measured = true)) →
        (eligible d.postgres row.1 row.2.1 row.2.2).isOk = true := by
  have hperm : (d.ordered db versionId embedding space).Perm
      (d.measured db versionId embedding (some space)) := ordered_perm space
  rw [isOk_eligibleScoreMap]
  refine forall₂_congr fun row _ => forall_congr' fun _ => imp_congr_left ?_
  rw [List.map_map, List.mem_map]
  constructor
  · rintro ⟨found, hfound, hid⟩
    have hmem := hperm.mem_iff.1 (List.mem_of_mem_take hfound)
    exact ⟨found, hmem, hid, fun _ => (mem_take_ordered h hkeyed limit hmem).1 hfound⟩
  · rintro ⟨found, hmem, hid, hnear⟩
    exact ⟨found, (mem_take_ordered h hkeyed limit hmem).2 (hnear rfl), hid⟩

/-! ## §6. The two paths. -/

theorem searchedSpace_none (h : d.searchedSpace = .ok none) : d.runtimeEnabled = .ok false := by
  obtain ⟨enabled, henabled, h⟩ := bind_eq_ok.1 h
  cases enabled with
  | false => exact henabled
  | true =>
      obtain ⟨space, _, h⟩ := bind_eq_ok.1 h
      cases h

theorem searchedSpace_some {space : EmbeddingSpace} (h : d.searchedSpace = .ok (some space)) :
    d.runtimeEnabled = .ok true ∧ d.activeRuntime = .ok space := by
  obtain ⟨enabled, henabled, h⟩ := bind_eq_ok.1 h
  cases enabled with
  | false => cases h
  | true =>
      obtain ⟨active, hactive, h⟩ := bind_eq_ok.1 h
      obtain rfl := Option.some.inj (Except.ok.inj h)
      exact ⟨henabled, hactive⟩

/-- A computation that can raise, and the state it leaves alone. -/
theorem run_ofExcept_eq {α : Type} (x : Except String α) (s : State F) :
    (MonadExcept.ofExcept x : Action F α).run.run s = (x, s) := by
  cases x with
  | error e => rfl
  | ok a => rfl

theorem vectorSearch_run_legacy (h : d.searchedSpace = .ok none) (limit : Nat) (s : State F) :
    (vectorSearch d versionId embedding limit).run.run s =
      (d.floats.toVector embedding >>= fun query =>
        (s.db.selectSteps d.postgres versionId fun ps =>
          ps.embedding.isSome && d.visits query ps.id) >>= fun rows =>
            (rows.mapM fun ps =>
              (d.floats.cosine (ps.embedding.getD []) query).map (ps.id, ·)).map fun measured =>
                ((measured.insertionSort fun a b => ¬d.floats.lt b.2 a.2).take limit).map
                  fun row => (row.1, d.floats.score row.2), s) := by
  unfold vectorSearch
  rw [searchedSpace_none h]
  show ((MonadExcept.ofExcept (d.floats.toVector embedding) : Action F _) >>= _).run.run s = _
  rw [run_bind, run_ofExcept_eq]
  -- The cast, the query and its operators, in the order in which they may raise.
  cases d.floats.toVector embedding with
  | error e => rfl
  | ok query =>
      show ((MonadExcept.ofExcept (s.db.selectSteps d.postgres versionId fun ps =>
        ps.embedding.isSome && d.visits query ps.id) : Action F _) >>= _).run.run s = _
      rw [run_bind, run_ofExcept_eq]
      cases hrows : s.db.selectSteps d.postgres versionId fun ps =>
          ps.embedding.isSome && d.visits query ps.id with
      | error e =>
          show _ = ((s.db.selectSteps d.postgres versionId fun ps =>
            ps.embedding.isSome && d.visits query ps.id) >>= _, s)
          rw [hrows]
          rfl
      | ok rows =>
          show ((MonadExcept.ofExcept (rows.mapM fun ps =>
            (d.floats.cosine (ps.embedding.getD []) query).map (ps.id, ·)) :
              Action F _) >>= _).run.run s = ((s.db.selectSteps d.postgres versionId fun ps =>
            ps.embedding.isSome && d.visits query ps.id) >>= _, s)
          rw [run_bind, run_ofExcept_eq, hrows]
          cases hmeasured : rows.mapM fun ps =>
              (d.floats.cosine (ps.embedding.getD []) query).map (ps.id, ·) with
          | error e =>
              show _ = ((rows.mapM fun ps =>
                (d.floats.cosine (ps.embedding.getD []) query).map (ps.id, ·)).map _, s)
              rw [hmeasured]
              rfl
          | ok measured =>
              show _ = ((rows.mapM fun ps =>
                (d.floats.cosine (ps.embedding.getD []) query).map (ps.id, ·)).map _, s)
              rw [hmeasured]
              rfl

/-- **What the legacy path gives.** -/
theorem vectorSearch_legacy_iff (h : d.searchedSpace = .ok none) (hexact : d.ExactPlans)
    (limit : Nat) (s : State F) {scores : List (Uuid × F)} :
    (vectorSearch d versionId embedding limit).run.run s = (.ok scores, s) ↔
      d.floats.Castable embedding ∧ ∃ rows,
        s.db.selectSteps d.postgres versionId (fun ps => ps.embedding.isSome) = .ok rows ∧
        (∀ ps ∈ rows, (ps.embedding.getD []).length = embedding.length) ∧
        scores = (((rows.map fun ps =>
          (ps.id, d.floats.distance (ps.embedding.getD []) embedding)).insertionSort
            fun a b => ¬d.floats.lt b.2 a.2).take limit).map fun row =>
              (row.1, d.floats.score row.2) := by
  have hvisits : ∀ query, (fun ps : ProcessStep F => ps.embedding.isSome && d.visits query ps.id) =
      fun ps => ps.embedding.isSome := by
    intro query
    funext ps
    rw [hexact, Bool.and_true]
  rw [vectorSearch_run_legacy h]
  constructor
  · intro hrun
    obtain ⟨query, hquery, hbody⟩ := bind_eq_ok.1 (congrArg Prod.fst hrun)
    obtain ⟨hcastable, rfl⟩ := Floats.toVector_iff.1 hquery
    obtain ⟨rows, hrows, hscores⟩ := bind_eq_ok.1 hbody
    obtain ⟨measured, hmeasured, rfl⟩ := map_eq_ok.1 hscores
    obtain ⟨hlength, rfl⟩ := Floats.mapM_cosine.1 hmeasured
    rw [hvisits] at hrows
    exact ⟨hcastable, rows, hrows, hlength, rfl⟩
  · rintro ⟨hcastable, rows, hrows, hlength, rfl⟩
    refine congrArg (·, s) (bind_eq_ok.2 ⟨embedding, Floats.toVector_iff.2 ⟨hcastable, rfl⟩,
      bind_eq_ok.2 ⟨rows, ?_, map_eq_ok.2 ⟨_, Floats.mapM_cosine.2 ⟨hlength, rfl⟩, rfl⟩⟩⟩)
    rw [hvisits]
    exact hrows

theorem vectorSearch_run_space {space : EmbeddingSpace}
    (h : d.searchedSpace = .ok (some space)) (limit : Nat) (s : State F) :
    (vectorSearch d versionId embedding limit).run.run s =
      (d.vectorSearchSpace s.db space versionId embedding limit >>= fun scores =>
        eligibleScoreMap d.postgres s.db versionId scores, s) := by
  obtain ⟨henabled, hactive⟩ := searchedSpace_some h
  unfold vectorSearch
  rw [henabled, hactive]
  show ((MonadExcept.ofExcept (d.vectorSearchSpace s.db space versionId embedding limit) :
    Action F _) >>= _).run.run s = _
  rw [run_bind, run_ofExcept_eq]
  cases d.vectorSearchSpace s.db space versionId embedding limit with
  | error e => rfl
  | ok scores => exact run_ofExcept_eq _ s

end Search

/-- A space has the dimensions of its column. -/
theorem activeSpace_dimensions {d : Deployment F} {space : EmbeddingSpace}
    (h : d.activeSpace = .ok space) : space.dimensions = 1024 := by
  unfold Deployment.activeSpace at h
  dsimp only at h
  split at h
  · split at h
    · cases h
    · rw [← Except.ok.inj h]
  split at h
  · obtain ⟨allowed, -, h⟩ := bind_eq_ok.1 h
    split at h
    · cases h
    · split at h
      · cases h
      · rw [← Except.ok.inj h]
  · cases h

/-- The space that is searched has the dimensions of its column. -/
theorem searchedSpace_dimensions {d : Deployment F} {space : EmbeddingSpace}
    (h : d.searchedSpace = .ok (some space)) : space.dimensions = 1024 := by
  obtain ⟨-, hactive⟩ := searchedSpace_some h
  unfold Deployment.activeRuntime at hactive
  obtain ⟨enabled, -, hactive⟩ := bind_eq_ok.1 hactive
  split at hactive
  · cases hactive
  · obtain ⟨active, hspace, hactive⟩ := bind_eq_ok.1 hactive
    split at hactive
    · obtain ⟨_, -, hactive⟩ := bind_eq_ok.1 hactive
      rw [← Except.ok.inj hactive]
      exact activeSpace_dimensions hspace
    · rw [← Except.ok.inj hactive]
      exact activeSpace_dimensions hspace

/-- **Vector search gives the nearest eligible movements exactly when it is
unobstructed.** -/
theorem vectorSearch_topK_iff {d : Deployment F} (h : d.floats.Measures) (hexact : d.ExactPlans)
    {s : State F} (hkeyed : s.db.Keyed) (versionId : Uuid) (embedding : List F) {limit : Nat}
    (hlimit : 0 < limit) :
    (∃ space scores, d.searchedSpace = .ok space ∧
      (vectorSearch d versionId embedding limit).run.run s = (.ok scores, s) ∧
      TopK d.floats (d.eligibleRows s.db versionId embedding space) limit scores) ↔
    ∃ space, d.searchedSpace = .ok space ∧
      Unobstructed d s.db versionId embedding limit space := by
  constructor
  · rintro ⟨space, scores, hspace, hrun, htop⟩
    refine ⟨space, hspace, ?_⟩
    cases space with
    | none =>
        -- The legacy query filters before the cut, so it has only to be answered.
        obtain ⟨hcastable, rows, hrows, hlength, -⟩ :=
          (vectorSearch_legacy_iff hspace hexact limit s).1 hrun
        exact ⟨hcastable, fun _ hs => (nomatch hs), fun _ => (legacy_column_iff hkeyed hrows).1 hlength,
          (legacy_evaluates_iff limit).1 (isOk_iff.2 ⟨rows, hrows⟩), fun hsome => (nomatch hsome)⟩
    | some space =>
        -- The space's query filters after the cut.
        have hdims := searchedSpace_dimensions hspace
        rw [vectorSearch_run_space hspace] at hrun
        obtain ⟨found, hfound, hscores⟩ := bind_eq_ok.1 (congrArg Prod.fst hrun)
        obtain ⟨hcastable, hdimensions, rfl⟩ :=
          (vectorSearchSpace_iff hexact hkeyed hdims hlimit).1 hfound
        rw [eligibleScoreMap_eq hscores] at htop
        refine ⟨hcastable, fun other hother => ?_, fun hnone => (nomatch hnone), ?_, fun _ => ?_⟩
        · obtain rfl := Option.some.inj hother
          exact hdimensions
        · exact (space_isOk_iff h.toLinear hkeyed limit space).1 (isOk_iff.2 ⟨scores, hscores⟩)
        · exact (spaceScores_topK_iff h hkeyed limit space).1 htop
  · rintro ⟨space, hspace, hclear⟩
    cases space with
    | none =>
        obtain ⟨rows, hrows⟩ := isOk_iff.1 ((legacy_evaluates_iff limit).2 hclear.evaluates)
        have hlength := (legacy_column_iff hkeyed hrows).2 (hclear.column rfl)
        refine ⟨none, _, hspace, (vectorSearch_legacy_iff hspace hexact limit s).2
          ⟨hclear.castable, rows, hrows, hlength, rfl⟩,
          topK_of_sorted h (nodup_eligibleRows hkeyed none)
            ((List.perm_insertionSort _ _).trans (legacyRows_perm hrows))
            (pairwise_of_distance h.toLinear _) limit⟩
    | some space =>
        have hdims := searchedSpace_dimensions hspace
        obtain ⟨scores, hscores⟩ := isOk_iff.1
          ((space_isOk_iff h.toLinear hkeyed limit space).2 hclear.evaluates)
        refine ⟨some space, scores, hspace, ?_, ?_⟩
        · rw [vectorSearch_run_space hspace]
          exact congrArg (·, s) (bind_eq_ok.2 ⟨_, (vectorSearchSpace_iff hexact hkeyed hdims
            hlimit).2 ⟨hclear.castable, hclear.dimensions space rfl, rfl⟩, hscores⟩)
        · rw [eligibleScoreMap_eq hscores]
          exact (spaceScores_topK_iff h hkeyed limit space).2 (hclear.uncrowded rfl)

/-! ## §7. A private movement nearest. -/

theorem plainDeployment_measures : plainDeployment.floats.Measures where
  toLinear := plainDeployment_linear
  similarity a b hab := by
    have hle : ¬a < b := of_decide_eq_false hab
    have hgoal : ¬(1 - b < 1 - a) := by omega
    exact decide_eq_false hgoal

theorem plainDeployment_exact : plainDeployment.ExactPlans := fun _ _ => rfl

/-- A movement, and a private one that is nearer, with vectors of the legacy
column. -/
def legacyNearest : Database Int where
  processes := [{ id := 1, code := "0000001" }]
  versions := [{ id := 2, processId := 1 }]
  steps := [
    { id := 3, versionId := 2, processId := 1, stepNumber := 1, text := "MOVIMENTO",
      embedding := some (5 :: List.replicate 1535 0) },
    { id := 4, versionId := 2, processId := 1, stepNumber := 2, text := "MOVIMENTO",
      metadata := .obj [("private", .str "true")], embedding := some (List.replicate 1536 0) }]
  processes_nodup := by decide
  versions_nodup := List.nodup_singleton _
  steps_nodup := by decide

theorem legacyNearest_keyed : legacyNearest.Keyed where
  embeddings := List.nodup_nil
  numbers := by decide
  column := by
    refine List.forall_mem_cons.2 ⟨fun v hv => ?_, List.forall_mem_singleton.2 fun v hv => ?_⟩
    · rw [← Option.some.inj hv]
      exact congrArg (· + 1) (List.length_replicate (n := 1535) (a := (0 : Int)))
    · rw [← Option.some.inj hv]
      exact List.length_replicate
  spaceColumn := List.forall_mem_nil _

/-- A query of the dimensions of the legacy column. -/
def legacyQuery : List Int := List.replicate 1536 0

theorem legacyNearest_unobstructed :
    Unobstructed plainDeployment legacyNearest 2 legacyQuery 1 none where
  castable := ⟨List.cons_ne_nil _ _, by rw [legacyQuery, List.length_replicate]; decide,
    fun _ _ => rfl⟩
  dimensions := fun _ hs => (nomatch hs)
  column := fun _ _ => List.length_replicate
  evaluates := by
    have hall : legacyNearest.joined.all (fun row =>
        (eligible plainDeployment.postgres row.1 row.2.1 row.2.2).isOk) = true := by
      decide +kernel
    exact fun row hrow _ _ => List.all_eq_true.1 hall row hrow
  uncrowded := fun hsome => (nomatch hsome)

/-- The legacy query takes the eligible movement, though the private one is nearer. -/
theorem vectorSearch_topK_iff_legacyNearest :
    ∃ space scores, plainDeployment.searchedSpace = .ok space ∧
      (vectorSearch plainDeployment 2 legacyQuery 1).run.run { db := legacyNearest } =
        (.ok scores, { db := legacyNearest }) ∧
      TopK plainDeployment.floats
        (plainDeployment.eligibleRows legacyNearest 2 legacyQuery space) 1 scores :=
  (vectorSearch_topK_iff (s := { db := legacyNearest }) plainDeployment_measures
    plainDeployment_exact legacyNearest_keyed 2 legacyQuery (by decide)).2
      ⟨none, rfl, legacyNearest_unobstructed⟩

/-- The plain deployment, with the embedding spaces enabled. -/
def spacedDeployment : Deployment Int :=
  { plainDeployment with
    env := fun name => [("EMBEDDING_SPACE_RUNTIME_ENABLED", "true")].lookup name }

/-- A movement, and a private one that is nearer. -/
def privateNearest : Database Int where
  processes := [{ id := 1, code := "0000001" }]
  versions := [{ id := 2, processId := 1 }]
  steps := [
    { id := 3, versionId := 2, processId := 1, stepNumber := 1, text := "MOVIMENTO" },
    { id := 4, versionId := 2, processId := 1, stepNumber := 2, text := "MOVIMENTO",
      metadata := .obj [("private", .str "true")] }]
  stepEmbeddings := [
    { stepId := 3, provider := bgeProvider, model := bgeModel, dimensions := 1024,
      embedding := 5 :: List.replicate 1023 0 },
    { stepId := 4, provider := bgeProvider, model := bgeModel, dimensions := 1024,
      embedding := List.replicate 1024 0 }]
  processes_nodup := by decide
  versions_nodup := List.nodup_singleton _
  steps_nodup := by decide

theorem privateNearest_keyed : privateNearest.Keyed where
  embeddings := by decide
  numbers := by decide
  column := by
    have hnone : privateNearest.steps.map ProcessStep.embedding = [none, none] := rfl
    intro ps hps v hv
    have hmem : ps.embedding ∈ privateNearest.steps.map ProcessStep.embedding :=
      List.mem_map_of_mem hps
    rw [hnone, Option.mem_def.1 hv] at hmem
    simp at hmem
  spaceColumn := by
    refine List.forall_mem_cons.2 ⟨?_, List.forall_mem_singleton.2 List.length_replicate⟩
    exact congrArg (· + 1) (List.length_replicate (n := 1023) (a := (0 : Int)))

/-- A query of the dimensions of a space. -/
def nullQuery : List Int := List.replicate 1024 0

/-- The search in a space returns nothing: the only eligible movement is
behind the private one. -/
theorem not_topK_privateNearest :
    spacedDeployment.floats.Measures ∧ spacedDeployment.ExactPlans ∧ privateNearest.Keyed ∧
      ¬∃ space scores, spacedDeployment.searchedSpace = .ok space ∧
        (vectorSearch spacedDeployment 2 nullQuery 1).run.run
          { db := privateNearest } = (.ok scores, { db := privateNearest }) ∧
        TopK spacedDeployment.floats (spacedDeployment.eligibleRows privateNearest 2 nullQuery
          space) 1 scores := by
  refine ⟨plainDeployment_measures, fun _ _ => rfl, privateNearest_keyed, ?_⟩
  rintro ⟨space, scores, hspace, hrun, htop⟩
  have hbge : spacedDeployment.searchedSpace.toOption =
      some (some { provider := bgeProvider, model := bgeModel }) := by decide +kernel
  rw [hspace] at hbge
  obtain rfl := Option.some.inj hbge
  rw [vectorSearch_run_space hspace] at hrun
  obtain ⟨found, hfound, hscores⟩ := bind_eq_ok.1 (congrArg Prod.fst hrun)
  have hexact : spacedDeployment.ExactPlans := fun _ _ => rfl
  obtain ⟨-, -, rfl⟩ := (vectorSearchSpace_iff hexact privateNearest_keyed rfl
    (by decide)).1 hfound
  have hsize := htop.size
  rw [eligibleScoreMap_eq hscores] at hsize
  have hnone : (spacedDeployment.spaceScores privateNearest 2 nullQuery 1
      { provider := bgeProvider, model := bgeModel }).length = 0 := by decide +kernel
  have hone : (spacedDeployment.eligibleRows privateNearest 2 nullQuery
      (some { provider := bgeProvider, model := bgeModel })).length = 1 := by decide +kernel
  rw [hone] at hsize
  rw [Deployment.spaceScores, hsize] at hnone
  cases hnone

end Rpy.Retrieval

/-
  Rpy.Lifecycle.WellFormed
  ────────────────────────
  **WHAT EVERY REACHABLE STATE OF THE PIPELINE HAS.**

  Links lead to acquisitions, keys say what happened, and a coroutine's row
  is a row of the table.  A step may add to each of these in few ways
  (`Extends`); the invariant is proved once from that.

    • `WellFormed`        — the invariant,
    • `Extends`           — what any step may do to the bookkeeping,
    • `WellFormed.extends`, `WellFormed.step` — so every step keeps the
                            invariant.
-/
import Rpy.Lifecycle.Transactions

namespace Rpy.Lifecycle

open Rpy.Foundation Rpy.Queue

/-! ## §1. The invariant. -/

/-- The invariant of the bookkeeping. -/
structure WellFormed (s : Pipeline) : Prop where
  linked : ∀ r ∈ s.db.requests, ∀ id, r.acquisition = some id →
    ∃ a ∈ s.db.acquisitions.rows, a.id = id
  founded : ∀ j ∈ s.db.jobs.rows, Founded s.db j
  /-- a coroutine's row is a row of the table, as it was claimed -/
  runRow : ∀ run ∈ s.runs, ∃ j ∈ s.db.jobs.rows, run.row.SameJob j
  /-- an acquisition task that returned left a request id -/
  settled : ∀ run ∈ s.runs, run.stage = .settled → ∀ a ∈ s.db.acquisitions.rows,
    Acquires a.id run.row → a.juditRequestId ≠ none
  /-- only a row without a request id has failed -/
  failed : ∀ a ∈ s.db.acquisitions.rows, a.status ≠ .processing → a.juditRequestId = none

theorem wellFormed_init : WellFormed {} where
  linked := fun _ hr => nomatch hr
  founded := fun _ hj => nomatch hj
  runRow := fun _ hr => nomatch hr
  settled := fun _ hr => nomatch hr
  failed := fun _ ha => nomatch ha

/-! ## §2. What a step may do. -/

/-- What a step may do to a pipeline. -/
structure Extends (s s' : Pipeline) : Prop where
  requests : ∀ r ∈ s'.db.requests, ∀ id, r.acquisition = some id →
    (∃ r₀ ∈ s.db.requests, r₀.acquisition = some id) ∨ ∃ a ∈ s'.db.acquisitions.rows, a.id = id
  acquisitions : AcquisitionsExtend s.db.acquisitions s'.db.acquisitions
  completions : s.db.completions ⊆ s'.db.completions
  jobs : JobsExtend (Founded s'.db) s.db.jobs s'.db.jobs
  runs : ∀ run ∈ s'.runs,
    (∃ d ∈ s.runs, run.row = d.row ∧ (run.stage = .settled → d.stage = .settled ∨
      ∀ a ∈ s'.db.acquisitions.rows, Acquires a.id run.row → a.juditRequestId ≠ none)) ∨
    (run.stage ≠ .settled ∧ ∃ j ∈ s'.db.jobs.rows, run.row.SameJob j)

/-- **What extends a well-formed state is well formed.** -/
theorem WellFormed.extends {s s' : Pipeline} (h : WellFormed s) (hs : Extends s s') :
    WellFormed s' where
  linked := by
    intro r hr id hlink
    -- A link is an old one, whose acquisition is kept, or names an acquisition that is there.
    rcases hs.requests r hr id hlink with ⟨r₀, hr₀, hlink₀⟩ | hnew
    · obtain ⟨a, ha, hid⟩ := h.linked r₀ hr₀ id hlink₀
      obtain ⟨a', ha', hid', -⟩ := hs.acquisitions.kept a ha
      exact ⟨a', ha', hid'.trans hid⟩
    · exact hnew
  founded := by
    intro j' hj'
    rcases hs.jobs.origin j' hj' with ⟨j, hj, hsame⟩ | hnew
    · exact (h.founded j hj).mono hsame hs.completions hs.acquisitions
    · exact hnew
  runRow := by
    intro run hrun
    rcases hs.runs run hrun with ⟨d, hd, hrow, -⟩ | ⟨-, hnew⟩
    · obtain ⟨j, hj, hsame⟩ := h.runRow d hd
      obtain ⟨j', hj', hsame'⟩ := hs.jobs.kept j hj
      exact ⟨j', hj', hrow ▸ ⟨hsame'.id.trans hsame.id, hsame'.taskName.trans hsame.taskName,
        hsame'.payload.trans hsame.payload, hsame'.idempotencyKey.trans hsame.idempotencyKey,
        hsame'.maxAttempts.trans hsame.maxAttempts⟩⟩
    · exact hnew
  settled := by
    intro run hrun hstage a' ha' hacquires
    rcases hs.runs run hrun with ⟨d, hd, hrow, hsettled⟩ | ⟨hne, -⟩
    -- The run had settled before, or settles with this step.
    · rcases hsettled hstage with hold | hnew
      · rcases hs.acquisitions.origin a' ha' with ⟨a, ha, hid, hkeeps, -⟩ | ⟨hfresh, -⟩
        · have hsome := h.settled d hd hold a ha (by rw [← hid, ← hrow]; exact hacquires)
          rw [hkeeps hsome]
          exact hsome
        · -- the job of the run names an acquisition that was there
          obtain ⟨j, hj, hsame⟩ := h.runRow d hd
          have hnames : Acquires a'.id j := (hrow ▸ hacquires).of_sameJob hsame
          obtain ⟨a, ha, hid⟩ := (h.founded j hj).acquired _ hnames
          exact absurd (List.mem_map.2 ⟨a, ha, hid⟩) hfresh
      · exact hnew a' ha' hacquires
    · exact absurd hstage hne
  failed := by
    intro a' ha' hstatus
    rcases hs.acquisitions.origin a' ha' with ⟨a, ha, -, -, hretry⟩ | ⟨-, hnone⟩
    -- A row that failed with this step lost its provider id, by `retry`.
    · rcases hretry hstatus with hnone | ⟨hold, hsame⟩
      · exact hnone
      · rw [hsame]
        exact h.failed a ha hold
    · exact hnone

/-! ## §3. Every step. -/

/-- **`request_process` extends the state.** -/
theorem extends_request {s : Pipeline} {db' : Database} {tenantId : Uuid} {code : String}
    {publicId : Option Uuid} {rowId : String} {jobId : Uuid} {now : Timestamp}
    {result : ProcessRequestResult}
    (h : requestProcess s.db tenantId code publicId rowId jobId now = some (result, db')) :
    Extends s { s with db := db' } := by
  -- The one new link is to the acquisition that the request found or made.
  have hlinks : ∀ {requests' : List PublicRequest} {acquisition : String}
      {t : AcquisitionTable}, Linking s.db.requests publicId acquisition requests' →
      (∃ a ∈ t.rows, a.id = acquisition) → ∀ r ∈ requests', ∀ id, r.acquisition = some id →
      (∃ r₀ ∈ s.db.requests, r₀.acquisition = some id) ∨ ∃ a ∈ t.rows, a.id = id := by
    intro requests' acquisition t hlinking hrow r hr id hlink
    rcases hlinking r hr with ⟨r₀, hr₀, hsame, -⟩ | ⟨-, -, -, -, hnew, -⟩
    · exact .inl ⟨r₀, hr₀, hsame ▸ hlink⟩
    · obtain rfl : acquisition = id := Option.some.inj (hnew.symm.trans hlink)
      exact .inr hrow
  rcases requestProcess_cases h with ⟨a, requests', hfind, hretryable, hlinking, -, rfl⟩ |
    ⟨a, requests', hfind, -, hlinking, rfl⟩ |
    ⟨acquisitions, requests', -, hinsert, hlinking, -, rfl⟩
  · have ha := (AcquisitionTable.find?_eq_some hfind).1
    obtain ⟨a', ha', hid, hattempt⟩ := AcquisitionTable.mem_retry ha hretryable
    exact
      { requests := hlinks hlinking ⟨a', ha', hid⟩
        acquisitions := .retry
        completions := List.Subset.refl _
        jobs := .insertNew (founded_requestJob ha' hid (Nat.le_of_eq hattempt.symm))
        runs := fun run hrun => .inl ⟨run, hrun, rfl, .inl⟩ }
  · exact
      { requests := hlinks hlinking ⟨a, (AcquisitionTable.find?_eq_some hfind).1, rfl⟩
        acquisitions := .refl _
        completions := List.Subset.refl _
        jobs := .refl _
        runs := fun run hrun => .inl ⟨run, hrun, rfl, .inl⟩ }
  · have hnew : Acquisition.new rowId tenantId code ∈ acquisitions.rows := by
      rw [(AcquisitionTable.insert_eq_some hinsert).1]
      exact List.mem_append_right _ (List.mem_singleton_self _)
    exact
      { requests := hlinks hlinking ⟨_, hnew, rfl⟩
        acquisitions := .insert hinsert
        completions := List.Subset.refl _
        jobs := .insertNew (founded_requestJob hnew rfl (Nat.le_refl _))
        runs := fun run hrun => .inl ⟨run, hrun, rfl, .inl⟩ }

/-- Where a run after a move comes from. -/
theorem mem_moveRun {runs : List TaskRun} {run d : TaskRun} {stage : Option Stage}
    (hd : d ∈ moveRun runs run stage) :
    d ∈ runs ∨ ∃ next, stage = some next ∧ d = { run with stage := next } := by
  cases stage with
  | none => exact .inl (List.mem_filter.1 hd).1
  | some next =>
      rcases mem_updateWhere.1 hd with ⟨d₀, -, hp, rfl⟩ | ⟨hd, -⟩
      · obtain rfl : d₀ = run := by simpa using hp
        exact .inr ⟨next, rfl, rfl⟩
      · exact .inl hd

theorem DatabaseExtends.links {db db' : Database} (h : DatabaseExtends db db') :
    ∀ r ∈ db'.requests, ∀ id, r.acquisition = some id →
      (∃ r₀ ∈ db.requests, r₀.acquisition = some id) ∨
        ∃ a ∈ db'.acquisitions.rows, a.id = id := by
  intro r hr id hlink
  obtain ⟨r₀, hr₀, -, hsame, -⟩ := h.requests.origin r hr
  exact .inl ⟨r₀, hr₀, hsame ▸ hlink⟩

/-- A transaction beside the runs. -/
theorem DatabaseExtends.extends {s : Pipeline} {db' : Database} (h : DatabaseExtends s.db db') :
    Extends s { s with db := db' } where
  requests := h.links
  acquisitions := h.acquisitions
  completions := h.completions
  jobs := h.jobs
  runs := fun run hrun => .inl ⟨run, hrun, rfl, .inl⟩

/-- **Every step extends the state.** -/
theorem Pipeline.step_extends {s s' : Pipeline} {e : Event} (h : s.step e = some s') :
    Extends s s' := by
  cases e with
  | create id tenantId code idempotencyKey fingerprint format =>
      simp only [Pipeline.step] at h
      split at h
      · cases h
      · cases h
        refine { (DatabaseExtends.refl s.db).extends with
          requests := fun r hr id hlink => ?_
          jobs := .refl _ }
        -- A new request is linked to no acquisition yet.
        rcases mem_createOrGet hr with hr | rfl
        · exact .inl ⟨r, hr, hlink⟩
        · cases hlink
  | request tenantId code publicId rowId jobId now =>
      obtain ⟨⟨result, db'⟩, hrequest, rfl⟩ := Option.map_eq_some_iff.1 h
      exact extends_request hrequest
  | completed requestId jobId now =>
      simp only [Pipeline.step] at h
      split at h
      · cases h
      · obtain ⟨db', hcomplete, rfl⟩ := Option.map_eq_some_iff.1 h
        exact (databaseExtends_complete hcomplete).extends
  | lawsuit response reads newProcess newVersion jobId now =>
      obtain ⟨db', hlawsuit, rfl⟩ := Option.map_eq_some_iff.1 h
      exact (databaseExtends_lawsuit hlawsuit).extends
  | claim worker slot now locked pick =>
      simp only [Pipeline.step] at h
      split at h
      · cases h
      · split at h
        · cases h
        · rename_i row jobs hclaim
          cases h
          have hdb : DatabaseExtends s.db { s.db with jobs := jobs } :=
            ⟨.refl _, .refl _, List.Subset.refl _, .claim hclaim⟩
          -- The new run holds the row as `claim` returned it.
          refine { hdb.extends with runs := fun run hrun => ?_ }
          rcases List.mem_append.1 hrun with hrun | hrun
          · exact .inl ⟨run, hrun, rfl, .inl⟩
          · obtain rfl := List.mem_singleton.1 hrun
            obtain ⟨j, hj, hid, -, rfl, hrows⟩ := claim_eq_some hclaim
            refine .inr ⟨by simp, _, by rw [hrows]; exact updateWhere_mem_of_mem hj, ?_⟩
            simp only [hid, beq_self_eq_true, if_true]
            exact .refl _
  | call worker slot now c =>
      simp only [Pipeline.step] at h
      split at h
      · cases h
      · rename_i run hfind
        split at h
        · cases h
        · rename_i db' stage hcall
          cases h
          obtain ⟨hdb, hsettles⟩ := TaskRun.call_extends hcall
          refine { hdb.extends with runs := fun d hd => ?_ }
          rcases mem_moveRun hd with hd | ⟨next, rfl, rfl⟩
          · exact .inl ⟨d, hd, rfl, .inl⟩
          · exact .inl ⟨run, List.mem_of_find?_eq_some hfind, rfl,
              fun hstage => hsettles (congrArg some hstage)⟩
  | reclaim timeoutSeconds now locked unseen =>
      obtain ⟨db', hreclaim, rfl⟩ := Option.map_eq_some_iff.1 h
      exact (databaseExtends_reclaim hreclaim).extends
  | vanish worker slot =>
      simp only [Pipeline.step] at h
      split at h
      · cases h
      · cases h
        refine { (DatabaseExtends.refl s.db).extends with runs := fun d hd => ?_ }
        have hmoved : d ∈ moveRun s.runs _ none := hd
        rcases mem_moveRun hmoved with hd | ⟨next, hnone, -⟩
        · exact .inl ⟨d, hd, rfl, .inl⟩
        · cases hnone
  | expunge doomed =>
      cases h
      refine { (DatabaseExtends.refl s.db).extends with
        requests := fun r hr id hlink => ?_
        jobs := .refl _ }
      obtain ⟨r₀, hr₀, rfl⟩ := List.mem_map.1 hr
      exact .inl ⟨r₀, hr₀, hlink⟩

/-- **Every step keeps a state well formed.** -/
theorem WellFormed.step {s s' : Pipeline} {e : Event} (h : WellFormed s)
    (hs : s.step e = some s') : WellFormed s' :=
  h.extends (Pipeline.step_extends hs)

/-! ## §4. Keys that are free, and the job of a run. -/

section Consequences

variable {s : Pipeline}

/-- Every attempt's key up to the row's number may be in use, no other. -/
theorem WellFormed.attempt_free (h : WellFormed s) {id : String} {n : Nat}
    (hn : ∀ a ∈ s.db.acquisitions.rows, a.id = id → a.attemptNumber < n) :
    s.db.jobs.keyTaken (some (acquireKey id n)) = false := by
  by_contra htaken
  obtain ⟨j, hj, hkey⟩ := JobTable.keyTaken_iff.1 (eq_true_of_ne_false htaken)
  obtain ⟨a, ha, hid, hle⟩ := (h.founded j hj).attempt id n hkey
  have := hn a ha hid
  omega

/-- A finalization's key is free until its request is completed. -/
theorem WellFormed.finalize_free (h : WellFormed s) {requestId : String}
    (hopen : requestId ∉ s.db.completions) :
    s.db.jobs.keyTaken (some (finalizeKey requestId)) = false := by
  by_contra htaken
  obtain ⟨j, hj, hkey⟩ := JobTable.keyTaken_iff.1 (eq_true_of_ne_false htaken)
  exact hopen ((h.founded j hj).completion requestId hkey)

/-- The job a run can write is the one it was claimed for. -/
theorem WellFormed.sameJob_of_owned (h : WellFormed s) {run : TaskRun} (hrun : run ∈ s.runs)
    {j : Job}
    (hj : j ∈ s.db.jobs.rows) (hown : ownedBy run.row.id run.worker j = true) :
    run.row.SameJob j := by
  obtain ⟨j₀, hj₀, hsame⟩ := h.runRow run hrun
  rwa [JobTable.eq_of_id hj hj₀ ((ownedBy_iff.1 hown).1.trans hsame.id.symm)]

end Consequences

end Rpy.Lifecycle

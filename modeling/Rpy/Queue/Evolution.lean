/-
  Rpy.Queue.Evolution
  ───────────────────
  **HOW A JOB ROW EVOLVES UNDER THE WORKERS' STATEMENTS.**

  The workers' statements as one type of operations, so that a model of
  another part of the system can let them happen at any time and still know
  what they can do to a row.

    • `WorkerOp.apply`       — the statement,
    • `WorkerOp.successor`   — every row has a successor,
    • `WorkerOp.predecessor` — every row is a successor,
    • `Job.Step`             — what the successor can be: a pending row is
                               claimed or untouched, a processing row may
                               get any status, and no other row changes.
-/
import Rpy.Queue.Jobs

namespace Rpy.Queue

open Rpy.Foundation

/-! ## §1. Operations. -/

/-- What a worker can do to the table. -/
inductive WorkerOp where
  | claim (worker : Uuid) (now : Timestamp) (locked : List Uuid) (pick : Uuid)
  | heartbeat (id worker : Uuid) (now : Timestamp)
  | complete (id worker : Uuid) (result : Json) (now : Timestamp)
  | fail (id worker : Uuid) (failure : Failure) (now : Timestamp)
  | reclaim (timeoutSeconds : Int) (now : Timestamp) (locked : List Uuid)
deriving Repr, DecidableEq

/-- The table after the operation; `none` where it cannot happen. -/
def WorkerOp.apply (t : JobTable) : WorkerOp → Option JobTable
  | .claim worker now locked pick => (Queue.claim t worker now locked pick).map Prod.snd
  | .heartbeat id worker now => some (Queue.heartbeat t id worker now).2
  | .complete id worker result now => some (Queue.complete t id worker result now).2
  | .fail id worker failure now => some (Queue.fail t id worker failure now).2
  | .reclaim timeoutSeconds now locked =>
      match reclaimStale t timeoutSeconds now locked with
      | .error _ => none
      | .ok (_, t') => some t'

/-- The job an operation claims. -/
def WorkerOp.picks : WorkerOp → Option Uuid
  | .claim _ _ _ pick => some pick
  | _ => none

/-! ## §2. Steps of a row. -/

/-- What no statement writes. -/
structure Job.SameJob (j j' : Job) : Prop where
  id : j'.id = j.id
  taskName : j'.taskName = j.taskName
  payload : j'.payload = j.payload
  idempotencyKey : j'.idempotencyKey = j.idempotencyKey
  maxAttempts : j'.maxAttempts = j.maxAttempts

/-- A job is itself. -/
theorem Job.SameJob.refl (j : Job) : j.SameJob j := ⟨rfl, rfl, rfl, rfl, rfl⟩

/-- A row and its successor under an operation. -/
inductive Job.Step (op : WorkerOp) (j : Job) : Job → Prop where
  /-- the operation does not select the row -/
  | same (h : op.picks ≠ some j.id) : Job.Step op j j
  /-- the row was pending and is claimed -/
  | claimed (worker : Uuid) (now : Timestamp) (hpick : op.picks = some j.id)
      (hpending : j.status = .pending) : Job.Step op j (j.claimed worker now)
  /-- the row was processing and is beaten, finished, failed or reclaimed -/
  | written {j' : Job} (hsame : j.SameJob j') (hpicks : op.picks = none)
      (hprocessing : j.status = .processing) : Job.Step op j j'

/-- **A step leaves what the job is about.** -/
theorem Job.Step.sameJob {op : WorkerOp} {j j' : Job} (h : Job.Step op j j') : j.SameJob j' := by
  cases h with
  | same => exact .refl j
  | claimed => exact ⟨rfl, rfl, rfl, rfl, rfl⟩
  | written hsame => exact hsame

/-- A pending row that is not claimed is untouched. -/
theorem Job.Step.eq_of_pending {op : WorkerOp} {j j' : Job} (h : Job.Step op j j')
    (hpending : j.status = .pending) (hpick : op.picks ≠ some j.id) : j' = j := by
  cases h with
  | same => rfl
  | claimed _ _ hpick' => exact absurd hpick' hpick
  | written _ _ hprocessing => rw [hpending] at hprocessing; cases hprocessing

private theorem step_of_update {op : WorkerOp} {p : Job → Bool} {f : Job → Job} {j : Job}
    (hpicks : op.picks = none) (hp : p j = true → j.status = .processing)
    (hf : j.SameJob (f j)) : Job.Step op j (if p j then f j else j) := by
  split
  · rename_i hsel
    exact .written hf hpicks (hp hsel)
  · exact .same (by rw [hpicks]; simp)

/-- **The rows after an operation are the successors of the rows before.** -/
theorem WorkerOp.apply_rows {t t' : JobTable} {op : WorkerOp} (h : op.apply t = some t') :
    ∃ p f, t'.rows = updateWhere p f t.rows ∧
      ∀ j ∈ t.rows, Job.Step op j (if p j then f j else j) := by
  have howned : ∀ {id worker : Uuid} {j : Job}, ownedBy id worker j = true →
      j.status = .processing := fun hown => (ownedBy_iff.1 hown).2.2
  cases op with
  | claim worker now locked pick =>
      obtain ⟨⟨row, t''⟩, hclaim, rfl⟩ := Option.map_eq_some_iff.1 h
      obtain ⟨j₀, hj₀, hid, hclaimable, -, hrows⟩ := claim_eq_some hclaim
      refine ⟨_, _, hrows, fun j hj => ?_⟩
      by_cases hpick : j.id = pick
      · -- the primary key makes the selected row the one that was picked
        obtain rfl : j = j₀ := JobTable.eq_of_id hj hj₀ (hpick.trans hid.symm)
        have hpending : j.status = .pending := by
          simp only [claimable, Bool.and_eq_true, beq_iff_eq] at hclaimable
          exact hclaimable.1
        simpa [hpick] using Job.Step.claimed worker now (by rw [hpick]; rfl) hpending
      · have hne : (WorkerOp.claim worker now locked pick).picks ≠ some j.id := by
          simpa [WorkerOp.picks] using fun heq : pick = j.id => hpick heq.symm
        simpa [hpick] using Job.Step.same hne
  -- The other statements update the rows that they find by id, worker and status.
  | heartbeat id worker now =>
      cases h
      exact ⟨_, _, rfl, fun j _ => step_of_update rfl howned ⟨rfl, rfl, rfl, rfl, rfl⟩⟩
  | complete id worker result now =>
      cases h
      exact ⟨_, _, rfl, fun j _ => step_of_update rfl howned ⟨rfl, rfl, rfl, rfl, rfl⟩⟩
  | fail id worker failure now =>
      cases h
      exact ⟨_, _, rfl, fun j _ => step_of_update rfl howned ⟨rfl, rfl, rfl, rfl, rfl⟩⟩
  | reclaim timeoutSeconds now locked =>
      simp only [WorkerOp.apply] at h
      split at h
      · cases h
      · rename_i rows t'' hreclaim
        cases h
        obtain ⟨-, hrows⟩ := reclaimStale_eq_ok hreclaim
        refine ⟨_, _, hrows, fun j _ => step_of_update rfl (fun hstale => ?_)
          ⟨rfl, rfl, rfl, rfl, rfl⟩⟩
        simp only [stale, Bool.and_eq_true, beq_iff_eq] at hstale
        exact hstale.1.1

/-- Every row has a successor. -/
theorem WorkerOp.successor {t t' : JobTable} {op : WorkerOp} (h : op.apply t = some t')
    {j : Job} (hj : j ∈ t.rows) : ∃ j' ∈ t'.rows, Job.Step op j j' := by
  obtain ⟨p, f, hrows, hstep⟩ := WorkerOp.apply_rows h
  exact ⟨_, by rw [hrows]; exact updateWhere_mem_of_mem hj, hstep j hj⟩

/-- Every row is a successor. -/
theorem WorkerOp.predecessor {t t' : JobTable} {op : WorkerOp} (h : op.apply t = some t')
    {j' : Job} (hj' : j' ∈ t'.rows) : ∃ j ∈ t.rows, Job.Step op j j' := by
  obtain ⟨p, f, hrows, hstep⟩ := WorkerOp.apply_rows h
  rw [hrows] at hj'
  obtain ⟨j, hj, rfl⟩ := List.mem_map.1 hj'
  exact ⟨j, hj, hstep j hj⟩

/-! ## §3. What becomes of an active job. -/

/-- The job still runs, or will. -/
def Job.active (j : Job) : Bool :=
  j.status == .pending || j.status == .processing

/-- `FAIL_SQL` leaves the row dead. -/
def failKills (id worker : Uuid) (f : Failure) (j : Job) : Bool :=
  ownedBy id worker j && (f.permanent || decide ((j.attempts : Int) ≥ j.maxAttempts))

/-- `RECLAIM_SQL` leaves the row dead. -/
def reclaimKills (timeoutSeconds : Int) (now : Timestamp) (locked : List Uuid) (j : Job) : Bool :=
  stale timeoutSeconds now locked j && decide ((j.attempts : Int) ≥ j.maxAttempts)

/-- The job is still active, and nobody new owns it. -/
structure Job.Survives (j j' : Job) : Prop where
  same : j.SameJob j'
  active : j'.active = true
  owned : ∀ id worker, ownedBy id worker j' = true → ownedBy id worker j = true

section Survival

variable {t t' : JobTable} {j : Job} {id worker : Uuid} {now : Timestamp}

/-- Nothing has happened. -/
theorem Job.Survives.refl (h : j.active = true) : j.Survives j :=
  ⟨.refl j, h, fun _ _ h => h⟩

/-- A claimed job is owned by its claimer, any other as before. -/
theorem claim_survives {pick : Uuid} {locked : List Uuid} {row : Job}
    (h : claim t worker now locked pick = some (row, t')) (hj : j ∈ t.rows)
    (hactive : j.active = true) :
    ∃ j' ∈ t'.rows, j.SameJob j' ∧ j'.active = true ∧
      ∀ id w, ownedBy id w j' = true → ownedBy id w j = true ∨ (w = worker ∧ id = pick) := by
  obtain ⟨-, -, -, -, -, hrows⟩ := claim_eq_some h
  refine ⟨_, by rw [hrows]; exact updateWhere_mem_of_mem hj, ?_⟩
  split
  · rename_i hpick
    refine ⟨⟨rfl, rfl, rfl, rfl, rfl⟩, rfl, fun id w hown => .inr ?_⟩
    obtain ⟨hid, hworker, -⟩ := ownedBy_iff.1 hown
    have hsame : j.id = pick := by simpa using hpick
    exact ⟨(Option.some.inj hworker).symm, hid.symm.trans hsame⟩
  · exact ⟨.refl j, hactive, fun _ _ hown => .inl hown⟩

/-- A heartbeat ends no job. -/
theorem heartbeat_survives (hj : j ∈ t.rows) (hactive : j.active = true) :
    ∃ j' ∈ (heartbeat t id worker now).2.rows, j.Survives j' := by
  refine ⟨_, updateWhere_mem_of_mem hj, ?_⟩
  split
  · exact ⟨⟨rfl, rfl, rfl, rfl, rfl⟩, hactive, fun _ _ hown => hown⟩
  · exact .refl hactive

/-- Completing a job leaves the others. -/
theorem complete_survives {result : Json} (hj : j ∈ t.rows)
    (hother : ownedBy id worker j = false) : j ∈ (complete t id worker result now).2.rows :=
  mem_updateWhere.2 (.inr ⟨hj, hother⟩)

/-- Who owns a job can complete it. -/
theorem complete_eq_true {result : Json} (hj : j ∈ t.rows) (hown : ownedBy id worker j = true) :
    (complete t id worker result now).1 = true := by
  have hne : returning (ownedBy id worker) (Job.finished result now) t.rows ≠ [] := fun hnil => by
    rw [returning_eq_nil_iff.1 hnil j hj] at hown
    cases hown
  simp [complete, hne]

/-- **A job survives a failure**, unless that kills it. -/
theorem fail_survives {f : Failure} (hj : j ∈ t.rows) (hactive : j.active = true)
    (hkept : failKills id worker f j = false) :
    ∃ j' ∈ (fail t id worker f now).2.rows, j.Survives j' := by
  refine ⟨_, updateWhere_mem_of_mem hj, ?_⟩
  split
  · rename_i hown
    have halive : (f.permanent || decide ((j.attempts : Int) ≥ j.maxAttempts)) = false := by
      simpa [failKills, hown] using hkept
    refine ⟨⟨rfl, rfl, rfl, rfl, rfl⟩, ?_, fun id w hown' => ?_⟩
    · show (_ || _) = true
      simp [Failure.assignment, Job.failed, halive]
    · rw [ownedBy_failed] at hown'
      cases hown'
  · exact .refl hactive

/-- **A killed job is reported dead.** -/
theorem fail_eq_dead {f : Failure} (hj : j ∈ t.rows) (hkilled : failKills id worker f j = true) :
    (fail t id worker f now).1 = some .dead := by
  unfold failKills at hkilled
  rw [Bool.and_eq_true] at hkilled
  obtain ⟨hown, hexhausted⟩ := hkilled
  unfold fail
  have hmem : f.assignment now j ∈ returning (ownedBy id worker) (f.assignment now) t.rows :=
    mem_returning.2 ⟨j, hj, hown, rfl⟩
  cases hrows : returning (ownedBy id worker) (f.assignment now) t.rows with
  | nil =>
      rw [hrows] at hmem
      cases hmem
  | cons k ks =>
      have hk : k ∈ returning (ownedBy id worker) (f.assignment now) t.rows := by
        rw [hrows]; exact List.mem_cons_self
      obtain ⟨k₀, hk₀, hownk, rfl⟩ := mem_returning.1 hk
      -- both are the row of the id
      obtain rfl := JobTable.eq_of_id hk₀ hj
        ((ownedBy_iff.1 hownk).1.trans (ownedBy_iff.1 hown).1.symm)
      show some (Failure.assignment f now k₀).status = some .dead
      simp only [Failure.assignment, Job.failed, hexhausted, if_true]

/-- **A job survives being reclaimed**, unless that kills it. -/
theorem reclaim_survives {timeoutSeconds : Int} {locked : List Uuid} {rows : List Job}
    (h : reclaimStale t timeoutSeconds now locked = .ok (rows, t')) (hj : j ∈ t.rows)
    (hactive : j.active = true) (hkept : reclaimKills timeoutSeconds now locked j = false) :
    ∃ j' ∈ t'.rows, j.Survives j' := by
  obtain ⟨-, hrows⟩ := reclaimStale_eq_ok h
  refine ⟨_, by rw [hrows]; exact updateWhere_mem_of_mem hj, ?_⟩
  split
  · rename_i hstale
    have halive : ¬ (j.attempts : Int) ≥ j.maxAttempts := by
      simpa [reclaimKills, hstale] using hkept
    refine ⟨⟨rfl, rfl, rfl, rfl, rfl⟩, ?_, fun id w hown' => ?_⟩
    · show (_ || _) = true
      simp [Job.reclaimed, halive]
    · rw [ownedBy_reclaimed] at hown'
      cases hown'
  · exact .refl hactive

/-- **A killed job is among the reclaimed ones, dead.** -/
theorem reclaim_returns_dead {timeoutSeconds : Int} {locked : List Uuid} {rows : List Job}
    (h : reclaimStale t timeoutSeconds now locked = .ok (rows, t')) (hj : j ∈ t.rows)
    (hkilled : reclaimKills timeoutSeconds now locked j = true) :
    ∃ j' ∈ rows, j.SameJob j' ∧ j'.status = .dead := by
  obtain ⟨rfl, -⟩ := reclaimStale_eq_ok h
  unfold reclaimKills at hkilled
  rw [Bool.and_eq_true, decide_eq_true_eq] at hkilled
  refine ⟨j.reclaimed now, mem_returning.2 ⟨j, hj, hkilled.1, rfl⟩, ⟨rfl, rfl, rfl, rfl, rfl⟩, ?_⟩
  simp only [Job.reclaimed, hkilled.2, if_true]

end Survival

/-! ## §4. Insertions. -/

/-- A new job takes none away. -/
theorem JobTable.mem_insertNew_of_mem {t : JobTable} {new : NewJob} {id : Uuid}
    {now : Timestamp} {j : Job} (hj : j ∈ t.rows) : j ∈ (t.insertNew new id now).2.rows := by
  unfold JobTable.insertNew
  split
  · exact hj
  · split
    · exact hj
    · exact List.mem_append_left _ hj

/-- An insertion under a fresh id and a free key inserts. -/
theorem JobTable.row_mem_insertNew {t : JobTable} {new : NewJob} {id : Uuid} {now : Timestamp}
    (hkey : t.keyTaken new.idempotencyKey = false) (hid : id ∉ t.rows.map Job.id) :
    new.row id now ∈ (t.insertNew new id now).2.rows := by
  unfold JobTable.insertNew
  rw [dif_neg (by simp [hkey]), dif_neg hid]
  exact List.mem_append_right _ (List.mem_singleton_self _)

/-- A key is taken when a job has it. -/
theorem JobTable.keyTaken_iff {t : JobTable} {key : String} :
    t.keyTaken (some key) = true ↔ ∃ j ∈ t.rows, j.idempotencyKey = some key := by
  simp [JobTable.keyTaken]

end Rpy.Queue

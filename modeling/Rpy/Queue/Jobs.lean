/-
  Rpy.Queue.Jobs
  ──────────────
  **THE `jobs` TABLE AND THE STATEMENTS OF `app/queue.py`.**

  One definition per statement (`enqueue`, `claim`, `heartbeat`,
  `complete`, `fail`, `reclaimStale`), each over the whole table: the
  database runs a statement atomically, so a concurrent run is a sequence
  of these.  The table carries its two unique indexes as fields.

    • `Unowned`           — no row answers to a job and a worker,
    • `heartbeat_unowned`, `complete_unowned`, `fail_unowned` — the
                            ownership clause: no owned row, no change and
                            no answer,
    • `claim_eq_some`     — what a claim returns and writes,
    • `Unowned.update`    — an assignment that gives nobody a job keeps
                            an unowned job unowned.
-/
import Mathlib.Algebra.Group.Int.Defs
import Rpy.Basic
import Rpy.Foundation.Json
import Rpy.Foundation.Table

namespace Rpy.Queue

open Rpy.Foundation

/-! ## §1. Rows. -/

/-- `job_status`. -/
inductive JobStatus where
  | pending | processing | completed | dead
deriving Repr, DecidableEq

/-- A row of `jobs`. -/
structure Job where
  id : Uuid
  taskName : String
  payload : Json
  status : JobStatus := .pending
  priority : Int := 10
  runAt : Timestamp
  attempts : Nat := 0
  maxAttempts : Int := 3
  workerId : Option Uuid := none
  lastHeartbeat : Option Timestamp := none
  result : Option Json := none
  errorLog : Option String := none
  idempotencyKey : Option String := none
  createdAt : Timestamp
  updatedAt : Timestamp
deriving Repr, DecidableEq

/-- The `jobs` table: the primary key and the partial unique index on
`idempotency_key` hold of every value of the type. -/
structure JobTable where
  rows : List Job
  ids_nodup : (rows.map Job.id).Nodup
  keys_nodup : (rows.filterMap Job.idempotencyKey).Nodup
deriving DecidableEq

namespace JobTable

/-- The empty table. -/
def empty : JobTable := ⟨[], List.nodup_nil, List.nodup_nil⟩

/-- The row of an id, if there is one. -/
def find? (t : JobTable) (id : Uuid) : Option Job :=
  t.rows.find? fun j => j.id == id

/-- `UPDATE jobs SET f WHERE p`, for an assignment that writes neither `id`
nor `idempotency_key` (none of the statements does). -/
def update (t : JobTable) (p : Job → Bool) (f : Job → Job)
    (hid : ∀ j, (f j).id = j.id) (hkey : ∀ j, (f j).idempotencyKey = j.idempotencyKey) :
    JobTable where
  rows := updateWhere p f t.rows
  ids_nodup := by rw [map_updateWhere hid]; exact t.ids_nodup
  keys_nodup := by rw [filterMap_updateWhere hkey]; exact t.keys_nodup

/-- `INSERT INTO jobs`, for an id and a key that no row has. -/
def insert (t : JobTable) (j : Job) (hid : j.id ∉ t.rows.map Job.id)
    (hkey : ∀ k, j.idempotencyKey = some k → k ∉ t.rows.filterMap Job.idempotencyKey) :
    JobTable where
  rows := t.rows ++ [j]
  ids_nodup := by
    rw [List.map_append, List.nodup_append]
    refine ⟨t.ids_nodup, by simp, fun a ha b hb => ?_⟩
    obtain rfl : b = j.id := by simpa using hb
    rintro rfl
    exact hid ha
  keys_nodup := by
    rw [List.filterMap_append, List.nodup_append]
    refine ⟨t.keys_nodup, ?_, fun a ha b hb => ?_⟩
    · cases hj : j.idempotencyKey <;> simp [hj]
    · have hb' : j.idempotencyKey = some b := by
        cases hj : j.idempotencyKey <;> simp_all
      rintro rfl
      exact hkey _ hb' ha

end JobTable

/-! ## §2. Constants and argument checks. -/

def maxJobErrorLogChars : Nat := 16000
def minJobAttempts : Int := 1
def maxJobAttempts : Int := 100

/-- `_retry_backoff_seconds`. -/
def retryBackoffSeconds (attempts : Int) : Int :=
  let exponent := min 9 (max 1 attempts)
  min 300 (2 ^ exponent.toNat)

/-- `_validate_reclaim_timeout`: the error text, or the bounded timeout. -/
def validateReclaimTimeout (timeoutSeconds : Int) : Except String Int :=
  if timeoutSeconds ≤ 0 then
    .error "reclaim timeout_seconds must be greater than zero"
  else
    .ok timeoutSeconds

/-- `_validate_max_attempts`. -/
def validateMaxAttempts (maxAttempts : Int) : Except String Int :=
  if minJobAttempts ≤ maxAttempts ∧ maxAttempts ≤ maxJobAttempts then
    .ok maxAttempts
  else
    .error s!"max_attempts must be between {minJobAttempts} and {maxJobAttempts}"

/-! ## §3. The statements. -/

/-- What a caller passes to `enqueue`. -/
structure NewJob where
  taskName : String
  payload : Json
  priority : Int := 10
  runAt : Option Timestamp := none
  maxAttempts : Int := 3
  idempotencyKey : Option String := none
deriving Repr, DecidableEq

/-- The row `ENQUEUE_SQL` inserts under the generated id. -/
def NewJob.row (new : NewJob) (id : Uuid) (now : Timestamp) : Job where
  id := id
  taskName := new.taskName
  payload := new.payload
  priority := new.priority
  runAt := new.runAt.getD now
  maxAttempts := new.maxAttempts
  idempotencyKey := new.idempotencyKey
  createdAt := now
  updatedAt := now

/-- Does a row already hold the key of the unique index? -/
def JobTable.keyTaken (t : JobTable) (key : Option String) : Bool :=
  match key with
  | none => false
  | some k => (t.rows.filterMap Job.idempotencyKey).contains k

/-- `ENQUEUE_SQL`: `ON CONFLICT (idempotency_key) DO NOTHING` returns no row
and inserts none.  `gen_random_uuid()` gives an id that no row has. -/
def JobTable.insertNew (t : JobTable) (new : NewJob) (id : Uuid) (now : Timestamp) :
    Option Job × JobTable :=
  if hkey : t.keyTaken new.idempotencyKey = true then
    (none, t)
  else if hid : id ∈ t.rows.map Job.id then
    (none, t)
  else
    (some (new.row id now), t.insert (new.row id now) hid (by
      intro k hk hmem
      refine hkey ?_
      have hk' : new.idempotencyKey = some k := hk
      simpa [JobTable.keyTaken, hk'] using hmem))

/-- `enqueue`. -/
def enqueue (t : JobTable) (new : NewJob) (id : Uuid) (now : Timestamp) :
    Except String (Option Job × JobTable) := do
  let _ ← validateMaxAttempts new.maxAttempts
  return t.insertNew new id now

/-- The `WHERE` clause of the inner `SELECT` of `CLAIM_JOB_SQL`. -/
def claimable (now : Timestamp) (j : Job) : Bool :=
  j.status == .pending && decide (j.runAt ≤ now)

/-- `ORDER BY priority ASC, run_at ASC`: `a` may be returned before `b`. -/
def claimsBefore (a b : Job) : Bool :=
  decide (a.priority < b.priority ∨ (a.priority = b.priority ∧ a.runAt ≤ b.runAt))

/-- `CLAIM_JOB_SQL`'s inner `SELECT … FOR UPDATE SKIP LOCKED LIMIT 1` can
return `j`, when other transactions hold the rows of `locked`.  Equal rows
of the order may come in any order. -/
def claimPicks (t : JobTable) (now : Timestamp) (locked : List Uuid) (j : Job) : Bool :=
  claimable now j && !locked.contains j.id &&
    t.rows.all fun k => (claimable now k && !locked.contains k.id) → claimsBefore j k

/-- The assignment of `CLAIM_JOB_SQL`. -/
def Job.claimed (worker : Uuid) (now : Timestamp) (j : Job) : Job :=
  { j with
    status := .processing
    workerId := some worker
    lastHeartbeat := some now
    attempts := j.attempts + 1
    updatedAt := now }

/-- `claim`: the returned row and the table, for the row `pick` that the
inner `SELECT` returned; `none` when it cannot return that row. -/
def claim (t : JobTable) (worker : Uuid) (now : Timestamp) (locked : List Uuid) (pick : Uuid) :
    Option (Job × JobTable) :=
  match t.rows.find? (fun j => j.id == pick && claimPicks t now locked j) with
  | none => none
  | some j =>
      some (j.claimed worker now,
        t.update (fun k => k.id == pick) (Job.claimed worker now) (fun _ => rfl) (fun _ => rfl))

/-- `WHERE id = $1 AND worker_id = $2 AND status = 'processing'`, the clause
`HEARTBEAT_SQL`, `COMPLETE_SQL` and `FAIL_SQL` share. -/
def ownedBy (id worker : Uuid) (j : Job) : Bool :=
  j.id == id && j.workerId == some worker && j.status == .processing

/-- `HEARTBEAT_SQL`'s assignment. -/
def Job.beaten (now : Timestamp) (j : Job) : Job :=
  { j with lastHeartbeat := some now, updatedAt := now }

/-- `heartbeat`: is the job still ours? -/
def heartbeat (t : JobTable) (id worker : Uuid) (now : Timestamp) : Bool × JobTable :=
  (!(returning (ownedBy id worker) (Job.beaten now) t.rows).isEmpty,
   t.update (ownedBy id worker) (Job.beaten now) (fun _ => rfl) (fun _ => rfl))

/-- `COMPLETE_SQL`'s assignment. -/
def Job.finished (result : Json) (now : Timestamp) (j : Job) : Job :=
  { j with
    status := .completed
    result := some result
    updatedAt := now
    lastHeartbeat := some now }

/-- `complete`. -/
def complete (t : JobTable) (id worker : Uuid) (result : Json) (now : Timestamp) :
    Bool × JobTable :=
  (!(returning (ownedBy id worker) (Job.finished result now) t.rows).isEmpty,
   t.update (ownedBy id worker) (Job.finished result now) (fun _ => rfl) (fun _ => rfl))

/-- `FAIL_SQL`'s assignment: dead on a permanent error or the last attempt,
else pending again at `retryAt`. -/
def Job.failed (retryAt : Timestamp) (entry : String) (permanent : Bool) (now : Timestamp)
    (j : Job) : Job :=
  let exhausted := permanent || decide ((j.attempts : Int) ≥ j.maxAttempts)
  { j with
    status := if exhausted then .dead else .pending
    runAt := if exhausted then j.runAt else retryAt
    workerId := none
    lastHeartbeat := none
    errorLog := some (right (j.errorLog.getD "" ++ entry) maxJobErrorLogChars)
    updatedAt := now }

/-- The arguments of `fail` beside the job and the worker.  `clock` is
`datetime.now(UTC)` of the worker and `stamp` its `isoformat()`. -/
structure Failure where
  attempts : Int
  error : String
  permanent : Bool := false
  clock : Timestamp
  stamp : String
deriving Repr, DecidableEq

/-- `fail` writes this `run_at` and this `error_log` entry. -/
def Failure.assignment (f : Failure) (now : Timestamp) : Job → Job :=
  Job.failed (f.clock + retryBackoffSeconds f.attempts * microsPerSecond)
    s!"\n[{f.stamp}] {f.error}" f.permanent now

/-- `fail`: the new status of the owned row, if there is one. -/
def fail (t : JobTable) (id worker : Uuid) (f : Failure) (now : Timestamp) :
    Option JobStatus × JobTable :=
  ((returning (ownedBy id worker) (f.assignment now) t.rows).head?.map Job.status,
   t.update (ownedBy id worker) (f.assignment now) (fun _ => rfl) (fun _ => rfl))

/-- The rows `RECLAIM_SQL` selects: processing, heartbeat too old, and not
locked by another transaction. -/
def stale (timeoutSeconds : Int) (now : Timestamp) (locked : List Uuid) (j : Job) : Bool :=
  j.status == .processing && !locked.contains j.id &&
    match j.lastHeartbeat with
    | none => false
    | some beat => decide (beat < now - timeoutSeconds * microsPerSecond)

/-- `RECLAIM_SQL`'s assignment. -/
def Job.reclaimed (now : Timestamp) (j : Job) : Job :=
  { j with
    status := if (j.attempts : Int) ≥ j.maxAttempts then .dead else .pending
    workerId := none
    lastHeartbeat := none
    errorLog := some (right (j.errorLog.getD "" ++ "\nWorker heartbeat timed out.")
      maxJobErrorLogChars)
    updatedAt := now }

/-- `reclaim_stale`: the reclaimed rows and the table. -/
def reclaimStale (t : JobTable) (timeoutSeconds : Int) (now : Timestamp) (locked : List Uuid) :
    Except String (List Job × JobTable) := do
  let timeout ← validateReclaimTimeout timeoutSeconds
  return (returning (stale timeout now locked) (Job.reclaimed now) t.rows,
    t.update (stale timeout now locked) (Job.reclaimed now) (fun _ => rfl) (fun _ => rfl))

/-! ## §4. What the statements do. -/

theorem JobTable.ext_rows {t u : JobTable} (h : t.rows = u.rows) : t = u := by
  cases t
  cases u
  cases h
  rfl

@[simp] theorem JobTable.update_rows (t : JobTable) (p : Job → Bool) (f : Job → Job)
    (hid : ∀ j, (f j).id = j.id) (hkey : ∀ j, (f j).idempotencyKey = j.idempotencyKey) :
    (t.update p f hid hkey).rows = updateWhere p f t.rows := rfl

/-- Two rows of one id are one row. -/
theorem JobTable.eq_of_id {t : JobTable} {a b : Job} (ha : a ∈ t.rows) (hb : b ∈ t.rows)
    (h : a.id = b.id) : a = b :=
  eq_of_nodup_key t.ids_nodup ha hb h

theorem ownedBy_iff {id worker : Uuid} {j : Job} :
    ownedBy id worker j = true ↔
      j.id = id ∧ j.workerId = some worker ∧ j.status = .processing := by
  simp [ownedBy, and_assoc]

/-- No row is the job `id` processing under `worker`. -/
def Unowned (id worker : Uuid) (t : JobTable) : Prop :=
  ∀ j ∈ t.rows, ownedBy id worker j = false

section Ownership

variable {t : JobTable} {id worker : Uuid} {now : Timestamp}

private theorem returning_owned_eq_nil {f : Job → Job} (h : Unowned id worker t) :
    returning (ownedBy id worker) f t.rows = [] :=
  returning_eq_nil_iff.2 h

/-- **A heartbeat for a job that is not ours changes nothing.** -/
theorem heartbeat_unowned (h : Unowned id worker t) :
    heartbeat t id worker now = (false, t) := by
  refine Prod.ext ?_ (JobTable.ext_rows (updateWhere_eq_self h))
  simp [heartbeat, returning_owned_eq_nil h]

/-- **A completion of a job that is not ours changes nothing.** -/
theorem complete_unowned {result : Json} (h : Unowned id worker t) :
    complete t id worker result now = (false, t) := by
  refine Prod.ext ?_ (JobTable.ext_rows (updateWhere_eq_self h))
  simp [complete, returning_owned_eq_nil h]

/-- **A failure of a job that is not ours changes nothing.** -/
theorem fail_unowned {f : Failure} (h : Unowned id worker t) :
    fail t id worker f now = (none, t) := by
  refine Prod.ext ?_ (JobTable.ext_rows (updateWhere_eq_self h))
  simp [fail, returning_owned_eq_nil h]

/-- An `UPDATE` whose assignment gives nobody a job keeps an unowned job
unowned. -/
theorem Unowned.update {t' : JobTable} {p : Job → Bool} {f : Job → Job}
    (h : Unowned id worker t) (hrows : t'.rows = updateWhere p f t.rows)
    (hf : ∀ j, p j = true → ownedBy id worker (f j) = true → ownedBy id worker j = true) :
    Unowned id worker t' := by
  intro j hj
  rw [hrows] at hj
  rcases mem_updateWhere.1 hj with ⟨j₀, hj₀, hp, rfl⟩ | ⟨hj', -⟩
  · by_contra hown
    have : ownedBy id worker j₀ = true := hf j₀ hp (by simpa using hown)
    simp [h j₀ hj₀] at this
  · exact h j hj'

/-- A row that is not processing belongs to nobody. -/
theorem ownedBy_of_status {j : Job} (h : j.status ≠ .processing) :
    ownedBy id worker j = false := by
  simp [ownedBy, h]

theorem ownedBy_beaten {j : Job} :
    ownedBy id worker (j.beaten now) = ownedBy id worker j := rfl

theorem ownedBy_finished {result : Json} {j : Job} :
    ownedBy id worker (j.finished result now) = false :=
  ownedBy_of_status (by simp [Job.finished])

theorem ownedBy_failed {f : Failure} {j : Job} :
    ownedBy id worker (f.assignment now j) = false := by
  refine ownedBy_of_status ?_
  show (if _ then JobStatus.dead else JobStatus.pending) ≠ .processing
  split <;> simp

theorem ownedBy_reclaimed {j : Job} :
    ownedBy id worker (j.reclaimed now) = false := by
  refine ownedBy_of_status ?_
  show (if _ then JobStatus.dead else JobStatus.pending) ≠ .processing
  split <;> simp

/-- A new row is pending. -/
theorem ownedBy_row {new : NewJob} {jobId : Uuid} :
    ownedBy id worker (new.row jobId now) = false :=
  ownedBy_of_status (by simp [NewJob.row])

end Ownership

/-- The rows after an `enqueue`: the old ones, and the new one if its key
was free. -/
theorem JobTable.mem_insertNew {t : JobTable} {new : NewJob} {id : Uuid} {now : Timestamp}
    {j : Job} (hj : j ∈ (t.insertNew new id now).2.rows) :
    j ∈ t.rows ∨ j = new.row id now := by
  unfold JobTable.insertNew at hj
  split at hj
  · exact .inl hj
  · split at hj
    · exact .inl hj
    · simpa [JobTable.insert] using hj

/-- An accepted `enqueue` is the insertion. -/
theorem enqueue_eq_ok {t t' : JobTable} {new : NewJob} {id : Uuid} {now : Timestamp}
    {row : Option Job} (h : enqueue t new id now = .ok (row, t')) :
    t.insertNew new id now = (row, t') := by
  unfold enqueue validateMaxAttempts at h
  split at h
  · exact Except.ok.inj h
  · cases h

/-- **What a claim returns and writes**: the row picked was claimable, and
is now processing under the worker. -/
theorem claim_eq_some {t t' : JobTable} {worker pick : Uuid} {now : Timestamp}
    {locked : List Uuid} {row : Job}
    (h : claim t worker now locked pick = some (row, t')) :
    ∃ j ∈ t.rows, j.id = pick ∧ claimable now j = true ∧ row = j.claimed worker now ∧
      t'.rows = updateWhere (fun k => k.id == pick) (Job.claimed worker now) t.rows := by
  unfold claim at h
  split at h
  · cases h
  · rename_i j hfind
    obtain ⟨rfl, rfl⟩ := Prod.mk.inj (Option.some.inj h)
    have hp := List.find?_some hfind
    simp only [Bool.and_eq_true, beq_iff_eq, claimPicks] at hp
    exact ⟨j, List.mem_of_find?_eq_some hfind, hp.1, hp.2.1.1, rfl, rfl⟩

/-- **What a reclaim returns and writes.** -/
theorem reclaimStale_eq_ok {t t' : JobTable} {timeoutSeconds : Int} {now : Timestamp}
    {locked : List Uuid} {rows : List Job}
    (h : reclaimStale t timeoutSeconds now locked = .ok (rows, t')) :
    rows = returning (stale timeoutSeconds now locked) (Job.reclaimed now) t.rows ∧
      t'.rows = updateWhere (stale timeoutSeconds now locked) (Job.reclaimed now) t.rows := by
  unfold reclaimStale validateReclaimTimeout at h
  split at h
  · cases h
  · obtain ⟨rfl, rfl⟩ := Prod.mk.inj (Except.ok.inj h)
    exact ⟨rfl, rfl⟩

end Rpy.Queue

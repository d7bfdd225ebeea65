/-
  Rpy.Trackings.Scheduling
  ────────────────────────
  **THE TRACKINGS' JOBS, THEIR TASKS AND THE SCHEDULER AS ONE MACHINE.**

  The database, the `_run_job` coroutines of the three tracking tasks, and
  what the provider holds.  An event is one committed transaction, or a step
  of a coroutine between two of them; any of them can come next.

    • `createTracking`, `deleteTracking` — the API's transactions,
    • `enqueueDueTrackingReconciliations` — the scheduler's,
    • `TaskRun.call`       — one step of a task,
    • `System.step`        — the interleaving of all of it.

  `app/judit_tracking.py`, `app/tracking_scheduler.py`, `app/worker.py`,
  `app/scheduler.py`, `sql/023_judit_tracking_wiring.sql`.
-/
import Rpy.Foundation.Machine
import Rpy.Lifecycle.Topology
import Rpy.Trackings.Tables
import Mathlib.Data.List.Sort

namespace Rpy.Trackings

open Rpy.Foundation Rpy.Queue
open Rpy.Lifecycle (payloadText Names)

/-! ## §1. Jobs. -/

/-- `judit-tracking-create:{tracking_id}:{attempt}`. -/
def createKey (tracking : String) (attempt : Nat) : String :=
  "judit-tracking-create:" ++ tracking ++ ":" ++ attempt.repr

/-- `judit-tracking-delete:{tracking_id}:{attempt}`. -/
def deleteKey (tracking : String) (attempt : Nat) : String :=
  "judit-tracking-delete:" ++ tracking ++ ":" ++ attempt.repr

/-- `judit-tracking-refresh:{refresh_id}`. -/
def refreshKey (refresh : String) : String :=
  "judit-tracking-refresh:" ++ refresh

/-- `_enqueue_create`. -/
def createJob (tracking : String) (attempt : Nat) : NewJob where
  taskName := "create_judit_tracking"
  payload := .obj [("tracking_id", .str tracking)]
  maxAttempts := 1
  idempotencyKey := some (createKey tracking attempt)

/-- The job `delete_tracking` enqueues. -/
def deleteJob (tracking : String) (attempt : Nat) : NewJob where
  taskName := "delete_judit_tracking"
  payload := .obj [("tracking_id", .str tracking)]
  maxAttempts := 1
  idempotencyKey := some (deleteKey tracking attempt)

/-- The job of a refresh. -/
def refreshJob (refresh : String) : NewJob where
  taskName := "refresh_judit_tracking"
  payload := .obj [("refresh_id", .str refresh)]
  maxAttempts := 1
  idempotencyKey := some (refreshKey refresh)

def trackingTasks : List String :=
  ["create_judit_tracking", "delete_judit_tracking", "refresh_judit_tracking"]

/-- A job of another task: its key has another head. -/
def isForeign (new : NewJob) : Bool :=
  !trackingTasks.contains new.taskName &&
    match new.idempotencyKey with
    | none => true
    | some key => !"judit-tracking-".toList.isPrefixOf key.toList

/-! ## §2. State. -/

/-- What is committed. -/
structure Database where
  trackings : TrackingTable := .empty
  refreshes : RefreshTable := .empty
  /-- `judit_request_completions` -/
  markers : List String := []
  jobs : JobTable := .empty
deriving DecidableEq

/-- A call of the provider's client. -/
inductive ProviderCall where
  | createTracking (code : String) (recurrenceDays : Int)
  | deleteTracking (id : String)
  | createRequest (code : String)
deriving Repr, DecidableEq

/-- Where a `_run_job` stands. -/
inductive Stage where
  /-- `claim` returned the row -/
  | claimed
  /-- the task has read its row, and will call the provider -/
  | ready (c : ProviderCall)
  /-- the call is in flight -/
  | calling (c : ProviderCall)
  /-- the provider has carried it out; the id it answers, or `""` if there
  was nothing to call for -/
  | answered (id : String)
  /-- the handler has raised -/
  | raised
  /-- the handler has committed and returned -/
  | settled
deriving Repr, DecidableEq

/-- A `_run_job` under way. -/
structure TaskRun where
  worker : Uuid
  slot : Nat
  /-- the row `claim` returned -/
  row : Job
  stage : Stage := .claimed
deriving Repr, DecidableEq

/-- The provider's trackings. -/
structure Provider where
  /-- every tracking ever created, with the row it was created for -/
  created : List (String × String) := []
  /-- those deleted -/
  deleted : List String := []
deriving Repr, DecidableEq

/-- The database, the coroutines, the provider, and the completion callbacks
recorded so far, whose markers may be purged since. -/
structure System where
  db : Database := {}
  runs : List TaskRun := []
  provider : Provider := {}
  announced : List String := []
deriving DecidableEq

/-! ## §3. Transactions of the API and of the scheduler. -/

/-- `enqueue`, under an id of `gen_random_uuid()`. -/
def Database.enqueue (db : Database) (new : NewJob) (jobId : Uuid) (now : Timestamp) :
    Option Database :=
  if jobId ∈ db.jobs.rows.map Job.id then none
  else
    match Queue.enqueue db.jobs new jobId now with
    | .error _ => none
    | .ok (_, jobs) => some { db with jobs := jobs }

/-- `TrackingMutationResult`. -/
structure TrackingMutationResult where
  trackingId : String
  status : TrackingStatus
  created : Bool
deriving Repr, DecidableEq

/-- `create_tracking`, up to its `request_process`; `none` where it
raises. -/
def createTracking (db : Database) (tenantId : Uuid) (code : String) (recurrenceDays : Int)
    (rowId : String) (jobId : Uuid) (now : Timestamp) :
    Option (TrackingMutationResult × Database) :=
  -- `_positive_int`
  if h : 0 < recurrenceDays then
    match db.trackings.find? tenantId code with
    | some t =>
        if t.status = .creating ∨ t.status = .active ∨ t.status = .deleting then
          some (⟨t.id, t.status, false⟩, db)
        else
          ({ db with trackings := db.trackings.recreate t.id recurrenceDays h }.enqueue
            (createJob t.id (t.attemptNumber + 1)) jobId now).map fun db =>
              (⟨t.id, .creating, true⟩, db)
    | none =>
        match db.trackings.insert (.new rowId tenantId code recurrenceDays h now) rfl with
        | none => none
        | some trackings =>
            ({ db with trackings := trackings }.enqueue (createJob rowId 1) jobId now).map
              fun db => (⟨rowId, .creating, true⟩, db)
  else none

/-- `delete_tracking`. -/
def deleteTracking (db : Database) (tenantId : Uuid) (trackingId : String) (jobId : Uuid)
    (now : Timestamp) : Option (Bool × Database) :=
  match db.trackings.rows.find? fun t => t.tenantId == tenantId && t.id == trackingId with
  | none => some (false, db)
  | some t =>
      if t.status = .deleted then some (false, db)
      else if t.status = .deleting then some (true, db)
      else
        ({ db with trackings := db.trackings.startDelete trackingId }.enqueue
          (deleteJob trackingId (t.attemptNumber + 1)) jobId now).map fun db => (true, db)

/-- `GREATEST(COALESCE(last_event_at, created_at),
COALESCE(last_reconciled_at, created_at))`. -/
def Tracking.lastSeen (t : Tracking) : Timestamp :=
  max (t.lastEventAt.getD t.createdAt) (t.lastReconciledAt.getD t.createdAt)

def Tracking.isDue (staleAfter : Int) (now : Timestamp) (t : Tracking) : Bool :=
  t.status == .active && decide (t.lastSeen < now - staleAfter)

/-- `ORDER BY GREATEST(…) ASC, id ASC`. -/
def Tracking.dueBefore (a b : Tracking) : Prop :=
  a.lastSeen < b.lastSeen ∨ (a.lastSeen = b.lastSeen ∧ ¬ b.id < a.id)

instance (a b : Tracking) : Decidable (a.dueBefore b) :=
  inferInstanceAs (Decidable (_ ∨ _))

/-- The body of the scheduler's loop: was a refresh created? -/
def reconcileOne (db : Database) (t : Tracking) (refreshId : String) (jobId : Uuid)
    (now : Timestamp) : Option (Bool × Database) :=
  match db.refreshes.insert refreshId t.id now with
  | none => none
  | some (false, _) => some (false, db)
  | some (true, refreshes) =>
      ({ db with
        refreshes := refreshes
        trackings := db.trackings.reconcile t.id now }.enqueue
          (refreshJob refreshId) jobId now).map fun db => (true, db)

/-- The loop, under ids of `gen_random_uuid()`; how many were created. -/
def reconcileAll (db : Database) (now : Timestamp) :
    List Tracking → List (String × Uuid) → Option (Nat × Database)
  | [], _ => some (0, db)
  | _ :: _, [] => none
  | t :: ts, (refreshId, jobId) :: ids =>
      match reconcileOne db t refreshId jobId now with
      | none => none
      | some (created, db) =>
          (reconcileAll db now ts ids).map fun (n, db) => (if created then n + 1 else n, db)

/-- `enqueue_due_tracking_reconciliations`, where other transactions hold the
rows of `locked`; `none` where it raises. -/
def enqueueDueTrackingReconciliations (db : Database) (staleAfter limit : Int)
    (locked : List String) (ids : List (String × Uuid)) (now : Timestamp) :
    Option (Nat × Database) :=
  if staleAfter ≤ 0 ∨ limit ≤ 0 then none
  else
    let due := db.trackings.rows.filter fun t => t.isDue staleAfter now && !locked.contains t.id
    reconcileAll db now ((due.insertionSort Tracking.dueBefore).take limit.toNat) ids

/-! ## §4. Tasks. -/

/-- The steps of a `_run_job`. -/
inductive TaskCall where
  /-- the task reads its row -/
  | fetch
  /-- its call goes out -/
  | send
  /-- the provider carries it out; the id of what it created -/
  | accepted (id : String)
  /-- `JuditRequestError`: the provider has not carried it out, or its
  answer is lost -/
  | rejected (retrySafe : Bool)
  /-- the transaction after the answer -/
  | commit
  | heartbeat
  | complete (result : Json)
  /-- any exception -/
  | fail (failure : Failure)
deriving Repr, DecidableEq

/-- The text the run's task is about. -/
def TaskRun.about (run : TaskRun) (key : String) : Option String :=
  payloadText run.row.payload key

/-- `create_judit_tracking_task` up to its call. -/
def TaskRun.fetchCreate (run : TaskRun) (db : Database) : Stage :=
  match run.about "tracking_id" with
  | none => .raised
  | some id =>
      match db.trackings.byId? id with
      | none => .raised
      | some t =>
          if t.providerTrackingId.getD "" ≠ "" then .settled
          else if t.status ≠ .creating then .settled
          else .ready (.createTracking t.processCode t.recurrenceDays)

/-- `delete_judit_tracking_task` up to its call. -/
def TaskRun.fetchDelete (run : TaskRun) (db : Database) : Stage :=
  match run.about "tracking_id" with
  | none => .raised
  | some id =>
      match db.trackings.byId? id with
      | none => .raised
      | some t =>
          -- the stored id is the client's `tracking_id.strip()`
          if t.providerTrackingId.getD "" = "" then .answered ""
          else .ready (.deleteTracking (t.providerTrackingId.getD ""))

/-- `refresh_judit_tracking_task` up to its call. -/
def TaskRun.fetchRefresh (run : TaskRun) (db : Database) : Stage :=
  match run.about "refresh_id" with
  | none => .raised
  | some id =>
      match db.refreshes.rows.find? fun r => r.id == id with
      | none => .raised
      | some r =>
          match db.trackings.byId? r.trackingId with
          | none => .raised
          | some t =>
              -- `jt.status='active'` is part of the join
              if t.status ≠ .active then .raised
              else if r.juditRequestId.getD "" ≠ "" then .settled
              else .ready (.createRequest t.processCode)

def TaskRun.fetch (run : TaskRun) (db : Database) : Option Stage :=
  if run.row.taskName = "create_judit_tracking" then some (run.fetchCreate db)
  else if run.row.taskName = "delete_judit_tracking" then some (run.fetchDelete db)
  else if run.row.taskName = "refresh_judit_tracking" then some (run.fetchRefresh db)
  else none

/-- What the provider does for a call, and the id it answers.  A new tracking
gets an id that none had, and the client takes an empty id for an error. -/
def TaskRun.accept (run : TaskRun) (provider : Provider) (c : ProviderCall) (id : String) :
    Option (Provider × Stage) :=
  match c with
  | .createTracking _ _ =>
      match run.about "tracking_id" with
      | none => none
      | some row =>
          if id = "" ∨ id ∈ provider.created.map Prod.snd then none
          else some ({ provider with created := provider.created ++ [(row, id)] }, .answered id)
  | .deleteTracking trackingId =>
      some ({ provider with deleted := provider.deleted ++ [trackingId] }, .answered trackingId)
  | .createRequest _ => if id = "" then none else some (provider, .answered id)

/-- The statement after a `JuditRequestError`. -/
def TaskRun.reject (run : TaskRun) (db : Database) (retrySafe : Bool) : Option Database :=
  if run.row.taskName = "create_judit_tracking" then
    (run.about "tracking_id").map fun id => { db with trackings := db.trackings.refuse id }
  else if run.row.taskName = "delete_judit_tracking" then some db
  else if run.row.taskName = "refresh_judit_tracking" then
    (run.about "refresh_id").map fun id =>
      { db with refreshes := db.refreshes.refuse id retrySafe }
  else none

/-- The statement after the provider's answer; `none` on a unique
violation. -/
def TaskRun.commit (run : TaskRun) (db : Database) (id : String) : Option Database :=
  if run.row.taskName = "create_judit_tracking" then
    match run.about "tracking_id" with
    | none => none
    | some row => (db.trackings.activate row id).map fun trackings =>
        { db with trackings := trackings }
  else if run.row.taskName = "delete_judit_tracking" then
    (run.about "tracking_id").map fun row => { db with trackings := db.trackings.drop row }
  else if run.row.taskName = "refresh_judit_tracking" then
    match run.about "refresh_id" with
    | none => none
    | some row => (db.refreshes.record row id).map fun refreshes =>
        { db with refreshes := refreshes }
  else none

/-- One step of a task: the database, the provider, and where the coroutine
stands (`none`: it has returned). -/
def TaskRun.call (run : TaskRun) (db : Database) (provider : Provider) (now : Timestamp) :
    TaskCall → Option (Database × Provider × Option Stage)
  | .fetch =>
      if run.stage = .claimed then
        (run.fetch db).map fun stage => (db, provider, some stage)
      else none
  | .send =>
      match run.stage with
      | .ready c => some (db, provider, some (.calling c))
      | _ => none
  | .accepted id =>
      match run.stage with
      | .calling c =>
          (run.accept provider c id).map fun (provider, stage) => (db, provider, some stage)
      | _ => none
  | .rejected retrySafe =>
      match run.stage with
      | .calling _ => (run.reject db retrySafe).map fun db => (db, provider, some .raised)
      | .answered id =>
          if id = "" then none
          else (run.reject db retrySafe).map fun db => (db, provider, some .raised)
      | _ => none
  | .commit =>
      match run.stage with
      | .answered id => (run.commit db id).map fun db => (db, provider, some .settled)
      | _ => none
  | .heartbeat =>
      some ({ db with jobs := (heartbeat db.jobs run.row.id run.worker now).2 }, provider,
        some run.stage)
  | .complete result =>
      if run.stage = .settled ∨ !trackingTasks.contains run.row.taskName then
        some ({ db with jobs := (complete db.jobs run.row.id run.worker result now).2 },
          provider, none)
      else none
  | .fail failure =>
      some ({ db with jobs := (fail db.jobs run.row.id run.worker failure now).2 },
        provider, none)

/-! ## §5. The machine. -/

/-- What can happen. -/
inductive Event where
  | create (tenantId : Uuid) (code : String) (recurrenceDays : Int) (rowId : String)
      (jobId : Uuid) (now : Timestamp)
  | delete (tenantId : Uuid) (trackingId : String) (jobId : Uuid) (now : Timestamp)
  | reconcile (staleAfter limit : Int) (locked : List String) (ids : List (String × Uuid))
      (now : Timestamp)
  /-- a lawsuit version with this tracking reference -/
  | tracked (providerId : String) (now : Timestamp)
  /-- the completion callback; the trigger's statement does not see the
  request ids of `unseen`, which were committed after it began -/
  | completed (requestId : String) (unseen : List String) (now : Timestamp)
  /-- `enqueue`, of any other task -/
  | other (new : NewJob) (jobId : Uuid) (now : Timestamp)
  | claim (worker : Uuid) (slot : Nat) (now : Timestamp) (locked : List Uuid) (pick : Uuid)
  | call (worker : Uuid) (slot : Nat) (now : Timestamp) (c : TaskCall)
  | reclaim (timeoutSeconds : Int) (now : Timestamp) (locked : List Uuid)
  /-- a coroutine ends without a word: its process dies -/
  | vanish (worker : Uuid) (slot : Nat)
  /-- `purge_terminal_jobs`, at the end of its window -/
  | purgeJobs (before : Timestamp)
  /-- `purge_judit_request_completions` -/
  | purgeCompletions (doomed : List String)
deriving Repr, DecidableEq

/-- Is this the `_run_job` of the slot? -/
def TaskRun.isAt (worker : Uuid) (slot : Nat) (run : TaskRun) : Bool :=
  run.worker == worker && run.slot == slot

/-- The runs after one of them moved on, or returned. -/
def moveRun (runs : List TaskRun) (run : TaskRun) : Option Stage → List TaskRun
  | none => runs.filter fun d => d ≠ run
  | some stage => updateWhere (fun d => d = run) (fun d => { d with stage := stage }) runs

/-- `INSERT INTO judit_request_completions … ON CONFLICT DO NOTHING`, with
its trigger. -/
def System.complete (s : System) (requestId : String) (unseen : List String) (now : Timestamp) :
    System :=
  if requestId ∈ s.db.markers then s
  else
    { s with
      db := { s.db with
        markers := s.db.markers ++ [requestId]
        refreshes := s.db.refreshes.complete requestId unseen now }
      announced := s.announced ++ [requestId] }

/-- `DELETE FROM jobs WHERE status IN ('completed', 'dead') AND
updated_at < …`. -/
def purgeTerminalJobs (t : JobTable) (before : Timestamp) : JobTable where
  rows := t.rows.filter fun j => j.active || decide (before ≤ j.updatedAt)
  ids_nodup := (List.filter_sublist.map Job.id).nodup t.ids_nodup
  keys_nodup := (List.filter_sublist.filterMap Job.idempotencyKey).nodup t.keys_nodup

/-- One step. -/
def System.step (s : System) : Event → Option System
  | .create tenantId code recurrenceDays rowId jobId now =>
      (createTracking s.db tenantId code recurrenceDays rowId jobId now).map fun (_, db) =>
        { s with db := db }
  | .delete tenantId trackingId jobId now =>
      (deleteTracking s.db tenantId trackingId jobId now).map fun (_, db) => { s with db := db }
  | .reconcile staleAfter limit locked ids now =>
      (enqueueDueTrackingReconciliations s.db staleAfter limit locked ids now).map
        fun (_, db) => { s with db := db }
  | .tracked providerId now =>
      some { s with db := { s.db with trackings := s.db.trackings.sawEvent providerId now } }
  | .completed requestId unseen now =>
      if requestId = "" then none else some (s.complete requestId unseen now)
  | .other new jobId now =>
      if isForeign new then (s.db.enqueue new jobId now).map fun db => { s with db := db }
      else none
  | .claim worker slot now locked pick =>
      if s.runs.any (TaskRun.isAt worker slot) then none
      else
        match claim s.db.jobs worker now locked pick with
        | none => none
        | some (row, jobs) =>
            some { s with
              db := { s.db with jobs := jobs }
              runs := s.runs ++ [{ worker := worker, slot := slot, row := row }] }
  | .call worker slot now c =>
      match s.runs.find? (TaskRun.isAt worker slot) with
      | none => none
      | some run =>
          match run.call s.db s.provider now c with
          | none => none
          | some (db, provider, stage) =>
              some { s with db := db, provider := provider, runs := moveRun s.runs run stage }
  | .reclaim timeoutSeconds now locked =>
      match reclaimStale s.db.jobs timeoutSeconds now locked with
      | .error _ => none
      | .ok (_, jobs) => some { s with db := { s.db with jobs := jobs } }
  | .vanish worker slot =>
      match s.runs.find? (TaskRun.isAt worker slot) with
      | none => none
      | some run => some { s with runs := moveRun s.runs run none }
  | .purgeJobs before =>
      some { s with db := { s.db with jobs := purgeTerminalJobs s.db.jobs before } }
  | .purgeCompletions doomed =>
      some { s with db := { s.db with
        markers := s.db.markers.filter fun m => !doomed.contains m } }

/-! ## §6. A sample tracking. -/

/-- A slot takes the job, takes the steps and completes it. -/
def runTask (job : Uuid) (now : Timestamp) (calls : List TaskCall) : List Event :=
  .claim 9 0 now [] job :: calls.map (.call 9 0 now) ++ [.call 9 0 now (.complete (.obj []))]

/-- A tracking that the provider accepts. -/
def track (id providerId : String) (job : Uuid) : List Event :=
  .create 1 "0000000-00.0000.0.00.0701" 1 id job 0 ::
    runTask job 0 [.fetch, .send, .accepted providerId, .commit]

end Rpy.Trackings

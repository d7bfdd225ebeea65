/-
  Rpy.Lifecycle.Pipeline
  ──────────────────────
  **FROM A PUBLIC REQUEST TO A SUMMARY: THE WHOLE PIPELINE AS ONE MACHINE.**

  The database, and the `_run_job` coroutines that are under way in any
  number of workers.  An event is one committed transaction, or a step of a
  coroutine between two of them; any of them can come next.  What a
  transaction read before it committed may be older than what is committed
  then: events say what their statements did not see yet.

    • `requestProcess`  — `request_process`,
    • `finalizePlan`    — what the transaction of a finalization writes,
    • `TaskRun.call`    — one step of a task,
    • `Pipeline.step`   — the interleaving of all of it.

  `app/process_requests.py`, `app/judit_tasks.py`, `app/judit_attachments.py`,
  `app/worker.py`, `app/api.py`, `app/scheduler.py`.
-/
import Rpy.Foundation.Machine
import Rpy.Lifecycle.Archive
import Rpy.Lifecycle.Topology

namespace Rpy.Lifecycle

open Rpy.Foundation Rpy.Queue

/-! ## §1. State. -/

/-- What is committed. -/
structure Database where
  requests : List PublicRequest := []
  acquisitions : AcquisitionTable := .empty
  /-- `judit_request_completions` -/
  completions : List String := []
  archive : Archive := {}
  jobs : JobTable := .empty
deriving DecidableEq

/-- Where a `_run_job` stands. -/
inductive Stage where
  /-- `claim` returned the row -/
  | claimed
  /-- a generation has started -/
  | running
  /-- an acquisition found no request id on its row -/
  | fetched
  /-- its create call is in flight -/
  | calling
  /-- the handler has raised -/
  | raised
  /-- the handler has committed and returned -/
  | settled
deriving Repr, DecidableEq

/-- A `_run_job` under way. -/
structure TaskRun where
  worker : Uuid
  slot : Nat
  /-- the row `claim` returned -/
  row : Job
  stage : Stage := .claimed
deriving Repr, DecidableEq

/-- The database, the coroutines, and the acquisitions with a create call
that ended without an answer. -/
structure Pipeline where
  db : Database := {}
  runs : List TaskRun := []
  lostCalls : List String := []
deriving DecidableEq

/-! ## §2. Transactions of the API. -/

/-- `enqueue`, under an id of `gen_random_uuid()`; was a row inserted? -/
def Database.enqueue (db : Database) (new : NewJob) (jobId : Uuid) (now : Timestamp) :
    Option (Bool × Database) :=
  if jobId ∈ db.jobs.rows.map Job.id then none
  else
    match Queue.enqueue db.jobs new jobId now with
    | .error _ => none
    | .ok (row, jobs) => some (row.isSome, { db with jobs := jobs })

/-- `_link_public_request`. -/
def Database.linkPublicRequest (db : Database) (publicId : Option Uuid) (tenantId : Uuid)
    (code acquisition : String) (alreadyFetching : Bool) (now : Timestamp) : Option Database :=
  match publicId with
  | none => some db
  | some id =>
      match linkSummaryRequest db.acquisitions db.requests id tenantId code acquisition with
      | none => none
      | some requests =>
          some { db with
            requests :=
              if alreadyFetching then
                -- the row of the acquisition is locked: nobody else links to it
                transitionRequestsForAcquisition [] acquisition { status := .fetching } now
                  requests
              else requests }

/-- `ProcessRequestResult`. -/
structure ProcessRequestResult where
  requestId : String
  created : Bool
deriving Repr, DecidableEq

/-- `existing["status"] == "failed_retryable" and attempt_number < 100`. -/
def Acquisition.retryable (a : Acquisition) : Bool :=
  a.status == .failedRetryable && decide (a.attemptNumber < 100)

/-- The branch of `request_process` that starts another attempt. -/
def Database.retryAcquisition (db : Database) (a : Acquisition) (publicId : Option Uuid)
    (jobId : Uuid) (now : Timestamp) : Option (ProcessRequestResult × Database) := do
  let db := { db with acquisitions := db.acquisitions.retry a.id }
  let db ← db.linkPublicRequest publicId a.tenantId a.processCode a.id false now
  let (_, db) ← db.enqueue (requestJob a.id (a.attemptNumber + 1)) jobId now
  return (⟨"", true⟩, db)

/-- The branch that joins what is there. -/
def Database.joinAcquisition (db : Database) (a : Acquisition) (publicId : Option Uuid)
    (now : Timestamp) : Option (ProcessRequestResult × Database) := do
  let db ← db.linkPublicRequest publicId a.tenantId a.processCode a.id
    a.juditRequestId.isSome now
  return (⟨a.juditRequestId.getD "", false⟩, db)

/-- The branch that starts the first attempt. -/
def Database.newAcquisition (db : Database) (tenantId : Uuid) (code : String)
    (publicId : Option Uuid) (rowId : String) (jobId : Uuid) (now : Timestamp) :
    Option (ProcessRequestResult × Database) := do
  let acquisitions ← db.acquisitions.insert rowId tenantId code
  let db := { db with acquisitions := acquisitions }
  let db ← db.linkPublicRequest publicId tenantId code rowId false now
  let (_, db) ← db.enqueue (requestJob rowId 1) jobId now
  return (⟨"", true⟩, db)

/-- `request_process`; `none` where it raises. -/
def requestProcess (db : Database) (tenantId : Uuid) (code : String) (publicId : Option Uuid)
    (rowId : String) (jobId : Uuid) (now : Timestamp) :
    Option (ProcessRequestResult × Database) :=
  match db.acquisitions.find? tenantId code with
  | some a =>
      if a.retryable then db.retryAcquisition a publicId jobId now
      else db.joinAcquisition a publicId now
  | none => db.newAcquisition tenantId code publicId rowId jobId now

/-- `_record_request_completion` and `_enqueue_finalize`. -/
def Database.complete (db : Database) (requestId : String) (jobId : Uuid) (now : Timestamp) :
    Option Database := do
  let completions :=
    if requestId ∈ db.completions then db.completions else db.completions ++ [requestId]
  let (_, db) ← { db with completions := completions }.enqueue
    (finalizeJob requestId (finalizeKey requestId)) jobId now
  return db

/-- What the checks of a lawsuit transaction saw; they run before it
commits. -/
structure LawsuitReads where
  /-- `grant_request_tenants` saw the recorded request id -/
  recorded : Bool
  /-- `_request_was_completed` -/
  completed : Bool
deriving Repr, DecidableEq

/-- A lawsuit response: staged, granted, and repaired if its request was
completed. -/
def Database.lawsuit (db : Database) (e : LawsuitResponse) (reads : LawsuitReads)
    (newProcess newVersion : String) (jobId : Uuid) (now : Timestamp) : Option Database :=
  let (processId, archive) := db.archive.stage e newProcess newVersion now
  match e.juditRequestId with
  | none => some { db with archive := archive }
  | some requestId =>
      let tenants := (db.acquisitions.rows.filter fun a =>
        a.juditRequestId == some requestId).map Acquisition.tenantId
      let db := { db with
        archive := if reads.recorded then archive.grant tenants processId else archive }
      if reads.completed then
        if requestId ∈ db.completions then
          (db.enqueue (finalizeJob requestId (finalizeRepairKey requestId e.sourceId)) jobId
            now).map Prod.snd
        else none
      else some db

/-! ## §3. The finalization. -/

/-- What a finalization reads of payloads and summaries. -/
structure FinalizeReads where
  /-- versions that were committed after `preferred_judit_version` ran -/
  unseen : List String := []
  comparison : Comparison := .promoted
  /-- `attachment_manifest and judit_attachments_enabled()` -/
  attachments : Bool := false
  /-- the summary of the current version, if it is publishable, with the
  process's `updated_at` -/
  reusable : Option (String × Timestamp) := none
  /-- the public requests that were linked after the last `SELECT` of their
  ids ran; one that an earlier `SELECT` missed ends as the last leaves it -/
  unlinked : List Uuid := []
deriving Repr, DecidableEq

/-- What the transaction writes: the archive, the transitions of the
request's public requests in order, and the job it enqueues. -/
structure FinalizePlan where
  archive : Archive
  transitions : List Transition
  next : Option NewJob := none
deriving DecidableEq

/-- The plan after `finalize_version`, whose answer is `promoted`. -/
def finalizedPlan (archive : Archive) (requestId code : String) (v : Version)
    (reads : FinalizeReads) (promoted : Bool) : FinalizePlan :=
  let indexing : List Transition := [{ status := .indexing }]
  let equivalent :=
    if promoted then none
    else (archive.versions.find? fun w => w.id == v.id).bind Version.equivalentToVersionId
  let indexed : List Transition :=
    if promoted then
      indexing ++
        [{ status := .indexing, processId := some v.processId, versionId := some v.id }]
    else indexing
  if promoted && !v.cachedResponse then
    { archive := archive
      transitions := indexed
      next := some
        (if reads.attachments then attachmentsJob v.processId v.id requestId
        else summaryJob v.processId v.id code requestId (summaryKey v.id)) }
  else
    match archive.currentVersion v.processId, reads.reusable with
    | some current, some (summaryId, updatedAt) =>
        -- `_complete_from_current_summary`
        { archive := archive
          transitions := indexed ++
            [{ status := .completed, processId := some v.processId, versionId := some current,
               summaryId := some summaryId, sourceUpdatedAt := some updatedAt,
               flags := some [("reused_existing_summary", .bool true)] }] }
    | _, _ =>
        match equivalent with
        | some versionId =>
            { archive := archive
              transitions := indexed ++
                [{ status := .indexing, processId := some v.processId,
                   versionId := some versionId }]
              next := some (summaryJob v.processId versionId code requestId
                (summaryRepairKey versionId requestId)) }
        | none =>
            { archive := archive
              transitions := indexed ++
                [{ status := .failed, processId := some v.processId,
                   versionId := if promoted then some v.id else none,
                   errorCode := some
                    (if promoted && v.cachedResponse then "cached_response_not_generated"
                    else "current_summary_unavailable") }] }

/-- The transaction of `finalize_judit_request_task`; `none` where it
raises. -/
def finalizePlan (archive : Archive) (requestId : String) (reads : FinalizeReads) :
    Option FinalizePlan :=
  let unavailable (errorCode : String) : FinalizePlan :=
    { archive := archive
      transitions :=
        [{ status := .indexing }, { status := .sourceUnavailable, errorCode := some errorCode }] }
  match preferredJuditVersion
      (archive.versions.filter fun v => !reads.unseen.contains v.id) requestId with
  | none => some (unavailable "no_lawsuit_response")
  | some v =>
      if v.responseData then
        match archive.processes.find? (fun p => p.id == v.processId),
            archive.finalizeVersion v reads.comparison with
        | some p, some (promoted, archive) =>
            some (finalizedPlan archive requestId p.code v reads promoted)
        | _, _ => none
      else some (unavailable "missing_response_data")

/-- The transitions of a Judit request's public requests, in order. -/
def transitionAll (t : AcquisitionTable) (unseen : List Uuid) (requestId : String)
    (now : Timestamp) (transitions : List Transition) (requests : List PublicRequest) :
    List PublicRequest :=
  transitions.foldl
    (fun requests transition => transitionRequestsForJuditRequest t unseen requestId transition
      now requests) requests

/-- The job a handler's transaction enqueues last, if any. -/
def Database.enqueueNext (db : Database) (next : Option NewJob) (jobId : Uuid) (now : Timestamp) :
    Option Database :=
  match next with
  | none => some db
  | some new => (db.enqueue new jobId now).map Prod.snd

/-- The transaction, carried out. -/
def Database.finalize (db : Database) (unseen : List Uuid) (requestId : String)
    (plan : FinalizePlan) (jobId : Uuid) (now : Timestamp) : Option Database :=
  { db with
    archive := plan.archive
    requests := transitionAll db.acquisitions unseen requestId now plan.transitions db.requests
    }.enqueueNext plan.next jobId now

/-! ## §4. The attachments. -/

/-- The end of `process_judit_attachments_task` for a payload: `none` where
it raises before, `some none` for a stale version, else the summary job. -/
def attachmentsNext (archive : Archive) (payload : Json) : Option (Option NewJob) :=
  match payloadText payload "process_id", payloadText payload "version_id",
      payloadText payload "judit_request_id" with
  | some processId, some versionId, some requestId =>
      if requestId = "" then none
      else
        match archive.processes.find? (fun p => p.id == processId),
            archive.versions.find? (fun v => v.id == versionId && v.processId == processId &&
              v.finalized) with
        | some p, some _ =>
            if p.currentVersionId = some versionId then
              some (some (summaryJob processId versionId p.code requestId (summaryKey versionId)))
            else some none
        | _, _ => none
  | _, _, _ => none

/-! ## §5. Tasks. -/

/-- The steps of a `_run_job`.  The `unseen` requests were linked after the
step's `SELECT` of their ids ran. -/
inductive TaskCall where
  /-- the acquisition reads its row and moves its requests to `fetching` -/
  | fetch (unseen : List Uuid := [])
  /-- its create call goes out -/
  | send
  /-- the provider accepts it; `process` is what `_reconcile_tenant_access`
  selected -/
  | accepted (requestId : String) (process : Option String)
  /-- the provider rejects it (`JuditRequestError`) -/
  | rejected (retrySafe : Bool) (unseen : List Uuid := [])
  | finalize (reads : FinalizeReads) (jobId : Uuid)
  | attach (jobId : Uuid)
  /-- the ownership check and `mark_job_started` of a generation -/
  | start (unseen : List Uuid := [])
  | heartbeat
  | complete (result : Json) (generation : GenerationReads)
  /-- any exception -/
  | fail (failure : Failure) (unseen : List Uuid := [])
deriving Repr, DecidableEq

/-- The text the run's task is about. -/
def TaskRun.about (run : TaskRun) (key : String) : Option String :=
  payloadText run.row.payload key

/-- `request_judit_process_task` up to the create call. -/
def TaskRun.fetch (run : TaskRun) (db : Database) (now : Timestamp) (unseen : List Uuid) :
    Option (Database × Option Stage) :=
  match run.about "tenant_request_id" with
  | none => some (db, some .raised)
  | some id =>
      match db.acquisitions.byId? id with
      | none => some (db, some .raised)
      | some a =>
          let requests :=
            transitionRequestsForAcquisition unseen id { status := .fetching } now db.requests
          some ({ db with requests := requests },
            some (if a.juditRequestId.isSome then .settled else .fetched))

/-- The acquisition's transaction after the provider accepted: the request
id is recorded if the row has none, and the tenant is granted the process
of the newest version there is; `none` on a unique violation. -/
def TaskRun.accepted (run : TaskRun) (db : Database) (requestId : String)
    (process : Option String) : Option (Database × Option Stage) :=
  match run.about "tenant_request_id" with
  | none => none
  | some id =>
      if hne : requestId = "" then none
      else
        match db.acquisitions.record id requestId hne with
        | none => none
        | some (none, _) => some (db, some .settled)
        | some (some tenantId, acquisitions) =>
            match process with
            | none => some ({ db with acquisitions := acquisitions }, some .settled)
            | some processId =>
                if db.archive.versions.any fun v =>
                    v.processId == processId && v.juditRequestId == some requestId then
                  some ({ db with
                    acquisitions := acquisitions
                    archive := db.archive.grant [tenantId] processId }, some .settled)
                else none

/-- The acquisition's transaction after the provider rejected. -/
def TaskRun.rejected (run : TaskRun) (db : Database) (retrySafe : Bool) (now : Timestamp)
    (unseen : List Uuid) : Option (Database × Option Stage) :=
  match run.about "tenant_request_id" with
  | none => none
  | some id =>
      some ({ db with
        acquisitions := db.acquisitions.refuse id
          (if retrySafe then .failedRetryable else .failedAmbiguous)
        requests := transitionRequestsForAcquisition unseen id
          { status := .sourceUnavailable, errorCode := some "source_unavailable" } now
          db.requests }, some .raised)

/-- The check and the start of a generation. -/
def TaskRun.start (run : TaskRun) (db : Database) (now : Timestamp) (unseen : List Uuid) :
    Option (Database × Option Stage) :=
  match heartbeat db.jobs run.row.id run.worker now with
  | (true, jobs) =>
      some ({ db with
        jobs := jobs
        requests := markJobStarted db.acquisitions unseen run.row.taskName run.row.payload now
          db.requests }, some .running)
  | (false, jobs) => some ({ db with jobs := jobs }, none)

/-- The end of a `_run_job` whose handler returned. -/
def TaskRun.complete (run : TaskRun) (db : Database) (result : Json) (g : GenerationReads)
    (now : Timestamp) : Option (Database × Option Stage) :=
  match Queue.complete db.jobs run.row.id run.worker result now with
  | (true, jobs) =>
      if run.row.taskName = "generate_process_summary" then
        some ({ db with
          jobs := jobs
          requests := reconcileGenerationResult db.acquisitions run.row.payload g now
            db.requests }, none)
      else some ({ db with jobs := jobs }, none)
  | (false, jobs) => some ({ db with jobs := jobs }, none)

/-- The end of a `_run_job` that raised. -/
def TaskRun.fail (run : TaskRun) (db : Database) (failure : Failure) (now : Timestamp)
    (unseen : List Uuid) : Option (Database × Option Stage) :=
  match Queue.fail db.jobs run.row.id run.worker failure now with
  | (status, jobs) =>
      some ({ db with
        jobs := jobs
        requests :=
          if status = some .dead then
            markJobDead db.acquisitions unseen "job_failed" now run.row db.requests
          else db.requests }, none)

/-- One step of a task: the database, and where the coroutine stands
(`none`: it has returned). -/
def TaskRun.call (run : TaskRun) (db : Database) (now : Timestamp) :
    TaskCall → Option (Database × Option Stage)
  | .fetch unseen =>
      if run.stage = .claimed ∧ run.row.taskName = "request_judit_process" then
        run.fetch db now unseen
      else none
  | .send =>
      if run.stage = .fetched ∧ run.row.taskName = "request_judit_process" then
        some (db, some .calling)
      else none
  | .accepted requestId process =>
      if run.stage = .calling ∧ run.row.taskName = "request_judit_process" then
        run.accepted db requestId process
      else none
  | .rejected retrySafe unseen =>
      if run.stage = .calling ∧ run.row.taskName = "request_judit_process" then
        run.rejected db retrySafe now unseen
      else none
  | .finalize reads jobId =>
      if run.stage = .claimed ∧ run.row.taskName = "finalize_judit_request" then
        match run.about "request_id" with
        | none => none
        | some requestId =>
            match finalizePlan db.archive requestId reads with
            | none => none
            | some plan =>
                (db.finalize reads.unlinked requestId plan jobId now).map fun db => (db, some .settled)
      else none
  | .attach jobId =>
      if run.stage = .claimed ∧ run.row.taskName = "process_judit_attachments" then
        match attachmentsNext db.archive run.row.payload with
        | none => none
        | some next => (db.enqueueNext next jobId now).map fun db => (db, some .settled)
      else none
  | .start unseen =>
      if run.stage = .claimed ∧ run.row.taskName = "generate_process_summary" then
        run.start db now unseen
      else none
  | .heartbeat =>
      some ({ db with jobs := (heartbeat db.jobs run.row.id run.worker now).2 },
        some run.stage)
  | .complete result g =>
      if run.stage = .settled ∨
          (run.stage = .running ∧ run.row.taskName = "generate_process_summary") then
        run.complete db result g now
      else none
  | .fail failure unseen => run.fail db failure now unseen

/-! ## §6. The machine. -/

/-- What can happen. -/
inductive Event where
  /-- `create_or_get_summary_request` -/
  | create (id tenantId : Uuid) (code idempotencyKey fingerprint format : String)
  | request (tenantId : Uuid) (code : String) (publicId : Option Uuid) (rowId : String)
      (jobId : Uuid) (now : Timestamp)
  /-- the completion callback -/
  | completed (requestId : String) (jobId : Uuid) (now : Timestamp)
  | lawsuit (response : LawsuitResponse) (reads : LawsuitReads) (newProcess newVersion : String)
      (jobId : Uuid) (now : Timestamp)
  | claim (worker : Uuid) (slot : Nat) (now : Timestamp) (locked : List Uuid) (pick : Uuid)
  | call (worker : Uuid) (slot : Nat) (now : Timestamp) (c : TaskCall)
  | reclaim (timeoutSeconds : Int) (now : Timestamp) (locked : List Uuid)
      (unseen : List Uuid := [])
  /-- a coroutine ends without a word: its process dies -/
  | vanish (worker : Uuid) (slot : Nat)
  | expunge (doomed : List String)
deriving Repr, DecidableEq

/-- Is this the `_run_job` of the slot? -/
def TaskRun.isAt (worker : Uuid) (slot : Nat) (run : TaskRun) : Bool :=
  run.worker == worker && run.slot == slot

/-- The runs after one of them moved on, or returned. -/
def moveRun (runs : List TaskRun) (run : TaskRun) : Option Stage → List TaskRun
  | none => runs.filter fun d => d ≠ run
  | some stage => updateWhere (fun d => d = run) (fun d => { d with stage := stage }) runs

/-- A run that ends while its create call is in flight leaves it without an
answer. -/
def loseCall (lostCalls : List String) (run : TaskRun) : List String :=
  if run.stage = .calling then lostCalls ++ (run.about "tenant_request_id").toList
  else lostCalls

/-- The reclaimer's transaction. -/
def Database.reclaim (db : Database) (timeoutSeconds : Int) (now : Timestamp)
    (locked unseen : List Uuid) : Option Database :=
  match reclaimStale db.jobs timeoutSeconds now locked with
  | .error _ => none
  | .ok (rows, jobs) =>
      some { db with
        jobs := jobs
        requests := markAllDead db.acquisitions unseen "job_reclaim_exhausted" now
          (rows.filter fun j => j.status == .dead) db.requests }

/-- `ON DELETE SET NULL` of the public requests. -/
def PublicRequest.forget (versions : List Version) (doomed : List String) (r : PublicRequest) :
    PublicRequest :=
  { r with
    processId := r.processId.filter fun p => !doomed.contains p
    versionId := r.versionId.filter fun v =>
      !versions.any fun w => w.id == v && doomed.contains w.processId }

/-- One step of the pipeline. -/
def Pipeline.step (s : Pipeline) : Event → Option Pipeline
  | .create id tenantId code idempotencyKey fingerprint format =>
      if s.db.requests.any fun r => r.id == id then none
      else
        let new : PublicRequest :=
          { id := id, tenantId := tenantId, processCode := code,
            idempotencyKey := idempotencyKey, requestFingerprint := fingerprint,
            responseFormat := format, terminal_time := queued_open }
        some { s with db := { s.db with requests := createOrGet new s.db.requests } }
  | .request tenantId code publicId rowId jobId now =>
      (requestProcess s.db tenantId code publicId rowId jobId now).map fun (_, db) =>
        { s with db := db }
  | .completed requestId jobId now =>
      if requestId = "" then none
      else (s.db.complete requestId jobId now).map fun db => { s with db := db }
  | .lawsuit response reads newProcess newVersion jobId now =>
      (s.db.lawsuit response reads newProcess newVersion jobId now).map fun db =>
        { s with db := db }
  | .claim worker slot now locked pick =>
      if s.runs.any (TaskRun.isAt worker slot) then none
      else
        match claim s.db.jobs worker now locked pick with
        | none => none
        | some (row, jobs) =>
            some { s with
              db := { s.db with jobs := jobs }
              runs := s.runs ++ [{ worker := worker, slot := slot, row := row }] }
  | .call worker slot now c =>
      match s.runs.find? (TaskRun.isAt worker slot) with
      | none => none
      | some run =>
          match run.call s.db now c with
          | none => none
          | some (db, stage) =>
              some {
                db := db
                runs := moveRun s.runs run stage
                lostCalls :=
                  if stage.isNone then loseCall s.lostCalls run else s.lostCalls }
  | .reclaim timeoutSeconds now locked unseen =>
      (s.db.reclaim timeoutSeconds now locked unseen).map fun db => { s with db := db }
  | .vanish worker slot =>
      match s.runs.find? (TaskRun.isAt worker slot) with
      | none => none
      | some run =>
          some { s with
            runs := moveRun s.runs run none
            lostCalls := loseCall s.lostCalls run }
  | .expunge doomed =>
      some { s with db := { s.db with
        archive := s.db.archive.expunge doomed
        requests := s.db.requests.map (PublicRequest.forget s.db.archive.versions doomed) } }

/-! ## §7. A sample lawsuit. -/

def sampleCode : String := "0000000-00.0000.0.00.0701"

/-- A POST: the request is created and processed. -/
def post (request : Uuid) (idempotencyKey : String) (job : Uuid) : List Event :=
  [.create request 1 sampleCode idempotencyKey "fingerprint" "json",
   .request 1 sampleCode (some request) "acquisition" job 0]

/-- A slot takes the job, takes the steps and completes it. -/
def runTask (job : Uuid) (calls : List TaskCall) : List Event :=
  .claim 9 0 0 [] job :: calls.map (.call 9 0 0) ++ [.call 9 0 0 (.complete (.obj []) {})]

/-- The only response of the sample request. -/
def sampleResponse : LawsuitResponse where
  code := sampleCode
  sourceId := "resp-1"
  juditRequestId := some "req-1"

/-- The acquisition gets its request id, one response and its completion. -/
def acquire (job finalization : Uuid) : List Event :=
  runTask job [.fetch, .send, .accepted "req-1" none] ++
    [.lawsuit sampleResponse ⟨true, false⟩ "process" "version" 0 0,
     .completed "req-1" finalization 0]

end Rpy.Lifecycle

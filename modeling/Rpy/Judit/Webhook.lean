/-
  Rpy.Judit.Webhook
  ─────────────────
  **THE WEBHOOK TRANSACTIONS OF ONE JUDIT REQUEST, STATEMENT BY STATEMENT.**

  A lawsuit response is received in one transaction: the delivery and the
  staged version, the grants of the acquiring tenant, the completion check
  and the repair job, the commit.  Each statement reads what is committed
  when it runs (READ COMMITTED); other transactions commit in between.
  The completion callback and the acquisition task's transaction that
  records the request id are the others, and the workers run the jobs.

    • `Inbox`        — what is committed, and the transactions under way,
    • `Inbox.step`   — one statement, commit, or worker operation.

  `app/api.py` (`judit_webhook`), `app/processes.py` (`stage_version`),
  `app/process_requests.py` (`grant_request_tenants`,
  `_reconcile_tenant_access`).
-/
import Rpy.Foundation.Machine
import Rpy.Queue.Evolution

namespace Rpy.Judit

open Rpy.Foundation Rpy.Queue

/-! ## §1. Rows and messages. -/

/-- The acquisition the request belongs to: its tenant and the id the
provider gave it. -/
structure Acquisition where
  tenant : Uuid
  requestId : String
deriving Repr, DecidableEq

/-- A lawsuit response of the request, as `parse_event` reads it; `code` is
the normalised CNJ, which names the process. -/
structure Response where
  callbackId : Option String := none
  responseId : Option String := none
  code : String
  cached : Bool := false
  /-- the tenants that staging grants by itself: `webhook_tenant_id` and the
  tracking trigger on `process_versions` -/
  stageTenants : List Uuid := []
  /-- `parse_event` refuses a response without a stable identifier -/
  stable : (responseId <|> callbackId).isSome = true
deriving DecidableEq

/-- `source_id = event.response_id or event.callback_id`. -/
def Response.sourceId (r : Response) : String :=
  (r.responseId <|> r.callbackId).get r.stable

/-- A `process_versions` row of the request. -/
structure StagedVersion where
  code : String
  sourceId : String
  cached : Bool
  createdAt : Nat
  finalized : Bool := false
  /-- when its last payload was committed -/
  stagedAt : Nat
deriving Repr, DecidableEq

/-- A lawsuit transaction under way. -/
structure LawsuitTx where
  id : Nat
  response : Response
  /-- `NOW()` of the transaction -/
  startedAt : Nat
  /-- did `grant_request_tenants` see the recorded request id? -/
  sawRecorded : Option Bool := none
  /-- did `_request_was_completed` see the completion? -/
  sawCompleted : Option Bool := none
deriving DecidableEq

/-- What is committed for the request, and what is under way. -/
structure Inbox where
  /-- `judit_deliveries` -/
  deliveries : List String := []
  /-- a row in `judit_request_completions` -/
  completed : Bool := false
  versions : List StagedVersion := []
  jobs : JobTable := .empty
  /-- the acquisition row has the request id -/
  recorded : Bool := false
  /-- `tenant_processes` -/
  grants : List (Uuid × String) := []
  lawsuits : List LawsuitTx := []
  /-- the transaction that records the request id, with the versions its
  `SELECT` saw -/
  recording : Option (List StagedVersion) := none
  clock : Nat := 0
  /-- when each job was last claimed -/
  beganAt : List (Uuid × Nat) := []
  /-- the lawsuit transactions that committed -/
  committed : List LawsuitTx := []
  /-- the versions `_reconcile_tenant_access` saw -/
  reconciled : List StagedVersion := []
deriving DecidableEq

/-! ## §2. Jobs. -/

/-- `judit-finalize:{request_id}`. -/
def finalizeKey (a : Acquisition) : String :=
  "judit-finalize:" ++ a.requestId

/-- `judit-finalize-repair:{request_id}:{source_id}`. -/
def repairKey (a : Acquisition) (r : Response) : String :=
  "judit-finalize-repair:" ++ a.requestId ++ ":" ++ r.sourceId

/-- The job `_enqueue_finalize` enqueues. -/
def finalizeJob (a : Acquisition) (key : String) : NewJob where
  taskName := "finalize_judit_request"
  payload := .obj [("request_id", .str a.requestId)]
  idempotencyKey := some key

/-- A finalize job of the request. -/
def isFinalizeJob (a : Acquisition) (j : Job) : Bool :=
  j.taskName == "finalize_judit_request" && j.payload == .obj [("request_id", .str a.requestId)]

/-! ## §3. The transactions. -/

/-- Is it the row of the response, `(process_id, source_request_id)`? -/
def StagedVersion.isOf (r : Response) (v : StagedVersion) : Bool :=
  v.code == r.code && v.sourceId == r.sourceId

/-- The response writes a payload: its version is new or not finalized. -/
def stages (versions : List StagedVersion) (r : Response) : Bool :=
  !versions.any (StagedVersion.isOf r) || versions.any fun v => v.isOf r && !v.finalized

/-- `stage_version`'s upsert, committed at `now`; a finalized version keeps
its payload. -/
def stageVersion (versions : List StagedVersion) (r : Response) (startedAt now : Nat) :
    List StagedVersion :=
  if versions.any (StagedVersion.isOf r) then
    versions.map fun v =>
      if v.isOf r && !v.finalized then { v with cached := r.cached, stagedAt := now } else v
  else
    versions ++
      [{ code := r.code, sourceId := r.sourceId, cached := r.cached, createdAt := startedAt,
         stagedAt := now }]

/-- `SELECT process_id … ORDER BY created_at DESC LIMIT 1`. -/
def newestProcess : List StagedVersion → Option String
  | [] => none
  | v :: vs =>
      some (vs.foldl (fun best w => if best.createdAt < w.createdAt then w else best) v).code

/-- What can happen. -/
inductive Event where
  /-- a lawsuit callback: its delivery and its staged version -/
  | deliver (tx : Nat) (response : Response)
  | grant (tx : Nat)
  | check (tx : Nat)
  | commit (tx : Nat) (jobId : Uuid) (now : Timestamp)
  | abort (tx : Nat)
  /-- the completion callback, as one committed transaction -/
  | complete (callbackId : Option String) (jobId : Uuid) (now : Timestamp)
  /-- the acquisition task writes the request id and selects a process -/
  | select
  /-- and commits -/
  | record
  | worker (op : WorkerOp)
  /-- a run of a finalize job finalizes a version -/
  | finalize (code sourceId : String)
deriving DecidableEq

/-- A callback id that is held by a transaction under way makes the next
delivery of it wait. -/
def Inbox.holdsCallback (s : Inbox) (callbackId : Option String) : Bool :=
  callbackId.isSome && s.lawsuits.any fun t => t.response.callbackId == callbackId

/-- `judit_deliveries` has the callback id. -/
def Inbox.delivered (s : Inbox) : Option String → Bool
  | none => false
  | some callbackId => s.deliveries.contains callbackId

/-- The transaction changed in place. -/
def Inbox.updateTx (s : Inbox) (tx : Nat) (f : LawsuitTx → LawsuitTx) : Inbox :=
  { s with lawsuits := updateWhere (fun t => t.id == tx) f s.lawsuits }

/-- The grants a lawsuit transaction commits. -/
def LawsuitTx.grants (a : Acquisition) (t : LawsuitTx) : List (Uuid × String) :=
  let tenants := if t.sawRecorded = some true then a.tenant :: t.response.stageTenants
    else t.response.stageTenants
  tenants.map fun tenant => (tenant, t.response.code)

/-- The jobs after a lawsuit transaction: the repair job if the check saw
the completion. -/
def LawsuitTx.enqueue (a : Acquisition) (t : LawsuitTx) (jobs : JobTable) (jobId : Uuid)
    (now : Timestamp) : JobTable :=
  if t.sawCompleted = some true then
    (jobs.insertNew (finalizeJob a (repairKey a t.response)) jobId now).2
  else jobs

/-- A lawsuit transaction commits. -/
def Inbox.commitLawsuit (s : Inbox) (a : Acquisition) (t : LawsuitTx) (jobId : Uuid)
    (now : Timestamp) : Inbox :=
  { s with
    deliveries := s.deliveries ++ t.response.callbackId.toList
    versions := stageVersion s.versions t.response t.startedAt s.clock
    grants := s.grants ++ t.grants a
    jobs := t.enqueue a s.jobs jobId now
    lawsuits := s.lawsuits.filter fun u => u.id ≠ t.id
    committed := s.committed ++ [t] }

/-- The completion callback commits. -/
def Inbox.commitCompletion (s : Inbox) (a : Acquisition) (callbackId : Option String)
    (jobId : Uuid) (now : Timestamp) : Inbox :=
  { s with
    deliveries := s.deliveries ++ callbackId.toList
    completed := true
    jobs := (s.jobs.insertNew (finalizeJob a (finalizeKey a)) jobId now).2 }

/-- The event, before the clock ticks; `none` where it cannot happen. -/
def Inbox.apply (a : Acquisition) (s : Inbox) : Event → Option Inbox
  | .deliver tx response =>
      if s.lawsuits.any fun t => t.id == tx then none
      -- waits for the transaction that holds the callback id or the process row
      else if s.holdsCallback response.callbackId then none
      else if s.lawsuits.any fun t => t.response.code == response.code then none
      -- a duplicate delivery answers at once
      else if s.delivered response.callbackId then some s
      else some { s with
        lawsuits := s.lawsuits ++ [{ id := tx, response := response, startedAt := s.clock }] }
  | .grant tx =>
      if s.lawsuits.any fun t => t.id == tx && t.sawRecorded.isNone then
        some (s.updateTx tx fun t => { t with sawRecorded := some s.recorded })
      else none
  | .check tx =>
      if s.lawsuits.any fun t => t.id == tx && t.sawRecorded.isSome && t.sawCompleted.isNone then
        some (s.updateTx tx fun t => { t with sawCompleted := some s.completed })
      else none
  | .commit tx jobId now =>
      match s.lawsuits.find? fun t => t.id == tx && t.sawCompleted.isSome with
      | none => none
      | some t =>
          if jobId ∈ s.jobs.rows.map Job.id then none
          else some (s.commitLawsuit a t jobId now)
  | .abort tx => some { s with lawsuits := s.lawsuits.filter fun t => t.id ≠ tx }
  | .complete callbackId jobId now =>
      if s.holdsCallback callbackId then none
      else if s.delivered callbackId then some s
      else if jobId ∈ s.jobs.rows.map Job.id then none
      else some (s.commitCompletion a callbackId jobId now)
  | .select =>
      if s.recorded || s.recording.isSome then none
      else some { s with recording := some s.versions }
  | .record =>
      match s.recording with
      | none => none
      | some saw =>
          some { s with
            recorded := true
            recording := none
            reconciled := saw
            grants := s.grants ++ (newestProcess saw).toList.map fun code => (a.tenant, code) }
  | .worker op =>
      match op.apply s.jobs with
      | none => none
      | some jobs =>
          some { s with
            jobs := jobs
            beganAt := op.picks.toList.map (fun id => (id, s.clock)) ++ s.beganAt }
  | .finalize code sourceId =>
      -- `finalize_version` locks the process row and waits for its stagers
      if s.lawsuits.any fun t => t.response.code == code then none
      else if s.jobs.rows.any (isFinalizeJob a) then
        some { s with
          versions := s.versions.map fun v =>
            if v.code == code && v.sourceId == sourceId then { v with finalized := true } else v }
      else none

/-- One event, and the clock. -/
def Inbox.step (a : Acquisition) (s : Inbox) (ev : Event) : Option Inbox :=
  (s.apply a ev).map fun s' => { s' with clock := s'.clock + 1 }

end Rpy.Judit

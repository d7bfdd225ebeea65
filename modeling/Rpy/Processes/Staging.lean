/-
  Rpy.Processes.Staging
  ─────────────────────
  **THE VERSIONS OF ALL PROCESSES, AS THEY ARE STAGED, FINALIZED AND
  DELIVERED AGAIN** (`app/processes.py`, `app/api.py`,
  `sql/003_judit_staging.sql`, `sql/015_process_semantic_fingerprint.sql`).

  A version has the columns of its source beside those that a finalization
  writes.  An `UPDATE` of a version is aborted by the trigger when the
  version is finalized and one of them is to change; an exception rolls the
  call back.

    • `preventFinalizedVersionSourceMutation` — the trigger's condition,
    • `Store.stageVersion`    — `stage_version`,
    • `Store.finalizeVersion` — `finalize_version`,
    • `Store.webhook`         — a lawsuit response of `judit_webhook`,
    • `Store.step`            — one of these calls, committed or rolled back.
-/
import Rpy.Foundation.Table
import Rpy.Processes.Finalize

namespace Rpy.Processes

open Rpy.Foundation

/-! ## §1. Rows. -/

/-- A `process_versions` row with the columns of its source. -/
structure StoredVersion extends VersionRow where
  sourceRequestId : Option String
  sourceCachedResponse : Bool
  sourcePayload : Json
  juditRequestId : Option String
  juditResponseId : Option String
  juditCallbackId : Option String
deriving Repr, DecidableEq

/-- A process with the rows of its own in the other tables. -/
structure ProcessEntry where
  id : Uuid
  /-- the normalised CNJ -/
  code : String
  process : ProcessRow := {}
  versions : List StoredVersion := []
  steps : List StepRow := []
  attachments : List AttachmentRow := []
deriving DecidableEq

/-- The tables. -/
structure Store where
  processes : List ProcessEntry := []
  /-- the callback ids in `judit_deliveries` -/
  deliveries : List String := []
  /-- `tenant_processes` -/
  grants : List (Uuid × Uuid) := []
deriving DecidableEq

/-- What aborts a call. -/
inductive StoreError where
  | finalize (error : FinalizeError)
  | uniqueViolation (index : String)
  /-- `finalized process version source data is immutable` -/
  | immutable
deriving Repr, DecidableEq

/-! ## §2. Statements. -/

/-- The condition of `prevent_finalized_version_source_mutation`. -/
def preventFinalizedVersionSourceMutation (old new : StoredVersion) : Bool :=
  old.finalized && (
    new.sourceRequestId != old.sourceRequestId
    || new.sourceCachedResponse != old.sourceCachedResponse
    || new.sourcePayload.canon != old.sourcePayload.canon
    || new.juditRequestId != old.juditRequestId
    || new.juditResponseId != old.juditResponseId
    || new.juditCallbackId != old.juditCallbackId
    || new.semanticFingerprint != old.semanticFingerprint
    || new.semanticSchemaVersion != old.semanticSchemaVersion
    || new.equivalentToVersionId != old.equivalentToVersionId)

/-- A row is updated under the trigger. -/
def updateVersion (old new : StoredVersion) : Except StoreError StoredVersion :=
  if preventFinalizedVersionSourceMutation old new then .error .immutable else .ok new

/-- `ON CONFLICT (process_id, source_request_id) DO UPDATE SET …`: a
finalized version keeps what it has. -/
def StoredVersion.restage (old excluded : StoredVersion) : StoredVersion :=
  { old with
    sourceCachedResponse :=
      if old.finalized then old.sourceCachedResponse else excluded.sourceCachedResponse
    sourcePayload := if old.finalized then old.sourcePayload else excluded.sourcePayload
    juditRequestId :=
      if old.finalized then old.juditRequestId
      else excluded.juditRequestId.or old.juditRequestId
    juditResponseId :=
      if old.finalized then old.juditResponseId
      else excluded.juditResponseId.or old.juditResponseId
    juditCallbackId :=
      if old.finalized then old.juditCallbackId
      else excluded.juditCallbackId.or old.juditCallbackId }

/-- The rows of all processes in `process_versions`. -/
def Store.versions (s : Store) : List StoredVersion :=
  s.processes.flatMap ProcessEntry.versions

/-- Does another row have the value in a unique index? -/
def Store.indexed (s : Store) (column : StoredVersion → Option String) (v : StoredVersion) :
    Bool :=
  (column v).isSome && s.versions.any fun w => w.id != v.id && column w == column v

/-- `process_versions_judit_response_uq` and `process_versions_judit_callback_uq`. -/
def Store.checkIndexes (s : Store) (v : StoredVersion) : Except StoreError Unit :=
  if s.indexed StoredVersion.juditResponseId v then
    .error (.uniqueViolation "process_versions_judit_response_uq")
  else if s.indexed StoredVersion.juditCallbackId v then
    .error (.uniqueViolation "process_versions_judit_callback_uq")
  else .ok ()

/-- The process has other rows. -/
def Store.replace (s : Store) (entry : ProcessEntry) : Store :=
  { s with processes := updateWhere (fun p => p.id == entry.id) (fun _ => entry) s.processes }

/-! ## §3. Calls. -/

/-- The arguments of `stage_version`. -/
structure StageArguments where
  code : String
  sourceRequestId : Option String
  cachedResponse : Bool
  payload : Json
  juditRequestId : Option String := none
  juditResponseId : Option String := none
  juditCallbackId : Option String := none
  tenantId : Option Uuid := none
deriving Repr, DecidableEq

/-- The ids `gen_random_uuid()` gives a call, and its `NOW()`. -/
structure Generated where
  processId : Uuid
  versionId : Uuid
  now : Timestamp
deriving Repr, DecidableEq

/-- A nullable `TEXT` column. -/
def nullableText (column : String) : Option String → Except StoreError (Option String)
  | none => .ok none
  | some s => ((textColumn column s).map some).mapError .finalize

/-- The row `stage_version` inserts. -/
def StageArguments.row (u : Platform) (a : StageArguments) (g : Generated) :
    Except StoreError StoredVersion := do
  return {
    id := g.versionId
    createdAt := g.now
    sourceRequestId := ← nullableText "source_request_id" a.sourceRequestId
    sourceCachedResponse := a.cachedResponse
    sourcePayload := ← (jsonbColumn u "source_payload" a.payload).mapError .finalize
    juditRequestId := ← nullableText "judit_request_id" a.juditRequestId
    juditResponseId := ← nullableText "judit_response_id" a.juditResponseId
    juditCallbackId := ← nullableText "judit_callback_id" a.juditCallbackId }

/-- `INSERT INTO processes (code) … ON CONFLICT (code) DO UPDATE … RETURNING id`. -/
def Store.processOf (s : Store) (code : String) (newId : Uuid) :
    Except StoreError (ProcessEntry × Store) :=
  match s.processes.find? fun p => p.code == code with
  | some p => .ok (p, s)
  | none =>
      if s.processes.any fun p => p.id == newId then .error (.uniqueViolation "processes_pkey")
      else
        let p : ProcessEntry := { id := newId, code := code }
        .ok (p, { s with processes := s.processes ++ [p] })

/-- `grant_process_access`, when the call has a tenant. -/
def Store.grant (s : Store) (tenantId : Option Uuid) (processId : Uuid) : Store :=
  match tenantId with
  | none => s
  | some tenant =>
      if s.grants.contains (tenant, processId) then s
      else { s with grants := s.grants ++ [(tenant, processId)] }

/-- The upsert of `stage_version` among the versions of its process. -/
def Store.upsertVersion (s : Store) (p : ProcessEntry) (row : StoredVersion) :
    Except StoreError (Uuid × Store) :=
  match p.versions.find? fun v =>
      row.sourceRequestId.isSome && v.sourceRequestId == row.sourceRequestId with
  | some old => do
      let updated ← updateVersion old (old.restage row)
      s.checkIndexes updated
      let versions := updateWhere (fun v => v.id == old.id) (fun _ => updated) p.versions
      return (old.id, s.replace { p with versions := versions })
  | none =>
      if s.versions.any fun v => v.id == row.id then
        .error (.uniqueViolation "process_versions_pkey")
      else do
        s.checkIndexes row
        return (row.id, s.replace { p with versions := p.versions ++ [row] })

/-- `stage_version`: the ids of the process and of the version. -/
def Store.stageVersion (u : Platform) (s : Store) (a : StageArguments) (g : Generated) :
    Except StoreError ((Uuid × Uuid) × Store) := do
  let code ← (textColumn "code" a.code).mapError StoreError.finalize
  let (p, s₁) ← s.processOf code g.processId
  let row ← a.row u g
  let (versionId, s₂) ← (s₁.grant a.tenantId p.id).upsertVersion p row
  return ((p.id, versionId), s₂)

/-- The rows of the process that `finalize_version` reads and writes. -/
def ProcessEntry.records (p : ProcessEntry) : ProcessRecords where
  process := p.process
  versions := p.versions.map StoredVersion.toVersionRow
  steps := p.steps
  attachments := p.attachments

/-- The rows of the process after `finalize_version`, whose `UPDATE` selects
the row of the version. -/
def ProcessEntry.finalized (p : ProcessEntry) (versionId : Uuid) (records : ProcessRecords) :
    Except StoreError ProcessEntry := do
  let versions ← p.versions.mapM fun v =>
    match records.versions.find? fun w => w.id == versionId with
    | some w => if v.id == versionId then updateVersion v { v with toVersionRow := w } else .ok v
    | none => .ok v
  return { p with
    process := records.process
    versions := versions
    steps := records.steps
    attachments := records.attachments }

/-- `finalize_version`: was the version promoted? -/
def Store.finalizeVersion (u : Platform) (s : Store) (processId versionId : Uuid)
    (f : SemanticFields) (now : Timestamp) : Except StoreError (Bool × Store) :=
  match s.processes.find? fun p => p.id == processId with
  | none => .error (.finalize (.lookupError "process does not exist"))
  | some p => do
      let (promoted, records) ←
        (Processes.finalizeVersion u p.records versionId f now).mapError StoreError.finalize
      return (promoted, s.replace (← p.finalized versionId records))

/-- A lawsuit response, as `parse_event` reads it. -/
structure LawsuitEvent where
  code : String
  requestId : String
  callbackId : Option String
  responseId : Option String
  cachedResponse : Bool
  raw : Json
  /-- `parse_event` refuses a response without a stable identifier -/
  stable : (responseId.or callbackId).isSome = true
deriving DecidableEq

/-- The arguments of the webhook's call of `stage_version`. -/
def LawsuitEvent.arguments (e : LawsuitEvent) (webhookTenant : Option Uuid) :
    StageArguments where
  code := e.code
  -- `event.response_id or event.callback_id`
  sourceRequestId := e.responseId.or e.callbackId
  cachedResponse := e.cachedResponse
  payload := e.raw
  juditRequestId := some e.requestId
  juditResponseId := e.responseId
  juditCallbackId := e.callbackId
  tenantId := webhookTenant

/-- `_record_delivery`: the tables with the delivery, unless it was made
before. -/
def Store.recordDelivery (u : Platform) (s : Store) (e : LawsuitEvent) :
    Except StoreError (Option Store) :=
  match e.callbackId with
  | none => .ok (some s)
  | some callbackId => do
      let callbackId ← (textColumn "callback_id" callbackId).mapError StoreError.finalize
      let _ ← (textColumn "request_id" e.requestId).mapError StoreError.finalize
      let _ ← (jsonbColumn u "raw_payload" e.raw).mapError StoreError.finalize
      return if s.deliveries.contains callbackId then none
        else some { s with deliveries := s.deliveries ++ [callbackId] }

/-- A lawsuit response at `judit_webhook`. -/
def Store.webhook (u : Platform) (s : Store) (e : LawsuitEvent) (webhookTenant : Option Uuid)
    (g : Generated) : Except StoreError Store := do
  match ← s.recordDelivery u e with
  | none => return s
  | some recorded => return (← recorded.stageVersion u (e.arguments webhookTenant) g).2

/-! ## §4. Runs. -/

/-- A call. -/
inductive StoreCall where
  | stage (a : StageArguments) (g : Generated)
  | finalize (processId versionId : Uuid) (f : SemanticFields) (now : Timestamp)
  | webhook (e : LawsuitEvent) (webhookTenant : Option Uuid) (g : Generated)

/-- The tables a call commits. -/
def Store.apply (u : Platform) (s : Store) : StoreCall → Except StoreError Store
  | .stage a g => (s.stageVersion u a g).map Prod.snd
  | .finalize processId versionId f now =>
      (s.finalizeVersion u processId versionId f now).map Prod.snd
  | .webhook e webhookTenant g => s.webhook u e webhookTenant g

/-- The tables after a call, which is rolled back when it raises. -/
def Store.next (u : Platform) (s : Store) (call : StoreCall) : Store :=
  match s.apply u call with
  | .ok s' => s'
  | .error _ => s

def Store.step (u : Platform) (s : Store) (call : StoreCall) : Option Store :=
  some (s.next u call)

end Rpy.Processes

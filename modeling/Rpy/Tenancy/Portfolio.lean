/-
  Rpy.Tenancy.Portfolio
  ─────────────────────
  **WHO MAY READ WHICH PROCESS: THE TENANTS' PORTFOLIOS**
  (`tenant_processes`).

  A process enters a tenant's portfolio by four statements: the grant to the
  tenant of the webhook, the two of the trigger on `process_versions`, the
  one of `grant_request_tenants`, and that of `_reconcile_tenant_access`.
  The acquisitions and the trackings they look at go on beside.

    • `Portfolio.receive`  — a lawsuit response of the webhook,
    • `Portfolio.record`   — the acquisition task stores a request id,
    • `Portfolio.step`     — these, and the steps of the trackings' machine.

  `app/api.py` (`judit_webhook`), `app/processes.py` (`stage_version`),
  `app/process_requests.py`, `sql/023_judit_tracking_wiring.sql`.
-/
import Rpy.Lifecycle.Acquisitions
import Rpy.Trackings.Scheduling

namespace Rpy.Tenancy

open Rpy.Foundation
open Rpy.Lifecycle (Acquisition AcquisitionStatus AcquisitionTable)

/-! ## §1. Rows. -/

/-- A lawsuit response, as `parse_event` reads it: the normalised CNJ, the
request id, and the id the version is staged under.  The references are the
payload's. -/
structure LawsuitResponse where
  code : String
  requestId : String
  /-- `event.response_id or event.callback_id` -/
  sourceId : String
  callbackId : Option String := none
  referenceType : Option String := none
  referenceId : Option String := none
deriving Repr, DecidableEq

/-- The trigger's `tracking_reference`. -/
def LawsuitResponse.trackingReference (r : LawsuitResponse) : Option String :=
  if r.referenceType = some "tracking" then r.referenceId.filter (· ≠ "") else none

/-- A `process_versions` row; the code is that of its process. -/
structure ProcessVersion where
  code : String
  sourceRequestId : String
  juditRequestId : String
  /-- that of the payload it holds -/
  trackingReference : Option String
  createdAt : Timestamp
  finalized : Bool := false
deriving Repr, DecidableEq

/-- The tables, with the responses staged so far. -/
structure Portfolio where
  acquisitions : AcquisitionTable := .empty
  tracking : Trackings.System := {}
  versions : List ProcessVersion := []
  /-- `judit_deliveries` -/
  deliveries : List String := []
  /-- `tenant_processes` -/
  grants : List (Uuid × String) := []
  received : List LawsuitResponse := []
deriving DecidableEq

/-! ## §2. Grants. -/

/-- `INSERT INTO tenant_processes … ON CONFLICT DO NOTHING`. -/
def grantProcessAccess (grants : List (Uuid × String)) (code : String) (tenantId : Uuid) :
    List (Uuid × String) :=
  if (tenantId, code) ∈ grants then grants else grants ++ [(tenantId, code)]

/-- The same for the tenants that a `SELECT` returns. -/
def grantAll (grants : List (Uuid × String)) (code : String) (tenants : List Uuid) :
    List (Uuid × String) :=
  tenants.foldl (fun grants tenantId => grantProcessAccess grants code tenantId) grants

theorem mem_grantAll {grants : List (Uuid × String)} {code : String} {tenants : List Uuid}
    {g : Uuid × String} :
    g ∈ grantAll grants code tenants ↔ g ∈ grants ∨ (g.2 = code ∧ g.1 ∈ tenants) := by
  induction tenants generalizing grants with
  | nil => simp [grantAll]
  | cons tenantId tenants ih =>
      have hone : g ∈ grantProcessAccess grants code tenantId ↔
          g ∈ grants ∨ (g.2 = code ∧ g.1 = tenantId) := by
        unfold grantProcessAccess
        obtain ⟨t, c⟩ := g
        by_cases hmem : (tenantId, code) ∈ grants
        · rw [if_pos hmem]
          constructor
          · exact .inl
          · rintro (h | ⟨rfl, rfl⟩)
            · exact h
            · exact hmem
        · rw [if_neg hmem, List.mem_append, List.mem_singleton, Prod.mk.injEq, and_comm (a := t = _)]
      unfold grantAll at ih ⊢
      rw [List.foldl_cons, ih, hone, List.mem_cons]
      tauto

/-! ## §3. The webhook. -/

/-- `(process_id, source_request_id)` of the response. -/
def ProcessVersion.isOf (r : LawsuitResponse) (v : ProcessVersion) : Bool :=
  v.code == r.code && v.sourceRequestId == r.sourceId

/-- The `DO UPDATE` of `stage_version`: a finalized version keeps what it has. -/
def ProcessVersion.restage (r : LawsuitResponse) (v : ProcessVersion) : ProcessVersion :=
  if v.finalized then v
  else { v with juditRequestId := r.requestId, trackingReference := r.trackingReference }

/-- The row the `INSERT` of `stage_version` would write. -/
def LawsuitResponse.version (r : LawsuitResponse) (now : Timestamp) : ProcessVersion where
  code := r.code
  sourceRequestId := r.sourceId
  juditRequestId := r.requestId
  trackingReference := r.trackingReference
  createdAt := now

/-- The upsert of `stage_version`: the row the trigger sees, and the rows. -/
def stageVersion (versions : List ProcessVersion) (r : LawsuitResponse) (now : Timestamp) :
    ProcessVersion × List ProcessVersion :=
  match versions.find? (ProcessVersion.isOf r) with
  | some v => (v.restage r, updateWhere (ProcessVersion.isOf r) (ProcessVersion.restage r) versions)
  | none => (r.version now, versions ++ [r.version now])

/-- `SELECT tenant_id FROM judit_trackings WHERE provider_tracking_id = … AND
status = 'active'`. -/
def trackingTenants (db : Trackings.Database) (reference : String) : List Uuid :=
  (db.trackings.rows.filter (Trackings.Tracking.isActiveAs reference)).map
    Trackings.Tracking.tenantId

/-- `SELECT jt.tenant_id FROM judit_tracking_refreshes jtr JOIN judit_trackings
jt ON jt.id = jtr.tracking_id WHERE jtr.judit_request_id = …`. -/
def refreshTenants (db : Trackings.Database) (requestId : String) : List Uuid :=
  (db.refreshes.rows.filter fun f => f.juditRequestId == some requestId).flatMap fun f =>
    (db.trackings.rows.filter (Trackings.Tracking.isRow f.trackingId)).map
      Trackings.Tracking.tenantId

/-- The tenants that `reconcile_judit_tracking_process_version` grants. -/
def triggerTenants (db : Trackings.Database) (v : ProcessVersion) : List Uuid :=
  (v.trackingReference.toList.flatMap (trackingTenants db)) ++ refreshTenants db v.juditRequestId

/-- `SELECT tenant_id FROM tenant_judit_requests WHERE judit_request_id = $1`. -/
def requestTenants (acquisitions : AcquisitionTable) (requestId : String) : List Uuid :=
  (acquisitions.rows.filter fun a => a.juditRequestId == some requestId).map Acquisition.tenantId

/-- The trigger's `UPDATE judit_trackings SET last_event_at = NOW()`. -/
def markTrackingEvent (tracking : Trackings.System) (v : ProcessVersion) (now : Timestamp) :
    Trackings.System :=
  match v.trackingReference with
  | none => tracking
  | some reference => (tracking.step (.tracked reference now)).getD tracking

/-- `judit_deliveries` has the callback id. -/
def Portfolio.delivered (s : Portfolio) : Option String → Bool
  | none => false
  | some callbackId => s.deliveries.contains callbackId

/-- A lawsuit response: it is staged, and its process granted to the webhook's
tenant, to those the trigger selects, and to those of the request. -/
def Portfolio.receive (webhookTenant : Option Uuid) (s : Portfolio) (r : LawsuitResponse)
    (now : Timestamp) : Portfolio :=
  if s.delivered r.callbackId then s
  else
    let staged := stageVersion s.versions r now
    { s with
      deliveries := s.deliveries ++ r.callbackId.toList
      versions := staged.2
      tracking := markTrackingEvent s.tracking staged.1 now
      grants := grantAll s.grants r.code
        (webhookTenant.toList ++ triggerTenants s.tracking.db staged.1 ++
          requestTenants s.acquisitions r.requestId)
      received := s.received ++ [r] }

/-! ## §4. Acquisitions. -/

/-- `request_process`, as far as its row goes; `none` on a unique violation. -/
def requestProcess (acquisitions : AcquisitionTable) (tenantId : Uuid) (code rowId : String) :
    Option AcquisitionTable :=
  match acquisitions.find? tenantId code with
  | some a =>
      if a.status = .failedRetryable ∧ a.attemptNumber < 100 then some (acquisitions.retry a.id)
      else some acquisitions
  | none => acquisitions.insert rowId tenantId code

/-- `SELECT process_id FROM process_versions WHERE judit_request_id = $1 ORDER
BY created_at DESC LIMIT 1`. -/
def newestProcess (versions : List ProcessVersion) (requestId : String) : Option String :=
  (((versions.filter fun v => v.juditRequestId == requestId).insertionSort
    fun a b => b.createdAt ≤ a.createdAt).head?).map ProcessVersion.code

/-- The transaction of the acquisition task that stores the request id, with
`_reconcile_tenant_access`; `none` on a unique violation. -/
def Portfolio.record (s : Portfolio) (rowId requestId : String) : Option Portfolio :=
  if hne : requestId = "" then none
  else
    match s.acquisitions.record rowId requestId hne with
    | none => none
    | some (none, acquisitions) => some { s with acquisitions := acquisitions }
    | some (some tenantId, acquisitions) =>
        some { s with
          acquisitions := acquisitions
          grants :=
            match newestProcess s.versions requestId with
            | none => s.grants
            | some code => grantProcessAccess s.grants code tenantId }

/-! ## §5. The machine. -/

/-- What can happen. -/
inductive Event where
  /-- a lawsuit callback of the webhook -/
  | receive (response : LawsuitResponse) (now : Timestamp)
  /-- a tenant asks for a lawsuit, or its tracking does -/
  | request (tenantId : Uuid) (code rowId : String)
  /-- the acquisition task, after the provider's answer -/
  | record (rowId requestId : String)
  /-- the acquisition task, after a `JuditRequestError` -/
  | refuse (rowId : String) (status : AcquisitionStatus)
  /-- a version is finalized -/
  | finalize (code sourceRequestId : String)
  /-- a step of the trackings, their tasks and the scheduler -/
  | tracking (e : Trackings.Event)
deriving Repr, DecidableEq

/-- One step. -/
def Portfolio.step (webhookTenant : Option Uuid) (s : Portfolio) : Event → Option Portfolio
  | .receive response now => some (s.receive webhookTenant response now)
  | .request tenantId code rowId =>
      (requestProcess s.acquisitions tenantId code rowId).map fun acquisitions =>
        { s with acquisitions := acquisitions }
  | .record rowId requestId => s.record rowId requestId
  | .refuse rowId status => some { s with acquisitions := s.acquisitions.refuse rowId status }
  | .finalize code sourceRequestId =>
      some { s with
        versions := updateWhere
          (fun v => v.code == code && v.sourceRequestId == sourceRequestId)
          (fun v => { v with finalized := true }) s.versions }
  | .tracking e => (s.tracking.step e).map fun tracking => { s with tracking := tracking }

end Rpy.Tenancy

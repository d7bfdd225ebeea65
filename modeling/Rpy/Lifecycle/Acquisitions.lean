/-
  Rpy.Lifecycle.Acquisitions
  ──────────────────────────
  **THE ACQUISITIONS OF A TENANT AND A LAWSUIT**
  (`tenant_judit_requests`, `app/process_requests.py`).

  One row for each tenant and CNJ, shared by the public requests that are
  linked to it.  The row carries its CHECK constraints and the table its
  unique indexes.

    • `AcquisitionTable.insert`, `.retry`, `.refuse`, `.record` — the
                            statements that write it,
    • `linkSummaryRequest` — a public request joins an acquisition,
    • `transitionRequestsForJuditRequest` — the requests of a Judit request,
    • `AcquisitionTable.record_eq_some` — what recording a request id does.
-/
import Rpy.Lifecycle.PublicRequests

namespace Rpy.Lifecycle

open Rpy.Foundation

/-! ## §1. Rows. -/

/-- `tenant_judit_requests_status_check`. -/
inductive AcquisitionStatus where
  | processing | completed | failedRetryable | failedAmbiguous
deriving Repr, DecidableEq

/-- A row of `tenant_judit_requests`.  The id is the text of a UUID, as it
stands in job payloads. -/
structure Acquisition where
  id : String
  tenantId : Uuid
  processCode : String
  juditRequestId : Option String := none
  status : AcquisitionStatus := .processing
  attemptNumber : Nat := 1
  /-- `tenant_judit_requests_attempt_number_check` -/
  attempt_bounds : 1 ≤ attemptNumber ∧ attemptNumber ≤ 100
  /-- the client returns `request_id.strip()`, and refuses an empty one -/
  request_id_nonempty : juditRequestId ≠ some ""
deriving Repr, DecidableEq

/-- The table, with its primary key and its two UNIQUE constraints. -/
structure AcquisitionTable where
  rows : List Acquisition
  ids_nodup : (rows.map Acquisition.id).Nodup
  pairs_nodup : (rows.map fun a => (a.tenantId, a.processCode)).Nodup
  requestIds_nodup : (rows.filterMap Acquisition.juditRequestId).Nodup
deriving DecidableEq

namespace AcquisitionTable

def empty : AcquisitionTable := ⟨[], List.nodup_nil, List.nodup_nil, List.nodup_nil⟩

/-- `WHERE tenant_id=$1 AND process_code=$2`. -/
def find? (t : AcquisitionTable) (tenantId : Uuid) (code : String) : Option Acquisition :=
  t.rows.find? fun a => a.tenantId == tenantId && a.processCode == code

/-- `WHERE id=$1`. -/
def byId? (t : AcquisitionTable) (id : String) : Option Acquisition :=
  t.rows.find? fun a => a.id == id

/-- An `UPDATE` that writes none of the unique columns. -/
def update (t : AcquisitionTable) (p : Acquisition → Bool) (f : Acquisition → Acquisition)
    (hf : ∀ a, (f a).id = a.id ∧ (f a).tenantId = a.tenantId ∧
      (f a).processCode = a.processCode ∧ (f a).juditRequestId = a.juditRequestId) :
    AcquisitionTable where
  rows := updateWhere p f t.rows
  ids_nodup := by rw [map_updateWhere fun a => (hf a).1]; exact t.ids_nodup
  pairs_nodup := by
    rw [map_updateWhere fun a => by rw [(hf a).2.1, (hf a).2.2.1]]
    exact t.pairs_nodup
  requestIds_nodup := by
    rw [filterMap_updateWhere fun a => (hf a).2.2.2]
    exact t.requestIds_nodup

end AcquisitionTable

/-- The row `request_process` inserts. -/
def Acquisition.new (id : String) (tenantId : Uuid) (code : String) : Acquisition where
  id := id
  tenantId := tenantId
  processCode := code
  attempt_bounds := by decide
  request_id_nonempty := by simp

/-- `SET status='processing', attempt_number=$2`, for a row below the bound. -/
def Acquisition.retried (a : Acquisition) (h : a.attemptNumber < 100) : Acquisition :=
  { a with
    status := .processing
    attemptNumber := a.attemptNumber + 1
    attempt_bounds := ⟨by omega, h⟩ }

/-- `SET judit_request_id=$2, status='processing'`. -/
def Acquisition.recorded (requestId : String) (h : requestId ≠ "") (a : Acquisition) :
    Acquisition :=
  { a with
    juditRequestId := some requestId
    status := .processing
    request_id_nonempty := fun heq => h (Option.some.inj heq) }

/-- `WHERE id=$1 AND judit_request_id IS NULL`. -/
def Acquisition.isOpen (id : String) (a : Acquisition) : Bool :=
  a.id == id && a.juditRequestId.isNone

/-! ## §2. Statements. -/

namespace AcquisitionTable

/-- `INSERT INTO tenant_judit_requests`: `none` on a unique violation. -/
def insert (t : AcquisitionTable) (id : String) (tenantId : Uuid) (code : String) :
    Option AcquisitionTable :=
  if hid : id ∈ t.rows.map Acquisition.id then none
  else if hpair : (tenantId, code) ∈ t.rows.map fun a => (a.tenantId, a.processCode) then none
  else
    some {
      rows := t.rows ++ [.new id tenantId code]
      ids_nodup := by
        rw [List.map_append]
        exact t.ids_nodup.append (List.nodup_singleton _)
          (List.disjoint_singleton.2 hid)
      pairs_nodup := by
        rw [List.map_append]
        exact t.pairs_nodup.append (List.nodup_singleton _)
          (List.disjoint_singleton.2 hpair)
      requestIds_nodup := by
        rw [List.filterMap_append]
        simpa [Acquisition.new] using t.requestIds_nodup }

/-- The retry of a row below the attempt bound. -/
def retry (t : AcquisitionTable) (id : String) : AcquisitionTable :=
  t.update (fun a => a.id == id)
    (fun a => if h : a.attemptNumber < 100 then a.retried h else a)
    fun a => by split <;> exact ⟨rfl, rfl, rfl, rfl⟩

/-- `SET status=$2 WHERE id=$1 AND judit_request_id IS NULL`. -/
def refuse (t : AcquisitionTable) (id : String) (status : AcquisitionStatus) :
    AcquisitionTable :=
  t.update (Acquisition.isOpen id) (fun a => { a with status := status })
    fun _ => ⟨rfl, rfl, rfl, rfl⟩

/-- `SET judit_request_id=$2, status='processing' WHERE id=$1 AND
judit_request_id IS NULL RETURNING tenant_id`: the returned row's tenant;
`none` on a unique violation. -/
def record (t : AcquisitionTable) (id requestId : String) (hne : requestId ≠ "") :
    Option (Option Uuid × AcquisitionTable) :=
  match t.rows.find? (Acquisition.isOpen id) with
  | none => some (none, t)
  | some a =>
      if hused : requestId ∈ t.rows.filterMap Acquisition.juditRequestId then none
      else
        some (some a.tenantId, {
          rows := updateWhere (Acquisition.isOpen id) (Acquisition.recorded requestId hne) t.rows
          ids_nodup := by
            rw [map_updateWhere (f := Acquisition.recorded requestId hne) fun _ => rfl]
            exact t.ids_nodup
          pairs_nodup := by
            rw [map_updateWhere (f := Acquisition.recorded requestId hne) fun _ => rfl]
            exact t.pairs_nodup
          requestIds_nodup :=
            nodup_filterMap_updateWhere (k := id) t.ids_nodup
              (fun b hb => by
                simp only [Acquisition.isOpen, Bool.and_eq_true, beq_iff_eq,
                  Option.isNone_iff_eq_none] at hb
                exact ⟨hb.1, hb.2, rfl⟩)
              t.requestIds_nodup hused })

end AcquisitionTable

/-- `link_summary_request_to_acquisition`: `none` where it raises
`LookupError`. -/
def linkSummaryRequest (t : AcquisitionTable) (requests : List PublicRequest) (requestId : Uuid)
    (tenantId : Uuid) (code acquisition : String) : Option (List PublicRequest) :=
  let selected : PublicRequest → Bool := fun r =>
    r.id == requestId && r.tenantId == tenantId && r.processCode == code &&
      (t.rows.any fun a =>
        a.id == acquisition && a.tenantId == r.tenantId && a.processCode == r.processCode) &&
      (r.acquisition.isNone || r.acquisition == some acquisition)
  if requests.any selected then
    some (updateWhere selected (fun r => { r with acquisition := some acquisition }) requests)
  else none

/-- `transition_requests_for_judit_request`: the requests linked to an
acquisition with that request id. -/
def transitionRequestsForJuditRequest (t : AcquisitionTable) (unseen : List Uuid)
    (requestId : String) (transition : Transition) (now : Timestamp)
    (requests : List PublicRequest) : List PublicRequest :=
  transitionMany
    (fun r => (t.rows.any fun a =>
      r.acquisition == some a.id && a.juditRequestId == some requestId) && !unseen.contains r.id)
    transition now requests

/-! ## §3. What the statements do. -/

section Statements

variable {t t' : AcquisitionTable} {id requestId code : String} {tenantId : Uuid}

/-- Two rows of one id are one row. -/
theorem AcquisitionTable.eq_of_id {a b : Acquisition} (ha : a ∈ t.rows) (hb : b ∈ t.rows)
    (h : a.id = b.id) : a = b :=
  eq_of_nodup_key t.ids_nodup ha hb h

theorem AcquisitionTable.find?_eq_some {a : Acquisition} (h : t.find? tenantId code = some a) :
    a ∈ t.rows ∧ a.tenantId = tenantId ∧ a.processCode = code := by
  have hp := List.find?_some h
  simp only [Bool.and_eq_true, beq_iff_eq] at hp
  exact ⟨List.mem_of_find?_eq_some h, hp.1, hp.2⟩

theorem AcquisitionTable.byId?_eq_some {a : Acquisition} (h : t.byId? id = some a) :
    a ∈ t.rows ∧ a.id = id :=
  ⟨List.mem_of_find?_eq_some h, by simpa using List.find?_some h⟩

/-- The insertion adds the new row. -/
theorem AcquisitionTable.insert_eq_some (h : t.insert id tenantId code = some t') :
    t'.rows = t.rows ++ [.new id tenantId code] ∧ id ∉ t.rows.map Acquisition.id := by
  unfold AcquisitionTable.insert at h
  split at h
  · cases h
  · rename_i hid
    split at h
    · cases h
    · cases h
      exact ⟨rfl, hid⟩

theorem Acquisition.isOpen_iff {a : Acquisition} :
    a.isOpen id = true ↔ a.id = id ∧ a.juditRequestId = none := by
  simp [Acquisition.isOpen]

/-- **What recording a request id does**: nothing if the row has one, else
the row gets an id that no row had. -/
theorem AcquisitionTable.record_eq_some {hne : requestId ≠ ""} {tenant : Option Uuid}
    (h : t.record id requestId hne = some (tenant, t')) :
    (tenant = none ∧ t' = t ∧ ∀ a ∈ t.rows, a.id = id → a.juditRequestId ≠ none) ∨
    (∃ a ∈ t.rows, tenant = some a.tenantId ∧ a.id = id ∧ a.juditRequestId = none ∧
      (∀ b ∈ t.rows, b.juditRequestId ≠ some requestId) ∧
      t'.rows = updateWhere (Acquisition.isOpen id) (Acquisition.recorded requestId hne)
        t.rows) := by
  unfold AcquisitionTable.record at h
  split at h
  · rename_i hfind
    cases h
    refine .inl ⟨rfl, rfl, fun a ha hid hnone => ?_⟩
    exact absurd (Acquisition.isOpen_iff.2 ⟨hid, hnone⟩) (List.find?_eq_none.1 hfind a ha)
  · rename_i a hfind
    split at h
    · cases h
    · rename_i hused
      cases h
      obtain ⟨hid, hnone⟩ := Acquisition.isOpen_iff.1 (List.find?_some hfind)
      refine .inr ⟨a, List.mem_of_find?_eq_some hfind, rfl, hid, hnone, ?_, rfl⟩
      exact fun b hb hsome => hused (List.mem_filterMap.2 ⟨b, hb, hsome⟩)

end Statements

/-! ## §4. What they do to the requests. -/

section Requests

variable {t : AcquisitionTable} {requests requests' : List PublicRequest}
  {acquisition code requestId : String} {tenantId publicId : Uuid} {transition : Transition}
  {now : Timestamp} {unseen : List Uuid}

/-- **A link adds one request to one acquisition.** -/
theorem mem_linkSummaryRequest {r : PublicRequest}
    (h : linkSummaryRequest t requests publicId tenantId code acquisition = some requests')
    (hr : r ∈ requests') :
    r ∈ requests ∨ (r.acquisition = some acquisition ∧ ∃ r₀ ∈ requests, r₀.id = publicId ∧
      r = { r₀ with acquisition := some acquisition } ∧
      (r₀.acquisition = none ∨ r₀.acquisition = some acquisition)) := by
  unfold linkSummaryRequest at h
  simp only at h
  split at h
  · cases h
    rcases mem_updateWhere.1 hr with ⟨r₀, hr₀, hp, rfl⟩ | ⟨hr', -⟩
    · simp only [Bool.and_eq_true, Bool.or_eq_true, beq_iff_eq, Option.isNone_iff_eq_none] at hp
      exact .inr ⟨rfl, r₀, hr₀, hp.1.1.1.1, rfl, hp.2⟩
    · exact .inl hr'
  · cases h

/-- **A terminal target leaves nobody waiting for the request's
acquisitions** but those its `SELECT` missed. -/
theorem missed_of_juditRequest (hterminal : transition.status.terminal = true)
    {a : Acquisition} (ha : a ∈ t.rows) (hrequest : a.juditRequestId = some requestId)
    (h : WaitingFor
      (transitionRequestsForJuditRequest t unseen requestId transition now requests) a.id) :
    Missed unseen requests a.id := by
  refine missed_of_terminal hterminal (fun r _ hlink hseen => ?_) h
  rw [Bool.and_eq_true, List.any_eq_true]
  exact ⟨⟨a, ha, by simp [hlink, hrequest]⟩, by simp [hseen]⟩

/-- A terminal target leaves nobody waiting for the acquisition but those
its `SELECT` missed. -/
theorem missed_of_acquisition (hterminal : transition.status.terminal = true)
    (h : WaitingFor
      (transitionRequestsForAcquisition unseen acquisition transition now requests)
      acquisition) :
    Missed unseen requests acquisition :=
  missed_of_terminal hterminal (fun r _ hlink hseen => by simp [hlink, hseen]) h

end Requests

end Rpy.Lifecycle

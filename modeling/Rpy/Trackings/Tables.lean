/-
  Rpy.Trackings.Tables
  ────────────────────
  **TRACKINGS AND THEIR REFRESHES** (`judit_trackings`,
  `judit_tracking_refreshes`, `app/judit_tracking.py`).

  The rows carry their CHECK constraints and the tables their unique
  indexes; a statement that would break an index is a `none`.

    • `TrackingTable.insert`, `.rewrite`, `.activate` — the statements that
                              write `judit_trackings`,
    • `RefreshTable.insert`, `.close`, `.record`      — those that write
                              `judit_tracking_refreshes`,
    • `TrackingTable.activate_eq_some`, `RefreshTable.record_eq_some` — what
                              the two statements that store a provider's id
                              leave.
-/
import Rpy.Basic
import Rpy.Foundation.Table

namespace Rpy.Trackings

open Rpy.Foundation

/-! ## §1. Trackings. -/

/-- The CHECK of `judit_trackings.status`. -/
inductive TrackingStatus where
  | creating | active | deleting | deleted | failed
deriving Repr, DecidableEq

/-- A row of `judit_trackings`.  The id is the text of a UUID, as it stands
in job payloads. -/
structure Tracking where
  id : String
  tenantId : Uuid
  processCode : String
  providerTrackingId : Option String := none
  status : TrackingStatus := .creating
  recurrenceDays : Int
  attemptNumber : Nat := 1
  lastEventAt : Option Timestamp := none
  lastReconciledAt : Option Timestamp := none
  createdAt : Timestamp
  recurrence_pos : 0 < recurrenceDays
  attempt_pos : 0 < attemptNumber
deriving Repr, DecidableEq

/-- The table, with its primary key and its two UNIQUE constraints. -/
structure TrackingTable where
  rows : List Tracking
  ids_nodup : (rows.map Tracking.id).Nodup
  pairs_nodup : (rows.map fun t => (t.tenantId, t.processCode)).Nodup
  providers_nodup : (rows.filterMap Tracking.providerTrackingId).Nodup
deriving DecidableEq

/-- The row `create_tracking` inserts. -/
def Tracking.new (id : String) (tenantId : Uuid) (code : String) (recurrenceDays : Int)
    (h : 0 < recurrenceDays) (now : Timestamp) : Tracking where
  id := id
  tenantId := tenantId
  processCode := code
  recurrenceDays := recurrenceDays
  createdAt := now
  recurrence_pos := h
  attempt_pos := by decide

/-- `create_tracking`'s assignment for a failed or deleted row. -/
def Tracking.recreated (recurrenceDays : Int) (h : 0 < recurrenceDays) (t : Tracking) :
    Tracking :=
  { t with
    status := .creating
    providerTrackingId := none
    recurrenceDays := recurrenceDays
    attemptNumber := t.attemptNumber + 1
    lastEventAt := none
    recurrence_pos := h
    attempt_pos := Nat.succ_pos _ }

/-- `delete_tracking`'s assignment. -/
def Tracking.deleting (t : Tracking) : Tracking :=
  { t with
    status := .deleting
    attemptNumber := t.attemptNumber + 1
    attempt_pos := Nat.succ_pos _ }

/-- `create_judit_tracking_task`'s assignment after a `JuditRequestError`. -/
def Tracking.refused (t : Tracking) : Tracking :=
  { t with status := .failed }

/-- Its assignment after the provider's answer. -/
def Tracking.activated (providerId : String) (t : Tracking) : Tracking :=
  { t with providerTrackingId := some providerId, status := .active }

/-- `delete_judit_tracking_task`'s assignment. -/
def Tracking.dropped (t : Tracking) : Tracking :=
  { t with status := .deleted, providerTrackingId := none }

/-- `last_event_at = NOW()`. -/
def Tracking.sawEvent (now : Timestamp) (t : Tracking) : Tracking :=
  { t with lastEventAt := some now }

/-- `last_reconciled_at = NOW()`. -/
def Tracking.reconciled (now : Timestamp) (t : Tracking) : Tracking :=
  { t with lastReconciledAt := some now }

/-- `WHERE id=$1`. -/
def Tracking.isRow (id : String) (t : Tracking) : Bool :=
  t.id == id

/-- `WHERE id=$1 AND status='creating'`. -/
def Tracking.isCreating (id : String) (t : Tracking) : Bool :=
  t.id == id && t.status == .creating

/-- `WHERE provider_tracking_id=$1 AND status='active'`. -/
def Tracking.isActiveAs (providerId : String) (t : Tracking) : Bool :=
  t.providerTrackingId == some providerId && t.status == .active

namespace TrackingTable

def empty : TrackingTable := ⟨[], List.nodup_nil, .nil, List.nodup_nil⟩

/-- `WHERE tenant_id=$1 AND process_code=$2`. -/
def find? (t : TrackingTable) (tenantId : Uuid) (code : String) : Option Tracking :=
  t.rows.find? fun r => r.tenantId == tenantId && r.processCode == code

/-- `WHERE id=$1`. -/
def byId? (t : TrackingTable) (id : String) : Option Tracking :=
  t.rows.find? (Tracking.isRow id)

/-- `INSERT INTO judit_trackings`: `none` on a unique violation. -/
def insert (t : TrackingTable) (r : Tracking) (hnew : r.providerTrackingId = none) :
    Option TrackingTable :=
  if hid : r.id ∈ t.rows.map Tracking.id then none
  else if hpair : (r.tenantId, r.processCode) ∈ t.rows.map fun t => (t.tenantId, t.processCode)
    then none
  else
    some {
      rows := t.rows ++ [r]
      ids_nodup := by
        rw [List.map_append]
        exact t.ids_nodup.append (List.nodup_singleton _) (List.disjoint_singleton.2 hid)
      pairs_nodup := by
        rw [List.map_append]
        exact t.pairs_nodup.append (List.nodup_singleton _) (List.disjoint_singleton.2 hpair)
      providers_nodup := by
        rw [List.filterMap_append]
        simpa [hnew] using t.providers_nodup }

/-- An `UPDATE` that keeps the keys, and keeps or clears the provider's id. -/
def rewrite (t : TrackingTable) (p : Tracking → Bool) (f : Tracking → Tracking)
    (hf : ∀ r, (f r).id = r.id ∧ (f r).tenantId = r.tenantId ∧
      (f r).processCode = r.processCode)
    (hprovider : ∀ r, (f r).providerTrackingId = r.providerTrackingId ∨
      (f r).providerTrackingId = none) : TrackingTable where
  rows := updateWhere p f t.rows
  ids_nodup := by rw [map_updateWhere fun r => (hf r).1]; exact t.ids_nodup
  pairs_nodup := by
    rw [map_updateWhere fun r => by rw [(hf r).2.1, (hf r).2.2]]
    exact t.pairs_nodup
  providers_nodup := (filterMap_updateWhere_sublist hprovider t.rows).nodup t.providers_nodup

/-- `SET provider_tracking_id=$2, status='active' WHERE id=$1 AND
status='creating'`: `none` on a unique violation. -/
def activate (t : TrackingTable) (id providerId : String) : Option TrackingTable :=
  if h : ((updateWhere (Tracking.isCreating id) (Tracking.activated providerId)
      t.rows).filterMap Tracking.providerTrackingId).Nodup then
    some {
      rows := updateWhere (Tracking.isCreating id) (Tracking.activated providerId) t.rows
      ids_nodup := by
        rw [map_updateWhere (f := Tracking.activated providerId) fun _ => rfl]
        exact t.ids_nodup
      pairs_nodup := by
        rw [map_updateWhere (f := Tracking.activated providerId) fun _ => rfl]
        exact t.pairs_nodup
      providers_nodup := h }
  else none

/-- `create_tracking`'s `UPDATE`. -/
def recreate (t : TrackingTable) (id : String) (recurrenceDays : Int) (h : 0 < recurrenceDays) :
    TrackingTable :=
  t.rewrite (Tracking.isRow id) (Tracking.recreated recurrenceDays h)
    (fun _ => ⟨rfl, rfl, rfl⟩) fun _ => .inr rfl

/-- `delete_tracking`'s `UPDATE`. -/
def startDelete (t : TrackingTable) (id : String) : TrackingTable :=
  t.rewrite (Tracking.isRow id) Tracking.deleting (fun _ => ⟨rfl, rfl, rfl⟩) fun _ => .inl rfl

/-- `SET status='failed' WHERE id=$1 AND status='creating'`. -/
def refuse (t : TrackingTable) (id : String) : TrackingTable :=
  t.rewrite (Tracking.isCreating id) Tracking.refused (fun _ => ⟨rfl, rfl, rfl⟩)
    fun _ => .inl rfl

/-- `SET status='deleted', provider_tracking_id=NULL WHERE id=$1`. -/
def drop (t : TrackingTable) (id : String) : TrackingTable :=
  t.rewrite (Tracking.isRow id) Tracking.dropped (fun _ => ⟨rfl, rfl, rfl⟩) fun _ => .inr rfl

/-- The `UPDATE` of the trigger on `process_versions`, and of
`mark_tracking_event`. -/
def sawEvent (t : TrackingTable) (providerId : String) (now : Timestamp) : TrackingTable :=
  t.rewrite (Tracking.isActiveAs providerId) (Tracking.sawEvent now)
    (fun _ => ⟨rfl, rfl, rfl⟩) fun _ => .inl rfl

/-- The scheduler's `UPDATE`. -/
def reconcile (t : TrackingTable) (id : String) (now : Timestamp) : TrackingTable :=
  t.rewrite (Tracking.isRow id) (Tracking.reconciled now) (fun _ => ⟨rfl, rfl, rfl⟩)
    fun _ => .inl rfl

end TrackingTable

/-! ## §2. Refreshes. -/

/-- The CHECK of `judit_tracking_refreshes.status`. -/
inductive RefreshStatus where
  | pending | processing | completed | failedRetryable | failedAmbiguous
deriving Repr, DecidableEq

/-- A row of `judit_tracking_refreshes`. -/
structure Refresh where
  id : String
  trackingId : String
  juditRequestId : Option String := none
  status : RefreshStatus := .pending
  reason : String := "stale_tracking"
  createdAt : Timestamp
  completedAt : Option Timestamp := none
deriving Repr, DecidableEq

/-- `status IN ('pending', 'processing')`. -/
def Refresh.isOpen (r : Refresh) : Bool :=
  r.status == .pending || r.status == .processing

/-- The column of `judit_tracking_refreshes_one_open_idx`. -/
def Refresh.openTracking (r : Refresh) : Option String :=
  if r.isOpen then some r.trackingId else none

/-- The table, with its primary key and its two unique indexes. -/
structure RefreshTable where
  rows : List Refresh
  ids_nodup : (rows.map Refresh.id).Nodup
  requestIds_nodup : (rows.filterMap Refresh.juditRequestId).Nodup
  one_open : (rows.filterMap Refresh.openTracking).Nodup
deriving DecidableEq

/-- `refresh_judit_tracking_task`'s assignment after the provider's answer. -/
def Refresh.recorded (requestId : String) (r : Refresh) : Refresh :=
  { r with juditRequestId := some requestId, status := .processing }

/-- Its assignment after a `JuditRequestError`. -/
def Refresh.refused (retrySafe : Bool) (r : Refresh) : Refresh :=
  { r with status := if retrySafe then .failedRetryable else .failedAmbiguous }

/-- The assignment of `complete_judit_tracking_refresh`. -/
def Refresh.completed (now : Timestamp) (r : Refresh) : Refresh :=
  { r with status := .completed, completedAt := some (r.completedAt.getD now) }

/-- `WHERE id=$1 AND judit_request_id IS NULL`. -/
def Refresh.isUnrecorded (id : String) (r : Refresh) : Bool :=
  r.id == id && r.juditRequestId.isNone

namespace RefreshTable

def empty : RefreshTable := ⟨[], List.nodup_nil, List.nodup_nil, List.nodup_nil⟩

/-- `INSERT … ON CONFLICT (tracking_id) WHERE status IN ('pending',
'processing') DO NOTHING RETURNING id`, under an id of `gen_random_uuid()`:
was a row inserted? -/
def insert (t : RefreshTable) (id trackingId : String) (now : Timestamp) :
    Option (Bool × RefreshTable) :=
  if hopen : trackingId ∈ t.rows.filterMap Refresh.openTracking then some (false, t)
  else if hid : id ∈ t.rows.map Refresh.id then none
  else
    some (true, {
      rows := t.rows ++ [{ id := id, trackingId := trackingId, createdAt := now }]
      ids_nodup := by
        rw [List.map_append]
        exact t.ids_nodup.append (List.nodup_singleton _) (List.disjoint_singleton.2 hid)
      requestIds_nodup := by
        rw [List.filterMap_append]
        simpa using t.requestIds_nodup
      one_open := by
        rw [List.filterMap_append]
        exact t.one_open.append (List.nodup_singleton _) (List.disjoint_singleton.2 hopen) })

/-- An `UPDATE` that keeps the keys, and closes the rows it selects. -/
def close (t : RefreshTable) (p : Refresh → Bool) (f : Refresh → Refresh)
    (hf : ∀ r, (f r).id = r.id ∧ (f r).juditRequestId = r.juditRequestId)
    (hclosed : ∀ r, (f r).isOpen = false) : RefreshTable where
  rows := updateWhere p f t.rows
  ids_nodup := by rw [map_updateWhere fun r => (hf r).1]; exact t.ids_nodup
  requestIds_nodup := by
    rw [filterMap_updateWhere fun r => (hf r).2]
    exact t.requestIds_nodup
  one_open := by
    refine (filterMap_updateWhere_sublist (fun r => .inr ?_) t.rows).nodup t.one_open
    unfold Refresh.openTracking
    rw [hclosed r, if_neg (by simp)]

/-- `SET status=$2 WHERE id=$1 AND judit_request_id IS NULL`. -/
def refuse (t : RefreshTable) (id : String) (retrySafe : Bool) : RefreshTable :=
  t.close (Refresh.isUnrecorded id) (Refresh.refused retrySafe) (fun _ => ⟨rfl, rfl⟩)
    fun _ => by cases retrySafe <;> rfl

/-- The `UPDATE` of `complete_judit_tracking_refresh`, which does not see the
rows of `unseen`. -/
def complete (t : RefreshTable) (requestId : String) (unseen : List String) (now : Timestamp) :
    RefreshTable :=
  t.close (fun r => r.juditRequestId == some requestId && r.isOpen && !unseen.contains r.id)
    (Refresh.completed now) (fun _ => ⟨rfl, rfl⟩) fun _ => rfl

/-- `SET judit_request_id=$2, status='processing' WHERE id=$1 AND
judit_request_id IS NULL`: `none` on a unique violation. -/
def record (t : RefreshTable) (id requestId : String) : Option RefreshTable :=
  if h : ((updateWhere (Refresh.isUnrecorded id) (Refresh.recorded requestId)
        t.rows).filterMap Refresh.juditRequestId).Nodup ∧
      ((updateWhere (Refresh.isUnrecorded id) (Refresh.recorded requestId)
        t.rows).filterMap Refresh.openTracking).Nodup then
    some {
      rows := updateWhere (Refresh.isUnrecorded id) (Refresh.recorded requestId) t.rows
      ids_nodup := by
        rw [map_updateWhere (f := Refresh.recorded requestId) fun _ => rfl]
        exact t.ids_nodup
      requestIds_nodup := h.1
      one_open := h.2 }
  else none

end RefreshTable

/-! ## §3. What the statements do. -/

section Statements

variable {t t' : TrackingTable} {u u' : RefreshTable} {id providerId requestId : String}

/-- Two rows of one id are one row. -/
theorem TrackingTable.eq_of_id {a b : Tracking} (ha : a ∈ t.rows) (hb : b ∈ t.rows)
    (h : a.id = b.id) : a = b :=
  eq_of_nodup_key t.ids_nodup ha hb h

/-- A row that is found by tenant and process is one of them. -/
theorem TrackingTable.find?_eq_some {r : Tracking} {tenantId : Uuid} {code : String}
    (h : t.find? tenantId code = some r) :
    r ∈ t.rows ∧ r.tenantId = tenantId ∧ r.processCode = code := by
  have hp := List.find?_some h
  simp only [Bool.and_eq_true, beq_iff_eq] at hp
  exact ⟨List.mem_of_find?_eq_some h, hp.1, hp.2⟩

/-- A row that is found by its id has that id. -/
theorem TrackingTable.byId?_eq_some {r : Tracking} (h : t.byId? id = some r) :
    r ∈ t.rows ∧ r.id = id :=
  ⟨List.mem_of_find?_eq_some h, by simpa [Tracking.isRow] using List.find?_some h⟩

/-- An insertion adds a row with a new id. -/
theorem TrackingTable.insert_eq_some {r : Tracking} {hnew : r.providerTrackingId = none}
    (h : t.insert r hnew = some t') :
    t'.rows = t.rows ++ [r] ∧ r.id ∉ t.rows.map Tracking.id := by
  unfold TrackingTable.insert at h
  split at h
  · cases h
  · rename_i hid
    split at h
    · cases h
    · cases h
      exact ⟨rfl, hid⟩

/-- **Storing the provider's id** rewrites the row that is being created. -/
theorem TrackingTable.activate_eq_some (h : t.activate id providerId = some t') :
    t'.rows = updateWhere (Tracking.isCreating id) (Tracking.activated providerId) t.rows := by
  unfold TrackingTable.activate at h
  split at h
  · cases h
    rfl
  · cases h

/-- The row that is being created. -/
theorem Tracking.isCreating_iff {r : Tracking} :
    r.isCreating id = true ↔ r.id = id ∧ r.status = .creating := by
  simp [Tracking.isCreating]

/-- The refresh that has no request yet. -/
theorem Refresh.isUnrecorded_iff {r : Refresh} :
    r.isUnrecorded id = true ↔ r.id = id ∧ r.juditRequestId = none := by
  simp [Refresh.isUnrecorded]

/-- Two refreshes of one id are one row. -/
theorem RefreshTable.eq_of_id {a b : Refresh} (ha : a ∈ u.rows) (hb : b ∈ u.rows)
    (h : a.id = b.id) : a = b :=
  eq_of_nodup_key u.ids_nodup ha hb h

/-- An insertion adds an open refresh, or finds one open already. -/
theorem RefreshTable.insert_eq_some {trackingId : String} {now : Timestamp} {inserted : Bool}
    (h : u.insert id trackingId now = some (inserted, u')) :
    (inserted = false ∧ u' = u) ∨
    (inserted = true ∧ id ∉ u.rows.map Refresh.id ∧
      u'.rows = u.rows ++ [{ id := id, trackingId := trackingId, createdAt := now }]) := by
  unfold RefreshTable.insert at h
  split at h
  · cases h
    exact .inl ⟨rfl, rfl⟩
  · split at h
    · cases h
    · rename_i hid
      cases h
      exact .inr ⟨rfl, hid, rfl⟩

/-- **Recording the request** rewrites the refresh that has none. -/
theorem RefreshTable.record_eq_some (h : u.record id requestId = some u') :
    u'.rows = updateWhere (Refresh.isUnrecorded id) (Refresh.recorded requestId) u.rows := by
  unfold RefreshTable.record at h
  split at h
  · cases h
    rfl
  · cases h

end Statements

end Rpy.Trackings

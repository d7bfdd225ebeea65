/-
  Rpy.Tenancy.Listing
  ───────────────────
  **THE TRACKINGS A PRINCIPAL SEES, AND THOSE IT MAY REMOVE**
  (`app/tracking_api.py`; `list_trackings` and `get_tracking` of
  `app/judit_tracking.py`; `authorize_api_key_process` of
  `app/api_key_auth.py`).

  A bearer user lists what `list_trackings` returns.  For an API key there
  is a query of its own, in which the restrictions of the key are a `JOIN`;
  it has no `status <> 'deleted'`.

    • `visibleTrackings`           — the list endpoint,
    • `authorizeApiKeyProcess`     — what a key is admitted to,
    • `removableTracking`          — the checks of the single-item endpoint,
    • `visible_iff_removable`      — when the two agree.

  The `access_log` rows are left out.
-/
import Mathlib.Data.List.Sort
import Rpy.Trackings.Tables

namespace Rpy.Tenancy

open Rpy.Foundation
open Rpy.Trackings (Tracking TrackingStatus TrackingTable)

/-! ## §1. Tables. -/

/-- An `api_keys` row. -/
structure ApiKey where
  id : Uuid
  tenantId : Uuid
  allowPortfolio : Bool := false
deriving Repr, DecidableEq

/-- A `processes` row. -/
structure Process where
  id : Uuid
  code : String
deriving Repr, DecidableEq

/-- The tables that say who may see what. -/
structure AccessTables where
  trackings : TrackingTable := .empty
  apiKeys : List ApiKey := []
  /-- `api_key_cnj_scopes` -/
  scopes : List (Uuid × String) := []
  processes : List Process := []
  /-- `tenant_processes` -/
  tenantProcesses : List (Uuid × Uuid) := []
  keys_nodup : (apiKeys.map ApiKey.id).Nodup := by decide

/-- Who makes a request: an API key, or a bearer user of the tenant. -/
structure RequestPrincipal where
  tenantId : Uuid
  apiKeyId : Option Uuid := none
deriving Repr, DecidableEq

structure HTTPException where
  statusCode : Nat
  detail : String
deriving Repr, DecidableEq

section Queries

variable (db : AccessTables)

/-- `EXISTS (SELECT 1 FROM api_key_cnj_scopes …)` -/
def explicitScope (keyId : Uuid) (code : String) : Bool :=
  db.scopes.any fun s => s.1 == keyId && s.2 == code

/-- `EXISTS (SELECT 1 FROM tenant_processes tp JOIN processes p …)` -/
def portfolioScope (tenantId : Uuid) (code : String) : Bool :=
  db.tenantProcesses.any fun tp =>
    db.processes.any fun p => p.id == tp.2 && (tp.1 == tenantId && p.code == code)

/-- `ORDER BY created_at, id` -/
def Listed (t t' : Tracking) : Prop :=
  t.createdAt < t'.createdAt ∨ (t.createdAt = t'.createdAt ∧ t.id ≤ t'.id)

instance : DecidableRel Listed := fun _ _ => inferInstanceAs (Decidable (_ ∨ _ ∧ _))

def listTrackings (tenantId : Uuid) : List Tracking :=
  (db.trackings.rows.filter fun t => t.tenantId == tenantId && t.status != .deleted).insertionSort
    fun t t' => Listed t' t

def getTracking (tenantId : Uuid) (trackingId : String) : Option Tracking :=
  db.trackings.rows.find? fun t =>
    t.tenantId == tenantId && (t.id == trackingId && t.status != .deleted)

/-- The query of `_visible_trackings`: the trackings joined with the key. -/
def keyTrackings (tenantId keyId : Uuid) : List Tracking :=
  (db.trackings.rows.flatMap fun jt =>
    (db.apiKeys.filter fun ak =>
      (ak.id == keyId && ak.tenantId == jt.tenantId) && (jt.tenantId == tenantId &&
        (explicitScope db ak.id jt.processCode ||
          (ak.allowPortfolio && portfolioScope db jt.tenantId jt.processCode)))).map
      fun _ => jt).insertionSort Listed

/-- `_visible_trackings` -/
def visibleTrackings (principal : RequestPrincipal) : List Tracking :=
  match principal.apiKeyId with
  | none => listTrackings db principal.tenantId
  | some keyId => keyTrackings db principal.tenantId keyId

def authorizeApiKeyProcess (principal : RequestPrincipal) (code : String) :
    Except HTTPException RequestPrincipal :=
  match principal.apiKeyId with
  | none => .ok principal
  | some keyId =>
      match db.apiKeys.find? fun ak => ak.id == keyId && ak.tenantId == principal.tenantId with
      | none => .error ⟨401, "invalid API key"⟩
      | some key =>
          if explicitScope db keyId code ||
              (key.allowPortfolio && portfolioScope db principal.tenantId code) then
            .ok principal
          else .error ⟨404, "process not found"⟩

/-- The checks of `remove_process_tracking`, and the row they are about. -/
def removableTracking (principal : RequestPrincipal) (trackingId : String) :
    Except HTTPException Tracking :=
  match getTracking db principal.tenantId trackingId with
  | none => .error ⟨404, "tracking not found"⟩
  | some row => (authorizeApiKeyProcess db principal row.processCode).map fun _ => row

end Queries

/-! ## §2. What they return. -/

/-- The key of a principal is one of its tenant, and admits it to a process. -/
def KeyAdmits (db : AccessTables) (principal : RequestPrincipal) (keyId : Uuid)
    (code : String) : Prop :=
  ∃ ak ∈ db.apiKeys, ak.id = keyId ∧ ak.tenantId = principal.tenantId ∧
    (explicitScope db keyId code = true ∨
      (ak.allowPortfolio = true ∧ portfolioScope db principal.tenantId code = true))

section Agreement

variable {db : AccessTables} {principal : RequestPrincipal} {t : Tracking}

theorem mem_listTrackings : t ∈ listTrackings db principal.tenantId ↔
    t ∈ db.trackings.rows ∧ t.tenantId = principal.tenantId ∧ t.status ≠ .deleted := by
  unfold listTrackings
  rw [List.mem_insertionSort, List.mem_filter, Bool.and_eq_true, beq_iff_eq, bne_iff_ne]

theorem mem_keyTrackings {keyId : Uuid} : t ∈ keyTrackings db principal.tenantId keyId ↔
    t ∈ db.trackings.rows ∧ t.tenantId = principal.tenantId ∧
      KeyAdmits db principal keyId t.processCode := by
  unfold keyTrackings KeyAdmits
  rw [List.mem_insertionSort, List.mem_flatMap]
  simp only [List.mem_map, List.mem_filter, Bool.and_eq_true, Bool.or_eq_true, beq_iff_eq]
  constructor
  · rintro ⟨jt, hrow, ak, ⟨hak, ⟨rfl, hsame⟩, htenant, hscope⟩, rfl⟩
    rw [htenant] at hsame hscope
    exact ⟨hrow, htenant, ak, hak, rfl, hsame, hscope⟩
  · rintro ⟨hrow, htenant, ak, hak, rfl, hsame, hscope⟩
    refine ⟨t, hrow, ak, ⟨hak, ⟨rfl, hsame.trans htenant.symm⟩, htenant, ?_⟩, rfl⟩
    rw [htenant]
    exact hscope

/-- **What a key is admitted to.** -/
theorem authorize_isOk_iff {keyId : Uuid} {code : String} (h : principal.apiKeyId = some keyId) :
    (∃ p, authorizeApiKeyProcess db principal code = .ok p) ↔
      KeyAdmits db principal keyId code := by
  unfold authorizeApiKeyProcess
  rw [h]
  dsimp only
  cases hkey : db.apiKeys.find? fun ak => ak.id == keyId && ak.tenantId == principal.tenantId with
  | none =>
      refine ⟨fun ⟨_, hok⟩ => (nomatch hok), fun ⟨ak, hak, hid, htenant, _⟩ => ?_⟩
      have hno := List.find?_eq_none.1 hkey ak hak
      rw [hid, htenant, beq_self_eq_true, beq_self_eq_true] at hno
      exact absurd rfl hno
  | some key =>
      have hmem := List.mem_of_find?_eq_some hkey
      have hfound := List.find?_some hkey
      rw [Bool.and_eq_true, beq_iff_eq, beq_iff_eq] at hfound
      dsimp only
      constructor
      · rintro ⟨p, hok⟩
        split at hok
        · rename_i hscope
          rw [Bool.or_eq_true, Bool.and_eq_true] at hscope
          exact ⟨key, hmem, hfound.1, hfound.2, hscope⟩
        · cases hok
      · rintro ⟨ak, hak, hid, -, hscope⟩
        obtain rfl : ak = key := List.inj_on_of_nodup_map db.keys_nodup hak hmem
          (hid.trans hfound.1.symm)
        rw [← Bool.and_eq_true, ← Bool.or_eq_true] at hscope
        exact ⟨principal, if_pos hscope⟩

theorem getTracking_self : getTracking db principal.tenantId t.id = some t ↔
    t ∈ db.trackings.rows ∧ t.tenantId = principal.tenantId ∧ t.status ≠ .deleted := by
  unfold getTracking
  constructor
  · intro h
    have hfound := List.find?_some h
    rw [Bool.and_eq_true, Bool.and_eq_true, beq_iff_eq, bne_iff_ne] at hfound
    exact ⟨List.mem_of_find?_eq_some h, hfound.1, hfound.2.2⟩
  · rintro ⟨hrow, htenant, hstatus⟩
    refine find?_eq_some_of_unique hrow ?_ fun r hr hp => ?_
    · rw [htenant, beq_self_eq_true, beq_self_eq_true, bne_iff_ne.2 hstatus]
      rfl
    · rw [Bool.and_eq_true, Bool.and_eq_true, beq_iff_eq, beq_iff_eq] at hp
      exact db.trackings.eq_of_id hr hrow hp.2.1

theorem removableTracking_eq_ok : removableTracking db principal t.id = .ok t ↔
    getTracking db principal.tenantId t.id = some t ∧
      ∃ p, authorizeApiKeyProcess db principal t.processCode = .ok p := by
  unfold removableTracking
  cases hget : getTracking db principal.tenantId t.id with
  | none => exact ⟨fun h => (nomatch h), fun h => (nomatch h.1)⟩
  | some row =>
      dsimp only
      constructor
      · intro h
        cases hauth : authorizeApiKeyProcess db principal row.processCode with
        | error e =>
            rw [hauth] at h
            cases h
        | ok p =>
            rw [hauth] at h
            obtain rfl := Except.ok.inj h
            exact ⟨rfl, p, hauth⟩
      · rintro ⟨hrow, p, hauth⟩
        obtain rfl := Option.some.inj hrow
        rw [hauth]
        rfl

/-- **The two endpoints agree for a bearer user, and for a key that is admitted
to no process with a deleted tracking.** -/
theorem visible_iff_removable (db : AccessTables) (principal : RequestPrincipal) :
    (∀ t, t ∈ visibleTrackings db principal ↔ removableTracking db principal t.id = .ok t) ↔
      ∀ keyId, principal.apiKeyId = some keyId → ∀ t ∈ db.trackings.rows,
        t.tenantId = principal.tenantId → t.status = .deleted →
          ¬KeyAdmits db principal keyId t.processCode := by
  cases hkey : principal.apiKeyId with
  | none =>
      refine ⟨fun _ keyId h => (nomatch h), fun _ t => ?_⟩
      unfold visibleTrackings
      rw [hkey, removableTracking_eq_ok, getTracking_self]
      refine mem_listTrackings.trans (and_iff_left ⟨principal, ?_⟩).symm
      unfold authorizeApiKeyProcess
      rw [hkey]
  | some keyId =>
      have hvisible : ∀ t, t ∈ visibleTrackings db principal ↔ t ∈ db.trackings.rows ∧
          t.tenantId = principal.tenantId ∧ KeyAdmits db principal keyId t.processCode := by
        intro t
        unfold visibleTrackings
        rw [hkey]
        exact mem_keyTrackings
      have hremovable : ∀ t, removableTracking db principal t.id = .ok t ↔
          (t ∈ db.trackings.rows ∧ t.tenantId = principal.tenantId ∧ t.status ≠ .deleted) ∧
            KeyAdmits db principal keyId t.processCode := by
        intro t
        rw [removableTracking_eq_ok, getTracking_self, authorize_isOk_iff hkey]
      constructor
      · intro h keyId' hkeyId t hrow htenant hdeleted hadmits
        obtain rfl := Option.some.inj hkeyId
        exact ((hremovable t).1 ((h t).1 ((hvisible t).2 ⟨hrow, htenant, hadmits⟩))).1.2.2 hdeleted
      · intro h t
        rw [hvisible, hremovable]
        constructor
        · rintro ⟨hrow, htenant, hadmits⟩
          exact ⟨⟨hrow, htenant, fun hdeleted => h keyId rfl t hrow htenant hdeleted hadmits⟩,
            hadmits⟩
        · rintro ⟨⟨hrow, htenant, -⟩, hadmits⟩
          exact ⟨hrow, htenant, hadmits⟩

end Agreement

/-- A tracking that is deleted. -/
def deletedTracking : Tracking :=
  { id := "00000000-0000-0000-0000-000000000001", tenantId := 1
    processCode := "0000001-01.2024.8.26.0001", status := .deleted, recurrenceDays := 1
    createdAt := 0, recurrence_pos := by decide, attempt_pos := Nat.one_pos }

/-- A key of the tenant, with the process of that tracking in its scopes. -/
def deletedTables : AccessTables where
  trackings := ⟨[deletedTracking], by decide, by decide, by decide⟩
  apiKeys := [{ id := 2, tenantId := 1 }]
  scopes := [(2, "0000001-01.2024.8.26.0001")]

/-- **A key lists a tracking that it is refused.** -/
theorem not_visible_iff_removable : ¬ ∀ (db : AccessTables) (principal : RequestPrincipal) t,
    t ∈ visibleTrackings db principal ↔ removableTracking db principal t.id = .ok t := by
  intro h
  have hlisted : deletedTracking ∈ visibleTrackings deletedTables ⟨1, some 2⟩ := by decide
  have hrefused : removableTracking deletedTables ⟨1, some 2⟩ deletedTracking.id =
      .error ⟨404, "tracking not found"⟩ := by decide
  have hremovable := (h deletedTables ⟨1, some 2⟩ deletedTracking).1 hlisted
  rw [hrefused] at hremovable
  cases hremovable

end Rpy.Tenancy

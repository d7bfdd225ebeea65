/-
  Rpy.Lifecycle.Archive
  ─────────────────────
  **PROCESSES, THEIR VERSIONS AND WHO MAY READ THEM, AS THE PIPELINE NEEDS
  THEM** (`app/processes.py`, `app/scheduler.py`).

  What a version's payload says is reduced to what the pipeline branches
  on: is there response data, and how does `finalize_version` compare it
  with the current version.

    • `Archive.stage`           — `stage_version`,
    • `preferredJuditVersion`   — the version a finalization reads,
    • `Archive.finalizeVersion` — `finalize_version`,
    • `Archive.expunge`         — the scheduler's `expurgar`,
    • `Archive.Serves`          — a tenant is granted a process of the
                                  lawsuit that has a current version; all
                                  but the expunge keep it.
-/
import Rpy.Basic
import Rpy.Foundation.Table
import Mathlib.Data.List.Basic

namespace Rpy.Lifecycle

open Rpy.Foundation

/-! ## §1. Rows. -/

/-- A row of `processes`. -/
structure Process where
  id : String
  code : String
  currentVersionId : Option String := none
deriving Repr, DecidableEq

/-- A row of `process_versions`. -/
structure Version where
  id : String
  processId : String
  sourceRequestId : String
  juditRequestId : Option String := none
  cachedResponse : Bool := false
  /-- `parse_event(source_payload).response_data` is not empty -/
  responseData : Bool
  createdAt : Timestamp
  finalized : Bool := false
  equivalentToVersionId : Option String := none
deriving Repr, DecidableEq

/-- The two tables, and `tenant_processes`. -/
structure Archive where
  processes : List Process := []
  versions : List Version := []
  grants : List (Uuid × String) := []
deriving Repr, DecidableEq

/-- A lawsuit response, as `parse_event` reads it, with
`source_id = event.response_id or event.callback_id`. -/
structure LawsuitResponse where
  code : String
  sourceId : String
  juditRequestId : Option String
  cachedResponse : Bool := false
  responseData : Bool := true
  /-- `webhook_tenant_id`, and the tenants the tracking trigger grants -/
  tenants : List Uuid := []
deriving Repr, DecidableEq

/-! ## §2. Statements. -/

/-- `INSERT INTO tenant_processes … ON CONFLICT DO NOTHING`. -/
def Archive.grant (s : Archive) (tenants : List Uuid) (processId : String) : Archive :=
  { s with grants := s.grants ++ tenants.map fun tenant => (tenant, processId) }

/-- `ON CONFLICT (process_id, source_request_id) DO UPDATE`: a finalized
version keeps what it has. -/
def Version.restage (e : LawsuitResponse) (v : Version) : Version :=
  if v.finalized then v
  else
    { v with
      cachedResponse := e.cachedResponse
      responseData := e.responseData
      juditRequestId := e.juditRequestId <|> v.juditRequestId }

/-- The row `stage_version` inserts. -/
def LawsuitResponse.version (e : LawsuitResponse) (id processId : String) (now : Timestamp) :
    Version where
  id := id
  processId := processId
  sourceRequestId := e.sourceId
  juditRequestId := e.juditRequestId
  cachedResponse := e.cachedResponse
  responseData := e.responseData
  createdAt := now

/-- `stage_version`: the process of the code, made under `newProcess` when
there is none, its version, and the grants that staging makes. -/
def Archive.stage (s : Archive) (e : LawsuitResponse) (newProcess newVersion : String)
    (now : Timestamp) : String × Archive :=
  let (processId, processes) :=
    match s.processes.find? fun p => p.code == e.code with
    | some p => (p.id, s.processes)
    | none => (newProcess, s.processes ++ [{ id := newProcess, code := e.code }])
  let same : Version → Bool := fun v =>
    v.processId == processId && v.sourceRequestId == e.sourceId
  let versions :=
    if s.versions.any same then updateWhere same (Version.restage e) s.versions
    else s.versions ++ [e.version newVersion processId now]
  (processId,
   { s with processes := processes, versions := versions }.grant e.tenants processId)

/-- `ORDER BY source_cached_response ASC, created_at DESC`. -/
def Version.preferredTo (a b : Version) : Bool :=
  (!a.cachedResponse && b.cachedResponse) ||
    (a.cachedResponse == b.cachedResponse && decide (b.createdAt ≤ a.createdAt))

/-- `preferred_judit_version`, over the versions the `SELECT` sees. -/
def preferredJuditVersion (versions : List Version) (requestId : String) : Option Version :=
  (versions.filter fun v => v.juditRequestId == some requestId).foldl
    (fun best v =>
      match best with
      | none => some v
      | some b => if b.preferredTo v then some b else some v) none

/-- How `finalize_version` compares an open version with the current one. -/
inductive Comparison where
  | promoted | equivalent | stale
deriving Repr, DecidableEq

/-- The current version of a process. -/
def Archive.currentVersion (s : Archive) (processId : String) : Option String :=
  (s.processes.find? fun p => p.id == processId).bind Process.currentVersionId

/-- `SET finalized = TRUE, equivalent_to_version_id = …`. -/
def Archive.closeVersion (s : Archive) (versionId : String) (equivalentTo : Option String) :
    Archive :=
  { s with
    versions := updateWhere (fun v => v.id == versionId)
      (fun v => { v with finalized := true, equivalentToVersionId := equivalentTo }) s.versions }

/-- `finalize_version`: was the version promoted?  Without a current version
there is nothing to be equivalent to, or older than. -/
def Archive.finalizeVersion (s : Archive) (v : Version) (c : Comparison) :
    Option (Bool × Archive) :=
  let current := s.currentVersion v.processId
  if v.finalized then some (current == some v.id, s)
  else
    match c, current with
    | .promoted, _ =>
        some (true,
          { s.closeVersion v.id none with
            processes := updateWhere (fun p => p.id == v.processId)
              (fun p => { p with currentVersionId := some v.id }) s.processes })
    | .equivalent, some cur => some (false, s.closeVersion v.id (some cur))
    | .stale, some _ => some (false, s.closeVersion v.id none)
    | _, none => none

/-- `expurgar`: the doomed processes, with what cascades. -/
def Archive.expunge (s : Archive) (doomed : List String) : Archive where
  processes := s.processes.filter fun p => !doomed.contains p.id
  versions := s.versions.filter fun v => !doomed.contains v.processId
  grants := s.grants.filter fun g => !doomed.contains g.2

/-! ## §3. Who is served. -/

/-- The tenant is granted a process of the lawsuit with a current version. -/
def Archive.Serves (s : Archive) (tenantId : Uuid) (code : String) : Prop :=
  ∃ p ∈ s.processes, p.code = code ∧ p.currentVersionId.isSome = true ∧
    (tenantId, p.id) ∈ s.grants

instance {s : Archive} {tenantId : Uuid} {code : String} : Decidable (s.Serves tenantId code) :=
  inferInstanceAs (Decidable (∃ p ∈ s.processes, p.code = code ∧
    p.currentVersionId.isSome = true ∧ (tenantId, p.id) ∈ s.grants))

section Serves

variable {s : Archive} {tenantId : Uuid} {code : String}

theorem Archive.Serves.grant {tenants : List Uuid} {processId : String}
    (h : s.Serves tenantId code) : (s.grant tenants processId).Serves tenantId code := by
  obtain ⟨p, hp, hcode, hcurrent, hgrant⟩ := h
  exact ⟨p, hp, hcode, hcurrent, List.mem_append_left _ hgrant⟩

theorem Archive.Serves.stage {e : LawsuitResponse} {newProcess newVersion : String}
    {now : Timestamp} (h : s.Serves tenantId code) :
    (s.stage e newProcess newVersion now).2.Serves tenantId code := by
  obtain ⟨p, hp, hcode, hcurrent, hgrant⟩ := h
  unfold Archive.stage
  refine Archive.Serves.grant ⟨p, ?_, hcode, hcurrent, hgrant⟩
  cases s.processes.find? fun p => p.code == e.code with
  | some q => exact hp
  | none => exact List.mem_append_left _ hp

/-- **Finalizing never takes a current version away.** -/
theorem Archive.Serves.finalizeVersion {s' : Archive} {v : Version} {c : Comparison}
    {promoted : Bool} (h : s.Serves tenantId code)
    (hs : s.finalizeVersion v c = some (promoted, s')) : s'.Serves tenantId code := by
  obtain ⟨p, hp, hcode, hcurrent, hgrant⟩ := h
  unfold Archive.finalizeVersion at hs
  simp only at hs
  split at hs
  · cases hs
    exact ⟨p, hp, hcode, hcurrent, hgrant⟩
  · split at hs
    · cases hs
      refine ⟨_, updateWhere_mem_of_mem hp, ?_, ?_, ?_⟩ <;> split <;>
        first | exact hcode | rfl | exact hcurrent | exact hgrant
    · cases hs
      exact ⟨p, hp, hcode, hcurrent, hgrant⟩
    · cases hs
      exact ⟨p, hp, hcode, hcurrent, hgrant⟩
    · cases hs

end Serves

end Rpy.Lifecycle

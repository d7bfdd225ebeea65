/-
  Rpy.DataJud.Finalizers
  ──────────────────────
  **PROVENANCE AND PROMOTED DATA, OVER EVERY INTERLEAVING OF FINALIZERS**
  (`app/judit_tasks.py`, `app/processes.py`).

  A run of `finalize_judit_request_task` prepares its data before its
  transaction: it reads the preferred version and asks DataJud, which
  another run may do at the same time.  Its transaction selects the version
  preferred at that moment, finalizes it, and replaces its provenance.

    • `ProvenanceAgrees`   — the current versions' provenance states the source
                             and value that the promoted fields hold,
    • `BringsPromoted`     — a run that finds its version promoted brings no
                             provenance, or that of the run that promoted it,
    • `provenanceAgrees_along_iff` — provenance agrees along a run of the
                             system exactly when every transaction meets that.

  `finalize_version` does nothing to a version that is finalized already;
  the provenance is replaced all the same.
-/
import Mathlib.Logic.Function.Basic
import Rpy.Foundation.Machine
import Rpy.Foundation.Table
import Rpy.Processes.NewestWins
import Rpy.DataJud.Provenance

namespace Rpy.DataJud

open Rpy.Foundation Rpy.Processes

/-! ## §1. Versions in staging and runs in flight. -/

/-- A `process_versions` row, as `stage_version` writes it. -/
structure Staging where
  versionId : Uuid
  processId : Uuid
  sourceRequestId : Option String
  sourceCachedResponse : Bool
  juditRequestId : Option String
  createdAt : Timestamp
  /-- `extract_promotable_fields` of the payload's `response_data`, if it has one -/
  responseData : Option SemanticFields
deriving DecidableEq

/-- The fields of a version, and what DataJud answered for it. -/
structure Prepared where
  versionId : Uuid
  juditFields : SemanticFields
  lookup : Option DataJudMetadata
deriving DecidableEq

/-- `prepared_datajud_result`. -/
def Prepared.result (py : Python) (a : Prepared) : Option DataJudMergeResult :=
  a.lookup.map (mergeDatajudMetadata py a.juditFields)

/-- `prepared_fields`. -/
def Prepared.fields (py : Python) (a : Prepared) : SemanticFields :=
  match a.result py with
  | none => a.juditFields
  | some result => result.process

/-- The source a field of the prepared data comes from. -/
def Prepared.sourceOf (py : Python) (a : Prepared) (field : MetadataField) : SourceName :=
  match a.result py with
  | none => .judit
  | some result =>
      ((result.provenance.find? fun item => item.field == field).map
        FieldProvenance.selectedSource).getD .judit

/-- A run of `finalize_judit_request_task`: what it prepared, and in its
transaction the version it selected with the data it applies. -/
structure FinalizeRun where
  requestId : String
  prepared : Option Prepared
  selected : Option (Staging × Prepared) := none
deriving DecidableEq

/-- The tables, the runs in flight, and what each promoted version was
promoted with. -/
structure System where
  processes : Uuid → ProcessRecords := fun _ => { process := {}, versions := [] }
  stagings : List Staging := []
  provenance : List ProvenanceRow := []
  runs : List FinalizeRun := []
  promotedWith : List (Uuid × Prepared) := []

/-- The version is finalized. -/
def System.isFinalized (s : System) (v : Staging) : Bool :=
  (s.processes v.processId).versions.any fun w => w.id == v.versionId && w.finalized

/-! ## §2. The steps. -/

/-- `ORDER BY source_cached_response ASC, created_at DESC`. -/
def Staging.preferredTo (a b : Staging) : Bool :=
  (!a.sourceCachedResponse && b.sourceCachedResponse) ||
    (a.sourceCachedResponse == b.sourceCachedResponse && decide (b.createdAt ≤ a.createdAt))

/-- `preferred_judit_version`. -/
def System.preferredJuditVersion (s : System) (requestId : String) : Option Staging :=
  ((s.stagings.filter fun v => v.juditRequestId == some requestId).insertionSort
    fun a b => a.preferredTo b).head?

/-- The `DO UPDATE` of `stage_version` on a version that is open. -/
def Staging.restage (new old : Staging) : Staging :=
  { old with
    sourceCachedResponse := new.sourceCachedResponse
    responseData := new.responseData
    juditRequestId := new.juditRequestId.or old.juditRequestId }

/-- `stage_version`: the row is inserted under a new id, or replaces what an
open version of the same source request holds. -/
def System.stage (s : System) (new : Staging) : Option System :=
  match s.stagings.find? fun v => v.processId == new.processId &&
      new.sourceRequestId.isSome && v.sourceRequestId == new.sourceRequestId with
  | some old =>
      if s.isFinalized old then some s
      else some { s with
        stagings := updateWhere (fun v => v.versionId == old.versionId) new.restage s.stagings }
  | none =>
      if new.versionId ∈ s.stagings.map Staging.versionId then none
      else
        let p := s.processes new.processId
        some { s with
          stagings := s.stagings ++ [new]
          processes := Function.update s.processes new.processId
            { p with
              versions := p.versions ++ [{ id := new.versionId, createdAt := new.createdAt }] } }

/-- The part of the task before its transaction.  DataJud is not asked about
a finalized version or a process under secrecy; otherwise `answer` is what
it gives, when its status is `ok`. -/
def System.prepare (s : System) (requestId : String) (answer : Option DataJudMetadata) :
    FinalizeRun where
  requestId := requestId
  prepared := do
    let staged ← s.preferredJuditVersion requestId
    let juditFields ← staged.responseData
    return {
      versionId := staged.versionId
      juditFields := juditFields
      lookup := if s.isFinalized staged ∨ 0 < juditFields.secrecyLevel then none else answer }

/-- The version a run's transaction selects, with the data it applies: what
was prepared if the version is still the preferred one, else the version's own. -/
def System.select (s : System) (r : FinalizeRun) : Option (Staging × Prepared) := do
  let staged ← s.preferredJuditVersion r.requestId
  let freshFields ← staged.responseData
  return (staged, (r.prepared.filter fun a => a.versionId == staged.versionId).getD
    { versionId := staged.versionId, juditFields := freshFields, lookup := none })

/-- `if datajud_result is not None: replace_datajud_field_provenance(…)`. -/
def System.writeProvenance (py : Python) (s : System) (staged : Staging) (a : Prepared) :
    Except FinalizeError (List ProvenanceRow) :=
  match a.result py with
  | none => .ok s.provenance
  | some result =>
      replaceDatajudFieldProvenance py.toPlatform s.provenance
        ((s.stagings.find? fun v => v.versionId == staged.versionId).map Staging.processId)
        staged.processId staged.versionId result

/-- The rest of the transaction, under the lock that `finalize_version` takes
on the process.  Without a version to finalize the run just ends. -/
def System.commit (py : Python) (s : System) (r : FinalizeRun) (now : Timestamp) :
    Except FinalizeError System :=
  match r.selected with
  | none => .ok s
  | some (staged, a) => do
      let before := s.processes staged.processId
      let finalized ← finalizeVersion py.toPlatform before staged.versionId (a.fields py) now
      let provenance ← s.writeProvenance py staged a
      return { s with
        processes := Function.update s.processes staged.processId finalized.2
        provenance := provenance
        -- a version that becomes the current one was promoted by this run
        promotedWith :=
          if finalized.2.process.currentVersionId = before.process.currentVersionId then
            s.promotedWith
          else (staged.versionId, a) :: s.promotedWith }

/-- A run is over. -/
def System.endRun (s : System) (i : Nat) : System :=
  { s with runs := s.runs.eraseIdx i }

/-- What can happen. -/
inductive Event where
  /-- a response is staged -/
  | stage (version : Staging)
  /-- a run of the task prepares -/
  | prepare (requestId : String) (answer : Option DataJudMetadata)
  /-- the transaction of a run selects its version -/
  | select (i : Nat)
  /-- the transaction goes on to its end, or an exception rolls it back -/
  | commit (i : Nat) (now : Timestamp)
  /-- a run dies, or what follows in its transaction raises -/
  | crash (i : Nat)
deriving DecidableEq

/-- One event. -/
def System.step (py : Python) (s : System) : Event → Option System
  | .stage version => s.stage version
  | .prepare requestId answer => some { s with runs := s.runs ++ [s.prepare requestId answer] }
  | .select i =>
      s.runs[i]?.map fun r => { s with runs := s.runs.set i { r with selected := s.select r } }
  | .commit i now =>
      s.runs[i]?.map fun r =>
        match s.commit py r now with
        | .error _ => s.endRun i
        | .ok s' => s'.endRun i
  | .crash i => s.runs[i]?.map fun _ => s.endRun i

/-! ## §3. The property and the condition. -/

/-- The source a promoted field was taken from. -/
def System.sourceOf (py : Python) (s : System) (versionId : Uuid) (field : MetadataField) :
    SourceName :=
  match s.promotedWith.lookup versionId with
  | none => .judit
  | some a => a.sourceOf py field

/-- A row states the source and the value that the promoted field holds. -/
def System.Agrees (py : Python) (s : System) (p : Uuid) (row : ProvenanceRow) : Prop :=
  row.selectedSource = s.sourceOf py row.versionId row.fieldName ∧
    row.selectedValue.canon = (rowValue (s.processes p).process row.fieldName).canon

/-- **The provenance of every process's current version agrees with the
promoted data.** -/
def ProvenanceAgrees (py : Python) (s : System) : Prop :=
  ∀ p, ∀ row ∈ s.provenance,
    (s.processes p).process.currentVersionId = some row.versionId → s.Agrees py p row

/-- The result selects, field by field, the source and value of the data. -/
def SameSelections (py : Python) (result : DataJudMergeResult) (a : Prepared) : Prop :=
  ∀ item ∈ result.provenance, item.selectedSource = a.sourceOf py item.field ∧
    item.selectedValue.canon = (fieldsValue (a.fields py) item.field).canon

/-- A run that finds its version promoted already brings no DataJud result
that can be written, or the selections of the run that promoted it. -/
def BringsPromoted (py : Python) (s : System) (r : FinalizeRun) : Prop :=
  ∀ staged a promoted result, r.selected = some (staged, a) →
    (s.processes staged.processId).process.currentVersionId = some staged.versionId →
    s.promotedWith.lookup staged.versionId = some promoted →
    a.result py = some result → (s.writeProvenance py staged a).isOk →
    SameSelections py result promoted

/-- The condition on an event. -/
def NoCrossedProvenance (py : Python) (s : System) : Event → Prop
  | .commit i _ => ∀ r, s.runs[i]? = some r → BringsPromoted py s r
  | _ => True

/-! ## §4. What a result selects. -/

section Selections

variable {py : Python} {a : Prepared} {result : DataJudMergeResult} {item : FieldProvenance}

theorem Prepared.result_eq_some (h : a.result py = some result) :
    ∃ metadata, a.lookup = some metadata ∧
      result = mergeDatajudMetadata py a.juditFields metadata := by
  obtain ⟨metadata, hlookup, rfl⟩ := Option.map_eq_some_iff.1 h
  exact ⟨metadata, hlookup, rfl⟩

/-- **A result selects for a field the source and value its data has.** -/
theorem sameSelections_self (h : a.result py = some result) : SameSelections py result a := by
  intro item hitem
  obtain ⟨metadata, -, hmerge⟩ := Prepared.result_eq_some h
  constructor
  · unfold Prepared.sourceOf
    rw [h]
    have hnodup : (result.provenance.map FieldProvenance.field).Nodup := by
      rw [hmerge]
      exact merge_fields_nodup py _ metadata
    cases hfind : result.provenance.find? fun other => other.field == item.field with
    | none => simpa using List.find?_eq_none.1 hfind item hitem
    | some other =>
        have hfield : other.field = item.field := by simpa using List.find?_some hfind
        have hmem := List.mem_of_find?_eq_some hfind
        obtain rfl := List.inj_on_of_nodup_map hnodup hmem hitem hfield
        simp [hfind]
  · unfold Prepared.fields
    rw [h]
    rw [hmerge] at hitem ⊢
    exact congrArg Json.canon (merge_selected py _ metadata hitem).symm

end Selections

/-! ## §5. What a transaction does. -/

section Commit

variable {py : Python} {s s' : System} {r : FinalizeRun} {now : Timestamp}

/-- **The outcomes of a transaction.** -/
theorem System.commit_eq_ok (h : s.commit py r now = .ok s') :
    s' = s ∨ ∃ staged a finalized provenance, r.selected = some (staged, a) ∧
      finalizeVersion py.toPlatform (s.processes staged.processId) staged.versionId
        (a.fields py) now = .ok finalized ∧
      s.writeProvenance py staged a = .ok provenance ∧
      s' = { s with
        processes := Function.update s.processes staged.processId finalized.2
        provenance := provenance
        promotedWith :=
          if finalized.2.process.currentVersionId =
              (s.processes staged.processId).process.currentVersionId then s.promotedWith
          else (staged.versionId, a) :: s.promotedWith } := by
  unfold System.commit at h
  split at h
  · exact .inl (Except.ok.inj h).symm
  · rename_i staged a hselected
    obtain ⟨finalized, hfinalized, h⟩ := bind_eq_ok.1 h
    obtain ⟨provenance, hprovenance, h⟩ := bind_eq_ok.1 h
    exact .inr ⟨staged, a, finalized, provenance, hselected, hfinalized, hprovenance,
      (Except.ok.inj h).symm⟩

/-- A row of the provenance afterwards is an old one, or states a selection
of the result for the version. -/
theorem mem_writeProvenance {staged : Staging} {a : Prepared} {rows : List ProvenanceRow}
    (h : s.writeProvenance py staged a = .ok rows) {row : ProvenanceRow} (hrow : row ∈ rows) :
    (row ∈ s.provenance ∧ (row.versionId = staged.versionId → a.result py = none)) ∨
      (row.versionId = staged.versionId ∧ ∃ result, a.result py = some result ∧
        ∃ item ∈ result.provenance, States py.toPlatform row item) := by
  unfold System.writeProvenance at h
  split at h
  · rename_i hnone
    obtain rfl := Except.ok.inj h
    exact .inl ⟨hrow, fun _ => hnone⟩
  · rename_i result hresult
    obtain ⟨items, rfl, hversion, hstates⟩ := replace_eq_ok h
    rcases List.mem_append.1 hrow with hold | hnew
    · obtain ⟨hmem, hne⟩ := List.mem_filter.1 hold
      exact .inl ⟨hmem, fun heq => absurd heq (by simpa using hne)⟩
    · obtain ⟨item, hitem, hst⟩ := exists_of_forall₂_left hstates hnew
      exact .inr ⟨hversion row hnew, result, hresult, item, hitem, hst⟩

/-- Every selection of a result that is written has a row. -/
theorem exists_row_of_item {staged : Staging} {a : Prepared} {rows : List ProvenanceRow}
    (h : s.writeProvenance py staged a = .ok rows) {result : DataJudMergeResult}
    (hresult : a.result py = some result) {item : FieldProvenance}
    (hitem : item ∈ result.provenance) :
    ∃ row ∈ rows, row.versionId = staged.versionId ∧ States py.toPlatform row item := by
  unfold System.writeProvenance at h
  rw [hresult] at h
  obtain ⟨items, rfl, hversion, hstates⟩ := replace_eq_ok h
  obtain ⟨row, hrow, hst⟩ := exists_of_forall₂_left hstates.flip hitem
  exact ⟨row, List.mem_append_right _ hrow, hversion row hrow, hst⟩

/-- **What finalizing a version does to its process**: nothing if it was
finalized before; else it is finalized, and promoted or not. -/
theorem finalizeVersion_effect {u : Platform} {p : ProcessRecords} {versionId : Uuid}
    {f : SemanticFields} {finalized : Bool × ProcessRecords}
    (h : finalizeVersion u p versionId f now = .ok finalized) :
    ∃ candidate ∈ p.versions, candidate.id = versionId ∧
      ((candidate.finalized = true ∧ finalized.2 = p) ∨
        (candidate.finalized = false ∧
          (∃ fingerprint equivalentTo, finalized.2.versions =
            finalizeRow p.versions candidate.id fingerprint equivalentTo now) ∧
          (finalized.2.process = p.process ∨
            processColumns u versionId f = .ok finalized.2.process))) := by
  obtain ⟨promoted, records⟩ := finalized
  obtain ⟨candidate, hfind, houtcome⟩ := finalizeVersion_eq_ok h
  have hid : candidate.id = versionId := by simpa using List.find?_some hfind
  refine ⟨candidate, List.mem_of_find?_eq_some hfind, hid, ?_⟩
  rcases houtcome with ⟨hfinal, rfl⟩ | ⟨hopen, -, -, hmarked⟩ | ⟨hopen, -, hwritten⟩
  · exact .inl ⟨hfinal, rfl⟩
  · obtain ⟨-, hprocess, -, hversions⟩ := markEquivalent_eq_ok hmarked
    exact .inr ⟨hopen, ⟨_, _, hid ▸ hversions⟩, .inl hprocess⟩
  · obtain ⟨-, hversions, -, hpromoted, hstale⟩ := writeVersion_eq_ok hwritten
    refine .inr ⟨hopen, ⟨_, _, hversions⟩, ?_⟩
    cases promoted with
    | true => exact .inr (hid ▸ (hpromoted rfl).1)
    | false => exact .inl (hstale rfl)

end Commit

/-! ## §6. What every event keeps. -/

/-- The version is finalized, in whichever process it is. -/
def System.FinalizedId (s : System) (versionId : Uuid) : Prop :=
  ∃ p, ∃ v ∈ (s.processes p).versions, v.id = versionId ∧ v.finalized = true

/-- The invariant, whatever the runs bring. -/
structure WellFormed (py : Python) (s : System) : Prop where
  stagingIds : (s.stagings.map Staging.versionId).Nodup
  versionIds : ∀ p, ((s.processes p).versions.map VersionRow.id).Nodup
  /-- a version belongs to the process it was staged for -/
  owned : ∀ p, ∀ id ∈ (s.processes p).versions.map VersionRow.id,
    ∃ v ∈ s.stagings, v.versionId = id ∧ v.processId = p
  current : ∀ p c, (s.processes p).process.currentVersionId = some c →
    ∃ v ∈ (s.processes p).versions, v.id = c ∧ v.finalized = true
  written : ∀ row ∈ s.provenance, s.FinalizedId row.versionId
  /-- the current version's fields are those it was promoted with -/
  promoted : ∀ p c, (s.processes p).process.currentVersionId = some c →
    ∃ a, s.promotedWith.lookup c = some a ∧
      ∀ field, (rowValue (s.processes p).process field).canon =
        (fieldsValue (a.fields py) field).canon

section Invariant

variable {py : Python} {s s' : System}

/-- A version belongs to one process. -/
theorem WellFormed.owner_unique (h : WellFormed py s) {p q : Uuid} {v w : VersionRow}
    (hv : v ∈ (s.processes p).versions) (hw : w ∈ (s.processes q).versions) (hid : v.id = w.id) :
    p = q := by
  obtain ⟨x, hx, hxid, rfl⟩ := h.owned p v.id (List.mem_map_of_mem hv)
  obtain ⟨y, hy, hyid, rfl⟩ := h.owned q w.id (List.mem_map_of_mem hw)
  rw [List.inj_on_of_nodup_map h.stagingIds hx hy (by rw [hxid, hyid, hid])]

/-- An open version is not finalized anywhere. -/
theorem WellFormed.not_finalizedId (h : WellFormed py s) {p : Uuid} {v : VersionRow}
    (hv : v ∈ (s.processes p).versions) (hopen : v.finalized = false) :
    ¬ s.FinalizedId v.id := by
  rintro ⟨q, w, hw, hid, hfinal⟩
  obtain rfl := h.owner_unique hv hw hid.symm
  obtain rfl := List.inj_on_of_nodup_map (h.versionIds p) hw hv hid
  simp [hfinal] at hopen

theorem WellFormed.finalizedId_of_current (h : WellFormed py s) {p c : Uuid}
    (hc : (s.processes p).process.currentVersionId = some c) : s.FinalizedId c := by
  obtain ⟨v, hv, hid, hfinal⟩ := h.current p c hc
  exact ⟨p, v, hv, hid, hfinal⟩

/-- A current version is the current one of its process only. -/
theorem WellFormed.current_unique (h : WellFormed py s) {p q c : Uuid} {v : VersionRow}
    (hc : (s.processes p).process.currentVersionId = some c) (hv : v ∈ (s.processes q).versions)
    (hid : v.id = c) : p = q := by
  obtain ⟨w, hw, hwid, -⟩ := h.current p c hc
  exact h.owner_unique hw hv (hwid.trans hid.symm)

/-- **The outcomes of staging**: nothing, an open version rewritten, or a new
version under a new id. -/
theorem System.stage_cases {new : Staging} (h : s.stage new = some s') :
    s' = s ∨
    (∃ old : Staging, s' = { s with
      stagings := updateWhere (fun v => v.versionId == old.versionId) new.restage s.stagings }) ∨
    (new.versionId ∉ s.stagings.map Staging.versionId ∧ s' = { s with
      stagings := s.stagings ++ [new]
      processes := Function.update s.processes new.processId
        { s.processes new.processId with
          versions := (s.processes new.processId).versions ++
            [{ id := new.versionId, createdAt := new.createdAt }] } }) := by
  unfold System.stage at h
  split at h
  · rename_i old _
    split at h
    · exact .inl (Option.some.inj h).symm
    · exact .inr (.inl ⟨old, (Option.some.inj h).symm⟩)
  · split at h
    · cases h
    · rename_i hfresh
      exact .inr (.inr ⟨hfresh, (Option.some.inj h).symm⟩)

/-- Staging leaves what is promoted and its provenance. -/
theorem System.stage_process {new : Staging} (h : s.stage new = some s') :
    (∀ p, (s'.processes p).process = (s.processes p).process) ∧
      s'.provenance = s.provenance ∧ s'.promotedWith = s.promotedWith := by
  rcases System.stage_cases h with rfl | ⟨old, rfl⟩ | ⟨-, rfl⟩
  · exact ⟨fun _ => rfl, rfl, rfl⟩
  · exact ⟨fun _ => rfl, rfl, rfl⟩
  · refine ⟨fun p => ?_, rfl, rfl⟩
    show (Function.update s.processes new.processId _ p).process = _
    by_cases hp : p = new.processId
    · subst hp
      rw [Function.update_self]
    · rw [Function.update_of_ne hp]

theorem WellFormed.stage {new : Staging} (h : WellFormed py s) (hs : s.stage new = some s') :
    WellFormed py s' := by
  rcases System.stage_cases hs with rfl | ⟨old, rfl⟩ | ⟨hfresh, rfl⟩
  · exact h
  -- A delivery for a version that is there changes its payload, and no identity.
  · refine ⟨?_, h.versionIds, fun p id hid => ?_, h.current, h.written, h.promoted⟩
    · show ((updateWhere _ _ s.stagings).map Staging.versionId).Nodup
      rw [map_updateWhere (f := new.restage) (g := Staging.versionId) fun _ => rfl]
      exact h.stagingIds
    · obtain ⟨v, hv, hvid, hvp⟩ := h.owned p id hid
      refine ⟨_, updateWhere_mem_of_mem hv, ?_⟩
      split
      · exact ⟨hvid, hvp⟩
      · exact ⟨hvid, hvp⟩
  · -- the versions of the process are the old ones and the new one, which is open
    have hversions : ∀ p, (Function.update s.processes new.processId
        { s.processes new.processId with
          versions := (s.processes new.processId).versions ++
            [{ id := new.versionId, createdAt := new.createdAt }] } p).versions =
        (s.processes p).versions ++
          if p = new.processId then [{ id := new.versionId, createdAt := new.createdAt }]
          else [] := by
      intro p
      by_cases hp : p = new.processId
      · subst hp
        rw [Function.update_self, if_pos rfl]
      · rw [Function.update_of_ne hp, if_neg hp, List.append_nil]
    have hprocess := (System.stage_process hs).1
    have hnew : ∀ p, new.versionId ∉ (s.processes p).versions.map VersionRow.id := by
      intro p hmem
      obtain ⟨v, hv, hvid, -⟩ := h.owned p _ hmem
      exact hfresh (hvid ▸ List.mem_map_of_mem hv)
    have hold : ∀ p, ∀ v ∈ (s.processes p).versions,
        v ∈ (s.processes p).versions ++ if p = new.processId then
          [{ id := new.versionId, createdAt := new.createdAt }] else [] :=
      fun p v hv => List.mem_append_left _ hv
    constructor
    · show ((s.stagings ++ [new]).map Staging.versionId).Nodup
      rw [List.map_append, List.nodup_append]
      refine ⟨h.stagingIds, List.nodup_singleton _, ?_⟩
      rintro id hid _ hmem rfl
      obtain rfl := List.mem_singleton.1 hmem
      exact hfresh hid
    · intro p
      rw [hversions, List.map_append, List.nodup_append]
      refine ⟨h.versionIds p, by split <;> simp, ?_⟩
      rintro id hid _ hmem rfl
      split at hmem
      · obtain rfl := List.mem_singleton.1 hmem
        exact hnew p hid
      · cases hmem
    · intro p id hid
      rw [hversions, List.map_append, List.mem_append] at hid
      rcases hid with hid | hid
      · obtain ⟨v, hv, hvid, hvp⟩ := h.owned p id hid
        exact ⟨v, List.mem_append_left _ hv, hvid, hvp⟩
      · split at hid
        · rename_i hp
          obtain rfl := List.mem_singleton.1 hid
          exact ⟨new, List.mem_append_right _ List.mem_cons_self, rfl, hp.symm⟩
        · cases hid
    · intro p c hc
      rw [hprocess] at hc
      obtain ⟨v, hv, hid, hfinal⟩ := h.current p c hc
      refine ⟨v, ?_, hid, hfinal⟩
      rw [hversions]
      exact hold p v hv
    · intro row hrow
      obtain ⟨p, v, hv, hid, hfinal⟩ := h.written row hrow
      refine ⟨p, v, ?_, hid, hfinal⟩
      rw [hversions]
      exact hold p v hv
    · intro p c hc
      rw [hprocess] at hc ⊢
      exact h.promoted p c hc

/-- What the versions of the process keep when one is finalized. -/
theorem finalizeVersion_versions {p : ProcessRecords} {versionId : Uuid} {f : SemanticFields}
    {now : Timestamp} {finalized : Bool × ProcessRecords}
    (hids : (p.versions.map VersionRow.id).Nodup)
    (h : finalizeVersion py.toPlatform p versionId f now = .ok finalized) :
    finalized.2.versions.map VersionRow.id = p.versions.map VersionRow.id ∧
      (∀ v ∈ p.versions, v.finalized = true →
        ∃ w ∈ finalized.2.versions, w.id = v.id ∧ w.finalized = true) ∧
      ∃ w ∈ finalized.2.versions, w.id = versionId ∧ w.finalized = true := by
  obtain ⟨candidate, hmem, rfl, ⟨hfinal, heq⟩ | ⟨hopen, ⟨_, _, hversions⟩, -⟩⟩ :=
    finalizeVersion_effect h
  · rw [heq]
    exact ⟨rfl, fun v hv hvfinal => ⟨v, hv, rfl, hvfinal⟩, candidate, hmem, rfl, hfinal⟩
  · rw [hversions]
    refine ⟨map_finalizeRow _ fun _ => rfl, fun v hv hvfinal => ?_,
      _, finalize_mem_finalizeRow hmem, rfl, rfl⟩
    have hne : v.id ≠ candidate.id := by
      intro hid
      obtain rfl := List.inj_on_of_nodup_map hids hv hmem hid
      simp [hvfinal] at hopen
    exact ⟨v, mem_finalizeRow_of_ne hv hne, rfl, hvfinal⟩

/-- The process a transaction is about, and the others. -/
theorem update_process {processes : Uuid → ProcessRecords} {p : Uuid} {records : ProcessRecords}
    {P : Uuid → ProcessRecords → Prop} (hself : P p records)
    (hother : ∀ q, q ≠ p → P q (processes q)) (q : Uuid) :
    P q (Function.update processes p records q) := by
  by_cases hq : q = p
  · subst hq
    rw [Function.update_self]
    exact hself
  · rw [Function.update_of_ne hq]
    exact hother q hq

/-- **A transaction keeps the invariant.** -/
theorem WellFormed.commit {r : FinalizeRun} {now : Timestamp} (h : WellFormed py s)
    (hs : s.commit py r now = .ok s') : WellFormed py s' := by
  rcases System.commit_eq_ok hs with rfl | ⟨staged, a, finalized, provenance, -, hfinalize,
    hprovenance, rfl⟩
  · exact h
  obtain ⟨hids, hmono, hdone⟩ := finalizeVersion_versions (h.versionIds _) hfinalize
  obtain ⟨candidate, hmem, hid, heffect⟩ := finalizeVersion_effect hfinalize
  -- A version that was finalized stays so, in the process that was written and in the others.
  have hfinalizedId : ∀ p, ∀ v ∈ (s.processes p).versions, v.finalized = true →
      ∃ w ∈ (Function.update s.processes staged.processId finalized.2 p).versions,
        w.id = v.id ∧ w.finalized = true := by
    refine update_process (P := fun p records => ∀ v ∈ (s.processes p).versions,
      v.finalized = true → ∃ w ∈ records.versions, w.id = v.id ∧ w.finalized = true) hmono ?_
    exact fun _ _ v hv hfinal => ⟨v, hv, rfl, hfinal⟩
  constructor
  · exact h.stagingIds
  · refine update_process (P := fun _ records => (records.versions.map VersionRow.id).Nodup) ?_
      fun q _ => h.versionIds q
    rw [hids]
    exact h.versionIds _
  · refine update_process (P := fun q records => ∀ id ∈ records.versions.map VersionRow.id,
      ∃ v ∈ s.stagings, v.versionId = id ∧ v.processId = q) ?_ fun q _ => h.owned q
    rw [hids]
    exact h.owned _
  · -- the current version is the old one, or the version just promoted
    refine update_process (P := fun _ records => ∀ c, records.process.currentVersionId = some c →
      ∃ v ∈ records.versions, v.id = c ∧ v.finalized = true) (fun c hc => ?_) fun q _ => h.current q
    have hkept : finalized.2.process = (s.processes staged.processId).process →
        ∃ v ∈ finalized.2.versions, v.id = c ∧ v.finalized = true := by
      intro hprocess
      rw [hprocess] at hc
      obtain ⟨v, hv, rfl, hvfinal⟩ := h.current _ c hc
      exact hmono v hv hvfinal
    rcases heffect with ⟨-, heq⟩ | ⟨-, -, hprocess | hpromoted⟩
    · exact hkept (by rw [heq])
    · exact hkept hprocess
    · rw [processColumns_currentVersionId hpromoted] at hc
      obtain rfl := Option.some.inj hc
      exact hdone
  -- A provenance row is an old one, or one of the version this transaction finalized.
  · intro row hrow
    rcases mem_writeProvenance hprovenance hrow with ⟨hold, -⟩ | ⟨hversion, -⟩
    · obtain ⟨p, v, hv, hvid, hvfinal⟩ := h.written row hold
      obtain ⟨w, hw, hwid, hwfinal⟩ := hfinalizedId p v hv hvfinal
      exact ⟨p, w, hw, hwid.trans hvid, hwfinal⟩
    · obtain ⟨w, hw, hwid, hwfinal⟩ := hdone
      refine ⟨staged.processId, w, ?_, hwid.trans hversion.symm, hwfinal⟩
      show w ∈ (Function.update s.processes staged.processId finalized.2 staged.processId).versions
      rw [Function.update_self]
      exact hw
  · -- the other processes' current versions are other versions
    refine update_process (P := fun _ records => ∀ c, records.process.currentVersionId = some c →
      ∃ b, List.lookup c (if finalized.2.process.currentVersionId =
          (s.processes staged.processId).process.currentVersionId then s.promotedWith
        else (staged.versionId, a) :: s.promotedWith) = some b ∧
        ∀ field, (rowValue records.process field).canon =
          (fieldsValue (b.fields py) field).canon) ?_ ?_
    · intro c hc
      have hkept : finalized.2.process = (s.processes staged.processId).process → ∃ b,
          List.lookup c (if finalized.2.process.currentVersionId =
            (s.processes staged.processId).process.currentVersionId then s.promotedWith
          else (staged.versionId, a) :: s.promotedWith) = some b ∧
          ∀ field, (rowValue finalized.2.process field).canon =
            (fieldsValue (b.fields py) field).canon := by
        intro hprocess
        rw [hprocess] at hc ⊢
        rw [if_pos rfl]
        exact h.promoted _ c hc
      rcases heffect with ⟨-, heq⟩ | ⟨hopen, -, hprocess | hpromoted⟩
      · exact hkept (by rw [heq])
      · exact hkept hprocess
      · have hcurrent := processColumns_currentVersionId hpromoted
        -- The promotion moved the column, since the version promoted was open until now.
        have hmoved : finalized.2.process.currentVersionId ≠
            (s.processes staged.processId).process.currentVersionId := by
          intro heq
          have hfinal := h.finalizedId_of_current (heq.symm.trans hcurrent)
          exact h.not_finalizedId hmem hopen (hid ▸ hfinal)
        obtain rfl : staged.versionId = c := Option.some.inj (hcurrent.symm.trans hc)
        rw [if_neg hmoved]
        exact ⟨a, by simp, rowValue_processColumns hpromoted⟩
    · intro q hq c hc
      obtain ⟨b, hb, hfields⟩ := h.promoted q c hc
      refine ⟨b, ?_, hfields⟩
      have hne : c ≠ staged.versionId := fun heq =>
        hq (h.current_unique hc hmem (hid.trans heq.symm))
      have hkey : (c == staged.versionId) = false := by simpa using hne
      split
      · exact hb
      · rw [List.lookup_cons, hkey, hb]

end Invariant

/-! ## §7. Agreement. -/

section Agreement

variable {py : Python} {s s' : System} {r : FinalizeRun} {now : Timestamp}

/-- A row of the selections a version was promoted with agrees. -/
theorem agrees_of_sameSelections (h : WellFormed py s) {p : Uuid} {row : ProvenanceRow}
    {b : Prepared} {result : DataJudMergeResult} {item : FieldProvenance}
    (hcurrent : (s.processes p).process.currentVersionId = some row.versionId)
    (hlookup : s.promotedWith.lookup row.versionId = some b)
    (hsame : SameSelections py result b) (hitem : item ∈ result.provenance)
    (hstates : States py.toPlatform row item) : s.Agrees py p row := by
  obtain ⟨b', hb', hfields⟩ := h.promoted p _ hcurrent
  obtain rfl : b = b' := Option.some.inj (hlookup.symm.trans hb')
  obtain ⟨hsource, hvalue⟩ := hsame item hitem
  constructor
  · unfold System.sourceOf
    rw [hlookup, hstates.selectedSource, hstates.fieldName]
    exact hsource
  · rw [hfields, hstates.selectedValue, hstates.fieldName]
    exact hvalue

/-- Agreement is a matter of the process row, its provenance and the source of
its fields. -/
theorem ProvenanceAgrees.congr (hprocess : ∀ p, (s'.processes p).process = (s.processes p).process)
    (hprovenance : s'.provenance = s.provenance) (hpromoted : s'.promotedWith = s.promotedWith) :
    ProvenanceAgrees py s' ↔ ProvenanceAgrees py s := by
  unfold ProvenanceAgrees System.Agrees System.sourceOf
  simp only [hprocess, hprovenance, hpromoted]

/-- **A transaction that brings the promoted selections keeps the agreement.** -/
theorem ProvenanceAgrees.commit (h : WellFormed py s) (hagrees : ProvenanceAgrees py s)
    (hbrings : BringsPromoted py s r) (hs : s.commit py r now = .ok s') :
    ProvenanceAgrees py s' := by
  have h' := h.commit hs
  rcases System.commit_eq_ok hs with rfl | ⟨staged, a, finalized, provenance, hselected,
    hfinalize, hprovenance, rfl⟩
  · exact hagrees
  obtain ⟨candidate, hmem, hid, heffect⟩ := finalizeVersion_effect hfinalize
  intro q row hrow hcurrent
  rcases mem_writeProvenance hprovenance hrow with ⟨hold, hnone⟩ |
      ⟨hversion, result, hresult, item, hitem, hstates⟩
  · -- an old row: its version is not the one being promoted
    by_cases hq : q = staged.processId
    · subst hq
      have hkept : finalized.2.process = (s.processes staged.processId).process := by
        rcases heffect with ⟨-, heq⟩ | ⟨hopen, -, hprocess | hpromoted⟩
        · rw [heq]
        · exact hprocess
        · simp only [Function.update_self] at hcurrent
          rw [processColumns_currentVersionId hpromoted] at hcurrent
          have hwritten := h.written row hold
          rw [← Option.some.inj hcurrent, ← hid] at hwritten
          exact absurd hwritten (h.not_finalizedId hmem hopen)
      simp only [Function.update_self, hkept] at hcurrent
      have hag := hagrees staged.processId row hold hcurrent
      unfold System.Agrees System.sourceOf at hag ⊢
      simp only [Function.update_self, hkept, if_true]
      exact hag
    · simp only [Function.update_of_ne hq] at hcurrent
      have hne : row.versionId ≠ staged.versionId := fun heq =>
        hq (h.current_unique hcurrent hmem (hid.trans heq.symm))
      have hkey : (row.versionId == staged.versionId) = false := by simpa using hne
      have hlookup : List.lookup row.versionId (if finalized.2.process.currentVersionId =
            (s.processes staged.processId).process.currentVersionId then s.promotedWith
          else (staged.versionId, a) :: s.promotedWith) =
          s.promotedWith.lookup row.versionId := by
        split
        · rfl
        · rw [List.lookup_cons, hkey]
      have hag := hagrees q row hold hcurrent
      unfold System.Agrees System.sourceOf at hag ⊢
      simp only [Function.update_of_ne hq, hlookup]
      exact hag
  · -- a new row of the version the transaction finalized
    by_cases hq : q = staged.processId
    · subst hq
      -- What the new rows were computed from, and what was promoted, select the same values.
      have hsame : ∃ b, List.lookup row.versionId (if finalized.2.process.currentVersionId =
            (s.processes staged.processId).process.currentVersionId then s.promotedWith
          else (staged.versionId, a) :: s.promotedWith) = some b ∧
          SameSelections py result b := by
        obtain ⟨b, hb, -⟩ := h'.promoted _ _ hcurrent
        refine ⟨b, hb, ?_⟩
        simp only [Function.update_self, hversion] at hcurrent
        rw [hversion] at hb
        rcases heffect with ⟨-, heq⟩ | ⟨hopen, -, hprocess | hpromoted⟩
        · rw [heq] at hcurrent hb
          rw [if_pos rfl] at hb
          -- The version was final before: only `hbrings` says that the two merges agree.
          exact hbrings staged a b result hselected hcurrent hb hresult
            (isOk_iff.2 ⟨provenance, hprovenance⟩)
        · rw [hprocess] at hcurrent
          have hfinal := h.finalizedId_of_current hcurrent
          exact absurd (hid ▸ hfinal) (h.not_finalizedId hmem hopen)
        · have hmoved : finalized.2.process.currentVersionId ≠
              (s.processes staged.processId).process.currentVersionId := by
            intro heq
            have hfinal := h.finalizedId_of_current (heq.symm.trans hcurrent)
            exact h.not_finalizedId hmem hopen (hid ▸ hfinal)
          rw [if_neg hmoved] at hb
          obtain rfl : a = b := by simpa using hb
          -- The version is promoted here, with the very merge the rows come from.
          exact sameSelections_self hresult
      obtain ⟨b, hb, hsame⟩ := hsame
      exact agrees_of_sameSelections h' hcurrent hb hsame hitem hstates
    · simp only [Function.update_of_ne hq] at hcurrent
      exact absurd (h.current_unique hcurrent hmem (hid.trans hversion.symm)) hq

/-- **A transaction after which the provenance agrees brought the promoted
selections.** -/
theorem bringsPromoted_of_agrees (h : WellFormed py s)
    (hagrees : ∀ s', s.commit py r now = .ok s' → ProvenanceAgrees py s') :
    BringsPromoted py s r := by
  intro staged a promoted result hselected hcurrent hlookup hresult hok
  obtain ⟨provenance, hprovenance⟩ := isOk_iff.1 hok
  obtain ⟨v, hv, hvid, hfinal⟩ := h.current _ _ hcurrent
  -- the version is finalized, so the call returns and changes nothing
  have hfinalize : finalizeVersion py.toPlatform (s.processes staged.processId) staged.versionId
      (a.fields py) now = .ok (true, s.processes staged.processId) := by
    unfold finalizeVersion
    cases hfind : (s.processes staged.processId).versions.find? fun w =>
        w.id == staged.versionId with
    | none => simpa [hvid] using List.find?_eq_none.1 hfind v hv
    | some w =>
        have hwid : w.id = staged.versionId := by simpa using List.find?_some hfind
        obtain rfl := List.inj_on_of_nodup_map (h.versionIds _) (List.mem_of_find?_eq_some hfind)
          hv (hwid.trans hvid.symm)
        simp [hfinal, hcurrent]
  have hcommit : s.commit py r now = .ok { s with
      processes := Function.update s.processes staged.processId (s.processes staged.processId)
      provenance := provenance
      promotedWith := s.promotedWith } := by
    unfold System.commit
    rw [hselected]
    refine bind_eq_ok.2 ⟨_, hfinalize, bind_eq_ok.2 ⟨provenance, hprovenance, ?_⟩⟩
    simp only [if_true]
    rfl
  have hag := hagrees _ hcommit
  rw [Function.update_eq_self] at hag
  intro item hitem
  obtain ⟨row, hrow, hversion, hstates⟩ := exists_row_of_item hprovenance hresult hitem
  obtain ⟨hsource, hvalue⟩ := hag staged.processId row hrow (hversion ▸ hcurrent)
  obtain ⟨b, hb, hfields⟩ := h.promoted _ _ hcurrent
  obtain rfl : promoted = b := Option.some.inj (hlookup.symm.trans hb)
  constructor
  · unfold System.sourceOf at hsource
    simp only [hversion, hlookup] at hsource
    rw [← hstates.selectedSource, ← hstates.fieldName]
    exact hsource
  · rw [← hstates.selectedValue, ← hstates.fieldName, ← hfields]
    exact hvalue

end Agreement

/-! ## §8. Every interleaving. -/

section Runs

variable {py : Python} {s s' : System}

theorem WellFormed.endRun (h : WellFormed py s) (i : Nat) : WellFormed py (s.endRun i) :=
  ⟨h.stagingIds, h.versionIds, h.owned, h.current, h.written, h.promoted⟩

/-- Every event keeps the invariant. -/
theorem WellFormed.step {e : Event} (h : WellFormed py s) (hs : s.step py e = some s') :
    WellFormed py s' := by
  cases e with
  | stage version => exact h.stage hs
  | prepare requestId answer =>
      obtain rfl := Option.some.inj hs
      exact ⟨h.stagingIds, h.versionIds, h.owned, h.current, h.written, h.promoted⟩
  | select i =>
      obtain ⟨r, -, rfl⟩ := Option.map_eq_some_iff.1 hs
      exact ⟨h.stagingIds, h.versionIds, h.owned, h.current, h.written, h.promoted⟩
  | commit i now =>
      obtain ⟨r, -, rfl⟩ := Option.map_eq_some_iff.1 hs
      cases hc : s.commit py r now with
      | error e => exact h.endRun i
      | ok t => exact (h.commit hc).endRun i
  | crash i =>
      obtain ⟨r, -, rfl⟩ := Option.map_eq_some_iff.1 hs
      exact h.endRun i

/-- **An event keeps the agreement exactly when it meets the condition.** -/
theorem ProvenanceAgrees.step_iff {e : Event} (h : WellFormed py s)
    (hagrees : ProvenanceAgrees py s) (hs : s.step py e = some s') :
    ProvenanceAgrees py s' ↔ NoCrossedProvenance py s e := by
  cases e with
  | stage version =>
      obtain ⟨hprocess, hprovenance, hpromoted⟩ := System.stage_process hs
      exact iff_of_true ((ProvenanceAgrees.congr hprocess hprovenance hpromoted).2 hagrees) trivial
  | prepare requestId answer =>
      obtain rfl := Option.some.inj hs
      exact iff_of_true hagrees trivial
  | select i =>
      obtain ⟨r, -, rfl⟩ := Option.map_eq_some_iff.1 hs
      exact iff_of_true hagrees trivial
  | commit i now =>
      obtain ⟨r, hr, rfl⟩ := Option.map_eq_some_iff.1 hs
      constructor
      · intro hagrees' r' hr'
        obtain rfl : r = r' := Option.some.inj (hr.symm.trans hr')
        have hcommitted : ∀ t, s.commit py r now = .ok t → ProvenanceAgrees py t :=
          fun t ht => by rwa [ht] at hagrees'
        exact bringsPromoted_of_agrees h hcommitted
      · intro hok
        cases hc : s.commit py r now with
        | error e => exact hagrees
        | ok t =>
            have hagrees' : ProvenanceAgrees py t := hagrees.commit h (hok r hr) hc
            exact hagrees'
  | crash i =>
      obtain ⟨r, -, rfl⟩ := Option.map_eq_some_iff.1 hs
      exact iff_of_true hagrees trivial

end Runs

theorem wellFormed_init (py : Python) : WellFormed py {} :=
  ⟨.nil, fun _ => .nil, fun _ _ h => (nomatch h), fun _ _ h => (nomatch h),
    fun _ h => (nomatch h), fun _ _ h => (nomatch h)⟩

theorem provenanceAgrees_init (py : Python) : ProvenanceAgrees py {} :=
  fun _ _ h => (nomatch h)

/-- **The provenance agrees with the promoted data along a run exactly when
no transaction crosses the promotion of its version with other selections.** -/
theorem provenanceAgrees_along_iff (py : Python) (events : List Event) :
    Along (System.step py) (ProvenanceAgrees py) {} events ↔
      Guarded (System.step py) (NoCrossedProvenance py) {} events :=
  along_iff_guarded (fun s => WellFormed py s ∧ ProvenanceAgrees py s)
    ⟨wellFormed_init py, provenanceAgrees_init py⟩
    (fun _ _ _ h hok hs => ⟨h.1.step hs, (ProvenanceAgrees.step_iff h.1 h.2 hs).2 hok⟩)
    (fun _ h => h.2)
    (fun _ _ _ h hbad hs hagrees => hbad ((ProvenanceAgrees.step_iff h.1 h.2 hs).1 hagrees)) events

/-! ## §9. Two runs, two answers. -/

/-- A tribunal response, staged. -/
def response : Staging where
  versionId := 1
  processId := 10
  sourceRequestId := some "resposta-1"
  sourceCachedResponse := false
  juditRequestId := some "pedido"
  createdAt := 5
  responseData := some { header := [], className := .str "Ordinária" }

/-- DataJud's answer with a class. -/
def classAnswer (className : String) : DataJudMetadata where
  className := some className
  sourceRef := "api_publica_tjsp"

/-- Two runs prepare with different answers; the first promotes the version
and the second replaces its provenance. -/
def crossedEvents : List Event :=
  [.stage response, .prepare "pedido" (some (classAnswer "Execução")),
    .prepare "pedido" (some (classAnswer "Monitória")), .select 0, .commit 0 100,
    .select 0, .commit 0 200]

/-- The process has the first run's class, its provenance the second's. -/
theorem crossedEvents_provenance :
    ∃ s ∈ run (System.step .ascii) {} crossedEvents,
      (s.processes 10).process.currentVersionId = some 1 ∧
      (s.processes 10).process.className = some "Execução" ∧
      ∃ row ∈ s.provenance, row.versionId = 1 ∧ row.fieldName = .className ∧
        row.selectedValue = .str "Monitória" := by
  decide +kernel

/-- The provenance does not agree in every interleaving. -/
theorem not_provenanceAgrees_crossedEvents :
    ¬ ∀ (py : Python) (events : List Event),
      Along (System.step py) (ProvenanceAgrees py) {} events := by
  intro h
  obtain ⟨s, hs, hcurrent, hclass, row, hrow, hversion, hfield, hvalue⟩ := crossedEvents_provenance
  have hagrees := (h .ascii crossedEvents).last hs
  obtain ⟨-, hstated⟩ := hagrees 10 row hrow (by rw [hcurrent, hversion])
  rw [hvalue, hfield] at hstated
  have hheld : rowValue (s.processes 10).process .className = .str "Execução" :=
    congrArg optionalText hclass
  rw [hheld] at hstated
  revert hstated
  decide

end Rpy.DataJud

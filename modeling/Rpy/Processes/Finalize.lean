/-
  Rpy.Processes.Finalize
  ──────────────────────
  **`finalize_version`: EQUIVALENT, STALE OR PROMOTED**
  (`app/processes.py`, `app/attachments.py`).

  The rows of one process, and the one transaction that finalizes one of
  its versions.  An exception rolls the transaction back, so a call that
  raises has no rows to give.

    • `promotedFields`     — the promoted data, read back from the rows,
    • `finalizeVersion`    — the call,
    • `promotedFields_eq_ok` — what a promotion writes is read back,
    • `finalizeVersion_eq_ok`  — the outcomes of the call.
-/
import Rpy.Foundation.Raising
import Rpy.Processes.Semantics

namespace Rpy.Processes

open Rpy.Foundation

/-! ## §1. Rows. -/

/-- The promoted columns of a `processes` row. -/
structure ProcessRow where
  court : Option String := none
  className : Option String := none
  subjects : Json := .arr []
  parties : Json := .arr []
  representatives : Json := .arr []
  secrecyLevel : Int := 0
  header : Json := .obj []
  currentVersionId : Option Uuid := none
deriving Repr, DecidableEq

/-- A `process_versions` row. -/
structure VersionRow where
  id : Uuid
  createdAt : Timestamp
  finalized : Bool := false
  finalizedAt : Option Timestamp := none
  semanticFingerprint : Option String := none
  semanticSchemaVersion : Option Int := none
  equivalentToVersionId : Option Uuid := none
deriving Repr, DecidableEq

/-- A `process_steps` row. -/
structure StepRow where
  versionId : Uuid
  stepNumber : Int
  occurredAt : Option Timestamp
  title : Option String
  text : String
  metadata : Json
deriving Repr, DecidableEq

/-- A `process_attachments` row, as the manifest has it. -/
structure AttachmentRow where
  versionId : Uuid
  sourceAttachmentId : String
  sourceName : Option String
  sourceDate : Option Timestamp
  providerStatus : Option String
deriving Repr, DecidableEq

/-- The rows of one process. -/
structure ProcessRecords where
  process : ProcessRow
  versions : List VersionRow
  steps : List StepRow := []
  attachments : List AttachmentRow := []
deriving DecidableEq

/-- What a call can raise. -/
inductive FinalizeError where
  | lookupError (message : String)
  | valueError (message : String)
  /-- the driver or PostgreSQL refuses a value of the column -/
  | dataError (column : String)
deriving Repr, DecidableEq

/-! ## §2. What a column accepts. -/

/-- A `TEXT` column. -/
def textColumn (column value : String) : Except FinalizeError String :=
  if Json.textStorable value then .ok value else .error (.dataError column)

/-- A nullable `TEXT` column, given a Python value. -/
def textOrNull (column : String) : Json → Except FinalizeError (Option String)
  | .null => .ok none
  | .str s => (textColumn column s).map some
  | _ => .error (.dataError column)

/-- An `INTEGER` column. -/
def intColumn (column : String) (n : Int) : Except FinalizeError Int :=
  if -2147483648 ≤ n ∧ n ≤ 2147483647 then .ok n else .error (.dataError column)

/-- A `JSONB` column: what it gives back. -/
def jsonbColumn (u : Platform) (column : String) (v : Json) : Except FinalizeError Json :=
  if v.storable then .ok (u.jsonb v) else .error (.dataError column)

/-- `decode_json_object` of a column the driver has decoded.  (A JSON
*string* is parsed once more; none of the columns holds one.) -/
def decodeJsonObject (label : String) : Json → Except FinalizeError (List (String × Json))
  | .null => .ok []
  | .obj members => .ok members
  | _ => .error (.valueError s!"{label} must be a JSON object")

/-- `decode_json_list` of a column the driver has decoded. -/
def decodeJsonList (label : String) : Json → Except FinalizeError (List Json)
  | .null => .ok []
  | .arr xs => .ok xs
  | _ => .error (.valueError s!"{label} must be a JSON array")

/-! ## §3. Reading the promoted data. -/

/-- A row of the steps query as a `dict`. -/
def StepRow.step (r : StepRow) : Step where
  stepNumber := r.stepNumber
  occurredAt := r.occurredAt
  title := optionalText r.title
  text := r.text
  metadata := r.metadata

/-- The steps of a version, `ORDER BY step_number`. -/
def stepsOf (steps : List StepRow) (versionId : Option Uuid) : List Step :=
  ((steps.filter fun r => some r.versionId == versionId).insertionSort
    fun a b => a.stepNumber ≤ b.stepNumber).map StepRow.step

/-- The attachments of a version, `ORDER BY source_attachment_id`. -/
def attachmentsOf (u : Platform) (attachments : List AttachmentRow) (versionId : Option Uuid) :
    List Attachment :=
  ((attachments.filter fun r => some r.versionId == versionId).insertionSort
    fun a b => u.collatesBefore a.sourceAttachmentId b.sourceAttachmentId).map fun r =>
      { attachmentId := r.sourceAttachmentId, attachmentDate := r.sourceDate,
        attachmentName := r.sourceName, providerStatus := r.providerStatus }

/-- The promoted data of the process, as keyword arguments of
`semantic_document`. -/
def promotedFields (u : Platform) (s : ProcessRecords) : Except FinalizeError SemanticFields := do
  let header ← decodeJsonObject "process header" s.process.header
  let parties ← decodeJsonList "process parties" s.process.parties
  let representatives ← decodeJsonList "process representatives" s.process.representatives
  let subjects ← decodeJsonList "process subjects" s.process.subjects
  return {
    header := header
    parties := parties
    representatives := representatives
    subjects := subjects
    steps := stepsOf s.steps s.process.currentVersionId
    attachments := attachmentsOf u s.attachments s.process.currentVersionId
    court := optionalText s.process.court
    className := optionalText s.process.className
    secrecyLevel := s.process.secrecyLevel }

/-- `_current_semantic_fingerprint` of the current version. -/
def currentSemanticFingerprint (u : Platform) (s : ProcessRecords) :
    Except FinalizeError String :=
  (promotedFields u s).map (semanticFingerprint u)

/-! ## §4. Writing a version. -/

/-- `_manifest_item`, with the columns it is written to. -/
def manifestItem (u : Platform) (versionId : Uuid) (item : Attachment) :
    Except FinalizeError AttachmentRow := do
  let sourceId := u.strip item.attachmentId
  if sourceId = "" then
    throw (.valueError "attachment manifest item missing attachment_id")
  let name := (item.attachmentName.map u.strip).filter (· ≠ "")
  let status := (item.providerStatus.map fun s => u.lower (u.strip s)).filter (· ≠ "")
  return {
    versionId := versionId
    sourceAttachmentId := ← textColumn "source_attachment_id" sourceId
    sourceName := ← textOrNull "source_name" (optionalText name)
    sourceDate := item.attachmentDate
    providerStatus := ← textOrNull "provider_status" (optionalText status) }

/-- The items with the first of each id only (`seen`). -/
def firstOfEachId : List AttachmentRow → List AttachmentRow
  | [] => []
  | r :: rs => r :: (firstOfEachId rs).filter fun d => d.sourceAttachmentId ≠ r.sourceAttachmentId

/-- `INSERT … ON CONFLICT (version_id, source_attachment_id) DO UPDATE`. -/
def upsertAttachment (rows : List AttachmentRow) (r : AttachmentRow) : List AttachmentRow :=
  let same := fun d : AttachmentRow =>
    d.versionId == r.versionId && d.sourceAttachmentId == r.sourceAttachmentId
  if rows.any same then rows.map fun d => if same d then r else d else rows ++ [r]

/-- The rows `sync_attachment_manifest` writes. -/
def manifest (u : Platform) (versionId : Uuid) (attachments : List Attachment) :
    Except FinalizeError (List AttachmentRow) :=
  (attachments.mapM (manifestItem u versionId)).map firstOfEachId

/-- `sync_attachment_manifest`. -/
def syncAttachmentManifest (u : Platform) (rows : List AttachmentRow) (versionId : Uuid)
    (attachments : List Attachment) : Except FinalizeError (List AttachmentRow) :=
  (manifest u versionId attachments).map (List.foldl upsertAttachment rows)

/-- The `process_steps` row of a step. -/
def stepRow (u : Platform) (versionId : Uuid) (s : Step) : Except FinalizeError StepRow := do
  return {
    versionId := versionId
    stepNumber := ← intColumn "step_number" s.stepNumber
    occurredAt := s.occurredAt
    title := ← textOrNull "title" s.title
    text := ← textColumn "text" s.text
    metadata := ← jsonbColumn u "metadata" (s.metadata.orElse (.obj [])) }

/-- The `processes` row that promotes a version. -/
def processColumns (u : Platform) (versionId : Uuid) (f : SemanticFields) :
    Except FinalizeError ProcessRow := do
  return {
    court := ← textOrNull "court" f.court
    className := ← textOrNull "class_name" f.className
    subjects := ← jsonbColumn u "subjects" (.arr f.subjects)
    parties := ← jsonbColumn u "parties" (.arr f.parties)
    representatives := ← jsonbColumn u "representatives" (.arr f.representatives)
    secrecyLevel := ← intColumn "secrecy_level" f.secrecyLevel
    header := ← jsonbColumn u "header" (.obj f.header)
    currentVersionId := some versionId }

/-- `UPDATE process_versions SET finalized = TRUE, …`. -/
def VersionRow.finalize (fingerprint : String) (equivalentTo : Option Uuid) (now : Timestamp)
    (v : VersionRow) : VersionRow :=
  { v with
    finalized := true
    finalizedAt := some now
    semanticFingerprint := some fingerprint
    semanticSchemaVersion := some Rpy.Processes.semanticSchemaVersion
    equivalentToVersionId := equivalentTo }

/-- The versions after one of them is finalized. -/
def finalizeRow (versions : List VersionRow) (versionId : Uuid) (fingerprint : String)
    (equivalentTo : Option Uuid) (now : Timestamp) : List VersionRow :=
  versions.map fun v =>
    if v.id == versionId then v.finalize fingerprint equivalentTo now else v

/-- `created_at` of the current version (`None` without one). -/
def currentCreatedAt (s : ProcessRecords) : Option Timestamp :=
  s.process.currentVersionId.bind fun current =>
    (s.versions.find? fun v => v.id == current).map VersionRow.createdAt

/-- Is the candidate equal to the promoted data? -/
def equivalentToCurrent (u : Platform) (s : ProcessRecords) (f : SemanticFields) :
    Except FinalizeError Bool :=
  match s.process.currentVersionId with
  | none => .ok false
  | some _ => (currentSemanticFingerprint u s).map (· == semanticFingerprint u f)

/-- `current_created_at is None or candidate["created_at"] >= current_created_at`. -/
def promotes (s : ProcessRecords) (candidate : VersionRow) : Bool :=
  match currentCreatedAt s with
  | none => true
  | some createdAt => decide (createdAt ≤ candidate.createdAt)

/-- The branch that marks the version equivalent to the current one. -/
def markEquivalent (u : Platform) (s : ProcessRecords) (versionId : Uuid) (f : SemanticFields)
    (now : Timestamp) : Except FinalizeError ProcessRecords := do
  let attachments ← syncAttachmentManifest u s.attachments versionId f.attachments
  return { s with
    attachments := attachments
    versions := finalizeRow s.versions versionId (semanticFingerprint u f)
      s.process.currentVersionId now }

/-- The branch that writes the version's rows, stale or promoted. -/
def writeVersion (u : Platform) (s : ProcessRecords) (candidate : VersionRow)
    (f : SemanticFields) (now : Timestamp) : Except FinalizeError (Bool × ProcessRecords) := do
  let steps ← f.steps.mapM (stepRow u candidate.id)
  let attachments ← syncAttachmentManifest u s.attachments candidate.id f.attachments
  let written : ProcessRecords := {
    process := s.process
    -- `DELETE FROM process_steps WHERE version_id = $1`, then the new rows
    steps := (s.steps.filter fun r => r.versionId ≠ candidate.id) ++ steps
    attachments := attachments
    versions := finalizeRow s.versions candidate.id (semanticFingerprint u f) none now }
  if promotes s candidate then
    let process ← processColumns u candidate.id f
    return (true, { written with process := process })
  else
    return (false, written)

/-- `finalize_version`, given `NOW()`: was the version promoted? -/
def finalizeVersion (u : Platform) (s : ProcessRecords) (versionId : Uuid) (f : SemanticFields)
    (now : Timestamp) : Except FinalizeError (Bool × ProcessRecords) :=
  match s.versions.find? fun v => v.id == versionId with
  | none => .error (.lookupError "process version does not exist")
  | some candidate =>
      if candidate.finalized then
        .ok (s.process.currentVersionId == some versionId, s)
      else do
        if ← equivalentToCurrent u s f then
          return (false, ← markEquivalent u s versionId f now)
        else
          writeVersion u s candidate f now

/-! ## §5. What is written is read back. -/

section ReadBack

variable {u : Platform}

theorem textOrNull_eq_ok {column : String} {v : Json} {t : Option String}
    (h : textOrNull column v = .ok t) : optionalText t = v := by
  cases v with
  | null => cases h; rfl
  | str s =>
      obtain ⟨s', hs', rfl⟩ := map_eq_ok.1 h
      unfold textColumn at hs'
      split at hs'
      · cases hs'; rfl
      · cases hs'
  | _ => cases h

theorem textColumn_eq_ok {column s t : String} (h : textColumn column s = .ok t) : t = s := by
  unfold textColumn at h
  split at h
  · cases h; rfl
  · cases h

theorem intColumn_eq_ok {column : String} {n m : Int} (h : intColumn column n = .ok m) :
    m = n := by
  unfold intColumn at h
  split at h
  · cases h; rfl
  · cases h

theorem jsonbColumn_eq_ok {column : String} {v w : Json} (h : jsonbColumn u column v = .ok w) :
    w = u.jsonb v := by
  unfold jsonbColumn at h
  split at h
  · cases h; rfl
  · cases h

/-- An object column is decoded to an object. -/
theorem jsonb_obj (u : Platform) (members : List (String × Json)) :
    ∃ ms, u.jsonb (.obj members) = .obj ms := by
  have hobj : (u.jsonb (.obj members)).isObj = true := by
    rw [← Json.isObj_canon, u.jsonb_canon, Json.isObj_canon]
    rfl
  cases hv : u.jsonb (.obj members) with
  | obj ms => exact ⟨ms, rfl⟩
  | _ => rw [hv] at hobj; cases hobj

/-- An array column is decoded to an array. -/
theorem jsonb_arr (u : Platform) (xs : List Json) : ∃ ys, u.jsonb (.arr xs) = .arr ys := by
  have harr : (u.jsonb (.arr xs)).isArr = true := by
    rw [← Json.isArr_canon, u.jsonb_canon, Json.isArr_canon]
    rfl
  cases hv : u.jsonb (.arr xs) with
  | arr ys => exact ⟨ys, rfl⟩
  | _ => rw [hv] at harr; cases harr

/-- The metadata object survives `step.get("metadata") or {}`. -/
theorem metadataObject_orElse (v : Json) :
    metadataObject (v.orElse (.obj [])) = metadataObject v := by
  unfold Json.orElse
  split
  · rfl
  · rename_i hfalse
    cases v with
    | obj ms =>
        cases ms with
        | nil => rfl
        | cons => exact absurd rfl hfalse
    | _ => rfl

/-- A step as its row gives it back. -/
def Step.stored (u : Platform) (s : Step) : Step :=
  { s with metadata := u.jsonb (s.metadata.orElse (.obj [])) }

/-- What is stored of a step is the step, up to the form of its metadata. -/
theorem Step.stored_same (s : Step) : (s.stored u).Same s := by
  refine ⟨rfl, rfl, rfl, rfl, ?_⟩
  rw [show metadataObject s.metadata = metadataObject (s.metadata.orElse (.obj [])) from
    (metadataObject_orElse _).symm]
  exact metadataObject_congr Json.isForm_canon (u.jsonb_canon _)

/-- A step's row, read back, is what is stored of the step. -/
theorem stepRow_eq_ok {versionId : Uuid} {s : Step} {r : StepRow}
    (h : stepRow u versionId s = .ok r) :
    r.versionId = versionId ∧ r.stepNumber = s.stepNumber ∧ r.step = s.stored u := by
  unfold stepRow at h
  obtain ⟨number, hnumber, h⟩ := bind_eq_ok.1 h
  obtain ⟨title, htitle, h⟩ := bind_eq_ok.1 h
  obtain ⟨text, htext, h⟩ := bind_eq_ok.1 h
  obtain ⟨metadata, hmetadata, h⟩ := bind_eq_ok.1 h
  obtain rfl := Except.ok.inj h
  obtain rfl := intColumn_eq_ok hnumber
  obtain rfl := textColumn_eq_ok htext
  obtain rfl := jsonbColumn_eq_ok hmetadata
  refine ⟨rfl, rfl, ?_⟩
  unfold StepRow.step Step.stored
  rw [textOrNull_eq_ok htitle]

/-- The rows of a list of steps, read back, are what is stored of them. -/
theorem stepRows_eq_ok {versionId : Uuid} {steps : List Step} {rows : List StepRow}
    (h : steps.mapM (stepRow u versionId) = .ok rows) :
    (∀ r ∈ rows, r.versionId = versionId) ∧
      rows.map StepRow.stepNumber = steps.map Step.stepNumber ∧
      rows.map StepRow.step = steps.map (Step.stored u) := by
  have hall := forall₂_of_mapM_eq_ok h
  clear h
  induction hall with
  | nil => exact ⟨fun _ hr => (nomatch hr), rfl, rfl⟩
  | cons hrow _ ih =>
      obtain ⟨hversion, hnumber, hstored⟩ := stepRow_eq_ok hrow
      obtain ⟨hversions, hnumbers, hsteps⟩ := ih
      simp only [List.map_cons, hnumber, hnumbers, hstored, hsteps, and_self, and_true]
      intro r hr
      rcases List.mem_cons.1 hr with rfl | hr
      · exact hversion
      · exact hversions r hr

theorem stored_same_all (steps : List Step) :
    List.Forall₂ Step.Same (steps.map (Step.stored u)) steps := by
  induction steps with
  | nil => exact .nil
  | cons s steps ih => exact .cons s.stored_same ih

/-- The rows of another version do not matter. -/
theorem stepsOf_written_of_ne {old new : List StepRow} {versionId other : Uuid}
    (hnew : ∀ r ∈ new, r.versionId = versionId) (hne : other ≠ versionId) :
    stepsOf ((old.filter fun r => r.versionId ≠ versionId) ++ new) (some other) =
      stepsOf old (some other) := by
  have hnone : (new.filter fun r => some r.versionId == some other) = [] := by
    rw [List.filter_eq_nil_iff]
    intro r hr
    simpa [hnew r hr] using hne.symm
  have hold : ((old.filter fun r => r.versionId ≠ versionId).filter
      fun r => some r.versionId == some other) =
      old.filter fun r => some r.versionId == some other := by
    rw [List.filter_filter]
    refine List.filter_congr fun r _ => ?_
    by_cases hr : r.versionId = other
    · simp [hr, hne]
    · simp [hr]
  unfold stepsOf
  rw [List.filter_append, hnone, List.append_nil, hold]

/-- The rows just written are read back in order. -/
theorem stepsOf_written {old new : List StepRow} {versionId : Uuid}
    (hnew : ∀ r ∈ new, r.versionId = versionId)
    (hinc : (new.map StepRow.stepNumber).Pairwise (· < ·)) :
    stepsOf ((old.filter fun r => r.versionId ≠ versionId) ++ new) (some versionId) =
      new.map StepRow.step := by
  have hold : ((old.filter fun r => r.versionId ≠ versionId).filter
      fun r => some r.versionId == some versionId) = [] := by
    rw [List.filter_eq_nil_iff]
    intro r hr
    simpa using (List.mem_filter.1 hr).2
  have hall : (new.filter fun r => some r.versionId == some versionId) = new := by
    rw [List.filter_eq_self]
    intro r hr
    simp [hnew r hr]
  have hsorted : new.Pairwise fun a b => a.stepNumber ≤ b.stepNumber :=
    (List.pairwise_map.1 hinc).imp fun h => le_of_lt h
  unfold stepsOf
  rw [List.filter_append, hold, List.nil_append, hall, hsorted.insertionSort_eq]

theorem processColumns_currentVersionId {versionId : Uuid} {f : SemanticFields} {p : ProcessRow}
    (h : processColumns u versionId f = .ok p) : p.currentVersionId = some versionId := by
  unfold processColumns at h
  obtain ⟨_, -, h⟩ := bind_eq_ok.1 h
  obtain ⟨_, -, h⟩ := bind_eq_ok.1 h
  obtain ⟨_, -, h⟩ := bind_eq_ok.1 h
  obtain ⟨_, -, h⟩ := bind_eq_ok.1 h
  obtain ⟨_, -, h⟩ := bind_eq_ok.1 h
  obtain ⟨_, -, h⟩ := bind_eq_ok.1 h
  obtain ⟨_, -, h⟩ := bind_eq_ok.1 h
  rw [← Except.ok.inj h]

/-- The values a promoted row gives back, its steps and attachments apart. -/
structure Stored (u : Platform) (f g : SemanticFields) : Prop where
  header : u.jsonb (.obj f.header) = .obj g.header
  parties : u.jsonb (.arr f.parties) = .arr g.parties
  representatives : u.jsonb (.arr f.representatives) = .arr g.representatives
  subjects : u.jsonb (.arr f.subjects) = .arr g.subjects
  court : g.court = f.court
  className : g.className = f.className
  secrecyLevel : g.secrecyLevel = f.secrecyLevel

/-- The promoted data, read back from the columns it was written to. -/
theorem promotedFields_eq_ok {s : ProcessRecords} {versionId : Uuid} {f : SemanticFields}
    (h : processColumns u versionId f = .ok s.process) :
    ∃ g, promotedFields u s = .ok g ∧ Stored u f g ∧
      g.steps = stepsOf s.steps (some versionId) ∧
      g.attachments = attachmentsOf u s.attachments (some versionId) := by
  unfold processColumns at h
  -- The columns one by one, as the statement casts them.
  obtain ⟨court, hcourt, h⟩ := bind_eq_ok.1 h
  obtain ⟨className, hclass, h⟩ := bind_eq_ok.1 h
  obtain ⟨subjects, hsubjects, h⟩ := bind_eq_ok.1 h
  obtain ⟨parties, hparties, h⟩ := bind_eq_ok.1 h
  obtain ⟨representatives, hrepresentatives, h⟩ := bind_eq_ok.1 h
  obtain ⟨secrecy, hsecrecy, h⟩ := bind_eq_ok.1 h
  obtain ⟨header, hheader, h⟩ := bind_eq_ok.1 h
  have hrow := Except.ok.inj h
  obtain ⟨hd, hhd⟩ := jsonb_obj u f.header
  obtain ⟨ps, hps⟩ := jsonb_arr u f.parties
  obtain ⟨rs, hrs⟩ := jsonb_arr u f.representatives
  obtain ⟨ss, hss⟩ := jsonb_arr u f.subjects
  obtain rfl := jsonbColumn_eq_ok hheader
  obtain rfl := jsonbColumn_eq_ok hparties
  obtain rfl := jsonbColumn_eq_ok hrepresentatives
  obtain rfl := jsonbColumn_eq_ok hsubjects
  -- What the row is read back as, with the steps and the attachments of the version.
  have hread : promotedFields u s = .ok
      { header := hd
        parties := ps
        representatives := rs
        subjects := ss
        steps := stepsOf s.steps (some versionId)
        attachments := attachmentsOf u s.attachments (some versionId)
        court := optionalText court
        className := optionalText className
        secrecyLevel := secrecy } := by
    unfold promotedFields
    rw [← hrow]
    simp only [hhd, hps, hrs, hss]
    rfl
  refine ⟨_, hread, ?_, rfl, rfl⟩
  exact
    { header := hhd
      parties := hps
      representatives := hrs
      subjects := hss
      court := textOrNull_eq_ok hcourt
      className := textOrNull_eq_ok hclass
      secrecyLevel := intColumn_eq_ok hsecrecy }

/-- What is stored has the canonical form of the fields. -/
theorem Stored.same {f g : SemanticFields} (h : Stored u f g)
    (hsteps : List.Forall₂ Step.Same g.steps f.steps) :
    SemanticFields.Same { g with attachments := [] } { f with attachments := [] } where
  header := by rw [← h.header, u.jsonb_canon]
  parties := by rw [← h.parties, u.jsonb_canon]
  representatives := by rw [← h.representatives, u.jsonb_canon]
  subjects := by rw [← h.subjects, u.jsonb_canon]
  steps := hsteps
  attachments := rfl
  court := h.court
  className := h.className
  secrecyLevel := h.secrecyLevel

end ReadBack

/-! ## §6. The outcomes of a call. -/

section Outcomes

variable {u : Platform} {s s' : ProcessRecords} {f : SemanticFields} {now : Timestamp}

theorem manifest_isOk_of_sync {rows rows' : List AttachmentRow} {versionId : Uuid}
    {attachments : List Attachment}
    (h : syncAttachmentManifest u rows versionId attachments = .ok rows') :
    (manifest u versionId attachments).isOk = true := by
  obtain ⟨items, hitems, -⟩ := map_eq_ok.1 h
  exact isOk_iff.2 ⟨items, hitems⟩

theorem markEquivalent_eq_ok {versionId : Uuid}
    (h : markEquivalent u s versionId f now = .ok s') :
    (manifest u versionId f.attachments).isOk ∧ s'.process = s.process ∧ s'.steps = s.steps ∧
      s'.versions = finalizeRow s.versions versionId (semanticFingerprint u f)
        s.process.currentVersionId now := by
  obtain ⟨attachments, hsync, h⟩ := bind_eq_ok.1 h
  obtain rfl := Except.ok.inj h
  exact ⟨manifest_isOk_of_sync hsync, rfl, rfl, rfl⟩

/-- The version's rows are written, and the process row only if the version
is promoted. -/
theorem writeVersion_eq_ok {candidate : VersionRow} {promoted : Bool}
    (h : writeVersion u s candidate f now = .ok (promoted, s')) :
    promoted = promotes s candidate ∧
      s'.versions = finalizeRow s.versions candidate.id (semanticFingerprint u f) none now ∧
      (∃ rows, f.steps.mapM (stepRow u candidate.id) = .ok rows ∧
        s'.steps = (s.steps.filter fun r => r.versionId ≠ candidate.id) ++ rows) ∧
      (promoted = true → processColumns u candidate.id f = .ok s'.process ∧
        (manifest u candidate.id f.attachments).isOk) ∧
      (promoted = false → s'.process = s.process) := by
  unfold writeVersion at h
  obtain ⟨rows, hrows, h⟩ := bind_eq_ok.1 h
  obtain ⟨attachments, hsync, h⟩ := bind_eq_ok.1 h
  split at h
  · rename_i hpromotes
    obtain ⟨process, hprocess, h⟩ := bind_eq_ok.1 h
    obtain ⟨rfl, rfl⟩ := Prod.mk.inj (Except.ok.inj h)
    exact ⟨hpromotes.symm, rfl, ⟨rows, hrows, rfl⟩,
      fun _ => ⟨hprocess, manifest_isOk_of_sync hsync⟩, fun hf => (nomatch hf)⟩
  · rename_i hstale
    obtain ⟨rfl, rfl⟩ := Prod.mk.inj (Except.ok.inj h)
    exact ⟨by simpa using hstale, rfl, ⟨rows, hrows, rfl⟩, fun hf => (nomatch hf), fun _ => rfl⟩

/-- **The outcomes of a call**: the version was finalized before, or is
marked equivalent, or its rows are written. -/
theorem finalizeVersion_eq_ok {versionId : Uuid} {promoted : Bool}
    (h : finalizeVersion u s versionId f now = .ok (promoted, s')) :
    ∃ candidate, s.versions.find? (fun v => v.id == versionId) = some candidate ∧
      ((candidate.finalized = true ∧ s' = s) ∨
        (candidate.finalized = false ∧ equivalentToCurrent u s f = .ok true ∧
          promoted = false ∧ markEquivalent u s versionId f now = .ok s') ∨
        (candidate.finalized = false ∧ equivalentToCurrent u s f = .ok false ∧
          writeVersion u s candidate f now = .ok (promoted, s'))) := by
  unfold finalizeVersion at h
  split at h
  · cases h
  · rename_i candidate hfind
    refine ⟨candidate, hfind, ?_⟩
    split at h
    · rename_i hfinal
      obtain ⟨-, rfl⟩ := Prod.mk.inj (Except.ok.inj h)
      exact .inl ⟨hfinal, rfl⟩
    · rename_i hopen
      rw [Bool.not_eq_true] at hopen
      obtain ⟨equivalent, hequivalent, h⟩ := bind_eq_ok.1 h
      cases equivalent with
      | true =>
          obtain ⟨marked, hmarked, h⟩ := bind_eq_ok.1 h
          obtain ⟨hnot, rfl⟩ := Prod.mk.inj (Except.ok.inj h)
          exact .inr (.inl ⟨hopen, hequivalent, hnot.symm, hmarked⟩)
      | false => exact .inr (.inr ⟨hopen, hequivalent, h⟩)

/-- The columns a promotion writes accept the fields. -/
def Writable (u : Platform) (versionId : Uuid) (f : SemanticFields) : Prop :=
  (f.steps.mapM (stepRow u versionId)).isOk ∧ (manifest u versionId f.attachments).isOk ∧
    (processColumns u versionId f).isOk

theorem writable_of_promoted {candidate : VersionRow}
    (h : writeVersion u s candidate f now = .ok (true, s')) : Writable u candidate.id f := by
  obtain ⟨-, -, ⟨rows, hrows, -⟩, hpromoted, -⟩ := writeVersion_eq_ok h
  obtain ⟨hprocess, hmanifest⟩ := hpromoted rfl
  exact ⟨isOk_iff.2 ⟨rows, hrows⟩, hmanifest, isOk_iff.2 ⟨_, hprocess⟩⟩

/-- A call that finds its version equivalent returns if the manifest does. -/
theorem finalizeVersion_of_equivalent {candidate : VersionRow} (now : Timestamp)
    (hfind : s.versions.find? (fun v => v.id == candidate.id) = some candidate)
    (hopen : candidate.finalized = false) (hequivalent : equivalentToCurrent u s f = .ok true)
    (hmanifest : (manifest u candidate.id f.attachments).isOk = true) :
    ∃ s', finalizeVersion u s candidate.id f now = .ok (false, s') ∧
      markEquivalent u s candidate.id f now = .ok s' := by
  obtain ⟨rows, hrows⟩ := isOk_iff.1 hmanifest
  have hmarked : ∃ s', markEquivalent u s candidate.id f now = .ok s' := by
    refine ⟨_, bind_eq_ok.2 ⟨rows.foldl upsertAttachment s.attachments, ?_, rfl⟩⟩
    unfold syncAttachmentManifest
    rw [hrows]
    rfl
  obtain ⟨s', hs'⟩ := hmarked
  refine ⟨s', ?_, hs'⟩
  unfold finalizeVersion
  rw [hfind]
  simp only [hopen, Bool.false_eq_true, if_false]
  exact bind_eq_ok.2 ⟨true, hequivalent, bind_eq_ok.2 ⟨s', hs', rfl⟩⟩

/-- A call that promotes returns if the columns accept the fields. -/
theorem finalizeVersion_of_promotes {candidate : VersionRow} (now : Timestamp)
    (hfind : s.versions.find? (fun v => v.id == candidate.id) = some candidate)
    (hopen : candidate.finalized = false) (hnew : equivalentToCurrent u s f = .ok false)
    (hpromotes : promotes s candidate = true) (hwritable : Writable u candidate.id f) :
    ∃ s', finalizeVersion u s candidate.id f now = .ok (true, s') ∧
      writeVersion u s candidate f now = .ok (true, s') := by
  obtain ⟨hsteps, hmanifest, hcolumns⟩ := hwritable
  obtain ⟨rows, hrows⟩ := isOk_iff.1 hsteps
  obtain ⟨items, hitems⟩ := isOk_iff.1 hmanifest
  obtain ⟨process, hprocess⟩ := isOk_iff.1 hcolumns
  have hwritten : ∃ s', writeVersion u s candidate f now = .ok (true, s') := by
    unfold writeVersion syncAttachmentManifest
    rw [hrows, hitems, hpromotes, hprocess]
    exact ⟨_, rfl⟩
  obtain ⟨s', hs'⟩ := hwritten
  refine ⟨s', ?_, hs'⟩
  unfold finalizeVersion
  rw [hfind]
  simp only [hopen, Bool.false_eq_true, if_false]
  exact bind_eq_ok.2 ⟨false, hnew, hs'⟩

end Outcomes

end Rpy.Processes

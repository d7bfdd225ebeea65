/-
  Rpy.DataJud.Provenance
  ──────────────────────
  **THE STORED PROVENANCE OF A VERSION'S METADATA**
  (`app/datajud_provenance.py`, `sql/028_datajud_field_provenance.sql`).

    • `replaceDatajudFieldProvenance` — the rows of a version, replaced,
    • `replace_eq_ok`                 — the rows afterwards,
    • `rowValue_processColumns`       — a promoted row holds the values of the
                                        fields it was promoted from.
-/
import Rpy.DataJud.Merge

namespace Rpy.DataJud

open Rpy.Foundation Rpy.Processes

/-! ## §1. Rows. -/

/-- A `process_datajud_field_provenance` row. -/
structure ProvenanceRow where
  processId : Uuid
  versionId : Uuid
  fieldName : MetadataField
  selectedSource : SourceName
  selectedValue : Json
  conflict : Bool
  sourceRef : Option String
deriving Repr, DecidableEq

/-- `source_ref IS NOT NULL AND length(trim(source_ref)) > 0`. -/
def sourceRefFilled : Option String → Bool
  | none => false
  | some ref => ref.toList.any fun c => c != ' '

/-- The row of one selection, with the checks of its columns. -/
def provenanceRow (u : Platform) (processId versionId : Uuid) (item : FieldProvenance) :
    Except FinalizeError ProvenanceRow := do
  let selectedValue ← jsonbColumn u "selected_value" item.selectedValue
  let sourceRef ← textOrNull "source_ref" (optionalText item.sourceRef)
  if item.selectedSource = .datajud ∧ sourceRefFilled sourceRef = false then
    throw (.dataError "source_ref")
  return {
    processId := processId
    versionId := versionId
    fieldName := item.field
    selectedSource := item.selectedSource
    selectedValue := selectedValue
    conflict := item.conflict
    sourceRef := sourceRef }

/-- `replace_datajud_field_provenance`.  `owner` is the process of the version,
which the table's trigger compares with; the key is `(version_id, field_name)`. -/
def replaceDatajudFieldProvenance (u : Platform) (rows : List ProvenanceRow)
    (owner : Option Uuid) (processId versionId : Uuid) (result : DataJudMergeResult) :
    Except FinalizeError (List ProvenanceRow) := do
  let kept := rows.filter fun r => r.versionId ≠ versionId
  if result.provenance.isEmpty then
    return kept
  if owner ≠ some processId then
    throw (.dataError "version_id")
  if ¬ (result.provenance.map FieldProvenance.field).Nodup then
    throw (.dataError "field_name")
  let items ← result.provenance.mapM (provenanceRow u processId versionId)
  return kept ++ items

/-! ## §2. The rows afterwards. -/

section Rows

variable {u : Platform} {processId versionId : Uuid}

/-- What a row states is what the selection states. -/
structure States (u : Platform) (row : ProvenanceRow) (item : FieldProvenance) : Prop where
  fieldName : row.fieldName = item.field
  selectedSource : row.selectedSource = item.selectedSource
  selectedValue : row.selectedValue.canon = item.selectedValue.canon

theorem provenanceRow_eq_ok {item : FieldProvenance} {row : ProvenanceRow}
    (h : provenanceRow u processId versionId item = .ok row) :
    row.versionId = versionId ∧ States u row item := by
  unfold provenanceRow at h
  obtain ⟨value, hvalue, h⟩ := bind_eq_ok.1 h
  obtain ⟨ref, -, h⟩ := bind_eq_ok.1 h
  obtain rfl := jsonbColumn_eq_ok hvalue
  split at h
  · cases h
  · obtain rfl := Except.ok.inj h
    exact ⟨rfl, rfl, rfl, u.jsonb_canon _⟩

/-- The rows of a list of selections, in order. -/
theorem provenanceRows_eq_ok {items : List FieldProvenance} {rows : List ProvenanceRow}
    (h : items.mapM (provenanceRow u processId versionId) = .ok rows) :
    (∀ row ∈ rows, row.versionId = versionId) ∧ List.Forall₂ (States u) rows items := by
  have hall := forall₂_of_mapM_eq_ok h
  clear h
  induction hall with
  | nil => exact ⟨fun _ hrow => (nomatch hrow), .nil⟩
  | cons hrow _ ih =>
      obtain ⟨hversion, hstates⟩ := provenanceRow_eq_ok hrow
      refine ⟨fun row hmem => ?_, .cons hstates ih.2⟩
      rcases List.mem_cons.1 hmem with rfl | hmem
      · exact hversion
      · exact ih.1 row hmem

/-- **The rows afterwards**: those of other versions, and the selections. -/
theorem replace_eq_ok {rows rows' : List ProvenanceRow} {owner : Option Uuid}
    {result : DataJudMergeResult}
    (h : replaceDatajudFieldProvenance u rows owner processId versionId result = .ok rows') :
    ∃ items, rows' = (rows.filter fun r => r.versionId ≠ versionId) ++ items ∧
      (∀ row ∈ items, row.versionId = versionId) ∧
      List.Forall₂ (States u) items result.provenance := by
  unfold replaceDatajudFieldProvenance at h
  dsimp only at h
  split at h
  · rename_i hempty
    obtain rfl := Except.ok.inj h
    refine ⟨[], (List.append_nil _).symm, fun _ hrow => (nomatch hrow), ?_⟩
    rw [List.isEmpty_iff.1 hempty]
    exact .nil
  · split at h
    · cases h
    · split at h
      · cases h
      · obtain ⟨items, hitems, h⟩ := bind_eq_ok.1 h
        obtain rfl := Except.ok.inj h
        obtain ⟨hversion, hstates⟩ := provenanceRows_eq_ok hitems
        exact ⟨items, rfl, hversion, hstates⟩

end Rows

/-! ## §3. What a promoted row holds. -/

/-- **A promoted row holds the values of the fields it was promoted from.** -/
theorem rowValue_processColumns {u : Platform} {versionId : Uuid} {f : SemanticFields}
    {p : ProcessRow} (h : processColumns u versionId f = .ok p) (field : MetadataField) :
    (rowValue p field).canon = (fieldsValue f field).canon := by
  unfold processColumns at h
  obtain ⟨court, -, h⟩ := bind_eq_ok.1 h
  obtain ⟨className, hclass, h⟩ := bind_eq_ok.1 h
  obtain ⟨subjects, hsubjects, h⟩ := bind_eq_ok.1 h
  obtain ⟨parties, -, h⟩ := bind_eq_ok.1 h
  obtain ⟨representatives, -, h⟩ := bind_eq_ok.1 h
  obtain ⟨secrecy, -, h⟩ := bind_eq_ok.1 h
  obtain ⟨header, hheader, h⟩ := bind_eq_ok.1 h
  obtain rfl := Except.ok.inj h
  obtain rfl := jsonbColumn_eq_ok hsubjects
  obtain rfl := jsonbColumn_eq_ok hheader
  have hmember (key : String) := Json.get_canon_congr (u.jsonb_canon (.obj f.header)) key
  cases field with
  | className => exact congrArg Json.canon (textOrNull_eq_ok hclass)
  | subjects => exact u.jsonb_canon _
  | classCode => exact hmember _
  | adjudicatingBody => exact hmember _
  | county => exact hmember _

end Rpy.DataJud

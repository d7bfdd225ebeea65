/-
  Rpy.DataJud.Merge
  ─────────────────
  **MERGING OFFICIAL METADATA INTO THE PROMOTABLE FIELDS**
  (`app/datajud_enrichment.py`).

    • `normalizeSubjects`     — subjects with the first of each code and name,
    • `selectScalar`          — the official value where there is one,
    • `mergeDatajudMetadata`  — the merged fields, and for each modelled field
                                the source and value it was given,
    • `merge_selected`        — the merged fields hold the selected values.
-/
import Rpy.Processes.Finalize

namespace Rpy.DataJud

open Rpy.Foundation Rpy.Processes

/-! ## §1. What the adapter gives and what the merge records. -/

/-- `SourceName`. -/
inductive SourceName where
  | judit
  | datajud
deriving Repr, DecidableEq

/-- The modelled metadata fields (`field_name`). -/
inductive MetadataField where
  | className
  | classCode
  | subjects
  | adjudicatingBody
  | county
deriving Repr, DecidableEq

/-- The name of a field in messages and in `field_name`. -/
def MetadataField.name : MetadataField → String
  | className => "class_name"
  | classCode => "class_code"
  | subjects => "subjects"
  | adjudicatingBody => "adjudicating_body"
  | county => "county"

/-- Normalized metadata returned by an authorized DataJud adapter. -/
structure DataJudMetadata where
  className : Option String := none
  classCode : Option String := none
  subjects : List Json := []
  adjudicatingBody : Option String := none
  county : Option String := none
  sourceRef : String := "DataJud/CNJ"
deriving Repr, DecidableEq

/-- Which source a field was taken from, and with which value. -/
structure FieldProvenance where
  field : MetadataField
  selectedSource : SourceName
  selectedValue : Json
  conflict : Bool
  sourceRef : Option String
deriving Repr, DecidableEq

/-- `DataJudMergeResult`. -/
structure DataJudMergeResult where
  process : SemanticFields
  provenance : List FieldProvenance
  warnings : List String
  datajudApplied : Bool
deriving Repr, DecidableEq

/-! ## §2. Values and subjects. -/

/-- `_clean`. -/
def clean (py : Python) (value : Json) : Option String :=
  if value = .null then none
  else
    let rendered := py.strip (py.str value)
    if rendered = "" then none else some rendered

/-- A normalized subject: a code, a name, or both. -/
structure Subject where
  code : Option String
  name : Option String
deriving Repr, DecidableEq

/-- The subject as a `dict`, without the missing part. -/
def Subject.dict (s : Subject) : Json :=
  .obj ((s.code.toList.map fun c => ("code", Json.str c)) ++
    s.name.toList.map fun n => ("name", Json.str n))

/-- `_subject`. -/
def subject (py : Python) (v : Json) : Option Subject :=
  if v.isObj then
    let s : Subject := { code := clean py (v.get "code"), name := clean py (v.get "name") }
    if s.code = none ∧ s.name = none then none else some s
  else none

/-- `normalize_subjects`: the first of each `(code, name)`. -/
def normalizeSubjects (py : Python) (subjects : List Json) : List Subject :=
  (subjects.filterMap (subject py)).eraseDups

/-- `[dict(item) for item in …]`. -/
def subjectDicts (subjects : List Subject) : List Json :=
  subjects.map Subject.dict

/-- `_subject_identity(left) != _subject_identity(right)`, on sets. -/
def differentSubjects (py : Python) (left right : List Subject) : Bool :=
  let ls := normalizeSubjects py (subjectDicts left)
  let rs := normalizeSubjects py (subjectDicts right)
  !(ls.all (rs.contains ·) && rs.all (ls.contains ·))

/-- `_different`. -/
def different (py : Python) (left right : Option String) : Bool :=
  match left, right with
  | some l, some r => py.casefold l != py.casefold r
  | _, _ => false

/-- `_warning`. -/
def warning (field : MetadataField) : String :=
  s!"Conflito de metadados entre Judit e DataJud no campo {field.name}; " ++
    "o valor oficial do DataJud foi usado no contexto normalizado."

/-! ## §3. The merge. -/

/-- What one field is given: its provenance and its warning. -/
structure Selection where
  provenance : FieldProvenance
  warning : Option String
deriving Repr, DecidableEq

/-- `_select_scalar`; the selected value is the one the provenance states. -/
def selectScalar (py : Python) (field : MetadataField) (juditValue : Json)
    (datajudValue : Option String) (sourceRef : String) : Selection :=
  match clean py (optionalText datajudValue) with
  | none =>
      { provenance :=
          { field := field, selectedSource := .judit, selectedValue := juditValue,
            conflict := false, sourceRef := none }
        warning := none }
  | some official =>
      let conflict := different py (clean py juditValue) (some official)
      { provenance :=
          { field := field, selectedSource := .datajud, selectedValue := .str official,
            conflict := conflict, sourceRef := some sourceRef }
        warning := if conflict then some (Rpy.DataJud.warning field) else none }

/-- `merged["subjects"]`: the official subjects where there are any. -/
def selectedSubjects (py : Python) (juditSubjects datajudSubjects : List Json) : List Json :=
  let datajud := normalizeSubjects py datajudSubjects
  subjectDicts (if datajud.isEmpty then normalizeSubjects py juditSubjects else datajud)

/-- The selection of the subjects. -/
def selectSubjects (py : Python) (juditSubjects datajudSubjects : List Json)
    (sourceRef : String) : Selection :=
  let judit := normalizeSubjects py juditSubjects
  let datajud := normalizeSubjects py datajudSubjects
  let value := Json.arr (selectedSubjects py juditSubjects datajudSubjects)
  if datajud.isEmpty then
    { provenance :=
        { field := .subjects, selectedSource := .judit, selectedValue := value,
          conflict := false, sourceRef := none }
      warning := none }
  else
    let conflict := !judit.isEmpty && differentSubjects py judit datajud
    { provenance :=
        { field := .subjects, selectedSource := .datajud, selectedValue := value,
          conflict := conflict, sourceRef := some sourceRef }
      warning := if conflict then some (warning .subjects) else none }

/-- `members[key] = value` on a `dict`: in place, or at the end. -/
def setMember (key : String) (value : Json) : List (String × Json) → List (String × Json)
  | [] => [(key, value)]
  | (k, v) :: ms => if key == k then (k, value) :: ms else (k, v) :: setMember key value ms

/-- `if value is not None: header[key] = value`. -/
def setPresent (key : String) (value : Json) (header : List (String × Json)) :
    List (String × Json) :=
  if value = .null then header else setMember key value header

/-- `merge_datajud_metadata`, of metadata that was found.  Nothing is applied
to a process under secrecy. -/
def mergeDatajudMetadata (py : Python) (judit : SemanticFields) (datajud : DataJudMetadata) :
    DataJudMergeResult :=
  if 0 < judit.secrecyLevel then
    { process := judit, provenance := [], warnings := [], datajudApplied := false }
  else
    let headerValue (key : String) := (Json.obj judit.header).get key
    let className := selectScalar py .className judit.className datajud.className
      datajud.sourceRef
    let classCode := selectScalar py .classCode (headerValue "class_code") datajud.classCode
      datajud.sourceRef
    let adjudicatingBody := selectScalar py .adjudicatingBody (headerValue "adjudicating_body")
      datajud.adjudicatingBody datajud.sourceRef
    let county := selectScalar py .county (headerValue "county") datajud.county
      datajud.sourceRef
    let subjects := selectSubjects py judit.subjects datajud.subjects datajud.sourceRef
    let selections := [className, classCode, adjudicatingBody, county, subjects]
    { process := { judit with
        className := className.provenance.selectedValue
        header :=
          setPresent "county" county.provenance.selectedValue
            (setPresent "adjudicating_body" adjudicatingBody.provenance.selectedValue
              (setPresent "class_code" classCode.provenance.selectedValue judit.header))
        subjects := selectedSubjects py judit.subjects datajud.subjects }
      provenance := selections.map Selection.provenance
      warnings := selections.filterMap Selection.warning
      datajudApplied := true }

/-! ## §4. The merged fields hold the selected values. -/

/-- The value of a modelled field, given the class, the header and the subjects. -/
def metadataValue (className header subjects : Json) : MetadataField → Json
  | .className => className
  | .subjects => subjects
  | .classCode => header.get "class_code"
  | .adjudicatingBody => header.get "adjudicating_body"
  | .county => header.get "county"

/-- What promotable fields hold for a modelled field. -/
def fieldsValue (f : SemanticFields) : MetadataField → Json :=
  metadataValue f.className (.obj f.header) (.arr f.subjects)

/-- What a `processes` row holds for a modelled field. -/
def rowValue (p : ProcessRow) : MetadataField → Json :=
  metadataValue (optionalText p.className) p.header p.subjects

theorem get_setMember (key key' : String) (value : Json) (members : List (String × Json)) :
    (Json.obj (setMember key value members)).get key' =
      if key' = key then value else (Json.obj members).get key' := by
  unfold Json.get Json.get?
  induction members with
  | nil =>
      by_cases h : key' = key
      · simp [setMember, h]
      · have hne : (key' == key) = false := by simpa using h
        simp [setMember, List.lookup_cons, hne, h]
  | cons m ms ih =>
      obtain ⟨k, v⟩ := m
      unfold setMember
      by_cases hk : key = k
      · subst hk
        by_cases h : key' = key
        · simp [h]
        · have hne : (key' == key) = false := by simpa using h
          simp [List.lookup_cons, hne, h]
      · have hne : (key == k) = false := by simpa using hk
        simp only [hne, Bool.false_eq_true, if_false, List.lookup_cons]
        by_cases h : key' = k
        · have hne' : k ≠ key := fun heq => hk heq.symm
          simp [h, hne']
        · have hne' : (key' == k) = false := by simpa using h
          simpa [hne'] using ih

/-- A member that is set to the value selected for it holds that value,
`None` included: the selection is then the absent member itself. -/
theorem get_setPresent_self {key : String} {value : Json} {header : List (String × Json)}
    (hnull : value = .null → (Json.obj header).get key = .null) :
    (Json.obj (setPresent key value header)).get key = value := by
  unfold setPresent
  split
  · rename_i h
    rw [hnull h, h]
  · rw [get_setMember, if_pos rfl]

theorem get_setPresent_of_ne {key key' : String} (value : Json) (header : List (String × Json))
    (hne : key' ≠ key) :
    (Json.obj (setPresent key value header)).get key' = (Json.obj header).get key' := by
  unfold setPresent
  split
  · rfl
  · rw [get_setMember, if_neg hne]

section Select

variable {py : Python} {field : MetadataField} {juditValue : Json} {datajudValue : Option String}
  {sourceRef : String}

theorem selectScalar_field :
    (selectScalar py field juditValue datajudValue sourceRef).provenance.field = field := by
  unfold selectScalar
  split <;> rfl

/-- A selection is `None` only where Judit has nothing either. -/
theorem selectScalar_null
    (h : (selectScalar py field juditValue datajudValue sourceRef).provenance.selectedValue =
      .null) : juditValue = .null := by
  unfold selectScalar at h
  split at h
  · exact h
  · cases h

theorem selectSubjects_field {judit datajud : List Json} :
    (selectSubjects py judit datajud sourceRef).provenance.field = .subjects := by
  unfold selectSubjects
  dsimp only
  split <;> rfl

theorem selectSubjects_value {judit datajud : List Json} :
    (selectSubjects py judit datajud sourceRef).provenance.selectedValue =
      .arr (selectedSubjects py judit datajud) := by
  unfold selectSubjects
  dsimp only
  split <;> rfl

end Select

/-- **The merged fields hold, for every field with a provenance, the value
the provenance states.** -/
theorem merge_selected (py : Python) (judit : SemanticFields) (datajud : DataJudMetadata)
    {item : FieldProvenance} (h : item ∈ (mergeDatajudMetadata py judit datajud).provenance) :
    fieldsValue (mergeDatajudMetadata py judit datajud).process item.field =
      item.selectedValue := by
  unfold mergeDatajudMetadata at h ⊢
  split at h
  · cases h
  · rename_i hpublic
    rw [if_neg hpublic]
    simp only [List.map_cons, List.map_nil, List.mem_cons, List.not_mem_nil, or_false] at h
    unfold fieldsValue
    rcases h with rfl | rfl | rfl | rfl | rfl
    · rw [selectScalar_field]
      rfl
    -- the header's members are set one after the other, under different keys
    · rw [selectScalar_field]
      show (Json.obj (setPresent "county" _ _)).get "class_code" = _
      rw [get_setPresent_of_ne _ _ (by decide), get_setPresent_of_ne _ _ (by decide),
        get_setPresent_self selectScalar_null]
    · rw [selectScalar_field]
      show (Json.obj (setPresent "county" _ _)).get "adjudicating_body" = _
      rw [get_setPresent_of_ne _ _ (by decide), get_setPresent_self fun hnull => ?_]
      rw [get_setPresent_of_ne _ _ (by decide)]
      exact selectScalar_null hnull
    · rw [selectScalar_field]
      show (Json.obj (setPresent "county" _ _)).get "county" = _
      rw [get_setPresent_self fun hnull => ?_]
      rw [get_setPresent_of_ne _ _ (by decide), get_setPresent_of_ne _ _ (by decide)]
      exact selectScalar_null hnull
    · rw [selectSubjects_field, selectSubjects_value]
      rfl

/-- A merge states each modelled field once, or none at all. -/
theorem merge_fields_nodup (py : Python) (judit : SemanticFields) (datajud : DataJudMetadata) :
    ((mergeDatajudMetadata py judit datajud).provenance.map FieldProvenance.field).Nodup := by
  unfold mergeDatajudMetadata
  split
  · exact .nil
  · simp only [List.map_cons, List.map_nil, selectScalar_field, selectSubjects_field]
    decide

end Rpy.DataJud

/-
  Rpy.DataJud.Conservative
  ────────────────────────
  **THE MERGE TAKES WHAT IS MODELLED AND LEAVES THE REST.**

  Judit owns the parties, the movements and the secrecy of a process.  The
  official metadata replaces five fields at most, each with a provenance and,
  where the two sources differ, a warning.

    • `Differs`                 — both sources have a value, and not the same,
    • `normalizeSubjects_dicts` — normalized subjects are normalized again,
    • `merge_again`             — the second merge changes nothing,
    • `merge_conservative`      — what a merge does.
-/
import Rpy.DataJud.Merge
import Mathlib.Data.Finset.Basic

namespace Rpy.DataJud

open Rpy.Foundation Rpy.Processes

/-! ## §1. When the sources differ. -/

/-- The fields in the order of their provenance. -/
def metadataFields : List MetadataField :=
  [.className, .classCode, .adjudicatingBody, .county, .subjects]

/-- The keys of the header that are modelled. -/
def modelledKeys : List String := ["class_code", "adjudicating_body", "county"]

/-- The official text of a field; the subjects have none. -/
def DataJudMetadata.text (datajud : DataJudMetadata) : MetadataField → Option String
  | .className => datajud.className
  | .classCode => datajud.classCode
  | .adjudicatingBody => datajud.adjudicatingBody
  | .county => datajud.county
  | .subjects => none

/-- Two texts that differ, not only in case or in the blanks around them. -/
def TextsDiffer (py : Python) (judit : Json) (official : Option String) : Prop :=
  ∃ l r, clean py judit = some l ∧ clean py (optionalText official) = some r ∧
    py.casefold l ≠ py.casefold r

/-- Two lists of subjects that differ as sets. -/
def SubjectsDiffer (py : Python) (judit datajud : List Json) : Prop :=
  normalizeSubjects py judit ≠ [] ∧ normalizeSubjects py datajud ≠ [] ∧
    (normalizeSubjects py judit).toFinset ≠ (normalizeSubjects py datajud).toFinset

/-- **Both sources have a value for the field, and they differ.** -/
def Differs (py : Python) (judit : SemanticFields) (datajud : DataJudMetadata) :
    MetadataField → Prop
  | .subjects => SubjectsDiffer py judit.subjects datajud.subjects
  | field => TextsDiffer py (fieldsValue judit field) (datajud.text field)

/-- What a merge into a public process does. -/
structure MergesConservatively (py : Python) (judit : SemanticFields)
    (datajud : DataJudMetadata) (merged : DataJudMergeResult) : Prop where
  /-- what Judit owns is as it was -/
  owned : { merged.process with
      className := judit.className, header := judit.header, subjects := judit.subjects } = judit
  /-- the other keys of the header are as they were -/
  header : ∀ key, key ∉ modelledKeys →
    merged.process.header.lookup key = judit.header.lookup key
  /-- each modelled field has one entry -/
  once : merged.provenance.map FieldProvenance.field = metadataFields
  /-- an entry states the merged value -/
  selected : ∀ item ∈ merged.provenance, fieldsValue merged.process item.field = item.selectedValue
  /-- and whether the sources differ -/
  conflicts : ∀ item ∈ merged.provenance,
    item.conflict = true ↔ Differs py judit datajud item.field
  /-- which is what is warned of -/
  warned : merged.warnings =
    (merged.provenance.filter FieldProvenance.conflict).map fun item => warning item.field
  /-- a second merge changes nothing -/
  again : (mergeDatajudMetadata py merged.process datajud).process = merged.process

/-! ## §2. Subjects. -/

section EraseDups

variable {α : Type} [DecidableEq α]

theorem nodup_eraseDups (l : List α) : l.eraseDups.Nodup := by
  induction hn : l.length using Nat.strongRecOn generalizing l with
  | ind n ih =>
      cases l with
      | nil => exact .nil
      | cons a l =>
          rw [List.eraseDups_cons, List.nodup_cons]
          have hshorter := List.length_filter_le (fun b => !b == a) l
          rw [List.length_cons] at hn
          refine ⟨fun hin => ?_, ih _ (by omega) _ rfl⟩
          have hne := (List.mem_filter.1 (List.mem_eraseDups.1 hin)).2
          simp at hne

theorem eraseDups_of_nodup {l : List α} (h : l.Nodup) : l.eraseDups = l := by
  induction l with
  | nil => rfl
  | cons a l ih =>
      rw [List.nodup_cons] at h
      have hkeep : l.filter (fun b => !b == a) = l := by
        refine List.filter_eq_self.2 fun b hb => ?_
        have hne : b ≠ a := fun heq => h.1 (heq ▸ hb)
        simpa using hne
      rw [List.eraseDups_cons, hkeep, ih h.2]

end EraseDups

section Subjects

variable {u : Unicode}

/-- A cleaned text is cleaned to itself. -/
theorem clean_of_clean {value : Json} {s : String} (h : clean u.toPython value = some s) :
    clean u.toPython (.str s) = some s := by
  unfold clean at h
  by_cases hnull : value = .null
  · rw [if_pos hnull] at h
    cases h
  rw [if_neg hnull] at h
  by_cases hempty : u.strip (u.str value) = ""
  · rw [if_pos hempty] at h
    cases h
  rw [if_neg hempty] at h
  obtain rfl := Option.some.inj h
  unfold clean
  rw [if_neg (by simp), u.str_str, strip_strip, if_neg hempty]

theorem clean_optionalText (value : Json) {s : Option String} (h : clean u.toPython value = s) :
    clean u.toPython (optionalText s) = s := by
  cases s with
  | none => rfl
  | some s => exact clean_of_clean h

theorem isObj_dict (s : Subject) : s.dict.isObj = true := rfl

theorem dict_get_code (s : Subject) : s.dict.get "code" = optionalText s.code := by
  obtain ⟨_ | code, _ | name⟩ := s <;> rfl

theorem dict_get_name (s : Subject) : s.dict.get "name" = optionalText s.name := by
  obtain ⟨_ | code, _ | name⟩ := s <;> rfl

/-- A normalized subject is a subject. -/
theorem subject_dict {value : Json} {s : Subject} (h : subject u.toPython value = some s) :
    subject u.toPython s.dict = some s := by
  unfold subject at h
  by_cases hobj : value.isObj = true
  · rw [if_pos hobj] at h
    by_cases hempty : clean u.toPython (value.get "code") = none ∧
        clean u.toPython (value.get "name") = none
    · rw [if_pos hempty] at h
      cases h
    rw [if_neg hempty] at h
    obtain rfl := Option.some.inj h
    have hcode := clean_optionalText (u := u) (value.get "code") rfl
    have hname := clean_optionalText (u := u) (value.get "name") rfl
    unfold subject
    rw [if_pos (isObj_dict _), dict_get_code, dict_get_name, hcode, hname]
    exact if_neg hempty
  · rw [if_neg hobj] at h
    cases h

/-- **Normalized subjects are normalized again.** -/
theorem normalizeSubjects_dicts (xs : List Json) :
    normalizeSubjects u.toPython (subjectDicts (normalizeSubjects u.toPython xs)) =
      normalizeSubjects u.toPython xs := by
  have hread : (subjectDicts (normalizeSubjects u.toPython xs)).filterMap
      (subject u.toPython) = normalizeSubjects u.toPython xs := by
    unfold subjectDicts
    rw [List.filterMap_map]
    refine (List.filterMap_congr fun s hs => ?_).trans List.filterMap_some
    obtain ⟨value, -, hvalue⟩ := List.mem_filterMap.1 (List.mem_eraseDups.1 hs)
    exact subject_dict hvalue
  show (List.filterMap (subject u.toPython) _).eraseDups = _
  rw [hread]
  exact eraseDups_of_nodup (nodup_eraseDups _)

theorem differentSubjects_iff (xs ys : List Json) :
    differentSubjects u.toPython (normalizeSubjects u.toPython xs)
        (normalizeSubjects u.toPython ys) = true ↔
      (normalizeSubjects u.toPython xs).toFinset ≠ (normalizeSubjects u.toPython ys).toFinset := by
  unfold differentSubjects
  simp only [normalizeSubjects_dicts]
  rw [Bool.not_eq_true', ← Bool.not_eq_true, not_iff_not, Finset.ext_iff]
  simp only [Bool.and_eq_true, List.all_eq_true, List.contains_iff_mem, List.mem_toFinset]
  exact ⟨fun h s => ⟨h.1 s, h.2 s⟩, fun h => ⟨fun s => (h s).1, fun s => (h s).2⟩⟩

end Subjects

/-! ## §3. One field. -/

section Fields

variable {u : Unicode} {field : MetadataField} {juditValue : Json} {official : Option String}
  {sourceRef : String}

theorem selectScalar_conflict :
    (selectScalar u.toPython field juditValue official sourceRef).provenance.conflict = true ↔
      TextsDiffer u.toPython juditValue official := by
  unfold selectScalar TextsDiffer
  cases hofficial : clean u.toPython (optionalText official) with
  | none => simp
  | some r =>
      cases hcurrent : clean u.toPython juditValue with
      | none => simp [different]
      | some l => simp [different]

theorem selectSubjects_conflict {judit datajud : List Json} :
    (selectSubjects u.toPython judit datajud sourceRef).provenance.conflict = true ↔
      SubjectsDiffer u.toPython judit datajud := by
  unfold selectSubjects SubjectsDiffer
  dsimp only
  by_cases hnone : normalizeSubjects u.toPython datajud = []
  · simp [hnone]
  · have hsome : (normalizeSubjects u.toPython datajud).isEmpty = false := by
      simpa using hnone
    rw [hsome, if_neg Bool.false_ne_true]
    simp [hnone, differentSubjects_iff]

/-- A selection warns where the sources conflict. -/
def Selection.Warns (s : Selection) : Prop :=
  s.warning = if s.provenance.conflict then some (DataJud.warning s.provenance.field) else none

theorem selectScalar_warns :
    (selectScalar u.toPython field juditValue official sourceRef).Warns := by
  unfold Selection.Warns selectScalar
  split <;> rfl

theorem selectSubjects_warns {judit datajud : List Json} :
    (selectSubjects u.toPython judit datajud sourceRef).Warns := by
  unfold Selection.Warns selectSubjects
  dsimp only
  split <;> rfl

/-- The warnings are those of the conflicts, in the order of the fields. -/
theorem filterMap_warning {selections : List Selection} (h : ∀ s ∈ selections, s.Warns) :
    selections.filterMap Selection.warning =
      ((selections.map Selection.provenance).filter FieldProvenance.conflict).map fun item =>
        warning item.field := by
  induction selections with
  | nil => rfl
  | cons s selections ih =>
      have hs : s.Warns := h s List.mem_cons_self
      have htail := ih fun t ht => h t (List.mem_cons_of_mem _ ht)
      unfold Selection.Warns at hs
      rw [List.filterMap_cons, hs, htail, List.map_cons, List.filter_cons]
      cases s.provenance.conflict <;> rfl

/-- A value that was selected is selected again. -/
theorem selectScalar_again {value : Json}
    (h : (selectScalar u.toPython field juditValue official sourceRef).provenance.selectedValue =
      value) :
    (selectScalar u.toPython field value official sourceRef).provenance.selectedValue = value := by
  unfold selectScalar at h ⊢
  split
  · rfl
  · rename_i r hofficial
    rw [hofficial] at h
    exact h

theorem selectedSubjects_again (judit datajud : List Json) :
    selectedSubjects u.toPython (selectedSubjects u.toPython judit datajud) datajud =
      selectedSubjects u.toPython judit datajud := by
  unfold selectedSubjects
  dsimp only
  split
  · rw [normalizeSubjects_dicts]
  · rfl

end Fields

/-! ## §4. The header. -/

section Header

theorem lookup_setMember_of_ne {key key' : String} (value : Json)
    (members : List (String × Json)) (hne : key' ≠ key) :
    (setMember key value members).lookup key' = members.lookup key' := by
  have hfalse : (key' == key) = false := by simpa using hne
  induction members with
  | nil => simp [setMember, List.lookup_cons, hfalse]
  | cons m ms ih =>
      obtain ⟨k, v⟩ := m
      unfold setMember
      by_cases hk : key = k
      · subst hk
        simp [List.lookup_cons, hfalse]
      · have hother : (key == k) = false := by simpa using hk
        simp only [hother, Bool.false_eq_true, if_false, List.lookup_cons, ih]

theorem lookup_setPresent_of_ne {key key' : String} (value : Json)
    (header : List (String × Json)) (hne : key' ≠ key) :
    (setPresent key value header).lookup key' = header.lookup key' := by
  unfold setPresent
  split
  · rfl
  · exact lookup_setMember_of_ne value header hne

/-- A member is set to what it holds: nothing changes. -/
theorem setPresent_of_get {key : String} {value : Json} {header : List (String × Json)}
    (h : (Json.obj header).get key = value) : setPresent key value header = header := by
  unfold setPresent
  split
  · rfl
  rename_i hvalue
  unfold Json.get Json.get? at h
  induction header with
  | nil => exact absurd h.symm hvalue
  | cons m ms ih =>
      obtain ⟨k, v⟩ := m
      unfold setMember
      by_cases hk : key = k
      · subst hk
        simp at h
        simp [h]
      · have hother : (key == k) = false := by simpa using hk
        simp only [hother, Bool.false_eq_true, if_false]
        rw [ih]
        simpa only [List.lookup_cons, hother] using h

end Header

/-! ## §5. The merge. -/

section Merge

variable {u : Unicode} {judit : SemanticFields} {datajud : DataJudMetadata}

/-- What the modelled fields are given, in the order of their provenance. -/
def selections (py : Python) (judit : SemanticFields) (datajud : DataJudMetadata) :
    List Selection :=
  [selectScalar py .className judit.className datajud.className datajud.sourceRef,
    selectScalar py .classCode ((Json.obj judit.header).get "class_code") datajud.classCode
      datajud.sourceRef,
    selectScalar py .adjudicatingBody ((Json.obj judit.header).get "adjudicating_body")
      datajud.adjudicatingBody datajud.sourceRef,
    selectScalar py .county ((Json.obj judit.header).get "county") datajud.county
      datajud.sourceRef,
    selectSubjects py judit.subjects datajud.subjects datajud.sourceRef]

theorem merge_provenance (hpublic : ¬ 0 < judit.secrecyLevel) :
    (mergeDatajudMetadata u.toPython judit datajud).provenance =
      (selections u.toPython judit datajud).map Selection.provenance := by
  unfold mergeDatajudMetadata
  rw [if_neg hpublic]
  rfl

theorem merge_warnings (hpublic : ¬ 0 < judit.secrecyLevel) :
    (mergeDatajudMetadata u.toPython judit datajud).warnings =
      (selections u.toPython judit datajud).filterMap Selection.warning := by
  unfold mergeDatajudMetadata
  rw [if_neg hpublic]
  rfl

theorem selections_warn : ∀ s ∈ selections u.toPython judit datajud, s.Warns := by
  unfold selections
  simp only [List.forall_mem_cons]
  exact ⟨selectScalar_warns, selectScalar_warns, selectScalar_warns, selectScalar_warns,
    selectSubjects_warns, List.forall_mem_nil _⟩

/-- A field conflicts where the sources differ. -/
theorem selections_conflict : ∀ s ∈ selections u.toPython judit datajud,
    s.provenance.conflict = true ↔ Differs u.toPython judit datajud s.provenance.field := by
  unfold selections
  simp only [List.forall_mem_cons, selectScalar_field, selectSubjects_field]
  exact ⟨selectScalar_conflict, selectScalar_conflict, selectScalar_conflict,
    selectScalar_conflict, selectSubjects_conflict, List.forall_mem_nil _⟩

theorem merge_owned :
    { (mergeDatajudMetadata u.toPython judit datajud).process with
      className := judit.className, header := judit.header, subjects := judit.subjects } =
      judit := by
  unfold mergeDatajudMetadata
  split <;> rfl

theorem merge_header {key : String} (hkey : key ∉ modelledKeys) :
    (mergeDatajudMetadata u.toPython judit datajud).process.header.lookup key =
      judit.header.lookup key := by
  have hclass : key ≠ "class_code" := fun h => hkey (h ▸ by decide)
  have hbody : key ≠ "adjudicating_body" := fun h => hkey (h ▸ by decide)
  have hcounty : key ≠ "county" := fun h => hkey (h ▸ by decide)
  unfold mergeDatajudMetadata
  split
  · rfl
  · show (setPresent "county" _ _).lookup key = _
    rw [lookup_setPresent_of_ne _ _ hcounty, lookup_setPresent_of_ne _ _ hbody,
      lookup_setPresent_of_ne _ _ hclass]

variable (datajud) in
/-- What the merged process holds for a text is what is selected for it again. -/
theorem merged_again (hpublic : ¬ 0 < judit.secrecyLevel) (field : MetadataField)
    (htext : field ≠ .subjects) :
    (selectScalar u.toPython field
        (fieldsValue (mergeDatajudMetadata u.toPython judit datajud).process field)
        (datajud.text field) datajud.sourceRef).provenance.selectedValue =
      fieldsValue (mergeDatajudMetadata u.toPython judit datajud).process field := by
  have hmem : (selectScalar u.toPython field (fieldsValue judit field) (datajud.text field)
      datajud.sourceRef).provenance ∈
        (mergeDatajudMetadata u.toPython judit datajud).provenance := by
    rw [merge_provenance hpublic]
    refine List.mem_map_of_mem ?_
    cases field with
    | className => exact List.mem_cons_self
    | classCode => exact List.mem_cons_of_mem _ List.mem_cons_self
    | subjects => exact absurd rfl htext
    | adjudicatingBody =>
        exact List.mem_cons_of_mem _ (List.mem_cons_of_mem _ List.mem_cons_self)
    | county =>
        exact List.mem_cons_of_mem _
          (List.mem_cons_of_mem _ (List.mem_cons_of_mem _ List.mem_cons_self))
  have hvalue := merge_selected u.toPython judit datajud hmem
  rw [selectScalar_field] at hvalue
  exact selectScalar_again hvalue.symm

/-- **The second merge changes nothing.** -/
theorem merge_again (hpublic : ¬ 0 < judit.secrecyLevel) :
    (mergeDatajudMetadata u.toPython
        (mergeDatajudMetadata u.toPython judit datajud).process datajud).process =
      (mergeDatajudMetadata u.toPython judit datajud).process := by
  have hclass := merged_again (u := u) datajud hpublic .className (by decide)
  have hcode := merged_again (u := u) datajud hpublic .classCode (by decide)
  have hbody := merged_again (u := u) datajud hpublic .adjudicatingBody (by decide)
  have hcounty := merged_again (u := u) datajud hpublic .county (by decide)
  have hsubjects : selectedSubjects u.toPython
      (mergeDatajudMetadata u.toPython judit datajud).process.subjects datajud.subjects =
        (mergeDatajudMetadata u.toPython judit datajud).process.subjects := by
    unfold mergeDatajudMetadata
    rw [if_neg hpublic]
    exact selectedSubjects_again _ _
  have hlevel : (mergeDatajudMetadata u.toPython judit datajud).process.secrecyLevel =
      judit.secrecyLevel := by
    unfold mergeDatajudMetadata
    rw [if_neg hpublic]
  generalize (mergeDatajudMetadata u.toPython judit datajud).process = merged at *
  unfold mergeDatajudMetadata
  rw [if_neg (hlevel ▸ hpublic)]
  obtain ⟨header, parties, representatives, subjects, steps, attachments, court, className,
    secrecyLevel⟩ := merged
  dsimp only [fieldsValue, metadataValue, DataJudMetadata.text] at hclass hcode hbody hcounty ⊢
  -- each member of the header is set to what it holds
  rw [hclass, hcode, hbody, hcounty, hsubjects, setPresent_of_get rfl, setPresent_of_get rfl,
    setPresent_of_get rfl]

end Merge

/-- **DataJud enrichment is conservative**: a secret process is returned
untouched, and a public one takes the modelled fields only. -/
theorem merge_conservative (u : Unicode) (judit : SemanticFields) (datajud : DataJudMetadata) :
    if 0 < judit.secrecyLevel then
      mergeDatajudMetadata u.toPython judit datajud =
        { process := judit, provenance := [], warnings := [], datajudApplied := false }
    else
      MergesConservatively u.toPython judit datajud
        (mergeDatajudMetadata u.toPython judit datajud) := by
  split
  · rename_i hsecret
    unfold mergeDatajudMetadata
    rw [if_pos hsecret]
  rename_i hpublic
  exact
    { owned := merge_owned
      header := fun _ hkey => merge_header hkey
      once := by
        rw [merge_provenance hpublic]
        simp only [selections, List.map_cons, List.map_nil, selectScalar_field,
          selectSubjects_field]
        rfl
      selected := fun _ hitem => merge_selected _ _ _ hitem
      conflicts := by
        rw [merge_provenance hpublic]
        exact List.forall_mem_map.2 selections_conflict
      warned := by
        rw [merge_provenance hpublic, merge_warnings hpublic,
          filterMap_warning selections_warn]
      again := merge_again hpublic }

end Rpy.DataJud

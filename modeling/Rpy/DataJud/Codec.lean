/-
  Rpy.DataJud.Codec
  ─────────────────
  **THE PROVENANCE OF A VERSION, STORED AND READ BACK**
  (`replace_datajud_field_provenance` and `load_datajud_field_provenance`
  on a connection of `create_pool`; `app/db.py`, `app/json_utils.py`).

  A selected value is written as JSON by the statement, taken for JSON that
  is written already by the codec of the pool, and read by the codec when
  the row is fetched.  Then it is read once more, and a text is not JSON.

    • `poolValue`           — a value on its way to the column,
    • `replaceOnPool`       — the rows of a version, replaced,
    • `loadDatajudFieldProvenance` — the rows of a version, read,
    • `roundTrips_iff`      — what is read back as it was.
-/
import Mathlib.Data.List.Sort
import Rpy.Foundation.JsonEquality
import Rpy.Foundation.JsonWriter
import Rpy.DataJud.Provenance

namespace Rpy.DataJud

open Rpy.Foundation Rpy.Processes

/-! ## §1. The codec. -/

/-- What goes wrong on the way to a row, or back. -/
inductive StoreError where
  /-- `json.dumps` cannot write the value -/
  | dumps
  | loads (error : Json.LoadsError)
  | row (error : FinalizeError)
deriving Repr, DecidableEq

section Codec

variable (u : Unicode)

/-- Can `json.dumps` write the value?  It is nested too deep otherwise, or has
an integer of too many digits; a float is written as its `repr`. -/
def isWritable (value : Json) : Bool :=
  Json.readableIn (fun d => u.readFloat d.repr.toList == some d) u.recursionLimit value

/-- `json.dumps(value, ensure_ascii=ascii)` -/
def dumps (ascii : Bool) (value : Json) : Except StoreError String :=
  if isWritable u value then
    .ok (String.ofList (Json.print { ascii := ascii, blanks := true } value))
  else .error .dumps

/-- `_encode_json`: a text that is JSON is sent as it is. -/
def encodeJson : Json → Except StoreError String
  | .str text =>
      match u.loadsStrict text with
      | .ok _ => .ok text
      | .error .value => dumps u true (.str text)
      | .error .recursion => .error (.loads .recursion)
  | value => dumps u true value

/-- `$5::jsonb`: the value that the database makes of `json.dumps(value)`. -/
def poolValue (value : Json) : Except StoreError Json := do
  let written ← dumps u false value
  let sent ← encodeJson u (.str written)
  (u.loadsStrict sent).mapError .loads

/-- `decode_json_value` -/
def decodeJsonValue : Json → Except StoreError Json
  | .str text => (u.loadsStrict text).mapError .loads
  | value => .ok value

/-- `replace_datajud_field_provenance` on a connection of the pool. -/
def replaceOnPool (rows : List ProvenanceRow) (owner : Option Uuid) (processId versionId : Uuid)
    (result : DataJudMergeResult) : Except StoreError (List ProvenanceRow) := do
  let items ← result.provenance.mapM fun item => do
    let value ← poolValue u item.selectedValue
    return { item with selectedValue := value }
  (replaceDatajudFieldProvenance u.toPlatform rows owner processId versionId
    { result with provenance := items }).mapError .row

/-- `ORDER BY field_name` -/
def OrderedByField (f f' : MetadataField) : Prop := u.collatesBefore f.name f'.name = true

instance : DecidableRel (OrderedByField u) := fun _ _ => inferInstanceAs (Decidable (_ = _))

/-- What `load_datajud_field_provenance` makes of a row. -/
def loadRow (row : ProvenanceRow) : Except StoreError FieldProvenance := do
  let value ← decodeJsonValue u row.selectedValue
  return {
    field := row.fieldName
    selectedSource := row.selectedSource
    selectedValue := value
    conflict := row.conflict
    sourceRef := row.sourceRef }

def loadDatajudFieldProvenance (rows : List ProvenanceRow) (processId versionId : Uuid) :
    Except StoreError (List FieldProvenance) :=
  ((rows.filter fun r => r.processId == processId && r.versionId == versionId).insertionSort
    fun r r' => OrderedByField u r.fieldName r'.fieldName).mapM (loadRow u)

end Codec

/-! ## §2. There and back. -/

/-- The same selection; a `jsonb` column keeps a value up to its form. -/
structure SameSelection (loaded item : FieldProvenance) : Prop where
  field : loaded.field = item.field
  selectedSource : loaded.selectedSource = item.selectedSource
  selectedValue : loaded.selectedValue.canon = item.selectedValue.canon
  conflict : loaded.conflict = item.conflict
  sourceRef : loaded.sourceRef = item.sourceRef

/-- The selections are stored, and read back by field name. -/
def RoundTrips (u : Unicode) (rows : List ProvenanceRow) (owner : Option Uuid)
    (processId versionId : Uuid) (result : DataJudMergeResult) : Prop :=
  ∃ stored loaded, replaceOnPool u rows owner processId versionId result = .ok stored ∧
    loadDatajudFieldProvenance u stored processId versionId = .ok loaded ∧
    List.Forall₂ SameSelection loaded
      (result.provenance.insertionSort fun i i' => OrderedByField u i.field i'.field)

/-- What `json.dumps` and the columns ask of a selection. -/
structure Storable (u : Unicode) (item : FieldProvenance) : Prop where
  writable : isWritable u item.selectedValue = true
  storable : item.selectedValue.storable = true
  refStorable : ∀ ref ∈ item.sourceRef, Json.textStorable ref = true
  refFilled : item.selectedSource = .datajud → sourceRefFilled item.sourceRef = true

section Trip

variable {u : Unicode} {processId versionId : Uuid} {item : FieldProvenance}

theorem encodeJson_of_json {text : String} {value : Json} (h : u.loadsStrict text = .ok value) :
    encodeJson u (.str text) = .ok text := by
  simp only [encodeJson, h]

/-- What `json.dumps` wrote is sent as it is. -/
theorem poolValue_eq_ok {value value' : Json} :
    poolValue u value = .ok value' ↔ isWritable u value = true ∧ value' = value := by
  unfold poolValue dumps
  by_cases hwritable : isWritable u value = true
  · have hloads : u.loadsStrict
        (String.ofList (Json.print { ascii := false, blanks := true } value)) = .ok value := by
      unfold Unicode.loadsStrict
      rw [String.toList_ofList, ← Json.Style.write_writer]
      exact Json.Writer.loads_write (fun d hd => eq_of_beq hd) hwritable
    rw [if_pos hwritable]
    show (encodeJson u _ >>= fun sent => (u.loadsStrict sent).mapError StoreError.loads) = _ ↔ _
    rw [encodeJson_of_json hloads]
    show (u.loadsStrict _).mapError StoreError.loads = _ ↔ _
    rw [hloads]
    exact ⟨fun h => ⟨hwritable, (Except.ok.inj h).symm⟩, fun h => congrArg Except.ok h.2.symm⟩
  · rw [if_neg hwritable]
    exact ⟨fun h => (nomatch h), fun h => absurd h.1 hwritable⟩

/-- The row of a selection. -/
def rowOf (u : Platform) (processId versionId : Uuid) (item : FieldProvenance) : ProvenanceRow where
  processId := processId
  versionId := versionId
  fieldName := item.field
  selectedSource := item.selectedSource
  selectedValue := u.jsonb item.selectedValue
  conflict := item.conflict
  sourceRef := item.sourceRef

theorem textOrNull_optionalText {column : String} {text text' : Option String} :
    textOrNull column (optionalText text) = .ok text' ↔
      (∀ t ∈ text, Json.textStorable t = true) ∧ text' = text := by
  cases text with
  | none => exact ⟨fun h => ⟨fun _ ht => (nomatch ht), (Except.ok.inj h).symm⟩,
      fun h => congrArg Except.ok h.2.symm⟩
  | some t =>
      show (textColumn column t).map some = _ ↔ _
      unfold textColumn
      by_cases ht : Json.textStorable t = true
      · rw [if_pos ht]
        exact ⟨fun h => ⟨fun _ heq => Option.some.inj heq ▸ ht, (Except.ok.inj h).symm⟩,
          fun h => congrArg Except.ok h.2.symm⟩
      · rw [if_neg ht]
        exact ⟨fun h => (nomatch h), fun h => absurd (h.1 t rfl) ht⟩

/-- **The checks of the columns, and the row that passes them.** -/
theorem provenanceRow_iff {u : Platform} {row : ProvenanceRow} :
    provenanceRow u processId versionId item = .ok row ↔
      (item.selectedValue.storable = true ∧
        (∀ ref ∈ item.sourceRef, Json.textStorable ref = true) ∧
        (item.selectedSource = .datajud → sourceRefFilled item.sourceRef = true)) ∧
      row = rowOf u processId versionId item := by
  unfold provenanceRow
  rw [bind_eq_ok]
  constructor
  · rintro ⟨value, hvalue, h⟩
    obtain ⟨ref, href, h⟩ := bind_eq_ok.1 h
    obtain ⟨hstorable, rfl⟩ := textOrNull_optionalText.1 href
    unfold jsonbColumn at hvalue
    split at hvalue
    · rename_i hvalueStorable
      obtain rfl := Except.ok.inj hvalue
      split at h
      · cases h
      · rename_i hfilled
        refine ⟨⟨hvalueStorable, hstorable, fun hsource => ?_⟩, (Except.ok.inj h).symm⟩
        exact Bool.of_not_eq_false fun hblank => hfilled ⟨hsource, hblank⟩
    · cases hvalue
  · rintro ⟨⟨hvalue, href, hfilled⟩, rfl⟩
    refine ⟨u.jsonb item.selectedValue, if_pos hvalue, ?_⟩
    refine bind_eq_ok.2 ⟨item.sourceRef, textOrNull_optionalText.2 ⟨href, rfl⟩, ?_⟩
    have hnot : ¬(item.selectedSource = .datajud ∧ sourceRefFilled item.sourceRef = false) :=
      fun h => Bool.noConfusion ((hfilled h.1).symm.trans h.2)
    rw [if_neg hnot]
    rfl

/-- **The rows afterwards, when the selections can be stored.** -/
theorem replaceOnPool_iff {rows stored : List ProvenanceRow} {owner : Option Uuid}
    {result : DataJudMergeResult}
    (hnodup : (result.provenance.map FieldProvenance.field).Nodup) :
    replaceOnPool u rows owner processId versionId result = .ok stored ↔
      ((result.provenance ≠ [] → owner = some processId) ∧
        ∀ item ∈ result.provenance, Storable u item) ∧
      stored = (rows.filter fun r => r.versionId ≠ versionId) ++
        result.provenance.map (rowOf u.toPlatform processId versionId) := by
  -- The codec of the pool takes a value that it can write, and gives the same value back.
  have hpool : ∀ item item' : FieldProvenance,
      (poolValue u item.selectedValue >>= fun value =>
        pure { item with selectedValue := value }) = Except.ok item' ↔
      isWritable u item.selectedValue = true ∧ item' = item := by
    intro item item'
    rw [bind_eq_ok]
    constructor
    · rintro ⟨value, hvalue, h⟩
      obtain ⟨hwritable, rfl⟩ := poolValue_eq_ok.1 hvalue
      exact ⟨hwritable, (Except.ok.inj h).symm⟩
    · rintro ⟨hwritable, rfl⟩
      exact ⟨_, poolValue_eq_ok.2 ⟨hwritable, rfl⟩, rfl⟩
  have hitems : ∀ items, (result.provenance.mapM fun item =>
      poolValue u item.selectedValue >>= fun value =>
        pure { item with selectedValue := value }) = Except.ok items ↔
      (∀ item ∈ result.provenance, isWritable u item.selectedValue = true) ∧
        items = result.provenance := by
    intro items
    rw [mapM_eq_ok_iff (g := fun item => item) hpool, List.map_id']
  unfold replaceOnPool
  rw [bind_eq_ok]
  constructor
  · rintro ⟨items, hmap, h⟩
    obtain ⟨hwritable, rfl⟩ := (hitems items).1 hmap
    rw [mapError_eq_ok] at h
    unfold replaceDatajudFieldProvenance at h
    dsimp only at h
    split at h
    -- Nothing to store: the function returns before it looks at the version.
    · rename_i hempty
      have hnil := List.isEmpty_iff.1 hempty
      obtain rfl := Except.ok.inj h
      rw [hnil]
      exact ⟨⟨fun hne => absurd rfl hne, List.forall_mem_nil _⟩, (List.append_nil _).symm⟩
    split at h
    · cases h
    rename_i howner
    -- The version is the process's own, so what remains is the check of every row.
    obtain ⟨stored', hstored, h⟩ := bind_eq_ok.1 h
    obtain ⟨hchecks, rfl⟩ := (mapM_eq_ok_iff fun _ _ => provenanceRow_iff).1 hstored
    refine ⟨⟨fun _ => Decidable.not_not.1 howner, fun item hitem => ?_⟩, (Except.ok.inj h).symm⟩
    obtain ⟨hstorable, href, hfilled⟩ := hchecks item hitem
    exact ⟨hwritable item hitem, hstorable, href, hfilled⟩
  · rintro ⟨⟨howner, hstorable⟩, rfl⟩
    refine ⟨result.provenance, (hitems _).2 ⟨fun item hitem => (hstorable item hitem).writable,
      rfl⟩, mapError_eq_ok.2 ?_⟩
    unfold replaceDatajudFieldProvenance
    dsimp only
    split
    · rename_i hempty
      rw [List.isEmpty_iff.1 hempty]
      exact congrArg Except.ok (List.append_nil _).symm
    · rename_i hempty
      have hne : result.provenance ≠ [] := fun hnil => hempty (by rw [hnil]; rfl)
      rw [if_neg (not_not.2 (howner hne))]
      refine bind_eq_ok.2 ⟨_, (mapM_eq_ok_iff fun _ _ => provenanceRow_iff).2
        ⟨fun item hitem => ?_, rfl⟩, rfl⟩
      obtain ⟨-, hvalue, href, hfilled⟩ := hstorable item hitem
      exact ⟨hvalue, href, hfilled⟩

/-- The query finds the rows that were stored, by field name. -/
theorem loaded_rows (rows : List ProvenanceRow) (items : List FieldProvenance) :
    ((((rows.filter fun r => r.versionId ≠ versionId) ++
        items.map (rowOf u.toPlatform processId versionId)).filter fun r =>
          r.processId == processId && r.versionId == versionId).insertionSort
      fun r r' => OrderedByField u r.fieldName r'.fieldName) =
    (items.insertionSort fun i i' => OrderedByField u i.field i'.field).map
      (rowOf u.toPlatform processId versionId) := by
  have hkept : (rows.filter fun r => r.versionId ≠ versionId).filter (fun r =>
      r.processId == processId && r.versionId == versionId) = [] := by
    refine List.filter_eq_nil_iff.2 fun r hr hmatch => ?_
    have hne := of_decide_eq_true (List.mem_filter.1 hr).2
    exact hne (eq_of_beq ((Bool.and_eq_true _ _).mp hmatch).2)
  have hall : (items.map (rowOf u.toPlatform processId versionId)).filter (fun r =>
      r.processId == processId && r.versionId == versionId) =
        items.map (rowOf u.toPlatform processId versionId) := by
    refine List.filter_eq_self.2 fun r hr => ?_
    obtain ⟨item, -, rfl⟩ := List.mem_map.1 hr
    show (processId == processId && versionId == versionId) = true
    rw [beq_self_eq_true, beq_self_eq_true]
    rfl
  rw [List.filter_append, hkept, hall, List.nil_append]
  exact (List.map_insertionSort
    (fun i i' : FieldProvenance => OrderedByField u i.field i'.field)
    (fun r r' : ProvenanceRow => OrderedByField u r.fieldName r'.fieldName) _ items
    fun _ _ _ _ => Iff.rfl).symm

/-- A value that is no text is read as what the column keeps. -/
theorem decodeJsonValue_of_not_str {value : Json} (h : value.isStr = false) :
    decodeJsonValue u value = .ok value := by
  cases value with
  | str text => cases h
  | _ => rfl

/-- **A text is never read back.**  The text of a JSON literal is shorter. -/
theorem decodeJsonValue_str (text : String) : decodeJsonValue u (.str text) ≠ .ok (.str text) := by
  intro h
  have hloads : u.loadsStrict text = .ok (.str text) := mapError_eq_ok.1 h
  exact Nat.lt_irrefl _ (Json.loads_str_length hloads)

/-- A row whose value is no text is read as its selection. -/
theorem loadRow_of_not_str (h : item.selectedValue.isStr = false) :
    loadRow u (rowOf u.toPlatform processId versionId item) =
      .ok { item with selectedValue := u.jsonb item.selectedValue } := by
  have hstored : (u.jsonb item.selectedValue).isStr = false := by
    rw [← Json.isStr_canon, u.jsonb_canon, Json.isStr_canon, h]
  exact bind_eq_ok.2 ⟨_, decodeJsonValue_of_not_str hstored, rfl⟩

/-- A row that is read as its selection has no text for a value. -/
theorem not_str_of_loadRow {loaded : FieldProvenance}
    (hload : loadRow u (rowOf u.toPlatform processId versionId item) = .ok loaded)
    (hsame : SameSelection loaded item) : item.selectedValue.isStr = false := by
  obtain ⟨value, hvalue, h⟩ := bind_eq_ok.1 hload
  obtain rfl := Except.ok.inj h
  have hvalueSame : value.canon = item.selectedValue.canon := hsame.selectedValue
  have hread : decodeJsonValue u (u.jsonb item.selectedValue) = .ok value := hvalue
  have hcanon := u.jsonb_canon item.selectedValue
  cases htext : item.selectedValue with
  | str text =>
      rw [htext] at hcanon hvalueSame hread
      rw [Json.eq_str_of_canon hcanon, Json.eq_str_of_canon hvalueSame] at hread
      exact absurd hread (decodeJsonValue_str text)
  | _ => rfl

theorem roundTrips_of_nodup {rows : List ProvenanceRow} {owner : Option Uuid}
    {result : DataJudMergeResult}
    (hnodup : (result.provenance.map FieldProvenance.field).Nodup) :
    RoundTrips u rows owner processId versionId result ↔
      (result.provenance ≠ [] → owner = some processId) ∧
        ∀ item ∈ result.provenance, Storable u item ∧ item.selectedValue.isStr = false := by
  have hload : ∀ stored, stored = (rows.filter fun r => r.versionId ≠ versionId) ++
        result.provenance.map (rowOf u.toPlatform processId versionId) →
      loadDatajudFieldProvenance u stored processId versionId =
        ((result.provenance.insertionSort fun i i' => OrderedByField u i.field i'.field).map
          (rowOf u.toPlatform processId versionId)).mapM (loadRow u) := by
    rintro stored rfl
    unfold loadDatajudFieldProvenance
    rw [loaded_rows]
  constructor
  · rintro ⟨stored, loaded, hstored, hloaded, hsame⟩
    obtain ⟨⟨howner, hstorable⟩, hrows⟩ := (replaceOnPool_iff hnodup).1 hstored
    refine ⟨howner, fun item hitem => ⟨hstorable item hitem, ?_⟩⟩
    rw [hload stored hrows] at hloaded
    have hread := forall₂_of_mapM_eq_ok hloaded
    rw [List.forall₂_map_left_iff] at hread
    obtain ⟨_, -, hsome, hback⟩ := exists_of_forall₂_left
      (List.Forall₂.mp (fun _ _ hload hsame => And.intro hload hsame) hread hsame.flip)
      ((List.mem_insertionSort _).2 hitem)
    exact not_str_of_loadRow hsome hback
  · rintro ⟨howner, hitems⟩
    refine ⟨_, (result.provenance.insertionSort fun i i' => OrderedByField u i.field i'.field).map
      fun item => { item with selectedValue := u.jsonb item.selectedValue },
      (replaceOnPool_iff hnodup).2 ⟨⟨howner, fun item hitem => (hitems item hitem).1⟩, rfl⟩, ?_, ?_⟩
    · rw [hload _ rfl]
      refine mapM_eq_ok_of_forall₂ ?_
      rw [List.forall₂_map_left_iff, List.forall₂_map_right_iff, List.forall₂_same]
      exact fun item hitem =>
        loadRow_of_not_str (hitems item ((List.mem_insertionSort _).1 hitem)).2
    · rw [List.forall₂_map_left_iff, List.forall₂_same]
      exact fun item _ => ⟨rfl, rfl, u.jsonb_canon _, rfl, rfl⟩

end Trip

/-- **A merge is read back as it was stored when none of its selected values is a
text.** -/
theorem roundTrips_iff (u : Unicode) (rows : List ProvenanceRow) (owner : Option Uuid)
    (processId versionId : Uuid) (judit : SemanticFields) (datajud : DataJudMetadata) :
    RoundTrips u rows owner processId versionId
        (mergeDatajudMetadata u.toPython judit datajud) ↔
      ((mergeDatajudMetadata u.toPython judit datajud).provenance ≠ [] → owner = some processId) ∧
        ∀ item ∈ (mergeDatajudMetadata u.toPython judit datajud).provenance,
          Storable u item ∧ item.selectedValue.isStr = false :=
  roundTrips_of_nodup (merge_fields_nodup u.toPython judit datajud)

/-- The selection of an official class. -/
def classSelection : FieldProvenance where
  field := .className
  selectedSource := .datajud
  selectedValue := .str "Procedimento Comum"
  conflict := false
  sourceRef := some "DataJud/CNJ"

/-- **A class that DataJud gives is not read back**: it is no JSON. -/
theorem not_roundTrips : ¬ ∀ (u : Unicode) (rows : List ProvenanceRow)
    (processId versionId : Uuid) (judit : SemanticFields) (datajud : DataJudMetadata),
    RoundTrips u rows (some processId) processId versionId
      (mergeDatajudMetadata u.toPython judit datajud) := by
  intro h
  have hmerge : classSelection ∈ (mergeDatajudMetadata Unicode.ascii.toPython { header := [] }
      { className := some "Procedimento Comum" }).provenance := by
    decide +kernel
  have hback := ((roundTrips_of_nodup (merge_fields_nodup _ _ _)).1 (h .ascii [] 1 2
    { header := [] } { className := some "Procedimento Comum" })).2 classSelection hmerge
  cases hback.2

end Rpy.DataJud

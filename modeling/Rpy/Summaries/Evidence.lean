/-
  Rpy.Summaries.Evidence
  ──────────────────────
  **CLAIMS AND THEIR EVIDENCE** (`app/claim_evidence.py`).

  Every text of a summary is a material claim.  The provider declares each
  of them with the references it rests on, and a reference is one of the
  sources the context was built from.

    • `expectedMaterialClaims` — the claims a summary has to declare,
    • `evidenceCatalog`        — the sources of a context,
    • `validateClaimEvidence`  — the check, with the claims it keeps,
    • `scanClaims_clean_iff`   — when a round of its loop finds no error,
    • `validateClaimEvidence_exact` — the check is exact.
-/
import Std.Data.String.ToNat
import Rpy.Summaries.Reparse

namespace Rpy.Summaries

open Rpy.Foundation

/-! ## §1. References. -/

/-- `[0-9a-f]` -/
def isLowerHex (c : Char) : Bool :=
  ('0' ≤ c && c ≤ '9') || ('a' ≤ c && c ≤ 'f')

/-- `_EVIDENCE_REF_RE.fullmatch(ref) is not None` -/
def isEvidenceRef (ref : String) : Bool :=
  match ref.toList with
  | kind :: '-' :: hex =>
      (kind == 'p' || kind == 'm' || kind == 'a') && hex.length == 32 && hex.all isLowerHex
  | _ => false

/-- `kind` of an `EvidenceSource`. -/
inductive SourceKind where
  | process
  | movement
  | attachment
deriving Repr, DecidableEq

/-- `EvidenceSource` -/
structure EvidenceSource where
  evidenceRef : String
  kind : SourceKind
  stepId : Option Uuid := none
  attachmentChunkId : Option Uuid := none
deriving Repr, DecidableEq

/-- What the checks read of an entry of `_selected_sources` or
`_attachment_sources`: its reference, and its `step_id` or its
`attachment_chunk_id` when that is a UUID. -/
structure ContextSource where
  evidenceRef : Json := .null
  id : Option Uuid := none
deriving Repr, DecidableEq

/-- What the checks read of a context (a key that is missing is `None`, and
a list that is missing is empty). -/
structure Context extends ProcessContext where
  subjects : Json := .null
  representatives : Json := .null
  secrecyLevel : Json := .null
  stepCount : Json := .null
  sourceWarnings : Json := .null
  steps : List Json := []
  attachments : List Json := []
  processEvidenceRef : Json := .null
  /-- an entry that is no `dict` is `none` -/
  selectedSources : List (Option ContextSource) := []
  attachmentSources : List (Option ContextSource) := []
deriving Repr, DecidableEq

/-- `str(value or "")` -/
def strOrEmpty (u : Unicode) (value : Json) : String :=
  u.str (value.orElse (.str ""))

/-- The entries a list of sources adds to the catalog: `make` is called on
the ones with a reference and a UUID. -/
def sourceEntries (u : Unicode) (make : String → Uuid → EvidenceSource)
    (sources : List (Option ContextSource)) : List (String × EvidenceSource) :=
  sources.filterMap fun entry =>
    match entry with
    | none => none
    | some source =>
        let ref := strOrEmpty u source.evidenceRef
        match source.id with
        | some id => if isEvidenceRef ref then some (ref, make ref id) else none
        | none => none

/-- `evidence_catalog`: its assignments, the last one first, so that
`List.lookup` finds the value a key has in the end. -/
def evidenceCatalog (u : Unicode) (context : Context) : List (String × EvidenceSource) :=
  let processRef := strOrEmpty u context.processEvidenceRef
  let process :=
    if isEvidenceRef processRef then
      [(processRef, { evidenceRef := processRef, kind := .process : EvidenceSource })]
    else []
  let movements := sourceEntries u
    (fun ref id => { evidenceRef := ref, kind := .movement, stepId := some id })
    context.selectedSources
  let attachments := sourceEntries u
    (fun ref id => { evidenceRef := ref, kind := .attachment, attachmentChunkId := some id })
    context.attachmentSources
  (process ++ movements ++ attachments).reverse

/-! ## §2. The claims a summary makes. -/

/-- The classes of claims. -/
inductive ClaimClass where
  | synthesis
  | currentStatus
  | proceduralEvent
  | attention
  | decision
  | deadline
  | relatedProcess
  | attachment
deriving Repr, DecidableEq

/-- `_MATERIAL_LIST_FIELDS`. -/
def materialListFields : List ListField :=
  [.timeline, .attention, .decisions, .deadlines, .relatedProcesses, .attachments]

/-- `claim_id.split(":", 1)[0]` -/
def claimPrefix (claimId : String) : List Char :=
  claimId.toList.takeWhile (· != ':')

/-- `_claim_class` (the dictionary has no other key than these and
`attachments`, and only an expected id is looked up). -/
def claimClass (claimId : String) : ClaimClass :=
  match String.ofList (claimPrefix claimId) with
  | "synthesis" => .synthesis
  | "current_status" => .currentStatus
  | "timeline" => .proceduralEvent
  | "attention" => .attention
  | "decisions" => .decision
  | "deadlines" => .deadline
  | "related_processes" => .relatedProcess
  | _ => .attachment

/-- `_CLAIM_ID_RE.fullmatch(claim_id) is not None` -/
def isClaimId (claimId : String) : Bool :=
  claimId == "synthesis" || claimId == "current_status" ||
    materialListFields.any fun field =>
      claimPrefix claimId == field.key.toList &&
        (match claimId.toList.drop field.key.toList.length with
          | ':' :: index => !index.isEmpty && index.all Char.isDigit
          | _ => false)

/-- `f"{field}:{index}"` -/
def itemId (field : ListField) (index : Nat) : String :=
  field.key ++ ":" ++ toString index

/-- The claims one list adds to `expected`. -/
def itemClaims (u : Unicode) (payload : Json) (field : ListField) : List (String × String) :=
  match payload.get field.key with
  | .arr items => items.zipIdx.map fun (item, index) => (itemId field index, u.str item)
  | _ => []

/-- `expected_material_claims` -/
def expectedMaterialClaims (u : Unicode) (payload : Json) : List (String × String) :=
  ("synthesis", strOrEmpty u (payload.get "synthesis")) ::
    ("current_status", strOrEmpty u (payload.get "current_status")) ::
    materialListFields.flatMap (itemClaims u payload)

/-- `MaterialClaim` -/
structure MaterialClaim where
  claimId : String
  claimClass : ClaimClass
  text : String
  evidenceRefs : List String
deriving Repr, DecidableEq

/-! ## §3. The check. -/

/-- `value or '<empty>'` -/
def orEmptyMark (s : String) : String :=
  if s = "" then "<empty>" else s

/-- The variables of the loop over the references of a claim. -/
structure RefScan where
  rendered : List String := []
  errors : List String := []
  seen : List String := []
deriving Repr, DecidableEq

/-- One round of that loop. -/
def scanRef (u : Unicode) (catalog : List (String × EvidenceSource)) (claimId : String)
    (st : RefScan) (value : Json) : RefScan :=
  let ref := u.strip (strOrEmpty u value)
  if ref ∈ st.seen then
    { st with errors := st.errors ++ ["duplicate evidence ref for " ++ claimId ++ ": " ++ ref] }
  else
    let seen := ref :: st.seen
    if !isEvidenceRef ref then
      { st with
        seen
        errors := st.errors ++
          ["invalid evidence ref for " ++ claimId ++ ": " ++ orEmptyMark ref] }
    else if (catalog.lookup ref).isNone then
      { st with
        seen
        errors := st.errors ++ ["unknown evidence ref for " ++ claimId ++ ": " ++ ref] }
    else { st with seen, rendered := st.rendered ++ [ref] }

/-- The variables of the loop over the claims. -/
structure ClaimScan where
  claims : List MaterialClaim := []
  errors : List String := []
  seen : List String := []
deriving Repr, DecidableEq

/-- One round of that loop. -/
def scanClaim (u : Unicode) (expected : List (String × String))
    (catalog : List (String × EvidenceSource)) (st : ClaimScan) (raw : Json) : ClaimScan :=
  if !raw.isObj then
    { st with errors := st.errors ++ ["structured summary claim must be an object"] }
  else
    let claimId := u.strip (strOrEmpty u (raw.get "claim_id"))
    let text := u.strip (strOrEmpty u (raw.get "text"))
    if !isClaimId claimId then
      { st with errors := st.errors ++ ["invalid claim_id: " ++ orEmptyMark claimId] }
    else if claimId ∈ st.seen then
      { st with errors := st.errors ++ ["duplicate claim_id: " ++ claimId] }
    else
      let seen := claimId :: st.seen
      match expected.lookup claimId with
      | none =>
          { st with seen, errors := st.errors ++ ["unexpected material claim: " ++ claimId] }
      | some wanted =>
          let mismatch :=
            if text = wanted then []
            else ["claim text does not match structured field: " ++ claimId]
          let refs :=
            match raw.get "evidence_refs" with
            | .arr items => items
            | _ => []
          let lacking :=
            if refs.isEmpty then ["material claim lacks evidence_refs: " ++ claimId] else []
          let scan := refs.foldl (scanRef u catalog claimId) {}
          { claims := st.claims ++
              [{ claimId, claimClass := claimClass claimId, text, evidenceRefs := scan.rendered }]
            errors := st.errors ++ mismatch ++ lacking ++ scan.errors
            seen }

/-- `validate_claim_evidence`: the claims it keeps, and its errors. -/
def validateClaimEvidence (u : Unicode) (payload : Json) (context : Context) :
    List MaterialClaim × List String :=
  let expected := expectedMaterialClaims u payload
  match payload.get "claims" with
  | .arr raws =>
      let scan := raws.foldl (scanClaim u expected (evidenceCatalog u context)) {}
      let missing := (expected.map Prod.fst).filter fun claimId => claimId ∉ scan.seen
      (scan.claims,
        scan.errors ++ missing.map fun claimId => "missing material claim provenance: " ++ claimId)
  | _ => ([], ["structured summary must include claims"])

/-! ## §4. The expected claims. -/

theorem toList_itemId (field : ListField) (index : Nat) :
    (itemId field index).toList = field.key.toList ++ ':' :: (toString index).toList := by
  rw [itemId, String.toList_append, String.toList_append, List.append_assoc]
  rfl

theorem key_no_colon (field : ListField) : ∀ c ∈ field.key.toList, (c != ':') = true := by
  have hall : field.key.toList.all (· != ':') = true := by cases field <;> decide
  exact List.all_eq_true.1 hall

theorem claimPrefix_itemId (field : ListField) (index : Nat) :
    claimPrefix (itemId field index) = field.key.toList := by
  rw [claimPrefix, toList_itemId, List.takeWhile_append_of_pos (key_no_colon field),
    List.takeWhile_cons_of_neg (by decide), List.append_nil]

theorem key_injective {f g : ListField} (h : f.key.toList = g.key.toList) : f = g := by
  cases f <;> cases g <;> first | rfl | exact absurd h (by decide)

/-- A field and an index are read off the id of an item. -/
theorem itemId_inj {f g : ListField} {i j : Nat} : itemId f i = itemId g j ↔ f = g ∧ i = j := by
  constructor
  · intro h
    have hkeys : f.key.toList = g.key.toList := by
      rw [← claimPrefix_itemId f i, h, claimPrefix_itemId]
    obtain rfl := key_injective hkeys
    refine ⟨rfl, ?_⟩
    have hlists := congrArg String.toList h
    rw [toList_itemId, toList_itemId, List.append_cancel_left_eq, List.cons.injEq] at hlists
    exact Nat.repr_injective (String.toList_inj.1 hlists.2)
  · rintro ⟨rfl, rfl⟩
    rfl

theorem isClaimId_itemId (field : ListField) (index : Nat) :
    isClaimId (itemId field index) = true := by
  have hmem : field ∈ materialListFields := by cases field <;> decide
  have hdigits : ((toString index).toList.all Char.isDigit) = true := by
    show ((Nat.repr index).toList.all Char.isDigit) = true
    rw [Nat.toList_repr, List.all_eq_true]
    exact fun c hc => Nat.isDigit_of_mem_toDigits (by decide) (by decide) hc
  have hne : (toString index).toList.isEmpty = false := by
    show (Nat.repr index).toList.isEmpty = false
    rw [Nat.toList_repr, List.isEmpty_eq_false_iff]
    exact Nat.toDigits_ne_nil
  have hitem : (claimPrefix (itemId field index) == field.key.toList &&
      (match (itemId field index).toList.drop field.key.toList.length with
        | ':' :: index => !index.isEmpty && index.all Char.isDigit
        | _ => false)) = true := by
    rw [claimPrefix_itemId, toList_itemId, List.drop_left]
    simp only [beq_self_eq_true, Bool.true_and, hdigits, hne, Bool.not_false]
  rw [isClaimId, Bool.or_eq_true]
  exact .inr (List.any_eq_true.2 ⟨field, hmem, hitem⟩)

section Expected

variable {u : Unicode} {payload : Json}

theorem mem_itemClaims {field : ListField} {p : String × String} :
    p ∈ itemClaims u payload field ↔ ∃ items index item, payload.get field.key = .arr items ∧
      items[index]? = some item ∧ p = (itemId field index, u.str item) := by
  unfold itemClaims
  constructor
  · intro hp
    cases hget : payload.get field.key with
    | arr items =>
        rw [hget] at hp
        obtain ⟨⟨item, index⟩, hitem, rfl⟩ := List.mem_map.1 hp
        exact ⟨items, index, item, rfl, List.mk_mem_zipIdx_iff_getElem?.1 hitem, rfl⟩
    | _ =>
        rw [hget] at hp
        cases hp
  · rintro ⟨items, index, item, hget, hitem, rfl⟩
    rw [hget]
    exact List.mem_map.2 ⟨(item, index), List.mk_mem_zipIdx_iff_getElem?.2 hitem, rfl⟩

theorem mem_expected {p : String × String} : p ∈ expectedMaterialClaims u payload ↔
    p = ("synthesis", strOrEmpty u (payload.get "synthesis")) ∨
      p = ("current_status", strOrEmpty u (payload.get "current_status")) ∨
      ∃ field, p ∈ itemClaims u payload field := by
  have hfields : ∀ field : ListField, field ∈ materialListFields := by
    intro field
    cases field <;> decide
  unfold expectedMaterialClaims
  rw [List.mem_cons, List.mem_cons, List.mem_flatMap]
  exact or_congr_right (or_congr_right
    ⟨fun ⟨field, _, hp⟩ => ⟨field, hp⟩, fun ⟨field, hp⟩ => ⟨field, hfields field, hp⟩⟩)

theorem plain_ne_itemId {name : String} (h : ':' ∉ name.toList) (field : ListField)
    (index : Nat) : name ≠ itemId field index := by
  rintro rfl
  rw [toList_itemId] at h
  exact h (List.mem_append_right _ List.mem_cons_self)

/-- Every expected id is one that the check accepts. -/
theorem isClaimId_of_mem_expected {p : String × String}
    (h : p ∈ expectedMaterialClaims u payload) : isClaimId p.1 = true := by
  rcases mem_expected.1 h with rfl | rfl | ⟨field, hp⟩
  · show isClaimId "synthesis" = true
    decide
  · show isClaimId "current_status" = true
    decide
  · obtain ⟨_, index, _, -, -, rfl⟩ := mem_itemClaims.1 hp
    exact isClaimId_itemId field index

theorem nodup_itemClaims (field : ListField) :
    ((itemClaims u payload field).map Prod.fst).Nodup := by
  unfold itemClaims
  cases payload.get field.key with
  | arr items =>
      have hids : (items.zipIdx.map fun (item, index) => (itemId field index, u.str item)).map
          Prod.fst = (List.range' 0 items.length).map (itemId field) := by
        rw [← List.zipIdx_map_snd 0 items, List.map_map, List.map_map]
        rfl
      show ((items.zipIdx.map fun (item, index) => (itemId field index, u.str item)).map
        Prod.fst).Nodup
      rw [hids]
      exact List.Nodup.map (fun _ _ h => (itemId_inj.1 h).2) List.nodup_range'
  | _ => exact List.nodup_nil

/-- **Every claim is expected once.** -/
theorem nodup_expected : ((expectedMaterialClaims u payload).map Prod.fst).Nodup := by
  have hitems : ∀ p : String × String, p ∈ materialListFields.flatMap (itemClaims u payload) →
      ∃ field index, p.1 = itemId field index := by
    intro p hp
    obtain ⟨field, -, hp⟩ := List.mem_flatMap.1 hp
    obtain ⟨_, index, _, -, -, rfl⟩ := mem_itemClaims.1 hp
    exact ⟨field, index, rfl⟩
  have hlists : ((materialListFields.flatMap (itemClaims u payload)).map Prod.fst).Nodup := by
    rw [List.map_flatMap, List.nodup_flatMap]
    refine ⟨fun field _ => nodup_itemClaims field, ?_⟩
    have hfields : materialListFields.Pairwise (· ≠ ·) := by decide
    refine hfields.imp fun {f g} hne name hf hg => ?_
    have hname : ∀ field, name ∈ (itemClaims u payload field).map Prod.fst →
        ∃ index, name = itemId field index := by
      intro field hmem
      obtain ⟨p, hp, hpname⟩ := List.mem_map.1 hmem
      obtain ⟨_, index, _, -, -, hid⟩ := mem_itemClaims.1 hp
      exact ⟨index, by rw [← hpname, hid]⟩
    obtain ⟨i, hi⟩ := hname f hf
    obtain ⟨j, hj⟩ := hname g hg
    exact hne (itemId_inj.1 (hi.symm.trans hj)).1
  have hplain : ∀ name : String, ':' ∉ name.toList →
      name ∉ (materialListFields.flatMap (itemClaims u payload)).map Prod.fst := by
    intro name hname h
    obtain ⟨p, hp, heq⟩ := List.mem_map.1 h
    obtain ⟨field, index, hid⟩ := hitems p hp
    exact plain_ne_itemId hname field index (heq.symm.trans hid)
  have hne : "synthesis" ≠ "current_status" := by decide
  unfold expectedMaterialClaims
  rw [List.map_cons, List.map_cons, List.nodup_cons, List.nodup_cons, List.mem_cons, not_or]
  exact ⟨⟨hne, hplain "synthesis" (by decide)⟩, hplain "current_status" (by decide), hlists⟩

end Expected

/-! ## §5. The loops. -/

section Loops

variable {u : Unicode}

/-- The reference a value is read as. -/
def renderedRef (u : Unicode) (value : Json) : String :=
  u.strip (strOrEmpty u value)

/-- A reference is new, has the right form and is in the catalog. -/
structure RefClean (catalog : List (String × EvidenceSource)) (seen : List String)
    (ref : String) : Prop where
  fresh : ref ∉ seen
  shape : isEvidenceRef ref = true
  known : (catalog.lookup ref).isSome = true

variable {catalog : List (String × EvidenceSource)} {claimId : String}

/-- **A round without an error keeps the reference.** -/
theorem scanRef_of_clean {st : RefScan} {value : Json}
    (h : RefClean catalog st.seen (renderedRef u value)) :
    scanRef u catalog claimId st value =
      { rendered := st.rendered ++ [renderedRef u value]
        errors := st.errors
        seen := renderedRef u value :: st.seen } := by
  have hknown : (catalog.lookup (renderedRef u value)).isNone = false := by
    rw [← Option.not_isSome, h.known]
    rfl
  unfold scanRef
  show (if renderedRef u value ∈ st.seen then _ else
    if !isEvidenceRef (renderedRef u value) then _ else
      if (catalog.lookup (renderedRef u value)).isNone then _ else _) = _
  rw [if_neg h.fresh, if_neg (by simp [h.shape]), if_neg (by simp [hknown])]
  rfl

theorem scanRef_errors_iff {st : RefScan} {value : Json} :
    (scanRef u catalog claimId st value).errors = [] ↔
      st.errors = [] ∧ RefClean catalog st.seen (renderedRef u value) := by
  constructor
  · intro h
    unfold scanRef at h
    simp only at h
    split at h
    · simp at h
    · next hfresh =>
        split at h
        · simp at h
        · next hshape =>
            split at h
            · simp at h
            · next hknown =>
                refine ⟨h, hfresh, ?_, ?_⟩
                · show isEvidenceRef (u.strip (strOrEmpty u value)) = true
                  simpa using hshape
                · show (catalog.lookup (u.strip (strOrEmpty u value))).isSome = true
                  rw [← Option.not_isNone]
                  simpa only [Bool.not_eq_true', Bool.not_eq_true] using hknown
  · rintro ⟨herrors, hclean⟩
    rw [scanRef_of_clean hclean]
    exact herrors

/-- **The loop over the references of a claim.** -/
theorem scanRefs_errors_iff (values : List Json) : ∀ st : RefScan,
    (values.foldl (scanRef u catalog claimId) st).errors = [] ↔
      st.errors = [] ∧ (values.map (renderedRef u)).Nodup ∧
        ∀ ref ∈ values.map (renderedRef u), RefClean catalog st.seen ref := by
  induction values with
  | nil => simp
  | cons value values ih =>
      intro st
      rw [List.foldl_cons, ih, scanRef_errors_iff, List.map_cons, List.nodup_cons]
      constructor
      · rintro ⟨⟨herrors, hclean⟩, hnodup, hall⟩
        rw [scanRef_of_clean hclean] at hall
        refine ⟨herrors, ⟨fun hmem => ?_, hnodup⟩, fun ref href => ?_⟩
        · exact (hall _ hmem).fresh List.mem_cons_self
        · rcases List.mem_cons.1 href with rfl | href
          · exact hclean
          · have hrest := hall ref href
            exact ⟨fun hseen => hrest.fresh (List.mem_cons_of_mem _ hseen), hrest.shape,
              hrest.known⟩
      · rintro ⟨herrors, ⟨hnotin, hnodup⟩, hall⟩
        have hclean := hall _ List.mem_cons_self
        rw [scanRef_of_clean hclean]
        refine ⟨⟨herrors, hclean⟩, hnodup, fun ref href => ?_⟩
        have hrest := hall ref (List.mem_cons_of_mem _ href)
        refine ⟨fun hseen => ?_, hrest.shape, hrest.known⟩
        rcases List.mem_cons.1 hseen with rfl | hseen
        · exact hnotin href
        · exact hrest.fresh hseen

/-- Without an error the loop keeps every reference. -/
theorem scanRefs_rendered (values : List Json) : ∀ st : RefScan,
    (values.foldl (scanRef u catalog claimId) st).errors = [] →
      (values.foldl (scanRef u catalog claimId) st).rendered =
        st.rendered ++ values.map (renderedRef u) := by
  induction values with
  | nil =>
      intro st _
      exact (List.append_nil _).symm
  | cons value values ih =>
      intro st h
      rw [List.foldl_cons] at h ⊢
      have hstep := (((scanRefs_errors_iff values _).1 h).1)
      rw [ih _ h, scanRef_of_clean (scanRef_errors_iff.1 hstep).2, List.map_cons,
        List.append_assoc]
      rfl

/-- The texts of a claim are in the form that the check brings them to. -/
structure Tidied (u : Unicode) (c : SummaryClaim) : Prop where
  claimId : u.strip c.claimId = c.claimId
  text : u.strip c.text = c.text
  evidenceRefs : ∀ ref ∈ c.evidenceRefs, u.strip ref = ref

theorem strOrEmpty_str (s : String) : strOrEmpty u (.str s) = s := by
  unfold strOrEmpty Json.orElse
  split
  · exact u.str_str s
  · next hfalsy =>
      have hempty : s = "" := by simpa [Json.isTrue] using hfalsy
      rw [hempty, u.str_str]

theorem Inline.strip_eq {s : String} (h : Inline u s.toList) : u.strip s = s := by
  rw [u.strip_eq, h.stripped, String.ofList_toList]

/-- Parsing brings the texts of a claim to that form. -/
theorem tidied_of_parse {item : Json} {c : SummaryClaim} (h : parseClaim u item = .ok c) :
    Tidied u c := by
  obtain ⟨-, -, hid, -, -, ⟨text, -, -, -, htext⟩, refs, -, -, -, -, hrefs, -⟩ :=
    parseClaim_eq_ok.1 h
  refine ⟨?_, ?_, fun ref href => ?_⟩
  · rw [hid, inline]
    exact (inline_inlineText _).strip_eq
  · rw [htext]
    exact (inline_proseLine text).1.strip_eq
  · rw [hrefs] at href
    obtain ⟨raw, -, rfl⟩ := List.mem_map.1 href
    exact (inline_inlineText raw).strip_eq

/-- The claim the check keeps. -/
def SummaryClaim.material (c : SummaryClaim) : MaterialClaim where
  claimId := c.claimId
  claimClass := claimClass c.claimId
  text := c.text
  evidenceRefs := c.evidenceRefs

/-- A claim is new, is expected with its text and cites sources of the
catalog, each once. -/
structure ClaimClean (expected : List (String × String))
    (catalog : List (String × EvidenceSource)) (seen : List String) (c : SummaryClaim) :
    Prop where
  shape : isClaimId c.claimId = true
  fresh : c.claimId ∉ seen
  text : expected.lookup c.claimId = some c.text
  cites : c.evidenceRefs ≠ []
  distinct : c.evidenceRefs.Nodup
  known : ∀ ref ∈ c.evidenceRefs, RefClean catalog [] ref

variable {expected : List (String × String)}

theorem scanClaim_toJson {c : SummaryClaim} (h : Tidied u c) (st : ClaimScan) :
    scanClaim u expected catalog st c.toJson =
      if !isClaimId c.claimId then
        { st with errors := st.errors ++ ["invalid claim_id: " ++ orEmptyMark c.claimId] }
      else if c.claimId ∈ st.seen then
        { st with errors := st.errors ++ ["duplicate claim_id: " ++ c.claimId] }
      else
        match expected.lookup c.claimId with
        | none =>
            { st with
              seen := c.claimId :: st.seen
              errors := st.errors ++ ["unexpected material claim: " ++ c.claimId] }
        | some wanted =>
            let scan := (c.evidenceRefs.map Json.str).foldl (scanRef u catalog c.claimId) {}
            { claims := st.claims ++ [{ c.material with evidenceRefs := scan.rendered }]
              errors := st.errors ++
                (if c.text = wanted then []
                  else ["claim text does not match structured field: " ++ c.claimId]) ++
                (if (c.evidenceRefs.map Json.str).isEmpty then
                  ["material claim lacks evidence_refs: " ++ c.claimId] else []) ++ scan.errors
              seen := c.claimId :: st.seen } := by
  have hid : u.strip (strOrEmpty u (c.toJson.get "claim_id")) = c.claimId := by
    have hget : c.toJson.get "claim_id" = .str c.claimId := rfl
    rw [hget, strOrEmpty_str, h.claimId]
  have htext : u.strip (strOrEmpty u (c.toJson.get "text")) = c.text := by
    have hget : c.toJson.get "text" = .str c.text := rfl
    rw [hget, strOrEmpty_str, h.text]
  have hrefs : c.toJson.get "evidence_refs" = .arr (c.evidenceRefs.map Json.str) := rfl
  have hobj : c.toJson.isObj = true := rfl
  unfold scanClaim
  simp only [hid, htext, hrefs, hobj, Bool.not_true, Bool.false_eq_true, if_false,
    SummaryClaim.material]

/-- The references of a tidied claim are scanned as they are. -/
theorem map_renderedRef {c : SummaryClaim} (h : Tidied u c) :
    (c.evidenceRefs.map Json.str).map (renderedRef u) = c.evidenceRefs := by
  rw [List.map_map]
  have hself : ∀ ref ∈ c.evidenceRefs, (renderedRef u ∘ Json.str) ref = ref := by
    intro ref href
    show u.strip (strOrEmpty u (.str ref)) = ref
    rw [strOrEmpty_str, h.evidenceRefs ref href]
  exact (List.map_congr_left hself).trans (List.map_id _)

/-- **A round without an error keeps the claim.** -/
theorem scanClaim_of_clean {c : SummaryClaim} (htidied : Tidied u c) {st : ClaimScan}
    (h : ClaimClean expected catalog st.seen c) :
    scanClaim u expected catalog st c.toJson =
      { claims := st.claims ++ [c.material]
        errors := st.errors
        seen := c.claimId :: st.seen } := by
  have hscan : ((c.evidenceRefs.map Json.str).foldl (scanRef u catalog c.claimId) {}).errors =
      [] := by
    rw [scanRefs_errors_iff, map_renderedRef htidied]
    exact ⟨rfl, h.distinct, h.known⟩
  have hrendered := scanRefs_rendered (c.evidenceRefs.map Json.str) {} hscan
  rw [map_renderedRef htidied] at hrendered
  have hcites : (c.evidenceRefs.map Json.str).isEmpty = false := by
    simpa using h.cites
  rw [scanClaim_toJson htidied, if_neg (by simp [h.shape]), if_neg h.fresh, h.text]
  simp only [hscan, hrendered, hcites, Bool.false_eq_true, if_false, if_true, List.append_nil]
  rfl

theorem scanClaim_errors_iff {c : SummaryClaim} (htidied : Tidied u c) {st : ClaimScan} :
    (scanClaim u expected catalog st c.toJson).errors = [] ↔
      st.errors = [] ∧ ClaimClean expected catalog st.seen c := by
  constructor
  · intro h
    rw [scanClaim_toJson htidied] at h
    split at h
    · simp at h
    · next hshape =>
        split at h
        · simp at h
        · next hfresh =>
            cases hlookup : expected.lookup c.claimId with
            | none =>
                rw [hlookup] at h
                simp at h
            | some wanted =>
                rw [hlookup] at h
                simp only [List.append_eq_nil_iff] at h
                obtain ⟨⟨⟨herrors, hmismatch⟩, hlacking⟩, hscan⟩ := h
                rw [scanRefs_errors_iff, map_renderedRef htidied] at hscan
                obtain ⟨-, hdistinct, hknown⟩ := hscan
                refine ⟨herrors, by simpa using hshape, hfresh, ?_, ?_, hdistinct, hknown⟩
                · rw [hlookup]
                  by_contra hne
                  rw [if_neg fun heq => hne (by rw [heq])] at hmismatch
                  cases hmismatch
                · intro hnil
                  rw [hnil] at hlacking
                  cases hlacking
  · rintro ⟨herrors, hclean⟩
    rw [scanClaim_of_clean htidied hclean]
    exact herrors

/-- **The loop over the claims.** -/
theorem scanClaims_clean_iff (expected : List (String × String))
    (catalog : List (String × EvidenceSource)) (claims : List SummaryClaim)
    (htidied : ∀ c ∈ claims, Tidied u c) :
    ∀ st : ClaimScan,
      ((claims.map SummaryClaim.toJson).foldl (scanClaim u expected catalog) st).errors = [] ↔
        st.errors = [] ∧ (claims.map SummaryClaim.claimId).Nodup ∧
          ∀ c ∈ claims, ClaimClean expected catalog st.seen c := by
  induction claims with
  | nil => simp
  | cons c claims ih =>
      intro st
      have hc := htidied c List.mem_cons_self
      rw [List.map_cons, List.foldl_cons, ih fun d hd => htidied d (List.mem_cons_of_mem _ hd),
        scanClaim_errors_iff hc, List.map_cons, List.nodup_cons]
      constructor
      · rintro ⟨⟨herrors, hclean⟩, hnodup, hall⟩
        rw [scanClaim_of_clean hc hclean] at hall
        refine ⟨herrors, ⟨fun hmem => ?_, hnodup⟩, fun d hd => ?_⟩
        · obtain ⟨d, hd, hid⟩ := List.mem_map.1 hmem
          exact (hall d hd).fresh (hid ▸ List.mem_cons_self)
        · rcases List.mem_cons.1 hd with rfl | hd
          · exact hclean
          · have hrest := hall d hd
            exact { hrest with fresh := fun hseen => hrest.fresh (List.mem_cons_of_mem _ hseen) }
      · rintro ⟨herrors, ⟨hnotin, hnodup⟩, hall⟩
        have hclean := hall c List.mem_cons_self
        rw [scanClaim_of_clean hc hclean]
        refine ⟨⟨herrors, hclean⟩, hnodup, fun d hd => ?_⟩
        have hrest := hall d (List.mem_cons_of_mem _ hd)
        refine { hrest with fresh := fun hseen => ?_ }
        rcases List.mem_cons.1 hseen with hid | hseen
        · exact hnotin (hid ▸ List.mem_map_of_mem hd)
        · exact hrest.fresh hseen

/-- Without an error the loop keeps every claim, and has seen its id. -/
theorem scanClaims_kept (expected : List (String × String))
    (catalog : List (String × EvidenceSource)) (claims : List SummaryClaim)
    (htidied : ∀ c ∈ claims, Tidied u c) :
    ∀ st : ClaimScan,
      ((claims.map SummaryClaim.toJson).foldl (scanClaim u expected catalog) st).errors = [] →
        ((claims.map SummaryClaim.toJson).foldl (scanClaim u expected catalog) st).claims =
            st.claims ++ claims.map SummaryClaim.material ∧
          ∀ id, id ∈ ((claims.map SummaryClaim.toJson).foldl
              (scanClaim u expected catalog) st).seen ↔
            id ∈ claims.map SummaryClaim.claimId ∨ id ∈ st.seen := by
  induction claims with
  | nil =>
      intro st _
      exact ⟨(List.append_nil _).symm, fun id => by simp⟩
  | cons c claims ih =>
      intro st h
      have hc := htidied c List.mem_cons_self
      have hrest := fun d hd => htidied d (List.mem_cons_of_mem c hd)
      rw [List.map_cons, List.foldl_cons] at h ⊢
      have hstep := ((scanClaims_clean_iff expected catalog claims hrest _).1 h).1
      obtain ⟨hclaims, hseen⟩ := ih hrest _ h
      have hclean := (scanClaim_errors_iff hc).1 hstep
      rw [hclaims]
      refine ⟨?_, fun id => ?_⟩
      · rw [scanClaim_of_clean hc hclean.2, List.append_assoc]
        rfl
      · rw [hseen id, scanClaim_of_clean hc hclean.2, List.map_cons, List.mem_cons, List.mem_cons]
        tauto

/-! ## §6. The check is exact. -/

theorem mem_sourceEntries {make : String → Uuid → EvidenceSource}
    {sources : List (Option ContextSource)} {p : String × EvidenceSource}
    (h : p ∈ sourceEntries u make sources) : isEvidenceRef p.1 = true := by
  obtain ⟨entry, -, hentry⟩ := List.mem_filterMap.1 h
  cases entry with
  | none => cases hentry
  | some source =>
      simp only at hentry
      split at hentry
      · split at hentry
        · next hshape =>
            rw [← Option.some.inj hentry]
            exact hshape
        · cases hentry
      · cases hentry

/-- Every source of the catalog has a reference of the right form. -/
theorem isEvidenceRef_of_mem_catalog {context : Context} {p : String × EvidenceSource}
    (h : p ∈ evidenceCatalog u context) : isEvidenceRef p.1 = true := by
  unfold evidenceCatalog at h
  rw [List.mem_reverse, List.mem_append, List.mem_append] at h
  rcases h with (hprocess | hmovement) | hattachment
  · split at hprocess
    · next hshape =>
        rw [List.mem_singleton.1 hprocess]
        exact hshape
    · cases hprocess
  · exact mem_sourceEntries hmovement
  · exact mem_sourceEntries hattachment

theorem refClean_iff {context : Context} {ref : String} :
    RefClean (evidenceCatalog u context) [] ref ↔
      ref ∈ (evidenceCatalog u context).map Prod.fst := by
  rw [← isSome_lookup_iff]
  constructor
  · exact RefClean.known
  · intro hknown
    obtain ⟨p, hp, hfirst⟩ := List.mem_map.1 ((isSome_lookup_iff ref _).1 hknown)
    refine ⟨List.not_mem_nil, ?_, hknown⟩
    rw [← hfirst]
    exact isEvidenceRef_of_mem_catalog hp

/-- The claims, by id and text. -/
def claimTexts (claims : List SummaryClaim) : List (String × String) :=
  claims.map fun c => (c.claimId, c.text)

/-- Claims with distinct ids that are expected with their texts, and are
all the expected ones, are a rearrangement of those. -/
theorem claimTexts_perm_iff {claims : List SummaryClaim}
    (hexpected : (expected.map Prod.fst).Nodup) :
    (claimTexts claims).Perm expected ↔
      (claims.map SummaryClaim.claimId).Nodup ∧
        (∀ c ∈ claims, expected.lookup c.claimId = some c.text) ∧
        ∀ id ∈ expected.map Prod.fst, id ∈ claims.map SummaryClaim.claimId := by
  have hids : (claimTexts claims).map Prod.fst = claims.map SummaryClaim.claimId := by
    rw [claimTexts, List.map_map]
    rfl
  constructor
  · intro hperm
    have hsame := hperm.map Prod.fst
    rw [hids] at hsame
    refine ⟨hsame.nodup_iff.2 hexpected, fun c hc => ?_, fun id hid => hsame.mem_iff.2 hid⟩
    exact (lookup_eq_some_iff hexpected).2
      (hperm.mem_iff.1 (List.mem_map_of_mem (f := fun c => (c.claimId, c.text)) hc))
  · rintro ⟨hnodup, hlookup, hall⟩
    rw [← hids] at hnodup
    refine (List.perm_ext_iff_of_nodup hnodup.of_map hexpected.of_map).2 fun p => ?_
    constructor
    · intro hp
      obtain ⟨c, hc, rfl⟩ := List.mem_map.1 hp
      exact (lookup_eq_some_iff hexpected).1 (hlookup c hc)
    · intro hp
      obtain ⟨c, hc, hid⟩ := List.mem_map.1 (hall p.1 (List.mem_map_of_mem hp))
      have htext := hlookup c hc
      rw [hid, (lookup_eq_some_iff hexpected).2 (show (p.1, p.2) ∈ expected from hp)] at htext
      refine List.mem_map.2 ⟨c, hc, ?_⟩
      rw [hid, ← Option.some.inj htext]

/-- **The check of a tidied summary.** -/
theorem validate_errors_iff {n : Summary} (htidied : ∀ c ∈ n.claims, Tidied u c)
    (context : Context) :
    (validateClaimEvidence u n.toJson context).2 = [] ↔
      (claimTexts n.claims).Perm (expectedMaterialClaims u n.toJson) ∧
        ∀ c ∈ n.claims, c.evidenceRefs ≠ [] ∧ c.evidenceRefs.Nodup ∧
          ∀ ref ∈ c.evidenceRefs, ref ∈ (evidenceCatalog u context).map Prod.fst := by
  have hloop := scanClaims_clean_iff (expectedMaterialClaims u n.toJson)
    (evidenceCatalog u context) n.claims htidied {}
  have hkept := scanClaims_kept (expectedMaterialClaims u n.toJson)
    (evidenceCatalog u context) n.claims htidied {}
  have hclaims : n.toJson.get "claims" = .arr (n.claims.map SummaryClaim.toJson) := rfl
  rw [claimTexts_perm_iff nodup_expected]
  unfold validateClaimEvidence
  rw [hclaims]
  simp only [List.append_eq_nil_iff, List.map_eq_nil_iff, List.filter_eq_nil_iff, decide_eq_true_eq,
    not_not]
  constructor
  · rintro ⟨herrors, hmissing⟩
    obtain ⟨-, hnodup, hclean⟩ := hloop.1 herrors
    refine ⟨⟨hnodup, fun c hc => (hclean c hc).text, fun id hid => ?_⟩, fun c hc => ?_⟩
    · exact (((hkept herrors).2 id).1 (hmissing id hid)).resolve_right List.not_mem_nil
    · exact ⟨(hclean c hc).cites, (hclean c hc).distinct,
        fun ref href => refClean_iff.1 ((hclean c hc).known ref href)⟩
  · rintro ⟨⟨hnodup, hlookup, hall⟩, hrefs⟩
    have herrors := hloop.2 ⟨rfl, hnodup, fun c hc => by
      have hmem := (lookup_eq_some_iff nodup_expected).1 (hlookup c hc)
      obtain ⟨hcites, hdistinct, hknown⟩ := hrefs c hc
      exact ⟨isClaimId_of_mem_expected hmem, List.not_mem_nil, hlookup c hc, hcites, hdistinct,
        fun ref href => refClean_iff.2 (hknown ref href)⟩⟩
    exact ⟨herrors, fun id hid => ((hkept herrors).2 id).2 (.inl (hall id hid))⟩

/-- Without an error the check keeps the claims. -/
theorem validate_claims {n : Summary} (htidied : ∀ c ∈ n.claims, Tidied u c) {context : Context}
    (h : (validateClaimEvidence u n.toJson context).2 = []) :
    (validateClaimEvidence u n.toJson context).1 = n.claims.map SummaryClaim.material := by
  have hclaims : n.toJson.get "claims" = .arr (n.claims.map SummaryClaim.toJson) := rfl
  unfold validateClaimEvidence at h ⊢
  rw [hclaims] at h ⊢
  simp only [List.append_eq_nil_iff] at h ⊢
  rw [(scanClaims_kept _ _ n.claims htidied {} h.1).1]
  rfl

/-- The claims of a parsed summary are tidied. -/
theorem tidied_claims {raw : String} {n : Summary} (h : parseStructuredSummary u raw = .ok n) :
    ∀ c ∈ n.claims, Tidied u c := by
  obtain ⟨payload, -, hparses⟩ := parseStructuredSummary_eq_ok.1 h
  obtain ⟨items, -, -, hitems⟩ := parseClaims_eq_ok.1 hparses.claims
  intro c hc
  obtain ⟨item, -, hitem⟩ := exists_of_forall₂_right (forall₂_of_mapM_eq_ok hitems) hc
  exact tidied_of_parse hitem

/-- **`validate_claim_evidence` is exact.** -/
theorem validateClaimEvidence_exact {raw : String} {n : Summary}
    (h : parseStructuredSummary u raw = .ok n) (context : Context) :
    ((expectedMaterialClaims u n.toJson).map Prod.fst).Nodup ∧
      ((validateClaimEvidence u n.toJson context).2 = [] ↔
        (claimTexts n.claims).Perm (expectedMaterialClaims u n.toJson) ∧
          ∀ c ∈ n.claims, c.evidenceRefs ≠ [] ∧ c.evidenceRefs.Nodup ∧
            ∀ ref ∈ c.evidenceRefs, ref ∈ (evidenceCatalog u context).map Prod.fst) ∧
      ((validateClaimEvidence u n.toJson context).2 = [] →
        (validateClaimEvidence u n.toJson context).1.map
            (fun c => (c.claimId, c.text, c.evidenceRefs)) =
          n.claims.map fun c => (c.claimId, c.text, c.evidenceRefs)) := by
  have htidied := tidied_claims h
  refine ⟨nodup_expected, validate_errors_iff htidied context, fun hclean => ?_⟩
  rw [validate_claims htidied hclean, List.map_map]
  rfl

end Loops

/-! ## §7. A summary with its claims. -/

/-- A reference to the version with the id 0. -/
def sampleRef : String := "p-00000000000000000000000000000000"

/-- A summary of four texts, each with its claim. -/
def sampleSummary : Summary where
  synthesis := "a"
  currentStatus := "b"
  items := fun field =>
    match field with
    | .timeline => ["x"]
    | .attention => ["c"]
    | _ => []
  claims := [
    { claimId := "synthesis", text := "a", evidenceRefs := [sampleRef] },
    { claimId := "current_status", text := "b", evidenceRefs := [sampleRef] },
    { claimId := "timeline:0", text := "x", evidenceRefs := [sampleRef] },
    { claimId := "attention:0", text := "c", evidenceRefs := [sampleRef] }]

/-- A context whose process has the reference and the class `x`. -/
def sampleContext : Context where
  className := .str "x"
  processEvidenceRef := .str sampleRef

theorem parses_sampleSummary : Parses .ascii sampleSummary.toJson sampleSummary := by
  have hkeys : sampleSummary.toJson.keys = ["synthesis", "timeline", "current_status",
    "attention", "decisions", "deadlines", "related_processes", "attachments", "claims"] := rfl
  refine ⟨rfl, ?_, ?_, by decide, by decide, ?_, ?_⟩
  · rw [hkeys]
    decide
  · rw [Json.keysWithin, hkeys]
    decide
  · intro field
    cases field <;> decide
  · decide

theorem parse_sampleSummary :
    parseStructuredSummary .ascii (dumps sampleSummary.toJson) = .ok sampleSummary :=
  parses_print_iff.2 parses_sampleSummary

/-- The claims of the sample are accepted. -/
theorem validateClaimEvidence_exact_sampleSummary :
    (validateClaimEvidence .ascii sampleSummary.toJson sampleContext).2 = [] ∧
      (validateClaimEvidence .ascii sampleSummary.toJson sampleContext).1.map
          (fun c => (c.claimId, c.text, c.evidenceRefs)) =
        sampleSummary.claims.map fun c => (c.claimId, c.text, c.evidenceRefs) := by
  obtain ⟨-, hexact, hkept⟩ := validateClaimEvidence_exact parse_sampleSummary sampleContext
  have hclean := hexact.2 (by decide)
  exact ⟨hclean, hkept hclean⟩

end Rpy.Summaries

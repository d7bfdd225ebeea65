/-
  Rpy.Summaries.Output
  ────────────────────
  **THE STRUCTURED SUMMARY** (`app/summary_output.py`).

  A provider answers with a JSON object of texts, lists of texts and
  claims.  `parse_structured_summary` brings every text into its inline
  form, and a stored document is canonical when parsing it changes nothing.

    • `parseStructuredSummary`       — `parse_structured_summary`,
    • `parseStructuredSummary_dumps` — parsing what `json.dumps` wrote,
    • `structuredSummaryDocument`    — the document that is stored,
    • `documentIsCanonical`          — is a stored value such a document?
    • `canonicalSummary_iff`         — canonical summaries are the forms of
                                       the summaries parsing keeps,
    • `documentIsCanonical_congr`, `documentMatchesProcess_congr` — a
                                       `jsonb` column does not change that.
-/
import Rpy.Summaries.Prose
import Rpy.Foundation.JsonEquality
import Rpy.Foundation.JsonWriter
import Rpy.Foundation.Raising

namespace Rpy.Summaries

open Rpy.Foundation

/-! ## §1. Summaries. -/

/-- The lists of a summary, in the order of `_MATERIAL_LIST_FIELDS`. -/
inductive ListField where
  | timeline
  | attention
  | decisions
  | deadlines
  | relatedProcesses
  | attachments
deriving Repr, DecidableEq

/-- The key of a list. -/
def ListField.key : ListField → String
  | .timeline => "timeline"
  | .attention => "attention"
  | .decisions => "decisions"
  | .deadlines => "deadlines"
  | .relatedProcesses => "related_processes"
  | .attachments => "attachments"

/-- `_MAX_ITEMS`. -/
def ListField.maxItems : ListField → Nat
  | .timeline => 24
  | .attention => 12
  | .decisions => 16
  | .deadlines => 12
  | .relatedProcesses => 12
  | .attachments => 12

def maxSynthesisChars : Nat := 6000

def maxStatusChars : Nat := 4000

def maxItemChars : Nat := 2000

/-- A claim of a parsed summary. -/
structure SummaryClaim where
  claimId : String
  text : String
  evidenceRefs : List String
deriving Repr, DecidableEq

/-- What `parse_structured_summary` returns. -/
structure Summary where
  synthesis : String
  currentStatus : String
  items : ListField → List String
  claims : List SummaryClaim

def SummaryClaim.toJson (c : SummaryClaim) : Json :=
  .obj [
    ("claim_id", .str c.claimId),
    ("text", .str c.text),
    ("evidence_refs", .arr (c.evidenceRefs.map .str))]

/-- A list of texts as a JSON value. -/
def texts (items : List String) : Json :=
  .arr (items.map .str)

/-- The summary as the `dict` it is. -/
def Summary.toJson (n : Summary) : Json :=
  .obj [
    ("synthesis", .str n.synthesis),
    ("timeline", texts (n.items .timeline)),
    ("current_status", .str n.currentStatus),
    ("attention", texts (n.items .attention)),
    ("decisions", texts (n.items .decisions)),
    ("deadlines", texts (n.items .deadlines)),
    ("related_processes", texts (n.items .relatedProcesses)),
    ("attachments", texts (n.items .attachments)),
    ("claims", .arr (n.claims.map SummaryClaim.toJson))]

/-! ## §2. Parsing. -/

/-- `_REQUIRED_KEYS - {"claims"}`. -/
def legacyRequired : List String :=
  ["synthesis", "timeline", "current_status", "attention", "decisions", "deadlines",
    "related_processes", "attachments"]

/-- `_REQUIRED_KEYS`. -/
def requiredKeys : List String := legacyRequired ++ ["claims"]

/-- The strings of an array of strings. -/
def stringItems : List Json → Option (List String)
  | [] => some []
  | .str s :: xs => (stringItems xs).map (s :: ·)
  | _ :: _ => none

/-- `value` when it is an array of strings. -/
def stringArray : Json → Option (List String)
  | .arr xs => stringItems xs
  | _ => none

/-- `_string_list`. -/
def stringList (u : Unicode) (value : Json) (field : ListField) (requireNonempty : Bool) :
    Except String (List String) :=
  match stringArray value with
  | none => .error ("structured summary field must be a string array: " ++ field.key)
  | some items =>
      if field.maxItems < items.length then
        .error ("structured summary field has too many items: " ++ field.key)
      else
        let rendered := (items.filter fun item => inlineText u item != "").map (proseLine u)
        if rendered.any fun item => maxItemChars < item.length then
          .error ("structured summary item is too long: " ++ field.key)
        else if requireNonempty && rendered.isEmpty then
          .error ("structured summary field must not be empty: " ++ field.key)
        else .ok rendered

/-- One round of the loop of `_claims`. -/
def parseClaim (u : Unicode) (item : Json) : Except String SummaryClaim :=
  if !(item.isObj && item.sameKeys ["claim_id", "text", "evidence_refs"]) then
    .error "structured summary claim keys do not match the contract"
  else
    let claimId := inline u (item.get "claim_id")
    if claimId == "" || 64 < claimId.length then
      .error "structured summary claim_id is invalid"
    else
      match item.get "text" with
      | .str text =>
          if inlineText u text == "" then
            .error "structured summary claim text must be non-empty"
          else if maxSynthesisChars < text.length then
            .error "structured summary claim text is too long"
          else
            match stringArray (item.get "evidence_refs") with
            | none => .error "structured summary claim evidence_refs are invalid"
            | some refs =>
                if refs.isEmpty || 32 < refs.length || refs.any (inlineText u · == "") then
                  .error "structured summary claim evidence_refs are invalid"
                else
                  let renderedRefs := refs.map (inlineText u)
                  if renderedRefs.Nodup then
                    .ok { claimId, text := proseLine u text, evidenceRefs := renderedRefs }
                  else .error "structured summary claim evidence_refs must be unique"
      | _ => .error "structured summary claim text must be non-empty"

/-- `_claims`. -/
def parseClaims (u : Unicode) (value : Json) : Except String (List SummaryClaim) :=
  match value with
  | .arr items =>
      if 96 < items.length then .error "structured summary claims must be a bounded array"
      else items.mapM (parseClaim u)
  | _ => .error "structured summary claims must be a bounded array"

/-- The check `synthesis` and `current_status` go through. -/
def parseProse (u : Unicode) (value : Json) (field : String) (maxChars : Nat) :
    Except String String :=
  match value with
  | .str s =>
      if inlineText u s == "" then
        .error ("structured summary " ++ field ++ " must be a non-empty string")
      else if maxChars < s.length then
        .error ("structured summary " ++ field ++ " is too long")
      else .ok (proseLine u s)
  | _ => .error ("structured summary " ++ field ++ " must be a non-empty string")

/-- What `parse_structured_summary` raises. -/
inductive SummaryError where
  | valueError (message : String)
  | recursionError
deriving Repr, DecidableEq

/-- `parse_structured_summary`, once the text is read. -/
def parsePayload (u : Unicode) (payload : Json) : Except String Summary :=
  if !payload.isObj then .error "provider structured summary must be a JSON object"
  else if !(legacyRequired.all payload.keys.contains && payload.keysWithin requiredKeys) then
    .error "provider structured summary keys do not match the contract"
  else do
    let synthesis ← parseProse u (payload.get "synthesis") "synthesis" maxSynthesisChars
    let currentStatus ←
      parseProse u (payload.get "current_status") "current_status" maxStatusChars
    let timeline ← stringList u (payload.get "timeline") .timeline false
    let attention ← stringList u (payload.get "attention") .attention true
    let decisions ← stringList u (payload.get "decisions") .decisions false
    let deadlines ← stringList u (payload.get "deadlines") .deadlines false
    let relatedProcesses ←
      stringList u (payload.get "related_processes") .relatedProcesses false
    let attachments ← stringList u (payload.get "attachments") .attachments false
    let claims ← parseClaims u ((payload.get? "claims").getD (.arr []))
    return {
      synthesis, currentStatus, claims
      items := fun field =>
        match field with
        | .timeline => timeline
        | .attention => attention
        | .decisions => decisions
        | .deadlines => deadlines
        | .relatedProcesses => relatedProcesses
        | .attachments => attachments }

/-- `parse_structured_summary`. -/
def parseStructuredSummary (u : Unicode) (raw : String) : Except SummaryError Summary :=
  match u.loadsStrict raw with
  | .error .value => .error (.valueError "provider structured summary is not valid JSON")
  | .error .recursion => .error .recursionError
  | .ok payload => (parsePayload u payload).mapError .valueError

/-- `json.dumps(value, ensure_ascii=False)` -/
def dumps (value : Json) : String :=
  String.ofList (value.print { ascii := false, blanks := true })

/-! ## §3. Documents. -/

/-- What `structured_summary_process` reads of a context. -/
structure ProcessContext where
  code : Json := .null
  className : Json := .null
  court : Json := .null
  header : Json := .null
  parties : Json := .null
deriving Repr, DecidableEq

/-- The keys of `_HEADER_FIELDS`. -/
def headerKeys : List String :=
  ["instance", "area", "justice_description", "county", "state", "city", "amount"]

/-- The keys of a party, in the order they are copied. -/
def partyKeys : List String := ["name", "side", "person_type", "masked_person_id"]

/-- `{key: value.get(key) for key in names if value.get(key) is not None}` -/
def present (value : Json) (names : List String) : Json :=
  .obj ((names.filter fun key => value.get key != .null).map fun key => (key, value.get key))

/-- `text or None` -/
def textOrNone (s : String) : Json :=
  if s = "" then .null else .str s

/-- `structured_summary_process`. -/
def structuredSummaryProcess (u : Unicode) (context : ProcessContext) : Json :=
  let header := if context.header.isObj then context.header else .obj []
  let parties :=
    match context.parties with
    | .arr items => (items.filter Json.isObj).map fun item => present item partyKeys
    | _ => []
  .obj [
    ("cnj", .str (inline u context.code)),
    ("class_name", textOrNone (inline u context.className)),
    ("court", textOrNone (inline u context.court)),
    ("header", present header headerKeys),
    ("parties", .arr parties)]

/-- `structured_summary_document`. -/
def structuredSummaryDocument (u : Unicode) (payload : Summary) (context : ProcessContext) :
    Json :=
  .obj [
    ("schema_version", .int 2),
    ("process", structuredSummaryProcess u context),
    ("summary", payload.toJson)]

/-- `value is None or isinstance(value, str)` -/
def isOptionalStr (value : Json) : Bool :=
  value == .null || value.isStr

/-- A party of a canonical document. -/
def partyIsCanonical (party : Json) : Bool :=
  party.isObj && party.keysWithin partyKeys && party.values.all Json.isStr

/-- The part of `structured_summary_document_is_canonical` that is about
the process. -/
def processIsCanonical (process : Json) : Bool :=
  process.isObj && process.sameKeys ["cnj", "class_name", "court", "header", "parties"] &&
    (process.get "cnj").isStr && isOptionalStr (process.get "class_name") &&
    isOptionalStr (process.get "court") &&
    (process.get "header").isObj && (process.get "header").keysWithin headerKeys &&
    ((process.get "header").values.all fun item => !(item.isObj || item.isArr)) &&
    (match process.get "parties" with
      | .arr parties => parties.all partyIsCanonical
      | _ => false)

/-- The part about the summary: parsing its text again gives an equal value.
(A value that was read from a text is not nested too deep to be read.) -/
def summaryIsCanonical (u : Unicode) (summary : Json) : Bool :=
  summary.isObj && summary.sameKeys requiredKeys &&
    match parseStructuredSummary u (dumps summary) with
    | .ok normalized => summary.pyEq normalized.toJson
    | .error _ => false

/-- `structured_summary_document_is_canonical`. -/
def documentIsCanonical (u : Unicode) (value : Json) : Bool :=
  value.isObj && value.sameKeys ["schema_version", "process", "summary"] &&
    (value.get "schema_version").pyEq (.int 2) && processIsCanonical (value.get "process") &&
    summaryIsCanonical u (value.get "summary")

/-- `structured_summary_document_matches_process`. -/
def documentMatchesProcess (u : Unicode) (value : Json) (context : ProcessContext) : Bool :=
  documentIsCanonical u value && (value.get "process").pyEq (structuredSummaryProcess u context)

/-! ## §4. Canonical summaries. -/

theorem plain_texts (items : List String) : (texts items).plain = true := by
  show Json.plainList (items.map .str) = true
  rw [Json.plainList_iff]
  intro x hx
  obtain ⟨s, -, rfl⟩ := List.mem_map.1 hx
  rfl

theorem SummaryClaim.plain_toJson (c : SummaryClaim) : c.toJson.plain = true := by
  have hrefs : Json.plainList (c.evidenceRefs.map .str) = true := plain_texts c.evidenceRefs
  simp only [SummaryClaim.toJson, Json.plain, Json.plainMembers, hrefs, Bool.and_self]

/-- A summary is made of texts. -/
theorem Summary.plain_toJson (n : Summary) : n.toJson.plain = true := by
  have hclaims : (Json.arr (n.claims.map SummaryClaim.toJson)).plain = true := by
    show Json.plainList _ = true
    rw [Json.plainList_iff]
    intro x hx
    obtain ⟨c, -, rfl⟩ := List.mem_map.1 hx
    exact c.plain_toJson
  rw [Summary.toJson, Json.plain, Json.plainMembers_iff]
  intro m hm
  simp only [List.mem_cons, List.not_mem_nil, or_false] at hm
  rcases hm with rfl | rfl | rfl | rfl | rfl | rfl | rfl | rfl | rfl
  · rfl
  · exact plain_texts _
  · rfl
  · exact plain_texts _
  · exact plain_texts _
  · exact plain_texts _
  · exact plain_texts _
  · exact plain_texts _
  · exact hclaims

section Congruence

variable {u : Unicode}

/-- A claim of the form of a parsed one is parsed like it. -/
theorem parseClaim_congr {x : Json} {c : SummaryClaim} (h : x.canon = c.toJson.canon) :
    parseClaim u x = parseClaim u c.toJson := by
  have hid : x.get "claim_id" = .str c.claimId :=
    Json.eq_str_of_canon (Json.get_canon_congr h "claim_id")
  have htext : x.get "text" = .str c.text :=
    Json.eq_str_of_canon (Json.get_canon_congr h "text")
  have hrefs : x.get "evidence_refs" = texts c.evidenceRefs :=
    Json.eq_texts_of_canon (Json.get_canon_congr h "evidence_refs")
  have hobj : x.isObj = c.toJson.isObj := by
    rw [← Json.isObj_canon, h, Json.isObj_canon]
  unfold parseClaim
  rw [hobj, Json.sameKeys_congr h, hid, htext, hrefs]
  rfl

theorem parseClaims_congr {xs : List Json} {claims : List SummaryClaim}
    (h : xs.map Json.canon = (claims.map SummaryClaim.toJson).map Json.canon) :
    xs.mapM (parseClaim u) = (claims.map SummaryClaim.toJson).mapM (parseClaim u) := by
  induction xs generalizing claims with
  | nil =>
      cases claims with
      | nil => rfl
      | cons c claims => cases h
  | cons x xs ih =>
      cases claims with
      | nil => cases h
      | cons c claims =>
          rw [List.map_cons, List.map_cons, List.map_cons, List.cons.injEq] at h
          rw [List.map_cons, List.mapM_cons, List.mapM_cons, parseClaim_congr h.1, ih h.2]

/-- **A value of the form of a summary is parsed like the summary.** -/
theorem parsePayload_congr {w : Json} {n : Summary} (h : w.canon = n.toJson.canon) :
    parsePayload u w = parsePayload u n.toJson := by
  have hobj : w.isObj = n.toJson.isObj := by
    rw [← Json.isObj_canon, h, Json.isObj_canon]
  have hcontains : w.keys.contains = n.toJson.keys.contains := by
    funext name
    rw [Bool.eq_iff_iff, List.contains_iff_mem, List.contains_iff_mem]
    exact Json.mem_keys_congr h name
  have hprose : ∀ key s, n.toJson.get key = .str s → w.get key = .str s := fun key s hs =>
    Json.eq_str_of_canon ((Json.get_canon_congr h key).trans (by rw [hs]; rfl))
  have hlist : ∀ key items, n.toJson.get key = texts items → w.get key = texts items :=
    fun key items hitems =>
      Json.eq_texts_of_canon ((Json.get_canon_congr h key).trans (by rw [hitems]; rfl))
  -- the claims are the only member that can be missing
  have hclaims : parseClaims u ((w.get? "claims").getD (.arr [])) =
      parseClaims u ((n.toJson.get? "claims").getD (.arr [])) := by
    have hget : (w.get? "claims").map Json.canon =
        some (Json.arr (n.claims.map SummaryClaim.toJson)).canon := by
      rw [← Json.get?_canon, h, Json.get?_canon]
      rfl
    obtain ⟨x, hx, hform⟩ := Option.map_eq_some_iff.1 hget
    obtain ⟨xs, rfl, hxs⟩ := Json.eq_arr_of_canon hform
    have hlength : xs.length = (n.claims.map SummaryClaim.toJson).length := by
      simpa using congrArg List.length hxs
    rw [hx]
    show (if 96 < xs.length then _ else xs.mapM (parseClaim u)) =
      (if 96 < (n.claims.map SummaryClaim.toJson).length then _
        else (n.claims.map SummaryClaim.toJson).mapM (parseClaim u))
    rw [hlength, parseClaims_congr hxs]
  unfold parsePayload
  rw [hobj, Json.keysWithin_congr h, hcontains, hclaims, hprose "synthesis" _ rfl,
    hprose "current_status" _ rfl, hlist "timeline" _ rfl, hlist "attention" _ rfl,
    hlist "decisions" _ rfl, hlist "deadlines" _ rfl, hlist "related_processes" _ rfl,
    hlist "attachments" _ rfl]
  rfl

/-- The texts of a summary can be read. -/
theorem Summary.readable_toJson (n : Summary) : n.toJson.readable u.recursionLimit = true := by
  obtain ⟨k, hk⟩ : ∃ k, u.recursionLimit = k + 4 :=
    ⟨u.recursionLimit - 4, by have := u.recursionLimit_ge; omega⟩
  -- Four levels are enough: the summary, its claims, one claim and its references.
  have htexts : ∀ (items : List String) (depth : Nat),
      Json.readable (depth + 1) (texts items) = true := by
    intro items depth
    show Json.readableItems depth (items.map .str) = true
    induction items with
    | nil => rfl
    | cons s items ih =>
        rw [List.map_cons, Json.readableItems, ih, Bool.and_true]
        cases depth <;> rfl
  have hclaims : Json.readable (k + 3) (.arr (n.claims.map SummaryClaim.toJson)) = true := by
    show Json.readableItems (k + 2) _ = true
    induction n.claims with
    | nil => rfl
    | cons c claims ih =>
        have hc : Json.readable (k + 2) c.toJson = true := by
          have hkeys : ["claim_id", "text", "evidence_refs"].Nodup := by decide
          rw [SummaryClaim.toJson, Json.readable, Bool.and_eq_true, Json.readableMembers_iff]
          refine ⟨decide_eq_true hkeys, fun m hm => ?_⟩
          simp only [List.mem_cons, List.not_mem_nil, or_false] at hm
          rcases hm with rfl | rfl | rfl
          · rfl
          · rfl
          · exact htexts c.evidenceRefs k
        rw [List.map_cons, Json.readableItems, hc, ih]
        rfl
  have hkeys : ["synthesis", "timeline", "current_status", "attention", "decisions",
    "deadlines", "related_processes", "attachments", "claims"].Nodup := by decide
  rw [hk, Summary.toJson, Json.readable, Bool.and_eq_true, Json.readableMembers_iff]
  refine ⟨decide_eq_true hkeys, fun m hm => ?_⟩
  simp only [List.mem_cons, List.not_mem_nil, or_false] at hm
  rcases hm with rfl | rfl | rfl | rfl | rfl | rfl | rfl | rfl | rfl
  · rfl
  · exact htexts _ _
  · rfl
  · exact htexts _ _
  · exact htexts _ _
  · exact htexts _ _
  · exact htexts _ _
  · exact htexts _ _
  · exact hclaims

/-- **The text of a value of the form of a summary is parsed like the summary.** -/
theorem parseStructuredSummary_dumps {w : Json} {n : Summary} (h : w.canon = n.toJson.canon) :
    parseStructuredSummary u (dumps w) = (parsePayload u n.toJson).mapError .valueError := by
  have hread : u.loadsStrict (dumps w) = .ok w := by
    unfold Unicode.loadsStrict dumps
    rw [String.toList_ofList]
    exact Json.loads_print (Json.readable_of_canon h n.plain_toJson n.readable_toJson)
  unfold parseStructuredSummary
  rw [hread, ← parsePayload_congr h]

/-- **A canonical summary is of the form of a summary that parsing keeps.** -/
theorem canonicalSummary_iff {w : Json} : summaryIsCanonical u w = true ↔
    ∃ n : Summary, parsePayload u n.toJson = .ok n ∧ w.canon = n.toJson.canon := by
  constructor
  · intro h
    unfold summaryIsCanonical at h
    rw [Bool.and_eq_true] at h
    cases hparse : parseStructuredSummary u (dumps w) with
    | error e =>
        rw [hparse] at h
        exact absurd h.2 Bool.false_ne_true
    | ok n =>
        rw [hparse] at h
        have hform : w.canon = n.toJson.canon := (Json.pyEq_plain n.plain_toJson).1 h.2
        refine ⟨n, ?_, hform⟩
        rw [parseStructuredSummary_dumps hform] at hparse
        cases hpayload : parsePayload u n.toJson with
        | error e =>
            rw [hpayload] at hparse
            cases hparse
        | ok m =>
            rw [hpayload] at hparse
            cases hparse
            rfl
  · rintro ⟨n, hparse, hform⟩
    have hobj : w.isObj = true := by
      rw [← Json.isObj_canon, hform, Json.isObj_canon]
      rfl
    have hkeys : w.sameKeys requiredKeys = true := by
      have hnames : n.toJson.keys = ["synthesis", "timeline", "current_status", "attention",
        "decisions", "deadlines", "related_processes", "attachments", "claims"] := rfl
      rw [Json.sameKeys_congr hform, Json.sameKeys, Json.keysWithin, hnames]
      decide
    unfold summaryIsCanonical
    rw [hobj, hkeys, parseStructuredSummary_dumps hform, hparse]
    exact (Json.pyEq_plain n.plain_toJson).2 hform

theorem summaryIsCanonical_congr {v w : Json} (h : v.canon = w.canon) :
    summaryIsCanonical u v = summaryIsCanonical u w := by
  rw [Bool.eq_iff_iff, canonicalSummary_iff, canonicalSummary_iff, h]

/-! ## §5. What a `jsonb` column does to a document. -/

theorem isOptionalStr_congr {v w : Json} (h : v.canon = w.canon) :
    isOptionalStr v = isOptionalStr w := by
  have hform : ∀ x : Json, isOptionalStr x.canon = isOptionalStr x := by
    intro x
    cases x with
    | float d =>
        show isOptionalStr (Json.canonFloat d) = isOptionalStr (.float d)
        unfold Json.canonFloat
        split <;> rfl
    | _ => rfl
  rw [← hform v, h, hform w]

theorem partyIsCanonical_congr {v w : Json} (h : v.canon = w.canon) :
    partyIsCanonical v = partyIsCanonical w := by
  have hobj : v.isObj = w.isObj := by
    rw [← Json.isObj_canon, h, Json.isObj_canon]
  unfold partyIsCanonical
  rw [hobj, Json.keysWithin_congr h, Json.all_values_congr h Json.isStr_canon]

theorem processIsCanonical_congr {v w : Json} (h : v.canon = w.canon) :
    processIsCanonical v = processIsCanonical w := by
  have hget := Json.get_canon_congr h
  have hobj : ∀ {x y : Json}, x.canon = y.canon → x.isObj = y.isObj := by
    intro x y hxy
    rw [← Json.isObj_canon, hxy, Json.isObj_canon]
  have hscalar : ∀ x : Json, (!(x.canon.isObj || x.canon.isArr)) = !(x.isObj || x.isArr) := by
    intro x
    rw [Json.isObj_canon, Json.isArr_canon]
  have hcnj : (v.get "cnj").isStr = (w.get "cnj").isStr := by
    rw [← Json.isStr_canon, hget, Json.isStr_canon]
  have hparties : (match v.get "parties" with
        | .arr parties => parties.all partyIsCanonical
        | _ => false) =
      (match w.get "parties" with
        | .arr parties => parties.all partyIsCanonical
        | _ => false) := by
    cases hw : w.get "parties" with
    | arr ys =>
        obtain ⟨xs, hxs, hforms⟩ := Json.eq_arr_of_canon ((hget "parties").trans (by rw [hw]))
        rw [hxs]
        exact Json.all_congr_of_canon (fun _ _ => partyIsCanonical_congr) hforms
    | _ =>
        cases hv : v.get "parties" with
        | arr xs =>
            obtain ⟨ys, hys, -⟩ := Json.eq_arr_of_canon ((hget "parties").symm.trans (by rw [hv]))
            rw [hw] at hys
            cases hys
        | _ => rfl
  unfold processIsCanonical
  rw [hobj h, Json.sameKeys_congr h, hcnj, isOptionalStr_congr (hget "class_name"),
    isOptionalStr_congr (hget "court"), hobj (hget "header"),
    Json.keysWithin_congr (hget "header"), Json.all_values_congr (hget "header") hscalar, hparties]

/-- **Documents of one form are canonical together.** -/
theorem documentIsCanonical_congr {v w : Json} (h : v.canon = w.canon) :
    documentIsCanonical u v = documentIsCanonical u w := by
  have hget := Json.get_canon_congr h
  have hobj : v.isObj = w.isObj := by
    rw [← Json.isObj_canon, h, Json.isObj_canon]
  unfold documentIsCanonical
  rw [hobj, Json.sameKeys_congr h, Json.pyEq_congr_left (hget "schema_version"),
    processIsCanonical_congr (hget "process"), summaryIsCanonical_congr (hget "summary")]

/-- **And they match the same processes.** -/
theorem documentMatchesProcess_congr {v w : Json} (h : v.canon = w.canon)
    (context : ProcessContext) :
    documentMatchesProcess u v context = documentMatchesProcess u w context := by
  unfold documentMatchesProcess
  rw [documentIsCanonical_congr h, Json.pyEq_congr_left (Json.get_canon_congr h "process")]

end Congruence

end Rpy.Summaries

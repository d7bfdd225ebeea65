/-
  Rpy.Publication.Gates
  ─────────────────────
  **MAY A STORED SUMMARY BE SHOWN?** (`app/claim_evidence.py`,
  `app/summary_policy.py`, `app/json_utils.py`).

  What a column gives back is decoded first, which can raise.  A summary of a
  process under secrecy is shown when it is the text of the application
  itself; any other when it is canonical, states the process as it is, and
  its claims are the rows that were stored for it.

    • `decodeJsonObject`          — `decode_json_object`,
    • `claimEvidenceIsComplete`   — `claim_evidence_is_complete`,
    • `claimEvidenceIsPublishable` — `claim_evidence_is_publishable`,
    • `isRestrictedLocalSummary`  — `is_restricted_local_summary`.
-/
import Rpy.Attachments.Sandbox
import Rpy.Summaries.Verification

namespace Rpy.Publication

open Rpy.Foundation Rpy.Summaries
open Rpy.Attachments (Exn pairOf)

/-! ## §1. Columns that hold JSON. -/

/-- A `dict`: its keys that are texts with their values, and whether it has
other keys. -/
structure Dict where
  members : List (String × Json) := []
  mixed : Bool := false
deriving Repr, DecidableEq

/-- `value.get(key)` for a text. -/
def Dict.get (d : Dict) (key : String) : Json :=
  (Json.obj d.members).get key

/-- `left.update(right)` -/
def Dict.update (left right : Dict) : Dict where
  members := right.members.foldl (fun members (key, value) => assign key value members)
    left.members
  mixed := left.mixed || right.mixed

/-- `dict(value)` -/
def Dict.ofValue : Json → Except Exn Dict
  | .obj members => .ok { members }
  | .arr items => do
      let pairs ← items.mapM pairOf
      let texts := pairs.filterMap fun (key, value) => key.map (·, value)
      return {
        members := texts.foldl (fun members (key, value) => assign key value members) []
        mixed := pairs.any fun (key, _) => key.isNone }
  | .str s => if s = "" then .ok {} else .error .value
  | _ => .error .type

/-- `decode_json_value` -/
def decodeJsonValue (u : Unicode) : Json → Except Exn Json
  | .str s =>
      match u.loadsStrict s with
      | .error .value => .error .value
      | .error .recursion => .error .recursion
      | .ok value => .ok value
  | value => .ok value

/-- `decode_json_object`; a `TypeError` or `ValueError` of `dict` becomes a
`ValueError`. -/
def decodeJsonObject (u : Unicode) : Json → Except Exn Dict
  | .null => .ok {}
  | value => do
      let decoded ← decodeJsonValue u value
      (Dict.ofValue decoded).mapError fun _ => .value

/-- `decode_json_object(value) if value is not None else None` -/
def decodeNullable (u : Unicode) : Json → Except Exn (Option Dict)
  | .null => .ok none
  | value => (decodeJsonObject u value).map some

/-! ## §2. The claims a document declares. -/

/-- A reference list of a claim: texts in the form of references, none of
them twice. -/
def referenceList : Json → Option (List String)
  | .arr items =>
      (stringItems items).filter fun refs =>
        !refs.isEmpty && refs.all isEvidenceRef && decide refs.Nodup
  | _ => none

/-- One round of the loop of `_declared_claim_evidence_refs`. -/
def declareClaim (u : Unicode) (expected : List (String × String))
    (declared : List (String × List String)) (item : Json) :
    Option (List (String × List String)) :=
  if !item.isObj then none
  else
    let claimId := u.strip (strOrEmpty u (item.get "claim_id"))
    let text := u.strip (strOrEmpty u (item.get "text"))
    match expected.lookup claimId, referenceList (item.get "evidence_refs") with
    | some expectedText, some refs =>
        if (declared.lookup claimId).isNone && text == expectedText then
          some (declared ++ [(claimId, refs)])
        else none
    | _, _ => none

/-- `_declared_claim_evidence_refs` -/
def declaredClaimEvidenceRefs (u : Unicode) (summary : Json) (expected : List (String × String)) :
    Option (List (String × List String)) :=
  match summary.get "claims" with
  | .arr items =>
      (items.foldlM (declareClaim u expected) []).filter fun declared =>
        expected.all fun (claimId, _) => (declared.lookup claimId).isSome
  | _ => none

/-! ## §3. The claims that were stored. -/

/-- A source of a claim, as far as the gate reads it. -/
structure SourceEvidence where
  evidenceRef : String
  verificationStatus : VerificationStatus
  verificationReason : Option String := none
  evidenceExcerptSha256 : Option String := none
deriving Repr, DecidableEq

/-- A claim, as far as the gate reads it. -/
structure ClaimEvidence where
  claimId : String
  claimClass : Option ClaimClass := none
  text : String
  evidenceRefs : List String
  verificationStatus : VerificationStatus
  verificationReason : Option String := none
  sources : List SourceEvidence
deriving Repr, DecidableEq

/-- One round of the loop of `claim_evidence_is_complete`. -/
def observeClaim (u : Unicode) (expected : List (String × String))
    (declared : List (String × List String)) (observed : List String) (item : ClaimEvidence) :
    Option (List String) :=
  let claimId := u.strip item.claimId
  let text := u.strip item.text
  if expected.lookup claimId == some text && !observed.contains claimId &&
      item.claimClass.all (· == claimClass claimId) &&
      !item.evidenceRefs.isEmpty && item.evidenceRefs.all isEvidenceRef &&
      decide item.evidenceRefs.Nodup && declared.lookup claimId == some item.evidenceRefs then
    some (observed ++ [claimId])
  else none

/-- `structured_summary_document_is_canonical` of a `dict`. -/
def Dict.isCanonical (u : Unicode) (d : Dict) : Bool :=
  !d.mixed && documentIsCanonical u (.obj d.members)

/-- `structured_summary_document_matches_process` of a `dict`. -/
def Dict.matchesProcess (u : Unicode) (d : Dict) (process : ProcessContext) : Bool :=
  !d.mixed && documentMatchesProcess u (.obj d.members) process

/-- `claim_evidence_is_complete` (a summary always has claims to expect). -/
def claimEvidenceIsComplete (u : Unicode) (output : Option Dict) (claims : List ClaimEvidence) :
    Bool :=
  match output with
  | none => false
  | some d =>
      d.isCanonical u &&
        let expected := expectedMaterialClaims u (d.get "summary")
        match declaredClaimEvidenceRefs u (d.get "summary") expected with
        | none => false
        | some declared =>
            match claims.foldlM (observeClaim u expected declared) [] with
            | none => false
            | some observed => expected.all fun (claimId, _) => observed.contains claimId

/-- `_is_evaluated_status` -/
def isEvaluatedStatus (status : VerificationStatus) : Bool :=
  status != .notEvaluated

/-- `_valid_verification_reason` -/
def validVerificationReason (u : Unicode) (reason : Option String) : Bool :=
  reason.any fun s => u.strip s != ""

/-- `_valid_excerpt_sha256` -/
def validExcerptSha256 (digest : Option String) : Bool :=
  digest.any fun s => s.toList.length == 64 && s.toList.all isLowerHex

/-- `_claim_verification_metadata`: is it valid, and was it evaluated? -/
def claimVerificationMetadata (u : Unicode) (item : ClaimEvidence) : Bool × Bool :=
  let evaluated := isEvaluatedStatus item.verificationStatus
  if item.verificationStatus = .contradicted then (false, false)
  else if evaluated && !validVerificationReason u item.verificationReason then (false, false)
  else (true, evaluated)

/-- `_source_verification_metadata` -/
def sourceVerificationMetadata (u : Unicode) (source : SourceEvidence) : Bool × Bool :=
  let digest := source.evidenceExcerptSha256
  let evaluated := isEvaluatedStatus source.verificationStatus
  if source.verificationStatus = .contradicted then (false, false)
  else if digest.isSome && !validExcerptSha256 digest then (false, false)
  else if evaluated && !(validVerificationReason u source.verificationReason &&
      validExcerptSha256 digest) then (false, false)
  else (true, evaluated)

/-- One round of the loop of `claim_evidence_is_publishable`. -/
def claimIsPublishable (u : Unicode) (item : ClaimEvidence) : Bool :=
  let (valid, evaluated) := claimVerificationMetadata u item
  let sources := item.sources.map (sourceVerificationMetadata u)
  valid && sources.all Prod.fst && !(evaluated && !sources.any Prod.snd)

/-- `claim_evidence_is_publishable` -/
def claimEvidenceIsPublishable (u : Unicode) (output : Option Dict) (claims : List ClaimEvidence)
    (process : ProcessContext) : Bool :=
  claimEvidenceIsComplete u output claims && output.any (fun d => d.matchesProcess u process) &&
    claims.all (claimIsPublishable u)

/-! ## §4. Summaries of processes under secrecy. -/

def restrictedModel : String := "local-deterministic"

def restrictedPromptVersion : String := "secret-summary-v1"

/-- The keys of `RESTRICTED_HEADER_FIELDS`. -/
def restrictedHeaderFields : List String :=
  ["instance", "area", "justice_description", "county", "state", "city"]

/-- `restricted_summary_payload` -/
def restrictedSummaryPayload : Json :=
  .obj [
    ("synthesis", .str "Os detalhes processuais foram restringidos por sigilo."),
    ("timeline", .arr []),
    ("current_status", .str ("O contexto público disponível está limitado pelos dados " ++
      "permitidos para processo sigiloso.")),
    ("attention", .arr [.str "Processo com detalhes restringidos por sigilo."]),
    ("decisions", .arr []),
    ("deadlines", .arr []),
    ("related_processes", .arr []),
    ("attachments", .arr []),
    ("claims", .arr [])]

/-- `restricted_public_header` -/
def restrictedPublicHeader (header : List (String × Json)) : List (String × Json) :=
  (restrictedHeaderFields.filter fun key => (Json.obj header).get key != .null).map fun key =>
    (key, (Json.obj header).get key)

/-- What the restricted policy reads of a process. -/
structure RestrictedProcess where
  code : String
  className : Option String
  header : List (String × Json)
deriving Repr, DecidableEq

/-- A nullable text column as a Python value. -/
def nullable : Option String → Json
  | none => .null
  | some s => .str s

/-- `restricted_context` -/
def RestrictedProcess.context (p : RestrictedProcess) : ProcessContext where
  code := .str p.code
  className := nullable p.className
  court := .null
  header := .obj (restrictedPublicHeader p.header)
  parties := .arr []

/-- `is_restricted_local_summary`; only a `RecursionError` is not caught. -/
def isRestrictedLocalSummary (u : Unicode) (model promptVersion : String) (output : Json)
    (process : RestrictedProcess) : Except Exn Bool :=
  if model ≠ restrictedModel ∨ promptVersion ≠ restrictedPromptVersion then .ok false
  else
    match decodeJsonObject u output with
    | .error .recursion => .error .recursion
    | .error _ => .ok false
    | .ok d =>
        .ok (d.matchesProcess u process.context &&
          (d.get "summary").pyEq restrictedSummaryPayload)

end Rpy.Publication

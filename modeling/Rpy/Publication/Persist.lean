/-
  Rpy.Publication.Persist
  ───────────────────────
  **A SUMMARY IS WRITTEN** (`_persist_summary` of `app/rag.py`,
  `replace_summary_claim_evidence` of `app/claim_evidence.py`,
  `app/provenance.py`; the constraints of `sql/019`, `020`, `024`, `026`,
  `029`, `032` and `033`).

  A version has one summary.  The row of an approved one stays unless the
  summary that comes is judged to be publishable before it is stored, and
  either the row is not publishable or another model or prompt wrote it.
  The sources of the row and its claims are replaced with it, in one
  transaction.  An exception rolls all of it back.

    • `Incoming`                — the arguments of `_persist_summary`,
    • `Incoming.publishable`    — the verdict before anything is stored,
    • `Tables.replaceApproved`  — may the row of an approved summary go?
    • `Tables.writeSummary`     — the upsert and the four replacements,
    • `Tables.persistSummary`   — `_persist_summary`,
    • `Tables.step`             — what happens to the tables.
-/
import Rpy.DataJud.Codec
import Rpy.Foundation.Distinct
import Rpy.Publication.Responses

namespace Rpy.Publication

open Rpy.Foundation Rpy.Summaries
open Rpy.Attachments (Exn)

/-! ## §1. What a column takes. -/

/-- What a write can raise. -/
inductive PersistError where
  /-- `ValueError` -/
  | value (message : String)
  /-- a value that cannot be written as JSON -/
  | codec (error : DataJud.StoreError)
  /-- an output that cannot be decoded -/
  | decode (error : Exn)
  /-- the database refuses a value, a row or a cast -/
  | database
deriving Repr, DecidableEq

/-- A constraint of the database. -/
def constraint (holds : Bool) : Except PersistError Unit :=
  if holds then .ok () else .error .database

/-- `if not holds: raise ValueError(message)` -/
def require (holds : Bool) (message : String) : Except PersistError Unit :=
  if holds then .ok () else .error (.value message)

/-- A `jsonb` parameter: what its column gives back. -/
def jsonbParameter (u : Unicode) (column : String) (value : Json) : Except PersistError Json := do
  let sent ← (DataJud.encodeJson u value).mapError .codec
  let read ← (u.loadsStrict sent).mapError fun e => .codec (.loads e)
  (Processes.jsonbColumn u.toPlatform column read).mapError fun _ => .database

/-- `json.dumps(value)` as a `jsonb` parameter. -/
def dumpedParameter (u : Unicode) (column : String) (value : Json) : Except PersistError Json := do
  let written ← (DataJud.dumps u true value).mapError .codec
  jsonbParameter u column (.str written)

/-- `COALESCE((validation->>'passed')::boolean, false)` -/
def passedColumn (validation : Json) : Except PersistError Bool :=
  match validation.get "passed" with
  | .null => .ok false
  | .bool b => .ok b
  | .int n => if n = 1 then .ok true else if n = 0 then .ok false else .error .database
  | .str s => (castBoolean s).elim (.error .database) .ok
  | _ => .error .database

/-- An `INTEGER` column. -/
def isInteger (n : Int) : Bool := decide (-2147483648 ≤ n ∧ n ≤ 2147483647)

/-- `length(trim(value)) > 0`, and no `NUL` -/
def filled (value : String) : Bool :=
  value.toList.any (· != ' ') && Json.textStorable value

/-- The two ends of a range are there or not, and are in order. -/
def rangeHolds (least : Int) : Option Int → Option Int → Bool
  | none, none => true
  | some first, some last => decide (least ≤ first ∧ first ≤ last) && isInteger last
  | _, _ => false

/-- `NULL`, or 64 hexadecimal digits -/
def digestHolds (digest : Option String) : Bool :=
  digest.isNone || validExcerptSha256 digest

/-! ## §2. What comes. -/

/-- An item of `selected_sources`; an id that is no UUID is `none`. -/
structure SelectedSource where
  stepId : Option Uuid
  stepNumber : Int
  occurredAt : Option Timestamp := none
  sourceOrder : Int
  sourceTextSha256 : String := ""
  unicodeSecurityFlags : List String := []
deriving Repr, DecidableEq

/-- An item of `attachment_sources`; an id that is no UUID is `none`. -/
structure SelectedAttachment where
  attachmentId : Option Uuid
  attachmentChunkId : Option Uuid
  sourceAttachmentId : String
  pageStart : Option Int := none
  pageEnd : Option Int := none
  charStart : Option Int := none
  charEnd : Option Int := none
  contentSha256 : String
  sourceOrder : Int := 0
  unicodeSecurityFlags : List String := []
deriving Repr, DecidableEq

/-- An item of `glossary_sources`; what is missing is empty. -/
structure SelectedGlossary where
  kind : String
  code : String
  tpuVersion : String
  publisher : String
  source : String
  sourceRef : String
  definitionSha256 : String
  sourceOrder : Int := 0
deriving Repr, DecidableEq

/-- The arguments of `_persist_summary`, with what `gen_random_uuid()` and
`NOW()` give where a row is inserted (`None` and an empty list are one). -/
structure Incoming where
  processId : Uuid
  versionId : Uuid
  freshId : Uuid
  now : Timestamp := 0
  text : String
  validation : List (String × Json)
  generationMs : Int
  model : String
  promptVersion : String
  usage : List (String × Json) := []
  cacheHit : Option Bool := none
  /-- as `NUMERIC(18, 8)` rounds it -/
  costUsd : Option Decimal := none
  selectedSources : List SelectedSource := []
  attachmentSources : List SelectedAttachment := []
  glossarySources : List SelectedGlossary := []
  structuredOutput : Option (List (String × Json)) := none
  /-- each with the id its row is given -/
  claims : List (Uuid × MaterialClaim) := []
  evidenceSources : List (String × EvidenceSource) := []
  claimVerification : List (String × ClaimVerification) := []
deriving DecidableEq

namespace Incoming

variable (i : Incoming)

/-- `validation.get("passed") is True` -/
def passed : Bool := (Json.obj i.validation).get "passed" == .bool true

/-- `structured_output` as a value -/
def output : Json :=
  match i.structuredOutput with
  | none => .null
  | some members => .obj members

/-- `(claim_verification or {}).get(claim.claim_id)` -/
def verification (claim : MaterialClaim) : Option ClaimVerification :=
  i.claimVerification.lookup claim.claimId

/-- An item of `incoming_claim_evidence`: it has neither the reasons nor the
digests of the verification. -/
def claimEvidence (claim : MaterialClaim) : ClaimEvidence where
  claimId := claim.claimId
  text := claim.text
  evidenceRefs := claim.evidenceRefs
  verificationStatus := ((i.verification claim).map ClaimVerification.status).getD .notEvaluated
  sources := (((i.verification claim).map ClaimVerification.relations).getD []).map fun relation =>
    { evidenceRef := relation.evidenceRef, verificationStatus := relation.status }

/-- `incoming_publishable`, of a validation that passed. -/
def publishable (u : Unicode) (p : ProcessRow) : Except Exn Bool :=
  if p.isRestricted then
    isRestrictedLocalSummary u i.model i.promptVersion i.output p.restricted
  else
    .ok (claimEvidenceIsPublishable u (i.structuredOutput.map fun members => { members })
      (i.claims.map fun entry => i.claimEvidence entry.2) p.context)

end Incoming

/-! ## §3. The row. -/

/-- What the rows of a summary's sources and claims begin with. -/
structure SummaryKey where
  summaryId : Uuid
  processId : Uuid
  versionId : Uuid
deriving Repr, DecidableEq

/-- `json.dumps(structured_output) if structured_output is not None else None` -/
def Incoming.outputColumn (u : Unicode) (i : Incoming) : Except PersistError Json :=
  match i.structuredOutput with
  | none => .ok .null
  | some members => dumpedParameter u "structured_output" (.obj members)

/-- The row that is inserted. -/
def Incoming.row (u : Unicode) (i : Incoming) : Except PersistError SummaryRow := do
  let validation ← jsonbParameter u "validation" (.obj i.validation)
  let usage ← dumpedParameter u "usage" (.obj i.usage)
  let structuredOutput ← i.outputColumn u
  constraint (Json.textStorable i.text && Json.textStorable i.model &&
    Json.textStorable i.promptVersion && isInteger i.generationMs)
  return {
    id := i.freshId
    processId := i.processId
    versionId := i.versionId
    markdown := i.text
    structuredOutput
    validation
    model := i.model
    promptVersion := i.promptVersion
    generationMs := some i.generationMs
    usage
    cacheHit := i.cacheHit
    costUsd := i.costUsd
    createdAt := i.now }

/-- The row of a version's summary. -/
def Tables.versionSummary (t : Tables) (processId versionId : Uuid) : Option SummaryRow :=
  t.summaries.find? fun s => s.processId == processId && s.versionId == versionId

/-- `DO UPDATE SET …`: the row keeps its keys. -/
def SummaryRow.overwrite (row s : SummaryRow) : SummaryRow :=
  { row with id := s.id, processId := s.processId, versionId := s.versionId }

/-- The row of an id, overwritten. -/
def Tables.overwriteSummary (t : Tables) (id : Uuid) (row : SummaryRow) : Tables :=
  { t with
    summaries := updateWhere (fun s => s.id == id) row.overwrite t.summaries
    summary_ids := by
      rw [map_updateWhere (f := row.overwrite) fun _ => rfl]
      exact t.summary_ids
    summary_versions := by
      rw [map_updateWhere (f := row.overwrite) fun _ => rfl]
      exact t.summary_versions }

/-- A row, appended. -/
def Tables.appendSummary (t : Tables) (row : SummaryRow)
    (fresh : row.id ∉ t.summaries.map SummaryRow.id)
    (first : (row.processId, row.versionId) ∉ t.summaries.map fun s => (s.processId, s.versionId)) :
    Tables :=
  { t with
    summaries := t.summaries ++ [row]
    summary_ids := by
      rw [List.map_append]
      exact t.summary_ids.append (List.nodup_singleton _) (by simpa using fresh)
    summary_versions := by
      rw [List.map_append]
      exact t.summary_versions.append (List.nodup_singleton _) (by simpa using first) }

/-- `INSERT … ON CONFLICT (process_id, version_id) DO UPDATE … WHERE …
RETURNING id` -/
def Tables.upsertSummary (t : Tables) (row : SummaryRow) (replace : Bool) :
    Except PersistError (Option (Uuid × Tables)) :=
  match t.versionSummary row.processId row.versionId with
  | some old => do
      let passed ← passedColumn old.validation
      return if replace || !passed then some (old.id, t.overwriteSummary old.id row) else none
  | none =>
      if free : row.id ∉ t.summaries.map SummaryRow.id ∧
          (row.processId, row.versionId) ∉ t.summaries.map fun s => (s.processId, s.versionId) then do
        constraint ((t.processes.any fun p => p.id == row.processId) &&
          t.versions.any fun v => v.id == row.versionId)
        return some (row.id, t.appendSummary row free.1 free.2)
      else .error .database

/-! ## §4. The sources of the summary. -/

/-- `_ALLOWED_UNICODE_SECURITY_FLAGS` -/
def allowedUnicodeSecurityFlags : List String :=
  ["bidi_control", "zero_width", "default_ignorable", "mixed_script"]

/-- `_unicode_flags_json`, as the column gives it back. -/
def unicodeFlags (flags : List String) : Except PersistError (List Json) := do
  require (flags.all allowedUnicodeSecurityFlags.contains) "invalid unicode security flag"
  return flags.map .str

/-- The record of a movement. -/
def SelectedSource.record (u : Unicode) (k : SummaryKey) (source : SelectedSource) :
    Except PersistError MovementSourceRow :=
  match source.stepId with
  | none => .error (.value "summary source step_id must be a UUID")
  | some stepId => do
      let digest := u.lower (u.strip source.sourceTextSha256)
      let flags ← unicodeFlags source.unicodeSecurityFlags
      return {
        summaryId := k.summaryId
        processId := k.processId
        versionId := k.versionId
        stepId
        stepNumber := source.stepNumber
        occurredAt := source.occurredAt
        sourceOrder := source.sourceOrder
        sourceTextSha256 := if digest = "" then none else some digest
        unicodeSecurityFlags := flags }

/-- The constraints on a row of `process_summary_sources`. -/
def MovementSourceRow.holds (t : Tables) (s : MovementSourceRow) : Bool :=
  decide (0 < s.stepNumber) && isInteger s.stepNumber && decide (0 ≤ s.sourceOrder) &&
    isInteger s.sourceOrder && digestHolds s.sourceTextSha256 &&
    t.steps.any fun step => step.id == s.stepId

/-- `replace_summary_sources` -/
def Tables.replaceSummarySources (u : Unicode) (t : Tables) (k : SummaryKey)
    (sources : List SelectedSource) : Except PersistError Tables := do
  let records ← sources.mapM (SelectedSource.record u k)
  constraint (records.all (MovementSourceRow.holds t) &&
    decide (records.map MovementSourceRow.stepId).Nodup &&
    decide (records.map MovementSourceRow.sourceOrder).Nodup)
  return { t with
    movementSources := t.movementSources.filter (fun s => s.summaryId != k.summaryId) ++ records }

/-- The record of a piece of an attachment. -/
def SelectedAttachment.record (u : Unicode) (k : SummaryKey) (source : SelectedAttachment) :
    Except PersistError AttachmentSourceRow :=
  match source.attachmentId, source.attachmentChunkId with
  | some attachmentId, some attachmentChunkId => do
      let sourceAttachmentId := u.strip source.sourceAttachmentId
      let digest := u.lower (u.strip source.contentSha256)
      require (sourceAttachmentId != "")
        "attachment provenance source_attachment_id is required"
      require (validExcerptSha256 (some digest)) "invalid attachment provenance content_sha256"
      let flags ← unicodeFlags source.unicodeSecurityFlags
      return {
        summaryId := k.summaryId
        processId := k.processId
        versionId := k.versionId
        attachmentId
        attachmentChunkId
        sourceAttachmentId
        pageStart := source.pageStart
        pageEnd := source.pageEnd
        charStart := source.charStart
        charEnd := source.charEnd
        contentSha256 := digest
        sourceOrder := source.sourceOrder
        unicodeSecurityFlags := flags }
  | _, _ => .error (.value "attachment provenance ids must be UUIDs")

/-- The constraints on a row of `process_summary_attachment_sources`. -/
def AttachmentSourceRow.holds (s : AttachmentSourceRow) : Bool :=
  filled s.sourceAttachmentId && rangeHolds 1 s.pageStart s.pageEnd &&
    rangeHolds 0 s.charStart s.charEnd && decide (0 ≤ s.sourceOrder) && isInteger s.sourceOrder

/-- `replace_summary_attachment_sources` -/
def Tables.replaceSummaryAttachmentSources (u : Unicode) (t : Tables) (k : SummaryKey)
    (sources : List SelectedAttachment) : Except PersistError Tables := do
  let records ← sources.mapM (SelectedAttachment.record u k)
  constraint (records.all AttachmentSourceRow.holds &&
    decide (records.map AttachmentSourceRow.attachmentChunkId).Nodup &&
    decide (records.map AttachmentSourceRow.sourceOrder).Nodup)
  return { t with
    attachmentSources :=
      t.attachmentSources.filter (fun s => s.summaryId != k.summaryId) ++ records }

/-- The record of a definition of the glossary. -/
def SelectedGlossary.record (u : Unicode) (k : SummaryKey) (source : SelectedGlossary) :
    Except PersistError GlossarySourceRow := do
  let row : GlossarySourceRow := {
    summaryId := k.summaryId
    kind := u.strip source.kind
    code := u.strip source.code
    tpuVersion := u.strip source.tpuVersion
    publisher := u.strip source.publisher
    source := u.strip source.source
    sourceRef := u.strip source.sourceRef
    definitionSha256 := u.strip source.definitionSha256
    sourceOrder := source.sourceOrder }
  require (row.kind == "class" || row.kind == "subject") "invalid TPU glossary provenance kind"
  require ([row.code, row.tpuVersion, row.publisher, row.source, row.sourceRef].all (· != ""))
    "TPU glossary provenance is missing required metadata"
  require (validExcerptSha256 (some row.definitionSha256)) "invalid TPU glossary definition_sha256"
  return row

/-- The constraints on a row of `process_summary_glossary_sources`. -/
def GlossarySourceRow.holds (s : GlossarySourceRow) : Bool :=
  [s.code, s.tpuVersion, s.publisher, s.source, s.sourceRef].all filled &&
    decide (0 ≤ s.sourceOrder) && isInteger s.sourceOrder

/-- `replace_summary_glossary_sources` -/
def Tables.replaceSummaryGlossarySources (u : Unicode) (t : Tables) (k : SummaryKey)
    (sources : List SelectedGlossary) : Except PersistError Tables := do
  let records ← sources.mapM (SelectedGlossary.record u k)
  constraint (records.all GlossarySourceRow.holds &&
    decide (records.map fun s => (s.kind, s.code)).Nodup &&
    decide (records.map GlossarySourceRow.sourceOrder).Nodup)
  return { t with
    glossarySources := t.glossarySources.filter (fun s => s.summaryId != k.summaryId) ++ records }

/-! ## §5. The claims of the summary. -/

/-- The row of a claim. -/
def Incoming.claimRow (i : Incoming) (k : SummaryKey) (entry : Uuid × MaterialClaim) : ClaimRow where
  id := entry.1
  summaryId := k.summaryId
  processId := k.processId
  versionId := k.versionId
  claimId := entry.2.claimId
  claimClass := entry.2.claimClass
  claimText := entry.2.text
  verificationStatus :=
    ((i.verification entry.2).map ClaimVerification.status).getD .notEvaluated
  verificationReason := some
    (((i.verification entry.2).map ClaimVerification.reason).getD "semantic_verifier_not_run")

/-- `relation_by_ref.get(ref)`: the last relation of a reference. -/
def Incoming.relation (i : Incoming) (claim : MaterialClaim) (ref : String) :
    Option ClaimRelationVerification :=
  (((i.verification claim).map ClaimVerification.relations).getD []).reverse.find? fun r =>
    r.evidenceRef == ref

/-- The row of a reference. -/
def Incoming.sourceRow (i : Incoming) (k : SummaryKey) (entry : Uuid × MaterialClaim)
    (item : String × Nat) : Except PersistError ClaimSourceRow :=
  match i.evidenceSources.lookup item.1 with
  | none => .error (.value ("claim evidence ref is not in validated catalog: " ++ item.1))
  | some source =>
      let relation := i.relation entry.2 item.1
      .ok {
        claimRowId := entry.1
        summaryId := k.summaryId
        processId := k.processId
        versionId := k.versionId
        evidenceRef := item.1
        sourceKind := source.kind
        stepId := source.stepId
        attachmentChunkId := source.attachmentChunkId
        sourceOrder := item.2
        verificationStatus :=
          (relation.map ClaimRelationVerification.status).getD .notEvaluated
        verificationReason := some
          ((relation.map ClaimRelationVerification.reason).getD "semantic_verifier_not_run")
        evidenceExcerptSha256 := relation.bind ClaimRelationVerification.evidenceExcerptSha256
        pageStart := relation.bind fun r => r.span.pageStart
        pageEnd := relation.bind fun r => r.span.pageEnd
        charStart := relation.bind fun r => r.span.charStart
        charEnd := relation.bind fun r => r.span.charEnd }

/-- `DELETE FROM process_summary_claims WHERE summary_id = $1`, with the
sources of the claims. -/
def Tables.deleteClaims (t : Tables) (summaryId : Uuid) : Tables :=
  let gone := (t.claims.filter fun c => c.summaryId == summaryId).map ClaimRow.id
  { t with
    claims := t.claims.filter fun c => c.summaryId != summaryId
    claimSources := t.claimSources.filter fun s => !gone.contains s.claimRowId }

/-- The constraints on a row of `process_summary_claims`, and
`enforce_summary_claim_scope`. -/
def ClaimRow.holds (t : Tables) (c : ClaimRow) : Bool :=
  filled c.claimId && filled c.claimText && c.verificationReason.all Json.textStorable &&
    (t.claims.all fun o => o.id != c.id) &&
    (t.claims.all fun o => !(o.summaryId == c.summaryId && o.claimId == c.claimId)) &&
    (t.versions.any fun v => v.id == c.versionId) &&
    t.summaries.any fun s =>
      s.id == c.summaryId && s.processId == c.processId && s.versionId == c.versionId

/-- The constraints on a row of `process_summary_claim_sources`, and
`enforce_summary_claim_source_scope`. -/
def ClaimSourceRow.holds (t : Tables) (c : ClaimRow) (s : ClaimSourceRow) : Bool :=
  isEvidenceRef s.evidenceRef && decide (0 ≤ s.sourceOrder) && isInteger s.sourceOrder &&
    s.verificationReason.all Json.textStorable && digestHolds s.evidenceExcerptSha256 &&
    rangeHolds 1 s.pageStart s.pageEnd && rangeHolds 0 s.charStart s.charEnd &&
    (t.claimSources.all fun o =>
      !(o.claimRowId == s.claimRowId && o.evidenceRef == s.evidenceRef)) &&
    t.claimSourceHolds c s &&
    s.stepId.all fun id => t.steps.any fun step =>
      step.id == id && step.processId == s.processId && step.versionId == s.versionId

/-- One round of the loop over the claims. -/
def Tables.insertClaim (i : Incoming) (k : SummaryKey) (t : Tables) (entry : Uuid × MaterialClaim) :
    Except PersistError Tables := do
  let row := i.claimRow k entry
  constraint (row.holds t)
  let rows ← entry.2.evidenceRefs.zipIdx.mapM (i.sourceRow k entry)
  constraint (rows.all (ClaimSourceRow.holds t row) &&
    decide (rows.map ClaimSourceRow.evidenceRef).Nodup)
  return { t with claims := t.claims ++ [row], claimSources := t.claimSources ++ rows }

/-- `replace_summary_claim_evidence` -/
def Tables.replaceSummaryClaimEvidence (t : Tables) (k : SummaryKey) (i : Incoming) :
    Except PersistError Tables :=
  i.claims.foldlM (Tables.insertClaim i k) (t.deleteClaims k.summaryId)

/-! ## §6. The write. -/

/-- The upsert of a row, and the four replacements. -/
def Tables.writeRow (u : Unicode) (t : Tables) (i : Incoming) (replace : Bool) (row : SummaryRow) :
    Except PersistError (Bool × Tables) := do
  match ← t.upsertSummary row replace with
  | none => return (false, t)
  | some (id, t₀) =>
      let k : SummaryKey := { summaryId := id, processId := i.processId, versionId := i.versionId }
      let t₁ ← t₀.replaceSummarySources u k i.selectedSources
      let t₂ ← t₁.replaceSummaryAttachmentSources u k i.attachmentSources
      let t₃ ← t₂.replaceSummaryClaimEvidence k i
      let t₄ ← t₃.replaceSummaryGlossarySources u k i.glossarySources
      return (true, t₄)

/-- What `_persist_summary` does once it is known whether an approved row may
be replaced. -/
def Tables.writeSummary (u : Unicode) (t : Tables) (i : Incoming) (replace : Bool) :
    Except PersistError (Bool × Tables) := do
  let row ← i.row u
  t.writeRow u i replace row

/-- `incoming_publishable` -/
def Incoming.judged (u : Unicode) (i : Incoming) (p : ProcessRow) : Except PersistError Bool :=
  if i.passed then (i.publishable u p).mapError .decode else .ok false

/-- `not existing_publishable`, or another prompt or model wrote the row -/
def Tables.outdated (u : Unicode) (t : Tables) (s : SummaryRow) (p : ProcessRow) (i : Incoming) :
    Except PersistError Bool :=
  ((t.summaryRowIsPublishable u s p).mapError .decode).map fun existing =>
    !existing || s.promptVersion != i.promptVersion || s.model != i.model

/-- `replace_approved` -/
def Tables.replaceApproved (u : Unicode) (t : Tables) (i : Incoming) : Except PersistError Bool :=
  match t.versionSummary i.processId i.versionId, t.processes.find? fun p => p.id == i.processId with
  | some s, some p => do
      let passed ← passedColumn s.validation
      let incoming ← i.judged u p
      if passed && incoming then t.outdated u s p i else return false
  | _, _ => .ok false

/-- `_persist_summary` -/
def Tables.persistSummary (u : Unicode) (t : Tables) (i : Incoming) :
    Except PersistError (Bool × Tables) := do
  let replace ← t.replaceApproved u i
  t.writeSummary u i replace

/-- What happens to the tables. -/
inductive Write where
  /-- a summary is written while nothing else happens to the row -/
  | persist (i : Incoming)
  /-- the row was not there when it was looked for, and another transaction
  has inserted one before the upsert -/
  | late (i : Incoming)
  /-- the database gives a transaction up -/
  | refused
deriving DecidableEq

/-- What a transaction that ended well leaves; another one leaves nothing. -/
def Tables.commit (t : Tables) : Except PersistError (Bool × Tables) → Tables
  | .ok (_, t') => t'
  | .error _ => t

/-- One write. -/
def Tables.step (u : Unicode) (t : Tables) : Write → Option Tables
  | .persist i => some (t.commit (t.persistSummary u i))
  | .late i => some (t.commit (t.writeSummary u i false))
  | .refused => some t

end Rpy.Publication

/-
  Rpy.Publication.Tables
  ──────────────────────
  **THE TABLES THE READ PATHS SELECT FROM** (`sql/002_process_data.sql`,
  `sql/017_public_summary_requests.sql`, `sql/020_summary_source_provenance.sql`,
  `sql/026_attachment_retrieval_provenance.sql`,
  `sql/032_summary_claim_evidence.sql`, `app/provenance.py`,
  `app/claim_evidence.py`).

  A column of a closed set of texts is an enumeration, as its CHECK has it.
  The columns of a process that `finalize_version` writes hold objects and
  arrays; a summary's columns hold any JSON value.

    • `Tables`                          — the rows, with their unique keys,
    • `Tables.loadSummaryClaimEvidence` — `load_summary_claim_evidence`,
    • `Tables.loadUsedSummarySources`   — `load_used_summary_sources`,
    • `castPassed`                      — `(validation->>'passed')::boolean`.
-/
import Rpy.Lifecycle.PublicRequests
import Rpy.Publication.Gates
import Rpy.Queue.Jobs

namespace Rpy.Publication

open Rpy.Foundation Rpy.Summaries
open Rpy.Attachments (Exn)
open Rpy.Lifecycle (PublicStatus)

/-! ## §1. Rows. -/

/-- A row of `processes`. -/
structure ProcessRow where
  id : Uuid
  code : String
  className : Option String := none
  court : Option String := none
  header : List (String × Json) := []
  parties : List Json := []
  subjects : List Json := []
  representatives : List Json := []
  secrecyLevel : Int := 0
  currentVersionId : Option Uuid := none
  updatedAt : Timestamp := 0
deriving DecidableEq

/-- A row of `process_versions`. -/
structure VersionRow where
  id : Uuid
  processId : Uuid
  sourceCachedResponse : Bool := false
  finalized : Bool := false
  finalizedAt : Option Timestamp := none
deriving DecidableEq

/-- A row of `process_steps`. -/
structure StepRow where
  id : Uuid
  processId : Uuid
  versionId : Uuid
  stepNumber : Int
  occurredAt : Option Timestamp := none
  title : Option String := none
  text : String
  metadata : Json := .obj []
deriving DecidableEq

/-- A row of `process_summaries`; a JSON `null` and `NULL` are both `None`. -/
structure SummaryRow where
  id : Uuid
  processId : Uuid
  versionId : Uuid
  markdown : String
  structuredOutput : Json := .null
  validation : Json
  model : String
  promptVersion : String
  generationMs : Option Int := none
  usage : Json := .obj []
  cacheHit : Option Bool := none
  /-- as `float` gives it -/
  costUsd : Option Decimal := none
  createdAt : Timestamp := 0
deriving DecidableEq

/-- A row of `process_summary_claims`. -/
structure ClaimRow where
  id : Uuid
  summaryId : Uuid
  processId : Uuid
  versionId : Uuid
  claimId : String
  claimClass : ClaimClass
  claimText : String
  verificationStatus : VerificationStatus := .notEvaluated
  verificationReason : Option String := none
deriving DecidableEq

/-- A row of `process_summary_claim_sources`. -/
structure ClaimSourceRow where
  claimRowId : Uuid
  summaryId : Uuid
  processId : Uuid
  versionId : Uuid
  evidenceRef : String
  sourceKind : SourceKind
  stepId : Option Uuid := none
  attachmentChunkId : Option Uuid := none
  sourceOrder : Int
  verificationStatus : VerificationStatus := .notEvaluated
  verificationReason : Option String := none
  evidenceExcerptSha256 : Option String := none
  pageStart : Option Int := none
  pageEnd : Option Int := none
  charStart : Option Int := none
  charEnd : Option Int := none
deriving DecidableEq

/-- A row of `process_summary_sources`. -/
structure MovementSourceRow where
  summaryId : Uuid
  processId : Uuid
  versionId : Uuid
  stepId : Uuid
  stepNumber : Int
  occurredAt : Option Timestamp := none
  sourceOrder : Int
  sourceTextSha256 : Option String := none
  unicodeSecurityFlags : List Json := []
deriving DecidableEq

/-- A row of `process_summary_attachment_sources`. -/
structure AttachmentSourceRow where
  summaryId : Uuid
  processId : Uuid
  versionId : Uuid
  attachmentId : Uuid
  attachmentChunkId : Uuid
  sourceAttachmentId : String
  pageStart : Option Int := none
  pageEnd : Option Int := none
  charStart : Option Int := none
  charEnd : Option Int := none
  contentSha256 : String
  sourceOrder : Int
  unicodeSecurityFlags : List Json := []
deriving DecidableEq

/-- A row of `process_summary_glossary_sources`. -/
structure GlossarySourceRow where
  summaryId : Uuid
  kind : String
  code : String
  tpuVersion : String
  publisher : String
  source : String
  sourceRef : String
  definitionSha256 : String
  sourceOrder : Int
deriving DecidableEq

/-- A row of the view `process_attachment_status_counts`. -/
structure AttachmentCounts where
  processId : Uuid
  versionId : Uuid
  pending : Nat
  ready : Nat
  unavailable : Nat
  corrupt : Nat
  unreadable : Nat
deriving DecidableEq

/-- `response_format` -/
inductive Format where
  | jsx
  | json
deriving Repr, DecidableEq

/-- A row of `public_summary_requests`. -/
structure RequestRow where
  id : Uuid
  tenantId : Uuid
  processCode : String
  responseFormat : Format := .jsx
  status : PublicStatus
  processId : Option Uuid := none
  versionId : Option Uuid := none
  summaryId : Option Uuid := none
  sourceUpdatedAt : Option Timestamp := none
  flags : Json := .obj []
  errorCode : Option String := none
deriving DecidableEq

/-- No summaries share an id. -/
theorem noSummaries_ids : (([] : List SummaryRow).map SummaryRow.id).Nodup := List.nodup_nil

/-- No summaries share a version. -/
theorem noSummaries_versions :
    (([] : List SummaryRow).map fun s => (s.processId, s.versionId)).Nodup := List.nodup_nil

/-- No requests share an id. -/
theorem noRequests_ids : (([] : List RequestRow).map RequestRow.id).Nodup := List.nodup_nil

/-- The tables, with the keys that are unique. -/
structure Tables where
  processes : List ProcessRow := []
  /-- `tenant_processes` -/
  grants : List (Uuid × Uuid) := []
  versions : List VersionRow := []
  steps : List StepRow := []
  summaries : List SummaryRow := []
  claims : List ClaimRow := []
  claimSources : List ClaimSourceRow := []
  movementSources : List MovementSourceRow := []
  attachmentSources : List AttachmentSourceRow := []
  glossarySources : List GlossarySourceRow := []
  attachmentCounts : List AttachmentCounts := []
  jobs : Queue.JobTable := .empty
  requests : List RequestRow := []
  process_ids : (processes.map ProcessRow.id).Nodup := by decide
  process_codes : (processes.map ProcessRow.code).Nodup := by decide
  summary_ids : (summaries.map SummaryRow.id).Nodup := by first | exact noSummaries_ids | decide
  summary_versions : (summaries.map fun s => (s.processId, s.versionId)).Nodup := by
    first | exact noSummaries_versions | decide
  request_ids : (requests.map RequestRow.id).Nodup := by first | exact noRequests_ids | decide

/-! ## §2. Expressions. -/

/-- `uuid.hex`, and `replace(id::text, '-', '')` -/
def uuidHex (id : Uuid) : List Char :=
  (List.range 32).map fun i => Nat.digitChar (id.toNat / 16 ^ (31 - i) % 16)

/-- `str(uuid)` -/
def uuidText (id : Uuid) : String :=
  let hex := uuidHex id
  let part (start count : Nat) : String := String.ofList ((hex.drop start).take count)
  String.intercalate "-" [part 0 8, part 8 4, part 12 4, part 16 4, part 20 12]

/-- The reference of a source of a kind. -/
def evidenceRefOf (kind : Char) (id : Uuid) : String :=
  String.ofList (kind :: '-' :: uuidHex id)

/-- PostgreSQL's input of a `boolean`; `none` is an error. -/
def castBoolean (text : String) : Option Bool :=
  let word := ((text.toList.dropWhile asciiSpace).rdropWhile asciiSpace).map Char.toLower
  let begins (whole : String) : Bool := !word.isEmpty && word.isPrefixOf whole.toList
  if begins "true" || begins "yes" || word == ['o', 'n'] || word == ['1'] then some true
  else if begins "false" || begins "no" || word == ['o', 'f'] || word == ['o', 'f', 'f'] ||
      word == ['0'] then some false
  else none

/-- `COALESCE((validation->>'passed')::boolean, false)`, where it is no
error. -/
def castPassed (validation : Json) : Bool :=
  match validation.get "passed" with
  | .bool b => b
  | .int n => n == 1
  | .str s => (castBoolean s).getD false
  | _ => false

/-- `CASE WHEN jsonb_typeof(metadata->'source_step_number') = 'number' THEN
(metadata->>'source_step_number')::bigint ELSE NULL END`: a number that is no
`bigint` is an error. -/
def sourceStepNumber (metadata : Json) : Except Exn (Option Int) :=
  match metadata.get "source_step_number" with
  | .int n => if -2 ^ 63 ≤ n ∧ n < 2 ^ 63 then .ok (some n) else .error .value
  | .float _ => .error .value
  | _ => .ok none

/-! ## §3. Claims. -/

/-- The `FILTER` of `load_summary_claim_evidence`: is the row of a source in
the scope of its claim, and is what it refers to a source of the summary? -/
def Tables.claimSourceHolds (t : Tables) (c : ClaimRow) (s : ClaimSourceRow) : Bool :=
  s.summaryId == c.summaryId && s.processId == c.processId && s.versionId == c.versionId &&
    match s.sourceKind, s.stepId, s.attachmentChunkId with
    | .process, none, none => s.evidenceRef == evidenceRefOf 'p' s.versionId
    | .movement, some step, none =>
        s.evidenceRef == evidenceRefOf 'm' step &&
          t.movementSources.any fun used =>
            used.summaryId == s.summaryId && used.processId == s.processId &&
              used.versionId == s.versionId && used.stepId == step
    | .attachment, none, some chunk =>
        s.evidenceRef == evidenceRefOf 'a' chunk &&
          t.attachmentSources.any fun used =>
            used.summaryId == s.summaryId && used.processId == s.processId &&
              used.versionId == s.versionId && used.attachmentChunkId == chunk
    | _, _, _ => false

/-- An item of `load_summary_claim_evidence`. -/
structure LoadedClaim where
  row : ClaimRow
  sources : List ClaimSourceRow
deriving DecidableEq

/-- `load_summary_claim_evidence` -/
def Tables.loadSummaryClaimEvidence (u : Unicode) (t : Tables) (summaryId : Uuid) :
    List LoadedClaim :=
  let inScope (c : ClaimRow) : Bool :=
    c.summaryId == summaryId &&
      (t.summaries.any fun s =>
        s.id == c.summaryId && s.processId == c.processId && s.versionId == c.versionId) &&
      t.versions.any fun v => v.id == c.versionId && v.processId == c.processId
  ((t.claims.filter inScope).insertionSort
    fun a b => u.collatesBefore a.claimId b.claimId).map fun c =>
      { row := c
        sources := (t.claimSources.filter fun s =>
          s.claimRowId == c.id && t.claimSourceHolds c s).insertionSort
            fun a b => a.sourceOrder ≤ b.sourceOrder }

/-- A source of a loaded claim, as far as the gate reads it. -/
def ClaimSourceRow.evidence (s : ClaimSourceRow) : SourceEvidence where
  evidenceRef := s.evidenceRef
  verificationStatus := s.verificationStatus
  verificationReason := s.verificationReason
  evidenceExcerptSha256 := s.evidenceExcerptSha256

/-- A loaded claim, as far as the gate reads it. -/
def LoadedClaim.evidence (c : LoadedClaim) : ClaimEvidence where
  claimId := c.row.claimId
  claimClass := some c.row.claimClass
  text := c.row.claimText
  evidenceRefs := c.sources.map ClaimSourceRow.evidenceRef
  verificationStatus := c.row.verificationStatus
  verificationReason := c.row.verificationReason
  sources := c.sources.map ClaimSourceRow.evidence

/-! ## §4. Sources. -/

/-- An item of the list of sources. -/
inductive Source where
  | judit (sourceVersion : Uuid) (cached : Bool) (finalizedAt : Option Timestamp)
      (usedForSummary : Bool)
  | movement (stepId : Uuid) (stepNumber : Int) (number : Option Int)
      (occurredAt : Option Timestamp) (title : Option String)
  | usedMovement (row : MovementSourceRow) (number : Option Int) (title : Option String)
  | usedAttachment (row : AttachmentSourceRow)
  | usedGlossary (row : GlossarySourceRow)
deriving DecidableEq

/-- `load_used_summary_sources` -/
def Tables.loadUsedSummarySources (t : Tables) (summaryId : Uuid) : Except Exn (List Source) := do
  let joined := ((t.movementSources.filter fun used => used.summaryId == summaryId).insertionSort
    fun a b => a.sourceOrder ≤ b.sourceOrder).flatMap fun used =>
      (t.steps.filter fun step => step.id == used.stepId && step.processId == used.processId &&
        step.versionId == used.versionId).map fun step => (used, step)
  let movements ← joined.mapM fun (used, step) =>
    (sourceStepNumber step.metadata).map fun number =>
      Source.usedMovement used number step.title
  let attachments := (t.attachmentSources.filter fun used =>
    used.summaryId == summaryId).insertionSort fun a b => a.sourceOrder ≤ b.sourceOrder
  let glossary := (t.glossarySources.filter fun used =>
    used.summaryId == summaryId).insertionSort fun a b => a.sourceOrder ≤ b.sourceOrder
  return movements ++ attachments.map .usedAttachment ++ glossary.map .usedGlossary

/-- The movements of a version (the fallback of `_load_sources`). -/
def Tables.loadMovements (t : Tables) (processId versionId : Uuid) :
    Except Exn (List Source) :=
  ((t.steps.filter fun step => step.processId == processId && step.versionId == versionId
    ).insertionSort fun a b => a.stepNumber ≤ b.stepNumber).mapM fun step =>
      (sourceStepNumber step.metadata).map fun number =>
        .movement step.id step.stepNumber number step.occurredAt step.title

/-- `get_authorized_process` -/
def Tables.getAuthorizedProcess (t : Tables) (tenantId : Uuid) (code : String) :
    Option ProcessRow :=
  t.processes.find? fun p => p.code == code && t.grants.contains (tenantId, p.id)

/-- The passed summary of a version of a process. -/
def Tables.passedSummary (t : Tables) (processId versionId : Uuid) : Option SummaryRow :=
  t.summaries.find? fun s =>
    s.processId == processId && s.versionId == versionId && castPassed s.validation

end Rpy.Publication

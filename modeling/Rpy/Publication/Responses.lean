/-
  Rpy.Publication.Responses
  ─────────────────────────
  **THE READERS OF A SUMMARY, AND WHAT THEY ANSWER** (`app/api.py`,
  `app/api_v1.py`, `app/rag.py`, `app/judit_tasks.py`,
  `app/public_lifecycle_worker.py`, `app/attachment_signals.py`).

  Six places decide for themselves whether a summary may be shown.  They
  select the row in ways of their own, decode it where they need it, and an
  error of the decoding leaves them as an exception.

    • `Tables.summaryRowIsPublishable`   — `_summary_row_is_publishable`,
    • `Tables.completeFromCurrentSummary` — `_complete_from_current_summary`,
    • `Tables.reconcileGenerationResult` — `reconcile_generation_result`,
    • `Tables.getProcessSummary`         — `get_process_summary`,
    • `Tables.latestSummaryPayload`      — `_latest_summary_payload`,
    • `Tables.jobPayload`                — `_job_payload`,
    • `Tables.getSummarySources`         — `get_summary_sources`.
-/
import Rpy.Publication.Tables

namespace Rpy.Publication

open Rpy.Foundation Rpy.Summaries
open Rpy.Attachments (Exn)
open Rpy.Lifecycle (PublicStatus)

/-! ## §1. The verdict on a row. -/

/-- What `claim_evidence_is_publishable` reads of a process. -/
def ProcessRow.context (p : ProcessRow) : ProcessContext where
  code := .str p.code
  className := nullable p.className
  court := nullable p.court
  header := .obj p.header
  parties := .arr p.parties

/-- What the restricted policy reads of it. -/
def ProcessRow.restricted (p : ProcessRow) : RestrictedProcess where
  code := p.code
  className := p.className
  header := p.header

/-- `int(p["secrecy_level"] or 0) > 0` -/
def ProcessRow.isRestricted (p : ProcessRow) : Bool := decide (0 < p.secrecyLevel)

/-- `is_restricted_local_summary(row, process=…)` -/
def SummaryRow.isRestrictedLocal (u : Unicode) (s : SummaryRow) (p : ProcessRow) :
    Except Exn Bool :=
  isRestrictedLocalSummary u s.model s.promptVersion s.structuredOutput p.restricted

/-- The claims of a summary, as far as the gate reads them. -/
def Tables.claimEvidence (u : Unicode) (t : Tables) (summaryId : Uuid) : List ClaimEvidence :=
  (t.loadSummaryClaimEvidence u summaryId).map LoadedClaim.evidence

/-- `claim_evidence_is_publishable` of a row whose output is decoded unless
it is `None`. -/
def Tables.claimsPublish (u : Unicode) (t : Tables) (s : SummaryRow) (p : ProcessRow) :
    Except Exn Bool :=
  (decodeNullable u s.structuredOutput).map fun output =>
    claimEvidenceIsPublishable u output (t.claimEvidence u s.id) p.context

/-- The verdict of the readers that let an error of the decoding through. -/
def Tables.mayBeShown (u : Unicode) (t : Tables) (s : SummaryRow) (p : ProcessRow) :
    Except Exn Bool :=
  if p.isRestricted then s.isRestrictedLocal u p else t.claimsPublish u s p

/-- `_summary_row_is_publishable`, which takes an output that is not decoded
for one that is not publishable. -/
def Tables.summaryRowIsPublishable (u : Unicode) (t : Tables) (s : SummaryRow) (p : ProcessRow) :
    Except Exn Bool :=
  if !castPassed s.validation then .ok false
  else if p.isRestricted then s.isRestrictedLocal u p
  else
    match decodeJsonObject u s.structuredOutput with
    | .error .recursion => .error .recursion
    | .error _ => .ok false
    | .ok d => .ok (claimEvidenceIsPublishable u (some d) (t.claimEvidence u s.id) p.context)

/-- `_complete_from_current_summary`: the summary it completes the requests
with, and the process's `updated_at`. -/
def Tables.completeFromCurrentSummary (u : Unicode) (t : Tables) (processId : Uuid) :
    Except Exn (Option (SummaryRow × Timestamp)) :=
  match t.processes.find? fun p => p.id == processId with
  | none => .ok none
  | some p =>
      match p.currentVersionId.bind (t.passedSummary p.id) with
      | none => .ok none
      | some s => (t.mayBeShown u s p).map fun shown =>
          if shown then some (s, p.updatedAt) else none

/-- What `reconcile_generation_result` moves the requests of a job to. -/
structure Reconciliation where
  status : PublicStatus
  summaryId : Option Uuid
  sourceUpdatedAt : Option Timestamp
  flags : List (String × Json)
  errorCode : Option String
deriving DecidableEq

/-- `isinstance(result_validation, dict) and … .get("passed") is True` -/
def resultPassed (result : Json) : Bool :=
  (result.get "validation").get "passed" == .bool true

/-- `reconcile_generation_result`, for the ids of its payload; a result
that is missing is `None`. -/
def Tables.reconcileGenerationResult (u : Unicode) (t : Tables) (processId versionId : Uuid)
    (result : Json) : Except Exn Reconciliation := do
  let p := t.processes.find? fun p => p.id == processId && p.currentVersionId == some versionId
  let s := t.summaries.find? fun s => s.processId == processId && s.versionId == versionId
  let passed ←
    match p, s with
    | some p, some s =>
        if castPassed s.validation && resultPassed result then t.mayBeShown u s p else .ok false
    | _, _ => .ok false
  return {
    status := if passed then .completed else .validationFailed
    summaryId := if passed then s.map SummaryRow.id else none
    sourceUpdatedAt := if s.isSome then p.map ProcessRow.updatedAt else none
    flags := [("summary_reused", .bool (result.get "reused").isTrue),
      ("summary_persisted", .bool (result.get "persisted").isTrue)]
    errorCode := if passed then none else some "validation_failed" }

/-! ## §2. Parts of the responses. -/

/-- `attachment_status_flags` -/
def attachmentStatusFlags (c : AttachmentCounts) : Dict :=
  let failed := c.unavailable + c.corrupt + c.unreadable
  let total := c.pending + c.ready + failed
  if total = 0 then {}
  else
    { members := [("attachments", .obj [
        ("total", .int total),
        ("status_counts", .obj [("pending", .int c.pending), ("ready", .int c.ready),
          ("unavailable", .int c.unavailable), ("corrupt", .int c.corrupt),
          ("unreadable", .int c.unreadable)]),
        ("processing_complete", .bool (c.pending == 0)),
        ("degraded", .bool (0 < failed))])] }

/-- `_load_attachment_flags` -/
def Tables.loadAttachmentFlags (t : Tables) (processId versionId : Option Uuid) : Dict :=
  match processId, versionId with
  | some p, some v =>
      match t.attachmentCounts.find? fun c => c.processId == p && c.versionId == v with
      | none => {}
      | some c => attachmentStatusFlags c
  | _, _ => {}

/-- `_load_sources` -/
def Tables.loadSources (t : Tables) (processId versionId summaryId : Option Uuid) :
    Except Exn (List Source) :=
  match processId, versionId with
  | some processId, some versionId =>
      let version := t.versions.find? fun v =>
        v.id == versionId && v.processId == processId && v.finalized
      match version, t.processes.find? fun p => p.id == processId with
      | some version, some p =>
          let root := Source.judit version.id version.sourceCachedResponse version.finalizedAt
            summaryId.isSome
          if p.isRestricted then .ok [root]
          else do
            let used ←
              match summaryId with
              | some id => t.loadUsedSummarySources id
              | none => .ok []
            if used.isEmpty then return root :: (← t.loadMovements processId versionId)
            else return root :: used
      | _, _ => .ok []
  | _, _ => .ok []

/-- `_summary_usage` -/
def SummaryRow.summaryUsage (u : Unicode) (s : SummaryRow) : Except Exn Dict := do
  let base : Dict := {
    members := [("model", .str s.model), ("prompt_version", .str s.promptVersion),
      ("generation_ms", .int (s.generationMs.getD 0))] }
  let provider ← decodeJsonObject u s.usage
  let cacheHit := s.cacheHit.map fun hit => ("cache_hit", Json.bool hit)
  let cost := s.costUsd.map fun usd => ("cost_usd", Json.float usd)
  return (base.update provider).update { members := cacheHit.toList ++ cost.toList }

/-- The text of a `verification_status` column. -/
def statusText : VerificationStatus → String
  | .supported => "supported"
  | .contradicted => "contradicted"
  | .insufficient => "insufficient"
  | .notEvaluated => "not_evaluated"

/-- The text of a `source_kind` column. -/
def kindText : SourceKind → String
  | .process => "process"
  | .movement => "movement"
  | .attachment => "attachment"

/-- A nullable number as a Python value. -/
def nullableInt : Option Int → Json
  | none => .null
  | some n => .int n

/-- A source of a claim in a response (no row has an excerpt to take out). -/
def ClaimSourceRow.toJson (s : ClaimSourceRow) : Json :=
  .obj [("evidence_ref", .str s.evidenceRef), ("source_kind", .str (kindText s.sourceKind)),
    ("source_order", .int s.sourceOrder),
    ("verification_status", .str (statusText s.verificationStatus)),
    ("verification_reason", nullable s.verificationReason),
    ("evidence_excerpt_sha256", nullable s.evidenceExcerptSha256),
    ("page_start", nullableInt s.pageStart), ("page_end", nullableInt s.pageEnd),
    ("char_start", nullableInt s.charStart), ("char_end", nullableInt s.charEnd)]

/-- `claim["verification"]` -/
def LoadedClaim.verification (c : LoadedClaim) : Json :=
  .obj [("status", .str (statusText c.row.verificationStatus)),
    ("reason", nullable c.row.verificationReason),
    ("sources", .arr (c.sources.map ClaimSourceRow.toJson))]

/-- A claim of the document with its verification. -/
def publicClaim (u : Unicode) (evidence : List LoadedClaim) (claim : Json) : Json :=
  match claim with
  | .obj members =>
      match evidence.find? fun c => c.row.claimId == u.str (claim.get "claim_id") with
      | some c => .obj (assign "verification" c.verification members)
      | none => claim
  | _ => claim

/-- What a `for` loop over a value gives. -/
def iterate : Json → Except Exn (List Json)
  | .arr items => .ok items
  | .obj members => .ok (members.map fun (key, _) => .str key)
  | .str s => .ok (s.toList.map fun c => .str (String.ofList [c]))
  | _ => .error .type

/-- What `_summary_representation` returns. -/
inductive Representation where
  | absent
  | markdown (text : String)
  | document (d : Dict)
deriving Repr, DecidableEq

/-- `{**rendered, "summary": public_summary}` -/
def withSummary (rendered : Dict) (members : List (String × Json)) : Representation :=
  .document (rendered.update { members := [("summary", .obj members)] })

/-- `_summary_representation` -/
def SummaryRow.representation (u : Unicode) (s : SummaryRow) (format : Format)
    (hideClaimEvidence : Bool) (evidence : List LoadedClaim) : Except Exn Representation :=
  match format with
  | .jsx => .ok (.markdown s.markdown)
  | .json =>
      if s.structuredOutput = .null then .ok .absent
      else do
        let rendered ← decodeJsonObject u s.structuredOutput
        match rendered.get "summary" with
        | .obj members =>
            match members.lookup "claims" with
            | none => return .document rendered
            | some claims =>
                if hideClaimEvidence then
                  return withSummary rendered (members.filter fun (key, _) => key != "claims")
                else
                  let items ← iterate claims
                  return withSummary rendered
                    (assign "claims" (.arr (items.map (publicClaim u evidence))) members)
        | _ => return .document rendered

/-! ## §3. The responses. -/

/-- The members of `summary` in the answer of `get_process_summary`. -/
structure SummaryData where
  markdown : String
  validation : Dict
  model : String
  promptVersion : String
  generationMs : Option Int
  createdAt : Timestamp
deriving DecidableEq

/-- An item of `recent_steps`. -/
structure RecentStep where
  stepNumber : Int
  occurredAt : Option Timestamp
  title : Option String
  text : String
deriving DecidableEq

/-- The answer of `get_process_summary`. -/
structure ProcessSummary where
  code : String
  className : Option String
  court : Option String
  parties : List Json
  subjects : List Json
  header : List (String × Json)
  updatedAt : Timestamp
  summaryStatus : String
  summary : Option SummaryData
  iaSummary : Option String
  recentSteps : List RecentStep
deriving DecidableEq

/-- `_summary_status` -/
def summaryStatus (summary : Option SummaryData) (jobStatus : Option Queue.JobStatus)
    (cachedResponse : Bool) : String :=
  if summary.isSome then "available"
  else if cachedResponse then "not_generated"
  else if jobStatus == some .pending || jobStatus == some .processing then "processing"
  else if jobStatus == some .dead then "unavailable"
  else "not_generated"

/-- `ORDER BY occurred_at DESC NULLS LAST, step_number DESC` -/
def recentBefore (a b : StepRow) : Bool :=
  match a.occurredAt, b.occurredAt with
  | some s, some t => decide (t < s) || (s == t && decide (b.stepNumber ≤ a.stepNumber))
  | some _, none => true
  | none, some _ => false
  | none, none => decide (b.stepNumber ≤ a.stepNumber)

/-- The steps of a version that are shown. -/
def Tables.recentSteps (t : Tables) (processId versionId : Uuid) : List RecentStep :=
  let rows := (t.steps.filter fun step =>
    step.processId == processId && step.versionId == versionId).insertionSort
      fun a b => recentBefore a b
  (rows.take 20).map fun step =>
    { stepNumber := step.stepNumber, occurredAt := step.occurredAt
      title := step.title, text := step.text }

/-- The status of the job that generates a version's summary. -/
def Tables.summaryJobStatus (t : Tables) (versionId : Uuid) : Option Queue.JobStatus :=
  (t.jobs.rows.find? fun job => job.taskName == "generate_process_summary" &&
    job.idempotencyKey == some ("summary:" ++ uuidText versionId)).map Queue.Job.status

/-- The row `get_process_summary` shows, if it may be shown. -/
def Tables.shownSummary (u : Unicode) (t : Tables) (p : ProcessRow) :
    Except Exn (Option SummaryRow) :=
  match p.currentVersionId.bind (t.passedSummary p.id) with
  | none => .ok none
  | some s => (t.mayBeShown u s p).map fun shown => if shown then some s else none

/-- `get_process_summary`, for a code in its canonical form; `none` is a
404. -/
def Tables.getProcessSummary (u : Unicode) (t : Tables) (tenantId : Uuid) (code : String) :
    Except Exn (Option ProcessSummary) :=
  match t.getAuthorizedProcess tenantId code with
  | none => .ok none
  | some p => do
      let shown ← t.shownSummary u p
      let data ←
        match shown with
        | none => .ok none
        | some s =>
            (decodeJsonObject u s.validation).map fun validation => some {
              markdown := s.markdown
              validation := validation
              model := s.model
              promptVersion := s.promptVersion
              generationMs := s.generationMs
              createdAt := s.createdAt : SummaryData }
      let steps :=
        match p.currentVersionId with
        | some v => if p.isRestricted then [] else t.recentSteps p.id v
        | none => []
      let cached := p.currentVersionId.any fun v =>
        t.versions.any fun w => w.id == v && w.processId == p.id && w.sourceCachedResponse
      return some {
        code := p.code
        className := p.className
        court := if p.isRestricted then none else p.court
        parties := if p.isRestricted then [] else p.parties
        subjects := if p.isRestricted then [] else p.subjects
        header := if p.isRestricted then restrictedPublicHeader p.header else p.header
        updatedAt := p.updatedAt
        summaryStatus := summaryStatus data (p.currentVersionId.bind t.summaryJobStatus) cached
        summary := data
        iaSummary := data.map SummaryData.markdown
        recentSteps := steps }

/-- The answer of `get_latest_summary`. -/
structure LatestSummary where
  cnj : String
  sourceUpdatedAt : Timestamp
  sources : List Source
  usage : Dict
  flags : Dict
  validation : Dict
  claimEvidence : List LoadedClaim
  format : Format
  iaSummary : Representation
deriving DecidableEq

/-- `_latest_summary_payload` -/
def Tables.latestSummaryPayload (u : Unicode) (t : Tables) (tenantId : Uuid) (code : String)
    (format : Format) : Except Exn (Option LatestSummary) :=
  match t.getAuthorizedProcess tenantId code with
  | none => .ok none
  | some p =>
      match p.currentVersionId.bind (t.passedSummary p.id) with
      | none => .ok none
      | some s => do
          let validation ← decodeJsonObject u s.validation
          let output ← decodeNullable u s.structuredOutput
          let shown ←
            if p.isRestricted then s.isRestrictedLocal u p
            else .ok (claimEvidenceIsPublishable u output (t.claimEvidence u s.id) p.context)
          if !shown then return none
          else
            let sources ← t.loadSources (some p.id) p.currentVersionId (some s.id)
            let usage ← s.summaryUsage u
            let evidence := t.loadSummaryClaimEvidence u s.id
            let iaSummary ← s.representation u format p.isRestricted evidence
            return some {
              cnj := code
              sourceUpdatedAt := p.updatedAt
              sources := sources
              usage := usage
              flags := Dict.update { members := [("secrecy", .bool p.isRestricted)] }
                (t.loadAttachmentFlags (some p.id) p.currentVersionId)
              validation := validation
              claimEvidence := if p.isRestricted then [] else evidence
              format := format
              iaSummary := iaSummary }

/-- The payload of a job. -/
structure JobPayload where
  jobId : Uuid
  pollUrl : String
  status : PublicStatus
  cnj : String
  sourceUpdatedAt : Option Timestamp
  sources : List Source
  usage : Option Dict
  flags : Dict
  validation : Option Dict
  claimEvidence : List LoadedClaim
  format : Format
  iaSummary : Representation
  errorCode : Option String
deriving DecidableEq

/-- `publishable` of `_job_payload`, for what its row has of the summary and
of the process. -/
def Tables.jobPublishable (u : Unicode) (t : Tables) (s : SummaryRow) (p : Option ProcessRow)
    (validation output : Option Dict) : Except Exn Bool :=
  if validation.any fun v => v.get "passed" == .bool true then
    match p with
    | some p =>
        if p.isRestricted then s.isRestrictedLocal u p
        else .ok (claimEvidenceIsPublishable u output (t.claimEvidence u s.id) p.context)
    | none =>
        .ok (claimEvidenceIsPublishable u output (t.claimEvidence u s.id)
          { header := .obj [], parties := .arr [] })
  else .ok false

/-- `_job_payload` -/
def Tables.jobPayload (u : Unicode) (t : Tables) (tenantId jobId : Uuid) :
    Except Exn (Option JobPayload) :=
  match t.requests.find? fun r => r.id == jobId && r.tenantId == tenantId with
  | none => .ok none
  | some r => do
      let summary := r.summaryId.bind fun id => t.summaries.find? fun s => s.id == id
      let process := r.processId.bind fun id => t.processes.find? fun p => p.id == id
      let isSecret := process.any ProcessRow.isRestricted
      let evidence := (r.summaryId.map (t.loadSummaryClaimEvidence u)).getD []
      let validation ← decodeNullable u ((summary.map SummaryRow.validation).getD .null)
      let flags ← decodeJsonObject u r.flags
      let output ← decodeNullable u ((summary.map SummaryRow.structuredOutput).getD .null)
      let publishable ←
        match summary with
        | none => .ok false
        | some s => t.jobPublishable u s process validation output
      let sources ← t.loadSources r.processId r.versionId
        (if publishable then r.summaryId else none)
      let usage ←
        match summary with
        | none => .ok none
        | some s => (s.summaryUsage u).map some
      let publicEvidence := if publishable && !isSecret then evidence else []
      let iaSummary ←
        match summary with
        | none => .ok .absent
        | some s =>
            if publishable then s.representation u r.responseFormat isSecret publicEvidence
            else .ok .absent
      return some {
        jobId := r.id
        pollUrl := "/v1/resumos/" ++ uuidText r.id
        status := r.status
        cnj := r.processCode
        sourceUpdatedAt := r.sourceUpdatedAt
        sources := sources
        usage := usage
        flags := flags.update (t.loadAttachmentFlags r.processId r.versionId)
        validation := validation
        claimEvidence := publicEvidence
        format := r.responseFormat
        iaSummary := iaSummary
        errorCode := r.errorCode }

/-- The answer of `get_summary_sources`. -/
structure SummarySources where
  cnj : String
  sourceUpdatedAt : Timestamp
  sources : List Source
  claimEvidence : List LoadedClaim
  flags : Dict
deriving DecidableEq

/-- The summary `get_summary_sources` starts from, with its output. -/
def Tables.sourcesSummary (u : Unicode) (t : Tables) (p : ProcessRow) :
    Except Exn (Option (Uuid × Option Dict)) :=
  match p.currentVersionId.bind (t.passedSummary p.id) with
  | none => .ok none
  | some s => do
      let selected ← if p.isRestricted then s.isRestrictedLocal u p else .ok true
      if selected then return some (s.id, ← decodeNullable u s.structuredOutput)
      else return none

/-- `get_summary_sources`, for a code in its canonical form. -/
def Tables.getSummarySources (u : Unicode) (t : Tables) (tenantId : Uuid) (code : String) :
    Except Exn (Option SummarySources) :=
  match t.getAuthorizedProcess tenantId code with
  | none => .ok none
  | some p => do
      let selected ← t.sourcesSummary u p
      let evidence := (selected.map fun (id, _) => t.loadSummaryClaimEvidence u id).getD []
      let publishes := p.isRestricted ||
        claimEvidenceIsPublishable u (selected.bind Prod.snd)
          (evidence.map LoadedClaim.evidence) p.context
      let summaryId := if publishes then selected.map Prod.fst else none
      let sources ← t.loadSources (some p.id) p.currentVersionId summaryId
      return some {
        cnj := code
        sourceUpdatedAt := p.updatedAt
        sources := sources
        claimEvidence := if p.isRestricted || !publishes then [] else evidence
        flags := Dict.update { members := [("secrecy", .bool p.isRestricted)] }
          (t.loadAttachmentFlags (some p.id) p.currentVersionId) }

end Rpy.Publication

/-
  Rpy.Publication.Restricted
  ──────────────────────────
  **WHAT THE READERS TELL OF A PROCESS UNDER SECRECY** (`app/api.py`,
  `app/api_v1.py`, `app/summary_policy.py`).

  Four readers answer for a process, and each consults the policy for itself:
  one drops columns of the process, one the sources, three the evidence of
  the claims.  Two states of the tables that agree on what the policy lets
  out are not told apart by any of them, however the rest of the two differs.

    • `SamePublic`             — two states that agree on what is let out,
    • `SamePublic.loadSources` — a list of sources stops at its root,
    • `restricted_undisclosed` — the four readers answer both states alike.
-/
import Rpy.Publication.Responses
import Rpy.Summaries.Reparse

namespace Rpy.Publication

open Rpy.Foundation Rpy.Summaries
open Rpy.Attachments (Exn)

/-! ## §1. Two states. -/

/-- A process under secrecy in two states of the tables that agree on what the
policy lets out of it.  What is not named here is free: the other columns of
the process and the other keys of its header, the other processes, the
movements, the claims with their sources, and every list of sources. -/
structure SamePublic (t t' : Tables) (p p' : ProcessRow) : Prop where
  mem : p ∈ t.processes
  mem' : p' ∈ t'.processes
  secret : 0 < p.secrecyLevel
  secret' : 0 < p'.secrecyLevel
  id : p'.id = p.id
  code : p'.code = p.code
  className : p'.className = p.className
  header : ∀ key ∈ restrictedHeaderFields,
    (Json.obj p'.header).get key = (Json.obj p.header).get key
  currentVersionId : p'.currentVersionId = p.currentVersionId
  updatedAt : p'.updatedAt = p.updatedAt
  grants : t'.grants = t.grants
  versions : t'.versions = t.versions
  summaries : t'.summaries = t.summaries
  jobs : t'.jobs = t.jobs
  requests : t'.requests = t.requests
  attachmentCounts : t'.attachmentCounts = t.attachmentCounts

/-- The job of an id, if there is one, is about no process but this one: it
was bound to it, or to none yet. -/
def Tables.JobIsAbout (t : Tables) (jobId processId : Uuid) : Prop :=
  ∀ r ∈ t.requests, r.id = jobId →
    r.processId = some processId ∨ r.processId = none ∧ r.summaryId = none

/-! ## §2. The policy. -/

/-- The header that is let out is made of the keys that may be. -/
theorem restrictedPublicHeader_congr {a b : List (String × Json)}
    (h : ∀ key ∈ restrictedHeaderFields, (Json.obj a).get key = (Json.obj b).get key) :
    restrictedPublicHeader a = restrictedPublicHeader b := by
  have hfilter : (restrictedHeaderFields.filter fun key => (Json.obj a).get key != .null) =
      restrictedHeaderFields.filter fun key => (Json.obj b).get key != .null := by
    apply List.filter_congr
    intro key hkey
    rw [h key hkey]
  unfold restrictedPublicHeader
  rw [hfilter]
  apply List.map_congr_left
  intro key hkey
  rw [h key (List.mem_filter.1 hkey).1]

/-- The predicate on a summary reads a process through its context. -/
theorem isRestrictedLocalSummary_congr (u : Unicode) (model promptVersion : String)
    (output : Json) {a b : RestrictedProcess} (h : a.context = b.context) :
    isRestrictedLocalSummary u model promptVersion output a =
      isRestrictedLocalSummary u model promptVersion output b := by
  unfold isRestrictedLocalSummary
  rw [h]

/-- Where the evidence is hidden, the representation does not read it. -/
theorem SummaryRow.representation_hidden (u : Unicode) (s : SummaryRow) (format : Format)
    (evidence evidence' : List LoadedClaim) :
    s.representation u format true evidence = s.representation u format true evidence' := by
  unfold SummaryRow.representation
  simp only [if_true]

/-- A process with a level of secrecy is restricted. -/
theorem ProcessRow.isRestricted_of_pos {p : ProcessRow} (h : 0 < p.secrecyLevel) :
    p.isRestricted = true :=
  decide_eq_true h

/-! ## §3. The rows the readers find. -/

/-- A process is found by its id. -/
theorem Tables.find_process {t : Tables} {p : ProcessRow} (hp : p ∈ t.processes) :
    t.processes.find? (fun q => q.id == p.id) = some p := by
  refine find?_eq_some_of_unique hp (beq_self_eq_true p.id) ?_
  intro q hq hid
  exact eq_of_nodup_key t.process_ids hq hp (eq_of_beq hid)

/-- The process of a code is the one that has it, for a tenant that may read
it. -/
theorem Tables.getAuthorizedProcess_code {t : Tables} {p : ProcessRow} (hp : p ∈ t.processes)
    (tenantId : Uuid) :
    t.getAuthorizedProcess tenantId p.code =
      if t.grants.contains (tenantId, p.id) then some p else none := by
  have honly : ∀ q ∈ t.processes, q.code = p.code → q = p := fun q hq hcode =>
    eq_of_nodup_key t.process_codes hq hp hcode
  unfold Tables.getAuthorizedProcess
  split
  · rename_i hgranted
    apply find?_eq_some_of_unique hp
    · rw [hgranted, beq_self_eq_true]
      rfl
    · intro q hq hboth
      rw [Bool.and_eq_true] at hboth
      exact honly q hq (eq_of_beq hboth.1)
  · rename_i hgranted
    rw [List.find?_eq_none]
    intro q hq hboth
    rw [Bool.and_eq_true] at hboth
    have hsame : q = p := honly q hq (eq_of_beq hboth.1)
    rw [hsame] at hboth
    exact hgranted hboth.2

namespace SamePublic

variable {u : Unicode} {t t' : Tables} {p p' : ProcessRow} (h : SamePublic t t' p p')

include h

/-- The process is restricted. -/
theorem restricted : p.isRestricted = true :=
  ProcessRow.isRestricted_of_pos h.secret

/-- So is the process in the other state. -/
theorem restricted' : p'.isRestricted = true :=
  ProcessRow.isRestricted_of_pos h.secret'

/-- It is found by the same id. -/
theorem find_process' : t'.processes.find? (fun q => q.id == p.id) = some p' := by
  rw [← h.id]
  exact Tables.find_process h.mem'

/-- The header that is shown of the two is one. -/
theorem publicHeader : restrictedPublicHeader p'.header = restrictedPublicHeader p.header :=
  restrictedPublicHeader_congr h.header

/-- A reader of a code finds the process in both states or in neither. -/
theorem authorized (tenantId : Uuid) :
    (t.getAuthorizedProcess tenantId p.code = none ∧
      t'.getAuthorizedProcess tenantId p'.code = none) ∨
    (t.getAuthorizedProcess tenantId p.code = some p ∧
      t'.getAuthorizedProcess tenantId p'.code = some p') := by
  rw [Tables.getAuthorizedProcess_code h.mem, Tables.getAuthorizedProcess_code h.mem', h.grants,
    h.id]
  split
  · exact .inr ⟨rfl, rfl⟩
  · exact .inl ⟨rfl, rfl⟩

/-- The latest summary that passed is the same row. -/
theorem passedSummary : t'.passedSummary = t.passedSummary := by
  funext processId versionId
  unfold Tables.passedSummary
  rw [h.summaries]

/-- The job has the same status. -/
theorem summaryJobStatus : t'.summaryJobStatus = t.summaryJobStatus := by
  funext versionId
  unfold Tables.summaryJobStatus
  rw [h.jobs]

/-- The attachments have the same flags. -/
theorem loadAttachmentFlags : t'.loadAttachmentFlags = t.loadAttachmentFlags := by
  funext processId versionId
  unfold Tables.loadAttachmentFlags
  rw [h.attachmentCounts]

/-- Whether a summary is a local one does not depend on what is hidden. -/
theorem isRestrictedLocal (s : SummaryRow) :
    s.isRestrictedLocal u p' = s.isRestrictedLocal u p := by
  apply isRestrictedLocalSummary_congr
  show RestrictedProcess.context ⟨p'.code, p'.className, p'.header⟩ =
    RestrictedProcess.context ⟨p.code, p.className, p.header⟩
  unfold RestrictedProcess.context
  rw [h.code, h.className, h.publicHeader]

/-- Either verdict is that of the policy. -/
theorem mayBeShown (s : SummaryRow) : t'.mayBeShown u s p' = t.mayBeShown u s p := by
  unfold Tables.mayBeShown
  rw [if_pos h.restricted, if_pos h.restricted', h.isRestrictedLocal]

/-- The summary that is shown is the same. -/
theorem shownSummary : t'.shownSummary u p' = t.shownSummary u p := by
  unfold Tables.shownSummary
  simp only [h.currentVersionId, h.id, h.passedSummary, h.mayBeShown]

/-- A list of sources of the process stops at its root. -/
theorem loadSources (versionId summaryId : Option Uuid) :
    t'.loadSources (some p.id) versionId summaryId =
      t.loadSources (some p.id) versionId summaryId := by
  cases versionId with
  | none => rfl
  | some v =>
      unfold Tables.loadSources
      simp only [h.versions, h.find_process', Tables.find_process h.mem]
      cases t.versions.find? fun w => w.id == v && w.processId == p.id && w.finalized with
      | none => rfl
      | some version => simp only [h.restricted, h.restricted', if_true]

/-! ## §4. The readers. -/

/-- **The two states have one answer of `get_process_summary`.** -/
theorem getProcessSummary (tenantId : Uuid) :
    t'.getProcessSummary u tenantId p'.code = t.getProcessSummary u tenantId p.code := by
  unfold Tables.getProcessSummary
  obtain ⟨hnone, hnone'⟩ | ⟨hsome, hsome'⟩ := h.authorized tenantId
  · rw [hnone, hnone']
  · rw [hsome, hsome']
    simp only [h.shownSummary, h.restricted, h.restricted', if_true, h.currentVersionId,
      h.versions, h.id, h.code, h.className, h.publicHeader, h.updatedAt, h.summaryJobStatus]

/-- The evidence is loaded, and then it is not used. -/
theorem latestSummaryPayload (tenantId : Uuid) (format : Format) :
    t'.latestSummaryPayload u tenantId p'.code format =
      t.latestSummaryPayload u tenantId p.code format := by
  unfold Tables.latestSummaryPayload
  obtain ⟨hnone, hnone'⟩ | ⟨hsome, hsome'⟩ := h.authorized tenantId
  · rw [hnone, hnone']
  · rw [hsome, hsome']
    simp only [h.currentVersionId, h.id, h.passedSummary]
    cases p.currentVersionId.bind (t.passedSummary p.id) with
    | none => rfl
    | some s =>
        have hrepresentation := s.representation_hidden u format
          (t'.loadSummaryClaimEvidence u s.id) (t.loadSummaryClaimEvidence u s.id)
        simp only [h.restricted, h.restricted', if_true, h.isRestrictedLocal, h.loadSources,
          h.code, h.updatedAt, h.loadAttachmentFlags, hrepresentation]

/-- The summary whose sources are shown is the same. -/
theorem sourcesSummary : t'.sourcesSummary u p' = t.sourcesSummary u p := by
  unfold Tables.sourcesSummary
  simp only [h.currentVersionId, h.id, h.passedSummary, h.restricted, h.restricted', if_true,
    h.isRestrictedLocal]

/-- **The two states have one answer of `get_summary_sources`.** -/
theorem getSummarySources (tenantId : Uuid) :
    t'.getSummarySources u tenantId p'.code = t.getSummarySources u tenantId p.code := by
  unfold Tables.getSummarySources
  obtain ⟨hnone, hnone'⟩ | ⟨hsome, hsome'⟩ := h.authorized tenantId
  · rw [hnone, hnone']
  · rw [hsome, hsome']
    simp only [h.sourcesSummary, h.restricted, h.restricted', Bool.true_or, if_true, h.id,
      h.code, h.currentVersionId, h.loadSources, h.updatedAt, h.loadAttachmentFlags]

/-- Whether a job has something to publish does not depend on it either. -/
theorem jobPublishable (s : SummaryRow) (validation output : Option Dict) :
    t'.jobPublishable u s (some p') validation output =
      t.jobPublishable u s (some p) validation output := by
  unfold Tables.jobPublishable
  simp only [h.restricted, h.restricted', if_true, h.isRestrictedLocal]

/-- A job that no process is bound to yet has nothing to tell of one. -/
theorem jobPayload (tenantId : Uuid) {jobId : Uuid} (hjob : t.JobIsAbout jobId p.id) :
    t'.jobPayload u tenantId jobId = t.jobPayload u tenantId jobId := by
  unfold Tables.jobPayload
  rw [h.requests]
  cases hfind : t.requests.find? (fun r => r.id == jobId && r.tenantId == tenantId) with
  | none => rfl
  | some r =>
      have hboth := List.find?_some hfind
      rw [Bool.and_eq_true] at hboth
      have hbound := hjob r (List.mem_of_find?_eq_some hfind) (eq_of_beq hboth.1)
      obtain hprocess | ⟨hprocess, hsummary⟩ := hbound
      · simp only [hprocess, h.summaries, Option.bind_some, h.find_process',
          Tables.find_process h.mem, Option.any_some, h.restricted, h.restricted',
          h.jobPublishable, h.loadSources, h.loadAttachmentFlags, Bool.not_true, Bool.and_false,
          Bool.false_eq_true, if_false]
      · -- neither a summary nor a source is selected
        simp only [hprocess, hsummary, Option.bind_none, Tables.loadSources,
          h.loadAttachmentFlags]
        rfl

end SamePublic

/-! ## §5. No disclosure. -/

/-- **No reader tells two states apart that agree on what the policy lets
out of a process under secrecy.** -/
theorem restricted_undisclosed (u : Unicode) {t t' : Tables} {p p' : ProcessRow}
    (h : SamePublic t t' p p') (tenantId : Uuid) (format : Format) :
    t'.getProcessSummary u tenantId p'.code = t.getProcessSummary u tenantId p.code ∧
      (∀ jobId, t.JobIsAbout jobId p.id →
        t'.jobPayload u tenantId jobId = t.jobPayload u tenantId jobId) ∧
      t'.latestSummaryPayload u tenantId p'.code format =
        t.latestSummaryPayload u tenantId p.code format ∧
      t'.getSummarySources u tenantId p'.code = t.getSummarySources u tenantId p.code :=
  ⟨h.getProcessSummary tenantId, fun _ hjob => h.jobPayload tenantId hjob,
    h.latestSummaryPayload tenantId format, h.getSummarySources tenantId⟩

/-! ## §6. A local summary. -/

/-- The summary that the application writes itself. -/
def restrictedSummary : Summary where
  synthesis := "Os detalhes processuais foram restringidos por sigilo."
  currentStatus := "O contexto público disponível está limitado pelos dados " ++
    "permitidos para processo sigiloso."
  items := fun field =>
    if field = .attention then ["Processo com detalhes restringidos por sigilo."] else []
  claims := []

/-- The summary of a restricted process is a parsed one. -/
theorem parses_restrictedSummary : Parses .ascii restrictedSummary.toJson restrictedSummary := by
  have hkeys : restrictedSummary.toJson.keys = ["synthesis", "timeline", "current_status",
    "attention", "decisions", "deadlines", "related_processes", "attachments", "claims"] := rfl
  refine ⟨rfl, ?_, ?_, by decide +kernel, by decide +kernel, ?_, rfl⟩
  · rw [hkeys]
    decide
  · rw [Json.keysWithin, hkeys]
    decide
  · intro field
    cases field <;> decide +kernel

/-- **What the application writes for a process under secrecy is its local
summary**, if the process can be stated. -/
theorem isRestrictedLocal_document {p : RestrictedProcess}
    (h : processIsCanonical (structuredSummaryProcess .ascii p.context) = true) :
    isRestrictedLocalSummary .ascii restrictedModel restrictedPromptVersion
      (structuredSummaryDocument .ascii restrictedSummary p.context) p = .ok true := by
  have hpayload : restrictedSummary.toJson = restrictedSummaryPayload := rfl
  have hsummary : summaryIsCanonical .ascii restrictedSummary.toJson = true :=
    canonicalSummary_iff.2
      ⟨restrictedSummary, parsePayload_eq_ok.2 parses_restrictedSummary, rfl⟩
  have hmatches : documentMatchesProcess .ascii
      (structuredSummaryDocument .ascii restrictedSummary p.context) p.context = true := by
    unfold documentMatchesProcess documentIsCanonical
    rw [Bool.and_eq_true]
    refine ⟨?_, Json.pyEq_self _⟩
    show (true && processIsCanonical (structuredSummaryProcess .ascii p.context) &&
      summaryIsCanonical .ascii restrictedSummary.toJson) = true
    rw [h, hsummary]
    rfl
  unfold isRestrictedLocalSummary
  rw [if_neg (by decide)]
  unfold structuredSummaryDocument at hmatches ⊢
  simp only [decodeJsonObject, decodeJsonValue, Dict.ofValue, bind, Except.bind, Except.mapError,
    Dict.matchesProcess, hmatches, Bool.not_false, Bool.true_and]
  exact congrArg Except.ok (Json.pyEq_self restrictedSummaryPayload)

/-- A process under secrecy. -/
def sealedProcess (court judge party : String) : ProcessRow where
  id := 1
  code := "0000001"
  court := some court
  secrecyLevel := 1
  header := [("county", .str "Recife"), ("judge", .str judge)]
  parties := [.obj [("name", .str party)]]
  currentVersionId := some 2

/-- The summary that the application stored for it. -/
def sealedSummary : SummaryRow where
  id := 6
  processId := 1
  versionId := 2
  markdown := "# Resumo do processo"
  structuredOutput :=
    structuredSummaryDocument .ascii restrictedSummary (sealedProcess "" "" "").restricted.context
  validation := .obj [("passed", .bool true)]
  model := restrictedModel
  promptVersion := restrictedPromptVersion

/-- That process with one movement, and a request for its summary that is
completed. -/
def sealedTables (court judge party movement : String) : Tables where
  processes := [sealedProcess court judge party]
  grants := [(5, 1)]
  versions := [{ id := 2, processId := 1, finalized := true }]
  steps := [{ id := 3, processId := 1, versionId := 2, stepNumber := 1, text := movement }]
  summaries := [sealedSummary]
  requests := [{
    id := 4, tenantId := 5, processCode := "0000001", status := .completed
    processId := some 1, versionId := some 2, summaryId := some 6 }]
  process_ids := List.nodup_singleton _
  process_codes := List.nodup_singleton _
  summary_ids := List.nodup_singleton _
  summary_versions := List.nodup_singleton _
  request_ids := List.nodup_singleton _

/-- Whatever is hidden in them, the two tables show the same. -/
theorem samePublic_sealed (court judge party movement court' judge' party' movement' : String) :
    SamePublic (sealedTables court judge party movement)
      (sealedTables court' judge' party' movement')
      (sealedProcess court judge party) (sealedProcess court' judge' party') where
  mem := .head _
  mem' := .head _
  secret := Int.one_pos
  secret' := Int.one_pos
  id := rfl
  code := rfl
  className := rfl
  header := by
    intro key hkey
    simp only [restrictedHeaderFields, List.mem_cons, List.not_mem_nil, or_false] at hkey
    rcases hkey with rfl | rfl | rfl | rfl | rfl | rfl <;> rfl
  currentVersionId := rfl
  updatedAt := rfl
  grants := rfl
  versions := rfl
  summaries := rfl
  jobs := rfl
  requests := rfl
  attachmentCounts := rfl

/-- The stored summary may be shown. -/
theorem shown_sealed (court judge party movement : String) :
    (sealedTables court judge party movement).shownSummary .ascii
      (sealedProcess court judge party) = .ok (some sealedSummary) := by
  have hcontext : (sealedProcess court judge party).restricted.context =
      (sealedProcess "" "" "").restricted.context := rfl
  have hlocal : sealedSummary.isRestrictedLocal .ascii (sealedProcess court judge party) =
      .ok true :=
    isRestrictedLocal_document (p := (sealedProcess court judge party).restricted)
      (by rw [hcontext]; decide +kernel)
  have hpassed : ((sealedProcess court judge party).currentVersionId.bind
      ((sealedTables court judge party movement).passedSummary
        (sealedProcess court judge party).id)) = some sealedSummary := rfl
  have hrestricted : (sealedProcess court judge party).isRestricted = true := rfl
  unfold Tables.shownSummary Tables.mayBeShown
  rw [hpassed]
  simp only [hrestricted, hlocal, Except.map, if_true]

/-- Two families, two courts and two judges that no answer tells apart, with a
summary that is shown. -/
theorem restricted_undisclosed_sealed :
    (sealedTables "TJSP" "Rui" "Souza" "Guarda").shownSummary .ascii
        (sealedProcess "TJSP" "Rui" "Souza") = .ok (some sealedSummary) ∧
      (sealedTables "TJPE" "Ana" "Silva" "Alimentos").getProcessSummary .ascii 5 "0000001" =
        (sealedTables "TJSP" "Rui" "Souza" "Guarda").getProcessSummary .ascii 5 "0000001" ∧
      (sealedTables "TJPE" "Ana" "Silva" "Alimentos").jobPayload .ascii 5 4 =
        (sealedTables "TJSP" "Rui" "Souza" "Guarda").jobPayload .ascii 5 4 ∧
      (sealedTables "TJPE" "Ana" "Silva" "Alimentos").latestSummaryPayload .ascii 5 "0000001"
          .json =
        (sealedTables "TJSP" "Rui" "Souza" "Guarda").latestSummaryPayload .ascii 5 "0000001"
          .json ∧
      (sealedTables "TJPE" "Ana" "Silva" "Alimentos").getSummarySources .ascii 5 "0000001" =
        (sealedTables "TJSP" "Rui" "Souza" "Guarda").getSummarySources .ascii 5 "0000001" := by
  have hsame := samePublic_sealed "TJSP" "Rui" "Souza" "Guarda" "TJPE" "Ana" "Silva" "Alimentos"
  have hjob : (sealedTables "TJSP" "Rui" "Souza" "Guarda").JobIsAbout 4 1 := by
    intro r hr _
    rw [List.mem_singleton.1 hr]
    exact .inl rfl
  obtain ⟨hprocess, hpayload, hlatest, hsources⟩ :=
    restricted_undisclosed .ascii hsame 5 .json
  exact ⟨shown_sealed "TJSP" "Rui" "Souza" "Guarda", hprocess, hpayload 4 hjob, hlatest, hsources⟩

end Rpy.Publication

/-
  Rpy.Tenancy.Boundary
  ────────────────────
  **WHAT THE READS OF A TENANT DEPEND ON.**

  Three queries read movements and attachments for a tenant: the context of
  related processes, the chunks of the attachments of a process, and the
  search among them.  Each joins the tenant's portfolio.  Their results are
  the same on the part of the database that the tenant may see, whatever the
  rest holds: a query is no oracle about other tenants, secret processes,
  superseded versions or attachments that are not ready.

    • `loadRelatedProcessContext`        — `load_related_process_context`,
    • `safeRelatedProvenance`            — `safe_related_provenance`,
    • `loadAuthorizedAttachmentChunks`   — `load_authorized_attachment_chunks`,
    • `searchAuthorizedAttachmentChunks` — `search_authorized_attachment_chunks`,
    • `TenantDatabase.visibleTo`         — the part a tenant may see,
    • `tenant_noninterference`           — **the reads depend on that part alone**,
    • `related_sources_authorized`       — **what the provenance of related
                                           processes names**.

  `app/related_processes.py`, `app/attachments.py`.
-/
import Rpy.Attachments.Ready
import Rpy.Judit.Cnj
import Rpy.Retrieval.Eligibility

namespace Rpy.Tenancy

open Rpy.Foundation Rpy.Judit Rpy.Retrieval
open Rpy.Attachments (AttachmentStatus)

/-! ## §1. Tables. -/

/-- The columns of a `processes` row that only these queries read. -/
structure ProcessDetails where
  id : Uuid
  court : Option String
  className : Option String
deriving Repr, DecidableEq

/-- A `process_attachments` row. -/
structure AttachmentRecord where
  id : Uuid
  processId : Uuid
  versionId : Uuid
  sourceAttachmentId : String
  status : AttachmentStatus
deriving Repr, DecidableEq

/-- An `attachment_chunks` row. -/
structure ChunkRecord where
  id : Uuid
  attachmentId : Uuid
  processId : Uuid
  versionId : Uuid
  chunkIndex : Nat
  text : String
  pageStart : Option Int := none
  pageEnd : Option Int := none
  charStart : Option Int := none
  charEnd : Option Int := none
  contentSha256 : String
deriving Repr, DecidableEq

/-- The tables. -/
structure TenantDatabase (F : Type) extends Database F where
  /-- `tenant_processes` -/
  tenantProcesses : List (Uuid × Uuid) := []
  details : List ProcessDetails := []
  attachments : List AttachmentRecord := []
  chunks : List ChunkRecord := []

/-- PostgreSQL's collation and its text search. -/
structure TextSearch (F : Type) where
  /-- `ORDER BY` on a text column -/
  collatesBefore : String → String → Bool
  /-- `to_tsvector('portuguese', text) @@ websearch_to_tsquery('portuguese', query)` -/
  finds : String → String → Bool
  /-- `ts_rank_cd` -/
  rank : String → String → F
  lt : F → F → Bool

/-! ## §2. Related processes. -/

section Reads

variable {F : Type} (u : Digits) (pg : Postgres) (ts : TextSearch F) (db : TenantDatabase F)

def maxRelatedProcessCodes : Nat := 20

/-- `RELATED_RECENT_MOVEMENTS`. -/
def relatedRecentMovements : Int := 5

/-- `RelatedProcessContext`. -/
structure RelatedProcessContext where
  processId : Uuid
  versionId : Uuid
  code : String
  court : Option String
  className : Option String
  instanceName : Option String
  movements : List Step
deriving Repr, DecidableEq

/-- The loop of `normalize_related_codes`. -/
def normalizeCodes (normalized : List String) : List String → Except String (List String)
  | [] => .ok normalized
  | code :: rest =>
      match normalizeCnj u code with
      | none => .error "invalid CNJ process code"
      | some canonical =>
          if normalized.contains canonical then normalizeCodes normalized rest
          else normalizeCodes (normalized ++ [canonical]) rest

/-- `normalize_related_codes`. -/
def normalizeRelatedCodes (codes : List String) : Except String (List String) :=
  if maxRelatedProcessCodes < codes.length then
    .error ("related process lookup accepts at most " ++ toString maxRelatedProcessCodes ++ " codes")
  else normalizeCodes u [] codes

/-- `CASE WHEN jsonb_typeof(header->'instance') IN ('string', 'number') THEN
header->>'instance' END`. -/
def headerInstance (header : Json) : Option String :=
  match header.get? "instance" with
  | some (.str _) | some (.int _) | some (.float _) => pg.getText header "instance"
  | _ => none

/-- `EXISTS (SELECT 1 FROM tenant_processes WHERE tenant_id = $1 AND
process_id = $2)`. -/
def TenantDatabase.grants (tenantId processId : Uuid) : Bool :=
  db.tenantProcesses.contains (tenantId, processId)

/-- The `SELECT` of `load_related_process_context`: each process with its
current version. -/
def TenantDatabase.relatedRows (tenantId originId : Uuid) (codes : List String) :
    List (Process × Uuid) :=
  ((db.processes.filter fun p => db.grants tenantId p.id && codes.contains p.code &&
      p.id != originId && p.secrecyLevel == 0).filterMap fun p =>
    p.currentVersionId.map fun versionId => (p, versionId)).insertionSort
      fun a b => codes.idxOf a.1.code ≤ codes.idxOf b.1.code

/-- `steps[-recent_movements:]`. -/
def lastOf {α : Type} (n : Int) (xs : List α) : List α := xs.drop (xs.length - n.toNat)

/-- The context of a row. -/
def relatedContext (recentMovements : Int) (row : Process × Uuid) :
    Except String RelatedProcessContext := do
  let steps ← loadSteps pg db.toDatabase row.2
  let details := db.details.find? fun details => details.id == row.1.id
  return { processId := row.1.id, versionId := row.2, code := row.1.code
           court := details.bind ProcessDetails.court
           className := details.bind ProcessDetails.className
           instanceName := headerInstance pg row.1.header
           movements := lastOf recentMovements steps }

/-- `load_related_process_context`. -/
def loadRelatedProcessContext (tenantId originId : Uuid) (relatedCodes : List String)
    (recentMovements : Int) : Except String (List RelatedProcessContext) := do
  if recentMovements ≤ 0 then throw "recent_movements must be positive"
  let codes ← normalizeRelatedCodes u relatedCodes
  if codes.isEmpty then return []
  if !db.grants tenantId originId then return []
  (db.relatedRows tenantId originId codes).mapM (relatedContext pg db recentMovements)

/-- A row of `safe_related_provenance`. -/
structure RelatedSource where
  kind : String
  processCode : String
  stepId : Option Uuid
  stepNumber : Option Int
  occurredAt : Option Timestamp
  sourceOrder : Nat
deriving Repr, DecidableEq

/-- The sources of the movements of a context, numbered from `sourceOrder`. -/
def movementSources (code : String) (sourceOrder : Nat) : List Step → List RelatedSource
  | [] => []
  | step :: steps =>
      { kind := "related_process_movement", processCode := code, stepId := some step.id,
        stepNumber := some step.stepNumber, occurredAt := step.occurredAt, sourceOrder } ::
      movementSources code (sourceOrder + 1) steps

/-- The sources of a context. -/
def contextSources (sourceOrder : Nat) (context : RelatedProcessContext) : List RelatedSource :=
  if context.movements.isEmpty then
    [{ kind := "related_process", processCode := context.code, stepId := none, stepNumber := none
       occurredAt := none, sourceOrder }]
  else movementSources context.code sourceOrder context.movements

/-- The loop of `safe_related_provenance`. -/
def provenanceFrom (sourceOrder : Nat) : List RelatedProcessContext → List RelatedSource
  | [] => []
  | context :: contexts =>
      let sources := contextSources sourceOrder context
      sources ++ provenanceFrom (sourceOrder + sources.length) contexts

/-- `safe_related_provenance`. -/
def safeRelatedProvenance (contexts : List RelatedProcessContext) : List RelatedSource :=
  provenanceFrom 0 contexts

/-! ## §3. Attachments. -/

/-- The joins of both queries. -/
def TenantDatabase.authorizedChunks (tenantId processId versionId : Uuid) :
    List (AttachmentRecord × ChunkRecord) :=
  (db.tenantProcesses.filter fun tp => tp.1 == tenantId).flatMap fun tp =>
    (db.processes.filter fun p => p.id == tp.2 && p.id == processId &&
      p.currentVersionId == some versionId && p.secrecyLevel == 0).flatMap fun p =>
        (db.attachments.filter fun pa => pa.processId == p.id && pa.versionId == versionId &&
          pa.status == .ready).flatMap fun pa =>
            (db.chunks.filter fun ac => ac.attachmentId == pa.id && ac.processId == p.id &&
              ac.versionId == versionId).map fun ac => (pa, ac)

/-- `ORDER BY source_attachment_id, chunk_index`. -/
def TextSearch.before (a b : AttachmentRecord × ChunkRecord) : Bool :=
  if a.1.sourceAttachmentId == b.1.sourceAttachmentId then a.2.chunkIndex ≤ b.2.chunkIndex
  else ts.collatesBefore a.1.sourceAttachmentId b.1.sourceAttachmentId

/-- `load_authorized_attachment_chunks`. -/
def loadAuthorizedAttachmentChunks (tenantId processId versionId : Uuid) :
    List (AttachmentRecord × ChunkRecord) :=
  (db.authorizedChunks tenantId processId versionId).insertionSort fun a b => ts.before a b

/-- `search_authorized_attachment_chunks`, with the `lexical_score` of each
chunk. -/
def searchAuthorizedAttachmentChunks (tenantId processId versionId : Uuid) (query : String)
    (limit : Int) : Except String (List (AttachmentRecord × ChunkRecord × F)) := do
  if limit ≤ 0 then throw "attachment retrieval limit must be greater than zero"
  let normalizedQuery := u.strip query
  if normalizedQuery = "" then return []
  let found := ((db.authorizedChunks tenantId processId versionId).filter fun row =>
    ts.finds row.2.text normalizedQuery).map fun row =>
      (row.1, row.2, ts.rank row.2.text normalizedQuery)
  let ordered := found.insertionSort fun a b =>
    ts.lt b.2.2 a.2.2 ∨ (¬ts.lt a.2.2 b.2.2 ∧ ts.before (a.1, a.2.1) (b.1, b.2.1))
  return ordered.take limit.toNat

end Reads

/-! ## §4. What a tenant may see. -/

section Visible

variable {F : Type} (db : TenantDatabase F) (tenantId : Uuid)

/-- A public process of the portfolio. -/
def TenantDatabase.sees (p : Process) : Bool :=
  db.grants tenantId p.id && p.secrecyLevel == 0

/-- The current version of such a process. -/
def TenantDatabase.shows (processId versionId : Uuid) : Bool :=
  db.processes.any fun p =>
    db.sees tenantId p && p.id == processId && p.currentVersionId == some versionId

/-- **The part of the database that a tenant may see**: its portfolio, the
public processes in it, their current versions, and the movements and ready
attachments of these. -/
def TenantDatabase.visibleTo : TenantDatabase F where
  processes := db.processes.filter (db.sees tenantId)
  versions := db.versions.filter fun pv => db.shows tenantId pv.processId pv.id
  steps := db.steps.filter fun ps => db.shows tenantId ps.processId ps.versionId
  processes_nodup := db.processes_nodup.sublist (List.filter_sublist.map _)
  versions_nodup := db.versions_nodup.sublist (List.filter_sublist.map _)
  steps_nodup := db.steps_nodup.sublist (List.filter_sublist.map _)
  tenantProcesses := db.tenantProcesses.filter fun tp => tp.1 == tenantId
  details := db.details.filter fun details =>
    db.processes.any fun p => db.sees tenantId p && p.id == details.id
  attachments := db.attachments.filter fun pa =>
    db.shows tenantId pa.processId pa.versionId && pa.status == .ready
  chunks := db.chunks.filter fun ac =>
    db.shows tenantId ac.processId ac.versionId && db.attachments.any fun pa =>
      pa.id == ac.attachmentId && pa.processId == ac.processId && pa.versionId == ac.versionId &&
        pa.status == .ready

/-- The current version of a process is a version of it. -/
def TenantDatabase.CurrentOwn : Prop :=
  ∀ p ∈ db.processes, ∀ pv ∈ db.versions, p.currentVersionId = some pv.id → pv.processId = p.id

instance : Decidable db.CurrentOwn :=
  inferInstanceAs (Decidable (∀ p ∈ db.processes, ∀ pv ∈ db.versions,
    p.currentVersionId = some pv.id → pv.processId = p.id))

variable {db tenantId}

theorem TenantDatabase.sees_iff {p : Process} :
    db.sees tenantId p = true ↔ db.grants tenantId p.id = true ∧ p.secrecyLevel = 0 := by
  simp [TenantDatabase.sees]

theorem TenantDatabase.shows_iff {processId versionId : Uuid} :
    db.shows tenantId processId versionId = true ↔
      ∃ p ∈ db.processes, db.sees tenantId p = true ∧ p.id = processId ∧
        p.currentVersionId = some versionId := by
  simp [TenantDatabase.shows, and_assoc]

/-- The portfolio is part of what the tenant may see. -/
theorem TenantDatabase.visibleTo_grants (processId : Uuid) :
    (db.visibleTo tenantId).grants tenantId processId = db.grants tenantId processId := by
  unfold TenantDatabase.grants TenantDatabase.visibleTo
  rw [Bool.eq_iff_iff, List.contains_iff_mem, List.contains_iff_mem, List.mem_filter]
  simp

/-! ## §5. The reads on that part. -/

/-- A row that reaches the predicate: of the version, and of its process. -/
def ofVersion (versionId : Uuid) (row : ProcessStep F × ProcessVersion × Process) : Bool :=
  row.1.versionId == versionId && row.1.processId == row.2.1.processId

theorem rejected_of_not_ofVersion {pg : Postgres} {versionId : Uuid} {also : ProcessStep F → Bool}
    {row : ProcessStep F × ProcessVersion × Process} (h : ofVersion versionId row = false) :
    holdsAll (.ok (some (row.1.versionId == versionId)) :: .ok (some (also row.1)) ::
      eligibleConditions pg row.1 row.2.1 row.2.2) = .ok false := by
  unfold ofVersion at h
  cases hversion : row.1.versionId == versionId with
  | false => rfl
  | true =>
      rw [hversion, Bool.true_and] at h
      cases also row.1 with
      | false => rfl
      | true =>
          unfold eligibleConditions
          rw [h]
          rfl

variable {p : Process} {versionId : Uuid}

/-- The current version that the tenant reads is one that it may see. -/
theorem TenantDatabase.CurrentOwn.shows (hcurrent : db.CurrentOwn) (hp : p ∈ db.processes)
    (hsees : db.sees tenantId p = true) (hversion : p.currentVersionId = some versionId)
    {pv : ProcessVersion} (hpv : pv ∈ db.versions) (hid : pv.id = versionId) :
    db.shows tenantId pv.processId pv.id = true := by
  subst hid
  exact shows_iff.2 ⟨p, hp, hsees, (hcurrent p hp pv hpv hversion).symm, hversion⟩

/-- The process of a version that the tenant may see. -/
theorem filter_visibleTo_processes {processId : Uuid}
    (hshows : db.shows tenantId processId versionId = true) :
    (db.visibleTo tenantId).processes.filter (fun q => q.id == processId) =
      db.processes.filter fun q => q.id == processId := by
  refine filter_filter_of_imp fun q hq hid => ?_
  obtain ⟨r, hr, hsees, hrid, -⟩ := TenantDatabase.shows_iff.1 hshows
  rwa [eq_of_nodup_key db.processes_nodup hq hr ((eq_of_beq hid).trans hrid.symm)]

/-- The rows that reach the predicate are rows that the tenant may see. -/
theorem joined_visibleTo (hcurrent : db.CurrentOwn) (hp : p ∈ db.processes)
    (hsees : db.sees tenantId p = true) (hversion : p.currentVersionId = some versionId) :
    (db.visibleTo tenantId).joined.filter (ofVersion versionId) =
      db.toDatabase.joined.filter (ofVersion versionId) := by
  -- a row of the version shows its version and its process
  have hseen : ∀ (ps : ProcessStep F) (pv : ProcessVersion) (q : Process),
      pv ∈ db.versions.filter (fun pv => pv.id == ps.versionId) →
        ofVersion versionId (ps, pv, q) = true →
          db.shows tenantId pv.processId pv.id = true ∧
            db.shows tenantId ps.processId ps.versionId = true := by
    intro ps pv q hpv hof
    obtain ⟨hpv, hid⟩ := List.mem_filter.1 hpv
    obtain ⟨hps, hown⟩ := (Bool.and_eq_true _ _).mp hof
    have hid : pv.id = ps.versionId := eq_of_beq hid
    have hown : ps.processId = pv.processId := eq_of_beq hown
    have hshows := hcurrent.shows hp hsees hversion hpv (hid.trans (eq_of_beq hps))
    refine ⟨hshows, ?_⟩
    rwa [hown, ← hid]
  unfold Database.joined
  rw [List.filter_flatMap, List.filter_flatMap]
  refine flatMap_filter_eq (fun ps _ _ => ?_) fun ps _ hhidden => ?_
  · rw [List.filter_flatMap, List.filter_flatMap]
    show List.flatMap _ ((db.versions.filter _).filter _) = _
    rw [List.filter_comm]
    refine flatMap_filter_eq (fun pv _ hshows => ?_) fun pv hpv hhidden => ?_
    · rw [filter_visibleTo_processes hshows]
    · refine List.filter_eq_nil_iff.2 fun row hrow hof => ?_
      obtain ⟨q, -, rfl⟩ := List.mem_map.1 hrow
      rw [(hseen ps pv q hpv hof).1] at hhidden
      cases hhidden
  · refine List.filter_eq_nil_iff.2 fun row hrow hof => ?_
    obtain ⟨pv, hpv, hrow⟩ := List.mem_flatMap.1 hrow
    obtain ⟨q, -, rfl⟩ := List.mem_map.1 hrow
    rw [(hseen ps pv q hpv hof).2] at hhidden
    cases hhidden

/-- **Movements.**  Those of the current version of a public process of the
portfolio are read from what the tenant may see. -/
theorem selectSteps_visibleTo {pg : Postgres} (hcurrent : db.CurrentOwn) (hp : p ∈ db.processes)
    (hsees : db.sees tenantId p = true) (hversion : p.currentVersionId = some versionId)
    (also : ProcessStep F → Bool) :
    (db.visibleTo tenantId).selectSteps pg versionId also =
      db.toDatabase.selectSteps pg versionId also := by
  unfold Database.selectSteps
  have hrejected : ∀ {rows : List (ProcessStep F × ProcessVersion × Process)}, ∀ row ∈ rows,
      ofVersion versionId row = false → holdsAll (.ok (some (row.1.versionId == versionId)) ::
        .ok (some (also row.1)) :: eligibleConditions pg row.1 row.2.1 row.2.2) = .ok false :=
    fun row _ => rejected_of_not_ofVersion
  rw [← selectWhere_filter hrejected, joined_visibleTo hcurrent hp hsees hversion,
    selectWhere_filter hrejected]

/-- `load_steps`, for a process in the result of the first query. -/
theorem loadSteps_visibleTo {pg : Postgres} (hcurrent : db.CurrentOwn) (hp : p ∈ db.processes)
    (hsees : db.sees tenantId p = true) (hversion : p.currentVersionId = some versionId) :
    loadSteps pg (db.visibleTo tenantId).toDatabase versionId =
      loadSteps pg db.toDatabase versionId := by
  unfold loadSteps
  rw [selectSteps_visibleTo hcurrent hp hsees hversion]

/-- The details of a process that the tenant may see. -/
theorem find?_visibleTo_details (hp : p ∈ db.processes) (hsees : db.sees tenantId p = true) :
    (db.visibleTo tenantId).details.find? (fun details => details.id == p.id) =
      db.details.find? fun details => details.id == p.id := by
  rw [← List.head?_filter, ← List.head?_filter]
  refine congrArg List.head? (filter_filter_of_imp fun details _ hid => ?_)
  refine List.any_eq_true.2 ⟨p, hp, ?_⟩
  rw [hsees, eq_of_beq hid]
  exact beq_self_eq_true p.id

/-- **Related processes** are found among those that the tenant may see. -/
theorem relatedRows_visibleTo (originId : Uuid) (codes : List String) :
    (db.visibleTo tenantId).relatedRows tenantId originId codes =
      db.relatedRows tenantId originId codes := by
  unfold TenantDatabase.relatedRows
  refine congrArg (fun rows => List.insertionSort _ (List.filterMap _ rows)) ?_
  rw [List.filter_congr fun q _ => congrArg (fun granted => granted && codes.contains q.code &&
    q.id != originId && q.secrecyLevel == 0) (db.visibleTo_grants q.id)]
  refine filter_filter_of_imp fun q _ hq => ?_
  simp only [Bool.and_eq_true] at hq
  exact (Bool.and_eq_true _ _).mpr ⟨hq.1.1.1, hq.2⟩

/-- A row of the query is a public process of the portfolio. -/
theorem mem_relatedRows {originId : Uuid} {codes : List String} {row : Process × Uuid}
    (h : row ∈ db.relatedRows tenantId originId codes) :
    row.1 ∈ db.processes ∧ db.sees tenantId row.1 = true ∧
      row.1.currentVersionId = some row.2 := by
  rw [TenantDatabase.relatedRows, (List.perm_insertionSort _ _).mem_iff] at h
  obtain ⟨q, hq, hrow⟩ := List.mem_filterMap.1 h
  obtain ⟨versionId, hversion, rfl⟩ := Option.map_eq_some_iff.1 hrow
  obtain ⟨hq, hholds⟩ := List.mem_filter.1 hq
  simp only [Bool.and_eq_true] at hholds
  exact ⟨hq, (Bool.and_eq_true _ _).mpr ⟨hholds.1.1.1, hholds.2⟩, hversion⟩

/-- `load_related_process_context` reads what the tenant may see. -/
theorem loadRelatedProcessContext_visibleTo {u : Digits} {pg : Postgres}
    (hcurrent : db.CurrentOwn) (originId : Uuid) (relatedCodes : List String)
    (recentMovements : Int) :
    loadRelatedProcessContext u pg (db.visibleTo tenantId) tenantId originId relatedCodes
      recentMovements =
    loadRelatedProcessContext u pg db tenantId originId relatedCodes recentMovements := by
  have hcontext : ∀ codes, ∀ row ∈ db.relatedRows tenantId originId codes,
      relatedContext pg (db.visibleTo tenantId) recentMovements row =
        relatedContext pg db recentMovements row := by
    intro codes row hrow
    obtain ⟨hp, hsees, hversion⟩ := mem_relatedRows hrow
    unfold relatedContext
    rw [loadSteps_visibleTo hcurrent hp hsees hversion, find?_visibleTo_details hp hsees]
  unfold loadRelatedProcessContext
  rw [TenantDatabase.visibleTo_grants]
  simp only [relatedRows_visibleTo]
  simp only [Foundation.mapM_congr (hcontext _)]

/-- **Chunks** are found among those that the tenant may see. -/
theorem authorizedChunks_visibleTo (processId : Uuid) :
    (db.visibleTo tenantId).authorizedChunks tenantId processId versionId =
      db.authorizedChunks tenantId processId versionId := by
  unfold TenantDatabase.authorizedChunks
  -- The joins from the outside in: each filter of the query keeps only rows the tenant may
  -- see.
  have hportfolio : (db.visibleTo tenantId).tenantProcesses.filter (fun tp => tp.1 == tenantId) =
      db.tenantProcesses.filter fun tp => tp.1 == tenantId :=
    filter_filter_of_imp fun tp _ htp => htp
  rw [hportfolio]
  refine List.flatMap_congr fun tp htp => ?_
  obtain ⟨htp, htenant⟩ := List.mem_filter.1 htp
  have hgrants : db.grants tenantId tp.2 = true := by
    refine List.contains_iff_mem.2 ?_
    rwa [← eq_of_beq htenant]
  have hprocesses : (db.visibleTo tenantId).processes.filter (fun q => q.id == tp.2 &&
      q.id == processId && q.currentVersionId == some versionId && q.secrecyLevel == 0) =
      db.processes.filter fun q => q.id == tp.2 && q.id == processId &&
        q.currentVersionId == some versionId && q.secrecyLevel == 0 := by
    refine filter_filter_of_imp fun q _ hq => ?_
    simp only [Bool.and_eq_true, beq_iff_eq] at hq
    refine TenantDatabase.sees_iff.2 ⟨?_, hq.2⟩
    rw [hq.1.1.1, hgrants]
  rw [hprocesses]
  refine List.flatMap_congr fun q hq => ?_
  obtain ⟨hq, hcondition⟩ := List.mem_filter.1 hq
  simp only [Bool.and_eq_true, beq_iff_eq] at hcondition
  obtain ⟨⟨⟨hid, -⟩, hcurrent⟩, hpublic⟩ := hcondition
  -- What the joins have fixed so far: the process is granted and public, and the version is
  -- its current one.
  have hshows : db.shows tenantId q.id versionId = true := by
    refine TenantDatabase.shows_iff.2 ⟨q, hq, TenantDatabase.sees_iff.2 ⟨?_, hpublic⟩, rfl, hcurrent⟩
    rw [hid, hgrants]
  have hattachments : (db.visibleTo tenantId).attachments.filter (fun pa => pa.processId == q.id &&
      pa.versionId == versionId && pa.status == .ready) =
      db.attachments.filter fun pa => pa.processId == q.id && pa.versionId == versionId &&
        pa.status == .ready := by
    refine filter_filter_of_imp fun pa _ hpa => ?_
    simp only [Bool.and_eq_true, beq_iff_eq] at hpa
    obtain ⟨⟨hprocess, hversion⟩, hready⟩ := hpa
    rw [hprocess, hversion, hshows, hready]
    rfl
  rw [hattachments]
  refine List.flatMap_congr fun pa hpa => congrArg (List.map _) ?_
  obtain ⟨hpa, hcondition⟩ := List.mem_filter.1 hpa
  simp only [Bool.and_eq_true, beq_iff_eq] at hcondition
  obtain ⟨⟨hprocess, hversion⟩, hready⟩ := hcondition
  refine filter_filter_of_imp fun ac _ hac => ?_
  simp only [Bool.and_eq_true, beq_iff_eq] at hac
  obtain ⟨⟨hattachment, hacProcess⟩, hacVersion⟩ := hac
  rw [hacProcess, hacVersion, hshows, Bool.true_and, List.any_eq_true]
  refine ⟨pa, hpa, ?_⟩
  rw [hattachment, hprocess, hversion, hready]
  simp

/-- **The reads of a tenant depend on what it may see alone.**  Two databases
that agree there give it the same related processes, attachment chunks and
search results, with the same errors, whatever else they hold. -/
theorem tenant_noninterference {F : Type} {u : Digits} {pg : Postgres} {ts : TextSearch F}
    {db db' : TenantDatabase F} {tenantId : Uuid} (hcurrent : db.CurrentOwn)
    (hcurrent' : db'.CurrentOwn) (hsame : db.visibleTo tenantId = db'.visibleTo tenantId) :
    (∀ originId relatedCodes recentMovements,
      loadRelatedProcessContext u pg db tenantId originId relatedCodes recentMovements =
        loadRelatedProcessContext u pg db' tenantId originId relatedCodes recentMovements) ∧
    (∀ processId versionId, loadAuthorizedAttachmentChunks ts db tenantId processId versionId =
      loadAuthorizedAttachmentChunks ts db' tenantId processId versionId) ∧
    ∀ processId versionId query limit,
      searchAuthorizedAttachmentChunks u ts db tenantId processId versionId query limit =
        searchAuthorizedAttachmentChunks u ts db' tenantId processId versionId query limit := by
  have hchunks : ∀ processId versionId, db.authorizedChunks tenantId processId versionId =
      db'.authorizedChunks tenantId processId versionId := by
    intro processId versionId
    rw [← authorizedChunks_visibleTo, hsame, authorizedChunks_visibleTo]
  refine ⟨fun originId relatedCodes recentMovements => ?_, fun processId versionId => ?_,
    fun processId versionId query limit => ?_⟩
  · rw [← loadRelatedProcessContext_visibleTo hcurrent, hsame,
      loadRelatedProcessContext_visibleTo hcurrent']
  · rw [loadAuthorizedAttachmentChunks, hchunks]
    rfl
  · rw [searchAuthorizedAttachmentChunks, hchunks]
    rfl

/-! ## §6. What the provenance names. -/

/-- The loop of `normalize_related_codes` keeps what it has and adds the
canonical forms. -/
theorem mem_normalizeCodes {u : Digits} {normalized codes out : List String}
    (h : normalizeCodes u normalized codes = .ok out) {code : String} (hcode : code ∈ out) :
    code ∈ normalized ∨ ∃ asked ∈ codes, normalizeCnj u asked = some code := by
  induction codes generalizing normalized with
  | nil =>
      obtain rfl := Except.ok.inj h
      exact .inl hcode
  | cons asked codes ih =>
      rw [normalizeCodes] at h
      cases hcanonical : normalizeCnj u asked with
      | none =>
          rw [hcanonical] at h
          cases h
      | some canonical =>
          rw [hcanonical] at h
          have hrest : code ∈ normalized ++ [canonical] ∨
              (∃ other ∈ codes, normalizeCnj u other = some code) → code ∈ normalized ∨
                ∃ other ∈ asked :: codes, normalizeCnj u other = some code := by
            rintro (hmem | ⟨other, hother, hsome⟩)
            · rcases List.mem_append.1 hmem with hmem | hmem
              · exact .inl hmem
              · obtain rfl := List.mem_singleton.1 hmem
                exact .inr ⟨asked, List.mem_cons_self, hcanonical⟩
            · exact .inr ⟨other, List.mem_cons_of_mem _ hother, hsome⟩
          simp only at h
          split at h
          · exact hrest ((ih h).imp_left (List.mem_append_left _))
          · exact hrest (ih h)

theorem normalizeRelatedCodes_eq_ok {u : Digits} {codes out : List String}
    (h : normalizeRelatedCodes u codes = .ok out) : normalizeCodes u [] codes = .ok out := by
  unfold normalizeRelatedCodes at h
  split at h
  · cases h
  · exact h

theorem mem_movementSources {code : String} {sourceOrder : Nat} {steps : List Step}
    {source : RelatedSource} (h : source ∈ movementSources code sourceOrder steps) :
    source.processCode = code ∧ ∃ step ∈ steps, source.stepId = some step.id := by
  induction steps generalizing sourceOrder with
  | nil => cases h
  | cons step steps ih =>
      rcases List.mem_cons.1 h with rfl | h
      · exact ⟨rfl, step, List.mem_cons_self, rfl⟩
      · obtain ⟨hcode, other, hother, hid⟩ := ih h
        exact ⟨hcode, other, List.mem_cons_of_mem _ hother, hid⟩

/-- A source names the process of a context, and a movement of it if any. -/
theorem mem_provenanceFrom {sourceOrder : Nat} {contexts : List RelatedProcessContext}
    {source : RelatedSource} (h : source ∈ provenanceFrom sourceOrder contexts) :
    ∃ context ∈ contexts, source.processCode = context.code ∧
      ∀ stepId, source.stepId = some stepId → ∃ step ∈ context.movements, step.id = stepId := by
  induction contexts generalizing sourceOrder with
  | nil => cases h
  | cons context contexts ih =>
      rcases List.mem_append.1 h with h | h
      · refine ⟨context, List.mem_cons_self, ?_⟩
        unfold contextSources at h
        split at h
        · obtain rfl := List.mem_singleton.1 h
          exact ⟨rfl, fun stepId hid => nomatch hid⟩
        · obtain ⟨hcode, step, hstep, hid⟩ := mem_movementSources h
          exact ⟨hcode, fun stepId hsome => ⟨step, hstep, Option.some.inj (hid.symm.trans hsome)⟩⟩
      · obtain ⟨other, hother, hsource⟩ := ih h
        exact ⟨other, List.mem_cons_of_mem _ hother, hsource⟩

theorem movementSources_order (code : String) (sourceOrder : Nat) (steps : List Step) :
    (movementSources code sourceOrder steps).map RelatedSource.sourceOrder =
      List.range' sourceOrder (movementSources code sourceOrder steps).length := by
  induction steps generalizing sourceOrder with
  | nil => rfl
  | cons step steps ih =>
      rw [movementSources, List.map_cons, List.length_cons, List.range'_succ, ih]

/-- The sources are numbered in their order. -/
theorem provenanceFrom_order (sourceOrder : Nat) (contexts : List RelatedProcessContext) :
    (provenanceFrom sourceOrder contexts).map RelatedSource.sourceOrder =
      List.range' sourceOrder (provenanceFrom sourceOrder contexts).length := by
  induction contexts generalizing sourceOrder with
  | nil => rfl
  | cons context contexts ih =>
      have hcontext : (contextSources sourceOrder context).map RelatedSource.sourceOrder =
          List.range' sourceOrder (contextSources sourceOrder context).length := by
        unfold contextSources
        split
        · rfl
        · exact movementSources_order _ _ _
      rw [provenanceFrom, List.map_append, List.length_append, hcontext, ih, List.range'_append_1]

/-- The context of a row is about the row. -/
theorem relatedContext_spec {pg : Postgres} {recentMovements : Int} {row : Process × Uuid}
    {context : RelatedProcessContext}
    (h : relatedContext pg db recentMovements row = .ok context) :
    context.code = row.1.code ∧ ∀ step ∈ context.movements, db.EligibleStep pg row.2 step.id := by
  obtain ⟨steps, hsteps, h⟩ := bind_eq_ok.1 h
  obtain rfl := Except.ok.inj h
  exact ⟨rfl, fun step hstep => mem_loadSteps hsteps (List.mem_of_mem_drop hstep)⟩

/-- A row of the query is of a code asked for, and not the origin. -/
theorem relatedRows_asked {originId : Uuid} {codes : List String} {row : Process × Uuid}
    (h : row ∈ db.relatedRows tenantId originId codes) :
    row.1.code ∈ codes ∧ row.1.id ≠ originId := by
  rw [TenantDatabase.relatedRows, (List.perm_insertionSort _ _).mem_iff] at h
  obtain ⟨q, hq, hrow⟩ := List.mem_filterMap.1 h
  obtain ⟨versionId, -, rfl⟩ := Option.map_eq_some_iff.1 hrow
  have hholds := (List.mem_filter.1 hq).2
  simp only [Bool.and_eq_true, bne_iff_ne] at hholds
  exact ⟨List.contains_iff_mem.1 hholds.1.1.2, hholds.1.2⟩

/-- What a lookup that raises nothing went through. -/
theorem loadRelatedProcessContext_eq_ok {u : Digits} {pg : Postgres} {originId : Uuid}
    {relatedCodes : List String} {recentMovements : Int} {contexts : List RelatedProcessContext}
    (h : loadRelatedProcessContext u pg db tenantId originId relatedCodes recentMovements =
      .ok contexts) :
    ∃ codes, normalizeRelatedCodes u relatedCodes = .ok codes ∧
      (if codes = [] ∨ db.grants tenantId originId = false then .ok []
        else (db.relatedRows tenantId originId codes).mapM
          (relatedContext pg db recentMovements)) = .ok contexts := by
  by_cases hpositive : recentMovements ≤ 0
  · simp only [loadRelatedProcessContext, hpositive, if_true] at h
    cases h
  · simp only [loadRelatedProcessContext, hpositive, if_false] at h
    obtain ⟨codes, hcodes, h⟩ := bind_eq_ok.1 h
    refine ⟨codes, hcodes, ?_⟩
    cases codes with
    | nil => exact h
    | cons code codes =>
        cases hgrants : db.grants tenantId originId with
        | false =>
            rw [hgrants] at h
            exact h
        | true =>
            rw [hgrants] at h
            rw [if_neg (by simp)]
            exact h

/-- **The provenance of related processes crosses no boundary.**  Each source
names a public process of the tenant's portfolio, other than the origin, whose
code was asked for, and, if any, an eligible movement of its current version;
the origin is in the portfolio; the sources are numbered from zero. -/
theorem related_sources_authorized {F : Type} {u : Digits} {pg : Postgres} {db : TenantDatabase F}
    {tenantId originId : Uuid} {relatedCodes : List String} {recentMovements : Int}
    {contexts : List RelatedProcessContext}
    (h : loadRelatedProcessContext u pg db tenantId originId relatedCodes recentMovements =
      .ok contexts) :
    (safeRelatedProvenance contexts).map RelatedSource.sourceOrder =
        List.range (safeRelatedProvenance contexts).length ∧
      ∀ source ∈ safeRelatedProvenance contexts, db.grants tenantId originId = true ∧
        ∃ p ∈ db.processes, p.code = source.processCode ∧ p.id ≠ originId ∧
          db.grants tenantId p.id = true ∧ p.secrecyLevel = 0 ∧
          (∃ asked ∈ relatedCodes, normalizeCnj u asked = some p.code) ∧
          ∀ stepId, source.stepId = some stepId →
            ∃ versionId, p.currentVersionId = some versionId ∧
              db.EligibleStep pg versionId stepId := by
  refine ⟨?_, fun source hsource => ?_⟩
  · rw [List.range_eq_range']
    exact provenanceFrom_order 0 contexts
  obtain ⟨context, hcontext, hcode, hstep⟩ := mem_provenanceFrom hsource
  obtain ⟨codes, hcodes, h⟩ := loadRelatedProcessContext_eq_ok h
  split at h
  · obtain rfl := Except.ok.inj h
    cases hcontext
  rename_i hauthorized
  obtain ⟨-, hgrants⟩ := not_or.1 hauthorized
  obtain ⟨row, hrow, hread⟩ := exists_of_forall₂_right (forall₂_of_mapM_eq_ok h) hcontext
  obtain ⟨hp, hsees, hversion⟩ := mem_relatedRows hrow
  obtain ⟨hasked, hother⟩ := relatedRows_asked hrow
  obtain ⟨hcontextCode, heligible⟩ := relatedContext_spec hread
  obtain ⟨hmember, hpublic⟩ := TenantDatabase.sees_iff.1 hsees
  refine ⟨by simpa using hgrants, row.1, hp, (hcode.trans hcontextCode).symm, hother, hmember,
    hpublic, ?_, fun stepId hid => ?_⟩
  · exact (mem_normalizeCodes (normalizeRelatedCodes_eq_ok hcodes) hasked).resolve_left nofun
  · obtain ⟨step, hmem, rfl⟩ := hstep stepId hid
    exact ⟨row.2, hversion, heligible step hmem⟩

end Visible

/-- PostgreSQL on texts in lower case. -/
def plainPostgres : Postgres where
  lower := id
  jsonbText _ := ""
  lower_false := rfl

/-- Two processes of tenant 1; the first has a ready attachment, the second a
movement. -/
def ownPart : TenantDatabase Nat where
  processes := [{ id := 1, code := "0000001-02.2024.8.26.0100", currentVersionId := some 10 },
    { id := 3, code := "0000002-02.2024.8.26.0100", currentVersionId := some 30 }]
  versions := [{ id := 10, processId := 1 }, { id := 30, processId := 3 }]
  steps := [{ id := 31, versionId := 30, processId := 3, stepNumber := 1, text := "sentença" }]
  processes_nodup := by decide
  versions_nodup := by decide
  steps_nodup := by decide
  tenantProcesses := [(1, 1), (1, 3)]
  attachments := [{ id := 5, processId := 1, versionId := 10, sourceAttachmentId := "a",
                    status := .ready }]
  chunks := [{ id := 7, attachmentId := 5, processId := 1, versionId := 10, chunkIndex := 0,
               text := "sentença", contentSha256 := "" }]

/-- The same, with a process of tenant 2 and its attachment. -/
def withOthers : TenantDatabase Nat where
  processes := ownPart.processes ++
    [{ id := 2, code := "0000003-02.2024.8.26.0100", currentVersionId := some 20 }]
  versions := ownPart.versions ++ [{ id := 20, processId := 2 }]
  steps := ownPart.steps
  processes_nodup := by decide
  versions_nodup := by decide
  steps_nodup := by decide
  tenantProcesses := (2, 2) :: ownPart.tenantProcesses
  attachments := { id := 6, processId := 2, versionId := 20, sourceAttachmentId := "b",
                   status := .ready } :: ownPart.attachments
  chunks := { id := 8, attachmentId := 6, processId := 2, versionId := 20, chunkIndex := 0,
              text := "sentença", contentSha256 := "" } :: ownPart.chunks

/-- A text search by equality. -/
def exactSearch : TextSearch Nat where
  collatesBefore a b := a ≤ b
  finds text query := text == query
  rank _ _ := 1
  lt a b := a < b

theorem tenant_noninterference_others :
    (loadAuthorizedAttachmentChunks exactSearch withOthers 1 1 10).length = 1 ∧
      loadAuthorizedAttachmentChunks exactSearch ownPart 1 1 10 =
        loadAuthorizedAttachmentChunks exactSearch withOthers 1 1 10 := by
  have hsame : ownPart.visibleTo 1 = withOthers.visibleTo 1 := rfl
  exact ⟨by decide, (@tenant_noninterference Nat Digits.arabic plainPostgres exactSearch ownPart
    withOthers 1 (by decide) (by decide) hsame).2.1 1 10⟩

theorem related_sources_authorized_movement :
    ∃ contexts, loadRelatedProcessContext Digits.arabic plainPostgres withOthers 1 1
        ["00000020220248260100", "0000003-02.2024.8.26.0100"] 5 = .ok contexts ∧
      (safeRelatedProvenance contexts).map RelatedSource.stepId = [some 31] ∧
      (safeRelatedProvenance contexts).map RelatedSource.sourceOrder =
        List.range (safeRelatedProvenance contexts).length := by
  have hrun : (loadRelatedProcessContext Digits.arabic plainPostgres withOthers 1 1
      ["00000020220248260100", "0000003-02.2024.8.26.0100"] 5).map
        (fun contexts => (safeRelatedProvenance contexts).map RelatedSource.stepId) =
          .ok [some 31] := by decide +kernel
  obtain ⟨contexts, hcontexts, hsteps⟩ := map_eq_ok.1 hrun
  exact ⟨contexts, hcontexts, hsteps, (related_sources_authorized hcontexts).1⟩

end Rpy.Tenancy

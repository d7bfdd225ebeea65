/-
  Rpy.Retrieval.Reindex
  ─────────────────────
  **THE REINDEX COMMAND, BATCH AFTER BATCH.**

  The command lists finalized versions in the order of their creation, fills
  those with movements without a vector, and reports the last version it has
  seen.  The next batch begins after that one; a batch that raised is begun
  again.

    • `listVersionBatch` — `list_version_batch`,
    • `reindexBatch`     — `reindex_batch`,
    • `reindexRows_spec` — the loop over the versions of a batch,
    • `sweep_invariant`  — what every sequence of batches keeps,
    • `sweep_completes`  — a sweep that ended has filled every version,
    • `sweep_ends`       — it ends, and visits every version once.

  `scripts/reindex_embedding_space.py`.
-/
import Mathlib.Data.Prod.Lex
import Rpy.Retrieval.Filling

namespace Rpy.Retrieval

open Rpy.Foundation

variable {F : Type}

/-! ## §1. The command. -/

/-- A `process_versions` row, with what the command reads of it. -/
structure VersionRow extends ProcessVersion where
  createdAt : Timestamp
  finalized : Bool
deriving Repr, DecidableEq

/-- `(pv.created_at, pv.id)`; a `uuid` is compared byte by byte. -/
def VersionRow.key (pv : VersionRow) : Timestamp ×ₗ Nat := toLex (pv.createdAt, pv.id.toNat)

/-- `pv.finalized = TRUE AND ($1 <> 'cohere' OR coalesce(p.secrecy_level, 0) =
0)`, for the process `p` of the version. -/
def Database.reindexes (db : Database F) (space : EmbeddingSpace) (pv : VersionRow) : Bool :=
  pv.finalized && db.processes.any fun p =>
    p.id == pv.processId && (space.provider != cohereProvider || p.secrecyLevel == 0)

/-- `count(ps.id) FILTER (WHERE … AND pse.step_id IS NULL)`. -/
def Database.missingEmbeddings (db : Database F) (space : EmbeddingSpace) (versionId : Uuid) :
    Nat :=
  (db.steps.filter fun ps => ps.versionId == versionId && ps.hasContent &&
    !(db.stepEmbeddings.any (space.holds ps.id))).length

/-- The rows after the checkpoint.  Nothing is after a checkpoint that does
not exist: the comparison with its null key is null. -/
def pageAfter (versions listed : List VersionRow) (limit : Nat) :
    Option Uuid → List VersionRow
  | none => page VersionRow.key limit none listed
  | some id => match versions.find? fun pv => pv.id == id with
    | none => []
    | some checkpoint => page VersionRow.key limit (some checkpoint.key) listed

/-- `EmbeddingSpace.key`. -/
def EmbeddingSpace.key (space : EmbeddingSpace) : String :=
  space.provider ++ ":" ++ space.model ++ ":" ++ toString space.dimensions

/-- The report of a batch. -/
structure ReindexReport where
  space : String
  dryRun : Bool
  versionsSeen : Nat := 0
  versionsWithMissing : Nat := 0
  embeddingsWritten : Nat := 0
  nextAfterVersionId : Option Uuid := none
  hasMore : Bool := false
deriving Repr, DecidableEq

section Command

variable (d : Deployment F) (answers : Answers F) (versions : List VersionRow)

/-- `list_version_batch`: each version with its count of missing vectors. -/
def listVersionBatch (space : EmbeddingSpace) (limit : Int) (after : Option Uuid) :
    Action F (List (Uuid × Nat)) := do
  if limit ≤ 0 then throw "version batch limit must be positive"
  let s ← get
  let rows := pageAfter versions (versions.filter (s.db.reindexes space)) limit.toNat after
  return rows.map fun pv => (pv.id, s.db.missingEmbeddings space pv.id)

/-- The loop over the rows. -/
def reindexRows (space : EmbeddingSpace) : List (Uuid × Nat) → ReindexReport →
    Action F ReindexReport
  | [], report => return report
  | (versionId, missing) :: rest, report => do
      let report := { report with
        versionsSeen := report.versionsSeen + 1, nextAfterVersionId := some versionId }
      if missing = 0 then reindexRows space rest report
      else
        let report := { report with versionsWithMissing := report.versionsWithMissing + 1 }
        if report.dryRun then reindexRows space rest report
        else
          let written ← ensureSpaceEmbeddings d answers space versionId
          reindexRows space rest
            { report with embeddingsWritten := report.embeddingsWritten + written }

/-- `reindex_batch`. -/
def reindexBatch (space : EmbeddingSpace) (limit : Int) (after : Option Uuid) (dryRun : Bool) :
    Action F ReindexReport := do
  let rows ← listVersionBatch versions space limit after
  let report ← reindexRows d answers space rows { space := space.key, dryRun }
  return { report with hasMore := (rows.length : Int) == limit }

end Command

/-! ## §2. One batch. -/

section Batch

variable {d : Deployment F} {answers : Answers F} {space : EmbeddingSpace}
  {db db' : Database F}

/-- What the batch counts is what is missing. -/
theorem missingEmbeddings_eq (versionId : Uuid) :
    db.missingEmbeddings space versionId = (db.missingSteps space versionId).length := by
  unfold Database.missingEmbeddings
  rw [perm_missingSteps.length_eq]
  refine congrArg List.length (List.filter_congr fun ps _ => ?_)
  rw [Bool.and_right_comm]

/-- Another version's movements do not count. -/
theorem missingSteps_of_other {steps : List (ProcessStep F)} {versionId : Uuid}
    (h : Filled d space db steps db') (hsteps : ∀ ps ∈ steps, ps ∈ db.steps)
    (hother : ∀ ps ∈ steps, ps.versionId ≠ versionId) :
    db'.missingSteps space versionId = db.missingSteps space versionId := by
  rw [missingSteps_filled h, List.filter_eq_self]
  intro ps hps
  obtain ⟨hmem, hversion, -⟩ := mem_missingSteps.1 hps
  rw [Bool.not_eq_true', ← Bool.not_eq_true, List.contains_iff_mem, List.mem_map]
  rintro ⟨other, hother', hid⟩
  obtain rfl := eq_of_nodup_key db.steps_nodup hmem (hsteps other hother') hid.symm
  exact hother _ hother' hversion

/-- The movements without a vector, of the versions of a list. -/
def Database.missingOf (db : Database F) (space : EmbeddingSpace) (ids : List Uuid) :
    List (ProcessStep F) :=
  ids.flatMap (db.missingSteps space)

/-- What is missing of versions is a step of one of them. -/
theorem mem_missingOf {ids : List Uuid} {ps : ProcessStep F} (h : ps ∈ db.missingOf space ids) :
    ps ∈ db.steps ∧ ps.versionId ∈ ids := by
  obtain ⟨id, hid, hps⟩ := List.mem_flatMap.1 h
  obtain ⟨hmem, rfl, -⟩ := mem_missingSteps.1 hps
  exact ⟨hmem, hid⟩

/-- The report after one more version, where it could be filled. -/
def Database.afterVersion (db : Database F) (space : EmbeddingSpace) (report : ReindexReport)
    (id : Uuid) : ReindexReport :=
  { report with
    versionsSeen := report.versionsSeen + 1
    versionsWithMissing := report.versionsWithMissing +
      if db.missingEmbeddings space id = 0 then 0 else 1
    embeddingsWritten := report.embeddingsWritten +
      if report.dryRun then 0 else db.missingEmbeddings space id
    nextAfterVersionId := some id }

/-- The report after some versions more. -/
def Database.reported (db : Database F) (space : EmbeddingSpace) (ids : List Uuid)
    (report : ReindexReport) : ReindexReport :=
  ids.foldl (db.afterVersion space) report

/-- A report depends on what is missing of its versions alone. -/
theorem reported_congr {ids : List Uuid} {report : ReindexReport}
    (h : ∀ id ∈ ids, db'.missingSteps space id = db.missingSteps space id) :
    db'.reported space ids report = db.reported space ids report := by
  refine List.foldl_ext _ _ _ fun r id hid => ?_
  unfold Database.afterVersion
  rw [missingEmbeddings_eq, missingEmbeddings_eq, h id hid]

/-- A report ends with the last version. -/
theorem reported_nextAfterVersionId (ids : List Uuid) (report : ReindexReport) :
    (db.reported space ids report).nextAfterVersionId =
      ids.getLast?.or report.nextAfterVersionId := by
  induction ids generalizing report with
  | nil => rfl
  | cons id rest ih =>
      refine (ih _).trans ?_
      rw [List.getLast?_cons]
      cases rest.getLast? <;> rfl

/-- It has seen each of the versions. -/
theorem reported_versionsSeen (ids : List Uuid) (report : ReindexReport) :
    (db.reported space ids report).versionsSeen = report.versionsSeen + ids.length := by
  induction ids generalizing report with
  | nil => rfl
  | cons id rest ih =>
      refine (ih (db.afterVersion space report id)).trans ?_
      rw [List.length_cons, Database.afterVersion, Nat.add_assoc, Nat.add_comm 1]

/-- It has written what was missing. -/
theorem reported_embeddingsWritten (ids : List Uuid) (report : ReindexReport)
    (hreal : report.dryRun = false) :
    (db.reported space ids report).embeddingsWritten =
      report.embeddingsWritten + (db.missingOf space ids).length := by
  induction ids generalizing report with
  | nil => rfl
  | cons id rest ih =>
      have hof : (db.missingOf space (id :: rest)).length =
          db.missingEmbeddings space id + (db.missingOf space rest).length := by
        rw [missingEmbeddings_eq, ← List.length_append]
        rfl
      refine (ih (db.afterVersion space report id) hreal).trans ?_
      rw [hof, Database.afterVersion, hreal, if_neg Bool.false_ne_true, Nat.add_assoc]

/-- A version without missing vectors is seen, and skipped. -/
theorem afterVersion_of_none {id : Uuid} {report : ReindexReport}
    (h : db.missingEmbeddings space id = 0) :
    db.afterVersion space report id = { report with
      versionsSeen := report.versionsSeen + 1, nextAfterVersionId := some id } := by
  unfold Database.afterVersion
  simp [h]

/-- **A dry run** reports what is missing, and changes nothing. -/
theorem reindexRows_dry (ids : List Uuid) (report : ReindexReport) (hdry : report.dryRun = true)
    (s : State F) :
    (reindexRows d answers space (ids.map fun id => (id, db.missingEmbeddings space id))
      report).run.run s = (.ok (db.reported space ids report), s) := by
  induction ids generalizing report with
  | nil => rfl
  | cons id rest ih =>
      have hrest := ih (db.afterVersion space report id) hdry
      show _ = (Except.ok (db.reported space rest (db.afterVersion space report id)), s)
      rw [← hrest, List.map_cons, reindexRows]
      by_cases hmissing : db.missingEmbeddings space id = 0
      · rw [if_pos hmissing, afterVersion_of_none hmissing]
      · rw [if_neg hmissing, if_pos hdry, Database.afterVersion, if_neg hmissing, if_pos hdry]
        rfl

/-- **The loop over the versions of a batch**: where it ends, all of them
are filled; where it raises, a prefix of what was missing is stored. -/
theorem reindexRows_spec (ids : List Uuid) (hnodup : ids.Nodup) (report : ReindexReport)
    (hreal : report.dryRun = false) :
    Triple (fun s => s.db = db)
      (reindexRows d answers space (ids.map fun id => (id, db.missingEmbeddings space id)) report)
      (fun r s => r = db.reported space ids report ∧
        Filled d space db (db.missingOf space ids) s.db)
      (fun s => ∃ n, Filled d space db ((db.missingOf space ids).take n) s.db) := by
  induction ids generalizing db report with
  | nil => exact .pure fun s hs => ⟨rfl, hs ▸ .refl d space s.db⟩
  | cons id rest ih =>
      obtain ⟨hid, hrest⟩ := List.nodup_cons.1 hnodup
      have hof : db.missingOf space (id :: rest) =
          db.missingSteps space id ++ db.missingOf space rest := rfl
      have hreported : db.reported space (id :: rest) report =
          db.reported space rest (db.afterVersion space report id) := rfl
      rw [List.map_cons, reindexRows, hof, hreported]
      refine .ite (fun hmissing => ?_) fun hmissing => ?_
      · -- nothing is missing: the version is skipped
        have hnone : db.missingSteps space id = [] := by
          rw [missingEmbeddings_eq] at hmissing
          exact List.length_eq_zero_iff.1 hmissing
        rw [hnone, List.nil_append, afterVersion_of_none hmissing]
        exact ih hrest _ hreal
      · rw [if_neg (by rw [hreal]; exact Bool.false_ne_true)]
        rintro s rfl
        refine Triple.bind (P := (· = s)) ((ensureSpaceEmbeddings_spec s).consequence
          (fun _ h => h) (fun _ _ h => h) ?_) (fun written => .assume fun hwritten => ?_) s rfl
        · rintro s' ⟨n, hfilled, -⟩
          refine ⟨min n (s.db.missingSteps space id).length, ?_⟩
          rw [List.take_append_of_le_length (min_le_right _ _), ← List.take_eq_take_min]
          exact hfilled
        · rintro s' ⟨hfilled, -⟩
          -- the versions that are left are as they were
          have hsame : ∀ other ∈ rest, s'.db.missingSteps space other =
              s.db.missingSteps space other := fun other hother =>
            missingSteps_of_other hfilled (fun ps hps => (mem_missingSteps.1 hps).1)
              fun ps hps heq => hid ((mem_missingSteps.1 hps).2.1 ▸ heq ▸ hother)
          have hcounts : rest.map (fun other => (other, s.db.missingEmbeddings space other)) =
              rest.map fun other => (other, s'.db.missingEmbeddings space other) :=
            List.map_congr_left fun other hother => by
              rw [missingEmbeddings_eq, missingEmbeddings_eq, hsame other hother]
          have hleft : s.db.missingOf space rest = s'.db.missingOf space rest := by
            unfold Database.missingOf
            rw [List.flatMap_def, List.flatMap_def, List.map_congr_left hsame]
          have hreport : s.db.afterVersion space report id =
              { report with
                versionsSeen := report.versionsSeen + 1
                versionsWithMissing := report.versionsWithMissing + 1
                embeddingsWritten := report.embeddingsWritten + written
                nextAfterVersionId := some id } := by
            rw [Database.afterVersion, if_neg hmissing, hreal, if_neg Bool.false_ne_true,
              hwritten, missingEmbeddings_eq]
          rw [hcounts, hleft, ← reported_congr hsame, hreport]
          refine ((ih hrest _ (by exact hreal)).consequence (fun _ h => h) (fun r s'' h => ?_) ?_) s'
            rfl
          · exact ⟨h.1, hfilled.trans h.2⟩
          · rintro s'' ⟨n, hn⟩
            exact ⟨(s.db.missingSteps space id).length + n, by
              rw [List.take_length_add_append]
              exact hfilled.trans hn⟩

/-- What is missing of some versions after others of their movements were
given vectors. -/
theorem missingOf_filled {steps : List (ProcessStep F)} (h : Filled d space db steps db')
    (ids : List Uuid) :
    db'.missingOf space ids = (db.missingOf space ids).filter fun ps =>
      !(steps.map ProcessStep.id).contains ps.id := by
  unfold Database.missingOf
  rw [List.filter_flatMap]
  exact congrArg₂ _ (funext fun id => missingSteps_filled h) rfl

/-- No step is missing twice. -/
theorem nodup_missingOf {ids : List Uuid} (h : ids.Nodup) :
    ((db.missingOf space ids).map ProcessStep.id).Nodup := by
  induction ids with
  | nil => exact List.nodup_nil
  | cons id rest ih =>
      obtain ⟨hid, hrest⟩ := List.nodup_cons.1 h
      have hof : db.missingOf space (id :: rest) =
          db.missingSteps space id ++ db.missingOf space rest := rfl
      rw [hof, List.map_append, List.nodup_append]
      refine ⟨nodup_missingSteps, ih hrest, fun a ha b hb hab => ?_⟩
      obtain ⟨ps, hps, rfl⟩ := List.mem_map.1 ha
      obtain ⟨other, hother, rfl⟩ := List.mem_map.1 hb
      obtain ⟨hmem, hversion, -⟩ := mem_missingSteps.1 hps
      obtain ⟨hmem', hversion'⟩ := mem_missingOf hother
      obtain rfl := eq_of_nodup_key db.steps_nodup hmem hmem' hab
      exact hid (hversion ▸ hversion')

/-- Versions after versions. -/
theorem missingOf_append (xs ys : List Uuid) :
    db.missingOf space (xs ++ ys) = db.missingOf space xs ++ db.missingOf space ys :=
  List.flatMap_append

/-- The report of a batch that ended. -/
def Database.batchReport (db : Database F) (space : EmbeddingSpace) (limit : Int)
    (dryRun : Bool) (ids : List Uuid) : ReindexReport :=
  { db.reported space ids { space := space.key, dryRun } with
    hasMore := (ids.length : Int) == limit }

/-- A batch has written what was missing of its versions. -/
theorem batchReport_embeddingsWritten (limit : Int) (ids : List Uuid) :
    (db.batchReport space limit false ids).embeddingsWritten =
      (db.missingOf space ids).length :=
  (reported_embeddingsWritten ids _ rfl).trans (Nat.zero_add _)

/-- It has seen each of them. -/
theorem batchReport_versionsSeen (limit : Int) (dryRun : Bool) (ids : List Uuid) :
    (db.batchReport space limit dryRun ids).versionsSeen = ids.length :=
  (reported_versionsSeen ids _).trans (Nat.zero_add _)

/-- The next one begins after the last of them. -/
theorem batchReport_nextAfterVersionId (limit : Int) (dryRun : Bool) (ids : List Uuid) :
    (db.batchReport space limit dryRun ids).nextAfterVersionId = ids.getLast? :=
  (reported_nextAfterVersionId ids _).trans Option.or_none

variable {versions rows : List VersionRow} {limit : Int} {after : Option Uuid}

/-- **The batch is the next page of the versions**, with what each of them
misses. -/
theorem listVersionBatch_run (hlimit : 0 < limit) (s : State F)
    (hrows : pageAfter versions (versions.filter (s.db.reindexes space)) limit.toNat after = rows) :
    (listVersionBatch versions space limit after).run.run s =
      (.ok ((rows.map (·.id)).map fun id => (id, s.db.missingEmbeddings space id)), s) := by
  unfold listVersionBatch
  rw [if_neg (not_le_of_gt hlimit)]
  have hread : (MonadState.get : Action F (State F)).run.run s = (.ok s, s) := rfl
  refine (run_bind_ok hread).trans ?_
  rw [hrows, List.map_map]
  rfl

/-- **One batch**, from a state of the database. -/
theorem reindexBatch_spec (hlimit : 0 < limit) (hnodup : (rows.map (·.id)).Nodup)
    (hrows : pageAfter versions (versions.filter (db.reindexes space)) limit.toNat after = rows) :
    Triple (fun s => s.db = db) (reindexBatch d answers versions space limit after false)
      (fun r s => r = db.batchReport space limit false (rows.map (·.id)) ∧
        Filled d space db (db.missingOf space (rows.map (·.id))) s.db)
      (fun s => ∃ n, Filled d space db
        ((db.missingOf space (rows.map (·.id))).take n) s.db) := by
  rintro s rfl
  unfold reindexBatch
  rw [run_bind_ok (listVersionBatch_run hlimit s hrows)]
  have hloop : Triple (fun s' => s'.db = s.db) (reindexRows d answers space _ _) _ _ :=
    reindexRows_spec (rows.map (·.id)) hnodup { space := space.key, dryRun := false } rfl
  refine hloop.bind (R := fun r s' =>
    r = s.db.batchReport space limit false (rows.map (·.id)) ∧ Filled d space s.db _ s'.db)
    (fun report => .pure fun s' hs => ⟨?_, hs.2⟩) s rfl
  rw [hs.1, List.length_map]
  rfl

/-- **A dry run predicts the batch**: it stores nothing and sends nothing, and
where the batch then ends, its report differs in what was written alone. -/
theorem reindexBatch_dry (hlimit : 0 < limit) (s : State F)
    (hrows : pageAfter versions (versions.filter (s.db.reindexes space)) limit.toNat after = rows) :
    (reindexBatch d answers versions space limit after true).run.run s =
      (.ok (s.db.batchReport space limit true (rows.map (·.id))), s) := by
  unfold reindexBatch
  rw [run_bind_ok (listVersionBatch_run hlimit s hrows),
    run_bind_ok (reindexRows_dry _ _ rfl s), List.length_map]
  rfl

end Batch

/-! ## §3. Sweeps. -/

/-- Where a sweep stands: the checkpoint of the next batch, the batches that
ended and that raised, what the reports of those that ended add up to, and the
versions that these listed. -/
structure Sweep (F : Type) where
  state : State F
  after : Option Uuid := none
  finished : Bool := false
  seen : Nat := 0
  written : Nat := 0
  ended : Nat := 0
  raised : Nat := 0
  visited : List Uuid := []

section Sweeps

variable (d : Deployment F) (versions : List VersionRow) (space : EmbeddingSpace) (limit : Int)

/-- The next batch, with what the providers answer to it.  A batch that
raised made no report: it is begun again from its checkpoint. -/
def Sweep.next (sweep : Sweep F) (answers : Answers F) : Sweep F :=
  if sweep.finished then sweep
  else match (reindexBatch d answers versions space limit sweep.after false).run.run
      sweep.state with
    | (.ok report, s) =>
        { state := s
          after := report.nextAfterVersionId
          finished := !report.hasMore
          seen := sweep.seen + report.versionsSeen
          written := sweep.written + report.embeddingsWritten
          ended := sweep.ended + 1
          raised := sweep.raised
          visited := sweep.visited ++ (pageAfter versions
            (versions.filter (sweep.state.db.reindexes space)) limit.toNat sweep.after).map (·.id) }
    | (.error _, s) => { sweep with state := s, raised := sweep.raised + 1 }

/-- A sweep from the first version on. -/
def sweep (s : State F) (tries : List (Answers F)) : Sweep F :=
  tries.foldl (Sweep.next d versions space limit) { state := s }

/-- The versions of a sweep, in its order. -/
def Database.swept (db : Database F) : List VersionRow :=
  inOrder VersionRow.key (versions.filter (db.reindexes space))

/-- **What every sequence of batches keeps**: the versions of the sweep were
seen up to the checkpoint, and those that were seen are filled; what was
stored is the beginning of what was missing. -/
structure SweepInvariant (s : State F) (sweep : Sweep F) : Prop where
  progress : ∃ seen left n, s.db.swept versions space = seen ++ left ∧
    sweep.visited = seen.map (·.id) ∧ sweep.seen = seen.length ∧
    (if sweep.finished then left = []
      else sweep.after = seen.getLast?.map (·.id) ∧
        seen.length = limit.toNat * sweep.ended) ∧
    Filled d space s.db ((s.db.missingOf space ((seen ++ left).map (·.id))).take n)
      sweep.state.db ∧
    n ≤ (s.db.missingOf space ((seen ++ left).map (·.id))).length ∧
    (s.db.missingOf space (seen.map (·.id))).length ≤ n ∧
    (sweep.raised = 0 → sweep.written = n ∧
      n = (s.db.missingOf space (seen.map (·.id))).length)

end Sweeps

section Invariant

variable {d : Deployment F} {versions : List VersionRow} {space : EmbeddingSpace} {limit : Int}
  {db db' : Database F} {seen left : List VersionRow}

/-- The versions of a sweep, in whatever order. -/
theorem perm_swept : (db.swept versions space).Perm (versions.filter (db.reindexes space)) :=
  perm_inOrder _ _

/-- No version is swept twice. -/
theorem nodup_swept (h : (versions.map (·.id)).Nodup) :
    ((db.swept versions space).map (·.id)).Nodup :=
  ((perm_swept.map _).nodup_iff).2 (h.sublist (List.filter_sublist.map _))

/-- The page after the last version seen. -/
theorem pageAfter_eq (h : (versions.map (·.id)).Nodup)
    (hsplit : db.swept versions space = seen ++ left) (k : Nat) :
    pageAfter versions (versions.filter (db.reindexes space)) k (seen.getLast?.map (·.id)) =
      left.take k := by
  have hids : ((versions.filter (db.reindexes space)).map (·.id)).Nodup :=
    h.sublist (List.filter_sublist.map _)
  have hkeys : ((versions.filter (db.reindexes space)).map VersionRow.key).Nodup := by
    refine List.Nodup.of_map (fun key => BitVec.ofNat 128 (ofLex key).2) ?_
    have hid : (fun key : Timestamp ×ₗ Nat => BitVec.ofNat 128 (ofLex key).2) ∘ VersionRow.key =
        fun pv => pv.id := funext fun pv => by simp [VersionRow.key]
    rw [List.map_map, hid]
    exact hids
  have hpage := page_of_split hkeys hsplit k
  cases hlast : seen.getLast? with
  | none =>
      rw [hlast] at hpage
      exact hpage
  | some last =>
      have hmem : last ∈ versions := by
        have hswept : last ∈ db.swept versions space :=
          hsplit ▸ List.mem_append_left _ (List.mem_of_getLast? hlast)
        exact (List.mem_filter.1 (perm_swept.mem_iff.1 hswept)).1
      have hfind : versions.find? (fun pv => pv.id == last.id) = some last :=
        find?_eq_some_of_unique hmem (by simp) fun pv hpv hid =>
          eq_of_nodup_key h hpv hmem (by simpa using hid)
      rw [hlast] at hpage
      simp only [Option.map_some, pageAfter, hfind]
      exact hpage

/-- What is missing after the first movements of a list of versions were
given vectors. -/
theorem missingOf_take {ids : List Uuid} {n : Nat} (hids : ids.Nodup)
    (h : Filled d space db ((db.missingOf space ids).take n) db') :
    db'.missingOf space ids = (db.missingOf space ids).drop n := by
  rw [missingOf_filled h, List.map_take, ← List.map_take, filter_take_eq_drop (nodup_missingOf hids)]

/-- Filling leaves no more missing than before. -/
theorem length_missingOf_le (ids : List Uuid) {steps : List (ProcessStep F)}
    (h : Filled d space db steps db') :
    (db'.missingOf space ids).length ≤ (db.missingOf space ids).length := by
  rw [missingOf_filled h]
  exact List.length_filter_le _ _

/-- What is left of `xs ++ ys ++ zs` after the movements of `xs`, and maybe
some more: what is left of `ys`, then of `zs`. -/
theorem drop_missingOf {xs ys zs : List Uuid} {n : Nat} (hids : (xs ++ (ys ++ zs)).Nodup)
    (h : Filled d space db ((db.missingOf space (xs ++ (ys ++ zs))).take n) db')
    (hn : (db.missingOf space xs).length ≤ n) :
    (db.missingOf space (xs ++ (ys ++ zs))).drop n =
      db'.missingOf space ys ++ db'.missingOf space zs := by
  have hnone : db'.missingOf space xs = [] := by
    rw [missingOf_filled h, List.filter_eq_nil_iff]
    intro ps hps
    rw [Bool.not_eq_true, Bool.not_eq_false', List.contains_iff_mem, missingOf_append,
      List.take_append, List.take_of_length_le hn]
    exact List.mem_map_of_mem (List.mem_append_left _ hps)
  rw [← missingOf_take hids h, missingOf_append, missingOf_append, hnone, List.nil_append]

/-- Of the movements of `ys`, some more were given vectors. -/
theorem filled_more {xs ys zs : List Uuid} {n m : Nat} {db'' : Database F}
    (hids : (xs ++ (ys ++ zs)).Nodup)
    (h : Filled d space db ((db.missingOf space (xs ++ (ys ++ zs))).take n) db')
    (hn : (db.missingOf space xs).length ≤ n)
    (hmore : Filled d space db' ((db'.missingOf space ys).take m) db'') :
    Filled d space db ((db.missingOf space (xs ++ (ys ++ zs))).take
      (n + min m (db'.missingOf space ys).length)) db'' := by
  rw [List.take_add, drop_missingOf hids h hn, List.take_append_of_le_length (min_le_right _ _),
    ← List.take_eq_take_min]
  exact h.trans hmore

/-- The batch that ends or raises after `seen`. -/
theorem sweepInvariant_next {s : State F} (h : (versions.map (·.id)).Nodup) (hlimit : 0 < limit)
    {sw : Sweep F} (hsw : SweepInvariant d versions space limit s sw) (answers : Answers F) :
    SweepInvariant d versions space limit s (sw.next d versions space limit answers) := by
  by_cases hfinished : sw.finished = true
  · rw [Sweep.next, if_pos hfinished]
    exact hsw
  obtain ⟨seen, left, n, hsplit, hvisited, hcounted, hpoint, hfilled, hle, hseen, hwritten⟩ :=
    hsw.progress
  rw [if_neg hfinished] at hpoint
  obtain ⟨hafter, hlength⟩ := hpoint
  have hswept : sw.state.db.swept versions space = seen ++ left := by
    unfold Database.swept Database.reindexes
    rw [hfilled.processes]
    exact hsplit
  have hpage := pageAfter_eq h hswept limit.toNat
  rw [← hafter] at hpage
  have hids : ((seen ++ left).map (·.id)).Nodup := hsplit ▸ nodup_swept h
  have hparts : (seen ++ left).map (·.id) = seen.map (·.id) ++
      ((left.take limit.toNat).map (·.id) ++ (left.drop limit.toNat).map (·.id)) := by
    rw [← List.map_append, List.take_append_drop, List.map_append]
  rw [hparts] at hids hfilled hle
  -- how much is missing of what was seen, of the batch and of the rest
  have hdrop := congrArg List.length (drop_missingOf hids hfilled hseen)
  rw [List.length_drop, List.length_append] at hdrop
  have htotal : (s.db.missingOf space (seen.map (·.id) ++
      ((left.take limit.toNat).map (·.id) ++ (left.drop limit.toNat).map (·.id)))).length =
      (s.db.missingOf space (seen.map (·.id))).length +
        ((s.db.missingOf space ((left.take limit.toNat).map (·.id))).length +
          (s.db.missingOf space ((left.drop limit.toNat).map (·.id))).length) := by
    rw [missingOf_append, missingOf_append, List.length_append, List.length_append]
  have hbatch := length_missingOf_le ((left.take limit.toNat).map (·.id)) hfilled
  have hrest := length_missingOf_le ((left.drop limit.toNat).map (·.id)) hfilled
  have hspec : Triple _ (reindexBatch d answers versions space limit sw.after false) _ _ :=
    reindexBatch_spec hlimit (List.nodup_append.1 (List.nodup_append.1 hids).2.1).1 hpage
  have hspec := hspec sw.state rfl
  rw [Sweep.next, if_neg hfinished]
  generalize (reindexBatch d answers versions space limit sw.after false).run.run sw.state = out
    at hspec ⊢
  obtain ⟨e | report, s'⟩ := out
  · -- it raised: the checkpoint stays
    obtain ⟨m, hmore⟩ := hspec
    refine ⟨seen, left, _, hsplit, hvisited, hcounted, ?_,
      hparts ▸ filled_more hids hfilled hseen hmore, ?_, ?_, fun h => (nomatch h)⟩
    · show if sw.finished = true then _ else _
      rw [if_neg hfinished]
      exact ⟨hafter, hlength⟩
    · rw [hparts]
      omega
    · omega
  · obtain ⟨hreport, hmore⟩ := hspec
    have hcount : report.embeddingsWritten = _ :=
      (congrArg _ hreport).trans (batchReport_embeddingsWritten _ _)
    have hnext : report.nextAfterVersionId = _ :=
      (congrArg _ hreport).trans (batchReport_nextAfterVersionId _ _ _)
    have hhas : report.hasMore = true ↔ ((left.take limit.toNat).length : Int) = limit := by
      rw [hreport]
      show ((((left.take limit.toNat).map _).length : Int) == limit) = true ↔ _
      rw [List.length_map, beq_iff_eq]
    rw [← List.take_length (l := sw.state.db.missingOf space _)] at hmore
    have hjoin : (seen ++ left.take limit.toNat) ++ left.drop limit.toNat = seen ++ left := by
      rw [List.append_assoc, List.take_append_drop]
    refine ⟨seen ++ left.take limit.toNat, left.drop limit.toNat, _, hjoin ▸ hsplit, ?_, ?_, ?_,
      hjoin ▸ hparts ▸ filled_more hids hfilled hseen hmore, ?_, ?_, fun hraised => ?_⟩
    · show sw.visited ++ _ = _
      rw [hvisited, hpage, List.map_append]
    · show sw.seen + report.versionsSeen = _
      rw [hcounted, hreport, batchReport_versionsSeen, List.length_map, List.length_append]
    · rw [List.length_take] at hhas
      show if (!report.hasMore) = true then _ else report.nextAfterVersionId = _ ∧
        _ = limit.toNat * (sw.ended + 1)
      cases hmore : report.hasMore with
      | false =>
          rw [hmore] at hhas
          have hshort : left.length ≤ limit.toNat := by
            by_contra hlong
            exact absurd (hhas.2 (by omega)) Bool.false_ne_true
          exact (if_pos rfl).mpr (List.drop_eq_nil_iff.2 hshort)
      | true =>
          have hfull := hhas.1 hmore
          rw [if_neg (by decide)]
          refine ⟨?_, ?_⟩
          · have hne : left.take limit.toNat ≠ [] := by
              rw [← List.length_pos_iff, List.length_take]
              omega
            rw [hnext, List.getLast?_map, List.getLast?_append_of_ne_nil _ hne]
          · rw [List.length_append, List.length_take, hlength, Nat.mul_succ]
            omega
    · rw [hjoin, hparts]
      omega
    · rw [List.map_append, missingOf_append, List.length_append]
      omega
    · obtain ⟨hsame, hn⟩ := hwritten hraised
      refine ⟨?_, ?_⟩
      · show sw.written + report.embeddingsWritten = _
        rw [hcount, hsame, min_self]
      · rw [List.map_append, missingOf_append, List.length_append]
        omega

/-- **Every sequence of batches**, by induction on it. -/
theorem sweep_invariant {s : State F} (h : (versions.map (·.id)).Nodup) (hlimit : 0 < limit)
    (tries : List (Answers F)) :
    SweepInvariant d versions space limit s (sweep d versions space limit s tries) := by
  have hfrom : ∀ sw, SweepInvariant d versions space limit s sw →
      SweepInvariant d versions space limit s (tries.foldl (Sweep.next d versions space limit) sw) := by
    induction tries with
    | nil => exact fun _ h => h
    | cons answers rest ih => exact fun sw hsw => ih _ (sweepInvariant_next h hlimit hsw answers)
  refine hfrom _ ⟨[], s.db.swept versions space, 0, rfl, rfl, rfl, ⟨rfl, rfl⟩, ?_, Nat.zero_le _,
    le_rfl, fun _ => ⟨rfl, rfl⟩⟩
  rw [List.take_zero]
  exact .refl d space s.db

/-- Up to its end, a sweep counts its batches. -/
theorem ended_add_raised (tries : List (Answers F)) (sw : Sweep F)
    (h : (tries.foldl (Sweep.next d versions space limit) sw).finished = false) :
    (tries.foldl (Sweep.next d versions space limit) sw).ended +
      (tries.foldl (Sweep.next d versions space limit) sw).raised =
        sw.ended + sw.raised + tries.length := by
  induction tries generalizing sw with
  | nil => rfl
  | cons answers rest ih =>
      have hstep : (sw.next d versions space limit answers).finished = true ∨
          (sw.next d versions space limit answers).ended +
            (sw.next d versions space limit answers).raised = sw.ended + sw.raised + 1 := by
        unfold Sweep.next
        split
        · exact .inl ‹_›
        · split
          · exact .inr (by simp only; omega)
          · exact .inr (by simp only; omega)
      have hstays : ∀ sw : Sweep F, sw.finished = true →
          (rest.foldl (Sweep.next d versions space limit) sw).finished = true := by
        intro sw hsw
        have hfixed : ∀ answers, sw.next d versions space limit answers = sw := fun answers => by
          rw [Sweep.next, if_pos hsw]
        rw [List.foldl_fixed' hfixed]
        exact hsw
      rw [List.foldl_cons] at h ⊢
      rcases hstep with hstep | hstep
      · exact absurd (hstays _ hstep) (by simp [h])
      · rw [ih _ h, hstep, List.length_cons]
        omega

end Invariant

/-! ## §4. Complete sweeps. -/

section Complete

variable (d : Deployment F) {versions : List VersionRow} (space : EmbeddingSpace) {limit : Int}

/-- **A sweep that has ended is complete**, whatever batches raised on the
way: each movement that was missing has one vector, in the order of the
versions, and none of the other vectors changed. -/
theorem sweep_completes (h : (versions.map (·.id)).Nodup) (hlimit : 0 < limit) (s : State F)
    (tries : List (Answers F))
    (hfinished : (sweep d versions space limit s tries).finished = true) :
    Filled d space s.db (s.db.missingOf space ((s.db.swept versions space).map (·.id)))
      (sweep d versions space limit s tries).state.db ∧
    (∀ pv ∈ versions, s.db.reindexes space pv = true →
      (sweep d versions space limit s tries).state.db.missingSteps space pv.id = []) ∧
    ((sweep d versions space limit s tries).raised = 0 →
      (sweep d versions space limit s tries).written =
        (s.db.missingOf space ((s.db.swept versions space).map (·.id))).length) := by
  have hinvariant : SweepInvariant d versions space limit s _ := sweep_invariant h hlimit tries
  obtain ⟨seen, left, n, hsplit, -, -, hleft, hfilled, hle, hseen, hwritten⟩ :=
    hinvariant.progress
  rw [if_pos hfinished] at hleft
  rw [hleft, List.append_nil] at hsplit hfilled hle
  obtain rfl := Nat.le_antisymm hle hseen
  rw [← hsplit] at hfilled hwritten
  rw [List.take_length] at hfilled
  refine ⟨hfilled, fun pv hpv hreindexes => ?_, fun hraised => (hwritten hraised).1⟩
  have hmem : pv.id ∈ (s.db.swept versions space).map (·.id) :=
    List.mem_map_of_mem (perm_swept.mem_iff.2 (List.mem_filter.2 ⟨hpv, hreindexes⟩))
  rw [missingSteps_filled hfilled, List.filter_eq_nil_iff]
  intro ps hps
  rw [Bool.not_eq_true, Bool.not_eq_false', List.contains_iff_mem]
  exact List.mem_map_of_mem (List.mem_flatMap.2 ⟨pv.id, hmem, hps⟩)

/-- **A sweep ends, and visits each version once**: of its batches, those that
did not raise have seen `limit` versions each; together they list the versions
in their order, none twice and none left out on the way, and all of them where
the sweep has ended. -/
theorem sweep_ends (h : (versions.map (·.id)).Nodup) (hlimit : 0 < limit) (s : State F)
    (tries : List (Answers F)) :
    ((s.db.swept versions space).length <
        limit.toNat * (tries.length - (sweep d versions space limit s tries).raised) →
      (sweep d versions space limit s tries).finished = true) ∧
    (sweep d versions space limit s tries).visited <+: (s.db.swept versions space).map (·.id) ∧
    (sweep d versions space limit s tries).visited.Nodup ∧
    (sweep d versions space limit s tries).seen =
      (sweep d versions space limit s tries).visited.length ∧
    ((sweep d versions space limit s tries).finished = true →
      (sweep d versions space limit s tries).visited =
        (s.db.swept versions space).map (·.id)) := by
  have hinvariant : SweepInvariant d versions space limit s _ := sweep_invariant h hlimit tries
  obtain ⟨seen, left, n, hsplit, hvisited, hcounted, hpoint, -⟩ := hinvariant.progress
  have hprefix : (sweep d versions space limit s tries).visited <+:
      (s.db.swept versions space).map (·.id) := by
    rw [hvisited, hsplit, List.map_append]
    exact List.prefix_append _ _
  refine ⟨fun hmany => ?_, hprefix, (nodup_swept h).sublist hprefix.sublist, ?_, fun hfinished => ?_⟩
  · by_contra hunfinished
    rw [if_neg hunfinished] at hpoint
    have hcount := ended_add_raised tries _ (Bool.not_eq_true _ ▸ hunfinished)
    have hended : tries.length - (sweep d versions space limit s tries).raised =
        (sweep d versions space limit s tries).ended := by
      unfold sweep
      simp only [Nat.zero_add] at hcount
      omega
    rw [hended, hsplit, List.length_append, hpoint.2] at hmany
    omega
  · rw [hcounted, hvisited, List.length_map]
  · rw [if_pos hfinished] at hpoint
    rw [hvisited, hsplit, hpoint, List.append_nil]

end Complete

/-! ## §5. Three versions. -/

/-- Three finalized versions of a public process, of one movement each, and a
version that is not finalized. -/
def reindexedVersions : List VersionRow :=
  [{ id := 4, processId := 1, createdAt := 30, finalized := true },
   { id := 2, processId := 1, createdAt := 10, finalized := true },
   { id := 3, processId := 1, createdAt := 10, finalized := true },
   { id := 5, processId := 1, createdAt := 20, finalized := false }]

def reindexedDatabase : Database Int where
  processes := [{ id := 1, code := "0000001-02.2024.8.26.0100", currentVersionId := some 4 }]
  versions := reindexedVersions.map VersionRow.toProcessVersion
  steps := [{ id := 6, versionId := 2, processId := 1, stepNumber := 1, text := "Distribuído" },
            { id := 7, versionId := 3, processId := 1, stepNumber := 1, text := "Conclusos" },
            { id := 8, versionId := 4, processId := 1, stepNumber := 1, text := "Sentença" }]
  processes_nodup := by decide
  versions_nodup := by decide
  steps_nodup := by decide

/-- Cohere answers, fails, and answers again. -/
def flakyAnswers : List (Answers Int) :=
  let answers := cohereDeployment.answering narrowSpace
  [answers,
    { answers with cohereEmbed := fun _ => .error { message := "HTTP 503", retryable := true } },
    answers]

/-- The sweep by two versions ends, and the three versions are filled. -/
theorem sweep_completes_reindexed :
    (sweep cohereDeployment reindexedVersions narrowSpace 2 { db := reindexedDatabase }
      flakyAnswers).raised = 1 ∧
    ∀ pv ∈ reindexedVersions, reindexedDatabase.reindexes narrowSpace pv = true →
      (sweep cohereDeployment reindexedVersions narrowSpace 2 { db := reindexedDatabase }
        flakyAnswers).state.db.missingSteps narrowSpace pv.id = [] := by
  have hids : (reindexedVersions.map (·.id)).Nodup := by decide
  have hfinished : (sweep cohereDeployment reindexedVersions narrowSpace 2
      { db := reindexedDatabase } flakyAnswers).finished = true := by decide +kernel
  obtain ⟨-, hnone, -⟩ :=
    sweep_completes cohereDeployment narrowSpace hids (by decide) _ flakyAnswers hfinished
  exact ⟨by decide +kernel, hnone⟩

/-- Two batches of the three have ended, and have visited the three versions
in the order of their creation. -/
theorem sweep_ends_reindexed :
    (sweep cohereDeployment reindexedVersions narrowSpace 2 { db := reindexedDatabase }
      flakyAnswers).finished = true ∧
    (sweep cohereDeployment reindexedVersions narrowSpace 2 { db := reindexedDatabase }
      flakyAnswers).visited = [2, 3, 4] := by
  have hids : (reindexedVersions.map (·.id)).Nodup := by decide
  have htwo : (0 : Int) < 2 := by decide
  obtain ⟨hends, -, -, -, hall⟩ :=
    sweep_ends cohereDeployment narrowSpace hids htwo { db := reindexedDatabase } flakyAnswers
  have hfinished := hends (by decide +kernel)
  exact ⟨hfinished, (hall hfinished).trans (by decide +kernel)⟩

end Rpy.Retrieval

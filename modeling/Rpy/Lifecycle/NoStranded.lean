/-
  Rpy.Lifecycle.NoStranded
  ────────────────────────
  **WHICH RUNS LEAVE NO PUBLIC REQUEST STRANDED.**

  A request that waits, and is linked to an acquisition, is backed by a job
  that can move it or by a completion callback that is still to come.  The
  invariant behind it is about acquisitions (`CoveredBut`): a job counts
  only while no coroutine that has already done its work can complete it.

  Six kinds of steps break it, and a run without them is safe:

    • a POST joins an acquisition that nothing moves any more,
    • an attachment job dies, which is mapped to no request,
    • a finalization or attachment run hands its requests to nothing,
      because the version is stale or the next job's key is taken,
    • a request id is recorded whose completion has come and gone,
    • a job goes back to a worker one of whose coroutines has done it,
    • a reconciliation ends the requests of an acquisition, and a POST has
      linked another one since its `SELECT` of their ids ran.

    • `NoStranded`, `KeepsBacking` — the property and the step condition,
    • `noStranded_along`           — a run that meets it is safe.
-/
import Rpy.Lifecycle.WellFormed

namespace Rpy.Lifecycle

open Rpy.Foundation Rpy.Queue

/-! ## §1. The property. -/

/-- A job of the acquisition, of its Judit request, or of the public
request's version. -/
def CanMove (r : PublicRequest) (a : Acquisition) (j : Job) : Prop :=
  Acquires a.id j ∨
    (∃ requestId ∈ a.juditRequestId,
      Finalizes requestId j ∨ Attaches requestId j ∨ Generates requestId j) ∨
    ∃ versionId ∈ r.versionId,
      Names "process_judit_attachments" "version_id" versionId j ∨
        Names "generate_process_summary" "version_id" versionId j

/-- The acquisition's completion callback has not been recorded. -/
def AwaitsCompletion (db : Database) (a : Acquisition) : Prop :=
  ∃ requestId ∈ a.juditRequestId, requestId ∉ db.completions

instance {r : PublicRequest} {a : Acquisition} {j : Job} : Decidable (CanMove r a j) := by
  unfold CanMove
  infer_instance

instance {db : Database} {a : Acquisition} : Decidable (AwaitsCompletion db a) := by
  unfold AwaitsCompletion
  infer_instance

/-- **No stranded public request.** -/
def NoStranded (s : Pipeline) : Prop :=
  ∀ r ∈ s.db.requests, r.waiting = true → ∀ id ∈ r.acquisition,
    ∃ a ∈ s.db.acquisitions.rows, a.id = id ∧
      (AwaitsCompletion s.db a ∨ ∃ j ∈ s.db.jobs.rows, j.active = true ∧ CanMove r a j)

instance {s : Pipeline} : Decidable (NoStranded s) := by
  unfold NoStranded
  infer_instance

/-! ## §2. The condition. -/

/-- No coroutine whose handler has committed can complete the job. -/
def Unspent (runs : List TaskRun) (j : Job) : Prop :=
  ∀ run ∈ runs, run.stage = .settled → ownedBy run.row.id run.worker j = false

instance {runs : List TaskRun} {j : Job} : Decidable (Unspent runs j) := by
  unfold Unspent
  infer_instance

/-- The job moves the requests of the Judit request, whatever happens to
it (a completed generation reconciles them). -/
def Pursues (runs : List TaskRun) (requestId : String) (j : Job) : Prop :=
  ((Finalizes requestId j ∨ Attaches requestId j) ∧ Unspent runs j) ∨ Generates requestId j

instance {runs : List TaskRun} {requestId : String} {j : Job} :
    Decidable (Pursues runs requestId j) := by
  unfold Pursues
  infer_instance

/-- The job moves the requests of the acquisition. -/
def Covers (runs : List TaskRun) (a : Acquisition) (j : Job) : Prop :=
  j.active = true ∧
    ((a.juditRequestId = none ∧ Acquires a.id j) ∨
      ∃ requestId ∈ a.juditRequestId, Pursues runs requestId j)

instance {runs : List TaskRun} {a : Acquisition} {j : Job} : Decidable (Covers runs a j) := by
  unfold Covers
  infer_instance

/-- The acquisition's requests are moved by a callback to come, or by a job
that is not lost. -/
def CoveredBut (lost : Job → Bool) (db : Database) (runs : List TaskRun) (a : Acquisition) :
    Prop :=
  AwaitsCompletion db a ∨ ∃ j ∈ db.jobs.rows, lost j = false ∧ Covers runs a j

instance {lost : Job → Bool} {db : Database} {runs : List TaskRun} {a : Acquisition} :
    Decidable (CoveredBut lost db runs a) := by
  unfold CoveredBut
  infer_instance

/-- The acquisition's requests are moved. -/
abbrev Covered (db : Database) (runs : List TaskRun) (a : Acquisition) : Prop :=
  CoveredBut (fun _ => false) db runs a

/-- An attachment job. -/
def isAttachments (j : Job) : Bool :=
  j.taskName == "process_judit_attachments"

/-- No attachment job dies whose requests wait for nothing else. -/
def SparesAttachments (kills : Job → Bool) (s : Pipeline) : Prop :=
  ∀ a ∈ s.db.acquisitions.rows, WaitingFor s.db.requests a.id →
    (∃ j ∈ s.db.jobs.rows, kills j = true ∧ ∃ requestId ∈ a.juditRequestId,
      Attaches requestId j) →
    CoveredBut (fun j => kills j && isAttachments j) s.db s.runs a

instance {kills : Job → Bool} {s : Pipeline} : Decidable (SparesAttachments kills s) := by
  unfold SparesAttachments
  infer_instance

/-- No job dies whose requests its reconciliation missed, unless they wait
for something that does not die. -/
def SparesMissed (kills : Job → Bool) (unseen : List Uuid) (s : Pipeline) : Prop :=
  ∀ a ∈ s.db.acquisitions.rows, Missed unseen s.db.requests a.id →
    (∃ j ∈ s.db.jobs.rows, kills j = true ∧ Settles j a) → CoveredBut kills s.db s.runs a

instance {kills : Job → Bool} {unseen : List Uuid} {s : Pipeline} :
    Decidable (SparesMissed kills unseen s) := by
  unfold SparesMissed
  infer_instance

/-- The requests that a reconciliation of the Judit request misses wait for
something other than the run's own job. -/
def CoversMissed (run : TaskRun) (requestId : String) (unseen : List Uuid) (s : Pipeline) : Prop :=
  ∀ a ∈ s.db.acquisitions.rows, a.juditRequestId = some requestId →
    Missed unseen s.db.requests a.id → CoveredBut (ownedBy run.row.id run.worker) s.db s.runs a

instance {run : TaskRun} {requestId : String} {unseen : List Uuid} {s : Pipeline} :
    Decidable (CoversMissed run requestId unseen s) := by
  unfold CoversMissed
  infer_instance

/-- The run hands the requests of its Judit request to a new job, or they
wait for something other than the run's own job. -/
def HandsOver (run : TaskRun) (requestId : String) (next : Option NewJob) (s : Pipeline) : Prop :=
  (∀ new ∈ next, s.db.jobs.keyTaken new.idempotencyKey = true) →
    ∀ a ∈ s.db.acquisitions.rows, a.juditRequestId = some requestId →
      WaitingFor s.db.requests a.id → CoveredBut (ownedBy run.row.id run.worker) s.db s.runs a

instance {run : TaskRun} {requestId : String} {next : Option NewJob} {s : Pipeline} :
    Decidable (HandsOver run requestId next s) := by
  unfold HandsOver
  infer_instance

/-- The condition on a step of a task. -/
def TaskRun.KeepsBacking (run : TaskRun) (s : Pipeline) : TaskCall → Prop
  | .accepted requestId _ =>
      ∀ a ∈ s.db.acquisitions.rows, some a.id = run.about "tenant_request_id" →
        a.juditRequestId = none → WaitingFor s.db.requests a.id →
        requestId ∈ s.db.completions →
        ∃ j ∈ s.db.jobs.rows, j.active = true ∧ Pursues s.runs requestId j
  | .finalize reads _ =>
      ∀ requestId ∈ run.about "request_id",
        ∀ plan ∈ finalizePlan s.db.archive requestId reads,
          if plan.next.isSome then HandsOver run requestId plan.next s
          else CoversMissed run requestId reads.unlinked s
  | .attach _ =>
      ∀ requestId ∈ run.about "judit_request_id",
        ∀ next ∈ attachmentsNext s.db.archive run.row.payload, HandsOver run requestId next s
  | .complete _ generation =>
      run.row.taskName = "generate_process_summary" →
        ∀ requestId ∈ run.about "judit_request_id",
          CoversMissed run requestId generation.unseen s
  | .fail failure unseen =>
      SparesAttachments (failKills run.row.id run.worker failure) s ∧
        SparesMissed (failKills run.row.id run.worker failure) unseen s
  | _ => True

instance {run : TaskRun} {s : Pipeline} {c : TaskCall} : Decidable (run.KeepsBacking s c) :=
  match c with
  | .fetch .. | .send | .accepted .. | .rejected .. | .finalize .. | .attach .. | .start ..
  | .heartbeat | .complete .. | .fail .. => by unfold TaskRun.KeepsBacking; infer_instance

/-- The condition on a step. -/
def KeepsBacking (s : Pipeline) : Event → Prop
  | .request tenantId code publicId _ _ _ =>
      ∀ a ∈ s.db.acquisitions.find? tenantId code, a.retryable = false →
        (∃ r ∈ s.db.requests, some r.id = publicId ∧ r.acquisition = none ∧ r.waiting = true) →
        Covered s.db s.runs a
  | .claim worker _ _ _ pick =>
      ∀ run ∈ s.runs, run.stage = .settled → ¬ (run.worker = worker ∧ run.row.id = pick)
  | .call worker slot _ c =>
      ∀ run ∈ s.runs.find? (TaskRun.isAt worker slot), run.KeepsBacking s c
  | .reclaim timeoutSeconds now locked unseen =>
      SparesAttachments (reclaimKills timeoutSeconds now locked) s ∧
        SparesMissed (reclaimKills timeoutSeconds now locked) unseen s
  | _ => True

instance {s : Pipeline} {e : Event} : Decidable (KeepsBacking s e) :=
  match e with
  | .create .. | .request .. | .completed .. | .lawsuit .. | .claim .. | .call .. | .reclaim ..
  | .vanish .. | .expunge .. => by unfold KeepsBacking; infer_instance

/-! ## §3. The invariant. -/

/-- Well formed, and every acquisition somebody waits for is covered. -/
structure Tended (s : Pipeline) : Prop where
  wellFormed : WellFormed s
  covered : ∀ a ∈ s.db.acquisitions.rows, WaitingFor s.db.requests a.id → Covered s.db s.runs a

theorem tended_init : Tended {} :=
  ⟨wellFormed_init, fun _ ha => nomatch ha⟩

/-- **A tended state strands nobody.** -/
theorem Tended.noStranded {s : Pipeline} (h : Tended s) : NoStranded s := by
  intro r hr hwaiting id hlink
  obtain ⟨a, ha, rfl⟩ := h.wellFormed.linked r hr id hlink
  refine ⟨a, ha, rfl, ?_⟩
  rcases h.covered a ha ⟨r, hr, hwaiting, hlink⟩ with hawaits | ⟨j, hj, -, hactive, hcovers⟩
  · exact .inl hawaits
  · refine .inr ⟨j, hj, hactive, ?_⟩
    rcases hcovers with ⟨-, hacquires⟩ | ⟨requestId, hrequest, hpursues⟩
    · exact .inl hacquires
    · refine .inr (.inl ⟨requestId, hrequest, ?_⟩)
      rcases hpursues with ⟨hfinalizes | hattaches, -⟩ | hgenerates
      · exact .inl hfinalizes
      · exact .inr (.inl hattaches)
      · exact .inr (.inr hgenerates)

section Cover

variable {runs runs' : List TaskRun} {a a' : Acquisition} {j j' : Job} {requestId : String}

/-- A job whose handler hands requests over in its own transaction. -/
def HandsRequests (j : Job) : Prop :=
  j.taskName = "finalize_judit_request" ∨ j.taskName = "process_judit_attachments"

theorem Pursues.survives (h : Pursues runs requestId j) (hsame : j.SameJob j')
    (hunspent : HandsRequests j → Unspent runs j → Unspent runs' j') :
    Pursues runs' requestId j' := by
  rcases h with ⟨hnames, hj⟩ | hgenerates
  · exact .inl ⟨hnames.imp (·.of_sameJob hsame) (·.of_sameJob hsame),
      hunspent (hnames.imp And.left And.left) hj⟩
  · exact .inr (hgenerates.of_sameJob hsame)

theorem Covers.survives (h : Covers runs a j) (hid : a'.id = a.id)
    (hrequest : a'.juditRequestId = a.juditRequestId) (hsame : j.SameJob j')
    (hactive : j'.active = true)
    (hunspent : HandsRequests j → Unspent runs j → Unspent runs' j') : Covers runs' a' j' := by
  refine ⟨hactive, ?_⟩
  rw [hid, hrequest]
  rcases h.2 with ⟨hnone, hacquires⟩ | ⟨requestId, hmem, hpursues⟩
  · exact .inl ⟨hnone, hacquires.of_sameJob hsame⟩
  · exact .inr ⟨requestId, hmem, hpursues.survives hsame hunspent⟩

/-- A job nobody new owns stays unspent. -/
theorem Unspent.survives (h : Unspent runs j) (hs : j.Survives j') : Unspent runs j' := by
  intro run hrun hstage
  by_contra hown
  exact absurd (hs.owned _ _ (eq_true_of_ne_false hown)) (by rw [h run hrun hstage]; simp)

/-- A run that moves on, but not to settled on the job, leaves it unspent. -/
theorem Unspent.moveRun {run : TaskRun} {stage : Option Stage} (h : Unspent runs j)
    (hother : stage = some .settled → ownedBy run.row.id run.worker j = false) :
    Unspent (moveRun runs run stage) j := by
  intro d hd hstage
  rcases mem_moveRun hd with hd | ⟨next, rfl, rfl⟩
  · exact h d hd hstage
  · exact hother (congrArg some hstage)

/-- A new row is unspent. -/
theorem unspent_row {new : NewJob} {id : Uuid} {now : Timestamp} : Unspent runs (new.row id now) :=
  fun _ _ _ => ownedBy_row

end Cover

/-- **A cover stays when its job survives.** -/
theorem CoveredBut.transport {db db' : Database} {runs runs' : List TaskRun}
    {a a' : Acquisition} {lost : Job → Bool} (h : CoveredBut lost db runs a) (hid : a'.id = a.id)
    (hrequest : a'.juditRequestId = a.juditRequestId)
    (hcompletions : db'.completions ⊆ db.completions)
    (hjobs : ∀ j ∈ db.jobs.rows, lost j = false → Covers runs a j →
      ∃ j' ∈ db'.jobs.rows, j.SameJob j' ∧ j'.active = true ∧
        (HandsRequests j → Unspent runs j → Unspent runs' j')) : Covered db' runs' a' := by
  rcases h with ⟨requestId, hmem, hawaits⟩ | ⟨j, hj, hlost, hcovers⟩
  · exact .inl ⟨requestId, hrequest ▸ hmem, fun hmem' => hawaits (hcompletions hmem')⟩
  · obtain ⟨j', hj', hsame, hactive, hunspent⟩ := hjobs j hj hlost hcovers
    exact .inr ⟨j', hj', rfl, hcovers.survives hid hrequest hsame hactive hunspent⟩

/-- Something covers that is not lost, or a lost job does. -/
theorem CoveredBut.split {db : Database} {runs : List TaskRun} {a : Acquisition}
    (h : Covered db runs a) (lost : Job → Bool) :
    CoveredBut lost db runs a ∨ ∃ j ∈ db.jobs.rows, lost j = true ∧ Covers runs a j := by
  rcases h with hawaits | ⟨j, hj, -, hcovers⟩
  · exact .inl (.inl hawaits)
  · cases hlost : lost j with
    | false => exact .inl (.inr ⟨j, hj, hlost, hcovers⟩)
    | true => exact .inr ⟨j, hj, hlost, hcovers⟩

/-- A cover stays when only jobs were added. -/
theorem CoveredBut.grow {db db' : Database} {runs runs' : List TaskRun} {a : Acquisition}
    (h : Covered db runs a) (hcompletions : db'.completions ⊆ db.completions)
    (hjobs : ∀ j ∈ db.jobs.rows, j ∈ db'.jobs.rows)
    (hruns : ∀ j, Unspent runs j → Unspent runs' j) : Covered db' runs' a :=
  h.transport rfl rfl hcompletions fun j hj _ hcovers =>
    ⟨j, hjobs j hj, .refl j, hcovers.1, fun _ => hruns j⟩

/-! ## §4. The API's transactions. -/

section Api

variable {s : Pipeline} {jobId : Uuid} {now : Timestamp}

/-- A new job, under a free key, covers. -/
theorem covered_of_insertNew {db' : Database} {runs : List TaskRun} {a : Acquisition}
    {new : NewJob} (hjobs : db'.jobs = (s.db.jobs.insertNew new jobId now).2)
    (hfree : s.db.jobs.keyTaken new.idempotencyKey = false)
    (hfresh : jobId ∉ s.db.jobs.rows.map Job.id)
    (hcovers : Covers runs a (new.row jobId now)) : Covered db' runs a :=
  .inr ⟨_, by rw [hjobs]; exact JobTable.row_mem_insertNew hfree hfresh, rfl, hcovers⟩

/-- Who waits after a link: somebody who did, or the request it linked. -/
theorem waitingFor_of_linking {requests requests' : List PublicRequest} {publicId : Option Uuid}
    {acquisition id : String} (h : Linking requests publicId acquisition requests')
    (hw : WaitingFor requests' id) :
    WaitingFor requests id ∨ (id = acquisition ∧ ∃ r ∈ requests, some r.id = publicId ∧
      r.acquisition = none ∧ r.waiting = true) := by
  obtain ⟨r, hr, hwaiting, hlink⟩ := hw
  rcases h r hr with ⟨r₀, hr₀, hsame, hback⟩ | ⟨r₀, hr₀, hid, hnone, hnew, hback⟩
  · exact .inl ⟨r₀, hr₀, hback hwaiting, hsame ▸ hlink⟩
  · exact .inr ⟨Option.some.inj (hlink.symm.trans hnew), r₀, hr₀, hid, hnone, hback hwaiting⟩

/-- A created request waits for no acquisition. -/
theorem waitingFor_of_createOrGet {requests : List PublicRequest} {new : PublicRequest}
    {id : String} (hnew : new.acquisition = none) (hw : WaitingFor (createOrGet new requests) id) :
    WaitingFor requests id := by
  obtain ⟨r, hr, hwaiting, hlink⟩ := hw
  rcases mem_createOrGet hr with hr | rfl
  · exact ⟨r, hr, hwaiting, hlink⟩
  · rw [hnew] at hlink
    cases hlink

/-- **`request_process` keeps every acquisition covered**, if what it joins
is. -/
theorem Tended.request {db' : Database} {tenantId : Uuid} {code : String}
    {publicId : Option Uuid} {rowId : String} {result : ProcessRequestResult} (h : Tended s)
    (hok : KeepsBacking s (.request tenantId code publicId rowId jobId now))
    (hs : requestProcess s.db tenantId code publicId rowId jobId now = some (result, db')) :
    ∀ a ∈ db'.acquisitions.rows, WaitingFor db'.requests a.id → Covered db' s.runs a := by
  have hwf := h.wellFormed
  rcases requestProcess_cases hs with ⟨a, requests', hfind, hretryable, hlinking, hfresh, rfl⟩ |
    ⟨a, requests', hfind, hretryable, hlinking, rfl⟩ |
    ⟨acquisitions, requests', hfind, hinsert, hlinking, hfresh, rfl⟩
  · have ha := (AcquisitionTable.find?_eq_some hfind).1
    -- A failed acquisition is tried again, under a job of its own.
    have hnone : a.juditRequestId = none := by
      refine hwf.failed a ha ?_
      unfold Acquisition.retryable at hretryable
      simp only [Bool.and_eq_true, beq_iff_eq] at hretryable
      rw [hretryable.1]
      decide
    have hfree := hwf.attempt_free (n := a.attemptNumber + 1) fun b hb hid => by
      rw [AcquisitionTable.eq_of_id hb ha hid]
      exact Nat.lt_succ_self _
    intro b' hb' hw
    rcases mem_updateWhere.1 hb' with ⟨b, hb, hp, rfl⟩ | ⟨hb, hp⟩
    · -- the row that is retried has its new job
      obtain rfl : b = a := AcquisitionTable.eq_of_id hb ha (by simpa using hp)
      refine covered_of_insertNew rfl hfree hfresh ⟨rfl, .inl ?_⟩
      split <;> exact ⟨hnone, acquires_requestJob⟩
    · rcases waitingFor_of_linking hlinking hw with hw | ⟨hid, -⟩
      · exact (h.covered b' hb hw).grow (List.Subset.refl _)
          (fun _ hj => JobTable.mem_insertNew_of_mem hj) fun _ hj => hj
      · simp [hid] at hp
  · intro b hb hw
    rcases waitingFor_of_linking hlinking hw with hw | ⟨hid, hnew⟩
    · exact (h.covered b hb hw).grow (List.Subset.refl _) (fun _ hj => hj) fun _ hj => hj
    · obtain rfl := AcquisitionTable.eq_of_id hb (AcquisitionTable.find?_eq_some hfind).1 hid
      -- The request joins an open acquisition: `hok` says that it is covered.
      exact (hok b hfind hretryable hnew).grow (List.Subset.refl _) (fun _ hj => hj)
        fun _ hj => hj
  -- A new acquisition comes with its job, and nobody else waits for it.
  · obtain ⟨hrows, hid⟩ := AcquisitionTable.insert_eq_some hinsert
    have hfree := hwf.attempt_free (n := 1) fun b hb hsame =>
      absurd (List.mem_map.2 ⟨b, hb, hsame⟩) hid
    intro b hb hw
    rw [hrows] at hb
    rcases List.mem_append.1 hb with hb | hb
    · rcases waitingFor_of_linking hlinking hw with hw | ⟨hsame, -⟩
      · exact (h.covered b hb hw).grow (List.Subset.refl _)
          (fun _ hj => JobTable.mem_insertNew_of_mem hj) fun _ hj => hj
      · exact absurd (List.mem_map.2 ⟨b, hb, hsame⟩) hid
    · obtain rfl := List.mem_singleton.1 hb
      exact covered_of_insertNew rfl hfree hfresh ⟨rfl, .inl ⟨rfl, acquires_requestJob⟩⟩

/-- **A completion has its finalization**, or had it before. -/
theorem Tended.completed {db' : Database} {requestId : String} (h : Tended s)
    (hs : s.db.complete requestId jobId now = some db') :
    ∀ a ∈ db'.acquisitions.rows, WaitingFor db'.requests a.id → Covered db' s.runs a := by
  obtain ⟨hfresh, rfl⟩ := Database.complete_eq_some hs
  intro a ha hw
  have hcovered : Covered s.db s.runs a := h.covered a ha hw
  by_cases hold : requestId ∈ s.db.completions
  · refine hcovered.grow ?_ (fun _ hj => JobTable.mem_insertNew_of_mem hj) fun _ hj => hj
    show (if requestId ∈ s.db.completions then s.db.completions
      else s.db.completions ++ [requestId]) ⊆ s.db.completions
    rw [if_pos hold]
    exact List.Subset.refl _
  · by_cases hrequest : a.juditRequestId = some requestId
    · exact covered_of_insertNew rfl (h.wellFormed.finalize_free hold) hfresh
        ⟨rfl, .inr ⟨requestId, hrequest, .inl ⟨.inl finalizes_finalizeJob, unspent_row⟩⟩⟩
    · rcases hcovered with ⟨requestId', hmem, hawaits⟩ | ⟨j, hj, -, hcovers⟩
      · refine .inl ⟨requestId', hmem, ?_⟩
        show requestId' ∉ (if _ then _ else _)
        rw [if_neg hold, List.mem_append, not_or]
        refine ⟨hawaits, fun hsame => hrequest ?_⟩
        rw [← List.mem_singleton.1 hsame]
        exact hmem
      · exact .inr ⟨j, JobTable.mem_insertNew_of_mem hj, rfl, hcovers⟩

theorem Tended.lawsuit {db' : Database} {e : LawsuitResponse} {reads : LawsuitReads}
    {newProcess newVersion : String} (h : Tended s)
    (hs : s.db.lawsuit e reads newProcess newVersion jobId now = some db') :
    ∀ a ∈ db'.acquisitions.rows, WaitingFor db'.requests a.id → Covered db' s.runs a := by
  obtain ⟨archive, jobs, rfl, -, rfl | ⟨requestId, rfl⟩⟩ := Database.lawsuit_eq_some hs
  · exact fun a ha hw => (h.covered a ha hw).grow (List.Subset.refl _) (fun _ hj => hj)
      fun _ hj => hj
  · exact fun a ha hw => (h.covered a ha hw).grow (List.Subset.refl _)
      (fun _ hj => JobTable.mem_insertNew_of_mem hj) fun _ hj => hj

end Api

/-! ## §5. The workers. -/

section Workers

variable {s : Pipeline} {now : Timestamp}

/-- **A claim keeps covers**, if it does not go back to a worker that has
done the job. -/
theorem Tended.claim {worker pick : Uuid} {slot : Nat} {locked : List Uuid} {row : Job}
    {jobs : JobTable} (h : Tended s) (hok : KeepsBacking s (.claim worker slot now locked pick))
    (hclaim : Queue.claim s.db.jobs worker now locked pick = some (row, jobs)) :
    ∀ a ∈ s.db.acquisitions.rows, WaitingFor s.db.requests a.id →
      Covered { s.db with jobs := jobs }
        (s.runs ++ [{ worker := worker, slot := slot, row := row }]) a := by
  intro a ha hw
  refine (h.covered a ha hw).transport rfl rfl (List.Subset.refl _) fun j hj _ hcovers => ?_
  obtain ⟨j', hj', hsame, hactive, howned⟩ := claim_survives hclaim hj hcovers.1
  refine ⟨j', hj', hsame, hactive, fun _ hunspent run hrun hstage => ?_⟩
  rcases List.mem_append.1 hrun with hrun | hrun
  · by_contra hown
    rcases howned _ _ (eq_true_of_ne_false hown) with hown' | ⟨hworker, hid⟩
    · rw [hunspent run hrun hstage] at hown'
      cases hown'
    · exact hok run hrun hstage ⟨hworker, hid⟩
  · obtain rfl := List.mem_singleton.1 hrun
    cases hstage

/-- A cover settles the acquisition when it dies, or is an attachment job
of its Judit request. -/
theorem Covers.settles_or_attaches {runs : List TaskRun} {a : Acquisition} {j : Job}
    (h : Covers runs a j) :
    Settles j a ∨ ∃ requestId ∈ a.juditRequestId, Attaches requestId j := by
  rcases h.2 with ⟨-, hacquires⟩ | ⟨requestId, hmem, ⟨hfinalizes | hattaches, -⟩ | hgenerates⟩
  · exact .inl (.inl hacquires)
  · exact .inl (.inr ⟨requestId, hmem, .inl hfinalizes⟩)
  · exact .inr ⟨requestId, hmem, hattaches⟩
  · exact .inl (.inr ⟨requestId, hmem, .inr hgenerates⟩)

/-- **When jobs die, what they were about is settled, or covered by
others.** -/
theorem covered_of_kills {db' : Database} {runs : List TaskRun} {a a' : Acquisition}
    {kills : Job → Bool} {unseen : List Uuid} (h : Tended s)
    (hok : SparesAttachments kills s ∧ SparesMissed kills unseen s)
    (ha : a ∈ s.db.acquisitions.rows)
    (hw : WaitingFor s.db.requests a.id) (hid : a'.id = a.id)
    (hrequest : a'.juditRequestId = a.juditRequestId)
    (hcompletions : db'.completions ⊆ s.db.completions)
    (hlive : ∀ j ∈ s.db.jobs.rows, j.active = true → kills j = false →
      ∃ j' ∈ db'.jobs.rows, j.SameJob j' ∧ j'.active = true ∧
        (HandsRequests j → Unspent s.runs j → Unspent runs j'))
    (hdead : ∀ j ∈ s.db.jobs.rows, kills j = true → Settles j a →
      Missed unseen s.db.requests a.id) : Covered db' runs a' := by
  -- a cover that does not die survives
  have hsurvives : CoveredBut kills s.db s.runs a → Covered db' runs a' := fun hcovered =>
    hcovered.transport hid hrequest hcompletions fun j hj hkept hcovers =>
      hlive j hj hcovers.1 hkept
  by_cases hsettled : ∃ j ∈ s.db.jobs.rows, kills j = true ∧ Settles j a
  · -- whoever still waits was missed
    obtain ⟨j, hj, hkilled, hsettles⟩ := hsettled
    exact hsurvives (hok.2 a ha (hdead j hj hkilled hsettles) ⟨j, hj, hkilled, hsettles⟩)
  · rcases (h.covered a ha hw).split kills with hcovered | ⟨j, hj, hkilled, hcovers⟩
    · exact hsurvives hcovered
    · rcases hcovers.settles_or_attaches with hsettles | hattaches
      · exact absurd ⟨j, hj, hkilled, hsettles⟩ hsettled
      · -- only attachment jobs of the acquisition die
        rcases hok.1 a ha hw ⟨j, hj, hkilled, hattaches⟩ with hawaits |
          ⟨k, hk, hspared, hcovers'⟩
        · exact hsurvives (.inl hawaits)
        · refine hsurvives (.inr ⟨k, hk, ?_, hcovers'⟩)
          by_contra hdies
          have hdies : kills k = true := eq_true_of_ne_false hdies
          rcases hcovers'.settles_or_attaches with hsettles | ⟨requestId, -, hattaches'⟩
          · exact hsettled ⟨k, hk, hdies, hsettles⟩
          · simp [hdies, isAttachments, hattaches'.1] at hspared

theorem Settles.of_sameJob {j j' : Job} {a : Acquisition} (hsame : j.SameJob j')
    (h : Settles j a) : Settles j' a := by
  rcases h with hacquires | ⟨requestId, hmem, hfinalizes | hgenerates⟩
  · exact .inl (hacquires.of_sameJob hsame)
  · exact .inr ⟨requestId, hmem, .inl (hfinalizes.of_sameJob hsame)⟩
  · exact .inr ⟨requestId, hmem, .inr (hgenerates.of_sameJob hsame)⟩

/-- **A reclaim keeps covers**, if it spares the attachments and whoever it
misses. -/
theorem Tended.reclaim {db' : Database} {timeoutSeconds : Int} {locked unseen : List Uuid}
    (h : Tended s) (hok : KeepsBacking s (.reclaim timeoutSeconds now locked unseen))
    (hs : s.db.reclaim timeoutSeconds now locked unseen = some db') :
    ∀ a ∈ db'.acquisitions.rows, WaitingFor db'.requests a.id → Covered db' s.runs a := by
  unfold Database.reclaim at hs
  split at hs
  · cases hs
  · rename_i rows jobs hreclaim
    cases hs
    intro a ha hw
    have hwbefore : WaitingFor s.db.requests a.id := (advances_markAllDead _ _).waitingFor hw
    refine covered_of_kills h hok ha hwbefore rfl rfl (List.Subset.refl _) ?_ ?_
    · intro j hj hactive hkept
      obtain ⟨j', hj', hsurvives⟩ := reclaim_survives hreclaim hj hactive hkept
      exact ⟨j', hj', hsurvives.same, hsurvives.active,
        fun _ hunspent => hunspent.survives hsurvives⟩
    · intro j hj hkilled hsettles
      obtain ⟨j', hj', hsame, hdead⟩ := reclaim_returns_dead hreclaim hj hkilled
      exact markAllDead_settles ha (List.mem_filter.2 ⟨hj', by simp [hdead]⟩)
        (hsettles.of_sameJob hsame) hw

end Workers

/-! ## §6. The tasks. -/

section Tasks

variable {s : Pipeline} {db' : Database} {run : TaskRun} {now : Timestamp} {stage : Option Stage}

/-- A run of an acquisition spends no finalization or attachment job. -/
theorem WellFormed.unspent_of_acquisition (h : WellFormed s) (hrun : run ∈ s.runs)
    (htask : run.row.taskName = "request_judit_process") {j : Job} (hj : j ∈ s.db.jobs.rows)
    (hhands : HandsRequests j) (hunspent : Unspent s.runs j) :
    Unspent (moveRun s.runs run stage) j := by
  refine hunspent.moveRun fun _ => ?_
  by_contra hown
  have hsame := h.sameJob_of_owned hrun hj (eq_true_of_ne_false hown)
  have hname : j.taskName = "request_judit_process" := hsame.taskName.trans htask
  rcases hhands with hfinalize | hattach
  · exact absurd (hname.symm.trans hfinalize) (by decide)
  · exact absurd (hname.symm.trans hattach) (by decide)

/-- A step of an acquisition that leaves the jobs and the request ids. -/
theorem Tended.acquisition (h : Tended s) (hrun : run ∈ s.runs)
    (htask : run.row.taskName = "request_judit_process") (hjobs : db'.jobs = s.db.jobs)
    (hcompletions : db'.completions = s.db.completions)
    {a a' : Acquisition} (ha : a ∈ s.db.acquisitions.rows) (hid : a'.id = a.id)
    (hrequest : a'.juditRequestId = a.juditRequestId) (hw : WaitingFor s.db.requests a.id) :
    Covered db' (moveRun s.runs run stage) a' := by
  refine (h.covered a ha hw).transport hid hrequest (by rw [hcompletions]; exact List.Subset.refl _)
    fun j hj _ hcovers => ⟨j, by rw [hjobs]; exact hj, .refl j, hcovers.1, fun hhands => ?_⟩
  exact h.wellFormed.unspent_of_acquisition hrun htask hj hhands

theorem Tended.fetch {unseen : List Uuid} (h : Tended s) (hrun : run ∈ s.runs)
    (htask : run.row.taskName = "request_judit_process")
    (hs : run.fetch s.db now unseen = some (db', stage)) :
    ∀ a ∈ db'.acquisitions.rows, WaitingFor db'.requests a.id →
      Covered db' (moveRun s.runs run stage) a := by
  unfold TaskRun.fetch at hs
  split at hs
  · cases hs
    exact fun a ha hw => h.acquisition hrun htask rfl rfl ha rfl rfl hw
  · split at hs
    · cases hs
      exact fun a ha hw => h.acquisition hrun htask rfl rfl ha rfl rfl hw
    · cases hs
      exact fun a ha hw => h.acquisition hrun htask rfl rfl ha rfl rfl hw.of_transitionMany

/-- **Recording a request id keeps covers**, if its completion is to come
or something still works on it. -/
theorem Tended.accepted {requestId : String} {process : Option String} (h : Tended s)
    (hrun : run ∈ s.runs) (htask : run.row.taskName = "request_judit_process")
    (hok : run.KeepsBacking s (.accepted requestId process))
    (hs : run.accepted s.db requestId process = some (db', stage)) :
    ∀ a ∈ db'.acquisitions.rows, WaitingFor db'.requests a.id →
      Covered db' (moveRun s.runs run stage) a := by
  unfold TaskRun.accepted at hs
  split at hs
  · cases hs
  · rename_i id habout
    split at hs
    · cases hs
    · rename_i hne
      split at hs
      · cases hs
      · cases hs
        exact fun a ha hw => h.acquisition hrun htask rfl rfl ha rfl rfl hw
      · rename_i tenantId acquisitions hrecord
        -- The row that takes the provider's id: its completion is to come, or has come already
        -- and `hok` names the job that serves it.
        have hcovered : ∀ {db₁ : Database}, db₁.jobs = s.db.jobs →
            db₁.completions = s.db.completions → ∀ a ∈ acquisitions.rows,
            WaitingFor s.db.requests a.id →
            Covered db₁ (moveRun s.runs run (some .settled)) a := by
          intro db₁ hjobs hcompletions a ha hw
          rcases AcquisitionTable.record_eq_some hrecord with
            ⟨htenant, -, -⟩ | ⟨-, -, -, -, -, -, hrows⟩
          · cases htenant
          · rw [hrows] at ha
            rcases mem_updateWhere.1 ha with ⟨a₀, ha₀, hopen, rfl⟩ | ⟨ha, -⟩
            · obtain ⟨hid, hnone⟩ := Acquisition.isOpen_iff.1 hopen
              by_cases hdone : requestId ∈ s.db.completions
              · obtain ⟨j, hj, hactive, hpursues⟩ :=
                  hok a₀ ha₀ (by rw [hid, habout]) hnone hw hdone
                refine .inr ⟨j, by show j ∈ db₁.jobs.rows; rw [hjobs]; exact hj, rfl, hactive,
                  .inr ⟨requestId, rfl, hpursues.survives (.refl j) fun hhands => ?_⟩⟩
                exact h.wellFormed.unspent_of_acquisition hrun htask hj hhands
              · exact .inl ⟨requestId, rfl, by show requestId ∉ db₁.completions; rwa [hcompletions]⟩
            · exact h.acquisition hrun htask hjobs hcompletions ha rfl rfl hw
        split at hs
        · cases hs
          exact hcovered rfl rfl
        · split at hs
          · cases hs
            exact hcovered rfl rfl
          · cases hs

/-- A rejection ends the requests of its acquisition. -/
theorem Tended.rejected {retrySafe : Bool} {unseen : List Uuid} (h : Tended s)
    (hrun : run ∈ s.runs) (htask : run.row.taskName = "request_judit_process")
    (hs : run.rejected s.db retrySafe now unseen = some (db', stage)) :
    ∀ a ∈ db'.acquisitions.rows, WaitingFor db'.requests a.id →
      Covered db' (moveRun s.runs run stage) a := by
  unfold TaskRun.rejected at hs
  split at hs
  · cases hs
  · cases hs
    intro a' ha' hw
    have hwbefore := hw.of_transitionMany
    rcases mem_updateWhere.1 ha' with ⟨a, ha, -, rfl⟩ | ⟨ha, -⟩
    · exact h.acquisition hrun htask rfl rfl ha rfl rfl hwbefore
    · exact h.acquisition hrun htask rfl rfl ha rfl rfl hwbefore

/-- **A run that hands its requests over keeps covers.** -/
theorem Tended.handOver {requestId : String} {next : Option NewJob} {jobId : Uuid}
    {db₁ : Database} (h : Tended s) (hrun : run ∈ s.runs) (hhands : HandsRequests run.row)
    (habout : ∀ {j : Job} {requestId' : String}, run.row.SameJob j →
      (Finalizes requestId' j ∨ Attaches requestId' j) → requestId' = requestId)
    (hnext : ∀ new ∈ next, HandsOn requestId new)
    (hjobs : db₁.jobs = s.db.jobs) (hcompletions : db₁.completions = s.db.completions)
    (hacquisitions : db₁.acquisitions = s.db.acquisitions)
    (hadvances : Advances s.db.requests db₁.requests)
    (hok : ∀ a ∈ s.db.acquisitions.rows, a.juditRequestId = some requestId →
      WaitingFor db₁.requests a.id →
      (∀ new ∈ next, s.db.jobs.keyTaken new.idempotencyKey = true) →
      CoveredBut (ownedBy run.row.id run.worker) s.db s.runs a)
    (hs : db₁.enqueueNext next jobId now = some db') :
    ∀ a ∈ db'.acquisitions.rows, WaitingFor db'.requests a.id →
      Covered db' (moveRun s.runs run (some .settled)) a := by
  -- an enqueue is all that happens to the database after `db₁`
  have hdb : db'.acquisitions = db₁.acquisitions ∧ db'.requests = db₁.requests ∧
      db'.completions = db₁.completions ∧ (∀ j ∈ db₁.jobs.rows, j ∈ db'.jobs.rows) := by
    rcases Database.enqueueNext_eq_some hs with ⟨-, rfl⟩ | ⟨new, -, -, rfl⟩
    · exact ⟨rfl, rfl, rfl, fun _ hj => hj⟩
    · exact ⟨rfl, rfl, rfl, fun _ hj => JobTable.mem_insertNew_of_mem hj⟩
  obtain ⟨hacq, hreq, hcompl, hgrow⟩ := hdb
  -- a cover that the run's own job is not part of stays
  have hkept : ∀ {a : Acquisition}, CoveredBut (ownedBy run.row.id run.worker) s.db s.runs a →
      Covered db' (moveRun s.runs run (some .settled)) a := by
    intro a hcovered
    refine hcovered.transport rfl rfl ?_ fun j hj hother hcovers => ?_
    · show db'.completions ⊆ s.db.completions
      rw [hcompl, hcompletions]
      exact List.Subset.refl _
    · exact ⟨j, hgrow j (by rw [hjobs]; exact hj), .refl j, hcovers.1,
        fun _ hunspent => hunspent.moveRun fun _ => hother⟩
  intro a ha hw
  rw [hacq, hacquisitions] at ha
  rw [hreq] at hw
  have hwbefore := hadvances.waitingFor hw
  by_cases hrequest : a.juditRequestId = some requestId
  · by_cases htaken : ∀ new ∈ next, s.db.jobs.keyTaken new.idempotencyKey = true
    · exact hkept (hok a ha hrequest hw htaken)
    · -- the next job is new
      rcases Database.enqueueNext_eq_some hs with ⟨rfl, -⟩ | ⟨new, rfl, hfresh, rfl⟩
      · exact absurd (fun _ hnew => (nomatch hnew)) htaken
      · have hfree : s.db.jobs.keyTaken new.idempotencyKey = false := by
          by_contra hnot
          refine htaken fun new' hnew' => ?_
          obtain rfl := Option.some.inj hnew'
          exact eq_true_of_ne_false hnot
        have hcovers : Pursues (moveRun s.runs run (some .settled)) requestId (new.row jobId now) :=
          ((hnext new rfl).about jobId now).imp
            (fun hattaches => ⟨.inr hattaches, unspent_row⟩) fun hgenerates => hgenerates
        rw [hjobs] at hfresh
        refine .inr ⟨new.row jobId now, ?_, rfl, rfl, .inr ⟨requestId, hrequest, hcovers⟩⟩
        show _ ∈ (db₁.jobs.insertNew new jobId now).2.rows
        rw [hjobs]
        exact JobTable.row_mem_insertNew hfree hfresh
  · -- another acquisition's cover is not the run's job
    rcases (h.covered a ha hwbefore).split (ownedBy run.row.id run.worker) with hcovered |
      ⟨j, hj, hown, hcovers⟩
    · exact hkept hcovered
    · exfalso
      have hsame := h.wellFormed.sameJob_of_owned hrun hj hown
      have htask : HandsRequests j := by
        unfold HandsRequests
        rw [hsame.taskName]
        exact hhands
      rcases hcovers.2 with ⟨-, hacquires⟩ | ⟨requestId', hmem, ⟨hnames, -⟩ | hgenerates⟩
      · rcases htask with htask | htask <;>
          exact absurd (hacquires.1.symm.trans htask) (by decide)
      · rw [habout hsame hnames] at hmem
        exact hrequest hmem
      · rcases htask with htask | htask <;>
          exact absurd (hgenerates.1.symm.trans htask) (by decide)

theorem Tended.finalize {reads : FinalizeReads} {requestId : String} {plan : FinalizePlan}
    {jobId : Uuid} (h : Tended s) (hrun : run ∈ s.runs)
    (htask : run.row.taskName = "finalize_judit_request")
    (habout : run.about "request_id" = some requestId)
    (hplan : finalizePlan s.db.archive requestId reads = some plan)
    (hok : run.KeepsBacking s (.finalize reads jobId))
    (hs : s.db.finalize reads.unlinked requestId plan jobId now = some db') :
    ∀ a ∈ db'.acquisitions.rows, WaitingFor db'.requests a.id →
      Covered db' (moveRun s.runs run (some .settled)) a := by
  obtain ⟨hnext, hend, -⟩ := finalizePlan_eq_some hplan
  unfold Database.finalize at hs
  refine h.handOver hrun (.inl htask) ?_ hnext ?_ ?_ ?_ ?_ ?_ hs
  · rintro j requestId' hsame (hfinalizes | hattaches)
    · have htext := (hfinalizes.to_sameJob hsame).2
      exact Option.some.inj (htext.symm.trans habout)
    · exact absurd ((hattaches.to_sameJob hsame).1.symm.trans htask) (by decide)
  · rfl
  · rfl
  · rfl
  · exact advances_transitionAll
  · intro a ha hrequest hw htaken
    have hmeets := hok requestId habout plan hplan
    cases hnone : plan.next with
    | none =>
        simp only [hnone, Option.isSome_none, Bool.false_eq_true, if_false] at hmeets
        exact hmeets a ha hrequest (transitionAll_settles ha hrequest (hend hnone) hw)
    | some new =>
        rw [if_pos (by rw [hnone]; rfl)] at hmeets
        exact hmeets htaken a ha hrequest (advances_transitionAll.waitingFor hw)

theorem Tended.attach {next : Option NewJob} {jobId : Uuid} (h : Tended s) (hrun : run ∈ s.runs)
    (htask : run.row.taskName = "process_judit_attachments")
    (hnext : attachmentsNext s.db.archive run.row.payload = some next)
    (hok : run.KeepsBacking s (.attach jobId))
    (hs : s.db.enqueueNext next jobId now = some db') :
    ∀ a ∈ db'.acquisitions.rows, WaitingFor db'.requests a.id →
      Covered db' (moveRun s.runs run (some .settled)) a := by
  obtain ⟨requestId, habout, hhands⟩ := attachmentsNext_eq_some hnext
  refine h.handOver hrun (.inr htask) ?_ hhands rfl rfl rfl (.refl _)
    (fun a ha hrequest hw htaken => hok requestId habout next hnext htaken a ha hrequest hw) hs
  rintro j requestId' hsame (hfinalizes | hattaches)
  · exact absurd ((hfinalizes.to_sameJob hsame).1.symm.trans htask) (by decide)
  · exact Option.some.inj ((hattaches.to_sameJob hsame).2.symm.trans habout)

/-- A heartbeat, at any stage. -/
theorem Tended.beat {requests : List PublicRequest} (h : Tended s) (hrun : run ∈ s.runs)
    (hadvances : Advances s.db.requests requests)
    (hstage : stage = some .settled → run.stage = .settled) :
    ∀ a ∈ s.db.acquisitions.rows, WaitingFor requests a.id →
      Covered { s.db with
        jobs := (heartbeat s.db.jobs run.row.id run.worker now).2
        requests := requests } (moveRun s.runs run stage) a := by
  intro a ha hw
  refine (h.covered a ha (hadvances.waitingFor hw)).transport rfl rfl (List.Subset.refl _)
    fun j hj _ hcovers => ?_
  obtain ⟨j', hj', hsurvives⟩ := heartbeat_survives hj hcovers.1
  refine ⟨j', hj', hsurvives.same, hsurvives.active, fun _ hunspent => ?_⟩
  refine (hunspent.survives hsurvives).moveRun fun hs => ?_
  exact hunspent.survives hsurvives run hrun (hstage hs)

theorem Tended.start {unseen : List Uuid} (h : Tended s) (hrun : run ∈ s.runs)
    (hs : run.start s.db now unseen = some (db', stage)) :
    ∀ a ∈ db'.acquisitions.rows, WaitingFor db'.requests a.id →
      Covered db' (moveRun s.runs run stage) a := by
  unfold TaskRun.start at hs
  split at hs <;> rename_i jobs heq <;> cases hs <;>
    obtain rfl : jobs = (heartbeat s.db.jobs run.row.id run.worker now).2 := by rw [heq]
  · exact h.beat hrun (advances_markJobStarted _ _) fun hs => nomatch hs
  · exact h.beat hrun (.refl _) fun hs => nomatch hs

/-- A job that its run can complete covers only as a generation. -/
theorem Tended.generates_of_completed (h : Tended s) (hrun : run ∈ s.runs)
    (hready : run.stage = .settled ∨
      (run.stage = .running ∧ run.row.taskName = "generate_process_summary"))
    {a : Acquisition} (ha : a ∈ s.db.acquisitions.rows) {j : Job} (hj : j ∈ s.db.jobs.rows)
    (hown : ownedBy run.row.id run.worker j = true) (hcovers : Covers s.runs a j) :
    ∃ requestId ∈ a.juditRequestId, Generates requestId run.row ∧
      (run.about "process_id").isSome = true ∧ (run.about "version_id").isSome = true := by
  have hsame := h.wellFormed.sameJob_of_owned hrun hj hown
  rcases hcovers.2 with ⟨hnone, hacquires⟩ | ⟨requestId, hmem, ⟨hnames, hunspent⟩ | hgenerates⟩
  · -- an acquisition that returned has left a request id
    have hrow := hacquires.to_sameJob hsame
    rcases hready with hsettled | ⟨-, htask⟩
    · exact absurd hnone (h.wellFormed.settled run hrun hsettled a ha hrow)
    · exact absurd (hrow.1.symm.trans htask) (by decide)
  · -- a settled run cannot complete an unspent job
    rcases hready with hsettled | ⟨-, htask⟩
    · rw [hunspent run hrun hsettled] at hown
      cases hown
    · rcases hnames with hnames | hnames <;>
        exact absurd ((hnames.to_sameJob hsame).1.symm.trans htask) (by decide)
  · have hrow := hgenerates.to_sameJob hsame
    obtain ⟨hprocess, hversion⟩ := (h.wellFormed.founded j hj).summary hgenerates.1
    rw [hsame.payload] at hprocess hversion
    exact ⟨requestId, hmem, hrow, hprocess, hversion⟩

/-- **A completion keeps covers**, if its reconciliation misses nobody who
waits for its own job alone. -/
theorem Tended.complete {result : Json} {g : GenerationReads} (h : Tended s) (hrun : run ∈ s.runs)
    (hready : run.stage = .settled ∨
      (run.stage = .running ∧ run.row.taskName = "generate_process_summary"))
    (hok : run.KeepsBacking s (.complete result g))
    (hs : run.complete s.db result g now = some (db', stage)) :
    ∀ a ∈ db'.acquisitions.rows, WaitingFor db'.requests a.id →
      Covered db' (moveRun s.runs run stage) a := by
  -- a cover that the completion does not end stays
  have hkept : ∀ {requests : List PublicRequest} {a : Acquisition},
      CoveredBut (ownedBy run.row.id run.worker) s.db s.runs a →
      Covered { s.db with
        jobs := (Queue.complete s.db.jobs run.row.id run.worker result now).2
        requests := requests } (moveRun s.runs run none) a := by
    intro requests a hcovered
    refine hcovered.transport rfl rfl (List.Subset.refl _) fun j hj hother hcovers => ?_
    exact ⟨j, complete_survives hj hother, .refl j, hcovers.1,
      fun _ hunspent => hunspent.moveRun fun hs => nomatch hs⟩
  unfold TaskRun.complete at hs
  split at hs
  · rename_i jobs heq
    obtain rfl : jobs = (Queue.complete s.db.jobs run.row.id run.worker result now).2 := by rw [heq]
    split at hs
    · rename_i htask
      cases hs
      intro a ha hw
      have hwbefore : WaitingFor s.db.requests a.id :=
        (advances_reconcileGenerationResult _ _).waitingFor hw
      rcases (h.covered a ha hwbefore).split (ownedBy run.row.id run.worker) with hcovered |
        ⟨j, hj, hown, hcovers⟩
      · exact hkept hcovered
      · -- the generation ends the requests it selects
        obtain ⟨requestId, hmem, hgenerates, hprocess, hversion⟩ :=
          h.generates_of_completed hrun hready ha hj hown hcovers
        exact hkept (hok htask requestId hgenerates.2 a ha hmem
          (reconcileGenerationResult_settles ha hmem hgenerates.2 hprocess hversion hw))
    · rename_i htask
      cases hs
      intro a ha hw
      rcases (h.covered a ha hw).split (ownedBy run.row.id run.worker) with hcovered |
        ⟨j, hj, hown, hcovers⟩
      · exact hkept hcovered
      · obtain ⟨requestId, hmem, hgenerates, -⟩ :=
          h.generates_of_completed hrun hready ha hj hown hcovers
        exact absurd hgenerates.1 htask
  · rename_i jobs heq
    obtain rfl : jobs = (Queue.complete s.db.jobs run.row.id run.worker result now).2 := by rw [heq]
    cases hs
    intro a ha hw
    rcases (h.covered a ha hw).split (ownedBy run.row.id run.worker) with hcovered |
      ⟨j, hj, hown, -⟩
    · exact hkept hcovered
    · have htrue : (Queue.complete s.db.jobs run.row.id run.worker result now).1 = true :=
        complete_eq_true hj hown
      rw [heq] at htrue
      cases htrue

/-- **A failure keeps covers**, if it spares the attachments and whoever it
misses. -/
theorem Tended.fail {failure : Failure} {unseen : List Uuid} (h : Tended s) (hrun : run ∈ s.runs)
    (hok : run.KeepsBacking s (.fail failure unseen))
    (hs : run.fail s.db failure now unseen = some (db', stage)) :
    ∀ a ∈ db'.acquisitions.rows, WaitingFor db'.requests a.id →
      Covered db' (moveRun s.runs run stage) a := by
  unfold TaskRun.fail at hs
  cases hs
  intro a ha hw
  have hadvances : Advances s.db.requests
      (if (Queue.fail s.db.jobs run.row.id run.worker failure now).1 = some .dead then
        markJobDead s.db.acquisitions unseen "job_failed" now run.row s.db.requests
      else s.db.requests) := by
    split
    · exact advances_markJobDead _ _
    · exact .refl _
  refine covered_of_kills h hok ha (hadvances.waitingFor hw) rfl rfl (List.Subset.refl _) ?_ ?_
  · intro j hj hactive hkept
    obtain ⟨j', hj', hsurvives⟩ := fail_survives hj hactive hkept
    exact ⟨j', hj', hsurvives.same, hsurvives.active, fun _ hunspent =>
      (hunspent.survives hsurvives).moveRun fun hs => nomatch hs⟩
  · intro j hj hkilled hsettles
    have hown : ownedBy run.row.id run.worker j = true := by
      unfold failKills at hkilled
      rw [Bool.and_eq_true] at hkilled
      exact hkilled.1
    have hsame := h.wellFormed.sameJob_of_owned hrun hj hown
    have hrow : Settles run.row a := hsettles.of_sameJob
      ⟨hsame.id.symm, hsame.taskName.symm, hsame.payload.symm, hsame.idempotencyKey.symm,
        hsame.maxAttempts.symm⟩
    have hdead : (Queue.fail s.db.jobs run.row.id run.worker failure now).1 = some .dead :=
      fail_eq_dead hj hkilled
    have hwdead : WaitingFor
        (if (Queue.fail s.db.jobs run.row.id run.worker failure now).1 = some .dead then
          markJobDead s.db.acquisitions unseen "job_failed" now run.row s.db.requests
        else s.db.requests) a.id := hw
    rw [if_pos hdead] at hwdead
    exact markJobDead_settles ha hrow hwdead

/-- **A step of a task that meets the condition keeps covers.** -/
theorem Tended.call {c : TaskCall} (h : Tended s) (hrun : run ∈ s.runs)
    (hok : run.KeepsBacking s c) (hs : run.call s.db now c = some (db', stage)) :
    ∀ a ∈ db'.acquisitions.rows, WaitingFor db'.requests a.id →
      Covered db' (moveRun s.runs run stage) a := by
  cases c with
  -- Each call has its own lemma; `hstage` says which task the run is about.
  | fetch unseen =>
      simp only [TaskRun.call] at hs
      split at hs
      · rename_i hstage
        exact h.fetch hrun hstage.2 hs
      · cases hs
  | send =>
      simp only [TaskRun.call] at hs
      split at hs
      · rename_i hstage
        cases hs
        exact fun a ha hw => h.acquisition hrun hstage.2 rfl rfl ha rfl rfl hw
      · cases hs
  | accepted requestId process =>
      simp only [TaskRun.call] at hs
      split at hs
      · rename_i hstage
        exact h.accepted hrun hstage.2 hok hs
      · cases hs
  | rejected retrySafe unseen =>
      simp only [TaskRun.call] at hs
      split at hs
      · rename_i hstage
        exact h.rejected hrun hstage.2 hs
      · cases hs
  | finalize reads jobId =>
      simp only [TaskRun.call] at hs
      split at hs
      · rename_i hstage
        split at hs
        · cases hs
        · rename_i requestId habout
          split at hs
          · cases hs
          · rename_i plan hplan
            obtain ⟨db₁, hfinalize, hpure⟩ := Option.map_eq_some_iff.1 hs
            cases hpure
            exact h.finalize hrun hstage.2 habout hplan hok hfinalize
      · cases hs
  | attach jobId =>
      simp only [TaskRun.call] at hs
      split at hs
      · rename_i hstage
        split at hs
        · cases hs
        · rename_i next hnext
          obtain ⟨db₁, henqueue, hpure⟩ := Option.map_eq_some_iff.1 hs
          cases hpure
          exact h.attach hrun hstage.2 hnext hok henqueue
      · cases hs
  | start unseen =>
      simp only [TaskRun.call] at hs
      split at hs
      · exact h.start hrun hs
      · cases hs
  | heartbeat =>
      simp only [TaskRun.call] at hs
      cases hs
      exact h.beat hrun (.refl _) Option.some.inj
  | complete result g =>
      simp only [TaskRun.call] at hs
      split at hs
      · rename_i hready
        exact h.complete hrun hready hok hs
      · cases hs
  | fail failure unseen => exact h.fail hrun hok hs

end Tasks

/-! ## §7. Every run. -/

/-- **A step that meets the condition keeps a state tended.** -/
theorem Tended.step {s s' : Pipeline} {e : Event} (h : Tended s) (hok : KeepsBacking s e)
    (hs : s.step e = some s') : Tended s' := by
  refine ⟨h.wellFormed.step hs, ?_⟩
  cases e with
  | create id tenantId code idempotencyKey fingerprint format =>
      simp only [Pipeline.step] at hs
      split at hs
      · cases hs
      · cases hs
        exact fun a ha hw => h.covered a ha (waitingFor_of_createOrGet rfl hw)
  | request tenantId code publicId rowId jobId now =>
      obtain ⟨⟨result, db'⟩, hrequest, rfl⟩ := Option.map_eq_some_iff.1 hs
      exact h.request hok hrequest
  | completed requestId jobId now =>
      simp only [Pipeline.step] at hs
      split at hs
      · cases hs
      · obtain ⟨db', hcomplete, rfl⟩ := Option.map_eq_some_iff.1 hs
        exact h.completed hcomplete
  | lawsuit response reads newProcess newVersion jobId now =>
      obtain ⟨db', hlawsuit, rfl⟩ := Option.map_eq_some_iff.1 hs
      exact h.lawsuit hlawsuit
  | claim worker slot now locked pick =>
      simp only [Pipeline.step] at hs
      split at hs
      · cases hs
      · split at hs
        · cases hs
        · rename_i row jobs hclaim
          cases hs
          exact h.claim hok hclaim
  | call worker slot now c =>
      simp only [Pipeline.step] at hs
      split at hs
      · cases hs
      · rename_i run hfind
        split at hs
        · cases hs
        · rename_i db' stage hcall
          cases hs
          exact h.call (List.mem_of_find?_eq_some hfind) (hok run hfind) hcall
  | reclaim timeoutSeconds now locked unseen =>
      obtain ⟨db', hreclaim, rfl⟩ := Option.map_eq_some_iff.1 hs
      exact h.reclaim hok hreclaim
  | vanish worker slot =>
      simp only [Pipeline.step] at hs
      split at hs
      · cases hs
      · rename_i run hfind
        cases hs
        exact fun a ha hw => (h.covered a ha hw).grow (List.Subset.refl _) (fun _ hj => hj)
          fun j hunspent => show Unspent (moveRun s.runs run none) j from
            hunspent.moveRun fun hstage => by cases hstage
  | expunge doomed =>
      cases hs
      intro a ha hw
      -- the expunge forgets versions, not links or statuses
      obtain ⟨r, hr, hwaiting, hlink⟩ := hw
      obtain ⟨r₀, hr₀, rfl⟩ := List.mem_map.1 hr
      exact h.covered a ha ⟨r₀, hr₀, hwaiting, hlink⟩

/-- Two POSTs share an acquisition; its attachments are read, and its
summary is generated. -/
def safeRun : List Event :=
  post 5 "key-1" 10 ++ post 6 "key-2" 11 ++ acquire 10 12 ++
    runTask 12 [.finalize { attachments := true } 13] ++ runTask 13 [.attach 14] ++
    runTask 14 [.start]

/-- `PermanentTaskError("process instance is required for attachment
download")`. -/
def noInstance : Failure where
  attempts := 1
  error := "PermanentTaskError: process instance is required for attachment download"
  permanent := true
  clock := 0
  stamp := "1970-01-01T00:00:00+00:00"

/-- The attachment job of the only request dies. -/
def strandingRun : List Event :=
  post 5 "key-1" 10 ++ acquire 10 12 ++ runTask 12 [.finalize { attachments := true } 13] ++
    [.claim 9 0 0 [] 13, .call 9 0 0 (.fail noInstance)]

theorem strandingRun_stranded :
    ∃ s ∈ run Pipeline.step {} strandingRun, ¬ NoStranded s := by
  decide +kernel

/-- A POST joins the acquisition while its summary is generated, and commits
after the completion has read which requests it ends. -/
def overtakenRun : List Event :=
  post 5 "key-1" 10 ++ acquire 10 12 ++ runTask 12 [.finalize {} 14] ++
    [.claim 9 0 0 [] 14, .call 9 0 0 .start] ++ post 6 "key-2" 20 ++
    [.call 9 0 0 (.complete (.obj []) { unseen := [6] })]

/-- So does a POST that a reconciliation overtakes. -/
example : ∃ s ∈ run Pipeline.step {} overtakenRun, ¬ NoStranded s := by
  decide +kernel

/-- So does a POST for a lawsuit whose pipeline has ended. -/
example : ∃ s ∈ run Pipeline.step {} (safeRun ++ post 7 "key-3" 20), ¬ NoStranded s := by
  decide +kernel

end Rpy.Lifecycle

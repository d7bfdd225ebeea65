/-
  Rpy.Lifecycle.NoDeadCnj
  ───────────────────────
  **WHICH RUNS LEAVE A TENANT ABLE TO FETCH A LAWSUIT AGAIN.**

  `request_process` starts work only for a missing row, or one that failed
  retryably below the attempt bound.  A row in any other state needs an
  excuse (`AliveBut`): work that is outstanding, an outcome nobody knows,
  or a process with a current version that the tenant may read.  A row that
  loses its last excuse can never be fetched again.

  Four kinds of steps take the last excuse away, and a run without them is
  safe:

    • the last request or finalize job of the acquisition ends,
    • a create call is rejected at the last attempt, though retry safe,
    • a create call is answered when its completion has come and gone, or
      when its row has another request id,
    • the scheduler expunges the process.

    • `NoDeadCnj`, `KeepsAlive` — the property and the step condition,
    • `noDeadCnj_along`        — a run that meets it is safe.
-/
import Rpy.Lifecycle.WellFormed

namespace Rpy.Lifecycle

open Rpy.Foundation Rpy.Queue

/-! ## §1. The property. -/

/-- A request job of the row, or a finalize job of its Judit request. -/
def Fetches (a : Acquisition) (j : Job) : Prop :=
  Acquires a.id j ∨ ∃ requestId ∈ a.juditRequestId, Finalizes requestId j

instance {a : Acquisition} {j : Job} : Decidable (Fetches a j) := by
  unfold Fetches
  infer_instance

/-- The work on the acquisition that is outstanding, besides the jobs that
are lost. -/
def WorkingBut (lost : Job → Bool) (db : Database) (a : Acquisition) : Prop :=
  (∃ j ∈ db.jobs.rows, lost j = false ∧ j.active = true ∧ Fetches a j) ∨
    ∃ requestId ∈ a.juditRequestId, requestId ∉ db.completions

instance {lost : Job → Bool} {db : Database} {a : Acquisition} :
    Decidable (WorkingBut lost db a) := by
  unfold WorkingBut
  infer_instance

/-- A create call of the acquisition, besides the run's, has an outcome that
nobody knows. -/
def UnansweredBut (besides : Option TaskRun) (runs : List TaskRun) (lostCalls : List String)
    (a : Acquisition) : Prop :=
  a.id ∈ lostCalls ∨ ∃ run ∈ runs, some run ≠ besides ∧ run.stage = .calling ∧
    run.about "tenant_request_id" = some a.id

instance {besides : Option TaskRun} {runs : List TaskRun} {lostCalls : List String}
    {a : Acquisition} : Decidable (UnansweredBut besides runs lostCalls a) := by
  unfold UnansweredBut
  infer_instance

/-- Nothing is outstanding for the tenant and the lawsuit, no outcome is
ambiguous or unknown, and the tenant is served no current version. -/
def Abandoned (s : Pipeline) (tenantId : Uuid) (code : String) : Prop :=
  ¬ s.db.archive.Serves tenantId code ∧
    ∀ a ∈ s.db.acquisitions.find? tenantId code,
      ¬ WorkingBut (fun _ => false) s.db a ∧ a.status ≠ .failedAmbiguous ∧
        ¬ UnansweredBut none s.runs s.lostCalls a

instance {s : Pipeline} {tenantId : Uuid} {code : String} :
    Decidable (Abandoned s tenantId code) := by
  unfold Abandoned
  infer_instance

/-- A call of `request_process` that returns has enqueued a new request job,
and a call for no public request does return. -/
def StartsAnew (db : Database) (tenantId : Uuid) (code : String) : Prop :=
  ∀ publicId rowId jobId now,
    (∀ result db', requestProcess db tenantId code publicId rowId jobId now = some (result, db') →
      ∃ j ∈ db'.jobs.rows, j.id = jobId ∧ jobId ∉ db.jobs.rows.map Job.id ∧
        j.taskName = "request_judit_process" ∧ j.status = .pending) ∧
    (publicId = none → jobId ∉ db.jobs.rows.map Job.id →
      rowId ∉ db.acquisitions.rows.map Acquisition.id →
      (requestProcess db tenantId code publicId rowId jobId now).isSome = true)

/-- **No permanently dead CNJ.** -/
def NoDeadCnj (s : Pipeline) : Prop :=
  ∀ tenantId code, Abandoned s tenantId code → StartsAnew s.db tenantId code

/-! ## §2. The condition. -/

/-- What excuses a row that is not retried: outstanding work, an unknown
outcome, or a current version to read. -/
def ExcusedBut (lost : Job → Bool) (besides : Option TaskRun) (s : Pipeline) (a : Acquisition) :
    Prop :=
  WorkingBut lost s.db a ∨ UnansweredBut besides s.runs s.lostCalls a ∨
    s.db.archive.Serves a.tenantId a.processCode

instance {lost : Job → Bool} {besides : Option TaskRun} {s : Pipeline} {a : Acquisition} :
    Decidable (ExcusedBut lost besides s a) := by
  unfold ExcusedBut
  infer_instance

/-- The next `request_process` retries the row, or need not. -/
def AliveBut (lost : Job → Bool) (s : Pipeline) (a : Acquisition) : Prop :=
  a.retryable = true ∨ a.status = .failedAmbiguous ∨ ExcusedBut lost none s a

instance {lost : Job → Bool} {s : Pipeline} {a : Acquisition} :
    Decidable (AliveBut lost s a) := by
  unfold AliveBut
  infer_instance

/-- The jobs that end are not the last excuse of their acquisition. -/
def SparesWork (ends : Job → Bool) (s : Pipeline) : Prop :=
  ∀ a ∈ s.db.acquisitions.rows, (∃ j ∈ s.db.jobs.rows, ends j = true ∧ Fetches a j) →
    AliveBut ends s a

instance {ends : Job → Bool} {s : Pipeline} : Decidable (SparesWork ends s) := by
  unfold SparesWork
  infer_instance

/-- The process that a recording grants has a current version. -/
def GrantsCurrent (archive : Archive) (process : Option String) (a : Acquisition) : Prop :=
  ∃ p ∈ archive.processes, some p.id = process ∧ p.code = a.processCode ∧
    p.currentVersionId.isSome = true

instance {archive : Archive} {process : Option String} {a : Acquisition} :
    Decidable (GrantsCurrent archive process a) := by
  unfold GrantsCurrent
  infer_instance

/-- The condition on a step of a task. -/
def TaskRun.KeepsAlive (run : TaskRun) (s : Pipeline) : TaskCall → Prop
  | .accepted requestId process =>
      ∀ a ∈ s.db.acquisitions.rows, some a.id = run.about "tenant_request_id" →
        (a.juditRequestId = none ∧ (requestId ∉ s.db.completions ∨
          (∃ j ∈ s.db.jobs.rows, j.active = true ∧ Finalizes requestId j) ∨
          GrantsCurrent s.db.archive process a)) ∨
        ExcusedBut (fun _ => false) (some run) s a
  | .rejected retrySafe _ =>
      ∀ a ∈ s.db.acquisitions.rows, some a.id = run.about "tenant_request_id" →
        (a.juditRequestId = none ∧ (retrySafe = true → a.attemptNumber < 100)) ∨
        ExcusedBut (fun _ => false) (some run) s a
  | .complete _ _ => SparesWork (ownedBy run.row.id run.worker) s
  | .fail failure _ => SparesWork (failKills run.row.id run.worker failure) s
  | _ => True

instance {run : TaskRun} {s : Pipeline} {c : TaskCall} : Decidable (run.KeepsAlive s c) :=
  match c with
  | .fetch .. | .send | .accepted .. | .rejected .. | .finalize .. | .attach .. | .start ..
  | .heartbeat | .complete .. | .fail .. => by unfold TaskRun.KeepsAlive; infer_instance

/-- The condition on a step. -/
def KeepsAlive (s : Pipeline) : Event → Prop
  | .call worker slot _ c =>
      ∀ run ∈ s.runs.find? (TaskRun.isAt worker slot), run.KeepsAlive s c
  | .reclaim timeoutSeconds now locked _ => SparesWork (reclaimKills timeoutSeconds now locked) s
  | .expunge doomed =>
      ∀ a ∈ s.db.acquisitions.rows, s.db.archive.Serves a.tenantId a.processCode →
        (s.db.archive.expunge doomed).Serves a.tenantId a.processCode ∨ a.retryable = true ∨
          a.status = .failedAmbiguous ∨ WorkingBut (fun _ => false) s.db a ∨
          UnansweredBut none s.runs s.lostCalls a
  | _ => True

instance {s : Pipeline} {e : Event} : Decidable (KeepsAlive s e) :=
  match e with
  | .create .. | .request .. | .completed .. | .lawsuit .. | .claim .. | .call .. | .reclaim ..
  | .vanish .. | .expunge .. => by unfold KeepsAlive; infer_instance

/-! ## §3. The invariant. -/

/-- Every acquisition is alive. -/
abbrev Alive (s : Pipeline) (a : Acquisition) : Prop := AliveBut (fun _ => false) s a

/-- Well formed, with no row that lost its last excuse. -/
structure Excused (s : Pipeline) : Prop where
  wellFormed : WellFormed s
  alive : ∀ a ∈ s.db.acquisitions.rows, Alive s a

theorem excused_init : Excused {} :=
  ⟨wellFormed_init, fun _ ha => nomatch ha⟩

/-- A request job is enqueued under a fresh id. -/
theorem enqueue_requestJob {db : Database} {row : String} {attempt : Nat} {jobId : Uuid}
    {now : Timestamp} (hfresh : jobId ∉ db.jobs.rows.map Job.id) :
    ∃ answer, db.enqueue (requestJob row attempt) jobId now = some answer := by
  unfold Database.enqueue
  rw [if_neg hfresh]
  exact ⟨_, rfl⟩

/-- A retryable row is retried. -/
theorem retryAcquisition_isSome {db : Database} {a : Acquisition} {jobId : Uuid} {now : Timestamp}
    (hfresh : jobId ∉ db.jobs.rows.map Job.id) :
    (db.retryAcquisition a none jobId now).isSome = true := by
  have henqueue : ∃ answer, { db with acquisitions := db.acquisitions.retry a.id }.enqueue
      (requestJob a.id (a.attemptNumber + 1)) jobId now = some answer := enqueue_requestJob hfresh
  obtain ⟨answer, henqueue⟩ := henqueue
  unfold Database.retryAcquisition Database.linkPublicRequest
  simp [henqueue]

/-- A missing row is inserted. -/
theorem newAcquisition_isSome {db : Database} {tenantId : Uuid} {code rowId : String}
    {jobId : Uuid} {now : Timestamp} (hfind : db.acquisitions.find? tenantId code = none)
    (hfresh : jobId ∉ db.jobs.rows.map Job.id)
    (hrow : rowId ∉ db.acquisitions.rows.map Acquisition.id) :
    (db.newAcquisition tenantId code none rowId jobId now).isSome = true := by
  have hpair : (tenantId, code) ∉ db.acquisitions.rows.map
      fun a => (a.tenantId, a.processCode) := by
    intro hmem
    obtain ⟨a, ha, heq⟩ := List.mem_map.1 hmem
    refine List.find?_eq_none.1 hfind a ha ?_
    simp [(Prod.mk.inj heq).1, (Prod.mk.inj heq).2]
  have hinsert : ∃ t, db.acquisitions.insert rowId tenantId code = some t := by
    unfold AcquisitionTable.insert
    rw [dif_neg hrow, dif_neg hpair]
    exact ⟨_, rfl⟩
  obtain ⟨t, hinsert⟩ := hinsert
  have henqueue : ∃ answer, { db with acquisitions := t }.enqueue (requestJob rowId 1) jobId now =
      some answer := enqueue_requestJob hfresh
  obtain ⟨answer, henqueue⟩ := henqueue
  unfold Database.newAcquisition Database.linkPublicRequest
  simp [hinsert, henqueue]

/-- **A state whose rows are all alive has no dead CNJ.** -/
theorem Excused.noDeadCnj {s : Pipeline} (h : Excused s) : NoDeadCnj s := by
  rintro tenantId code ⟨hserves, hidle⟩ publicId rowId jobId now
  -- the row, if there is one, is to be retried
  have hretryable : ∀ a, s.db.acquisitions.find? tenantId code = some a → a.retryable = true := by
    intro a hfind
    obtain ⟨ha, htenant, hcode⟩ := AcquisitionTable.find?_eq_some hfind
    obtain ⟨hworking, hambiguous, hunanswered⟩ := hidle a hfind
    rcases h.alive a ha with hretry | hstatus | hwork | hcalls | hserved
    · exact hretry
    · exact absurd hstatus hambiguous
    · exact absurd hwork hworking
    · exact absurd hcalls hunanswered
    · rw [htenant, hcode] at hserved
      exact absurd hserved hserves
  constructor
  · intro result db' hs
    rcases requestProcess_cases hs with ⟨a, requests', hfind, -, -, hfresh, rfl⟩ |
      ⟨a, requests', hfind, hnot, -⟩ | ⟨acquisitions, requests', -, hinsert, -, hfresh, rfl⟩
    · have hfree := h.wellFormed.attempt_free (n := a.attemptNumber + 1) fun b hb hid => by
        rw [AcquisitionTable.eq_of_id hb (AcquisitionTable.find?_eq_some hfind).1 hid]
        exact Nat.lt_succ_self _
      exact ⟨_, JobTable.row_mem_insertNew hfree hfresh, rfl, hfresh, rfl, rfl⟩
    · rw [hretryable a hfind] at hnot
      cases hnot
    · have hfree := h.wellFormed.attempt_free (n := 1) fun b hb hsame =>
        absurd (List.mem_map.2 ⟨b, hb, hsame⟩) (AcquisitionTable.insert_eq_some hinsert).2
      exact ⟨_, JobTable.row_mem_insertNew hfree hfresh, rfl, hfresh, rfl, rfl⟩
  · rintro rfl hfresh hrow
    unfold requestProcess
    split
    · rename_i a hfind
      rw [if_pos (hretryable a hfind)]
      exact retryAcquisition_isSome hfresh
    · rename_i hfind
      exact newAcquisition_isSome hfind hfresh hrow

section Excuses

variable {db db' : Database} {runs runs' : List TaskRun} {lostCalls lostCalls' : List String}
  {a a' : Acquisition} {lost : Job → Bool} {besides : Option TaskRun}

theorem Fetches.survives {j j' : Job} (h : Fetches a j) (hid : a'.id = a.id)
    (hrequest : ∀ requestId ∈ a.juditRequestId, requestId ∈ a'.juditRequestId)
    (hsame : j.SameJob j') : Fetches a' j' := by
  unfold Fetches
  rw [hid]
  rcases h with hacquires | ⟨requestId, hmem, hfinalizes⟩
  · exact .inl (hacquires.of_sameJob hsame)
  · exact .inr ⟨requestId, hrequest _ hmem, hfinalizes.of_sameJob hsame⟩

/-- Work stays when its jobs survive. -/
theorem WorkingBut.transport (h : WorkingBut lost db a) (hid : a'.id = a.id)
    (hrequest : ∀ requestId ∈ a.juditRequestId, requestId ∈ a'.juditRequestId)
    (hcompletions : db'.completions ⊆ db.completions)
    (hjobs : ∀ j ∈ db.jobs.rows, lost j = false → j.active = true →
      ∃ j' ∈ db'.jobs.rows, j.SameJob j' ∧ j'.active = true) :
    WorkingBut (fun _ => false) db' a' := by
  rcases h with ⟨j, hj, hlost, hactive, hfetches⟩ | ⟨requestId, hmem, hawaits⟩
  · obtain ⟨j', hj', hsame, hactive'⟩ := hjobs j hj hlost hactive
    exact .inl ⟨j', hj', rfl, hactive', hfetches.survives hid hrequest hsame⟩
  · exact .inr ⟨requestId, hrequest _ hmem, fun hdone => hawaits (hcompletions hdone)⟩

/-- An unknown outcome stays unknown while its run is still calling. -/
theorem UnansweredBut.transport (h : UnansweredBut besides runs lostCalls a) (hid : a'.id = a.id)
    (hlost : lostCalls ⊆ lostCalls')
    (hruns : ∀ run ∈ runs, some run ≠ besides → run.stage = .calling →
      run.about "tenant_request_id" = some a.id →
      run ∈ runs' ∨ a.id ∈ lostCalls') : UnansweredBut none runs' lostCalls' a' := by
  unfold UnansweredBut
  rw [hid]
  rcases h with hmem | ⟨run, hrun, hother, hcalling, habout⟩
  · exact .inl (hlost hmem)
  · rcases hruns run hrun hother hcalling habout with hrun' | hmem
    · exact .inr ⟨run, hrun', by simp, hcalling, habout⟩
    · exact .inl hmem

/-- A run that is not the one that moves is still there. -/
theorem mem_moveRun_of_ne {run d : TaskRun} {stage : Option Stage} (hd : d ∈ runs)
    (hne : d ≠ run) : d ∈ moveRun runs run stage := by
  cases stage with
  | none => exact List.mem_filter.2 ⟨hd, by simpa using hne⟩
  | some next => exact mem_updateWhere.2 (.inr ⟨hd, by simpa using hne⟩)

/-- A run that stays at its stage is still there. -/
theorem mem_moveRun_of_stage {run d : TaskRun} (hd : d ∈ runs) :
    d ∈ moveRun runs run (some run.stage) := by
  by_cases hsame : d = run
  · subst hsame
    exact mem_updateWhere.2 (.inl ⟨d, hd, by simp, rfl⟩)
  · exact mem_moveRun_of_ne hd hsame

theorem subset_loseCall {run : TaskRun} : lostCalls ⊆ loseCall lostCalls run := by
  unfold loseCall
  split
  · exact List.subset_append_left _ _
  · exact List.Subset.refl _

/-- A run that ends while calling leaves its acquisition's outcome
unknown. -/
theorem mem_loseCall {run : TaskRun} {id : String} (hcalling : run.stage = .calling)
    (habout : run.about "tenant_request_id" = some id) : id ∈ loseCall lostCalls run := by
  unfold loseCall
  rw [if_pos hcalling, habout]
  exact List.mem_append_right _ (List.mem_singleton_self _)

end Excuses

/-- **An excused row stays excused** when its jobs and its calls survive and
the archive serves as before. -/
theorem ExcusedBut.transport {s s' : Pipeline} {a a' : Acquisition} {lost : Job → Bool}
    {besides : Option TaskRun} (h : ExcusedBut lost besides s a) (hid : a'.id = a.id)
    (hpair : a'.tenantId = a.tenantId ∧ a'.processCode = a.processCode)
    (hrequest : ∀ requestId ∈ a.juditRequestId, requestId ∈ a'.juditRequestId)
    (hcompletions : s'.db.completions ⊆ s.db.completions)
    (hjobs : ∀ j ∈ s.db.jobs.rows, lost j = false → j.active = true →
      ∃ j' ∈ s'.db.jobs.rows, j.SameJob j' ∧ j'.active = true)
    (hlost : s.lostCalls ⊆ s'.lostCalls)
    (hruns : ∀ run ∈ s.runs, some run ≠ besides → run.stage = .calling →
      run.about "tenant_request_id" = some a.id → run ∈ s'.runs ∨ a.id ∈ s'.lostCalls)
    (hserves : ∀ tenantId code, s.db.archive.Serves tenantId code →
      s'.db.archive.Serves tenantId code) : ExcusedBut (fun _ => false) none s' a' := by
  rcases h with hworking | hunanswered | hserved
  · exact .inl (hworking.transport hid hrequest hcompletions hjobs)
  · exact .inr (.inl (hunanswered.transport hid hlost hruns))
  · rw [← hpair.1, ← hpair.2] at hserved
    exact .inr (.inr (hserves _ _ hserved))

/-- A living row stays alive. -/
theorem AliveBut.transport {s s' : Pipeline} {a : Acquisition} {lost : Job → Bool}
    (h : AliveBut lost s a) (hcompletions : s'.db.completions ⊆ s.db.completions)
    (hjobs : ∀ j ∈ s.db.jobs.rows, lost j = false → j.active = true →
      ∃ j' ∈ s'.db.jobs.rows, j.SameJob j' ∧ j'.active = true)
    (hlost : s.lostCalls ⊆ s'.lostCalls)
    (hruns : ∀ run ∈ s.runs, run.stage = .calling →
      run.about "tenant_request_id" = some a.id → run ∈ s'.runs ∨ a.id ∈ s'.lostCalls)
    (hserves : ∀ tenantId code, s.db.archive.Serves tenantId code →
      s'.db.archive.Serves tenantId code) : Alive s' a := by
  rcases h with hretry | hstatus | hexcused
  · exact .inl hretry
  · exact .inr (.inl hstatus)
  · exact .inr (.inr (hexcused.transport rfl ⟨rfl, rfl⟩ (fun _ hmem => hmem) hcompletions hjobs hlost
      (fun run hrun _ => hruns run hrun) hserves))

/-- No job that ends is the last excuse. -/
theorem Excused.aliveBut {s : Pipeline} (h : Excused s) {ends : Job → Bool}
    (hok : SparesWork ends s) {a : Acquisition} (ha : a ∈ s.db.acquisitions.rows) :
    AliveBut ends s a := by
  rcases h.alive a ha with hretry | hstatus | (⟨j, hj, -, hactive, hfetches⟩ | hawaits) | hrest
  · exact .inl hretry
  · exact .inr (.inl hstatus)
  · cases hends : ends j with
    | true => exact hok a ha ⟨j, hj, hends, hfetches⟩
    | false => exact .inr (.inr (.inl (.inl ⟨j, hj, hends, hactive, hfetches⟩)))
  · exact .inr (.inr (.inl (.inr hawaits)))
  · exact .inr (.inr (.inr hrest))

/-! ## §4. The API's transactions. -/

section Api

variable {s : Pipeline} {db' : Database} {jobId : Uuid} {now : Timestamp}

/-- A transaction that only adds jobs, and takes nothing from the archive. -/
theorem Excused.grow (h : Excused s) (hcompletions : db'.completions = s.db.completions)
    (hjobs : ∀ j ∈ s.db.jobs.rows, j ∈ db'.jobs.rows)
    (hserves : ∀ tenantId code, s.db.archive.Serves tenantId code →
      db'.archive.Serves tenantId code) {a : Acquisition} (ha : a ∈ s.db.acquisitions.rows) :
    Alive { s with db := db' } a :=
  (h.alive a ha).transport (by rw [hcompletions]; exact List.Subset.refl _)
    (fun j hj _ hactive => ⟨j, hjobs j hj, .refl j, hactive⟩)
    (List.Subset.refl _) (fun d hd _ _ => .inl hd) hserves

/-- A new request job excuses its row. -/
theorem alive_of_requestJob {a : Acquisition} {attempt : Nat} {jobs : JobTable}
    (hmem : (requestJob a.id attempt).row jobId now ∈ jobs.rows) (hjobs : db'.jobs = jobs) :
    Alive { s with db := db' } a := by
  refine .inr (.inr (.inl (.inl ⟨(requestJob a.id attempt).row jobId now, ?_, rfl, rfl,
    .inl acquires_requestJob⟩)))
  show _ ∈ db'.jobs.rows
  rw [hjobs]
  exact hmem

/-- **`request_process` keeps every row alive.** -/
theorem Excused.request {tenantId : Uuid} {code : String} {publicId : Option Uuid}
    {rowId : String} {result : ProcessRequestResult} (h : Excused s)
    (hs : requestProcess s.db tenantId code publicId rowId jobId now = some (result, db')) :
    ∀ a ∈ db'.acquisitions.rows, Alive { s with db := db' } a := by
  have hwf := h.wellFormed
  rcases requestProcess_cases hs with ⟨a, requests', hfind, hretryable, -, hfresh, rfl⟩ |
    ⟨a, requests', hfind, hretryable, -, rfl⟩ |
    ⟨acquisitions, requests', hfind, hinsert, -, hfresh, rfl⟩
  · have ha := (AcquisitionTable.find?_eq_some hfind).1
    -- A failed acquisition is tried again: the number of the attempt is new, so its job is not
    -- refused.
    have hfree := hwf.attempt_free (n := a.attemptNumber + 1) fun b hb hid => by
      rw [AcquisitionTable.eq_of_id hb ha hid]
      exact Nat.lt_succ_self _
    have hmem : (requestJob a.id (a.attemptNumber + 1)).row jobId now ∈
        (s.db.jobs.insertNew (requestJob a.id (a.attemptNumber + 1)) jobId now).2.rows :=
      JobTable.row_mem_insertNew hfree hfresh
    intro b' hb'
    rcases mem_updateWhere.1 hb' with ⟨b, hb, hp, rfl⟩ | ⟨hb, -⟩
    · -- the row that is retried has its new job
      obtain rfl : b = a := AcquisitionTable.eq_of_id hb ha (by simpa using hp)
      split <;> exact alive_of_requestJob hmem rfl
    · refine h.grow ?_ ?_ ?_ hb
      · rfl
      · exact fun _ hj => JobTable.mem_insertNew_of_mem hj
      · exact fun _ _ hserves => hserves
  -- An acquisition that is still open is shared, and nothing of it changes.
  · exact fun b hb => h.grow (by rfl) (fun _ hj => hj)
      (fun _ _ hserves => hserves) hb
  -- No acquisition was there: the new one has its first job.
  · obtain ⟨hrows, hid⟩ := AcquisitionTable.insert_eq_some hinsert
    have hfree := hwf.attempt_free (n := 1) fun b hb hsame =>
      absurd (List.mem_map.2 ⟨b, hb, hsame⟩) hid
    have hmem : (requestJob rowId 1).row jobId now ∈
        (s.db.jobs.insertNew (requestJob rowId 1) jobId now).2.rows :=
      JobTable.row_mem_insertNew hfree hfresh
    intro b hb
    rw [hrows] at hb
    rcases List.mem_append.1 hb with hb | hb
    · refine h.grow ?_ ?_ ?_ hb
      · rfl
      · exact fun _ hj => JobTable.mem_insertNew_of_mem hj
      · exact fun _ _ hserves => hserves
    · obtain rfl := List.mem_singleton.1 hb
      exact alive_of_requestJob hmem rfl

/-- **A completion leaves a finalization**, or had left one before. -/
theorem Excused.completed {requestId : String} (h : Excused s)
    (hs : s.db.complete requestId jobId now = some db') :
    ∀ a ∈ db'.acquisitions.rows, Alive { s with db := db' } a := by
  obtain ⟨hfresh, rfl⟩ := Database.complete_eq_some hs
  intro a ha
  by_cases hold : requestId ∈ s.db.completions
  · refine h.grow ?_ ?_ ?_ ha
    · exact if_pos hold
    · exact fun _ hj => JobTable.mem_insertNew_of_mem hj
    · exact fun _ _ hserves => hserves
  · have hnew : (finalizeJob requestId (finalizeKey requestId)).row jobId now ∈
        (s.db.jobs.insertNew (finalizeJob requestId (finalizeKey requestId)) jobId now).2.rows :=
      JobTable.row_mem_insertNew (h.wellFormed.finalize_free hold) hfresh
    rcases h.alive a ha with hretry | hstatus | hworking | hunanswered | hserved
    · exact .inl hretry
    · exact .inr (.inl hstatus)
    · refine .inr (.inr (.inl ?_))
      by_cases hrequest : a.juditRequestId = some requestId
      · exact .inl ⟨_, hnew, rfl, rfl, .inr ⟨requestId, hrequest, finalizes_finalizeJob⟩⟩
      · rcases hworking with ⟨j, hj, hrest⟩ | ⟨requestId', hmem, hawaits⟩
        · exact .inl ⟨j, JobTable.mem_insertNew_of_mem hj, hrest⟩
        · refine .inr ⟨requestId', hmem, ?_⟩
          show requestId' ∉ (if requestId ∈ s.db.completions then s.db.completions
            else s.db.completions ++ [requestId])
          rw [if_neg hold, List.mem_append, not_or]
          refine ⟨hawaits, fun hsame => hrequest ?_⟩
          rw [← List.mem_singleton.1 hsame]
          exact hmem
    · exact .inr (.inr (.inr (.inl hunanswered)))
    · exact .inr (.inr (.inr (.inr hserved)))

theorem Excused.lawsuit {e : LawsuitResponse} {reads : LawsuitReads}
    {newProcess newVersion : String} (h : Excused s)
    (hs : s.db.lawsuit e reads newProcess newVersion jobId now = some db') :
    ∀ a ∈ db'.acquisitions.rows, Alive { s with db := db' } a := by
  obtain ⟨archive, jobs, rfl, hserves, rfl | ⟨requestId, rfl⟩⟩ := Database.lawsuit_eq_some hs
  · intro a ha
    refine h.grow ?_ ?_ ?_ ha
    · rfl
    · exact fun _ hj => hj
    · exact hserves
  · intro a ha
    refine h.grow ?_ ?_ ?_ ha
    · rfl
    · exact fun _ hj => JobTable.mem_insertNew_of_mem hj
    · exact hserves

/-- **An expunge keeps rows alive**, if it takes no last excuse. -/
theorem Excused.expunge {doomed : List String} {requests : List PublicRequest} (h : Excused s)
    (hok : KeepsAlive s (.expunge doomed)) :
    ∀ a ∈ s.db.acquisitions.rows, Alive { s with
      db := { s.db with archive := s.db.archive.expunge doomed, requests := requests } } a := by
  intro a ha
  rcases h.alive a ha with hretry | hstatus | hworking | hunanswered | hserved
  · exact .inl hretry
  · exact .inr (.inl hstatus)
  · exact .inr (.inr (.inl hworking))
  · exact .inr (.inr (.inr (.inl hunanswered)))
  · rcases hok a ha hserved with hserved | hretry | hstatus | hworking | hunanswered
    · exact .inr (.inr (.inr (.inr hserved)))
    · exact .inl hretry
    · exact .inr (.inl hstatus)
    · exact .inr (.inr (.inl hworking))
    · exact .inr (.inr (.inr (.inl hunanswered)))

end Api

/-! ## §5. The workers. -/

section Workers

variable {s : Pipeline} {db' : Database} {run : TaskRun} {now : Timestamp} {stage : Option Stage}
  {a : Acquisition}

theorem Excused.claim {worker pick : Uuid} {slot : Nat} {locked : List Uuid} {row : Job}
    {jobs : JobTable} (h : Excused s)
    (hclaim : Queue.claim s.db.jobs worker now locked pick = some (row, jobs)) :
    ∀ a ∈ s.db.acquisitions.rows, Alive { s with
      db := { s.db with jobs := jobs }
      runs := s.runs ++ [{ worker := worker, slot := slot, row := row }] } a := by
  intro a ha
  refine (h.alive a ha).transport (List.Subset.refl _) (fun j hj _ hactive => ?_)
    (List.Subset.refl _) (fun d hd _ _ => .inl (List.mem_append_left _ hd))
    fun _ _ hserves => hserves
  obtain ⟨j', hj', hsame, hactive', -⟩ := claim_survives hclaim hj hactive
  exact ⟨j', hj', hsame, hactive'⟩

theorem Excused.reclaim {timeoutSeconds : Int} {locked unseen : List Uuid} (h : Excused s)
    (hok : SparesWork (reclaimKills timeoutSeconds now locked) s)
    (hs : s.db.reclaim timeoutSeconds now locked unseen = some db') :
    ∀ a ∈ db'.acquisitions.rows, Alive { s with db := db' } a := by
  unfold Database.reclaim at hs
  split at hs
  · cases hs
  · rename_i rows jobs hreclaim
    cases hs
    intro a ha
    refine (h.aliveBut hok ha).transport (List.Subset.refl _) (fun j hj hkept hactive => ?_)
      (List.Subset.refl _) (fun d hd _ _ => .inl hd) fun _ _ hserves => hserves
    obtain ⟨j', hj', hsurvives⟩ := reclaim_survives hreclaim hj hactive hkept
    exact ⟨j', hj', hsurvives.same, hsurvives.active⟩

/-- The pipeline after a step of a run. -/
def Pipeline.after (s : Pipeline) (run : TaskRun) (db' : Database) (stage : Option Stage) :
    Pipeline where
  db := db'
  runs := moveRun s.runs run stage
  lostCalls := if stage.isNone then loseCall s.lostCalls run else s.lostCalls

theorem subset_lostCalls {db' : Database} : s.lostCalls ⊆ (s.after run db' stage).lostCalls := by
  show s.lostCalls ⊆ (if stage.isNone then loseCall s.lostCalls run else s.lostCalls)
  split
  · exact subset_loseCall
  · exact List.Subset.refl _

/-- **A run that moves keeps a row alive**, if it is not a create call that
is answered. -/
theorem AliveBut.after {lost : Job → Bool} (h : AliveBut lost s a)
    (hstage : run.stage ≠ .calling ∨ stage = some run.stage ∨ stage = none)
    (hcompletions : db'.completions ⊆ s.db.completions)
    (hjobs : ∀ j ∈ s.db.jobs.rows, lost j = false → j.active = true →
      ∃ j' ∈ db'.jobs.rows, j.SameJob j' ∧ j'.active = true)
    (hserves : ∀ tenantId code, s.db.archive.Serves tenantId code →
      db'.archive.Serves tenantId code) : Alive (s.after run db' stage) a := by
  refine h.transport hcompletions hjobs subset_lostCalls (fun d hd hcalling habout => ?_) hserves
  by_cases hsame : d = run
  · subst hsame
    rcases hstage with hne | rfl | rfl
    · exact absurd hcalling hne
    · exact .inl (mem_moveRun_of_stage hd)
    · exact .inr (mem_loseCall hcalling habout)
  · exact .inl (mem_moveRun_of_ne hd hsame)

/-- **A create call that is answered keeps an excused row excused.** -/
theorem ExcusedBut.answered {a' : Acquisition}
    (h : ExcusedBut (fun _ => false) (some run) s a) (hid : a'.id = a.id)
    (hpair : a'.tenantId = a.tenantId ∧ a'.processCode = a.processCode)
    (hrequest : ∀ requestId ∈ a.juditRequestId, requestId ∈ a'.juditRequestId)
    (hcompletions : db'.completions ⊆ s.db.completions)
    (hjobs : ∀ j ∈ s.db.jobs.rows, j ∈ db'.jobs.rows)
    (hserves : ∀ tenantId code, s.db.archive.Serves tenantId code →
      db'.archive.Serves tenantId code) :
    ExcusedBut (fun _ => false) none (s.after run db' stage) a' :=
  h.transport hid hpair hrequest hcompletions
    (fun j hj _ hactive => ⟨j, hjobs j hj, .refl j, hactive⟩) subset_lostCalls
    (fun _ hd hother _ _ => .inl (mem_moveRun_of_ne hd fun hsame => hother (congrArg some hsame)))
    hserves

/-- Another row's excuses are not about the run. -/
theorem AliveBut.other (h : Alive s a) (hother : run.about "tenant_request_id" ≠ some a.id)
    (hcompletions : db'.completions ⊆ s.db.completions)
    (hjobs : ∀ j ∈ s.db.jobs.rows, j ∈ db'.jobs.rows)
    (hserves : ∀ tenantId code, s.db.archive.Serves tenantId code →
      db'.archive.Serves tenantId code) : Alive (s.after run db' stage) a := by
  refine h.transport hcompletions (fun j hj _ hactive => ⟨j, hjobs j hj, .refl j, hactive⟩)
    subset_lostCalls (fun d hd _ habout => .inl (mem_moveRun_of_ne hd fun hsame => ?_)) hserves
  rw [hsame] at habout
  exact hother habout

/-- A row that stays, after a create call was answered. -/
theorem Excused.answered_same {id : String} (h : Excused s)
    (habout : run.about "tenant_request_id" = some id) (ha : a ∈ s.db.acquisitions.rows)
    (hexcused : a.id = id → ExcusedBut (fun _ => false) (some run) s a)
    (hcompletions : db'.completions ⊆ s.db.completions)
    (hjobs : ∀ j ∈ s.db.jobs.rows, j ∈ db'.jobs.rows)
    (hserves : ∀ tenantId code, s.db.archive.Serves tenantId code →
      db'.archive.Serves tenantId code) : Alive (s.after run db' stage) a := by
  by_cases hid : a.id = id
  · exact .inr (.inr ((hexcused hid).answered rfl ⟨rfl, rfl⟩ (fun _ hmem => hmem) hcompletions
      hjobs hserves))
  · refine AliveBut.other (h.alive a ha) ?_ hcompletions hjobs hserves
    rw [habout]
    exact fun hsame => hid (Option.some.inj hsame).symm

/-- **An accepted create call keeps rows alive.** -/
theorem Excused.accepted {requestId : String} {process : Option String} (h : Excused s)
    (hok : run.KeepsAlive s (.accepted requestId process))
    (hs : run.accepted s.db requestId process = some (db', stage)) :
    ∀ a ∈ db'.acquisitions.rows, Alive (s.after run db' stage) a := by
  unfold TaskRun.accepted at hs
  split at hs
  · cases hs
  · rename_i id habout
    split at hs
    · cases hs
    · rename_i hne
      split at hs
      · cases hs
      · rename_i t hrecord
        cases hs
        intro a ha
        refine h.answered_same habout ha (fun hid => ?_) (List.Subset.refl _) (fun _ hj => hj)
          fun _ _ hserves => hserves
        -- the row has another request id
        rcases hok a ha (by rw [hid, habout]) with ⟨hnone, -⟩ | hexcused
        · rcases AcquisitionTable.record_eq_some hrecord with ⟨-, -, hset⟩ | ⟨_, -, htenant, -⟩
          · exact absurd hnone (hset a ha hid)
          · cases htenant
        · exact hexcused
      · rename_i tenantId acquisitions hrecord
        have halive : ∀ {archive : Archive}, (∀ tenantId code,
            s.db.archive.Serves tenantId code → archive.Serves tenantId code) →
            (∀ a, a.tenantId = tenantId → GrantsCurrent s.db.archive process a →
              archive.Serves a.tenantId a.processCode) → ∀ a ∈ acquisitions.rows,
            Alive (s.after run { s.db with acquisitions := acquisitions, archive := archive }
              stage) a := by
          intro archive hserves hgrants a' ha'
          rcases AcquisitionTable.record_eq_some hrecord with
            ⟨htenant, -, -⟩ | ⟨owner, howner, htenant, hownerId, -, -, hrows⟩
          · cases htenant
          · rw [hrows] at ha'
            rcases mem_updateWhere.1 ha' with ⟨a, ha, hopen, rfl⟩ | ⟨ha, hclosed⟩
            · obtain ⟨hid, hnone⟩ := Acquisition.isOpen_iff.1 hopen
              refine .inr (.inr ?_)
              rcases hok a ha (by rw [hid, habout]) with ⟨-, hopen' | ⟨j, hj, hactive, hfinalizes⟩ |
                hcurrent⟩ | hexcused
              · exact .inl (.inr ⟨requestId, rfl, hopen'⟩)
              · exact .inl (.inl ⟨j, hj, rfl, hactive, .inr ⟨requestId, rfl, hfinalizes⟩⟩)
              · obtain rfl := AcquisitionTable.eq_of_id ha howner (hid.trans hownerId.symm)
                exact .inr (.inr (hgrants a (Option.some.inj htenant).symm hcurrent))
              · refine hexcused.answered rfl ⟨rfl, rfl⟩ ?_ (List.Subset.refl _) (fun _ hj => hj)
                  hserves
                rw [hnone]
                exact fun _ hmem => nomatch hmem
            · refine h.answered_same habout ha (fun hid => ?_) (List.Subset.refl _)
                (fun _ hj => hj) hserves
              rcases hok a' ha (by rw [hid, habout]) with ⟨hnone, -⟩ | hexcused
              · rw [Acquisition.isOpen_iff.2 ⟨hid, hnone⟩] at hclosed
                cases hclosed
              · exact hexcused
        split at hs
        · cases hs
          exact halive (fun _ _ hserves => hserves) fun _ _ ⟨_, _, hsome, _⟩ => nomatch hsome
        · split at hs
          · cases hs
            refine halive (fun _ _ hserves => hserves.grant) ?_
            rintro a htenant ⟨p, hp, hsome, hcode, hcurrent⟩
            obtain rfl := Option.some.inj hsome
            refine ⟨p, hp, hcode, hcurrent, List.mem_append_right _ ?_⟩
            simp [htenant]
          · cases hs

/-- **A rejected create call keeps rows alive.** -/
theorem Excused.rejected {retrySafe : Bool} {unseen : List Uuid} (h : Excused s)
    (hok : run.KeepsAlive s (.rejected retrySafe unseen))
    (hs : run.rejected s.db retrySafe now unseen = some (db', stage)) :
    ∀ a ∈ db'.acquisitions.rows, Alive (s.after run db' stage) a := by
  unfold TaskRun.rejected at hs
  split at hs
  · cases hs
  · rename_i id habout
    cases hs
    intro a' ha'
    rcases mem_updateWhere.1 ha' with ⟨a, ha, hopen, rfl⟩ | ⟨ha, hclosed⟩
    · obtain ⟨hid, -⟩ := Acquisition.isOpen_iff.1 hopen
      rcases hok a ha (by rw [hid, habout]) with ⟨-, hattempt⟩ | hexcused
      · cases retrySafe with
        | true => exact .inl (by simp [Acquisition.retryable, hattempt rfl])
        | false => exact .inr (.inl rfl)
      · exact .inr (.inr (hexcused.answered rfl ⟨rfl, rfl⟩ (fun _ hmem => hmem)
          (List.Subset.refl _) (fun _ hj => hj) fun _ _ hserves => hserves))
    · refine h.answered_same habout ha (fun hid => ?_) (List.Subset.refl _) (fun _ hj => hj)
        fun _ _ hserves => hserves
      rcases hok a' ha (by rw [hid, habout]) with ⟨hnone, -⟩ | hexcused
      · rw [Acquisition.isOpen_iff.2 ⟨hid, hnone⟩] at hclosed
        cases hclosed
      · exact hexcused

/-- A transaction of a handler that adds jobs at most. -/
theorem Excused.hands (h : Excused s) (hclaimed : run.stage = .claimed)
    (hcompletions : db'.completions = s.db.completions)
    (hjobs : ∀ j ∈ s.db.jobs.rows, j ∈ db'.jobs.rows)
    (hserves : ∀ tenantId code, s.db.archive.Serves tenantId code →
      db'.archive.Serves tenantId code) (ha : a ∈ s.db.acquisitions.rows) :
    Alive (s.after run db' stage) a :=
  AliveBut.after (h.alive a ha) (.inl (by rw [hclaimed]; decide))
    (by rw [hcompletions]; exact List.Subset.refl _)
    (fun j hj _ hactive => ⟨j, hjobs j hj, .refl j, hactive⟩) hserves

/-- **A step of a task that meets the condition keeps rows alive.** -/
theorem Excused.call {c : TaskCall} (h : Excused s) (hok : run.KeepsAlive s c)
    (hs : run.call s.db now c = some (db', stage)) :
    ∀ a ∈ db'.acquisitions.rows, Alive (s.after run db' stage) a := by
  -- A call that beats the heart changes no more of a job than its times.
  have hbeat : ∀ {requests : List PublicRequest} {a : Acquisition},
      (run.stage ≠ .calling ∨ stage = some run.stage ∨ stage = none) →
      a ∈ s.db.acquisitions.rows → Alive (s.after run { s.db with
        jobs := (heartbeat s.db.jobs run.row.id run.worker now).2
        requests := requests } stage) a := by
    intro requests a hstage ha
    refine AliveBut.after (h.alive a ha) hstage (List.Subset.refl _) (fun j hj _ hactive => ?_)
      fun _ _ hserves => hserves
    obtain ⟨j', hj', hsurvives⟩ := heartbeat_survives hj hactive
    exact ⟨j', hj', hsurvives.same, hsurvives.active⟩
  cases c with
  | fetch unseen =>
      simp only [TaskRun.call] at hs
      split at hs
      · rename_i hstage
        unfold TaskRun.fetch at hs
        have hsame : ∀ {requests : List PublicRequest} {a : Acquisition},
            a ∈ s.db.acquisitions.rows →
            Alive (s.after run { s.db with requests := requests } stage) a :=
          fun ha => h.hands hstage.1 rfl (fun _ hj => hj) (fun _ _ hserves => hserves) ha
        split at hs
        · cases hs
          exact fun a ha => hsame ha
        · split at hs
          · cases hs
            exact fun a ha => hsame ha
          · cases hs
            exact fun a ha => hsame ha
      · cases hs
  | send =>
      simp only [TaskRun.call] at hs
      split at hs
      · rename_i hstage
        cases hs
        intro a ha
        exact AliveBut.after (h.alive a ha) (.inl (by rw [hstage.1]; decide)) (List.Subset.refl _)
          (fun j hj _ hactive => ⟨j, hj, .refl j, hactive⟩) fun _ _ hserves => hserves
      · cases hs
  | accepted requestId process =>
      simp only [TaskRun.call] at hs
      split at hs
      · exact h.accepted hok hs
      · cases hs
  | rejected retrySafe unseen =>
      simp only [TaskRun.call] at hs
      split at hs
      · exact h.rejected hok hs
      · cases hs
  | finalize reads jobId =>
      simp only [TaskRun.call] at hs
      split at hs
      · rename_i hstage
        split at hs
        · cases hs
        · split at hs
          · cases hs
          · rename_i plan hplan
            obtain ⟨db₁, hfinalize, hpure⟩ := Option.map_eq_some_iff.1 hs
            cases hpure
            -- The finalization may serve more codes, and enqueues at most one job.
            have hserves := (finalizePlan_eq_some hplan).2.2
            rcases Database.enqueueNext_eq_some hfinalize with ⟨-, rfl⟩ | ⟨new, -, -, rfl⟩
            · exact fun a ha => h.hands hstage.1 rfl (fun _ hj => hj) hserves ha
            · exact fun a ha => h.hands hstage.1 rfl
                (fun _ hj => JobTable.mem_insertNew_of_mem hj) hserves ha
      · cases hs
  | attach jobId =>
      simp only [TaskRun.call] at hs
      split at hs
      · rename_i hstage
        split at hs
        · cases hs
        · obtain ⟨db₁, henqueue, hpure⟩ := Option.map_eq_some_iff.1 hs
          cases hpure
          rcases Database.enqueueNext_eq_some henqueue with ⟨-, rfl⟩ | ⟨new, -, -, rfl⟩
          · exact fun a ha => h.hands hstage.1 rfl (fun _ hj => hj)
              (fun _ _ hserves => hserves) ha
          · exact fun a ha => h.hands hstage.1 rfl
              (fun _ hj => JobTable.mem_insertNew_of_mem hj) (fun _ _ hserves => hserves) ha
      · cases hs
  | start unseen =>
      simp only [TaskRun.call] at hs
      split at hs
      · rename_i hstage
        unfold TaskRun.start at hs
        split at hs <;> rename_i jobs heq <;> cases hs <;>
          obtain rfl : jobs = (heartbeat s.db.jobs run.row.id run.worker now).2 := by rw [heq]
        · exact fun a ha => hbeat (.inl (by rw [hstage.1]; decide)) ha
        · exact fun a ha => hbeat (.inr (.inr rfl)) ha
      · cases hs
  | heartbeat =>
      simp only [TaskRun.call] at hs
      cases hs
      exact fun a ha => hbeat (.inr (.inl rfl)) ha
  | complete result g =>
      simp only [TaskRun.call] at hs
      split at hs
      -- A job that is completed was excused by `hok`, and the others are as they were.
      · have hdone : ∀ {requests : List PublicRequest} {a : Acquisition},
            a ∈ s.db.acquisitions.rows → Alive (s.after run { s.db with
              jobs := (Queue.complete s.db.jobs run.row.id run.worker result now).2
              requests := requests } none) a :=
          fun ha => (h.aliveBut hok ha).after (.inr (.inr rfl)) (List.Subset.refl _)
            (fun j hj hother hactive => ⟨j, complete_survives hj hother, .refl j, hactive⟩)
            fun _ _ hserves => hserves
        unfold TaskRun.complete at hs
        split at hs <;> rename_i jobs heq <;>
          obtain rfl : jobs = (Queue.complete s.db.jobs run.row.id run.worker result now).2 := by
            rw [heq]
        · split at hs
          · cases hs
            exact fun a ha => hdone ha
          · cases hs
            exact fun a ha => hdone ha
        · cases hs
          exact fun a ha => hdone ha
      · cases hs
  | fail failure unseen =>
      simp only [TaskRun.call, TaskRun.fail] at hs
      cases hs
      intro a ha
      -- A job that fails goes back to the queue, or dies where `hok` allows it.
      refine (h.aliveBut hok ha).after (.inr (.inr rfl)) (List.Subset.refl _)
        (fun j hj hkept hactive => ?_) fun _ _ hserves => hserves
      obtain ⟨j', hj', hsurvives⟩ := fail_survives hj hactive hkept
      exact ⟨j', hj', hsurvives.same, hsurvives.active⟩

end Workers

/-! ## §6. Every run. -/

/-- **A step that meets the condition keeps every row alive.** -/
theorem Excused.step {s s' : Pipeline} {e : Event} (h : Excused s) (hok : KeepsAlive s e)
    (hs : s.step e = some s') : Excused s' := by
  refine ⟨h.wellFormed.step hs, ?_⟩
  cases e with
  -- A new public request touches no acquisition.
  | create id tenantId code idempotencyKey fingerprint format =>
      simp only [Pipeline.step] at hs
      split at hs
      · cases hs
      · cases hs
        exact fun a ha => h.alive a ha
  | request tenantId code publicId rowId jobId now =>
      obtain ⟨⟨result, db'⟩, hrequest, rfl⟩ := Option.map_eq_some_iff.1 hs
      exact h.request hrequest
  | completed requestId jobId now =>
      simp only [Pipeline.step] at hs
      split at hs
      · cases hs
      · obtain ⟨db', hcomplete, rfl⟩ := Option.map_eq_some_iff.1 hs
        exact h.completed hcomplete
  | lawsuit response reads newProcess newVersion jobId now =>
      obtain ⟨db', hlawsuit, rfl⟩ := Option.map_eq_some_iff.1 hs
      exact h.lawsuit hlawsuit
  | claim worker slot now locked pick =>
      simp only [Pipeline.step] at hs
      split at hs
      · cases hs
      · split at hs
        · cases hs
        · rename_i row jobs hclaim
          cases hs
          exact h.claim hclaim
  | call worker slot now c =>
      simp only [Pipeline.step] at hs
      split at hs
      · cases hs
      · rename_i run hfind
        split at hs
        · cases hs
        · rename_i db' stage hcall
          cases hs
          exact h.call (hok run hfind) hcall
  | reclaim timeoutSeconds now locked unseen =>
      obtain ⟨db', hreclaim, rfl⟩ := Option.map_eq_some_iff.1 hs
      exact h.reclaim hok hreclaim
  -- A worker that vanishes leaves its job running, which is alive until it is reclaimed.
  | vanish worker slot =>
      simp only [Pipeline.step] at hs
      split at hs
      · cases hs
      · rename_i run hfind
        cases hs
        intro a ha
        exact (h.alive a ha).after (.inr (.inr rfl)) (List.Subset.refl _)
          (fun j hj _ hactive => ⟨j, hj, .refl j, hactive⟩) fun _ _ hserves => hserves
  | expunge doomed =>
      cases hs
      exact h.expunge hok

/-- **A run whose steps all keep the rows alive has no dead CNJ.** -/
theorem noDeadCnj_along (events : List Event)
    (hkeeps : Guarded Pipeline.step KeepsAlive {} events) :
    Along Pipeline.step NoDeadCnj {} events :=
  along_of_guarded Excused excused_init (fun _ _ _ h hok hs => h.step hok hs)
    (fun _ h => h.noDeadCnj) hkeeps

/-! ## §7. A run that is safe, and a lawsuit that dies. -/

/-- `PermanentTaskError("process provider request failed")`. -/
def providerFailed : Failure where
  attempts := 1
  error := "PermanentTaskError: process provider request failed"
  permanent := true
  clock := 0
  stamp := "1970-01-01T00:00:00+00:00"

/-- The first create call is rejected; the second brings the lawsuit. -/
def retriedRun : List Event :=
  [.request 1 sampleCode none "acquisition" 10 0, .claim 9 0 0 [] 10, .call 9 0 0 .fetch,
   .call 9 0 0 .send, .call 9 0 0 (.rejected true), .call 9 0 0 (.fail providerFailed),
   .request 1 sampleCode none "unused" 11 0] ++
    acquire 11 12 ++ runTask 12 [.finalize {} 13]

/-- The retried run keeps the row alive at every step. -/
theorem noDeadCnj_along_retriedRun : Along Pipeline.step NoDeadCnj {} retriedRun :=
  noDeadCnj_along retriedRun (by decide +kernel)

/-- The completion comes without a lawsuit response, and its finalization
finds none. -/
def unansweredRun : List Event :=
  .request 1 sampleCode none "acquisition" 10 0 ::
    runTask 10 [.fetch, .send, .accepted "req-1" none] ++
    .completed "req-1" 12 0 :: runTask 12 [.finalize {} 13]

theorem unansweredRun_dead :
    ∃ s ∈ run Pipeline.step {} unansweredRun, Abandoned s 1 sampleCode ∧
      ∃ answer ∈ requestProcess s.db 1 sampleCode none "unused" 20 0,
        ∀ j ∈ answer.2.jobs.rows, j.id ≠ 20 := by
  decide +kernel

/-- Some interleaving leaves a CNJ dead. -/
theorem not_noDeadCnj_unansweredRun :
    ¬ ∀ events : List Event, Along Pipeline.step NoDeadCnj {} events := by
  intro h
  obtain ⟨s, hs, habandoned, ⟨result, db'⟩, hanswer, hnone⟩ := unansweredRun_dead
  have hstarts := (h unansweredRun).last hs 1 sampleCode habandoned
  obtain ⟨j, hj, hid, -⟩ := (hstarts none "unused" 20 0).1 result db' hanswer
  exact hnone j hj hid

end Rpy.Lifecycle

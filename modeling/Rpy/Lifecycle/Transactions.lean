/-
  Rpy.Lifecycle.Transactions
  ──────────────────────────
  **WHAT EACH TRANSACTION OF THE PIPELINE MAY DO.**

  One lemma for each statement, transaction and task step says what it may
  do to the requests, the acquisitions and the jobs; the invariants are
  proved from these and unfold nothing.

    • `Founded`             — a job's key and payload are true of the
                              database,
    • `requestProcess_cases` — the three outcomes of `request_process`,
    • `finalizePlan_eq_some` — a finalization hands its request on, or
                              ends it,
    • `DatabaseExtends`     — what every other transaction may do,
    • `TaskRun.call_extends` — and so every step of a task.
-/
import Rpy.Lifecycle.Pipeline

namespace Rpy.Lifecycle

open Rpy.Foundation Rpy.Queue

/-! ## §1. What may change. -/

/-- A job's key and payload are true of the acquisitions and completions. -/
structure Founded (db : Database) (j : Job) : Prop where
  completion : ∀ requestId, j.idempotencyKey = some (finalizeKey requestId) →
    requestId ∈ db.completions
  attempt : ∀ row n, j.idempotencyKey = some (acquireKey row n) →
    ∃ a ∈ db.acquisitions.rows, a.id = row ∧ n ≤ a.attemptNumber
  acquired : ∀ row, Acquires row j → ∃ a ∈ db.acquisitions.rows, a.id = row
  summary : j.taskName = "generate_process_summary" →
    (payloadText j.payload "process_id").isSome = true ∧
      (payloadText j.payload "version_id").isSome = true

/-- What a statement may do to the acquisitions. -/
structure AcquisitionsExtend (t t' : AcquisitionTable) : Prop where
  kept : ∀ a ∈ t.rows, ∃ a' ∈ t'.rows, a'.id = a.id ∧ a.attemptNumber ≤ a'.attemptNumber
  origin : ∀ a' ∈ t'.rows,
    (∃ a ∈ t.rows, a'.id = a.id ∧ (a.juditRequestId ≠ none → a'.juditRequestId = a.juditRequestId) ∧
      (a'.status ≠ .processing → a'.juditRequestId = none ∨
        (a.status ≠ .processing ∧ a'.juditRequestId = a.juditRequestId))) ∨
    (a'.id ∉ t.rows.map Acquisition.id ∧ a'.juditRequestId = none)

/-- What a statement may do to the jobs, where `ok` says which rows it may
insert. -/
structure JobsExtend (ok : Job → Prop) (t t' : JobTable) : Prop where
  kept : ∀ j ∈ t.rows, ∃ j' ∈ t'.rows, j.SameJob j'
  origin : ∀ j' ∈ t'.rows, (∃ j ∈ t.rows, j.SameJob j') ∨ ok j'

/-- Nothing has happened. -/
theorem AcquisitionsExtend.refl (t : AcquisitionTable) : AcquisitionsExtend t t where
  kept := fun a ha => ⟨a, ha, rfl, Nat.le_refl _⟩
  origin := fun a ha => .inl ⟨a, ha, rfl, fun _ => rfl, fun h => .inr ⟨h, rfl⟩⟩

/-- Nothing has happened. -/
theorem JobsExtend.refl {ok : Job → Prop} (t : JobTable) : JobsExtend ok t t where
  kept := fun j hj => ⟨j, hj, .refl j⟩
  origin := fun j hj => .inl ⟨j, hj, .refl j⟩

/-- Being founded is about the job, and stays true. -/
theorem Founded.mono {db db' : Database} {j j' : Job} (h : Founded db j) (hsame : j.SameJob j')
    (hcompletions : db.completions ⊆ db'.completions)
    (hacquisitions : AcquisitionsExtend db.acquisitions db'.acquisitions) : Founded db' j' where
  completion := fun requestId hkey =>
    hcompletions (h.completion requestId (hsame.idempotencyKey ▸ hkey))
  attempt := by
    intro row n hkey
    obtain ⟨a, ha, hid, hn⟩ := h.attempt row n (hsame.idempotencyKey ▸ hkey)
    obtain ⟨a', ha', hid', hn'⟩ := hacquisitions.kept a ha
    exact ⟨a', ha', hid'.trans hid, Nat.le_trans hn hn'⟩
  acquired := by
    intro row hrow
    obtain ⟨a, ha, hid⟩ := h.acquired row (hrow.to_sameJob hsame)
    obtain ⟨a', ha', hid', -⟩ := hacquisitions.kept a ha
    exact ⟨a', ha', hid'.trans hid⟩
  summary := by
    intro htask
    rw [hsame.payload]
    exact h.summary (hsame.taskName ▸ htask)

/-! ## §2. The statements. -/

section Acquisitions

variable {t t' : AcquisitionTable} {id code requestId : String} {tenantId : Uuid}

/-- A new acquisition is added to those there are. -/
theorem AcquisitionsExtend.insert (h : t.insert id tenantId code = some t') :
    AcquisitionsExtend t t' := by
  obtain ⟨hrows, hfresh⟩ := AcquisitionTable.insert_eq_some h
  refine ⟨fun a ha => ⟨a, by rw [hrows]; exact List.mem_append_left _ ha, rfl, Nat.le_refl _⟩, ?_⟩
  intro a ha
  rw [hrows] at ha
  rcases List.mem_append.1 ha with ha | ha
  · exact .inl ⟨a, ha, rfl, fun _ => rfl, fun h => .inr ⟨h, rfl⟩⟩
  · obtain rfl := List.mem_singleton.1 ha
    exact .inr ⟨hfresh, rfl⟩

theorem AcquisitionsExtend.retry : AcquisitionsExtend t (t.retry id) where
  kept := by
    intro a ha
    refine ⟨_, updateWhere_mem_of_mem ha, ?_⟩
    split
    · split
      · exact ⟨rfl, Nat.le_succ _⟩
      · exact ⟨rfl, Nat.le_refl _⟩
    · exact ⟨rfl, Nat.le_refl _⟩
  origin := by
    intro a' ha'
    rcases mem_updateWhere.1 ha' with ⟨a, ha, -, rfl⟩ | ⟨ha, -⟩
    · refine .inl ⟨a, ha, ?_⟩
      split
      · exact ⟨rfl, fun _ => rfl, fun hstatus => absurd rfl hstatus⟩
      · exact ⟨rfl, fun _ => rfl, fun hstatus => .inr ⟨hstatus, rfl⟩⟩
    · exact .inl ⟨a', ha, rfl, fun _ => rfl, fun hstatus => .inr ⟨hstatus, rfl⟩⟩

theorem AcquisitionsExtend.refuse {status : AcquisitionStatus} :
    AcquisitionsExtend t (t.refuse id status) where
  kept := by
    intro a ha
    refine ⟨_, updateWhere_mem_of_mem ha, ?_⟩
    split <;> exact ⟨rfl, Nat.le_refl _⟩
  origin := by
    intro a' ha'
    rcases mem_updateWhere.1 ha' with ⟨a, ha, hopen, rfl⟩ | ⟨ha, -⟩
    · exact .inl ⟨a, ha, rfl, fun _ => rfl, fun _ => .inl (Acquisition.isOpen_iff.1 hopen).2⟩
    · exact .inl ⟨a', ha, rfl, fun _ => rfl, fun hstatus => .inr ⟨hstatus, rfl⟩⟩

theorem AcquisitionsExtend.record {hne : requestId ≠ ""} {tenant : Option Uuid}
    (h : t.record id requestId hne = some (tenant, t')) : AcquisitionsExtend t t' := by
  rcases AcquisitionTable.record_eq_some h with ⟨-, rfl, -⟩ | ⟨-, -, -, -, -, -, hrows⟩
  · exact .refl _
  · constructor
    · intro a ha
      refine ⟨_, by rw [hrows]; exact updateWhere_mem_of_mem ha, ?_⟩
      split <;> exact ⟨rfl, Nat.le_refl _⟩
    · intro a' ha'
      rw [hrows] at ha'
      rcases mem_updateWhere.1 ha' with ⟨a, ha, hopen, rfl⟩ | ⟨ha, -⟩
      · exact .inl ⟨a, ha, rfl, fun hsome => absurd (Acquisition.isOpen_iff.1 hopen).2 hsome,
          fun hstatus => absurd rfl hstatus⟩
      · exact .inl ⟨a', ha, rfl, fun _ => rfl, fun hstatus => .inr ⟨hstatus, rfl⟩⟩

end Acquisitions

section Jobs

variable {ok : Job → Prop} {t t' : JobTable}

/-- The workers' statements insert nothing. -/
theorem JobsExtend.worker (op : WorkerOp) (h : op.apply t = some t') : JobsExtend ok t t' where
  kept := by
    intro j hj
    obtain ⟨j', hj', hstep⟩ := WorkerOp.successor h hj
    exact ⟨j', hj', hstep.sameJob⟩
  origin := by
    intro j' hj'
    obtain ⟨j, hj, hstep⟩ := WorkerOp.predecessor h hj'
    exact .inl ⟨j, hj, hstep.sameJob⟩

/-- The statements of the queue extend it, each by itself. -/
theorem JobsExtend.claim {worker pick : Uuid} {now : Timestamp} {locked : List Uuid} {row : Job}
    (h : claim t worker now locked pick = some (row, t')) : JobsExtend ok t t' :=
  .worker (.claim worker now locked pick) (by simp [WorkerOp.apply, h])

theorem JobsExtend.heartbeat {id worker : Uuid} {now : Timestamp} :
    JobsExtend ok t (heartbeat t id worker now).2 :=
  .worker (.heartbeat id worker now) rfl

theorem JobsExtend.complete {id worker : Uuid} {result : Json} {now : Timestamp} :
    JobsExtend ok t (complete t id worker result now).2 :=
  .worker (.complete id worker result now) rfl

theorem JobsExtend.fail {id worker : Uuid} {failure : Failure} {now : Timestamp} :
    JobsExtend ok t (fail t id worker failure now).2 :=
  .worker (.fail id worker failure now) rfl

theorem JobsExtend.reclaim {timeoutSeconds : Int} {now : Timestamp} {locked : List Uuid}
    {rows : List Job} (h : reclaimStale t timeoutSeconds now locked = .ok (rows, t')) :
    JobsExtend ok t t' :=
  .worker (.reclaim timeoutSeconds now locked) (by simp [WorkerOp.apply, h])

/-- **An enqueue adds the new row or nothing.** -/
theorem Database.enqueue_eq_some {db db' : Database} {new : NewJob} {jobId : Uuid}
    {now : Timestamp} {inserted : Bool} (h : db.enqueue new jobId now = some (inserted, db')) :
    jobId ∉ db.jobs.rows.map Job.id ∧
      db' = { db with jobs := (db.jobs.insertNew new jobId now).2 } := by
  unfold Database.enqueue at h
  split at h
  · cases h
  · rename_i hfresh
    split at h
    · cases h
    · rename_i row jobs heq
      cases h
      exact ⟨hfresh, by rw [enqueue_eq_ok heq]⟩

/-- A new job is one of those that may be added. -/
theorem JobsExtend.insertNew {new : NewJob} {jobId : Uuid} {now : Timestamp}
    (hok : ok (new.row jobId now)) : JobsExtend ok t (t.insertNew new jobId now).2 where
  kept := fun j hj => ⟨j, JobTable.mem_insertNew_of_mem hj, .refl j⟩
  origin := fun j hj =>
    (JobTable.mem_insertNew hj).elim (fun hold => .inl ⟨j, hold, .refl j⟩) fun hnew => .inr (hnew ▸ hok)

end Jobs

section NewJobs

variable {db : Database} {row requestId sourceId processId versionId code key : String}
  {attempt : Nat} {id : Uuid} {now : Timestamp}

/-- A key of another kind is not a finalization's or an acquisition's. -/
theorem key_ne_of_kind {kind : KeyKind} {about : String} :
    (kind ≠ .finalize → ∀ requestId, some (jobKey kind about) ≠ some (finalizeKey requestId)) ∧
      (kind ≠ .acquire → ∀ row n, some (jobKey kind about) ≠ some (acquireKey row n)) :=
  ⟨fun h _ heq => h (jobKey_kind (Option.some.inj heq)),
    fun h _ _ heq => h (jobKey_kind (Option.some.inj heq))⟩

/-- The job of a request has its acquisition. -/
theorem founded_requestJob {a : Acquisition} (ha : a ∈ db.acquisitions.rows)
    (hid : a.id = row) (hattempt : attempt ≤ a.attemptNumber) :
    Founded db ((requestJob row attempt).row id now) where
  completion := fun requestId hkey =>
    absurd hkey (key_ne_of_kind.1 (by decide) requestId)
  attempt := by
    intro row' n hkey
    obtain ⟨rfl, rfl⟩ := acquireKey_inj (Option.some.inj hkey)
    exact ⟨a, ha, hid, hattempt⟩
  acquired := by
    rintro row' ⟨-, htext⟩
    obtain rfl : row = row' := Option.some.inj htext
    exact ⟨a, ha, hid⟩
  summary := fun htask => absurd htask (by simp [requestJob, NewJob.row])

/-- The job of a finalization has its completion. -/
theorem founded_finalizeJob (hcompleted : requestId ∈ db.completions) :
    Founded db ((finalizeJob requestId (finalizeKey requestId)).row id now) where
  completion := by
    intro requestId' hkey
    have hsame : finalizeKey requestId = finalizeKey requestId' := Option.some.inj hkey
    obtain rfl : requestId = requestId' := by
      have htail := congrArg String.toList hsame
      unfold finalizeKey jobKey at htail
      simp only [String.toList_append] at htail
      exact String.toList_inj.1 (List.append_cancel_left htail)
    exact hcompleted
  attempt := fun row n hkey => absurd hkey (key_ne_of_kind.2 (by decide) row n)
  acquired := fun _ hnames => absurd hnames.1 (by simp [finalizeJob, NewJob.row])
  summary := fun htask => absurd htask (by simp [finalizeJob, NewJob.row])

/-- A job with a key of another kind. -/
theorem founded_other (kind : KeyKind) {about : String} {j : Job} (hfinalize : kind ≠ .finalize)
    (hacquire : kind ≠ .acquire) (hkey : j.idempotencyKey = some (jobKey kind about))
    (htask : j.taskName ≠ "request_judit_process")
    (hsummary : j.taskName = "generate_process_summary" →
      (payloadText j.payload "process_id").isSome = true ∧
        (payloadText j.payload "version_id").isSome = true) : Founded db j where
  completion := fun requestId h => absurd (hkey.symm.trans h) (key_ne_of_kind.1 hfinalize requestId)
  attempt := fun row n h => absurd (hkey.symm.trans h) (key_ne_of_kind.2 hacquire row n)
  acquired := fun _ hnames => absurd hnames.1 htask
  summary := hsummary

/-- A repair asks for nothing. -/
theorem founded_repairJob :
    Founded db ((finalizeJob requestId (finalizeRepairKey requestId sourceId)).row id now) :=
  founded_other .finalizeRepair (by decide) (by decide) rfl (by simp [finalizeJob, NewJob.row])
    fun htask => absurd htask (by simp [finalizeJob, NewJob.row])

/-- Nor does the job of the attachments. -/
theorem founded_attachmentsJob :
    Founded db ((attachmentsJob processId versionId requestId).row id now) :=
  founded_other .attachments (by decide) (by decide) rfl (by simp [attachmentsJob, NewJob.row])
    fun htask => absurd htask (by simp [attachmentsJob, NewJob.row])

/-- Nor does that of a summary. -/
theorem founded_summaryJob {kind : KeyKind} {about : String} (hfinalize : kind ≠ .finalize)
    (hacquire : kind ≠ .acquire) :
    Founded db
      ((summaryJob processId versionId code requestId (jobKey kind about)).row id now) :=
  founded_other kind hfinalize hacquire rfl (by simp [summaryJob, NewJob.row])
    fun _ => ⟨rfl, rfl⟩

end NewJobs

/-! ## §3. `request_process`. -/

/-- The requests after one of them may have been linked. -/
def Linking (requests : List PublicRequest) (publicId : Option Uuid) (acquisition : String)
    (requests' : List PublicRequest) : Prop :=
  ∀ r ∈ requests',
    (∃ r₀ ∈ requests, r.acquisition = r₀.acquisition ∧ (r.waiting = true → r₀.waiting = true)) ∨
    (∃ r₀ ∈ requests, some r₀.id = publicId ∧ r₀.acquisition = none ∧
      r.acquisition = some acquisition ∧ (r.waiting = true → r₀.waiting = true))

/-- A request that was linked may have moved on. -/
theorem Linking.of_advances {requests requests' requests'' : List PublicRequest}
    {publicId : Option Uuid} {acquisition : String}
    (h : Linking requests publicId acquisition requests') (h' : Advances requests' requests'') :
    Linking requests publicId acquisition requests'' := by
  intro r hr
  obtain ⟨r₁, hr₁, -, hlink₁, hwaiting₁⟩ := h'.origin r hr
  rcases h r₁ hr₁ with ⟨r₀, hr₀, hlink₀, hwaiting₀⟩ | ⟨r₀, hr₀, hid, hnone, hlink₀, hwaiting₀⟩
  · exact .inl ⟨r₀, hr₀, hlink₁.trans hlink₀, hwaiting₀ ∘ hwaiting₁⟩
  · exact .inr ⟨r₀, hr₀, hid, hnone, hlink₁.trans hlink₀, hwaiting₀ ∘ hwaiting₁⟩

/-- **What linking a public request does.** -/
theorem Database.linkPublicRequest_eq_some {db db' : Database} {publicId : Option Uuid}
    {tenantId : Uuid} {code acquisition : String} {alreadyFetching : Bool} {now : Timestamp}
    (h : db.linkPublicRequest publicId tenantId code acquisition alreadyFetching now = some db') :
    ∃ requests', db' = { db with requests := requests' } ∧
      Linking db.requests publicId acquisition requests' := by
  unfold Database.linkPublicRequest at h
  split at h
  · cases h
    exact ⟨db.requests, rfl, fun r hr => .inl ⟨r, hr, rfl, id⟩⟩
  · rename_i id
    split at h
    · cases h
    · rename_i requests hlink
      cases h
      have hlinked : Linking db.requests (some id) acquisition requests := by
        intro r hr
        rcases mem_linkSummaryRequest hlink hr with hr | ⟨hr, r₀, hr₀, hid, rfl, hnone | hsame⟩
        · exact .inl ⟨r, hr, rfl, fun h => h⟩
        · exact .inr ⟨r₀, hr₀, by rw [hid], hnone, rfl, fun h => h⟩
        · exact .inl ⟨r₀, hr₀, hsame.symm, fun h => h⟩
      refine ⟨_, rfl, ?_⟩
      split
      · exact hlinked.of_advances (.transitionMany _ _ _ _)
      · exact hlinked

/-- **The three outcomes of `request_process`.** -/
theorem requestProcess_cases {db db' : Database} {tenantId : Uuid} {code : String}
    {publicId : Option Uuid} {rowId : String} {jobId : Uuid} {now : Timestamp}
    {result : ProcessRequestResult}
    (h : requestProcess db tenantId code publicId rowId jobId now = some (result, db')) :
    (∃ a requests', db.acquisitions.find? tenantId code = some a ∧ a.retryable = true ∧
      Linking db.requests publicId a.id requests' ∧ jobId ∉ db.jobs.rows.map Job.id ∧
      db' = { db with
        acquisitions := db.acquisitions.retry a.id
        requests := requests'
        jobs := (db.jobs.insertNew (requestJob a.id (a.attemptNumber + 1)) jobId now).2 }) ∨
    (∃ a requests', db.acquisitions.find? tenantId code = some a ∧ a.retryable = false ∧
      Linking db.requests publicId a.id requests' ∧ db' = { db with requests := requests' }) ∨
    (∃ acquisitions requests', db.acquisitions.find? tenantId code = none ∧
      db.acquisitions.insert rowId tenantId code = some acquisitions ∧
      Linking db.requests publicId rowId requests' ∧ jobId ∉ db.jobs.rows.map Job.id ∧
      db' = { db with
        acquisitions := acquisitions
        requests := requests'
        jobs := (db.jobs.insertNew (requestJob rowId 1) jobId now).2 }) := by
  unfold requestProcess at h
  split at h
  · rename_i a hfind
    split at h
    · rename_i hretryable
      -- The acquisition failed before: it is opened again with the next attempt.
      unfold Database.retryAcquisition at h
      simp only [Option.bind_eq_bind, Option.bind_eq_some_iff] at h
      obtain ⟨db₁, hlink, ⟨inserted, db₂⟩, henqueue, hpure⟩ := h
      cases hpure
      obtain ⟨requests', rfl, hlinking⟩ := Database.linkPublicRequest_eq_some hlink
      obtain ⟨hfresh, rfl⟩ := Database.enqueue_eq_some henqueue
      exact .inl ⟨a, requests', hfind, hretryable, hlinking, hfresh, rfl⟩
    · rename_i hretryable
      -- It is still open, or done: the request only joins it.
      unfold Database.joinAcquisition at h
      simp only [Option.bind_eq_bind, Option.bind_eq_some_iff] at h
      obtain ⟨db₁, hlink, hpure⟩ := h
      cases hpure
      obtain ⟨requests', rfl, hlinking⟩ := Database.linkPublicRequest_eq_some hlink
      exact .inr (.inl ⟨a, requests', hfind, by simpa using hretryable, hlinking, rfl⟩)
  · rename_i hfind
    -- There is none.
    unfold Database.newAcquisition at h
    simp only [Option.bind_eq_bind, Option.bind_eq_some_iff] at h
    obtain ⟨acquisitions, hinsert, db₁, hlink, ⟨inserted, db₂⟩, henqueue, hpure⟩ := h
    cases hpure
    obtain ⟨requests', rfl, hlinking⟩ := Database.linkPublicRequest_eq_some hlink
    obtain ⟨hfresh, rfl⟩ := Database.enqueue_eq_some henqueue
    exact .inr (.inr ⟨acquisitions, requests', hfind, hinsert, hlinking, hfresh, rfl⟩)

/-- The retried row is a row of the table after it. -/
theorem AcquisitionTable.mem_retry {t : AcquisitionTable} {a : Acquisition} (ha : a ∈ t.rows)
    (h : a.retryable = true) :
    ∃ a' ∈ (t.retry a.id).rows, a'.id = a.id ∧ a'.attemptNumber = a.attemptNumber + 1 := by
  have hbound : a.attemptNumber < 100 := by
    unfold Acquisition.retryable at h
    simp only [Bool.and_eq_true, decide_eq_true_eq] at h
    exact h.2
  refine ⟨_, updateWhere_mem_of_mem ha, ?_⟩
  simp only [beq_self_eq_true, if_true, dif_pos hbound]
  exact ⟨rfl, rfl⟩

/-! ## §4. The other transactions. -/

/-- What every transaction but `request_process` may do to the database. -/
structure DatabaseExtends (db db' : Database) : Prop where
  requests : Advances db.requests db'.requests
  acquisitions : AcquisitionsExtend db.acquisitions db'.acquisitions
  completions : db.completions ⊆ db'.completions
  jobs : JobsExtend (Founded db') db.jobs db'.jobs

/-- Nothing has happened. -/
theorem DatabaseExtends.refl (db : Database) : DatabaseExtends db db :=
  ⟨.refl _, .refl _, List.Subset.refl _, .refl _⟩

/-- An enqueue of a founded job. -/
theorem DatabaseExtends.enqueue {db db' : Database} {new : NewJob} {jobId : Uuid}
    {now : Timestamp} {inserted : Bool} (hfounded : Founded db (new.row jobId now))
    (h : db.enqueue new jobId now = some (inserted, db')) : DatabaseExtends db db' := by
  obtain ⟨-, rfl⟩ := Database.enqueue_eq_some h
  exact ⟨.refl _, .refl _, List.Subset.refl _,
    .insertNew (hfounded.mono (.refl _) (List.Subset.refl _) (.refl _))⟩

section Transactions

variable {db db' : Database} {now : Timestamp} {jobId : Uuid}

/-- What the callback of a completion leaves. -/
theorem Database.complete_eq_some {requestId : String}
    (h : db.complete requestId jobId now = some db') :
    jobId ∉ db.jobs.rows.map Job.id ∧
      db' = { db with
        completions := if requestId ∈ db.completions then db.completions
          else db.completions ++ [requestId]
        jobs := (db.jobs.insertNew (finalizeJob requestId (finalizeKey requestId)) jobId now).2 } := by
  unfold Database.complete at h
  simp only [Option.bind_eq_bind, Option.bind_eq_some_iff] at h
  obtain ⟨⟨inserted, db₁⟩, henqueue, hpure⟩ := h
  cases hpure
  exact Database.enqueue_eq_some henqueue

/-- The completion is recorded. -/
theorem mem_completions {requestId : String} {completions : List String} :
    requestId ∈ (if requestId ∈ completions then completions else completions ++ [requestId]) := by
  split
  · assumption
  · simp

/-- Those that were recorded stay. -/
theorem subset_completions {requestId : String} {completions : List String} :
    completions ⊆ (if requestId ∈ completions then completions else completions ++ [requestId]) := by
  split
  · exact List.Subset.refl _
  · exact List.subset_append_left _ _

/-- **The callback of a completion extends the database.** -/
theorem databaseExtends_complete {requestId : String}
    (h : db.complete requestId jobId now = some db') : DatabaseExtends db db' := by
  obtain ⟨-, rfl⟩ := Database.complete_eq_some h
  exact ⟨.refl _, .refl _, subset_completions,
    .insertNew (founded_finalizeJob mem_completions)⟩

/-- A lawsuit response changes the archive, and may enqueue a repair. -/
theorem Database.lawsuit_eq_some {e : LawsuitResponse} {reads : LawsuitReads}
    {newProcess newVersion : String}
    (h : db.lawsuit e reads newProcess newVersion jobId now = some db') :
    ∃ archive jobs, db' = { db with archive := archive, jobs := jobs } ∧
      (∀ tenantId code, db.archive.Serves tenantId code → archive.Serves tenantId code) ∧
      (jobs = db.jobs ∨ ∃ requestId, jobs = (db.jobs.insertNew (finalizeJob requestId
        (finalizeRepairKey requestId e.sourceId)) jobId now).2) := by
  unfold Database.lawsuit at h
  have hstaged : ∀ tenantId code, db.archive.Serves tenantId code →
      (db.archive.stage e newProcess newVersion now).2.Serves tenantId code :=
    fun _ _ hserves => hserves.stage
  generalize hstage : db.archive.stage e newProcess newVersion now = staged at h hstaged
  obtain ⟨processId, archive⟩ := staged
  simp only at h hstaged
  split at h
  · cases h
    exact ⟨_, _, rfl, hstaged, .inl rfl⟩
  · rename_i requestId heq
    have hgranted : ∀ tenants tenantId code, db.archive.Serves tenantId code →
        (if reads.recorded then archive.grant tenants processId else archive).Serves
          tenantId code := by
      intro tenants tenantId code hserves
      split
      · exact (hstaged _ _ hserves).grant
      · exact hstaged _ _ hserves
    split at h
    · split at h
      · obtain ⟨⟨inserted, db₁⟩, henqueue, rfl⟩ := Option.map_eq_some_iff.1 h
        obtain ⟨-, rfl⟩ := Database.enqueue_eq_some henqueue
        exact ⟨_, _, rfl, hgranted _, .inr ⟨requestId, rfl⟩⟩
      · cases h
    · cases h
      exact ⟨_, _, rfl, hgranted _, .inl rfl⟩

/-- **So does the callback of a lawsuit.** -/
theorem databaseExtends_lawsuit {e : LawsuitResponse} {reads : LawsuitReads}
    {newProcess newVersion : String}
    (h : db.lawsuit e reads newProcess newVersion jobId now = some db') :
    DatabaseExtends db db' := by
  obtain ⟨archive, jobs, rfl, -, rfl | ⟨requestId, rfl⟩⟩ := Database.lawsuit_eq_some h
  · exact ⟨.refl _, .refl _, List.Subset.refl _, .refl _⟩
  · exact ⟨.refl _, .refl _, List.Subset.refl _, .insertNew founded_repairJob⟩

/-- **So does reclaiming the stale jobs.** -/
theorem databaseExtends_reclaim {timeoutSeconds : Int} {locked unseen : List Uuid}
    (h : db.reclaim timeoutSeconds now locked unseen = some db') : DatabaseExtends db db' := by
  unfold Database.reclaim at h
  split at h
  · cases h
  · rename_i rows jobs heq
    cases h
    exact ⟨advances_markAllDead _ _, .refl _, List.Subset.refl _, .reclaim heq⟩

end Transactions

/-! ## §5. What a finalization hands on. -/

/-- The next job is about the Judit request, and needs nothing to be
founded. -/
structure HandsOn (requestId : String) (new : NewJob) : Prop where
  about : ∀ id now, Attaches requestId (new.row id now) ∨ Generates requestId (new.row id now)
  founded : ∀ db id now, Founded db (new.row id now)

/-- The job of the attachments hands the request on. -/
theorem handsOn_attachmentsJob {processId versionId requestId : String} :
    HandsOn requestId (attachmentsJob processId versionId requestId) :=
  ⟨fun _ _ => .inl attaches_attachmentsJob, fun _ _ _ => founded_attachmentsJob⟩

/-- So does the job of the summary. -/
theorem handsOn_summaryJob {processId versionId code requestId about : String} {kind : KeyKind}
    (hfinalize : kind ≠ .finalize) (hacquire : kind ≠ .acquire) :
    HandsOn requestId (summaryJob processId versionId code requestId (jobKey kind about)) :=
  ⟨fun _ _ => .inr generates_summaryJob, fun _ _ _ => founded_summaryJob hfinalize hacquire⟩

/-- **A finalization hands its request on, or ends it.** -/
theorem finalizedPlan_next (archive : Archive) (requestId code : String) (v : Version)
    (reads : FinalizeReads) (promoted : Bool) :
    (∀ new ∈ (finalizedPlan archive requestId code v reads promoted).next,
      HandsOn requestId new) ∧
    ((finalizedPlan archive requestId code v reads promoted).next = none →
      ∃ t ∈ (finalizedPlan archive requestId code v reads promoted).transitions,
        t.status.terminal = true) := by
  unfold finalizedPlan
  simp only
  split
  · refine ⟨fun new hnew => ?_, fun hnone => (nomatch hnone)⟩
    obtain rfl := Option.some.inj hnew
    split
    · exact handsOn_attachmentsJob
    · exact handsOn_summaryJob (by decide) (by decide)
  · split
    · refine ⟨fun new hnew => (nomatch hnew), fun _ => ⟨_, List.mem_append_right _
        (List.mem_singleton_self _), rfl⟩⟩
    · split
      · refine ⟨fun new hnew => ?_, fun hnone => (nomatch hnone)⟩
        obtain rfl := Option.some.inj hnew
        exact handsOn_summaryJob (by decide) (by decide)
      · refine ⟨fun new hnew => (nomatch hnew), fun _ => ⟨_, List.mem_append_right _
          (List.mem_singleton_self _), rfl⟩⟩

/-- A plan goes on with the archive it was given. -/
theorem finalizedPlan_archive (archive : Archive) (requestId code : String) (v : Version)
    (reads : FinalizeReads) (promoted : Bool) :
    (finalizedPlan archive requestId code v reads promoted).archive = archive := by
  unfold finalizedPlan
  simp only
  split
  · rfl
  · split
    · rfl
    · split <;> rfl

/-- **What the plan of a finalization can be.** -/
theorem finalizePlan_eq_some {archive : Archive} {requestId : String} {reads : FinalizeReads}
    {plan : FinalizePlan} (h : finalizePlan archive requestId reads = some plan) :
    (∀ new ∈ plan.next, HandsOn requestId new) ∧
    (plan.next = none → ∃ t ∈ plan.transitions, t.status.terminal = true) ∧
    (∀ tenantId code, archive.Serves tenantId code → plan.archive.Serves tenantId code) := by
  unfold finalizePlan at h
  simp only at h
  split at h
  · cases h
    exact ⟨fun _ hnew => (nomatch hnew), fun _ => ⟨_, List.mem_cons_of_mem _
      (List.mem_singleton_self _), rfl⟩, fun _ _ hserves => hserves⟩
  · split at h
    · split at h
      · rename_i hfinalize
        cases h
        obtain ⟨hnext, hend⟩ := finalizedPlan_next _ _ _ _ _ _
        refine ⟨hnext, hend, fun tenantId code hserves => ?_⟩
        rw [finalizedPlan_archive]
        exact hserves.finalizeVersion hfinalize
      · cases h
    · cases h
      exact ⟨fun _ hnew => (nomatch hnew), fun _ => ⟨_, List.mem_cons_of_mem _
        (List.mem_singleton_self _), rfl⟩, fun _ _ hserves => hserves⟩

/-- The summary job after the attachments is about their request. -/
theorem attachmentsNext_eq_some {archive : Archive} {payload : Json} {next : Option NewJob}
    (h : attachmentsNext archive payload = some next) :
    ∃ requestId, payloadText payload "judit_request_id" = some requestId ∧
      ∀ new ∈ next, HandsOn requestId new := by
  unfold attachmentsNext at h
  split at h
  · rename_i processId versionId requestId hprocess hversion hrequest
    split at h
    · cases h
    · split at h
      · split at h
        · cases h
          refine ⟨requestId, hrequest, fun new hnew => ?_⟩
          obtain rfl := Option.some.inj hnew
          exact handsOn_summaryJob (by decide) (by decide)
        · cases h
          exact ⟨requestId, hrequest, fun _ hnew => (nomatch hnew)⟩
      · cases h
  · cases h

section TransitionAll

variable {t : AcquisitionTable} {unseen : List Uuid} {requestId : String} {now : Timestamp}
  {transitions : List Transition} {requests : List PublicRequest}

/-- The transitions of a plan advance the requests. -/
theorem advances_transitionAll :
    Advances requests (transitionAll t unseen requestId now transitions requests) := by
  unfold transitionAll
  induction transitions generalizing requests with
  | nil => exact .refl _
  | cons _ _ ih => exact (Advances.transitionMany _ _ _ _).trans ih

/-- A terminal transition among them leaves nobody waiting but those its
`SELECT` missed. -/
theorem transitionAll_settles {a : Acquisition} (ha : a ∈ t.rows)
    (hrequest : a.juditRequestId = some requestId)
    (h : ∃ transition ∈ transitions, transition.status.terminal = true)
    (hw : WaitingFor (transitionAll t unseen requestId now transitions requests) a.id) :
    Missed unseen requests a.id := by
  obtain ⟨transition, hmem, hterminal⟩ := h
  unfold transitionAll at hw
  induction transitions generalizing requests with
  | nil => cases hmem
  | cons first rest ih =>
      rcases List.mem_cons.1 hmem with rfl | hmem
      · have hrest : Advances
            (transitionRequestsForJuditRequest t unseen requestId transition now requests)
            (transitionAll t unseen requestId now rest
              (transitionRequestsForJuditRequest t unseen requestId transition now requests)) :=
          advances_transitionAll
        exact missed_of_juditRequest hterminal ha hrequest (hrest.waitingFor hw)
      · exact (Advances.transitionMany _ _ _ _).missed (ih hw hmem)

end TransitionAll

/-- **An enqueue of the next job.** -/
theorem Database.enqueueNext_eq_some {db db' : Database} {next : Option NewJob} {jobId : Uuid}
    {now : Timestamp} (h : db.enqueueNext next jobId now = some db') :
    (next = none ∧ db' = db) ∨
      ∃ new, next = some new ∧ jobId ∉ db.jobs.rows.map Job.id ∧
        db' = { db with jobs := (db.jobs.insertNew new jobId now).2 } := by
  unfold Database.enqueueNext at h
  split at h
  · cases h
    exact .inl ⟨rfl, rfl⟩
  · rename_i new
    obtain ⟨⟨inserted, db₁⟩, henqueue, rfl⟩ := Option.map_eq_some_iff.1 h
    exact .inr ⟨new, rfl, Database.enqueue_eq_some henqueue⟩

/-- The job that a plan enqueues hands the request on. -/
theorem databaseExtends_enqueueNext {db db' : Database} {next : Option NewJob} {jobId : Uuid}
    {now : Timestamp} {requestId : String} (hnext : ∀ new ∈ next, HandsOn requestId new)
    (h : db.enqueueNext next jobId now = some db') : DatabaseExtends db db' := by
  rcases Database.enqueueNext_eq_some h with ⟨-, rfl⟩ | ⟨new, rfl, -, rfl⟩
  · exact .refl _
  · exact ⟨.refl _, .refl _, List.Subset.refl _, .insertNew ((hnext new rfl).founded _ _ _)⟩

/-- **A finalization extends the database.** -/
theorem databaseExtends_finalize {db db' : Database} {requestId : String} {plan : FinalizePlan}
    {jobId : Uuid} {now : Timestamp} {unseen : List Uuid}
    (hnext : ∀ new ∈ plan.next, HandsOn requestId new)
    (h : db.finalize unseen requestId plan jobId now = some db') : DatabaseExtends db db' := by
  have hrest := databaseExtends_enqueueNext hnext h
  exact ⟨advances_transitionAll.trans hrest.requests, hrest.acquisitions, hrest.completions,
    hrest.jobs⟩

/-! ## §6. The tasks. -/

/-- What a call leaves settled: it was, or the acquisition has its request
id. -/
def SettlesWith (run : TaskRun) (db' : Database) (stage : Option Stage) : Prop :=
  stage = some .settled → run.stage = .settled ∨
    ∀ a ∈ db'.acquisitions.rows, Acquires a.id run.row → a.juditRequestId ≠ none

/-- A task of another name acquires nothing. -/
theorem settlesWith_of_task {run : TaskRun} {db' : Database} {stage : Option Stage}
    (h : run.row.taskName ≠ "request_judit_process") : SettlesWith run db' stage :=
  fun _ => .inr fun _ _ hacquires => absurd hacquires.1 h

section Calls

variable {run : TaskRun} {db db' : Database} {now : Timestamp} {stage : Option Stage}
  {unseen : List Uuid}

/-- A step of a task that only reads the acquisition. -/
theorem TaskRun.fetch_extends (h : run.fetch db now unseen = some (db', stage)) :
    DatabaseExtends db db' ∧ SettlesWith run db' stage := by
  unfold TaskRun.fetch at h
  split at h
  · cases h
    exact ⟨.refl _, fun hs => by cases hs⟩
  · rename_i id habout
    split at h
    · cases h
      exact ⟨.refl _, fun hs => by cases hs⟩
    · rename_i a hfind
      cases h
      refine ⟨⟨.transitionMany _ _ _ _, .refl _, List.Subset.refl _, .refl _⟩,
        fun hs => .inr fun a' ha' hacquires => ?_⟩
      obtain ⟨ha, hid⟩ := AcquisitionTable.byId?_eq_some hfind
      -- the row that was read is the one the payload names
      have hsame : a'.id = id := Option.some.inj (hacquires.2.symm.trans habout)
      obtain rfl := AcquisitionTable.eq_of_id ha ha' (hid.trans hsame.symm)
      intro hnone
      simp [hnone] at hs

/-- The acquisition's row has a request id after its transaction. -/
theorem recorded_of_acquires {t : AcquisitionTable} {id requestId : String}
    {hne : requestId ≠ ""} {tenant : Option Uuid} (habout : run.about "tenant_request_id" = some id)
    (hrecord : db.acquisitions.record id requestId hne = some (tenant, t)) :
    ∀ a ∈ t.rows, Acquires a.id run.row → a.juditRequestId ≠ none := by
  intro a ha hacquires
  have hid : a.id = id := Option.some.inj (hacquires.2.symm.trans habout)
  rcases AcquisitionTable.record_eq_some hrecord with ⟨-, rfl, hset⟩ | ⟨-, -, -, -, -, -, hrows⟩
  · exact hset a ha hid
  · rw [hrows] at ha
    rcases mem_updateWhere.1 ha with ⟨a₀, -, -, rfl⟩ | ⟨-, hclosed⟩
    · exact Option.some_ne_none _
    · intro hnone
      rw [Acquisition.isOpen_iff.2 ⟨hid, hnone⟩] at hclosed
      cases hclosed

/-- The provider accepted: the row has a request id. -/
theorem TaskRun.accepted_extends {requestId : String} {process : Option String}
    (h : run.accepted db requestId process = some (db', stage)) :
    DatabaseExtends db db' ∧ SettlesWith run db' stage := by
  unfold TaskRun.accepted at h
  split at h
  · cases h
  · rename_i id habout
    split at h
    · cases h
    · rename_i hne
      split at h
      · cases h
      · rename_i t hrecord
        cases h
        rcases AcquisitionTable.record_eq_some hrecord with ⟨-, rfl, -⟩ | ⟨_, -, htenant, -⟩
        · exact ⟨.refl _, fun _ => .inr (recorded_of_acquires habout hrecord)⟩
        · cases htenant
      · rename_i tenantId acquisitions hrecord
        have hset := recorded_of_acquires habout hrecord
        split at h
        · cases h
          exact ⟨⟨.refl _, .record hrecord, List.Subset.refl _, .refl _⟩, fun _ => .inr hset⟩
        · split at h
          · cases h
            exact ⟨⟨.refl _, .record hrecord, List.Subset.refl _, .refl _⟩, fun _ => .inr hset⟩
          · cases h

/-- A call that the provider rejected, by what can be done again. -/
theorem TaskRun.rejected_extends {retrySafe : Bool}
    (h : run.rejected db retrySafe now unseen = some (db', stage)) :
    DatabaseExtends db db' ∧ SettlesWith run db' stage := by
  unfold TaskRun.rejected at h
  split at h
  · cases h
  · cases h
    exact ⟨⟨.transitionMany _ _ _ _, .refuse, List.Subset.refl _, .refl _⟩, fun hs => by cases hs⟩

/-- The start of a generation. -/
theorem TaskRun.start_extends (htask : run.row.taskName = "generate_process_summary")
    (h : run.start db now unseen = some (db', stage)) :
    DatabaseExtends db db' ∧ SettlesWith run db' stage := by
  unfold TaskRun.start at h
  have hjobs : ∀ {ok : Job → Prop}, JobsExtend ok db.jobs
      (heartbeat db.jobs run.row.id run.worker now).2 := .heartbeat
  split at h <;> rename_i heq <;> cases h <;> rw [heq] at hjobs
  · exact ⟨⟨advances_markJobStarted _ _, .refl _, List.Subset.refl _, hjobs⟩,
      settlesWith_of_task (by rw [htask]; decide)⟩
  · exact ⟨⟨.refl _, .refl _, List.Subset.refl _, hjobs⟩, fun hs => by cases hs⟩

/-- The end of a job that returned. -/
theorem TaskRun.complete_extends {result : Json} {g : GenerationReads}
    (h : run.complete db result g now = some (db', stage)) :
    DatabaseExtends db db' ∧ SettlesWith run db' stage := by
  unfold TaskRun.complete at h
  have hjobs : ∀ {ok : Job → Prop}, JobsExtend ok db.jobs
      (Queue.complete db.jobs run.row.id run.worker result now).2 := .complete
  split at h <;> rename_i heq <;> rw [heq] at hjobs
  · split at h
    · cases h
      exact ⟨⟨advances_reconcileGenerationResult _ _, .refl _, List.Subset.refl _, hjobs⟩,
        fun hs => by cases hs⟩
    · cases h
      exact ⟨⟨.refl _, .refl _, List.Subset.refl _, hjobs⟩, fun hs => by cases hs⟩
  · cases h
    exact ⟨⟨.refl _, .refl _, List.Subset.refl _, hjobs⟩, fun hs => by cases hs⟩

/-- The end of a job that raised. -/
theorem TaskRun.fail_extends {failure : Failure}
    (h : run.fail db failure now unseen = some (db', stage)) :
    DatabaseExtends db db' ∧ SettlesWith run db' stage := by
  unfold TaskRun.fail at h
  have hjobs : ∀ {ok : Job → Prop}, JobsExtend ok db.jobs
      (Queue.fail db.jobs run.row.id run.worker failure now).2 := .fail
  generalize Queue.fail db.jobs run.row.id run.worker failure now = failed at h hjobs
  obtain ⟨status, jobs⟩ := failed
  cases h
  refine ⟨⟨?_, .refl _, List.Subset.refl _, hjobs⟩, fun hs => by cases hs⟩
  show Advances db.requests (if status = some .dead then _ else _)
  split
  · exact advances_markJobDead _ _
  · exact .refl _

/-- **Every step of a task extends the database**, and settles only with a
request id. -/
theorem TaskRun.call_extends {c : TaskCall} (h : run.call db now c = some (db', stage)) :
    DatabaseExtends db db' ∧ SettlesWith run db' stage := by
  cases c with
  | fetch unseen =>
      simp only [TaskRun.call] at h
      split at h
      · exact TaskRun.fetch_extends h
      · cases h
  -- The call to the provider changes no row.
  | send =>
      simp only [TaskRun.call] at h
      split at h
      · cases h
        exact ⟨.refl _, fun hs => by cases hs⟩
      · cases h
  | accepted requestId process =>
      simp only [TaskRun.call] at h
      split at h
      · exact TaskRun.accepted_extends h
      · cases h
  | rejected retrySafe unseen =>
      simp only [TaskRun.call] at h
      split at h
      · exact TaskRun.rejected_extends h
      · cases h
  | finalize reads jobId =>
      simp only [TaskRun.call] at h
      split at h
      · rename_i hclaimed
        split at h
        · cases h
        · split at h
          · cases h
          · rename_i plan hplan
            obtain ⟨db₁, hfinalize, hpure⟩ := Option.map_eq_some_iff.1 h
            cases hpure
            exact ⟨databaseExtends_finalize (finalizePlan_eq_some hplan).1 hfinalize,
              settlesWith_of_task (by rw [hclaimed.2]; decide)⟩
      · cases h
  | attach jobId =>
      simp only [TaskRun.call] at h
      split at h
      · rename_i hclaimed
        split at h
        · cases h
        · rename_i next hnext
          obtain ⟨db₁, henqueue, hpure⟩ := Option.map_eq_some_iff.1 h
          cases hpure
          obtain ⟨requestId, -, hhands⟩ := attachmentsNext_eq_some hnext
          exact ⟨databaseExtends_enqueueNext hhands henqueue,
            settlesWith_of_task (by rw [hclaimed.2]; decide)⟩
      · cases h
  | start unseen =>
      simp only [TaskRun.call] at h
      split at h
      · rename_i hclaimed
        exact TaskRun.start_extends hclaimed.2 h
      · cases h
  -- A heartbeat writes the times of one job.
  | heartbeat =>
      simp only [TaskRun.call] at h
      cases h
      exact ⟨⟨.refl _, .refl _, List.Subset.refl _, .heartbeat⟩,
        fun hs => .inl (Option.some.inj hs)⟩
  | complete result g =>
      simp only [TaskRun.call] at h
      split at h
      · exact TaskRun.complete_extends h
      · cases h
  | fail failure unseen => exact TaskRun.fail_extends h

end Calls

end Rpy.Lifecycle

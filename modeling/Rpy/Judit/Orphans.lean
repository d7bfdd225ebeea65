/-
  Rpy.Judit.Orphans
  ─────────────────
  **WHEN A LAWSUIT RESPONSE AND THE COMPLETION BOTH HAVE A FINALIZER.**

    • `NoOrphan`   — once the completion is recorded, every staged response
                     has a finalize job that is pending or processing, or
                     one that began after the response was staged,
    • `Announced`  — a lawsuit transaction that commits a payload after the
                     completion enqueues its repair job, or finds a finalize
                     job pending,
    • `noOrphan_along` — along every run whose commits are announced, no
                     response is an orphan.

  Two kinds of commits are not announced: the check ran before the
  completion committed, or the repair key was used by an earlier delivery
  of the same response.
-/
import Rpy.Judit.Webhook

namespace Rpy.Judit

open Rpy.Foundation Rpy.Queue

/-! ## §1. The property and the condition. -/

/-- The job was last claimed after the clock stood at `n`. -/
def Inbox.BeganAfter (s : Inbox) (j : Job) (n : Nat) : Prop :=
  ∃ b ∈ s.beganAt.lookup j.id, n < b

/-- **No orphaned lawsuit response.** -/
def NoOrphan (a : Acquisition) (s : Inbox) : Prop :=
  s.completed = true → ∀ v ∈ s.versions, ∃ j ∈ s.jobs.rows, isFinalizeJob a j = true ∧
    (j.status = .pending ∨ j.status = .processing ∨ s.BeganAfter j v.stagedAt)

instance (s : Inbox) (j : Job) (n : Nat) : Decidable (s.BeganAfter j n) := by
  unfold Inbox.BeganAfter
  infer_instance

instance (a : Acquisition) (s : Inbox) : Decidable (NoOrphan a s) := by
  unfold NoOrphan
  infer_instance

/-- The commit of a payload after the completion enqueues its repair job, or
finds a finalize job pending. -/
def Announced (a : Acquisition) (s : Inbox) : Event → Prop
  | .commit tx _ _ =>
      ∀ t ∈ s.lawsuits.find? fun t => t.id == tx && t.sawCompleted.isSome,
        s.completed = true → stages s.versions t.response = true →
          (t.sawCompleted = some true ∧
            s.jobs.keyTaken (some (repairKey a t.response)) = false) ∨
          ∃ j ∈ s.jobs.rows, isFinalizeJob a j = true ∧ j.status = .pending
  | _ => True

instance (a : Acquisition) (s : Inbox) (ev : Event) : Decidable (Announced a s ev) := by
  cases ev <;> unfold Announced <;> infer_instance

/-! ## §2. The invariant. -/

/-- A finalize job is to begin after the clock stood at `n`, or has. -/
def Pursued (a : Acquisition) (s : Inbox) (n : Nat) : Prop :=
  ∃ j ∈ s.jobs.rows, isFinalizeJob a j = true ∧ (j.status = .pending ∨ s.BeganAfter j n)

/-- What every announced step keeps. -/
structure Consistent (a : Acquisition) (s : Inbox) : Prop where
  staged : ∀ v ∈ s.versions, v.stagedAt < s.clock
  /-- the completion's own key is used by the completion only -/
  completion : s.jobs.keyTaken (some (finalizeKey a)) = true → s.completed = true
  pursued : s.completed = true → ∀ v ∈ s.versions, Pursued a s v.stagedAt

theorem Consistent.noOrphan {a : Acquisition} {s : Inbox} (h : Consistent a s) : NoOrphan a s := by
  intro hc v hv
  obtain ⟨j, hj, hjob, hstatus⟩ := h.pursued hc v hv
  exact ⟨j, hj, hjob, hstatus.elim .inl fun hb => .inr (.inr hb)⟩

/-! ### Keys. -/

/-- A repair key is not the completion's key. -/
theorem repairKey_ne_finalizeKey (a : Acquisition) (r : Response) :
    repairKey a r ≠ finalizeKey a := by
  intro h
  unfold repairKey finalizeKey at h
  have hrepair : ∀ l : List Char, ("judit-finalize-repair:".toList ++ l)[14]? = some '-' := by
    intro l
    rw [List.getElem?_append_left (by decide)]
    decide
  have hfinalize : ∀ l : List Char, ("judit-finalize:".toList ++ l)[14]? = some ':' := by
    intro l
    rw [List.getElem?_append_left (by decide)]
    decide
  have hchar := congrArg (fun s : String => s.toList[14]?) h
  simp only [String.toList_append, List.append_assoc] at hchar
  rw [hrepair, hfinalize] at hchar
  exact absurd hchar (by decide)

theorem isFinalizeJob_row (a : Acquisition) (key : String) (id : Uuid) (now : Timestamp) :
    isFinalizeJob a ((finalizeJob a key).row id now) = true := by
  simp [isFinalizeJob, finalizeJob, NewJob.row]

theorem isFinalizeJob_congr {a : Acquisition} {j j' : Job} (h : j.SameJob j') :
    isFinalizeJob a j' = isFinalizeJob a j := by
  unfold isFinalizeJob
  rw [h.taskName, h.payload]

/-! ### Rows. -/

/-- A version afterwards was staged now, or is as before. -/
theorem mem_stageVersion {versions : List StagedVersion} {r : Response} {startedAt now : Nat}
    {v : StagedVersion} (hv : v ∈ stageVersion versions r startedAt now) :
    (v.stagedAt = now ∧ stages versions r = true) ∨ v ∈ versions := by
  unfold stageVersion at hv
  split at hv
  · obtain ⟨w, hw, rfl⟩ := List.mem_map.1 hv
    split
    · rename_i hsel
      refine .inl ⟨rfl, ?_⟩
      unfold stages
      rw [Bool.or_eq_true]
      exact .inr (List.any_eq_true.2 ⟨w, hw, hsel⟩)
    · exact .inr hw
  · rename_i hnone
    rcases List.mem_append.1 hv with hv | hv
    · exact .inr hv
    · obtain rfl := List.mem_singleton.1 hv
      exact .inl ⟨rfl, by simp [stages, hnone]⟩

/-- An insertion keeps what pursues a response. -/
theorem Pursued.insertNew {a : Acquisition} {s s' : Inbox} {n : Nat} {new : NewJob} {id : Uuid}
    {now : Timestamp} (h : Pursued a s n) (hjobs : s'.jobs = (s.jobs.insertNew new id now).2)
    (hbegan : s'.beganAt = s.beganAt) : Pursued a s' n := by
  obtain ⟨j, hj, hjob, hstatus⟩ := h
  refine ⟨j, by rw [hjobs]; exact JobTable.mem_insertNew_of_mem hj, hjob, ?_⟩
  unfold Inbox.BeganAfter at hstatus ⊢
  rw [hbegan]
  exact hstatus

/-- **A finalize job inserted pursues every response.** -/
theorem Pursued.of_insertNew {a : Acquisition} {s : Inbox} {n : Nat} {key : String} {id : Uuid}
    {now : Timestamp} {t : JobTable} (hjobs : s.jobs = (t.insertNew (finalizeJob a key) id now).2)
    (hkey : t.keyTaken (some key) = false) (hid : id ∉ t.rows.map Job.id) : Pursued a s n :=
  ⟨_, by rw [hjobs]; exact JobTable.row_mem_insertNew hkey hid, isFinalizeJob_row a key id now,
    .inl rfl⟩

/-- **Workers keep what pursues a response**: a pending finalize job stays
pending or begins now. -/
theorem Pursued.worker {a : Acquisition} {s s' : Inbox} {n : Nat} {op : WorkerOp}
    (h : Pursued a s n) (hn : n < s.clock) (hjobs : op.apply s.jobs = some s'.jobs)
    (hbegan : s'.beganAt = op.picks.toList.map (fun id => (id, s.clock)) ++ s.beganAt) :
    Pursued a s' n := by
  obtain ⟨j, hj, hjob, hstatus⟩ := h
  obtain ⟨j', hj', hstep⟩ := WorkerOp.successor hjobs hj
  have hsame := hstep.sameJob
  refine ⟨j', hj', by rw [isFinalizeJob_congr hsame]; exact hjob, ?_⟩
  by_cases hpick : op.picks = some j.id
  · -- claimed now, after the response was staged
    refine .inr ⟨s.clock, ?_, hn⟩
    rw [hbegan, hpick, hsame.id]
    simp
  · have hlookup : s'.beganAt.lookup j'.id = s.beganAt.lookup j.id := by
      rw [hbegan, hsame.id]
      cases hp : op.picks with
      | none => rfl
      | some pick =>
          have hne : (j.id == pick) = false := by
            simpa using fun heq : j.id = pick => hpick (by rw [hp, heq])
          simp [List.lookup_cons, hne]
    rcases hstatus with hpending | ⟨b, hb, hlt⟩
    · rw [hstep.eq_of_pending hpending hpick]
      exact .inl hpending
    · exact .inr ⟨b, by rw [hlookup]; exact hb, hlt⟩

theorem LawsuitTx.enqueue_of_saw {a : Acquisition} {t : LawsuitTx} {jobs : JobTable}
    {jobId : Uuid} {now : Timestamp} (h : t.sawCompleted = some true) :
    t.enqueue a jobs jobId now =
      (jobs.insertNew (finalizeJob a (repairKey a t.response)) jobId now).2 :=
  if_pos h

theorem LawsuitTx.enqueue_of_not_saw {a : Acquisition} {t : LawsuitTx} {jobs : JobTable}
    {jobId : Uuid} {now : Timestamp} (h : ¬ t.sawCompleted = some true) :
    t.enqueue a jobs jobId now = jobs :=
  if_neg h

/-- The completion's key afterwards was there before or is inserted now. -/
theorem keyTaken_insertNew {t : JobTable} {new : NewJob} {id : Uuid} {now : Timestamp}
    {key : String} (h : (t.insertNew new id now).2.keyTaken (some key) = true) :
    t.keyTaken (some key) = true ∨ new.idempotencyKey = some key := by
  obtain ⟨j, hj, hkey⟩ := JobTable.keyTaken_iff.1 h
  rcases JobTable.mem_insertNew hj with hj | rfl
  · exact .inl (JobTable.keyTaken_iff.2 ⟨j, hj, hkey⟩)
  · exact .inr hkey

theorem keyTaken_worker {t t' : JobTable} {op : WorkerOp} {key : String}
    (hop : op.apply t = some t') (h : t'.keyTaken (some key) = true) :
    t.keyTaken (some key) = true := by
  obtain ⟨j', hj', hkey⟩ := JobTable.keyTaken_iff.1 h
  obtain ⟨j, hj, hstep⟩ := WorkerOp.predecessor hop hj'
  exact JobTable.keyTaken_iff.2 ⟨j, hj, by rw [← hstep.sameJob.idempotencyKey, hkey]⟩

/-! ## §3. Steps and runs. -/

/-- A step that writes neither jobs, versions nor the completion. -/
theorem Consistent.frame {a : Acquisition} {s s' : Inbox} (h : Consistent a s)
    (hversions : s'.versions = s.versions) (hcompleted : s'.completed = s.completed)
    (hjobs : s'.jobs = s.jobs) (hbegan : s'.beganAt = s.beganAt) (hclock : s'.clock = s.clock + 1) :
    Consistent a s' where
  staged := by
    rw [hversions, hclock]
    exact fun v hv => Nat.lt_succ_of_lt (h.staged v hv)
  completion := by
    rw [hjobs, hcompleted]
    exact h.completion
  pursued := by
    rw [hversions, hcompleted]
    intro hc v hv
    obtain ⟨j, hj, hjob, hstatus⟩ := h.pursued hc v hv
    refine ⟨j, by rw [hjobs]; exact hj, hjob, ?_⟩
    unfold Inbox.BeganAfter at hstatus ⊢
    rw [hbegan]
    exact hstatus

/-- **A lawsuit commit keeps the invariant if it is announced.** -/
theorem Consistent.commitLawsuit {a : Acquisition} {s : Inbox} {t : LawsuitTx} {jobId : Uuid}
    {now : Timestamp} (h : Consistent a s) (hid : jobId ∉ s.jobs.rows.map Job.id)
    (hok : s.completed = true → stages s.versions t.response = true →
      (t.sawCompleted = some true ∧ s.jobs.keyTaken (some (repairKey a t.response)) = false) ∨
        ∃ j ∈ s.jobs.rows, isFinalizeJob a j = true ∧ j.status = .pending) :
    Consistent a { s.commitLawsuit a t jobId now with clock := s.clock + 1 } where
  staged := by
    intro v hv
    rcases mem_stageVersion hv with ⟨hnow, -⟩ | hold
    · exact hnow ▸ Nat.lt_succ_self _
    · exact Nat.lt_succ_of_lt (h.staged v hold)
  completion := by
    intro hkey
    show s.completed = true
    have hkey' : (t.enqueue a s.jobs jobId now).keyTaken (some (finalizeKey a)) = true := hkey
    unfold LawsuitTx.enqueue at hkey'
    split at hkey'
    · rcases keyTaken_insertNew hkey' with hold | hnew
      · exact h.completion hold
      · exact absurd (Option.some.inj hnew) (repairKey_ne_finalizeKey a t.response)
    · exact h.completion hkey'
  pursued := by
    intro hc v hv
    have hkeep : ∀ n, Pursued a s n →
        Pursued a { s.commitLawsuit a t jobId now with clock := s.clock + 1 } n := by
      intro n hp
      by_cases hsaw : t.sawCompleted = some true
      · exact hp.insertNew (LawsuitTx.enqueue_of_saw hsaw) rfl
      · obtain ⟨j, hj, hjob, hstatus⟩ := hp
        refine ⟨j, ?_, hjob, hstatus⟩
        show j ∈ (t.enqueue a s.jobs jobId now).rows
        rw [LawsuitTx.enqueue_of_not_saw hsaw]
        exact hj
    rcases mem_stageVersion hv with ⟨-, hstages⟩ | hold
    · rcases hok hc hstages with ⟨hsaw, hfree⟩ | ⟨j, hj, hjob, hpending⟩
      · exact Pursued.of_insertNew (LawsuitTx.enqueue_of_saw hsaw) hfree hid
      · exact hkeep _ ⟨j, hj, hjob, .inl hpending⟩
    · exact hkeep _ (h.pursued hc v hold)

/-- **The completion's commit keeps the invariant**: its job is new, or the
completion was recorded before. -/
theorem Consistent.commitCompletion {a : Acquisition} {s : Inbox} {callbackId : Option String}
    {jobId : Uuid} {now : Timestamp} (h : Consistent a s)
    (hid : jobId ∉ s.jobs.rows.map Job.id) :
    Consistent a { s.commitCompletion a callbackId jobId now with clock := s.clock + 1 } where
  staged := fun v hv => Nat.lt_succ_of_lt (h.staged v hv)
  completion := fun _ => rfl
  pursued := by
    intro _ v hv
    cases hkey : s.jobs.keyTaken (some (finalizeKey a)) with
    | false => exact Pursued.of_insertNew rfl hkey hid
    | true => exact (h.pursued (h.completion hkey) v hv).insertNew rfl rfl

/-- **Every announced step keeps the invariant.** -/
theorem Consistent.step {a : Acquisition} {s s' : Inbox} {ev : Event} (h : Consistent a s)
    (hok : Announced a s ev) (hs : s.step a ev = some s') : Consistent a s' := by
  obtain ⟨s₁, hs₁, rfl⟩ := Option.map_eq_some_iff.1 hs
  cases ev with
  | deliver tx response =>
      simp only [Inbox.apply] at hs₁
      split at hs₁
      · cases hs₁
      split at hs₁
      · cases hs₁
      split at hs₁
      · cases hs₁
      split at hs₁ <;> cases hs₁ <;> exact h.frame rfl rfl rfl rfl rfl
  | grant tx =>
      simp only [Inbox.apply] at hs₁
      split at hs₁ <;> cases hs₁
      exact h.frame rfl rfl rfl rfl rfl
  | check tx =>
      simp only [Inbox.apply] at hs₁
      split at hs₁ <;> cases hs₁
      exact h.frame rfl rfl rfl rfl rfl
  | commit tx jobId now =>
      simp only [Inbox.apply] at hs₁
      split at hs₁
      · cases hs₁
      · rename_i t hfind
        split at hs₁
        · cases hs₁
        · rename_i hid
          cases hs₁
          exact h.commitLawsuit hid (hok t hfind)
  | abort tx =>
      cases hs₁
      exact h.frame rfl rfl rfl rfl rfl
  | complete callbackId jobId now =>
      simp only [Inbox.apply] at hs₁
      split at hs₁
      · cases hs₁
      split at hs₁
      · cases hs₁
        exact h.frame rfl rfl rfl rfl rfl
      split at hs₁
      · cases hs₁
      · rename_i hid
        cases hs₁
        exact h.commitCompletion hid
  | select =>
      simp only [Inbox.apply] at hs₁
      split at hs₁ <;> cases hs₁
      exact h.frame rfl rfl rfl rfl rfl
  | record =>
      simp only [Inbox.apply] at hs₁
      split at hs₁ <;> cases hs₁
      exact h.frame rfl rfl rfl rfl rfl
  | worker op =>
      simp only [Inbox.apply] at hs₁
      split at hs₁
      · cases hs₁
      · rename_i jobs hop
        cases hs₁
        exact
          { staged := fun v hv => Nat.lt_succ_of_lt (h.staged v hv)
            completion := fun hkey => h.completion (keyTaken_worker hop hkey)
            pursued := fun hc v hv =>
              (h.pursued hc v hv).worker (h.staged v hv) hop rfl }
  | finalize code sourceId =>
      simp only [Inbox.apply] at hs₁
      split at hs₁
      · cases hs₁
      split at hs₁
      · cases hs₁
        -- the payloads, and when they were staged, are as before
        have hold : ∀ v ∈ s.versions.map (fun v =>
            if v.code == code && v.sourceId == sourceId then { v with finalized := true } else v),
            ∃ w ∈ s.versions, w.stagedAt = v.stagedAt := by
          intro v hv
          obtain ⟨w, hw, rfl⟩ := List.mem_map.1 hv
          refine ⟨w, hw, ?_⟩
          split <;> rfl
        exact
          { staged := fun v hv => by
              obtain ⟨w, hw, hsame⟩ := hold v hv
              exact hsame ▸ Nat.lt_succ_of_lt (h.staged w hw)
            completion := h.completion
            pursued := fun hc v hv => by
              obtain ⟨w, hw, hsame⟩ := hold v hv
              exact hsame ▸ h.pursued hc w hw }
      · cases hs₁

theorem consistent_init (a : Acquisition) : Consistent a {} where
  staged := fun _ hv => nomatch hv
  completion := fun hkey => by simp [JobTable.keyTaken, JobTable.empty] at hkey
  pursued := fun hc => nomatch hc

/-- **Along every run whose commits are announced, no lawsuit response is
an orphan.** -/
theorem noOrphan_along (a : Acquisition) (events : List Event)
    (hannounced : Guarded (Inbox.step a) (Announced a) {} events) :
    Along (Inbox.step a) (NoOrphan a) {} events :=
  along_of_guarded (Consistent a) (consistent_init a) (fun _ _ _ h hok hs => h.step hok hs)
    (fun _ h => h.noOrphan) hannounced

/-! ## §4. A late response, and one that overlaps the completion. -/

/-- The request of the runs below. -/
def sampleAcquisition : Acquisition := ⟨7, "req-1"⟩

/-- Its response. -/
def sampleResponse : Response where
  callbackId := some "cb-1"
  responseId := some "resp-1"
  code := "0000000-00.0000.0.00.0701"
  stable := rfl

/-- A worker takes the job and completes it. -/
def runJob (job : Uuid) (now : Timestamp) : List Event :=
  [.worker (.claim 1 now [] job), .worker (.complete job 1 (.obj []) now)]

/-- The response comes after the completion was consumed. -/
def lateRun : List Event :=
  .complete (some "cb-2") 10 0 :: runJob 10 1 ++
    [.deliver 1 sampleResponse, .grant 1, .check 1, .commit 1 11 2]

/-- The late response's commit enqueues its repair job. -/
theorem noOrphan_along_lateRun :
    Along (Inbox.step sampleAcquisition) (NoOrphan sampleAcquisition) {} lateRun :=
  noOrphan_along sampleAcquisition lateRun (by decide)

/-- The completion commits, and its job runs, between the response's
completion check and its commit. -/
def overlappingRun : List Event :=
  [.deliver 1 sampleResponse, .grant 1, .check 1, .complete (some "cb-2") 10 0] ++
    runJob 10 1 ++ [.commit 1 11 2]

theorem overlappingRun_orphan :
    ∃ s ∈ run (Inbox.step sampleAcquisition) {} overlappingRun,
      ¬ NoOrphan sampleAcquisition s := by
  decide

/-- Some interleaving leaves an orphan. -/
theorem not_noOrphan_overlappingRun :
    ¬ ∀ (a : Acquisition) (events : List Event), Along (Inbox.step a) (NoOrphan a) {} events := by
  intro h
  obtain ⟨s, hs, horphan⟩ := overlappingRun_orphan
  exact horphan ((h sampleAcquisition overlappingRun).last hs)

end Rpy.Judit

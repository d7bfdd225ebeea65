/-
  Rpy.Lifecycle.PaidCalls
  ───────────────────────
  **HOW OFTEN AN ACQUISITION PAYS** (`app/process_requests.py`).

  `create_lawsuit_request` is called outside every transaction.  The log
  beside the pipeline says which acquisition each call was made for, and how
  it ended.  What allows a call is a job that nobody has claimed, or a run
  that has not called yet; there is never more than one of these, and a new
  one comes only from a recorded retry-safe rejection.

    • `Audit.step`            — the pipeline with its log,
    • `PaidOnce`              — the property of the log,
    • `Paid`                  — the invariant of one acquisition,
    • `paidOnce_of_reachable` — in every interleaving, every acquisition is
                                paid once more at most than it is refused,
                                and never again after another outcome.
-/
import Rpy.Lifecycle.WellFormed
import Rpy.Queue.Tickets

namespace Rpy.Lifecycle

open Rpy.Foundation Rpy.Queue

/-! ## §1. The log. -/

/-- What happens to the create calls of an acquisition. -/
inductive CallEntry where
  /-- `create_lawsuit_request` is called -/
  | sent (acquisition : String)
  /-- a call ended in a retry-safe rejection, and the row records it -/
  | refused (acquisition : String)
  /-- a call was accepted, and the row records its request id -/
  | recorded (acquisition : String)
  /-- a call ended in any other way: without an answer, with an ambiguous
  one, or with one that the row does not record -/
  | ambiguous (acquisition : String)
deriving Repr, DecidableEq

/-- The acquisition a run of `request_judit_process_task` is about. -/
def TaskRun.acquires (run : TaskRun) : Option String :=
  if run.row.taskName = "request_judit_process" then run.about "tenant_request_id" else none

/-- What a step of the task adds to the log. -/
def TaskRun.entries (run : TaskRun) (t : AcquisitionTable) (id : String) :
    TaskCall → List CallEntry
  | .send => [.sent id]
  | .accepted _ _ =>
      [if t.rows.any (Acquisition.isOpen id) then .recorded id else .ambiguous id]
  | .rejected true _ =>
      [if t.rows.any (Acquisition.isOpen id) then .refused id else .ambiguous id]
  | .rejected false _ => [.ambiguous id]
  -- any other exception, while the call is in flight
  | .fail _ _ => if run.stage = .calling then [.ambiguous id] else []
  | _ => []

/-- What an event adds to the log. -/
def Pipeline.entries (s : Pipeline) : Event → List CallEntry
  | .call worker slot _ c =>
      match s.runs.find? (TaskRun.isAt worker slot) with
      | none => []
      | some run =>
          match run.acquires with
          | none => []
          | some id => run.entries s.db.acquisitions id c
  | .vanish worker slot =>
      match s.runs.find? (TaskRun.isAt worker slot) with
      | none => []
      | some run =>
          match run.acquires with
          | none => []
          | some id => if run.stage = .calling then [.ambiguous id] else []
  | _ => []

/-- The pipeline and its log. -/
structure Audit where
  pipeline : Pipeline := {}
  log : List CallEntry := []
deriving DecidableEq

def Audit.step (s : Audit) (e : Event) : Option Audit :=
  (s.pipeline.step e).map fun pipeline =>
    { pipeline := pipeline, log := s.log ++ s.pipeline.entries e }

/-- Nothing but a recorded refusal comes before a call. -/
def CallEntry.Allows (id : String) (earlier later : CallEntry) : Prop :=
  later = .sent id → earlier ≠ .ambiguous id ∧ earlier ≠ .recorded id

instance (id : String) (x y : CallEntry) : Decidable (x.Allows id y) :=
  inferInstanceAs (Decidable (_ → _))

/-- **One call, and one more for each recorded retry-safe rejection; none
after an ambiguous outcome or a recorded request id.** -/
def PaidOnce (log : List CallEntry) (id : String) : Prop :=
  log.count (.sent id) ≤ 1 + log.count (.refused id) ∧ log.Pairwise (CallEntry.Allows id)

instance (log : List CallEntry) (id : String) : Decidable (PaidOnce log id) :=
  inferInstanceAs (Decidable (_ ∧ _))

/-! ## §2. What allows a call. -/

/-- The run has not called yet. -/
def Stage.mayCall : Stage → Bool
  | .claimed | .fetched => true
  | _ => false

def mayCallRuns (id : String) (runs : List TaskRun) : Nat :=
  runs.countP fun r => decide (Acquires id r.row) && r.stage.mayCall

def callingRuns (id : String) (runs : List TaskRun) : Nat :=
  runs.countP fun r => decide (Acquires id r.row) && r.stage == .calling

/-- What allows a call for the acquisition. -/
def Pipeline.tickets (s : Pipeline) (id : String) : Nat :=
  unclaimed (Acquires id) s.db.jobs + mayCallRuns id s.runs

/-- What a statement does that claims nothing and adds no acquisition
job. -/
structure KeepsAcquisitions (t t' : JobTable) : Prop where
  unclaimed : ∀ id, unclaimed (Acquires id) t' = Queue.unclaimed (Acquires id) t
  single : SingleAttempt "request_judit_process" t → SingleAttempt "request_judit_process" t'

section Jobs

variable {t t' : JobTable} {now : Timestamp}

theorem fixed_acquires (id : String) : Fixed (Acquires id) :=
  fun _ _ h => ⟨fun ha => ha.to_sameJob h, fun ha => ha.of_sameJob h⟩

theorem KeepsAcquisitions.refl (t : JobTable) : KeepsAcquisitions t t := ⟨fun _ => rfl, id⟩

theorem KeepsAcquisitions.of_keep (h : JobsKeep t t') : KeepsAcquisitions t t' :=
  ⟨fun id => h.unclaimed _ (fixed_acquires id), h.single _⟩

/-- A job of another task allows no call. -/
theorem KeepsAcquisitions.insertNew {new : NewJob} {jobId : Uuid}
    (hother : new.taskName ≠ "request_judit_process") :
    KeepsAcquisitions t (t.insertNew new jobId now).2 :=
  ⟨fun _ => unclaimed_insertNew_eq fun h => hother h.1,
    fun h => h.insertNew fun heq => absurd heq hother⟩

/-- An acquisition job allows one call of its row. -/
theorem unclaimed_insertNew_requestJob (id row : String) (attempt : Nat) (jobId : Uuid)
    (now : Timestamp) :
    unclaimed (Acquires id) (t.insertNew (requestJob row attempt) jobId now).2 ≤
      unclaimed (Acquires id) t + if id = row then 1 else 0 := by
  by_cases hid : id = row
  · rw [if_pos hid]
    refine Nat.le_trans unclaimed_insertNew (Nat.add_le_add_left ?_ _)
    split
    · exact Nat.le_refl 1
    · exact Nat.zero_le 1
  · have hnot : ¬ Acquires id ((requestJob row attempt).row jobId now) := by
      rintro ⟨-, htext⟩
      exact hid (Option.some.inj htext).symm
    rw [if_neg hid, unclaimed_insertNew_eq hnot]
    exact Nat.le_refl _

end Jobs

/-! ## §3. Runs that move. -/

section Runs

variable {runs : List TaskRun} {run : TaskRun} {stage : Option Stage} {id : String}

theorem TaskRun.acquires_eq_some : run.acquires = some id ↔ Acquires id run.row := by
  unfold TaskRun.acquires Acquires Names TaskRun.about
  split
  · rename_i htask
    exact ⟨fun h => ⟨htask, h⟩, fun h => h.2⟩
  · rename_i htask
    exact ⟨fun h => (nomatch h), fun h => absurd h.1 htask⟩

/-- A move that makes no run meet `q` counts no more of them. -/
theorem countP_moveRun_le {q : TaskRun → Bool}
    (h : ∀ next, stage = some next → q { run with stage := next } = true → q run = true) :
    (moveRun runs run stage).countP q ≤ runs.countP q := by
  cases stage with
  | none => exact List.filter_sublist.countP_le
  | some next =>
      refine countP_updateWhere_le fun d _ hd hq => ?_
      obtain rfl : d = run := by simpa using hd
      exact h next rfl hq

/-- It counts fewer if the run that moves met `q` and no longer does. -/
theorem countP_moveRun_lt {q : TaskRun → Bool} (hrun : run ∈ runs) (hq : q run = true)
    (h : ∀ next, stage = some next → q { run with stage := next } = false) :
    (moveRun runs run stage).countP q < runs.countP q := by
  cases stage with
  | none => exact countP_filter_lt hrun (by simp) hq
  | some next =>
      refine countP_updateWhere_lt (fun d _ hd hq' => ?_) hrun (by simp) hq (h next rfl)
      obtain rfl : d = run := by simpa using hd
      exact hq

theorem mayCallRuns_moveRun_le
    (h : ∀ next, stage = some next → Acquires id run.row → next.mayCall = true →
      run.stage.mayCall = true) :
    mayCallRuns id (moveRun runs run stage) ≤ mayCallRuns id runs :=
  countP_moveRun_le fun next hnext hq => by
    rw [Bool.and_eq_true] at hq ⊢
    exact ⟨hq.1, h next hnext (of_decide_eq_true hq.1) hq.2⟩

/-- The runs that may call, and those that are calling. -/
theorem mayCallRuns_add_callingRuns (id : String) (runs : List TaskRun) :
    mayCallRuns id runs + callingRuns id runs = runs.countP fun r =>
      decide (Acquires id r.row) && (r.stage.mayCall || r.stage == .calling) := by
  unfold mayCallRuns callingRuns
  induction runs with
  | nil => rfl
  | cons r rs ih =>
      rw [List.countP_cons, List.countP_cons, List.countP_cons, ← ih]
      cases hstage : r.stage <;> by_cases hacquires : Acquires id r.row <;>
        simp [hacquires, Stage.mayCall] <;> omega

/-- A move opens nothing, if the run was open or does not become so. -/
theorem openRuns_moveRun_le
    (h : ∀ next, stage = some next → Acquires id run.row →
      (next.mayCall || next == .calling) = true →
      (run.stage.mayCall || run.stage == .calling) = true) :
    mayCallRuns id (moveRun runs run stage) + callingRuns id (moveRun runs run stage) ≤
      mayCallRuns id runs + callingRuns id runs := by
  rw [mayCallRuns_add_callingRuns, mayCallRuns_add_callingRuns]
  refine countP_moveRun_le fun next hnext hq => ?_
  rw [Bool.and_eq_true] at hq ⊢
  exact ⟨hq.1, h next hnext (of_decide_eq_true hq.1) hq.2⟩

end Runs

/-! ## §4. The invariant. -/

/-- What may still call, and what is calling. -/
def Pipeline.openCalls (s : Pipeline) (id : String) : Nat :=
  s.tickets id + callingRuns id s.runs

/-- The row would be retried. -/
def Pipeline.Retryable (s : Pipeline) (id : String) : Prop :=
  ∃ a ∈ s.db.acquisitions.rows, a.id = id ∧ a.status = .failedRetryable

/-- The books of one acquisition. -/
structure Paid (s : Audit) (id : String) : Prop where
  /-- every call, made or allowed, is the first or paid for by a refusal -/
  budget : s.log.count (.sent id) + s.pipeline.tickets id ≤ s.log.count (.refused id) + 1
  single : s.pipeline.openCalls id ≤ 1
  retryable : s.pipeline.Retryable id →
    s.log.count (.sent id) ≤ s.log.count (.refused id) ∧ s.pipeline.openCalls id = 0
  closed : .ambiguous id ∈ s.log ∨ .recorded id ∈ s.log →
    s.pipeline.openCalls id = 0 ∧ ¬ s.pipeline.Retryable id
  ordered : s.log.Pairwise (CallEntry.Allows id)
  known : (∀ a ∈ s.pipeline.db.acquisitions.rows, a.id ≠ id) →
    .sent id ∉ s.log ∧ .ambiguous id ∉ s.log ∧ .recorded id ∉ s.log

/-- An entry about another acquisition, or none. -/
def CallEntry.about : CallEntry → String
  | .sent id | .refused id | .recorded id | .ambiguous id => id

/-- What the acquisitions keep when no row is added and none becomes
retryable. -/
structure Quiet (s s' : Pipeline) (id : String) : Prop where
  tickets : s'.tickets id ≤ s.tickets id
  openCalls : s'.openCalls id ≤ s.openCalls id
  retryable : s'.Retryable id → s.Retryable id
  kept : ∀ a ∈ s.db.acquisitions.rows, a.id = id → ∃ a' ∈ s'.db.acquisitions.rows, a'.id = id

section Invariant

variable {s : Audit} {s' : Pipeline} {id : String} {entries : List CallEntry}

theorem count_append_other {e : CallEntry} (he : e.about = id)
    (hother : ∀ x ∈ entries, x.about ≠ id) : (s.log ++ entries).count e = s.log.count e := by
  have hzero : entries.count e = 0 := List.count_eq_zero.2 fun hmem => hother e hmem he
  rw [List.count_append, hzero, Nat.add_zero]

/-- **A step about another acquisition keeps the books.** -/
theorem Paid.quiet (h : Paid s id) (hquiet : Quiet s.pipeline s' id)
    (hother : ∀ x ∈ entries, x.about ≠ id) : Paid ⟨s', s.log ++ entries⟩ id where
  -- Nothing is logged about this acquisition, so no count moves; the tickets may only fall.
  budget := by
    have := h.budget
    have := hquiet.tickets
    rw [count_append_other rfl hother, count_append_other rfl hother]
    show _ + s'.tickets id ≤ _
    omega
  single := Nat.le_trans hquiet.openCalls h.single
  retryable := by
    intro hretryable
    obtain ⟨hcount, hopen⟩ := h.retryable (hquiet.retryable hretryable)
    have := hquiet.openCalls
    rw [count_append_other rfl hother, count_append_other rfl hother]
    refine ⟨hcount, ?_⟩
    show s'.openCalls id = 0
    omega
  closed := by
    intro hclosed
    have hold : .ambiguous id ∈ s.log ∨ .recorded id ∈ s.log := by
      rcases hclosed with hmem | hmem
      · exact .inl ((List.mem_append.1 hmem).resolve_right fun hx => hother _ hx rfl)
      · exact .inr ((List.mem_append.1 hmem).resolve_right fun hx => hother _ hx rfl)
    obtain ⟨hopen, hnot⟩ := h.closed hold
    have := hquiet.openCalls
    refine ⟨?_, fun hretryable => hnot (hquiet.retryable hretryable)⟩
    show s'.openCalls id = 0
    omega
  ordered := by
    refine List.pairwise_append.2 ⟨h.ordered, ?_, fun x _ y hy hsent => ?_⟩
    · refine List.pairwise_of_forall_mem_list fun x _ y hy hsent => ?_
      exact absurd (by rw [hsent]; rfl) (hother y hy)
    · exact absurd (by rw [hsent]; rfl) (hother y hy)
  known := by
    intro hnone
    have hold : ∀ a ∈ s.pipeline.db.acquisitions.rows, a.id ≠ id := by
      intro a ha hid
      obtain ⟨a', ha', hid'⟩ := hquiet.kept a ha hid
      exact hnone a' ha' hid'
    obtain ⟨hsent, hambiguous, hrecorded⟩ := h.known hold
    have happend : ∀ {e : CallEntry}, e.about = id → e ∉ s.log → e ∉ s.log ++ entries := by
      intro e he hnot hmem
      rcases List.mem_append.1 hmem with hmem | hmem
      · exact hnot hmem
      · exact hother e hmem he
    exact ⟨happend rfl hsent, happend rfl hambiguous, happend rfl hrecorded⟩

/-- The same for a step that adds nothing to the log. -/
theorem Paid.quiet_silent (h : Paid s id) (hquiet : Quiet s.pipeline s' id) :
    Paid ⟨s', s.log⟩ id := by
  have hpaid : Paid ⟨s', s.log ++ []⟩ id := h.quiet hquiet fun _ hx => nomatch hx
  rwa [List.append_nil] at hpaid

/-- **A call goes out**: it uses up what allowed it. -/
theorem Paid.sent (h : Paid s id) (htickets : s'.tickets id < s.pipeline.tickets id)
    (hopen : s'.openCalls id ≤ s.pipeline.openCalls id)
    (hrows : s'.db.acquisitions = s.pipeline.db.acquisitions)
    (hknown : ∃ a ∈ s.pipeline.db.acquisitions.rows, a.id = id) :
    Paid ⟨s', s.log ++ [.sent id]⟩ id := by
  have hlive : s.pipeline.openCalls id ≠ 0 := by
    unfold Pipeline.openCalls
    omega
  have hsame : s'.Retryable id ↔ s.pipeline.Retryable id := by
    unfold Pipeline.Retryable
    rw [hrows]
  have hnot : ¬ s.pipeline.Retryable id := fun hretryable => hlive (h.retryable hretryable).2
  have hfresh : ¬ (.ambiguous id ∈ s.log ∨ .recorded id ∈ s.log) :=
    fun hclosed => hlive (h.closed hclosed).1
  exact
    { budget := by
        have := h.budget
        rw [List.count_append, List.count_append]
        show s.log.count (.sent id) + [CallEntry.sent id].count (.sent id) + s'.tickets id ≤
          s.log.count (.refused id) + [CallEntry.sent id].count (.refused id) + 1
        simp only [List.count_singleton_self]
        omega
      single := Nat.le_trans hopen h.single
      retryable := fun hretryable => absurd (hsame.1 hretryable) hnot
      closed := fun hclosed => absurd (by simpa using hclosed) hfresh
      ordered := by
        refine List.pairwise_append.2 ⟨h.ordered, List.pairwise_singleton _ _, ?_⟩
        intro x hx y hy _
        exact ⟨fun hx' => hfresh (.inl (hx' ▸ hx)), fun hx' => hfresh (.inr (hx' ▸ hx))⟩
      known := by
        intro hnone
        obtain ⟨a, ha, hid⟩ := hknown
        exact absurd hid (hnone a (by rw [hrows]; exact ha)) }

/-- **A call ends**: nothing is open afterwards, and only a recorded refusal
makes the row retryable. -/
theorem Paid.ended {e : CallEntry} (h : Paid s id) (he : e.about = id) (hne : e ≠ .sent id)
    (hopen : s'.openCalls id < s.pipeline.openCalls id)
    (hretryable : e ≠ .refused id → s'.Retryable id → s.pipeline.Retryable id)
    (hknown : ∃ a' ∈ s'.db.acquisitions.rows, a'.id = id) :
    Paid ⟨s', s.log ++ [e]⟩ id := by
  have hsingle := h.single
  have hlive : s.pipeline.openCalls id ≠ 0 := by omega
  -- One call at most was open, and it is the one that ends here.
  have hzero : s'.openCalls id = 0 := by omega
  have htickets : s'.tickets id = 0 := by
    unfold Pipeline.openCalls at hzero
    omega
  have hnot : ¬ s.pipeline.Retryable id := fun hr => hlive (h.retryable hr).2
  -- While a call is open nothing of it is logged as answered.
  have hfresh : ¬ (.ambiguous id ∈ s.log ∨ .recorded id ∈ s.log) :=
    fun hclosed => hlive (h.closed hclosed).1
  have hsent : (s.log ++ [e]).count (.sent id) = s.log.count (.sent id) := by
    have hnone : [e].count (.sent id) = 0 := List.count_eq_zero.2 (by simpa using hne.symm)
    rw [List.count_append, hnone, Nat.add_zero]
  have hbudget := h.budget
  refine ⟨?_, ?_, fun hr => ?_, fun hclosed => ?_, ?_, fun hnone => ?_⟩
  · show (s.log ++ [e]).count (.sent id) + s'.tickets id ≤ (s.log ++ [e]).count (.refused id) + 1
    rw [hsent, List.count_append]
    omega
  · show s'.openCalls id ≤ 1
    omega
  · -- the refusal that made the row retryable pays for the next call
    obtain rfl : e = .refused id := by
      by_contra hother
      exact hnot (hretryable hother hr)
    refine ⟨?_, hzero⟩
    show (s.log ++ [CallEntry.refused id]).count (.sent id) ≤
      (s.log ++ [CallEntry.refused id]).count (.refused id)
    rw [hsent, List.count_append, List.count_singleton_self]
    omega
  · refine ⟨hzero, fun hr => ?_⟩
    have hother : e ≠ .refused id := by
      rintro rfl
      exact hfresh (by simpa using hclosed)
    exact hnot (hretryable hother hr)
  · refine List.pairwise_append.2 ⟨h.ordered, List.pairwise_singleton _ _, ?_⟩
    intro x _ y hy hsent'
    obtain rfl := List.mem_singleton.1 hy
    exact absurd hsent' hne
  · obtain ⟨a', ha', hid⟩ := hknown
    exact absurd hid (hnone a' ha')

end Invariant

/-! ## §5. Every step. -/

/-- What every step keeps. -/
structure Audit.Sound (s : Audit) : Prop where
  wellFormed : WellFormed s.pipeline
  single : SingleAttempt "request_judit_process" s.pipeline.db.jobs
  paid : ∀ id, Paid s id

section Steps

variable {s : Audit} {db' : Database} {run : TaskRun} {stage : Option Stage} {now : Timestamp}

/-- A row of the acquisition is retryable. -/
def RetryableIn (t : AcquisitionTable) (id : String) : Prop :=
  ∃ a ∈ t.rows, a.id = id ∧ a.status = .failedRetryable

/-- Every acquisition is still there. -/
def KeepsIds (t t' : AcquisitionTable) : Prop :=
  ∀ a ∈ t.rows, ∃ a' ∈ t'.rows, a'.id = a.id

/-- A transaction that leaves the permissions, beside a run that moves and
does not call. -/
theorem Quiet.of_move {s : Pipeline} {id : String} {lostCalls : List String}
    (hjobs : KeepsAcquisitions s.db.jobs db'.jobs)
    (hretryable : RetryableIn db'.acquisitions id → RetryableIn s.db.acquisitions id)
    (hkeeps : KeepsIds s.db.acquisitions db'.acquisitions)
    (hmay : ∀ next, stage = some next → Acquires id run.row → next.mayCall = true →
      run.stage.mayCall = true)
    (hcalling : ∀ next, stage = some next → Acquires id run.row → next = .calling →
      run.stage = .calling) :
    Quiet s { db := db', runs := moveRun s.runs run stage, lostCalls := lostCalls } id where
  tickets := by
    have hruns : mayCallRuns id (moveRun s.runs run stage) ≤ mayCallRuns id s.runs :=
      mayCallRuns_moveRun_le hmay
    show unclaimed (Acquires id) db'.jobs + mayCallRuns id (moveRun s.runs run stage) ≤
      unclaimed (Acquires id) s.db.jobs + mayCallRuns id s.runs
    rw [hjobs.unclaimed]
    omega
  openCalls := by
    have hruns : mayCallRuns id (moveRun s.runs run stage) +
        callingRuns id (moveRun s.runs run stage) ≤ mayCallRuns id s.runs + callingRuns id s.runs :=
      openRuns_moveRun_le fun next hnext hacquires hopen => by
        rw [Bool.or_eq_true, beq_iff_eq] at hopen ⊢
        exact hopen.imp (hmay next hnext hacquires) (hcalling next hnext hacquires)
    show unclaimed (Acquires id) db'.jobs + mayCallRuns id (moveRun s.runs run stage) +
        callingRuns id (moveRun s.runs run stage) ≤
      unclaimed (Acquires id) s.db.jobs + mayCallRuns id s.runs + callingRuns id s.runs
    rw [hjobs.unclaimed]
    omega
  retryable := hretryable
  kept := by
    intro a ha hid
    obtain ⟨a', ha', hid'⟩ := hkeeps a ha
    exact ⟨a', ha', hid'.trans hid⟩

/-- The same with no run moving. -/
theorem Quiet.of_db {s : Pipeline} {id : String}
    (hunclaimed : unclaimed (Acquires id) db'.jobs ≤ unclaimed (Acquires id) s.db.jobs)
    (hretryable : RetryableIn db'.acquisitions id → RetryableIn s.db.acquisitions id)
    (hkeeps : KeepsIds s.db.acquisitions db'.acquisitions) :
    Quiet s { s with db := db' } id where
  tickets := Nat.add_le_add_right hunclaimed _
  openCalls := Nat.add_le_add_right (Nat.add_le_add_right hunclaimed _) _
  retryable := hretryable
  kept := by
    intro a ha hid
    obtain ⟨a', ha', hid'⟩ := hkeeps a ha
    exact ⟨a', ha', hid'.trans hid⟩

theorem keepsIds_of_eq {t t' : AcquisitionTable} (h : t' = t) : KeepsIds t t' :=
  fun a ha => ⟨a, h ▸ ha, rfl⟩

/-- A transaction that leaves the acquisitions and the permissions. -/
theorem Paid.of_jobs {id : String} (h : Paid s id)
    (hjobs : KeepsAcquisitions s.pipeline.db.jobs db'.jobs)
    (hacquisitions : db'.acquisitions = s.pipeline.db.acquisitions) :
    Paid ⟨{ s.pipeline with db := db' }, s.log⟩ id := by
  exact h.quiet_silent (.of_db (Nat.le_of_eq (hjobs.unclaimed id))
    (fun hr => hacquisitions ▸ hr) (keepsIds_of_eq hacquisitions))

/-- A run leads to an acquisition. -/
theorem known_of_run (h : WellFormed s.pipeline) (hrun : run ∈ s.pipeline.runs) {id : String}
    (hacquires : Acquires id run.row) : ∃ a ∈ s.pipeline.db.acquisitions.rows, a.id = id := by
  obtain ⟨j, hj, hsame⟩ := h.runRow run hrun
  exact (h.founded j hj).acquired id (hacquires.of_sameJob hsame)

/-- **A calling run that ends its call leaves nothing open.** -/
theorem openCalls_ended {s : Pipeline} {id : String} {lostCalls : List String}
    (hjobs : KeepsAcquisitions s.db.jobs db'.jobs) (hrun : run ∈ s.runs)
    (hacquires : Acquires id run.row)
    (hcalling : run.stage = .calling)
    (hstage : ∀ next, stage = some next → next.mayCall = false ∧ next ≠ .calling) :
    Pipeline.openCalls
      { db := db', runs := moveRun s.runs run stage, lostCalls := lostCalls } id <
      s.openCalls id := by
  have hmay : mayCallRuns id (moveRun s.runs run stage) ≤ mayCallRuns id s.runs :=
    mayCallRuns_moveRun_le fun next hnext _ hmay => by
      rw [(hstage next hnext).1] at hmay
      cases hmay
  have hcall : callingRuns id (moveRun s.runs run stage) < callingRuns id s.runs :=
    countP_moveRun_lt hrun (by simp [hacquires, hcalling]) fun next hnext => by
      simp [(hstage next hnext).2]
  show unclaimed (Acquires id) db'.jobs + mayCallRuns id (moveRun s.runs run stage) +
      callingRuns id (moveRun s.runs run stage) <
    unclaimed (Acquires id) s.db.jobs + mayCallRuns id s.runs + callingRuns id s.runs
  rw [hjobs.unclaimed]
  omega

/-- A refusal makes its open row retryable, if it is retry-safe. -/
theorem retryable_refuse {t : AcquisitionTable} {id other : String} {status : AcquisitionStatus}
    (h : RetryableIn (t.refuse id status) other) :
    (other = id ∧ status = .failedRetryable ∧ t.rows.any (Acquisition.isOpen id) = true) ∨
      RetryableIn t other := by
  obtain ⟨a, ha, hid, hstatus⟩ := h
  rcases mem_updateWhere.1 ha with ⟨a₀, ha₀, hopen, rfl⟩ | ⟨ha', -⟩
  · have hsame := (Acquisition.isOpen_iff.1 hopen).1
    exact .inl ⟨hid.symm.trans hsame, hstatus, List.any_eq_true.2 ⟨a₀, ha₀, hopen⟩⟩
  · exact .inr ⟨a, ha', hid, hstatus⟩

/-- Recording a request id makes no row retryable. -/
theorem retryable_record {t t' : AcquisitionTable} {id requestId other : String}
    {hne : requestId ≠ ""} {tenant : Option Uuid}
    (h : t.record id requestId hne = some (tenant, t')) (hr : RetryableIn t' other) :
    RetryableIn t other := by
  rcases AcquisitionTable.record_eq_some h with ⟨-, rfl, -⟩ | ⟨_, -, -, -, -, -, hrows⟩
  · exact hr
  · obtain ⟨a, ha, hid, hstatus⟩ := hr
    rw [hrows] at ha
    rcases mem_updateWhere.1 ha with ⟨a₀, -, -, rfl⟩ | ⟨ha', -⟩
    · cases hstatus
    · exact ⟨a, ha', hid, hstatus⟩

theorem AcquisitionsExtend.keepsIds {t t' : AcquisitionTable} (h : AcquisitionsExtend t t') :
    KeepsIds t t' := by
  intro a ha
  obtain ⟨a', ha', hid, -⟩ := h.kept a ha
  exact ⟨a', ha', hid⟩

/-- A step that neither calls nor is the answer of a call. -/
def QuietCall (run : TaskRun) (db db' : Database) (stage : Option Stage) (c : TaskCall) : Prop :=
  KeepsAcquisitions db.jobs db'.jobs ∧ db'.acquisitions = db.acquisitions ∧
    (∀ next, stage = some next → (next.mayCall = true → run.stage.mayCall = true) ∧
      (next = .calling → run.stage = .calling)) ∧
    ∀ id, run.entries db.acquisitions id c = [] ∨
      (run.stage = .calling ∧ stage = none ∧
        run.entries db.acquisitions id c = [.ambiguous id])

/-- The answer of a call. -/
def AnsweredCall (run : TaskRun) (db db' : Database) (stage : Option Stage) (c : TaskCall) :
    Prop :=
  run.stage = .calling ∧ (stage = some .settled ∨ stage = some .raised) ∧ db'.jobs = db.jobs ∧
    KeepsIds db.acquisitions db'.acquisitions ∧
    ∃ id e, run.acquires = some id ∧ run.entries db.acquisitions id c = [e] ∧ e.about = id ∧
      e ≠ .sent id ∧ ∀ other, RetryableIn db'.acquisitions other →
        (other = id ∧ e = .refused id) ∨ RetryableIn db.acquisitions other

theorem TaskRun.accepted_answers {db : Database} {requestId : String} {process : Option String}
    (hcalling : run.stage = .calling) (htask : run.row.taskName = "request_judit_process")
    (h : run.accepted db requestId process = some (db', stage)) :
    AnsweredCall run db db' stage (.accepted requestId process) := by
  have hentry : ∀ id, run.about "tenant_request_id" = some id →
      ∃ id' e, run.acquires = some id' ∧
        run.entries db.acquisitions id' (.accepted requestId process) = [e] ∧ e.about = id' ∧
        e ≠ .sent id' := by
    intro id habout
    refine ⟨id, _, TaskRun.acquires_eq_some.2 ⟨htask, habout⟩, rfl, ?_, ?_⟩ <;> split <;> simp
      [CallEntry.about]
  unfold TaskRun.accepted at h
  split at h
  · cases h
  · rename_i id habout
    obtain ⟨id', e, hacquires, hentries, hid, hne⟩ := hentry id habout
    split at h
    · cases h
    · split at h
      · cases h
      · cases h
        exact ⟨hcalling, .inl rfl, rfl, fun a ha => ⟨a, ha, rfl⟩, id', e, hacquires, hentries, hid,
          hne, fun _ hr => .inr hr⟩
      · rename_i tenantId acquisitions hrecord
        have hkeeps := (AcquisitionsExtend.record hrecord).keepsIds
        split at h
        · cases h
          exact ⟨hcalling, .inl rfl, rfl, hkeeps, id', e, hacquires, hentries, hid, hne,
            fun _ hr => .inr (retryable_record hrecord hr)⟩
        · split at h
          · cases h
            exact ⟨hcalling, .inl rfl, rfl, hkeeps, id', e, hacquires, hentries, hid, hne,
              fun _ hr => .inr (retryable_record hrecord hr)⟩
          · cases h

theorem TaskRun.rejected_answers {db : Database} {retrySafe : Bool} {unseen : List Uuid}
    (hcalling : run.stage = .calling) (htask : run.row.taskName = "request_judit_process")
    (h : run.rejected db retrySafe now unseen = some (db', stage)) :
    AnsweredCall run db db' stage (.rejected retrySafe unseen) := by
  unfold TaskRun.rejected at h
  split at h
  · cases h
  · rename_i id habout
    cases h
    have hacquires := TaskRun.acquires_eq_some.2 (⟨htask, habout⟩ : Acquires id run.row)
    refine ⟨hcalling, .inr rfl, rfl, AcquisitionsExtend.refuse.keepsIds, id, ?_⟩
    cases retrySafe with
    | false =>
        refine ⟨.ambiguous id, hacquires, rfl, rfl, by simp, fun other hr => ?_⟩
        rcases retryable_refuse hr with ⟨-, hstatus, -⟩ | hold
        · cases hstatus
        · exact .inr hold
    | true =>
        by_cases hopen : db.acquisitions.rows.any (Acquisition.isOpen id) = true
        · refine ⟨.refused id, hacquires, by simp [TaskRun.entries, hopen], rfl, by simp,
            fun other hr => ?_⟩
          rcases retryable_refuse hr with ⟨hother, -⟩ | hold
          · exact .inl ⟨hother, rfl⟩
          · exact .inr hold
        · refine ⟨.ambiguous id, hacquires, by simp [TaskRun.entries, hopen], rfl, by simp,
            fun other hr => ?_⟩
          rcases retryable_refuse hr with ⟨-, -, hopen'⟩ | hold
          · exact absurd hopen' hopen
          · exact .inr hold

/-- The next job of a handler is no acquisition job. -/
theorem jobsKeep_enqueueNext {db : Database} {next : Option NewJob} {jobId : Uuid}
    {requestId : String} (hnext : ∀ new ∈ next, HandsOn requestId new)
    (h : db.enqueueNext next jobId now = some db') :
    KeepsAcquisitions db.jobs db'.jobs ∧ db'.acquisitions = db.acquisitions := by
  rcases Database.enqueueNext_eq_some h with ⟨-, rfl⟩ | ⟨new, hnew, -, rfl⟩
  · exact ⟨.refl _, rfl⟩
  · refine ⟨.insertNew fun htask => ?_, rfl⟩
    have htask' : (new.row jobId now).taskName = "request_judit_process" := htask
    rcases (hnext new hnew).about jobId now with habout | habout
    · exact absurd (habout.1.symm.trans htask') (by decide)
    · exact absurd (habout.1.symm.trans htask') (by decide)

/-- A step that leaves the jobs and the acquisitions, and at most ends what
may call. -/
theorem QuietCall.of_stage {db : Database} {c : TaskCall}
    (hjobs : KeepsAcquisitions db.jobs db'.jobs)
    (hacquisitions : db'.acquisitions = db.acquisitions)
    (hstage : ∀ next, stage = some next → next = run.stage ∨ next ≠ .calling ∧
      (next.mayCall = true → run.stage.mayCall = true))
    (hentries : ∀ id, run.entries db.acquisitions id c = []) :
    QuietCall run db db' stage c := by
  refine ⟨hjobs, hacquisitions, fun next hnext => ?_, fun id => .inl (hentries id)⟩
  rcases hstage next hnext with rfl | ⟨hne, hmay⟩
  · exact ⟨fun h => h, fun h => h⟩
  · exact ⟨hmay, fun h => absurd h hne⟩

theorem TaskRun.fetch_quiet {db : Database} {unseen : List Uuid}
    (hclaimed : run.stage = .claimed) (h : run.fetch db now unseen = some (db', stage)) :
    QuietCall run db db' stage (.fetch unseen) := by
  have hmay : run.stage.mayCall = true := by
    rw [hclaimed]
    rfl
  unfold TaskRun.fetch at h
  split at h
  · cases h
    exact .of_stage (.refl _) rfl (fun next hnext => .inr ⟨by cases hnext; simp, fun _ => hmay⟩)
      fun _ => rfl
  · split at h
    · cases h
      exact .of_stage (.refl _) rfl (fun next hnext => .inr ⟨by cases hnext; simp, fun _ => hmay⟩)
        fun _ => rfl
    · cases h
      refine .of_stage (.refl _) rfl (fun next hnext => .inr ⟨?_, fun _ => hmay⟩) fun _ => rfl
      obtain rfl := Option.some.inj hnext
      split <;> simp

theorem TaskRun.complete_quiet {db : Database} {result : Json} {g : GenerationReads}
    (h : run.complete db result g now = some (db', stage)) :
    QuietCall run db db' stage (.complete result g) := by
  have hjobs : KeepsAcquisitions db.jobs
      (Queue.complete db.jobs run.row.id run.worker result now).2 :=
    .of_keep .complete
  unfold TaskRun.complete at h
  split at h <;> rename_i heq <;> rw [heq] at hjobs
  · split at h
    · cases h
      exact .of_stage hjobs rfl (fun _ hnext => nomatch hnext) fun _ => rfl
    · cases h
      exact .of_stage hjobs rfl (fun _ hnext => nomatch hnext) fun _ => rfl
  · cases h
    exact .of_stage hjobs rfl (fun _ hnext => nomatch hnext) fun _ => rfl

theorem TaskRun.fail_quiet {db : Database} {failure : Failure} {unseen : List Uuid}
    (h : run.fail db failure now unseen = some (db', stage)) :
    QuietCall run db db' stage (.fail failure unseen) := by
  have hjobs : KeepsAcquisitions db.jobs
      (Queue.fail db.jobs run.row.id run.worker failure now).2 :=
    .of_keep .fail
  unfold TaskRun.fail at h
  generalize Queue.fail db.jobs run.row.id run.worker failure now = failed at h hjobs
  obtain ⟨status, jobs⟩ := failed
  cases h
  refine ⟨hjobs, rfl, fun _ hnext => (nomatch hnext), fun id => ?_⟩
  by_cases hcalling : run.stage = .calling
  · exact .inr ⟨hcalling, rfl, by simp [TaskRun.entries, hcalling]⟩
  · exact .inl (by simp [TaskRun.entries, hcalling])

/-- **What a step of a task does to the calls.** -/
theorem TaskRun.call_cases {db : Database} {c : TaskCall}
    (h : run.call db now c = some (db', stage)) :
    QuietCall run db db' stage c ∨
      (c = .send ∧ run.stage = .fetched ∧ db' = db ∧ stage = some .calling) ∨
      AnsweredCall run db db' stage c := by
  cases c with
  | fetch unseen =>
      simp only [TaskRun.call] at h
      split at h
      · rename_i hclaimed
        exact .inl (TaskRun.fetch_quiet hclaimed.1 h)
      · cases h
  -- The request leaves the application: the one step that opens a call.
  | send =>
      simp only [TaskRun.call] at h
      split at h
      · rename_i hfetched
        cases h
        exact .inr (.inl ⟨rfl, hfetched.1, rfl, rfl⟩)
      · cases h
  | accepted requestId process =>
      simp only [TaskRun.call] at h
      split at h
      · rename_i hcalling
        exact .inr (.inr (TaskRun.accepted_answers hcalling.1 hcalling.2 h))
      · cases h
  | rejected retrySafe unseen =>
      simp only [TaskRun.call] at h
      split at h
      · rename_i hcalling
        exact .inr (.inr (TaskRun.rejected_answers hcalling.1 hcalling.2 h))
      · cases h
  -- The tasks after the acquisition enqueue jobs that acquire nothing.
  | finalize reads jobId =>
      simp only [TaskRun.call] at h
      split at h
      · split at h
        · cases h
        · split at h
          · cases h
          · rename_i plan hplan
            obtain ⟨db₁, hfinalize, hpure⟩ := Option.map_eq_some_iff.1 h
            cases hpure
            obtain ⟨hjobs, hacquisitions⟩ :=
              jobsKeep_enqueueNext (finalizePlan_eq_some hplan).1 hfinalize
            exact .inl (.of_stage hjobs hacquisitions
              (fun next hnext => .inr (by cases hnext; simp [Stage.mayCall])) fun _ => rfl)
      · cases h
  | attach jobId =>
      simp only [TaskRun.call] at h
      split at h
      · split at h
        · cases h
        · rename_i next hnext
          obtain ⟨db₁, henqueue, hpure⟩ := Option.map_eq_some_iff.1 h
          cases hpure
          obtain ⟨requestId, -, hhands⟩ := attachmentsNext_eq_some hnext
          obtain ⟨hjobs, hacquisitions⟩ := jobsKeep_enqueueNext hhands henqueue
          exact .inl (.of_stage hjobs hacquisitions
            (fun next hnext => .inr (by cases hnext; simp [Stage.mayCall])) fun _ => rfl)
      · cases h
  | start unseen =>
      simp only [TaskRun.call] at h
      split at h
      · have hjobs : KeepsAcquisitions db.jobs (heartbeat db.jobs run.row.id run.worker now).2 :=
          .of_keep .heartbeat
        unfold TaskRun.start at h
        split at h <;> rename_i heq <;> cases h <;> rw [heq] at hjobs
        · exact .inl (.of_stage hjobs rfl
            (fun next hnext => .inr (by cases hnext; simp [Stage.mayCall])) fun _ => rfl)
        · exact .inl (.of_stage hjobs rfl (fun _ hnext => by cases hnext) fun _ => rfl)
      · cases h
  | heartbeat =>
      simp only [TaskRun.call] at h
      cases h
      exact .inl (.of_stage (.of_keep .heartbeat) rfl
        (fun next hnext => .inl (Option.some.inj hnext).symm)
        fun _ => rfl)
  | complete result g =>
      simp only [TaskRun.call] at h
      split at h
      · exact .inl (TaskRun.complete_quiet h)
      · cases h
  | fail failure unseen => exact .inl (TaskRun.fail_quiet h)

/-- What a step of a task adds to the log. -/
def TaskRun.logged (run : TaskRun) (db : Database) (c : TaskCall) : List CallEntry :=
  match run.acquires with
  | none => []
  | some id => run.entries db.acquisitions id c

/-- What a run adds to the log is about its acquisition. -/
theorem TaskRun.about_of_logged {db : Database} {c : TaskCall} {x : CallEntry}
    (hx : x ∈ run.logged db c) : ∃ id, run.acquires = some id ∧ x.about = id := by
  unfold TaskRun.logged at hx
  split at hx
  · cases hx
  · rename_i id hid
    refine ⟨id, hid, ?_⟩
    have hpick : ∀ (p : Prop) [Decidable p] (a b : CallEntry), a.about = id → b.about = id →
        (if p then a else b).about = id := by
      intro p _ a b ha hb
      split
      · exact ha
      · exact hb
    cases c with
    | send =>
        obtain rfl := List.mem_singleton.1 hx
        rfl
    | accepted requestId process =>
        obtain rfl := List.mem_singleton.1 hx
        exact hpick _ _ _ rfl rfl
    | rejected retrySafe unseen =>
        cases retrySafe with
        | false =>
            obtain rfl := List.mem_singleton.1 hx
            rfl
        | true =>
            obtain rfl := List.mem_singleton.1 hx
            exact hpick _ _ _ rfl rfl
    | fail failure unseen =>
        simp only [TaskRun.entries] at hx
        split at hx
        · obtain rfl := List.mem_singleton.1 hx
          rfl
        · cases hx
    | _ => cases hx

/-- **A step of a task keeps the books.** -/
theorem Audit.Sound.call {c : TaskCall} {lostCalls : List String} (h : s.Sound)
    (hrun : run ∈ s.pipeline.runs) (hcall : run.call s.pipeline.db now c = some (db', stage))
    (id : String) :
    Paid ⟨{ db := db', runs := moveRun s.pipeline.runs run stage, lostCalls := lostCalls },
      s.log ++ run.logged s.pipeline.db c⟩ id := by
  have hpaid := h.paid id
  by_cases hacquires : Acquires id run.row
  · -- the run is about this acquisition
    have hsome := TaskRun.acquires_eq_some.2 hacquires
    have hlogged : run.logged s.pipeline.db c =
        run.entries s.pipeline.db.acquisitions id c := by
      unfold TaskRun.logged
      rw [hsome]
    have hknown := known_of_run h.wellFormed hrun hacquires
    rw [hlogged]
    rcases TaskRun.call_cases hcall with ⟨hjobs, hacq, hmoves, hentries⟩ |
      ⟨rfl, hfetched, rfl, rfl⟩ | ⟨hcalling, hstage, hjobs, hkeeps, id', e, hid', hentries,
        habout, hne, hretryable⟩
    · rcases hentries id with hnone | ⟨hcalling, rfl, hambiguous⟩
      · rw [hnone]
        exact hpaid.quiet (.of_move hjobs (fun hr => hacq ▸ hr) (keepsIds_of_eq hacq)
          (fun next hnext _ => (hmoves next hnext).1)
          fun next hnext _ => (hmoves next hnext).2) fun _ hx => nomatch hx
      -- The run fails in the middle of its call: whether the provider was paid is not known.
      · rw [hambiguous]
        refine hpaid.ended rfl (by simp)
          (openCalls_ended hjobs hrun hacquires hcalling fun _ hnext => nomatch hnext)
          (fun _ hr => ?_) ?_
        · exact show RetryableIn s.pipeline.db.acquisitions id from hacq ▸ hr
        · obtain ⟨a, ha, hid⟩ := hknown
          exact ⟨a, by rw [hacq]; exact ha, hid⟩
    · -- the call goes out: the run was the only one that might
      refine hpaid.sent ?_ ?_ rfl hknown
      · have hlt : mayCallRuns id (moveRun s.pipeline.runs run (some .calling)) <
            mayCallRuns id s.pipeline.runs :=
          countP_moveRun_lt hrun (by simp [hacquires, hfetched, Stage.mayCall])
            fun next hnext => by cases hnext; simp [Stage.mayCall]
        exact Nat.add_lt_add_left hlt _
      · have hle : mayCallRuns id (moveRun s.pipeline.runs run (some .calling)) +
            callingRuns id (moveRun s.pipeline.runs run (some .calling)) ≤
              mayCallRuns id s.pipeline.runs + callingRuns id s.pipeline.runs :=
          openRuns_moveRun_le fun _ _ _ _ => by simp [hfetched, Stage.mayCall]
        show unclaimed (Acquires id) s.pipeline.db.jobs +
            mayCallRuns id (moveRun s.pipeline.runs run (some .calling)) +
            callingRuns id (moveRun s.pipeline.runs run (some .calling)) ≤
          unclaimed (Acquires id) s.pipeline.db.jobs + mayCallRuns id s.pipeline.runs +
            callingRuns id s.pipeline.runs
        omega
    -- The answer, recorded or refused, closes the call.
    · obtain rfl : id' = id := Option.some.inj (hid'.symm.trans hsome)
      rw [hentries]
      refine hpaid.ended habout hne
        (openCalls_ended (hjobs ▸ .refl _) hrun hacquires hcalling fun next hnext => ?_)
        (fun hnot hr => ?_) ?_
      · rcases hstage with rfl | rfl <;> cases hnext <;> simp [Stage.mayCall]
      · rcases hretryable _ hr with ⟨-, heq⟩ | hold
        · exact absurd heq hnot
        · exact hold
      · obtain ⟨a, ha, hid⟩ := hknown
        obtain ⟨a', ha', hida⟩ := hkeeps a ha
        exact ⟨a', ha', hida.trans hid⟩
  · -- it is about another one, or about none
    have hother : ∀ x ∈ run.logged s.pipeline.db c, x.about ≠ id := by
      intro x hx heq
      obtain ⟨id', hid', habout⟩ := TaskRun.about_of_logged hx
      obtain rfl : id' = id := habout.symm.trans heq
      exact hacquires (TaskRun.acquires_eq_some.1 hid')
    have hquiet : Quiet s.pipeline
        { db := db', runs := moveRun s.pipeline.runs run stage, lostCalls := lostCalls } id := by
      have hmove : KeepsAcquisitions s.pipeline.db.jobs db'.jobs ∧
          (RetryableIn db'.acquisitions id → RetryableIn s.pipeline.db.acquisitions id) ∧
          KeepsIds s.pipeline.db.acquisitions db'.acquisitions := by
        rcases TaskRun.call_cases hcall with ⟨hjobs, hacq, -, -⟩ | ⟨-, -, rfl, -⟩ |
          ⟨-, -, hjobs, hkeeps, id', e, hid', -, -, -, hretryable⟩
        · exact ⟨hjobs, fun hr => hacq ▸ hr, keepsIds_of_eq hacq⟩
        · exact ⟨.refl _, fun hr => hr, keepsIds_of_eq rfl⟩
        · refine ⟨hjobs ▸ .refl _, fun hr => ?_, hkeeps⟩
          rcases hretryable id hr with ⟨rfl, -⟩ | hold
          · exact absurd (TaskRun.acquires_eq_some.1 hid') hacquires
          · exact hold
      exact .of_move hmove.1 hmove.2.1 hmove.2.2 (fun _ _ ha => absurd ha hacquires)
        fun _ _ ha => absurd ha hacquires
    exact hpaid.quiet hquiet hother

/-- **A new attempt**: the row was retryable, or is new. -/
theorem Paid.allowed {id : String} (h : Paid s id)
    (hcount : s.log.count (.sent id) ≤ s.log.count (.refused id))
    (hopen : s.pipeline.openCalls id = 0)
    (hfresh : ¬ (.ambiguous id ∈ s.log ∨ .recorded id ∈ s.log))
    (hjobs : unclaimed (Acquires id) db'.jobs ≤ unclaimed (Acquires id) s.pipeline.db.jobs + 1)
    (hnot : ¬ RetryableIn db'.acquisitions id) (hknown : ∃ a' ∈ db'.acquisitions.rows, a'.id = id) :
    Paid ⟨{ s.pipeline with db := db' }, s.log⟩ id := by
  unfold Pipeline.openCalls Pipeline.tickets at hopen
  have htickets : Pipeline.tickets { s.pipeline with db := db' } id ≤ 1 := by
    show unclaimed (Acquires id) db'.jobs + mayCallRuns id s.pipeline.runs ≤ 1
    omega
  have hcalling : callingRuns id s.pipeline.runs = 0 := by omega
  refine ⟨?_, ?_, fun hr => absurd hr hnot, fun hclosed => absurd hclosed hfresh, h.ordered,
    fun hnone => ?_⟩
  · show s.log.count (.sent id) + Pipeline.tickets { s.pipeline with db := db' } id ≤
      s.log.count (.refused id) + 1
    omega
  · show Pipeline.tickets { s.pipeline with db := db' } id + callingRuns id s.pipeline.runs ≤ 1
    omega
  · obtain ⟨a', ha', hid⟩ := hknown
    exact absurd hid (hnone a' ha')

/-- A retried row is not retryable any more. -/
theorem retryable_retry {t : AcquisitionTable} {a : Acquisition} {other : String}
    (ha : a ∈ t.rows) (hbound : a.attemptNumber < 100)
    (h : RetryableIn (t.retry a.id) other) : other ≠ a.id ∧ RetryableIn t other := by
  obtain ⟨b, hb, hid, hstatus⟩ := h
  rcases mem_updateWhere.1 hb with ⟨b₀, hb₀, hp, rfl⟩ | ⟨hb', hp⟩
  · obtain rfl := AcquisitionTable.eq_of_id hb₀ ha (by simpa using hp)
    simp [hbound, Acquisition.retried] at hstatus
  · refine ⟨fun heq => ?_, b, hb', hid, hstatus⟩
    simp [hid, heq] at hp

/-- Nothing is open for an acquisition that is not there. -/
theorem openCalls_of_absent (h : WellFormed s.pipeline) {id : String}
    (hnone : ∀ a ∈ s.pipeline.db.acquisitions.rows, a.id ≠ id) :
    s.pipeline.openCalls id = 0 := by
  have hjobs : unclaimed (Acquires id) s.pipeline.db.jobs = 0 := by
    refine List.countP_eq_zero.2 fun j hj hq => ?_
    rw [Bool.and_eq_true] at hq
    obtain ⟨a, ha, hid⟩ := (h.founded j hj).acquired id (of_decide_eq_true hq.1)
    exact hnone a ha hid
  have hruns : mayCallRuns id s.pipeline.runs + callingRuns id s.pipeline.runs = 0 := by
    rw [mayCallRuns_add_callingRuns]
    refine List.countP_eq_zero.2 fun run hrun hq => ?_
    rw [Bool.and_eq_true] at hq
    obtain ⟨a, ha, hid⟩ := known_of_run h hrun (of_decide_eq_true hq.1)
    exact hnone a ha hid
  unfold Pipeline.openCalls Pipeline.tickets
  omega

/-- **`request_process` keeps the books**: a new attempt is the first, or
the refusal before it pays. -/
theorem Audit.Sound.request {tenantId : Uuid} {code : String} {publicId : Option Uuid}
    {rowId : String} {jobId : Uuid} {result : ProcessRequestResult} (h : s.Sound)
    (hrequest : requestProcess s.pipeline.db tenantId code publicId rowId jobId now =
      some (result, db')) :
    SingleAttempt "request_judit_process" db'.jobs ∧
      ∀ id, Paid ⟨{ s.pipeline with db := db' }, s.log⟩ id := by
  have hkeeps := (extends_request hrequest).acquisitions.keepsIds
  rcases requestProcess_cases hrequest with ⟨a, requests', hfind, hretryable, -, -, rfl⟩ |
    ⟨a, requests', -, -, -, rfl⟩ | ⟨acquisitions, requests', -, hinsert, -, -, rfl⟩
  · refine ⟨h.single.insertNew fun _ => rfl, fun id => ?_⟩
    have ha := (AcquisitionTable.find?_eq_some hfind).1
    simp only [Acquisition.retryable, Bool.and_eq_true, beq_iff_eq, decide_eq_true_eq]
      at hretryable
    have hjobs := unclaimed_insertNew_requestJob (t := s.pipeline.db.jobs) id a.id
      (a.attemptNumber + 1) jobId now
    by_cases hid : id = a.id
    · subst hid
      rw [if_pos rfl] at hjobs
      -- The row is tried again: its refusals pay for one more call.
      have hrow : s.pipeline.Retryable a.id := ⟨a, ha, rfl, hretryable.1⟩
      obtain ⟨hcount, hopen⟩ := (h.paid a.id).retryable hrow
      exact (h.paid a.id).allowed hcount hopen
        (fun hclosed => ((h.paid a.id).closed hclosed).2 hrow) hjobs
        (fun hr => (retryable_retry ha hretryable.2 hr).1 rfl) (hkeeps a ha)
    · rw [if_neg hid] at hjobs
      exact (h.paid id).quiet_silent (.of_db hjobs
        (fun hr => (retryable_retry ha hretryable.2 hr).2) hkeeps)
  · exact ⟨h.single, fun id => (h.paid id).of_jobs (.refl _) rfl⟩
  · refine ⟨h.single.insertNew fun _ => rfl, fun id => ?_⟩
    obtain ⟨hrows, hfresh⟩ := AcquisitionTable.insert_eq_some hinsert
    -- A new row is not retryable, so what is so was there before.
    have hnew : ∀ {other : String}, RetryableIn acquisitions other →
        RetryableIn s.pipeline.db.acquisitions other := by
      rintro other ⟨b, hb, hid, hstatus⟩
      rw [hrows] at hb
      rcases List.mem_append.1 hb with hb | hb
      · exact ⟨b, hb, hid, hstatus⟩
      · obtain rfl := List.mem_singleton.1 hb
        cases hstatus
    have hjobs := unclaimed_insertNew_requestJob (t := s.pipeline.db.jobs) id rowId 1 jobId now
    by_cases hid : id = rowId
    · subst hid
      rw [if_pos rfl] at hjobs
      -- Nothing was known of the new row: no call is open, and none is logged.
      have hnone : ∀ a ∈ s.pipeline.db.acquisitions.rows, a.id ≠ id :=
        fun a ha heq => hfresh (List.mem_map.2 ⟨a, ha, heq⟩)
      have hopen := openCalls_of_absent h.wellFormed hnone
      obtain ⟨hsent, hambiguous, hrecorded⟩ := (h.paid id).known hnone
      refine (h.paid id).allowed ?_ hopen (fun hclosed => hclosed.elim hambiguous hrecorded) hjobs
        (fun hr => ?_) ?_
      · rw [List.count_eq_zero.2 hsent]
        exact Nat.zero_le _
      · obtain ⟨a, ha, heq, -⟩ := hnew hr
        exact hnone a ha heq
      · refine ⟨.new id tenantId code, ?_, rfl⟩
        show _ ∈ acquisitions.rows
        rw [hrows]
        exact List.mem_append_right _ (List.mem_singleton_self _)
    · rw [if_neg hid] at hjobs
      exact (h.paid id).quiet_silent (.of_db hjobs hnew hkeeps)

/-- A transaction that leaves the acquisitions, and adds no acquisition
job. -/
theorem Audit.Sound.of_jobs (h : s.Sound) (hwell : WellFormed { s.pipeline with db := db' })
    (hjobs : KeepsAcquisitions s.pipeline.db.jobs db'.jobs)
    (hacquisitions : db'.acquisitions = s.pipeline.db.acquisitions) :
    Audit.Sound ⟨{ s.pipeline with db := db' }, s.log ++ []⟩ := by
  rw [List.append_nil]
  exact ⟨hwell, hjobs.single h.single, fun id => (h.paid id).of_jobs hjobs hacquisitions⟩

/-- **A claim keeps the books**: what the job allowed, its run allows. -/
theorem Audit.Sound.claim {worker pick : Uuid} {slot : Nat} {locked : List Uuid} {row : Job}
    {jobs : JobTable} (h : s.Sound)
    (hclaim : Queue.claim s.pipeline.db.jobs worker now locked pick = some (row, jobs))
    (id : String) :
    Paid ⟨{ s.pipeline with
      db := { s.pipeline.db with jobs := jobs }
      runs := s.pipeline.runs ++ [{ worker := worker, slot := slot, row := row }] }, s.log⟩ id := by
  have hunclaimed := unclaimed_claim hclaim h.single (fixed_acquires id) fun _ ha => ha.1
  have hmay : mayCallRuns id (s.pipeline.runs ++ [{ worker := worker, slot := slot, row := row }]) =
      mayCallRuns id s.pipeline.runs + if Acquires id row then 1 else 0 := by
    unfold mayCallRuns
    rw [List.countP_append]
    by_cases hacquires : Acquires id row <;> simp [hacquires, Stage.mayCall]
  have hcalling : callingRuns id
      (s.pipeline.runs ++ [{ worker := worker, slot := slot, row := row }]) =
      callingRuns id s.pipeline.runs := by
    unfold callingRuns
    rw [List.countP_append]
    simp
  have hquiet : Quiet s.pipeline { s.pipeline with
      db := { s.pipeline.db with jobs := jobs }
      runs := s.pipeline.runs ++ [{ worker := worker, slot := slot, row := row }] } id := by
    refine ⟨?_, ?_, fun hr => hr, fun a ha hid => ⟨a, ha, hid⟩⟩
    · show unclaimed (Acquires id) jobs + mayCallRuns id (s.pipeline.runs ++ _) ≤
        unclaimed (Acquires id) s.pipeline.db.jobs + mayCallRuns id s.pipeline.runs
      omega
    · show unclaimed (Acquires id) jobs + mayCallRuns id (s.pipeline.runs ++ _) +
          callingRuns id (s.pipeline.runs ++ _) ≤
        unclaimed (Acquires id) s.pipeline.db.jobs + mayCallRuns id s.pipeline.runs +
          callingRuns id s.pipeline.runs
      omega
  exact (h.paid id).quiet_silent hquiet

/-- **A run that dies keeps the books**, its call in flight or not. -/
theorem Audit.Sound.vanish {lostCalls : List String} (h : s.Sound)
    (hrun : run ∈ s.pipeline.runs) (id : String) :
    Paid ⟨{ s.pipeline with
      runs := moveRun s.pipeline.runs run none
      lostCalls := lostCalls }, s.log ++
        match run.acquires with
        | none => []
        | some id => if run.stage = .calling then [.ambiguous id] else []⟩ id := by
  have hquiet : Quiet s.pipeline { s.pipeline with
      runs := moveRun s.pipeline.runs run none
      lostCalls := lostCalls } id :=
    .of_move (.refl _) (fun hr => hr) (keepsIds_of_eq rfl) (fun _ hnext => nomatch hnext)
      fun _ hnext => nomatch hnext
  cases hacquires : run.acquires with
  | none => exact (h.paid id).quiet hquiet fun _ hx => nomatch hx
  | some id' =>
      by_cases hcalling : run.stage = .calling
      · simp only [hcalling, if_true]
        by_cases hid : id' = id
        · subst hid
          have ha := TaskRun.acquires_eq_some.1 hacquires
          exact (h.paid id').ended rfl (by simp)
            (openCalls_ended (.refl _) hrun ha hcalling fun _ hnext => nomatch hnext)
            (fun _ hr => hr) (known_of_run h.wellFormed hrun ha)
        · refine (h.paid id).quiet hquiet fun x hx => ?_
          obtain rfl := List.mem_singleton.1 hx
          exact hid
      · simp only [hcalling, if_false]
        exact (h.paid id).quiet hquiet fun _ hx => nomatch hx

/-- **Every step keeps the books.** -/
theorem Audit.Sound.step {s s' : Audit} {e : Event} (h : s.Sound) (hs : s.step e = some s') :
    s'.Sound := by
  obtain ⟨pipeline, hpipeline, rfl⟩ := Option.map_eq_some_iff.1 hs
  have hwell := h.wellFormed.step hpipeline
  cases e with
  | create id tenantId code idempotencyKey fingerprint format =>
      simp only [Pipeline.step] at hpipeline
      split at hpipeline
      · cases hpipeline
      · cases hpipeline
        exact h.of_jobs hwell (.refl _) rfl
  | request tenantId code publicId rowId jobId now =>
      obtain ⟨⟨result, db'⟩, hrequest, rfl⟩ := Option.map_eq_some_iff.1 hpipeline
      obtain ⟨hsingle, hpaid⟩ := h.request hrequest
      show Audit.Sound ⟨{ s.pipeline with db := db' }, s.log ++ []⟩
      rw [List.append_nil]
      exact ⟨hwell, hsingle, hpaid⟩
  -- The jobs that the provider's callbacks enqueue finalize; they acquire nothing.
  | completed requestId jobId now =>
      simp only [Pipeline.step] at hpipeline
      split at hpipeline
      · cases hpipeline
      · obtain ⟨db', hcomplete, rfl⟩ := Option.map_eq_some_iff.1 hpipeline
        obtain ⟨-, rfl⟩ := Database.complete_eq_some hcomplete
        exact h.of_jobs hwell (.insertNew (by simp [finalizeJob])) rfl
  | lawsuit response reads newProcess newVersion jobId now =>
      obtain ⟨db', hlawsuit, rfl⟩ := Option.map_eq_some_iff.1 hpipeline
      obtain ⟨archive, jobs, rfl, -, rfl | ⟨requestId, rfl⟩⟩ := Database.lawsuit_eq_some hlawsuit
      · exact h.of_jobs hwell (.refl _) rfl
      · exact h.of_jobs hwell (.insertNew (by simp [finalizeJob])) rfl
  | claim worker slot now locked pick =>
      simp only [Pipeline.step] at hpipeline
      split at hpipeline
      · cases hpipeline
      · split at hpipeline
        · cases hpipeline
        · rename_i row jobs hclaim
          cases hpipeline
          refine ⟨hwell, h.single.claim hclaim, fun id => ?_⟩
          show Paid ⟨_, s.log ++ []⟩ id
          rw [List.append_nil]
          exact h.claim hclaim id
  | call worker slot now c =>
      simp only [Pipeline.step] at hpipeline
      split at hpipeline
      · cases hpipeline
      · rename_i run hfind
        split at hpipeline
        · cases hpipeline
        · rename_i db' stage hcall
          cases hpipeline
          have hlogged : s.pipeline.entries (.call worker slot now c) =
              run.logged s.pipeline.db c := by
            simp only [Pipeline.entries, TaskRun.logged, hfind]
          rw [hlogged]
          refine ⟨hwell, ?_, h.call (List.mem_of_find?_eq_some hfind) hcall⟩
          rcases TaskRun.call_cases hcall with ⟨hjobs, -⟩ | ⟨-, -, rfl, -⟩ | ⟨-, -, hjobs, -⟩
          · exact hjobs.single h.single
          · exact h.single
          · show SingleAttempt "request_judit_process" db'.jobs
            rw [hjobs]
            exact h.single
  | reclaim timeoutSeconds now locked unseen =>
      obtain ⟨db', hreclaim, rfl⟩ := Option.map_eq_some_iff.1 hpipeline
      unfold Database.reclaim at hreclaim
      split at hreclaim
      · cases hreclaim
      · rename_i rows jobs heq
        cases hreclaim
        exact h.of_jobs hwell (.of_keep (.reclaim heq)) rfl
  | vanish worker slot =>
      simp only [Pipeline.step] at hpipeline
      split at hpipeline
      · cases hpipeline
      · rename_i run hfind
        cases hpipeline
        -- A worker lost in the middle of its call leaves it ambiguous.
        have hentries : s.pipeline.entries (.vanish worker slot) =
            match run.acquires with
            | none => []
            | some id => if run.stage = .calling then [.ambiguous id] else [] := by
          simp only [Pipeline.entries, hfind]
        rw [hentries]
        exact ⟨hwell, h.single, h.vanish (List.mem_of_find?_eq_some hfind)⟩
  | expunge doomed =>
      cases hpipeline
      exact h.of_jobs hwell (.refl _) rfl

theorem sound_init : Audit.Sound {} where
  wellFormed := wellFormed_init
  single := fun _ hj => nomatch hj
  paid := fun _ =>
    { budget := Nat.zero_le _
      single := Nat.zero_le _
      retryable := fun ⟨_, ha, _⟩ => nomatch ha
      closed := fun hclosed => hclosed.elim (fun h => nomatch h) fun h => nomatch h
      ordered := .nil
      known := fun _ => ⟨List.not_mem_nil, List.not_mem_nil, List.not_mem_nil⟩ }

/-- **No duplicate paid acquisition**, in whatever order things happen. -/
theorem paidOnce_of_reachable (s : Audit) (hs : Reachable Audit.step {} s) (id : String) :
    PaidOnce s.log id := by
  have hsound : s.Sound := hs.invariant sound_init fun _ _ _ h _ hstep => h.step hstep
  have hbudget := (hsound.paid id).budget
  exact ⟨by omega, (hsound.paid id).ordered⟩

end Steps

/-- A retry-safe rejection, a second call without an answer, and two more
requests for the lawsuit. -/
def refusedRun : List Event :=
  [.request 1 sampleCode none "acquisition" 10 0, .claim 9 0 0 [] 10, .call 9 0 0 .fetch,
   .call 9 0 0 .send, .call 9 0 0 (.rejected true), .vanish 9 0,
   .request 1 sampleCode none "unused" 11 0, .claim 9 0 0 [] 11, .call 9 0 0 .fetch,
   .request 1 sampleCode none "unused" 12 0, .call 9 0 0 .send, .vanish 9 0,
   .reclaim 45 60000000 [], .request 1 sampleCode none "unused" 13 60000000]

/-- The acquisition of `refusedRun` is paid for as the theorem says. -/
theorem paidOnce_refusedRun :
    ∃ s ∈ run Audit.step {} refusedRun, PaidOnce s.log "acquisition" ∧
      s.log = [.sent "acquisition", .refused "acquisition", .sent "acquisition",
        .ambiguous "acquisition"] := by
  have hlog : ∃ s ∈ run Audit.step {} refusedRun,
      s.log = [.sent "acquisition", .refused "acquisition", .sent "acquisition",
        .ambiguous "acquisition"] := by
    decide +kernel
  obtain ⟨s, hs, hlog⟩ := hlog
  exact ⟨s, hs, paidOnce_of_reachable s (reachable_of_run hs) _, hlog⟩

end Rpy.Lifecycle

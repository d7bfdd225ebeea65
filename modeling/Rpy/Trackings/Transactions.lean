/-
  Rpy.Trackings.Transactions
  ──────────────────────────
  **WHAT THE TRACKINGS' TRANSACTIONS AND TASK STEPS DO.**

  One lemma for each transaction says what it writes, and one for the steps
  of a task says what they can be, so that an invariant never unfolds them.

    • `createTracking_cases`, `deleteTracking_cases`, `reconcileOne_cases`,
    • `TaskRun.call_cases` — the steps of a task,
    • `countP_moveRun_le`, `countP_moveRun_lt` — the runs afterwards.
-/
import Rpy.Queue.Tickets
import Rpy.Trackings.Scheduling

namespace Rpy.Trackings

open Rpy.Foundation Rpy.Queue
open Rpy.Lifecycle (payloadText Names)

/-! ## §1. Jobs. -/

/-- The job of a refresh. -/
abbrev Refreshes (refresh : String) : Job → Prop :=
  Names "refresh_judit_tracking" "refresh_id" refresh

/-- The creation job of a tracking. -/
abbrev Creates (tracking : String) : Job → Prop :=
  Names "create_judit_tracking" "tracking_id" tracking

/-- The deletion job of a tracking. -/
abbrev Deletes (tracking : String) : Job → Prop :=
  Names "delete_judit_tracking" "tracking_id" tracking

theorem fixed_names (task key text : String) : Fixed (Names task key text) := by
  intro j j' h
  unfold Names
  rw [h.taskName, h.payload]

/-- A refresh key is no key of another tracking job. -/
theorem refreshKey_ne {head : String}
    (hhead : head = "judit-tracking-create:" ∨ head = "judit-tracking-delete:")
    (x y attempt : String) : refreshKey x ≠ head ++ y ++ ":" ++ attempt := by
  intro h
  have hchar := congrArg (fun s : String => s.toList[15]?) h
  unfold refreshKey at hchar
  simp only [String.toList_append, List.append_assoc] at hchar
  -- the tasks begin with different letters
  rcases hhead with rfl | rfl
  all_goals
    rw [List.getElem?_append_left (by decide), List.getElem?_append_left (by decide)] at hchar
    exact absurd hchar (by decide)

theorem refreshKey_inj {x y : String} (h : refreshKey x = refreshKey y) : x = y := by
  have hlist := congrArg String.toList h
  unfold refreshKey at hlist
  simp only [String.toList_append] at hlist
  exact String.toList_inj.1 (List.append_cancel_left hlist)

/-- A job of another task is none of the trackings'. -/
theorem isForeign_eq_true {new : NewJob} (h : isForeign new = true) :
    new.taskName ∉ trackingTasks ∧ ∀ x, new.idempotencyKey ≠ some (refreshKey x) := by
  unfold isForeign at h
  rw [Bool.and_eq_true] at h
  refine ⟨by simpa using h.1, fun x hkey => ?_⟩
  have hprefix := h.2
  simp only [hkey] at hprefix
  -- the head of a refresh key is the trackings' head and more
  have hhead : "judit-tracking-".toList <+: (refreshKey x).toList := by
    refine ⟨"refresh:".toList ++ x.toList, ?_⟩
    unfold refreshKey
    rw [String.toList_append, ← List.append_assoc]
    rfl
  rw [List.isPrefixOf_iff_prefix.2 hhead] at hprefix
  cases hprefix

/-! ## §2. Transactions. -/

section Transactions

variable {db db' : Database} {now : Timestamp}

theorem Database.enqueue_eq_some {new : NewJob} {jobId : Uuid}
    (h : db.enqueue new jobId now = some db') :
    jobId ∉ db.jobs.rows.map Job.id ∧
      db' = { db with jobs := (db.jobs.insertNew new jobId now).2 } := by
  unfold Database.enqueue at h
  split at h
  · cases h
  · rename_i hid
    split at h
    · cases h
    · rename_i row jobs henqueue
      cases h
      exact ⟨hid, by rw [enqueue_eq_ok henqueue]⟩

/-- **`create_tracking`** joins a live row, starts a dead one again, or
inserts one. -/
theorem createTracking_cases {tenantId : Uuid} {code rowId : String} {days : Int} {jobId : Uuid}
    {result : TrackingMutationResult}
    (h : createTracking db tenantId code days rowId jobId now = some (result, db')) :
    db' = db ∨
    (∃ t ∈ db.trackings.rows, ∃ hdays : 0 < days, t.tenantId = tenantId ∧ t.processCode = code ∧
      (t.status = .failed ∨ t.status = .deleted) ∧
      db' = { db with
        trackings := db.trackings.recreate t.id days hdays
        jobs := (db.jobs.insertNew (createJob t.id (t.attemptNumber + 1)) jobId now).2 }) ∨
    (∃ trackings, ∃ hdays : 0 < days,
      db.trackings.insert (.new rowId tenantId code days hdays now) rfl = some trackings ∧
      db' = { db with
        trackings := trackings
        jobs := (db.jobs.insertNew (createJob rowId 1) jobId now).2 }) := by
  unfold createTracking at h
  split at h
  · rename_i hdays
    split at h
    · rename_i t hfind
      obtain ⟨ht, htenant, hcode⟩ := TrackingTable.find?_eq_some hfind
      split at h
      · cases h
        exact .inl rfl
      · rename_i hdead
        obtain ⟨db₁, henqueue, heq⟩ := Option.map_eq_some_iff.1 h
        obtain ⟨-, rfl⟩ := Database.enqueue_eq_some henqueue
        cases heq
        refine .inr (.inl ⟨t, ht, hdays, htenant, hcode, ?_, rfl⟩)
        cases hstatus : t.status <;> simp_all
    · split at h
      · cases h
      · rename_i trackings hinsert
        obtain ⟨db₁, henqueue, heq⟩ := Option.map_eq_some_iff.1 h
        obtain ⟨-, rfl⟩ := Database.enqueue_eq_some henqueue
        cases heq
        exact .inr (.inr ⟨trackings, hdays, hinsert, rfl⟩)
  · cases h

/-- **`delete_tracking`** finds nothing to do, or starts the deletion of a
live row. -/
theorem deleteTracking_cases {tenantId : Uuid} {trackingId : String} {jobId : Uuid}
    {found : Bool} (h : deleteTracking db tenantId trackingId jobId now = some (found, db')) :
    db' = db ∨
    (∃ t ∈ db.trackings.rows, t.id = trackingId ∧ t.status ≠ .deleted ∧ t.status ≠ .deleting ∧
      db' = { db with
        trackings := db.trackings.startDelete trackingId
        jobs := (db.jobs.insertNew (deleteJob trackingId (t.attemptNumber + 1)) jobId now).2 }) := by
  unfold deleteTracking at h
  split at h
  · cases h
    exact .inl rfl
  · rename_i t hfind
    have hp := List.find?_some hfind
    simp only [Bool.and_eq_true, beq_iff_eq] at hp
    split at h
    · cases h
      exact .inl rfl
    · rename_i hdeleted
      split at h
      · cases h
        exact .inl rfl
      · rename_i hdeleting
        obtain ⟨db₁, henqueue, heq⟩ := Option.map_eq_some_iff.1 h
        obtain ⟨-, rfl⟩ := Database.enqueue_eq_some henqueue
        cases heq
        exact .inr ⟨t, List.mem_of_find?_eq_some hfind, hp.2, hdeleted, hdeleting, rfl⟩

/-- **One turn of the scheduler's loop** changes nothing, or adds a refresh
and its job. -/
theorem reconcileOne_cases {t : Tracking} {refreshId : String} {jobId : Uuid} {created : Bool}
    (h : reconcileOne db t refreshId jobId now = some (created, db')) :
    db' = db ∨
    (∃ refreshes, refreshId ∉ db.refreshes.rows.map Refresh.id ∧
      jobId ∉ db.jobs.rows.map Job.id ∧
      refreshes.rows =
        db.refreshes.rows ++ [{ id := refreshId, trackingId := t.id, createdAt := now }] ∧
      db' = { db with
        refreshes := refreshes
        trackings := db.trackings.reconcile t.id now
        jobs := (db.jobs.insertNew (refreshJob refreshId) jobId now).2 }) := by
  unfold reconcileOne at h
  split at h
  · cases h
  · cases h
    exact .inl rfl
  · rename_i refreshes hinsert
    obtain ⟨db₁, henqueue, heq⟩ := Option.map_eq_some_iff.1 h
    obtain ⟨hjobId, rfl⟩ := Database.enqueue_eq_some henqueue
    cases heq
    rcases RefreshTable.insert_eq_some hinsert with ⟨hfalse, -⟩ | ⟨-, hid, hrows⟩
    · cases hfalse
    · exact .inr ⟨refreshes, hid, hjobId, hrows, rfl⟩

/-- What each turn of the loop keeps, the scheduler's transaction keeps. -/
theorem enqueueDue_induction {P : Database → Prop} {staleAfter limit : Int} {locked : List String}
    {ids : List (String × Uuid)} {n : Nat}
    (h : enqueueDueTrackingReconciliations db staleAfter limit locked ids now = some (n, db'))
    (hstart : P db)
    (hturn : ∀ db₁ db₂ t refreshId jobId created, P db₁ →
      reconcileOne db₁ t refreshId jobId now = some (created, db₂) → P db₂) : P db' := by
  have hloop : ∀ (ts : List Tracking) (ids : List (String × Uuid)) (n : Nat) (db : Database),
      P db → reconcileAll db now ts ids = some (n, db') → P db' := by
    intro ts
    induction ts with
    | nil =>
        intro ids n db hP h
        cases h
        exact hP
    | cons t ts ih =>
        intro ids n db hP h
        cases ids with
        | nil => cases h
        | cons id ids =>
            simp only [reconcileAll] at h
            split at h
            · cases h
            · rename_i created db₁ hone
              obtain ⟨⟨m, db₂⟩, hrest, heq⟩ := Option.map_eq_some_iff.1 h
              cases heq
              exact ih ids m db₁ (hturn _ _ _ _ _ _ hP hone) hrest
  unfold enqueueDueTrackingReconciliations at h
  split at h
  · cases h
  · exact hloop _ _ _ _ hstart h

end Transactions

/-! ## §3. Steps of a task. -/

/-- What a step of a task can be. -/
inductive TaskRun.Steps (run : TaskRun) (db : Database) (provider : Provider) (now : Timestamp) :
    TaskCall → Database → Provider → Option Stage → Prop where
  /-- it reads its row -/
  | fetch (stage : Stage) (hstage : run.stage = .claimed) (hfetch : run.fetch db = some stage) :
      TaskRun.Steps run db provider now .fetch db provider (some stage)
  | send (c : ProviderCall) (hstage : run.stage = .ready c) :
      TaskRun.Steps run db provider now .send db provider (some (.calling c))
  | accepted (c : ProviderCall) (id : String) (provider' : Provider) (stage : Stage)
      (hstage : run.stage = .calling c) (haccept : run.accept provider c id = some (provider', stage)) :
      TaskRun.Steps run db provider now (.accepted id) db provider' (some stage)
  | rejected (retrySafe : Bool) (db' : Database)
      (hstage : (∃ c, run.stage = .calling c) ∨ ∃ id, run.stage = .answered id ∧ id ≠ "")
      (hreject : run.reject db retrySafe = some db') :
      TaskRun.Steps run db provider now (.rejected retrySafe) db' provider (some .raised)
  | commit (id : String) (db' : Database) (hstage : run.stage = .answered id)
      (hcommit : run.commit db id = some db') :
      TaskRun.Steps run db provider now .commit db' provider (some .settled)
  | heartbeat :
      TaskRun.Steps run db provider now .heartbeat
        { db with jobs := (heartbeat db.jobs run.row.id run.worker now).2 } provider
        (some run.stage)
  | complete (result : Json)
      (hstage : run.stage = .settled ∨ run.row.taskName ∉ trackingTasks) :
      TaskRun.Steps run db provider now (.complete result)
        { db with jobs := (complete db.jobs run.row.id run.worker result now).2 } provider none
  | fail (failure : Failure) :
      TaskRun.Steps run db provider now (.fail failure)
        { db with jobs := (fail db.jobs run.row.id run.worker failure now).2 } provider none

/-- **A step of a task is one of these.** -/
theorem TaskRun.call_cases {run : TaskRun} {db db' : Database} {provider provider' : Provider}
    {now : Timestamp} {c : TaskCall} {stage : Option Stage}
    (h : run.call db provider now c = some (db', provider', stage)) :
    run.Steps db provider now c db' provider' stage := by
  cases c with
  | fetch =>
      simp only [TaskRun.call] at h
      split at h
      · rename_i hclaimed
        obtain ⟨stage, hfetch, heq⟩ := Option.map_eq_some_iff.1 h
        cases heq
        exact .fetch stage hclaimed hfetch
      · cases h
  | send =>
      simp only [TaskRun.call] at h
      split at h
      · rename_i c hready
        cases h
        exact .send c hready
      · cases h
  | accepted id =>
      simp only [TaskRun.call] at h
      split at h
      · rename_i c hcalling
        obtain ⟨⟨provider', stage⟩, haccept, heq⟩ := Option.map_eq_some_iff.1 h
        cases heq
        exact .accepted c id provider' stage hcalling haccept
      · cases h
  -- A rejection is the provider's, or that of an answer without an id.
  | rejected retrySafe =>
      simp only [TaskRun.call] at h
      split at h
      · rename_i c hcalling
        obtain ⟨db', hreject, heq⟩ := Option.map_eq_some_iff.1 h
        cases heq
        exact .rejected retrySafe db' (.inl ⟨c, hcalling⟩) hreject
      · rename_i id hanswered
        split at h
        · cases h
        · rename_i hne
          obtain ⟨db', hreject, heq⟩ := Option.map_eq_some_iff.1 h
          cases heq
          exact .rejected retrySafe db' (.inr ⟨id, hanswered, hne⟩) hreject
      · cases h
  | commit =>
      simp only [TaskRun.call] at h
      split at h
      · rename_i id hanswered
        obtain ⟨db', hcommit, heq⟩ := Option.map_eq_some_iff.1 h
        cases heq
        exact .commit id db' hanswered hcommit
      · cases h
  | heartbeat =>
      cases h
      exact .heartbeat
  | complete result =>
      simp only [TaskRun.call] at h
      split at h
      · rename_i hstage
        cases h
        exact .complete result (by simpa using hstage)
      · cases h
  | fail failure =>
      cases h
      exact .fail failure

/-- What a rejection writes. -/
theorem TaskRun.reject_cases {run : TaskRun} {db db' : Database} {retrySafe : Bool}
    (h : run.reject db retrySafe = some db') :
    (∃ x, Creates x run.row ∧ db' = { db with trackings := db.trackings.refuse x }) ∨
    db' = db ∨
    (∃ x, Refreshes x run.row ∧ db' = { db with refreshes := db.refreshes.refuse x retrySafe }) := by
  unfold TaskRun.reject TaskRun.about at h
  split at h
  · rename_i htask
    obtain ⟨x, hx, rfl⟩ := Option.map_eq_some_iff.1 h
    exact .inl ⟨x, ⟨htask, hx⟩, rfl⟩
  · split at h
    · cases h
      exact .inr (.inl rfl)
    · split at h
      · rename_i htask
        obtain ⟨x, hx, rfl⟩ := Option.map_eq_some_iff.1 h
        exact .inr (.inr ⟨x, ⟨htask, hx⟩, rfl⟩)
      · cases h

/-- What the transaction after an answer writes. -/
theorem TaskRun.commit_cases {run : TaskRun} {db db' : Database} {id : String}
    (h : run.commit db id = some db') :
    (∃ x trackings, Creates x run.row ∧ db.trackings.activate x id = some trackings ∧
      db' = { db with trackings := trackings }) ∨
    (∃ x, Deletes x run.row ∧ db' = { db with trackings := db.trackings.drop x }) ∨
    (∃ x refreshes, Refreshes x run.row ∧ db.refreshes.record x id = some refreshes ∧
      db' = { db with refreshes := refreshes }) := by
  unfold TaskRun.commit TaskRun.about at h
  split at h
  · rename_i htask
    split at h
    · cases h
    · rename_i x hx
      obtain ⟨trackings, hactivate, rfl⟩ := Option.map_eq_some_iff.1 h
      exact .inl ⟨x, trackings, ⟨htask, hx⟩, hactivate, rfl⟩
  · split at h
    · rename_i htask
      obtain ⟨x, hx, rfl⟩ := Option.map_eq_some_iff.1 h
      exact .inr (.inl ⟨x, ⟨htask, hx⟩, rfl⟩)
    · split at h
      · rename_i htask
        split at h
        · cases h
        · rename_i x hx
          obtain ⟨refreshes, hrecord, rfl⟩ := Option.map_eq_some_iff.1 h
          exact .inr (.inr ⟨x, refreshes, ⟨htask, hx⟩, hrecord, rfl⟩)
      · cases h

/-! ## §4. Runs that move. -/

section Runs

variable {runs : List TaskRun} {run : TaskRun} {stage : Option Stage} {q : TaskRun → Bool}

/-- A move that makes no run meet `q` counts no more of them. -/
theorem countP_moveRun_le
    (h : ∀ next, stage = some next → q { run with stage := next } = true → q run = true) :
    (moveRun runs run stage).countP q ≤ runs.countP q := by
  cases stage with
  | none => exact List.filter_sublist.countP_le
  | some next =>
      refine countP_updateWhere_le fun d _ hd hq => ?_
      obtain rfl : d = run := by simpa using hd
      exact h next rfl hq

/-- It counts fewer if the run that moves met `q` and no longer does. -/
theorem countP_moveRun_lt (hrun : run ∈ runs) (hq : q run = true)
    (h : ∀ next, stage = some next → q { run with stage := next } = false) :
    (moveRun runs run stage).countP q < runs.countP q := by
  cases stage with
  | none => exact countP_filter_lt hrun (by simp) hq
  | some next =>
      refine countP_updateWhere_lt (fun d _ hd hq' => ?_) hrun (by simp) hq (h next rfl)
      obtain rfl : d = run := by simpa using hd
      exact hq

/-- A run afterwards is the one that moved, or was there. -/
theorem mem_moveRun {d : TaskRun} (h : d ∈ moveRun runs run stage) :
    (∃ next, stage = some next ∧ d = { run with stage := next }) ∨ (d ∈ runs ∧ d ≠ run) := by
  cases stage with
  | none =>
      rw [moveRun, List.mem_filter] at h
      exact .inr ⟨h.1, of_decide_eq_true h.2⟩
  | some next =>
      rcases mem_updateWhere.1 h with ⟨d₀, -, hd₀, rfl⟩ | ⟨hd, hne⟩
      · obtain rfl : d₀ = run := by simpa using hd₀
        exact .inl ⟨next, rfl, rfl⟩
      · exact .inr ⟨hd, by simpa using hne⟩

end Runs

/-! ## §5. What still has to answer for a job. -/

/-- The run still has to answer for its job. -/
def Stage.isLive : Stage → Bool
  | .raised | .settled => false
  | _ => true

def liveRuns (q : Job → Prop) [DecidablePred q] (runs : List TaskRun) : Nat :=
  runs.countP fun run => decide (q run.row) && run.stage.isLive

/-- The jobs that nobody has claimed, and the runs that still have to
answer. -/
def System.live (q : Job → Prop) [DecidablePred q] (s : System) : Nat :=
  unclaimed q s.db.jobs + liveRuns q s.runs

section Live

variable {q : Job → Prop} [DecidablePred q] {runs : List TaskRun} {run : TaskRun}
  {stage : Option Stage} {t t' : JobTable} {now : Timestamp}

/-- A move of a run that does not become live. -/
theorem liveRuns_moveRun_le
    (h : ∀ next, stage = some next → next.isLive = true → run.stage.isLive = true) :
    liveRuns q (moveRun runs run stage) ≤ liveRuns q runs :=
  countP_moveRun_le fun next hnext hq => by
    rw [Bool.and_eq_true] at hq ⊢
    exact ⟨hq.1, h next hnext hq.2⟩

/-- **The only live run leaves nothing live when it answers.** -/
theorem live_moveRun_eq_zero (honce : unclaimed q t + liveRuns q runs ≤ 1) (hrun : run ∈ runs)
    (hq : q run.row) (hlive : run.stage.isLive = true)
    (hstage : ∀ next, stage = some next → next.isLive = false) :
    unclaimed q t + liveRuns q (moveRun runs run stage) = 0 := by
  have hlt : liveRuns q (moveRun runs run stage) < liveRuns q runs :=
    countP_moveRun_lt hrun (by simp [hq, hlive]) fun next hnext => by simp [hstage next hnext]
  omega

/-- **A claim moves what is live from the job to its run.** -/
theorem live_claim {worker pick : Uuid} {slot : Nat} {locked : List Uuid} {row : Job}
    {task : String} (hclaim : claim t worker now locked pick = some (row, t'))
    (hsingle : SingleAttempt task t) (hq : Fixed q) (htask : ∀ j, q j → j.taskName = task) :
    unclaimed q t' +
        liveRuns q (runs ++ [{ worker := worker, slot := slot, row := row }]) ≤
      unclaimed q t + liveRuns q runs := by
  have hunclaimed := unclaimed_claim hclaim hsingle hq htask
  have hruns : liveRuns q (runs ++ [{ worker := worker, slot := slot, row := row }]) =
      liveRuns q runs + if q row then 1 else 0 := by
    unfold liveRuns
    rw [List.countP_append]
    by_cases hrow : q row <;> simp [hrow, Stage.isLive]
  omega

/-- **A step of a task keeps the jobs.** -/
theorem TaskRun.call_keeps {db db' : Database} {provider provider' : Provider} {c : TaskCall}
    (hcall : run.call db provider now c = some (db', provider', stage)) :
    JobsKeep db.jobs db'.jobs := by
  cases TaskRun.call_cases hcall with
  | rejected retrySafe db' hstage hreject =>
      rcases TaskRun.reject_cases hreject with ⟨x, -, rfl⟩ | rfl | ⟨x, -, rfl⟩ <;> exact .refl _
  | commit id db' hanswered hcommit =>
      rcases TaskRun.commit_cases hcommit with ⟨x, trackings, -, -, rfl⟩ | ⟨x, -, rfl⟩ |
        ⟨x, refreshes, -, -, rfl⟩ <;> exact .refl _
  | heartbeat => exact .heartbeat
  | complete => exact .complete
  | fail => exact .fail
  | _ => exact .refl _

/-- **No run has to answer again.** -/
theorem TaskRun.call_live {db db' : Database} {provider provider' : Provider} {c : TaskCall}
    (hcall : run.call db provider now c = some (db', provider', stage)) (next : Stage)
    (hnext : stage = some next) (hlive : next.isLive = true) : run.stage.isLive = true := by
  cases TaskRun.call_cases hcall with
  | fetch stage hclaimed => rw [hclaimed]; rfl
  | send c hready => rw [hready]; rfl
  | accepted c id provider' stage hcalling => rw [hcalling]; rfl
  | rejected => cases hnext; cases hlive
  | commit => cases hnext; cases hlive
  | heartbeat => cases hnext; exact hlive
  | complete => cases hnext
  | fail => cases hnext

end Live

end Rpy.Trackings

/-
  Rpy.Worker.Fencing
  ──────────────────
  **WHO MAY WRITE A JOB ROW: CLAIM EPISODES OF A FLEET OF WORKERS.**

  A fleet is the `jobs` table and the `_run_job` coroutines that are under
  way, any number of slots of any number of `Worker` processes; the slots
  of one process share its `worker_id`.  A claim episode is one `_run_job`:
  it begins when `process_one` gets a row and ends when `_run_job` returns.
  It is reclaimed once `RECLAIM_SQL` has returned its job.

    • `Episode.call`             — what `_run_job` does at each of its calls,
    • `Fleet.step`               — the interleaving of all of them,
    • `Fenced`                   — no call of a reclaimed episode changes a
                                   row or reconciles a lifecycle,
    • `fenced_along_iff_guarded` — a run is fenced exactly when no worker
                                   claims a job that one of its own slots
                                   still runs from a reclaimed episode.

  The `WHERE` clause of the three statements knows the worker but not the
  slot, nor the attempt; that is why the condition is about workers.
-/
import Rpy.Foundation.Machine
import Rpy.Queue.Jobs

namespace Rpy.Worker

open Rpy.Foundation Rpy.Queue

/-! ## §1. Episodes. -/

/-- Where `_run_job` stands. -/
inductive Phase where
  /-- before `create_task(self._heartbeat_loop(job_id))` -/
  | claimed
  /-- the handler runs; is `_heartbeat_loop` still beating? -/
  | running (beating : Bool)
deriving Repr, DecidableEq

/-- One `_run_job` under way. -/
structure Episode where
  worker : Uuid
  slot : Nat
  /-- the row `claim` returned -/
  row : Job
  phase : Phase := .claimed
  /-- has the job been reclaimed since? -/
  reclaimed : Bool := false
deriving Repr, DecidableEq

/-- The lifecycle reconciliations of `public_lifecycle_worker`. -/
inductive Reconciliation where
  /-- `mark_job_started` -/
  | started (job : Uuid)
  /-- `reconcile_generation_result` -/
  | generation (job : Uuid)
  /-- `mark_job_dead` -/
  | dead (job : Uuid) (errorCode : String)
deriving Repr, DecidableEq

/-- The calls `_run_job` makes on the queue. -/
inductive Call where
  /-- the ownership check before a generation starts, then the handler -/
  | start
  | heartbeat
  | complete (result : Json)
  | fail (failure : Failure)
deriving Repr, DecidableEq

/-- What a call leaves: the table, the reconciliations it made, and where
`_run_job` stands (`none`: it has returned). -/
structure Outcome where
  jobs : JobTable
  reconciliations : List Reconciliation
  phase : Option Phase
deriving DecidableEq

/-- `task_name == "generate_process_summary"`. -/
def Episode.generates (e : Episode) : Bool :=
  e.row.taskName == "generate_process_summary"

/-- One call of `_run_job`, as one transaction; `none` where the coroutine
cannot make that call. -/
def Episode.call (e : Episode) (t : JobTable) (now : Timestamp) : Call → Option Outcome
  | .start =>
      match e.phase with
      | .running _ => none
      | .claimed =>
          if e.generates then
            match heartbeat t e.row.id e.worker now with
            | (true, t') => some ⟨t', [.started e.row.id], some (.running true)⟩
            | (false, t') => some ⟨t', [], none⟩
          else
            some ⟨t, [], some (.running true)⟩
  | .heartbeat =>
      match e.phase with
      | .running true =>
          let (alive, t') := heartbeat t e.row.id e.worker now
          some ⟨t', [], some (.running alive)⟩
      | _ => none
  | .complete result =>
      match e.phase with
      | .claimed => none
      | .running _ =>
          match complete t e.row.id e.worker result now with
          | (true, t') => some ⟨t', if e.generates then [.generation e.row.id] else [], none⟩
          | (false, t') => some ⟨t', [], none⟩
  | .fail failure =>
      -- a broken job contract fails before the handler runs
      let (status, t') := fail t e.row.id e.worker failure now
      some ⟨t', if status = some .dead then [.dead e.row.id "job_failed"] else [], none⟩

/-! ## §2. The fleet. -/

/-- The table, the coroutines under way and the reconciliations made. -/
structure Fleet where
  jobs : JobTable
  episodes : List Episode
  reconciliations : List Reconciliation
deriving DecidableEq

/-- A fleet that starts on a table. -/
def Fleet.init (jobs : JobTable) : Fleet := ⟨jobs, [], []⟩

/-- What can happen in a fleet. -/
inductive Event where
  | enqueue (new : NewJob) (id : Uuid) (now : Timestamp)
  | claim (worker : Uuid) (slot : Nat) (now : Timestamp) (locked : List Uuid) (pick : Uuid)
  | call (worker : Uuid) (slot : Nat) (now : Timestamp) (c : Call)
  | reclaim (timeoutSeconds : Int) (now : Timestamp) (locked : List Uuid)
  /-- the slot's process dies, or the slot is cancelled -/
  | abandon (worker : Uuid) (slot : Nat)
deriving Repr, DecidableEq

/-- Is this the `_run_job` of the slot? -/
def Episode.isAt (worker : Uuid) (slot : Nat) (e : Episode) : Bool :=
  e.worker == worker && e.slot == slot

/-- The episode after its job's id was among the reclaimed ones. -/
def Episode.markReclaimed (ids : List Uuid) (e : Episode) : Episode :=
  { e with reclaimed := e.reclaimed || ids.contains e.row.id }

/-- One step of the fleet. -/
def Fleet.step (s : Fleet) : Event → Option Fleet
  | .enqueue new id now =>
      match enqueue s.jobs new id now with
      | .error _ => none
      | .ok (_, t) => some { s with jobs := t }
  | .claim worker slot now locked pick =>
      -- a slot awaits its `_run_job` before it claims again
      if s.episodes.any (Episode.isAt worker slot) then none
      else
        match claim s.jobs worker now locked pick with
        | none => none
        | some (row, t) =>
            some { s with
              jobs := t
              episodes := s.episodes ++ [{ worker := worker, slot := slot, row := row }] }
  | .call worker slot now c =>
      match s.episodes.find? (Episode.isAt worker slot) with
      | none => none
      | some e =>
          match e.call s.jobs now c with
          | none => none
          | some o =>
              some {
                jobs := o.jobs
                reconciliations := s.reconciliations ++ o.reconciliations
                episodes := s.episodes.filterMap fun d =>
                  if d.isAt worker slot then o.phase.map fun p => { d with phase := p }
                  else some d }
  | .reclaim timeoutSeconds now locked =>
      match reclaimStale s.jobs timeoutSeconds now locked with
      | .error _ => none
      | .ok (rows, t) =>
          some {
            jobs := t
            episodes := s.episodes.map (Episode.markReclaimed (rows.map Job.id))
            -- the reclaimer's own `mark_job_dead`
            reconciliations := s.reconciliations ++
              (rows.filter fun j => j.status == .dead).map fun j =>
                .dead j.id "job_reclaim_exhausted" }
  | .abandon worker slot =>
      some { s with episodes := s.episodes.filter fun d => !d.isAt worker slot }

/-! ## §3. The fence. -/

/-- No call that a reclaimed episode can make changes a job row or
reconciles a lifecycle. -/
def Fenced (s : Fleet) : Prop :=
  ∀ e ∈ s.episodes, e.reclaimed = true → ∀ now c o,
    e.call s.jobs now c = some o → o.jobs = s.jobs ∧ o.reconciliations = []

/-- The claim does not give a job to a worker one of whose slots still runs
a reclaimed episode of it. -/
def NotBackToItsWorker (s : Fleet) : Event → Prop
  | .claim worker _ _ _ pick =>
      ∀ e ∈ s.episodes, e.reclaimed = true → ¬ (e.worker = worker ∧ e.row.id = pick)
  | _ => True

/-- The invariant behind the fence: the job of a reclaimed episode is not
processing under the episode's worker. -/
def Disowned (s : Fleet) : Prop :=
  ∀ e ∈ s.episodes, e.reclaimed = true → Unowned e.row.id e.worker s.jobs

/-- A disowned episode's calls all miss. -/
theorem Episode.call_unowned {e : Episode} {t : JobTable} {now : Timestamp} {c : Call}
    {o : Outcome} (h : Unowned e.row.id e.worker t) (ho : e.call t now c = some o) :
    o.jobs = t ∧ o.reconciliations = [] := by
  cases c with
  | start =>
      simp only [Episode.call, heartbeat_unowned h] at ho
      split at ho
      · cases ho
      · split at ho <;> cases ho <;> exact ⟨rfl, rfl⟩
  | heartbeat =>
      simp only [Episode.call, heartbeat_unowned h] at ho
      split at ho
      · cases ho; exact ⟨rfl, rfl⟩
      · cases ho
  | complete result =>
      simp only [Episode.call, complete_unowned h] at ho
      split at ho
      · cases ho
      · cases ho; exact ⟨rfl, rfl⟩
  | fail failure =>
      simp only [Episode.call, fail_unowned h] at ho
      cases ho
      exact ⟨rfl, rfl⟩

theorem Disowned.fenced {s : Fleet} (h : Disowned s) : Fenced s :=
  fun _ he hr _ _ _ ho => Episode.call_unowned (h _ he hr) ho

/-! ### What each call leaves to others. -/

/-- No call of an episode gives a job to a worker that did not have it. -/
theorem Episode.call_keeps_unowned {e : Episode} {t : JobTable} {now : Timestamp} {c : Call}
    {o : Outcome} {id worker : Uuid} (h : Unowned id worker t)
    (ho : e.call t now c = some o) : Unowned id worker o.jobs := by
  have hbeat : Unowned id worker (heartbeat t e.row.id e.worker now).2 :=
    h.update rfl fun j _ hj => by rwa [ownedBy_beaten] at hj
  have hdone : ∀ result, Unowned id worker (complete t e.row.id e.worker result now).2 :=
    fun result => h.update rfl fun j _ hj => by rw [ownedBy_finished] at hj; cases hj
  have hfail : ∀ f, Unowned id worker (fail t e.row.id e.worker f now).2 :=
    fun f => h.update rfl fun j _ hj => by rw [ownedBy_failed] at hj; cases hj
  cases c with
  | start =>
      simp only [Episode.call] at ho
      split at ho
      · cases ho
      · split at ho
        · split at ho
          · rename_i heq; cases ho; rw [heq] at hbeat; exact hbeat
          · rename_i heq; cases ho; rw [heq] at hbeat; exact hbeat
        · cases ho; exact h
  | heartbeat =>
      simp only [Episode.call] at ho
      split at ho
      · cases ho; exact hbeat
      · cases ho
  | complete result =>
      have hdone := hdone result
      simp only [Episode.call] at ho
      split at ho
      · cases ho
      · split at ho
        · rename_i heq; cases ho; rw [heq] at hdone; exact hdone
        · rename_i heq; cases ho; rw [heq] at hdone; exact hdone
  | fail failure =>
      simp only [Episode.call] at ho
      cases ho
      exact hfail failure

/-- A claim gives the job to the claiming worker only. -/
theorem claim_keeps_unowned {t t' : JobTable} {worker worker' pick id : Uuid}
    {now : Timestamp} {locked : List Uuid} {row : Job} (h : Unowned id worker' t)
    (hne : ¬ (worker' = worker ∧ id = pick))
    (hc : claim t worker now locked pick = some (row, t')) : Unowned id worker' t' := by
  obtain ⟨-, -, -, -, -, hrows⟩ := claim_eq_some hc
  intro j hj
  rw [hrows] at hj
  rcases mem_updateWhere.1 hj with ⟨j₀, -, hp, rfl⟩ | ⟨hj', -⟩
  · by_contra hown
    obtain ⟨hid, hw, -⟩ := ownedBy_iff.1 (eq_true_of_ne_false hown)
    have hw' : worker = worker' := Option.some.inj hw
    have hid' : j₀.id = id := hid
    exact hne ⟨hw'.symm, hid'.symm.trans (by simpa using hp)⟩
  · exact h j hj'

/-- After a reclaim, a job it returned belongs to nobody. -/
theorem reclaimStale_unowned {t t' : JobTable} {timeoutSeconds : Int} {now : Timestamp}
    {locked : List Uuid} {rows : List Job} {id worker : Uuid}
    (h : reclaimStale t timeoutSeconds now locked = .ok (rows, t'))
    (hid : id ∈ rows.map Job.id ∨ Unowned id worker t) : Unowned id worker t' := by
  obtain ⟨rfl, hrows⟩ := reclaimStale_eq_ok h
  intro j hj
  rw [hrows] at hj
  rcases mem_updateWhere.1 hj with ⟨j₀, -, -, rfl⟩ | ⟨hj', hkept⟩
  · exact ownedBy_reclaimed
  · rcases hid with hid | hun
    · obtain ⟨r, hr, rfl⟩ := List.mem_map.1 hid
      obtain ⟨r₀, hr₀, hstale, rfl⟩ := mem_returning.1 hr
      by_contra hown
      obtain ⟨hsame, -, -⟩ := ownedBy_iff.1 (eq_true_of_ne_false hown)
      -- the primary key makes the kept row the reclaimed one
      obtain rfl : j = r₀ := JobTable.eq_of_id hj' hr₀ hsame
      simp [hkept] at hstale
    · exact hun j hj'

/-! ### Steps. -/

/-- **An allowed step keeps every reclaimed episode disowned.** -/
theorem Disowned.step {s s' : Fleet} {ev : Event} (h : Disowned s)
    (hok : NotBackToItsWorker s ev) (hs : s.step ev = some s') : Disowned s' := by
  cases ev with
  | enqueue new id now =>
      simp only [Fleet.step] at hs
      split at hs
      · cases hs
      · rename_i row t hen
        cases hs
        intro e he hr j hj
        rw [show t = (s.jobs.insertNew new id now).2 by rw [enqueue_eq_ok hen]] at hj
        rcases JobTable.mem_insertNew hj with hj | rfl
        · exact h e he hr j hj
        -- A new row has no worker.
        · exact ownedBy_row
  | claim worker slot now locked pick =>
      simp only [Fleet.step] at hs
      split at hs
      · cases hs
      · split at hs
        · cases hs
        · rename_i row t hclaim
          cases hs
          intro e he hr
          rcases List.mem_append.1 he with he | he
          · exact claim_keeps_unowned (h e he hr) (hok e he hr) hclaim
          · -- the new episode is not reclaimed
            obtain rfl := List.mem_singleton.1 he
            cases hr
  | call worker slot now c =>
      simp only [Fleet.step] at hs
      split at hs
      · cases hs
      · split at hs
        · cases hs
        · rename_i o ho
          cases hs
          intro e he hr
          obtain ⟨d, hd, hde⟩ := List.mem_filterMap.1 he
          -- The slot's own episode moves on and keeps its row, worker and mark.
          have hsame : e.row = d.row ∧ e.worker = d.worker ∧ e.reclaimed = d.reclaimed := by
            split at hde
            · obtain ⟨p, -, rfl⟩ := Option.map_eq_some_iff.1 hde
              exact ⟨rfl, rfl, rfl⟩
            · cases hde; exact ⟨rfl, rfl, rfl⟩
          obtain ⟨hrow, hworker, hrecl⟩ := hsame
          rw [hrow, hworker]
          exact Episode.call_keeps_unowned (h d hd (hrecl ▸ hr)) ho
  | reclaim timeoutSeconds now locked =>
      simp only [Fleet.step] at hs
      split at hs
      · cases hs
      · rename_i rows t hrecl
        cases hs
        intro e he hr
        obtain ⟨d, hd, rfl⟩ := List.mem_map.1 he
        -- What is reclaimed is pending again, and what was reclaimed before stays unowned.
        refine reclaimStale_unowned hrecl ?_
        have hr' : d.reclaimed = true ∨ d.row.id ∈ rows.map Job.id := by
          simpa [Episode.markReclaimed] using hr
        exact hr'.elim (fun hr' => .inr (h d hd hr')) .inl
  | abandon worker slot =>
      simp only [Fleet.step] at hs
      cases hs
      intro e he hr
      exact h e (List.mem_filter.1 he).1 hr

/-- A failure takes the job from its worker. -/
theorem fail_disowns {t : JobTable} {id worker : Uuid} {f : Failure} {now : Timestamp} :
    Unowned id worker (fail t id worker f now).2 := by
  intro j hj
  rcases mem_updateWhere.1 hj with ⟨j₀, -, -, rfl⟩ | ⟨-, hkept⟩
  · exact ownedBy_failed
  · exact hkept

/-- **A job back with its worker breaks the fence**: the reclaimed episode
can fail the other slot's job. -/
theorem not_fenced_of_back_to_worker {s s' : Fleet} {ev : Event}
    (hbad : ¬ NotBackToItsWorker s ev) (hs : s.step ev = some s') : ¬ Fenced s' := by
  cases ev with
  | claim worker slot now locked pick =>
      simp only [NotBackToItsWorker, not_forall, not_not] at hbad
      obtain ⟨e, he, hr, rfl, rfl⟩ := hbad
      simp only [Fleet.step] at hs
      split at hs
      · cases hs
      · split at hs
        · cases hs
        · rename_i row t hclaim
          cases hs
          intro hfenced
          obtain ⟨j, hj, hid, -, -, hrows⟩ := claim_eq_some hclaim
          -- the row just claimed is processing under the episode's worker
          have hmem : j.claimed e.worker now ∈ t.rows := by
            have hsucc := updateWhere_mem_of_mem
              (p := fun k => k.id == e.row.id) (f := Job.claimed e.worker now) hj
            rw [hrows]
            simpa [hid] using hsucc
          have hown : ownedBy e.row.id e.worker (j.claimed e.worker now) = true :=
            ownedBy_iff.2 ⟨hid, rfl, rfl⟩
          let failure : Failure := { attempts := 1, error := "", clock := 0, stamp := "" }
          obtain ⟨hjobs, -⟩ := hfenced e (List.mem_append_left _ he) hr now (.fail failure) _ rfl
          have hun : Unowned e.row.id e.worker t := by
            rw [← show (fail t e.row.id e.worker failure now).2 = t from hjobs]
            exact fail_disowns
          simp [hun _ hmem] at hown
  | _ => exact absurd trivial hbad

/-- **A run is fenced exactly when it never gives a job back to a worker
that still runs a reclaimed episode of it.** -/
theorem fenced_along_iff_guarded (jobs : JobTable) (events : List Event) :
    Along Fleet.step Fenced (Fleet.init jobs) events ↔
      Guarded Fleet.step NotBackToItsWorker (Fleet.init jobs) events :=
  along_iff_guarded Disowned (fun _ he => absurd he List.not_mem_nil)
    (fun _ _ _ h hok hs => h.step hok hs) (fun _ h => h.fenced)
    (fun _ _ _ _ hbad hs => not_fenced_of_back_to_worker hbad hs) events

/-! ## §4. Two slots of one worker. -/

/-- A generation job is claimed by slot 0 of worker 7, reclaimed after 46 s
without a heartbeat, and claimed again by slot 1 of the same worker. -/
def sharedWorkerRun : List Event :=
  [.enqueue { taskName := "generate_process_summary", payload := .obj [] } 1 0,
   .claim 7 0 0 [] 1,
   .call 7 0 0 .start,
   .reclaim 45 46000000 [],
   .claim 7 1 46000000 [] 1]

/-- The fleet after `sharedWorkerRun`. -/
def sharedWorkerFleet : Fleet :=
  (run Fleet.step (Fleet.init .empty) sharedWorkerRun).get (by decide)

/-- In it the reclaimed slot 0 completes the job that slot 1 runs, and
reconciles its generation. -/
theorem sharedWorkerFleet_complete :
    ∃ e ∈ sharedWorkerFleet.episodes, e.slot = 0 ∧ e.reclaimed = true ∧
      ∃ o ∈ e.call sharedWorkerFleet.jobs 47000000 (.complete (.obj [])),
        o.jobs ≠ sharedWorkerFleet.jobs ∧ o.reconciliations = [.generation 1] := by
  decide

/-- Not every interleaving is fenced. -/
theorem not_fenced_sharedWorkerRun :
    ¬ ∀ (jobs : JobTable) (events : List Event),
      Along Fleet.step Fenced (Fleet.init jobs) events := by
  intro h
  have hfenced : Fenced sharedWorkerFleet :=
    (h .empty sharedWorkerRun).last (Option.some_get _).symm
  obtain ⟨e, he, -, hr, o, ho, hne, -⟩ := sharedWorkerFleet_complete
  exact hne (hfenced e he hr _ _ o ho).1

end Rpy.Worker

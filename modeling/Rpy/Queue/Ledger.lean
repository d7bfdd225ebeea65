/-
  Rpy.Queue.Ledger
  ────────────────
  **WHAT HOLDS OF EVERY JOB ROW IN EVERY RUN OF THE QUEUE.**

  The `jobs` table under any sequence of its six operations, with the list
  of the claims made so far as a ghost.  An operation that raises, or a
  claim that finds no row, leaves the table as it is and is no step.

    • `Ledger.step`      — one operation,
    • `Job.Sound`        — the bounds and columns of one row,
    • `Ledger.Balanced`  — every row is sound, and nobody claimed a job
                           that is not there,
    • `Ledger.Balanced.step` — every operation keeps it,
    • `Ledger.step_keeps_ended` — a completed or dead row is never written.
-/
import Rpy.Foundation.Machine
import Rpy.Queue.Evolution

namespace Rpy.Queue

open Rpy.Foundation

/-! ## §1. The machine. -/

/-- The table, and the ids of the claimed rows, one for each claim. -/
structure Ledger where
  jobs : JobTable := .empty
  claims : List Uuid := []
deriving DecidableEq

/-- The operations of `app/queue.py`. -/
inductive QueueOp where
  | enqueue (new : NewJob) (id : Uuid) (now : Timestamp)
  | work (op : WorkerOp)
deriving Repr, DecidableEq

/-- One operation; `none` where it raises or claims nothing. -/
def Ledger.step (s : Ledger) : QueueOp → Option Ledger
  | .enqueue new id now =>
      match Queue.enqueue s.jobs new id now with
      | .error _ => none
      | .ok (_, jobs) => some { s with jobs := jobs }
  | .work op =>
      (op.apply s.jobs).map fun jobs =>
        { jobs := jobs, claims := s.claims ++ op.picks.toList }

/-! ## §2. Rows. -/

/-- `completed` and `dead`. -/
def JobStatus.ended : JobStatus → Bool
  | .completed | .dead => true
  | _ => false

/-- What holds of a row, when the jobs of `claims` have been claimed. -/
structure Job.Sound (claims : List Uuid) (j : Job) : Prop where
  attempts_le : (j.attempts : Int) ≤ j.maxAttempts
  attempts_eq : j.attempts = claims.count j.id
  pending : j.status = .pending →
    (j.attempts : Int) < j.maxAttempts ∧ j.workerId = none ∧ j.lastHeartbeat = none
  processing : j.status = .processing →
    j.workerId.isSome = true ∧ j.lastHeartbeat.isSome = true
  log_length : ∀ log ∈ j.errorLog, log.length ≤ maxJobErrorLogChars

/-- `RIGHT(text, n)` has at most `n` characters. -/
theorem length_right_le (text : String) (n : Nat) : (right text n).length ≤ n := by
  unfold right
  rw [String.length_ofList, List.length_drop]
  omega

section Assignments

variable {claims : List Uuid} {j : Job} {now : Timestamp}

/-- **A new row is sound**, under an id that nobody has claimed. -/
theorem sound_row {new : NewJob} {id : Uuid} (hbound : minJobAttempts ≤ new.maxAttempts)
    (hid : id ∉ claims) : (new.row id now).Sound claims where
  attempts_le := by
    show (0 : Int) ≤ new.maxAttempts
    unfold minJobAttempts at hbound
    omega
  attempts_eq := (List.count_eq_zero.2 hid).symm
  pending := by
    intro _
    refine ⟨?_, rfl, rfl⟩
    show (0 : Int) < new.maxAttempts
    unfold minJobAttempts at hbound
    omega
  processing := fun h => nomatch h
  log_length := fun _ h => nomatch h

/-- A claim counts itself: a pending row has an attempt left. -/
theorem Job.Sound.claimed {worker : Uuid} (h : j.Sound claims) (hpending : j.status = .pending) :
    (j.claimed worker now).Sound (claims ++ [j.id]) where
  attempts_le := by
    have hlt := (h.pending hpending).1
    show ((j.attempts + 1 : Nat) : Int) ≤ j.maxAttempts
    omega
  attempts_eq := by
    show j.attempts + 1 = (claims ++ [j.id]).count j.id
    rw [List.count_append, List.count_singleton_self, h.attempts_eq]
  pending := fun h => nomatch h
  processing := fun _ => ⟨rfl, rfl⟩
  log_length := h.log_length

/-- A claim of another job does not count here. -/
theorem Job.Sound.claim_of_ne {id : Uuid} (h : j.Sound claims) (hne : id ≠ j.id) :
    j.Sound (claims ++ [id]) :=
  { h with
    attempts_eq := by
      have hzero : [id].count j.id = 0 := List.count_eq_zero.2 (by simpa using hne.symm)
      rw [List.count_append, hzero]
      exact h.attempts_eq }

theorem Job.Sound.beaten (h : j.Sound claims) (hprocessing : j.status = .processing) :
    (j.beaten now).Sound claims :=
  { h with
    pending := by
      intro hpending
      have hstatus : j.status = .pending := hpending
      rw [hprocessing] at hstatus
      cases hstatus
    processing := fun _ => ⟨(h.processing hprocessing).1, rfl⟩ }

theorem Job.Sound.finished {result : Json} (h : j.Sound claims) :
    (j.finished result now).Sound claims :=
  { h with
    pending := fun h => nomatch h
    processing := fun h => nomatch h }

/-- A row that goes back to pending has an attempt left, and its log is cut. -/
theorem Job.Sound.failed {f : Failure} (h : j.Sound claims) :
    (f.assignment now j).Sound claims where
  attempts_le := h.attempts_le
  attempts_eq := h.attempts_eq
  pending := by
    intro hpending
    refine ⟨?_, rfl, rfl⟩
    show (j.attempts : Int) < j.maxAttempts
    by_cases hexhausted : (f.permanent || decide ((j.attempts : Int) ≥ j.maxAttempts)) = true
    · simp [Failure.assignment, Job.failed, hexhausted] at hpending
    · simp only [Bool.or_eq_true, decide_eq_true_eq, not_or] at hexhausted
      omega
  processing := by
    intro hprocessing
    simp only [Failure.assignment, Job.failed] at hprocessing
    split at hprocessing <;> cases hprocessing
  log_length := by
    intro log hlog
    obtain rfl := Option.some.inj hlog
    exact length_right_le _ _

theorem Job.Sound.reclaimed (h : j.Sound claims) : (j.reclaimed now).Sound claims where
  attempts_le := h.attempts_le
  attempts_eq := h.attempts_eq
  pending := by
    intro hpending
    refine ⟨?_, rfl, rfl⟩
    show (j.attempts : Int) < j.maxAttempts
    by_cases hexhausted : (j.attempts : Int) ≥ j.maxAttempts
    · simp [Job.reclaimed, hexhausted] at hpending
    · omega
  processing := by
    intro hprocessing
    simp only [Job.reclaimed] at hprocessing
    split at hprocessing <;> cases hprocessing
  log_length := by
    intro log hlog
    obtain rfl := Option.some.inj hlog
    exact length_right_le _ _

end Assignments

/-! ## §3. Steps. -/

/-- Every row is sound, and every claim was of a row. -/
structure Ledger.Balanced (s : Ledger) : Prop where
  rows : ∀ j ∈ s.jobs.rows, j.Sound s.claims
  claims : ∀ id ∈ s.claims, id ∈ s.jobs.rows.map Job.id

theorem balanced_init : ({} : Ledger).Balanced :=
  ⟨fun _ hj => absurd hj List.not_mem_nil, fun _ hid => absurd hid List.not_mem_nil⟩

/-- The rows of an `UPDATE` are sound, if it makes the selected ones so. -/
theorem sound_updateWhere {claims : List Uuid} {p : Job → Bool} {f : Job → Job}
    {rows : List Job} (hrows : ∀ j ∈ rows, j.Sound claims)
    (hf : ∀ j ∈ rows, p j = true → (f j).Sound claims) :
    ∀ j ∈ updateWhere p f rows, j.Sound claims := by
  intro j hj
  rcases mem_updateWhere.1 hj with ⟨j₀, hj₀, hp, rfl⟩ | ⟨hj', -⟩
  · exact hf j₀ hj₀ hp
  · exact hrows j hj'

/-- What the four statements besides `CLAIM_JOB_SQL` do to the rows. -/
theorem WorkerOp.apply_sound {t t' : JobTable} {op : WorkerOp} {claims : List Uuid}
    (h : op.apply t = some t') (hpicks : op.picks = none)
    (hrows : ∀ j ∈ t.rows, j.Sound claims) : ∀ j ∈ t'.rows, j.Sound claims := by
  cases op with
  | claim => cases hpicks
  | heartbeat id worker now =>
      cases h
      exact sound_updateWhere hrows fun j hj hp => (hrows j hj).beaten (ownedBy_iff.1 hp).2.2
  | complete id worker result now =>
      cases h
      exact sound_updateWhere hrows fun j hj _ => (hrows j hj).finished
  | fail id worker failure now =>
      cases h
      exact sound_updateWhere hrows fun j hj _ => (hrows j hj).failed
  | reclaim timeoutSeconds now locked =>
      simp only [WorkerOp.apply] at h
      split at h
      · cases h
      · rename_i rows t'' hreclaim
        cases h
        obtain ⟨-, hupdate⟩ := reclaimStale_eq_ok hreclaim
        rw [hupdate]
        exact sound_updateWhere hrows fun j hj _ => (hrows j hj).reclaimed

/-- The rows after a claim: the one that was picked counts it. -/
theorem claim_sound {t t' : JobTable} {worker pick : Uuid} {now : Timestamp}
    {locked : List Uuid} {row : Job} {claims : List Uuid}
    (h : claim t worker now locked pick = some (row, t'))
    (hrows : ∀ j ∈ t.rows, j.Sound claims) : ∀ j ∈ t'.rows, j.Sound (claims ++ [pick]) := by
  obtain ⟨j₀, hj₀, rfl, hclaimable, -, hupdate⟩ := claim_eq_some h
  intro j hj
  rw [hupdate] at hj
  rcases mem_updateWhere.1 hj with ⟨k, hk, hp, rfl⟩ | ⟨hk, hp⟩
  · -- the primary key makes the updated row the one that was picked
    obtain rfl : k = j₀ := JobTable.eq_of_id hk hj₀ (by simpa using hp)
    have hpending : k.status = .pending := by
      simp only [claimable, Bool.and_eq_true, beq_iff_eq] at hclaimable
      exact hclaimable.1
    exact (hrows k hk).claimed hpending
  · have hne : j₀.id ≠ j.id := by
      intro heq
      simp [heq] at hp
    exact (hrows j hk).claim_of_ne hne

/-- No statement of the workers adds a row or takes one away. -/
theorem WorkerOp.apply_ids {t t' : JobTable} {op : WorkerOp} (h : op.apply t = some t') :
    t'.rows.map Job.id = t.rows.map Job.id := by
  obtain ⟨p, f, hrows, hstep⟩ := WorkerOp.apply_rows h
  rw [hrows]
  unfold updateWhere
  rw [List.map_map]
  refine List.map_congr_left fun j hj => ?_
  exact (hstep j hj).sameJob.id

/-- A claim that happens is of a row. -/
theorem WorkerOp.picks_mem {t t' : JobTable} {op : WorkerOp} {id : Uuid}
    (h : op.apply t = some t') (hid : id ∈ op.picks) : id ∈ t.rows.map Job.id := by
  cases op with
  | claim worker now locked pick =>
      obtain ⟨⟨row, t''⟩, hclaim, -⟩ := Option.map_eq_some_iff.1 h
      obtain ⟨j, hj, hpick, -⟩ := claim_eq_some hclaim
      obtain rfl : pick = id := Option.some.inj hid
      exact hpick ▸ List.mem_map_of_mem hj
  | _ => cases hid

/-- **Every operation keeps the books.** -/
theorem Ledger.Balanced.step {s s' : Ledger} {op : QueueOp} (h : s.Balanced)
    (hs : s.step op = some s') : s'.Balanced := by
  cases op with
  | enqueue new id now =>
      simp only [Ledger.step] at hs
      split at hs
      · cases hs
      · rename_i row jobs henqueue
        cases hs
        have hbound : minJobAttempts ≤ new.maxAttempts := by
          unfold enqueue validateMaxAttempts at henqueue
          split at henqueue
          · rename_i hbounds
            exact hbounds.1
          · cases henqueue
        have hjobs : jobs = (s.jobs.insertNew new id now).2 := by rw [enqueue_eq_ok henqueue]
        refine ⟨fun j hj => ?_, fun claimed hclaimed => ?_⟩
        · rw [show ({ s with jobs := jobs } : Ledger).jobs = jobs from rfl, hjobs] at hj
          unfold JobTable.insertNew at hj
          split at hj
          · exact h.rows j hj
          · split at hj
            · exact h.rows j hj
            · rename_i hid
              rcases List.mem_append.1 hj with hj | hj
              · exact h.rows j hj
              · obtain rfl := List.mem_singleton.1 hj
                exact sound_row hbound fun hmem => hid (h.claims id hmem)
        · obtain ⟨j, hj, rfl⟩ := List.mem_map.1 (h.claims claimed hclaimed)
          show j.id ∈ jobs.rows.map Job.id
          rw [hjobs]
          exact List.mem_map_of_mem (JobTable.mem_insertNew_of_mem hj)
  | work op =>
      obtain ⟨jobs, happly, rfl⟩ := Option.map_eq_some_iff.1 hs
      refine ⟨?_, fun id hid => ?_⟩
      · cases op with
        | claim worker now locked pick =>
            obtain ⟨⟨row, t⟩, hclaim, rfl⟩ := Option.map_eq_some_iff.1 happly
            exact claim_sound hclaim h.rows
        | _ =>
            -- no other statement claims
            show ∀ j ∈ jobs.rows, j.Sound (s.claims ++ [])
            rw [List.append_nil]
            exact WorkerOp.apply_sound happly rfl h.rows
      · show id ∈ jobs.rows.map Job.id
        rw [WorkerOp.apply_ids happly]
        rcases List.mem_append.1 hid with hid | hid
        · exact h.claims id hid
        · exact WorkerOp.picks_mem happly (Option.mem_toList.1 hid)

/-- **A completed or dead row is never written again.** -/
theorem Ledger.step_keeps_ended {s s' : Ledger} {op : QueueOp} (hs : s.step op = some s')
    {j : Job} (hj : j ∈ s.jobs.rows) (hended : j.status.ended = true) : j ∈ s'.jobs.rows := by
  cases op with
  | enqueue new id now =>
      simp only [Ledger.step] at hs
      split at hs
      · cases hs
      · rename_i row jobs henqueue
        cases hs
        show j ∈ jobs.rows
        rw [show jobs = (s.jobs.insertNew new id now).2 by rw [enqueue_eq_ok henqueue]]
        exact JobTable.mem_insertNew_of_mem hj
  | work op =>
      obtain ⟨jobs, happly, rfl⟩ := Option.map_eq_some_iff.1 hs
      obtain ⟨j', hj', hstep⟩ := WorkerOp.successor happly hj
      cases hstep with
      | same => exact hj'
      | claimed _ _ _ hpending =>
          rw [hpending] at hended
          cases hended
      | written _ _ hprocessing =>
          rw [hprocessing] at hended
          cases hended

/-! ## §4. Runs. -/

/-- Whatever was reached, a completed or dead row is still there. -/
theorem mem_of_ended {s s' : Ledger} (hs : Reachable Ledger.step s s') {j : Job}
    (hj : j ∈ s.jobs.rows) (hended : j.status.ended = true) : j ∈ s'.jobs.rows := by
  induction hs with
  | start => exact hj
  | next _ _ hstep ih => exact Ledger.step_keeps_ended hstep ih hended

/-- **The run invariants of the queue**: in every state any sequence of
operations reaches, each row is sound, a key is on one row, and the rows
that are completed or dead stay as they are. -/
theorem balanced_of_reachable (s : Ledger) (hs : Reachable Ledger.step {} s) :
    (∀ j ∈ s.jobs.rows,
      (j.attempts : Int) ≤ j.maxAttempts ∧ j.attempts = s.claims.count j.id ∧
      (j.status = .pending →
        (j.attempts : Int) < j.maxAttempts ∧ j.workerId = none ∧ j.lastHeartbeat = none) ∧
      (j.status = .processing → j.workerId.isSome = true ∧ j.lastHeartbeat.isSome = true) ∧
      (∀ log ∈ j.errorLog, log.length ≤ 16000)) ∧
    (∀ a ∈ s.jobs.rows, ∀ b ∈ s.jobs.rows, ∀ key,
      a.idempotencyKey = some key → b.idempotencyKey = some key → a = b) ∧
    (∀ j ∈ s.jobs.rows, j.status = .completed ∨ j.status = .dead →
      ∀ s', Reachable Ledger.step s s' → j ∈ s'.jobs.rows) := by
  have hbalanced : s.Balanced :=
    hs.invariant balanced_init fun _ _ _ h _ hstep => h.step hstep
  refine ⟨fun j hj => ?_, fun a ha b hb key hka hkb => ?_, fun j hj hstatus s' hs' => ?_⟩
  · have hsound := hbalanced.rows j hj
    exact ⟨hsound.attempts_le, hsound.attempts_eq, hsound.pending, hsound.processing,
      hsound.log_length⟩
  · exact eq_of_nodup_filterMap s.jobs.keys_nodup ha hb hka hkb
  · refine mem_of_ended hs' hj ?_
    rcases hstatus with hstatus | hstatus <;> rw [hstatus] <;> rfl

/-- A job is claimed, fails once, is claimed again and dies by the reclaimer. -/
def exhaustedRun : List QueueOp :=
  [.enqueue { taskName := "finalize_judit_request", payload := .obj [], maxAttempts := 2 } 1 0,
   .work (.claim 7 0 [] 1),
   .work (.fail 1 7 { attempts := 1, error := "RuntimeError", clock := 0, stamp := "" } 1),
   .work (.claim 8 2000000 [] 1),
   .work (.reclaim 45 60000000 [])]

/-- The ledger after it. -/
def exhaustedLedger : Ledger :=
  (run Ledger.step {} exhaustedRun).get (by decide)

/-- Its two attempts are the two claims. -/
theorem balanced_exhaustedLedger :
    exhaustedLedger.jobs.rows.map Job.attempts =
      exhaustedLedger.jobs.rows.map fun j => exhaustedLedger.claims.count j.id :=
  List.map_congr_left fun j hj => ((balanced_of_reachable exhaustedLedger
    (reachable_of_run (Option.some_get _).symm)).1 j hj).2.1

end Rpy.Queue

/-
  Rpy.Queue.Tickets
  ─────────────────
  **JOBS WITH ONE ATTEMPT ARE CLAIMED ONCE.**

  A job with `max_attempts = 1` is a ticket: it is there to be claimed until
  it is claimed, and nothing gives it back.  The jobs are told apart by any
  condition on what no statement writes.

    • `unclaimed`         — how many tickets there are,
    • `SingleAttempt`     — a task whose jobs are tickets,
    • `JobsKeep`          — what a heartbeat, a completion, a failure and a
                            reclaim do: no ticket more or less,
    • `unclaimed_claim`   — a claim takes one,
    • `unclaimed_insertNew` — an insertion adds at most one.
-/
import Rpy.Queue.Evolution

namespace Rpy.Queue

open Rpy.Foundation

/-- `q` is about what no statement writes. -/
def Fixed (q : Job → Prop) : Prop :=
  ∀ j j', j.SameJob j' → (q j' ↔ q j)

/-- The jobs that meet `q` and that nobody has claimed. -/
def unclaimed (q : Job → Prop) [DecidablePred q] (t : JobTable) : Nat :=
  t.rows.countP fun j => decide (q j) && j.attempts == 0

/-- A job of the task has one attempt, and is pending exactly before it. -/
def SingleAttempt (task : String) (t : JobTable) : Prop :=
  ∀ j ∈ t.rows, j.taskName = task → j.maxAttempts = 1 ∧ (j.status = .pending ↔ j.attempts = 0)

/-- What every statement but a claim and an insertion does. -/
structure JobsKeep (t t' : JobTable) : Prop where
  unclaimed : ∀ (q : Job → Prop) [DecidablePred q], Fixed q →
    Queue.unclaimed q t' = Queue.unclaimed q t
  single : ∀ task, SingleAttempt task t → SingleAttempt task t'
  origin : ∀ j' ∈ t'.rows, ∃ j ∈ t.rows, j.SameJob j'

section Tickets

variable {t t' : JobTable} {q : Job → Prop} [DecidablePred q] {task : String} {now : Timestamp}

theorem JobsKeep.refl (t : JobTable) : JobsKeep t t :=
  ⟨fun _ _ _ => rfl, fun _ h => h, fun j hj => ⟨j, hj, .refl j⟩⟩

/-! ## §1. Updates. -/

/-- An `UPDATE` of processing jobs that gives one back only if it has an
attempt left. -/
theorem JobsKeep.update {p : Job → Bool} {f : Job → Job}
    (hrows : t'.rows = updateWhere p f t.rows)
    (hp : ∀ j, p j = true → j.status = .processing)
    (hf : ∀ j, j.SameJob (f j) ∧ (f j).attempts = j.attempts)
    (hpending : ∀ j, (f j).status = .pending →
      j.status = .pending ∨ (j.attempts : Int) < j.maxAttempts) : JobsKeep t t' where
  unclaimed := by
    intro q _ hq
    unfold Queue.unclaimed
    rw [hrows]
    refine countP_updateWhere_eq fun j _ _ => ?_
    simp only [hq j (f j) (hf j).1, (hf j).2]
  single := by
    intro task h j' hj' htask
    rw [hrows] at hj'
    rcases mem_updateWhere.1 hj' with ⟨j, hj, hsel, rfl⟩ | ⟨hj, -⟩
    · obtain ⟨hmax, hnew⟩ := h j hj ((hf j).1.taskName ▸ htask)
      have hclaimed : j.attempts ≠ 0 := fun hzero => by
        have hstatus := hnew.2 hzero
        rw [hp j hsel] at hstatus
        cases hstatus
      refine ⟨(hf j).1.maxAttempts.trans hmax, fun hstatus => ?_, fun hzero => ?_⟩
      · -- the one attempt is used up, so nothing gives the job back
        rcases hpending j hstatus with hold | hleft
        · rw [(hf j).2]
          exact hnew.1 hold
        · omega
      · rw [(hf j).2] at hzero
        exact absurd hzero hclaimed
    · exact h j' hj htask
  origin := by
    intro j' hj'
    rw [hrows] at hj'
    rcases mem_updateWhere.1 hj' with ⟨j, hj, -, rfl⟩ | ⟨hj, -⟩
    · exact ⟨j, hj, (hf j).1⟩
    · exact ⟨j', hj, .refl j'⟩

theorem processing_of_ownedBy {id worker : Uuid} (j : Job) (h : ownedBy id worker j = true) :
    j.status = .processing :=
  (ownedBy_iff.1 h).2.2

theorem JobsKeep.heartbeat {id worker : Uuid} : JobsKeep t (heartbeat t id worker now).2 :=
  .update rfl processing_of_ownedBy (fun _ => ⟨⟨rfl, rfl, rfl, rfl, rfl⟩, rfl⟩) fun _ h => .inl h

theorem JobsKeep.complete {id worker : Uuid} {result : Json} :
    JobsKeep t (complete t id worker result now).2 :=
  .update rfl processing_of_ownedBy (fun _ => ⟨⟨rfl, rfl, rfl, rfl, rfl⟩, rfl⟩) fun _ h => nomatch h

theorem JobsKeep.fail {id worker : Uuid} {failure : Failure} :
    JobsKeep t (fail t id worker failure now).2 := by
  refine .update rfl processing_of_ownedBy (fun _ => ⟨⟨rfl, rfl, rfl, rfl, rfl⟩, rfl⟩)
    fun j hstatus => ?_
  have hstatus' : (if (failure.permanent || decide ((j.attempts : Int) ≥ j.maxAttempts)) = true
      then JobStatus.dead else JobStatus.pending) = .pending := hstatus
  split at hstatus'
  · cases hstatus'
  · rename_i hleft
    simp only [Bool.or_eq_true, decide_eq_true_eq, not_or, ge_iff_le] at hleft
    exact .inr (Int.not_le.1 hleft.2)

theorem JobsKeep.reclaim {timeoutSeconds : Int} {locked : List Uuid} {rows : List Job}
    (h : reclaimStale t timeoutSeconds now locked = .ok (rows, t')) : JobsKeep t t' := by
  refine .update (reclaimStale_eq_ok h).2 (fun j hstale => ?_)
    (fun _ => ⟨⟨rfl, rfl, rfl, rfl, rfl⟩, rfl⟩) fun j hstatus => ?_
  · simp only [stale, Bool.and_eq_true, beq_iff_eq] at hstale
    exact hstale.1.1
  · have hstatus' : (if (j.attempts : Int) ≥ j.maxAttempts then JobStatus.dead
        else JobStatus.pending) = .pending := hstatus
    split at hstatus'
    · cases hstatus'
    · rename_i hleft
      exact .inr (Int.not_le.1 hleft)

/-! ## §2. Insertions. -/

/-- The rows after an insertion. -/
theorem insertNew_rows (t : JobTable) (new : NewJob) (jobId : Uuid) (now : Timestamp) :
    (t.insertNew new jobId now).2.rows = t.rows ∨
      (t.insertNew new jobId now).2.rows = t.rows ++ [new.row jobId now] := by
  unfold JobTable.insertNew
  split
  · exact .inl rfl
  · split
    · exact .inl rfl
    · exact .inr rfl

/-- **An insertion adds at most one ticket**, and none for another job. -/
theorem unclaimed_insertNew {new : NewJob} {jobId : Uuid} :
    unclaimed q (t.insertNew new jobId now).2 ≤
      unclaimed q t + if q (new.row jobId now) then 1 else 0 := by
  unfold unclaimed
  rcases insertNew_rows t new jobId now with hrows | hrows
  · rw [hrows]
    exact Nat.le_add_right _ _
  · rw [hrows, List.countP_append]
    by_cases hq : q (new.row jobId now)
    · rw [if_pos hq]
      exact Nat.add_le_add_left List.countP_le_length _
    · simp [hq]

theorem unclaimed_insertNew_eq {new : NewJob} {jobId : Uuid} (hq : ¬ q (new.row jobId now)) :
    unclaimed q (t.insertNew new jobId now).2 = unclaimed q t := by
  unfold unclaimed
  rcases insertNew_rows t new jobId now with hrows | hrows
  · rw [hrows]
  · rw [hrows, List.countP_append]
    simp [hq]

theorem SingleAttempt.insertNew {new : NewJob} {jobId : Uuid} (h : SingleAttempt task t)
    (hnew : new.taskName = task → new.maxAttempts = 1) :
    SingleAttempt task (t.insertNew new jobId now).2 := by
  intro j hj htask
  rcases JobTable.mem_insertNew hj with hold | rfl
  · exact h j hold htask
  · exact ⟨hnew htask, fun _ => rfl, fun _ => rfl⟩

/-! ## §3. Claims. -/

/-- **A claim takes the ticket of the job it returns.** -/
theorem unclaimed_claim {worker pick : Uuid} {locked : List Uuid} {row : Job}
    (h : claim t worker now locked pick = some (row, t')) (hsingle : SingleAttempt task t)
    (hq : Fixed q) (htask : ∀ j, q j → j.taskName = task) :
    unclaimed q t' + (if q row then 1 else 0) ≤ unclaimed q t := by
  obtain ⟨j, hj, hid, hclaimable, rfl, hrows⟩ := claim_eq_some h
  have hpending : j.status = .pending := by
    simp only [claimable, Bool.and_eq_true, beq_iff_eq] at hclaimable
    exact hclaimable.1
  have hmono : ∀ k ∈ t.rows, (k.id == pick) = true →
      (decide (q (k.claimed worker now)) && (k.claimed worker now).attempts == 0) = true →
      (decide (q k) && k.attempts == 0) = true := by
    intro k _ _ hk
    have hzero : (k.attempts + 1 == 0) = false := by simp
    simp [Job.claimed, hzero] at hk
  unfold unclaimed
  rw [hrows]
  by_cases hrow : q (j.claimed worker now)
  · have hold : q j := (hq j (j.claimed worker now) ⟨rfl, rfl, rfl, rfl, rfl⟩).1 hrow
    have hzero := (hsingle j hj (htask j hold)).2.1 hpending
    rw [if_pos hrow]
    refine countP_updateWhere_lt hmono hj (by simpa using hid) (by simp [hold, hzero]) ?_
    simp [Job.claimed]
  · rw [if_neg hrow]
    exact countP_updateWhere_le hmono

theorem SingleAttempt.claim {worker pick : Uuid} {locked : List Uuid} {row : Job}
    (h : claim t worker now locked pick = some (row, t')) (hsingle : SingleAttempt task t) :
    SingleAttempt task t' := by
  obtain ⟨j, hj, hid, hclaimable, rfl, hrows⟩ := claim_eq_some h
  intro k' hk' htask
  rw [hrows] at hk'
  rcases mem_updateWhere.1 hk' with ⟨k, hk, -, rfl⟩ | ⟨hk, -⟩
  · refine ⟨(hsingle k hk htask).1, fun hpending => (nomatch hpending), fun hzero => ?_⟩
    exact absurd hzero (Nat.succ_ne_zero _)
  · exact hsingle k' hk htask

end Tickets

end Rpy.Queue

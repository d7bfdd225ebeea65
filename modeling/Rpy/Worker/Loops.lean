/-
  Rpy.Worker.Loops
  ────────────────
  **THE COROUTINES OF ONE `Worker.run`, AWAIT BY AWAIT.**

  Every await of `_slot_loop`, `process_one`, `_run_job`, `_heartbeat_loop`
  and `_reclaimer_loop` is a point where the coroutine stands; an event
  gives the outcome of one await, a value or an `Exception`.  Coroutines
  interleave freely.

    • `Slot.step`, `HeartbeatTask.step`, `Reclaimer.step` — one coroutine,
    • `Process.step`            — their interleaving, with `stop()`,
    • `LoopsAlive`             — before `stop()` no loop has terminated,
    • `Caught`                 — the outcome does not leave the loop,
    • `loopsAlive_along_iff`   — the loops live exactly as long as every
                                 outcome is caught.

  `_run_job` catches what its handler raises, but not what its own `except`
  branch raises, nor what the awaited heartbeat task raises in `finally`;
  `process_one` and `_reclaimer_loop` catch nothing.
-/
import Rpy.Foundation.Machine

namespace Rpy.Worker.Loops

open Rpy.Foundation

/-- The outcome of an await: an `Exception`, by its type name, or a value. -/
inductive Outcome (α : Type) where
  | error (exception : String)
  | ok (value : α)
deriving Repr, DecidableEq

/-- The await does not raise. -/
def Outcome.isOk {α : Type} : Outcome α → Bool
  | .error _ => false
  | .ok _ => true

/-! ## §1. The heartbeat task. -/

/-- The task of `_heartbeat_loop`. -/
inductive HeartbeatTask where
  | sleeping
  /-- awaits `heartbeat` on an acquired connection -/
  | beating
  | returned
  | raised
deriving Repr, DecidableEq

/-- What the heartbeat task can do by itself. -/
inductive HeartbeatEvent where
  | wake
  | beat (alive : Outcome Bool)
deriving Repr, DecidableEq

/-- `_heartbeat_loop`. -/
def HeartbeatTask.step : HeartbeatTask → HeartbeatEvent → Option HeartbeatTask
  | .sleeping, .wake => some .beating
  | .beating, .beat (.ok true) => some .sleeping
  | .beating, .beat (.ok false) => some .returned
  | .beating, .beat (.error _) => some .raised
  | _, _ => none

/-- `heartbeat_task.cancel()` and the `await` of it under
`suppress(CancelledError)`: does the await raise?  A task cancelled while a
statement is in flight ends with what its clean-up ends with. -/
def HeartbeatTask.awaitCancelled (cleanup : Outcome Unit) : HeartbeatTask → Outcome Unit
  | .sleeping => .ok ()
  | .beating => cleanup
  | .returned => .ok ()
  | .raised => .error "heartbeat"

/-! ## §2. A slot. -/

/-- The row `claim` returned, as `_run_job` reads it: does
`_resolve_job_contract` accept it, and is it a generation? -/
structure Row where
  contract : Outcome Unit
  generates : Bool
deriving DecidableEq

/-- Where a slot stands. -/
inductive SlotAt where
  /-- the loop condition of `_slot_loop` -/
  | loop
  | claiming
  /-- the ownership heartbeat before a generation -/
  | checkingOwnership
  | markingStarted
  | handling (generates : Bool)
  | completing (generates : Bool)
  | reconciling
  /-- `fail` in the `except` branch -/
  | failing
  | markingDead
  /-- the `finally` block; is an exception on its way out? -/
  | unwinding (pending : Bool)
  /-- waits for `stop_event` or the poll interval -/
  | polling
  /-- `_slot_loop` has ended -/
  | terminated
deriving Repr, DecidableEq

/-- A slot: where it stands, and the heartbeat task of its `_run_job`. -/
structure Slot where
  pc : SlotAt := .loop
  heartbeatTask : Option HeartbeatTask := none
deriving Repr, DecidableEq

/-- The outcomes a slot can get. -/
inductive SlotEvent where
  | iterate
  | claimed (row : Outcome (Option Row))
  | ownershipChecked (owns : Outcome Bool)
  | startedMarked (result : Outcome Unit)
  | handled (result : Outcome Unit)
  | completed (owned : Outcome Bool)
  | reconciled (result : Outcome Unit)
  /-- the new status: is it `dead`? -/
  | failed (dead : Outcome Bool)
  | deadMarked (result : Outcome Unit)
  /-- the `finally` block; `cleanup` ends a heartbeat cancelled in flight -/
  | unwound (cleanup : Outcome Unit)
  | polled
  | heartbeat (ev : HeartbeatEvent)
  /-- `item.cancel()` after the shutdown grace -/
  | cancelled
deriving DecidableEq

/-- `create_task(self._heartbeat_loop(job_id))`, then the handler. -/
def Slot.startHandler (generates : Bool) : Slot :=
  ⟨.handling generates, some .sleeping⟩

/-- `_run_job` on a claimed row, up to its first await. -/
def Slot.runJob (row : Row) : Slot :=
  match row.contract with
  | .error _ => ⟨.failing, none⟩
  | .ok () => if row.generates then ⟨.checkingOwnership, none⟩ else Slot.startHandler false

/-- What leaves the `finally` block: the exception on its way out, or one
that the heartbeat task raises when it is awaited. -/
def Slot.escapes (pending : Bool) (cleanup : Outcome Unit) (task : Option HeartbeatTask) : Bool :=
  pending ||
    match task with
    | none => false
    | some task => !(task.awaitCancelled cleanup).isOk

/-- One step of a slot, given `stop_event.is_set()`. -/
def Slot.step (stopped : Bool) (s : Slot) : SlotEvent → Option Slot
  | .iterate =>
      match s.pc with
      | .loop => some { s with pc := if stopped then .terminated else .claiming }
      | _ => none
  | .claimed row =>
      match s.pc, row with
      -- nothing between here and the task's end catches it
      | .claiming, .error _ => some { s with pc := .terminated }
      | .claiming, .ok none => some { s with pc := .polling }
      | .claiming, .ok (some row) => some (Slot.runJob row)
      | _, _ => none
  | .ownershipChecked owns =>
      match s.pc, owns with
      | .checkingOwnership, .error _ => some { s with pc := .failing }
      | .checkingOwnership, .ok false => some { s with pc := .unwinding false }
      | .checkingOwnership, .ok true => some { s with pc := .markingStarted }
      | _, _ => none
  | .startedMarked result =>
      match s.pc, result with
      | .markingStarted, .error _ => some { s with pc := .failing }
      | .markingStarted, .ok () => some (Slot.startHandler true)
      | _, _ => none
  | .handled result =>
      match s.pc, result with
      | .handling _, .error _ => some { s with pc := .failing }
      | .handling generates, .ok () => some { s with pc := .completing generates }
      | _, _ => none
  | .completed owned =>
      match s.pc, owned with
      | .completing _, .error _ => some { s with pc := .failing }
      | .completing _, .ok false => some { s with pc := .unwinding false }
      | .completing generates, .ok true =>
          some { s with pc := if generates then .reconciling else .unwinding false }
      | _, _ => none
  | .reconciled result =>
      match s.pc, result with
      | .reconciling, .error _ => some { s with pc := .failing }
      | .reconciling, .ok () => some { s with pc := .unwinding false }
      | _, _ => none
  | .failed dead =>
      match s.pc, dead with
      | .failing, .error _ => some { s with pc := .unwinding true }
      | .failing, .ok true => some { s with pc := .markingDead }
      | .failing, .ok false => some { s with pc := .unwinding false }
      | _, _ => none
  | .deadMarked result =>
      match s.pc, result with
      | .markingDead, .error _ => some { s with pc := .unwinding true }
      | .markingDead, .ok () => some { s with pc := .unwinding false }
      | _, _ => none
  | .unwound cleanup =>
      match s.pc with
      | .unwinding pending =>
          some ⟨if Slot.escapes pending cleanup s.heartbeatTask then .terminated else .loop, none⟩
      | _ => none
  | .polled =>
      match s.pc with
      | .polling => some { s with pc := .loop }
      | _ => none
  | .heartbeat ev =>
      match s.heartbeatTask with
      | none => none
      | some task => (task.step ev).map fun task => { s with heartbeatTask := some task }
  | .cancelled => if stopped then some { s with pc := .terminated } else none

/-! ## §3. The reclaimer and the worker. -/

/-- Where `_reclaimer_loop` stands. -/
inductive Reclaimer where
  /-- its loop condition -/
  | loop
  | reclaiming
  /-- `mark_job_dead` for each of the dead rows that are left -/
  | markingDead (left : Nat)
  | waiting
  | terminated
deriving Repr, DecidableEq

/-- The outcomes the reclaimer can get. -/
inductive ReclaimerEvent where
  | iterate
  /-- how many of the reclaimed rows are dead -/
  | reclaimed (dead : Outcome Nat)
  | deadMarked (result : Outcome Unit)
  | waited
  | cancelled
deriving DecidableEq

/-- The reclaim transaction with `left` dead rows to mark. -/
def Reclaimer.afterRows : Nat → Reclaimer
  | 0 => .waiting
  | left + 1 => .markingDead left

/-- One step of the reclaimer. -/
def Reclaimer.step (stopped : Bool) : Reclaimer → ReclaimerEvent → Option Reclaimer
  | .loop, .iterate => some (if stopped then .terminated else .reclaiming)
  | .reclaiming, .reclaimed (.error _) => some .terminated
  | .reclaiming, .reclaimed (.ok dead) => some (Reclaimer.afterRows dead)
  | .markingDead _, .deadMarked (.error _) => some .terminated
  | .markingDead left, .deadMarked (.ok ()) => some (Reclaimer.afterRows left)
  | .waiting, .waited => some .loop
  | _, .cancelled => if stopped then some .terminated else none
  | _, _ => none

/-- `Worker.run`: the stop event, its slots and its reclaimer. -/
structure Process where
  stopped : Bool := false
  slots : List Slot
  reclaimer : Reclaimer := .loop
deriving Repr, DecidableEq

/-- `Worker.run` just after it has created its tasks. -/
def Process.init (concurrency : Nat) : Process :=
  { slots := List.replicate concurrency {} }

/-- What can happen in a worker. -/
inductive Event where
  | stop
  | slot (i : Nat) (ev : SlotEvent)
  | reclaimer (ev : ReclaimerEvent)
deriving DecidableEq

/-- One step of the worker. -/
def Process.step (w : Process) : Event → Option Process
  | .stop => some { w with stopped := true }
  | .slot i ev =>
      match w.slots[i]? with
      | none => none
      | some s => (s.step w.stopped ev).map fun s => { w with slots := w.slots.set i s }
  | .reclaimer ev =>
      (w.reclaimer.step w.stopped ev).map fun r => { w with reclaimer := r }

/-! ## §4. The loops live as long as every outcome is caught. -/

/-- Before `stop()`, neither a slot loop nor the reclaimer loop has
terminated. -/
def LoopsAlive (w : Process) : Prop :=
  w.stopped = false →
    (∀ s ∈ w.slots, s.pc ≠ .terminated) ∧ w.reclaimer ≠ .terminated

/-- The outcome does not leave a slot's loop: `claim` does not raise, and at
the end of `_run_job` neither its failure path nor its heartbeat task has. -/
def Slot.Caught (s : Slot) : SlotEvent → Prop
  | .claimed row => row.isOk
  | .unwound cleanup =>
      ∀ pending, s.pc = .unwinding pending →
        Slot.escapes pending cleanup s.heartbeatTask = false
  | _ => True

/-- The outcome does not leave the reclaimer's loop: neither `reclaim_stale`
nor a `mark_job_dead` raises. -/
def ReclaimerEvent.Caught : ReclaimerEvent → Prop
  | .reclaimed dead => dead.isOk
  | .deadMarked result => result.isOk
  | _ => True

/-- Before `stop()`, the outcome does not leave its loop. -/
def Caught (w : Process) (ev : Event) : Prop :=
  w.stopped = false →
    match ev with
    | .stop => True
    | .slot i ev => ∀ s, w.slots[i]? = some s → s.Caught ev
    | .reclaimer ev => ev.Caught

theorem Slot.runJob_pc (row : Row) : (Slot.runJob row).pc ≠ .terminated := by
  unfold Slot.runJob Slot.startHandler
  split
  · simp
  · split <;> simp

/-- **A slot that has not terminated stays so exactly under a caught
outcome.** -/
theorem Slot.step_terminated_iff {s s' : Slot} {ev : SlotEvent}
    (hs : s.step false ev = some s') (hpc : s.pc ≠ .terminated) :
    s'.pc ≠ .terminated ↔ s.Caught ev := by
  obtain ⟨pc, task⟩ := s
  -- Event by event, at each place of the loop where it can happen: an outcome is caught there
  -- or it escapes.
  cases ev with
  | claimed row =>
      cases pc <;> rcases row with _ | _ | row <;>
        simp only [Slot.step, reduceCtorEq, Option.some.injEq] at hs <;> subst hs <;>
        simp [Slot.Caught, Outcome.isOk, Slot.runJob_pc]
  | unwound cleanup =>
      cases pc <;> simp only [Slot.step, reduceCtorEq, Option.some.injEq] at hs
      subst hs
      simp [Slot.Caught]
  | iterate =>
      cases pc <;> simp [Slot.step] at hs
      subst hs
      simp [Slot.Caught]
  | ownershipChecked owns =>
      cases pc <;> rcases owns with _ | _ | _ <;> simp [Slot.step] at hs <;> subst hs <;>
        simp [Slot.Caught]
  | startedMarked result =>
      cases pc <;> rcases result with _ | _ <;> simp [Slot.step, Slot.startHandler] at hs <;>
        subst hs <;> simp [Slot.Caught]
  | handled result =>
      cases pc <;> rcases result with _ | _ <;> simp [Slot.step] at hs <;> subst hs <;>
        simp [Slot.Caught]
  | completed owned =>
      cases pc <;> rcases owned with _ | _ | _ <;> simp [Slot.step] at hs <;> subst hs <;>
        simp [Slot.Caught]
      split <;> simp
  | reconciled result =>
      cases pc <;> rcases result with _ | _ <;> simp [Slot.step] at hs <;> subst hs <;>
        simp [Slot.Caught]
  | failed dead =>
      cases pc <;> rcases dead with _ | _ | _ <;> simp [Slot.step] at hs <;> subst hs <;>
        simp [Slot.Caught]
  | deadMarked result =>
      cases pc <;> rcases result with _ | _ <;> simp [Slot.step] at hs <;> subst hs <;>
        simp [Slot.Caught]
  | polled =>
      cases pc <;> simp [Slot.step] at hs
      subst hs
      simp [Slot.Caught]
  | heartbeat ev =>
      cases task with
      | none => cases hs
      | some task =>
          obtain ⟨task', -, rfl⟩ := Option.map_eq_some_iff.1 hs
          simpa [Slot.Caught] using hpc
  | cancelled => cases hs

/-- **The reclaimer that has not terminated stays so exactly under a caught
outcome.** -/
theorem Reclaimer.step_terminated_iff {r r' : Reclaimer} {ev : ReclaimerEvent}
    (hs : r.step false ev = some r') (hr : r ≠ .terminated) :
    r' ≠ .terminated ↔ ev.Caught := by
  have hrows : ∀ n, Reclaimer.afterRows n ≠ .terminated := fun n => by
    cases n <;> simp [Reclaimer.afterRows]
  cases ev with
  | iterate =>
      cases r <;> simp [Reclaimer.step] at hs
      subst hs
      simp [ReclaimerEvent.Caught]
  | reclaimed dead =>
      cases r <;> rcases dead with _ | dead <;> simp [Reclaimer.step] at hs <;> subst hs <;>
        simp [ReclaimerEvent.Caught, Outcome.isOk, hrows]
  | deadMarked result =>
      cases r <;> rcases result with _ | _ <;> simp [Reclaimer.step] at hs <;> subst hs <;>
        simp [ReclaimerEvent.Caught, Outcome.isOk, hrows]
  | waited =>
      cases r <;> simp [Reclaimer.step] at hs
      subst hs
      simp [ReclaimerEvent.Caught]
  | cancelled => cases r <;> simp [Reclaimer.step] at hs

/-- A slot of the worker after it has set slot `i`. -/
theorem forall_mem_set {slots : List Slot} {i : Nat} {s' : Slot} {P : Slot → Prop}
    (h : ∀ d ∈ slots, P d) (hP : P s') : ∀ d ∈ slots.set i s', P d := by
  intro d hd
  rcases List.mem_or_eq_of_mem_set hd with hd | rfl
  · exact h d hd
  · exact hP

/-- **A caught outcome keeps the loops alive, any other kills one.** -/
theorem LoopsAlive.step_iff {w w' : Process} {ev : Event} (h : LoopsAlive w)
    (hs : w.step ev = some w') : LoopsAlive w' ↔ Caught w ev := by
  cases hstop : w.stopped with
  | true =>
      -- after `stop()` there is nothing to keep
      have hstop' : w'.stopped = true := by
        cases ev with
        | stop => cases hs; rfl
        | slot i ev =>
            simp only [Process.step] at hs
            split at hs
            · cases hs
            · obtain ⟨_, -, rfl⟩ := Option.map_eq_some_iff.1 hs
              exact hstop
        | reclaimer ev =>
            obtain ⟨_, -, rfl⟩ := Option.map_eq_some_iff.1 hs
            exact hstop
      simp [LoopsAlive, Caught, hstop, hstop']
  | false =>
      obtain ⟨hslots, hrecl⟩ := h hstop
      cases ev with
      | stop => cases hs; simp [LoopsAlive, Caught]
      | slot i ev =>
          simp only [Process.step] at hs
          split at hs
          · cases hs
          · rename_i s hi
            obtain ⟨s', hs', rfl⟩ := Option.map_eq_some_iff.1 hs
            rw [hstop] at hs'
            have hiff := Slot.step_terminated_iff hs' (hslots s (List.mem_of_getElem? hi))
            simp only [LoopsAlive, Caught, hstop, hi, forall_const, Option.some.injEq,
              forall_eq']
            rw [← hiff]
            constructor
            · intro hall
              exact hall.1 s' (List.mem_set (List.getElem?_eq_some_iff.1 hi).1 s')
            · intro hpc
              exact ⟨forall_mem_set hslots hpc, hrecl⟩
      | reclaimer ev =>
          obtain ⟨r, hr, rfl⟩ := Option.map_eq_some_iff.1 hs
          rw [hstop] at hr
          have hiff := Reclaimer.step_terminated_iff hr hrecl
          simp only [LoopsAlive, Caught, hstop, forall_const]
          rw [← hiff]
          exact ⟨fun hall => hall.2, fun hr => ⟨hslots, hr⟩⟩

theorem loopsAlive_init (concurrency : Nat) : LoopsAlive (Process.init concurrency) := by
  intro _
  refine ⟨fun s hs => ?_, by simp [Process.init]⟩
  obtain rfl := List.eq_of_mem_replicate hs
  simp

/-- **The loops of `Worker.run` live exactly as long as every outcome is
caught.** -/
theorem loopsAlive_along_iff (concurrency : Nat) (events : List Event) :
    Along Process.step LoopsAlive (Process.init concurrency) events ↔
      Guarded Process.step Caught (Process.init concurrency) events :=
  along_iff_guarded LoopsAlive (loopsAlive_init concurrency)
    (fun _ _ _ h hok hs => (h.step_iff hs).2 hok) (fun _ h => h)
    (fun _ _ _ h hbad hs h' => hbad ((h.step_iff hs).1 h')) events

/-- The first claim of a one-slot worker raises: the slot is gone. -/
theorem not_loopsAlive_of_claim_raises :
    ¬ ∀ (concurrency : Nat) (events : List Event),
      Along Process.step LoopsAlive (Process.init concurrency) events := by
  intro h
  have halive := (h 1 [.slot 0 .iterate,
    .slot 0 (.claimed (.error "ConnectionDoesNotExistError"))]).last rfl
  exact (halive rfl).1 _ (List.mem_singleton_self _) rfl

end Rpy.Worker.Loops

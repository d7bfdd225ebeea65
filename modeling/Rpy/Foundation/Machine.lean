/-
  Rpy.Foundation.Machine
  ──────────────────────
  **LABELLED MACHINES, GUARDED RUNS AND THEIR INVARIANT RULES.**

  A machine is a partial step function `step : σ → ε → Option σ`: `none`
  says the event `ε` cannot happen in the state.  The file names nothing
  of any particular program.

    • `run`            — replay a list of events,
    • `Reach step ok`  — the states reached by steps that all meet `ok`,
    • `Along`          — a predicate at every state of a run,
    • `Guarded`        — a step condition at every step of a run.

  The rules:

    • `Reach.invariant`   — what every allowed step keeps, every reached
                            state has,
    • `reach_of_guarded`  — a guarded run reaches its last state,
    • `reachable_of_run`  — a replayed list of events is a reachability
                            witness (closed instances go by `decide`),
    • `along_of_guarded`  — an invariant of the allowed steps that gives
                            the property gives it along a guarded run,
    • `along_iff_guarded` — when the invariant gives the property and a
                            forbidden step breaks it, the property holds
                            along a run exactly when the run is guarded,
    • `guarded_or_broken` — when a forbidden step breaks what nothing
                            mends, a run is guarded or broken at its end.
-/
import Mathlib.Logic.Basic
import Mathlib.Tactic.ByContra
import Mathlib.Tactic.TypeStar

namespace Rpy.Foundation

/-! ## §1. Runs and reachability. -/

section Runs

variable {σ ε : Type*} (step : σ → ε → Option σ)

/-- Replay a list of events; `none` as soon as one of them cannot happen. -/
def run : σ → List ε → Option σ
  | s, [] => some s
  | s, e :: es => (step s e).bind fun s' => run s' es

/-- The states reached from `s₀` by steps that all meet `ok`. -/
inductive Reach (ok : σ → ε → Prop) (s₀ : σ) : σ → Prop where
  | start : Reach ok s₀ s₀
  | next {s s' : σ} {e : ε} :
      Reach ok s₀ s → ok s e → step s e = some s' → Reach ok s₀ s'

/-- The states reached from `s₀` by any steps at all. -/
abbrev Reachable (s₀ : σ) : σ → Prop := Reach step (fun _ _ => True) s₀

/-- `P` holds in the first state of the run and after each of its steps. -/
def Along (P : σ → Prop) : σ → List ε → Prop
  | s, [] => P s
  | s, e :: es => P s ∧ ∀ s', step s e = some s' → Along P s' es

/-- Every step of the run that can happen meets `ok` where it happens. -/
def Guarded (ok : σ → ε → Prop) : σ → List ε → Prop
  | _, [] => True
  | s, e :: es => ∀ s', step s e = some s' → ok s e ∧ Guarded ok s' es

/-- The run of a closed list of events is guarded or not by computation. -/
instance decidableGuarded (ok : σ → ε → Prop) [∀ s e, Decidable (ok s e)] :
    ∀ (s : σ) (es : List ε), Decidable (Guarded step ok s es)
  | _, [] => isTrue trivial
  | s, e :: es =>
      match h : step s e with
      | none => isTrue fun s' hs' => by rw [h] at hs'; cases hs'
      | some s' =>
          have := decidableGuarded ok s' es
          decidable_of_iff (ok s e ∧ Guarded step ok s' es)
            ⟨fun hg s'' hs'' => by
              rw [h] at hs''
              cases hs''
              exact hg, fun hg => hg s' h⟩

end Runs

/-! ## §2. The invariant rules. -/

section Rules

variable {σ ε : Type*} {step : σ → ε → Option σ} {ok : σ → ε → Prop} {s₀ : σ}

/-- **What every allowed step keeps, every reached state has.** -/
theorem Reach.invariant {Inv : σ → Prop} (h₀ : Inv s₀)
    (hstep : ∀ s e s', Inv s → ok s e → step s e = some s' → Inv s') :
    ∀ {s : σ}, Reach step ok s₀ s → Inv s := by
  intro s hs
  induction hs with
  | start => exact h₀
  | next _ hok he ih => exact hstep _ _ _ ih hok he

/-- A weaker step condition reaches at least as much. -/
theorem Reach.mono {ok' : σ → ε → Prop} (h : ∀ s e, ok s e → ok' s e) {s : σ}
    (hs : Reach step ok s₀ s) : Reach step ok' s₀ s := by
  induction hs with
  | start => exact .start
  | next _ hok he ih => exact .next ih (h _ _ hok) he

/-- Reaching composes. -/
theorem Reach.trans {s t : σ} (hs : Reach step ok s₀ s) (ht : Reach step ok s t) :
    Reach step ok s₀ t := by
  induction ht with
  | start => exact hs
  | next _ hok he ih => exact .next ih hok he

/-- A guarded run reaches its last state by allowed steps. -/
theorem reach_of_guarded {es : List ε} {s : σ} (hg : Guarded step ok s₀ es)
    (h : run step s₀ es = some s) : Reach step ok s₀ s := by
  induction es generalizing s₀ with
  | nil =>
      obtain rfl : s₀ = s := by simpa [run] using h
      exact .start
  | cons e es ih =>
      simp only [run, Option.bind_eq_some_iff] at h
      obtain ⟨s₁, hs₁, hrest⟩ := h
      obtain ⟨hok, hg⟩ := hg s₁ hs₁
      exact Reach.trans (.next .start hok hs₁) (ih hg hrest)

theorem guarded_true (step : σ → ε → Option σ) (s : σ) (es : List ε) :
    Guarded step (fun _ _ => True) s es := by
  induction es generalizing s with
  | nil => trivial
  | cons e es ih => exact fun s' _ => ⟨trivial, ih s'⟩

/-- A guarded run goes on as one that is guarded from where it ended. -/
theorem guarded_append {es es' : List ε} {s : σ} (h : Guarded step ok s₀ es)
    (hrun : run step s₀ es = some s) (hrest : Guarded step ok s es') :
    Guarded step ok s₀ (es ++ es') := by
  induction es generalizing s₀ with
  | nil =>
      obtain rfl : s₀ = s := Option.some.inj hrun
      exact hrest
  | cons e es ih =>
      intro s' hs'
      obtain ⟨hok, hg⟩ := h s' hs'
      rw [run, hs'] at hrun
      exact ⟨hok, ih hg hrun⟩

/-- A replayed list of events reaches its last state. -/
theorem reachable_of_run {es : List ε} {s : σ} (h : run step s₀ es = some s) :
    Reachable step s₀ s :=
  reach_of_guarded (guarded_true step s₀ es) h

/-- A property that holds along a run holds in its last state. -/
theorem Along.last {P : σ → Prop} {es : List ε} {s : σ} (h : Along step P s₀ es)
    (hrun : run step s₀ es = some s) : P s := by
  induction es generalizing s₀ with
  | nil =>
      obtain rfl : s₀ = s := by simpa [run] using hrun
      exact h
  | cons e es ih =>
      simp only [run, Option.bind_eq_some_iff] at hrun
      obtain ⟨s₁, hs₁, hrest⟩ := hrun
      exact ih (h.2 s₁ hs₁) hrest

/-- **The property holds along every guarded run.** -/
theorem along_of_guarded (Inv : σ → Prop) {P : σ → Prop} (h₀ : Inv s₀)
    (hstep : ∀ s e s', Inv s → ok s e → step s e = some s' → Inv s')
    (hP : ∀ s, Inv s → P s) {es : List ε} (hg : Guarded step ok s₀ es) :
    Along step P s₀ es := by
  induction es generalizing s₀ with
  | nil => exact hP _ h₀
  | cons e es ih =>
      refine ⟨hP _ h₀, fun s' he => ?_⟩
      obtain ⟨hok, hrest⟩ := hg s' he
      exact ih (hstep _ _ _ h₀ hok he) hrest

/-- **The property holds along a run exactly when the run is guarded.**
`hbad` is what makes the guard exact: a forbidden step breaks the property
in the state it leads to. -/
theorem along_iff_guarded (Inv : σ → Prop) {P : σ → Prop} (h₀ : Inv s₀)
    (hstep : ∀ s e s', Inv s → ok s e → step s e = some s' → Inv s')
    (hP : ∀ s, Inv s → P s)
    (hbad : ∀ s e s', Inv s → ¬ ok s e → step s e = some s' → ¬ P s')
    (es : List ε) : Along step P s₀ es ↔ Guarded step ok s₀ es := by
  refine ⟨fun halong => ?_, along_of_guarded Inv h₀ hstep hP⟩
  induction es generalizing s₀ with
  | nil => trivial
  | cons e es ih =>
      intro s' he
      have hrest := halong.2 s' he
      have hok : ok s₀ e := by
        by_contra hno
        have hP' : P s' := by
          cases es with
          | nil => exact hrest
          | cons => exact hrest.1
        exact hbad _ _ _ h₀ hno he hP'
      exact ⟨hok, ih (hstep _ _ _ h₀ hok he) hrest⟩

/-- What a broken run has, it keeps. -/
theorem run_keeps {Inv Bad : σ → Prop} (hstep : ∀ s e s', Inv s → step s e = some s' → Inv s')
    (hpersist : ∀ s e s', Inv s → Bad s → step s e = some s' → Bad s') (h₀ : Inv s₀)
    (hbad : Bad s₀) {es : List ε} {s : σ} (hrun : run step s₀ es = some s) : Bad s := by
  induction es generalizing s₀ with
  | nil =>
      obtain rfl : s₀ = s := by simpa [run] using hrun
      exact hbad
  | cons e es ih =>
      simp only [run, Option.bind_eq_some_iff] at hrun
      obtain ⟨s₁, hs₁, hrest⟩ := hrun
      exact ih (hstep _ _ _ h₀ hs₁) (hpersist _ _ _ h₀ hbad hs₁) hrest

/-- **A run is guarded, or broken at its end**, when a forbidden step breaks
something that nothing mends. -/
theorem guarded_or_broken {Inv Bad : σ → Prop}
    (hstep : ∀ s e s', Inv s → step s e = some s' → Inv s')
    (hbreak : ∀ s e s', Inv s → ¬ ok s e → step s e = some s' → Bad s')
    (hpersist : ∀ s e s', Inv s → Bad s → step s e = some s' → Bad s') (h₀ : Inv s₀)
    {es : List ε} {s : σ} (hrun : run step s₀ es = some s) :
    Guarded step ok s₀ es ∨ Bad s := by
  induction es generalizing s₀ with
  | nil => exact .inl trivial
  | cons e es ih =>
      simp only [run, Option.bind_eq_some_iff] at hrun
      obtain ⟨s₁, hs₁, hrest⟩ := hrun
      by_cases hok : ok s₀ e
      · refine (ih (hstep _ _ _ h₀ hs₁) hrest).imp_left fun hguarded s' hs' => ?_
        obtain rfl := Option.some.inj (hs₁.symm.trans hs')
        exact ⟨hok, hguarded⟩
      · exact .inr (run_keeps hstep hpersist (hstep _ _ _ h₀ hs₁) (hbreak _ _ _ h₀ hok hs₁) hrest)

end Rules

end Rpy.Foundation

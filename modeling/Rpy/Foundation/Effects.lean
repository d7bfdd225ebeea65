/-
  Rpy.Foundation.Effects
  ──────────────────────
  **HOARE TRIPLES FOR COMPUTATIONS THAT RAISE AND HAVE EFFECTS.**

  A computation `m : ExceptT ε (StateM σ) α` changes a state and ends with
  a value or raises an error; what it changed before it raised stays
  changed.  `Triple P m Q E` says that, begun where `P` holds, it ends with
  a value and a state in `Q`, or raises in a state in `E`.  The file names
  nothing of any particular program.

    • `Triple.bind`    — one computation after the other,
    • `Triple.ite`     — a branch,
    • `run_bind_ok`    — where the first computation ends with a value.
-/
import Mathlib.Tactic.TypeStar

namespace Rpy.Foundation

universe u

variable {σ ε α β : Type u}

/-- What a computation does with a state that meets `P`. -/
def Triple (P : σ → Prop) (m : ExceptT ε (StateM σ) α) (Q : α → σ → Prop) (E : σ → Prop) : Prop :=
  ∀ s, P s → match m.run.run s with
    | (.ok a, s') => Q a s'
    | (.error _, s') => E s'

/-- `m` keeps `I`, whether it ends with a value or raises. -/
abbrev Keeps (I : σ → Prop) (m : ExceptT ε (StateM σ) α) : Prop :=
  Triple I m (fun _ => I) I

/-- One call after the other, unless the first one raises. -/
theorem run_bind {m : ExceptT ε (StateM σ) α} {f : α → ExceptT ε (StateM σ) β} {s : σ} :
    (m >>= f).run.run s = match m.run.run s with
      | (.ok a, s') => (f a).run.run s'
      | (.error e, s') => (.error e, s') := by
  show (ExceptT.bindCont f (m.run.run s).1).run (m.run.run s).2 = _
  rcases m.run.run s with ⟨e | a, s'⟩ <;> rfl

/-- The first computation ends with a value: the second goes on from there. -/
theorem run_bind_ok {m : ExceptT ε (StateM σ) α} {f : α → ExceptT ε (StateM σ) β} {s s' : σ}
    {a : α} (h : m.run.run s = (.ok a, s')) : (m >>= f).run.run s = (f a).run.run s' := by
  rw [run_bind, h]

/-- Discarding a result leaves the state. -/
theorem run_discard {m : ExceptT ε (StateM σ) α} {s : σ} :
    (((discard m : ExceptT ε (StateM σ) PUnit)).run.run s).2 = (m.run.run s).2 := by
  show ((m >>= fun _ => pure PUnit.unit).run.run s).2 = _
  rw [run_bind]
  rcases m.run.run s with ⟨e | a, s'⟩ <;> rfl

/-- A value that is there is returned. -/
theorem run_ofExcept {a : α} {s : σ} :
    (MonadExcept.ofExcept (.ok a : Except ε α) : ExceptT ε (StateM σ) α).run.run s = (.ok a, s) :=
  rfl

namespace Triple

variable {P : σ → Prop} {Q : α → σ → Prop} {E : σ → Prop}

theorem pure {a : α} (h : ∀ s, P s → Q a s) :
    Triple P (Pure.pure a : ExceptT ε (StateM σ) α) Q E := h

theorem throw {e : ε} (h : ∀ s, P s → E s) :
    Triple P (throw e : ExceptT ε (StateM σ) α) Q E := h

theorem throw_bind {e : ε} {f : β → ExceptT ε (StateM σ) α} (h : ∀ s, P s → E s) :
    Triple P (MonadExcept.throw e >>= f) Q E := h

/-- **One computation after the other**: the second begins where the first
ends with a value, and does not begin when the first raises. -/
theorem bind {m : ExceptT ε (StateM σ) α} {f : α → ExceptT ε (StateM σ) β}
    {R : β → σ → Prop} (hm : Triple P m Q E) (hf : ∀ a, Triple (Q a) (f a) R E) :
    Triple P (m >>= f) R E := by
  intro s hs
  have hfirst := hm s hs
  rw [run_bind]
  generalize m.run.run s = out at hfirst ⊢
  obtain ⟨e | a, s'⟩ := out
  · exact hfirst
  · exact hf a s' hfirst

theorem ite {c : Prop} [Decidable c] {m n : ExceptT ε (StateM σ) α}
    (hm : c → Triple P m Q E) (hn : ¬c → Triple P n Q E) :
    Triple P (if c then m else n) Q E := by
  by_cases hc : c
  · rw [if_pos hc]
    exact hm hc
  · rw [if_neg hc]
    exact hn hc

/-- The rule of consequence. -/
theorem consequence {P' : σ → Prop} {Q' : α → σ → Prop} {E' : σ → Prop}
    {m : ExceptT ε (StateM σ) α} (h : Triple P m Q E) (hP : ∀ s, P' s → P s)
    (hQ : ∀ a s, Q a s → Q' a s) (hE : ∀ s, E s → E' s) : Triple P' m Q' E' := by
  intro s hs
  have hend := h s (hP s hs)
  generalize m.run.run s = out at hend ⊢
  obtain ⟨e | a, s'⟩ := out
  · exact hE s' hend
  · exact hQ a s' hend

/-- What the precondition says of more than the state. -/
theorem assume {p : Prop} {m : ExceptT ε (StateM σ) α} (h : p → Triple P m Q E) :
    Triple (fun s => p ∧ P s) m Q E :=
  fun s hs => h hs.1 s hs.2

/-- A pure computation that can raise leaves the state alone. -/
theorem liftExcept {x : Except ε α} (hok : ∀ a s, x = .ok a → P s → Q a s)
    (herror : ∀ s, P s → E s) :
    Triple P (MonadExcept.ofExcept x : ExceptT ε (StateM σ) α) Q E := by
  intro s hs
  cases x with
  | ok a => exact hok a s rfl hs
  | error e => exact herror s hs

theorem get {Q : σ → σ → Prop} (h : ∀ s, P s → Q s s) :
    Triple P (MonadState.get : ExceptT ε (StateM σ) σ) Q E := h

theorem modify {f : σ → σ} {Q : PUnit → σ → Prop} (h : ∀ s, P s → Q ⟨⟩ (f s)) :
    Triple P (modifyThe σ f : ExceptT ε (StateM σ) PUnit) Q E := h

end Triple

/-- Where a postcondition on the state holds of values and errors alike, it
holds of the last state. -/
theorem Triple.final {P I : σ → Prop} {m : ExceptT ε (StateM σ) α}
    (h : Triple P m (fun _ => I) I) {s : σ} (hs : P s) : I (m.run.run s).2 := by
  have hend := h s hs
  generalize m.run.run s = out at hend ⊢
  obtain ⟨e | a, s'⟩ := out
  · exact hend
  · exact hend

end Rpy.Foundation

/-
  Rpy.Foundation.Runs
  ───────────────────
  **THE RUNS OF A LIST, AND THEIR LABELS.**

  A run is a longest stretch of elements that are in words.  A label is a
  property some elements have: the question is whether a run has two.
  The file names nothing of any particular program.

    • `foldRuns`           — the loop that gives each run to a function,
    • `runs_induction`     — run by run,
    • `runLabel`           — the automaton that stops at a second label,
    • `foldRuns_eq_nil`    — a list it accepts has nothing to report.
-/
import Mathlib.Data.List.TakeWhile

namespace Rpy.Foundation

variable {α β κ : Type*}

/-! ## §1. Runs. -/

/-- Each run is given to `f`, with what was read of the first one before. -/
def foldRuns (word : α → Bool) (f : List α → List β) : List α → List α → List β
  | token, [] => f token
  | token, a :: rest =>
      if word a then foldRuns word f (token ++ [a]) rest
      else f token ++ foldRuns word f [] rest

section Runs

variable {word : α → Bool}

theorem foldRuns_word {f : List α → List β} {w : List α} (hw : ∀ a ∈ w, word a = true)
    (token rest : List α) :
    foldRuns word f token (w ++ rest) = foldRuns word f (token ++ w) rest := by
  induction w generalizing token with
  | nil => rw [List.nil_append, List.append_nil]
  | cons a w ih =>
      rw [List.forall_mem_cons] at hw
      rw [List.cons_append, foldRuns, if_pos hw.1, ih hw.2, List.append_assoc, List.singleton_append]

/-- A run and what follows it. -/
theorem foldRuns_run {f : List α → List β} {w : List α} {a : α} {rest : List α}
    (hw : ∀ b ∈ w, word b = true) (ha : word a = false) :
    foldRuns word f [] (w ++ a :: rest) = f w ++ foldRuns word f [] rest := by
  rw [foldRuns_word hw, List.nil_append, foldRuns, ha]
  rfl

variable (word) in
/-- **Induction, run by run**: the last run, or a run, the element that ends
it and the rest. -/
theorem runs_induction {motive : List α → Prop}
    (last : ∀ w, (∀ a ∈ w, word a = true) → motive w)
    (run : ∀ w a rest, (∀ b ∈ w, word b = true) → word a = false → motive rest →
      motive (w ++ a :: rest)) : ∀ l, motive l := by
  intro l
  induction hn : l.length using Nat.strongRecOn generalizing l with
  | ind n ih =>
      subst hn
      have hword : ∀ b ∈ l.takeWhile word, word b = true := fun b hb => List.mem_takeWhile_imp hb
      have hsplit := List.takeWhile_append_dropWhile (p := word) (l := l)
      cases hrest : l.dropWhile word with
      | nil =>
          rw [hrest, List.append_nil] at hsplit
          rw [← hsplit]
          exact last _ hword
      | cons a rest =>
          have ha : word a = false := by
            have hne : l.dropWhile word ≠ [] := by rw [hrest]; exact List.cons_ne_nil _ _
            have hhead := List.head_dropWhile_not word hne
            simp only [hrest, List.head_cons] at hhead
            exact hhead
          rw [hrest] at hsplit
          have hshorter : rest.length < l.length := by
            rw [← hsplit, List.length_append, List.length_cons]
            omega
          rw [← hsplit]
          exact run _ a rest hword ha (ih rest.length hshorter rest rfl)

end Runs

/-! ## §2. Labels. -/

section Labels

variable [DecidableEq κ] (word : α → Bool) (label : α → Option κ)

/-- The label of the current run, `none` before its first label; stops at a
second one. -/
def runLabel : Option κ → List α → Option (Option κ)
  | current, [] => some current
  | current, a :: rest =>
      if word a then
        if label a = none then runLabel current rest
        else if current = none ∨ current = label a then runLabel (label a) rest
        else none
      else runLabel none rest

variable {word label}

theorem runLabel_append (current : Option κ) (l m : List α) :
    runLabel word label current (l ++ m) =
      (runLabel word label current l).bind fun next => runLabel word label next m := by
  induction l generalizing current with
  | nil => rfl
  | cons a l ih =>
      rw [List.cons_append, runLabel, runLabel]
      by_cases hword : word a = true
      · rw [if_pos hword, if_pos hword]
        by_cases hlabel : label a = none
        · rw [if_pos hlabel, if_pos hlabel, ih]
        · rw [if_neg hlabel, if_neg hlabel]
          by_cases hsame : current = none ∨ current = label a
          · rw [if_pos hsame, if_pos hsame, ih]
          · rw [if_neg hsame, if_neg hsame]
            rfl
      · rw [if_neg hword, if_neg hword, ih]

/-- What is outside the words ends the run. -/
theorem runLabel_other {a : α} (ha : word a = false) (current : Option κ) (rest : List α) :
    runLabel word label current (a :: rest) = runLabel word label none rest := by
  rw [runLabel, ha]
  rfl

variable (word label) in
/-- Elements of one label leave the run with it, or with none. -/
theorem runLabel_of_labelled {k : Option κ} {l : List α}
    (hl : ∀ a ∈ l, label a = none ∨ label a = k) {current : Option κ}
    (hcurrent : current = none ∨ current = k) :
    ∃ next, (next = none ∨ next = k) ∧ runLabel word label current l = some next := by
  induction l generalizing current with
  | nil => exact ⟨current, hcurrent, rfl⟩
  | cons a l ih =>
      rw [List.forall_mem_cons] at hl
      rw [runLabel]
      by_cases hword : word a = true
      · rw [if_pos hword]
        by_cases hlabel : label a = none
        · rw [if_pos hlabel]
          exact ih hl.2 hcurrent
        · have hk : label a = k := hl.1.resolve_left hlabel
          rw [if_neg hlabel, hk, if_pos hcurrent]
          exact ih hl.2 (.inr rfl)
      · rw [if_neg hword]
        exact ih hl.2 (.inl rfl)

/-- **A list the automaton accepts has nothing to report**, to a function
that reports nothing of a run of one label. -/
theorem foldRuns_eq_nil {f : List α → List β}
    (hf : ∀ token (k : Option κ), (∀ a ∈ token, label a = none ∨ label a = k) → f token = [])
    {current : Option κ} {l : List α} (hl : runLabel word label current l ≠ none)
    {token : List α} (htoken : ∀ a ∈ token, label a = none ∨ label a = current) :
    foldRuns word f token l = [] := by
  induction l generalizing current token with
  | nil => exact hf token current htoken
  | cons a l ih =>
      rw [runLabel] at hl
      rw [foldRuns]
      by_cases hword : word a = true
      · rw [if_pos hword] at hl ⊢
        by_cases hlabel : label a = none
        · rw [if_pos hlabel] at hl
          exact ih hl (List.forall_mem_append.2 ⟨htoken, by simp [hlabel]⟩)
        · rw [if_neg hlabel] at hl
          by_cases hsame : current = none ∨ current = label a
          · rw [if_pos hsame] at hl
            refine ih hl (List.forall_mem_append.2 ⟨fun b hb => ?_, by simp⟩)
            rcases hsame with rfl | rfl
            · exact .inl ((htoken b hb).elim id id)
            · exact htoken b hb
          · rw [if_neg hsame] at hl
            exact absurd rfl hl
      · rw [if_neg hword] at hl ⊢
        rw [hf token current htoken, ih hl (List.forall_mem_nil _)]
        rfl

variable (word label) in
/-- Reading the list through a function. -/
theorem runLabel_map {γ : Type*} (g : γ → α) (current : Option κ) (l : List γ) :
    runLabel word label current (l.map g) =
      runLabel (fun c => word (g c)) (fun c => label (g c)) current l := by
  induction l generalizing current with
  | nil => rfl
  | cons c l ih =>
      rw [List.map_cons, runLabel, runLabel, ih, ih, ih]

end Labels

end Rpy.Foundation

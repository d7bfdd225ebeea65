/-
  Rpy.Foundation.Substitution
  ───────────────────────────
  **SUBSTITUTION OF THE MATCHES OF A PATTERN.**

    • `Regex.sub`      — `pattern.sub(repl, text)` for a replacement without
                         references,
    • `IsRun`          — a maximal run of the characters of a class,
    • `aloneRe`        — a run of digits of one of two lengths, with no digit
                         next to it,
    • `length_of_run_sub` — after its substitution no run has either length.
-/
import Rpy.Foundation.Regex

namespace Rpy.Foundation

/-! ## §1. Runs. -/

/-- A maximal run of digits of a text: digits, with no digit next to them. -/
def IsRun (digit : Char → Bool) (run text : List Char) : Prop :=
  ∃ before after, text = before ++ (run ++ after) ∧ run ≠ [] ∧ (∀ c ∈ run, digit c = true) ∧
    before.getLast?.any digit = false ∧ after.head?.any digit = false

section Runs

variable {digit : Char → Bool}

theorem not_isRun_nil (run : List Char) : ¬ IsRun digit run [] := by
  rintro ⟨before, after, htext, hne, -⟩
  have hboth := List.append_eq_nil_iff.1 (List.append_eq_nil_iff.1 htext.symm).2
  exact hne hboth.1

/-- A character that is no digit is in no run. -/
theorem IsRun.of_cons {x : Char} {run text : List Char} (hx : digit x = false)
    (h : IsRun digit run (x :: text)) : IsRun digit run text := by
  obtain ⟨before, after, htext, hne, hrun, hbefore, hafter⟩ := h
  cases before with
  | nil =>
      cases run with
      | nil => exact absurd rfl hne
      | cons c run =>
          have hc : digit c = true := hrun c List.mem_cons_self
          rw [← (List.cons.inj htext).1, hx] at hc
          cases hc
  | cons b before =>
      refine ⟨before, after, (List.cons.inj htext).2, hne, hrun, ?_, hafter⟩
      cases before with
      | nil => rfl
      | cons b' before => exact hbefore

theorem IsRun.of_append_none {gap run text : List Char} (hgap : ∀ c ∈ gap, digit c = false)
    (h : IsRun digit run (gap ++ text)) : IsRun digit run text := by
  induction gap with
  | nil => exact h
  | cons x gap ih =>
      obtain ⟨hx, hgap⟩ := List.forall_mem_cons.1 hgap
      exact ih hgap (h.of_cons hx)

theorem not_isRun_of_none {run text : List Char} (h : ∀ c ∈ text, digit c = false) :
    ¬ IsRun digit run text := by
  rintro ⟨before, after, rfl, hne, hrun, -⟩
  obtain ⟨c, hc⟩ := List.exists_mem_of_ne_nil run hne
  have hmem : c ∈ before ++ (run ++ after) :=
    List.mem_append_right before (List.mem_append_left after hc)
  have hdigit := hrun c hc
  rw [h c hmem] at hdigit
  cases hdigit

theorem IsRun.length_le {run text : List Char} (h : IsRun digit run text) :
    run.length ≤ text.length := by
  obtain ⟨before, after, rfl, -⟩ := h
  rw [List.length_append, List.length_append]
  omega

/-- A text that begins with a run has this run, and those of the rest. -/
theorem IsRun.of_append_all {front run text : List Char} (hfront : ∀ c ∈ front, digit c = true)
    (htext : text.head?.any digit = false) (h : IsRun digit run (front ++ text)) :
    run = front ∨ IsRun digit run text := by
  obtain ⟨before, after, heq, hne, hrun, hbefore, hafter⟩ := h
  rcases List.append_eq_append_iff.1 heq with ⟨more, rfl, hmore⟩ | ⟨more, rfl, hmore⟩
  · -- the run begins after the front
    refine .inr ⟨more, after, hmore, hne, hrun, ?_, hafter⟩
    cases more with
    | nil => rfl
    | cons b more =>
        rw [List.getLast?_append_cons] at hbefore
        exact hbefore
  · cases before with
    | nil =>
        -- both are all the digits the text begins with
        simp only [List.nil_append] at heq hfront ⊢
        have htake : ∀ {ds rest : List Char}, (∀ c ∈ ds, digit c = true) →
            rest.head?.any digit = false → (ds ++ rest).takeWhile digit = ds := by
          intro ds rest hds hrest
          rw [List.takeWhile_append_of_pos hds]
          cases rest with
          | nil => exact List.append_nil ds
          | cons r rest =>
              have hr : ¬ digit r = true := Bool.eq_false_iff.1 hrest
              rw [List.takeWhile_cons_of_neg hr, List.append_nil]
        have hboth := congrArg (List.takeWhile digit) heq
        rw [htake hfront htext, htake hrun hafter] at hboth
        exact .inl hboth.symm
    | cons b before =>
        -- what is before the run ends with a digit of the front
        have hlast : ((b :: before).getLast?).any digit = true := by
          rw [List.getLast?_eq_some_getLast (List.cons_ne_nil b before)]
          exact hfront _ (List.mem_append_left more (List.getLast_mem _))
        rw [hlast] at hbefore
        cases hbefore

end Runs

namespace Regex

/-! ## §2. Substitution. -/

/-- The text from a place on with its matches replaced.  After an empty match
the search goes on one character later. -/
def subFrom (r : Regex) (repl : List Char) : Nat → Cursor → List Char
  | 0, c => c.after
  | fuel + 1, c =>
      match (steps r c).head? with
      | some d =>
          if c.offset < d.offset then repl ++ subFrom r repl fuel { d with groups := [] }
          else
            match c.after with
            | [] => repl
            | x :: _ => repl ++ x :: subFrom r repl fuel (c.skip 1)
      | none =>
          match c.after with
          | [] => []
          | x :: _ => x :: subFrom r repl fuel (c.skip 1)

/-- `pattern.sub(repl, text)` -/
def sub (r : Regex) (repl cs : List Char) : List Char := subFrom r repl (cs.length + 1) (start cs)

section Steps

variable {r : Regex} {repl : List Char} {fuel : Nat} {c : Cursor}

theorem subFrom_of_none {x : Char} {rest : List Char} (h : steps r c = [])
    (hafter : c.after = x :: rest) :
    subFrom r repl (fuel + 1) c = x :: subFrom r repl fuel (c.skip 1) := by
  rw [subFrom, h, hafter]
  rfl

theorem subFrom_of_end (h : steps r c = []) (hafter : c.after = []) :
    subFrom r repl fuel c = [] := by
  cases fuel with
  | zero => exact hafter
  | succ fuel =>
      rw [subFrom, h, hafter]
      rfl

theorem subFrom_of_match {d : Cursor} (h : (steps r c).head? = some d)
    (hlonger : c.offset < d.offset) :
    subFrom r repl (fuel + 1) c = repl ++ subFrom r repl fuel { d with groups := [] } := by
  rw [subFrom, h]
  exact if_pos hlonger

/-- Where nothing matches the text is kept. -/
theorem subFrom_skip {run rest : List Char} (hafter : c.after = run ++ rest)
    (h : ∀ k < run.length, steps r (c.skip k) = []) :
    subFrom r repl (run.length + fuel) c = run ++ subFrom r repl fuel (c.skip run.length) := by
  induction run generalizing c with
  | nil => rw [List.length_nil, Nat.zero_add, skip_zero, List.nil_append]
  | cons x run ih =>
      have hfirst := h 0 (Nat.succ_pos _)
      rw [skip_zero] at hfirst
      have hlater : ∀ k < run.length, steps r ((c.skip 1).skip k) = [] := by
        intro k hk
        rw [skip_skip]
        exact h (1 + k) (by rw [List.length_cons]; omega)
      have hrest : (c.skip 1).after = run ++ rest := by
        rw [Cursor.skip, hafter]
        rfl
      rw [List.length_cons, show run.length + 1 + fuel = run.length + fuel + 1 by omega,
        subFrom_of_none hfirst hafter, ih hrest hlater, skip_skip, Nat.add_comm 1]
      rfl

end Steps

/-! ## §3. Runs of two lengths. -/

/-- `(?<!\d)(?:\d{m}|\d{n})(?!\d)` -/
def aloneRe (digit : Char → Bool) (m n : Nat) : Regex :=
  cat [.behind false digit, .alt (exactly m (.char digit)) (exactly n (.char digit)),
    .ahead false (.char digit)]

section Alone

variable {digit : Char → Bool} {c : Cursor} {m n : Nat}

/-- `\d{k}` goes over the first `k` digits of a run. -/
theorem times_run (k : Nat) : ∀ {c : Cursor} {run rest : List Char}, c.after = run ++ rest →
    (∀ x ∈ run, digit x = true) → rest.head?.any digit = false →
    times (steps (.char digit)) k c = if k ≤ run.length then [c.skip k] else [] := by
  induction k with
  | zero =>
      intro c run rest _ _ _
      rw [times, if_pos (Nat.zero_le _), skip_zero]
  | succ k ih =>
      intro c run rest hafter hrun hrest
      rw [times, steps_char]
      cases run with
      | nil =>
          have hnext : next digit c = false := by
            rw [next, hafter]
            exact hrest
          have hlong : ¬ k + 1 ≤ ([] : List Char).length := Nat.not_succ_le_zero k
          rw [hnext, if_neg Bool.false_ne_true, if_neg hlong]
          rfl
      | cons x run =>
          obtain ⟨hx, hrun⟩ := List.forall_mem_cons.1 hrun
          have hlater : (c.skip 1).after = run ++ rest := by
            rw [Cursor.skip, hafter]
            rfl
          rw [next_of_after hafter, hx, if_pos rfl, List.flatMap_singleton, ih hlater hrun hrest,
            List.length_cons, skip_skip, Nat.add_comm 1 k]
          by_cases hk : k ≤ run.length
          · rw [if_pos hk, if_pos (Nat.succ_le_succ hk)]
          · rw [if_neg hk, if_neg (by omega)]

/-- **A run is matched where it has one of the two lengths.** -/
theorem steps_aloneRe {run rest : List Char} (hafter : c.after = run ++ rest)
    (hrun : ∀ x ∈ run, digit x = true) (hrest : rest.head?.any digit = false)
    (hclear : c.before.head?.any digit = false) :
    steps (aloneRe digit m n) c =
      (if run.length = m then [c.skip m] else []) ++
        (if run.length = n then [c.skip n] else []) := by
  -- `k` digits and no digit after them: the run ends there.
  have hend : ∀ k, ((if k ≤ run.length then [c.skip k] else []).flatMap fun d =>
      steps (.ahead false (.char digit)) d) = if run.length = k then [c.skip k] else [] := by
    intro k
    by_cases hk : k ≤ run.length
    · rw [if_pos hk, List.flatMap_singleton, steps, steps_char]
      have hnext : next digit (c.skip k) = decide (k < run.length) := by
        show ((c.after.drop k).head?).any digit = _
        rw [hafter, List.drop_append_of_le_length hk]
        cases hdrop : run.drop k with
        | nil =>
            have hlen := List.drop_eq_nil_iff.1 hdrop
            rw [decide_eq_false (by omega)]
            exact hrest
        | cons y ys =>
            have hlen : (run.drop k).length = ys.length + 1 := by rw [hdrop]; rfl
            rw [List.length_drop] at hlen
            rw [decide_eq_true (by omega)]
            exact hrun y (List.mem_of_mem_drop (by rw [hdrop]; exact List.mem_cons_self))
      rw [hnext]
      by_cases hlt : k < run.length
      · rw [decide_eq_true hlt, if_neg (by omega : ¬ run.length = k)]
        rfl
      · rw [decide_eq_false hlt, if_pos (by omega : run.length = k)]
        rfl
    · rw [if_neg hk, if_neg (by omega)]
      rfl
  -- `k` digits are there where the run is that long.
  have hexactly : ∀ k, steps (exactly k (.char digit)) c =
      if k ≤ run.length then [c.skip k] else [] := by
    intro k
    rw [exactly, steps, times_run k hafter hrun hrest]
    have hnone : ∀ d : Cursor, atMost (steps (.char digit)) true (k - k) d = [d] := by
      intro d
      rw [Nat.sub_self]
      rfl
    split
    · rw [List.flatMap_singleton]
      exact hnone _
    · rfl
  show (steps (.behind false digit) c).flatMap _ = _
  -- No digit stands before, so both alternatives are tried.
  have hhere : (false == false) = true := rfl
  rw [steps, hclear, if_pos hhere, List.flatMap_singleton]
  show (steps (.alt (exactly m (.char digit)) (exactly n (.char digit))) c).flatMap _ = _
  rw [steps, List.flatMap_append, hexactly, hexactly]
  exact congrArg₂ (· ++ ·) (hend m) (hend n)

/-- Inside a run nothing is matched. -/
theorem steps_aloneRe_inside (h : c.before.head?.any digit = true) :
    steps (aloneRe digit m n) c = [] := by
  show (steps (.behind false digit) c).flatMap _ = _
  rw [steps, h]
  rfl

/-- Where no digit follows nothing is matched. -/
theorem steps_aloneRe_gap (hm : 0 < m) (hn : 0 < n) (h : next digit c = false) :
    steps (aloneRe digit m n) c = [] := by
  cases hbefore : c.before.head?.any digit with
  | true => exact steps_aloneRe_inside hbefore
  | false =>
      have hsteps := steps_aloneRe (m := m) (n := n) (show c.after = [] ++ c.after from rfl)
        (List.forall_mem_nil _) h hbefore
      have hlength : ∀ k, 0 < k → ¬ ([] : List Char).length = k := fun k hk => Nat.ne_of_lt hk
      rw [hsteps, if_neg (hlength m hm), if_neg (hlength n hn)]
      rfl

/-- After a digit of a run the place is inside it. -/
theorem before_skip {run rest : List Char} {k : Nat} (hafter : c.after = run ++ rest)
    (hrun : ∀ x ∈ run, digit x = true) (hk : 0 < k) (hle : k ≤ run.length) :
    (c.skip k).before.head?.any digit = true := by
  have htake : c.after.take k = run.take k := by
    rw [hafter, List.take_append_of_le_length hle]
  show ((c.after.take k).reverse ++ c.before).head?.any digit = true
  rw [htake]
  cases hfirst : (run.take k).reverse with
  | nil =>
      have hlen := congrArg List.length hfirst
      rw [List.length_reverse, List.length_take, List.length_nil] at hlen
      omega
  | cons x xs =>
      have hmem : x ∈ (run.take k).reverse := by
        rw [hfirst]
        exact List.mem_cons_self
      exact hrun x (List.mem_of_mem_take (List.mem_reverse.1 hmem))

/-- **The runs that are left have neither length.** -/
theorem length_of_run_subFrom (hm : 0 < m) (hn : 0 < n) {repl : List Char}
    (hrepl : ∀ x ∈ repl, digit x = false) : ∀ (fuel : Nat) (c : Cursor),
      c.after.length < fuel →
      (c.before.head?.any digit = false ∨ next digit c = false) →
      ∀ w, IsRun digit w (subFrom (aloneRe digit m n) repl fuel c) →
        w.length ≠ m ∧ w.length ≠ n := by
  intro fuel
  induction fuel using Nat.strongRecOn with
  | ind fuel ih =>
      intro c hfuel hedge w hw
      cases hnext : next digit c with
      | false =>
          have hnone := steps_aloneRe_gap hm hn hnext
          cases hafter : c.after with
          | nil =>
              rw [subFrom_of_end hnone hafter] at hw
              exact absurd hw (not_isRun_nil w)
          | cons x rest =>
              obtain ⟨fuel, rfl⟩ : ∃ more, fuel = more + 1 := ⟨fuel - 1, by omega⟩
              have hx : digit x = false := by
                rw [next_of_after hafter] at hnext
                exact hnext
              rw [subFrom_of_none hnone hafter] at hw
              refine ih fuel (Nat.lt_succ_self _) (c.skip 1) ?_ (.inl ?_) w (hw.of_cons hx)
              · rw [Cursor.skip, hafter]
                simp only [hafter, List.length_cons] at hfuel
                simp only [List.drop_succ_cons, List.drop_zero]
                omega
              · rw [Cursor.skip, hafter]
                exact hx
      | true =>
          have hclear : c.before.head?.any digit = false := by
            rcases hedge with h | h
            · exact h
            · rw [h] at hnext
              cases hnext
          -- the run that begins here
          let run := c.after.takeWhile digit
          let rest := c.after.dropWhile digit
          have hafter : c.after = run ++ rest := List.takeWhile_append_dropWhile.symm
          have hrun : ∀ x ∈ run, digit x = true := fun x hx => List.all_eq_true.1 List.all_takeWhile x hx
          have hrest : rest.head?.any digit = false := by
            cases hfirst : rest.head? with
            | none => rfl
            | some x =>
                have hx := List.head?_dropWhile_not digit c.after
                rw [show (c.after.dropWhile digit).head? = some x from hfirst] at hx
                exact hx
          have hpos : 0 < run.length := by
            refine List.length_pos_iff.2 fun hnil => ?_
            rw [hnil, List.nil_append] at hafter
            rw [next, hafter, hrest] at hnext
            cases hnext
          have hlength : c.after.length = run.length + rest.length := by
            rw [hafter, List.length_append]
          have hsteps := steps_aloneRe (m := m) (n := n) hafter hrun hrest hclear
          have hgap : next digit (c.skip run.length) = false := by
            rw [next, after_skip hafter]
            exact hrest
          by_cases halone : run.length = m ∨ run.length = n
          · -- the run is replaced
            have hhead : (steps (aloneRe digit m n) c).head? = some (c.skip run.length) := by
              rw [hsteps]
              by_cases h : run.length = m
              · rw [if_pos h, h]
                rfl
              · rw [if_neg h, if_pos (halone.resolve_left h), halone.resolve_left h]
                rfl
            obtain ⟨fuel, rfl⟩ : ∃ more, fuel = more + 1 := ⟨fuel - 1, by omega⟩
            rw [subFrom_of_match hhead (Nat.lt_add_of_pos_right hpos)] at hw
            refine ih fuel (Nat.lt_succ_self _) _ ?_ (.inr ?_) w (hw.of_append_none hrepl)
            · show (c.skip run.length).after.length < fuel
              rw [after_skip hafter]
              omega
            · exact hgap
          · -- the run is kept, and has another length
            have hnone : ∀ k < run.length, steps (aloneRe digit m n) (c.skip k) = [] := by
              intro k hk
              cases Nat.eq_zero_or_pos k with
              | inl hzero =>
                  rw [hzero, skip_zero, hsteps, if_neg (fun h => halone (.inl h)),
                    if_neg (fun h => halone (.inr h))]
                  rfl
              | inr hk' => exact steps_aloneRe_inside (before_skip hafter hrun hk' (Nat.le_of_lt hk))
            obtain ⟨fuel, rfl⟩ : ∃ more, fuel = run.length + more := ⟨fuel - run.length, by omega⟩
            rw [subFrom_skip hafter hnone] at hw
            have hafter' := after_skip hafter
            have hhead : (subFrom (aloneRe digit m n) repl fuel (c.skip run.length)).head?.any
                digit = false := by
              have hnone' := steps_aloneRe_gap hm hn hgap
              cases hcase : rest with
              | nil =>
                  rw [subFrom_of_end hnone' (hafter'.trans hcase)]
                  rfl
              | cons x more =>
                  rw [hcase] at hrest hafter'
                  cases fuel with
                  | zero =>
                      rw [subFrom, hafter']
                      exact hrest
                  | succ fuel =>
                      rw [subFrom_of_none hnone' hafter']
                      exact hrest
            rcases hw.of_append_all hrun hhead with rfl | hw
            · exact ⟨fun h => halone (.inl h), fun h => halone (.inr h)⟩
            · refine ih fuel (by omega) (c.skip run.length) ?_ (.inr hgap) w hw
              rw [hafter']
              omega

/-- **After the substitution no run has either length.** -/
theorem length_of_run_sub (hm : 0 < m) (hn : 0 < n) {repl : List Char}
    (hrepl : ∀ x ∈ repl, digit x = false) {cs w : List Char}
    (h : IsRun digit w (sub (aloneRe digit m n) repl cs)) : w.length ≠ m ∧ w.length ≠ n :=
  length_of_run_subFrom hm hn hrepl (cs.length + 1) (start cs) (Nat.lt_succ_self _) (.inl rfl) w h

end Alone

end Regex

end Rpy.Foundation

/-
  Rpy.Foundation.Regex
  ────────────────────
  **BACKTRACKING REGULAR EXPRESSIONS OVER CHARACTERS.**

  A pattern is matched at a cursor, which is a text cut in two.  `steps`
  lists the cursors a match may end at in the order a backtracking matcher
  tries them, so that the first one is the match.  A character class is a
  predicate; case folding and the Unicode classes are the caller's.

    • `Regex.steps`     — the ends of the matches at a cursor,
    • `Regex.search`    — the leftmost match of a text,
    • `Regex.findIter`  — the matches of a text, from left to right,
    • `Regex.fullMatch` — does the whole text match?
    • `Regex.split`     — the text between them,
    • `head?_plus_greedy`, `head?_plus_lazy`, `head?_between` — the match of
                          a run of characters of one class,
    • `findFrom_of_none`, `findFrom_of_match` — one step of `findIter`.
-/
import Mathlib.Data.List.Basic

namespace Rpy.Foundation

/-! ## §1. Patterns. -/

/-- A pattern. -/
inductive Regex where
  | empty
  | char (ok : Char → Bool)
  | seq (a b : Regex)
  | alt (a b : Regex)
  /-- at least `lo` times, at most `hi` times if there is a bound -/
  | rep (a : Regex) (lo : Nat) (hi : Option Nat) (greedy : Bool)
  | group (name : String) (a : Regex)
  /-- `(?=a)`, and `(?!a)` when `positive` is false -/
  | ahead (positive : Bool) (a : Regex)
  /-- `(?<=[…])` and `(?<![…])` for one character -/
  | behind (positive : Bool) (ok : Char → Bool)
  /-- `\b` between characters of the class `word` and others -/
  | boundary (word : Char → Bool)
  /-- `^` with `re.MULTILINE` -/
  | lineStart
  /-- `$` with `re.MULTILINE` -/
  | lineEnd

namespace Regex

/-- One after another. -/
def cat : List Regex → Regex
  | [] => .empty
  | [r] => r
  | r :: rs => .seq r (cat rs)

/-- One of several, in this order. -/
def oneOf : List Regex → Regex
  | [] => .char fun _ => false
  | [r] => r
  | r :: rs => .alt r (oneOf rs)

/-- `a?` -/
def opt (a : Regex) : Regex := .rep a 0 (some 1) true

/-- `a*` -/
def star (a : Regex) : Regex := .rep a 0 none true

/-- `a+` -/
def plus (a : Regex) : Regex := .rep a 1 none true

/-- `a+?` -/
def plusLazy (a : Regex) : Regex := .rep a 1 none false

/-- `a*?` -/
def starLazy (a : Regex) : Regex := .rep a 0 none false

/-- `a{n}` -/
def exactly (n : Nat) (a : Regex) : Regex := .rep a n (some n) true

/-- `a{lo,hi}` -/
def between (lo hi : Nat) (a : Regex) : Regex := .rep a lo (some hi) true

/-- One literal character. -/
def only (c : Char) : Regex := .char (· == c)

/-- The characters of a text, each up to `same`. -/
def textBy (same : Char → Char → Bool) (s : String) : Regex :=
  cat (s.toList.map fun x => .char (same x))

/-- A literal text. -/
def text (s : String) : Regex := textBy (fun x c => c == x) s

/-- A character of a set. -/
def set (s : String) : Regex :=
  let members := s.toList
  .char fun c => members.contains c

/-! ## §2. Matching. -/

/-- A place in a text, and the groups captured on the way to it. -/
structure Cursor where
  /-- the number of characters before the place -/
  offset : Nat
  /-- the characters before the place, the last one first -/
  before : List Char
  after : List Char
  groups : List (String × List Char) := []
deriving Repr, DecidableEq

/-- The start of a text. -/
def start (cs : List Char) : Cursor := { offset := 0, before := [], after := cs }

/-- The characters between two places. -/
def Cursor.upTo (c d : Cursor) : List Char := c.after.take (d.offset - c.offset)

/-- The repetitions of a step, at most as many as `fuel` has members; one
that consumes nothing is not tried again. -/
def many (step : Cursor → List Cursor) (greedy : Bool) : List Char → Cursor → List Cursor
  | [], c => [c]
  | _ :: fuel, c =>
      let more := ((step c).filter fun d => c.offset < d.offset).flatMap (many step greedy fuel)
      if greedy then more ++ [c] else c :: more

/-- At most `n` repetitions of a step. -/
def atMost (step : Cursor → List Cursor) (greedy : Bool) : Nat → Cursor → List Cursor
  | 0, c => [c]
  | n + 1, c =>
      let more := (step c).flatMap (atMost step greedy n)
      if greedy then more ++ [c] else c :: more

/-- Exactly `n` repetitions of a step. -/
def times (step : Cursor → List Cursor) : Nat → Cursor → List Cursor
  | 0, c => [c]
  | n + 1, c => (step c).flatMap (times step n)

/-- Does a word begin or end here? -/
def atBoundary (word : Char → Bool) (c : Cursor) : Bool :=
  c.before.head?.any word != c.after.head?.any word

/-- The places a match may end at, the preferred one first. -/
def steps : Regex → Cursor → List Cursor
  | .empty, c => [c]
  | .char ok, c =>
      match c.after with
      | [] => []
      | x :: rest =>
          if ok x then
            [{ c with offset := c.offset + 1, before := x :: c.before, after := rest }]
          else []
  | .seq a b, c => (steps a c).flatMap (steps b)
  | .alt a b, c => steps a c ++ steps b c
  | .rep a lo hi greedy, c =>
      (times (steps a) lo c).flatMap fun d =>
        match hi with
        | some n => atMost (steps a) greedy (n - lo) d
        | none => many (steps a) greedy d.after d
  | .group name a, c =>
      (steps a c).map fun d => { d with groups := (name, c.upTo d) :: d.groups }
  | .ahead positive a, c => if (steps a c).isEmpty != positive then [c] else []
  | .behind positive ok, c => if c.before.head?.any ok == positive then [c] else []
  | .boundary word, c => if atBoundary word c then [c] else []
  | .lineStart, c => if c.before.head?.all (· == '\n') then [c] else []
  | .lineEnd, c => if c.after.head?.all (· == '\n') then [c] else []

/-- A match: where it starts and where it ends. -/
structure Match where
  first : Cursor
  last : Cursor
deriving Repr, DecidableEq

/-- `match.group(0)` -/
def Match.text (m : Match) : List Char := m.first.upTo m.last

/-- `match.group(name)` -/
def Match.group (m : Match) (name : String) : Option (List Char) := m.last.groups.lookup name

/-- The leftmost match at or after a place. -/
def searchFrom (r : Regex) (offset : Nat) (before : List Char) : List Char → Option Match
  | [] =>
      let c : Cursor := { offset, before, after := [] }
      (steps r c).head?.map fun d => ⟨c, d⟩
  | x :: rest =>
      let c : Cursor := { offset, before, after := x :: rest }
      match (steps r c).head? with
      | some d => some ⟨c, d⟩
      | none => searchFrom r (offset + 1) (x :: before) rest

/-- `pattern.search(text)` -/
def search (r : Regex) (cs : List Char) : Option Match := searchFrom r 0 [] cs

/-- `pattern.search(text) is not None` -/
def occursIn (r : Regex) (cs : List Char) : Bool := (r.search cs).isSome

/-- The matches at or after a place, at most as many as `fuel` has members.
After an empty match the search goes on one character later. -/
def findFrom (r : Regex) : List Char → Nat → List Char → List Char → List Match
  | [], _, _, _ => []
  | _ :: fuel, offset, before, after =>
      match searchFrom r offset before after with
      | none => []
      | some m =>
          if m.first.offset < m.last.offset then
            m :: findFrom r fuel m.last.offset m.last.before m.last.after
          else
            match m.last.after with
            | [] => [m]
            | x :: rest => m :: findFrom r fuel (m.last.offset + 1) (x :: m.last.before) rest

/-- `pattern.finditer(text)` -/
def findIter (r : Regex) (cs : List Char) : List Match := findFrom r ('\n' :: cs) 0 [] cs

/-- `pattern.match(text)` -/
def matchStart (r : Regex) (cs : List Char) : Option Match :=
  (steps r (start cs)).head?.map fun d => ⟨start cs, d⟩

/-- `pattern.fullmatch(text) is not None` -/
def fullMatch (r : Regex) (cs : List Char) : Bool :=
  (steps r (start cs)).any fun d => d.after.isEmpty

/-- The text between the matches (`pattern.split(text)` without groups),
from a place `n` characters into the text. -/
def splitAt (ms : List Match) (n : Nat) (cs : List Char) : List (List Char) :=
  match ms with
  | [] => [cs]
  | m :: ms =>
      cs.take (m.first.offset - n) :: splitAt ms m.last.offset (cs.drop (m.last.offset - n))

/-- `pattern.split(text)` -/
def split (r : Regex) (cs : List Char) : List (List Char) := splitAt (r.findIter cs) 0 cs

/-! ## §3. Runs of characters. -/

/-- The place `k` characters further. -/
def Cursor.skip (c : Cursor) (k : Nat) : Cursor :=
  { c with
    offset := c.offset + k
    before := (c.after.take k).reverse ++ c.before
    after := c.after.drop k }

theorem skip_zero (c : Cursor) : c.skip 0 = c := by
  simp [Cursor.skip]

theorem skip_skip (c : Cursor) (j k : Nat) : (c.skip j).skip k = c.skip (j + k) := by
  simp only [Cursor.skip, List.drop_drop, Nat.add_assoc, Cursor.mk.injEq, true_and, and_true]
  rw [List.take_add, List.reverse_append, List.append_assoc]

theorem after_skip_one {c : Cursor} {x : Char} {rest : List Char} (h : c.after = x :: rest) :
    (c.skip 1).after = rest := by
  rw [Cursor.skip, h]
  rfl

/-- Does the next character belong to the class? -/
def next (ok : Char → Bool) (c : Cursor) : Bool := c.after.head?.any ok

theorem steps_char (ok : Char → Bool) (c : Cursor) :
    steps (.char ok) c = if next ok c then [c.skip 1] else [] := by
  unfold next
  cases hafter : c.after with
  | nil => simp [steps, hafter]
  | cons x rest => cases hok : ok x <;> simp [steps, hafter, hok, Cursor.skip]

/-- The repetitions of a character that is not there are none. -/
theorem many_of_not_next {ok : Char → Bool} {c : Cursor} (h : next ok c = false)
    (greedy : Bool) (fuel : List Char) : many (steps (.char ok)) greedy fuel c = [c] := by
  cases fuel with
  | nil => rfl
  | cons x fuel =>
      rw [many, steps_char, h]
      cases greedy <;> rfl

theorem many_of_next {ok : Char → Bool} {c : Cursor} (h : next ok c = true) (greedy : Bool)
    (x : Char) (fuel : List Char) : many (steps (.char ok)) greedy (x :: fuel) c =
      if greedy then many (steps (.char ok)) greedy fuel (c.skip 1) ++ [c]
      else c :: many (steps (.char ok)) greedy fuel (c.skip 1) := by
  have hlater : [c.skip 1].filter (fun d => c.offset < d.offset) = [c.skip 1] :=
    List.filter_eq_self.2 fun d hd => by
      rw [List.mem_singleton.1 hd]
      exact decide_eq_true (Nat.lt_succ_self _)
  rw [many, steps_char, h, if_pos rfl, hlater, List.flatMap_singleton]

/-- A run that goes on after its first character. -/
theorem run_succ {ok : Char → Bool} {c : Cursor} {k : Nat} (hnext : next ok c = true)
    (hlength : k ≤ (c.skip 1).after.length) (hall : ∀ x ∈ (c.skip 1).after.take k, ok x = true) :
    1 + k ≤ c.after.length ∧ ∀ x ∈ c.after.take (1 + k), ok x = true := by
  unfold next at hnext
  cases hafter : c.after with
  | nil =>
      rw [hafter] at hnext
      cases hnext
  | cons y rest =>
      rw [hafter] at hnext
      simp only [Cursor.skip, hafter, List.drop_succ_cons, List.drop_zero] at hlength hall
      constructor
      · rw [List.length_cons]
        omega
      · rw [Nat.add_comm, List.take_succ_cons]
        intro x hx
        rcases List.mem_cons.1 hx with rfl | hx
        · exact hnext
        · exact hall x hx

/-- Every repetition goes over characters of the class. -/
theorem mem_many {ok : Char → Bool} {greedy : Bool} : ∀ {fuel : List Char} {c d : Cursor},
    d ∈ many (steps (.char ok)) greedy fuel c →
      ∃ k, d = c.skip k ∧ k ≤ c.after.length ∧ ∀ x ∈ c.after.take k, ok x = true := by
  intro fuel
  induction fuel with
  | nil =>
      intro c d h
      rw [many, List.mem_singleton] at h
      exact ⟨0, by rw [h, skip_zero], Nat.zero_le _, by simp⟩
  | cons y fuel ih =>
      intro c d h
      by_cases hnext : next ok c = true
      · have hmem : d ∈ many (steps (.char ok)) greedy fuel (c.skip 1) ∨ d = c := by
          rw [many_of_next hnext] at h
          split at h
          · rcases List.mem_append.1 h with h | h
            · exact .inl h
            · exact .inr (List.mem_singleton.1 h)
          · exact (List.mem_cons.1 h).symm
        rcases hmem with hmem | rfl
        · obtain ⟨k, hk, hlength, hall⟩ := ih hmem
          exact ⟨1 + k, by rw [hk, skip_skip], run_succ hnext hlength hall⟩
        · exact ⟨0, by rw [skip_zero], Nat.zero_le _, by simp⟩
      · rw [many_of_not_next (by simpa using hnext), List.mem_singleton] at h
        exact ⟨0, by rw [h, skip_zero], Nat.zero_le _, by simp⟩

/-- **A greedy run that the continuation accepts at its end.** -/
theorem head?_many_greedy {ok : Char → Bool} {f : Cursor → List Cursor} {d : Cursor} :
    ∀ {run : List Char} {fuel : List Char} {c : Cursor} {rest : List Char},
      c.after = run ++ rest → (∀ x ∈ run, ok x = true) → rest.head?.any ok = false →
      run.length ≤ fuel.length → (f (c.skip run.length)).head? = some d →
        ((many (steps (.char ok)) true fuel c).flatMap f).head? = some d := by
  intro run
  induction run with
  | nil =>
      intro fuel c rest hafter _ hrest _ hd
      have hnext : next ok c = false := by
        unfold next
        rw [hafter]
        exact hrest
      rw [many_of_not_next hnext, List.flatMap_singleton, ← skip_zero c]
      exact hd
  | cons x run ih =>
      intro fuel c rest hafter hall hrest hfuel hd
      cases fuel with
      | nil => cases hfuel
      | cons y fuel =>
          have hnext : next ok c = true := by
            unfold next
            rw [hafter]
            exact hall x List.mem_cons_self
          have hskip : (c.skip 1).after = run ++ rest := after_skip_one hafter
          rw [many_of_next hnext, if_pos rfl, List.flatMap_append, List.head?_append,
            ih hskip (fun z hz => hall z (List.mem_cons_of_mem x hz)) hrest
              (Nat.le_of_succ_le_succ hfuel) (by rwa [skip_skip, Nat.add_comm])]
          rfl

/-- **A lazy run that the continuation accepts for the first time at its end.** -/
theorem head?_many_lazy {ok : Char → Bool} {f : Cursor → List Cursor} {d : Cursor} :
    ∀ {run : List Char} {fuel : List Char} {c : Cursor} {rest : List Char},
      c.after = run ++ rest → (∀ x ∈ run, ok x = true) →
      (∀ k < run.length, f (c.skip k) = []) →
      run.length ≤ fuel.length → (f (c.skip run.length)).head? = some d →
        ((many (steps (.char ok)) false fuel c).flatMap f).head? = some d := by
  intro run
  induction run with
  | nil =>
      intro fuel c rest hafter _ _ _ hd
      have hfirst : ∃ more, many (steps (.char ok)) false fuel c = c :: more := by
        cases fuel with
        | nil => exact ⟨[], rfl⟩
        | cons y fuel => exact ⟨_, rfl⟩
      obtain ⟨more, hmore⟩ := hfirst
      rw [List.length_nil, skip_zero] at hd
      rw [hmore, List.flatMap_cons, List.head?_append, hd]
      rfl
  | cons x run ih =>
      intro fuel c rest hafter hall hfail hfuel hd
      cases fuel with
      | nil => cases hfuel
      | cons y fuel =>
          have hnext : next ok c = true := by
            unfold next
            rw [hafter]
            exact hall x List.mem_cons_self
          have hskip : (c.skip 1).after = run ++ rest := after_skip_one hafter
          have hzero : f c = [] := by
            have h0 := hfail 0 (Nat.succ_pos _)
            rwa [skip_zero] at h0
          rw [many_of_next hnext, if_neg Bool.false_ne_true, List.flatMap_cons, hzero,
            List.nil_append]
          refine ih hskip (fun z hz => hall z (List.mem_cons_of_mem x hz)) (fun k hk => ?_)
            (Nat.le_of_succ_le_succ hfuel) (by rwa [skip_skip, Nat.add_comm])
          rw [skip_skip, Nat.add_comm]
          exact hfail (k + 1) (Nat.succ_lt_succ hk)

/-- A bounded greedy run that the continuation accepts at its end. -/
theorem head?_atMost_greedy {ok : Char → Bool} {f : Cursor → List Cursor} {d : Cursor} :
    ∀ {run : List Char} {bound : Nat} {c : Cursor} {rest : List Char},
      c.after = run ++ rest → (∀ x ∈ run, ok x = true) → rest.head?.any ok = false →
      run.length ≤ bound → (f (c.skip run.length)).head? = some d →
        ((atMost (steps (.char ok)) true bound c).flatMap f).head? = some d := by
  intro run
  induction run with
  | nil =>
      intro bound c rest hafter _ hrest _ hd
      have hnext : next ok c = false := by
        unfold next
        rw [hafter]
        exact hrest
      have hnone : atMost (steps (.char ok)) true bound c = [c] := by
        cases bound with
        | zero => rfl
        | succ n =>
            rw [atMost, steps_char, hnext]
            rfl
      rw [hnone, List.flatMap_singleton, ← skip_zero c]
      exact hd
  | cons x run ih =>
      intro bound c rest hafter hall hrest hbound hd
      cases bound with
      | zero => cases hbound
      | succ n =>
          have hnext : next ok c = true := by
            unfold next
            rw [hafter]
            exact hall x List.mem_cons_self
          have hskip : (c.skip 1).after = run ++ rest := after_skip_one hafter
          rw [atMost, steps_char, hnext, if_pos rfl, if_pos rfl, List.flatMap_singleton,
            List.flatMap_append, List.head?_append,
            ih hskip (fun z hz => hall z (List.mem_cons_of_mem x hz)) hrest
              (Nat.le_of_succ_le_succ hbound) (by rwa [skip_skip, Nat.add_comm])]
          rfl

/-- Every bounded repetition goes over characters of the class. -/
theorem mem_atMost {ok : Char → Bool} {greedy : Bool} : ∀ {bound : Nat} {c d : Cursor},
    d ∈ atMost (steps (.char ok)) greedy bound c →
      ∃ k ≤ bound, d = c.skip k ∧ k ≤ c.after.length ∧ ∀ x ∈ c.after.take k, ok x = true := by
  intro bound
  induction bound with
  | zero =>
      intro c d h
      rw [atMost, List.mem_singleton] at h
      exact ⟨0, Nat.le_refl _, by rw [h, skip_zero], Nat.zero_le _, by simp⟩
  | succ n ih =>
      intro c d h
      have hmem : (next ok c = true ∧ d ∈ atMost (steps (.char ok)) greedy n (c.skip 1)) ∨
          d = c := by
        rw [atMost, steps_char] at h
        by_cases hnext : next ok c = true
        · rw [if_pos hnext, List.flatMap_singleton] at h
          split at h
          · rcases List.mem_append.1 h with h | h
            · exact .inl ⟨hnext, h⟩
            · exact .inr (List.mem_singleton.1 h)
          · rcases List.mem_cons.1 h with h | h
            · exact .inr h
            · exact .inl ⟨hnext, h⟩
        · rw [if_neg hnext, List.flatMap_nil] at h
          split at h
          · exact .inr (by simpa using h)
          · exact .inr (by simpa using h)
      rcases hmem with ⟨hnext, hmem⟩ | rfl
      · obtain ⟨k, hbound, hk, hlength, hall⟩ := ih hmem
        exact ⟨1 + k, by omega, by rw [hk, skip_skip], run_succ hnext hlength hall⟩
      · exact ⟨0, Nat.zero_le _, by rw [skip_zero], Nat.zero_le _, by simp⟩

theorem times_one (step : Cursor → List Cursor) (c : Cursor) : times step 1 c = step c := by
  rw [times]
  exact List.flatMap_singleton' _

theorem steps_star (ok : Char → Bool) (greedy : Bool) (c : Cursor) :
    steps (.rep (.char ok) 0 none greedy) c = many (steps (.char ok)) greedy c.after c := by
  rw [steps, times, List.flatMap_singleton]

theorem steps_plus (ok : Char → Bool) (greedy : Bool) (c : Cursor) :
    steps (.rep (.char ok) 1 none greedy) c =
      if next ok c then many (steps (.char ok)) greedy (c.skip 1).after (c.skip 1) else [] := by
  rw [steps, times_one, steps_char]
  split
  · rw [List.flatMap_singleton]
  · rfl

theorem steps_between (ok : Char → Bool) (hi : Nat) (c : Cursor) :
    steps (between 1 hi (.char ok)) c =
      if next ok c then atMost (steps (.char ok)) true (hi - 1) (c.skip 1) else [] := by
  rw [between, steps, times_one, steps_char]
  split
  · rw [List.flatMap_singleton]
  · rfl

theorem next_of_after {ok : Char → Bool} {c : Cursor} {x : Char} {rest : List Char}
    (h : c.after = x :: rest) : next ok c = ok x := by
  rw [next, h]
  rfl

theorem after_skip {c : Cursor} {run rest : List Char} (h : c.after = run ++ rest) :
    (c.skip run.length).after = rest := by
  rw [Cursor.skip, h]
  exact List.drop_left

/-- **`[…]+` that takes a whole run.** -/
theorem head?_plus_greedy {ok : Char → Bool} {f : Cursor → List Cursor} {d c : Cursor}
    {run rest : List Char} (hafter : c.after = run ++ rest) (hne : run ≠ [])
    (hall : ∀ x ∈ run, ok x = true) (hrest : rest.head?.any ok = false)
    (hd : (f (c.skip run.length)).head? = some d) :
    ((steps (plus (.char ok)) c).flatMap f).head? = some d := by
  cases run with
  | nil => exact absurd rfl hne
  | cons x run =>
      have hskip : (c.skip 1).after = run ++ rest := after_skip_one hafter
      rw [plus, steps_plus, next_of_after hafter, if_pos (hall x List.mem_cons_self)]
      refine head?_many_greedy hskip (fun z hz => hall z (List.mem_cons_of_mem x hz)) hrest ?_ ?_
      · rw [hskip, List.length_append]
        omega
      · rwa [skip_skip, Nat.add_comm]

/-- **`[…]+?` that stops where the continuation accepts for the first time.** -/
theorem head?_plus_lazy {ok : Char → Bool} {f : Cursor → List Cursor} {d c : Cursor}
    {run rest : List Char} (hafter : c.after = run ++ rest) (hne : run ≠ [])
    (hall : ∀ x ∈ run, ok x = true) (hfail : ∀ k, 1 ≤ k → k < run.length → f (c.skip k) = [])
    (hd : (f (c.skip run.length)).head? = some d) :
    ((steps (plusLazy (.char ok)) c).flatMap f).head? = some d := by
  cases run with
  | nil => exact absurd rfl hne
  | cons x run =>
      have hskip : (c.skip 1).after = run ++ rest := after_skip_one hafter
      rw [plusLazy, steps_plus, next_of_after hafter, if_pos (hall x List.mem_cons_self)]
      refine head?_many_lazy hskip (fun z hz => hall z (List.mem_cons_of_mem x hz)) ?_ ?_ ?_
      · intro k hk
        rw [skip_skip]
        exact hfail (1 + k) (by omega) (by rw [List.length_cons]; omega)
      · rw [hskip, List.length_append]
        omega
      · rwa [skip_skip, Nat.add_comm]

/-- **`[…]{1,hi}` that takes a whole run.** -/
theorem head?_between {ok : Char → Bool} {f : Cursor → List Cursor} {d c : Cursor} {hi : Nat}
    (run : List Char) {rest : List Char} (hafter : c.after = run ++ rest) (hne : run ≠ [])
    (hall : ∀ x ∈ run, ok x = true) (hrest : rest.head?.any ok = false) (hhi : run.length ≤ hi)
    (hd : (f (c.skip run.length)).head? = some d) :
    ((steps (between 1 hi (.char ok)) c).flatMap f).head? = some d := by
  cases run with
  | nil => exact absurd rfl hne
  | cons x run =>
      have hskip : (c.skip 1).after = run ++ rest := after_skip_one hafter
      rw [List.length_cons] at hhi
      rw [steps_between, next_of_after hafter, if_pos (hall x List.mem_cons_self)]
      refine head?_atMost_greedy hskip (fun z hz => hall z (List.mem_cons_of_mem x hz)) hrest ?_ ?_
      · omega
      · rwa [skip_skip, Nat.add_comm]

/-- `[…]+` goes over at least one character, and only over those of the class. -/
theorem mem_plus {ok : Char → Bool} {greedy : Bool} {c d : Cursor}
    (h : d ∈ steps (.rep (.char ok) 1 none greedy) c) :
    next ok c = true ∧ ∃ k, d = c.skip (1 + k) := by
  rw [steps_plus] at h
  split at h
  · next hnext =>
      obtain ⟨k, hk, -, -⟩ := mem_many h
      exact ⟨hnext, k, by rw [hk, skip_skip]⟩
  · cases h

/-- `[…]{1,hi}` goes over one to `hi` characters of the class. -/
theorem mem_between {ok : Char → Bool} {hi : Nat} {c d : Cursor} (hhi : 1 ≤ hi)
    (h : d ∈ steps (between 1 hi (.char ok)) c) :
    ∃ k, 1 ≤ k ∧ k ≤ hi ∧ d = c.skip k ∧ k ≤ c.after.length ∧
      ∀ x ∈ c.after.take k, ok x = true := by
  rw [steps_between] at h
  split at h
  · next hnext =>
      obtain ⟨k, hbound, hk, hlength, hall⟩ := mem_atMost h
      exact ⟨1 + k, by omega, by omega, by rw [hk, skip_skip], run_succ hnext hlength hall⟩
  · cases h

/-! ## §4. Going through a text. -/

/-- Where nothing matches, the search goes on one character later. -/
theorem findFrom_of_none {r : Regex} {fuel : List Char} {offset : Nat} {before : List Char}
    {x : Char} {rest : List Char}
    (h : steps r { offset, before, after := x :: rest } = []) :
    findFrom r fuel offset before (x :: rest) = findFrom r fuel (offset + 1) (x :: before) rest := by
  cases fuel with
  | nil => rfl
  | cons y fuel =>
      have hsearch : searchFrom r offset before (x :: rest) =
          searchFrom r (offset + 1) (x :: before) rest := by
        rw [searchFrom, h]
        rfl
      rw [findFrom, findFrom, hsearch]

theorem findFrom_nil {r : Regex} {fuel : List Char} {offset : Nat} {before : List Char}
    (h : steps r { offset, before, after := [] } = []) : findFrom r fuel offset before [] = [] := by
  cases fuel with
  | nil => rfl
  | cons y fuel =>
      have hsearch : searchFrom r offset before [] = none := by
        rw [searchFrom, h]
        rfl
      rw [findFrom, hsearch]

/-- A match is found, and the search goes on where it ends. -/
theorem findFrom_of_match {r : Regex} {y : Char} {fuel : List Char} {offset : Nat}
    {before after : List Char} {d : Cursor}
    (h : (steps r { offset, before, after }).head? = some d) (hlonger : offset < d.offset) :
    findFrom r (y :: fuel) offset before after =
      ⟨{ offset, before, after }, d⟩ :: findFrom r fuel d.offset d.before d.after := by
  have hsearch : searchFrom r offset before after = some ⟨{ offset, before, after }, d⟩ := by
    cases after with
    | nil =>
        rw [searchFrom, h]
        rfl
    | cons x rest => rw [searchFrom, h]
  rw [findFrom, hsearch]
  simp only
  rw [if_pos hlonger]

end Regex

end Rpy.Foundation

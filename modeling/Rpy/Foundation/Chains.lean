/-
  Rpy.Foundation.Chains
  ─────────────────────
  **DIGITS WITH AT MOST ONE SEPARATOR BETWEEN THEM.**

  The pattern `(?<!\d)(?:\d[sep]?){n,}\d(?!\d)` is greedy, so a match is all
  of a chain of digits, however far it goes on: a match ends where neither a
  digit nor a separator with a digit follows.

    • `Spaced`         — a text of digits, at most one separator between two,
    • `continues`      — a text that begins with a digit, or one separator
                         and a digit,
    • `StandsAlone`    — a chain that continues on no side,
    • `mem_chains_iff` — the matches are the chains that stand alone.
-/
import Rpy.Foundation.Regex

namespace Rpy.Foundation

/-! ## §1. Chains. -/

/-- A text of these digits in order, at most one separator between two of them. -/
inductive Spaced (sep : Char → Bool) : List Char → List Char → Prop where
  | one (d : Char) : Spaced sep [d] [d]
  | adjacent (d : Char) {e : Char} {ds tok : List Char} (h : Spaced sep (e :: ds) tok) :
      Spaced sep (d :: e :: ds) (d :: tok)
  | apart (d : Char) {s e : Char} {ds tok : List Char} (hs : sep s = true)
      (h : Spaced sep (e :: ds) tok) : Spaced sep (d :: e :: ds) (d :: s :: tok)

/-- Does a text go on with a digit, at once or after one separator? -/
def continues (digit sep : Char → Bool) : List Char → Bool
  | [] => false
  | c :: cs => digit c || (sep c && cs.head?.any digit)

/-- All of a chain of digits of a text. -/
def StandsAlone (digit sep : Char → Bool) (ds text : List Char) : Prop :=
  ∃ before tok after, text = before ++ tok ++ after ∧ Spaced sep ds tok ∧
    (∀ d ∈ ds, digit d = true) ∧ continues digit sep before.reverse = false ∧
    continues digit sep after = false

section Chains

variable {digit sep : Char → Bool}

theorem Spaced.ne_nil {ds tok : List Char} (h : Spaced sep ds tok) : ds ≠ [] := by
  cases h <;> exact List.cons_ne_nil _ _

theorem Spaced.length_le {ds tok : List Char} (h : Spaced sep ds tok) :
    ds.length ≤ tok.length := by
  induction h with
  | one d => exact Nat.le_refl _
  | adjacent d _ ih => exact Nat.succ_le_succ ih
  | apart d _ _ ih =>
      simp only [List.length_cons] at ih ⊢
      omega

/-- A chain begins with its first digit. -/
theorem Spaced.head {d : Char} {ds tok : List Char} (h : Spaced sep (d :: ds) tok) :
    ∃ rest, tok = d :: rest := by
  cases h with
  | one => exact ⟨[], rfl⟩
  | adjacent _ h => exact ⟨_, rfl⟩
  | apart _ _ h => exact ⟨_, rfl⟩

theorem Spaced.head_digit {ds tok : List Char} (h : Spaced sep ds tok)
    (hdigits : ∀ d ∈ ds, digit d = true) (rest : List Char) :
    (tok ++ rest).head?.any digit = true := by
  obtain _ | ⟨d, ds⟩ := ds
  · exact absurd rfl h.ne_nil
  obtain ⟨tail, rfl⟩ := h.head
  exact hdigits d List.mem_cons_self

/-- What is left of a chain without its separators. -/
theorem Spaced.filter {ds tok : List Char} (h : Spaced sep ds tok)
    (hdigits : ∀ d ∈ ds, digit d = true) (hsep : ∀ c, sep c = true → digit c = false) :
    tok.filter digit = ds := by
  induction h with
  | one d => rw [List.filter_cons_of_pos (hdigits d List.mem_cons_self), List.filter_nil]
  | adjacent d _ ih =>
      rw [List.filter_cons_of_pos (hdigits d List.mem_cons_self),
        ih fun e he => hdigits e (List.mem_cons_of_mem _ he)]
  | apart d hs _ ih =>
      rw [List.filter_cons_of_pos (hdigits d List.mem_cons_self),
        List.filter_cons_of_neg (by simp [hsep _ hs]),
        ih fun e he => hdigits e (List.mem_cons_of_mem _ he)]

theorem continues_of_head {cs : List Char} (h : cs.head?.any digit = true) :
    continues digit sep cs = true := by
  obtain _ | ⟨c, cs⟩ := cs
  · cases h
  · have hc : digit c = true := h
    simp [continues, hc]

theorem head_of_not_continues {cs : List Char} (h : continues digit sep cs = false) :
    cs.head?.any digit = false := by
  refine Bool.eq_false_iff.2 fun hhead => ?_
  rw [continues_of_head hhead] at h
  cases h

/-- A text that goes on still does when more follows. -/
theorem continues_append {cs : List Char} (h : continues digit sep cs = true) (more : List Char) :
    continues digit sep (cs ++ more) = true := by
  obtain _ | ⟨c, _ | ⟨d, cs⟩⟩ := cs
  · cases h
  · have hc : digit c = true := by simpa [continues] using h
    simp [continues, hc]
  · exact h

/-- Where a chain is cut before a digit, what is before the cut goes on. -/
theorem Spaced.continues_of_cut {ds tok : List Char} (h : Spaced sep ds tok)
    (hdigits : ∀ d ∈ ds, digit d = true) : ∀ {front back : List Char}, tok = front ++ back →
      front ≠ [] → back.head?.any digit = true → continues digit sep front.reverse = true := by
  induction h with
  | one d =>
      intro front back htok hfront hback
      obtain _ | ⟨c, front⟩ := front
      · exact absurd rfl hfront
      · obtain ⟨-, hnil⟩ := List.cons.inj htok
        obtain ⟨rfl, rfl⟩ := List.append_eq_nil_iff.1 hnil.symm
        cases hback
  | @adjacent d e ds tok h ih =>
      intro front back htok hfront hback
      obtain _ | ⟨c, front⟩ := front
      · exact absurd rfl hfront
      obtain ⟨rfl, hrest⟩ := List.cons.inj htok
      by_cases hmore : front = []
      · subst hmore
        exact continues_of_head (hdigits d List.mem_cons_self)
      · rw [List.reverse_cons]
        exact continues_append
          (ih (fun e he => hdigits e (List.mem_cons_of_mem _ he)) hrest hmore hback) _
  | @apart d s e ds tok hs h ih =>
      intro front back htok hfront hback
      obtain _ | ⟨c, front⟩ := front
      · exact absurd rfl hfront
      obtain ⟨rfl, hrest⟩ := List.cons.inj htok
      have hd : digit d = true := hdigits d List.mem_cons_self
      obtain _ | ⟨c, front⟩ := front
      · exact continues_of_head hd
      obtain ⟨rfl, htail⟩ := List.cons.inj hrest
      by_cases hmore : front = []
      · subst hmore
        simp [continues, hs, hd]
      · rw [List.reverse_cons, List.reverse_cons, List.append_assoc]
        exact continues_append
          (ih (fun e he => hdigits e (List.mem_cons_of_mem _ he)) htail hmore hback) _

variable (sep) in
/-- At a digit a chain begins, and it ends somewhere. -/
theorem exists_chain : ∀ {cs : List Char}, cs.head?.any digit = true →
    ∃ ds tok rest, cs = tok ++ rest ∧ Spaced sep ds tok ∧ (∀ d ∈ ds, digit d = true) ∧
      continues digit sep rest = false := by
  intro cs
  induction hn : cs.length using Nat.strongRecOn generalizing cs with
  | ind n ih =>
      intro hhead
      obtain _ | ⟨d, cs⟩ := cs
      · cases hhead
      have hd : digit d = true := hhead
      rw [List.length_cons] at hn
      by_cases hnext : cs.head?.any digit = true
      · obtain ⟨ds, tok, rest, rfl, hspaced, hdigits, hrest⟩ := ih _ (by omega) rfl hnext
        obtain _ | ⟨e, ds⟩ := ds
        · exact absurd rfl hspaced.ne_nil
        exact ⟨d :: e :: ds, d :: tok, rest, rfl, .adjacent d hspaced,
          List.forall_mem_cons.2 ⟨hd, hdigits⟩, hrest⟩
      by_cases hlater : continues digit sep cs = true
      · obtain _ | ⟨s, cs⟩ := cs
        · cases hlater
        have hs : digit s = false := by simpa using hnext
        have hsep : sep s = true ∧ cs.head?.any digit = true := by
          simpa [continues, hs] using hlater
        rw [List.length_cons] at hn
        obtain ⟨ds, tok, rest, rfl, hspaced, hdigits, hrest⟩ := ih _ (by omega) rfl hsep.2
        obtain _ | ⟨e, ds⟩ := ds
        · exact absurd rfl hspaced.ne_nil
        exact ⟨d :: e :: ds, d :: s :: tok, rest, rfl, .apart d hsep.1 hspaced,
          List.forall_mem_cons.2 ⟨hd, hdigits⟩, hrest⟩
      · exact ⟨[d], [d], cs, rfl, .one d, List.forall_mem_cons.2 ⟨hd, List.forall_mem_nil _⟩,
          by simpa using hlater⟩

/-- A chain ends with a digit. -/
theorem Spaced.getLast_digit {ds tok : List Char} (h : Spaced sep ds tok)
    (hdigits : ∀ d ∈ ds, digit d = true) : tok.getLast?.any digit = true := by
  induction h with
  | one d => exact hdigits d List.mem_cons_self
  | adjacent d h ih =>
      obtain ⟨rest, rfl⟩ := h.head
      exact ih fun x hx => hdigits x (List.mem_cons_of_mem _ hx)
  | apart d hs h ih =>
      obtain ⟨rest, rfl⟩ := h.head
      exact ih fun x hx => hdigits x (List.mem_cons_of_mem _ hx)

/-- Where a chain is cut after a digit, what is after the cut goes on. -/
theorem Spaced.continues_after_cut (hsep : ∀ c, sep c = true → digit c = false)
    {ds tok : List Char} (h : Spaced sep ds tok) (hdigits : ∀ d ∈ ds, digit d = true)
    (more : List Char) : ∀ {front back : List Char}, tok = front ++ back →
      front.getLast?.any digit = true → back ≠ [] →
        continues digit sep (back ++ more) = true := by
  induction h with
  | one d =>
      intro front back htok hfront hback
      obtain _ | ⟨c, front⟩ := front
      · cases hfront
      · obtain ⟨-, hnil⟩ := List.cons.inj htok
        exact absurd (List.append_eq_nil_iff.1 hnil.symm).2 hback
  | adjacent d h ih =>
      intro front back htok hfront hback
      have hdigits' := fun x hx => hdigits x (List.mem_cons_of_mem _ hx)
      obtain _ | ⟨c, _ | ⟨c', front⟩⟩ := front
      · cases hfront
      · obtain ⟨-, rfl⟩ := List.cons.inj htok
        exact continues_of_head (h.head_digit hdigits' more)
      · exact ih hdigits' (List.cons.inj htok).2 hfront hback
  | @apart d s e ds tok hs h ih =>
      intro front back htok hfront hback
      have hdigits' := fun x hx => hdigits x (List.mem_cons_of_mem _ hx)
      obtain _ | ⟨c, _ | ⟨c', _ | ⟨c'', front⟩⟩⟩ := front
      · cases hfront
      · obtain ⟨-, rfl⟩ := List.cons.inj htok
        have hhead := h.head_digit hdigits' more
        show (digit s || (sep s && (tok ++ more).head?.any digit)) = true
        rw [hs, hhead, Bool.and_self, Bool.or_true]
      · obtain ⟨-, htail⟩ := List.cons.inj htok
        obtain ⟨rfl, -⟩ := List.cons.inj htail
        have hlast : digit s = true := hfront
        rw [hsep s hs] at hlast
        cases hlast
      · exact ih hdigits' (List.cons.inj (List.cons.inj htok).2).2 hfront hback

/-- What is left of a chain from a digit on is a chain. -/
theorem Spaced.from_digit (hsep : ∀ c, sep c = true → digit c = false) {ds tok : List Char}
    (h : Spaced sep ds tok) : ∀ {front back : List Char}, tok = front ++ back →
      back.head?.any digit = true → ∃ es, Spaced sep es back ∧ es <:+ ds := by
  induction h with
  | one d =>
      intro front back htok hback
      obtain _ | ⟨c, front⟩ := front
      · obtain rfl : [d] = back := htok
        exact ⟨[d], .one d, List.suffix_refl _⟩
      · obtain ⟨-, hnil⟩ := List.cons.inj htok
        obtain ⟨rfl, rfl⟩ := List.append_eq_nil_iff.1 hnil.symm
        cases hback
  | @adjacent d e ds tok h ih =>
      intro front back htok hback
      obtain _ | ⟨c, front⟩ := front
      · obtain rfl : d :: tok = back := htok
        exact ⟨_, .adjacent d h, List.suffix_refl _⟩
      · obtain ⟨es, hspaced, hsuffix⟩ := ih (List.cons.inj htok).2 hback
        exact ⟨es, hspaced, hsuffix.trans (List.suffix_cons _ _)⟩
  | @apart d s e ds tok hs h ih =>
      intro front back htok hback
      obtain _ | ⟨c, _ | ⟨c', front⟩⟩ := front
      · obtain rfl : d :: s :: tok = back := htok
        exact ⟨_, .apart d hs h, List.suffix_refl _⟩
      · obtain ⟨-, rfl⟩ := List.cons.inj htok
        have hdigit : digit s = true := hback
        rw [hsep s hs] at hdigit
        cases hdigit
      · obtain ⟨es, hspaced, hsuffix⟩ := ih (List.cons.inj (List.cons.inj htok).2).2 hback
        exact ⟨es, hspaced, hsuffix.trans (List.suffix_cons _ _)⟩

/-- A chain that goes on no further is the only one at its place. -/
theorem Spaced.unique (hsep : ∀ c, sep c = true → digit c = false)
    {ds es tok other rest more : List Char} (h : Spaced sep ds tok) (hother : Spaced sep es other)
    (hds : ∀ d ∈ ds, digit d = true) (hes : ∀ e ∈ es, digit e = true)
    (heq : tok ++ rest = other ++ more) (hrest : continues digit sep rest = false)
    (hmore : continues digit sep more = false) : tok = other := by
  rcases List.append_eq_append_iff.1 heq with ⟨back, rfl, rfl⟩ | ⟨back, rfl, rfl⟩
  · by_cases hback : back = []
    · rw [hback, List.append_nil]
    · have hon := hother.continues_after_cut hsep hes more rfl (h.getLast_digit hds) hback
      rw [hrest] at hon
      cases hon
  · by_cases hback : back = []
    · rw [hback, List.append_nil]
    · have hon := h.continues_after_cut hsep hds rest rfl (hother.getLast_digit hes) hback
      rw [hmore] at hon
      cases hon

end Chains

/-! ## §2. The match at a place. -/

namespace Regex

variable (digit sep : Char → Bool)

/-- `\d[sep]?` -/
def link : Regex := .seq (.char digit) (opt (.char sep))

/-- `\d(?!\d)` -/
def lastDigit : Regex := .seq (.char digit) (.ahead false (.char digit))

/-- `(?<!\d)(?:\d[sep]?){n,}\d(?!\d)` -/
def chainPattern (n : Nat) : Regex :=
  cat [.behind false digit, .rep (link digit sep) n none true, .char digit,
    .ahead false (.char digit)]

variable {digit sep} {c : Cursor}

theorem steps_opt_char (ok : Char → Bool) (c : Cursor) :
    steps (opt (.char ok)) c = if next ok c then [c.skip 1, c] else [c] := by
  rw [opt, steps, times, List.flatMap_singleton]
  show (steps (.char ok) c).flatMap (fun d => [d]) ++ [c] = _
  rw [List.flatMap_singleton', steps_char]
  split <;> rfl

/-- One link takes the separator after its digit if there is one, or leaves it. -/
theorem steps_link (c : Cursor) : steps (link digit sep) c =
    if next digit c then
      if next sep (c.skip 1) then [c.skip 2, c.skip 1] else [c.skip 1]
    else [] := by
  rw [link, steps, steps_char]
  split
  · rw [List.flatMap_singleton, steps_opt_char, skip_skip]
  · rfl

theorem steps_lastDigit (c : Cursor) : steps (lastDigit digit) c =
    if next digit c && !next digit (c.skip 1) then [c.skip 1] else [] := by
  rw [lastDigit, steps, steps_char]
  cases hnext : next digit c with
  | false => rfl
  | true =>
      rw [if_pos rfl, List.flatMap_singleton, steps, steps_char]
      cases next digit (c.skip 1) <;> rfl

/-- The ends of a match after some links. -/
def closes (digit sep : Char → Bool) (c : Cursor) : List Cursor :=
  (many (steps (link digit sep)) true c.after c).flatMap (steps (lastDigit digit))

theorem steps_chainPattern (n : Nat) (c : Cursor) : steps (chainPattern digit sep n) c =
    if c.before.head?.any digit then []
    else (times (steps (link digit sep)) n c).flatMap (closes digit sep) := by
  have hassoc : ∀ d, steps (.seq (.rep (link digit sep) n none true) (lastDigit digit)) d =
      (times (steps (link digit sep)) n d).flatMap (closes digit sep) := by
    intro d
    rw [steps, steps, List.flatMap_assoc]
    rfl
  show steps (.seq (.behind false digit)
    (.seq (.rep (link digit sep) n none true) (lastDigit digit))) c = _
  rw [steps, steps]
  cases c.before.head?.any digit with
  | true => rfl
  | false => exact (List.flatMap_singleton _ _).trans (hassoc c)

/-- Where no digit follows, nothing is matched. -/
theorem many_link_of_not_next (h : next digit c = false) (fuel : List Char) :
    many (steps (link digit sep)) true fuel c = [c] := by
  cases fuel with
  | nil => rfl
  | cons x fuel =>
      rw [many, steps_link, h]
      rfl

theorem times_closes_of_not_next (h : next digit c = false) (n : Nat) :
    (times (steps (link digit sep)) n c).flatMap (closes digit sep) = [] := by
  cases n with
  | zero =>
      rw [times, List.flatMap_singleton, closes, many_link_of_not_next h, List.flatMap_singleton,
        steps_lastDigit, h]
      rfl
  | succ n =>
      rw [times, steps_link, h]
      rfl

theorem next_skip_one {ok : Char → Bool} {d : Char} {rest : List Char}
    (h : c.after = d :: rest) : next ok (c.skip 1) = rest.head?.any ok := by
  rw [next, Cursor.skip, h]
  rfl

theorem next_skip_two {ok : Char → Bool} {d s : Char} {rest : List Char}
    (h : c.after = d :: s :: rest) : next ok (c.skip 2) = rest.head?.any ok := by
  rw [next, Cursor.skip, h]
  rfl

theorem after_skip_two {d s : Char} {rest : List Char} (h : c.after = d :: s :: rest) :
    (c.skip 2).after = rest := by
  rw [Cursor.skip, h]
  rfl

/-- After the last digit of a chain no link begins, with the separator or
without it. -/
theorem steps_link_last {d : Char} {rest : List Char} (hd : digit d = true)
    (h : c.after = d :: rest) (hrest : continues digit sep rest = false) :
    ∀ e ∈ steps (link digit sep) c, next digit e = false := by
  have hone : next digit (c.skip 1) = false ∧
      (next sep (c.skip 1) = true → next digit (c.skip 2) = false) := by
    rw [next_skip_one h, next_skip_one h]
    obtain _ | ⟨s, rest⟩ := rest
    · exact ⟨rfl, fun hsep => by cases hsep⟩
    · rw [next_skip_two h]
      simpa [continues] using hrest
  rw [steps_link, next_of_after h, if_pos hd]
  intro e he
  split at he
  · rename_i hs
    simp only [List.mem_cons, List.not_mem_nil, or_false] at he
    rcases he with rfl | rfl
    · exact hone.2 hs
    · exact hone.1
  · rw [List.mem_singleton.1 he]
    exact hone.1

/-- Between two adjacent digits there is one link. -/
theorem steps_link_adjacent (hsep : ∀ c, sep c = true → digit c = false) {d e : Char}
    {rest : List Char} (hd : digit d = true) (he : digit e = true)
    (h : c.after = d :: e :: rest) : steps (link digit sep) c = [c.skip 1] := by
  have hno : next sep (c.skip 1) = false := by
    rw [next_skip_one h]
    refine Bool.eq_false_iff.2 fun hs => ?_
    have hnot := hsep e hs
    rw [he] at hnot
    cases hnot
  rw [steps_link, next_of_after h, if_pos hd, hno]
  rfl

/-- Between two digits with a separator there are two, the longer one first. -/
theorem steps_link_apart {d s : Char} {rest : List Char} (hd : digit d = true)
    (hs : sep s = true) (h : c.after = d :: s :: rest) :
    steps (link digit sep) c = [c.skip 2, c.skip 1] := by
  have hyes : next sep (c.skip 1) = true := by
    rw [next_skip_one h]
    exact hs
  rw [steps_link, next_of_after h, if_pos hd, hyes]
  rfl

theorem many_link (c : Cursor) (x : Char) (fuel : List Char) :
    many (steps (link digit sep)) true (x :: fuel) c =
      (steps (link digit sep) c).flatMap (many (steps (link digit sep)) true fuel) ++ [c] := by
  have hlater : (steps (link digit sep) c).filter (fun d => c.offset < d.offset) =
      steps (link digit sep) c := by
    refine List.filter_eq_self.2 fun d hd => decide_eq_true ?_
    have hmem : d = c.skip 2 ∨ d = c.skip 1 := by
      rw [steps_link] at hd
      split at hd
      · split at hd
        · simpa using hd
        · exact .inr (List.mem_singleton.1 hd)
      · cases hd
    rcases hmem with rfl | rfl
    · show c.offset < c.offset + 2
      omega
    · exact Nat.lt_succ_self _
  rw [many, hlater, if_pos rfl]

theorem flatMap_head_append {f : Cursor → List Cursor} {front : List Cursor} {d : Cursor}
    (h : (front.flatMap f).head? = some d) (back : List Cursor) :
    ((front ++ back).flatMap f).head? = some d := by
  rw [List.flatMap_append, List.head?_append, h]
  rfl

/-- **A match is all of the chain at its place.** -/
theorem head?_many_link (hsep : ∀ c, sep c = true → digit c = false) {ds tok : List Char}
    (h : Spaced sep ds tok) : ∀ {rest fuel : List Char} {c : Cursor},
      (∀ d ∈ ds, digit d = true) → c.after = tok ++ rest → continues digit sep rest = false →
      ds.length ≤ fuel.length →
        ((many (steps (link digit sep)) true fuel c).flatMap (steps (lastDigit digit))).head? =
          some (c.skip tok.length) := by
  induction h with
  | one d =>
      intro rest fuel c hdigits hafter hrest hfuel
      obtain _ | ⟨x, fuel⟩ := fuel
      · cases hfuel
      have hd := hdigits d List.mem_cons_self
      have hlast : next digit (c.skip 1) = false :=
        (next_skip_one hafter).trans (head_of_not_continues hrest)
      -- no more links, so that the last digit is this one
      have hmore : ((steps (link digit sep) c).flatMap
          (many (steps (link digit sep)) true fuel)).flatMap (steps (lastDigit digit)) = [] := by
        rw [List.flatMap_assoc]
        refine List.flatMap_eq_nil_iff.2 fun e he => ?_
        have hnext := steps_link_last hd hafter hrest e he
        rw [many_link_of_not_next hnext, List.flatMap_singleton, steps_lastDigit, hnext]
        rfl
      rw [many_link, List.flatMap_append, hmore, List.flatMap_singleton, steps_lastDigit,
        next_of_after hafter, hd, hlast]
      rfl
  | @adjacent d e ds tok h ih =>
      intro rest fuel c hdigits hafter hrest hfuel
      obtain _ | ⟨x, fuel⟩ := fuel
      · cases hfuel
      have hdigits' := fun x hx => hdigits x (List.mem_cons_of_mem _ hx)
      have hrec : ((many (steps (link digit sep)) true fuel (c.skip 1)).flatMap
          (steps (lastDigit digit))).head? = _ :=
        ih hdigits' (after_skip_one hafter) hrest (Nat.le_of_succ_le_succ hfuel)
      obtain ⟨tail, rfl⟩ := h.head
      rw [skip_skip, Nat.add_comm] at hrec
      rw [many_link, steps_link_adjacent hsep (hdigits d List.mem_cons_self)
        (hdigits' e List.mem_cons_self) hafter, List.flatMap_singleton]
      exact flatMap_head_append hrec _
  | @apart d s e ds tok hs h ih =>
      intro rest fuel c hdigits hafter hrest hfuel
      obtain _ | ⟨x, fuel⟩ := fuel
      · cases hfuel
      have hrec : ((many (steps (link digit sep)) true fuel (c.skip 2)).flatMap
          (steps (lastDigit digit))).head? = _ :=
        ih (fun x hx => hdigits x (List.mem_cons_of_mem _ hx)) (after_skip_two hafter) hrest
          (Nat.le_of_succ_le_succ hfuel)
      rw [skip_skip, Nat.add_comm] at hrec
      rw [many_link, steps_link_apart (hdigits d List.mem_cons_self) hs hafter,
        List.flatMap_cons, List.append_assoc]
      exact flatMap_head_append hrec _

/-- A chain with more digits than the links that are asked for is matched. -/
theorem head?_times_link (hsep : ∀ c, sep c = true → digit c = false) {rest : List Char} :
    ∀ {n : Nat} {ds tok : List Char} {c : Cursor}, Spaced sep ds tok →
      (∀ d ∈ ds, digit d = true) → c.after = tok ++ rest → continues digit sep rest = false →
      n < ds.length →
        ((times (steps (link digit sep)) n c).flatMap (closes digit sep)).head? =
          some (c.skip tok.length) := by
  intro n
  induction n with
  | zero =>
      intro ds tok c h hdigits hafter hrest _
      rw [times, List.flatMap_singleton, closes]
      refine head?_many_link hsep h hdigits hafter hrest ?_
      have hlength := h.length_le
      rw [hafter, List.length_append]
      omega
  | succ n ih =>
      intro ds tok c h hdigits hafter hrest hn
      cases h with
      | one d => cases Nat.lt_of_succ_lt_succ hn
      | @adjacent d e ds tok h =>
          have hdigits' := fun x hx => hdigits x (List.mem_cons_of_mem _ hx)
          have hrec := ih h hdigits' (after_skip_one hafter) hrest (Nat.lt_of_succ_lt_succ hn)
          obtain ⟨tail, rfl⟩ := h.head
          rw [skip_skip, Nat.add_comm] at hrec
          rw [times, steps_link_adjacent hsep (hdigits d List.mem_cons_self)
            (hdigits' e List.mem_cons_self) hafter, List.flatMap_singleton]
          exact hrec
      | @apart d s e ds tok hs h =>
          have hrec := ih h (fun x hx => hdigits x (List.mem_cons_of_mem _ hx))
            (after_skip_two hafter) hrest (Nat.lt_of_succ_lt_succ hn)
          rw [skip_skip, Nat.add_comm] at hrec
          rw [times, steps_link_apart (hdigits d List.mem_cons_self) hs hafter,
            List.flatMap_cons]
          exact flatMap_head_append hrec _

/-- A chain with no more digits than the links that are asked for is not matched. -/
theorem times_link_eq_nil (hsep : ∀ c, sep c = true → digit c = false) {rest : List Char} :
    ∀ {n : Nat} {ds tok : List Char} {c : Cursor}, Spaced sep ds tok →
      (∀ d ∈ ds, digit d = true) → c.after = tok ++ rest → continues digit sep rest = false →
      ds.length ≤ n →
        (times (steps (link digit sep)) n c).flatMap (closes digit sep) = [] := by
  intro n
  induction n with
  | zero =>
      intro ds tok c h _ _ _ hn
      exact absurd (List.length_eq_zero_iff.1 (Nat.le_zero.1 hn)) h.ne_nil
  | succ n ih =>
      intro ds tok c h hdigits hafter hrest hn
      cases h with
      | one d =>
          have hlast := steps_link_last (hdigits d List.mem_cons_self) hafter hrest
          rw [times, List.flatMap_assoc]
          exact List.flatMap_eq_nil_iff.2 fun e he => times_closes_of_not_next (hlast e he) n
      | @adjacent d e ds tok h =>
          have hdigits' := fun x hx => hdigits x (List.mem_cons_of_mem _ hx)
          have hrec := ih h hdigits' (after_skip_one hafter) hrest (Nat.le_of_succ_le_succ hn)
          obtain ⟨tail, rfl⟩ := h.head
          rw [times, steps_link_adjacent hsep (hdigits d List.mem_cons_self)
            (hdigits' e List.mem_cons_self) hafter, List.flatMap_singleton]
          exact hrec
      | @apart d s e ds tok hs h =>
          have hrec := ih h (fun x hx => hdigits x (List.mem_cons_of_mem _ hx))
            (after_skip_two hafter) hrest (Nat.le_of_succ_le_succ hn)
          have hno : next digit (c.skip 1) = false := by
            rw [next_skip_one hafter]
            exact hsep s hs
          rw [times, steps_link_apart (hdigits d List.mem_cons_self) hs hafter,
            List.flatMap_cons, List.flatMap_singleton, List.flatMap_append, hrec,
            times_closes_of_not_next hno]
          rfl

/-- A chain that goes on on no side is matched, all of it. -/
theorem steps_chain (hsep : ∀ c, sep c = true → digit c = false) {n : Nat}
    {ds tok rest : List Char} (h : Spaced sep ds tok) (hdigits : ∀ d ∈ ds, digit d = true)
    (hafter : c.after = tok ++ rest) (hbefore : continues digit sep c.before = false)
    (hrest : continues digit sep rest = false) (hn : n < ds.length) :
    (steps (chainPattern digit sep n) c).head? = some (c.skip tok.length) := by
  rw [steps_chainPattern, head_of_not_continues hbefore, if_neg Bool.false_ne_true]
  exact head?_times_link hsep h hdigits hafter hrest hn

theorem steps_of_not_next (n : Nat) (h : next digit c = false) :
    steps (chainPattern digit sep n) c = [] := by
  rw [steps_chainPattern, times_closes_of_not_next h]
  exact ite_self _

/-- In a chain with too few digits nothing is matched. -/
theorem steps_in_chain (hsep : ∀ c, sep c = true → digit c = false) {n : Nat}
    {ds tok rest : List Char} (h : Spaced sep ds tok) (hdigits : ∀ d ∈ ds, digit d = true)
    (hafter : c.after = tok ++ rest) (hrest : continues digit sep rest = false)
    (hn : ds.length ≤ n) {k : Nat} (hk : k < tok.length) :
    steps (chainPattern digit sep n) (c.skip k) = [] := by
  have hdrop : (c.skip k).after = tok.drop k ++ rest := by
    rw [Cursor.skip, hafter]
    exact List.drop_append_of_le_length (Nat.le_of_lt hk)
  by_cases hnext : next digit (c.skip k) = true
  · have hhead : (tok.drop k).head?.any digit = true := by
      rw [next, hdrop] at hnext
      have hne : tok.drop k ≠ [] := fun hnil => by
        have hlength := List.drop_eq_nil_iff.1 hnil
        omega
      obtain ⟨x, xs, hx⟩ := List.exists_cons_of_ne_nil hne
      rw [hx] at hnext ⊢
      exact hnext
    obtain ⟨es, hspaced, hsuffix⟩ :=
      h.from_digit hsep (List.take_append_drop k tok).symm hhead
    rw [steps_chainPattern, times_link_eq_nil hsep hspaced
      (fun e he => hdigits e (hsuffix.subset he)) hdrop hrest
      (Nat.le_trans hsuffix.length_le hn)]
    exact ite_self _
  · exact steps_of_not_next n (by simpa using hnext)

/-! ## §3. The matches of a text. -/

/-- Where nothing matches, the search goes on. -/
theorem findFrom_skip {r : Regex} {fuel after : List Char} : ∀ {run : List Char} {offset : Nat}
    {before : List Char},
      (∀ k < run.length, steps r (Cursor.skip { offset, before, after := run ++ after } k) = []) →
        findFrom r fuel offset before (run ++ after) =
          findFrom r fuel (offset + run.length) (run.reverse ++ before) after := by
  intro run
  induction run with
  | nil =>
      intro offset before _
      rfl
  | cons x run ih =>
      intro offset before h
      have hfirst := h 0 (Nat.succ_pos _)
      rw [skip_zero] at hfirst
      have hstep : findFrom r fuel offset before (x :: (run ++ after)) =
          findFrom r fuel (offset + 1) (x :: before) (run ++ after) := findFrom_of_none hfirst
      rw [List.cons_append, hstep, ih fun k hk => ?_]
      · rw [List.reverse_cons, List.append_assoc, List.length_cons, Nat.add_assoc, Nat.add_comm 1]
        rfl
      · have hlater := h (1 + k) (by rw [List.length_cons]; omega)
        rw [← skip_skip] at hlater
        exact hlater

/-- No chain goes over a cut: what is before it reversed, what is after it not. -/
def Clear (digit sep : Char → Bool) (before after : List Char) : Prop :=
  (before.head?.any digit = true → continues digit sep after = false) ∧
    (after.head?.any digit = true → continues digit sep before = false)

theorem clear_nil (after : List Char) : Clear digit sep [] after :=
  ⟨fun h => (by cases h), fun _ => rfl⟩

/-- A character that is no digit leaves no chain across. -/
theorem Clear.gap {x : Char} {before after : List Char}
    (h : Clear digit sep before (x :: after)) (hx : digit x = false) :
    Clear digit sep (x :: before) after := by
  refine ⟨fun hhead => ?_, fun hhead => ?_⟩
  · have hdigit : digit x = true := hhead
    rw [hx] at hdigit
    cases hdigit
  · show (digit x || (sep x && before.head?.any digit)) = false
    rw [hx, Bool.false_or]
    refine Bool.eq_false_iff.2 fun hboth => ?_
    obtain ⟨hs, hbefore⟩ := Bool.and_eq_true_iff.1 hboth
    have hon : (digit x || (sep x && after.head?.any digit)) = false := h.1 hbefore
    rw [hs, hhead, Bool.and_self, Bool.or_true] at hon
    cases hon

/-- **A text is gone through chain by chain.** -/
theorem clear_induction {motive : List Char → List Char → Prop}
    (nil : ∀ before, motive before [])
    (gap : ∀ before x after, digit x = false → motive (x :: before) after →
      motive before (x :: after))
    (chain : ∀ before ds tok after, Spaced sep ds tok → (∀ d ∈ ds, digit d = true) →
      continues digit sep before = false → continues digit sep after = false →
      motive (tok.reverse ++ before) after → motive before (tok ++ after))
    {before after : List Char} (h : Clear digit sep before after) : motive before after := by
  induction hn : after.length using Nat.strongRecOn generalizing before after with
  | ind n ih =>
      obtain _ | ⟨x, after⟩ := after
      · exact nil before
      by_cases hx : digit x = true
      · have hhead : (x :: after).head?.any digit = true := hx
        obtain ⟨ds, tok, rest, heq, hspaced, hdigits, hrest⟩ := exists_chain sep hhead
        rw [heq] at h hn hhead ⊢
        have hlength := hspaced.length_le
        have hne := List.length_pos_iff.2 hspaced.ne_nil
        rw [List.length_append] at hn
        have hclear : Clear digit sep (tok.reverse ++ before) rest := by
          refine ⟨fun _ => hrest, fun hon => ?_⟩
          rw [head_of_not_continues hrest] at hon
          cases hon
        exact chain before ds tok rest hspaced hdigits (h.2 hhead) hrest
          (ih _ (by omega) hclear rfl)
      · have hfalse : digit x = false := by simpa using hx
        rw [List.length_cons] at hn
        exact gap before x after hfalse (ih _ (by omega) (h.gap hfalse) rfl)

/-- A chain of a text that goes on on no side, with what is before the text
reversed. -/
def ChainIn (digit sep : Char → Bool) (before after ds tok : List Char) : Prop :=
  ∃ front back, after = front ++ tok ++ back ∧ Spaced sep ds tok ∧
    (∀ d ∈ ds, digit d = true) ∧ continues digit sep (front.reverse ++ before) = false ∧
    continues digit sep back = false

theorem ChainIn.later {run before after ds tok : List Char}
    (h : ChainIn digit sep (run.reverse ++ before) after ds tok) :
    ChainIn digit sep before (run ++ after) ds tok := by
  obtain ⟨front, back, rfl, hspaced, hdigits, hfront, hback⟩ := h
  refine ⟨run ++ front, back, by simp only [List.append_assoc], hspaced, hdigits, ?_, hback⟩
  rw [List.reverse_append, List.append_assoc]
  exact hfront

theorem text_skip (c : Cursor) (k : Nat) :
    (Match.mk c (c.skip k)).text = c.after.take k := by
  show c.after.take (c.offset + k - c.offset) = _
  rw [Nat.add_sub_cancel_left]

/-- The match of a chain, and what is found after it. -/
theorem findFrom_chain (hsep : ∀ c, sep c = true → digit c = false) {n : Nat}
    {before ds tok after : List Char} (h : Spaced sep ds tok)
    (hdigits : ∀ d ∈ ds, digit d = true) (hbefore : continues digit sep before = false)
    (hafter : continues digit sep after = false) (hn : n < ds.length) (y : Char)
    (fuel : List Char) (offset : Nat) :
    ∃ m : Match, m.text = tok ∧
      findFrom (chainPattern digit sep n) (y :: fuel) offset before (tok ++ after) =
        m :: findFrom (chainPattern digit sep n) fuel (offset + tok.length)
          (tok.reverse ++ before) after := by
  let c : Cursor := { offset, before, after := tok ++ after }
  have hsteps := steps_chain (c := c) hsep h hdigits rfl hbefore hafter hn
  have hlonger : offset < offset + tok.length := by
    have hlength := h.length_le
    have hpos := List.length_pos_iff.2 h.ne_nil
    omega
  refine ⟨⟨c, c.skip tok.length⟩, ?_, (findFrom_of_match hsteps hlonger).trans ?_⟩
  · rw [text_skip]
    exact List.take_left
  · simp only [c, Cursor.skip, List.take_left, List.drop_left]

/-- **A match is a chain that goes on on no side.** -/
theorem findFrom_sound (hsep : ∀ c, sep c = true → digit c = false) {n : Nat}
    {before after : List Char} (h : Clear digit sep before after) :
    ∀ {fuel : List Char} {offset : Nat},
      ∀ m ∈ findFrom (chainPattern digit sep n) fuel offset before after,
        ∃ ds, n < ds.length ∧ ChainIn digit sep before after ds m.text := by
  refine clear_induction (motive := fun before after => ∀ {fuel : List Char} {offset : Nat},
      ∀ m ∈ findFrom (chainPattern digit sep n) fuel offset before after,
        ∃ ds, n < ds.length ∧ ChainIn digit sep before after ds m.text) ?_ ?_ ?_ h
  · intro before fuel offset m hm
    rw [findFrom_nil (steps_of_not_next n rfl)] at hm
    cases hm
  · intro before x after hx ih fuel offset m hm
    rw [findFrom_of_none (steps_of_not_next n hx)] at hm
    obtain ⟨ds, hn, hchain⟩ := ih m hm
    exact ⟨ds, hn, ChainIn.later (show ChainIn digit sep ([x].reverse ++ before) _ _ _ from hchain)⟩
  · intro before ds tok after hspaced hdigits hbefore hafter ih fuel offset m hm
    by_cases hn : n < ds.length
    · obtain _ | ⟨y, fuel⟩ := fuel
      · cases hm
      obtain ⟨match', htext, heq⟩ :=
        findFrom_chain hsep hspaced hdigits hbefore hafter hn y fuel offset
      rw [heq] at hm
      rcases List.mem_cons.1 hm with rfl | hm
      · exact ⟨ds, hn, [], after, by rw [htext]; rfl, htext ▸ hspaced, hdigits, hbefore, hafter⟩
      · obtain ⟨es, hes, hchain⟩ := ih m hm
        exact ⟨es, hes, hchain.later⟩
    · rw [findFrom_skip fun k hk => steps_in_chain hsep hspaced hdigits rfl hafter
        (Nat.le_of_not_lt hn) hk] at hm
      obtain ⟨es, hes, hchain⟩ := ih m hm
      exact ⟨es, hes, hchain.later⟩

/-- What a chain is not the first of, it comes after. -/
theorem ChainIn.after_gap {x : Char} {before after ds tok : List Char} (hx : digit x = false)
    (h : ChainIn digit sep before (x :: after) ds tok) :
    ChainIn digit sep (x :: before) after ds tok := by
  obtain ⟨front, back, heq, hspaced, hdigits, hfront, hback⟩ := h
  obtain _ | ⟨y, front⟩ := front
  · have hhead := hspaced.head_digit hdigits back
    have heq' : x :: after = tok ++ back := heq
    rw [← heq'] at hhead
    exact absurd (hx.symm.trans hhead) (by decide)
  · obtain ⟨rfl, rfl⟩ := List.cons.inj heq
    refine ⟨front, back, rfl, hspaced, hdigits, ?_, hback⟩
    rw [List.reverse_cons, List.append_assoc] at hfront
    exact hfront

theorem ChainIn.after_chain (hsep : ∀ c, sep c = true → digit c = false)
    {before es other after ds tok : List Char} (hother : Spaced sep es other)
    (hes : ∀ e ∈ es, digit e = true) (hafter : continues digit sep after = false)
    (h : ChainIn digit sep before (other ++ after) ds tok) :
    (ds = es ∧ tok = other) ∨ ChainIn digit sep (other.reverse ++ before) after ds tok := by
  obtain ⟨front, back, heq, hspaced, hdigits, hfront, hback⟩ := h
  by_cases hnil : front = []
  · subst hnil
    have heq' : tok ++ back = other ++ after := heq.symm
    have htok := hspaced.unique hsep hother hdigits hes heq' hback hafter
    refine .inl ⟨?_, htok⟩
    rw [← hspaced.filter hdigits hsep, ← hother.filter hes hsep, htok]
  · refine .inr ?_
    rw [List.append_assoc] at heq
    rcases List.append_eq_append_iff.1 heq with ⟨more, rfl, rfl⟩ | ⟨more, rfl, hmore⟩
    · refine ⟨more, back, by rw [List.append_assoc], hspaced, hdigits, ?_, hback⟩
      rw [List.reverse_append, List.append_assoc] at hfront
      exact hfront
    · by_cases hempty : more = []
      · subst hempty
        rw [List.append_nil]
        exact ⟨[], back, hmore.symm, hspaced, hdigits, hfront, hback⟩
      · -- the other chain would be cut before the first digit of this one
        have hhead := hspaced.head_digit hdigits back
        rw [hmore] at hhead
        obtain ⟨y, more, rfl⟩ := List.exists_cons_of_ne_nil hempty
        have hon := hother.continues_of_cut hes rfl hnil hhead
        rw [continues_append hon] at hfront
        cases hfront

/-- **Such a chain is matched, when its digits are enough.** -/
theorem findFrom_complete (hsep : ∀ c, sep c = true → digit c = false) {n : Nat}
    {before after : List Char} (h : Clear digit sep before after) :
    ∀ {fuel : List Char} {offset : Nat} {ds tok : List Char}, after.length < fuel.length →
      n < ds.length → ChainIn digit sep before after ds tok →
        ∃ m ∈ findFrom (chainPattern digit sep n) fuel offset before after, m.text = tok := by
  refine clear_induction (motive := fun before after => ∀ {fuel : List Char} {offset : Nat}
      {ds tok : List Char}, after.length < fuel.length → n < ds.length →
      ChainIn digit sep before after ds tok →
        ∃ m ∈ findFrom (chainPattern digit sep n) fuel offset before after, m.text = tok)
    ?_ ?_ ?_ h
  -- The end of the text: no chain is left.
  · intro before fuel offset ds tok _ _ hchain
    obtain ⟨front, back, heq, hspaced, hdigits, -, -⟩ := hchain
    have hnil := (List.append_eq_nil_iff.1 (List.append_eq_nil_iff.1 heq.symm).1).2
    have hlength := hspaced.length_le
    rw [hnil] at hlength
    exact absurd (List.length_eq_zero_iff.1 (Nat.le_zero.1 hlength)) hspaced.ne_nil
  -- A character that begins no chain is skipped by the search and by the description.
  · intro before x after hx ih fuel offset ds tok hfuel hn hchain
    rw [findFrom_of_none (steps_of_not_next n hx)]
    exact ih (by rw [List.length_cons] at hfuel; omega) hn (hchain.after_gap hx)
  -- A chain that stands alone: it is the chain looked for, or that one lies after it.
  · intro before es other after hother hes hbefore hafter ih fuel offset ds tok hfuel hn hchain
    rw [List.length_append] at hfuel
    have hlength := hother.length_le
    have hpos := List.length_pos_iff.2 hother.ne_nil
    rcases hchain.after_chain hsep hother hes hafter with ⟨rfl, rfl⟩ | hlater
    · obtain _ | ⟨y, fuel⟩ := fuel
      · cases hfuel
      obtain ⟨m, htext, heq⟩ := findFrom_chain hsep hother hes hbefore hafter hn y fuel offset
      exact ⟨m, by rw [heq]; exact List.mem_cons_self, htext⟩
    · by_cases hmatched : n < es.length
      · obtain _ | ⟨y, fuel⟩ := fuel
        · cases hfuel
        obtain ⟨m, -, heq⟩ :=
          findFrom_chain hsep hother hes hbefore hafter hmatched y fuel offset
        have hshorter : after.length < fuel.length := by
          rw [List.length_cons] at hfuel
          omega
        obtain ⟨m', hm', htext⟩ := ih hshorter hn hlater
        exact ⟨m', by rw [heq]; exact List.mem_cons_of_mem _ hm', htext⟩
      · rw [findFrom_skip fun k hk => steps_in_chain hsep hother hes rfl hafter
          (Nat.le_of_not_lt hmatched) hk]
        -- Too few digits for a match, and no match begins inside the chain either.
        exact ih (by omega) hn hlater

/-- **The matches are the chains that stand alone**: the digits of a match
are those of such a chain, and each one with digits enough is matched. -/
theorem mem_chains_iff (hsep : ∀ c, sep c = true → digit c = false) {n : Nat}
    {ds text : List Char} (hn : n < ds.length) :
    (∃ m ∈ (chainPattern digit sep n).findIter text, m.text.filter digit = ds) ↔
      StandsAlone digit sep ds text := by
  constructor
  · rintro ⟨m, hm, rfl⟩
    obtain ⟨es, -, front, back, heq, hspaced, hdigits, hfront, hback⟩ :=
      findFrom_sound hsep (clear_nil text) m hm
    rw [hspaced.filter hdigits hsep]
    rw [List.append_nil] at hfront
    exact ⟨front, m.text, back, heq, hspaced, hdigits, hfront, hback⟩
  · rintro ⟨front, tok, back, heq, hspaced, hdigits, hfront, hback⟩
    have hchain : ChainIn digit sep [] text ds tok :=
      ⟨front, back, heq, hspaced, hdigits, by rwa [List.append_nil], hback⟩
    have hfuel : text.length < ('\n' :: text).length := Nat.lt_succ_self _
    obtain ⟨m, hm, htext⟩ := findFrom_complete hsep (clear_nil text) hfuel hn hchain
    exact ⟨m, hm, by rw [htext, hspaced.filter hdigits hsep]⟩

end Regex

end Rpy.Foundation

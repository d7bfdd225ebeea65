/-
  Rpy.Foundation.Occurrence
  ─────────────────────────
  **WHERE A PATTERN OCCURS, AND WHAT A MATCH READS.**

  A match goes from place to place over one character at a time, and records
  its groups on the way: what holds of the one and of the other, and can be
  chained, holds between the two ends of every match.

    • `steps_related_classes`, `steps_related` — the rule,
    • `Cursor.Spans`       — the text between two places,
    • `spans_of_mem_steps` — a match reads the text between its ends,
    • `chars_of_fullMatch` — a match of the whole text,
    • `groups_of_mem_steps` — a pattern without groups records none,
    • `occursIn_iff`       — a pattern occurs where it matches,
    • `skip_mem_many`      — a run may be read to its end.
-/
import Rpy.Foundation.Regex

namespace Rpy.Foundation

namespace Regex

/-! ## §1. The rule. -/

/-- The names of the groups of a pattern. -/
def groupNames : Regex → List String
  | .seq a b | .alt a b => groupNames a ++ groupNames b
  | .rep a _ _ _ => groupNames a
  | .group name a => name :: groupNames a
  | _ => []

/-- The classes of the characters that a pattern goes over. -/
def classes : Regex → List (Char → Bool)
  | .char ok => [ok]
  | .seq a b | .alt a b => classes a ++ classes b
  | .rep a _ _ _ => classes a
  | .group _ a => classes a
  | _ => []

section Rule

variable {R : Cursor → Cursor → Prop} (hrefl : ∀ c, R c c)
  (htrans : ∀ c d e, R c d → R d e → R c e)

include hrefl

theorem related_of_mem_self {c d : Cursor} (hd : d ∈ [c]) : R c d := by
  rw [List.mem_singleton.1 hd]
  exact hrefl c

/-- What is asked of a place does not move it. -/
theorem related_of_mem_guard {p : Prop} [Decidable p] {c d : Cursor}
    (hd : d ∈ if p then [c] else []) : R c d := by
  split at hd
  · exact related_of_mem_self hrefl hd
  · cases hd

include htrans

theorem related_of_mem_times {step : Cursor → List Cursor} (h : ∀ c, ∀ d ∈ step c, R c d) :
    ∀ {n : Nat} {c d : Cursor}, d ∈ times step n c → R c d := by
  intro n
  induction n with
  | zero =>
      intro c d hd
      exact related_of_mem_self hrefl hd
  | succ n ih =>
      intro c d hd
      obtain ⟨e, he, hd⟩ := List.mem_flatMap.1 hd
      exact htrans c e d (h c e he) (ih hd)

theorem related_of_mem_atMost {step : Cursor → List Cursor} (h : ∀ c, ∀ d ∈ step c, R c d)
    {greedy : Bool} : ∀ {n : Nat} {c d : Cursor}, d ∈ atMost step greedy n c → R c d := by
  intro n
  induction n with
  | zero =>
      intro c d hd
      exact related_of_mem_self hrefl hd
  | succ n ih =>
      intro c d hd
      have hcases : d ∈ (step c).flatMap (atMost step greedy n) ∨ d = c := by
        rw [atMost] at hd
        cases greedy <;> simpa [or_comm] using hd
      rcases hcases with hmore | rfl
      · obtain ⟨e, he, hd⟩ := List.mem_flatMap.1 hmore
        exact htrans c e d (h c e he) (ih hd)
      · exact hrefl d

theorem related_of_mem_many {step : Cursor → List Cursor} (h : ∀ c, ∀ d ∈ step c, R c d)
    {greedy : Bool} :
    ∀ {fuel : List Char} {c d : Cursor}, d ∈ many step greedy fuel c → R c d := by
  intro fuel
  induction fuel with
  | nil =>
      intro c d hd
      exact related_of_mem_self hrefl hd
  | cons y fuel ih =>
      intro c d hd
      have hcases : d ∈ ((step c).filter fun e => c.offset < e.offset).flatMap
          (many step greedy fuel) ∨ d = c := by
        rw [many] at hd
        cases greedy <;> simpa [or_comm] using hd
      rcases hcases with hmore | rfl
      · obtain ⟨e, he, hd⟩ := List.mem_flatMap.1 hmore
        exact htrans c e d (h c e (List.mem_filter.1 he).1) (ih hd)
      · exact hrefl d

/-- **What one character of each class and one record keep is kept from the
start of a match to its end.** -/
theorem steps_related_classes : ∀ (r : Regex),
    (∀ ok ∈ r.classes, ∀ c, next ok c = true → R c (c.skip 1)) →
    (∀ name ∈ r.groupNames, ∀ c d : Cursor, R c d →
      R c { d with groups := (name, c.upTo d) :: d.groups }) → ∀ c, ∀ d ∈ steps r c, R c d := by
  intro r
  -- By the pattern: a character and a group move by hypothesis, the rest composes, and a look
  -- around stays.
  induction r with
  | empty =>
      intro _ _ c d hd
      exact related_of_mem_self hrefl hd
  | char ok =>
      intro hchar _ c d hd
      rw [steps_char] at hd
      split at hd
      · rename_i hnext
        rw [List.mem_singleton.1 hd]
        exact hchar ok List.mem_cons_self c hnext
      · cases hd
  | seq a b iha ihb =>
      intro hchar hgroup c d hd
      obtain ⟨e, he, hd⟩ := List.mem_flatMap.1 hd
      have ha := iha (fun ok hok => hchar ok (List.mem_append_left _ hok))
        (fun name hname => hgroup name (List.mem_append_left _ hname)) c e he
      exact htrans c e d ha (ihb (fun ok hok => hchar ok (List.mem_append_right _ hok))
        (fun name hname => hgroup name (List.mem_append_right _ hname)) e d hd)
  | alt a b iha ihb =>
      intro hchar hgroup c d hd
      rcases List.mem_append.1 hd with hd | hd
      · exact iha (fun ok hok => hchar ok (List.mem_append_left _ hok))
          (fun name hname => hgroup name (List.mem_append_left _ hname)) c d hd
      · exact ihb (fun ok hok => hchar ok (List.mem_append_right _ hok))
          (fun name hname => hgroup name (List.mem_append_right _ hname)) c d hd
  | rep a lo hi greedy iha =>
      intro hchar hgroup c d hd
      have ha := iha hchar hgroup
      obtain ⟨e, he, hd⟩ := List.mem_flatMap.1 hd
      have hfirst := related_of_mem_times hrefl htrans ha he
      cases hi with
      | none => exact htrans c e d hfirst (related_of_mem_many hrefl htrans ha hd)
      | some n => exact htrans c e d hfirst (related_of_mem_atMost hrefl htrans ha hd)
  | group name a iha =>
      intro hchar hgroup c d hd
      obtain ⟨e, he, rfl⟩ := List.mem_map.1 hd
      exact hgroup name List.mem_cons_self c e
        (iha hchar (fun name hname => hgroup name (List.mem_cons_of_mem _ hname)) c e he)
  | ahead positive a _ =>
      intro _ _ c d hd
      exact related_of_mem_guard hrefl hd
  | behind positive ok =>
      intro _ _ c d hd
      exact related_of_mem_guard hrefl hd
  | boundary word =>
      intro _ _ c d hd
      exact related_of_mem_guard hrefl hd
  | lineStart =>
      intro _ _ c d hd
      exact related_of_mem_guard hrefl hd
  | lineEnd =>
      intro _ _ c d hd
      exact related_of_mem_guard hrefl hd

/-- The same where every character keeps it. -/
theorem steps_related (hchar : ∀ c, c.after ≠ [] → R c (c.skip 1)) (r : Regex)
    (hgroup : ∀ name ∈ r.groupNames, ∀ c d : Cursor, R c d →
      R c { d with groups := (name, c.upTo d) :: d.groups }) : ∀ c, ∀ d ∈ steps r c, R c d := by
  refine steps_related_classes hrefl htrans r (fun ok _ c hnext => hchar c fun hafter => ?_) hgroup
  rw [next, hafter] at hnext
  cases hnext

end Rule

/-! ## §2. What a match reads. -/

/-- The text between two places. -/
structure Cursor.Spans (c : Cursor) (w : List Char) (d : Cursor) : Prop where
  after : c.after = w ++ d.after
  before : d.before = w.reverse ++ c.before
  offset : d.offset = c.offset + w.length

namespace Cursor.Spans

theorem refl (c : Cursor) : c.Spans [] c where
  after := rfl
  before := rfl
  offset := rfl

theorem trans {c d e : Cursor} {v w : List Char} (h : c.Spans v d) (h' : d.Spans w e) :
    c.Spans (v ++ w) e where
  after := by rw [h.after, h'.after, List.append_assoc]
  before := by rw [h'.before, h.before, List.reverse_append, List.append_assoc]
  offset := by rw [h'.offset, h.offset, List.length_append, Nat.add_assoc]

theorem upTo {c d : Cursor} {w : List Char} (h : c.Spans w d) : c.upTo d = w := by
  have hlength : d.offset - c.offset = w.length := by
    have hoffset := h.offset
    omega
  rw [Cursor.upTo, hlength, h.after, List.take_left]

end Cursor.Spans

/-- Going over a run of characters. -/
theorem spans_skip {c : Cursor} {run rest : List Char} (h : c.after = run ++ rest) :
    c.Spans run (c.skip run.length) where
  after := by rw [h, after_skip h]
  before := by
    show (c.after.take run.length).reverse ++ c.before = _
    rw [h, List.take_left]
  offset := rfl

theorem spans_one {c : Cursor} {x : Char} {rest : List Char} (h : c.after = x :: rest) :
    c.Spans [x] (c.skip 1) := by
  have hsplit : c.after = [x] ++ rest := h
  exact spans_skip hsplit

/-- **A match reads the text between its ends.** -/
theorem spans_of_mem_steps {r : Regex} {c d : Cursor} (hd : d ∈ steps r c) :
    ∃ w, c.Spans w d := by
  refine steps_related (R := fun c d => ∃ w, c.Spans w d) (fun c => ⟨[], .refl c⟩) ?_ ?_ r ?_ c d hd
  · rintro c d e ⟨v, hv⟩ ⟨w, hw⟩
    exact ⟨v ++ w, hv.trans hw⟩
  · intro c hne
    obtain ⟨x, rest, hafter⟩ := List.exists_cons_of_ne_nil hne
    exact ⟨[x], spans_one hafter⟩
  · rintro name - c d ⟨w, hw⟩
    exact ⟨w, hw.after, hw.before, hw.offset⟩

/-- **A match of the whole text goes over characters of its classes.** -/
theorem chars_of_fullMatch {r : Regex} {p : Char → Bool}
    (hclasses : ∀ ok ∈ r.classes, ∀ x, ok x = true → p x = true) {cs : List Char}
    (hmatch : r.fullMatch cs = true) : ∀ x ∈ cs, p x = true := by
  obtain ⟨d, hd, hend⟩ := List.any_eq_true.1 hmatch
  have hread : ∃ w, (start cs).Spans w d ∧ ∀ x ∈ w, p x = true := by
    refine steps_related_classes (R := fun c d => ∃ w, c.Spans w d ∧ ∀ x ∈ w, p x = true)
      (fun c => ⟨[], .refl c, List.forall_mem_nil _⟩) ?_ r ?_ ?_ _ d hd
    · rintro c d e ⟨v, hv, hpv⟩ ⟨w, hw, hpw⟩
      exact ⟨v ++ w, hv.trans hw, List.forall_mem_append.2 ⟨hpv, hpw⟩⟩
    · intro ok hok c hnext
      cases hafter : c.after with
      | nil =>
          rw [next, hafter] at hnext
          cases hnext
      | cons x rest =>
          rw [next_of_after hafter] at hnext
          exact ⟨[x], spans_one hafter, by simpa using hclasses ok hok x hnext⟩
    · rintro name - c d ⟨w, hw, hpw⟩
      exact ⟨w, ⟨hw.after, hw.before, hw.offset⟩, hpw⟩
  obtain ⟨w, hw, hpw⟩ := hread
  have hall : cs = w := by
    have hafter : cs = w ++ d.after := hw.after
    rwa [List.isEmpty_iff.1 hend, List.append_nil] at hafter
  rwa [hall]

/-- A pattern without groups records none. -/
theorem groups_of_mem_steps {r : Regex} (hr : r.groupNames = []) {c d : Cursor}
    (hd : d ∈ steps r c) : d.groups = c.groups := by
  refine steps_related (R := fun c d => d.groups = c.groups) (fun c => rfl) ?_ ?_ r ?_ c d hd
  · intro c d e hd he
    exact he.trans hd
  · intro c _
    rfl
  · intro name hname
    rw [hr] at hname
    cases hname

/-! ## §3. Where a pattern occurs. -/

theorem searchFrom_isSome_iff (r : Regex) : ∀ (after : List Char) (offset : Nat)
    (before : List Char), (searchFrom r offset before after).isSome = true ↔
      ∃ run rest, after = run ++ rest ∧ steps r
        { offset := offset + run.length, before := run.reverse ++ before, after := rest } ≠ [] := by
  intro after
  induction after with
  | nil =>
      intro offset before
      rw [searchFrom, Option.isSome_map, List.isSome_head?]
      constructor
      · intro h
        exact ⟨[], [], rfl, h⟩
      · rintro ⟨run, rest, hnil, h⟩
        obtain ⟨rfl, rfl⟩ := List.append_eq_nil_iff.1 hnil.symm
        exact h
  | cons x after ih =>
      intro offset before
      rw [searchFrom]
      cases hhead : (steps r { offset, before, after := x :: after }).head? with
      -- The pattern matches here.
      | some d =>
          refine iff_of_true rfl ⟨[], x :: after, rfl, ?_⟩
          intro hnil
          have hnone : steps r { offset, before, after := x :: after } = [] := hnil
          rw [hnone] at hhead
          cases hhead
      | none =>
          show (searchFrom r (offset + 1) (x :: before) after).isSome = true ↔ _
          rw [ih]
          -- It does not, and the search goes one character further.
          have hnone : steps r { offset, before, after := x :: after } = [] :=
            List.head?_eq_none_iff.1 hhead
          constructor
          · rintro ⟨run, rest, rfl, h⟩
            refine ⟨x :: run, rest, rfl, ?_⟩
            rw [List.length_cons, List.reverse_cons, List.append_assoc, Nat.add_comm run.length,
              ← Nat.add_assoc]
            exact h
          · rintro ⟨run, rest, hafter, h⟩
            cases run with
            | nil =>
                have hrest : x :: after = rest := hafter
                rw [← hrest] at h
                exact absurd hnone h
            | cons y run =>
                obtain ⟨rfl, rfl⟩ := List.cons.inj hafter
                refine ⟨run, rest, rfl, ?_⟩
                rw [List.length_cons, List.reverse_cons, List.append_assoc,
                  Nat.add_comm run.length, ← Nat.add_assoc] at h
                exact h

/-- **A pattern occurs in a text where it matches.** -/
theorem occursIn_iff {r : Regex} {cs : List Char} : r.occursIn cs = true ↔
    ∃ before after, cs = before ++ after ∧
      steps r { offset := before.length, before := before.reverse, after } ≠ [] := by
  have h := searchFrom_isSome_iff r cs 0 []
  simp only [Nat.zero_add, List.append_nil] at h
  exact h

theorem steps_cat_cons (r : Regex) (rs : List Regex) (c : Cursor) :
    steps (cat (r :: rs)) c = (steps r c).flatMap (steps (cat rs)) := by
  cases rs with
  | nil =>
      show steps r c = (steps r c).flatMap fun d => [d]
      exact (List.flatMap_singleton' _).symm
  | cons s rs => rfl

/-- A run of characters of a class may be read to its end. -/
theorem skip_mem_many {ok : Char → Bool} {greedy : Bool} :
    ∀ {run rest fuel : List Char} {c : Cursor}, c.after = run ++ rest →
      (∀ x ∈ run, ok x = true) → run.length ≤ fuel.length →
        c.skip run.length ∈ many (steps (.char ok)) greedy fuel c := by
  intro run
  induction run with
  | nil =>
      intro rest fuel c _ _ _
      rw [List.length_nil, skip_zero]
      cases fuel with
      | nil => exact List.mem_singleton_self c
      | cons y fuel => cases greedy <;> simp [many]
  | cons x run ih =>
      intro rest fuel c hafter hall hfuel
      cases fuel with
      | nil => exact absurd hfuel (Nat.not_succ_le_zero _)
      | cons y fuel =>
          have hnext : next ok c = true :=
            (next_of_after hafter).trans (hall x List.mem_cons_self)
          have hlater : (c.skip 1).after = run ++ rest := after_skip_one hafter
          have hmem : (c.skip 1).skip run.length ∈ many (steps (.char ok)) greedy fuel (c.skip 1) :=
            ih hlater (fun z hz => hall z (List.mem_cons_of_mem x hz))
              (Nat.le_of_succ_le_succ hfuel)
          rw [skip_skip, Nat.add_comm] at hmem
          rw [many_of_next hnext, List.length_cons]
          cases greedy with
          | true => exact List.mem_append_left _ hmem
          | false => exact List.mem_cons_of_mem _ hmem

end Regex

end Rpy.Foundation

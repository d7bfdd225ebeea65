/-
  Rpy.Foundation.RegexLanguage
  ────────────────────────────
  **THE TEXTS A PATTERN READS.**

  A pattern without groups and assertions has a match at a place for each
  text of its language that stands there.  Its parts compose: a sequence
  reads concatenations, and a repetition of a class reads its runs.

    • `ReadsTexts`        — the places a match may end at, by their texts,
    • `readsTexts_seq`, `readsTexts_alt`, `readsTexts_opt`,
      `readsTexts_star`, `readsTexts_literal` — the parts of a pattern,
    • `mem_split_char`    — the pieces a text is split into.
-/
import Mathlib.Data.List.Forall2
import Rpy.Foundation.LineSearch

namespace Rpy.Foundation

namespace Regex

/-! ## §1. Languages. -/

/-- The pattern has a match at a place for each text of the language that
stands there, and captures nothing. -/
def ReadsTexts (r : Regex) (language : List Char → Prop) : Prop :=
  ∀ c d : Cursor, d ∈ steps r c ↔
    ∃ w rest, c.after = w ++ rest ∧ language w ∧ d = c.skip w.length

/-- The same texts, said in other words. -/
theorem ReadsTexts.congr {r : Regex} {p q : List Char → Prop} (h : ReadsTexts r p)
    (hpq : ∀ w, p w ↔ q w) : ReadsTexts r q := by
  intro c d
  simp only [h c d, hpq]

/-- A sequence goes on from where its first part ended. -/
theorem steps_seq (a b : Regex) (c : Cursor) :
    steps (.seq a b) c = (steps a c).flatMap (steps b) := rfl

/-- An option is taken first, and then left out. -/
theorem steps_opt (a : Regex) (c : Cursor) : steps (opt a) c = steps a c ++ [c] := by
  rw [opt, steps, times, List.flatMap_singleton]
  show (steps a c).flatMap (fun d => [d]) ++ [c] = _
  rw [List.flatMap_singleton']

section Parts

variable {a b : Regex} {p q : List Char → Prop}

/-- A sequence reads a text of the first pattern and then one of the second. -/
theorem readsTexts_seq (ha : ReadsTexts a p) (hb : ReadsTexts b q) :
    ReadsTexts (.seq a b) fun w => ∃ v₁ v₂, w = v₁ ++ v₂ ∧ p v₁ ∧ q v₂ := by
  intro c d
  rw [steps_seq, List.mem_flatMap]
  constructor
  · rintro ⟨e, he, hd⟩
    obtain ⟨v₁, rest₁, hafter, hp, rfl⟩ := (ha c e).1 he
    obtain ⟨v₂, rest₂, hnext, hq, rfl⟩ := (hb _ d).1 hd
    refine ⟨v₁ ++ v₂, rest₂, ?_, ⟨v₁, v₂, rfl, hp, hq⟩, ?_⟩
    · rw [hafter, List.append_assoc, ← hnext, after_skip hafter]
    · rw [skip_skip, List.length_append]
  · rintro ⟨w, rest, hafter, ⟨v₁, v₂, rfl, hp, hq⟩, rfl⟩
    rw [List.append_assoc] at hafter
    refine ⟨c.skip v₁.length, (ha c _).2 ⟨v₁, v₂ ++ rest, hafter, hp, rfl⟩, ?_⟩
    refine (hb _ _).2 ⟨v₂, rest, after_skip hafter, hq, ?_⟩
    rw [skip_skip, List.length_append]

/-- An alternative reads what either side reads. -/
theorem readsTexts_alt (ha : ReadsTexts a p) (hb : ReadsTexts b q) :
    ReadsTexts (.alt a b) fun w => p w ∨ q w := by
  intro c d
  rw [steps, List.mem_append, ha c d, hb c d]
  constructor
  · rintro (⟨w, rest, hafter, hw, rfl⟩ | ⟨w, rest, hafter, hw, rfl⟩)
    · exact ⟨w, rest, hafter, .inl hw, rfl⟩
    · exact ⟨w, rest, hafter, .inr hw, rfl⟩
  · rintro ⟨w, rest, hafter, hw | hw, rfl⟩
    · exact .inl ⟨w, rest, hafter, hw, rfl⟩
    · exact .inr ⟨w, rest, hafter, hw, rfl⟩

/-- What is optional reads the empty text as well. -/
theorem readsTexts_opt (ha : ReadsTexts a p) : ReadsTexts (opt a) fun w => w = [] ∨ p w := by
  intro c d
  rw [steps_opt, List.mem_append, ha c d, List.mem_singleton]
  constructor
  · rintro (⟨w, rest, hafter, hw, rfl⟩ | rfl)
    · exact ⟨w, rest, hafter, .inr hw, rfl⟩
    · exact ⟨[], d.after, rfl, .inl rfl, (skip_zero d).symm⟩
  · rintro ⟨w, rest, hafter, rfl | hw, rfl⟩
    · exact .inr (skip_zero c)
    · exact .inl ⟨w, rest, hafter, hw, rfl⟩

/-- A character of a class. -/
theorem readsTexts_char (ok : Char → Bool) :
    ReadsTexts (.char ok) fun w => ∃ x, w = [x] ∧ ok x = true := by
  intro c d
  rw [steps_char]
  constructor
  · intro hd
    cases hafter : c.after with
    | nil =>
        rw [next, hafter] at hd
        cases hd
    | cons x rest =>
        rw [next_of_after hafter] at hd
        by_cases hx : ok x = true
        · rw [if_pos hx] at hd
          exact ⟨[x], rest, rfl, ⟨x, rfl, hx⟩, List.mem_singleton.1 hd⟩
        · rw [if_neg hx] at hd
          cases hd
  · rintro ⟨w, rest, hafter, ⟨x, rfl, hx⟩, rfl⟩
    have hnext : next ok c = true := (next_of_after hafter).trans hx
    rw [hnext, if_pos rfl]
    exact List.mem_singleton_self _

/-- A run of characters of a class, greedy or lazy. -/
theorem mem_many_iff {ok : Char → Bool} {greedy : Bool} {c d : Cursor} :
    d ∈ many (steps (.char ok)) greedy c.after c ↔
      ∃ w rest, c.after = w ++ rest ∧ (∀ x ∈ w, ok x = true) ∧ d = c.skip w.length := by
  constructor
  · intro hd
    obtain ⟨k, rfl, hlength, hall⟩ := mem_many hd
    refine ⟨c.after.take k, c.after.drop k, (List.take_append_drop k c.after).symm, hall, ?_⟩
    rw [List.length_take_of_le hlength]
  · rintro ⟨w, rest, hafter, hall, rfl⟩
    refine skip_mem_many hafter hall ?_
    rw [hafter, List.length_append]
    exact Nat.le_add_right _ _

/-- The star of a class reads the texts of that class. -/
theorem readsTexts_star (ok : Char → Bool) :
    ReadsTexts (star (.char ok)) fun w => ∀ x ∈ w, ok x = true := by
  intro c d
  rw [star, steps_star]
  exact mem_many_iff

/-- A run with one character at least. -/
theorem readsTexts_plusLazy (ok : Char → Bool) :
    ReadsTexts (plusLazy (.char ok)) fun w => w ≠ [] ∧ ∀ x ∈ w, ok x = true := by
  intro c d
  have hplus : steps (plusLazy (.char ok)) c =
      steps (.seq (.char ok) (.rep (.char ok) 0 none false)) c := by
    rw [plusLazy, steps_plus, steps_seq, steps_char]
    by_cases hnext : next ok c = true
    · rw [if_pos hnext, if_pos hnext, List.flatMap_singleton, steps_star]
    · rw [if_neg hnext, if_neg hnext, List.flatMap_nil]
  have hrun : ReadsTexts (.rep (.char ok) 0 none false) fun w => ∀ x ∈ w, ok x = true := by
    intro c d
    rw [steps_star]
    exact mem_many_iff
  rw [hplus, (readsTexts_seq (readsTexts_char ok) hrun) c d]
  constructor
  · rintro ⟨w, rest, hafter, ⟨v₁, v₂, rfl, ⟨x, rfl, hx⟩, hall⟩, rfl⟩
    exact ⟨_, rest, hafter, ⟨List.cons_ne_nil x v₂, List.forall_mem_cons.2 ⟨hx, hall⟩⟩, rfl⟩
  · rintro ⟨w, rest, hafter, ⟨hne, hall⟩, rfl⟩
    obtain ⟨x, w, rfl⟩ := List.exists_cons_of_ne_nil hne
    obtain ⟨hx, hothers⟩ := List.forall_mem_cons.1 hall
    exact ⟨_, rest, hafter, ⟨[x], w, rfl, ⟨x, rfl, hx⟩, hothers⟩, rfl⟩

/-- The texts that a literal is compared with, character by character. -/
def Spelled (same : Char → Char → Bool) (literal : String) (w : List Char) : Prop :=
  List.Forall₂ (fun x y => same x y = true) literal.toList w

/-- A literal reads its spellings. -/
theorem readsTexts_literal (same : Char → Char → Bool) (literal : String) :
    ReadsTexts (textBy same literal) (Spelled same literal) := by
  have hcat : ∀ xs : List Char, ReadsTexts (cat (xs.map fun x => .char (same x)))
      (List.Forall₂ (fun x y => same x y = true) xs) := by
    intro xs
    induction xs with
    | nil =>
        intro c d
        refine List.mem_singleton.trans ⟨?_, ?_⟩
        · rintro rfl
          exact ⟨[], d.after, rfl, .nil, (skip_zero d).symm⟩
        · rintro ⟨w, rest, -, hw, rfl⟩
          obtain rfl := List.forall₂_nil_left_iff.1 hw
          exact skip_zero c
    | cons x xs ih =>
        intro c d
        rw [List.map_cons, steps_cat_cons]
        refine ((readsTexts_seq (readsTexts_char (same x)) ih) c d).trans ?_
        refine exists_congr fun w => exists_congr fun rest =>
          and_congr_right fun _ => and_congr_left fun _ => ?_
        constructor
        · rintro ⟨v₁, v₂, rfl, ⟨y, rfl, hy⟩, hv⟩
          exact .cons hy hv
        · intro hw
          obtain ⟨y, v, hy, hv, rfl⟩ := List.forall₂_cons_left_iff.1 hw
          exact ⟨[y], v, rfl, ⟨y, rfl, hy⟩, hv⟩
  exact hcat literal.toList

end Parts

/-- Each character of a spelling stands for one of the literal. -/
theorem Spelled.exists_of_mem {same : Char → Char → Bool} {s : String} {w : List Char}
    (h : Spelled same s w) {y : Char} (hy : y ∈ w) : ∃ x ∈ s.toList, same x y = true := by
  unfold Spelled at h
  generalize s.toList = xs at h
  induction h with
  | nil => cases hy
  | cons hxy _ ih =>
      rcases List.mem_cons.1 hy with rfl | hy
      · exact ⟨_, List.mem_cons_self, hxy⟩
      · obtain ⟨x, hx, hsame⟩ := ih hy
        exact ⟨x, List.mem_cons_of_mem _ hx, hsame⟩

/-- Literals one after the other are spelled one after the other. -/
theorem spelled_append {same : Char → Char → Bool} {s t : String} {w : List Char} :
    Spelled same (s ++ t) w ↔ ∃ v₁ v₂, w = v₁ ++ v₂ ∧ Spelled same s v₁ ∧ Spelled same t v₂ := by
  unfold Spelled
  rw [String.toList_append]
  constructor
  · intro h
    have htake := List.forall₂_take s.toList.length h
    have hdrop := List.forall₂_drop s.toList.length h
    rw [List.take_left] at htake
    rw [List.drop_left] at hdrop
    exact ⟨_, _, (List.take_append_drop s.toList.length w).symm, htake, hdrop⟩
  · rintro ⟨v₁, v₂, rfl, hs, ht⟩
    exact List.rel_append hs ht

/-! ## §2. Groups. -/

/-- A place with one more group. -/
def Cursor.capture (c : Cursor) (name : String) (w : List Char) : Cursor :=
  { c with groups := (name, w) :: c.groups }

/-- A group takes nothing from what is left. -/
@[simp] theorem capture_after (c : Cursor) (name : String) (w : List Char) :
    (c.capture name w).after = c.after := rfl

/-- Nor does it matter whether it closes before or after. -/
@[simp] theorem capture_skip (c : Cursor) (name : String) (w : List Char) (k : Nat) :
    (c.capture name w).skip k = (c.skip k).capture name w := rfl

section Sequence

variable {a b : Regex} {p : List Char → Prop} {c d : Cursor}

/-- What follows the texts of a pattern. -/
theorem ReadsTexts.mem_seq (ha : ReadsTexts a p) : d ∈ steps (.seq a b) c ↔
    ∃ w rest, c.after = w ++ rest ∧ p w ∧ d ∈ steps b (c.skip w.length) := by
  rw [steps_seq, List.mem_flatMap]
  constructor
  · rintro ⟨e, he, hd⟩
    obtain ⟨w, rest, hafter, hw, rfl⟩ := (ha c e).1 he
    exact ⟨w, rest, hafter, hw, hd⟩
  · rintro ⟨w, rest, hafter, hw, hd⟩
    exact ⟨_, (ha c _).2 ⟨w, rest, hafter, hw, rfl⟩, hd⟩

/-- The same for a pattern in a group, which captures its text. -/
theorem ReadsTexts.mem_group_seq (ha : ReadsTexts a p) (name : String) :
    d ∈ steps (.seq (.group name a) b) c ↔
      ∃ w rest, c.after = w ++ rest ∧ p w ∧ d ∈ steps b ((c.skip w.length).capture name w) := by
  have hupto : ∀ {w rest : List Char}, c.after = w ++ rest → c.upTo (c.skip w.length) = w :=
    fun hafter => (spans_skip hafter).upTo
  rw [steps_seq, steps, List.flatMap_map, List.mem_flatMap]
  constructor
  · rintro ⟨e, he, hd⟩
    obtain ⟨w, rest, hafter, hw, rfl⟩ := (ha c e).1 he
    rw [hupto hafter] at hd
    exact ⟨w, rest, hafter, hw, hd⟩
  · rintro ⟨w, rest, hafter, hw, hd⟩
    refine ⟨_, (ha c _).2 ⟨w, rest, hafter, hw, rfl⟩, ?_⟩
    rw [hupto hafter]
    exact hd

end Sequence

/-! ## §3. Splitting. -/

/-- A part of a text that ends, on each side, at a character of the class or
at an end of the text. -/
def Piece (ok : Char → Bool) (part whole : List Char) : Prop :=
  ∃ front back, whole = front ++ (part ++ back) ∧ (∀ x ∈ front.getLast?, ok x = true) ∧
    ∀ x ∈ back.head?, ok x = true

/-- The pieces between two matches of a class, by induction on the text. -/
theorem piece_splitAt {ok : Char → Bool} : ∀ (after fuel front before : List Char)
    (n offset : Nat), after.length < fuel.length → offset = n + front.length →
      ∀ part ∈ splitAt (findFrom (.char ok) fuel offset before after) n (front ++ after),
        Piece ok part (front ++ after) := by
  intro after
  -- `front` is what was read since the last character of the class: the piece under way.
  induction after with
  | nil =>
      intro fuel front before n offset _ _ part hpart
      have hnone : steps (.char ok) { offset, before, after := [] } = [] := rfl
      rw [findFrom_nil hnone, splitAt, List.mem_singleton] at hpart
      exact ⟨[], [], by simp [hpart],
        fun x hx => (nomatch hx), fun x hx => (nomatch hx)⟩
  | cons x rest ih =>
      intro fuel front before n offset hfuel hoffset part hpart
      let c : Cursor := { offset, before, after := x :: rest }
      have hsteps : steps (.char ok) c = if ok x then [c.skip 1] else [] := by
        rw [steps_char, next_of_after (c := c) rfl]
      by_cases hx : ok x = true
      · -- the text up to here is a piece, and the others are in the rest
        rw [if_pos hx] at hsteps
        obtain _ | ⟨y, fuel⟩ := fuel
        · exact absurd hfuel (Nat.not_lt_zero _)
        have hhead : (steps (.char ok) c).head? = some (c.skip 1) := by rw [hsteps]; rfl
        have hlonger : offset < (c.skip 1).offset := Nat.lt_succ_self offset
        have hlength : offset - n = front.length := by omega
        have hnext : (c.skip 1).offset - n = front.length + 1 := by
          show offset + 1 - n = _
          omega
        rw [findFrom_of_match hhead hlonger, splitAt, hlength, hnext, List.take_left,
          List.drop_length_add_append] at hpart
        rcases List.mem_cons.1 hpart with rfl | hpart
        · exact ⟨[], x :: rest, rfl, fun z hz => (nomatch hz), fun z hz => by
            rw [← Option.some.inj hz]
            exact hx⟩
        · obtain ⟨a, b, hsplit, ha, hb⟩ := ih fuel [] _ (offset + 1) (offset + 1)
            (Nat.lt_of_succ_lt_succ hfuel) rfl part hpart
          rw [List.nil_append] at hsplit
          refine ⟨front ++ x :: a, b, by rw [hsplit, List.append_assoc, List.cons_append], ?_, hb⟩
          intro z hz
          rw [List.getLast?_append_of_ne_nil _ (List.cons_ne_nil x a)] at hz
          obtain _ | ⟨w, a⟩ := a
          · rw [← Option.some.inj hz]
            exact hx
          · exact ha z hz
      · rw [if_neg hx] at hsteps
        have hassoc : front ++ x :: rest = (front ++ [x]) ++ rest := by
          rw [List.append_assoc, List.singleton_append]
        rw [findFrom_of_none hsteps, hassoc] at hpart
        rw [hassoc]
        refine ih fuel (front ++ [x]) _ n (offset + 1) (Nat.lt_of_succ_lt hfuel) ?_ part hpart
        rw [List.length_append, List.length_singleton, hoffset, Nat.add_assoc]

/-- **The pieces of a text that is split at a class of characters.** -/
theorem mem_split_char {ok : Char → Bool} {cs part : List Char}
    (h : part ∈ (Regex.char ok).split cs) : Piece ok part cs :=
  piece_splitAt cs _ [] [] 0 0 (Nat.lt_succ_self _) rfl part h

end Regex

end Rpy.Foundation

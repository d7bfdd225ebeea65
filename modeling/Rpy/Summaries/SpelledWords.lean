/-
  Rpy.Summaries.SpelledWords
  ──────────────────────────
  **THE WORDS OF A VALUE IN JSON** (`_provider_source_text` of `app/rag.py`
  and `_normalize_party_name` of `app/validation.py`).

  The words of the JSON text of a value are those of its keys and values, in
  their order.  Control characters are written as escapes, and the letters of
  an escape are in a word with the ones next to it.

    • `spelling`           — a text with its control characters as escapes,
    • `spelledWords`       — the words of a value, by its structure,
    • `wordsOf_print`      — they are those of its JSON text,
    • `spelledWords_member` — those of a member stand in a row.
-/
import Rpy.Summaries.Prompt
import Rpy.Summaries.Words

namespace Rpy.Summaries

open Rpy.Foundation

/-! ## §1. Texts. -/

/-- A text with its control characters written as escapes. -/
def spelling (cs : List Char) : List Char :=
  cs.flatMap fun c => if c.toNat < 32 then Json.escapeIn promptStyle c else [c]

/-- What is not escaped is spelled as it is. -/
theorem spelling_eq_self {cs : List Char} (h : ∀ c ∈ cs, 32 ≤ c.toNat) : spelling cs = cs := by
  induction cs with
  | nil => rfl
  | cons c cs ih =>
      obtain ⟨hc, hothers⟩ := List.forall_mem_cons.1 h
      have hrest : spelling (c :: cs) =
          (if c.toNat < 32 then Json.escapeIn promptStyle c else [c]) ++ spelling cs := rfl
      rw [hrest, if_neg (Nat.not_lt.2 hc), ih hothers, List.singleton_append]

section Texts

variable {u : Unicode}

/-- The characters around texts and values, and the escapes of a quote. -/
theorem breaks_json {c : Char}
    (hc : c ∈ ['"', '\\', ' ', ',', ':', ';', '[', ']', '\x7b', '\x7d']) : Breaks u c := by
  have hshape : ['"', '\\', ' ', ',', ':', ';', '[', ']', '\x7b', '\x7d'].all (fun d =>
      decide (d.toNat < 128 ∧ decomposition d = [d] ∧ d.toLower = d ∧
        (d.isAlphanum || d == '_') = false)) = true := by
    decide
  obtain ⟨hascii, hself, hlower, hword⟩ := of_decide_eq_true (List.all_eq_true.1 hshape c hc)
  exact breaks_of_ascii hascii hself hlower hword

/-- What breaks words may be written twice. -/
theorem wordsFrom_breaks (hu : FoldsByCharacter u) {c d : Char} (hc : Breaks u c) (hd : Breaks u d)
    {xs ys : List Char}
    (h : ∀ word, wordsFrom u.isWord word (folded u xs) = wordsFrom u.isWord word (folded u ys)) :
    ∀ word, wordsFrom u.isWord word (folded u (c :: d :: xs)) =
      wordsFrom u.isWord word (folded u (d :: ys)) := by
  intro word
  rw [folded_cons hu hc.1, folded_cons hu hd.1, folded_cons hu hd.1]
  have htwo := wordsFrom_nonWords (p := u.isWord) (List.cons_ne_nil c [d])
    (List.forall_mem_cons.2 ⟨hc.2, List.forall_mem_singleton.2 hd.2⟩) (folded u xs) word
  have hone := wordsFrom_nonWords (p := u.isWord) (List.cons_ne_nil d [])
    (List.forall_mem_singleton.2 hd.2) (folded u ys) word
  rw [← h []] at hone
  exact htwo.trans hone.symm

/-- **A literal has the words of its text, the control characters as escapes.** -/
theorem wordsOf_literal (hu : FoldsByCharacter u) (s : String) :
    wordsOf u (Json.literal promptStyle s) = wordsOf u (spelling s.toList) := by
  have hquote : Breaks u '"' := breaks_json (by decide)
  have hslash : Breaks u '\\' := breaks_json (by decide)
  -- Character by character, in the middle of any word.
  have hinside : ∀ (cs : List Char) (word : List Char),
      wordsFrom u.isWord word (folded u (cs.flatMap (Json.escapeIn promptStyle))) =
        wordsFrom u.isWord word (folded u (spelling cs)) := by
    intro cs
    induction cs with
    | nil => exact fun _ => rfl
    | cons c cs ih =>
        have hspelling : spelling (c :: cs) =
            (if c.toNat < 32 then Json.escapeIn promptStyle c else [c]) ++ spelling cs := rfl
        rw [List.flatMap_cons, hspelling]
        -- A quote or a backslash breaks words whether it is escaped or not.
        by_cases hdouble : c = '"'
        · subst hdouble
          exact wordsFrom_breaks hu hslash hquote ih
        by_cases hback : c = '\\'
        · subst hback
          exact wordsFrom_breaks hu hslash hslash ih
        -- Any other character is written as it is, or as an escape that the spelling keeps.
        have hself : Json.escapeIn promptStyle c =
            if c.toNat < 32 then Json.escapeIn promptStyle c else [c] := by
          by_cases hcontrol : c.toNat < 32
          · rw [if_pos hcontrol]
          · have hkept : (if c.toNat < 32 then Json.escapeIn promptStyle c else [c]) = [c] :=
              if_neg hcontrol
            have hne : ∀ d : Char, d.toNat < 32 → c ≠ d := by
              rintro d hd rfl
              exact hcontrol hd
            rw [hkept]
            unfold Json.escapeIn
            rw [if_neg hdouble, if_neg hback, if_neg (hne '\n' (by decide)),
              if_neg (hne '\r' (by decide)), if_neg (hne '\t' (by decide)),
              if_neg (hne '\x08' (by decide)), if_neg (hne '\x0c' (by decide)),
              if_neg hcontrol]
            rfl
        intro word
        rw [← hself, hu.append, hu.append]
        exact wordsFrom_congr_append ih _ word
  have htext : Json.literal promptStyle s =
      [] ++ '"' :: (s.toList.flatMap (Json.escapeIn promptStyle) ++ '"' :: []) := rfl
  rw [htext, wordsOf_break hu hquote, wordsOf_break hu hquote, wordsOf_nil, List.nil_append,
    List.append_nil]
  exact hinside s.toList []

end Texts

/-! ## §2. Values. -/

mutual
/-- The words of a value as it is written in JSON. -/
def spelledWords (u : Unicode) : Json → List (List Char)
  | .null => wordsOf u (Json.print promptStyle .null)
  | .bool b => wordsOf u (Json.print promptStyle (.bool b))
  | .int n => wordsOf u (Json.print promptStyle (.int n))
  | .float d => wordsOf u (Json.print promptStyle (.float d))
  | .str s => wordsOf u (spelling s.toList)
  | .arr xs => spelledItems u xs
  | .obj members => spelledMembers u members
  termination_by structural v => v

def spelledItems (u : Unicode) : List Json → List (List Char)
  | [] => []
  | x :: xs => spelledWords u x ++ spelledItems u xs
  termination_by structural xs => xs

def spelledMembers (u : Unicode) : List (String × Json) → List (List Char)
  | [] => []
  | (key, value) :: members =>
      wordsOf u (spelling key.toList) ++ spelledWords u value ++ spelledMembers u members
  termination_by structural members => members
end

section Values

variable {u : Unicode}

/-- Around a value there are a separator and a blank. -/
theorem wordsOf_separated (hu : FoldsByCharacter u) {c : Char} (hc : c ∈ [',', ':'])
    (front back : List Char) :
    wordsOf u (front ++ (promptStyle.after c ++ back)) = wordsOf u front ++ wordsOf u back := by
  have hbreaks : Breaks u c := by
    refine breaks_json ?_
    simp only [List.mem_cons, List.not_mem_nil, or_false] at hc
    rcases hc with rfl | rfl <;> decide
  have hspace : Breaks u ' ' := breaks_json (by decide)
  have hblank : wordsOf u (' ' :: back) = wordsOf u back := by
    have hnil := wordsOf_break hu hspace [] back
    rwa [wordsOf_nil, List.nil_append, List.nil_append] at hnil
  have hafter : promptStyle.after c ++ back = c :: ' ' :: back := rfl
  rw [hafter, wordsOf_break hu hbreaks, hblank]

/-- Brackets are in no word. -/
theorem wordsOf_brackets (hu : FoldsByCharacter u) {c d : Char} (hc : Breaks u c) (hd : Breaks u d)
    (cs : List Char) : wordsOf u (c :: (cs ++ [d])) = wordsOf u cs := by
  have hfirst := wordsOf_break hu hc [] (cs ++ [d])
  have hlast := wordsOf_break hu hd cs []
  rw [wordsOf_nil, List.append_nil] at hlast
  rw [wordsOf_nil, List.nil_append, List.nil_append, hlast] at hfirst
  exact hfirst

mutual
/-- **The words of the JSON text of a value.** -/
theorem wordsOf_print (hu : FoldsByCharacter u) : ∀ v : Json,
    wordsOf u (Json.print promptStyle v) = spelledWords u v
  | .null => rfl
  | .bool _ => rfl
  | .int _ => rfl
  | .float _ => rfl
  | .str s => wordsOf_literal hu s
  | .arr [] => by
      refine (wordsOf_brackets hu (breaks_json (c := '[') (by decide))
        (breaks_json (c := ']') (by decide)) []).trans ?_
      exact wordsOf_nil
  | .arr (x :: xs) => by
      refine (wordsOf_brackets hu (breaks_json (c := '[') (by decide))
        (breaks_json (c := ']') (by decide)) _).trans ?_
      refine (wordsOf_printMoreItems hu xs _).trans ?_
      rw [wordsOf_print hu x]
      rfl
  | .obj [] => by
      refine (wordsOf_brackets hu (breaks_json (c := '\x7b') (by decide))
        (breaks_json (c := '\x7d') (by decide)) []).trans ?_
      exact wordsOf_nil
  | .obj ((key, value) :: members) => by
      refine (wordsOf_brackets hu (breaks_json (c := '\x7b') (by decide))
        (breaks_json (c := '\x7d') (by decide)) _).trans ?_
      refine (wordsOf_separated hu (by decide) _ _).trans ?_
      rw [wordsOf_literal hu, wordsOf_printMoreMembers hu members, wordsOf_print hu value,
        ← List.append_assoc]
      rfl
  termination_by structural v => v

/-- The items that follow, each after a comma. -/
theorem wordsOf_printMoreItems (hu : FoldsByCharacter u) : ∀ (xs : List Json) (front : List Char),
    wordsOf u (front ++ Json.printMoreItems promptStyle xs) = wordsOf u front ++ spelledItems u xs
  | [], front => by
      rw [Json.printMoreItems, spelledItems, List.append_nil, List.append_nil]
  | x :: xs, front => by
      rw [Json.printMoreItems, spelledItems, wordsOf_separated hu (by decide),
        wordsOf_printMoreItems hu xs, wordsOf_print hu x]
  termination_by structural xs => xs

/-- The members that follow, likewise. -/
theorem wordsOf_printMoreMembers (hu : FoldsByCharacter u) :
    ∀ (members : List (String × Json)) (front : List Char),
      wordsOf u (front ++ Json.printMoreMembers promptStyle members) =
        wordsOf u front ++ spelledMembers u members
  | [], front => by
      rw [Json.printMoreMembers, spelledMembers, List.append_nil, List.append_nil]
  | (key, value) :: members, front => by
      rw [Json.printMoreMembers, spelledMembers, wordsOf_separated hu (by decide),
        wordsOf_separated hu (by decide), wordsOf_printMoreMembers hu members,
        wordsOf_print hu value, wordsOf_literal hu, List.append_assoc]
  termination_by structural members => members
end

/-- **The words of a member stand in a row among those of the object.** -/
theorem spelledWords_member {key : String} {value : Json} {members : List (String × Json)}
    (h : (key, value) ∈ members) : spelledWords u value <:+: spelledMembers u members := by
  induction members with
  | nil => cases h
  | cons m members ih =>
      obtain ⟨name, first⟩ := m
      rw [spelledMembers]
      rcases List.mem_cons.1 h with heq | h
      · obtain ⟨rfl, rfl⟩ := Prod.mk.inj heq
        exact ⟨_, _, rfl⟩
      · exact (ih h).trans (List.suffix_append _ _).isInfix

end Values

end Rpy.Summaries

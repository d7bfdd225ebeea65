/-
  Rpy.Foundation.PyJsonOfJson
  ───────────────────────────
  **THE TWO READERS AGREE.**

  The values of `Json` have neither halves of surrogate pairs nor infinite
  floats, and its reader refuses a text that has them.  What it reads,
  Python's reader reads as the same value.

    • `ofJson`          — a value as Python holds it,
    • `isText_ofJson`   — its texts are texts of it still,
    • `loads_ofJson`    — **so what the one reader returns the other does**.
-/
import Rpy.Foundation.JsonReading
import Rpy.Foundation.PyJsonReading

namespace Rpy.Foundation.PyJson

open Rpy.Foundation.Json (Numeral readUnit)

/-! ## §1. The values. -/

/-- A `str` without halves of pairs. -/
def ofString (s : String) : Text := ofChars s.toList

section Values

variable {φ : Type} (name : Decimal → φ)

mutual
/-- The value as Python holds it, with the floats by their names. -/
def ofJson : Json → Value φ
  | .null => .null
  | .bool b => .bool b
  | .int n => .int n
  | .float d => .float (name d)
  | .str s => .str (ofString s)
  | .arr xs => .arr (ofItems xs)
  | .obj members => .obj (ofMembers members)
  termination_by structural v => v

def ofItems : List Json → List (Value φ)
  | [] => []
  | x :: xs => ofJson x :: ofItems xs
  termination_by structural xs => xs

def ofMembers : List (String × Json) → List (Text × Value φ)
  | [] => []
  | (k, v) :: ms => (ofString k, ofJson v) :: ofMembers ms
  termination_by structural ms => ms
end

/-- Different strings are different texts. -/
theorem ofString_injective : Function.Injective ofString := by
  intro s t h
  have hchar : Function.Injective CodePoint.char := fun _ _ => CodePoint.char.inj
  exact String.toList_injective (List.map_injective_iff.2 hchar h)

/-- The keys of an object are the keys it had. -/
theorem keys_ofMembers (ms : List (String × Json)) :
    (ofMembers name ms).map Prod.fst = (ms.map Prod.fst).map ofString := by
  induction ms with
  | nil => rfl
  | cons m ms ih => exact congrArg (ofString m.1 :: ·) ih

end Values

/-! ## §2. Their texts. -/

/-- Blanks are blanks in both grammars. -/
theorem blanks_ofChars {cs : List Char} (h : Json.Blanks cs) : Blanks (ofChars cs) :=
  List.forall_mem_map.2 h

/-- The text of a literal is one of its code points. -/
theorem literalText_ofChars {s body : List Char} (h : Json.LiteralText s body) :
    LiteralText (ofChars s) (ofChars body) := by
  induction h with
  | nil => exact .nil
  | plain hcontrol hquote hslash _ ih => exact .plain ⟨hcontrol, hquote, hslash⟩ ih
  | short hshort _ ih => exact .short hshort ih
  | @unit a b c d n s cs hunit hhalf _ ih =>
      have hchr : CodePoint.char (Char.ofNat n) = chr n := by
        unfold chr
        rw [if_neg (by omega)]
      show LiteralText (.char (Char.ofNat n) :: ofChars s) (escape a b c d ++ ofChars cs)
      rw [hchr]
      exact .unit hunit (fun hhigh => absurd hhigh (by omega)) ih
  | pair hfirst hhigh hsecond hlow _ ih => exact .pair hfirst hhigh hsecond hlow ih

/-- So are the literals of strings, which have no half of a pair. -/
theorem isLiteral_ofString {s : String} {cs : List Char} (h : Json.IsLiteral s cs) :
    IsLiteral (ofString s) (ofChars cs) := by
  obtain ⟨body, rfl, hbody⟩ := h
  exact ⟨ofChars body, by simp [ofChars], literalText_ofChars hbody⟩

/-- And blanks around what both grammars read. -/
theorem spaced_ofChars {p : List Char → Prop} {q : Text → Prop} {cs : List Char}
    (hpq : ∀ text, p text → q (ofChars text)) (h : Json.Spaced p cs) : Spaced q (ofChars cs) := by
  obtain ⟨before, text, after, rfl, hbefore, htext, hafter⟩ := h
  exact ⟨ofChars before, ofChars text, ofChars after, by rw [ofChars_append, ofChars_append],
    blanks_ofChars hbefore, hpq text htext, blanks_ofChars hafter⟩

section Texts

variable {φ : Type} {name : Decimal → φ} {readFloat : List Char → Option Decimal}
  {float : List Char → φ}

mutual
/-- **A text of a value is one of it as Python holds it.** -/
theorem isText_ofJson (hfloat : ∀ cs d, readFloat cs = some d → float cs = name d) :
    ∀ (v : Json) (cs : List Char), Json.IsText readFloat v cs →
      IsText float (ofJson name v) (ofChars cs)
  | .null, _, h => congrArg ofChars h
  | .bool _, _, h => congrArg ofChars h
  | .int n, cs, h => by
      obtain ⟨sign, whole, hparts, rfl, rfl⟩ := h
      refine ⟨⟨sign, whole, [], []⟩, hparts, rfl, ?_, rfl⟩
      rw [Numeral.text, List.append_nil, List.append_nil]
  | .float d, cs, h => by
      obtain ⟨sign, whole, frac, ex, hparts, hpoint, rfl, hd⟩ := h
      exact ⟨⟨sign, whole, frac, ex⟩, hparts, hpoint, rfl, (hfloat _ d hd).symm⟩
  | .str s, cs, h => isLiteral_ofString h
  | .arr xs, cs, h => by
      obtain ⟨body, rfl, hbody⟩ := h
      exact ⟨ofChars body, by simp [ofChars],
        isItems_ofJson hfloat xs body hbody⟩
  | .obj ms, cs, h => by
      obtain ⟨hnodup, body, rfl, hbody⟩ := h
      refine ⟨?_, ofChars body, by simp [ofChars],
        isMembers_ofJson hfloat ms body hbody⟩
      rw [keys_ofMembers]
      exact hnodup.map ofString_injective
  termination_by structural v => v

theorem isItems_ofJson (hfloat : ∀ cs d, readFloat cs = some d → float cs = name d) :
    ∀ (xs : List Json) (cs : List Char), Json.IsItems readFloat xs cs →
      IsItems float (ofItems name xs) (ofChars cs)
  | [], cs, h => blanks_ofChars h
  | x :: xs, cs, h => by
      obtain ⟨first, more, rfl, hfirst, hmore⟩ := h
      exact ⟨ofChars first, ofChars more, ofChars_append _ _,
        spaced_ofChars (isText_ofJson hfloat x) hfirst, isMoreItems_ofJson hfloat xs more hmore⟩
  termination_by structural xs => xs

theorem isMoreItems_ofJson (hfloat : ∀ cs d, readFloat cs = some d → float cs = name d) :
    ∀ (xs : List Json) (cs : List Char), Json.IsMoreItems readFloat xs cs →
      IsMoreItems float (ofItems name xs) (ofChars cs)
  | [], cs, h => congrArg ofChars h
  | x :: xs, cs, h => by
      obtain ⟨first, more, rfl, hfirst, hmore⟩ := h
      exact ⟨ofChars first, ofChars more, by simp [ofChars],
        spaced_ofChars (isText_ofJson hfloat x) hfirst, isMoreItems_ofJson hfloat xs more hmore⟩
  termination_by structural xs => xs

theorem isMembers_ofJson (hfloat : ∀ cs d, readFloat cs = some d → float cs = name d) :
    ∀ (ms : List (String × Json)) (cs : List Char), Json.IsMembers readFloat ms cs →
      IsMembers float (ofMembers name ms) (ofChars cs)
  | [], cs, h => blanks_ofChars h
  | (k, v) :: ms, cs, h => by
      obtain ⟨key, value, more, rfl, hkey, hvalue, hmore⟩ := h
      refine ⟨ofChars key, ofChars value, ofChars more, ?_,
        spaced_ofChars (fun _ => isLiteral_ofString) hkey,
        spaced_ofChars (isText_ofJson hfloat v) hvalue, isMoreMembers_ofJson hfloat ms more hmore⟩
      simp [ofChars]
  termination_by structural ms => ms

theorem isMoreMembers_ofJson (hfloat : ∀ cs d, readFloat cs = some d → float cs = name d) :
    ∀ (ms : List (String × Json)) (cs : List Char), Json.IsMoreMembers readFloat ms cs →
      IsMoreMembers float (ofMembers name ms) (ofChars cs)
  | [], cs, h => congrArg ofChars h
  | (k, v) :: ms, cs, h => by
      obtain ⟨key, value, more, rfl, hkey, hvalue, hmore⟩ := h
      refine ⟨ofChars key, ofChars value, ofChars more, ?_,
        spaced_ofChars (fun _ => isLiteral_ofString) hkey,
        spaced_ofChars (isText_ofJson hfloat v) hvalue, isMoreMembers_ofJson hfloat ms more hmore⟩
      simp [ofChars]
  termination_by structural ms => ms
end

end Texts

/-! ## §3. Reading. -/

section Reading

variable {φ : Type} {name : Decimal → φ} {isFloat : Decimal → Bool}

mutual
/-- What the one reader has room for the other has. -/
theorem limits_ofJson : ∀ (v : Json) (limit : Nat), Json.readableIn isFloat limit v = true →
    depth (ofJson name v) ≤ limit ∧ longest (ofJson name v) ≤ 4300
  | .null, _, _ => ⟨Nat.zero_le _, Nat.zero_le _⟩
  | .bool _, _, _ => ⟨Nat.zero_le _, Nat.zero_le _⟩
  | .float _, _, _ => ⟨Nat.zero_le _, Nat.zero_le _⟩
  | .str _, _, _ => ⟨Nat.zero_le _, Nat.zero_le _⟩
  | .int n, limit, h => by
      refine ⟨Nat.zero_le _, ?_⟩
      show (Nat.toDigits 10 n.natAbs).length ≤ 4300
      cases limit <;> exact of_decide_eq_true h
  | .arr xs, 0, h => by cases h
  | .obj ms, 0, h => by cases h
  | .arr xs, limit + 1, h => by
      obtain ⟨hdepth, hdigits⟩ := limitsItems_ofJson xs limit h
      exact ⟨Nat.succ_le_succ hdepth, hdigits⟩
  | .obj ms, limit + 1, h => by
      obtain ⟨hdepth, hdigits⟩ := limitsMembers_ofJson ms limit (Bool.and_eq_true_iff.1 h).2
      exact ⟨Nat.succ_le_succ hdepth, hdigits⟩
  termination_by structural v => v

theorem limitsItems_ofJson : ∀ (xs : List Json) (limit : Nat),
    Json.readableItemsIn isFloat limit xs = true →
      depthItems (ofItems name xs) ≤ limit ∧ longestItem (ofItems name xs) ≤ 4300
  | [], _, _ => ⟨Nat.zero_le _, Nat.zero_le _⟩
  | x :: xs, limit, h => by
      obtain ⟨hx, hxs⟩ := Bool.and_eq_true_iff.1 h
      obtain ⟨hdepth, hdigits⟩ := limits_ofJson x limit hx
      obtain ⟨hdepths, hdigitss⟩ := limitsItems_ofJson xs limit hxs
      exact ⟨Nat.max_le.2 ⟨hdepth, hdepths⟩, Nat.max_le.2 ⟨hdigits, hdigitss⟩⟩
  termination_by structural xs => xs

theorem limitsMembers_ofJson : ∀ (ms : List (String × Json)) (limit : Nat),
    Json.readableMembersIn isFloat limit ms = true →
      depthMembers (ofMembers name ms) ≤ limit ∧ longestMember (ofMembers name ms) ≤ 4300
  | [], _, _ => ⟨Nat.zero_le _, Nat.zero_le _⟩
  | (_, v) :: ms, limit, h => by
      obtain ⟨hv, hms⟩ := Bool.and_eq_true_iff.1 h
      obtain ⟨hdepth, hdigits⟩ := limits_ofJson v limit hv
      obtain ⟨hdepths, hdigitss⟩ := limitsMembers_ofJson ms limit hms
      exact ⟨Nat.max_le.2 ⟨hdepth, hdepths⟩, Nat.max_le.2 ⟨hdigits, hdigitss⟩⟩
  termination_by structural ms => ms
end

/-- **What is read as a value of `Json` Python reads as this value.** -/
theorem loads_ofJson {readFloat : List Char → Option Decimal} {float : List Char → φ}
    (hfloat : ∀ cs d, readFloat cs = some d → float cs = name d) {limit : Nat} {cs : List Char}
    {v : Json} (h : Json.loads readFloat limit cs = .ok v) :
    loads float 4300 limit (ofChars cs) = .ok (ofJson name v) := by
  obtain ⟨htext, hreadable⟩ := Json.loads_eq_ok_iff.1 h
  exact loads_eq_ok_iff.2 ⟨spaced_ofChars (isText_ofJson hfloat v) htext,
    limits_ofJson v limit hreadable⟩

end Reading

end Rpy.Foundation.PyJson

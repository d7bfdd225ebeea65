/-
  Rpy.JsonUtils
  ─────────────
  **WHICH TEXTS ARE DECODED AS AN OBJECT** (`app/json_utils.py`).

  A text is read strictly, at every depth, and an object is returned as it
  was read.  Any other value is handed to `dict`, which accepts a list of
  pairs and an empty text: such a text of no object is decoded too.  The
  texts here are all those that Python can hold, with halves of surrogate
  pairs and with numbers beyond the doubles.

    • `decodeJsonObject`        — `decode_json_object`,
    • `ObjectText`              — the strict texts of an object,
    • `DecodesObjects`          — exactly these are decoded, as what they are
                                  texts of,
    • `isPairs`, `returns_ofValue` — what `dict` accepts,
    • `decodeJsonObject_eq_ok_iff` — what is decoded, and as what,
    • `decodesObjects_iff`      — **where objects and nothing else are**,
    • `loadsStrictJson_ofString` — the reader of the other modules agrees,
    • `not_decodesObjects`      — a text of no object that is decoded.
-/
import Rpy.Foundation.Assoc
import Rpy.Foundation.PyJsonOfJson
import Rpy.Platform

namespace Rpy.JsonUtils

open Rpy.Foundation Rpy.Foundation.PyJson
open Rpy.Foundation.Json (LoadsError)

/-! ## §1. Decoding. -/

/-- What of the interpreter says how a text is read. -/
structure Interpreter (φ : Type) where
  /-- `float(text)` of a JSON number -/
  float : List Char → φ
  /-- how many brackets may be open at once before `RecursionError` -/
  nesting : Nat
  /-- how many digits an integer may have before `int` raises: where there is a
  limit, `sys.get_int_max_str_digits()` -/
  maxDigits : Nat

/-- What `dict` raises. -/
inductive DictError where
  | value
  | type
deriving Repr, DecidableEq

section Decoding

variable {φ : Type} (py : Interpreter φ)

/-- A `dict`: its keys that are texts with their values, and whether it has
other keys. -/
structure Dict (φ : Type) where
  members : List (Text × Value φ) := []
  mixed : Bool := false

/-- An element of an update sequence of a `dict`. -/
def pairOf : Value φ → Except DictError (Option Text × Value φ)
  | .arr [.str key, value] => .ok (some key, value)
  -- a list or a dict cannot be hashed
  | .arr [.arr _, _] => .error .type
  | .arr [.obj _, _] => .error .type
  | .arr [_, value] => .ok (none, value)
  | .arr _ => .error .value
  | .str [key, value] => .ok (some [key], .str [value])
  | .str _ => .error .value
  | .obj [(key, _), (value, _)] => .ok (some key, .str value)
  | .obj _ => .error .value
  | _ => .error .type

/-- `dict(value)` -/
def Dict.ofValue : Value φ → Except DictError (Dict φ)
  | .obj members => .ok { members }
  | .arr items => do
      let pairs ← items.mapM pairOf
      let texts := pairs.filterMap fun (key, value) => key.map (·, value)
      return {
        members := texts.foldl (fun members (key, value) => assign key value members) []
        mixed := pairs.any fun (key, _) => key.isNone }
  | .str [] => .ok {}
  | .str _ => .error .value
  | _ => .error .type

/-- `loads_strict_json` -/
def loadsStrictJson (s : Text) : Except LoadsError (Value φ) :=
  loads py.float py.maxDigits py.nesting s

/-- `decode_json_value` -/
def decodeJsonValue : Value φ → Except LoadsError (Value φ)
  | .str s => loadsStrictJson py s
  | value => .ok value

/-- `decode_json_object`; a `TypeError` or `ValueError` of `dict` becomes a
`ValueError`. -/
def decodeJsonObject : Value φ → Except LoadsError (Dict φ)
  | .null => .ok {}
  | value => do
      let decoded ← decodeJsonValue py value
      (Dict.ofValue decoded).mapError fun _ => .value

/-! ## §2. The texts of an object. -/

/-- The text is strict JSON of the value: no object in it has a key twice, and
there is no `NaN` and no `Infinity`. -/
def StrictText (value : Value φ) (s : Text) : Prop :=
  Spaced (IsText py.float value) s

/-- Strict JSON of an object. -/
def ObjectText (members : List (Text × Value φ)) (s : Text) : Prop :=
  StrictText py (.obj members) s

/-- The text is decoded exactly where it is strict JSON of an object, and as
this object. -/
def DecodesObjects (s : Text) : Prop :=
  ∀ d, decodeJsonObject py (.str s) = .ok d ↔ ∃ members, ObjectText py members s ∧ d = { members }

/-- The interpreter can read a text of the value: it is not nested too deep and
has no integer with too many digits. -/
def Readable (value : Value φ) : Prop :=
  depth value ≤ py.nesting ∧ longest value ≤ py.maxDigits

end Decoding

section Pairs

variable {φ : Type}

/-! ## §3. What `dict` accepts. -/

/-- A key and a value: a list of two with a key that can be hashed, a text of
two code points, or an object with two keys. -/
def isPair : Value φ → Bool
  | .arr [key, _] => !key.isArr && !key.isObj
  | .str s => s.length == 2
  | .obj members => members.length == 2
  | _ => false

/-- A list of pairs, or an empty text. -/
def isPairs : Value φ → Bool
  | .arr items => items.all isPair
  | .str s => s.isEmpty
  | _ => false

/-- `dict` takes the item of a list as a key and a value exactly where it is a
pair. -/
theorem returns_pairOf (item : Value φ) : Returns (pairOf item) ↔ isPair item = true := by
  cases item with
  | arr items =>
      rcases items with _ | ⟨key, _ | ⟨value, _ | ⟨_, _⟩⟩⟩
      · exact iff_of_false (not_returns_error _) Bool.false_ne_true
      · cases key <;> exact iff_of_false (not_returns_error _) Bool.false_ne_true
      · cases key with
        | arr _ => exact iff_of_false (not_returns_error _) Bool.false_ne_true
        | obj _ => exact iff_of_false (not_returns_error _) Bool.false_ne_true
        | _ => exact iff_of_true (returns_ok _) rfl
      · cases key <;> exact iff_of_false (not_returns_error _) Bool.false_ne_true
  | str s =>
      rcases s with _ | ⟨_, _ | ⟨_, _ | ⟨_, _⟩⟩⟩
      · exact iff_of_false (not_returns_error _) Bool.false_ne_true
      · exact iff_of_false (not_returns_error _) Bool.false_ne_true
      · exact iff_of_true (returns_ok _) rfl
      · exact iff_of_false (not_returns_error _) Bool.false_ne_true
  | obj members =>
      rcases members with _ | ⟨_, _ | ⟨_, _ | ⟨_, _⟩⟩⟩
      · exact iff_of_false (not_returns_error _) Bool.false_ne_true
      · exact iff_of_false (not_returns_error _) Bool.false_ne_true
      · exact iff_of_true (returns_ok _) rfl
      · exact iff_of_false (not_returns_error _) Bool.false_ne_true
  | _ => exact iff_of_false (not_returns_error _) Bool.false_ne_true

/-- **`dict` accepts an object, and what consists of pairs.** -/
theorem returns_ofValue (value : Value φ) :
    Returns (Dict.ofValue value) ↔ (value.isObj || isPairs value) = true := by
  cases value with
  | obj members => exact iff_of_true (returns_ok _) rfl
  | arr items =>
      show Returns (items.mapM pairOf >>= _) ↔ items.all isPair = true
      rw [returns_bind, List.all_eq_true]
      simp only [← returns_pairOf]
      rw [← returns_mapM]
      constructor
      · rintro ⟨pairs, hpairs, -⟩
        exact ⟨pairs, hpairs⟩
      · rintro ⟨pairs, hpairs⟩
        exact ⟨pairs, hpairs, returns_ok _⟩
  | str s =>
      cases s with
      | nil => exact iff_of_true (returns_ok _) rfl
      | cons p s => exact iff_of_false (not_returns_error _) Bool.false_ne_true
  | _ => exact iff_of_false (not_returns_error _) Bool.false_ne_true

end Pairs

section Settling

variable {φ : Type} {py : Interpreter φ}

/-! ## §4. What is decoded. -/

/-- **A text is decoded as what `dict` makes of the value it is a text of**,
where the interpreter can read it. -/
theorem decodeJsonObject_eq_ok_iff {s : Text} {d : Dict φ} :
    decodeJsonObject py (.str s) = .ok d ↔
      ∃ value, StrictText py value s ∧ Readable py value ∧ Dict.ofValue value = .ok d := by
  have hvalue : ∀ value, decodeJsonValue py (.str s) = .ok value ↔
      StrictText py value s ∧ Readable py value := fun _ => loads_eq_ok_iff
  show (decodeJsonValue py (.str s) >>= fun decoded =>
    (Dict.ofValue decoded).mapError fun _ => .value) = .ok d ↔ _
  rw [bind_eq_ok]
  constructor
  · rintro ⟨value, hdecoded, hd⟩
    obtain ⟨htext, hreadable⟩ := (hvalue value).1 hdecoded
    exact ⟨value, htext, hreadable, mapError_eq_ok.1 hd⟩
  · rintro ⟨value, htext, hreadable, hd⟩
    exact ⟨value, (hvalue value).2 ⟨htext, hreadable⟩, mapError_eq_ok.2 hd⟩

/-- **EXACTLY THE STRICT TEXTS OF OBJECTS ARE DECODED** where the text is none
of pairs that could be read, and none of an object that could not. -/
theorem decodesObjects_iff (s : Text) : DecodesObjects py s ↔
    ∀ value, StrictText py value s → (value.isObj || isPairs value) = true →
      (Readable py value ↔ value.isObj = true) := by
  constructor
  · intro hdecodes value htext hdict
    obtain ⟨d, hd⟩ := (returns_ofValue value).2 hdict
    constructor
    · intro hreadable
      have hdecoded := decodeJsonObject_eq_ok_iff.2 ⟨value, htext, hreadable, hd⟩
      obtain ⟨members, hmembers, -⟩ := (hdecodes d).1 hdecoded
      rw [text_unique htext hmembers]
      rfl
    · intro hobject
      cases value with
      | obj members =>
          have hdecoded := (hdecodes { members }).2 ⟨members, htext, rfl⟩
          obtain ⟨value, hvalue, hreadable, -⟩ := decodeJsonObject_eq_ok_iff.1 hdecoded
          rwa [text_unique htext hvalue]
      | _ => cases hobject
  · intro hcondition d
    constructor
    · intro hdecoded
      obtain ⟨value, htext, hreadable, hd⟩ := decodeJsonObject_eq_ok_iff.1 hdecoded
      have hobject := (hcondition value htext ((returns_ofValue value).1 ⟨d, hd⟩)).1 hreadable
      cases value with
      | obj members => exact ⟨members, htext, (Except.ok.inj hd).symm⟩
      | _ => cases hobject
    · rintro ⟨members, htext, rfl⟩
      have hreadable := (hcondition (.obj members) htext rfl).2 rfl
      exact decodeJsonObject_eq_ok_iff.2 ⟨.obj members, htext, hreadable, rfl⟩

/-- What the reader of the other modules returns, which holds no halves of
pairs and no infinite floats, is what is read here. -/
theorem loadsStrictJson_ofString {u : Unicode} {name : Decimal → φ}
    (hfloat : ∀ cs d, u.readFloat cs = some d → py.float cs = name d)
    (hnesting : py.nesting = u.recursionLimit) (hdigits : py.maxDigits = 4300) {s : String}
    {value : Json} (h : u.loadsStrict s = .ok value) :
    loadsStrictJson py (ofString s) = .ok (ofJson name value) := by
  unfold loadsStrictJson
  rw [hnesting, hdigits]
  exact loads_ofJson hfloat h

end Settling

/-- The limits of the interpreter where none is configured; a float is named
by the text that it is read from. -/
def cpython : Interpreter (List Char) where
  float := id
  nesting := 1000
  maxDigits := 4300

/-- **A list of a pair is decoded as an object**, which no object has as its
text. -/
theorem not_decodesObjects : ¬ DecodesObjects cpython (ofChars "[[\"a\", 1]]".toList) := by
  intro hdecodes
  obtain ⟨d, hdecoded⟩ : ∃ d, decodeJsonObject cpython
      (.str (ofChars "[[\"a\", 1]]".toList)) = .ok d := isOk_iff.1 (by decide +kernel)
  obtain ⟨members, ⟨before, text, after, hs, -, ⟨-, body, rfl, -⟩, -⟩, -⟩ := (hdecodes d).1 hdecoded
  have hbrace : .char '\x7b' ∈ ofChars "[[\"a\", 1]]".toList := by
    rw [hs]
    exact List.mem_append_right before (List.mem_append_left after List.mem_cons_self)
  exact absurd hbrace (by decide)

/-- Half a pair as a key, and a number beyond the doubles: decoded too. -/
example : ((decodeJsonObject cpython (.str (ofChars "[[\"\\ud800\", 1e400]]".toList))).toOption.map
    fun d => d.members.map Prod.fst) = some [[.half 0]] := by decide +kernel

end Rpy.JsonUtils

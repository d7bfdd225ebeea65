/-
  Rpy.Foundation.PyJson
  ─────────────────────
  **READING JSON AS PYTHON DOES, WITH ALL ITS TEXTS AND FLOATS.**

  A `str` is a list of code points, and half of a surrogate pair is one: an
  escape of half a pair alone is kept.  `float` accepts every number, and
  reads one beyond the doubles as infinite.  `loads` is the recursive
  descent of `json.loads` with the two hooks that make it strict: an object
  has no key twice, and there is no number but the decimal ones.

    • `CodePoint`, `Text`  — a `str`,
    • `Value`              — what is read,
    • `loads`              — `json.loads` with the strict hooks,
    • `depth`, `longest`   — what the interpreter sets limits to.
-/
import Rpy.Foundation.JsonGrammar

namespace Rpy.Foundation.PyJson

open Rpy.Foundation.Json (LoadsError Numeral numeralAt readUnit shortEscape signedInt)

/-! ## §1. Texts. -/

/-- A code point: a character, or half of a surrogate pair. -/
inductive CodePoint where
  | char (c : Char)
  | half (n : Fin 2048)
deriving Repr, DecidableEq

/-- A `str`. -/
abbrev Text := List CodePoint

/-- The text of some characters. -/
def ofChars (cs : List Char) : Text := cs.map .char

/-- The characters up to the first half of a pair. -/
def leading : Text → List Char
  | .char c :: cs => c :: leading cs
  | _ => []

/-- `chr(unit)` -/
def chr (unit : Nat) : CodePoint :=
  if 55296 ≤ unit ∧ unit < 57344 then .half (Fin.ofNat 2048 (unit - 55296))
  else .char (Char.ofNat unit)

/-! ## §2. Values. -/

/-- What `json.loads` returns; `φ` are the floats. -/
inductive Value (φ : Type) where
  | null
  | bool (b : Bool)
  | int (n : Int)
  | float (x : φ)
  | str (s : Text)
  | arr (xs : List (Value φ))
  | obj (members : List (Text × Value φ))

section Measures

variable {φ : Type}

/-- `isinstance(value, dict)` -/
def Value.isObj : Value φ → Bool
  | .obj _ => true
  | _ => false

/-- `isinstance(value, list)` -/
def Value.isArr : Value φ → Bool
  | .arr _ => true
  | _ => false

mutual
/-- How deep brackets are nested in the texts of the value. -/
def depth : Value φ → Nat
  | .arr xs => depthItems xs + 1
  | .obj members => depthMembers members + 1
  | _ => 0
  termination_by structural v => v

def depthItems : List (Value φ) → Nat
  | [] => 0
  | x :: xs => max (depth x) (depthItems xs)
  termination_by structural xs => xs

def depthMembers : List (Text × Value φ) → Nat
  | [] => 0
  | (_, v) :: ms => max (depth v) (depthMembers ms)
  termination_by structural ms => ms
end

mutual
/-- How many digits its longest integer has. -/
def longest : Value φ → Nat
  | .int n => (Nat.toDigits 10 n.natAbs).length
  | .arr xs => longestItem xs
  | .obj members => longestMember members
  | _ => 0
  termination_by structural v => v

def longestItem : List (Value φ) → Nat
  | [] => 0
  | x :: xs => max (longest x) (longestItem xs)
  termination_by structural xs => xs

def longestMember : List (Text × Value φ) → Nat
  | [] => 0
  | (_, v) :: ms => max (longest v) (longestMember ms)
  termination_by structural ms => ms
end

end Measures

/-! ## §3. Reading literals. -/

/-- The second half of a pair, if its escape is next. -/
def lowEscape : Text → Option (Nat × Text)
  | .char '\\' :: .char 'u' :: .char a :: .char b :: .char c :: .char d :: rest =>
      ((readUnit a b c d).filter fun n => decide (56320 ≤ n ∧ n < 57344)).map (·, rest)
  | _ => none

/-- The code point after a first unit.  The first half of a pair is joined with
a second one; without it, it stands for itself. -/
def pairUnits (n : Nat) (rest : Text) : CodePoint × Text :=
  if 55296 ≤ n ∧ n < 56320 then
    match lowEscape rest with
    | some (m, rest) => (.char (Char.ofNat (65536 + (n - 55296) * 1024 + (m - 56320))), rest)
    | none => (chr n, rest)
  else (chr n, rest)

/-- One code point of a literal. -/
def readChar : Text → Option (CodePoint × Text)
  | .char '\\' :: .char 'u' :: .char a :: .char b :: .char c :: .char d :: rest =>
      (readUnit a b c d).map (pairUnits · rest)
  | .char '\\' :: .char c :: rest => (shortEscape c).map fun c => (.char c, rest)
  | .char '\\' :: _ => none
  | .char c :: rest => if c.toNat < 32 then none else some (.char c, rest)
  | .half n :: rest => some (.half n, rest)
  | [] => none

/-- The rest of a literal, after its first quotation mark (`scanstring`). -/
def scanChars : Nat → Text → Except LoadsError (Text × Text)
  | 0, _ => .error .value
  | fuel + 1, cs =>
      match cs with
      | .char '"' :: rest => .ok ([], rest)
      | cs =>
          match readChar cs with
          | none => .error .value
          | some (p, rest) => (scanChars fuel rest).map fun (s, rest) => (p :: s, rest)

/-! ## §4. Reading values. -/

/-- White space between the parts of a text. -/
def isBlank : CodePoint → Bool
  | .char c => Json.isBlank c
  | .half _ => false

def skipBlanks (cs : Text) : Text := cs.dropWhile isBlank

section Scan

variable {φ : Type} (float : List Char → φ) (maxDigits : Nat)

/-- A number.  An integer of more than `maxDigits` digits is not converted. -/
def scanNumber (cs : Text) : Except LoadsError (Value φ × Text) :=
  match numeralAt (leading cs) with
  | none => .error .value
  | some n =>
      let rest := cs.drop n.text.length
      if n.isInt then
        if maxDigits < n.whole.length then .error .value
        else .ok (.int (signedInt n.sign n.whole), rest)
      else .ok (.float (float n.text), rest)

mutual
/-- `scan_once`; `room` is how many more brackets may be opened. -/
def scanValue : Nat → Nat → Text → Except LoadsError (Value φ × Text)
  | 0, _, _ => .error .value
  | fuel + 1, room, cs =>
      match cs with
      | .char '"' :: rest => (scanChars (rest.length + 1) rest).map fun (s, rest) => (.str s, rest)
      | .char '[' :: rest =>
          match room with
          | 0 => .error .recursion
          | room + 1 =>
              match skipBlanks rest with
              | .char ']' :: rest => .ok (.arr [], rest)
              | rest => (scanItems fuel room rest).map fun (xs, rest) => (.arr xs, rest)
      | .char '\x7b' :: rest =>
          match room with
          | 0 => .error .recursion
          | room + 1 =>
              match skipBlanks rest with
              | .char '\x7d' :: rest => .ok (.obj [], rest)
              | rest => do
                  let (ms, rest) ← scanMembers fuel room rest
                  -- `_reject_duplicate_json_object_pairs`
                  if (ms.map Prod.fst).Nodup then .ok (.obj ms, rest) else .error .value
      | .char 'n' :: .char 'u' :: .char 'l' :: .char 'l' :: rest => .ok (.null, rest)
      | .char 't' :: .char 'r' :: .char 'u' :: .char 'e' :: rest => .ok (.bool true, rest)
      | .char 'f' :: .char 'a' :: .char 'l' :: .char 's' :: .char 'e' :: rest =>
          .ok (.bool false, rest)
      -- `_reject_non_standard_json_constant` raises what a text of no number does
      | cs => scanNumber float maxDigits cs
  termination_by structural fuel => fuel

/-- The items of an array that has one, and its closing bracket. -/
def scanItems : Nat → Nat → Text → Except LoadsError (List (Value φ) × Text)
  | 0, _, _ => .error .value
  | fuel + 1, room, cs => do
      let (x, rest) ← scanValue fuel room cs
      match skipBlanks rest with
      | .char ']' :: rest => .ok ([x], rest)
      | .char ',' :: rest =>
          (scanItems fuel room (skipBlanks rest)).map fun (xs, rest) => (x :: xs, rest)
      | _ => .error .value
  termination_by structural fuel => fuel

/-- The members of an object that has one, and its closing brace. -/
def scanMembers : Nat → Nat → Text → Except LoadsError (List (Text × Value φ) × Text)
  | 0, _, _ => .error .value
  | fuel + 1, room, cs =>
      match cs with
      | .char '"' :: rest => do
          let (k, rest) ← scanChars (rest.length + 1) rest
          match skipBlanks rest with
          | .char ':' :: rest => do
              let (v, rest) ← scanValue fuel room (skipBlanks rest)
              match skipBlanks rest with
              | .char '\x7d' :: rest => .ok ([(k, v)], rest)
              | .char ',' :: rest =>
                  (scanMembers fuel room (skipBlanks rest)).map fun (ms, rest) =>
                    ((k, v) :: ms, rest)
              | _ => .error .value
          | _ => .error .value
      | _ => .error .value
  termination_by structural fuel => fuel
end

/-- `json.loads` of a text with the hooks of `loads_strict_json`; at most
`nesting` brackets may be open at once. -/
def loads (nesting : Nat) (cs : Text) : Except LoadsError (Value φ) :=
  if cs.head? = some (.char '\ufeff') then .error .value
  else do
    let (v, rest) ← scanValue float maxDigits (2 * cs.length + 2) nesting (skipBlanks cs)
    if (skipBlanks rest).isEmpty then .ok v else .error .value

end Scan

end Rpy.Foundation.PyJson

/-
  Rpy.Foundation.JsonParse
  ────────────────────────
  **WRITING JSON TEXTS AND READING THEM STRICTLY.**

  `print` writes a value as `json.dumps` does, with or without blanks and
  in ASCII or not.  `loads` is the recursive descent of `json.loads`, with
  the two hooks that make it strict: an object has no key twice, and there
  is no number but the decimal ones.  A text nested deeper than the limit
  raises `RecursionError`, which is no `ValueError`.

    • `Json.print`        — `json.dumps`,
    • `Json.loads`        — `json.loads` with the strict hooks,
    • `Json.readChar_escapeIn`  — a character is read back.
-/
import Rpy.Foundation.JsonText
import Rpy.Foundation.Numerals

namespace Rpy.Foundation

namespace Json

/-! ## §1. Writing. -/

/-- The options of `json.dumps`: `ensure_ascii`, and whether the separators
are followed by a blank. -/
structure Style where
  ascii : Bool
  blanks : Bool
deriving Repr, DecidableEq

/-- The four hexadecimal digits of a UTF-16 unit. -/
def hex4 (n : Nat) : List Char :=
  [Nat.digitChar (n / 4096 % 16), Nat.digitChar (n / 256 % 16), Nat.digitChar (n / 16 % 16),
    Nat.digitChar (n % 16)]

/-- `\uXXXX` -/
def unit (n : Nat) : List Char := '\\' :: 'u' :: hex4 n

/-- A character inside a literal. -/
def escapeIn (style : Style) (c : Char) : List Char :=
  if c = '"' then ['\\', '"']
  else if c = '\\' then ['\\', '\\']
  else if c = '\n' then ['\\', 'n']
  else if c = '\r' then ['\\', 'r']
  else if c = '\t' then ['\\', 't']
  else if c = '\x08' then ['\\', 'b']
  else if c = '\x0c' then ['\\', 'f']
  else if c.toNat < 32 then unit c.toNat
  else if style.ascii && 126 < c.toNat then
    if c.toNat < 65536 then unit c.toNat
    else unit (55296 + (c.toNat - 65536) / 1024) ++ unit (56320 + (c.toNat - 65536) % 1024)
  else [c]

/-- A literal. -/
def literal (style : Style) (s : String) : List Char :=
  '"' :: (s.toList.flatMap (escapeIn style) ++ ['"'])

/-- A separator. -/
def Style.after (style : Style) (c : Char) : List Char :=
  if style.blanks then [c, ' '] else [c]

mutual
/-- The characters of `json.dumps(value, …)`. -/
def print (style : Style) : Json → List Char
  | .null => "null".toList
  | .bool b => (if b then "true" else "false").toList
  | .int n => (toString n).toList
  | .float d => d.repr.toList
  | .str s => literal style s
  | .arr xs => '[' :: (printItems style xs ++ [']'])
  | .obj members => '\x7b' :: (printMembers style members ++ ['\x7d'])
  termination_by structural v => v

def printItems (style : Style) : List Json → List Char
  | [] => []
  | x :: xs => print style x ++ printMoreItems style xs
  termination_by structural xs => xs

/-- The items after the first one. -/
def printMoreItems (style : Style) : List Json → List Char
  | [] => []
  | x :: xs => style.after ',' ++ (print style x ++ printMoreItems style xs)
  termination_by structural xs => xs

def printMembers (style : Style) : List (String × Json) → List Char
  | [] => []
  | (k, v) :: ms =>
      literal style k ++ (style.after ':' ++ (print style v ++ printMoreMembers style ms))
  termination_by structural ms => ms

/-- The members after the first one. -/
def printMoreMembers (style : Style) : List (String × Json) → List Char
  | [] => []
  | (k, v) :: ms =>
      style.after ',' ++ (literal style k ++ (style.after ':' ++
        (print style v ++ printMoreMembers style ms)))
  termination_by structural ms => ms
end

/-! ## §2. Reading literals and numbers. -/

/-- What `json.loads` raises: a `ValueError`, or a `RecursionError`. -/
inductive LoadsError where
  | value
  | recursion
deriving Repr, DecidableEq

/-- The value of a hexadecimal digit. -/
def hexDigit (c : Char) : Option Nat :=
  if '0' ≤ c ∧ c ≤ '9' then some (c.toNat - 48)
  else if 'a' ≤ c ∧ c ≤ 'f' then some (c.toNat - 87)
  else if 'A' ≤ c ∧ c ≤ 'F' then some (c.toNat - 55)
  else none

/-- The unit four hexadecimal digits name. -/
def readUnit (a b c d : Char) : Option Nat := do
  let a ← hexDigit a
  let b ← hexDigit b
  let c ← hexDigit c
  let d ← hexDigit d
  return ((a * 16 + b) * 16 + c) * 16 + d

/-- The character an escape other than `\u` names. -/
def shortEscape (c : Char) : Option Char :=
  if c = '"' then some '"'
  else if c = '\\' then some '\\'
  else if c = '/' then some '/'
  else if c = 'b' then some '\x08'
  else if c = 'f' then some '\x0c'
  else if c = 'n' then some '\n'
  else if c = 'r' then some '\r'
  else if c = 't' then some '\t'
  else none

/-- The character after a first unit, which may be half of a pair.  (Half a
pair alone is no character of a Lean text.) -/
def pairUnits (n : Nat) (rest : List Char) : Option (Char × List Char) :=
  if 55296 ≤ n ∧ n < 56320 then
    match rest with
    | '\\' :: 'u' :: a :: b :: c :: d :: rest => do
        let m ← readUnit a b c d
        if 56320 ≤ m ∧ m < 57344 then
          some (Char.ofNat (65536 + (n - 55296) * 1024 + (m - 56320)), rest)
        else none
    | _ => none
  else if 56320 ≤ n ∧ n < 57344 then none
  else some (Char.ofNat n, rest)

/-- One character of a literal. -/
def readChar : List Char → Option (Char × List Char)
  | '\\' :: 'u' :: a :: b :: c :: d :: rest => (readUnit a b c d).bind (pairUnits · rest)
  | '\\' :: c :: rest => (shortEscape c).map (·, rest)
  | '\\' :: [] => none
  | c :: rest => if c.toNat < 32 then none else some (c, rest)
  | [] => none

/-- The rest of a literal, after its first quotation mark. -/
def scanChars : Nat → List Char → Except LoadsError (List Char × List Char)
  | 0, _ => .error .value
  | fuel + 1, cs =>
      match cs with
      | '"' :: rest => .ok ([], rest)
      | cs =>
          match readChar cs with
          | none => .error .value
          | some (c, rest) => (scanChars fuel rest).map fun (s, rest) => (c :: s, rest)

/-- The longest run of digits. -/
def digits (cs : List Char) : List Char := cs.takeWhile Char.isDigit

/-- `0`, or digits that do not begin with `0`. -/
def intDigits : List Char → List Char
  | '0' :: _ => ['0']
  | cs => digits cs

/-- `\.\d+`, if it is there. -/
def fraction : List Char → List Char
  | '.' :: cs => if (digits cs).isEmpty then [] else '.' :: digits cs
  | _ => []

/-- `[eE][-+]?\d+`, if it is there. -/
def exponent : List Char → List Char
  | e :: cs =>
      if e == 'e' || e == 'E' then
        let sign := (cs.take 1).filter fun c => c == '-' || c == '+'
        let ds := digits (cs.drop sign.length)
        if ds.isEmpty then [] else e :: (sign ++ ds)
      else []
  | [] => []

/-- A number.  An integer of more than 4300 digits is not converted. -/
def scanNumber (readFloat : List Char → Option Decimal) (cs : List Char) :
    Except LoadsError (Json × List Char) :=
  let sign := (cs.take 1).filter (· == '-')
  let body := cs.drop sign.length
  let whole := intDigits body
  if whole.isEmpty then .error .value
  else
    let rest := body.drop whole.length
    let frac := fraction rest
    let rest := rest.drop frac.length
    let ex := exponent rest
    let rest := rest.drop ex.length
    if frac.isEmpty && ex.isEmpty then
      if 4300 < whole.length then .error .value
      else
        let n : Int := Nat.ofDigitChars 10 whole 0
        .ok (.int (if sign.isEmpty then n else -n), rest)
    else
      match readFloat (sign ++ whole ++ frac ++ ex) with
      | some d => .ok (.float d, rest)
      | none => .error .value

/-! ## §3. Reading values. -/

def isBlank (c : Char) : Bool := c == ' ' || c == '\t' || c == '\n' || c == '\r'

def skipBlanks (cs : List Char) : List Char := cs.dropWhile isBlank

section Scan

variable (readFloat : List Char → Option Decimal)

mutual
/-- `scan_once`; `depth` is how many more brackets may be opened. -/
def scanValue : Nat → Nat → List Char → Except LoadsError (Json × List Char)
  | 0, _, _ => .error .value
  | fuel + 1, depth, cs =>
      match cs with
      | '"' :: rest =>
          (scanChars (rest.length + 1) rest).map fun (s, rest) => (.str (String.ofList s), rest)
      | '[' :: rest =>
          match depth with
          | 0 => .error .recursion
          | depth + 1 =>
              match skipBlanks rest with
              | ']' :: rest => .ok (.arr [], rest)
              | rest => (scanItems fuel depth rest).map fun (xs, rest) => (.arr xs, rest)
      | '\x7b' :: rest =>
          match depth with
          | 0 => .error .recursion
          | depth + 1 =>
              match skipBlanks rest with
              | '\x7d' :: rest => .ok (.obj [], rest)
              | rest => do
                  let (ms, rest) ← scanMembers fuel depth rest
                  -- `_reject_duplicate_json_object_pairs`
                  if (ms.map Prod.fst).Nodup then .ok (.obj ms, rest) else .error .value
      | 'n' :: 'u' :: 'l' :: 'l' :: rest => .ok (.null, rest)
      | 't' :: 'r' :: 'u' :: 'e' :: rest => .ok (.bool true, rest)
      | 'f' :: 'a' :: 'l' :: 's' :: 'e' :: rest => .ok (.bool false, rest)
      | cs => scanNumber readFloat cs
  termination_by structural fuel => fuel

/-- The items of an array that has one, and its closing bracket. -/
def scanItems : Nat → Nat → List Char → Except LoadsError (List Json × List Char)
  | 0, _, _ => .error .value
  | fuel + 1, depth, cs => do
      let (x, rest) ← scanValue fuel depth cs
      match skipBlanks rest with
      | ']' :: rest => .ok ([x], rest)
      | ',' :: rest =>
          (scanItems fuel depth (skipBlanks rest)).map fun (xs, rest) => (x :: xs, rest)
      | _ => .error .value
  termination_by structural fuel => fuel

/-- The members of an object that has one, and its closing brace. -/
def scanMembers : Nat → Nat → List Char →
    Except LoadsError (List (String × Json) × List Char)
  | 0, _, _ => .error .value
  | fuel + 1, depth, cs =>
      match cs with
      | '"' :: rest => do
          let (k, rest) ← scanChars (rest.length + 1) rest
          match skipBlanks rest with
          | ':' :: rest => do
              let (v, rest) ← scanValue fuel depth (skipBlanks rest)
              match skipBlanks rest with
              | '\x7d' :: rest => .ok ([(String.ofList k, v)], rest)
              | ',' :: rest =>
                  (scanMembers fuel depth (skipBlanks rest)).map fun (ms, rest) =>
                    ((String.ofList k, v) :: ms, rest)
              | _ => .error .value
          | _ => .error .value
      | _ => .error .value
  termination_by structural fuel => fuel
end

/-- `json.loads` of a text with the hooks of `loads_strict_json`; at most
`limit` brackets may be open at once. -/
def loads (limit : Nat) (cs : List Char) : Except LoadsError Json :=
  if cs.head? = some '\ufeff' then .error .value
  else do
    let (v, rest) ← scanValue readFloat (2 * cs.length + 2) limit (skipBlanks cs)
    if (skipBlanks rest).isEmpty then .ok v else .error .value

end Scan

/-! ## §4. A character is read back. -/

theorem hexDigit_digitChar : ∀ n < 16, hexDigit (Nat.digitChar n) = some n := by decide

theorem readUnit_hex4 {n : Nat} (h : n < 65536) :
    readUnit (Nat.digitChar (n / 4096 % 16)) (Nat.digitChar (n / 256 % 16))
      (Nat.digitChar (n / 16 % 16)) (Nat.digitChar (n % 16)) = some n := by
  have hvalue : ((n / 4096 % 16 * 16 + n / 256 % 16) * 16 + n / 16 % 16) * 16 + n % 16 = n := by
    omega
  unfold readUnit
  rw [hexDigit_digitChar _ (by omega), hexDigit_digitChar _ (by omega),
    hexDigit_digitChar _ (by omega), hexDigit_digitChar _ (by omega)]
  exact congrArg some hvalue

/-- A unit that is no half of a pair. -/
theorem readChar_unit {n : Nat} (hn : n < 65536) (hhalf : n < 55296 ∨ 57344 ≤ n)
    (r : List Char) : readChar (unit n ++ r) = some (Char.ofNat n, r) := by
  have hread : readChar (unit n ++ r) = (readUnit (Nat.digitChar (n / 4096 % 16))
      (Nat.digitChar (n / 256 % 16)) (Nat.digitChar (n / 16 % 16))
      (Nat.digitChar (n % 16))).bind (pairUnits · r) := rfl
  have hhigh : ¬ (55296 ≤ n ∧ n < 56320) := by omega
  have hlow : ¬ (56320 ≤ n ∧ n < 57344) := by omega
  rw [hread, readUnit_hex4 hn]
  show pairUnits n r = _
  unfold pairUnits
  rw [if_neg hhigh, if_neg hlow]

/-- The two halves of a pair. -/
theorem readChar_halves {hi lo : Nat} (hhi : 55296 ≤ hi ∧ hi < 56320)
    (hlo : 56320 ≤ lo ∧ lo < 57344) (r : List Char) :
    readChar (unit hi ++ (unit lo ++ r)) =
      some (Char.ofNat (65536 + (hi - 55296) * 1024 + (lo - 56320)), r) := by
  have hread : readChar (unit hi ++ (unit lo ++ r)) =
      (readUnit (Nat.digitChar (hi / 4096 % 16)) (Nat.digitChar (hi / 256 % 16))
        (Nat.digitChar (hi / 16 % 16)) (Nat.digitChar (hi % 16))).bind
          (pairUnits · (unit lo ++ r)) := rfl
  rw [hread, readUnit_hex4 (by omega), Option.bind_some]
  unfold pairUnits
  rw [if_pos hhi]
  unfold unit hex4
  simp only [List.cons_append, List.nil_append, readUnit_hex4 (show lo < 65536 by omega),
    Option.bind_eq_bind, Option.bind_some, if_pos hlo]

/-- The two units of a character beyond the first plane. -/
theorem readChar_pair {n : Nat} (hlow : 65536 ≤ n) (hhigh : n < 1114112) (r : List Char) :
    readChar (unit (55296 + (n - 65536) / 1024) ++ unit (56320 + (n - 65536) % 1024) ++ r) =
      some (Char.ofNat n, r) := by
  have hhi : 55296 ≤ 55296 + (n - 65536) / 1024 ∧ 55296 + (n - 65536) / 1024 < 56320 := by omega
  have hlo : 56320 ≤ 56320 + (n - 65536) % 1024 ∧ 56320 + (n - 65536) % 1024 < 57344 := by omega
  have hvalue : 65536 + (55296 + (n - 65536) / 1024 - 55296) * 1024 +
      (56320 + (n - 65536) % 1024 - 56320) = n := by omega
  rw [List.append_assoc, readChar_halves hhi hlo, hvalue]

/-- A character has no number among the halves of pairs. -/
theorem toNat_valid (c : Char) : (c.toNat < 55296 ∨ 57344 ≤ c.toNat) ∧ c.toNat < 1114112 := by
  have h := c.valid
  unfold UInt32.isValidChar Nat.isValidChar at h
  show (c.val.toNat < 55296 ∨ 57344 ≤ c.val.toNat) ∧ c.val.toNat < 1114112
  omega

section Literals

variable {style : Style}

/-- **What is read is the character that was written.** -/
theorem readChar_escapeIn (c : Char) (r : List Char) :
    readChar (escapeIn style c ++ r) = some (c, r) := by
  have hvalid := toNat_valid c
  unfold escapeIn
  split
  · next h => rw [h]; rfl
  split
  · next h => rw [h]; rfl
  split
  · next h => rw [h]; rfl
  split
  · next h => rw [h]; rfl
  split
  · next h => rw [h]; rfl
  split
  · next h => rw [h]; rfl
  split
  · next h => rw [h]; rfl
  split
  · next hcontrol => rw [readChar_unit (by omega) hvalid.1, Char.ofNat_toNat]
  split
  · split
    · next hplane => rw [readChar_unit hplane hvalid.1, Char.ofNat_toNat]
    · next hplane => rw [readChar_pair (by omega) hvalid.2, Char.ofNat_toNat]
  · next hslash _ _ _ _ _ hcontrol _ =>
      show readChar (c :: r) = _
      unfold readChar
      split <;> simp_all

/-- No character is written with a quotation mark first. -/
theorem escapeIn_head (c : Char) (r s : List Char) : escapeIn style c ++ r ≠ '"' :: s := by
  intro h
  have hread : readChar (escapeIn style c ++ r) = some (c, r) := readChar_escapeIn c r
  rw [h] at hread
  obtain ⟨rfl, -⟩ := Prod.mk.inj (Option.some.inj hread)
  cases h

end Literals

/-! ## §5. What ends a number. -/

/-- What may follow a value. -/
def Delimited (rest : List Char) : Prop :=
  rest = [] ∨ ∃ c t, rest = c :: t ∧ (c = ',' ∨ c = ']' ∨ c = '\x7d' ∨ c = ' ' ∨ c = '\t' ∨
    c = '\n' ∨ c = '\r')

theorem fraction_delimited {r : List Char} (hr : Delimited r) : fraction r = [] := by
  rcases hr with rfl | ⟨c, t, rfl, rfl | rfl | rfl | rfl | rfl | rfl | rfl⟩ <;> rfl

theorem exponent_delimited {r : List Char} (hr : Delimited r) : exponent r = [] := by
  rcases hr with rfl | ⟨c, t, rfl, rfl | rfl | rfl | rfl | rfl | rfl | rfl⟩ <;> rfl

/-! ## §6. What can be read. -/

mutual
/-- A text of the value can be read: it is nested at most `depth` deep, no
object has a key twice, no integer is too long, and there is no float. -/
def readable : Nat → Json → Bool
  | _, .float _ => false
  | _, .int n => decide ((Nat.toDigits 10 n.natAbs).length ≤ 4300)
  | depth + 1, .arr xs => readableItems depth xs
  | depth + 1, .obj members =>
      decide (members.map Prod.fst).Nodup && readableMembers depth members
  | 0, .arr _ => false
  | 0, .obj _ => false
  | _, _ => true
  termination_by structural _ v => v

def readableItems : Nat → List Json → Bool
  | _, [] => true
  | depth, x :: xs => readable depth x && readableItems depth xs
  termination_by structural _ xs => xs

def readableMembers : Nat → List (String × Json) → Bool
  | _, [] => true
  | depth, (_, v) :: ms => readable depth v && readableMembers depth ms
  termination_by structural _ ms => ms
end

/-! ## §7. A literal is longer than its text. -/

section Lengths

variable {readFloat : List Char → Option Decimal}

theorem pairUnits_length {n : Nat} {cs rest : List Char} {c : Char}
    (h : pairUnits n cs = some (c, rest)) : rest.length ≤ cs.length := by
  unfold pairUnits at h
  split at h
  · split at h
    · obtain ⟨m, -, h⟩ := Option.bind_eq_some_iff.1 h
      split at h
      · obtain ⟨-, rfl⟩ := Prod.mk.inj (Option.some.inj h)
        simp only [List.length_cons]
        omega
      · cases h
    · cases h
  · split at h
    · cases h
    · obtain ⟨-, rfl⟩ := Prod.mk.inj (Option.some.inj h)
      exact Nat.le_refl _

/-- Each character takes one at least. -/
theorem readChar_length {cs rest : List Char} {c : Char} (h : readChar cs = some (c, rest)) :
    rest.length < cs.length := by
  unfold readChar at h
  split at h
  · obtain ⟨n, -, h⟩ := Option.bind_eq_some_iff.1 h
    have hle := pairUnits_length h
    simp only [List.length_cons]
    omega
  · obtain ⟨d, -, h⟩ := Option.map_eq_some_iff.1 h
    obtain ⟨-, rfl⟩ := Prod.mk.inj h
    simp only [List.length_cons]
    omega
  · cases h
  · split at h
    · cases h
    · obtain ⟨-, rfl⟩ := Prod.mk.inj (Option.some.inj h)
      exact Nat.lt_succ_self _
  · cases h

theorem scanChars_length {fuel : Nat} {cs s rest : List Char}
    (h : scanChars fuel cs = .ok (s, rest)) : s.length + rest.length < cs.length := by
  induction fuel generalizing cs s with
  | zero => cases h
  | succ fuel ih =>
      unfold scanChars at h
      split at h
      · obtain ⟨rfl, rfl⟩ := Prod.mk.inj (Except.ok.inj h)
        simp
      · split at h
        · cases h
        · rename_i c more hread
          have hlt := readChar_length hread
          cases hscan : scanChars fuel more with
          | error e =>
              rw [hscan] at h
              cases h
          | ok p =>
              rw [hscan] at h
              obtain ⟨rfl, rfl⟩ := Prod.mk.inj (Except.ok.inj h)
              have hle := ih hscan
              simp only [List.length_cons]
              omega

/-- A number is no text. -/
theorem scanNumber_ne_str {cs rest : List Char} {s : String} :
    scanNumber readFloat cs ≠ .ok (.str s, rest) := by
  intro h
  unfold scanNumber at h
  dsimp only at h
  split at h
  · cases h
  split at h
  · split at h <;> cases h
  · split at h <;> cases h

theorem scanValue_str_length {fuel depth : Nat} {cs rest : List Char} {s : String}
    (h : scanValue readFloat fuel depth cs = .ok (.str s, rest)) :
    s.toList.length < cs.length := by
  obtain _ | fuel := fuel
  · cases h
  unfold scanValue at h
  split at h
  -- A literal: its body is shorter than the text by the quote at least.
  · rename_i more
    cases hscan : scanChars (more.length + 1) more with
    | error e =>
        rw [hscan] at h
        cases h
    | ok p =>
        rw [hscan] at h
        obtain ⟨hs, -⟩ := Prod.mk.inj (Except.ok.inj h)
        have hlt := scanChars_length hscan
        rw [← Json.str.inj hs, String.toList_ofList]
        simp only [List.length_cons]
        omega
  · rename_i more
    obtain _ | depth := depth
    · cases h
    dsimp only at h
    split at h
    · cases h
    · cases hitems : scanItems readFloat fuel depth (skipBlanks more) with
      | error e =>
          rw [hitems] at h
          cases h
      | ok p =>
          rw [hitems] at h
          cases h
  · rename_i more
    obtain _ | depth := depth
    · cases h
    dsimp only at h
    split at h
    · cases h
    · cases hmembers : scanMembers readFloat fuel depth (skipBlanks more) with
      | error e =>
          rw [hmembers] at h
          cases h
      | ok p =>
          rw [hmembers] at h
          change (if _ then _ else _) = _ at h
          split at h <;> cases h
  · cases h
  · cases h
  · cases h
  -- Arrays, objects, constants and numbers are no strings.
  · exact absurd h scanNumber_ne_str

/-- **A text that is read as another is longer than it.** -/
theorem loads_str_length {limit : Nat} {cs : List Char} {s : String}
    (h : loads readFloat limit cs = .ok (.str s)) : s.toList.length < cs.length := by
  unfold loads at h
  split at h
  · cases h
  cases hscan : scanValue readFloat (2 * cs.length + 2) limit (skipBlanks cs) with
  | error e =>
      rw [hscan] at h
      cases h
  | ok p =>
      obtain ⟨v, rest⟩ := p
      rw [hscan] at h
      change (if _ then Except.ok v else _) = _ at h
      split at h
      · obtain rfl := Except.ok.inj h
        exact Nat.lt_of_lt_of_le (scanValue_str_length hscan)
          (List.dropWhile_sublist _).length_le
      · cases h

end Lengths
end Json

end Rpy.Foundation

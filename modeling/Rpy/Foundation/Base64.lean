/-
  Rpy.Foundation.Base64
  ─────────────────────
  **BYTES AS TEXT**: base64 with its padding, UTF-8, and the length of a
  frame in four bytes.

    • `Base64.encode`, `Base64.decode` — `b64encode(data)` and
                              `b64decode(text, validate=True)`,
    • `decodeUtf8_encodeUtf8` — `text.encode("utf-8").decode("utf-8")`,
    • `unpackLength_packLength` — `struct.pack("!I", n)` and back.
-/
import Mathlib.Logic.Basic

namespace Rpy.Foundation

/-! ## §1. Base64. -/

namespace Base64

/-- The digit of a value below 64. -/
def digit (n : Nat) : Char :=
  if n < 26 then Char.ofNat (65 + n)
  else if n < 52 then Char.ofNat (71 + n)
  else if n < 62 then Char.ofNat (n - 4)
  else if n = 62 then '+'
  else '/'

def value (c : Char) : Option Nat :=
  if 'A' ≤ c ∧ c ≤ 'Z' then some (c.toNat - 65)
  else if 'a' ≤ c ∧ c ≤ 'z' then some (c.toNat - 71)
  else if '0' ≤ c ∧ c ≤ '9' then some (c.toNat + 4)
  else if c = '+' then some 62
  else if c = '/' then some 63
  else none

/-- `base64.b64encode(data).decode("ascii")` -/
def encode : List UInt8 → List Char
  | [] => []
  | [a] => [digit (a.toNat / 4), digit (a.toNat % 4 * 16), '=', '=']
  | [a, b] =>
      [digit (a.toNat / 4), digit (a.toNat % 4 * 16 + b.toNat / 16), digit (b.toNat % 16 * 4), '=']
  | a :: b :: c :: rest =>
      digit (a.toNat / 4) :: digit (a.toNat % 4 * 16 + b.toNat / 16) ::
        digit (b.toNat % 16 * 4 + c.toNat / 64) :: digit (c.toNat % 64) :: encode rest

/-- `base64.b64decode(text, validate=True)`: groups of four digits, the last
of which may end with one or two `=`. -/
def decode : List Char → Option (List UInt8)
  | [] => some []
  | [w, x, '=', '='] => do
      let w ← value w
      let x ← value x
      return [UInt8.ofNat (w * 4 + x / 16)]
  | [w, x, y, '='] => do
      let w ← value w
      let x ← value x
      let y ← value y
      return [UInt8.ofNat (w * 4 + x / 16), UInt8.ofNat (x % 16 * 16 + y / 4)]
  | w :: x :: y :: z :: rest => do
      let w ← value w
      let x ← value x
      let y ← value y
      let z ← value z
      let rest ← decode rest
      return UInt8.ofNat (w * 4 + x / 16) :: UInt8.ofNat (x % 16 * 16 + y / 4) ::
        UInt8.ofNat (y % 4 * 64 + z) :: rest
  | _ => none

end Base64

/-! ## §2. UTF-8. -/

/-- `text.encode("utf-8")` -/
def encodeUtf8 (text : List Char) : List UInt8 := text.flatMap String.utf8EncodeChar

/-- `body.decode("utf-8")` -/
def decodeUtf8 (bytes : List UInt8) : Option (List Char) :=
  bytes.toByteArray.utf8Decode?.map Array.toList

theorem decodeUtf8_encodeUtf8 (text : List Char) : decodeUtf8 (encodeUtf8 text) = some text := by
  have hdecode : (encodeUtf8 text).toByteArray.utf8Decode? = some text.toArray :=
    List.utf8Decode?_utf8Encode
  unfold decodeUtf8
  rw [hdecode]
  rfl

/-! ## §3. Lengths. -/

/-- `struct.pack("!I", n)`, for `n` below `2 ^ 32` -/
def packLength (n : Nat) : List UInt8 :=
  [UInt8.ofNat (n / 16777216), UInt8.ofNat (n / 65536), UInt8.ofNat (n / 256), UInt8.ofNat n]

/-- `struct.unpack("!I", header)` of four bytes -/
def unpackLength (header : List UInt8) : Nat :=
  header.foldl (fun n b => n * 256 + b.toNat) 0

theorem unpackLength_packLength {n : Nat} (h : n < 4294967296) :
    unpackLength (packLength n) = n := by
  simp only [unpackLength, packLength, List.foldl_cons, List.foldl_nil, UInt8.toNat_ofNat']
  omega

end Rpy.Foundation

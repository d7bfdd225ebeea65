/-
  Rpy.Foundation.Sha256
  ─────────────────────
  **SHA-256 OF A UTF-8 TEXT.**

  `hashlib.sha256(text.encode("utf-8")).hexdigest()`: the message schedule
  and the sixty-four rounds over 32-bit words, block by block.
-/
import Mathlib.Algebra.Group.Nat.Defs

namespace Rpy.Foundation.Sha256

/-- A 32-bit word. -/
abbrev Word := BitVec 32

/-- The round constants. -/
def roundConstants : List Word :=
  [0x428a2f98, 0x71374491, 0xb5c0fbcf, 0xe9b5dba5, 0x3956c25b, 0x59f111f1, 0x923f82a4,
   0xab1c5ed5, 0xd807aa98, 0x12835b01, 0x243185be, 0x550c7dc3, 0x72be5d74, 0x80deb1fe,
   0x9bdc06a7, 0xc19bf174, 0xe49b69c1, 0xefbe4786, 0x0fc19dc6, 0x240ca1cc, 0x2de92c6f,
   0x4a7484aa, 0x5cb0a9dc, 0x76f988da, 0x983e5152, 0xa831c66d, 0xb00327c8, 0xbf597fc7,
   0xc6e00bf3, 0xd5a79147, 0x06ca6351, 0x14292967, 0x27b70a85, 0x2e1b2138, 0x4d2c6dfc,
   0x53380d13, 0x650a7354, 0x766a0abb, 0x81c2c92e, 0x92722c85, 0xa2bfe8a1, 0xa81a664b,
   0xc24b8b70, 0xc76c51a3, 0xd192e819, 0xd6990624, 0xf40e3585, 0x106aa070, 0x19a4c116,
   0x1e376c08, 0x2748774c, 0x34b0bcb5, 0x391c0cb3, 0x4ed8aa4a, 0x5b9cca4f, 0x682e6ff3,
   0x748f82ee, 0x78a5636f, 0x84c87814, 0x8cc70208, 0x90befffa, 0xa4506ceb, 0xbef9a3f7,
   0xc67178f2]

/-- The eight working words. -/
structure Digest where
  a : Word
  b : Word
  c : Word
  d : Word
  e : Word
  f : Word
  g : Word
  h : Word
deriving Repr, DecidableEq

def initial : Digest :=
  ⟨0x6a09e667, 0xbb67ae85, 0x3c6ef372, 0xa54ff53a, 0x510e527f, 0x9b05688c, 0x1f83d9ab,
    0x5be0cd19⟩

def Digest.add (x y : Digest) : Digest :=
  ⟨x.a + y.a, x.b + y.b, x.c + y.c, x.d + y.d, x.e + y.e, x.f + y.f, x.g + y.g, x.h + y.h⟩

/-- One round, with its constant and its schedule word. -/
def Digest.round (s : Digest) (k w : Word) : Digest :=
  let s1 := s.e.rotateRight 6 ^^^ s.e.rotateRight 11 ^^^ s.e.rotateRight 25
  let ch := (s.e &&& s.f) ^^^ (~~~s.e &&& s.g)
  let t1 := s.h + s1 + ch + k + w
  let s0 := s.a.rotateRight 2 ^^^ s.a.rotateRight 13 ^^^ s.a.rotateRight 22
  let maj := (s.a &&& s.b) ^^^ (s.a &&& s.c) ^^^ (s.b &&& s.c)
  ⟨t1 + (s0 + maj), s.a, s.b, s.c, s.d + t1, s.e, s.f, s.g⟩

/-- The rounds of a block: the schedule words still to be used come first
in the sixteen-word window, and each round appends the word sixteen later. -/
def rounds : List Word → List Word → Digest → Digest
  | k :: ks, w :: ws, s =>
      let w1 := ws.getD 0 0
      let w9 := ws.getD 8 0
      let w14 := ws.getD 13 0
      let g0 := w1.rotateRight 7 ^^^ w1.rotateRight 18 ^^^ (w1 >>> 3)
      let g1 := w14.rotateRight 17 ^^^ w14.rotateRight 19 ^^^ (w14 >>> 10)
      rounds ks (ws ++ [w + g0 + w9 + g1]) (s.round k w)
  | _, _, s => s

/-- A block of sixteen words. -/
def compress (s : Digest) (block : List Word) : Digest :=
  s.add (rounds roundConstants block s)

/-- Four bytes to a big-endian word. -/
def words : List UInt8 → List Word
  | a :: b :: c :: d :: rest =>
      BitVec.ofNat 32 (((a.toNat * 256 + b.toNat) * 256 + c.toNat) * 256 + d.toNat) :: words rest
  | _ => []

/-- The blocks of a padded message, at most `fuel` of them. -/
def blocks : Nat → List Word → List (List Word)
  | 0, _ => []
  | _, [] => []
  | fuel + 1, ws => ws.take 16 :: blocks fuel (ws.drop 16)

/-- The message with its `1` bit, its zeros and its bit length. -/
def pad (message : List UInt8) : List UInt8 :=
  let n := message.length
  let zeros := (119 - n % 64) % 64
  let bits := n * 8
  message ++ 0x80 :: List.replicate zeros 0 ++
    (List.range 8).map fun i => UInt8.ofNat (bits / 256 ^ (7 - i))

/-- The eight hexadecimal digits of a word. -/
def hexWord (w : Word) : List Char :=
  (List.range 8).map fun i => Nat.digitChar (w.toNat / 16 ^ (7 - i) % 16)

def digest (message : List UInt8) : Digest :=
  let ws := words (pad message)
  (blocks ws.length ws).foldl compress initial

/-- `hashlib.sha256(text.encode("utf-8")).hexdigest()`, for the characters
of a text. -/
def hexdigest (text : List Char) : String :=
  let d := digest (text.flatMap String.utf8EncodeChar)
  String.ofList ([d.a, d.b, d.c, d.d, d.e, d.f, d.g, d.h].flatMap hexWord)

/-- `hashlib.sha256(data).hexdigest()` -/
def hexdigestBytes (data : List UInt8) : String :=
  let d := digest data
  String.ofList ([d.a, d.b, d.c, d.d, d.e, d.f, d.g, d.h].flatMap hexWord)

/-- A lowercase hexadecimal digit. -/
def isHexDigit (c : Char) : Bool := c.isDigit || ('a' ≤ c && c ≤ 'f')

/-- `^[0-9a-f]{64}$` -/
def isHexDigest (s : String) : Bool :=
  s.toList.length == 64 && s.toList.all isHexDigit

theorem isHexDigit_digitChar : ∀ n < 16, isHexDigit (Nat.digitChar n) = true := by decide

/-- A word has eight hexadecimal digits. -/
theorem hexWord_spec (w : Word) : (hexWord w).length = 8 ∧ (hexWord w).all isHexDigit = true := by
  refine ⟨by simp [hexWord], List.all_eq_true.2 fun c hc => ?_⟩
  obtain ⟨i, -, rfl⟩ := List.mem_map.1 hc
  exact isHexDigit_digitChar _ (Nat.mod_lt _ (by decide))

/-- What `hexdigest` returns passes the check of a column. -/
theorem isHexDigest_hexdigestBytes (data : List UInt8) :
    isHexDigest (hexdigestBytes data) = true := by
  unfold isHexDigest hexdigestBytes
  simp only [String.toList_ofList, List.flatMap_cons, List.flatMap_nil, List.length_append,
    List.all_append, (hexWord_spec _).1, (hexWord_spec _).2, List.length_nil, List.all_nil]
  rfl

/-- Two texts that one digest does not tell apart. -/
def Collide (a b : List Char) : Prop :=
  a ≠ b ∧ hexdigest a = hexdigest b

example : hexdigest ['a', 'b', 'c'] =
    "ba7816bf8f01cfea414140de5dae2223b00361a396177a9cb410ff61f20015ad" := by
  decide +kernel

end Rpy.Foundation.Sha256

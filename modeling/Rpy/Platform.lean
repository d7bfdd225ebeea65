/-
  Rpy.Platform
  ────────────
  **WHAT THE APPLICATION TAKES FROM PYTHON'S AND POSTGRESQL'S DATA FILES.**

  The tables of the Unicode database, the time-zone database, the form in
  which a `jsonb` column gives a value back and the collation of a text
  column are not part of the repository.  They are parameters, with the
  documented behaviour the code relies on as fields.
-/
import Mathlib.Data.List.DropRight
import Rpy.Basic
import Rpy.Foundation.JsonParse

namespace Rpy

open Rpy.Foundation

/-- The parameters of the application. -/
structure Platform where
  /-- `str.isspace` of a character -/
  isSpace : Char → Bool
  /-- `str.lower` -/
  lower : String → String
  /-- `value.astimezone(ZoneInfo("America/Sao_Paulo")).isoformat()` -/
  isoSaoPaulo : Timestamp → String
  /-- what `json.loads` reads from a `jsonb` column that a value was stored in -/
  jsonb : Json → Json
  /-- `ORDER BY` on a text column -/
  collatesBefore : String → String → Bool
  /-- a `jsonb` column preserves the value up to member order and number form -/
  jsonb_canon : ∀ v, (jsonb v).canon = v.canon

/-- `str.strip()`. -/
def Platform.strip (u : Platform) (s : String) : String :=
  let front := s.toList.dropWhile u.isSpace
  String.ofList (front.reverse.dropWhile u.isSpace).reverse

/-- What stripping leaves of the characters. -/
def Platform.stripChars (u : Platform) (cs : List Char) : List Char :=
  (cs.dropWhile u.isSpace).rdropWhile u.isSpace

theorem Platform.strip_eq (u : Platform) (s : String) :
    u.strip s = String.ofList (u.stripChars s.toList) := rfl

/-- Stripping characters twice is stripping them once. -/
theorem Platform.stripChars_idem (u : Platform) (cs : List Char) :
    u.stripChars (u.stripChars cs) = u.stripChars cs := by
  have hfront : ((cs.dropWhile u.isSpace).rdropWhile u.isSpace).dropWhile u.isSpace =
      (cs.dropWhile u.isSpace).rdropWhile u.isSpace := by
    -- what is left is a prefix of a list that begins with no blank
    rw [List.dropWhile_eq_self_iff]
    intro hl
    have hlead := List.rdropWhile_prefix u.isSpace (cs.dropWhile u.isSpace)
    have hlen := Nat.lt_of_lt_of_le hl hlead.length_le
    rw [hlead.getElem hl]
    exact List.dropWhile_get_zero_not u.isSpace _ hlen
  unfold stripChars
  rw [hfront, List.rdropWhile_idempotent]

/-- What neither begins nor ends with white space is stripped already. -/
theorem Platform.stripChars_eq_self (u : Platform) {cs : List Char}
    (hfirst : ∀ c ∈ cs.head?, u.isSpace c = false)
    (hlast : ∀ c ∈ cs.getLast?, u.isSpace c = false) : u.stripChars cs = cs := by
  have hlead : cs.dropWhile u.isSpace = cs := by
    cases cs with
    | nil => rfl
    | cons c t =>
        rw [List.dropWhile_cons_of_neg]
        rw [hfirst c rfl]
        exact Bool.false_ne_true
  unfold Platform.stripChars
  rw [hlead, List.rdropWhile_eq_self_iff]
  intro hl
  rw [hlast _ (List.getLast?_eq_some_getLast hl)]
  exact Bool.false_ne_true

/-- Stripping twice is stripping once. -/
theorem strip_strip (u : Platform) (s : String) : u.strip (u.strip s) = u.strip s := by
  rw [u.strip_eq (u.strip s), u.strip_eq s, String.toList_ofList, u.stripChars_idem]

/-- A platform for texts in ASCII and for instants that are not printed. -/
def Platform.ascii : Platform where
  isSpace := fun c => c == ' ' || ('\t' ≤ c && c ≤ '\r') || ('\x1c' ≤ c && c ≤ '\x1f')
  lower := fun s => String.ofList (s.toList.map Char.toLower)
  isoSaoPaulo := fun t => toString t
  jsonb := id
  collatesBefore := fun a b => decide (a ≤ b)
  jsonb_canon := fun _ => rfl

/-- The parameters of the code that renders values as text. -/
structure Python extends Platform where
  /-- `str(value)` -/
  str : Json → String
  /-- `str.casefold` -/
  casefold : String → String

/-- Rendering for texts in ASCII: a text is itself, another value its JSON text. -/
def Python.ascii : Python where
  toPlatform := .ascii
  str := fun v =>
    match v with
    | .str s => s
    | v => String.ofList v.text
  casefold := fun s => String.ofList (s.toList.map Char.toLower)

/-- White space in ASCII. -/
def asciiSpace (c : Char) : Bool :=
  c == ' ' || ('\t' ≤ c && c ≤ '\r') || ('\x1c' ≤ c && c ≤ '\x1f')

/-- The compatibility decomposition of some letters. -/
def decomposition (c : Char) : List Char :=
  match c with
  | 'ç' => ['c', '\u0327']
  | 'ã' => ['a', '\u0303']
  | 'õ' => ['o', '\u0303']
  | c => [c]

/-- The parameters of the code that reads facts out of texts. -/
structure Unicode extends Python where
  /-- `unicodedata.normalize("NFKC", text)` -/
  nfkc : String → String
  /-- `unicodedata.normalize("NFKD", text)` -/
  nfkd : String → String
  /-- `unicodedata.combining(character) != 0` -/
  isCombining : Char → Bool
  /-- `\d`, a decimal digit of any script -/
  isDecimal : Char → Bool
  /-- the value of a decimal digit (`int(digit)`) -/
  digitValue : Char → Nat
  /-- `\w` -/
  isWord : Char → Bool
  /-- does `re.IGNORECASE` take the one character for the other? -/
  sameCase : Char → Char → Bool
  /-- `float(text)` of a JSON number, when it is finite -/
  readFloat : List Char → Option Decimal
  /-- the date in São Paulo at an instant, in seconds from the first of
  January of the year 1 (UTC); `none` when one of the two dates is out of
  the range of `datetime` (`OverflowError`) -/
  saoPauloDate : Int → Option String
  /-- how many brackets `json.loads` opens before it raises `RecursionError` -/
  recursionLimit : Nat
  /-- a text is rendered as itself -/
  str_str : ∀ s, str (.str s) = s
  /-- the white space of ASCII -/
  isSpace_ascii : ∀ c, c.toNat < 128 → isSpace c = asciiSpace c
  /-- the other line boundaries of `str.splitlines` -/
  isSpace_boundary : isSpace '\u0085' = true ∧ isSpace '\u2028' = true ∧ isSpace '\u2029' = true
  /-- the word joiner is no white space -/
  isSpace_wordJoiner : isSpace '\u2060' = false
  /-- the letters of ASCII and three others are decomposed one by one -/
  nfkd_latin : ∀ s : String, (∀ c ∈ s.toList, c.toNat < 128 ∨ c ∈ ['ç', 'ã', 'õ']) →
    nfkd s = String.ofList (s.toList.flatMap decomposition)
  /-- the marks of these three are combining, and no character of ASCII is -/
  isCombining_latin : isCombining '\u0327' = true ∧ isCombining '\u0303' = true ∧
    ∀ c, c.toNat < 128 → isCombining c = false
  /-- folding the case of ASCII -/
  casefold_ascii : ∀ s : String, (∀ c ∈ s.toList, c.toNat < 128) →
    casefold s = String.ofList (s.toList.map Char.toLower)
  /-- the word characters of ASCII -/
  isWord_ascii : ∀ c, c.toNat < 128 → isWord c = (c.isAlphanum || c == '_')
  /-- the interpreter's default is a thousand frames -/
  recursionLimit_ge : 64 ≤ recursionLimit

/-- `loads_strict_json`. -/
def Unicode.loadsStrict (u : Unicode) (text : String) : Except Json.LoadsError Json :=
  Json.loads u.readFloat u.recursionLimit text.toList

/-- The parameters for texts in ASCII; no float and no instant is read. -/
def Unicode.ascii : Unicode where
  toPython := {
    Python.ascii with
    isSpace := fun c => asciiSpace c || c == '\u0085' || c == '\u2028' || c == '\u2029' }
  nfkc := id
  nfkd := fun s => String.ofList (s.toList.flatMap decomposition)
  isCombining := fun c => c == '\u0327' || c == '\u0303'
  isDecimal := Char.isDigit
  digitValue := fun c => c.toNat - '0'.toNat
  isWord := fun c => c.isAlphanum || c == '_'
  sameCase := fun c d => c.toLower == d.toLower
  readFloat := fun _ => none
  saoPauloDate := fun _ => none
  recursionLimit := 1000
  str_str := fun _ => rfl
  isSpace_ascii := fun c hc => by
    have h1 : c ≠ '\u0085' := by rintro rfl; exact absurd hc (by decide)
    have h2 : c ≠ '\u2028' := by rintro rfl; exact absurd hc (by decide)
    have h3 : c ≠ '\u2029' := by rintro rfl; exact absurd hc (by decide)
    show (asciiSpace c || c == '\u0085' || c == '\u2028' || c == '\u2029') = asciiSpace c
    rw [beq_eq_false_iff_ne.2 h1, beq_eq_false_iff_ne.2 h2, beq_eq_false_iff_ne.2 h3,
      Bool.or_false, Bool.or_false, Bool.or_false]
  isSpace_boundary := by decide
  isSpace_wordJoiner := rfl
  nfkd_latin := fun _ _ => rfl
  isCombining_latin := by
    refine ⟨rfl, rfl, fun c hc => ?_⟩
    have h1 : c ≠ '\u0327' := by rintro rfl; exact absurd hc (by decide)
    have h2 : c ≠ '\u0303' := by rintro rfl; exact absurd hc (by decide)
    simp [h1, h2]
  casefold_ascii := fun _ _ => rfl
  isWord_ascii := fun _ _ => rfl
  recursionLimit_ge := by decide

end Rpy

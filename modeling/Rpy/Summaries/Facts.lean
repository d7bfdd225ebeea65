/-
  Rpy.Summaries.Facts
  ───────────────────
  **THE FACTS A TEXT STATES** (`app/claim_verification.py`,
  `app/legal_facts.py`).

  Case numbers, dates, amounts of money, names of parties and numbers of
  steps are read out of a text by regular expressions.  Amounts are
  compared as numbers, and dates by the day in São Paulo.

    • `cnjs`, `dates`, `amounts`, `labeledProcessAmounts`, `stepCounts`,
      `partyNamesInText` — the facts, kind by kind,
    • `claimFacts`       — the facts of a claim,
    • `verificationEvidence` — the facts of a source,
    • `labeled_subset_amounts` — a labelled amount is an amount.
-/
import Mathlib.Data.Finset.Card
import Mathlib.Data.Finset.Union
import Mathlib.Data.Rat.Defs
import Rpy.Foundation.Regex
import Rpy.Foundation.Sha256
import Rpy.Summaries.Evidence

namespace Rpy.Summaries

open Rpy.Foundation
open Regex

/-! ## §1. Texts. -/

/-- `text.rstrip(chars)` -/
def rstripSet (chars : List Char) (cs : List Char) : List Char :=
  cs.rdropWhile chars.contains

/-- `_normalized_text` of a text. -/
def normalizedText (u : Unicode) (s : String) : String :=
  inlineText u (u.casefold (u.nfkc s))

/-- `_normalized_exact_text` of a text. -/
def normalizedExactText (u : Unicode) (s : String) : String :=
  String.ofList (rstripSet [' ', '.', ';', ':', '!', '?'] (normalizedText u s).toList)

/-- `_SENTENCE_SPLIT_RE` -/
def sentenceSplit (u : Unicode) : Regex :=
  .alt (.seq (.behind true fun c => ['.', '!', '?', ';'].contains c) (plus (.char u.isSpace)))
    (plus (.char (· == '\n')))

/-- `_exact_text_segments` of a text. -/
def exactTextSegments (u : Unicode) (s : String) : Finset String :=
  let rendered := u.strip s
  if rendered = "" then ∅
  else
    (((sentenceSplit u).split rendered.toList).map fun part =>
      normalizedExactText u (String.ofList part)).toFinset.erase ""

mutual
/-- `_scalar_text_values` -/
def scalarTextValues (u : Unicode) : Json → List String
  | .obj members => scalarTextMembers u members
  | .arr xs => scalarTextList u xs
  | .null => []
  | .bool _ => []
  | .int n => [u.str (.int n)]
  | .float d => [u.str (.float d)]
  | .str s => [u.str (.str s)]
  termination_by structural v => v

def scalarTextList (u : Unicode) : List Json → List String
  | [] => []
  | x :: xs => scalarTextValues u x ++ scalarTextList u xs
  termination_by structural xs => xs

def scalarTextMembers (u : Unicode) : List (String × Json) → List String
  | [] => []
  | (_, v) :: ms => scalarTextValues u v ++ scalarTextMembers u ms
  termination_by structural ms => ms
end

/-! ## §2. Numbers. -/

/-- `\d{n}` -/
def digitsExactly (u : Unicode) (n : Nat) : Regex := exactly n (.char u.isDecimal)

/-- `\d+` -/
def digitRun (u : Unicode) : Regex := plus (.char u.isDecimal)

/-- The number that decimal digits of any script write. -/
def numeral (u : Unicode) (cs : List Char) : Nat :=
  cs.foldl (fun n c => n * 10 + u.digitValue c) 0

/-- `sys.get_int_max_str_digits()`. -/
def maxStrDigits : Nat := 4300

/-- `int(value)` of a text, when it is one of decimal digits with single
underscores between them. -/
def intOfText (u : Unicode) (s : String) : Option Int :=
  let cs := u.stripChars s.toList
  let shape := cat [opt (.char fun c => c == '+' || c == '-'), digitRun u,
    Regex.star (.seq (only '_') (digitRun u))]
  let digits := cs.filter u.isDecimal
  if shape.fullMatch cs && digits.length ≤ maxStrDigits then
    some (if cs.head? = some '-' then -(numeral u digits : Int) else numeral u digits)
  else none

/-- `int(value)` of a float: towards zero. -/
def truncate (d : Decimal) : Int :=
  let magnitude :=
    if 0 ≤ d.exp then d.digits * 10 ^ d.exp.toNat else d.digits / 10 ^ (-d.exp).toNat
  if d.neg then -(magnitude : Int) else magnitude

/-- `_optional_int` -/
def optionalInt (u : Unicode) : Json → Option Int
  | .int n => some n
  | .bool b => some (if b then 1 else 0)
  | .float d => some (truncate d)
  | .str s => intOfText u s
  | _ => none

/-- `Decimal(text)` of a text of the form `-?\d+(\.\d+)?`. -/
def decimalOf (u : Unicode) (cs : List Char) : Rat :=
  let body := cs.filter fun c => c != '-'
  let places := ((body.dropWhile (· != '.')).drop 1).length
  let magnitude := mkRat (numeral u (body.filter (· != '.'))) (10 ^ places)
  if cs.head? = some '-' then -magnitude else magnitude

/-- `Decimal(str(value))` of a float. -/
def decimalOfFloat (d : Decimal) : Rat :=
  let magnitude : Rat :=
    if 0 ≤ d.exp then mkRat (d.digits * 10 ^ d.exp.toNat) 1
    else mkRat d.digits (10 ^ (-d.exp).toNat)
  if d.neg then -magnitude else magnitude

/-- `R\$|BRL` -/
def currency (u : Unicode) : Regex :=
  .alt (textBy u.sameCase "R$") (textBy u.sameCase "BRL")

/-- `decimal_amount` of a text. -/
def decimalAmountOfText (u : Unicode) (s : String) : Option Rat :=
  let spaced := (u.stripChars s.toList).map fun c => if c == '\u00a0' then ' ' else c
  -- the pattern is anchored, so that one match at most is replaced
  let bare :=
    match (Regex.seq (currency u) (Regex.star (.char u.isSpace))).matchStart spaced with
    | some m => m.last.after
    | none => spaced
  let rendered := bare.filter fun c => !u.isSpace c
  let minus := opt (only '-')
  if rendered.isEmpty then none
  else if (cat [minus, between 1 3 (.char u.isDecimal),
      plus (.seq (only '.') (digitsExactly u 3)),
      opt (.seq (only ',') (digitRun u))]).fullMatch rendered then
    some (decimalOf u ((rendered.filter (· != '.')).map fun c => if c == ',' then '.' else c))
  else if (cat [minus, digitRun u, only ',', digitRun u]).fullMatch rendered then
    some (decimalOf u (rendered.map fun c => if c == ',' then '.' else c))
  else if (cat [minus, digitRun u, opt (.seq (only '.') (digitRun u))]).fullMatch rendered then
    some (decimalOf u rendered)
  else none

/-- `decimal_amount` -/
def decimalAmount (u : Unicode) : Json → Option Rat
  | .null => none
  | .bool _ => none
  | .int n => some n
  | .float d => some (decimalOfFloat d)
  | value => decimalAmountOfText u (u.str value)

/-! ## §3. Case numbers and dates. -/

/-- `_CNJ_RE` -/
def cnjPattern (u : Unicode) : Regex :=
  cat [.boundary u.isWord, digitsExactly u 7, opt (only '-'), digitsExactly u 2, opt (only '.'),
    digitsExactly u 4, opt (only '.'), digitsExactly u 1, opt (only '.'), digitsExactly u 2,
    opt (only '.'), digitsExactly u 4, .boundary u.isWord]

/-- `_cnjs` (what is no digit of a match is punctuation). -/
def cnjs (u : Unicode) (s : String) : Finset String :=
  (((cnjPattern u).findIter s.toList).map fun m =>
    String.ofList (m.text.filter u.isDecimal)).toFinset

/-- `0[1-9]|1[0-2]` -/
def monthPattern (zero : Regex) : Regex :=
  .alt (.seq zero (.char fun c => '1' ≤ c && c ≤ '9'))
    (.seq (only '1') (.char fun c => '0' ≤ c && c ≤ '2'))

/-- `0[1-9]|[12]\d|3[01]` -/
def dayPattern (u : Unicode) (zero : Regex) : Regex :=
  oneOf [.seq zero (.char fun c => '1' ≤ c && c ≤ '9'),
    .seq (.char fun c => c == '1' || c == '2') (.char u.isDecimal),
    .seq (only '3') (.char fun c => c == '0' || c == '1')]

/-- `_DATE_RE` -/
def datePattern (u : Unicode) : Regex :=
  cat [.behind false u.isDecimal,
    .alt
      (cat [digitsExactly u 4, only '-', monthPattern (only '0'), only '-',
        dayPattern u (only '0')])
      (cat [dayPattern u (opt (only '0')), only '/', monthPattern (opt (only '0')), only '/',
        digitsExactly u 4]),
    .ahead false (.char fun c => c == 'T' || u.isDecimal c)]

def daysInMonth (year month : Nat) : Nat :=
  if month = 2 then
    if year % 4 = 0 ∧ (year % 100 ≠ 0 ∨ year % 400 = 0) then 29 else 28
  else if month = 4 ∨ month = 6 ∨ month = 9 ∨ month = 11 then 30
  else 31

/-- Is there such a `date`? -/
def validDate (year month day : Nat) : Bool :=
  1 ≤ year && year ≤ 9999 && 1 ≤ month && month ≤ 12 && 1 ≤ day && day ≤ daysInMonth year month

/-- `date.isoformat()` -/
def isoDate (year month day : Nat) : String :=
  let digits := (toString year).toList
  String.ofList (List.replicate (4 - digits.length) '0' ++ digits) ++ "-" ++ twoDigits month ++
    "-" ++ twoDigits day

/-- The parts of a text between the characters `sep`. -/
def partsAt (sep : Char) (cs : List Char) : List (List Char) :=
  cs.splitOn sep

/-- `_canonical_date`, for a text `_DATE_RE` matches. -/
def canonicalDate (u : Unicode) (cs : List Char) : Option String :=
  let date := fun (year month day : List Char) =>
    let y := numeral u year
    let m := numeral u month
    let d := numeral u day
    if validDate y m d then some (isoDate y m d) else none
  match partsAt '-' cs, partsAt '/' cs with
  | [year, month, day], _ => date year month day
  | _, [day, month, year] => date year month day
  | _, _ => none

/-- `_ISO_DATETIME_RE` -/
def isoDatetimePattern (u : Unicode) : Regex :=
  cat [.behind false u.isDecimal, digitsExactly u 4, only '-', digitsExactly u 2, only '-',
    digitsExactly u 2, only 'T', digitsExactly u 2, only ':', digitsExactly u 2, only ':',
    digitsExactly u 2, opt (.seq (only '.') (digitRun u)),
    .alt (only 'Z')
      (cat [.char fun c => c == '+' || c == '-', digitsExactly u 2, only ':',
        digitsExactly u 2]),
    .ahead false (.char u.isDecimal)]

/-- Days from the first of January of the year 1 to a date. -/
def ordinal (year month day : Nat) : Nat :=
  let years := year - 1
  years * 365 + years / 4 - years / 100 + years / 400 +
    ((List.range' 1 (month - 1)).map (daysInMonth year)).sum + (day - 1)

/-- `datetime.fromisoformat(text.replace("Z", "+00:00"))`, for a text
`_ISO_DATETIME_RE` matches: its instant in seconds, `none` for a
`ValueError`.  Only digits in ASCII are read. -/
def readInstant (cs : List Char) : Option Int :=
  let number := fun (i n : Nat) =>
    let part := (cs.drop i).take n
    if part.all Char.isDigit then some (part.foldl (fun k c => k * 10 + (c.toNat - 48)) 0) else none
  let tail := if cs.getLast? = some 'Z' then ['Z'] else cs.drop (cs.length - 6)
  let fraction := ((cs.drop 19).take (cs.length - 19 - tail.length)).drop 1
  let offset : Option Int :=
    match tail with
    | [sign, a, b, _, c, d] =>
        if [a, b, c, d].all Char.isDigit then
          let minutes := ((a.toNat - 48) * 10 + (b.toNat - 48)) * 60 +
            ((c.toNat - 48) * 10 + (d.toNat - 48))
          if minutes < 1440 then some (if sign = '-' then -(minutes : Int) else minutes) else none
        else none
    | _ => some 0
  do
    let year ← number 0 4
    let month ← number 5 2
    let day ← number 8 2
    let hour ← number 11 2
    let minute ← number 14 2
    let second ← number 17 2
    let shift ← offset
    if validDate year month day && hour ≤ 23 && minute ≤ 59 && second ≤ 59 &&
        fraction.all Char.isDigit then
      some (ordinal year month day * 86400 + hour * 3600 + minute * 60 + second - shift * 60)
    else none

/-- What reading facts raises. -/
inductive FactError where
  | overflowError
  | valueError
deriving Repr, DecidableEq

/-- `_dates` -/
def dates (u : Unicode) (s : String) : Except FactError (Finset String) := do
  let days := ((datePattern u).findIter s.toList).filterMap fun m => canonicalDate u m.text
  let instants := ((isoDatetimePattern u).findIter s.toList).filterMap fun m => readInstant m.text
  let localDays ← instants.mapM fun t =>
    match u.saoPauloDate t with
    | some day => .ok day
    | none => .error .overflowError
  return (days ++ localDays).toFinset

/-! ## §4. Amounts, steps and parties. -/

/-- `_AMOUNT_RE` -/
def amountPattern (u : Unicode) : Regex :=
  cat [.behind false u.isWord, currency u, Regex.star (.char u.isSpace), opt (only '-'),
    .char u.isDecimal,
    opt (.seq (Regex.star (.char fun c => u.isDecimal c || c == '.' || u.isSpace c))
      (.char u.isDecimal)),
    opt (.seq (only ',') (digitRun u)), .ahead false (.char u.isWord)]

/-- `_LABELED_AMOUNT_RE` -/
def labeledAmountPattern (u : Unicode) : Regex :=
  let word := textBy u.sameCase
  let spaces := Regex.star (.char u.isSpace)
  let gap := plus (.char u.isSpace)
  cat [.boundary u.isWord, word "valor", opt (cat [gap, word "da", gap, word "causa"]), spaces,
    opt (oneOf [only ':', .seq (word "é") (opt (.seq gap (word "de"))), word "de"]), spaces,
    opt (.seq (currency u) spaces),
    .group "amount"
      (.alt
        (cat [opt (only '-'), between 1 3 (.char u.isDecimal),
          Regex.star (.seq (only '.') (digitsExactly u 3)), opt (.seq (only ',') (digitRun u))])
        (cat [opt (only '-'), digitRun u,
          opt (.seq (.char fun c => c == '.' || c == ',') (digitRun u))]))]

/-- The texts of the labelled amounts. -/
def labeledCandidates (u : Unicode) (s : String) : List (List Char) :=
  ((labeledAmountPattern u).findIter s.toList).filterMap fun m => m.group "amount"

/-- The amounts that candidates write. -/
def parsedAmounts (u : Unicode) (candidates : List (List Char)) : Finset Rat :=
  (candidates.filterMap fun cs => decimalAmountOfText u (String.ofList cs)).toFinset

/-- `_amounts` -/
def amounts (u : Unicode) (s : String) : Finset Rat :=
  parsedAmounts u
    (((amountPattern u).findIter s.toList).map Match.text ++ labeledCandidates u s)

/-- `_labeled_process_amounts` -/
def labeledProcessAmounts (u : Unicode) (s : String) : Finset Rat :=
  parsedAmounts u (labeledCandidates u s)

/-- `_STEP_COUNT_RE` -/
def stepCountPattern (u : Unicode) : Regex :=
  let word := textBy u.sameCase
  let gap := plus (.char u.isSpace)
  cat [.boundary u.isWord,
    oneOf [cat [word "o", gap, word "processo", gap, word "possui"], word "há",
      .seq (word "total") (opt (word "iza"))],
    gap, .group "count" (digitRun u), gap, word "movimentos", .boundary u.isWord]

/-- `_step_counts` -/
def stepCounts (u : Unicode) (s : String) : Except FactError (Finset Nat) := do
  let counts ← (((stepCountPattern u).findIter s.toList).filterMap fun m => m.group "count").mapM
    fun cs =>
      if maxStrDigits < cs.length then Except.error FactError.valueError
      else .ok (numeral u cs)
  return counts.toFinset

/-- The members of a list of a context. -/
def listItems : Json → List Json
  | .arr xs => xs
  | _ => []

/-- `_known_party_names` -/
def knownPartyNames (u : Unicode) (context : Context) : Finset String :=
  (((listItems context.parties).filter Json.isObj).map fun party =>
    normalizedText u (strOrEmpty u (party.get "name"))).toFinset.erase ""

/-- `_party_name_regex` -/
def partyNamePattern (u : Unicode) (name : String) : Regex :=
  cat [.behind false u.isWord, Regex.text name, .ahead false (.char u.isWord)]

/-- `_party_names_in_text` -/
def partyNamesInText (u : Unicode) (s : String) (known : Finset String) : Finset String :=
  if s = "" then ∅
  else
    let normalized := normalizedText u s
    if normalized = "" then ∅
    else known.filter fun name => (partyNamePattern u name).occursIn normalized.toList

/-! ## §5. The facts of claims and of sources. -/

/-- `_ClaimFacts` -/
structure ClaimFacts where
  normalizedText : String
  cnjs : Finset String
  dates : Finset String
  amounts : Finset Rat
  labeledProcessAmounts : Finset Rat
  parties : Finset String
  stepCounts : Finset Nat
deriving DecidableEq

/-- `_ClaimFacts.count` -/
def ClaimFacts.count (facts : ClaimFacts) : Nat :=
  facts.cnjs.card + facts.dates.card + facts.amounts.card + facts.parties.card +
    facts.stepCounts.card

/-- `_claim_facts` -/
def claimFacts (u : Unicode) (text : String) (known : Finset String) :
    Except FactError ClaimFacts := do
  let dates ← dates u text
  let stepCounts ← stepCounts u text
  return {
    normalizedText := normalizedExactText u text
    cnjs := cnjs u text
    dates
    amounts := amounts u text
    labeledProcessAmounts := labeledProcessAmounts u text
    parties := partyNamesInText u text known
    stepCounts }

/-- Where in a document an attachment's text stands. -/
structure Span where
  pageStart : Option Int := none
  pageEnd : Option Int := none
  charStart : Option Int := none
  charEnd : Option Int := none
deriving Repr, DecidableEq

/-- `VerificationEvidence` -/
structure VerificationEvidence where
  evidenceRef : String
  kind : SourceKind
  text : String
  cnjs : Finset String
  dates : Finset String
  amounts : Finset Rat
  partyNames : Finset String
  stepCounts : Finset Nat
  exactTexts : Finset String
  span : Span := {}
deriving DecidableEq

/-- `_verification_evidence`: `official` are the amounts and the numbers of
steps that are given and not read out of the text. -/
def verificationEvidence (u : Unicode) (evidenceRef : String) (kind : SourceKind) (text : String)
    (known : Finset String) (official : Option (Finset Rat × Finset Nat))
    (exactValues : List String) (span : Span) : Except FactError VerificationEvidence := do
  let dates ← dates u text
  let stepCounts ←
    match official with
    | some (_, steps) => .ok steps
    | none => stepCounts u text
  return {
    evidenceRef, kind, text
    cnjs := cnjs u text
    dates
    amounts :=
      match official with
      | some (amounts, _) => amounts
      | none => amounts u text
    partyNames := partyNamesInText u text known
    stepCounts
    exactTexts := exactValues.toFinset.biUnion (exactTextSegments u)
    span }

/-- **A labelled amount is an amount.** -/
theorem labeled_subset_amounts (u : Unicode) (s : String) :
    labeledProcessAmounts u s ⊆ amounts u s := by
  intro x hx
  unfold labeledProcessAmounts parsedAmounts at hx
  unfold amounts parsedAmounts
  rw [List.mem_toFinset, List.mem_filterMap] at hx ⊢
  obtain ⟨cs, hcs, hparsed⟩ := hx
  exact ⟨cs, List.mem_append_right _ hcs, hparsed⟩

end Rpy.Summaries

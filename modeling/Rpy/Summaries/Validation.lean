/-
  Rpy.Summaries.Validation
  ────────────────────────
  **THE CHECKS OF A RENDERED SUMMARY** (`validar` of `app/validation.py`).

  A text is searched for personal numbers, for case numbers, parties, dates,
  amounts and links that the source does not have, for unbalanced tags and
  for sections that are missing or out of order.  Each check lists its
  errors, and the text passes when none has any.

    • `personalIdentifiers`, `renderedIdentifiers` — identifiers of the
                              parties and of the text,
    • `mentionedPartyNames` — the parties a text names,
    • `sourceBackedClaimErrors`, `amountClaimErrors` — labelled lines,
    • `jsxErrors`           — the tags of a text,
    • `validar`             — all the checks.
-/
import Rpy.Foundation.Chains
import Rpy.Foundation.JsonPlain
import Rpy.Summaries.Facts
import Rpy.Summaries.Rendering

namespace Rpy.Summaries.Validation

open Rpy.Foundation
open Regex

/-! ## §1. Patterns. -/

/-- The parameters of the checks: what `str.isdigit` accepts beside `\d`. -/
structure DigitDatabase extends Unicode where
  /-- `str.isdigit` of a character -/
  isDigit : Char → Bool
  /-- a decimal digit is a digit -/
  isDigit_of_isDecimal : ∀ c, isDecimal c = true → isDigit c = true
  /-- white space is no digit -/
  isDigit_of_isSpace : ∀ c, isSpace c = true → isDigit c = false
  /-- the digits of ASCII -/
  isDigit_ascii : ∀ c, c.toNat < 128 → isDigit c = c.isDigit

section Patterns

variable (u : Unicode)

/-- A literal text under `re.IGNORECASE`. -/
def word (s : String) : Regex := textBy u.sameCase s

/-- A set of characters under `re.IGNORECASE`. -/
def setBy (s : String) : Regex :=
  let members := s.toList
  .char fun c => members.any fun x => u.sameCase x c

/-- `[^…]` -/
def noneOf (s : String) : Regex :=
  let members := s.toList
  .char fun c => !members.contains c

/-- `\s*` -/
def spaces : Regex := Regex.star (.char u.isSpace)

/-- `\s+` -/
def gap : Regex := plus (.char u.isSpace)

/-- `^` without `re.MULTILINE` -/
def textStart : Regex := .behind false fun _ => true

/-- `$` without `re.MULTILINE`: at the end, or before a last line break -/
def textEnd : Regex :=
  let atEnd : Regex := .ahead false (.char fun _ => true)
  .ahead true (.alt atEnd (.seq (only '\n') atEnd))

/-- `_CPF_CNPJ_RE` -/
def cpfCnpjPattern : Regex :=
  let d := digitsExactly u
  cat [.behind false u.isDecimal,
    .alt
      (cat [d 3, opt (only '.'), d 3, opt (only '.'), d 3, opt (only '-'), d 2])
      (cat [d 2, opt (only '.'), d 3, opt (only '.'), d 3, opt (only '/'), d 4, opt (only '-'),
        d 2]),
    .ahead false (.char u.isDecimal)]

/-- `_LONG_DIGITS_RE` -/
def longDigitsPattern : Regex :=
  cat [.behind false u.isDecimal, .rep (.char u.isDecimal) 11 none true,
    .ahead false (.char u.isDecimal)]

/-- `_PERSONAL_ID_KEY_RE` -/
def personalIdKeyPattern : Regex :=
  cat [.alt textStart (only '_'),
    oneOf (["cpf", "cnpj", "document", "document_number", "tax_id", "person_id", "national_id",
      "identifier", "id"].map (word u)),
    .alt textEnd (only '_')]

/-- White space, a full stop, a slash or a hyphen. -/
def isSeparator (c : Char) : Bool := u.isSpace c || ['.', '/', '-'].contains c

/-- `_IDENTIFIER_TOKEN_RE` -/
def identifierTokenPattern : Regex := chainPattern u.isDecimal (isSeparator u) 7

/-- `_CLASS_RE` -/
def classPattern : Regex := cat [.boundary u.isWord, word u "class", spaces u, only '=']

/-- `_FORECAST_RE` -/
def forecastPattern : Regex :=
  oneOf [cat [word u "provavelmente", gap u, word u "ser", setBy u "áa", gap u,
      word u "condenad"],
    cat [word u "chance", opt (word u "s"), gap u, word u "de"],
    cat [word u "tende", gap u, word u "a", gap u, word u "ganhar"],
    cat [word u "recomendo", gap u, word u "que"]]

/-- `_PARTY_TAG_RE` -/
def partyTagPattern : Regex :=
  cat [word u "<Party", gap u, word u "name=", set "\"'", .group "name" (plus (noneOf "\"'")),
    set "\"'", Regex.star (noneOf ">"), opt (only '/'), only '>']

/-- `(?i:_ROLE)` -/
def role : Regex :=
  oneOf [.seq (word u "autor") (opt (word u "a")), cat [word u "r", setBy u "ée", word u "u"],
    word u "requerente", .seq (word u "requerid") (setBy u "oa"), word u "exequente",
    .seq (word u "executad") (setBy u "oa")]

/-- `_CAPITALIZED_TOKEN` -/
def capitalizedToken : Regex :=
  let upper := fun c : Char => ('A' ≤ c && c ≤ 'Z') || "ÁÀÂÃÉÊÍÓÔÕÚÇ".toList.contains c
  .seq (.char upper)
    (Regex.star (.char fun c => upper c || ('a' ≤ c && c ≤ 'z') ||
      "áàâãéêíóôõúç".toList.contains c || ('0' ≤ c && c ≤ '9') ||
      ['&', '.', '\x27', '/', '-'].contains c))

/-- `_PROPER_NAME` -/
def properName : Regex :=
  let connector := oneOf (["da", "de", "do", "das", "dos", "e"].map text)
  .seq capitalizedToken
    (between 1 7 (cat [gap u, opt (.seq connector (gap u)), capitalizedToken]))

/-- `_ROLE_NAME_RE` -/
def roleNamePattern : Regex :=
  cat [.boundary u.isWord, opt (.seq (.alt (word u "o") (word u "a")) (gap u)), role u, spaces u,
    opt (.alt
      (.seq (.alt (only ':') (set "-–—")) (spaces u))
      (.seq
        (oneOf [word u "é", word u "foi", word u "seria",
          .seq (word u "denominad") (setBy u "oa"),
          cat [word u "identificad", setBy u "oa", gap u, word u "como"]])
        (gap u))),
    .group "name" (properName u)]

/-- `_NAME_ROLE_RE` -/
def nameRolePattern : Regex :=
  cat [.boundary u.isWord, .group "name" (properName u), spaces u, only ',', spaces u,
    opt (.seq
      (.alt (cat [word u "na", gap u, word u "qualidade", gap u, word u "de"]) (word u "como"))
      (gap u)),
    role u, .boundary u.isWord]

/-- `_JSX_TAG_RE` -/
def jsxTagPattern : Regex :=
  let upper := fun c : Char => 'A' ≤ c && c ≤ 'Z'
  cat [only '<', .group "closing" (opt (only '/')),
    .group "tag" (.seq (.char upper)
      (Regex.star (.char fun c => upper c || ('a' ≤ c && c ≤ 'z') || ('0' ≤ c && c ≤ '9')))),
    opt (.seq (.char u.isSpace) (starLazy (noneOf "<>"))),
    .group "selfClosing" (opt (only '/')), only '>']

/-- `_MOVEMENT_COUNT_RE` -/
def movementCountPattern : Regex :=
  cat [.boundary u.isWord, .group "count" (digitRun u), gap u,
    .alt (.seq (word u "movimento") (opt (word u "s")))
      (cat [word u "movimenta", .alt (word u "ç") (word u "c"),
        oneOf [word u "ão", word u "oes", word u "ões"]]),
    .boundary u.isWord]

/-- `_DATE_RE` -/
def datePattern : Regex :=
  cat [.behind false u.isDecimal,
    .alt
      (cat [digitsExactly u 4, only '-', monthPattern (only '0'), only '-',
        dayPattern u (only '0')])
      (cat [dayPattern u (opt (only '0')), only '/', monthPattern (opt (only '0')), only '/',
        digitsExactly u 4]),
    .ahead false (.char u.isDecimal)]

/-- `_ATTENTION_HEADING_RE` -/
def attentionHeadingPattern : Regex :=
  cat [.lineStart, between 1 6 (only '#'), gap u, word u "Pontos", gap u, word u "de", gap u,
    word u "aten", .alt (word u "ç") (word u "c"), .alt (word u "ão") (word u "ao"), spaces u,
    .lineEnd]

/-- `_NEXT_HEADING_RE` -/
def nextHeadingPattern : Regex :=
  cat [.lineStart, between 1 6 (only '#'), gap u, .char fun c => !u.isSpace c]

/-- A line `label: value`, with a bullet or without. -/
def labelledPattern (label : Regex) : Regex :=
  cat [.lineStart, opt (.seq (set "-*") (spaces u)), .group "label" label, spaces u, only ':',
    spaces u, .group "value" (plusLazy (.char (· != '\n'))), spaces u, .lineEnd]

/-- `_SOURCE_BACKED_CLAIM_RE` -/
def sourceBackedClaimPattern : Regex :=
  labelledPattern u
    (oneOf [word u "Área", .seq (word u "Assunto") (opt (word u "s")),
      .seq (word u "Tag") (opt (word u "s")), word u "Comarca", word u "Órgão julgador",
      word u "Classe", word u "Fase"])

/-- `_AMOUNT_CLAIM_RE` -/
def amountClaimPattern : Regex :=
  labelledPattern u (.seq (word u "Valor") (opt (word u " da causa")))

/-- `_URL_RE` -/
def urlPattern : Regex :=
  cat [word u "http", opt (word u "s"), word u "://",
    plus (.char fun c => !u.isSpace c && !")>]".toList.contains c)]

end Patterns

/-! ## §2. Identifiers and names. -/

/-- A party, as the `dict` it is. -/
abbrev Party := List (String × Json)

/-- `_normalize_digits` -/
def normalizeDigits (u : DigitDatabase) (value : List Char) : List Char :=
  value.filter u.isDigit

/-- The identifier under a key, if the key is that of one. -/
def scalarIdentifiers (u : DigitDatabase) (key : String) (value : Json) : List (List Char) :=
  if (personalIdKeyPattern u.toUnicode).occursIn key.toList then
    let digits := normalizeDigits u (u.str value).toList
    if 8 ≤ digits.length then [digits] else []
  else []

mutual
/-- `_personal_identifiers` -/
def personalIdentifiers (u : DigitDatabase) (key : String) : Json → List (List Char)
  | .obj members => memberIdentifiers u members
  | .arr xs => itemIdentifiers u key xs
  | .null => scalarIdentifiers u key .null
  | .bool b => scalarIdentifiers u key (.bool b)
  | .int n => scalarIdentifiers u key (.int n)
  | .float d => scalarIdentifiers u key (.float d)
  | .str s => scalarIdentifiers u key (.str s)
  termination_by structural v => v

def itemIdentifiers (u : DigitDatabase) (key : String) : List Json → List (List Char)
  | [] => []
  | x :: xs => personalIdentifiers u key x ++ itemIdentifiers u key xs
  termination_by structural xs => xs

def memberIdentifiers (u : DigitDatabase) : List (String × Json) → List (List Char)
  | [] => []
  | (key, v) :: ms => personalIdentifiers u key v ++ memberIdentifiers u ms
  termination_by structural ms => ms
end

/-- `_party_identifiers` -/
def partyIdentifiers (u : DigitDatabase) (parties : List Party) : List (List Char) :=
  parties.flatMap (memberIdentifiers u)

/-- `_rendered_identifiers` -/
def renderedIdentifiers (u : DigitDatabase) (text : String) : List (List Char) :=
  (((identifierTokenPattern u.toUnicode).findIter text.toList).map fun m =>
    normalizeDigits u m.text).filter fun digits => 8 ≤ digits.length

/-- `needle in text` -/
def containsText (needle text : List Char) : Bool :=
  text.tails.any needle.isPrefixOf

/-- `f" {name} " in f" {text} "` -/
def containsWords (name text : String) : Bool :=
  containsText (' ' :: name.toList ++ [' ']) (' ' :: text.toList ++ [' '])

/-- `sorted(values)` of a `set`. -/
def sortedTexts (values : List String) : List String :=
  values.dedup.mergeSort fun a b => decide (a ≤ b)

/-- `_party_names`, each normalized. -/
def normalizedPartyNames (u : Unicode) (parties : List Party) : List String :=
  (parties.filterMap fun party =>
    let name := ((Json.obj party).get "name").orElse ((Json.obj party).get "nome")
    if name.isTrue then some (normalizePartyName u (u.str name)) else none).filter (· != "")

/-- `_mentioned_party_names` -/
def mentionedPartyNames (u : Unicode) (text : String) : List String :=
  let named (pattern : Regex) : List String :=
    (pattern.findIter text.toList).map fun m => String.ofList ((m.group "name").getD [])
  (((named (partyTagPattern u) ++ named (roleNamePattern u) ++ named (nameRolePattern u)).map
    (normalizePartyName u)).filter (· != ""))

/-- `_party_names_present_verbatim` -/
def partyNamesPresentVerbatim (u : Unicode) (text : String) (parties : List Party) :
    List String :=
  (normalizedPartyNames u parties).filter (containsWords · (normalizePartyName u text))

/-! ## §3. Tags. -/

/-- What `_jsx_errors` knows on the way: the open tags, the last one first,
the tags that are not allowed, and the errors. -/
structure JsxScan where
  stack : List String := []
  disallowed : List String := []
  errors : List String := []
deriving Repr, DecidableEq

/-- `_ALLOWED_JSX_COMPONENTS` -/
def allowedJsxComponents : List String := ["Party", "ProcessHeader"]

/-- One tag of `_jsx_errors`. -/
def JsxScan.tag (scan : JsxScan) (m : Match) : JsxScan :=
  let name := String.ofList ((m.group "tag").getD [])
  let closing := (m.group "closing").getD []
  let selfClosing := (m.group "selfClosing").getD []
  let scan :=
    if allowedJsxComponents.contains name then scan
    else { scan with disallowed := scan.disallowed ++ [name] }
  if !selfClosing.isEmpty then scan
  else if !closing.isEmpty then
    if scan.stack.head? = some name then { scan with stack := scan.stack.tail }
    else { scan with errors := scan.errors ++ ["unbalanced JSX tag: " ++ name] }
  else { scan with stack := name :: scan.stack }

/-- `_jsx_errors` -/
def jsxErrors (u : Unicode) (text : String) : List String :=
  let errors :=
    if (classPattern u).occursIn text.toList then
      ["JSX must use className= instead of class="]
    else []
  let scan := ((jsxTagPattern u).findIter text.toList).foldl JsxScan.tag { errors }
  scan.errors ++
    (if scan.stack.isEmpty then []
      else ["unclosed JSX tags: " ++ String.intercalate ", " scan.stack.reverse]) ++
    (sortedTexts scan.disallowed).map ("JSX component is not allowed: " ++ ·)

/-! ## §4. What the source states. -/

/-- What `validar` raises. -/
inductive ValidationFailure where
  | valueError
  | overflowError
  | recursionError
deriving Repr, DecidableEq

mutual
/-- The amounts `visit` adds. -/
def visitAmounts (u : Unicode) : Json → List Rat
  | .obj members => memberAmounts u members
  | .arr xs => itemAmounts u xs
  | .null => []
  | .bool _ => []
  | .int _ => []
  | .float _ => []
  | .str _ => []
  termination_by structural v => v

def itemAmounts (u : Unicode) : List Json → List Rat
  | [] => []
  | x :: xs => visitAmounts u x ++ itemAmounts u xs
  termination_by structural xs => xs

def memberAmounts (u : Unicode) : List (String × Json) → List Rat
  | [] => []
  | (key, v) :: ms =>
      (if u.casefold key = "amount" then (decimalAmount u v).toList else []) ++
        visitAmounts u v ++ memberAmounts u ms
  termination_by structural ms => ms
end

/-- `_source_amounts`.  A float that is not finite is read as `None`: neither
is the amount of a text. -/
def sourceAmounts (u : Unicode) (source : String) : Except ValidationFailure (List Rat) :=
  match Json.loadsPlain u.readFloat .null u.recursionLimit source.toList with
  | .ok payload => .ok (visitAmounts u payload)
  | .error .decode => .ok []
  | .error .value => .error .valueError
  | .error .recursion => .error .recursionError

/-- The label and the value of a labelled line. -/
def labelled (u : Unicode) (m : Match) : String × String :=
  let part (name : String) := u.strip (String.ofList ((m.group name).getD []))
  (part "label", part "value")

/-- The error of one line of `_amount_claim_errors`. -/
def amountError (u : Unicode) (allowed : List Rat) (line : String × String) : Option String :=
  if (decimalAmountOfText u line.2).any (allowed.contains ·) then none
  else some ("source-backed amount mismatch: " ++ line.1 ++ "=" ++ line.2)

/-- `_amount_claim_errors` -/
def amountClaimErrors (u : Unicode) (text source : String) :
    Except ValidationFailure (List String) := do
  let allowed ← sourceAmounts u source
  return ((amountClaimPattern u).findIter text.toList).filterMap fun m =>
    amountError u allowed (labelled u m)

/-- The values of a labelled line: those of a list are checked one by one. -/
def claimedValues (u : Unicode) (label value : String) : List String :=
  if ["assunto", "assuntos", "tag", "tags"].contains (normalizePartyName u label) then
    (((set ",;").split value.toList).map fun part => u.strip (String.ofList part)).filter
      (· != "")
  else [value]

/-- Does the source have the words of a value one after the other? -/
def backedBy (u : Unicode) (source value : String) : Bool :=
  normalizePartyName u value == "" ||
    containsWords (normalizePartyName u value) (normalizePartyName u source)

/-- The errors of one line of `_source_backed_claim_errors`. -/
def claimErrors (u : Unicode) (source : String) (line : String × String) : List String :=
  ((claimedValues u line.1 line.2).filter fun value => !backedBy u source value).map fun value =>
    "source-backed field mismatch: " ++ line.1 ++ "=" ++ value

/-- `_source_backed_claim_errors` -/
def sourceBackedClaimErrors (u : Unicode) (text source : String) : List String :=
  ((sourceBackedClaimPattern u).findIter text.toList).flatMap fun m =>
    claimErrors u source (labelled u m)

/-- `_META_OUTPUT_MARKERS` -/
def metaOutputMarkers : List String :=
  ["system prompt", "prompt do sistema", "mensagem de sistema", "developer message",
    "mensagem de desenvolvedor", "instruções internas", "instrucoes internas",
    "ignore as instruções anteriores", "ignore as instrucoes anteriores",
    "as a language model", "como modelo de linguagem"]

/-- `_untrusted_output_errors` -/
def untrustedOutputErrors (u : Unicode) (text source : String) : List String :=
  let within (marker text : String) : Bool :=
    containsText (normalizePartyName u marker).toList (normalizePartyName u text).toList
  let urls (text : String) : List String :=
    ((urlPattern u).findIter text.toList).map fun m => String.ofList m.text
  ((metaOutputMarkers.filter fun marker => within marker text && !within marker source).map
      ("meta-output marker not present in source context: " ++ ·)) ++
    (sortedTexts ((urls text).filter fun url => !(urls source).contains url)).map
      ("URL not present in source context: " ++ ·)

/-- `_dates` -/
def dates (u : Unicode) (text : String) : List String :=
  ((datePattern u).findIter text.toList).filterMap fun m => canonicalDate u m.text

/-- `_source_dates` -/
def sourceDates (u : Unicode) (text : String) : Except ValidationFailure (List String) := do
  let instants := ((isoDatetimePattern u).findIter text.toList).filterMap fun m =>
    readInstant m.text
  let localDays ← instants.mapM fun t =>
    match u.saoPauloDate t with
    | some day => .ok day
    | none => .error ValidationFailure.overflowError
  return dates u text ++ localDays

/-- `_attention_body` -/
def attentionBody (u : Unicode) (text : String) : Option String :=
  ((attentionHeadingPattern u).search text.toList).map fun m =>
    let rest := m.last.after
    let body :=
      match searchFrom (nextHeadingPattern u) m.last.offset m.last.before rest with
      | some next => m.last.upTo next.first
      | none => rest
    u.strip (String.ofList body)

/-! ## §5. All the checks. -/

/-- The keyword arguments of `validar`. -/
structure Arguments where
  text : String
  code : String
  parties : List Party
  steps : Option (List Json) := none
  expectedStepCount : Option Int := none
  sourceText : Option String := none
  requireAttentionSection : Bool := false
  requiredAttentionPhrases : Option (List String) := none
  forbidPartyNames : Bool := false
  requireDocumentTitle : Bool := false
  allowedHeadings : Option (List String) := none
deriving Repr, DecidableEq

section Checks

variable (u : DigitDatabase) (a : Arguments)

/-- The errors about personal numbers of any party. -/
def personalNumberErrors : List String :=
  if (cpfCnpjPattern u.toUnicode).occursIn a.text.toList then ["possible unmasked CPF/CNPJ"]
  else []

/-- `_party_identifiers(parties) & _rendered_identifiers(text)` -/
def leakedIdentifiers : List (List Char) :=
  (partyIdentifiers u a.parties).filter ((renderedIdentifiers u a.text).contains ·)

/-- The error about the identifiers of the parties. -/
def identifierErrors : List String :=
  if (leakedIdentifiers u a).isEmpty then []
  else ["personal identifier from party data is prohibited"]

/-- The errors about case numbers. -/
def cnjErrors : List String :=
  let numbers (pattern : Regex) : List (List Char) :=
    (pattern.findIter a.text.toList).map Match.text
  ((numbers (cnjPattern u.toUnicode) ++ numbers (longDigitsPattern u.toUnicode)).filter
    fun found => normalizeDigits u found != normalizeDigits u a.code.toList).map fun found =>
      "CNJ mismatch: " ++ String.ofList found

/-- The errors about the names of parties. -/
def partyNameErrors : List String :=
  if a.forbidPartyNames then
    if (partyNamesPresentVerbatim u.toUnicode a.text a.parties).isEmpty then []
    else ["party names are prohibited for secret summary"]
  else
    let allowed := normalizedPartyNames u.toUnicode a.parties
    let unknown := sortedTexts
      ((mentionedPartyNames u.toUnicode a.text).filter fun name => !allowed.contains name)
    if unknown.isEmpty then []
    else ["hallucinated parties: " ++ String.intercalate ", " unknown]

def forecastErrors : List String :=
  if (forecastPattern u.toUnicode).occursIn a.text.toList then
    ["prognostic language is prohibited"]
  else []

/-- The errors about the number of movements. -/
def movementCountErrors : Except ValidationFailure (List String) :=
  match a.expectedStepCount.or (a.steps.map fun steps => (steps.length : Int)) with
  | none => .ok []
  | some expected => do
      let stated ← (((movementCountPattern u.toUnicode).findIter a.text.toList).map fun m =>
        (m.group "count").getD []).mapM fun count =>
          if maxStrDigits < count.length then Except.error ValidationFailure.valueError
          else .ok (numeral u.toUnicode count)
      return (stated.filter fun count => (count : Int) != expected).map fun count =>
        s!"movement count mismatch: stated {count}, expected {expected}"

/-- The errors about what the source does not state. -/
def sourceErrors : Except ValidationFailure (List String) :=
  match a.sourceText with
  | none => .ok []
  | some source => do
      let allowed ← sourceDates u.toUnicode source
      let unknown := sortedTexts
        ((dates u.toUnicode a.text).filter fun date => !allowed.contains date)
      let amounts ← amountClaimErrors u.toUnicode a.text source
      return unknown.map ("date not present in source context: " ++ ·) ++
        sourceBackedClaimErrors u.toUnicode a.text source ++ amounts ++
        untrustedOutputErrors u.toUnicode a.text source

/-- The errors about the section of attention. -/
def attentionErrors : List String :=
  let required := "Pontos de atenção section is required"
  let body := attentionBody u.toUnicode a.text
  let phrases := a.requiredAttentionPhrases.getD []
  if a.requireAttentionSection || !phrases.isEmpty then
    match body with
    | none => [required]
    | some body =>
        (if a.requireAttentionSection && body == "" then
          ["Pontos de atenção section must not be empty"] else []) ++
        (phrases.filter fun phrase =>
          let normalized := normalizePartyName u.toUnicode phrase
          normalized != "" &&
            !containsText normalized.toList
              (normalizePartyName u.toUnicode body).toList).map
          ("required attention fact missing: " ++ ·)
  else []

/-- The errors about the structure of the text. -/
def structureErrors : List String :=
  jsxErrors u.toUnicode a.text ++ coreSectionOrderErrors u.toUnicode a.text ++
    conditionalSectionOrderErrors u.toUnicode a.text ++
    match a.allowedHeadings with
    | some allowed => unexpectedHeadingErrors u.toUnicode a.text allowed
    | none => []

def titleErrors : List String :=
  if a.requireDocumentTitle then documentTitleErrors u.toUnicode a.text else []

/-- The checks before the one of the identifiers. -/
def earlierErrors : List String := titleErrors u a ++ personalNumberErrors u a

/-- The checks after it. -/
def laterErrors : Except ValidationFailure (List String) := do
  let counts ← movementCountErrors u a
  let source ← sourceErrors u a
  return cnjErrors u a ++ partyNameErrors u a ++ forecastErrors u a ++ counts ++ source ++
    attentionErrors u a ++ structureErrors u a

/-- `ValidationResult` -/
structure ValidationResult where
  passed : Bool
  errors : List String
deriving Repr, DecidableEq

/-- `validar` -/
def validar : Except ValidationFailure ValidationResult := do
  let later ← laterErrors u a
  let errors := earlierErrors u a ++ identifierErrors u a ++ later
  return { passed := errors.isEmpty, errors }

end Checks

end Rpy.Summaries.Validation

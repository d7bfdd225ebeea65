/-
  Rpy.Judit.Promotion
  ───────────────────
  **WHAT A LAWSUIT RESPONSE IS PROMOTED TO**
  (`extract_promotable_fields` of `app/judit.py`).

  The response is any JSON object that the webhook has let through.  Each
  accessor takes what it is given: a loop goes over the items of a list,
  the keys of an object and the characters of a text alike, and raises on
  the rest.

    • `iterate`, `first`, `intOf`  — `for`, `[0]` and `int` on a JSON value,
    • `normalizeStepText`          — the text of a step, redacted,
    • `safePartyEntity`            — what is kept of a party,
    • `extractPromotableFields`    — the promotable fields, or what is raised.

  A value that `json.loads` has read is nested no deeper, and its numbers
  have no more digits, than `str` allows, so `str` returns its text.
-/
import Rpy.Foundation.Raising
import Rpy.Foundation.Substitution
import Rpy.Judit.Cnj
import Rpy.Processes.Semantics
import Rpy.Summaries.Facts

namespace Rpy.Judit

open Rpy.Foundation
open Regex
open Rpy.Summaries

/-! ## §1. Python on JSON values. -/

/-- What the promotion takes from Python beside the classes of digits. -/
structure Runtime extends Digits where
  /-- `str.upper` -/
  upper : String → String
  /-- the instant of `datetime.fromisoformat(text)`, in UTC where the text has
  no offset; `none` for a `ValueError` -/
  fromIsoFormat : String → Option Timestamp
  /-- does `astimezone(ZoneInfo("America/Sao_Paulo"))` stay within the years
  of `datetime`?  Otherwise it raises `OverflowError` -/
  representable : Timestamp → Bool

/-- What leaves the promotion when it does not return. -/
inductive Raised
  | typeError
  | keyError
  | indexError
  | valueError
  | overflowError
deriving Repr, DecidableEq

/-- The items a `for` loop goes over. -/
def iterate : Json → Except Raised (List Json)
  | .arr xs => .ok xs
  | .obj members => .ok (members.map fun m => .str m.1)
  | .str s => .ok (s.toList.map fun c => .str (String.singleton c))
  | _ => .error .typeError

/-- `value[0]` -/
def first : Json → Except Raised Json
  | .arr (x :: _) => .ok x
  | .arr [] => .error .indexError
  | .str s =>
      match s.toList with
      | c :: _ => .ok (.str (String.singleton c))
      | [] => .error .indexError
  | .obj _ => .error .keyError
  | _ => .error .typeError

section Accessors

variable (u : Runtime)

/-- `int(value)` -/
def intOf : Json → Except Raised Int
  | .int n => .ok n
  | .bool b => .ok (if b then 1 else 0)
  | .float d => .ok (truncate d)
  | .str s =>
      match intOfText u.toUnicode s with
      | some n => .ok n
      | none => .error .valueError
  | _ => .error .typeError

/-- `str(value or "")` -/
def textOr (v : Json) : String := u.str (v.orElse (.str ""))

/-- `str(value).strip()` -/
def stripped (v : Json) : String := u.strip (u.str v)

/-- `text.isdigit()` -/
def isDigits (cs : List Char) : Bool := !cs.isEmpty && cs.all u.isDigit

/-- `text.replace("Z", "+00:00")` -/
def zuluReplaced (cs : List Char) : List Char :=
  cs.flatMap fun c => if c = 'Z' then "+00:00".toList else [c]

/-- `_parse_datetime` of a JSON value. -/
def parseDatetime : Json → Except Raised (Option Timestamp)
  | .str s =>
      if s = "" then .ok none
      else
        match u.fromIsoFormat (String.ofList (zuluReplaced (u.strip s).toList)) with
        | none => .ok none
        | some parsed =>
            if u.representable parsed then .ok (some parsed) else .error .overflowError
  | _ => .ok none

/-! ## §2. The text of a step. -/

/-- `_LEADING_STEP_NUMBER_RE` at the start of a text. -/
def leadingStepNumberRe : Regex :=
  cat [star (.char u.isSpace), plus (.char u.isDecimal), star (.char u.isSpace),
    oneOf [.seq (set "-–—.:)") (star (.char u.isSpace)), plus (.char u.isSpace)]]

/-- `_ELETRONICA_REFER_RE` -/
def eletronicaReferRe : Regex :=
  cat [.boundary u.isWord, textBy u.sameCase "ELETRÔNICAREFER", .boundary u.isWord]

/-- `[a-záàâãéêíóôõúç]` -/
def isGlueLower (c : Char) : Bool := c.isLower || "áàâãéêíóôõúç".toList.contains c

/-- `[A-ZÁÀÂÃÉÊÍÓÔÕÚÇ]` -/
def isGlueUpper (c : Char) : Bool := c.isUpper || "ÁÀÂÃÉÊÍÓÔÕÚÇ".toList.contains c

/-- `_GLUE_BOUNDARY_RE` -/
def glueBoundaryRe : Regex := .seq (.behind true isGlueLower) (.ahead true (.char isGlueUpper))

/-- `_WHITESPACE_RE` -/
def whitespaceRe : Regex := plus (.char u.isSpace)

/-- `_PERSONAL_ID_RE` -/
def personalIdRe : Regex := aloneRe u.isDecimal 11 14

/-- `_normalize_step_text` -/
def normalizeStepText (v : Json) : String :=
  let text := (textOr u v).toList.map fun c => if c = '\u00a0' then ' ' else c
  let text :=
    match matchStart (leadingStepNumberRe u) text with
    | some m => m.last.after
    | none => text
  let text := sub (eletronicaReferRe u) "ELETRÔNICA REFER".toList text
  let text := sub glueBoundaryRe [' '] text
  let text := u.stripChars (sub (whitespaceRe u) [' '] text)
  String.ofList (sub (personalIdRe u) "[documento removido]".toList text)

/-- `_SOURCE_STEP_NUMBER_KEYS` -/
def sourceStepNumberKeys : List String :=
  ["source_step_number", "step_number", "event_number", "movement_number", "sequence_number"]

/-- The loop of `_source_step_number`. -/
def sourceStepNumber (step : Json) : List String → Except Raised (Option Int)
  | [] => .ok none
  | key :: keys =>
      match step.get key with
      | .int n => .ok (if 0 ≤ n then some n else none)
      | .str s =>
          let candidate := u.strip s
          if isDigits u candidate.toList then
            match intOfText u.toUnicode candidate with
            | some n => .ok (some n)
            | none => .error .valueError
          else sourceStepNumber step keys
      | _ => sourceStepNumber step keys

/-! ## §3. Parties. -/

/-- `_personal_id_digits` -/
def personalIdDigits : Json → Option (List Char)
  | .null => none
  | .bool _ => none
  | v =>
      let digits := (u.str v).toList.filter u.isDigit
      if digits.length = 11 ∨ digits.length = 14 then some digits else none

/-- `_party_personal_id` -/
def partyPersonalId (party : Json) : Except Raised (Option (List Char)) :=
  match personalIdDigits u (party.get "main_document") with
  | some digits => .ok (some digits)
  | none => do
      let documents ← iterate ((party.get "documents").orElse (.arr []))
      .ok (documents.findSome? fun document =>
        if document.isObj then personalIdDigits u (document.get "document") else none)

/-- `_masked_personal_id` -/
def maskedPersonalId (value : List Char) : Except Raised (List Char) :=
  if value.length = 11 then .ok ("***.***.***-".toList ++ value.drop 9)
  else if value.length = 14 then .ok ("**.***.***/****-".toList ++ value.drop 12)
  else .error .valueError

/-- `_normalized_person_type` -/
def normalizedPersonType (v : Json) : String :=
  let rendered := u.nfkd (u.strip (textOr u v))
  let ascii := rendered.toList.filter fun c => !u.isCombining c
  let words := sub (plus (.char fun c => !(c.isUpper || c.isDigit))) ['_']
    (u.upper (String.ofList ascii)).toList
  String.ofList ((words.dropWhile (· == '_')).rdropWhile (· == '_'))

/-- `_REPRESENTATIVE_PERSON_TYPES` -/
def representativePersonTypes : List String :=
  ["ADVOGADO", "ADVOGADA", "ATTORNEY", "LAWYER", "COUNSEL", "PROCURADOR", "PROCURADORA",
    "REPRESENTANTE", "REPRESENTATIVE", "LEGAL_REPRESENTATIVE", "REPRESENTANTE_LEGAL",
    "ADVOGADO_A", "PROCURADOR_A", "DEFENSOR", "DEFENSORA", "DEFENSOR_PUBLICO",
    "DEFENSORA_PUBLICA"]

/-- `_is_representative` -/
def isRepresentative (party : Json) : Bool :=
  representativePersonTypes.contains (normalizedPersonType u (party.get "person_type"))

/-- `_REPRESENTED_PARTY_KEYS` -/
def representedPartyKeys : List String :=
  ["represented_party", "represented_party_name", "party_name", "client", "principal"]

/-- `_represented_party_name` -/
def representedPartyName (party : Json) : Option String :=
  representedPartyKeys.findSome? fun key =>
    let value := party.get key
    let value := if value.isObj then value.get "name" else value
    if value = .null then none
    else if stripped u value = "" then none
    else some (stripped u value)

/-- `str(party.get("name") or "").strip()` -/
def partyName (party : Json) : String := u.strip (textOr u (party.get "name"))

/-- `_safe_party_entity`: the members of what is kept. -/
def safePartyEntity (party : Json) : Except Raised (Option (List (String × Json))) :=
  if partyName u party = "" then .ok none
  else do
    let kept : List (String × Json) :=
      [("name", .str (partyName u party)), ("side", party.get "side"),
        ("person_type", party.get "person_type")]
    match ← partyPersonalId u party with
    | none => .ok (some kept)
    | some digits => do
        let masked ← maskedPersonalId digits
        .ok (some (kept ++ [("masked_person_id", .str (String.ofList masked))]))

/-- The body of the loop over the parties: what is appended to the parties
and to the representatives. -/
def safeParty (party : Json) : Except Raised (List Json × List Json) :=
  if party.isObj then do
    match ← safePartyEntity u party with
    | none => .ok ([], [])
    | some kept =>
        if isRepresentative u party then
          match representedPartyName u party with
          | some name => .ok ([], [.obj (kept ++ [("represents", .str name)])])
          | none => .ok ([], [.obj kept])
        else .ok ([.obj kept], [])
  else .ok ([], [])

/-- `_safe_parties_and_representatives` -/
def safePartiesAndRepresentatives (process : Json) : Except Raised (List Json × List Json) := do
  let items ← iterate ((process.get "parties").orElse (.arr []))
  let parts ← items.mapM (safeParty u)
  .ok (parts.flatMap (·.1), parts.flatMap (·.2))

/-! ## §4. Subjects and attachments. -/

/-- `_safe_subjects` -/
def safeSubjects (process : Json) : Except Raised (List Json) := do
  let items ← iterate ((process.get "subjects").orElse (.arr []))
  .ok (items.filterMap fun subject =>
    if subject.isObj then
      some (.obj [("code", subject.get "code"), ("name", subject.get "name")])
    else if subject = .null then none
    else some (.obj [("code", .null), ("name", .str (u.str subject))]))

/-- `str(attachment.get("attachment_id") or "").strip()` -/
def attachmentIdOf (attachment : Json) : String := u.strip (textOr u (attachment.get "attachment_id"))

/-- `value or None` of a text. -/
def nonEmpty (s : String) : Option String := if s = "" then none else some s

/-- The loop of `_safe_attachments`, with the ids seen so far. -/
def safeAttachmentsFrom (seen : List String) :
    List Json → Except Raised (List Processes.Attachment)
  | [] => .ok []
  | attachment :: rest =>
      let attachmentId := attachmentIdOf u attachment
      if !attachment.isObj || attachmentId = "" || attachmentId ∈ seen then
        safeAttachmentsFrom seen rest
      else do
        let rawName :=
          if attachment.get "attachment_name" = .null then attachment.get "content"
          else attachment.get "attachment_name"
        let rawStatus := attachment.get "status"
        let attachmentDate ← parseDatetime u (attachment.get "attachment_date")
        let others ← safeAttachmentsFrom (attachmentId :: seen) rest
        .ok ({ attachmentId, attachmentDate
               attachmentName := if rawName = .null then none else nonEmpty (stripped u rawName)
               providerStatus := if rawStatus = .null then none
                 else nonEmpty (u.lower (stripped u rawStatus)) } :: others)

/-- `_safe_attachments` -/
def safeAttachments (process : Json) : Except Raised (List Processes.Attachment) := do
  let items ← iterate ((process.get "attachments").orElse (.arr []))
  safeAttachmentsFrom u [] items

end Accessors

/-! ## §5. The process. -/

/-- The class of the first classification: its name and its code. -/
def firstClass (process : Json) : Except Raised (Json × Json) := do
  let classifications := (process.get "classifications").orElse (.arr [])
  if classifications.isTrue then
    let item ← first classifications
    if item.isObj then .ok (item.get "name", item.get "code") else .ok (.null, .null)
  else .ok (.null, .null)

/-- The court the process names itself. -/
def namedCourt (process : Json) : Json :=
  (process.get "tribunal_acronym").orElse (process.get "court")

/-- The court of the process, or of its first court. -/
def courtOf (process : Json) : Except Raised Json := do
  let courts := (process.get "courts").orElse (.arr [])
  if !(namedCourt process).isTrue && courts.isTrue then
    let item ← first courts
    if item.isObj then .ok ((item.get "name").orElse (item.get "code"))
    else .ok (namedCourt process)
  else .ok (namedCourt process)

/-- `process.get("secrecy_level") or process.get("secrecyLevel") or 0` -/
def secrecyValue (process : Json) : Json :=
  ((process.get "secrecy_level").orElse (process.get "secrecyLevel")).orElse (.int 0)

/-- `_SECRET_HEADER_KEYS` -/
def secretHeaderKeys : List String :=
  ["instance", "area", "justice_description", "county", "state", "city"]

/-- `_PUBLIC_HEADER_KEYS` -/
def publicHeaderKeys : List String := "name" :: secretHeaderKeys ++ ["amount"]

/-- The members of the header that are not `None`. -/
def headerOf (keys : List String) (process : Json) : List (String × Json) :=
  keys.filterMap fun key =>
    if process.get key = .null then none else some (key, process.get key)

/-- The steps, under the first of three names that holds something. -/
def stepsValue (process : Json) : Json :=
  (((process.get "steps").orElse (process.get "movements")).orElse
    (process.get "events")).orElse (.arr [])

/-- `step_date` -/
def stepDate (step : Json) : Json :=
  (((step.get "step_date").orElse (step.get "occurred_at")).orElse
    (step.get "date")).orElse (step.get "datetime")

/-- `step_type` -/
def stepType (step : Json) : Json :=
  ((step.get "step_type").orElse (step.get "title")).orElse (step.get "type")

/-- `raw_text` -/
def stepRawText (step : Json) : Json :=
  (((step.get "content").orElse (step.get "text")).orElse (step.get "description")).orElse (.str "")

section Extraction

variable (u : Runtime)

/-- The process code, normalised where it can be. -/
def codeOf (process : Json) : Json :=
  let rawCode := (process.get "code").orElse (process.get "process_code")
  if rawCode.isTrue then
    match normalizeCnj u.toDigits (u.str rawCode) with
    | some code => .str code
    | none => if stripped u rawCode = "" then .null else .str (stripped u rawCode)
  else .null

/-- The header: fewer members of a secret process, the class of an open one. -/
def fullHeader (process classCode : Json) (secrecyLevel : Int) : List (String × Json) :=
  headerOf (if 0 < secrecyLevel then secretHeaderKeys else publicHeaderKeys) process ++
    (if secrecyLevel = 0 ∧ classCode ≠ .null ∧ stripped u classCode ≠ "" then
      [("class_code", .str (stripped u classCode))] else [])

/-- The body of the loop over the steps. -/
def promoteStep (process court : Json) (secrecyLevel : Int) (index : Nat) (step : Json) :
    Except Raised Processes.Step := do
  let occurredAt ← parseDatetime u (stepDate step)
  let text := normalizeStepText u (stepRawText step)
  let sourceNumber ← sourceStepNumber u step sourceStepNumberKeys
  .ok {
    stepNumber := index
    occurredAt
    title := stepType step
    text
    metadata := .obj [
      ("cnj", codeOf u process), ("instance", process.get "instance"), ("court", court),
      ("type", stepType step), ("step_id", step.get "step_id"), ("step_number", .int index),
      ("source_step_number", (sourceNumber.map Json.int).getD .null),
      ("private", step.get "private"), ("secrecy_level", .int secrecyLevel),
      ("tags", (step.get "tags").orElse (.obj [])), ("source_step_date", stepDate step),
      ("occurred_at_sao_paulo", Processes.datetimeValue u.toPlatform occurredAt)] }

/-- `for index, step in enumerate(steps, start=1)` -/
def promoteSteps (process court : Json) (secrecyLevel : Int) :
    Nat → List Json → Except Raised (List Processes.Step)
  | _, [] => .ok []
  | index, step :: steps =>
      if step.isObj then do
        let promoted ← promoteStep u process court secrecyLevel index step
        let others ← promoteSteps process court secrecyLevel (index + 1) steps
        .ok (promoted :: others)
      else promoteSteps process court secrecyLevel (index + 1) steps

/-- `extract_promotable_fields` -/
def extractPromotableFields (process : Json) : Except Raised Processes.SemanticFields := do
  let (firstName, classCode) ← firstClass process
  let className := (firstName.orElse (process.get "class_name")).orElse (process.get "class")
  let court ← courtOf process
  let secrecyLevel ← intOf u (secrecyValue process)
  let header := fullHeader u process classCode secrecyLevel
  if 0 < secrecyLevel then .ok { header, court, className, secrecyLevel }
  else
    let items ← iterate (stepsValue process)
    let steps ← promoteSteps u process court secrecyLevel 1 items
    let (parties, representatives) ← safePartiesAndRepresentatives u process
    let subjects ← safeSubjects u process
    let attachments ← safeAttachments u process
    .ok { header, parties, representatives, subjects, steps, attachments, court, className,
          secrecyLevel }

end Extraction

end Rpy.Judit

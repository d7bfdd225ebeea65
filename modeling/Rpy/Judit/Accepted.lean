/-
  Rpy.Judit.Accepted
  ──────────────────
  **WHICH ACCEPTED RESPONSES CAN BE PROMOTED**
  (`parse_event` and `extract_promotable_fields` of `app/judit.py`).

  The webhook looks at the envelope and at the process code.  The promotion
  goes through the rest, and some of its accessors raise on values of a type
  they were not written for.

    • `parseEvent`       — what the webhook accepts,
    • `Promotable`       — the shape the accessors of the promotion need,
    • `returns_extractPromotableFields` — the promotion returns where the
                           response has it,
    • `returns_iff_promotable` — **and so for every accepted response**,
    • `not_accepted_promotable` — one is accepted and not promoted.
-/
import Rpy.Judit.Promotion

namespace Rpy.Judit

open Rpy.Foundation
open Rpy.Summaries

/-! ## §1. What the webhook accepts. -/

/-- `JuditEvent` -/
structure JuditEvent where
  eventType : String
  requestId : Option String
  callbackId : Option String
  responseId : Option String
  responseType : Option String
  code : Option String
  cachedResponse : Bool
  raw : Json
  responseData : Option Json
deriving DecidableEq

/-- `is_lawsuit_response` -/
def JuditEvent.isLawsuitResponse (event : JuditEvent) : Bool :=
  event.eventType == "response_created" && event.responseType == some "lawsuit"

/-- `value if isinstance(value, dict) else {}` -/
def objectOr (v : Json) : Json := if v.isObj then v else .obj []

section Parsing

variable (u : Runtime)

/-- `request_completed` -/
def JuditEvent.requestCompleted (event : JuditEvent) : Bool :=
  if event.eventType = "request_completed" then true
  else if event.eventType ≠ "response_created" ∨ event.responseType ≠ some "application_info" then
    false
  else
    let data := (event.responseData.getD .null).orElse (.obj [])
    let message := u.upper (u.strip (textOr u (data.get "message")))
    let infoCode := (intOf u (data.get "code")).toOption
    message == "REQUEST_COMPLETED" || infoCode == some 600

/-- `str(value) if value else None` -/
def textIf (v : Json) : Option String := if v.isTrue then some (u.str v) else none

/-- The event a body describes, before it is checked. -/
def readEvent (body : Json) : JuditEvent :=
  let namedType := u.lower (u.strip (textOr u (body.get "event_type")))
  let referenceType := u.lower (u.strip (textOr u (body.get "reference_type")))
  let payload := objectOr (body.get "payload")
  let explicitRequestId :=
    ((payload.get "request_id").orElse (body.get "request_id")).orElse (body.get "requestId")
  let requestId :=
    if explicitRequestId.isTrue then explicitRequestId
    else if referenceType ≠ "tracking" then body.get "reference_id"
    else .null
  let namedData :=
    if (payload.get "response_data").isObj then some (payload.get "response_data") else none
  let status := u.lower (textOr u (body.get "status"))
  let eventType :=
    if namedType ≠ "" then namedType
    else if status = "completed" ∨ status = "request_completed" then "request_completed"
    else "response_created"
  let responseData := if namedType = "" then some (namedData.getD body) else namedData
  let responseType :=
    if namedType = "" then (payload.get "response_type").orElse (.str "lawsuit")
    else payload.get "response_type"
  let tags := objectOr (payload.get "tags")
  let cachedResponse :=
    (tags.get? "cached_response").getD ((payload.get? "cached_response").getD
      ((body.get? "cached_response").getD (.bool false)))
  let code := responseData.bind fun data =>
    (textIf u ((data.get "code").orElse (data.get "process_code"))).bind fun value =>
      nonEmpty (u.strip value)
  { eventType, requestId := textIf u requestId, callbackId := textIf u (body.get "callback_id")
    responseId := textIf u (payload.get "response_id"), responseType := textIf u responseType
    code, cachedResponse := cachedResponse.isTrue, raw := body, responseData }

/-- `not value` of a text that may be missing. -/
def isMissing (value : Option String) : Bool := value.getD "" == ""

/-- `parse_event`; a float of a JSON value is finite, so the check for
numbers that are not finds none. -/
def parseEvent (body : Json) : Except String JuditEvent :=
  if body.isObj then
    let event := readEvent u body
    if event.isLawsuitResponse then
      match event.code with
      | none => .error "lawsuit response missing process code"
      | some value =>
          match normalizeCnj u.toDigits value with
          | none => .error "invalid CNJ process code"
          | some code =>
              if isMissing event.requestId then .error "lawsuit response missing request id"
              else if isMissing event.responseId && isMissing event.callbackId then
                .error "lawsuit response missing stable response identifier"
              else .ok { event with code := some code }
    else if event.requestCompleted u && isMissing event.requestId then
      .error "request completion missing request id"
    else .ok event
  else .error "invalid webhook envelope"

/-! ## §2. The shape the promotion needs. -/

/-- A loop goes over the value, or over nothing in its place. -/
def iterable : Json → Bool
  | .arr _ => true
  | .obj _ => true
  | .str _ => true
  | v => !v.isTrue

/-- The value has a first item, or none is asked for. -/
def indexable : Json → Bool
  | .arr _ => true
  | .str _ => true
  | v => !v.isTrue

/-- What a loop goes over. -/
def listed : Json → List Json
  | .arr xs => xs
  | .obj members => members.map fun m => .str m.1
  | .str s => s.toList.map fun c => .str (String.singleton c)
  | _ => []

/-- A date that can be read is within the years of `datetime`. -/
def DateFits (v : Json) : Prop :=
  ∀ s t, v = .str s → s ≠ "" →
    u.fromIsoFormat (String.ofList (zuluReplaced (u.strip s).toList)) = some t →
    u.representable t = true

/-- An integer, or a text that `str.isdigit` takes. -/
def holdsNumber : Json → Bool
  | .int _ => true
  | .str s => isDigits u (u.strip s).toList
  | _ => false

/-- The first number field of a step that holds a number holds one that
`int` takes. -/
def NumberReads (step : Json) : Prop :=
  ∀ key s, sourceStepNumberKeys.find? (fun key => holdsNumber u (step.get key)) = some key →
    step.get key = .str s → (intOfText u.toUnicode (u.strip s)).isSome = true

/-- The documents of a party are gone through where it has a name and no
document number of its own. -/
def DocumentsFit (party : Json) : Prop :=
  partyName u party ≠ "" → personalIdDigits u (party.get "main_document") = none →
    iterable (party.get "documents") = true

/-- The date of an attachment is read where it has an id that none before
it has. -/
def AttachmentsFit (items : List Json) : Prop :=
  ∀ before attachment after, items = before ++ attachment :: after →
    attachment.isObj = true → attachmentIdOf u attachment ≠ "" →
    (∀ other ∈ before, other.isObj = true → attachmentIdOf u other ≠ attachmentIdOf u attachment) →
    DateFits u (attachment.get "attachment_date")

/-- The steps, under the first of three names that holds something. -/
def namedSteps (process : Json) : Json :=
  ((process.get "steps").orElse (process.get "movements")).orElse (process.get "events")

/-- The shape of a process that is not secret. -/
structure OpenShape (process : Json) : Prop where
  steps : iterable (namedSteps process) = true
  stepDates : ∀ step ∈ listed (namedSteps process), step.isObj = true → DateFits u (stepDate step)
  stepNumbers : ∀ step ∈ listed (namedSteps process), step.isObj = true → NumberReads u step
  parties : iterable (process.get "parties") = true
  documents : ∀ party ∈ listed (process.get "parties"), party.isObj = true → DocumentsFit u party
  subjects : iterable (process.get "subjects") = true
  attachments : iterable (process.get "attachments") = true
  attachmentDates : AttachmentsFit u (listed (process.get "attachments"))

/-- **The shape the promotion needs**: the first classification and court can
be looked up, the secrecy level is a number, and the rest has its shape
unless the process is secret. -/
structure Promotable (process : Json) : Prop where
  classifications : indexable (process.get "classifications") = true
  courts : (namedCourt process).isTrue = true ∨ indexable (process.get "courts") = true
  level : ∃ n, intOf u (secrecyValue process) = .ok n
  openShape : ∀ n, intOf u (secrecyValue process) = .ok n → n ≤ 0 → OpenShape u process

end Parsing

/-! ## §3. Each accessor returns where its shape is met. -/

section Returning

variable {u : Runtime}

/-- The loop over `value or []`. -/
theorem iterate_orElse (v : Json) :
    iterate (v.orElse (.arr [])) = if iterable v then .ok (listed v) else .error .typeError := by
  cases v with
  | null => rfl
  | bool b => cases b <;> rfl
  | int n =>
      by_cases hn : n = 0
      · subst hn
        rfl
      · simp [Json.orElse, Json.isTrue, iterable, iterate, hn]
  | float d =>
      by_cases hd : d.digits = 0
      · simp [Json.orElse, Json.isTrue, iterable, iterate, listed, hd]
      · simp [Json.orElse, Json.isTrue, iterable, iterate, hd]
  | str s =>
      by_cases hs : s = ""
      · subst hs
        rfl
      · simp [Json.orElse, Json.isTrue, iterable, iterate, listed, hs]
  | arr xs => cases xs <;> rfl
  | obj ms => cases ms <;> rfl

theorem iterate_orElse_eq_ok {v : Json} {items : List Json} :
    iterate (v.orElse (.arr [])) = .ok items ↔ iterable v = true ∧ items = listed v := by
  rw [iterate_orElse]
  cases iterable v with
  | false => exact ⟨fun h => (nomatch h), fun h => (nomatch h.1)⟩
  | true =>
      constructor
      · intro h
        exact ⟨rfl, (Except.ok.inj h).symm⟩
      · rintro ⟨-, rfl⟩
        rfl

/-- What goes through `value or []` returns where the loop does and its body
does. -/
theorem returns_iterate {α : Type} {v : Json} {f : List Json → Except Raised α} :
    Returns (iterate (v.orElse (.arr [])) >>= f) ↔ iterable v = true ∧ Returns (f (listed v)) := by
  rw [returns_bind]
  constructor
  · rintro ⟨items, hitems, hf⟩
    obtain ⟨hv, rfl⟩ := iterate_orElse_eq_ok.1 hitems
    exact ⟨hv, hf⟩
  · rintro ⟨hv, hf⟩
    exact ⟨listed v, iterate_orElse_eq_ok.2 ⟨hv, rfl⟩, hf⟩

/-- The first item of `value or []`, where there is one. -/
theorem returns_first {v : Json} (h : (v.orElse (.arr [])).isTrue = true) :
    Returns (first (v.orElse (.arr []))) ↔ indexable v = true := by
  have htrue : v.isTrue = true := by
    by_contra hv
    rw [Json.orElse, if_neg hv] at h
    cases h
  rw [Json.orElse, if_pos htrue]
  cases v with
  | null => cases htrue
  | bool b =>
      rw [show b = true from htrue]
      exact ⟨fun hr => absurd hr (not_returns_error _), fun hi => absurd hi Bool.false_ne_true⟩
  | int n =>
      have hi : indexable (.int n) = false := congrArg not htrue
      rw [hi]
      exact ⟨fun hr => absurd hr (not_returns_error _), fun h => absurd h Bool.false_ne_true⟩
  | float d =>
      have hi : indexable (.float d) = false := congrArg not htrue
      rw [hi]
      exact ⟨fun hr => absurd hr (not_returns_error _), fun h => absurd h Bool.false_ne_true⟩
  | str s =>
      refine ⟨fun _ => rfl, fun _ => ?_⟩
      have hs : s ≠ "" := by simpa [Json.isTrue] using htrue
      rw [first]
      cases hl : s.toList with
      | nil => exact absurd (String.toList_eq_nil_iff.1 hl) hs
      | cons c cs => exact returns_ok _
  | arr xs =>
      refine ⟨fun _ => rfl, fun _ => ?_⟩
      cases xs with
      | nil => cases htrue
      | cons x xs => exact returns_ok _
  | obj ms =>
      have hi : indexable (.obj ms) = false := congrArg not htrue
      rw [hi]
      exact ⟨fun hr => absurd hr (not_returns_error _), fun h => absurd h Bool.false_ne_true⟩

/-- A value that is replaced by nothing can be indexed. -/
theorem indexable_of_not_isTrue {v : Json} (h : (v.orElse (.arr [])).isTrue = false) :
    indexable v = true := by
  have hfalse : v.isTrue = false := by
    by_contra hv
    have htrue : v.isTrue = true := by simpa using hv
    rw [Json.orElse, if_pos htrue, htrue] at h
    cases h
  cases v with
  | arr xs => rfl
  | str s => rfl
  | null => rfl
  | bool b => exact congrArg not hfalse
  | int n => exact congrArg not hfalse
  | float d => exact congrArg not hfalse
  | obj ms => exact congrArg not hfalse

theorem returns_firstClass (process : Json) :
    Returns (firstClass process) ↔ indexable (process.get "classifications") = true := by
  unfold firstClass
  cases htrue : ((process.get "classifications").orElse (.arr [])).isTrue with
  | false =>
      simp only [htrue, Bool.false_eq_true, if_false]
      exact ⟨fun _ => indexable_of_not_isTrue htrue, fun _ => returns_ok _⟩
  | true =>
      simp only [htrue, if_true]
      rw [returns_bind, ← returns_first htrue]
      constructor
      · rintro ⟨item, hitem, -⟩
        exact ⟨item, hitem⟩
      · rintro ⟨item, hitem⟩
        refine ⟨item, hitem, ?_⟩
        split <;> exact returns_ok _

theorem returns_courtOf (process : Json) : Returns (courtOf process) ↔
    (namedCourt process).isTrue = true ∨ indexable (process.get "courts") = true := by
  unfold courtOf
  cases hnamed : (namedCourt process).isTrue with
  | true =>
      simp only [Bool.not_true, Bool.false_and, Bool.false_eq_true, if_false, true_or, iff_true]
      exact returns_ok _
  | false =>
      cases htrue : ((process.get "courts").orElse (.arr [])).isTrue with
      | false =>
          simp only [htrue, Bool.and_false, Bool.false_eq_true, if_false, false_or]
          exact ⟨fun _ => indexable_of_not_isTrue htrue, fun _ => returns_ok _⟩
      | true =>
          simp only [htrue, Bool.not_false, Bool.and_self, if_true, Bool.false_eq_true,
            false_or]
          rw [returns_bind, ← returns_first htrue]
          constructor
          · rintro ⟨item, hitem, -⟩
            exact ⟨item, hitem⟩
          · rintro ⟨item, hitem⟩
            refine ⟨item, hitem, ?_⟩
            split <;> exact returns_ok _

theorem returns_parseDatetime (v : Json) : Returns (parseDatetime u v) ↔ DateFits u v := by
  cases v with
  | str s =>
      rw [parseDatetime]
      by_cases hs : s = ""
      · rw [if_pos hs]
        exact ⟨fun _ s' t h hne => absurd (Json.str.inj h ▸ hs) hne, fun _ => returns_ok _⟩
      · rw [if_neg hs]
        cases hparsed : u.fromIsoFormat (String.ofList (zuluReplaced (u.strip s).toList)) with
        | none =>
            refine ⟨fun _ s' t h _ hread => ?_, fun _ => returns_ok _⟩
            cases h
            rw [hparsed] at hread
            cases hread
        | some parsed =>
            simp only
            cases hfits : u.representable parsed with
            | true =>
                rw [if_pos rfl]
                refine ⟨fun _ s' t h _ hread => ?_, fun _ => returns_ok _⟩
                cases h
                rw [hparsed] at hread
                cases hread
                exact hfits
            | false =>
                rw [if_neg Bool.false_ne_true]
                refine ⟨fun h => absurd h (not_returns_error _), fun h => ?_⟩
                have hyes := h s parsed rfl hs hparsed
                rw [hfits] at hyes
                cases hyes
  | _ => exact ⟨fun _ s t h => (nomatch h), fun _ => returns_ok _⟩

theorem returns_sourceStepNumber (step : Json) (keys : List String) :
    Returns (sourceStepNumber u step keys) ↔
      ∀ key s, keys.find? (fun key => holdsNumber u (step.get key)) = some key →
        step.get key = .str s → (intOfText u.toUnicode (u.strip s)).isSome = true := by
  induction keys with
  | nil => exact ⟨fun _ key s h => (nomatch h), fun _ => returns_ok _⟩
  | cons key keys ih =>
      rw [sourceStepNumber]
      let p := fun key => holdsNumber u (step.get key)
      -- a field that holds no number is passed over
      have hpass : holdsNumber u (step.get key) = false →
          ((∀ key' s, keys.find? (fun key => holdsNumber u (step.get key)) = some key' →
            step.get key' = .str s → (intOfText u.toUnicode (u.strip s)).isSome = true) ↔
          ∀ key' s, (key :: keys).find? (fun key => holdsNumber u (step.get key)) = some key' →
            step.get key' = .str s → (intOfText u.toUnicode (u.strip s)).isSome = true) := by
        intro hno
        have hskip : ¬ p key = true := Bool.eq_false_iff.1 hno
        rw [List.find?_cons_of_neg (p := p) hskip]
      cases hv : step.get key with
      | int n =>
          have hyes : holdsNumber u (step.get key) = true := by rw [hv]; rfl
          rw [List.find?_cons_of_pos (p := p) hyes]
          refine ⟨fun _ key' s hkey hs => ?_, fun _ => returns_ok _⟩
          cases hkey
          rw [hv] at hs
          cases hs
      | str s =>
          cases hdigits : isDigits u (u.strip s).toList with
          | false =>
              have hno : holdsNumber u (step.get key) = false := by rw [hv]; exact hdigits
              simp only [hdigits, Bool.false_eq_true, if_false]
              rw [ih, hpass hno]
          | true =>
              have hyes : holdsNumber u (step.get key) = true := by rw [hv]; exact hdigits
              simp only [hdigits, if_true]
              rw [List.find?_cons_of_pos (p := p) hyes]
              cases hint : intOfText u.toUnicode (u.strip s) with
              | some n =>
                  refine ⟨fun _ key' s' hkey hs => ?_, fun _ => returns_ok _⟩
                  cases hkey
                  rw [hv] at hs
                  cases hs
                  rw [hint]
                  rfl
              | none =>
                  refine ⟨fun h => absurd h (not_returns_error _), fun h => ?_⟩
                  have hsome := h key s rfl hv
                  rw [hint] at hsome
                  cases hsome
      | null => rw [ih, hpass (by rw [hv]; rfl)]
      | bool b => rw [ih, hpass (by rw [hv]; rfl)]
      | float d => rw [ih, hpass (by rw [hv]; rfl)]
      | arr xs => rw [ih, hpass (by rw [hv]; rfl)]
      | obj ms => rw [ih, hpass (by rw [hv]; rfl)]

theorem returns_promoteSteps (process court : Json) (level : Int) (items : List Json) :
    ∀ index, Returns (promoteSteps u process court level index items) ↔
      (∀ step ∈ items, step.isObj = true → DateFits u (stepDate step)) ∧
      ∀ step ∈ items, step.isObj = true → NumberReads u step := by
  induction items with
  | nil => exact fun index => ⟨fun _ => ⟨List.forall_mem_nil _, List.forall_mem_nil _⟩,
      fun _ => returns_ok _⟩
  | cons step items ih =>
      intro index
      rw [promoteSteps, List.forall_mem_cons, List.forall_mem_cons]
      cases hobj : step.isObj with
      | false =>
          rw [if_neg Bool.false_ne_true, ih]
          simp
      | true =>
          have hstep : Returns (promoteStep u process court level index step) ↔
              DateFits u (stepDate step) ∧ NumberReads u step := by
            unfold promoteStep
            rw [returns_bind, ← returns_parseDatetime]
            constructor
            · rintro ⟨date, hdate, hrest⟩
              obtain ⟨number, hnumber, -⟩ := returns_bind.1 hrest
              exact ⟨⟨date, hdate⟩, (returns_sourceStepNumber step _).1 ⟨number, hnumber⟩⟩
            · rintro ⟨⟨date, hdate⟩, hnumber⟩
              obtain ⟨number, hnumber⟩ := (returns_sourceStepNumber step _).2 hnumber
              exact ⟨date, hdate, returns_bind.2 ⟨number, hnumber, returns_ok _⟩⟩
          rw [if_pos rfl, returns_bind]
          constructor
          · rintro ⟨promoted, hpromoted, hrest⟩
            obtain ⟨others, hothers, -⟩ := returns_bind.1 hrest
            obtain ⟨hdate, hnumber⟩ := hstep.1 ⟨promoted, hpromoted⟩
            obtain ⟨hdates, hnumbers⟩ := (ih (index + 1)).1 ⟨others, hothers⟩
            exact ⟨⟨fun _ => hdate, hdates⟩, fun _ => hnumber, hnumbers⟩
          · rintro ⟨⟨hdate, hdates⟩, hnumber, hnumbers⟩
            obtain ⟨promoted, hpromoted⟩ := hstep.2 ⟨hdate rfl, hnumber rfl⟩
            obtain ⟨others, hothers⟩ := (ih (index + 1)).2 ⟨hdates, hnumbers⟩
            exact ⟨promoted, hpromoted, returns_bind.2 ⟨others, hothers, returns_ok _⟩⟩

/-- A document number has eleven or fourteen digits. -/
theorem length_personalIdDigits {v : Json} {digits : List Char}
    (h : personalIdDigits u v = some digits) : digits.length = 11 ∨ digits.length = 14 := by
  unfold personalIdDigits at h
  split at h
  · cases h
  · cases h
  · simp only at h
    split at h
    · rename_i hlength
      cases h
      exact hlength
    · cases h

theorem length_partyPersonalId {party : Json} {digits : List Char}
    (h : partyPersonalId u party = .ok (some digits)) :
    digits.length = 11 ∨ digits.length = 14 := by
  unfold partyPersonalId at h
  split at h
  · rename_i direct hdirect
    cases h
    exact length_personalIdDigits hdirect
  · obtain ⟨documents, -, h⟩ := bind_eq_ok.1 h
    obtain ⟨document, -, hdocument⟩ := List.exists_of_findSome?_eq_some (Except.ok.inj h)
    split at hdocument
    · exact length_personalIdDigits hdocument
    · cases hdocument

/-- A number of a party is always masked. -/
theorem returns_maskedPersonalId {value : List Char}
    (h : value.length = 11 ∨ value.length = 14) : Returns (maskedPersonalId value) := by
  unfold maskedPersonalId
  rcases h with h | h
  · rw [if_pos h]
    exact returns_ok _
  · rw [if_neg (by omega), if_pos h]
    exact returns_ok _

theorem returns_partyPersonalId (party : Json) : Returns (partyPersonalId u party) ↔
    (personalIdDigits u (party.get "main_document") = none →
      iterable (party.get "documents") = true) := by
  unfold partyPersonalId
  cases personalIdDigits u (party.get "main_document") with
  | some digits => exact ⟨fun _ h => (nomatch h), fun _ => returns_ok _⟩
  | none =>
      simp only
      rw [returns_iterate]
      exact ⟨fun h _ => h.1, fun h => ⟨h trivial, returns_ok _⟩⟩

theorem returns_safeParty (party : Json) : Returns (safeParty u party) ↔
    (party.isObj = true → DocumentsFit u party) := by
  have hentity : Returns (safePartyEntity u party) ↔ DocumentsFit u party := by
    unfold safePartyEntity DocumentsFit
    by_cases hname : partyName u party = ""
    · rw [if_pos hname]
      exact ⟨fun _ h => absurd hname h, fun _ => returns_ok _⟩
    · rw [if_neg hname, ← returns_partyPersonalId]
      simp only [ne_eq, hname, not_false_eq_true, forall_const]
      rw [returns_bind]
      constructor
      · rintro ⟨found, hfound, -⟩
        exact ⟨found, hfound⟩
      · rintro ⟨found, hfound⟩
        refine ⟨found, hfound, ?_⟩
        cases found with
        | none => exact returns_ok _
        | some digits =>
            obtain ⟨masked, hmasked⟩ := returns_maskedPersonalId (length_partyPersonalId hfound)
            exact returns_bind.2 ⟨masked, hmasked, returns_ok _⟩
  unfold safeParty
  cases party.isObj with
  | false => exact ⟨fun _ h => (nomatch h), fun _ => returns_ok _⟩
  | true =>
      rw [if_pos rfl, returns_bind, ← hentity]
      constructor
      · rintro ⟨entity, hentity, -⟩
        exact fun _ => ⟨entity, hentity⟩
      · intro h
        obtain ⟨entity, hentity⟩ := h rfl
        refine ⟨entity, hentity, ?_⟩
        cases entity with
        | none => exact returns_ok _
        | some kept =>
            simp only
            split
            · split <;> exact returns_ok _
            · exact returns_ok _

theorem returns_safeParties (process : Json) : Returns (safePartiesAndRepresentatives u process) ↔
    iterable (process.get "parties") = true ∧
      ∀ party ∈ listed (process.get "parties"), party.isObj = true → DocumentsFit u party := by
  unfold safePartiesAndRepresentatives
  rw [returns_iterate]
  refine and_congr_right fun _ => ?_
  rw [returns_bind]
  constructor
  · rintro ⟨parts, hparts, -⟩ party hparty
    exact (returns_safeParty party).1 (returns_mapM.1 ⟨parts, hparts⟩ party hparty)
  · intro h
    obtain ⟨parts, hparts⟩ := returns_mapM.2 fun party hparty =>
      (returns_safeParty party).2 (h party hparty)
    exact ⟨parts, hparts, returns_ok _⟩

theorem returns_safeSubjects (process : Json) :
    Returns (safeSubjects u process) ↔ iterable (process.get "subjects") = true := by
  unfold safeSubjects
  rw [returns_iterate]
  exact ⟨fun h => h.1, fun h => ⟨h, returns_ok _⟩⟩

/-- The loop over the attachments, with the ids that were seen before. -/
theorem returns_safeAttachmentsFrom (items : List Json) : ∀ seen : List String,
    Returns (safeAttachmentsFrom u seen items) ↔
      ∀ before attachment after, items = before ++ attachment :: after →
        attachment.isObj = true → attachmentIdOf u attachment ≠ "" →
        attachmentIdOf u attachment ∉ seen →
        (∀ other ∈ before, other.isObj = true →
          attachmentIdOf u other ≠ attachmentIdOf u attachment) →
        DateFits u (attachment.get "attachment_date") := by
  induction items with
  | nil =>
      refine fun seen => ⟨fun _ before attachment after h => ?_, fun _ => returns_ok _⟩
      simp at h
  | cons first rest ih =>
      intro seen
      rw [safeAttachmentsFrom]
      simp only
      by_cases hpass : (!first.isObj || decide (attachmentIdOf u first = "") ||
          decide (attachmentIdOf u first ∈ seen)) = true
      · rw [if_pos hpass, ih]
        constructor
        · intro h before attachment after hitems hobj hid hseen hnew
          cases before with
          | nil =>
              cases hitems
              simp [hobj, hid, hseen] at hpass
          | cons b before =>
              cases hitems
              exact h before attachment after rfl hobj hid hseen
                fun other hother => hnew other (List.mem_cons_of_mem _ hother)
        · intro h before attachment after hitems hobj hid hseen hnew
          refine h (first :: before) attachment after (by rw [hitems]; rfl) hobj hid hseen ?_
          refine List.forall_mem_cons.2 ⟨fun hfirst hsame => ?_, hnew⟩
          -- what is passed over is no object, has no id or one that was seen
          rw [hfirst, hsame] at hpass
          simp [hid, hseen] at hpass
      · rw [if_neg hpass, returns_bind]
        have hkept : first.isObj = true ∧ attachmentIdOf u first ≠ "" ∧
            attachmentIdOf u first ∉ seen := by
          simpa [and_assoc] using hpass
        constructor
        · rintro ⟨date, hdate, hrest⟩ before attachment after hitems hobj hid hseen hnew
          obtain ⟨others, hothers, -⟩ := returns_bind.1 hrest
          cases before with
          | nil =>
              cases hitems
              exact (returns_parseDatetime _).1 ⟨date, hdate⟩
          | cons b before =>
              cases hitems
              refine (ih _).1 ⟨others, hothers⟩ before attachment after rfl hobj hid ?_
                fun other hother => hnew other (List.mem_cons_of_mem _ hother)
              have hfirst := hnew first List.mem_cons_self hkept.1
              exact List.not_mem_cons_of_ne_of_not_mem hfirst.symm hseen
        · intro h
          obtain ⟨date, hdate⟩ := (returns_parseDatetime _).2
            (h [] first rest rfl hkept.1 hkept.2.1 hkept.2.2 (List.forall_mem_nil _))
          have hothers := (ih (attachmentIdOf u first :: seen)).2
            fun before attachment after hitems hobj hid hseen hnew => by
              obtain ⟨hne, hseen⟩ := List.ne_and_not_mem_of_not_mem_cons hseen
              refine h (first :: before) attachment after (by rw [hitems]; rfl) hobj hid hseen ?_
              exact List.forall_mem_cons.2 ⟨fun _ => hne.symm, hnew⟩
          obtain ⟨others, hothers⟩ := hothers
          exact ⟨date, hdate, returns_bind.2 ⟨others, hothers, returns_ok _⟩⟩

theorem returns_safeAttachments (process : Json) : Returns (safeAttachments u process) ↔
    iterable (process.get "attachments") = true ∧
      AttachmentsFit u (listed (process.get "attachments")) := by
  unfold safeAttachments
  rw [returns_iterate, returns_safeAttachmentsFrom]
  refine and_congr_right fun _ => ?_
  constructor
  · intro h before attachment after hitems hobj hid hnew
    exact h before attachment after hitems hobj hid List.not_mem_nil hnew
  · intro h before attachment after hitems hobj hid _ hnew
    exact h before attachment after hitems hobj hid hnew

/-! ## §4. The promotion. -/

/-- **The promotion returns where the process has the shape.** -/
theorem returns_extractPromotableFields (process : Json) :
    Returns (extractPromotableFields u process) ↔ Promotable u process := by
  unfold extractPromotableFields
  rw [returns_bind]
  constructor
  · rintro ⟨⟨firstName, classCode⟩, hclass, h⟩
    obtain ⟨court, hcourt, h⟩ := returns_bind.1 h
    obtain ⟨level, hlevel, h⟩ := returns_bind.1 h
    refine ⟨(returns_firstClass process).1 ⟨_, hclass⟩, (returns_courtOf process).1 ⟨_, hcourt⟩,
      ⟨level, hlevel⟩, fun n hn hle => ?_⟩
    -- A level above zero ends the extraction, so the rest is asked of level zero only.
    obtain rfl : level = n := Except.ok.inj (hlevel.symm.trans hn)
    rw [if_neg (by omega)] at h
    obtain ⟨hsteps, h⟩ := returns_iterate.1 h
    obtain ⟨steps, hloop, h⟩ := returns_bind.1 h
    obtain ⟨⟨parties, representatives⟩, hparties, h⟩ := returns_bind.1 h
    obtain ⟨subjects, hsubjects, h⟩ := returns_bind.1 h
    obtain ⟨attachments, hattachments, -⟩ := returns_bind.1 h
    obtain ⟨hdates, hnumbers⟩ := (returns_promoteSteps process court level _ 1).1 ⟨steps, hloop⟩
    obtain ⟨hiter, hdocuments⟩ := (returns_safeParties process).1 ⟨_, hparties⟩
    obtain ⟨hmanifest, hmanifestDates⟩ := (returns_safeAttachments process).1 ⟨_, hattachments⟩
    exact {
      steps := hsteps, stepDates := hdates, stepNumbers := hnumbers
      parties := hiter, documents := hdocuments
      subjects := (returns_safeSubjects process).1 ⟨_, hsubjects⟩
      attachments := hmanifest, attachmentDates := hmanifestDates }
  -- The other way each part returns by its own lemma, in the order of the function.
  · intro h
    obtain ⟨⟨firstName, classCode⟩, hclass⟩ := (returns_firstClass process).2 h.classifications
    obtain ⟨court, hcourt⟩ := (returns_courtOf process).2 h.courts
    obtain ⟨level, hlevel⟩ := h.level
    refine ⟨_, hclass, returns_bind.2 ⟨court, hcourt, returns_bind.2 ⟨level, hlevel, ?_⟩⟩⟩
    by_cases hpos : 0 < level
    · rw [if_pos hpos]
      exact returns_ok _
    · rw [if_neg hpos]
      have hopen := h.openShape level hlevel (by omega)
      obtain ⟨steps, hsteps⟩ := (returns_promoteSteps process court level _ 1).2
        ⟨hopen.stepDates, hopen.stepNumbers⟩
      obtain ⟨parts, hparts⟩ := (returns_safeParties process).2 ⟨hopen.parties, hopen.documents⟩
      obtain ⟨subjects, hsubjects⟩ := (returns_safeSubjects process).2 hopen.subjects
      obtain ⟨attachments, hattachments⟩ := (returns_safeAttachments process).2
        ⟨hopen.attachments, hopen.attachmentDates⟩
      refine returns_iterate.2 ⟨hopen.steps, returns_bind.2 ⟨steps, hsteps, ?_⟩⟩
      refine returns_bind.2 ⟨parts, hparts, returns_bind.2 ⟨subjects, hsubjects, ?_⟩⟩
      exact returns_bind.2 ⟨attachments, hattachments, returns_ok _⟩

/-- A lawsuit response that is accepted has the process it is about. -/
theorem process_of_accepted {body : Json} {event : JuditEvent}
    (hbody : parseEvent u body = .ok event) (hlawsuit : event.isLawsuitResponse = true) :
    ∃ process, event.responseData = some process := by
  unfold parseEvent at hbody
  split at hbody
  · simp only at hbody
    split at hbody
    · cases hcode : (readEvent u body).code with
      | none => rw [hcode] at hbody; cases hbody
      | some value =>
          -- the code was read from the process
          have hdata : ∃ process, (readEvent u body).responseData = some process := by
            cases hnone : (readEvent u body).responseData with
            | some process => exact ⟨process, rfl⟩
            | none =>
                have hread : (readEvent u body).code = none := by
                  unfold readEvent at hnone ⊢
                  simp only at hnone ⊢
                  rw [hnone, Option.bind_none]
                rw [hread] at hcode
                cases hcode
          rw [hcode] at hbody
          simp only at hbody
          split at hbody
          · cases hbody
          · split at hbody
            · cases hbody
            · split at hbody
              · cases hbody
              · cases hbody
                exact hdata
    · rename_i hother
      split at hbody
      · cases hbody
      · cases hbody
        exact absurd hlawsuit hother
  · cases hbody

end Returning

/-- **An accepted response is promoted where it has the shape**, and raises
where it has not. -/
theorem returns_iff_promotable (u : Runtime) (body : Json) (event : JuditEvent)
    (hbody : parseEvent u body = .ok event) (hlawsuit : event.isLawsuitResponse = true) :
    ∃ process, event.responseData = some process ∧
      (Returns (extractPromotableFields u process) ↔ Promotable u process) := by
  obtain ⟨process, hprocess⟩ := process_of_accepted hbody hlawsuit
  exact ⟨process, hprocess, returns_extractPromotableFields process⟩

/-! ## §5. A response that is accepted and not promoted. -/

/-- Texts in ASCII, and no date that can be read. -/
def Runtime.plain : Runtime where
  toDigits := .arabic
  upper := fun s => String.ofList (s.toList.map Char.toUpper)
  fromIsoFormat := fun _ => none
  representable := fun _ => true

/-- A callback about a process, with what it says of the parties. -/
def callbackWith (parties : Json) : Json := .obj [
  ("event_type", .str "response_created"), ("callback_id", .str "callback-1"),
  ("reference_id", .str "request-1"),
  ("payload", .obj [
    ("response_type", .str "lawsuit"),
    ("response_data", .obj [
      ("code", .str "0000001-01.2024.8.26.0001"), ("parties", parties)])])]

/-- The process of the callback. -/
def processWith (parties : Json) : Json :=
  .obj [("code", .str "0000001-01.2024.8.26.0001"), ("parties", parties)]

/-- The event of the callback. -/
def eventWith (parties : Json) : JuditEvent where
  eventType := "response_created"
  requestId := some "request-1"
  callbackId := some "callback-1"
  responseId := none
  responseType := some "lawsuit"
  code := some "0000001-01.2024.8.26.0001"
  cachedResponse := false
  raw := callbackWith parties
  responseData := some (processWith parties)

theorem accepts_number : parseEvent .plain (callbackWith (.int 1)) = .ok (eventWith (.int 1)) := by
  decide +kernel

theorem accepts_list : parseEvent .plain (callbackWith (.arr [])) = .ok (eventWith (.arr [])) := by
  decide +kernel

/-- A response with an empty list of parties is promoted. -/
theorem returns_list : ∃ process, (eventWith (.arr [])).responseData = some process ∧
    (Returns (extractPromotableFields .plain process) ↔ Promotable .plain process) :=
  returns_iff_promotable .plain (callbackWith (.arr [])) (eventWith (.arr [])) accepts_list rfl

/-- **A response whose parties are a number is accepted, and its promotion
raises.** -/
theorem not_accepted_promotable : ¬ ∀ (u : Runtime) (body : Json) (event : JuditEvent),
    parseEvent u body = .ok event → event.isLawsuitResponse = true →
      ∃ process, event.responseData = some process ∧
        Returns (extractPromotableFields u process) := by
  intro h
  obtain ⟨process, hprocess, hreturns⟩ :=
    h .plain (callbackWith (.int 1)) (eventWith (.int 1)) accepts_number rfl
  obtain rfl : processWith (.int 1) = process := Option.some.inj hprocess
  have hraises : extractPromotableFields .plain (processWith (.int 1)) = .error .typeError := by
    decide +kernel
  rw [hraises] at hreturns
  exact not_returns_error _ hreturns

end Rpy.Judit

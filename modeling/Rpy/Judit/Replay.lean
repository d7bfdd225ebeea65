/-
  Rpy.Judit.Replay
  ────────────────
  **A SANITISED DELIVERY IS ACCEPTED AS THE DELIVERY WAS.**

  `sanitize_delivery` prepares a stored callback for a replay: identifiers
  become stable hashes, personal data is redacted, and the process gets the
  code of the bundle.  What `parse_event` reads from it is then the event
  of the callback, up to these.

    • `redactResponseData` — `_redact_response_data`,
    • `sanitizeDelivery`   — `sanitize_delivery`,
    • `redact_eq_iff`      — **what the redaction hides**,
    • `sanitized_accepted` — **what is read from a sanitised delivery**.

  `scripts/export_judit_replay.py`, `app/judit.py`.
-/
import Rpy.Foundation.Assoc
import Rpy.Foundation.JsonFloat
import Rpy.Foundation.Occurrence
import Rpy.Foundation.Sha256
import Rpy.Judit.Accepted

namespace Rpy.Judit

open Rpy.Foundation
open Rpy.Summaries (intOfText digitRun)

/-! ## §1. The script. -/

section Script

variable (u : Runtime)

/-- `_hash(value)[:n]` -/
def hashHead (n : Nat) (value : String) : String :=
  String.ofList ((Sha256.hexdigest value.toList).toList.take n)

/-- The text of a stable identifier. -/
def stableText (kind value : String) : String := kind ++ "-" ++ hashHead 16 value

/-- `_stable_id` -/
def stableId (kind : String) (value : Option String) : Json :=
  match value with
  | none => .null
  | some value => if value = "" then .null else .str (stableText kind value)

/-- The keys of documents and contacts. -/
def contactKeys : List String :=
  ["main_document", "document", "cpf", "cnpj", "email", "phone", "telephone", "address"]

/-- The keys of names. -/
def nameKeys : List String := ["name", "party_name", "represented_party_name"]

/-- A name, where the item of a key is one. -/
def nameOf (key : String) (item : Json) : Option String :=
  match item with
  | .str name => if u.casefold key ∈ nameKeys then some name else none
  | _ => none

mutual
/-- `_redact_response_data` -/
def redactResponseData : Json → Json
  | .arr items => .arr (redactItems items)
  | .obj members => .obj (redactMembers members)
  | .null => .null
  | .bool b => .bool b
  | .int n => .int n
  | .float d => .float d
  | .str s => .str s

def redactItems : List Json → List Json
  | [] => []
  | item :: items => redactResponseData item :: redactItems items

def redactMembers : List (String × Json) → List (String × Json)
  | [] => []
  | (key, item) :: members =>
      (key,
        if u.casefold key ∈ contactKeys then .str "[redacted]"
        else
          match nameOf u key item with
          | some name => .str ("ENTITY-" ++ hashHead 12 name)
          | none => redactResponseData item) :: redactMembers members
end

/-- `value[key] = item` -/
def put (value : Json) (key : String) (item : Json) : Json :=
  match value with
  | .obj members => .obj (assign key item members)
  | value => value

/-- The code of the bundle, where the process has one. -/
def withCode (code : String) (data : Json) : Json :=
  if (data.get "code").isTrue || (data.get "process_code").isTrue then
    let data := if (data.get? "code").isSome then put data "code" (.str code) else data
    if (data.get? "process_code").isSome then put data "process_code" (.str code) else data
  else data

/-- An identifier of a request, where there is one. -/
def hashed (kind key : String) (value : Json) : Json :=
  if (value.get key).isTrue then put value key (stableId kind (some (u.str (value.get key))))
  else value

/-- The payload of a sanitised delivery. -/
def sanitizePayload (code : String) (payload : Json) : Json :=
  let payload := hashed u "response" "response_id" (hashed u "request" "request_id" payload)
  let responseData := payload.get "response_data"
  if responseData.isObj then
    put payload "response_data" (withCode code (redactResponseData u responseData))
  else payload

/-- `sanitize_delivery` -/
def sanitizeDelivery (raw : Json) (code : String) : Except String Json := do
  let event ← parseEvent u raw
  let body := put raw "callback_id" (stableId "callback" event.callbackId)
  let body :=
    if body.get "reference_type" ≠ .str "tracking" then hashed u "request" "reference_id" body
    else body
  return put body "payload" (sanitizePayload u code (objectOr (body.get "payload")))

end Script

/-! ## §2. Members of an object. -/

section Members

/-- What an object holds after an item is put into it. -/
theorem get?_put {value : Json} (h : value.isObj = true) (key other : String) (item : Json) :
    (put value key item).get? other = if other = key then some item else value.get? other := by
  cases value with
  | obj members => exact lookup_assign key other item members
  | _ => cases h

/-- Nothing but an object takes an item, and it stays one. -/
theorem isObj_put (value : Json) (key : String) (item : Json) :
    (put value key item).isObj = value.isObj := by
  cases value <;> rfl

/-- The same, with `None` for a missing member. -/
theorem get_put {value : Json} (h : value.isObj = true) (key other : String) (item : Json) :
    (put value key item).get other = if other = key then item else value.get other := by
  unfold Json.get
  rw [get?_put h]
  split <;> rfl

/-- What is no object is read as an empty one. -/
theorem isObj_objectOr (v : Json) : (objectOr v).isObj = true := by
  unfold objectOr
  split
  · assumption
  · rfl

end Members

/-! ## §3. What the redaction keeps. -/

section Redaction

variable (u : Runtime)

/-- A member of a redacted object. -/
def redactMember (key : String) (item : Json) : Json :=
  if u.casefold key ∈ contactKeys then .str "[redacted]"
  else
    match nameOf u key item with
    | some name => .str ("ENTITY-" ++ hashHead 12 name)
    | none => redactResponseData u item

/-- The redaction of an object goes member by member. -/
theorem redactMembers_eq (members : List (String × Json)) :
    redactMembers u members = members.map fun m => (m.1, redactMember u m.1 m.2) := by
  induction members with
  | nil => rfl
  | cons m members ih =>
      obtain ⟨key, item⟩ := m
      show (key, redactMember u key item) :: redactMembers u members = _
      rw [ih, List.map_cons]

/-- That of a list goes item by item. -/
theorem redactItems_eq (items : List Json) :
    redactItems u items = items.map (redactResponseData u) := by
  induction items with
  | nil => rfl
  | cons item items ih => rw [redactItems, List.map_cons, ih]

variable {u}

/-- A member that is neither a contact nor a name is redacted as a value. -/
theorem redactMember_plain {key : String} (hcontact : u.casefold key ∉ contactKeys)
    (hname : u.casefold key ∉ nameKeys) (item : Json) :
    redactMember u key item = redactResponseData u item := by
  have hnone : nameOf u key item = none := by
    unfold nameOf
    cases item with
    | str name => exact if_neg hname
    | _ => rfl
  unfold redactMember
  rw [if_neg hcontact, hnone]

/-- The redaction makes no object, and takes none away. -/
theorem isObj_redact (v : Json) : (redactResponseData u v).isObj = v.isObj := by
  cases v <;> simp [redactResponseData, Json.isObj]

/-- What is redacted is as true as it was: a hash is not empty. -/
theorem isTrue_redact (v : Json) : (redactResponseData u v).isTrue = v.isTrue := by
  cases v with
  | arr items =>
      rw [redactResponseData, redactItems_eq]
      cases items <;> rfl
  | obj members =>
      rw [redactResponseData, redactMembers_eq]
      cases members <;> rfl
  | _ => rw [redactResponseData]

/-- **A plain member is found where it was, redacted as a value.** -/
theorem get?_redact {key : String} (hcontact : u.casefold key ∉ contactKeys)
    (hname : u.casefold key ∉ nameKeys) (v : Json) :
    (redactResponseData u v).get? key = (v.get? key).map (redactResponseData u) := by
  cases v with
  | obj members =>
      rw [redactResponseData, redactMembers_eq]
      show List.lookup key _ = (members.lookup key).map _
      induction members with
      | nil => rfl
      | cons m members ih =>
          obtain ⟨name, item⟩ := m
          rw [List.map_cons, lookup_cons_iff, lookup_cons_iff, ih]
          by_cases hkey : key = name
          · rw [if_pos hkey, if_pos hkey, Option.map_some, ← hkey, redactMember_plain hcontact hname]
          · rw [if_neg hkey, if_neg hkey]
  | _ => rw [redactResponseData]; rfl

/-- The keys that `parse_event` reads from the process. -/
theorem plain_key {key : String} (h : key ∈ ["code", "process_code", "message"]) :
    u.casefold key ∉ contactKeys ∧ u.casefold key ∉ nameKeys := by
  simp only [List.mem_cons, List.not_mem_nil, or_false] at h
  rcases h with rfl | rfl | rfl
  all_goals
    rw [u.casefold_ascii _ (by simp)]
    decide

end Redaction

/-! ## §4. What the redaction hides. -/

section Hidden

variable (u : Runtime)

mutual
/-- The two values differ in contacts and names at most, and in names only
where these have one hash. -/
def Alike : Json → Json → Prop
  | .arr as, .arr bs => AlikeItems as bs
  | .obj as, .obj bs => AlikeMembers as bs
  | a, b => a = b
  termination_by structural a => a

def AlikeItems : List Json → List Json → Prop
  | [], [] => True
  | a :: as, b :: bs => Alike a b ∧ AlikeItems as bs
  | _, _ => False
  termination_by structural as => as

def AlikeMembers : List (String × Json) → List (String × Json) → Prop
  | [], [] => True
  | (key, a) :: as, (key', b) :: bs =>
      key = key' ∧ AlikeMembers as bs ∧ (u.casefold key ∈ contactKeys ∨
        match nameOf u key a, nameOf u key b with
        | some name, some name' => hashHead 12 name = hashHead 12 name'
        | none, none => Alike a b
        | _, _ => False)
  | _, _ => False
  termination_by structural as => as
end

variable {u}

/-- Hashes in the place of names are equal when they are. -/
theorem entity_inj {a b : String} :
    Json.str ("ENTITY-" ++ a) = .str ("ENTITY-" ++ b) ↔ a = b := by
  rw [Json.str.injEq]
  refine ⟨fun h => ?_, fun h => by rw [h]⟩
  have hlists := congrArg String.toList h
  rw [String.toList_append, String.toList_append] at hlists
  exact String.toList_inj.1 (List.append_cancel_left hlists)

/-- A value that is no name is not redacted to a text, under the key of names. -/
theorem redact_ne_entity {key name : String} {a b : Json} (ha : nameOf u key a = some name)
    (hb : nameOf u key b = none) (text : String) : redactResponseData u b ≠ .str text := by
  have hkey : u.casefold key ∈ nameKeys := by
    unfold nameOf at ha
    split at ha
    · split at ha
      · assumption
      · cases ha
    · cases ha
  cases b with
  | str s =>
      unfold nameOf at hb
      simp only [hkey, if_true] at hb
      cases hb
  | _ =>
      rw [redactResponseData]
      exact fun h => nomatch h

mutual
/-- **What the redaction hides** is contacts, and names up to their hash;
nothing else. -/
theorem redact_eq_iff (a b : Json) :
    redactResponseData u a = redactResponseData u b ↔ Alike u a b := by
  cases a with
  | arr as =>
      cases b with
      | arr bs =>
          rw [redactResponseData, redactResponseData, Json.arr.injEq, Alike]
          exact redactItems_eq_iff as bs
      | _ => simp [redactResponseData, Alike]
  | obj as =>
      cases b with
      | obj bs =>
          rw [redactResponseData, redactResponseData, Json.obj.injEq, Alike]
          exact redactMembers_eq_iff as bs
      | _ => simp [redactResponseData, Alike]
  | _ => cases b <;> simp [redactResponseData, Alike]

/-- Lists, item by item. -/
theorem redactItems_eq_iff (as bs : List Json) :
    redactItems u as = redactItems u bs ↔ AlikeItems u as bs := by
  cases as with
  | nil => cases bs <;> simp [redactItems, AlikeItems]
  | cons a as =>
      cases bs with
      | nil => simp [redactItems, AlikeItems]
      | cons b bs =>
          rw [redactItems, redactItems, List.cons.injEq, AlikeItems, redact_eq_iff a b,
            redactItems_eq_iff as bs]

/-- Objects, member by member: a contact is hidden whatever it is, a name up
to its hash, and a name is told from what is none. -/
theorem redactMembers_eq_iff (as bs : List (String × Json)) :
    redactMembers u as = redactMembers u bs ↔ AlikeMembers u as bs := by
  cases as with
  | nil => cases bs <;> simp [redactMembers, AlikeMembers]
  | cons m as =>
      cases bs with
      | nil => simp [redactMembers, AlikeMembers]
      | cons m' bs =>
          obtain ⟨key, a⟩ := m
          obtain ⟨key', b⟩ := m'
          have hitem := redact_eq_iff a b
          show (key, redactMember u key a) :: redactMembers u as =
            (key', redactMember u key' b) :: redactMembers u bs ↔ _
          rw [List.cons.injEq, Prod.mk.injEq, redactMembers_eq_iff as bs, AlikeMembers, and_assoc]
          refine and_congr_right fun hkey => ?_
          subst hkey
          rw [and_comm]
          refine and_congr_right fun _ => ?_
          unfold redactMember
          by_cases hcontact : u.casefold key ∈ contactKeys
          · rw [if_pos hcontact, if_pos hcontact]
            exact iff_of_true rfl (.inl hcontact)
          · rw [if_neg hcontact, if_neg hcontact, or_iff_right hcontact]
            cases hname : nameOf u key a with
            -- a value that is no name is told from one that is
            | none =>
                cases hname' : nameOf u key b with
                | none => exact hitem
                | some name' => exact iff_of_false (redact_ne_entity hname' hname _) id
            -- a name, up to its hash
            | some name =>
                cases hname' : nameOf u key b with
                | none => exact iff_of_false (fun h => redact_ne_entity hname hname' _ h.symm) id
                | some name' => exact entity_inj
end

end Hidden

/-! ## §5. The members of a sanitised delivery. -/

/-- What the code relies on in `str` and `str.lower`. -/
structure Runtime.Renders (u : Runtime) : Prop where
  /-- the text of a value that is true is not empty -/
  str_ne : ∀ v, v.isTrue = true → u.str v ≠ ""
  /-- a text with brackets around it -/
  str_container : ∀ v : Json, ((∃ items, v = .arr items) ∨ ∃ members, v = .obj members) →
    u.upper (u.strip (u.str v)) ≠ "REQUEST_COMPLETED"
  lower_tracking : u.lower "tracking" = "tracking"

section Members

variable {u : Runtime} {kind key other code : String} {value : Json}

/-- Hashing an identifier keeps an object an object. -/
theorem isObj_hashed : (hashed u kind key value).isObj = value.isObj := by
  unfold hashed
  split
  · exact isObj_put _ _ _
  · rfl

/-- The other members stay. -/
theorem get?_hashed_ne (h : other ≠ key) :
    (hashed u kind key value).get? other = value.get? other := by
  unfold hashed
  split
  · cases value with
    | obj members => exact (lookup_assign key other _ members).trans (if_neg h)
    | _ => rfl
  · rfl

/-- The same, with `None` for a missing member. -/
theorem get_hashed_ne (h : other ≠ key) : (hashed u kind key value).get other = value.get other :=
  congrArg (fun found => found.getD .null) (get?_hashed_ne h)

/-- A stable identifier is not empty: its kind stands before the hash. -/
theorem stableText_ne (kind value : String) : stableText kind value ≠ "" := by
  intro h
  have hlists := congrArg String.toList h
  unfold stableText at hlists
  rw [String.toList_append, String.toList_append] at hlists
  simp at hlists

/-- The parser reads it as it is. -/
theorem textIf_stable (kind value : String) :
    textIf u (.str (stableText kind value)) = some (stableText kind value) := by
  unfold textIf
  rw [if_pos (by simpa [Json.isTrue] using stableText_ne kind value), u.str_str]

/-- The hash in the place of a value. -/
def hashOf (u : Runtime) (kind : String) (v : Json) : Json :=
  if v.isTrue then stableId kind (some (u.str v)) else v

/-- The member itself is hashed, where its value is true. -/
theorem get_hashed (hobj : value.isObj = true) :
    (hashed u kind key value).get key = hashOf u kind (value.get key) := by
  unfold hashed hashOf
  split
  · rw [get_put hobj, if_pos rfl]
  · rfl

/-- A hash is there when the value was. -/
theorem isTrue_hashOf (hu : u.Renders) (v : Json) : (hashOf u kind v).isTrue = v.isTrue := by
  unfold hashOf
  split
  · rename_i htrue
    rw [stableId, if_neg (hu.str_ne _ htrue), htrue]
    simpa [Json.isTrue] using stableText_ne kind _
  · rfl

/-- **An identifier is replaced by its hash.** -/
theorem textIf_hashOf (hu : u.Renders) (v : Json) :
    textIf u (hashOf u kind v) = (textIf u v).map (stableText kind) := by
  unfold hashOf
  split
  · rename_i htrue
    rw [stableId, if_neg (hu.str_ne _ htrue), textIf_stable]
    unfold textIf
    rw [if_pos htrue, Option.map_some]
  · rename_i hfalse
    unfold textIf
    rw [if_neg hfalse, Option.map_none]

/-- The members that the payload keeps. -/
theorem get?_sanitizePayload (hobj : value.isObj = true) (hrequest : other ≠ "request_id")
    (hresponse : other ≠ "response_id") (hdata : other ≠ "response_data") :
    (sanitizePayload u code value).get? other = value.get? other := by
  unfold sanitizePayload
  dsimp only
  split
  · rw [get?_put (by rw [isObj_hashed, isObj_hashed, hobj]), if_neg hdata, get?_hashed_ne hresponse,
      get?_hashed_ne hrequest]
  · rw [get?_hashed_ne hresponse, get?_hashed_ne hrequest]

/-- The identifiers of the payload do not depend on its process. -/
theorem get_sanitizePayload_ids (hobj : value.isObj = true) (hdata : other ≠ "response_data") :
    (sanitizePayload u code value).get other =
      (hashed u "response" "response_id" (hashed u "request" "request_id" value)).get other := by
  unfold sanitizePayload
  dsimp only
  split
  · rw [get_put (by rw [isObj_hashed, isObj_hashed, hobj]), if_neg hdata]
  · rfl

/-- A sanitised payload is an object when the payload was. -/
theorem isObj_sanitizePayload : (sanitizePayload u code value).isObj = value.isObj := by
  unfold sanitizePayload
  dsimp only
  split
  · rw [isObj_put, isObj_hashed, isObj_hashed]
  · rw [isObj_hashed, isObj_hashed]

/-- The process of a sanitised payload. -/
theorem get_sanitizePayload_data (hobj : value.isObj = true) :
    (sanitizePayload u code value).get "response_data" =
      if (value.get "response_data").isObj then
        withCode code (redactResponseData u (value.get "response_data"))
      else value.get "response_data" := by
  have hsame : (hashed u "response" "response_id" (hashed u "request" "request_id" value)).get
      "response_data" = value.get "response_data" := by
    rw [get_hashed_ne (by decide), get_hashed_ne (by decide)]
  unfold sanitizePayload
  dsimp only
  rw [hsame]
  split
  · rw [get_put (by rw [isObj_hashed, isObj_hashed, hobj]), if_pos rfl]
  · exact hsame

/-- `sanitize_delivery`, member by member. -/
structure Sanitized (u : Runtime) (code : String) (callbackId : Option String) (raw body : Json) :
    Prop where
  isObj : body.isObj = true
  kept : ∀ key, key ∉ ["callback_id", "reference_id", "payload"] → body.get? key = raw.get? key
  callback : body.get "callback_id" = stableId "callback" callbackId
  reference : body.get "reference_id" =
    if raw.get "reference_type" ≠ .str "tracking" then hashOf u "request" (raw.get "reference_id")
    else raw.get "reference_id"
  payload : body.get "payload" = sanitizePayload u code (objectOr (raw.get "payload"))

/-- **What the script returns, member by member**, and that the parser
accepted the delivery. -/
theorem sanitizeDelivery_eq_ok {raw body : Json} (h : sanitizeDelivery u raw code = .ok body) :
    ∃ event, parseEvent u raw = .ok event ∧ raw.isObj = true ∧
      Sanitized u code event.callbackId raw body := by
  obtain ⟨event, hevent, h⟩ := bind_eq_ok.1 h
  have hraw : raw.isObj = true := by
    unfold parseEvent at hevent
    split at hevent
    · assumption
    · cases hevent
  refine ⟨event, hevent, hraw, ?_⟩
  obtain rfl := Except.ok.inj h
  generalize hcalled : put raw "callback_id" (stableId "callback" event.callbackId) = called
  have hobj : called.isObj = true := by
    rw [← hcalled, isObj_put, hraw]
  have hget : ∀ key, called.get? key =
      if key = "callback_id" then some (stableId "callback" event.callbackId)
      else raw.get? key := by
    intro key
    rw [← hcalled, get?_put hraw]
  have hother : ∀ key, key ≠ "callback_id" → called.get key = raw.get key := by
    intro key hkey
    rw [← hcalled, get_put hraw, if_neg hkey]
  have hcallback : called.get "callback_id" = stableId "callback" event.callbackId := by
    rw [← hcalled, get_put hraw, if_pos rfl]
  rw [hother "reference_type" (by decide)]
  -- only the reference of a tracking is left as it is
  by_cases htracking : raw.get "reference_type" ≠ .str "tracking"
  · rw [if_pos htracking]
    have hhashed : (hashed u "request" "reference_id" called).isObj = true := by
      rw [isObj_hashed, hobj]
    refine ⟨by rw [isObj_put, hhashed], fun key hkey => ?_, ?_, ?_, ?_⟩
    · simp only [List.mem_cons, List.not_mem_nil, or_false, not_or] at hkey
      rw [get?_put hhashed, if_neg hkey.2.2, get?_hashed_ne hkey.2.1, hget, if_neg hkey.1]
    · rw [get_put hhashed, if_neg (by decide), get_hashed_ne (by decide), hcallback]
    · rw [get_put hhashed, if_neg (by decide), get_hashed hobj, hother _ (by decide),
        if_pos htracking]
    · rw [get_put hhashed, if_pos rfl, get_hashed_ne (by decide), hother _ (by decide)]
  · rw [if_neg htracking]
    refine ⟨by rw [isObj_put, hobj], fun key hkey => ?_, ?_, ?_, ?_⟩
    · simp only [List.mem_cons, List.not_mem_nil, or_false, not_or] at hkey
      rw [get?_put hobj, if_neg hkey.2.2, hget, if_neg hkey.1]
    · rw [get_put hobj, if_neg (by decide), hcallback]
    · rw [get_put hobj, if_neg (by decide), hother _ (by decide), if_neg htracking]
    · rw [get_put hobj, if_pos rfl, hother _ (by decide)]

end Members

/-! ## §6. What is read from it. -/

section Reading

variable {u : Runtime} {code : String} {callbackId : Option String} {raw body : Json}

/-- The payload of a delivery. -/
def payloadOf (raw : Json) : Json := objectOr (raw.get "payload")

/-- The payload is an object, and empty where there is none. -/
theorem isObj_payloadOf (raw : Json) : (payloadOf raw).isObj = true := isObj_objectOr _

/-- The identifier of the request stands outside of the payload. -/
def namedOutside (raw : Json) : Bool :=
  !((payloadOf raw).get "request_id").isTrue &&
    ((raw.get "request_id").isTrue || (raw.get "requestId").isTrue)

/-- The members outside of the payload that the script leaves. -/
theorem Sanitized.get (h : Sanitized u code callbackId raw body) {key : String}
    (hkey : key ∉ ["callback_id", "reference_id", "payload"]) : body.get key = raw.get key :=
  congrArg (fun found => found.getD .null) (h.kept key hkey)

/-- The payload of the sanitised delivery is that of the delivery, sanitised.
-/
theorem Sanitized.payloadOf_eq (h : Sanitized u code callbackId raw body) :
    payloadOf body = sanitizePayload u code (payloadOf raw) := by
  have hobj : (body.get "payload").isObj = true := by
    rw [h.payload, isObj_sanitizePayload, isObj_objectOr]
  have hread : payloadOf body = body.get "payload" := if_pos hobj
  rw [hread, h.payload]
  rfl

/-- The members of the payload that the script leaves. -/
theorem Sanitized.payload_get? (h : Sanitized u code callbackId raw body) {key : String}
    (hkey : key ∉ ["request_id", "response_id", "response_data"]) :
    (payloadOf body).get? key = (payloadOf raw).get? key := by
  simp only [List.mem_cons, List.not_mem_nil, or_false, not_or] at hkey
  rw [h.payloadOf_eq, get?_sanitizePayload (isObj_payloadOf raw) hkey.1 hkey.2.1 hkey.2.2]

/-- The same, with `None` for a missing member. -/
theorem Sanitized.payload_get (h : Sanitized u code callbackId raw body) {key : String}
    (hkey : key ∉ ["request_id", "response_id", "response_data"]) :
    (payloadOf body).get key = (payloadOf raw).get key :=
  congrArg (fun found => found.getD .null) (h.payload_get? hkey)

/-- The type of the event is read from members that stay. -/
theorem Sanitized.eventType (h : Sanitized u code callbackId raw body) :
    (readEvent u body).eventType = (readEvent u raw).eventType := by
  simp only [readEvent, h.get (show "event_type" ∉ _ by decide),
    h.get (show "status" ∉ _ by decide)]

/-- So is the kind of the response. -/
theorem Sanitized.responseType (h : Sanitized u code callbackId raw body) :
    (readEvent u body).responseType = (readEvent u raw).responseType := by
  have htype := h.payload_get (show "response_type" ∉ _ by decide)
  unfold payloadOf at htype
  simp only [readEvent, h.get (show "event_type" ∉ _ by decide), htype]

/-- So is whether the response was cached. -/
theorem Sanitized.cachedResponse (h : Sanitized u code callbackId raw body) :
    (readEvent u body).cachedResponse = (readEvent u raw).cachedResponse := by
  have htags := h.payload_get (show "tags" ∉ _ by decide)
  have hcached := h.payload_get? (show "cached_response" ∉ _ by decide)
  unfold payloadOf at htags hcached
  simp only [readEvent, htags, hcached, h.kept "cached_response" (by decide)]

/-- **The identifier of the response is hashed.** -/
theorem Sanitized.responseId (hu : u.Renders) (h : Sanitized u code callbackId raw body) :
    (readEvent u body).responseId = (readEvent u raw).responseId.map (stableText "response") := by
  have hid : (payloadOf body).get "response_id" =
      hashOf u "response" ((payloadOf raw).get "response_id") := by
    rw [h.payloadOf_eq, get_sanitizePayload_ids (isObj_payloadOf raw) (by decide),
      get_hashed (by rw [isObj_hashed, isObj_payloadOf]), get_hashed_ne (by decide)]
  unfold payloadOf at hid
  simp only [readEvent, hid]
  exact textIf_hashOf hu _

/-- **So is that of the callback.** -/
theorem Sanitized.callbackId_eq (hu : u.Renders)
    (h : Sanitized u code (readEvent u raw).callbackId raw body) :
    (readEvent u body).callbackId = (readEvent u raw).callbackId.map (stableText "callback") := by
  show textIf u (body.get "callback_id") = _
  rw [h.callback]
  cases hcallback : (readEvent u raw).callbackId with
  | none => rfl
  | some value =>
      -- `_stable_id` has `None` for an empty text, which is never read
      have hne : value ≠ "" := by
        have hread : textIf u (raw.get "callback_id") = some value := hcallback
        unfold textIf at hread
        split at hread
        · rename_i htrue
          rw [← Option.some.inj hread]
          exact hu.str_ne _ htrue
        · cases hread
      rw [stableId, if_neg hne, textIf_stable, Option.map_some]

/-- There is no white space around the word. -/
theorem strip_tracking (u : Runtime) : u.strip "tracking" = "tracking" := by
  have hascii : "tracking".toList.all (fun c => decide (c.toNat < 128) && !asciiSpace c) = true := by
    decide
  have hletter : ∀ c ∈ "tracking".toList, u.isSpace c = false := by
    intro c hc
    obtain ⟨hlow, hspace⟩ := (Bool.and_eq_true _ _).mp (List.all_eq_true.1 hascii c hc)
    rw [u.isSpace_ascii c (of_decide_eq_true hlow)]
    simpa using hspace
  rw [u.strip_eq, Platform.stripChars_eq_self]
  · rfl
  · exact fun c hc => hletter c (List.mem_of_head? hc)
  · exact fun c hc => hletter c (List.mem_of_getLast? hc)

/-- The value that names the request. -/
def requestValue (u : Runtime) (raw : Json) : Json :=
  let explicit := (((payloadOf raw).get "request_id").orElse (raw.get "request_id")).orElse
    (raw.get "requestId")
  if explicit.isTrue then explicit
  else if u.lower (u.strip (textOr u (raw.get "reference_type"))) ≠ "tracking" then
    raw.get "reference_id"
  else .null

/-- The parser reads the identifier of the request from that value. -/
theorem readEvent_requestId (u : Runtime) (raw : Json) :
    (readEvent u raw).requestId = textIf u (requestValue u raw) := rfl

/-- What is a reference of a tracking to the script is one to the parser. -/
theorem reference_tracking (hu : u.Renders) {v : Json} (h : v = .str "tracking") :
    u.lower (u.strip (textOr u v)) = "tracking" := by
  rw [h, textOr, Json.orElse, if_pos (by decide), u.str_str, strip_tracking, hu.lower_tracking]

/-- `None` names nothing. -/
theorem textIf_null (u : Runtime) : textIf u .null = none := rfl

/-- **The identifier of the request** is hashed, unless it stands outside of
the payload. -/
theorem Sanitized.requestId (hu : u.Renders) (h : Sanitized u code callbackId raw body) :
    (readEvent u body).requestId =
      if namedOutside raw then (readEvent u raw).requestId
      else (readEvent u raw).requestId.map (stableText "request") := by
  have hid : (payloadOf body).get "request_id" =
      hashOf u "request" ((payloadOf raw).get "request_id") := by
    rw [h.payloadOf_eq, get_sanitizePayload_ids (isObj_payloadOf raw) (by decide),
      get_hashed_ne (by decide), get_hashed (isObj_payloadOf raw)]
  rw [readEvent_requestId, readEvent_requestId, requestValue, requestValue, namedOutside,
    h.get (show "reference_type" ∉ _ by decide), h.get (show "request_id" ∉ _ by decide),
    h.get (show "requestId" ∉ _ by decide), h.reference, hid]
  -- the payload names the request, or the delivery does, or its reference
  cases hnamed : ((payloadOf raw).get "request_id").isTrue with
  | true =>
      have hhashed : (hashOf u "request" ((payloadOf raw).get "request_id")).isTrue = true := by
        rw [isTrue_hashOf hu, hnamed]
      simp only [Json.orElse, hhashed, hnamed, if_true, Bool.not_true, Bool.false_and,
        Bool.false_eq_true, if_false]
      exact textIf_hashOf hu _
  | false =>
      -- a value that is not true is not hashed
      have hsame : hashOf u "request" ((payloadOf raw).get "request_id") =
          (payloadOf raw).get "request_id" := if_neg (by simp [hnamed])
      rw [hsame]
      have houtside : (((payloadOf raw).get "request_id").orElse (raw.get "request_id")).orElse
          (raw.get "requestId") = (raw.get "request_id").orElse (raw.get "requestId") := by
        rw [Json.orElse.eq_def ((payloadOf raw).get "request_id"), hnamed]
        rfl
      have htrue : ((raw.get "request_id").orElse (raw.get "requestId")).isTrue =
          ((raw.get "request_id").isTrue || (raw.get "requestId").isTrue) := by
        unfold Json.orElse
        cases hrequest : (raw.get "request_id").isTrue with
        | true => rw [if_pos rfl, hrequest]; rfl
        | false => rfl
      rw [houtside, htrue, Bool.not_false, Bool.true_and]
      cases (raw.get "request_id").isTrue || (raw.get "requestId").isTrue with
      | true => rfl
      | false =>
          simp only [Bool.false_eq_true, if_false]
          -- no identifier at all: the reference is one, unless it is that of a tracking
          by_cases htracking : raw.get "reference_type" = .str "tracking"
          · rw [if_neg (not_not_intro (reference_tracking hu htracking)),
              if_neg (not_not_intro (reference_tracking hu htracking)), textIf_null]
            rfl
          · rw [if_pos htracking]
            split
            · exact textIf_hashOf hu _
            · rw [textIf_null]
              rfl

end Reading

/-! ## §7. The process of a sanitised delivery. -/

section Process

variable {u : Runtime} {code : String}

/-- The code of the bundle goes into an object and leaves one. -/
theorem isObj_withCode (data : Json) : (withCode code data).isObj = data.isObj := by
  unfold withCode
  dsimp only
  repeat' split
  all_goals simp only [isObj_put]

/-- The other members of the process stay. -/
theorem get?_withCode {data : Json} (hdata : data.isObj = true) {key : String} (hcode : key ≠ "code")
    (hprocess : key ≠ "process_code") : (withCode code data).get? key = data.get? key := by
  unfold withCode
  dsimp only
  repeat' split
  all_goals simp only [get?_put, isObj_put, hdata, if_neg hcode, if_neg hprocess]

/-- A member with a value that is true is there. -/
theorem isSome_get? {data : Json} {key : String} (h : (data.get key).isTrue = true) :
    (data.get? key).isSome = true := by
  unfold Json.get at h
  cases hfound : data.get? key with
  | none =>
      rw [hfound] at h
      cases h
  | some item => rfl

/-- **The process has the code of the bundle.** -/
theorem code_withCode {data : Json} (hdata : data.isObj = true) (hcode : code ≠ "")
    (h : (data.get "code").isTrue = true ∨ (data.get "process_code").isTrue = true) :
    ((withCode code data).get "code").orElse ((withCode code data).get "process_code") =
      .str code := by
  have htrue : (Json.str code).isTrue = true := by simpa [Json.isTrue] using hcode
  have hsome : ((data.get "code").isTrue || (data.get "process_code").isTrue) = true := by
    rwa [Bool.or_eq_true]
  unfold withCode
  rw [if_pos hsome]
  -- the script puts the code where a code or a number is present
  cases hpresent : (data.get? "code").isSome with
  | true =>
      have hput : ∀ item, ((put (put data "code" (.str code)) "process_code" item).get "code") =
          .str code := by
        intro item
        rw [get_put (by rw [isObj_put, hdata]), if_neg (by decide), get_put hdata, if_pos rfl]
      dsimp only
      rw [if_pos rfl]
      split
      · rw [hput, Json.orElse, if_pos htrue]
      · rw [get_put hdata, if_pos rfl, Json.orElse, if_pos htrue]
  -- only the number of the process is there, and gets the code
  | false =>
      have habsent : data.get? "code" = none := by simpa using hpresent
      have hnull : data.get "code" = .null := by rw [Json.get, habsent, Option.getD_none]
      have hprocess := isSome_get? (h.resolve_left (by simp [hnull, Json.isTrue]))
      simp only [Bool.false_eq_true, if_false]
      rw [if_pos hprocess, get_put hdata, if_neg (by decide), hnull, get_put hdata,
        if_pos rfl]
      rfl

/-- The code in a response of information is not the number of completion. -/
def messageCompleted (u : Runtime) (message : Json) : Bool :=
  u.upper (u.strip (textOr u message)) == "REQUEST_COMPLETED"

/-- `info_code == 600` -/
def codeCompleted (u : Runtime) (infoCode : Json) : Bool :=
  (intOf u infoCode).toOption == some 600

/-- A process says that its request is complete. -/
def dataCompleted (u : Runtime) (data : Json) : Bool :=
  messageCompleted u (data.get "message") || codeCompleted u (data.get "code")

/-- **The redaction does not touch the message**: a container in its place is
no completion before or after. -/
theorem messageCompleted_redact (hu : u.Renders) (v : Json) :
    messageCompleted u (redactResponseData u v) = messageCompleted u v := by
  have hcontainer : ∀ v w : Json, v.isTrue = w.isTrue →
      ((∃ items, v = .arr items) ∨ ∃ members, v = .obj members) →
      ((∃ items, w = .arr items) ∨ ∃ members, w = .obj members) →
        messageCompleted u v = messageCompleted u w := by
    intro v w hsame hv hw
    unfold messageCompleted textOr Json.orElse
    rw [hsame]
    split
    · rw [beq_eq_false_iff_ne.2 (hu.str_container v hv),
        beq_eq_false_iff_ne.2 (hu.str_container w hw)]
    · rfl
  cases v with
  | arr items =>
      refine hcontainer _ _ (isTrue_redact _) ?_ (.inl ⟨items, rfl⟩)
      rw [redactResponseData]
      exact .inl ⟨_, rfl⟩
  | obj members =>
      refine hcontainer _ _ (isTrue_redact _) ?_ (.inr ⟨members, rfl⟩)
      rw [redactResponseData]
      exact .inr ⟨_, rfl⟩
  | _ => rw [redactResponseData]

/-- Only signs, digits and underscores stand in the text of an integer. -/
theorem chars_of_intOfText {u : Unicode} {s : String} {n : Int} (h : intOfText u s = some n) :
    ∀ c ∈ u.stripChars s.toList, (c == '+' || c == '-' || c == '_' || u.isDecimal c) = true := by
  unfold intOfText at h
  dsimp only at h
  split at h
  · rename_i hmatch
    -- each class of the pattern, by itself
    refine Regex.chars_of_fullMatch (p := fun c => c == '+' || c == '-' || c == '_' ||
      u.isDecimal c) ?_ ((Bool.and_eq_true _ _).mp hmatch).1
    intro ok hok x hx
    simp only [Regex.classes, Regex.cat, Regex.opt, digitRun, Regex.plus, Regex.star, Regex.only,
      List.cons_append, List.nil_append, List.mem_cons, List.not_mem_nil, or_false] at hok
    rcases hok with rfl | rfl | rfl | rfl
    · simp only [Bool.or_eq_true] at hx ⊢
      exact .inl (.inl hx)
    · simp [hx]
    · simp only at hx
      simp [hx]
    · simp [hx]
  · cases h

/-- The canonical form of a number is no integer. -/
theorem codeCompleted_canonical {asked : String} (h : normalizeCnj u.toDigits asked = some code) :
    codeCompleted u (.str code) = false := by
  obtain ⟨ds, hds, -, rfl⟩ := normalizeCnj_iff.1 h
  have hnone : intOfText u.toUnicode (String.ofList (formatCnj ds)) = none := by
    cases hint : intOfText u.toUnicode (String.ofList (formatCnj ds)) with
    | none => rfl
    | some n =>
        have hstrip := congrArg String.toList (strip_formatCnj hds)
        rw [u.strip_eq, String.toList_ofList] at hstrip
        -- the canonical form has a full stop, which no integer has
        have hdot := chars_of_intOfText hint '.' (by
          rw [hstrip, String.toList_ofList]
          simp [formatCnj])
        rw [u.isDecimal_ascii '.' (by decide)] at hdot
        cases hdot
  have hraised : intOf u (.str (String.ofList (formatCnj ds))) = .error .valueError := by
    simp only [intOf, hnone]
  rw [codeCompleted, hraised]
  rfl

/-- A value that is not true is not the number of completion. -/
theorem codeCompleted_of_not_isTrue {v : Json} (h : v.isTrue = false) :
    codeCompleted u v = false := by
  cases v with
  | bool b =>
      obtain rfl : b = false := h
      rfl
  | int n =>
      obtain rfl : n = 0 := by simpa [Json.isTrue] using h
      rfl
  | float d =>
      have hzero : d.digits = 0 := by simpa [Json.isTrue] using h
      have htruncate : Rpy.Summaries.truncate d = 0 := by simp [Rpy.Summaries.truncate, hzero]
      have hread : intOf u (.float d) = .ok 0 := congrArg Except.ok htruncate
      rw [codeCompleted, hread]
      rfl
  | str s =>
      obtain rfl : s = "" := by simpa [Json.isTrue] using h
      rfl
  | _ => rfl

/-- The code of a process, before it is checked. -/
def namedCode (u : Runtime) (data : Json) : Option String :=
  (textIf u ((data.get "code").orElse (data.get "process_code"))).bind fun value =>
    nonEmpty (u.strip value)

/-- The parser reads the code from the process. -/
theorem readEvent_code (u : Runtime) (raw : Json) :
    (readEvent u raw).code = (readEvent u raw).responseData.bind (namedCode u) := rfl

/-- A process with a code that can be read gets that of the bundle. -/
theorem namedCode_withCode {asked : String} (h : normalizeCnj u.toDigits asked = some code)
    {data : Json} (hdata : data.isObj = true) (hread : (namedCode u data).isSome = true) :
    namedCode u (withCode code (redactResponseData u data)) = some code := by
  obtain ⟨ds, hds, -, rfl⟩ := normalizeCnj_iff.1 h
  have hne : String.ofList (formatCnj ds) ≠ "" := by
    intro hempty
    have hlists := congrArg String.toList hempty
    rw [String.toList_ofList] at hlists
    simp [formatCnj] at hlists
  have hobj : (redactResponseData u data).isObj = true := by rw [isObj_redact, hdata]
  have htrue : ∀ key ∈ ["code", "process_code", "message"],
      ((redactResponseData u data).get key).isTrue = (data.get key).isTrue := by
    intro key hkey
    obtain ⟨hcontact, hname⟩ := plain_key hkey
    unfold Json.get
    rw [get?_redact hcontact hname]
    cases data.get? key with
    | none => rfl
    | some item => exact isTrue_redact item
  have hnamed : ((redactResponseData u data).get "code").isTrue = true ∨
      ((redactResponseData u data).get "process_code").isTrue = true := by
    rw [htrue "code" (by simp), htrue "process_code" (by simp)]
    -- with neither of them no code would have been read
    by_contra hneither
    obtain ⟨hcode, hprocess⟩ := not_or.1 hneither
    unfold namedCode Json.orElse textIf at hread
    rw [if_neg hcode, if_neg hprocess] at hread
    cases hread
  unfold namedCode
  rw [code_withCode hobj hne hnamed, textIf, if_pos (by simpa [Json.isTrue] using hne), u.str_str,
    Option.bind_some, strip_formatCnj hds, nonEmpty, if_neg hne]

/-- A sanitised process is complete where its message says so. -/
theorem dataCompleted_withCode (hu : u.Renders) {asked : String}
    (h : normalizeCnj u.toDigits asked = some code) {data : Json} (hdata : data.isObj = true) :
    dataCompleted u (withCode code (redactResponseData u data)) =
      messageCompleted u (data.get "message") := by
  have hobj : (redactResponseData u data).isObj = true := by rw [isObj_redact, hdata]
  have hget : ∀ key ∈ ["code", "process_code", "message"],
      (redactResponseData u data).get key = redactResponseData u (data.get key) := by
    intro key hkey
    obtain ⟨hcontact, hname⟩ := plain_key hkey
    unfold Json.get
    rw [get?_redact hcontact hname]
    cases data.get? key with
    | none =>
        show Json.null = redactResponseData u .null
        rw [redactResponseData]
    | some item => rfl
  have hmessage : (withCode code (redactResponseData u data)).get "message" =
      redactResponseData u (data.get "message") := by
    rw [← hget "message" (by simp)]
    unfold Json.get
    rw [get?_withCode hobj (by decide) (by decide)]
  -- the code is the canonical one, or is not there, or is not true
  have hcode : codeCompleted u ((withCode code (redactResponseData u data)).get "code") = false := by
    unfold withCode
    split
    · dsimp only
      cases hpresent : ((redactResponseData u data).get? "code").isSome with
      | true =>
          rw [if_pos rfl]
          split
          · rw [get_put (by rw [isObj_put, hobj]), if_neg (by decide), get_put hobj, if_pos rfl]
            exact codeCompleted_canonical h
          · rw [get_put hobj, if_pos rfl]
            exact codeCompleted_canonical h
      | false =>
          have hnull : (redactResponseData u data).get "code" = .null := by
            rw [Json.get, Option.isSome_eq_false_iff.1 hpresent |> Option.isNone_iff_eq_none.1,
              Option.getD_none]
          simp only [Bool.false_eq_true, if_false]
          split
          · rw [get_put hobj, if_neg (by decide), hnull]
            rfl
          · rw [hnull]
            rfl
    · rename_i hneither
      refine codeCompleted_of_not_isTrue ?_
      simp only [Bool.or_eq_true, not_or, Bool.not_eq_true] at hneither
      exact hneither.1
  rw [dataCompleted, hmessage, hcode, messageCompleted_redact hu, Bool.or_false]

end Process

/-! ## §8. The event. -/

section Event

variable {u : Runtime} {code : String} {raw body : Json}

/-- The delivery names its process in the payload. -/
def namesProcess (raw : Json) : Bool := ((payloadOf raw).get "response_data").isObj

/-- Only the number of the completion says that the request is complete. -/
def CompletedByCode (u : Runtime) (raw : Json) (event : JuditEvent) : Prop :=
  event.eventType ≠ "request_completed" ∧ namesProcess raw = true ∧
    messageCompleted u (((payloadOf raw).get "response_data").get "message") = false

/-- **The event of a delivery, sanitised.** -/
structure Replays (u : Runtime) (code : String) (raw : Json) (event event' : JuditEvent) :
    Prop where
  eventType : event'.eventType = event.eventType
  responseType : event'.responseType = event.responseType
  cachedResponse : event'.cachedResponse = event.cachedResponse
  callbackId : event'.callbackId = event.callbackId.map (stableText "callback")
  responseId : event'.responseId = event.responseId.map (stableText "response")
  requestId : event'.requestId = if namedOutside raw then event.requestId
    else event.requestId.map (stableText "request")
  code : event.isLawsuitResponse = true →
    event'.code = if namesProcess raw then some code else event.code
  completed : event'.requestCompleted u = true ↔
    event.requestCompleted u = true ∧ ¬CompletedByCode u raw event

/-- The process of a delivery: that of its payload, or the delivery itself
where it has no type. -/
theorem readEvent_responseData (u : Runtime) (raw : Json) : (readEvent u raw).responseData =
    if u.lower (u.strip (textOr u (raw.get "event_type"))) = "" then
      some (if namesProcess raw then (payloadOf raw).get "response_data" else raw)
    else if namesProcess raw then some ((payloadOf raw).get "response_data") else none := by
  show (if _ = "" then some (Option.getD (if namesProcess raw then _ else _) raw) else
    if namesProcess raw then _ else _) = _
  cases namesProcess raw <;> rfl

/-- The process of the sanitised delivery, where the payload names one. -/
theorem Sanitized.responseData_of_named {callbackId : Option String}
    (h : Sanitized u code callbackId raw body) (hnamed : namesProcess raw = true) :
    (readEvent u raw).responseData = some ((payloadOf raw).get "response_data") ∧
      (readEvent u body).responseData =
        some (withCode code (redactResponseData u ((payloadOf raw).get "response_data"))) := by
  have hdata : (payloadOf body).get "response_data" =
      withCode code (redactResponseData u ((payloadOf raw).get "response_data")) := by
    rw [h.payloadOf_eq, get_sanitizePayload_data (isObj_payloadOf raw)]
    exact if_pos hnamed
  have hnamed' : namesProcess body = true := by
    rw [namesProcess, hdata, isObj_withCode, isObj_redact]
    exact hnamed
  rw [readEvent_responseData, readEvent_responseData, hnamed, hnamed', hdata]
  constructor <;> split <;> rfl

/-- Where it names none, the process is the delivery itself or there is none. -/
theorem Sanitized.responseData_of_unnamed {callbackId : Option String}
    (h : Sanitized u code callbackId raw body) (hnamed : namesProcess raw = false) :
    ((readEvent u raw).responseData = none ∧ (readEvent u body).responseData = none) ∨
      ((readEvent u raw).responseData = some raw ∧
        (readEvent u body).responseData = some body) := by
  have hdata : (payloadOf body).get "response_data" = (payloadOf raw).get "response_data" := by
    rw [h.payloadOf_eq, get_sanitizePayload_data (isObj_payloadOf raw)]
    exact if_neg (by simpa [namesProcess] using hnamed)
  have hnamed' : namesProcess body = false := by
    rw [namesProcess, hdata]
    exact hnamed
  rw [readEvent_responseData, readEvent_responseData, hnamed, hnamed',
    h.get (show "event_type" ∉ _ by decide)]
  simp only [Bool.false_eq_true, if_false]
  split
  · exact .inr ⟨rfl, rfl⟩
  · exact .inl ⟨rfl, rfl⟩

/-- A response of information, by its process. -/
theorem requestCompleted_iff (event : JuditEvent) : event.requestCompleted u = true ↔
    event.eventType = "request_completed" ∨ (event.eventType = "response_created" ∧
      event.responseType = some "application_info" ∧
        dataCompleted u ((event.responseData.getD .null).orElse (.obj [])) = true) := by
  unfold JuditEvent.requestCompleted
  by_cases hcompleted : event.eventType = "request_completed"
  · rw [if_pos hcompleted]
    exact iff_of_true rfl (.inl hcompleted)
  · rw [if_neg hcompleted]
    by_cases hother : event.eventType ≠ "response_created" ∨
        event.responseType ≠ some "application_info"
    · rw [if_pos hother]
      refine iff_of_false Bool.false_ne_true ?_
      rintro (h | ⟨hcreated, hinfo, -⟩)
      · exact hcompleted h
      · exact hother.elim (fun h => h hcreated) fun h => h hinfo
    · rw [if_neg hother]
      obtain ⟨hcreated, hinfo⟩ := not_or.1 hother
      rw [not_not] at hcreated hinfo
      rw [or_iff_right hcompleted, and_iff_right hcreated, and_iff_right hinfo]
      rfl

/-- The members of a process that may be empty. -/
theorem dataCompleted_orElse {data : Json} (h : data.isObj = true) :
    dataCompleted u (data.orElse (.obj [])) = dataCompleted u data := by
  cases data with
  | obj members =>
      cases members with
      | nil => rfl
      | cons m members => rfl
  | _ => cases h

/-- **Completion** is kept, unless only its number said so. -/
theorem Sanitized.completed (hu : u.Renders) {asked : String}
    (hcode : normalizeCnj u.toDigits asked = some code) {callbackId : Option String}
    (hraw : raw.isObj = true) (h : Sanitized u code callbackId raw body) :
    (readEvent u body).requestCompleted u = true ↔
      (readEvent u raw).requestCompleted u = true ∧ ¬CompletedByCode u raw (readEvent u raw) := by
  rw [requestCompleted_iff, requestCompleted_iff, h.eventType, h.responseType]
  unfold CompletedByCode
  cases hnamed : namesProcess raw with
  | true =>
      obtain ⟨hdata, hdata'⟩ := h.responseData_of_named hnamed
      have hobj : ((payloadOf raw).get "response_data").isObj = true := hnamed
      rw [hdata, hdata', Option.getD_some, Option.getD_some, dataCompleted_orElse hobj,
        dataCompleted_orElse (by rw [isObj_withCode, isObj_redact, hobj]),
        dataCompleted_withCode hu hcode hobj]
      -- what its number said is gone; what its message says is not
      unfold dataCompleted
      cases messageCompleted u (((payloadOf raw).get "response_data").get "message") with
      | true => simp
      | false =>
          by_cases hevent : (readEvent u raw).eventType = "request_completed"
          · simp [hevent]
          · simp [hevent]
  | false =>
      -- without a process in the payload nothing is redacted
      have hsame : dataCompleted u (((readEvent u body).responseData.getD .null).orElse (.obj [])) =
          dataCompleted u (((readEvent u raw).responseData.getD .null).orElse (.obj [])) := by
        rcases h.responseData_of_unnamed hnamed with ⟨hnone, hnone'⟩ | ⟨hself, hself'⟩
        · rw [hnone, hnone']
        · rw [hself, hself', Option.getD_some, Option.getD_some, dataCompleted_orElse hraw,
            dataCompleted_orElse h.isObj, dataCompleted, dataCompleted,
            h.get (show "message" ∉ _ by decide), h.get (show "code" ∉ _ by decide)]
      rw [hsame]
      simp

/-- The code that is read from a sanitised delivery. -/
theorem Sanitized.readCode {asked : String} (hcode : normalizeCnj u.toDigits asked = some code)
    {callbackId : Option String} (h : Sanitized u code callbackId raw body) {value : String}
    (hvalue : (readEvent u raw).code = some value) :
    (readEvent u body).code = if namesProcess raw then some code else some value := by
  rw [readEvent_code] at hvalue ⊢
  cases hnamed : namesProcess raw with
  | true =>
      obtain ⟨hdata, hdata'⟩ := h.responseData_of_named hnamed
      rw [hdata, Option.bind_some] at hvalue
      rw [hdata', Option.bind_some, if_pos rfl]
      exact namedCode_withCode hcode hnamed (by rw [hvalue]; rfl)
  | false =>
      simp only [Bool.false_eq_true, if_false]
      rcases h.responseData_of_unnamed hnamed with ⟨hnone, hnone'⟩ | ⟨hself, hself'⟩
      · rw [hnone] at hvalue
        cases hvalue
      · rw [hself, Option.bind_some] at hvalue
        rw [hself', Option.bind_some, ← hvalue, namedCode, namedCode,
          h.get (show "code" ∉ _ by decide), h.get (show "process_code" ∉ _ by decide)]

/-- **What the parser accepts.** -/
theorem parseEvent_eq_ok {event : JuditEvent} : parseEvent u raw = .ok event ↔
    raw.isObj = true ∧
      (((readEvent u raw).isLawsuitResponse = true ∧
          isMissing (readEvent u raw).requestId = false ∧
          (isMissing (readEvent u raw).responseId &&
            isMissing (readEvent u raw).callbackId) = false ∧
          ∃ value canonical, (readEvent u raw).code = some value ∧
            normalizeCnj u.toDigits value = some canonical ∧
            event = { readEvent u raw with code := some canonical }) ∨
        ((readEvent u raw).isLawsuitResponse = false ∧
          ((readEvent u raw).requestCompleted u && isMissing (readEvent u raw).requestId) = false ∧
          event = readEvent u raw)) := by
  unfold parseEvent
  cases hobj : raw.isObj with
  | false => exact iff_of_false (by rintro ⟨⟩) (by rintro ⟨⟨⟩, -⟩)
  | true =>
      rw [if_pos rfl, and_iff_right rfl]
      dsimp only
      -- a lawsuit is checked for its code, its request and a stable identifier; anything else for
      -- its request, where it says that this is complete
      cases hlawsuit : (readEvent u raw).isLawsuitResponse with
      | false =>
          simp only [Bool.false_eq_true, if_false, false_and, false_or, true_and]
          split
          · rename_i hmissing
            rw [hmissing]
            exact iff_of_false (by rintro ⟨⟩) (by rintro ⟨⟨⟩, -⟩)
          · rename_i hmissing
            rw [Bool.eq_false_of_not_eq_true hmissing, and_iff_right rfl, Except.ok.injEq]
            exact eq_comm
      | true =>
          simp only [if_true, true_and, Bool.true_eq_false, false_and, or_false]
          cases hvalue : (readEvent u raw).code with
          | none =>
              refine iff_of_false (by rintro ⟨⟩) ?_
              rintro ⟨-, -, value, canonical, hnone, -⟩
              cases hnone
          | some value =>
              dsimp only
              cases hcanonical : normalizeCnj u.toDigits value with
              | none =>
                  refine iff_of_false (by rintro ⟨⟩) ?_
                  rintro ⟨-, -, other, canonical, hother, hsome, -⟩
                  obtain rfl := Option.some.inj hother
                  rw [hcanonical] at hsome
                  cases hsome
              | some canonical =>
                  dsimp only
                  split
                  · rename_i hmissing
                    rw [hmissing]
                    exact iff_of_false (by rintro ⟨⟩) (by rintro ⟨⟨⟩, -⟩)
                  · rename_i hnamed
                    rw [Bool.eq_false_of_not_eq_true hnamed, and_iff_right rfl]
                    split
                    · rename_i hmissing
                      rw [hmissing]
                      exact iff_of_false (by rintro ⟨⟩) (by rintro ⟨⟨⟩, -⟩)
                    · rename_i hstable
                      rw [Bool.eq_false_of_not_eq_true hstable, and_iff_right rfl, Except.ok.injEq]
                      constructor
                      · rintro rfl
                        exact ⟨value, canonical, rfl, hcanonical, rfl⟩
                      · rintro ⟨other, canonical', hother, hsome, rfl⟩
                        obtain rfl := Option.some.inj hother
                        rw [hcanonical] at hsome
                        rw [Option.some.inj hsome]

/-- A hash is missing when the identifier is. -/
theorem isMissing_map {value : Option String} (hne : value ≠ some "") (kind : String) :
    isMissing (value.map (stableText kind)) = isMissing value := by
  cases value with
  | none => rfl
  | some text =>
      have htext : text ≠ "" := fun h => hne (congrArg some h)
      show (stableText kind text == "") = (text == "")
      rw [beq_eq_false_iff_ne.2 (stableText_ne kind text), beq_eq_false_iff_ne.2 htext]

/-- What the parser reads as an identifier is not empty. -/
theorem textIf_ne (hu : u.Renders) (v : Json) : textIf u v ≠ some "" := by
  unfold textIf
  split
  · rename_i htrue
    exact fun h => hu.str_ne v htrue (Option.some.inj h)
  · exact fun h => nomatch h

/-- The sanitised delivery has the identifiers that the delivery has. -/
theorem Sanitized.isMissing_eq (hu : u.Renders)
    (h : Sanitized u code (readEvent u raw).callbackId raw body) :
    isMissing (readEvent u body).requestId = isMissing (readEvent u raw).requestId ∧
      isMissing (readEvent u body).responseId = isMissing (readEvent u raw).responseId ∧
      isMissing (readEvent u body).callbackId = isMissing (readEvent u raw).callbackId := by
  rw [h.requestId hu, h.responseId hu, h.callbackId_eq hu]
  refine ⟨?_, isMissing_map (textIf_ne hu _) _, isMissing_map (textIf_ne hu _) _⟩
  split
  · rfl
  · exact isMissing_map (textIf_ne hu _) _

/-- **A sanitised delivery is accepted as the delivery was**: of the same type
and kind, with the hash of each identifier, the code of the bundle for the
process that the payload names, and complete unless only the number of the
completion said so. -/
theorem sanitized_accepted {u : Runtime} (hu : u.Renders) {asked code : String}
    (hcode : normalizeCnj u.toDigits asked = some code) {raw body : Json}
    (h : sanitizeDelivery u raw code = .ok body) :
    ∃ event event', parseEvent u raw = .ok event ∧ parseEvent u body = .ok event' ∧
      Replays u code raw event event' := by
  obtain ⟨event, hevent, hraw, hs⟩ := sanitizeDelivery_eq_ok h
  have hread := parseEvent_eq_ok.1 hevent
  have hlawsuit : (readEvent u body).isLawsuitResponse = (readEvent u raw).isLawsuitResponse := by
    unfold JuditEvent.isLawsuitResponse
    rw [hs.eventType, hs.responseType]
  rcases hread.2 with ⟨his, hrequest, hstable, value, canonical, hvalue, hcanonical, rfl⟩ |
    ⟨hnot, hnamed, rfl⟩
  -- a lawsuit: its code is the bundle's, or has stayed and is canonical
  · have hmissing := Sanitized.isMissing_eq hu hs
    have hself : normalizeCnj u.toDigits code = some code := by
      obtain ⟨ds, hds, -, rfl⟩ := normalizeCnj_iff.1 hcode
      exact normalizeCnj_self hds
    have hbody : parseEvent u body = .ok { readEvent u body with
        code := if namesProcess raw then some code else some canonical } := by
      refine parseEvent_eq_ok.2 ⟨hs.isObj, .inl ⟨hlawsuit.trans his, hmissing.1.trans hrequest,
        ?_, ?_⟩⟩
      · rw [hmissing.2.1, hmissing.2.2, hstable]
      · have hvalue' := hs.readCode hcode hvalue
        cases hnames : namesProcess raw with
        | true =>
            rw [hnames] at hvalue'
            exact ⟨code, code, hvalue', hself, rfl⟩
        | false =>
            rw [hnames] at hvalue'
            exact ⟨value, canonical, hvalue', hcanonical, rfl⟩
    exact ⟨_, _, hevent, hbody, {
      eventType := hs.eventType, responseType := hs.responseType
      cachedResponse := hs.cachedResponse, callbackId := Sanitized.callbackId_eq hu hs
      responseId := hs.responseId hu, requestId := hs.requestId hu
      code := fun _ => rfl, completed := hs.completed hu hcode hraw }⟩
  · have hmissing := Sanitized.isMissing_eq hu hs
    have hbody : parseEvent u body = .ok (readEvent u body) := by
      refine parseEvent_eq_ok.2 ⟨hs.isObj, .inr ⟨hlawsuit.trans hnot, ?_, rfl⟩⟩
      -- no completion is made up, so the identifier is not asked for
      rw [hmissing.1]
      cases hcompleted : (readEvent u body).requestCompleted u with
      | false => rfl
      | true =>
          have hbefore := ((hs.completed hu hcode hraw).1 hcompleted).1
          rwa [hbefore] at hnamed
    exact ⟨_, _, hevent, hbody, {
      eventType := hs.eventType, responseType := hs.responseType
      cachedResponse := hs.cachedResponse, callbackId := Sanitized.callbackId_eq hu hs
      responseId := hs.responseId hu, requestId := hs.requestId hu
      code := fun his => by rw [hnot] at his; cases his
      completed := hs.completed hu hcode hraw }⟩

end Event

/-- The text of a container stands in brackets of its own. -/
theorem plain_container {v : Json} {first last : Char} {inner : List Char}
    (hstr : Runtime.plain.str v = String.ofList (first :: inner ++ [last]))
    (hfirst : Runtime.plain.isSpace first = false) (hlast : Runtime.plain.isSpace last = false)
    (hupper : first.toUpper ≠ 'R') :
    Runtime.plain.upper (Runtime.plain.strip (Runtime.plain.str v)) ≠ "REQUEST_COMPLETED" := by
  -- the bracket is no letter of the completion
  rw [hstr, Runtime.plain.strip_eq, String.toList_ofList, Platform.stripChars_eq_self]
  · intro h
    have hhead := congrArg (fun s => s.toList.head?) h
    simp only [Runtime.plain, String.toList_ofList, List.cons_append, List.map_cons,
      List.head?_cons] at hhead
    exact hupper (Option.some.inj hhead)
  · intro c hc
    obtain rfl := Option.some.inj hc
    exact hfirst
  · intro c hc
    rw [List.getLast?_append_of_ne_nil _ (List.cons_ne_nil _ _)] at hc
    obtain rfl := Option.some.inj hc
    exact hlast

/-- The runtime for texts in ASCII renders as Python does. -/
theorem renders_plain : Runtime.plain.Renders where
  str_ne v htrue := by
    cases v with
    | null => cases htrue
    | bool b => cases b <;> decide
    | int n =>
        intro h
        have hlists := congrArg String.toList h
        have hstr : Runtime.plain.str (.int n) = String.ofList (toString n).toList := rfl
        rw [hstr, String.toList_ofList, Int.toString_eq_repr, Int.repr_eq_if] at hlists
        split at hlists
        · rw [Nat.toList_repr] at hlists
          exact (Json.areDigits_toDigits _).1 hlists
        · rw [String.toList_append] at hlists
          cases hlists
    | float d =>
        obtain ⟨sign, whole, frac, ex, htext, -, hwhole, -⟩ := Json.repr_parts d
        obtain ⟨c, t, rfl, -⟩ := hwhole.head
        intro h
        have hlists := congrArg String.toList h
        have hstr : Runtime.plain.str (.float d) = String.ofList d.repr.toList := rfl
        rw [hstr, String.toList_ofList, htext] at hlists
        simp at hlists
    | str s =>
        show s ≠ ""
        simpa [Json.isTrue] using htrue
    | arr items =>
        intro h
        have hlists := congrArg String.toList h
        have hstr : Runtime.plain.str (.arr items) =
          String.ofList ('[' :: Json.textList items ++ [']']) := rfl
        rw [hstr, String.toList_ofList] at hlists
        cases hlists
    | obj members =>
        intro h
        have hlists := congrArg String.toList h
        have hstr : Runtime.plain.str (.obj members) =
          String.ofList ('\x7b' :: Json.textMembers members ++ ['\x7d']) := rfl
        rw [hstr, String.toList_ofList] at hlists
        cases hlists
  str_container v hv := by
    rcases hv with ⟨items, rfl⟩ | ⟨members, rfl⟩
    · have hstr : Runtime.plain.str (.arr items) =
          String.ofList ('[' :: Json.textList items ++ [']']) := rfl
      exact plain_container hstr (by decide) (by decide) (by decide)
    · have hstr : Runtime.plain.str (.obj members) =
          String.ofList ('\x7b' :: Json.textMembers members ++ ['\x7d']) := rfl
      exact plain_container hstr (by decide) (by decide) (by decide)
  lower_tracking := by decide

/-- A callback of a lawsuit, sanitised and parsed again. -/
theorem sanitized_accepted_callback :
    ∃ body event event', sanitizeDelivery .plain (callbackWith (.arr []))
        "0000001-01.2024.8.26.0001" = .ok body ∧
      parseEvent .plain (callbackWith (.arr [])) = .ok event ∧
      parseEvent .plain body = .ok event' ∧
      Replays .plain "0000001-01.2024.8.26.0001" (callbackWith (.arr [])) event event' := by
  have hcode : normalizeCnj Runtime.plain.toDigits "00000010120248260001" =
      some "0000001-01.2024.8.26.0001" := by decide +kernel
  have hbody : ∃ body, sanitizeDelivery .plain (callbackWith (.arr []))
      "0000001-01.2024.8.26.0001" = .ok body := by
    rw [sanitizeDelivery, accepts_list]
    exact ⟨_, rfl⟩
  obtain ⟨body, hbody⟩ := hbody
  obtain ⟨event, event', hread⟩ := sanitized_accepted renders_plain hcode hbody
  exact ⟨body, event, event', hbody, hread⟩

end Rpy.Judit

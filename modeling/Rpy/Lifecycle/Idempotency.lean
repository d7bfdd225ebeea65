/-
  Rpy.Lifecycle.Idempotency
  ─────────────────────────
  **AN IDEMPOTENCY KEY IS BOUND TO ONE BODY**
  (`create_summary_job`; `request_fingerprint` and
  `create_or_get_summary_request` of `app/public_lifecycle.py`).

  A call inserts a row or finds the key in use.  In the first case the row
  is seen when the call commits, and until then whoever inserts the same
  key waits; in the second one the row is read by a second statement, and
  its fingerprint is compared.  Between the statements of a call other
  calls run, a call may end without an answer, and the rows there are
  change their status.

    • `requestFingerprint`, `fingerprint_eq_iff` — what a fingerprint tells,
    • `summaryCall`         — the arguments of a call,
    • `eq_of_same_body`, `eq_of_same_request` — the same body is about one
                              process,
    • `Requests.step`       — one statement of a call,
    • `Requests.Bound`      — what every statement keeps,
    • `idempotencyKeys_bind` — **one row for a key, and its body decides who
                              gets it**.

  The lock that `FOR UPDATE` takes keeps others from changing the row while
  it is read; without it there are more runs.
-/
import Rpy.Foundation.JsonSame
import Rpy.Foundation.Machine
import Rpy.Foundation.Sha256
import Rpy.Judit.Cnj
import Rpy.Lifecycle.Acquisitions
import Rpy.Tenancy.Listing

namespace Rpy.Lifecycle

open Rpy.Foundation
open Rpy.Judit (Digits normalizeCnj)
open Rpy.Tenancy (HTTPException RequestPrincipal)

/-! ## §1. The fingerprint of a body. -/

/-- A value that `loads_strict_json` can return. -/
def IsPayload (u : Unicode) (v : Json) : Bool :=
  Json.readableIn (fun _ => true) u.recursionLimit v

theorem isPayload_of_loadsStrict {u : Unicode} {text : String} {v : Json}
    (h : u.loadsStrict text = .ok v) : IsPayload u v = true :=
  Json.readableIn_of_loads h

/-- `request_fingerprint` -/
def requestFingerprint (payload : Json) : String :=
  Sha256.hexdigest payload.dumps

/-- **Two payloads have one fingerprint exactly when they are the same**,
where the digest tells their texts apart. -/
theorem fingerprint_eq_iff {u : Unicode} {v w : Json} (hv : IsPayload u v = true)
    (hw : IsPayload u w = true) (hdigest : ¬Sha256.Collide v.dumps w.dumps) :
    requestFingerprint v = requestFingerprint w ↔ Json.same v w = true := by
  rw [← Json.dumps_eq_iff hv hw]
  constructor
  · intro h
    by_contra hne
    exact hdigest ⟨hne, h⟩
  · intro h
    unfold requestFingerprint
    rw [h]

/-! ## §2. The arguments of a call. -/

/-- The formats of `create_or_get_summary_request` and of `_summary_format`. -/
def responseFormats : List String := ["jsx", "json"]

/-- The idempotency key of the header values. -/
def idempotencyKeyOf (u : Platform) (values : List String) : Except HTTPException String :=
  match values with
  | [] => .error ⟨400, "Idempotency-Key is required"⟩
  | [value] =>
      let key := u.strip value
      if key = "" then .error ⟨400, "Idempotency-Key is required"⟩
      else if ',' ∈ key.toList then .error ⟨400, "Idempotency-Key must appear exactly once"⟩
      else if 255 < key.toList.length then .error ⟨400, "Idempotency-Key is too long"⟩
      else .ok key
  | _ => .error ⟨400, "Idempotency-Key must appear exactly once"⟩

/-- `_summary_format` -/
def summaryFormat (u : Python) (value : Json) : Except HTTPException String :=
  let rendered := u.lower (u.strip (u.str (value.orElse (.str "jsx"))))
  if rendered ∈ responseFormats then .ok rendered
  else .error ⟨400, "format must be 'jsx' or 'json'"⟩

/-- `normalized_body` -/
def normalizedBody (members : List (String × Json)) (code format : String) : Json :=
  .obj (assign "format" (.str format) (assign "cnj" (.str code) members))

/-- The arguments that `create_summary_job` calls with, and the body of the
fingerprint among them. -/
structure Call (u : Unicode) where
  tenantId : Uuid
  processCode : String
  idempotencyKey : String
  responseFormat : String
  body : Json
  isPayload : IsPayload u body = true
  key_ne_empty : u.strip idempotencyKey ≠ ""
  format_known : responseFormat ∈ responseFormats

theorem readableMembersIn_assign {isFloat : Decimal → Bool} {depth : Nat} {key text : String}
    {members : List (String × Json)} (h : Json.readableMembersIn isFloat depth members = true) :
    Json.readableMembersIn isFloat depth (assign key (.str text) members) = true := by
  rw [Json.readableMembersIn_iff] at h ⊢
  intro m hm
  rcases mem_assign hm with rfl | hm
  · cases depth <;> rfl
  · exact h m hm

/-- The normalised body of a payload is one. -/
theorem isPayload_normalizedBody {u : Unicode} {members : List (String × Json)}
    (h : IsPayload u (.obj members) = true) (code format : String) :
    IsPayload u (normalizedBody members code format) = true := by
  unfold IsPayload at h ⊢
  cases hlimit : u.recursionLimit with
  | zero =>
      rw [hlimit] at h
      cases h
  | succ depth =>
      rw [hlimit] at h
      have hboth : (decide (members.map Prod.fst).Nodup &&
        Json.readableMembersIn (fun _ => true) depth members) = true := h
      rw [Bool.and_eq_true, decide_eq_true_eq] at hboth
      show (decide (_ : List String).Nodup && Json.readableMembersIn _ depth _) = true
      rw [Bool.and_eq_true, decide_eq_true_eq]
      exact ⟨nodup_keys_assign (nodup_keys_assign hboth.1),
        readableMembersIn_assign (readableMembersIn_assign hboth.2)⟩

theorem strip_key_ne_empty {u : Platform} {values : List String} {key : String}
    (h : idempotencyKeyOf u values = .ok key) : u.strip key ≠ "" := by
  unfold idempotencyKeyOf at h
  split at h
  · cases h
  · next value =>
      dsimp only at h
      split at h
      · cases h
      · next hne =>
          split at h
          · cases h
          split at h
          · cases h
          obtain rfl := Except.ok.inj h
          rwa [strip_strip]
  · cases h

theorem summaryFormat_known {u : Python} {value : Json} {format : String}
    (h : summaryFormat u value = .ok format) : format ∈ responseFormats := by
  unfold summaryFormat at h
  dsimp only at h
  split at h
  · next hknown =>
      obtain rfl := Except.ok.inj h
      exact hknown
  · cases h

/-- The arguments for a body that `loads_strict_json` returned: the checks of
`create_summary_job` in their order, `principalFromRequest` among them. -/
def summaryCall (u : Digits) (principalFromRequest : String → Except HTTPException RequestPrincipal)
    (values : List String) (body : Json) (hbody : IsPayload u.toUnicode body = true) :
    Except HTTPException (Call u.toUnicode) :=
  match hkey : idempotencyKeyOf u.toPlatform values with
  | .error e => .error e
  | .ok key =>
      match body, hbody with
      | .obj members, hbody =>
          match (Json.obj members).get "cnj" with
          | .str raw =>
              match normalizeCnj u raw with
              | none => .error ⟨400, "invalid process code"⟩
              | some code =>
                  match hformat : summaryFormat u.toPython ((Json.obj members).get "format") with
                  | .error e => .error e
                  | .ok format =>
                      (principalFromRequest code).map fun principal =>
                        { tenantId := principal.tenantId
                          processCode := code
                          idempotencyKey := key
                          responseFormat := format
                          body := normalizedBody members code format
                          isPayload := isPayload_normalizedBody hbody code format
                          key_ne_empty := strip_key_ne_empty hkey
                          format_known := summaryFormat_known hformat }
          | _ => .error ⟨400, "cnj is required"⟩
      | _, _ => .error ⟨400, "request body must be an object"⟩

/-- The body names the process and the format of the call. -/
def Call.Named {u : Unicode} (c : Call u) : Prop :=
  c.body.get? "cnj" = some (.str c.processCode) ∧
    c.body.get? "format" = some (.str c.responseFormat)

theorem named_of_summaryCall {u : Digits}
    {principalFromRequest : String → Except HTTPException RequestPrincipal} {values : List String}
    {body : Json} {hbody : IsPayload u.toUnicode body = true} {c : Call u.toUnicode}
    (h : summaryCall u principalFromRequest values body hbody = .ok c) : c.Named := by
  unfold summaryCall at h
  split at h
  · cases h
  split at h
  · split at h
    · split at h
      · cases h
      · split at h
        · cases h
        · obtain ⟨principal, -, rfl⟩ := map_eq_ok.1 h
          constructor
          · show (assign "format" _ (assign "cnj" _ _)).lookup "cnj" = _
            rw [lookup_assign, if_neg (by decide), lookup_assign, if_pos rfl]
          · show (assign "format" _ (assign "cnj" _ _)).lookup "format" = _
            rw [lookup_assign, if_pos rfl]
    · cases h
  · cases h

/-- **Calls with the same body are about one process, in one format.** -/
theorem eq_of_same_body {u : Unicode} {c d : Call u} (hc : c.Named) (hd : d.Named)
    (h : Json.same c.body d.body = true) :
    c.processCode = d.processCode ∧ c.responseFormat = d.responseFormat := by
  have hsorted := (Json.same_iff c.body d.body c.isPayload d.isPayload).1 h
  have hmember : ∀ {key s t : String}, c.body.get? key = some (.str s) →
      d.body.get? key = some (.str t) → s = t := by
    intro key s t hs ht
    have hget := congrArg (fun v => v.get? key) hsorted
    simp only [Json.isForm_sortKeys.get?, hs, ht] at hget
    exact Json.str.inj (Option.some.inj hget)
  exact ⟨hmember hc.1 hd.1, hmember hc.2 hd.2⟩

/-- So are the calls for the texts of two requests. -/
theorem eq_of_same_request {u : Digits} {p q : String → Except HTTPException RequestPrincipal}
    {keys keys' : List String} {text text' : String} {v w : Json} {c d : Call u.toUnicode}
    (hv : u.loadsStrict text = .ok v) (hw : u.loadsStrict text' = .ok w)
    (hc : summaryCall u p keys v (isPayload_of_loadsStrict hv) = .ok c)
    (hd : summaryCall u q keys' w (isPayload_of_loadsStrict hw) = .ok d)
    (h : Json.same c.body d.body = true) :
    c.processCode = d.processCode ∧ c.responseFormat = d.responseFormat :=
  eq_of_same_body (named_of_summaryCall hc) (named_of_summaryCall hd) h

/-! ## §3. The statements of a call. -/

/-- The columns of `UNIQUE (tenant_id, idempotency_key)`. -/
def PublicRequest.key (r : PublicRequest) : Uuid × String := (r.tenantId, r.idempotencyKey)

section Calls

variable {u : Unicode}

namespace Call

variable (c : Call u)

def key : Uuid × String := (c.tenantId, c.idempotencyKey)

def fingerprint : String := requestFingerprint c.body

/-- The row that the `INSERT` makes. -/
def row (id : Uuid) : PublicRequest where
  id := id
  tenantId := c.tenantId
  processCode := c.processCode
  idempotencyKey := c.idempotencyKey
  requestFingerprint := c.fingerprint
  responseFormat := c.responseFormat
  terminal_time := queued_open

/-- The `ValueError` before the first statement. -/
def valueError : Option String :=
  if u.strip c.idempotencyKey = "" then some "idempotency key must not be empty"
  else if c.responseFormat ∉ responseFormats then some "unsupported summary response format"
  else none

/-- The endpoint calls with arguments that are accepted. -/
theorem valueError_eq_none : c.valueError = none := by
  unfold valueError
  rw [if_neg c.key_ne_empty, if_neg (not_not_intro c.format_known)]

end Call

/-- What a call returns or raises. -/
inductive Answer where
  | row (id : Uuid) (created : Bool)
  /-- `IdempotencyConflictError` -/
  | conflict
  /-- `RuntimeError` -/
  | disappeared
  | valueError (message : String)
deriving Repr, DecidableEq

/-- What the `INSERT` of an open transaction did. -/
inductive Progress where
  | inserted (id : Uuid)
  | skipped
deriving Repr, DecidableEq

variable (u) in
/-- A call whose transaction is open. -/
structure Session where
  caller : Nat
  call : Call u
  progress : Progress

/-- The row of an open transaction, which nobody else sees. -/
def Session.inserts (x : Session u) : Option PublicRequest :=
  match x.progress with
  | .inserted id => some (x.call.row id)
  | .skipped => none

variable (u) in
/-- The requests, the calls that made them, the open transactions and what
was answered. -/
structure Requests where
  rows : List PublicRequest := []
  creators : List (Uuid × Call u) := []
  sessions : List (Session u) := []
  answers : List (Call u × Answer) := []

variable (u) in
inductive Statement where
  /-- the `INSERT` of a new transaction; `id` is what `gen_random_uuid` draws -/
  | insert (caller : Nat) (c : Call u) (id : Uuid)
  /-- the next statement: `COMMIT` behind a row, the `SELECT` behind none -/
  | proceed (caller : Nat)
  /-- the transaction ends without an answer -/
  | rollback (caller : Nat)
  /-- `_transition_many` of another transaction -/
  | transition (selected : PublicRequest → Bool) (t : Transition) (now : Timestamp)
  /-- `link_summary_request_to_acquisition` of another transaction -/
  | link (t : AcquisitionTable) (requestId tenantId : Uuid) (code acquisition : String)

namespace Requests

variable (s : Requests u)

/-- Some open transaction has inserted a row with the key or the id. -/
def inFlight (p : PublicRequest → Bool) : Bool :=
  s.sessions.any fun x => x.inserts.any p

/-- What the `SELECT` of the call leads to. -/
def selected (c : Call u) : Answer :=
  match s.rows.find? fun r => r.key == c.key with
  | none => .disappeared
  | some r => if r.requestFingerprint ≠ c.fingerprint then .conflict else .row r.id false

/-- The transaction of the caller has ended. -/
def close (caller : Nat) : List (Session u) :=
  s.sessions.filter fun x => x.caller != caller

/-- The `INSERT` of a call. -/
def insert (caller : Nat) (c : Call u) (id : Uuid) : Option (Requests u) :=
  match c.valueError with
  | some message => some { s with answers := s.answers ++ [(c, .valueError message)] }
  | none =>
      -- the unique index: a transaction that has inserted the key is waited for
      if s.inFlight (fun r => r.key == c.key) then none
      else if s.rows.any (fun r => r.key == c.key) then
        some { s with sessions := s.sessions ++ [⟨caller, c, .skipped⟩] }
      -- the id is a new one: the primary key refuses another
      else if s.rows.any (fun r => r.id == id) || s.inFlight (fun r => r.id == id) then none
      else some { s with sessions := s.sessions ++ [⟨caller, c, .inserted id⟩] }

/-- The last statement of a transaction, and what the call returns. -/
def finish (x : Session u) : Requests u :=
  match x.progress with
  | .inserted id =>
      { rows := s.rows ++ [x.call.row id]
        creators := s.creators ++ [(id, x.call)]
        sessions := s.close x.caller
        answers := s.answers ++ [(x.call, .row id true)] }
  | .skipped =>
      { s with
        sessions := s.close x.caller
        answers := s.answers ++ [(x.call, s.selected x.call)] }

def step : Requests u → Statement u → Option (Requests u)
  | s, .insert caller c id =>
      if s.sessions.any (fun x => x.caller == caller) then none else s.insert caller c id
  | s, .proceed caller => (s.sessions.find? fun x => x.caller == caller).map s.finish
  | s, .rollback caller => some { s with sessions := s.close caller }
  | s, .transition p t now => some { s with rows := transitionMany p t now s.rows }
  | s, .link t requestId tenantId code acquisition =>
      (linkSummaryRequest t s.rows requestId tenantId code acquisition).map fun rows =>
        { s with rows }

/-! ## §4. What every statement keeps. -/

/-- The row binds the key of the call: it decides the answer. -/
def Decides (r : PublicRequest) (c : Call u) (a : Answer) : Prop :=
  r.key = c.key ∧ if r.requestFingerprint = c.fingerprint then ∃ created, a = .row r.id created
    else a = .conflict

/-- Every key belongs to one row or to one transaction, every row has the
fingerprint of the call that made it, and every answer is that of a row. -/
structure Bound (s : Requests u) : Prop where
  keys : (s.rows.map PublicRequest.key).Nodup
  ids : (s.rows.map PublicRequest.id).Nodup
  callers : (s.sessions.map Session.caller).Nodup
  free : ∀ x ∈ s.sessions, ∀ new ∈ x.inserts, ∀ r ∈ s.rows, r.key ≠ new.key ∧ r.id ≠ new.id
  apart : ∀ x ∈ s.sessions, ∀ y ∈ s.sessions, ∀ new ∈ x.inserts, ∀ new' ∈ y.inserts,
    new.key = new'.key ∨ new.id = new'.id → x.caller = y.caller
  created : ∀ r ∈ s.rows, ∃ c, (r.id, c) ∈ s.creators
  creators : ∀ p ∈ s.creators, ∃ r ∈ s.rows, r.id = p.1 ∧ r.key = p.2.key ∧
    r.requestFingerprint = p.2.fingerprint
  skipped : ∀ x ∈ s.sessions, x.progress = .skipped → ∃ r ∈ s.rows, r.key = x.call.key
  answers : ∀ p ∈ s.answers, ∃ r ∈ s.rows, Decides r p.1 p.2

variable {s} {s' : Requests u}

theorem bound_empty : Bound ({} : Requests u) where
  keys := List.nodup_nil
  ids := List.nodup_nil
  callers := List.nodup_nil
  free := fun _ hx => absurd hx List.not_mem_nil
  apart := fun _ hx => absurd hx List.not_mem_nil
  created := fun _ hr => absurd hr List.not_mem_nil
  creators := fun _ hp => absurd hp List.not_mem_nil
  skipped := fun _ hx => absurd hx List.not_mem_nil
  answers := fun _ hp => absurd hp List.not_mem_nil

/-- Ending transactions keeps everything. -/
theorem Bound.close (h : Bound s) (caller : Nat) :
    Bound { s with sessions := s.close caller } := by
  have hmem : ∀ x ∈ s.close caller, x ∈ s.sessions := fun x hx => (List.mem_filter.1 hx).1
  exact {
    keys := h.keys
    ids := h.ids
    callers := (List.filter_sublist.map Session.caller).nodup h.callers
    free := fun x hx => h.free x (hmem x hx)
    apart := fun x hx y hy => h.apart x (hmem x hx) y (hmem y hy)
    created := h.created
    creators := h.creators
    skipped := fun x hx => h.skipped x (hmem x hx)
    answers := h.answers }

/-- An answer that a row decides keeps everything. -/
theorem Bound.answer (h : Bound s) {c : Call u} {a : Answer} {r : PublicRequest} (hr : r ∈ s.rows)
    (ha : Decides r c a) : Bound { s with answers := s.answers ++ [(c, a)] } := by
  refine { h with answers := fun p hp => ?_ }
  rcases List.mem_append.1 hp with hp | hp
  · exact h.answers p hp
  · rw [List.mem_singleton.1 hp]
    exact ⟨r, hr, ha⟩

/-- What is found under a key decides what the `SELECT` leads to. -/
theorem decides_selected {r : PublicRequest} {c : Call u}
    (hfind : s.rows.find? (fun r => r.key == c.key) = some r) : Decides r c (s.selected c) := by
  refine ⟨key_of_find?_eq_some hfind, ?_⟩
  unfold selected
  rw [hfind]
  by_cases hsame : r.requestFingerprint = c.fingerprint
  · rw [if_pos hsame]
    exact ⟨false, if_neg (not_not_intro hsame)⟩
  · rw [if_neg hsame]
    exact if_pos hsame

/-- Statements that change a row in place keep its id, its key and its fingerprint. -/
structure Keeps (f : PublicRequest → PublicRequest) : Prop where
  id : ∀ r, (f r).id = r.id
  key : ∀ r, (f r).key = r.key
  fingerprint : ∀ r, (f r).requestFingerprint = r.requestFingerprint

theorem Bound.update (h : Bound s) {p : PublicRequest → Bool}
    {f : PublicRequest → PublicRequest} (hf : Keeps f) :
    Bound { s with rows := updateWhere p f s.rows } := by
  -- a row that is there has its successor, and a row then comes from one
  have hnext : ∀ r ∈ s.rows, ∃ r' ∈ updateWhere p f s.rows, r'.id = r.id ∧
      r'.key = r.key ∧ r'.requestFingerprint = r.requestFingerprint := by
    intro r hr
    refine ⟨_, updateWhere_mem_of_mem hr, ?_⟩
    split
    · exact ⟨hf.id r, hf.key r, hf.fingerprint r⟩
    · exact ⟨rfl, rfl, rfl⟩
  have hprev : ∀ r' ∈ updateWhere p f s.rows, ∃ r ∈ s.rows, r'.id = r.id ∧
      r'.key = r.key := by
    intro r' hr'
    rcases mem_updateWhere.1 hr' with ⟨r, hr, -, rfl⟩ | ⟨hr, -⟩
    · exact ⟨r, hr, hf.id r, hf.key r⟩
    · exact ⟨r', hr, rfl, rfl⟩
  exact {
    keys := by
      show ((updateWhere p f s.rows).map PublicRequest.key).Nodup
      rw [map_updateWhere hf.key]
      exact h.keys
    ids := by
      show ((updateWhere p f s.rows).map PublicRequest.id).Nodup
      rw [map_updateWhere hf.id]
      exact h.ids
    callers := h.callers
    free := fun x hx new hnew r' hr' => by
      obtain ⟨r, hr, hid, hkey⟩ := hprev r' hr'
      rw [hid, hkey]
      exact h.free x hx new hnew r hr
    apart := h.apart
    created := fun r' hr' => by
      obtain ⟨r, hr, hid, -⟩ := hprev r' hr'
      rw [hid]
      exact h.created r hr
    creators := fun q hq => by
      obtain ⟨r, hr, hid, hkey, hprint⟩ := h.creators q hq
      obtain ⟨r', hr', hid', hkey', hprint'⟩ := hnext r hr
      exact ⟨r', hr', hid'.trans hid, hkey'.trans hkey, hprint'.trans hprint⟩
    skipped := fun x hx hskip => by
      obtain ⟨r, hr, hkey⟩ := h.skipped x hx hskip
      obtain ⟨r', hr', -, hkey', -⟩ := hnext r hr
      exact ⟨r', hr', hkey'.trans hkey⟩
    answers := fun q hq => by
      obtain ⟨r, hr, hkey, hanswer⟩ := h.answers q hq
      obtain ⟨r', hr', hid', hkey', hprint'⟩ := hnext r hr
      refine ⟨r', hr', hkey'.trans hkey, ?_⟩
      rw [hid', hprint']
      exact hanswer }

/-- A call that finds its key in use reads a row. -/
theorem Bound.skip (h : Bound s) {caller : Nat} {c : Call u}
    (hfresh : caller ∉ s.sessions.map Session.caller)
    (hkey : ∃ r ∈ s.rows, r.key = c.key) :
    Bound { s with sessions := s.sessions ++ [⟨caller, c, .skipped⟩] } := by
  have hmem : ∀ x ∈ s.sessions ++ [(⟨caller, c, .skipped⟩ : Session u)], ∀ new ∈ x.inserts,
      x ∈ s.sessions := by
    intro x hx new hnew
    rcases List.mem_append.1 hx with hx | hx
    · exact hx
    · rw [List.mem_singleton.1 hx] at hnew
      cases hnew
  exact {
    keys := h.keys
    ids := h.ids
    callers := by
      rw [List.map_append]
      exact List.nodup_append.2 ⟨h.callers, List.nodup_singleton _, by
        rintro a ha b hb rfl
        rw [List.mem_singleton.1 hb] at ha
        exact hfresh ha⟩
    free := fun x hx new hnew => h.free x (hmem x hx new hnew) new hnew
    apart := fun x hx y hy new hnew new' hnew' =>
      h.apart x (hmem x hx new hnew) y (hmem y hy new' hnew') new hnew new' hnew'
    created := h.created
    creators := h.creators
    skipped := fun x hx hskip => by
      rcases List.mem_append.1 hx with hx | hx
      · exact h.skipped x hx hskip
      · rw [List.mem_singleton.1 hx]
        exact hkey
    answers := h.answers }

/-- A call inserts a row under a key, and with an id, that nobody else has. -/
theorem Bound.insertRow (h : Bound s) {caller : Nat} {c : Call u} {id : Uuid}
    (hfresh : caller ∉ s.sessions.map Session.caller)
    (hrows : ∀ r ∈ s.rows, r.key ≠ c.key ∧ r.id ≠ id)
    (hflight : ∀ x ∈ s.sessions, ∀ new ∈ x.inserts, new.key ≠ c.key ∧ new.id ≠ id) :
    Bound { s with sessions := s.sessions ++ [⟨caller, c, .inserted id⟩] } := by
  -- One session is new, and it holds the only insert of this key: what concerns two sessions
  -- is split by which of them is the new one.
  have hcases : ∀ x ∈ s.sessions ++ [(⟨caller, c, .inserted id⟩ : Session u)],
      x ∈ s.sessions ∨ x = ⟨caller, c, .inserted id⟩ := fun x hx =>
    (List.mem_append.1 hx).imp_right List.mem_singleton.1
  exact {
    keys := h.keys
    ids := h.ids
    callers := by
      rw [List.map_append]
      exact List.nodup_append.2 ⟨h.callers, List.nodup_singleton _, by
        rintro a ha b hb rfl
        rw [List.mem_singleton.1 hb] at ha
        exact hfresh ha⟩
    free := fun x hx new hnew => by
      rcases hcases x hx with hx | rfl
      · exact h.free x hx new hnew
      · obtain rfl := Option.some.inj hnew
        exact hrows
    apart := fun x hx y hy new hnew new' hnew' hclash => by
      rcases hcases x hx with hx | rfl
      · rcases hcases y hy with hy | rfl
        · exact h.apart x hx y hy new hnew new' hnew' hclash
        · obtain rfl := Option.some.inj hnew'
          have hne := hflight x hx new hnew
          exact absurd hclash (not_or_intro hne.1 hne.2)
      · rcases hcases y hy with hy | rfl
        · obtain rfl := Option.some.inj hnew
          have hne := hflight y hy new' hnew'
          exact absurd hclash (not_or_intro (Ne.symm hne.1) (Ne.symm hne.2))
        · rfl
    created := h.created
    creators := h.creators
    skipped := fun x hx hskip => by
      rcases hcases x hx with hx | rfl
      · exact h.skipped x hx hskip
      · cases hskip
    answers := h.answers }

/-- Two open transactions of one caller are one. -/
theorem Bound.session_eq (h : Bound s) {x y : Session u} (hx : x ∈ s.sessions)
    (hy : y ∈ s.sessions) (hcaller : x.caller = y.caller) : x = y :=
  eq_of_nodup_key h.callers hx hy hcaller

/-- A transaction that commits its row binds the key to it. -/
theorem Bound.commit (h : Bound s) {x : Session u} (hx : x ∈ s.sessions) {id : Uuid}
    (hid : x.progress = .inserted id) :
    Bound { rows := s.rows ++ [x.call.row id]
            creators := s.creators ++ [(id, x.call)]
            sessions := s.close x.caller
            answers := s.answers ++ [(x.call, .row id true)] } := by
  have hnew : x.call.row id ∈ x.inserts := by
    unfold Session.inserts
    rw [hid]
    rfl
  have hfree := h.free x hx _ hnew
  have hclosed := h.close x.caller
  -- the transactions that stay open are of other callers
  have hother : ∀ y ∈ s.close x.caller, y ∈ s.sessions ∧ y.caller ≠ x.caller := by
    intro y hy
    obtain ⟨hy, hne⟩ := List.mem_filter.1 hy
    exact ⟨hy, bne_iff_ne.1 hne⟩
  have hdecides : Decides (x.call.row id) x.call (.row id true) :=
    ⟨rfl, (if_pos rfl).mpr ⟨true, rfl⟩⟩
  have hkept : ∀ {P : PublicRequest → Prop}, (∃ r ∈ s.rows, P r) →
      ∃ r ∈ s.rows ++ [x.call.row id], P r := by
    rintro P ⟨r, hr, hP⟩
    exact ⟨r, List.mem_append_left _ hr, hP⟩
  have hlast : x.call.row id ∈ s.rows ++ [x.call.row id] :=
    List.mem_append_right _ (List.mem_singleton.2 rfl)
  exact {
    keys := by
      rw [List.map_append]
      exact List.nodup_append.2 ⟨h.keys, List.nodup_singleton _, by
        intro a ha b hb hab
        obtain ⟨r, hr, rfl⟩ := List.mem_map.1 ha
        exact (hfree r hr).1 (hab.trans (List.mem_singleton.1 hb))⟩
    ids := by
      rw [List.map_append]
      exact List.nodup_append.2 ⟨h.ids, List.nodup_singleton _, by
        intro a ha b hb hab
        obtain ⟨r, hr, rfl⟩ := List.mem_map.1 ha
        exact (hfree r hr).2 (hab.trans (List.mem_singleton.1 hb))⟩
    callers := hclosed.callers
    free := fun y hy new hynew r hr => by
      obtain ⟨hyin, hne⟩ := hother y hy
      rcases List.mem_append.1 hr with hr | hr
      · exact h.free y hyin new hynew r hr
      · rw [List.mem_singleton.1 hr]
        have hapart := h.apart x hx y hyin _ hnew new hynew
        exact ⟨fun hkey => hne (hapart (.inl hkey)).symm, fun hid => hne (hapart (.inr hid)).symm⟩
    apart := hclosed.apart
    created := fun r hr => by
      rcases List.mem_append.1 hr with hr | hr
      · obtain ⟨c, hc⟩ := h.created r hr
        exact ⟨c, List.mem_append_left _ hc⟩
      · rw [List.mem_singleton.1 hr]
        exact ⟨x.call, List.mem_append_right _ (List.mem_singleton.2 rfl)⟩
    creators := fun p hp => by
      rcases List.mem_append.1 hp with hp | hp
      · exact hkept (h.creators p hp)
      · rw [List.mem_singleton.1 hp]
        exact ⟨_, hlast, rfl, rfl, rfl⟩
    skipped := fun y hy hskip => hkept (hclosed.skipped y hy hskip)
    answers := fun p hp => by
      rcases List.mem_append.1 hp with hp | hp
      · exact hkept (h.answers p hp)
      · rw [List.mem_singleton.1 hp]
        exact ⟨_, hlast, hdecides⟩ }

/-- The last statement of an open transaction. -/
theorem Bound.finish (h : Bound s) {x : Session u} (hx : x ∈ s.sessions) :
    Bound (s.finish x) := by
  unfold Requests.finish
  cases hprogress : x.progress with
  | inserted id => exact h.commit hx hprogress
  | skipped =>
      obtain ⟨r, hr, hkey⟩ := h.skipped x hx hprogress
      have hfind : s.rows.find? (fun r => r.key == x.call.key) = some r :=
        find?_eq_some_of_unique hr (beq_iff_eq.2 hkey) fun r' hr' hkey' =>
          eq_of_nodup_key h.keys hr' hr ((beq_iff_eq.1 hkey').trans hkey.symm)
      exact (h.close x.caller).answer hr (decides_selected hfind)

/-- The first statement of a call. -/
theorem Bound.insert (h : Bound s) {caller : Nat} {c : Call u} {id : Uuid}
    (hfresh : caller ∉ s.sessions.map Session.caller) (hs : s.insert caller c id = some s') :
    Bound s' := by
  unfold Requests.insert at hs
  rw [c.valueError_eq_none] at hs
  dsimp only at hs
  split at hs
  · cases hs
  next hwait =>
  split at hs
  · next hused =>
      obtain rfl := Option.some.inj hs
      obtain ⟨r, hr, hkey⟩ := List.any_eq_true.1 hused
      exact h.skip hfresh ⟨r, hr, beq_iff_eq.1 hkey⟩
  next hunused =>
  split at hs
  · cases hs
  next hid =>
  obtain rfl := Option.some.inj hs
  rw [Bool.or_eq_true, not_or] at hid
  refine h.insertRow hfresh (fun r hr => ⟨fun hkey => ?_, fun hsame => ?_⟩)
    (fun x hx new hnew => ⟨fun hkey => ?_, fun hsame => ?_⟩)
  · exact hunused (List.any_eq_true.2 ⟨r, hr, beq_iff_eq.2 hkey⟩)
  · exact hid.1 (List.any_eq_true.2 ⟨r, hr, beq_iff_eq.2 hsame⟩)
  · exact hwait (List.any_eq_true.2 ⟨x, hx, (Option.any_eq_true _ _).2
      ⟨new, hnew, beq_iff_eq.2 hkey⟩⟩)
  · exact hid.2 (List.any_eq_true.2 ⟨x, hx, (Option.any_eq_true _ _).2
      ⟨new, hnew, beq_iff_eq.2 hsame⟩⟩)

theorem keeps_transition (t : Transition) (now : Timestamp) :
    Keeps (PublicRequest.transition t now) := by
  refine ⟨fun r => PublicRequest.transition_id, fun r => ?_, fun r => ?_⟩
  all_goals
    unfold PublicRequest.transition
    split <;> rfl

theorem keeps_link (acquisition : String) :
    Keeps fun r : PublicRequest => { r with acquisition := some acquisition } :=
  ⟨fun _ => rfl, fun _ => rfl, fun _ => rfl⟩

/-- **Every statement keeps it.** -/
theorem Bound.step (h : Bound s) {e : Statement u} (hs : s.step e = some s') : Bound s' := by
  cases e with
  | insert caller c id =>
      unfold Requests.step at hs
      dsimp only at hs
      split at hs
      · cases hs
      · next hfresh =>
          refine h.insert (fun hmem => hfresh ?_) hs
          obtain ⟨x, hx, hcaller⟩ := List.mem_map.1 hmem
          exact List.any_eq_true.2 ⟨x, hx, beq_iff_eq.2 hcaller⟩
  | proceed caller =>
      obtain ⟨x, hfind, rfl⟩ := Option.map_eq_some_iff.1 hs
      exact h.finish (List.mem_of_find?_eq_some hfind)
  | rollback caller =>
      obtain rfl := Option.some.inj hs
      exact h.close caller
  | transition p t now =>
      obtain rfl := Option.some.inj hs
      exact h.update (keeps_transition t now)
  | link t requestId tenantId code acquisition =>
      obtain ⟨rows, hlink, rfl⟩ := Option.map_eq_some_iff.1 hs
      unfold linkSummaryRequest at hlink
      dsimp only at hlink
      split at hlink
      · obtain rfl := Option.some.inj hlink
        exact h.update (keeps_link acquisition)
      · cases hlink

theorem bound_of_reachable (hs : Reachable step ({} : Requests u) s) : Bound s :=
  Reach.invariant bound_empty (fun _ _ _ h _ hstep => h.step hstep) hs

/-! ## §5. One row for a key. -/

/-- The call that made the row, and whether the body of another call is the
same decides the answer to it. -/
theorem Bound.answered (h : Bound s) {c : Call u} {a : Answer} (ha : (c, a) ∈ s.answers) :
    ∃ r ∈ s.rows, r.key = c.key ∧ ∃ creator, (r.id, creator) ∈ s.creators ∧
      creator.key = c.key ∧
      (¬Sha256.Collide c.body.dumps creator.body.dumps →
        if Json.same c.body creator.body then ∃ created, a = .row r.id created
        else a = .conflict) := by
  obtain ⟨r, hr, hkey, hdecides⟩ := h.answers (c, a) ha
  obtain ⟨creator, hcreator⟩ := h.created r hr
  obtain ⟨r', hr', hid, hkey', hprint⟩ := h.creators (r.id, creator) hcreator
  obtain rfl := eq_of_nodup_key h.ids hr' hr hid
  refine ⟨r', hr, hkey, creator, hcreator, hkey'.symm.trans hkey, fun hdigest => ?_⟩
  have hsame := fingerprint_eq_iff c.isPayload creator.isPayload hdigest
  have hiff : r'.requestFingerprint = c.fingerprint ↔ Json.same c.body creator.body = true := by
    rw [hprint, ← hsame]
    exact eq_comm
  by_cases hbody : Json.same c.body creator.body = true
  · rw [if_pos hbody]
    rwa [if_pos (hiff.2 hbody)] at hdecides
  · rw [if_neg hbody]
    rwa [if_neg fun hprint => hbody (hiff.1 hprint)] at hdecides

/-- An open call is answered by its next statement. -/
theorem Bound.can_finish (h : Bound s) {x : Session u} (hx : x ∈ s.sessions) :
    ∃ s' a, s.step (.proceed x.caller) = some s' ∧ (x.call, a) ∈ s'.answers := by
  have hfind : (s.sessions.find? fun y => y.caller == x.caller) = some x :=
    find?_eq_some_of_unique hx (beq_iff_eq.2 rfl) fun y hy hcaller =>
      h.session_eq hy hx (beq_iff_eq.1 hcaller)
  have hstep : s.step (.proceed x.caller) = some (s.finish x) :=
    congrArg (Option.map s.finish) hfind
  refine ⟨s.finish x, ?_⟩
  unfold Requests.finish at hstep ⊢
  cases hprogress : x.progress with
  | inserted id =>
      rw [hprogress] at hstep
      exact ⟨_, hstep, List.mem_append_right _ (List.mem_singleton.2 rfl)⟩
  | skipped =>
      rw [hprogress] at hstep
      exact ⟨_, hstep, List.mem_append_right _ (List.mem_singleton.2 rfl)⟩

end Requests

/-- A key is bound to one body, for one notion of equal bodies: the
fingerprints of two payloads are equal when the payloads are; and in every
reached state a key has at most one row, whose creator's body decides every
answer under the key, and every open call is answered by its next statement. -/
def KeysBind (u : Unicode) (equal : Json → Json → Bool) : Prop :=
  (∀ v w : Json, IsPayload u v = true → IsPayload u w = true →
    ¬Sha256.Collide v.dumps w.dumps →
    (requestFingerprint v = requestFingerprint w ↔ equal v w = true)) ∧
  ∀ s : Requests u, Reachable Requests.step {} s →
    (s.rows.map PublicRequest.key).Nodup ∧
    (∀ c a, (c, a) ∈ s.answers → ∃ r ∈ s.rows, r.key = c.key ∧
      ∃ creator, (r.id, creator) ∈ s.creators ∧ creator.key = c.key ∧
        (¬Sha256.Collide c.body.dumps creator.body.dumps →
          if equal c.body creator.body then ∃ created, a = .row r.id created
          else a = .conflict)) ∧
    ∀ x ∈ s.sessions, ∃ s' a,
      s.step (.proceed x.caller) = some s' ∧ (x.call, a) ∈ s'.answers

/-- **A key is bound to one body**, where the two zeros differ. -/
theorem idempotencyKeys_bind (u : Unicode) : KeysBind u Json.same := by
  refine ⟨fun v w hv hw hdigest => fingerprint_eq_iff hv hw hdigest, fun s hs => ?_⟩
  have hbound := Requests.bound_of_reachable hs
  exact ⟨hbound.keys, fun c a ha => hbound.answered ha, fun x hx => hbound.can_finish hx⟩

end Calls

/-- A body with a zero in it. -/
def zeroBody (neg : Bool) : Json :=
  normalizedBody [("x", .float ⟨neg, 0, 0, by decide⟩)] "0000001-01.2024.8.26.0001" "jsx"

/-- **The two zeros are equal floats and have two texts.** -/
theorem not_keysBind_equal : ¬∀ u : Unicode, KeysBind u Json.equal := by
  intro h
  have hdiffer : requestFingerprint (zeroBody false) ≠ requestFingerprint (zeroBody true) := by
    decide +kernel
  exact hdiffer (((h .ascii).1 (zeroBody false) (zeroBody true) (by decide +kernel)
    (by decide +kernel) fun hcollide => hdiffer hcollide.2).2 (by decide +kernel))

end Rpy.Lifecycle

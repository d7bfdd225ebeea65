/-
  Rpy.Inbound.BodyLimit
  ─────────────────────
  **THE LIMIT ON THE BODY OF A REQUEST** (`app/http_limits.py`).

  The middleware stands between the server and the application.  The headers
  of a request are screened first; then the application runs, and what it
  receives is counted.  An application is whatever takes one step after
  another: it receives, sends, returns or raises.

    • `Message`, `Scope`     — what the server hands over,
    • `App`, `Transcript`    — the application, and what passed between it and
                               the server,
    • `App.exchange`         — its steps,
    • `Middleware.screen`    — the checks of the headers,
    • `Middleware.call`      — `InboundPostBodyLimitMiddleware.__call__`,
    • `bodyLimit_exact`      — what the application receives of a `POST`.
-/
import Rpy.Foundation.Numerals

namespace Rpy.Inbound

open Rpy.Foundation

/-- `bytes` -/
abbrev Bytes := List UInt8

/-! ## §1. The server. -/

/-- A message of the server. -/
inductive Message where
  /-- `http.request`; `body` may be missing -/
  | request (body : Option Bytes) (moreBody : Bool)
  | other (type : String)
deriving Repr, DecidableEq

/-- The bytes of the body a message brings. -/
def Message.body : Message → Bytes
  | .request body _ => body.getD []
  | .other _ => []

/-- What the middleware reads of a scope. -/
structure Scope where
  type : String
  method : Option String := none
  headers : List (Bytes × Bytes) := []
deriving Repr, DecidableEq

/-! ## §2. The application. -/

/-- An exception that leaves the application. -/
inductive Exn where
  /-- `_RequestBodyTooLarge` -/
  | bodyTooLarge
  | other (name : String)
deriving Repr, DecidableEq

/-- What an application does next; `receive` goes on with the message, or with
the exception raised in its place. -/
inductive Action (σ ε : Type*) where
  | receive (next : Except Exn Message → σ)
  | send (event : ε) (next : σ)
  | finish
  | fail (e : Exn)

/-- An application with its states and the events it sends. -/
structure App (σ ε : Type*) where
  start : Scope → σ
  step : σ → Action σ ε

/-- An event that reaches the server. -/
inductive Event (ε : Type*) where
  /-- `JSONResponse({"detail": detail}, status_code=status)` -/
  | json (status : Nat) (detail : String)
  | own (event : ε)
deriving Repr, DecidableEq

/-- How far a call has come. -/
inductive Ending where
  | running
  /-- the server has no message yet -/
  | waiting
  | returned
  | raised (e : Exn)
deriving Repr, DecidableEq

/-- What passed between the server and the application. -/
structure Transcript (ε : Type*) where
  /-- was the application called? -/
  called : Bool
  /-- the messages it received, in order -/
  delivered : List Message := []
  /-- the events that were sent, in order -/
  sent : List (Event ε) := []
  ending : Ending
deriving Repr, DecidableEq

variable {σ ε : Type*}

/-- The bytes the application received. -/
def Transcript.received (t : Transcript ε) : Bytes := t.delivered.flatMap Message.body

/-- `limited_receive`, and `receive` where there is no limit; `counted` is
`received`. -/
def limitedReceive (limit : Option Nat) (counted : Nat) (m : Message) :
    Nat × Except Exn Message :=
  match limit, m with
  | some limit, .request body more =>
      let counted := counted + (body.getD []).length
      (counted, if limit < counted then .error .bodyTooLarge else .ok (.request body more))
  | _, m => (counted, .ok m)

/-- At most so many steps of an application from a state, with the messages
the server still has. -/
def App.exchange (app : App σ ε) (limit : Option Nat) : Nat → Nat → σ → List Message →
    Transcript ε
  | 0, _, _, _ => { called := true, ending := .running }
  | steps + 1, counted, s, queue =>
      match app.step s with
      | .finish => { called := true, ending := .returned }
      | .fail e => { called := true, ending := .raised e }
      | .send event s =>
          let t := app.exchange limit steps counted s queue
          { t with sent := .own event :: t.sent }
      | .receive next =>
          match queue with
          | [] => { called := true, ending := .waiting }
          | m :: queue =>
              match limitedReceive limit counted m with
              | (counted, .error e) => app.exchange limit steps counted (next (.error e)) queue
              | (counted, .ok m) =>
                  let t := app.exchange limit steps counted (next (.ok m)) queue
                  { t with delivered := m :: t.delivered }

/-- The application by itself: `await self.app(scope, receive, send)`. -/
def App.run (app : App σ ε) (scope : Scope) (steps : Nat) (queue : List Message) :
    Transcript ε :=
  app.exchange none steps 0 (app.start scope) queue

/-! ## §3. The middleware. -/

/-- `InboundPostBodyLimitMiddleware`, whose limit is greater than zero. -/
structure Middleware where
  limit : Nat
  limit_pos : 0 < limit

/-- `bytes.lower` -/
def lower (bs : Bytes) : Bytes := bs.map fun c => if 65 ≤ c ∧ c ≤ 90 then c + 32 else c

/-- `text.encode("ascii")` -/
def ascii (cs : List Char) : Bytes := cs.map fun c => UInt8.ofNat c.toNat

/-- `content_length_values` -/
def Scope.contentLengthValues (scope : Scope) : List Bytes :=
  (scope.headers.filter fun h => lower h.1 == ascii "content-length".toList).map Prod.snd

/-- `transfer_encoding_present` -/
def Scope.transferEncodingPresent (scope : Scope) : Bool :=
  scope.headers.any fun h => lower h.1 == ascii "transfer-encoding".toList

/-- A digit of ASCII. -/
def isDigit (c : UInt8) : Bool := 48 ≤ c && c ≤ 57

/-- `bytes.isdigit` -/
def allDigits (bs : Bytes) : Bool := !bs.isEmpty && bs.all isDigit

/-- `raw_content_length.lstrip(b"0") or b"0"` -/
def normalizedLength (raw : Bytes) : Bytes :=
  let rest := raw.dropWhile (· == 48)
  if rest.isEmpty then [48] else rest

/-- `str(self.limit).encode("ascii")` -/
def Middleware.limitBytes (m : Middleware) : Bytes := ascii (Nat.toDigits 10 m.limit)

/-- `method == "POST"`; `upper` is `str.upper`. -/
def Scope.isPost (upper : String → String) (scope : Scope) : Bool :=
  upper (scope.method.getD "") == "POST"

/-- A response that the middleware gives by itself. -/
structure Rejection where
  status : Nat
  detail : String
deriving Repr, DecidableEq

def ambiguousFraming : Rejection := ⟨400, "ambiguous request framing"⟩

def invalidContentLength : Rejection := ⟨400, "invalid content-length"⟩

def bodyTooLarge : Rejection := ⟨413, "request body too large"⟩

/-- The checks of the headers, before the application is called. -/
def Middleware.screen (m : Middleware) (upper : String → String) (scope : Scope) :
    Option Rejection :=
  match scope.contentLengthValues with
  | [] => none
  | [raw] =>
      if scope.transferEncodingPresent then some ambiguousFraming
      else if !allDigits raw then some invalidContentLength
      else if scope.isPost upper && exceeds (normalizedLength raw) m.limitBytes then
        some bodyTooLarge
      else none
  | _ => some ambiguousFraming

/-- The response to a rejected request. -/
def Rejection.transcript (r : Rejection) : Transcript ε where
  called := false
  sent := [.json r.status r.detail]
  ending := .returned

/-- The answer to what the body raised, and nothing to another ending. -/
def Transcript.answered (t : Transcript ε) : Transcript ε :=
  if t.ending = .raised .bodyTooLarge then
    { t with
      sent := t.sent ++ [.json bodyTooLarge.status bodyTooLarge.detail]
      ending := .returned }
  else t

/-- `InboundPostBodyLimitMiddleware.__call__` -/
def Middleware.call (m : Middleware) (upper : String → String) (app : App σ ε) (scope : Scope)
    (steps : Nat) (queue : List Message) : Transcript ε :=
  if scope.type ≠ "http" then app.run scope steps queue
  else
    match m.screen upper scope with
    | some r => r.transcript
    | none =>
        if !scope.isPost upper then app.run scope steps queue
        else (app.exchange (some m.limit) steps 0 (app.start scope) queue).answered

/-! ## §4. The declared length. -/

/-- The digit a byte is. -/
def digitOf (c : UInt8) : Nat := c.toNat - 48

/-- The number a `Content-Length` of digits says. -/
def contentLength (raw : Bytes) : Nat := numeral 10 (raw.map digitOf)

theorem isDigit_iff (c : UInt8) : isDigit c = true ↔ 48 ≤ c.toNat ∧ c.toNat ≤ 57 := by
  unfold isDigit
  rw [Bool.and_eq_true, decide_eq_true_eq, decide_eq_true_eq, UInt8.le_iff_toNat_le,
    UInt8.le_iff_toNat_le]
  rfl

theorem digitOf_lt {bs : Bytes} (h : ∀ c ∈ bs, isDigit c = true) :
    ∀ d ∈ bs.map digitOf, d < 10 := by
  intro d hd
  obtain ⟨c, hc, rfl⟩ := List.mem_map.1 hd
  have hdigit := (isDigit_iff c).1 (h c hc)
  unfold digitOf
  omega

/-- Digits are ordered as their bytes are. -/
theorem digitOf_order {a c : UInt8} (ha : isDigit a = true) (hc : isDigit c = true) :
    (digitOf a < digitOf c ↔ a < c) ∧ (digitOf a = digitOf c ↔ a = c) := by
  have ha' := (isDigit_iff a).1 ha
  have hc' := (isDigit_iff c).1 hc
  unfold digitOf
  rw [UInt8.lt_iff_toNat_lt, ← UInt8.toNat_inj]
  constructor <;> constructor <;> omega

theorem exceeds_map {xs ys : Bytes} (hxs : ∀ c ∈ xs, isDigit c = true)
    (hys : ∀ c ∈ ys, isDigit c = true) :
    exceeds (xs.map digitOf) (ys.map digitOf) = exceeds xs ys := by
  have horder : ys.map digitOf < xs.map digitOf ↔ ys < xs :=
    map_lt_map_iff fun c hc a ha => digitOf_order (hys c hc) (hxs a ha)
  unfold exceeds
  rw [List.length_map, List.length_map, decide_eq_decide.2 horder]

theorem normalizedLength_digits {raw : Bytes} (h : ∀ c ∈ raw, isDigit c = true) :
    ∀ c ∈ normalizedLength raw, isDigit c = true := by
  intro c hc
  unfold normalizedLength at hc
  simp only at hc
  split at hc
  · rw [List.mem_singleton.1 hc]
    rfl
  · exact h c ((List.dropWhile_sublist _).subset hc)

/-- Stripping the zeros leaves the number as it is, without leading zeros. -/
theorem normalizedLength_spec {raw : Bytes} (h : ∀ c ∈ raw, isDigit c = true) :
    contentLength (normalizedLength raw) = contentLength raw ∧
      Trimmed ((normalizedLength raw).map digitOf) := by
  induction raw with
  | nil => exact ⟨rfl, .inl rfl⟩
  | cons c raw ih =>
      obtain ⟨hc, hraw⟩ := List.forall_mem_cons.1 h
      by_cases hzero : c = 48
      · subst hzero
        have hsame : normalizedLength (48 :: raw) = normalizedLength raw := rfl
        have hvalue : contentLength (48 :: raw) = contentLength raw := by
          unfold contentLength
          rw [List.map_cons, numeral_cons]
          show 0 * _ + _ = _
          rw [Nat.zero_mul, Nat.zero_add]
        rw [hsame, hvalue]
        exact ih hraw
      · have hkeep : normalizedLength (c :: raw) = c :: raw := by
          unfold normalizedLength
          rw [List.dropWhile_cons_of_neg (by simpa using hzero)]
          rfl
        rw [hkeep]
        refine ⟨rfl, .inr ⟨digitOf c, raw.map digitOf, rfl, ?_⟩⟩
        intro hdigit
        apply hzero
        rw [← UInt8.toNat_inj]
        have hrange := (isDigit_iff c).1 hc
        unfold digitOf at hdigit
        show c.toNat = 48
        omega

/-- A digit that is written becomes the byte of its code. -/
theorem toNat_digit {n : Nat} {x : Char} (hx : x ∈ Nat.toDigits 10 n) :
    (UInt8.ofNat x.toNat).toNat = x.toNat ∧ 48 ≤ x.toNat ∧ x.toNat ≤ 57 := by
  have hdigit : x.isDigit = true := Nat.isDigit_of_mem_toDigits (by decide) (by decide) hx
  rw [Char.isDigit, Bool.and_eq_true, decide_eq_true_eq, decide_eq_true_eq] at hdigit
  have hlow : 48 ≤ x.toNat := UInt32.le_iff_toNat_le.1 hdigit.1
  have hhigh : x.toNat ≤ 57 := UInt32.le_iff_toNat_le.1 hdigit.2
  refine ⟨?_, hlow, hhigh⟩
  rw [UInt8.toNat_ofNat']
  omega

theorem limitBytes_digits (m : Middleware) : ∀ c ∈ m.limitBytes, isDigit c = true := by
  intro c hc
  obtain ⟨x, hx, rfl⟩ := List.mem_map.1 hc
  obtain ⟨hcode, hlow, hhigh⟩ := toNat_digit hx
  rw [isDigit_iff, hcode]
  exact ⟨hlow, hhigh⟩

theorem limitBytes_digitOf (m : Middleware) : m.limitBytes.map digitOf =
    (Nat.toDigits 10 m.limit).map fun c => c.toNat - '0'.toNat := by
  unfold Middleware.limitBytes ascii
  rw [List.map_map]
  apply List.map_congr_left
  intro x hx
  show (UInt8.ofNat x.toNat).toNat - 48 = x.toNat - 48
  rw [(toNat_digit hx).1]

/-- **The bytes exceed those of the limit exactly when the number does.** -/
theorem exceeds_limitBytes (m : Middleware) {raw : Bytes} (h : ∀ c ∈ raw, isDigit c = true) :
    exceeds (normalizedLength raw) m.limitBytes = true ↔ m.limit < contentLength raw := by
  obtain ⟨hvalue, htrimmed⟩ := normalizedLength_spec h
  have hdigits := normalizedLength_digits h
  have hlimit : numeral 10 (m.limitBytes.map digitOf) = m.limit := by
    rw [limitBytes_digitOf, numeral_toDigits]
  have htrimmed' : Trimmed (m.limitBytes.map digitOf) := by
    rw [limitBytes_digitOf]
    exact trimmed_toDigits m.limit
  rw [← exceeds_map hdigits (limitBytes_digits m),
    exceeds_iff (digitOf_lt hdigits) (digitOf_lt (limitBytes_digits m)) htrimmed htrimmed', hlimit]
  show m.limit < contentLength (normalizedLength raw) ↔ _
  rw [hvalue]

/-! ## §5. What is counted. -/

section Exchange

variable (app : App σ ε)

theorem exchange_called (limit : Option Nat) (steps : Nat) : ∀ (counted : Nat) (s : σ)
    (queue : List Message), (app.exchange limit steps counted s queue).called = true := by
  induction steps with
  | zero =>
      intro counted s queue
      rfl
  | succ steps ih =>
      intro counted s queue
      rw [App.exchange]
      cases app.step s with
      | finish => rfl
      | fail e => rfl
      | send event s' => exact ih counted s' queue
      | receive next =>
          cases queue with
          | nil => rfl
          | cons m queue =>
              cases hanswer : limitedReceive limit counted m with
              | mk counted' answer =>
                  simp only [hanswer]
                  cases answer with
                  | error e => exact ih counted' (next (.error e)) queue
                  | ok m' => exact ih counted' (next (.ok m')) queue

/-- **The application receives no more than the limit leaves.**  What it does
with an exception is its own affair: the count is not taken back. -/
theorem exchange_received_le (limit steps : Nat) : ∀ (counted : Nat) (s : σ)
    (queue : List Message),
      (app.exchange (some limit) steps counted s queue).received.length ≤ limit - counted := by
  induction steps with
  | zero =>
      intro counted s queue
      exact Nat.zero_le _
  | succ steps ih =>
      intro counted s queue
      rw [App.exchange]
      cases app.step s with
      | finish => exact Nat.zero_le _
      | fail e => exact Nat.zero_le _
      | send event s' => exact ih counted s' queue
      | receive next =>
          cases queue with
          | nil => exact Nat.zero_le _
          | cons m queue =>
              cases m with
              | other type => exact ih counted _ queue
              | request body more =>
                  simp only [limitedReceive]
                  by_cases hlarge : limit < counted + (body.getD []).length
                  · rw [if_pos hlarge]
                    have hrest := ih (counted + (body.getD []).length)
                      (next (.error .bodyTooLarge)) queue
                    exact Nat.le_trans hrest (by omega)
                  · rw [if_neg hlarge]
                    have hrest := ih (counted + (body.getD []).length)
                      (next (.ok (.request body more))) queue
                    show ((body.getD []) ++ Transcript.received _).length ≤ _
                    rw [List.length_append]
                    omega

/-- **A body within the limit is received as if there were none.** -/
theorem exchange_within (limit steps : Nat) : ∀ (counted n : Nat) (s : σ)
    (queue : List Message), counted + (queue.flatMap Message.body).length ≤ limit →
      app.exchange (some limit) steps counted s queue = app.exchange none steps n s queue := by
  induction steps with
  | zero =>
      intro counted n s queue _
      rfl
  | succ steps ih =>
      intro counted n s queue hwithin
      rw [App.exchange, App.exchange]
      cases app.step s with
      | finish => rfl
      | fail e => rfl
      | send event s' => simp only [ih counted n s' queue hwithin]
      | receive next =>
          cases queue with
          | nil => rfl
          | cons m queue =>
              rw [List.flatMap_cons, List.length_append] at hwithin
              cases m with
              | other type =>
                  have hrest : counted + (queue.flatMap Message.body).length ≤ limit := by omega
                  simp only [limitedReceive, ih counted n _ queue hrest]
              | request body more =>
                  change counted + ((body.getD []).length + _) ≤ limit at hwithin
                  have hsmall : ¬ limit < counted + (body.getD []).length := by omega
                  simp only [limitedReceive, if_neg hsmall]
                  rw [ih _ n _ queue (by omega)]

/-- What is received is what the server has, from its start on. -/
theorem exchange_prefix (steps : Nat) : ∀ (counted : Nat) (s : σ) (queue : List Message),
    (app.exchange none steps counted s queue).delivered <+: queue := by
  induction steps with
  | zero =>
      intro counted s queue
      exact List.nil_prefix
  | succ steps ih =>
      intro counted s queue
      rw [App.exchange]
      cases app.step s with
      | finish => exact List.nil_prefix
      | fail e => exact List.nil_prefix
      | send event s' => exact ih counted s' queue
      | receive next =>
          cases queue with
          | nil => exact List.nil_prefix
          | cons m queue => exact (List.prefix_cons_inj m).2 (ih counted (next (.ok m)) queue)

end Exchange

theorem answered_delivered (t : Transcript ε) : t.answered.delivered = t.delivered := by
  unfold Transcript.answered
  split <;> rfl

theorem answered_called (t : Transcript ε) : t.answered.called = t.called := by
  unfold Transcript.answered
  split <;> rfl

/-! ## §6. A `POST` request. -/

/-- The headers say at most once how long the body is, in digits, and not in
another way beside. -/
def Scope.Unambiguous (scope : Scope) : Prop :=
  scope.contentLengthValues = [] ∨
    ∃ raw, scope.contentLengthValues = [raw] ∧ scope.transferEncodingPresent = false ∧
      allDigits raw = true

section Post

variable {upper : String → String} {scope : Scope} (hhttp : scope.type = "http")
  (hpost : scope.isPost upper = true)

include hpost

theorem screen_single {m : Middleware} {raw : Bytes}
    (hvalues : scope.contentLengthValues = [raw])
    (hencoding : scope.transferEncodingPresent = false) (hdigits : allDigits raw = true) :
    m.screen upper scope = if m.limit < contentLength raw then some bodyTooLarge else none := by
  have hall : ∀ c ∈ raw, isDigit c = true := by
    unfold allDigits at hdigits
    exact List.all_eq_true.1 (Bool.and_eq_true_iff.1 hdigits).2
  unfold Middleware.screen
  rw [hvalues]
  simp only [hencoding, hdigits, hpost, Bool.false_eq_true, Bool.not_true, if_false, Bool.true_and,
    exceeds_limitBytes m hall]

include hhttp

theorem call_eq (m : Middleware) (app : App σ ε) (steps : Nat) (queue : List Message) :
    m.call upper app scope steps queue =
      match m.screen upper scope with
      | some r => r.transcript
      | none => (app.exchange (some m.limit) steps 0 (app.start scope) queue).answered := by
  unfold Middleware.call
  rw [if_neg (not_not.2 hhttp)]
  cases m.screen upper scope with
  | some r => rfl
  | none => simp only [hpost, Bool.not_true, Bool.false_eq_true, if_false]

end Post

/-- **The limit is exact.**  Of a `POST` the application receives at most the
limit; a single length of digits is rejected before the application is called
exactly when the number is greater than the limit; and where nothing is
greater, the application receives what it receives by itself. -/
theorem bodyLimit_exact (m : Middleware) (upper : String → String) (app : App σ ε)
    {scope : Scope} (hhttp : scope.type = "http") (hpost : scope.isPost upper = true)
    (steps : Nat) (queue : List Message) :
    (m.call upper app scope steps queue).received.length ≤ m.limit ∧
    (∀ raw, scope.contentLengthValues = [raw] → scope.transferEncodingPresent = false →
      allDigits raw = true →
        (m.call upper app scope steps queue = bodyTooLarge.transcript ↔
          m.limit < contentLength raw)) ∧
    (scope.Unambiguous → (∀ raw ∈ scope.contentLengthValues, contentLength raw ≤ m.limit) →
      (queue.flatMap Message.body).length ≤ m.limit →
        (m.call upper app scope steps queue).called = true ∧
        (m.call upper app scope steps queue).delivered = (app.run scope steps queue).delivered ∧
        (app.run scope steps queue).delivered <+: queue) := by
  rw [call_eq hhttp hpost]
  refine ⟨?_, ?_, ?_⟩
  -- What is received stays within the limit.
  · cases m.screen upper scope with
    | some r => exact Nat.zero_le _
    | none =>
        unfold Transcript.received
        rw [answered_delivered]
        exact exchange_received_le app m.limit steps 0 (app.start scope) queue
  -- One plain `Content-Length` decides alone: the answer is 413 if and only if it is too
  -- large.
  · intro raw hvalues hencoding hdigits
    rw [screen_single hpost hvalues hencoding hdigits]
    by_cases hlarge : m.limit < contentLength raw
    · rw [if_pos hlarge]
      exact iff_of_true rfl hlarge
    · rw [if_neg hlarge]
      refine iff_of_false ?_ hlarge
      intro hsame
      -- The application was called here, and never is behind a 413.
      have hcalled := congrArg Transcript.called hsame
      rw [answered_called, exchange_called] at hcalled
      cases hcalled
  -- A body within the limit reaches the application as it is.
  · intro hframing hdeclared hbody
    have hscreen : m.screen upper scope = none := by
      rcases hframing with hnone | ⟨raw, hvalues, hencoding, hdigits⟩
      · unfold Middleware.screen
        rw [hnone]
      · have hsmall : contentLength raw ≤ m.limit :=
          hdeclared raw (hvalues ▸ List.mem_singleton_self raw)
        rw [screen_single hpost hvalues hencoding hdigits, if_neg (Nat.not_lt.2 hsmall)]
    have hwithin : 0 + (queue.flatMap Message.body).length ≤ m.limit := by omega
    rw [hscreen]
    simp only [answered_called, answered_delivered, exchange_called,
      exchange_within app m.limit steps 0 0 (app.start scope) queue hwithin]
    exact ⟨trivial, rfl, exchange_prefix app steps 0 (app.start scope) queue⟩

/-- An application that receives once. -/
def receivesOnce : App Bool Unit where
  start := fun _ => true
  step := fun waiting => if waiting then .receive fun _ => false else .finish

/-- A `POST` whose length has leading zeros. -/
def paddedPost : Scope where
  type := "http"
  method := some "POST"
  headers := [(ascii "Content-Length".toList, ascii "0007".toList)]

/-- Seven bytes of ten go through. -/
theorem bodyLimit_exact_padded :
    ((Middleware.mk 10 (by decide)).call id receivesOnce paddedPost 2
        [.request (some (ascii "7 bytes".toList)) false]).received.length ≤ 10 ∧
    ((Middleware.mk 10 (by decide)).call id receivesOnce paddedPost 2
        [.request (some (ascii "7 bytes".toList)) false] = bodyTooLarge.transcript ↔
      10 < contentLength (ascii "0007".toList)) ∧
    ((Middleware.mk 10 (by decide)).call id receivesOnce paddedPost 2
        [.request (some (ascii "7 bytes".toList)) false]).delivered =
      (receivesOnce.run paddedPost 2
        [.request (some (ascii "7 bytes".toList)) false]).delivered := by
  obtain ⟨hbound, hdeclared, hbody⟩ := bodyLimit_exact (Middleware.mk 10 (by decide)) id
    receivesOnce (show paddedPost.type = "http" by decide) (by decide) 2
    [.request (some (ascii "7 bytes".toList)) false]
  have hvalues : paddedPost.contentLengthValues = [ascii "0007".toList] := by decide
  refine ⟨hbound, hdeclared _ hvalues (by decide) (by decide), ?_⟩
  refine (hbody (.inr ⟨_, hvalues, by decide, by decide⟩) ?_ (by decide)).2.1
  intro raw hraw
  rw [hvalues] at hraw
  rw [List.mem_singleton.1 hraw]
  decide

end Rpy.Inbound

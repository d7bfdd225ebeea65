/-
  Rpy.Attachments.Protocol
  ────────────────────────
  **THE EXCHANGE WITH THE PARSER** (`app/attachment_sandbox.py`).

  The client gives either the chunks of a whole response or an
  `AttachmentProcessingError`, but for the errors of the socket after the
  connection is made: no `except` clause has an `OSError`, a body nested too
  deep for `json.loads`, or a clean-up that is waited for without end.

    • `Delivers`, `frameOf`  — the frame in a sequence of bytes,
    • `exchange_eq`          — an exchange is its first fault, or that frame,
    • `Answered`             — a whole response with chunks, and no fault,
    • `Harmless`             — what the peer must not do,
    • `sandbox_protocol_exact` — the result is exact if and only if the peer
                               is harmless.
-/
import Mathlib.Data.Nat.Digits.Defs
import Rpy.Attachments.Sandbox
import Rpy.Foundation.Raising

namespace Rpy.Attachments

open Rpy.Foundation

section Protocol

variable {u : Unicode}

/-! ## §1. The frame in a sequence of bytes. -/

/-- Do bytes begin with a frame with the body? -/
def Delivers (incoming body : List UInt8) : Prop :=
  ∃ header rest, incoming = header ++ (body ++ rest) ∧ header.length = 4 ∧
    unpackLength header = body.length ∧ 0 < body.length ∧ body.length ≤ maxFrameBytes

/-- Do bytes begin with the length of a frame? -/
def announces (incoming : List UInt8) : Bool :=
  4 ≤ incoming.length && 0 < unpackLength (incoming.take 4) &&
    unpackLength (incoming.take 4) ≤ maxFrameBytes

/-- The object in the frame bytes begin with. -/
def frameOf (u : Unicode) (incoming : List UInt8) : Except Exn Json :=
  if incoming.length < 4 then .error .incompleteRead
  else if !announces incoming then .error .value
  else if (incoming.drop 4).length < unpackLength (incoming.take 4) then .error .incompleteRead
  else decodeBody u ((incoming.drop 4).take (unpackLength (incoming.take 4)))

theorem take_drop_of_delivers {incoming body : List UInt8} (h : Delivers incoming body) :
    4 ≤ incoming.length ∧ unpackLength (incoming.take 4) = body.length ∧
      ∃ rest, incoming.drop 4 = body ++ rest := by
  obtain ⟨header, rest, hincoming, hlength, hsize, _⟩ := h
  refine ⟨?_, ?_, rest, ?_⟩
  · rw [hincoming, List.length_append]
    omega
  · rw [hincoming, ← hlength, List.take_left]
    exact hsize
  · rw [hincoming, ← hlength, List.drop_left]

theorem announces_of_delivers {incoming body : List UInt8} (h : Delivers incoming body) :
    announces incoming = true := by
  obtain ⟨hlong, hsize, _⟩ := take_drop_of_delivers h
  obtain ⟨_, _, _, _, _, hpos, hle⟩ := h
  unfold announces
  rw [hsize]
  simp only [Bool.and_eq_true, decide_eq_true_eq]
  exact ⟨⟨hlong, hpos⟩, hle⟩

theorem frameOf_of_delivers {incoming body : List UInt8} (h : Delivers incoming body) :
    frameOf u incoming = decodeBody u body := by
  obtain ⟨hlong, hsize, rest, hdrop⟩ := take_drop_of_delivers h
  unfold frameOf
  rw [if_neg (Nat.not_lt.2 hlong), announces_of_delivers h, if_neg (by decide), hsize, hdrop,
    if_neg (by rw [List.length_append]; omega), List.take_left]

/-- Bytes begin with a frame, or reading one fails. -/
theorem frameOf_cases (incoming : List UInt8) : (∃ body, Delivers incoming body) ∨
    (∀ body, ¬ Delivers incoming body) ∧
      (frameOf u incoming = .error .incompleteRead ∨ frameOf u incoming = .error .value) := by
  by_cases hlong : incoming.length < 4
  · refine .inr ⟨fun body hbody => ?_, .inl ?_⟩
    · exact absurd (take_drop_of_delivers hbody).1 (Nat.not_le.2 hlong)
    · unfold frameOf
      rw [if_pos hlong]
  by_cases hannounces : announces incoming = true
  · have hsizes := hannounces
    unfold announces at hsizes
    simp only [Bool.and_eq_true, decide_eq_true_eq] at hsizes
    by_cases hbody : (incoming.drop 4).length < unpackLength (incoming.take 4)
    · refine .inr ⟨fun body hdelivers => ?_, .inl ?_⟩
      · obtain ⟨_, hsize, rest, hdrop⟩ := take_drop_of_delivers hdelivers
        rw [hsize, hdrop, List.length_append] at hbody
        omega
      · unfold frameOf
        rw [if_neg hlong, hannounces, if_neg (by decide), if_pos hbody]
    · refine .inl ⟨(incoming.drop 4).take (unpackLength (incoming.take 4)), incoming.take 4,
        (incoming.drop 4).drop (unpackLength (incoming.take 4)), ?_, ?_, ?_, ?_, ?_⟩
      · rw [List.take_append_drop, List.take_append_drop]
      · exact List.length_take_of_le (by omega)
      · rw [List.length_take_of_le (by omega)]
      · rw [List.length_take_of_le (by omega)]
        exact hsizes.1.2
      · rw [List.length_take_of_le (by omega)]
        exact hsizes.2
  · refine .inr ⟨fun body hbody => hannounces (announces_of_delivers hbody), .inr ?_⟩
    · unfold frameOf
      rw [Bool.not_eq_true] at hannounces
      rw [if_neg hlong, hannounces, if_pos (by decide)]

theorem decodeBody_error {body : List UInt8} {e : Exn} (h : decodeBody u body = .error e) :
    e = .value ∨ e = .recursion := by
  unfold decodeBody at h
  split at h
  · exact .inl (Except.error.inj h).symm
  · split at h
    · exact .inl (Except.error.inj h).symm
    · exact .inr (Except.error.inj h).symm
    · split at h
      · cases h
      · exact .inl (Except.error.inj h).symm

/-! ## §2. An exchange, by its first fault. -/

/-- The first fault of reading a frame. -/
def Reading.fault (r : Reading) : Option Fault :=
  r.header <|> if announces r.incoming then r.body else none

theorem readExactly_of_le {n : Nat} {incoming : List UInt8} (h : n ≤ incoming.length) :
    readExactly none n incoming = .ok (incoming.take n, incoming.drop n) := by
  unfold readExactly perform
  exact if_pos h

theorem readExactly_of_lt {n : Nat} {incoming : List UInt8} (h : incoming.length < n) :
    readExactly none n incoming = .error (.raised .incompleteRead) := by
  unfold readExactly perform
  exact if_neg (Nat.not_le.2 h)

theorem readFrame_eq (r : Reading) : readFrame u r =
    match r.fault with
    | some fault => .error fault.stop
    | none => (frameOf u r.incoming).mapError .raised := by
  unfold readFrame Reading.fault
  cases hheader : r.header with
  | some fault => rfl
  | none =>
      show _ = match (if announces r.incoming then r.body else none) with
        | some fault => Except.error fault.stop
        | none => (frameOf u r.incoming).mapError Stop.raised
      -- Less than a header: `readexactly` raises, and the body is never asked for.
      by_cases hlong : r.incoming.length < 4
      · have hannounces : announces r.incoming = false := by
          unfold announces
          rw [decide_eq_false (by omega), Bool.false_and, Bool.false_and]
        rw [readExactly_of_lt hlong, hannounces]
        unfold frameOf
        rw [if_pos hlong]
        rfl
      · rw [readExactly_of_le (by omega)]
        show (if unpackLength (r.incoming.take 4) = 0 ∨
            maxFrameBytes < unpackLength (r.incoming.take 4) then _ else _) = _
        -- The two tests of the length that `_read_frame` makes.
        have hsizes : announces r.incoming = true ↔ ¬ (unpackLength (r.incoming.take 4) = 0 ∨
            maxFrameBytes < unpackLength (r.incoming.take 4)) := by
          unfold announces
          simp only [Bool.and_eq_true, decide_eq_true_eq]
          omega
        by_cases hannounces : announces r.incoming = true
        · rw [if_neg (hsizes.1 hannounces), if_pos hannounces]
          cases hbody : r.body with
          | some fault => rfl
          | none =>
              unfold frameOf
              rw [if_neg hlong, hannounces, if_neg (by decide)]
              -- The stream may end inside the body.
              by_cases hshort : (r.incoming.drop 4).length < unpackLength (r.incoming.take 4)
              · rw [readExactly_of_lt hshort, if_pos hshort]
                rfl
              · rw [readExactly_of_le (Nat.not_lt.1 hshort), if_neg hshort]
                rfl
        · rw [if_neg hannounces]
          rw [hsizes, not_not] at hannounces
          rw [if_pos hannounces]
          unfold frameOf
          rw [if_neg hlong, if_pos (by rw [Bool.not_eq_true', ← Bool.not_eq_true, hsizes, not_not]
                                       exact hannounces)]
          rfl

/-- Does a payload fit into a frame? -/
def fits (payload : Json) : Bool :=
  convertible payload && (frameBody payload).length ≤ maxFrameBytes

theorem frame_eq (payload : Json) : frame payload =
    if fits payload then .ok (packLength (frameBody payload).length ++ frameBody payload)
    else .error .value := by
  unfold frame fits
  cases convertible payload with
  | false => rfl
  | true =>
      by_cases hlength : maxFrameBytes < (frameBody payload).length
      · simp [hlength, Nat.not_le.2 hlength]
      · simp [hlength, Nat.not_lt.1 hlength]

/-- The first fault an exchange comes to. -/
def Peer.exchangeFault (peer : Peer) (request : Json) : Option Fault :=
  if fits request then peer.write <|> (peer.drain <|> peer.toReading.fault) else none

/-- **An exchange is its first fault, or the frame that comes.** -/
theorem exchange_eq (peer : Peer) (request : Json) : exchange u peer request =
    match peer.exchangeFault request with
    | some fault => .error fault.stop
    | none =>
        if fits request then (frameOf u peer.incoming).mapError .raised
        else .error (.raised .value) := by
  unfold exchange Peer.exchangeFault
  rw [frame_eq]
  cases fits request with
  | false => rfl
  | true =>
      cases hwrite : peer.write with
      | some fault => rfl
      | none =>
          cases hdrain : peer.drain with
          | some fault => rfl
          | none => exact readFrame_eq peer.toReading

/-! ## §3. Responses. -/

/-- The chunks of a response: it is ok, and each of its items is one. -/
structure ChunksOf (u : Unicode) (response : Json) (chunks : List AttachmentChunkInput) :
    Prop where
  version : (response.get "version").pyEq (.int protocolVersion) = true
  ok : response.get "ok" = .bool true
  items : ∃ rawChunks, response.get "chunks" = .arr rawChunks ∧
    List.Forall₂ (fun item c => (dictOf item >>= chunkFromPayload u) = .ok c) rawChunks chunks

/-- The errors the caller of the client expects. -/
def Reported (e : Exn) : Prop :=
  ∃ status ∈ ["corrupt", "unreadable"], ∃ errorCode, e = .processing status errorCode

theorem reported_unreadable (errorCode : String) : Reported (.processing "unreadable" errorCode) :=
  ⟨"unreadable", by decide, errorCode, rfl⟩

/-- **A response is its chunks, all of them, or an error that is reported.** -/
theorem responseChunks_spec (response : Json) :
    (∀ chunks, responseChunks u response = .ok chunks ↔ ChunksOf u response chunks) ∧
      ∀ e, responseChunks u response = .error e → Reported e := by
  unfold responseChunks
  by_cases hversion : (response.get "version").pyEq (.int protocolVersion) = true
  · rw [hversion, if_neg (by decide)]
    by_cases hok : response.get "ok" = .bool true
    · rw [if_neg (not_not_intro hok)]
      cases hitems : response.get "chunks" with
      | arr rawChunks =>
          dsimp only
          cases hmap : rawChunks.mapM fun item => dictOf item >>= chunkFromPayload u with
          -- One item of `chunks` is not a chunk: the whole answer is unreadable.
          | error e =>
              refine ⟨fun chunks => ⟨fun h => (nomatch h), fun h => ?_⟩, fun e h => ?_⟩
              · obtain ⟨others, hothers, hall⟩ := h.items
                rw [hitems] at hothers
                obtain rfl := Json.arr.inj hothers
                rw [mapM_eq_ok_of_forall₂ hall] at hmap
                cases hmap
              · rw [← Except.error.inj h]
                exact reported_unreadable _
          | ok others =>
              refine ⟨fun chunks => ⟨fun h => ?_, fun h => ?_⟩, fun e h => (nomatch h)⟩
              · obtain rfl := Except.ok.inj h
                exact ⟨hversion, hok, rawChunks, hitems, forall₂_of_mapM_eq_ok hmap⟩
              · obtain ⟨items, hothers, hall⟩ := h.items
                rw [hitems] at hothers
                obtain rfl := Json.arr.inj hothers
                rw [mapM_eq_ok_of_forall₂ hall] at hmap
                exact hmap.symm
      -- `chunks` is no list.
      | _ =>
          refine ⟨fun chunks => ⟨fun h => (nomatch h), fun h => ?_⟩, fun e h => ?_⟩
          · obtain ⟨items, hothers, _⟩ := h.items
            rw [hitems] at hothers
            cases hothers
          · rw [← Except.error.inj h]
            exact reported_unreadable _
    · rw [if_pos hok]
      -- `ok` is not `true`: the peer names its own status, or none that is known.
      refine ⟨fun chunks => ⟨fun h => (nomatch h), fun h => absurd h.ok hok⟩, fun e h => ?_⟩
      rw [← Except.error.inj h]
      split
      · next hstatus => exact ⟨_, hstatus, _, rfl⟩
      · exact reported_unreadable _
  · rw [if_pos (by simpa using hversion)]
    refine ⟨fun chunks => ⟨fun h => (nomatch h), fun h => absurd h.version hversion⟩,
      fun e h => ?_⟩
    rw [← Except.error.inj h]
    exact reported_unreadable _

/-! ## §4. The result of the client. -/

/-- Nothing goes wrong at the socket. -/
structure Peer.Quiet (peer : Peer) : Prop where
  connect : peer.connect = none
  write : peer.write = none
  drain : peer.drain = none
  header : peer.header = none
  body : peer.body = none
  close : peer.close = none

/-- The peer sends a whole response with the chunks, and nothing goes wrong. -/
def Answered (u : Unicode) (peer : Peer) (request : Json)
    (chunks : List AttachmentChunkInput) : Prop :=
  peer.Quiet ∧ fits request = true ∧ ∃ body response, Delivers peer.incoming body ∧
    decodeBody u body = .ok response ∧ ChunksOf u response chunks

/-- The result is the chunks of the response, or an error that is reported. -/
def Exact (u : Unicode) (peer : Peer) (request : Json)
    (outcome : Outcome (List AttachmentChunkInput)) : Prop :=
  (∀ chunks, Answered u peer request chunks → outcome = .returned chunks) ∧
    ((∀ chunks, ¬ Answered u peer request chunks) → ∃ e, outcome = .raised e ∧ Reported e)

/-- Do bytes begin with a frame whose body is nested too deep? -/
def TooDeep (u : Unicode) (incoming : List UInt8) : Prop :=
  ∃ body, Delivers incoming body ∧ decodeBody u body = .error .recursion

/-- What does no harm: a connection is not made; or it is closed without an
`OSError` but `TimeoutError`, the clean-up ends if the time was up before, and
unless the time is up in it, the first fault of the exchange is no other
`OSError` and the body that is read is not nested too deep. -/
def Harmless (u : Unicode) (peer : Peer) (request : Json) : Prop :=
  peer.connect ≠ none ∨
    match peer.close with
    | some (.raises e) => e = .timedOut
    | some .stalls => peer.exchangeFault request ≠ some .stalls
    | none =>
        (∀ e, peer.exchangeFault request = some (.raises e) → e = .timedOut) ∧
          ¬ (fits request = true ∧ peer.exchangeFault request = none ∧ TooDeep u peer.incoming)

theorem exchangeError_os {e : OsError} : Reported (exchangeError (.os e)) ↔ e = .timedOut := by
  cases e with
  | timedOut => exact iff_of_true (reported_unreadable _) rfl
  | _ => exact iff_of_false (fun ⟨_, _, _, h⟩ => (nomatch h)) (fun h => (nomatch h))

theorem Peer.Quiet.exchangeFault {peer : Peer} (h : peer.Quiet) (request : Json) :
    peer.exchangeFault request = none := by
  unfold Peer.exchangeFault Reading.fault
  rw [h.write, h.drain, h.header, h.body]
  split
  · split <;> rfl
  · rfl

/-- **A whole response is returned as it is.** -/
theorem returned_of_answered {peer : Peer} {args : ParseArguments}
    {chunks : List AttachmentChunkInput} (h : Answered u peer args.request chunks) :
    parseAttachmentSandboxed u peer args = .returned chunks := by
  obtain ⟨hquiet, hfits, body, response, hdelivers, hbody, hchunks⟩ := h
  unfold parseAttachmentSandboxed
  rw [hquiet.connect, hquiet.close, exchange_eq, hquiet.exchangeFault, hfits, if_pos rfl,
    frameOf_of_delivers hdelivers, hbody]
  dsimp only [waitForClosing, Except.mapError]
  rw [((responseChunks_spec response).1 chunks).2 hchunks]

/-- The result is exact when it is an error that is reported and nothing was
answered, and so on. -/
theorem exact_iff_of_not_answered {peer : Peer} {request : Json}
    {outcome : Outcome (List AttachmentChunkInput)}
    (h : ∀ chunks, ¬ Answered u peer request chunks) :
    Exact u peer request outcome ↔ ∃ e, outcome = .raised e ∧ Reported e :=
  ⟨fun hexact => hexact.2 h, fun hraised =>
    ⟨fun chunks hanswered => absurd hanswered (h chunks), fun _ => hraised⟩⟩

theorem exact_iff_raised {peer : Peer} {request : Json} {e : Exn}
    (h : ∀ chunks, ¬ Answered u peer request chunks) :
    Exact u peer request (.raised e) ↔ Reported e := by
  rw [exact_iff_of_not_answered h]
  exact ⟨fun ⟨_, hraised, hreported⟩ => Outcome.raised.inj hraised ▸ hreported,
    fun hreported => ⟨e, rfl, hreported⟩⟩

/-- A peer without a fault up to a whole frame is quiet. -/
theorem quiet_of_delivers {peer : Peer} {request : Json} {body : List UInt8}
    (hconnect : peer.connect = none) (hclose : peer.close = none) (hfits : fits request = true)
    (hfault : peer.exchangeFault request = none) (hbody : Delivers peer.incoming body) :
    peer.Quiet := by
  unfold Peer.exchangeFault Reading.fault at hfault
  rw [if_pos hfits, announces_of_delivers hbody, if_pos rfl] at hfault
  simp only [Option.orElse_eq_orElse, Option.orElse_eq_or, Option.or_eq_none_iff] at hfault
  obtain ⟨hwrite, hdrain, hheader, hreading⟩ := hfault
  exact ⟨hconnect, hwrite, hdrain, hheader, hreading, hclose⟩

/-- The result of an exchange that is closed without a fault. -/
def exchanged (u : Unicode) : Except Stop Json → Outcome (List AttachmentChunkInput)
  | .error .pending => .raised (exchangeError (.os .timedOut))
  | .error (.raised e) => .raised (exchangeError e)
  | .ok response =>
      match responseChunks u response with
      | .ok chunks => .returned chunks
      | .error e => .raised e

theorem parse_closed {peer : Peer} {args : ParseArguments} (hconnect : peer.connect = none)
    (hclose : peer.close = none) : parseAttachmentSandboxed u peer args =
      exchanged u (exchange u peer args.request) := by
  unfold parseAttachmentSandboxed
  rw [hconnect, hclose]
  cases exchange u peer args.request with
  | ok response => rfl
  | error stop => cases stop <;> rfl

/-- An exchange does not end when its first fault is a stall. -/
theorem exchange_pending_iff (peer : Peer) (request : Json) :
    exchange u peer request = .error .pending ↔ peer.exchangeFault request = some .stalls := by
  rw [exchange_eq]
  cases hfault : peer.exchangeFault request with
  | some fault =>
      cases fault with
      | raises e => exact iff_of_false (fun h => (nomatch h)) (fun h => (nomatch h))
      | stalls => exact iff_of_true rfl rfl
  | none =>
      refine iff_of_false (fun h => ?_) (fun h => (nomatch h))
      dsimp only at h
      split at h
      · cases hframe : frameOf u peer.incoming with
        | ok payload =>
            rw [hframe] at h
            cases h
        | error e =>
            rw [hframe] at h
            cases h
      · cases h

/-- The clean-up that stalls ends with the time that is left, if there is some. -/
theorem parse_stalled {peer : Peer} {args : ParseArguments} (hconnect : peer.connect = none)
    (hclose : peer.close = some .stalls) : parseAttachmentSandboxed u peer args =
      if peer.exchangeFault args.request = some .stalls then .hangs
      else .raised (exchangeError (.os .timedOut)) := by
  have hpending := exchange_pending_iff (u := u) peer args.request
  unfold parseAttachmentSandboxed
  rw [hconnect, hclose]
  cases hexchange : exchange u peer args.request with
  | ok response =>
      rw [hexchange] at hpending
      rw [if_neg fun h => (nomatch hpending.2 h)]
      rfl
  | error stop =>
      rw [hexchange] at hpending
      cases stop with
      | pending =>
          rw [if_pos (hpending.1 rfl)]
          rfl
      | raised e =>
          rw [if_neg fun h => (nomatch hpending.2 h)]
          rfl

/-- The frame of a peer that is closed without a fault. -/
theorem exact_frame_iff {peer : Peer} {args : ParseArguments} (hconnect : peer.connect = none)
    (hclose : peer.close = none) (hfits : fits args.request = true)
    (hfault : peer.exchangeFault args.request = none) :
    Exact u peer args.request (exchanged u ((frameOf u peer.incoming).mapError .raised)) ↔
      ¬ TooDeep u peer.incoming := by
  have hparse : parseAttachmentSandboxed u peer args =
      exchanged u ((frameOf u peer.incoming).mapError .raised) := by
    rw [parse_closed hconnect hclose, exchange_eq, hfault, hfits]
    rfl
  rcases frameOf_cases (u := u) peer.incoming with ⟨body, hdelivers⟩ | ⟨hnone, hframe⟩
  · rw [frameOf_of_delivers hdelivers] at hparse ⊢
    -- Only one body can be delivered, so what `_read_frame` decodes is the peer's.
    have hunique : ∀ other, Delivers peer.incoming other → decodeBody u other = decodeBody u body :=
      fun other hother => by rw [← frameOf_of_delivers hother, frameOf_of_delivers hdelivers]
    cases hbody : decodeBody u body with
    | error e =>
        rw [hbody] at hparse
        have hnot : ∀ chunks, ¬ Answered u peer args.request chunks := by
          rintro chunks ⟨_, _, other, response, hother, hresponse, _⟩
          rw [hunique other hother, hbody] at hresponse
          cases hresponse
        show Exact u peer args.request (.raised (exchangeError e)) ↔ _
        rw [exact_iff_raised hnot]
        -- `RecursionError` is the one failure of the decoder that is not mapped.
        rcases decodeBody_error hbody with rfl | rfl
        · refine iff_of_true (reported_unreadable _) fun ⟨other, hother, hdeep⟩ => ?_
          rw [hunique other hother, hbody] at hdeep
          cases hdeep
        · exact iff_of_false (fun ⟨_, _, _, h⟩ => (nomatch h))
            (not_not_intro ⟨body, hdelivers, hbody⟩)
    | ok response =>
        rw [hbody] at hparse
        have hshallow : ¬ TooDeep u peer.incoming := by
          rintro ⟨other, hother, hdeep⟩
          rw [hunique other hother, hbody] at hdeep
          cases hdeep
        refine iff_of_true ?_ hshallow
        -- The body is JSON: the client and the specification read the same response.
        have hspec := responseChunks_spec (u := u) response
        refine ⟨fun chunks hanswered => ?_, fun hnot => ?_⟩
        · exact hparse.symm.trans (returned_of_answered hanswered)
        · show ∃ e, (match responseChunks u response with
            | .ok chunks => Outcome.returned chunks
            | .error e => .raised e) = .raised e ∧ Reported e
          cases hresponse : responseChunks u response with
          | error e => exact ⟨e, rfl, hspec.2 e hresponse⟩
          | ok chunks =>
              have hquiet := quiet_of_delivers hconnect hclose hfits hfault hdelivers
              exact absurd ⟨hquiet, hfits, body, response, hdelivers, hbody,
                (hspec.1 chunks).1 hresponse⟩ (hnot chunks)
  -- The stream holds no whole frame: nothing was answered, and the failure is mapped.
  · have hnot : ∀ chunks, ¬ Answered u peer args.request chunks :=
      fun chunks ⟨_, _, body, _, hdelivers, _⟩ => hnone body hdelivers
    refine iff_of_true ?_ fun ⟨body, hdelivers, _⟩ => hnone body hdelivers
    rcases hframe with hframe | hframe
    · rw [hframe]
      exact (exact_iff_raised hnot).2 (reported_unreadable _)
    · rw [hframe]
      exact (exact_iff_raised hnot).2 (reported_unreadable _)

/-- **The result is exact if and only if the peer is harmless.** -/
theorem exact_iff_harmless (peer : Peer) (args : ParseArguments) :
    Exact u peer args.request (parseAttachmentSandboxed u peer args) ↔
      Harmless u peer args.request := by
  have hloud : ¬ peer.Quiet → ∀ chunks, ¬ Answered u peer args.request chunks :=
    fun hquiet chunks hanswered => hquiet hanswered.1
  unfold Harmless
  -- Where the connection fails there is no answer, and every failure is mapped.
  cases hconnect : peer.connect with
  | some fault =>
      have hnot := hloud fun hquiet => by
        rw [hquiet.connect] at hconnect
        cases hconnect
      refine iff_of_true ?_ (.inl (by simp))
      unfold parseAttachmentSandboxed
      rw [hconnect]
      cases fault with
      | raises e => exact (exact_iff_raised hnot).2 (reported_unreadable _)
      | stalls => exact (exact_iff_raised hnot).2 (reported_unreadable _)
  | none =>
      rw [or_iff_right (not_not_intro rfl)]
      -- A failure of `writer.close()` hides whatever the exchange returned.
      cases hclose : peer.close with
      | some fault =>
          have hnot := hloud fun hquiet => by
            rw [hquiet.close] at hclose
            cases hclose
          cases fault with
          | raises e =>
              have hparse : parseAttachmentSandboxed u peer args =
                  .raised (exchangeError (.os e)) := by
                unfold parseAttachmentSandboxed
                rw [hconnect, hclose]
                rfl
              rw [hparse, exact_iff_raised hnot]
              exact exchangeError_os
          | stalls =>
              -- A close that never ends is cut by the timeout, unless the exchange stalls
              -- first.
              by_cases hfault : peer.exchangeFault args.request = some .stalls
              · refine iff_of_false (fun hexact => ?_) (not_not_intro hfault)
                rw [parse_stalled hconnect hclose, if_pos hfault] at hexact
                obtain ⟨_, hraised, _⟩ := (exact_iff_of_not_answered hnot).1 hexact
                cases hraised
              · refine iff_of_true ?_ hfault
                rw [parse_stalled hconnect hclose, if_neg hfault]
                exact (exact_iff_raised hnot).2 (reported_unreadable _)
      | none =>
          rw [parse_closed hconnect hclose]
          -- The socket is opened and closed: only the exchange decides.
          cases hfault : peer.exchangeFault args.request with
          | some fault =>
              have hnot := hloud fun hquiet => by
                rw [hquiet.exchangeFault] at hfault
                cases hfault
              rw [exchange_eq, hfault]
              cases fault with
              | raises e =>
                  show Exact u peer args.request (.raised (exchangeError (.os e))) ↔ _
                  rw [exact_iff_raised hnot, exchangeError_os]
                  refine ⟨fun he => ⟨fun e' hraises => ?_, fun h => (nomatch h.2.1)⟩,
                    fun h => h.1 e rfl⟩
                  obtain rfl := Fault.raises.inj (Option.some.inj hraises)
                  exact he
              | stalls =>
                  refine iff_of_true ((exact_iff_raised hnot).2 (reported_unreadable _)) ?_
                  exact ⟨fun _ h => (nomatch h), fun h => (nomatch h.2.1)⟩
          | none =>
              rw [exchange_eq, hfault]
              -- The peer does its part, and the request may still be too large for a frame.
              by_cases hfits : fits args.request = true
              · dsimp only
                rw [if_pos hfits, exact_frame_iff hconnect hclose hfits hfault]
                exact ⟨fun h => ⟨fun _ hraises => (nomatch hraises), fun hdeep => h hdeep.2.2⟩,
                  fun h hdeep => h.2 ⟨hfits, rfl, hdeep⟩⟩
              · have hnot : ∀ chunks, ¬ Answered u peer args.request chunks :=
                  fun chunks hanswered => hfits hanswered.2.1
                dsimp only
                rw [if_neg hfits]
                refine iff_of_true ((exact_iff_raised hnot).2 (reported_unreadable _)) ?_
                exact ⟨fun _ hraises => (nomatch hraises), fun h => hfits h.1⟩

/-! ## §5. The server behind the socket. -/

theorem frameBody_ne_nil {payload : Json} (hobj : payload.isObj = true) :
    frameBody payload ≠ [] := by
  intro hnil
  have htext : decodeUtf8 (frameBody payload) =
      some (payload.print { ascii := true, blanks := false }) := decodeUtf8_encodeUtf8 _
  rw [hnil, show decodeUtf8 [] = some [] from decodeUtf8_encodeUtf8 []] at htext
  cases payload with
  | obj members => cases htext
  | _ => cases hobj

/-- A frame delivers its body. -/
theorem delivers_frame {payload : Json} (hobj : payload.isObj = true)
    (h : fits payload = true) :
    Delivers (packLength (frameBody payload).length ++ frameBody payload) (frameBody payload) := by
  unfold fits at h
  rw [Bool.and_eq_true, decide_eq_true_eq] at h
  refine ⟨packLength (frameBody payload).length, [], by rw [List.append_nil], rfl, ?_, ?_, h.2⟩
  · refine unpackLength_packLength (Nat.lt_of_le_of_lt h.2 ?_)
    decide
  · exact List.length_pos_iff.2 (frameBody_ne_nil hobj)

/-- The body of a frame is read back. -/
theorem decodeBody_frameBody {payload : Json} (hobj : payload.isObj = true)
    (h : Json.readable u.recursionLimit payload = true) :
    decodeBody u (frameBody payload) = .ok payload := by
  have hloads : u.loadsStrict (String.ofList (payload.print { ascii := true, blanks := false })) =
      .ok payload := by
    unfold Unicode.loadsStrict
    rw [String.toList_ofList]
    exact Json.loads_print h
  unfold decodeBody frameBody
  rw [decodeUtf8_encodeUtf8]
  dsimp only
  rw [hloads]
  exact if_pos hobj

/-- A request is read back. -/
theorem readable_request {args : ParseArguments} (h : fits args.request = true) :
    Json.readable u.recursionLimit args.request = true := by
  unfold fits at h
  rw [Bool.and_eq_true] at h
  have hints := h.1
  simp only [ParseArguments.request, convertible, convertibleMembers, Bool.true_and,
    Bool.and_true, Bool.and_eq_true] at hints
  obtain ⟨depth, hdepth⟩ : ∃ depth, u.recursionLimit = depth + 1 :=
    ⟨u.recursionLimit - 1, by have := u.recursionLimit_ge; omega⟩
  rw [hdepth]
  simp only [ParseArguments.request, Json.readable, Json.readableMembers, Bool.and_eq_true]
  exact ⟨by simp, by decide, trivial, hints.2.1, hints.2.2, trivial, trivial⟩

theorem readable_index {v : Json} (h : isIndex v = true) (depth : Nat) :
    Json.readable depth v = true := by
  cases v with
  | null => rfl
  | int n =>
      simp only [isIndex, Bool.and_eq_true, decide_eq_true_eq] at h
      simp only [Json.readable, decide_eq_true_eq]
      exact Nat.le_trans (Nat.toDigits_length 10 n.natAbs 19 (by decide) (by omega)) (by decide)
  | _ => cases h

theorem readable_asdict {c : AttachmentChunkInput} (h : c.typed = true) (depth : Nat) :
    Json.readable (depth + 1) c.asdict = true := by
  simp only [AttachmentChunkInput.typed, Bool.and_eq_true] at h
  obtain ⟨⟨⟨hpage, hpage'⟩, hchar⟩, hchar'⟩ := h
  simp only [AttachmentChunkInput.asdict, Json.readable, Json.readableMembers,
    readable_index hpage, readable_index hpage', readable_index hchar, readable_index hchar']
  simp

/-- A response with chunks is read back. -/
theorem readable_success (chunks : TypedChunks) :
    Json.readable u.recursionLimit (success chunks.val) = true := by
  have hitems : ∀ depth, ∀ cs : List AttachmentChunkInput, (∀ c ∈ cs, c.typed = true) →
      Json.readableItems (depth + 1) (cs.map AttachmentChunkInput.asdict) = true := by
    intro depth cs
    induction cs with
    | nil =>
        intro _
        rfl
    | cons c cs ih =>
        intro hcs
        rw [List.map_cons, Json.readableItems, Bool.and_eq_true]
        exact ⟨readable_asdict (hcs c List.mem_cons_self) depth,
          ih fun d hd => hcs d (List.mem_cons_of_mem _ hd)⟩
  obtain ⟨depth, hdepth⟩ : ∃ depth, u.recursionLimit = depth + 3 :=
    ⟨u.recursionLimit - 3, by have := u.recursionLimit_ge; omega⟩
  rw [hdepth]
  simp only [success, Json.readable, Json.readableMembers, Bool.and_eq_true,
    hitems depth chunks.val chunks.property]
  exact ⟨by simp, by decide, trivial, trivial, trivial⟩

/-- Its chunks are the chunks. -/
theorem chunksOf_success (chunks : List AttachmentChunkInput) :
    ChunksOf u (success chunks) chunks := by
  refine ⟨Json.pyEq_self _, rfl, chunks.map AttachmentChunkInput.asdict, rfl, ?_⟩
  rw [List.forall₂_map_left_iff, List.forall₂_same]
  intro c _
  show chunkFromPayload u c.asdict = .ok c
  have htext : c.asdict.get? "text" = some (.str c.text) := rfl
  unfold chunkFromPayload
  rw [htext]
  dsimp only
  rw [u.str_str]
  rfl

/-- The peer is the server, and nothing goes wrong: it reads the request, its
parser gives chunks, and both frames fit. -/
structure Served (u : Unicode) (env : Parsers) (peer : Peer) (args : ParseArguments)
    (chunks : TypedChunks) : Prop where
  quiet : peer.Quiet
  request_fits : fits args.request = true
  parsed : parseRequest u env args.request = .ok (success chunks.val)
  response_fits : fits (success chunks.val) = true
  incoming : peer.incoming = handleClient u env {
    incoming := packLength (frameBody args.request).length ++ frameBody args.request
    header := none
    body := none }

/-- The server answers with the chunks of its parser. -/
theorem Served.answered {env : Parsers} {peer : Peer} {args : ParseArguments}
    {chunks : TypedChunks} (h : Served u env peer args chunks) :
    Answered u peer args.request chunks.val := by
  have hread : readFrame u {
      incoming := packLength (frameBody args.request).length ++ frameBody args.request
      header := none
      body := none } = .ok args.request := by
    rw [readFrame_eq]
    have hfault : Reading.fault {
        incoming := packLength (frameBody args.request).length ++ frameBody args.request
        header := none
        body := none } = none := by
      unfold Reading.fault
      split <;> rfl
    rw [hfault]
    dsimp only
    rw [frameOf_of_delivers (delivers_frame rfl h.request_fits),
      decodeBody_frameBody rfl (readable_request h.request_fits)]
    rfl
  have hresponse : serverResponse u env {
      incoming := packLength (frameBody args.request).length ++ frameBody args.request
      header := none
      body := none } = success chunks.val := by
    have hparsed : (Except.ok args.request >>= parseRequest u env) =
        .ok (success chunks.val) := h.parsed
    unfold serverResponse
    rw [hread, hparsed]
  have hincoming := h.incoming
  unfold handleClient at hincoming
  rw [hresponse, frame_eq, if_pos h.response_fits] at hincoming
  refine ⟨h.quiet, h.request_fits, frameBody (success chunks.val), success chunks.val, ?_,
    decodeBody_frameBody rfl (readable_success chunks), chunksOf_success chunks.val⟩
  rw [hincoming]
  exact delivers_frame rfl h.response_fits

/-- **The protocol of the sandbox**: what the parser behind the socket gives
is returned as it is; and whatever the peer and the socket do, the result is
exact if and only if they are harmless. -/
theorem sandbox_protocol_exact (u : Unicode) (env : Parsers) (peer : Peer)
    (args : ParseArguments) :
    (∀ chunks, Served u env peer args chunks →
      parseAttachmentSandboxed u peer args = .returned chunks.val) ∧
    (Exact u peer args.request (parseAttachmentSandboxed u peer args) ↔
      Harmless u peer args.request) :=
  ⟨fun _ h => returned_of_answered h.answered, exact_iff_harmless peer args⟩

end Protocol

def sampleArguments : ParseArguments where
  data := [37, 80, 68, 70]
  contentType := "application/pdf"
  maxBytes := 1000
  chunkChars := 256

/-- The chunks of one page. -/
def sampleChunks : TypedChunks :=
  ⟨[{ text := "a", pageStart := .int 1, pageEnd := .int 1, charStart := .int 0,
      charEnd := .int 1 }], by decide⟩

/-- A parser that gives the chunks of one page. -/
def sampleParsers : Parsers where
  attachmentProcessingLimits := .ok { maxBytes := 1000, chunkChars := 256 }
  attachmentOcrConfig := .ok { enabled := false }
  parseImageAttachmentOcr := fun _ _ _ _ => .error (.raised .value)
  parsePdfAttachment := fun _ _ _ => .ok sampleChunks
  parsePdfAttachmentOcr := fun _ _ _ _ => .error (.raised .value)

/-- A peer that sends bytes, and with which nothing goes wrong. -/
def quietPeer (incoming : List UInt8) : Peer where
  incoming := incoming
  header := none
  body := none
  connect := none
  write := none
  drain := none
  close := none

theorem quiet_quietPeer (incoming : List UInt8) :
    (quietPeer incoming).Quiet ∧ (quietPeer incoming).incoming = incoming :=
  ⟨⟨rfl, rfl, rfl, rfl, rfl, rfl⟩, rfl⟩

/-- The server with the sample gives its chunks. -/
theorem sandbox_protocol_exact_sample :
    parseAttachmentSandboxed .ascii (quietPeer (handleClient .ascii sampleParsers {
        incoming := packLength (frameBody sampleArguments.request).length ++
          frameBody sampleArguments.request
        header := none
        body := none })) sampleArguments = .returned sampleChunks.val := by
  refine (sandbox_protocol_exact .ascii sampleParsers _ sampleArguments).1 sampleChunks
    ⟨(quiet_quietPeer _).1, ?_, ?_, ?_, (quiet_quietPeer _).2⟩
  · decide +kernel
  · decide +kernel
  · decide +kernel

/-- A peer that accepts the connection and the request and is gone. -/
def resetPeer : Peer := { quietPeer [] with header := some (.raises .connectionReset) }

/-- **A connection that is reset escapes as it is**, and so does a pipe that
breaks in the clean-up. -/
theorem reset_escapes :
    parseAttachmentSandboxed .ascii resetPeer sampleArguments =
        .raised (.os .connectionReset) ∧
      parseAttachmentSandboxed .ascii
          { quietPeer [] with close := some (.raises .brokenPipe) } sampleArguments =
        .raised (.os .brokenPipe) ∧
      ¬ Exact .ascii resetPeer sampleArguments.request
        (parseAttachmentSandboxed .ascii resetPeer sampleArguments) := by
  have hfault : resetPeer.exchangeFault sampleArguments.request =
      some (.raises .connectionReset) := by decide +kernel
  have hreset : parseAttachmentSandboxed .ascii resetPeer sampleArguments =
      .raised (.os .connectionReset) := by
    rw [parse_closed rfl rfl, exchange_eq, hfault]
    rfl
  refine ⟨hreset, rfl, fun hexact => ?_⟩
  have hnot : ∀ chunks, ¬ Answered .ascii resetPeer sampleArguments.request chunks :=
    fun chunks hanswered => (nomatch hanswered.1.header)
  rw [hreset, exact_iff_raised hnot] at hexact
  obtain ⟨_, _, _, hraised⟩ := hexact
  cases hraised

end Rpy.Attachments

/-
  Rpy.Attachments.Ready
  ─────────────────────
  **WHAT A READY ATTACHMENT HOLDS**
  (`process_attachment_bytes` of `app/attachment_processing.py`;
  `sync_attachment_manifest`, `upsert_attachment_state` and
  `replace_attachment_chunks` of `app/attachments.py`).

  A run over the bytes of an attachment writes their digest in one
  transaction and their chunks in another.  The second one locks the row and
  reads its status, and does not look at it.  Between the two another run
  may write the digest of other bytes.

    • `Job.parse`        — what becomes of the bytes,
    • `Attachment.step`  — one statement of one run,
    • `Consistent`       — the chunks of a ready attachment are those of its
                           digest,
    • `mixed_run`        — two runs that leave the chunks of the one under
                           the digest of the other,
    • `consistent_along` — **the runs that keep it**.
-/
import Rpy.Attachments.Chunks
import Rpy.Attachments.Protocol
import Rpy.Foundation.Machine
import Rpy.Foundation.Sha256

namespace Rpy.Attachments

open Rpy.Foundation

/-! ## §1. What becomes of the bytes. -/

section Parsing

variable (u : Unicode)

/-- `text.replace("\r\n", "\n").replace("\r", "\n")` -/
def lineFeeds : List Char → List Char
  | '\r' :: '\n' :: cs => '\n' :: lineFeeds cs
  | '\r' :: cs => '\n' :: lineFeeds cs
  | c :: cs => c :: lineFeeds cs
  | [] => []

/-- `data.decode("utf-8-sig")` -/
def decodeUtf8Sig (data : List UInt8) : Option (List Char) :=
  (decodeUtf8 data).map fun cs => if cs.head? = some '\ufeff' then cs.drop 1 else cs

/-- `_validate_common_payload` -/
def validateCommonPayload (data : List UInt8) (contentType expectedContentType : String)
    (limits : AttachmentProcessingLimits) : Except Exn Unit :=
  if normalizeContentType u contentType ≠ expectedContentType then
    .error (.processing "unreadable" "unsupported_content_type")
  else if limits.maxBytes < data.length then
    .error (.processing "unreadable" "attachment_too_large")
  else if data = [] then .error (.processing "unreadable" "empty_attachment")
  else .ok ()

/-- `_validate_text_payload` -/
def validateTextPayload (data : List UInt8) (contentType : String)
    (limits : AttachmentProcessingLimits) : Except Exn String := do
  validateCommonPayload u data contentType "text/plain" limits
  if 0 ∈ data then .error (.processing "corrupt" "invalid_text_bytes")
  else
    match decodeUtf8Sig data with
    | none => .error (.processing "corrupt" "invalid_utf8")
    | some text =>
        let normalized := u.strip (String.ofList (lineFeeds text))
        if normalized = "" then .error (.processing "unreadable" "empty_text")
        else .ok normalized

/-- `parse_text_attachment` -/
def parseTextAttachment (data : List UInt8) (contentType : String)
    (limits : AttachmentProcessingLimits) : Except Exn (List AttachmentChunkInput) := do
  let text ← validateTextPayload u data contentType limits
  chunkAttachmentText u text limits.chunkChars

/-- `parse_attachment` -/
def parseAttachment (data : List UInt8) (contentType : String)
    (limits : AttachmentProcessingLimits) : Except Exn (List AttachmentChunkInput) :=
  if normalizeContentType u contentType = "text/plain" then
    parseTextAttachment u data contentType limits
  else .error (.processing "unreadable" "unsupported_content_type")

/-- The arguments of `process_attachment_bytes`, and what the sandbox does
when it is asked. -/
structure Job where
  contentType : String
  data : List UInt8
  limits : AttachmentProcessingLimits
  peer : Peer
deriving Repr, DecidableEq

/-- How the `try` of `process_attachment_bytes` ends. -/
inductive Parsed where
  | chunks (chunks : List AttachmentChunkInput)
  /-- `except AttachmentProcessingError` -/
  | failed (status errorCode : String)
  /-- it raises, or does not end -/
  | escapes
deriving Repr, DecidableEq

def Parsed.ofExn : Exn → Parsed
  | .processing status errorCode => .failed status errorCode
  | _ => .escapes

/-- The parser of a type of content, and how it ends. -/
def Job.parse (j : Job) : Parsed :=
  let normalizedType := normalizeContentType u j.contentType
  if normalizedType ∈ ocrImageContentTypes ∨ normalizedType = "application/pdf" then
    match parseAttachmentSandboxed u j.peer
        { data := j.data, contentType := j.contentType
          maxBytes := j.limits.maxBytes, chunkChars := j.limits.chunkChars } with
    | .returned chunks => .chunks chunks
    | .raised e => .ofExn e
    | .hangs => .escapes
  else
    match parseAttachment u j.data j.contentType j.limits with
    | .ok chunks => .chunks chunks
    | .error e => .ofExn e

end Parsing

/-! ## §2. The statements. -/

/-- `status` -/
inductive AttachmentStatus where
  | pending | ready | unavailable | corrupt | unreadable
deriving Repr, DecidableEq

/-- `_validate_status`, of a status in small letters; `none` is the
`ValueError`. -/
def validateStatus (status : String) : Option AttachmentStatus :=
  if status = "pending" then some .pending
  else if status = "ready" then some .ready
  else if status = "unavailable" then some .unavailable
  else if status = "corrupt" then some .corrupt
  else if status = "unreadable" then some .unreadable
  else none

/-- `value.strip() if value and value.strip() else None` -/
def strippedOrNone (u : Unicode) (value : String) : Option String :=
  if u.strip value = "" then none else some (u.strip value)

/-- A text that passes the CHECK on a digest. -/
abbrev HexDigest := { s : String // Sha256.isHexDigest s = true }

/-- `hashlib.sha256(data).hexdigest()`: the check of `upsert_attachment_state`
passes, and stripping and lowering it change nothing. -/
def sha256 (data : List UInt8) : HexDigest :=
  ⟨Sha256.hexdigestBytes data, Sha256.isHexDigest_hexdigestBytes data⟩

/-- The `process_attachments` row. -/
structure AttachmentRow where
  id : Uuid
  status : AttachmentStatus := .pending
  contentType : Option String := none
  byteSize : Option Nat := none
  contentSha256 : Option HexDigest := none
  errorCode : Option String := none
  sourceName : Option String := none
  sourceDate : Option Timestamp := none
  providerStatus : Option String := none
deriving Repr, DecidableEq

/-- An `attachment_chunks` row. -/
structure ChunkRow where
  chunkIndex : Nat
  chunk : AttachmentChunkInput
  contentSha256 : HexDigest
deriving Repr, DecidableEq

/-- The rows of `enumerate(chunks)`. -/
def chunkRows (chunks : List AttachmentChunkInput) : List ChunkRow :=
  chunks.zipIdx.map fun (chunk, index) =>
    { chunkIndex := index, chunk, contentSha256 := sha256 (encodeUtf8 chunk.text.toList) }

/-- The statements of `replace_attachment_chunks` that are done. -/
inductive Replacing where
  | selected | deleted | inserted | marked
deriving Repr, DecidableEq

/-- Where a run is. -/
inductive Phase where
  | parsing
  /-- the digest is written -/
  | written (chunks : List AttachmentChunkInput)
  /-- the second transaction is open, and holds the lock on the row -/
  | replacing (chunks : List AttachmentChunkInput) (at_ : Replacing)
deriving Repr, DecidableEq

/-- A run of `process_attachment_bytes`. -/
structure ByteRun where
  caller : Nat
  job : Job
  phase : Phase
deriving Repr, DecidableEq

def Phase.locks : Phase → Bool
  | .replacing _ _ => true
  | _ => false

/-- An attachment, the runs over it and all that were begun. -/
structure Attachment where
  row : Option AttachmentRow := none
  chunks : List ChunkRow := []
  runs : List ByteRun := []
  begun : List Job := []
deriving Repr, DecidableEq

inductive AttachmentEvent where
  | begin (caller : Nat) (job : Job)
  /-- the next statement of a run; `id` is what `gen_random_uuid` draws -/
  | advance (caller : Nat) (id : Uuid)
  /-- the run is never continued -/
  | crash (caller : Nat)
  | sync (id : Uuid) (sourceName : Option String) (sourceDate : Option Timestamp)
      (providerStatus : Option String)
deriving Repr, DecidableEq

namespace Attachment

variable (s : Attachment)

/-- Some run holds the lock on the row. -/
def locked : Bool := s.runs.any fun x => x.phase.locks

/-- `upsert_attachment_state`, as `process_attachment_bytes` calls it. -/
def upsert (u : Unicode) (id : Uuid) (status : AttachmentStatus) (j : Job)
    (errorCode : Option String) : Attachment :=
  { s with
    row := some { s.row.getD { id } with
      status
      contentType := strippedOrNone u (normalizeContentType u j.contentType)
      byteSize := some j.data.length
      contentSha256 := some (sha256 j.data)
      errorCode := errorCode.bind (strippedOrNone u) } }

/-- One source attachment in `sync_attachment_manifest`. -/
def syncManifest (id : Uuid) (sourceName : Option String) (sourceDate : Option Timestamp)
    (providerStatus : Option String) : Attachment :=
  { s with row := some { s.row.getD { id } with sourceName, sourceDate, providerStatus } }

/-- The run has ended. -/
def close (caller : Nat) : Attachment :=
  { s with runs := s.runs.filter fun x => x.caller != caller }

/-- The run is somewhere else. -/
def move (caller : Nat) (phase : Phase) : Attachment :=
  { s with runs := s.runs.map fun x => if x.caller == caller then { x with phase } else x }

/-- The chunks are replaced and the attachment is ready. -/
def commit (chunks : List AttachmentChunkInput) : Attachment :=
  { s with
    row := s.row.map fun r => { r with status := .ready, errorCode := none }
    chunks := chunkRows chunks }

/-- The statement that comes next in a run; none while it waits for a lock. -/
def advance (u : Unicode) (x : ByteRun) (id : Uuid) : Option Attachment :=
  match x.phase with
  | .parsing =>
      match x.job.parse u with
      | .escapes => some (s.close x.caller)
      | .failed status errorCode =>
          match validateStatus status with
          | none => some (s.close x.caller)
          | some status =>
              if s.locked then none
              else some ((s.upsert u id status x.job (some errorCode)).close x.caller)
      | .chunks chunks =>
          if s.locked then none
          else some ((s.upsert u id .pending x.job none).move x.caller (.written chunks))
  | .written chunks =>
      match chunks.mapM validateChunk with
      | .error _ => some (s.close x.caller)
      | .ok _ =>
          if s.locked then none
          else
            match s.row with
            -- `LookupError`
            | none => some (s.close x.caller)
            -- the status that is read here is not looked at
            | some _ => some (s.move x.caller (.replacing chunks .selected))
  | .replacing chunks .selected => some (s.move x.caller (.replacing chunks .deleted))
  | .replacing chunks .deleted => some (s.move x.caller (.replacing chunks .inserted))
  | .replacing chunks .inserted => some (s.move x.caller (.replacing chunks .marked))
  | .replacing chunks .marked => some ((s.commit chunks).close x.caller)

def step (u : Unicode) : Attachment → AttachmentEvent → Option Attachment
  | s, .begin caller job =>
      if s.runs.any (fun x => x.caller == caller) then none
      else some { s with
        runs := s.runs ++ [⟨caller, job, .parsing⟩]
        begun := s.begun ++ [job] }
  | s, .advance caller id =>
      (s.runs.find? fun x => x.caller == caller).bind fun x => s.advance u x id
  | s, .crash caller => some (s.close caller)
  | s, .sync id sourceName sourceDate providerStatus =>
      if s.locked then none else some (s.syncManifest id sourceName sourceDate providerStatus)

end Attachment

/-! ## §3. A run that fails does not make the attachment ready. -/

section Failures

variable {u : Unicode}

theorem frameOf_ne_processing {incoming : List UInt8} {status errorCode : String} :
    frameOf u incoming ≠ .error (.processing status errorCode) := by
  intro h
  rcases frameOf_cases (u := u) incoming with ⟨body, hbody⟩ | ⟨-, hfail | hfail⟩
  · rw [frameOf_of_delivers hbody] at h
    rcases decodeBody_error h with he | he <;> cases he
  · rw [hfail] at h
    cases h
  · rw [hfail] at h
    cases h

theorem exchange_ne_processing {peer : Peer} {request : Json} {status errorCode : String} :
    exchange u peer request ≠ .error (.raised (.processing status errorCode)) := by
  intro h
  rw [exchange_eq] at h
  split at h
  · next fault _ => cases fault <;> cases h
  · split at h
    · cases hframe : frameOf u peer.incoming with
      | ok response =>
          rw [hframe] at h
          cases h
      | error e =>
          rw [hframe] at h
          obtain rfl : e = .processing status errorCode :=
            Stop.raised.inj (Except.error.inj h)
          exact frameOf_ne_processing hframe
    · cases h

/-- The errors of the sandbox that are caught have one of two statuses. -/
theorem reported_of_raised {peer : Peer} {args : ParseArguments} {status errorCode : String}
    (h : parseAttachmentSandboxed u peer args = .raised (.processing status errorCode)) :
    Reported (.processing status errorCode) := by
  have hexchanged : ∀ {e : Exn}, exchangeError e = .processing status errorCode →
      (∀ s c, e ≠ .processing s c) → Reported (.processing status errorCode) := by
    intro e he hne
    rw [← he]
    cases e with
    | processing s c => exact absurd rfl (hne s c)
    | os e => cases e <;> first | exact reported_unreadable _ | cases he
    | _ => first | exact reported_unreadable _ | cases he
  unfold parseAttachmentSandboxed at h
  split at h
  · rw [← Outcome.raised.inj h]
    exact reported_unreadable _
  · rw [← Outcome.raised.inj h]
    exact reported_unreadable _
  · split at h
    · cases h
    · next e hwait =>
        refine hexchanged (Outcome.raised.inj h) fun s c he => ?_
        rw [he] at hwait
        unfold waitForClosing at hwait
        split at hwait
        · cases hwait
        · next hbody =>
            rw [Outcome.raised.inj hwait] at hbody
            exact exchange_ne_processing hbody
        · cases hwait
        · cases hwait
        · cases hwait
        · cases hwait
    · split at h
      · cases h
      · next hresponse =>
          rw [← Outcome.raised.inj h]
          exact (responseChunks_spec _).2 _ hresponse

theorem reported_of_text {data : List UInt8} {contentType status errorCode : String}
    {limits : AttachmentProcessingLimits}
    (h : parseAttachment u data contentType limits = .error (.processing status errorCode)) :
    Reported (.processing status errorCode) := by
  unfold parseAttachment at h
  split at h
  · unfold parseTextAttachment at h
    cases hvalid : validateTextPayload u data contentType limits with
    | ok text =>
        rw [hvalid] at h
        -- The chunks of a valid text raise no error with a status of its own.
        change chunkAttachmentText u text limits.chunkChars = _ at h
        unfold chunkAttachmentText at h
        split at h
        · cases h
        · split at h <;> cases h
    | error e =>
        rw [hvalid] at h
        obtain rfl : e = .processing status errorCode := Except.error.inj h
        -- Every check of the payload names `unreadable` or `corrupt`.
        unfold validateTextPayload validateCommonPayload at hvalid
        split at hvalid
        · rw [← Except.error.inj hvalid]
          exact reported_unreadable _
        split at hvalid
        · rw [← Except.error.inj hvalid]
          exact reported_unreadable _
        split at hvalid
        · rw [← Except.error.inj hvalid]
          exact reported_unreadable _
        change (if 0 ∈ data then _ else _) = _ at hvalid
        split at hvalid
        · rw [← Except.error.inj hvalid]
          exact ⟨"corrupt", by decide, _, rfl⟩
        split at hvalid
        · rw [← Except.error.inj hvalid]
          exact ⟨"corrupt", by decide, _, rfl⟩
        · dsimp only at hvalid
          split at hvalid
          · rw [← Except.error.inj hvalid]
            exact reported_unreadable _
          · cases hvalid
  · rw [← Except.error.inj h]
    exact reported_unreadable _

/-- **A run that fails has one of two statuses**, and neither is `ready`. -/
theorem failed_status {j : Job} {status errorCode : String}
    (h : j.parse u = .failed status errorCode) :
    validateStatus status = some .corrupt ∨ validateStatus status = some .unreadable := by
  have hreported : Reported (.processing status errorCode) := by
    have hexn : ∀ {e : Exn}, Parsed.ofExn e = .failed status errorCode →
        e = .processing status errorCode := by
      intro e he
      cases e with
      | processing s c =>
          obtain ⟨rfl, rfl⟩ := Parsed.failed.inj he
          rfl
      | _ => cases he
    unfold Job.parse at h
    dsimp only at h
    split at h
    · split at h
      · cases h
      · next hraised =>
          rw [hexn h] at hraised
          exact reported_of_raised hraised
      · cases h
    · split at h
      · cases h
      · next herror =>
          rw [hexn h] at herror
          exact reported_of_text herror
  obtain ⟨name, hname, code, heq⟩ := hreported
  obtain ⟨rfl, -⟩ := Exn.processing.inj heq
  rcases List.mem_cons.1 hname with rfl | hname
  · exact .inl (by decide)
  · rw [List.mem_singleton.1 hname]
    exact .inr (by decide)

end Failures

/-! ## §4. What the runs keep. -/

section Runs

variable {u : Unicode} {s s' : Attachment}

/-- The chunks of a ready attachment are those of bytes that have its
digest, numbered from zero. -/
def Consistent (u : Unicode) (s : Attachment) : Prop :=
  ∀ r, s.row = some r → r.status = .ready →
    ∃ j ∈ s.begun, ∃ chunks, j.parse u = .chunks chunks ∧
      r.contentSha256 = some (sha256 j.data) ∧ s.chunks = chunkRows chunks

/-- The chunks a run has parsed and not stored yet. -/
def Phase.parsed : Phase → Option (List AttachmentChunkInput)
  | .parsing => none
  | .written chunks => some chunks
  | .replacing chunks _ => some chunks

/-- The run is between its two transactions. -/
def Phase.between : Phase → Bool
  | .written _ => true
  | _ => false

/-- When a run locks the row for its second transaction, the row has the
digest that the run wrote in its first one. -/
def Undisturbed (s : Attachment) : AttachmentEvent → Prop
  | .advance caller _ => ∀ x ∈ s.runs, x.caller = caller → x.phase.between = true →
      ∀ r, s.row = some r → r.contentSha256 = some (sha256 x.job.data)
  | _ => True

/-- The attachment is consistent, a run has the chunks of its bytes, and
while it holds the lock the row has their digest. -/
structure Kept (u : Unicode) (s : Attachment) : Prop where
  consistent : Consistent u s
  callers : (s.runs.map ByteRun.caller).Nodup
  begun : ∀ x ∈ s.runs, x.job ∈ s.begun
  parsed : ∀ x ∈ s.runs, ∀ chunks, x.phase.parsed = some chunks → x.job.parse u = .chunks chunks
  locked : ∀ x ∈ s.runs, x.phase.locks = true →
    ∀ r, s.row = some r → r.contentSha256 = some (sha256 x.job.data)

theorem kept_empty : Kept u {} where
  consistent := fun _ h => (nomatch h)
  callers := List.nodup_nil
  begun := fun _ h => (nomatch h)
  parsed := fun _ h => (nomatch h)
  locked := fun _ h => (nomatch h)

/-- A run may end anywhere. -/
theorem Kept.close (h : Kept u s) (caller : Nat) : Kept u (s.close caller) := by
  have hmem : ∀ x ∈ (s.close caller).runs, x ∈ s.runs := fun x hx => (List.mem_filter.1 hx).1
  exact {
    consistent := h.consistent
    callers := (List.filter_sublist.map ByteRun.caller).nodup h.callers
    begun := fun x hx => h.begun x (hmem x hx)
    parsed := fun x hx => h.parsed x (hmem x hx)
    locked := fun x hx => h.locked x (hmem x hx) }

/-- The runs after one of them has moved: it, and the others as they were. -/
theorem Kept.mem_move (h : Kept u s) {x : ByteRun} (hx : x ∈ s.runs) {phase : Phase} {y : ByteRun}
    (hy : y ∈ (s.move x.caller phase).runs) : y = { x with phase } ∨ y ∈ s.runs := by
  obtain ⟨z, hz, rfl⟩ := List.mem_map.1 hy
  split
  · next hcaller =>
      obtain rfl : z = x := List.inj_on_of_nodup_map h.callers hz hx (beq_iff_eq.1 hcaller)
      exact .inl rfl
  · exact .inr hz

/-- A run moves to a phase that is true of it. -/
theorem Kept.move (h : Kept u s) {x : ByteRun} (hx : x ∈ s.runs) {phase : Phase}
    (hparsed : ∀ chunks, phase.parsed = some chunks → x.job.parse u = .chunks chunks)
    (hlocked : phase.locks = true →
      ∀ r, s.row = some r → r.contentSha256 = some (sha256 x.job.data)) :
    Kept u (s.move x.caller phase) where
  consistent := h.consistent
  callers := by
    have hsame : (s.move x.caller phase).runs.map ByteRun.caller = s.runs.map ByteRun.caller := by
      unfold Attachment.move
      rw [List.map_map]
      refine List.map_congr_left fun y _ => ?_
      show ByteRun.caller (if y.caller == x.caller then { y with phase } else y) = y.caller
      split <;> rfl
    rw [hsame]
    exact h.callers
  begun := fun y hy => by
    rcases h.mem_move hx hy with rfl | hy
    · exact h.begun x hx
    · exact h.begun y hy
  parsed := fun y hy => by
    rcases h.mem_move hx hy with rfl | hy
    · exact hparsed
    · exact h.parsed y hy
  locked := fun y hy => by
    rcases h.mem_move hx hy with rfl | hy
    · exact hlocked
    · exact h.locked y hy

/-- No run holds the lock. -/
theorem not_locks_of_unlocked (hfree : s.locked = false) : ∀ x ∈ s.runs, x.phase.locks = false := by
  intro x hx
  cases hlocks : x.phase.locks with
  | false => rfl
  | true =>
      have hany : s.locked = true := List.any_eq_true.2 ⟨x, hx, hlocks⟩
      rw [hfree] at hany
      cases hany

/-- A row that is written while nobody holds the lock, and is not ready. -/
theorem Kept.write (h : Kept u s) (hfree : s.locked = false) {row : AttachmentRow}
    (hready : row.status ≠ .ready) : Kept u { s with row := some row } where
  consistent := fun r hr hstatus => by
    obtain rfl := Option.some.inj hr
    exact absurd hstatus hready
  callers := h.callers
  begun := h.begun
  parsed := h.parsed
  locked := fun x hx hlocks => by
    rw [not_locks_of_unlocked hfree x hx] at hlocks
    cases hlocks

/-- A row that keeps its status and its digest. -/
theorem Kept.describe (h : Kept u s) {old new : AttachmentRow} (hrow : s.row = some old)
    (hstatus : new.status = old.status) (hdigest : new.contentSha256 = old.contentSha256) :
    Kept u { s with row := some new } where
  consistent := fun r hr hready => by
    obtain rfl := Option.some.inj hr
    rw [hdigest]
    exact h.consistent old hrow (hstatus.symm.trans hready)
  callers := h.callers
  begun := h.begun
  parsed := h.parsed
  locked := fun x hx hlocks r hr => by
    obtain rfl := Option.some.inj hr
    exact hdigest.trans (h.locked x hx hlocks old hrow)

/-- The manifest changes neither the status nor the digest. -/
theorem Kept.sync (h : Kept u s) (hfree : s.locked = false) (id : Uuid)
    (sourceName : Option String) (sourceDate : Option Timestamp)
    (providerStatus : Option String) :
    Kept u (s.syncManifest id sourceName sourceDate providerStatus) := by
  unfold Attachment.syncManifest
  cases hrow : s.row with
  | none => exact h.write hfree AttachmentStatus.noConfusion
  | some old => exact h.describe hrow rfl rfl

/-- **A run that holds the lock stores the chunks of the digest.** -/
theorem Kept.commit (h : Kept u s) {x : ByteRun} (hx : x ∈ s.runs)
    (hlocks : x.phase.locks = true) {chunks : List AttachmentChunkInput}
    (hchunks : x.phase.parsed = some chunks) : Kept u (s.commit chunks) where
  consistent := fun r hr _ => by
    obtain ⟨old, hold, rfl⟩ := Option.map_eq_some_iff.1 hr
    exact ⟨x.job, h.begun x hx, chunks, h.parsed x hx chunks hchunks,
      h.locked x hx hlocks old hold, rfl⟩
  callers := h.callers
  begun := h.begun
  parsed := h.parsed
  locked := fun y hy hlocks' r hr => by
    obtain ⟨old, hold, rfl⟩ := Option.map_eq_some_iff.1 hr
    exact h.locked y hy hlocks' old hold

/-- The next statement of a run. -/
theorem Kept.advance (h : Kept u s) {x : ByteRun} (hx : x ∈ s.runs) {id : Uuid}
    (hrow : x.phase.between = true →
      ∀ r, s.row = some r → r.contentSha256 = some (sha256 x.job.data))
    (hs : s.advance u x id = some s') : Kept u s' := by
  -- A step inside the replacement only moves the phase of the run.
  have hnext : ∀ {chunks : List AttachmentChunkInput} {done next : Replacing},
      x.phase = .replacing chunks done → Kept u (s.move x.caller (.replacing chunks next)) := by
    intro chunks done next hphase
    refine h.move hx (fun others hothers => ?_) fun _ => h.locked x hx (by rw [hphase]; rfl)
    exact h.parsed x hx others (by rw [hphase]; exact hothers)
  unfold Attachment.advance at hs
  split at hs
  · split at hs
    · obtain rfl := Option.some.inj hs
      exact h.close _
    · next hfailed =>
        split at hs
        · obtain rfl := Option.some.inj hs
          exact h.close _
        · next status hstatus =>
            split at hs
            · cases hs
            · next hfree =>
                obtain rfl := Option.some.inj hs
                refine (h.write (Bool.eq_false_iff.2 hfree) ?_).close _
                rintro rfl
                -- A run that fails writes one of two statuses, and neither is `ready`.
                rcases failed_status hfailed with hknown | hknown
                · cases hstatus.symm.trans hknown
                · cases hstatus.symm.trans hknown
    · next hparse =>
        split at hs
        · cases hs
        · next hfree =>
            obtain rfl := Option.some.inj hs
            -- The parse succeeded: the row is `pending` under this run's bytes, and the run
            -- carries the chunks it parsed.
            have hwritten : Kept u (s.upsert u id .pending x.job none) :=
              h.write (Bool.eq_false_iff.2 hfree) AttachmentStatus.noConfusion
            refine hwritten.move hx (fun others hothers => ?_) fun hlocks => (nomatch hlocks)
            rw [← Option.some.inj hothers]
            exact hparse
  · next chunks hphase =>
      split at hs
      · obtain rfl := Option.some.inj hs
        exact h.close _
      · split at hs
        · cases hs
        · split at hs
          · obtain rfl := Option.some.inj hs
            exact h.close _
          · obtain rfl := Option.some.inj hs
            -- The row is locked here, and `hrow` says that it still holds this run's bytes.
            refine h.move hx (fun others hothers => ?_) fun _ => hrow (by rw [hphase]; rfl)
            exact h.parsed x hx others (by rw [hphase]; exact hothers)
  · next hphase =>
      obtain rfl := Option.some.inj hs
      exact hnext hphase
  · next hphase =>
      obtain rfl := Option.some.inj hs
      exact hnext hphase
  · next hphase =>
      obtain rfl := Option.some.inj hs
      exact hnext hphase
  · next hphase =>
      obtain rfl := Option.some.inj hs
      -- The commit: the row becomes `ready` with the chunks of its own bytes.
      exact (h.commit hx (by rw [hphase]; rfl) (by rw [hphase]; rfl)).close _

/-- **Every undisturbed step keeps it.** -/
theorem Kept.step (h : Kept u s) {e : AttachmentEvent} (hok : Undisturbed s e)
    (hs : Attachment.step u s e = some s') : Kept u s' := by
  cases e with
  | begin caller job =>
      unfold Attachment.step at hs
      dsimp only at hs
      split at hs
      · cases hs
      next hfresh =>
      obtain rfl := Option.some.inj hs
      -- The run that begins is new among the callers; every other run is as it was.
      have hcases : ∀ x ∈ s.runs ++ [(⟨caller, job, .parsing⟩ : ByteRun)],
          x ∈ s.runs ∨ x = ⟨caller, job, .parsing⟩ := fun x hx =>
        (List.mem_append.1 hx).imp_right List.mem_singleton.1
      exact {
        consistent := fun r hr hready => by
          obtain ⟨j, hj, hrest⟩ := h.consistent r hr hready
          exact ⟨j, List.mem_append_left _ hj, hrest⟩
        callers := by
          rw [List.map_append]
          refine List.nodup_append.2 ⟨h.callers, List.nodup_singleton _, ?_⟩
          rintro a ha b hb rfl
          obtain ⟨x, hx, hcaller⟩ := List.mem_map.1 ha
          exact hfresh (List.any_eq_true.2
            ⟨x, hx, beq_iff_eq.2 (hcaller.trans (List.mem_singleton.1 hb))⟩)
        begun := fun x hx => by
          rcases hcases x hx with hx | rfl
          · exact List.mem_append_left _ (h.begun x hx)
          · exact List.mem_append_right _ (List.mem_singleton.2 rfl)
        parsed := fun x hx => by
          rcases hcases x hx with hx | rfl
          · exact h.parsed x hx
          · exact fun chunks hchunks => (nomatch hchunks)
        locked := fun x hx => by
          rcases hcases x hx with hx | rfl
          · exact h.locked x hx
          · exact fun hlocks => (nomatch hlocks) }
  | advance caller id =>
      obtain ⟨x, hfind, hadvance⟩ := Option.bind_eq_some_iff.1 hs
      have hx := List.mem_of_find?_eq_some hfind
      have hcaller := List.find?_some hfind
      -- What is asked of the step is asked of the run that advances.
      exact h.advance hx (hok x hx (beq_iff_eq.1 hcaller)) hadvance
  | crash caller =>
      obtain rfl := Option.some.inj hs
      exact h.close caller
  | sync id sourceName sourceDate providerStatus =>
      unfold Attachment.step at hs
      dsimp only at hs
      split at hs
      · cases hs
      · next hfree =>
          obtain rfl := Option.some.inj hs
          exact h.sync (Bool.eq_false_iff.2 hfree) id sourceName sourceDate providerStatus

/-! ## §5. The runs that keep a ready attachment consistent. -/

/-- **In an undisturbed run a ready attachment is consistent.** -/
theorem consistent_along (u : Unicode) (es : List AttachmentEvent)
    (h : Guarded (Attachment.step u) Undisturbed {} es) :
    Along (Attachment.step u) (Consistent u) {} es :=
  along_of_guarded (Kept u) kept_empty (fun _ _ _ hkept hok hs => hkept.step hok hs)
    (fun _ hkept => hkept.consistent) h

/-- The statements of a run that stores its chunks, after the first one. -/
def storing (caller : Nat) (id : Uuid) : List AttachmentEvent :=
  List.replicate 5 (.advance caller id)

/-- A run writes its digest, another one does, and the first one goes on. -/
def mixed (a b : Job) : List AttachmentEvent :=
  [.begin 1 a, .begin 2 b, .advance 1 7, .advance 2 8] ++ storing 1 9

/-- **The chunks of the first run are stored under the digest of the second**,
whatever the two were about. -/
theorem mixed_run {a b : Job} {cs ds : List AttachmentChunkInput} (ok : List Unit)
    (ha : a.parse u = .chunks cs) (hb : b.parse u = .chunks ds)
    (hvalid : cs.mapM validateChunk = .ok ok) :
    ∃ s r, run (Attachment.step u) {} (mixed a b) = some s ∧ s.begun = [a, b] ∧
      s.row = some r ∧ r.status = .ready ∧ r.contentSha256 = some (sha256 b.data) ∧
      s.chunks = chunkRows cs := by
  let row : AttachmentRow := {
    id := 7
    status := .ready
    contentType := strippedOrNone u (normalizeContentType u b.contentType)
    byteSize := some b.data.length
    contentSha256 := some (sha256 b.data) }
  let last : Attachment := {
    row := some row
    chunks := chunkRows cs
    runs := [⟨2, b, .written ds⟩]
    begun := [a, b] }
  refine ⟨last, row, ?_, rfl, rfl, rfl, rfl, rfl⟩
  simp [last, row, run, mixed, storing, List.replicate, Attachment.step, Attachment.advance,
    Attachment.locked, Attachment.upsert, Attachment.move, Attachment.close,
    Attachment.commit, Phase.locks, ha, hb, hvalid]

end Runs

/-- The bytes of a word as an attachment. -/
def wordJob (word : String) : Job where
  contentType := "text/plain"
  data := encodeUtf8 word.toList
  limits := { maxBytes := 10485760, chunkChars := 4000 }
  peer := quietPeer []

/-- The one chunk of a word. -/
def wordChunk (word : String) : AttachmentChunkInput where
  text := word
  charStart := .int 0
  charEnd := .int word.toList.length

/-- A short text without white space is one chunk. -/
theorem chunkLoop_word {u : Unicode} {cs : List Char} {size : ChunkChars} (hne : cs ≠ [])
    (hlength : cs.length ≤ size.1) (hsolid : ∀ c ∈ cs, u.isSpace c = false) :
    chunkLoop u cs size 0 = [chunkOf cs (0, cs.length)] := by
  have hpos : 0 < cs.length := List.length_pos_of_ne_nil hne
  have hhard : hardEnd cs size.1 0 = cs.length := by
    unfold hardEnd
    omega
  have hcut : cutAt cs size.1 0 = cs.length := by
    unfold cutAt
    rw [hhard]
    exact if_neg fun h => absurd h.1 (Nat.lt_irrefl _)
  have htrim : trimEnd u cs 0 cs.length = cs.length := by
    obtain ⟨n, hn⟩ : ∃ n, cs.length = n + 1 := ⟨cs.length - 1, by omega⟩
    have hlast : isSpaceAt u cs n = false := by
      unfold isSpaceAt
      rw [List.getElem?_eq_getElem (by omega : n < cs.length)]
      exact hsolid _ (List.getElem_mem _)
    rw [hn, trimEnd, hlast, Bool.and_false]
    rfl
  have hend : chunkEnd u cs size.1 0 = cs.length := by
    unfold chunkEnd
    rw [hcut, htrim]
    exact if_neg (by omega)
  have hskip : skipSpace u cs cs.length = cs.length := by
    unfold skipSpace
    rw [List.drop_length]
    rfl
  rw [chunkLoop, dif_pos hpos]
  show chunkOf cs (0, chunkEnd u cs size.1 0) ::
    chunkLoop u cs size (skipSpace u cs (chunkEnd u cs size.1 0)) = _
  rw [hend, hskip, chunkLoop, dif_neg (Nat.lt_irrefl _)]

/-- The texts of two attachments are read and are one chunk each. -/
theorem parse_wordJob {word : String} (hword : word ∈ ["autos", "custas"]) :
    (wordJob word).parse .ascii = .chunks [wordChunk word] := by
  have hboth : ∀ w ∈ ["autos", "custas"], validateTextPayload .ascii (wordJob w).data
      "text/plain" (wordJob w).limits = .ok w ∧ w ≠ "" ∧ w.toList.length ≤ 4000 ∧
      w.toList.all (fun c => !Unicode.ascii.isSpace c) = true := by decide +kernel
  obtain ⟨hvalid, hne, hlength, hsolid⟩ := hboth word hword
  have hchunks : chunkAttachmentText .ascii word 4000 = .ok [wordChunk word] := by
    have hcs : word.toList ≠ [] := fun h => hne (String.toList_eq_nil_iff.1 h)
    have hchunk : chunkOf word.toList (0, word.toList.length) = wordChunk word := by
      unfold chunkOf wordChunk
      rw [List.drop_zero, Nat.sub_zero, List.take_length, String.ofList_toList]
      rfl
    unfold chunkAttachmentText
    rw [dif_neg (by decide), if_neg hne, chunkLoop_word hcs hlength, hchunk]
    intro c hc
    simpa using List.all_eq_true.1 hsolid c hc
  have hplain : normalizeContentType .ascii (wordJob word).contentType = "text/plain" := by
    show normalizeContentType .ascii "text/plain" = "text/plain"
    decide +kernel
  have htext : parseAttachment .ascii (wordJob word).data (wordJob word).contentType
      (wordJob word).limits = .ok [wordChunk word] := by
    unfold parseAttachment parseTextAttachment
    rw [hplain, if_pos rfl]
    show (validateTextPayload .ascii (wordJob word).data "text/plain" (wordJob word).limits >>=
      fun text => chunkAttachmentText .ascii text 4000) = _
    rw [hvalid]
    exact hchunks
  unfold Job.parse
  rw [hplain, if_neg (by decide), htext]

/-- A run writes its digest, the manifest is synced, and the run goes on. -/
def synced (caller : Nat) (sourceName : String) : List AttachmentEvent :=
  [.advance caller 7, .sync 8 (some sourceName) none none] ++ storing caller 9

/-- Two runs begin, and the second one writes its digest once the attachment
is ready. -/
def undisturbed (a b : Job) : List AttachmentEvent :=
  [.begin 1 a, .begin 2 b] ++ synced 1 "autos.txt" ++ synced 2 "custas.txt"

section Undisturbed

variable {u : Unicode} {a b : Job} {cs ds : List AttachmentChunkInput} {ok : List Unit}

/-- What the first of the two leaves. -/
def halfway (u : Unicode) (a b : Job) (cs : List AttachmentChunkInput) : Attachment where
  row := some {
    id := 7
    status := .ready
    contentType := strippedOrNone u (normalizeContentType u a.contentType)
    byteSize := some a.data.length
    contentSha256 := some (sha256 a.data)
    sourceName := some "autos.txt" }
  chunks := chunkRows cs
  runs := [⟨2, b, .parsing⟩]
  begun := [a, b]

theorem run_halfway (ha : a.parse u = .chunks cs) (hvalid : cs.mapM validateChunk = .ok ok) :
    run (Attachment.step u) {} ([.begin 1 a, .begin 2 b] ++ synced 1 "autos.txt") =
      some (halfway u a b cs) := by
  simp [run, halfway, synced, storing, List.replicate, Attachment.step, Attachment.advance,
    Attachment.locked, Attachment.upsert, Attachment.move, Attachment.close, Attachment.commit,
    Attachment.syncManifest, Phase.locks, ha, hvalid]

theorem guarded_halfway (ha : a.parse u = .chunks cs) (hvalid : cs.mapM validateChunk = .ok ok) :
    Guarded (Attachment.step u) Undisturbed {}
      ([.begin 1 a, .begin 2 b] ++ synced 1 "autos.txt") := by
  simp [Guarded, synced, storing, List.replicate, Attachment.step, Attachment.advance,
    Attachment.locked, Attachment.upsert, Attachment.move, Attachment.close, Attachment.commit,
    Attachment.syncManifest, Phase.locks, Phase.between, Undisturbed, ha, hvalid]

theorem guarded_from_halfway (hb : b.parse u = .chunks ds)
    (hvalid : ds.mapM validateChunk = .ok ok) :
    Guarded (Attachment.step u) Undisturbed (halfway u a b cs) (synced 2 "custas.txt") := by
  simp [Guarded, halfway, synced, storing, List.replicate, Attachment.step, Attachment.advance,
    Attachment.locked, Attachment.upsert, Attachment.move, Attachment.close, Attachment.commit,
    Attachment.syncManifest, Phase.locks, Phase.between, Undisturbed, hb, hvalid]

end Undisturbed

theorem consistent_along_undisturbed : Along (Attachment.step .ascii) (Consistent .ascii) {}
    (undisturbed (wordJob "autos") (wordJob "custas")) := by
  have ha : (wordJob "autos").parse .ascii = .chunks [wordChunk "autos"] :=
    parse_wordJob (by decide)
  have hb : (wordJob "custas").parse .ascii = .chunks [wordChunk "custas"] :=
    parse_wordJob (by decide)
  have hvalid : [wordChunk "autos"].mapM validateChunk = .ok [()] := by decide
  have hvalid' : [wordChunk "custas"].mapM validateChunk = .ok [()] := by decide
  exact consistent_along .ascii (undisturbed (wordJob "autos") (wordJob "custas"))
    (guarded_append (guarded_halfway ha hvalid) (run_halfway ha hvalid)
      (guarded_from_halfway hb hvalid'))

/-- **Two runs over different bytes mix a digest with other chunks.** -/
theorem not_consistent_along : ¬∀ (u : Unicode) (es : List AttachmentEvent),
    Along (Attachment.step u) (Consistent u) {} es := by
  intro h
  have ha : (wordJob "autos").parse .ascii = .chunks [wordChunk "autos"] :=
    parse_wordJob (by decide)
  have hb : (wordJob "custas").parse .ascii = .chunks [wordChunk "custas"] :=
    parse_wordJob (by decide)
  obtain ⟨s, r, hrun, hbegun, hrow, hready, hdigest, hchunks⟩ :=
    mixed_run [()] ha hb (by decide)
  obtain ⟨j, hj, chunks, hparse, hsame, hstored⟩ :=
    (h .ascii (mixed (wordJob "autos") (wordJob "custas"))).last hrun r hrow hready
  rw [hbegun] at hj
  rcases List.mem_cons.1 hj with rfl | hj
  · -- the digest is not that of the bytes of the first run
    have hne : sha256 (wordJob "custas").data ≠ sha256 (wordJob "autos").data := by
      decide +kernel
    exact hne (Option.some.inj (hdigest.symm.trans hsame))
  · -- the chunks are not those of the bytes of the second run
    obtain rfl := List.mem_singleton.1 hj
    obtain rfl := Parsed.chunks.inj (hb.symm.trans hparse)
    have hne : chunkRows [wordChunk "autos"] ≠ chunkRows [wordChunk "custas"] := by
      decide +kernel
    exact hne (hchunks.symm.trans hstored)

end Rpy.Attachments

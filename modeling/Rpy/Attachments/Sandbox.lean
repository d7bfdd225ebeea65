/-
  Rpy.Attachments.Sandbox
  ───────────────────────
  **THE PARSER BEHIND A SOCKET** (`app/attachment_sandbox.py`).

  Attachments are parsed in another process: the client sends one frame with
  the bytes and reads one frame with the chunks.  Whatever the peer and the
  socket do, each operation on the socket ends, raises, or does not end
  before the time is up; the clean-up of a connection that was cancelled is
  waited for without limit.

    • `Peer`                     — what the other end and the socket do,
    • `frame`, `readFrame`       — `_frame`, `_read_frame`,
    • `parseAttachmentSandboxed` — the client,
    • `parseRequest`, `handleClient` — the server.
-/
import Rpy.Foundation.Base64
import Rpy.Summaries.Facts

namespace Rpy.Attachments

open Rpy.Foundation
open Rpy.Summaries (optionalInt)

/-! ## §1. Exceptions, and operations that may not end. -/

/-- The kinds of `OSError` of a socket; `timedOut` is `TimeoutError`. -/
inductive OsError where
  | connectionReset
  | brokenPipe
  | timedOut
  | other
deriving Repr, DecidableEq

/-- An exception. -/
inductive Exn where
  /-- `AttachmentProcessingError` -/
  | processing (status errorCode : String)
  /-- `ValueError`, `json.JSONDecodeError`, `UnicodeDecodeError`, `binascii.Error` -/
  | value
  | key
  | type
  | runtime
  | recursion
  /-- `asyncio.IncompleteReadError` -/
  | incompleteRead
  | os (e : OsError)
deriving Repr, DecidableEq

/-- Why an awaited operation has no value: it raised, or it did not end
before the time was up. -/
inductive Stop where
  | raised (e : Exn)
  | pending
deriving Repr, DecidableEq

abbrev Awaited := Except Stop

/-- What goes wrong at an operation on a socket. -/
inductive Fault where
  | raises (e : OsError)
  | stalls
deriving Repr, DecidableEq

def Fault.stop : Fault → Stop
  | .raises e => .raised (.os e)
  | .stalls => .pending

/-- An operation on a socket. -/
def perform : Option Fault → Awaited Unit
  | none => .ok ()
  | some fault => .error fault.stop

/-- How a coroutine under `asyncio.wait_for` ends. -/
inductive Outcome (α : Type) where
  | returned (a : α)
  | raised (e : Exn)
  /-- its clean-up is waited for without end -/
  | hangs
deriving Repr, DecidableEq

/-- `asyncio.wait_for` of a body whose `finally` closes the connection. -/
def waitForClosing {α : Type} (close : Option Fault) (body : Awaited α) : Outcome α :=
  match close, body with
  | none, .ok a => .returned a
  | none, .error (.raised e) => .raised e
  | none, .error .pending => .raised (.os .timedOut)
  | some (.raises e), _ => .raised (.os e)
  -- the time was up before, and the clean-up has no limit of its own
  | some .stalls, .error .pending => .hangs
  | some .stalls, _ => .raised (.os .timedOut)

/-! ## §2. Frames. -/

/-- `MAX_FRAME_BYTES` -/
def maxFrameBytes : Nat := 20 * 1024 * 1024

/-- `PROTOCOL_VERSION` -/
def protocolVersion : Int := 1

mutual
/-- Are the integers of a value short enough to be converted to text? -/
def convertible : Json → Bool
  | .int n => decide ((Nat.toDigits 10 n.natAbs).length ≤ 4300)
  | .arr xs => convertibleItems xs
  | .obj members => convertibleMembers members
  | _ => true
  termination_by structural v => v

def convertibleItems : List Json → Bool
  | [] => true
  | x :: xs => convertible x && convertibleItems xs
  termination_by structural xs => xs

def convertibleMembers : List (String × Json) → Bool
  | [] => true
  | (_, v) :: ms => convertible v && convertibleMembers ms
  termination_by structural ms => ms
end

/-- `json.dumps(payload, ensure_ascii=True, separators=(",", ":"))` in UTF-8 -/
def frameBody (payload : Json) : List UInt8 :=
  encodeUtf8 (payload.print { ascii := true, blanks := false })

/-- `_frame` -/
def frame (payload : Json) : Except Exn (List UInt8) :=
  if !convertible payload then .error .value
  else if maxFrameBytes < (frameBody payload).length then .error .value
  else .ok (packLength (frameBody payload).length ++ frameBody payload)

/-- What is read from a connection: the bytes that come, before its end, and
what goes wrong at the header and at the body of a frame. -/
structure Reading where
  incoming : List UInt8
  header : Option Fault
  body : Option Fault
deriving Repr, DecidableEq

/-- `reader.readexactly(n)`: the bytes, and those after them. -/
def readExactly (fault : Option Fault) (n : Nat) (incoming : List UInt8) :
    Awaited (List UInt8 × List UInt8) := do
  perform fault
  if n ≤ incoming.length then .ok (incoming.take n, incoming.drop n)
  else .error (.raised .incompleteRead)

/-- The object in the body of a frame. -/
def decodeBody (u : Unicode) (body : List UInt8) : Except Exn Json :=
  match decodeUtf8 body with
  | none => .error .value
  | some text =>
      match u.loadsStrict (String.ofList text) with
      | .error .value => .error .value
      | .error .recursion => .error .recursion
      | .ok payload => if payload.isObj then .ok payload else .error .value

/-- `_read_frame` -/
def readFrame (u : Unicode) (r : Reading) : Awaited Json := do
  let (header, rest) ← readExactly r.header 4 r.incoming
  let size := unpackLength header
  if size = 0 ∨ maxFrameBytes < size then .error (.raised .value)
  else do
    let (body, _) ← readExactly r.body size rest
    (decodeBody u body).mapError .raised

/-! ## §3. Chunks. -/

/-- `AttachmentChunkInput`; nothing checks the fields of one that was read. -/
structure AttachmentChunkInput where
  text : String
  pageStart : Json := .null
  pageEnd : Json := .null
  charStart : Json := .null
  charEnd : Json := .null
deriving Repr, DecidableEq

/-- The number of a page, or an index of a text, or `None`. -/
def isIndex : Json → Bool
  | .null => true
  | .int n => 0 ≤ n && n < 2 ^ 63
  | _ => false

/-- A chunk with fields of their types. -/
def AttachmentChunkInput.typed (c : AttachmentChunkInput) : Bool :=
  isIndex c.pageStart && isIndex c.pageEnd && isIndex c.charStart && isIndex c.charEnd

/-- `asdict(chunk)` -/
def AttachmentChunkInput.asdict (c : AttachmentChunkInput) : Json :=
  .obj [("text", .str c.text), ("page_start", c.pageStart), ("page_end", c.pageEnd),
    ("char_start", c.charStart), ("char_end", c.charEnd)]

/-- An element of an update sequence of a `dict`; a key that is no text is
not looked up by anyone. -/
def pairOf : Json → Except Exn (Option String × Json)
  | .arr [.str key, value] => .ok (some key, value)
  | .arr [.arr _, _] => .error .type
  | .arr [.obj _, _] => .error .type
  | .arr [_, value] => .ok (none, value)
  | .arr _ => .error .value
  | .str s =>
      match s.toList with
      | [key, value] => .ok (some (String.ofList [key]), .str (String.ofList [value]))
      | _ => .error .value
  | .obj [(key, _), (value, _)] => .ok (some key, .str value)
  | .obj _ => .error .value
  | _ => .error .type

/-- `dict(item)` -/
def dictOf : Json → Except Exn Json
  | .obj members => .ok (.obj members)
  | .arr items => do
      let pairs ← items.mapM pairOf
      let texts := pairs.filterMap fun (key, value) => key.map (·, value)
      return .obj (texts.foldl (fun members (key, value) => assign key value members) [])
  | .str s => if s = "" then .ok (.obj []) else .error .value
  | _ => .error .type

/-- `_chunk_from_payload` -/
def chunkFromPayload (u : Unicode) (item : Json) : Except Exn AttachmentChunkInput :=
  match item.get? "text" with
  | none => .error .key
  | some text =>
      .ok { text := u.str text, pageStart := item.get "page_start", pageEnd := item.get "page_end"
            charStart := item.get "char_start", charEnd := item.get "char_end" }

/-! ## §4. The client. -/

/-- What the other end of the client's socket does: what goes wrong at each
operation, and the bytes it sends. -/
structure Peer extends Reading where
  connect : Option Fault
  write : Option Fault
  drain : Option Fault
  close : Option Fault
deriving Repr, DecidableEq

/-- The arguments of `parse_attachment_sandboxed`. -/
structure ParseArguments where
  data : List UInt8
  contentType : String
  maxBytes : Int
  chunkChars : Int
deriving Repr, DecidableEq

def ParseArguments.request (args : ParseArguments) : Json :=
  .obj [("version", .int protocolVersion), ("content_type", .str args.contentType),
    ("max_bytes", .int args.maxBytes), ("chunk_chars", .int args.chunkChars),
    ("data_b64", .str (String.ofList (Base64.encode args.data)))]

/-- The `try` of `_exchange`, once connected. -/
def exchange (u : Unicode) (peer : Peer) (request : Json) : Awaited Json := do
  let _ ← (frame request).mapError Stop.raised
  perform peer.write
  perform peer.drain
  readFrame u peer.toReading

def protocolError : Exn := .processing "unreadable" "parser_protocol_error"

/-- The `except` clauses around the exchange. -/
def exchangeError : Exn → Exn
  | .processing status errorCode => .processing status errorCode
  | .os .timedOut => .processing "unreadable" "parser_timeout"
  | .value => protocolError
  | .incompleteRead => protocolError
  | e => e

/-- The response as chunks. -/
def responseChunks (u : Unicode) (response : Json) : Except Exn (List AttachmentChunkInput) :=
  if !(response.get "version").pyEq (.int protocolVersion) then .error protocolError
  else if response.get "ok" ≠ .bool true then
    let status := u.str ((response.get "status").orElse (.str "unreadable"))
    let errorCode := u.str ((response.get "error_code").orElse (.str "parser_failed"))
    .error (.processing (if status ∈ ["corrupt", "unreadable"] then status else "unreadable")
      errorCode)
  else
    match response.get "chunks" with
    | .arr rawChunks =>
        match rawChunks.mapM fun item => dictOf item >>= chunkFromPayload u with
        | .ok chunks => .ok chunks
        | .error _ => .error protocolError
    | _ => .error protocolError

/-- `parse_attachment_sandboxed` -/
def parseAttachmentSandboxed (u : Unicode) (peer : Peer) (args : ParseArguments) :
    Outcome (List AttachmentChunkInput) :=
  match peer.connect with
  | some (.raises _) => .raised (.processing "unreadable" "parser_unavailable")
  | some .stalls => .raised (exchangeError (.os .timedOut))
  | none =>
      match waitForClosing peer.close (exchange u peer args.request) with
      | .hangs => .hangs
      | .raised e => .raised (exchangeError e)
      | .returned response =>
          match responseChunks u response with
          | .ok chunks => .returned chunks
          | .error e => .raised e

/-! ## §5. The server. -/

/-- `AttachmentProcessingLimits` -/
structure AttachmentProcessingLimits where
  maxBytes : Int
  chunkChars : Int
deriving Repr, DecidableEq

/-- What the server reads of `AttachmentOCRConfig`. -/
structure AttachmentOCRConfig where
  enabled : Bool
deriving Repr, DecidableEq

/-- Chunks with fields of their types. -/
abbrev TypedChunks := { chunks : List AttachmentChunkInput // ∀ c ∈ chunks, c.typed = true }

/-- What the server takes from the environment and from the parsers. -/
structure Parsers where
  attachmentProcessingLimits : Except Exn AttachmentProcessingLimits
  attachmentOcrConfig : Except Exn AttachmentOCRConfig
  parseImageAttachmentOcr : List UInt8 → String → AttachmentProcessingLimits →
    AttachmentOCRConfig → Awaited TypedChunks
  parsePdfAttachment : List UInt8 → String → AttachmentProcessingLimits → Awaited TypedChunks
  parsePdfAttachmentOcr : List UInt8 → String → AttachmentProcessingLimits →
    AttachmentOCRConfig → Awaited TypedChunks

/-- `OCR_IMAGE_CONTENT_TYPES` -/
def ocrImageContentTypes : List String := ["image/png", "image/jpeg"]

/-- `normalize_content_type` -/
def normalizeContentType (u : Unicode) (contentType : String) : String :=
  u.lower (u.strip (String.ofList (contentType.toList.takeWhile (· != ';'))))

/-- The bytes in a request. -/
def requestData (request : Json) : Except Exn (List UInt8) :=
  match request.get "data_b64" with
  | .str text =>
      match Base64.decode text.toList with
      | some data => .ok data
      | none => .error .value
  | _ => .error .value

/-- The limits of a request, within those of the server. -/
def requestLimits (u : Unicode) (env : Parsers) (request : Json) :
    Except Exn AttachmentProcessingLimits :=
  match optionalInt u (request.get "max_bytes"), optionalInt u (request.get "chunk_chars") with
  | some maxBytes, some chunkChars =>
      if maxBytes ≤ 0 ∨ chunkChars ≤ 0 then .error .value
      else env.attachmentProcessingLimits.map fun configured =>
        { maxBytes := min maxBytes configured.maxBytes
          chunkChars := min chunkChars configured.chunkChars }
  | _, _ => .error .value

/-- The parser for a type of content. -/
def parseContent (u : Unicode) (env : Parsers) (data : List UInt8) (contentType : String)
    (limits : AttachmentProcessingLimits) : Awaited TypedChunks := do
  let normalizedType := normalizeContentType u contentType
  if normalizedType ∈ ocrImageContentTypes then
    let config ← env.attachmentOcrConfig.mapError Stop.raised
    env.parseImageAttachmentOcr data contentType limits config
  else if normalizedType = "application/pdf" then
    match env.parsePdfAttachment data contentType limits with
    | .error (.raised (.processing status "pdf_text_unavailable")) =>
        let config ← env.attachmentOcrConfig.mapError Stop.raised
        if config.enabled then env.parsePdfAttachmentOcr data contentType limits config
        else .error (.raised (.processing status "pdf_text_unavailable"))
    | parsed => parsed
  else .error (.raised (.processing "unreadable" "unsupported_content_type"))

/-- A response that is not ok. -/
def failure (status errorCode : String) : Json :=
  .obj [("version", .int protocolVersion), ("ok", .bool false), ("status", .str status),
    ("error_code", .str errorCode)]

/-- A response with chunks. -/
def success (chunks : List AttachmentChunkInput) : Json :=
  .obj [("version", .int protocolVersion), ("ok", .bool true),
    ("chunks", .arr (chunks.map AttachmentChunkInput.asdict))]

/-- `_parse_request` -/
def parseRequest (u : Unicode) (env : Parsers) (request : Json) : Awaited Json :=
  if !(request.get "version").pyEq (.int protocolVersion) then .error (.raised .value)
  else do
    let contentType := u.str ((request.get "content_type").orElse (.str ""))
    let data ← (requestData request).mapError Stop.raised
    let limits ← (requestLimits u env request).mapError Stop.raised
    match parseContent u env data contentType limits with
    | .ok chunks => .ok (success chunks)
    | .error (.raised (.processing status errorCode)) => .ok (failure status errorCode)
    | .error stop => .error stop

/-- The response of `_handle_client`. -/
def serverResponse (u : Unicode) (env : Parsers) (r : Reading) : Json :=
  match readFrame u r >>= parseRequest u env with
  | .ok response => response
  | .error .pending => failure "unreadable" "parser_timeout"
  | .error (.raised (.os .timedOut)) => failure "unreadable" "parser_timeout"
  | .error (.raised _) => failure "unreadable" "parser_protocol_error"

/-- The bytes that `_handle_client` writes before it closes the connection. -/
def handleClient (u : Unicode) (env : Parsers) (r : Reading) : List UInt8 :=
  match frame (serverResponse u env r) with
  | .ok bytes => bytes
  | .error _ => []

end Rpy.Attachments

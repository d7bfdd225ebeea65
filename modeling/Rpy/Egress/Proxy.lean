/-
  Rpy.Egress.Proxy
  ────────────────
  **THE EGRESS PROXY OF THE DOCUMENT PARSER** (`app/egress_proxy.py`).

  A client sends bytes; the proxy reads a request line and the header
  lines after it, takes the target apart, looks its host up in the
  configured list and in the DNS, and connects to the addresses of the
  answer one after the other.

    • `readLine`              — `StreamReader.readline` under the limit
                                that `serve` sets,
    • `readRequest`           — the method and the target,
    • `canonicalDnsHostname`  — the one spelling of a host,
    • `publicEndpoints`       — all addresses of an answer, or none,
    • `handleClient`          — what one client brings about.

  The IDNA codec, the reader of IP addresses, the resolver and the network
  are parameters, and what is written to the client reaches it.
-/
import Rpy.Foundation.Raising
import Rpy.Summaries.Facts
import Rpy.Summaries.Rendering

namespace Rpy.Egress

open Rpy.Foundation
open Rpy.Summaries

/-! ## §1. The bytes of the client. -/

/-- What the client has sent when the handshake ends, and whether it has
closed its side by then. -/
structure Stream where
  bytes : List UInt8
  closed : Bool

/-- `MAX_HEADER_BYTES`, also the limit of the stream reader. -/
def maxHeaderBytes : Nat := 8192

/-- What ends the handling of a client: a `ValueError` with its text, or
the `TimeoutError` of `asyncio.wait_for`. -/
inductive Fault
  | value (message : String)
  | timeout
deriving DecidableEq

def newline : UInt8 := 10

/-- `await reader.readline()`: the bytes up to a newline, or up to the end
of a closed stream.  A client that sends neither is waited for. -/
def readLine (closed : Bool) (bytes : List UInt8) : Except Fault (List UInt8 × List UInt8) :=
  let text := bytes.takeWhile (· != newline)
  match bytes.drop text.length with
  | _ :: rest =>
      if maxHeaderBytes < text.length then
        .error (.value "Separator is found, but chunk is longer than limit")
      else .ok (text ++ [newline], rest)
  | [] =>
      if maxHeaderBytes < text.length then
        .error (.value "Separator is not found, and chunk exceed the limit")
      else if closed then .ok (text, [])
      else .error .timeout

/-- What a line leaves is shorter, unless the line is empty. -/
theorem readLine_lt {closed : Bool} {bytes line rest : List UInt8}
    (h : readLine closed bytes = .ok (line, rest)) (hne : line ≠ []) :
    rest.length < bytes.length := by
  unfold readLine at h
  simp only at h
  split at h
  · rename_i b rest' hdrop
    split at h
    · cases h
    · cases h
      have hlen := congrArg List.length hdrop
      rw [List.length_drop, List.length_cons] at hlen
      omega
  · split at h
    · cases h
    · split at h
      · cases h
        have hpos := List.length_pos_of_ne_nil hne
        have hle := (List.takeWhile_prefix (l := bytes) (· != newline)).length_le
        show 0 < bytes.length
        omega
      · cases h

/-- `header in {b"\r\n", b"\n", b""}` -/
def isBlank (header : List UInt8) : Bool :=
  header == [13, newline] || header == [newline] || header == []

/-- The loop over the header lines. -/
def readHeaders (closed : Bool) (total : Nat) (bytes : List UInt8) : Except Fault Unit :=
  match _hline : readLine closed bytes with
  | .error e => .error e
  | .ok (header, rest) =>
      if maxHeaderBytes < total + header.length then
        .error (.value "proxy request headers exceed safe size")
      else if _hblank : isBlank header = true then .ok ()
      else readHeaders closed (total + header.length) rest
termination_by bytes.length
decreasing_by exact readLine_lt _hline (by rintro rfl; exact _hblank rfl)

/-- `data.decode("ascii")` -/
def decodeAscii (data : List UInt8) : Option (List Char) :=
  if data.all (· < 128) then some (data.map fun b => Char.ofNat b.toNat) else none

section Parsing

variable (u : Unicode)

/-- `text.split()` -/
def splitWords (cs : List Char) : List (List Char) := wordsFrom (fun c => !u.isSpace c) [] cs

/-- `_read_request`: the method and the target. -/
def readRequest (s : Stream) : Except Fault (List Char × List Char) := do
  let (requestLine, rest) ← readLine s.closed s.bytes
  if requestLine = [] ∨ maxHeaderBytes < requestLine.length then
    .error (.value "invalid proxy request")
  else
    match decodeAscii requestLine with
    | none => .error (.value "proxy request line must be ASCII")
    | some text =>
        match splitWords u (u.stripChars text) with
        | [method, target, version] =>
            if version = "HTTP/1.0".toList ∨ version = "HTTP/1.1".toList then do
              readHeaders s.closed requestLine.length rest
              .ok (method.map Char.toUpper, target)
            else .error (.value "invalid proxy request line")
        | _ => .error (.value "invalid proxy request line")

/-! ## §2. The host of a target. -/

/-- What the proxy uses of `ipaddress.ip_address(text)`. -/
structure Address where
  compressed : String
  isGlobal : Bool
deriving DecidableEq

/-- The codec and the reader of addresses; `none` where they raise. -/
structure Names where
  /-- `host.encode("idna").decode("ascii")` -/
  idna : String → Option String
  /-- `ipaddress.ip_address(text)` -/
  ipAddress : String → Option Address

variable (n : Names)

/-- `[a-z0-9.-]` -/
def isHostChar (c : Char) : Bool := c.isLower || c.isDigit || c == '.' || c == '-'

/-- `_HOST_RE.fullmatch(canonical)` -/
def hostForm (host : List Char) : Bool :=
  host.all isHostChar && 1 ≤ host.length && host.length ≤ 253

/-- `".." in canonical` -/
def doubleDot : List Char → Bool
  | '.' :: '.' :: _ => true
  | _ :: cs => doubleDot cs
  | [] => false

/-- `_canonical_dns_hostname` -/
def canonicalDnsHostname (value : String) : Except String String :=
  let host := u.casefold (String.ofList ((u.stripChars value.toList).rdropWhile (· == '.')))
  if host = "" then .error "empty hostname"
  else
    match n.idna host with
    | none => .error "invalid hostname"
    | some canonical =>
        if (n.ipAddress canonical).isSome then .error "IP literals are not allowed"
        else if !hostForm canonical.toList || doubleDot canonical.toList then
          .error "invalid hostname"
        else .ok canonical

/-- `_canonical_allowed_host` -/
def canonicalAllowedHost (value : String) : Except String String :=
  (canonicalDnsHostname u n value).mapError fun message =>
    if message = "empty hostname" then "egress proxy allowlist contains an empty hostname"
    else if message = "IP literals are not allowed" then
      "egress proxy allowlist must contain DNS hostnames, not IP addresses"
    else "egress proxy allowlist contains an invalid hostname"

/-- `_parse_connect_target` -/
def parseConnectTarget (target : List Char) : Except Fault String :=
  if target.count ':' ≠ 1 then .error (.value "CONNECT target must be hostname:port")
  else
    let rawHost := target.takeWhile (· != ':')
    let rawPort := (target.dropWhile (· != ':')).drop 1
    match canonicalDnsHostname u n (String.ofList rawHost) with
    | .error message =>
        if message = "IP literals are not allowed" then
          .error (.value "CONNECT IP literals are not allowed")
        else .error (.value "invalid CONNECT hostname")
    | .ok host =>
        match intOfText u (String.ofList rawPort) with
        | none => .error (.value "invalid CONNECT port")
        | some port =>
            if port ≠ 443 then .error (.value "only TLS port 443 is allowed") else .ok host

/-- The hosts that `serve` hands to every client: `_normalize_allowed_hosts`
has put each into its one spelling. -/
structure AllowedHosts where
  hosts : List String
  canonical : ∀ host ∈ hosts, ∃ value, canonicalAllowedHost u n value = .ok host
  nonempty : hosts ≠ []

/-- Every host of a list that is read without an error has a spelling in it. -/
theorem canonical_of_mapM {values hosts : List String}
    (h : values.mapM (canonicalAllowedHost u n) = .ok hosts) :
    ∀ host ∈ hosts, ∃ value, canonicalAllowedHost u n value = .ok host := by
  intro host hhost
  obtain ⟨value, -, hvalue⟩ := exists_of_forall₂_right (forall₂_of_mapM_eq_ok h) hhost
  exact ⟨value, hvalue⟩

/-- `_normalize_allowed_hosts`; a list with repetitions stands for the set. -/
def normalizeAllowedHosts (values : List String) : Except String (AllowedHosts u n) :=
  match h : values.mapM (canonicalAllowedHost u n) with
  | .error message => .error message
  | .ok hosts =>
      if hne : hosts = [] then .error "egress proxy allowlist must not be empty"
      else .ok ⟨hosts, canonical_of_mapM u n h, hne⟩

end Parsing

/-! ## §3. The addresses of an answer. -/

/-- The address families of the socket module. -/
inductive Family
  | inet
  | inet6
  | other (number : Nat)
deriving DecidableEq

/-- What the proxy reads of a record of `getaddrinfo`: its family and
`str(sockaddr[0])`, if the address is not empty. -/
structure Record where
  family : Family
  sockaddr : Option String
deriving DecidableEq

/-- How the search for a connection ends without one. -/
inductive Failure
  | unsafeResolution (message : String)
  | osError
  | timeout
  | valueError
deriving DecidableEq

/-- An endpoint of the answer: its family and its address. -/
abbrev Endpoint := Family × String

/-- `ipaddress.ip_address(address)`, which has to be global. -/
def globalAddress (n : Names) (text : String) : Except Failure Address :=
  match n.ipAddress text with
  | none => .error (.unsafeResolution "egress DNS returned an invalid address")
  | some parsed =>
      if parsed.isGlobal then .ok parsed
      else .error (.unsafeResolution
        "egress DNS resolved an allowlisted hostname to a non-global address")

/-- The body of the loop over the records. -/
def endpointOf (n : Names) (r : Record) : Except Failure Endpoint :=
  match r.family, r.sockaddr with
  | .other _, _ => .error (.unsafeResolution "egress DNS returned an unsupported address")
  | _, none => .error (.unsafeResolution "egress DNS returned an unsupported address")
  | family, some text => (globalAddress n text).map fun parsed => (family, parsed.compressed)

/-- The loop over the records, with the endpoints so far. -/
def collectEndpoints (n : Names) (endpoints : List Endpoint) :
    List Record → Except Failure (List Endpoint)
  | [] => .ok endpoints
  | r :: rs => do
      let endpoint ← endpointOf n r
      collectEndpoints n
        (if endpoint ∈ endpoints then endpoints else endpoints ++ [endpoint]) rs

/-- `_public_endpoints_from_addrinfo` -/
def publicEndpoints (n : Names) (records : List Record) : Except Failure (List Endpoint) := do
  let endpoints ← collectEndpoints n [] records
  if endpoints = [] then .error .osError else .ok endpoints

/-! ## §4. The connection. -/

/-- What `loop.getaddrinfo` does: it answers, raises or is waited for. -/
inductive Answer
  | records (rs : List Record)
  | osError
  | valueError
  | stalls

/-- What an attempt to connect does. -/
inductive Connecting
  | connects
  | osError
  | stalls
deriving DecidableEq

/-- One call of `asyncio.open_connection`. -/
structure Attempt where
  address : String
  port : Nat
  family : Family
deriving DecidableEq

/-- The resolver and the network, as one client meets them. -/
structure Network where
  getaddrinfo : String → Answer
  connect : Attempt → Connecting

/-- The loop over the endpoints: the attempts it makes and how it ends. -/
def connectEach (net : Network) : List Endpoint → List Attempt × Except Failure Unit
  | [] => ([], .error .osError)
  | (family, address) :: endpoints =>
      let attempt : Attempt := ⟨address, 443, family⟩
      match net.connect attempt with
      | .connects => ([attempt], .ok ())
      | .stalls => ([attempt], .error .timeout)
      | .osError =>
          let (attempts, result) := connectEach net endpoints
          (attempt :: attempts, result)

/-- `_open_public_connection` under `asyncio.wait_for`. -/
def openPublicConnection (n : Names) (net : Network) (host : String) :
    List Attempt × Except Failure Unit :=
  match net.getaddrinfo host with
  | .osError => ([], .error .osError)
  | .valueError => ([], .error .valueError)
  | .stalls => ([], .error .timeout)
  | .records rs =>
      match publicEndpoints n rs with
      | .error e => ([], .error e)
      | .ok endpoints => connectEach net endpoints

/-- `hmac.compare_digest` of texts; `none` where it raises `TypeError`. -/
def compareDigest (a b : String) : Option Bool :=
  if a.toList.all (·.toNat < 128) && b.toList.all (·.toNat < 128) then some (a == b) else none

/-- The first configured host that is the requested one. -/
def authorizedHost (requestedHost : String) : List String → Option (Option String)
  | [] => some none
  | configuredHost :: others =>
      match compareDigest requestedHost configuredHost with
      | none => none
      | some true => some (some configuredHost)
      | some false => authorizedHost requestedHost others

/-- `_write_response` -/
def errorResponse (status : String) : String :=
  "HTTP/1.1 " ++ status ++ "\r\n" ++ "Connection: close\r\n" ++ "Content-Length: 0\r\n" ++ "\r\n"

/-- What one client brings about: the connections that are tried, and what
is written to the client.  Nothing is written where an exception leaves the
handler. -/
structure Outcome where
  attempts : List Attempt
  response : Option String
deriving DecidableEq

def Outcome.refused (attempts : List Attempt) (status : String) : Outcome :=
  { attempts, response := some (errorResponse status) }

/-- `_handle_client`, up to the relay. -/
def handleClient (u : Unicode) (n : Names) (net : Network) (allowed : AllowedHosts u n)
    (s : Stream) : Outcome :=
  match readRequest u s with
  | .error _ => .refused [] "400 Bad Request"
  | .ok (method, target) =>
      if method ≠ "CONNECT".toList then .refused [] "405 Method Not Allowed"
      else
        match parseConnectTarget u n target with
        | .error _ => .refused [] "400 Bad Request"
        | .ok requestedHost =>
            match authorizedHost requestedHost allowed.hosts with
            | none => { attempts := [], response := none }
            | some none => .refused [] "403 Forbidden"
            | some (some host) =>
                match openPublicConnection n net host with
                | (attempts, .ok ()) =>
                    { attempts
                      response := some "HTTP/1.1 200 Connection Established\r\n\r\n" }
                | (attempts, .error (.unsafeResolution _)) => .refused attempts "403 Forbidden"
                | (attempts, .error .osError) => .refused attempts "502 Bad Gateway"
                | (attempts, .error .timeout) => .refused attempts "502 Bad Gateway"
                | (attempts, .error .valueError) => .refused attempts "400 Bad Request"

end Rpy.Egress

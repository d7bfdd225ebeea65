/-
  Rpy.Egress.Confinement
  ──────────────────────
  **WHERE THE EGRESS PROXY CONNECTS** (`_handle_client` of
  `app/egress_proxy.py`).

  What a client may ask for is a relation on its bytes, stated apart from
  the code that reads them: a request line, header lines down to a blank
  one, three words, a host and a port.

    • `Tunnel`        — the bytes ask for a tunnel to a host,
    • `Admitted`      — and the host and its addresses are allowed,
    • `Confined`      — a client that is admitted is connected to addresses
                        of its host, and every other one gets an error,
    • `confined`      — **the proxy is confined**, with the method in any
                        case and the port as `int` reads it,
    • `not_confined_exactly` — the spellings it takes beyond the exact ones.
-/
import Rpy.Egress.Proxy

namespace Rpy.Egress

open Rpy.Foundation
open Rpy.Summaries

/-! ## §1. What the bytes ask for. -/

/-- A line of the client and what follows it: it ends in its only newline,
or with the bytes of a client that has closed its side. -/
inductive Line (closed : Bool) : List UInt8 → List UInt8 → Prop
  | ended {text : List UInt8} (rest : List UInt8) (htext : newline ∉ text) :
      Line closed (text ++ [newline]) rest
  | cut {text : List UInt8} (hclosed : closed = true) (htext : newline ∉ text) :
      Line closed text []

/-- Lines down to a blank one, and what follows it. -/
inductive Headers (closed : Bool) : List UInt8 → List UInt8 → Prop
  | blank {header rest : List UInt8} (hline : Line closed header rest)
      (hblank : isBlank header = true) : Headers closed header rest
  | more {header block rest : List UInt8} (hline : Line closed header (block ++ rest))
      (hblank : isBlank header = false) (hblock : Headers closed block rest) :
      Headers closed (header ++ block) rest

section Spaces

variable (space : Char → Bool)

/-- A text is made of words with white space around them. -/
inductive Splits : List (List Char) → List Char → Prop
  | nil {gap : List Char} (hgap : ∀ c ∈ gap, space c = true) : Splits [] gap
  | cons (gap : List Char) {word rest : List Char} {words : List (List Char)}
      (hgap : ∀ c ∈ gap, space c = true) (hne : word ≠ [])
      (hword : ∀ c ∈ word, space c = false) (hrest : ∀ c ∈ rest.head?, space c = true)
      (hwords : Splits words rest) : Splits (word :: words) (gap ++ word ++ rest)

variable {space}

theorem Splits.prepend {words : List (List Char)} {cs : List Char} (h : Splits space words cs)
    (front : List Char) (hfront : ∀ c ∈ front, space c = true) :
    Splits space words (front ++ cs) := by
  cases h with
  | nil hgap => exact .nil (List.forall_mem_append.2 ⟨hfront, hgap⟩)
  | cons gap hgap hne hword hrest hwords =>
      rw [← List.append_assoc, ← List.append_assoc]
      exact .cons (front ++ gap) (List.forall_mem_append.2 ⟨hfront, hgap⟩) hne hword hrest hwords

theorem Splits.append {words : List (List Char)} {cs back : List Char}
    (h : Splits space words cs) (hback : ∀ c ∈ back, space c = true) :
    Splits space words (cs ++ back) := by
  induction h with
  | nil hgap => exact .nil (List.forall_mem_append.2 ⟨hgap, hback⟩)
  | @cons gap word rest words hgap hne hword hrest hwords ih =>
      rw [List.append_assoc]
      refine .cons gap hgap hne hword ?_ ih
      intro c hc
      cases rest with
      | nil => exact hback c (List.mem_of_mem_head? hc)
      | cons r rs => exact hrest c hc

/-- **The words that `split` finds make up the text**, also from within a word. -/
theorem splits_wordsFrom (cs : List Char) :
    Splits space (wordsFrom (fun c => !space c) [] cs) cs ∧
    ∀ word, word ≠ [] → (∀ c ∈ word, space c = false) →
      Splits space (wordsFrom (fun c => !space c) word cs) (word.reverse ++ cs) := by
  induction cs with
  | nil =>
      refine ⟨.nil (List.forall_mem_nil _), ?_⟩
      intro word hne hword
      rw [wordsFrom, if_neg (by simpa using hne)]
      have hend : Splits space [] [] := .nil (List.forall_mem_nil _)
      exact .cons [] (List.forall_mem_nil _) (by simpa using hne)
        (fun c hc => hword c (List.mem_reverse.1 hc)) (by simp) hend
  | cons c cs ih =>
      cases hc : space c with
      | true =>
          have hcs : Splits space (wordsFrom (fun c => !space c) [] cs) (c :: cs) :=
            ih.1.prepend [c] (by simpa using hc)
          constructor
          · rw [wordsFrom, if_neg (by simp [hc])]
            exact hcs
          · intro word hne hword
            rw [wordsFrom, if_neg (by simp [hc]), if_neg (by simpa using hne)]
            exact .cons [] (List.forall_mem_nil _) (by simpa using hne)
              (fun d hd => hword d (List.mem_reverse.1 hd)) (by simpa using hc) hcs
      | false =>
          constructor
          · rw [wordsFrom, if_pos (by simp [hc])]
            exact ih.2 [c] (List.cons_ne_nil c []) (by simpa using hc)
          · intro word hne hword
            rw [wordsFrom, if_pos (by simp [hc])]
            have hcs := ih.2 (c :: word) (List.cons_ne_nil c word)
              (List.forall_mem_cons.2 ⟨hc, hword⟩)
            rw [List.reverse_cons, List.append_assoc] at hcs
            exact hcs

end Spaces

/-- How the method and the port of a request may be spelled. -/
structure Spelling where
  method : List Char → Prop
  port : List Char → Prop

section Statement

variable (u : Unicode) (n : Names)

/-- `CONNECT` to the letter, and a port of digits alone that is 443. -/
def exactly : Spelling where
  method := fun cs => cs = "CONNECT".toList
  port := fun cs => cs ≠ [] ∧ (∀ c ∈ cs, c.isDigit = true) ∧
    intOfText u (String.ofList cs) = some 443

/-- `CONNECT` in any case, and a port that `int` reads as 443. -/
def asRead : Spelling where
  method := fun cs => cs.map Char.toUpper = "CONNECT".toList
  port := fun cs => intOfText u (String.ofList cs) = some 443

/-- The bytes begin with a head of at most `MAX_HEADER_BYTES`: a request line
in ASCII of three words, and lines down to a blank one. -/
def Head (s : Stream) (method target version : List Char) : Prop :=
  ∃ line block rest text, s.bytes = line ++ (block ++ rest) ∧
    Line s.closed line (block ++ rest) ∧ Headers s.closed block rest ∧
    line.length + block.length ≤ maxHeaderBytes ∧
    decodeAscii line = some text ∧ Splits u.isSpace [method, target, version] text

/-- The bytes ask for a tunnel to port 443 of a host. -/
def Tunnel (spelling : Spelling) (s : Stream) (host : String) : Prop :=
  ∃ method name port version, Head u s method (name ++ ':' :: port) version ∧
    (version = "HTTP/1.0".toList ∨ version = "HTTP/1.1".toList) ∧
    spelling.method method ∧ ':' ∉ name ∧ ':' ∉ port ∧ spelling.port port ∧
    canonicalDnsHostname u n (String.ofList name) = .ok host

variable {u n}

/-- The address of a record, if it has one of the two families. -/
def AddressOf (n : Names) (r : Record) (address : Address) : Prop :=
  (r.family = .inet ∨ r.family = .inet6) ∧
    ∃ text, r.sockaddr = some text ∧ n.ipAddress text = some address

/-- A client is admitted: it asks for a tunnel to a configured host that is
no address, and the host has global addresses only. -/
structure Admitted (spelling : Spelling) (net : Network) (allowed : AllowedHosts u n)
    (s : Stream) (host : String) (records : List Record) : Prop where
  tunnel : Tunnel u n spelling s host
  configured : host ∈ allowed.hosts
  noLiteral : n.ipAddress host = none
  answer : net.getaddrinfo host = .records records
  isGlobal : ∀ r ∈ records, ∃ address, AddressOf n r address ∧ address.isGlobal = true

/-- The statuses that `_handle_client` answers an error with. -/
def errorStatuses : List String :=
  ["400 Bad Request", "403 Forbidden", "405 Method Not Allowed", "502 Bad Gateway"]

/-- **The proxy is confined** on the bytes of a client, in a network: what it
connects to is an address of the host that the client is admitted to, and a
client that is admitted to none gets an error and no connection. -/
structure Confined (spelling : Spelling) (net : Network) (allowed : AllowedHosts u n)
    (s : Stream) : Prop where
  connects : (handleClient u n net allowed s).attempts ≠ [] →
    ∃ host records, Admitted spelling net allowed s host records ∧
      ∀ a ∈ (handleClient u n net allowed s).attempts, a.port = 443 ∧
        ∃ r ∈ records, a.family = r.family ∧
          ∃ address, AddressOf n r address ∧ a.address = address.compressed
  refuses : (¬ ∃ host records, Admitted spelling net allowed s host records) →
    (handleClient u n net allowed s).attempts = [] ∧
      ∃ status ∈ errorStatuses,
        (handleClient u n net allowed s).response = some (errorResponse status)

end Statement

/-! ## §2. The bytes that are read. -/

theorem notMem_takeWhile (bytes : List UInt8) :
    newline ∉ bytes.takeWhile (· != newline) := by
  intro h
  have hne := List.mem_takeWhile_imp h
  simp at hne

/-- A line that is read is a line, and what is left follows it. -/
theorem line_of_readLine {closed : Bool} {bytes line rest : List UInt8}
    (h : readLine closed bytes = .ok (line, rest)) :
    bytes = line ++ rest ∧ Line closed line rest := by
  have hsplit := List.takeWhile_append_dropWhile (p := (· != newline)) (l := bytes)
  have htext := notMem_takeWhile bytes
  have hdrop : bytes.drop (bytes.takeWhile (· != newline)).length =
      bytes.dropWhile (· != newline) := by
    rw [List.dropWhile_eq_drop_findIdx_not, List.takeWhile_eq_take_findIdx_not]
    simp [List.findIdx_le_length]
  unfold readLine at h
  simp only [hdrop] at h
  split at h
  · rename_i b rest' hrest
    split at h
    · cases h
    · cases h
      -- the first byte after the text is the newline
      have hb : b = newline := by
        have hhead := List.head_dropWhile_not (· != newline) (w := by rw [hrest]; simp)
        simpa [hrest] using hhead
      rw [hrest, hb] at hsplit
      refine ⟨?_, .ended _ htext⟩
      rw [List.append_assoc]
      exact hsplit.symm
  · rename_i hrest
    split at h
    · cases h
    · split at h
      · next hclosed =>
          cases h
          rw [hrest] at hsplit
          exact ⟨hsplit.symm, .cut hclosed htext⟩
      · cases h

/-- Header lines that are read without an error end with a blank one. -/
theorem headers_of_readHeaders {closed : Bool} (bytes : List UInt8) : ∀ {total : Nat},
    readHeaders closed total bytes = .ok () →
    ∃ block rest, bytes = block ++ rest ∧ Headers closed block rest ∧
      total + block.length ≤ maxHeaderBytes := by
  induction hn : bytes.length using Nat.strong_induction_on generalizing bytes with
  | _ m ih =>
      intro total h
      rw [readHeaders] at h
      split at h
      · cases h
      · rename_i header rest hline
        obtain ⟨hbytes, hheader⟩ := line_of_readLine hline
        split at h
        · cases h
        · split at h
          · rename_i hle hblank
            exact ⟨header, rest, hbytes, .blank hheader hblank, by omega⟩
          · rename_i hle hblank
            have hne : header ≠ [] := by
              rintro rfl
              exact hblank rfl
            have hlt := readLine_lt hline hne
            obtain ⟨block, after, rfl, hblock, hlen⟩ := ih rest.length (by omega) rest rfl h
            refine ⟨header ++ block, after, ?_, ?_, ?_⟩
            · rw [hbytes, List.append_assoc]
            · exact .more hheader (by simpa using hblank) hblock
            · rw [List.length_append]
              omega

section Parsed

variable {u : Unicode} {n : Names}

/-- What stripping takes away is white space. -/
theorem stripChars_split (cs : List Char) :
    ∃ front back, cs = front ++ (u.stripChars cs ++ back) ∧
      (∀ c ∈ front, u.isSpace c = true) ∧ ∀ c ∈ back, u.isSpace c = true := by
  refine ⟨cs.takeWhile u.isSpace, (cs.dropWhile u.isSpace).rtakeWhile u.isSpace, ?_, ?_, ?_⟩
  · unfold Platform.stripChars
    rw [List.rdropWhile_append_rtakeWhile, List.takeWhile_append_dropWhile]
  · exact fun c hc => List.mem_takeWhile_imp hc
  · exact fun c hc => List.mem_rtakeWhile_imp hc

/-- A request that is read begins the bytes. -/
theorem head_of_readRequest {s : Stream} {upper target : List Char}
    (h : readRequest u s = .ok (upper, target)) :
    ∃ method version, upper = method.map Char.toUpper ∧ Head u s method target version ∧
      (version = "HTTP/1.0".toList ∨ version = "HTTP/1.1".toList) := by
  unfold readRequest at h
  obtain ⟨⟨line, after⟩, hline, h⟩ := bind_eq_ok.1 h
  obtain ⟨hbytes, hterm⟩ := line_of_readLine hline
  simp only at h
  split at h
  · cases h
  · split at h
    · cases h
    · rename_i text htext
      split at h
      · rename_i method target' version hwords
        split at h
        · rename_i hversion
          obtain ⟨⟨⟩, hheaders, h⟩ := bind_eq_ok.1 h
          cases h
          obtain ⟨block, rest, rfl, hblock, hlen⟩ := headers_of_readHeaders after hheaders
          obtain ⟨front, back, hstrip, hfront, hback⟩ := stripChars_split (u := u) text
          have hsplits : Splits u.isSpace (splitWords u (u.stripChars text)) _ :=
            (splits_wordsFrom (u.stripChars text)).1
          have hfull : Splits u.isSpace [method, target, version] text := by
            rw [hstrip, ← hwords]
            exact (hsplits.append hback).prepend front hfront
          exact ⟨method, version, rfl,
            ⟨line, block, rest, text, hbytes, hterm, hblock, hlen, htext, hfull⟩, hversion⟩
        · cases h
      · cases h

/-- A canonical host is no address, and every character of it is in ASCII. -/
theorem canonical_ok {value host : String} (h : canonicalDnsHostname u n value = .ok host) :
    n.ipAddress host = none ∧ host.toList.all (·.toNat < 128) = true := by
  unfold canonicalDnsHostname at h
  simp only at h
  split at h
  · cases h
  · split at h
    · cases h
    · split at h
      · cases h
      · rename_i hliteral
        split at h
        · cases h
        · rename_i hform
          cases h
          refine ⟨by simpa using hliteral, ?_⟩
          simp only [Bool.or_eq_true, Bool.not_eq_true', not_or, Bool.not_eq_false,
            hostForm, Bool.and_eq_true] at hform
          rw [List.all_eq_true] at hform ⊢
          intro c hc
          have hchar := hform.1.1.1 c hc
          simp only [isHostChar, Char.isDigit, Bool.or_eq_true, Bool.and_eq_true,
            decide_eq_true_eq, beq_iff_eq] at hchar
          rcases hchar with ((hlower | ⟨-, hnine⟩) | rfl) | rfl
          · have hz := of_decide_eq_true (Bool.and_eq_true_iff.1 hlower).2
            exact decide_eq_true (Nat.lt_of_le_of_lt hz (by decide))
          · exact decide_eq_true (Nat.lt_of_le_of_lt hnine (by decide))
          · decide
          · decide

/-- A target that is parsed is a host and a port. -/
theorem target_of_parse {target : List Char} {host : String}
    (h : parseConnectTarget u n target = .ok host) :
    ∃ name port, target = name ++ ':' :: port ∧ ':' ∉ name ∧ ':' ∉ port ∧
      canonicalDnsHostname u n (String.ofList name) = .ok host ∧
      intOfText u (String.ofList port) = some 443 := by
  unfold parseConnectTarget at h
  simp only at h
  split at h
  · cases h
  · rename_i hcount
    rw [not_not] at hcount
    have hmem : ':' ∈ target := List.count_pos_iff.1 (by omega)
    obtain ⟨name, port, rfl, hname⟩ := List.eq_append_cons_of_mem hmem
    have hport : ':' ∉ port := by
      rw [List.count_append, List.count_cons_self] at hcount
      exact List.count_eq_zero.1 (by omega)
    have hfront : ∀ c ∈ name, (c != ':') = true := by
      intro c hc
      rw [bne_iff_ne]
      rintro rfl
      exact hname hc
    rw [List.takeWhile_append_of_pos hfront, List.dropWhile_append_of_pos hfront] at h
    simp only [List.takeWhile_cons, List.dropWhile_cons, bne_self_eq_false, Bool.false_eq_true,
      if_false, List.append_nil, List.drop_succ_cons, List.drop_zero] at h
    split at h
    · split at h <;> cases h
    · rename_i host' hhost
      split at h
      · cases h
      · rename_i value hvalue
        split at h
        · cases h
        · rename_i h443
          cases h
          rw [not_not] at h443
          exact ⟨name, port, rfl, hname, hport, hhost, by rw [hvalue, h443]⟩

/-! ## §3. The addresses that are tried. -/

/-- Where texts in ASCII are compared, the requested host is the configured
one, or none is. -/
theorem authorizedHost_eq {requested : String}
    (hrequested : requested.toList.all (·.toNat < 128) = true) {hosts : List String}
    (hhosts : ∀ host ∈ hosts, host.toList.all (·.toNat < 128) = true) :
    authorizedHost requested hosts =
      some (if requested ∈ hosts then some requested else none) := by
  induction hosts with
  | nil => rfl
  | cons host hosts ih =>
      have hcompare : compareDigest requested host = some (requested == host) := by
        rw [compareDigest, hrequested, hhosts host List.mem_cons_self, Bool.and_self, if_pos rfl]
      have htail := ih fun other hother => hhosts other (List.mem_cons_of_mem _ hother)
      rw [authorizedHost, hcompare]
      by_cases heq : requested = host
      · subst heq
        rw [beq_self_eq_true, if_pos List.mem_cons_self]
      · rw [beq_eq_false_iff_ne.2 heq]
        show authorizedHost requested hosts = _
        rw [htail]
        simp [heq]

/-- The configured hosts are in ASCII. -/
theorem AllowedHosts.ascii (allowed : AllowedHosts u n) :
    ∀ host ∈ allowed.hosts, host.toList.all (·.toNat < 128) = true := by
  intro host hhost
  obtain ⟨value, hvalue⟩ := allowed.canonical host hhost
  unfold canonicalAllowedHost at hvalue
  cases hcanonical : canonicalDnsHostname u n value with
  | error message => rw [hcanonical] at hvalue; cases hvalue
  | ok canonical =>
      rw [hcanonical] at hvalue
      cases hvalue
      exact (canonical_ok hcanonical).2

theorem globalAddress_ok {text : String} {address : Address}
    (h : globalAddress n text = .ok address) :
    n.ipAddress text = some address ∧ address.isGlobal = true := by
  unfold globalAddress at h
  split at h
  · cases h
  · rename_i parsed hparsed
    split at h
    · rename_i hglobal
      cases h
      exact ⟨hparsed, hglobal⟩
    · cases h

/-- An endpoint is the address of its record, and it is global. -/
theorem endpoint_ok {r : Record} {endpoint : Endpoint} (h : endpointOf n r = .ok endpoint) :
    endpoint.1 = r.family ∧ ∃ address, AddressOf n r address ∧ address.isGlobal = true ∧
      endpoint.2 = address.compressed := by
  have hread : ∀ {text : String}, (r.family = .inet ∨ r.family = .inet6) →
      r.sockaddr = some text →
      (globalAddress n text).map (fun parsed => (r.family, parsed.compressed)) = .ok endpoint →
      endpoint.1 = r.family ∧ ∃ address, AddressOf n r address ∧ address.isGlobal = true ∧
        endpoint.2 = address.compressed := by
    intro text hfamily htext hmap
    obtain ⟨address, haddress, rfl⟩ := map_eq_ok.1 hmap
    obtain ⟨hparsed, hglobal⟩ := globalAddress_ok haddress
    exact ⟨rfl, address, ⟨hfamily, text, htext, hparsed⟩, hglobal, rfl⟩
  obtain ⟨family, sockaddr⟩ := r
  cases sockaddr with
  | none => cases family <;> cases h
  | some text =>
      cases family with
      | other number => cases h
      | inet => exact hread (.inl rfl) rfl h
      | inet6 => exact hread (.inr rfl) rfl h

/-- **All records or none**: the loop ends where every record has an
endpoint, and every endpoint is one of before or of a record. -/
theorem collectEndpoints_ok {records : List Record} : ∀ {before endpoints : List Endpoint},
    collectEndpoints n before records = .ok endpoints →
    (∀ r ∈ records, ∃ endpoint, endpointOf n r = .ok endpoint) ∧
    ∀ e ∈ endpoints, e ∈ before ∨ ∃ r ∈ records, endpointOf n r = .ok e := by
  induction records with
  | nil =>
      intro before endpoints h
      cases h
      exact ⟨List.forall_mem_nil _, fun e he => .inl he⟩
  | cons r records ih =>
      intro before endpoints h
      obtain ⟨endpoint, hendpoint, h⟩ := bind_eq_ok.1 h
      obtain ⟨hall, hfrom⟩ := ih h
      refine ⟨List.forall_mem_cons.2 ⟨⟨endpoint, hendpoint⟩, hall⟩, fun e he => ?_⟩
      rcases hfrom e he with hbefore | ⟨r', hr', he'⟩
      · split at hbefore
        · exact .inl hbefore
        · rcases List.mem_append.1 hbefore with hbefore | hlast
          · exact .inl hbefore
          · rw [List.mem_singleton.1 hlast]
            exact .inr ⟨r, List.mem_cons_self, hendpoint⟩
      · exact .inr ⟨r', List.mem_cons_of_mem r hr', he'⟩

/-- Every attempt is for port 443 of an endpoint. -/
theorem mem_connectEach {net : Network} {endpoints : List Endpoint} :
    ∀ a ∈ (connectEach net endpoints).1, a.port = 443 ∧ (a.family, a.address) ∈ endpoints := by
  induction endpoints with
  | nil => exact List.forall_mem_nil _
  | cons e endpoints ih =>
      obtain ⟨family, address⟩ := e
      intro a ha
      have hfirst : ∀ b : Attempt, b = ⟨address, 443, family⟩ →
          b.port = 443 ∧ (b.family, b.address) ∈ (family, address) :: endpoints := by
        rintro b rfl
        exact ⟨rfl, List.mem_cons_self⟩
      rw [connectEach] at ha
      split at ha
      · exact hfirst a (List.mem_singleton.1 ha)
      · exact hfirst a (List.mem_singleton.1 ha)
      · rcases List.mem_cons.1 ha with ha | ha
        · exact hfirst a ha
        · exact ⟨(ih a ha).1, List.mem_cons_of_mem _ (ih a ha).2⟩

/-- **What is tried is of the answer**, and the whole answer is global. -/
theorem openPublicConnection_attempts {net : Network} {host : String}
    (hne : (openPublicConnection n net host).1 ≠ []) :
    ∃ records, net.getaddrinfo host = .records records ∧
      (∀ r ∈ records, ∃ address, AddressOf n r address ∧ address.isGlobal = true) ∧
      ∀ a ∈ (openPublicConnection n net host).1, a.port = 443 ∧
        ∃ r ∈ records, a.family = r.family ∧
          ∃ address, AddressOf n r address ∧ a.address = address.compressed := by
  unfold openPublicConnection at hne ⊢
  cases hanswer : net.getaddrinfo host with
  | osError => rw [hanswer] at hne; exact absurd rfl hne
  | valueError => rw [hanswer] at hne; exact absurd rfl hne
  | stalls => rw [hanswer] at hne; exact absurd rfl hne
  | records rs =>
      rw [hanswer] at hne
      cases hpublic : publicEndpoints n rs with
      | error e => simp only [hpublic] at hne; exact absurd rfl hne
      | ok endpoints =>
          simp only [hpublic]
          have hcollect : collectEndpoints n [] rs = .ok endpoints := by
            unfold publicEndpoints at hpublic
            obtain ⟨collected, hcollected, h⟩ := bind_eq_ok.1 hpublic
            split at h
            · cases h
            · cases h
              exact hcollected
          obtain ⟨hall, hfrom⟩ := collectEndpoints_ok hcollect
          refine ⟨rs, rfl, fun r hr => ?_, fun a ha => ?_⟩
          · obtain ⟨endpoint, hendpoint⟩ := hall r hr
            obtain ⟨-, address, hof, hglobal, -⟩ := endpoint_ok hendpoint
            exact ⟨address, hof, hglobal⟩
          · obtain ⟨hport, hmem⟩ := mem_connectEach a ha
            rcases hfrom _ hmem with hnil | ⟨r, hr, hendpoint⟩
            · cases hnil
            · obtain ⟨hfamily, address, hof, -, haddress⟩ := endpoint_ok hendpoint
              exact ⟨hport, r, hr, hfamily, address, hof, haddress⟩

/-- A connection that stands was tried. -/
theorem attempts_of_ok {net : Network} {host : String}
    (h : (openPublicConnection n net host).2 = .ok ()) :
    (openPublicConnection n net host).1 ≠ [] := by
  have heach : ∀ endpoints, (connectEach net endpoints).2 = .ok () →
      (connectEach net endpoints).1 ≠ [] := by
    intro endpoints hok
    cases endpoints with
    | nil => cases hok
    | cons e endpoints =>
        obtain ⟨family, address⟩ := e
        rw [connectEach]
        split <;> exact List.cons_ne_nil _ _
  unfold openPublicConnection at h ⊢
  cases hanswer : net.getaddrinfo host with
  | osError => rw [hanswer] at h; cases h
  | valueError => rw [hanswer] at h; cases h
  | stalls => rw [hanswer] at h; cases h
  | records rs =>
      rw [hanswer] at h
      cases hpublic : publicEndpoints n rs with
      | error e => simp only [hpublic] at h; cases h
      | ok endpoints =>
          simp only [hpublic] at h ⊢
          exact heach endpoints h

/-! ## §4. What one client brings about. -/

/-- The client that is let through to the resolver: it asks for a tunnel to
a configured host. -/
structure LetThrough (allowed : AllowedHosts u n) (s : Stream) (host : String) : Prop where
  tunnel : Tunnel u n (asRead u) s host
  configured : host ∈ allowed.hosts
  noLiteral : n.ipAddress host = none

/-- **Every client** is refused with nothing tried, or is let through; then
it is told of a connection that stands, or gets an error. -/
theorem handleClient_cases (net : Network) (allowed : AllowedHosts u n) (s : Stream) :
    (∃ status ∈ errorStatuses, handleClient u n net allowed s = .refused [] status) ∨
    ∃ host, LetThrough allowed s host ∧
      (handleClient u n net allowed s).attempts = (openPublicConnection n net host).1 ∧
      ((openPublicConnection n net host).2 = .ok () ∨
        ∃ status ∈ errorStatuses,
          (handleClient u n net allowed s).response = some (errorResponse status)) := by
  unfold handleClient
  cases hread : readRequest u s with
  | error e => exact .inl ⟨_, by decide, rfl⟩
  | ok request =>
      obtain ⟨upper, target⟩ := request
      by_cases hmethod : upper = "CONNECT".toList
      · simp only [hmethod, ne_eq, not_true_eq_false, if_false]
        cases hparse : parseConnectTarget u n target with
        | error e => exact .inl ⟨_, by decide, rfl⟩
        | ok requested =>
            obtain ⟨name, port, rfl, hname, hport, hhost, h443⟩ := target_of_parse hparse
            obtain ⟨method, version, hupper, hhead, hversion⟩ := head_of_readRequest hread
            obtain ⟨hliteral, hascii⟩ := canonical_ok hhost
            simp only [authorizedHost_eq hascii allowed.ascii]
            by_cases hmem : requested ∈ allowed.hosts
            · refine .inr ⟨requested, ⟨⟨method, name, port, version, hhead, hversion,
                hupper.symm.trans hmethod, hname, hport, h443, hhost⟩, hmem, hliteral⟩, ?_⟩
              simp only [if_pos hmem]
              cases hopen : openPublicConnection n net requested with
              | mk attempts result =>
                  cases result with
                  | ok done => exact ⟨rfl, .inl rfl⟩
                  | error e =>
                      cases e with
                      | unsafeResolution message => exact ⟨rfl, .inr ⟨_, by decide, rfl⟩⟩
                      | osError => exact ⟨rfl, .inr ⟨_, by decide, rfl⟩⟩
                      | timeout => exact ⟨rfl, .inr ⟨_, by decide, rfl⟩⟩
                      | valueError => exact ⟨rfl, .inr ⟨_, by decide, rfl⟩⟩
            · simp only [if_neg hmem]
              exact .inl ⟨_, by decide, rfl⟩
      · simp only [ne_eq, hmethod, not_false_eq_true, if_true]
        exact .inl ⟨_, by decide, rfl⟩

end Parsed

/-- **The egress proxy is confined**, for every client, configuration,
resolver and network. -/
theorem confined (u : Unicode) (n : Names) (net : Network) (allowed : AllowedHosts u n)
    (s : Stream) : Confined (asRead u) net allowed s := by
  have hconnects : (handleClient u n net allowed s).attempts ≠ [] →
      ∃ host records, Admitted (asRead u) net allowed s host records ∧
        ∀ a ∈ (handleClient u n net allowed s).attempts, a.port = 443 ∧
          ∃ r ∈ records, a.family = r.family ∧
            ∃ address, AddressOf n r address ∧ a.address = address.compressed := by
    intro hne
    rcases handleClient_cases net allowed s with ⟨status, -, hrefused⟩ | ⟨host, hthrough, hopen, -⟩
    · rw [hrefused] at hne
      exact absurd rfl hne
    · rw [hopen] at hne ⊢
      obtain ⟨records, hanswer, hglobal, hof⟩ := openPublicConnection_attempts hne
      exact ⟨host, records, ⟨hthrough.tunnel, hthrough.configured, hthrough.noLiteral, hanswer,
        hglobal⟩, hof⟩
  refine ⟨hconnects, fun hnot => ?_⟩
  -- a client that is admitted to nothing has nothing tried for it
  have hnone : (handleClient u n net allowed s).attempts = [] := by
    by_contra hne
    obtain ⟨host, records, hadmitted, -⟩ := hconnects hne
    exact hnot ⟨host, records, hadmitted⟩
  refine ⟨hnone, ?_⟩
  rcases handleClient_cases net allowed s with ⟨status, hstatus, hrefused⟩ | ⟨host, -, hopen, hend⟩
  · exact ⟨status, hstatus, by rw [hrefused]; rfl⟩
  · rcases hend with hok | herror
    · rw [hnone] at hopen
      exact absurd hopen.symm (attempts_of_ok hok)
    · exact herror

/-! ## §5. The spellings beyond the exact ones. -/

/-- A word of a text is part of it. -/
theorem Splits.part {space : Char → Bool} {words : List (List Char)} {cs : List Char}
    (h : Splits space words cs) : ∀ w ∈ words, w <:+: cs := by
  induction h with
  | nil hgap => exact List.forall_mem_nil _
  | @cons gap word rest words hgap hne hword hrest hwords ih =>
      intro w hw
      rcases List.mem_cons.1 hw with rfl | hw
      · exact ⟨gap, rest, rfl⟩
      · exact (ih w hw).trans (List.suffix_append _ _).isInfix

/-- The characters of what a client has sent. -/
def Stream.chars (s : Stream) : List Char := s.bytes.map fun b => Char.ofNat b.toNat

/-- The words of a request line are part of what was sent. -/
theorem Head.part {u : Unicode} {s : Stream} {method target version : List Char}
    (h : Head u s method target version) : method <:+: s.chars ∧ target <:+: s.chars := by
  obtain ⟨line, block, rest, text, hbytes, -, -, -, htext, hsplits⟩ := h
  have hline : text <:+: s.chars := by
    unfold decodeAscii at htext
    split at htext
    · cases htext
      unfold Stream.chars
      rw [hbytes, List.map_append]
      exact (List.prefix_append _ _).isInfix
    · cases htext
  exact ⟨(hsplits.part method (by simp)).trans hline, (hsplits.part target (by simp)).trans hline⟩

/-- A client that sends a text and waits. -/
def sends (text : String) : Stream :=
  { bytes := text.toList.map fun c => c.toNat.toUInt8, closed := false }

/-- One public address can be read, and no host has to be encoded. -/
def plainNames : Names where
  idna := some
  ipAddress := fun text => if text = "8.8.8.8" then some ⟨"8.8.8.8", true⟩ else none

/-- Every host has that address, and it can be connected to. -/
def plainNetwork : Network where
  getaddrinfo := fun _ => .records [⟨.inet, some "8.8.8.8"⟩]
  connect := fun _ => .connects

/-- One host is configured. -/
def plainHosts : AllowedHosts .ascii plainNames where
  hosts := ["a.example"]
  canonical := fun host hhost => ⟨"a.example", by
    rw [List.mem_singleton.1 hhost]
    decide +kernel⟩
  nonempty := List.cons_ne_nil _ _

theorem signed_connects : (handleClient .ascii plainNames plainNetwork plainHosts
    (sends "CONNECT a.example:+443 HTTP/1.1\r\n\r\n")).attempts ≠ [] := by
  decide +kernel

theorem lower_connects : (handleClient .ascii plainNames plainNetwork plainHosts
    (sends "connect a.example:443 HTTP/1.1\r\n\r\n")).attempts ≠ [] := by
  decide +kernel

/-- **The proxy takes more than the exact spellings**: a port with a sign,
and a method in lower case. -/
theorem not_confined_exactly :
    ¬ Confined (exactly .ascii) plainNetwork plainHosts
        (sends "CONNECT a.example:+443 HTTP/1.1\r\n\r\n") ∧
    ¬ Confined (exactly .ascii) plainNetwork plainHosts
        (sends "connect a.example:443 HTTP/1.1\r\n\r\n") := by
  constructor
  · intro h
    obtain ⟨host, records, hadmitted, -⟩ := h.connects signed_connects
    obtain ⟨method, name, port, version, hhead, -, -, hname, hport, hdigits, -⟩ :=
      hadmitted.tunnel
    obtain ⟨front, back, hchars⟩ := hhead.part.2
    -- the one colon that was sent is the one before the port
    have hsent : (sends "CONNECT a.example:+443 HTTP/1.1\r\n\r\n").chars =
        "CONNECT a.example".toList ++ ':' :: "+443 HTTP/1.1\r\n\r\n".toList := by
      decide +kernel
    have hport' : "+443 HTTP/1.1\r\n\r\n".toList = port ++ back := by
      have hboth : "CONNECT a.example".toList ++ ':' :: "+443 HTTP/1.1\r\n\r\n".toList =
          (front ++ name) ++ ':' :: (port ++ back) := by
        rw [← hsent, ← hchars]
        simp [List.append_assoc]
      exact ((List.append_cons_inj_of_notMem (by decide) (by decide)).1 hboth).2.2
    obtain ⟨hne, hall, -⟩ := hdigits
    cases port with
    | nil => exact hne rfl
    | cons c port =>
        have hc : c = '+' := ((List.cons.inj hport').1).symm
        have hdigit := hall c List.mem_cons_self
        rw [hc] at hdigit
        exact absurd hdigit (by decide)
  · intro h
    obtain ⟨host, records, hadmitted, -⟩ := h.connects lower_connects
    obtain ⟨method, name, port, version, hhead, -, hmethod, -⟩ := hadmitted.tunnel
    have hinfix := hhead.part.1
    rw [show method = "CONNECT".toList from hmethod] at hinfix
    have hcapital := hinfix.subset (show 'C' ∈ "CONNECT".toList by decide)
    exact absurd hcapital (by decide +kernel)

end Rpy.Egress

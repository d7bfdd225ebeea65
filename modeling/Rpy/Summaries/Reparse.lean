/-
  Rpy.Summaries.Reparse
  ─────────────────────
  **PARSING A PARSED SUMMARY AGAIN** (`parse_structured_summary`).

  Every text of a parsed summary is in the form parsing brings texts to,
  so that parsing it again changes nothing.  But the bounds of the
  synthesis, of the current status and of the text of a claim are checked
  before a word joiner is put in front of a text that begins like a block
  of markdown: one at its bound is refused the second time.

    • `parsePayload_eq_ok` — what an accepted payload is,
    • `Parses.again`        — a parsed summary is parsed as itself when it is
                              within its bounds,
    • `Parses.bounded_iff`  — when it is, in terms of the payload,
    • `parse_stable_iff`    — and so for a text and its canonical document.
-/
import Rpy.Summaries.Output

namespace Rpy.Summaries

open Rpy.Foundation

section Spec

variable {u : Unicode}

/-! ## §1. What is accepted. -/

theorem parseProse_eq_ok {value : Json} {field : String} {maxChars : Nat} {s : String} :
    parseProse u value field maxChars = .ok s ↔
      ∃ t, value = .str t ∧ inlineText u t ≠ "" ∧ t.length ≤ maxChars ∧ s = proseLine u t := by
  constructor
  · intro h
    cases value with
    | str t =>
        rw [parseProse] at h
        split at h
        · cases h
        · next hne =>
            split at h
            · cases h
            · next hlength =>
                exact ⟨t, rfl, by simpa using hne, Nat.not_lt.1 hlength,
                  (Except.ok.inj h).symm⟩
    | _ => cases h
  · rintro ⟨t, rfl, hne, hlength, hs⟩
    rw [hs, parseProse, if_neg (by simpa using hne), if_neg (Nat.not_lt.2 hlength)]

theorem stringItems_map (items : List String) : stringItems (items.map .str) = some items := by
  induction items with
  | nil => rfl
  | cons s items ih => rw [List.map_cons, stringItems, ih, Option.map_some]

/-- What becomes of the items of a list. -/
def renderItems (u : Unicode) (items : List String) : List String :=
  (items.filter fun item => inlineText u item != "").map (proseLine u)

theorem stringList_eq_ok {value : Json} {field : ListField} {requireNonempty : Bool}
    {items : List String} : stringList u value field requireNonempty = .ok items ↔
      ∃ raw, stringArray value = some raw ∧ raw.length ≤ field.maxItems ∧
        items = renderItems u raw ∧ (∀ item ∈ items, item.length ≤ maxItemChars) ∧
        (requireNonempty = true → items ≠ []) := by
  unfold stringList
  constructor
  · intro h
    cases hraw : stringArray value with
    | none =>
        rw [hraw] at h
        cases h
    | some raw =>
        rw [hraw] at h
        simp only at h
        split at h
        · cases h
        -- The three checks: the number of items, their lengths, and that there is one.
        · next hcount =>
            split at h
            · cases h
            · next hlong =>
                split at h
                · cases h
                · next hempty =>
                    obtain rfl := Except.ok.inj h
                    refine ⟨raw, rfl, Nat.not_lt.1 hcount, rfl, ?_, ?_⟩
                    · intro item hitem
                      by_contra hlength
                      exact hlong (List.any_eq_true.2
                        ⟨item, hitem, decide_eq_true (Nat.lt_of_not_le hlength)⟩)
                    · intro hrequired hnil
                      rw [hrequired, hnil] at hempty
                      exact hempty rfl
  · rintro ⟨raw, hraw, hcount, rfl, hlong, hempty⟩
    have hany : ¬ ((renderItems u raw).any fun item => maxItemChars < item.length) = true := by
      intro h
      obtain ⟨item, hitem, hlength⟩ := List.any_eq_true.1 h
      exact absurd (hlong item hitem) (Nat.not_le.2 (of_decide_eq_true hlength))
    have hnonempty : ¬ (requireNonempty && (renderItems u raw).isEmpty) = true := by
      rw [Bool.and_eq_true, List.isEmpty_iff]
      rintro ⟨hrequired, hnil⟩
      exact hempty hrequired hnil
    rw [hraw]
    show (if field.maxItems < raw.length then _ else
      if (renderItems u raw).any _ then _ else
        if requireNonempty && (renderItems u raw).isEmpty then _ else _) = _
    rw [if_neg (Nat.not_lt.2 hcount), if_neg hany, if_neg hnonempty]
    rfl

theorem parseClaim_eq_ok {item : Json} {c : SummaryClaim} : parseClaim u item = .ok c ↔
    item.isObj = true ∧ item.sameKeys ["claim_id", "text", "evidence_refs"] = true ∧
      c.claimId = inline u (item.get "claim_id") ∧ c.claimId ≠ "" ∧ c.claimId.length ≤ 64 ∧
      (∃ text, item.get "text" = .str text ∧ inlineText u text ≠ "" ∧
        text.length ≤ maxSynthesisChars ∧ c.text = proseLine u text) ∧
      ∃ refs, stringArray (item.get "evidence_refs") = some refs ∧ refs ≠ [] ∧
        refs.length ≤ 32 ∧ (∀ ref ∈ refs, inlineText u ref ≠ "") ∧
        c.evidenceRefs = refs.map (inlineText u) ∧ c.evidenceRefs.Nodup := by
  unfold parseClaim
  constructor
  · intro h
    split at h
    · cases h
    · next hkeys =>
        simp only at h
        split at h
        · cases h
        · next hid =>
            split at h
            · next text htext =>
                split at h
                · cases h
                · next hne =>
                    split at h
                    · cases h
                    · next hlength =>
                        split at h
                        · cases h
                        · next refs hrefs =>
                            split at h
                            · cases h
                            · next hbad =>
                                split at h
                                · next hnodup =>
                                    -- Every check has passed; what they say is read off the
                                    -- Boolean tests.
                                    have hc := Except.ok.inj h
                                    simp only [Bool.not_eq_true', Bool.and_eq_false_iff,
                                      not_or, Bool.not_eq_false, Bool.or_eq_true, beq_iff_eq,
                                      decide_eq_true_eq, Nat.not_lt, List.isEmpty_iff,
                                      List.any_eq_true, not_exists, not_and] at hkeys hid hne hbad
                                    rw [← hc]
                                    refine ⟨hkeys.1, hkeys.2, ?_, hid.1, hid.2,
                                      ⟨text, htext, hne, Nat.not_lt.1 hlength, ?_⟩,
                                      refs, hrefs, hbad.1.1, hbad.1.2, hbad.2, ?_, hnodup⟩
                                    all_goals dsimp only
                                · cases h
            · cases h
  · rintro ⟨hobj, hkeys, hid, hidne, hidlength, ⟨text, htext, hne, hlength, hprose⟩, refs, hrefs,
      hrefsne, hcount, hblank, hrendered, hnodup⟩
    -- Back: each test is false, by what the description says.
    have hidok : ¬ ((inline u (item.get "claim_id") == "" ||
        decide (64 < (inline u (item.get "claim_id")).length)) = true) := by
      rw [← hid]
      simp [hidne, hidlength]
    have hrefsok : ¬ ((refs.isEmpty || decide (32 < refs.length) ||
        refs.any (inlineText u · == "")) = true) := by
      simp only [Bool.or_eq_true, List.isEmpty_iff, decide_eq_true_eq, List.any_eq_true, beq_iff_eq]
      rintro ((hnil | hlong) | ⟨ref, href, hempty⟩)
      · exact hrefsne hnil
      · exact absurd hcount (Nat.not_le.2 hlong)
      · exact hblank ref href hempty
    rw [if_neg (by simp [hobj, hkeys])]
    simp only
    rw [if_neg hidok, htext]
    simp only
    rw [if_neg (by simpa using hne), if_neg (Nat.not_lt.2 hlength), hrefs]
    simp only
    rw [if_neg hrefsok, if_pos (hrendered ▸ hnodup), ← hid, ← hprose, ← hrendered]

theorem parseClaims_eq_ok {value : Json} {claims : List SummaryClaim} :
    parseClaims u value = .ok claims ↔ ∃ items, value = .arr items ∧ items.length ≤ 96 ∧
      items.mapM (parseClaim u) = .ok claims := by
  constructor
  · intro h
    cases value with
    | arr items =>
        rw [parseClaims] at h
        split at h
        · cases h
        · next hcount => exact ⟨items, rfl, Nat.not_lt.1 hcount, h⟩
    | _ => cases h
  · rintro ⟨items, rfl, hcount, h⟩
    rw [parseClaims, if_neg (Nat.not_lt.2 hcount), h]

/-- The parts of an accepted payload. -/
structure Parses (u : Unicode) (payload : Json) (n : Summary) : Prop where
  isObj : payload.isObj = true
  required : legacyRequired.all payload.keys.contains = true
  within : payload.keysWithin requiredKeys = true
  synthesis : parseProse u (payload.get "synthesis") "synthesis" maxSynthesisChars =
    .ok n.synthesis
  currentStatus : parseProse u (payload.get "current_status") "current_status" maxStatusChars =
    .ok n.currentStatus
  items : ∀ field, stringList u (payload.get field.key) field (field == .attention) =
    .ok (n.items field)
  claims : parseClaims u ((payload.get? "claims").getD (.arr [])) = .ok n.claims

/-- A summary's items are read field by field. -/
theorem Summary.items_by_field (n : Summary) :
    (fun field => match field with
      | .timeline => n.items .timeline
      | .attention => n.items .attention
      | .decisions => n.items .decisions
      | .deadlines => n.items .deadlines
      | .relatedProcesses => n.items .relatedProcesses
      | .attachments => n.items .attachments) = n.items := by
  funext field
  cases field <;> rfl

/-- **What an accepted payload is.** -/
theorem parsePayload_eq_ok {payload : Json} {n : Summary} :
    parsePayload u payload = .ok n ↔ Parses u payload n := by
  unfold parsePayload
  constructor
  · intro h
    split at h
    · cases h
    · next hobj =>
        split at h
        · cases h
        · next hkeys =>
            simp only [Bool.not_eq_true', Bool.not_eq_false] at hobj hkeys
            rw [Bool.and_eq_true] at hkeys
            -- The fields in the order of the parser.
            obtain ⟨synthesis, hsynthesis, h⟩ := bind_eq_ok.1 h
            obtain ⟨currentStatus, hstatus, h⟩ := bind_eq_ok.1 h
            obtain ⟨timeline, htimeline, h⟩ := bind_eq_ok.1 h
            obtain ⟨attention, hattention, h⟩ := bind_eq_ok.1 h
            obtain ⟨decisions, hdecisions, h⟩ := bind_eq_ok.1 h
            obtain ⟨deadlines, hdeadlines, h⟩ := bind_eq_ok.1 h
            obtain ⟨related, hrelated, h⟩ := bind_eq_ok.1 h
            obtain ⟨attachments, hattachments, h⟩ := bind_eq_ok.1 h
            obtain ⟨claims, hclaims, h⟩ := bind_eq_ok.1 h
            obtain rfl := Except.ok.inj h
            refine ⟨hobj, hkeys.1, hkeys.2, hsynthesis, hstatus, fun field => ?_, hclaims⟩
            cases field with
            | timeline => exact htimeline
            | attention => exact hattention
            | decisions => exact hdecisions
            | deadlines => exact hdeadlines
            | relatedProcesses => exact hrelated
            | attachments => exact hattachments
  · intro h
    rw [if_neg (by simp [h.isObj]), if_neg (by simp [h.required, h.within])]
    refine bind_eq_ok.2 ⟨_, h.synthesis, bind_eq_ok.2 ⟨_, h.currentStatus, bind_eq_ok.2
      ⟨_, h.items .timeline, bind_eq_ok.2 ⟨_, h.items .attention, bind_eq_ok.2
        ⟨_, h.items .decisions, bind_eq_ok.2 ⟨_, h.items .deadlines, bind_eq_ok.2
          ⟨_, h.items .relatedProcesses, bind_eq_ok.2 ⟨_, h.items .attachments, bind_eq_ok.2
            ⟨_, h.claims, ?_⟩⟩⟩⟩⟩⟩⟩⟩⟩
    exact congrArg (fun items => Except.ok (Summary.mk n.synthesis n.currentStatus items n.claims))
      n.items_by_field

/-! ## §2. Parsing again. -/

theorem parseProse_again {value : Json} {field : String} {maxChars : Nat} {s : String}
    (h : parseProse u value field maxChars = .ok s) :
    parseProse u (.str s) field maxChars = .ok s ↔ s.length ≤ maxChars := by
  obtain ⟨t, -, hne, -, hs⟩ := parseProse_eq_ok.1 h
  have hsame : inlineText u s = s := by rw [hs, inlineText_proseLine]
  have hsne : inlineText u s ≠ "" := by
    rw [hsame, hs]
    exact fun hempty => hne (proseLine_eq_empty.1 hempty)
  constructor
  · intro hagain
    obtain ⟨t', ht', -, hlength, -⟩ := parseProse_eq_ok.1 hagain
    rw [Json.str.inj ht']
    exact hlength
  · intro hlength
    refine parseProse_eq_ok.2 ⟨s, rfl, hsne, hlength, ?_⟩
    rw [hs, proseLine_proseLine]

/-- What is rendered stays as it is. -/
theorem renderItems_renderItems (items : List String) :
    renderItems u (renderItems u items) = renderItems u items := by
  have hsame : ∀ item ∈ renderItems u items, inlineText u item ≠ "" ∧ proseLine u item = item := by
    intro item hitem
    obtain ⟨raw, hraw, rfl⟩ := List.mem_map.1 hitem
    have hne : inlineText u raw ≠ "" := by simpa using (List.mem_filter.1 hraw).2
    rw [inlineText_proseLine, proseLine_proseLine]
    exact ⟨fun hempty => hne (proseLine_eq_empty.1 hempty), rfl⟩
  rw [renderItems, List.filter_eq_self.2 fun item hitem => by simpa using (hsame item hitem).1]
  exact (List.map_congr_left fun item hitem => (hsame item hitem).2).trans (List.map_id _)

/-- A list is bounded after it is rendered, so that it is accepted again. -/
theorem stringList_again {value : Json} {field : ListField} {requireNonempty : Bool}
    {items : List String} (h : stringList u value field requireNonempty = .ok items) :
    stringList u (texts items) field requireNonempty = .ok items := by
  obtain ⟨raw, -, hcount, hitems, hlong, hempty⟩ := stringList_eq_ok.1 h
  refine stringList_eq_ok.2 ⟨items, stringItems_map items, ?_, ?_, hlong, hempty⟩
  · have hfewer : items.length ≤ raw.length := by
      rw [hitems, renderItems, List.length_map]
      exact List.length_filter_le _ _
    omega
  · rw [hitems, renderItems_renderItems]

theorem parseClaim_again {item : Json} {c : SummaryClaim} (h : parseClaim u item = .ok c) :
    parseClaim u c.toJson = .ok c ↔ c.text.length ≤ maxSynthesisChars := by
  obtain ⟨-, -, hid, hidne, hidlength, ⟨text, -, hne, -, htext⟩, refs, -, hrefsne, hcount, hblank,
    hrefs, hnodup⟩ := parseClaim_eq_ok.1 h
  have hsame : inlineText u c.text = c.text := by rw [htext, inlineText_proseLine]
  constructor
  · intro hagain
    obtain ⟨-, -, -, -, -, ⟨text', htext', -, hlength, -⟩, -⟩ := parseClaim_eq_ok.1 hagain
    rw [Json.str.inj htext']
    exact hlength
  · intro hlength
    refine parseClaim_eq_ok.2 ⟨rfl, ?_, ?_, hidne, hidlength,
      ⟨c.text, rfl, ?_, hlength, ?_⟩, c.evidenceRefs, stringItems_map _, ?_, ?_, ?_, ?_, hnodup⟩
    · have hkeys : c.toJson.keys = ["claim_id", "text", "evidence_refs"] := rfl
      rw [Json.sameKeys, Json.keysWithin, hkeys]
      decide
    · have hget : c.toJson.get "claim_id" = .str c.claimId := rfl
      have helse : (Json.str c.claimId).orElse (.str "") = .str c.claimId := by
        rw [Json.orElse]
        split
        · rfl
        · next hfalsy =>
            have hempty : c.claimId = "" := by simpa [Json.isTrue] using hfalsy
            exact absurd hempty hidne
      rw [hget, inline, helse, u.str_str, hid, inline, inlineText_inlineText]
    · rw [hsame, htext]
      exact fun hempty => hne (proseLine_eq_empty.1 hempty)
    · rw [htext, proseLine_proseLine]
    · rw [hrefs]
      simpa using hrefsne
    · rw [hrefs, List.length_map]
      exact hcount
    · intro ref href
      rw [hrefs] at href
      obtain ⟨raw, hraw, rfl⟩ := List.mem_map.1 href
      rw [inlineText_inlineText]
      exact hblank raw hraw
    · rw [hrefs, List.map_map]
      exact List.map_congr_left fun ref _ => (inlineText_inlineText ref).symm

theorem parseClaims_again {value : Json} {claims : List SummaryClaim}
    (h : parseClaims u value = .ok claims) :
    parseClaims u (.arr (claims.map SummaryClaim.toJson)) = .ok claims ↔
      ∀ c ∈ claims, c.text.length ≤ maxSynthesisChars := by
  obtain ⟨items, -, hcount, hitems⟩ := parseClaims_eq_ok.1 h
  have hparsed := forall₂_of_mapM_eq_ok hitems
  have hagain : ∀ c ∈ claims,
      (parseClaim u c.toJson = .ok c ↔ c.text.length ≤ maxSynthesisChars) := by
    intro c hc
    obtain ⟨item, -, hitem⟩ := exists_of_forall₂_right hparsed hc
    exact parseClaim_again hitem
  constructor
  · intro hall c hc
    obtain ⟨items', hitems', -, hparsed'⟩ := parseClaims_eq_ok.1 hall
    rw [← Json.arr.inj hitems'] at hparsed'
    have hself := List.forall₂_map_left_iff.1 (forall₂_of_mapM_eq_ok hparsed')
    exact (hagain c hc).1 (List.forall₂_same.1 hself c hc)
  · intro hall
    refine parseClaims_eq_ok.2 ⟨_, rfl, ?_, mapM_eq_ok_of_forall₂ ?_⟩
    · rw [List.length_map, ← hparsed.length_eq]
      exact hcount
    · exact List.forall₂_map_left_iff.2
        (List.forall₂_same.2 fun c hc => (hagain c hc).2 (hall c hc))

/-- The texts of a summary that parsing checks before it puts a word
joiner in front of them are within their bounds. -/
structure Bounded (n : Summary) : Prop where
  synthesis : n.synthesis.length ≤ maxSynthesisChars
  currentStatus : n.currentStatus.length ≤ maxStatusChars
  claims : ∀ c ∈ n.claims, c.text.length ≤ maxSynthesisChars

/-- **A parsed summary is parsed again when it is within its bounds.** -/
theorem Parses.again {payload : Json} {n : Summary} (h : Parses u payload n) :
    parsePayload u n.toJson = .ok n ↔ Bounded n := by
  have hsynthesis := parseProse_again h.synthesis
  have hstatus := parseProse_again h.currentStatus
  have hclaims := parseClaims_again h.claims
  rw [parsePayload_eq_ok]
  constructor
  · intro hagain
    exact ⟨hsynthesis.1 hagain.synthesis, hstatus.1 hagain.currentStatus,
      hclaims.1 hagain.claims⟩
  · intro hbounded
    have hkeys : n.toJson.keys = ["synthesis", "timeline", "current_status", "attention",
      "decisions", "deadlines", "related_processes", "attachments", "claims"] := rfl
    refine ⟨rfl, ?_, ?_, hsynthesis.2 hbounded.synthesis, hstatus.2 hbounded.currentStatus, ?_,
      hclaims.2 hbounded.claims⟩
    · rw [hkeys]
      decide
    · rw [Json.keysWithin, hkeys]
      decide
    · intro field
      cases field with
      | timeline => exact stringList_again (h.items .timeline)
      | attention => exact stringList_again (h.items .attention)
      | decisions => exact stringList_again (h.items .decisions)
      | deadlines => exact stringList_again (h.items .deadlines)
      | relatedProcesses => exact stringList_again (h.items .relatedProcesses)
      | attachments => exact stringList_again (h.items .attachments)

/-! ## §3. Which payloads leave room. -/

/-- The word joiner that parsing puts in front of a text that begins like a
block of markdown fits within the bound. -/
def leavesRoom (u : Unicode) (maxChars : Nat) (value : Json) : Bool :=
  match value with
  | .str s =>
      !(startsBlock (inlineText u s).toList && (inlineText u s).length == maxChars)
  | _ => true

/-- It does in every text that is bounded before it is escaped. -/
def payloadLeavesRoom (u : Unicode) (payload : Json) : Bool :=
  leavesRoom u maxSynthesisChars (payload.get "synthesis") &&
    leavesRoom u maxStatusChars (payload.get "current_status") &&
    (match payload.get "claims" with
      | .arr items => items.all fun item => leavesRoom u maxSynthesisChars (item.get "text")
      | _ => true)

/-- The condition on a provider's text. -/
def textLeavesRoom (u : Unicode) (raw : String) : Bool :=
  match u.loadsStrict raw with
  | .ok payload => payloadLeavesRoom u payload
  | .error _ => true

theorem length_proseLine_le_iff {t : String} {maxChars : Nat} (h : t.length ≤ maxChars) :
    (proseLine u t).length ≤ maxChars ↔ leavesRoom u maxChars (.str t) = true := by
  have hinline := (length_inlineText_le (u := u) t).trans h
  rw [length_proseLine, leavesRoom]
  cases startsBlock (inlineText u t).toList with
  | true =>
      simp only [if_true, Bool.true_and, Bool.not_eq_true', beq_eq_false_iff_ne]
      omega
  | false =>
      simp only [Bool.false_eq_true, if_false, Bool.false_and, Bool.not_false, iff_true]
      omega

theorem parseProse_leavesRoom {value : Json} {field : String} {maxChars : Nat} {s : String}
    (h : parseProse u value field maxChars = .ok s) :
    s.length ≤ maxChars ↔ leavesRoom u maxChars value = true := by
  obtain ⟨t, ht, -, hlength, hs⟩ := parseProse_eq_ok.1 h
  rw [ht, hs]
  exact length_proseLine_le_iff hlength

theorem parseClaim_leavesRoom {item : Json} {c : SummaryClaim} (h : parseClaim u item = .ok c) :
    c.text.length ≤ maxSynthesisChars ↔
      leavesRoom u maxSynthesisChars (item.get "text") = true := by
  obtain ⟨-, -, -, -, -, ⟨text, htext, -, hlength, hprose⟩, -⟩ := parseClaim_eq_ok.1 h
  rw [htext, hprose]
  exact length_proseLine_le_iff hlength

/-- **A summary is within its bounds when its payload leaves room.** -/
theorem Parses.bounded_iff {payload : Json} {n : Summary} (h : Parses u payload n) :
    Bounded n ↔ payloadLeavesRoom u payload = true := by
  have hclaims : (∀ c ∈ n.claims, c.text.length ≤ maxSynthesisChars) ↔
      (match payload.get "claims" with
        | .arr items => items.all fun item => leavesRoom u maxSynthesisChars (item.get "text")
        | _ => true) = true := by
    obtain ⟨items, hitems, -, hparsed⟩ := parseClaims_eq_ok.1 h.claims
    have hforall := forall₂_of_mapM_eq_ok hparsed
    have hall : (∀ c ∈ n.claims, c.text.length ≤ maxSynthesisChars) ↔
        ∀ item ∈ items, leavesRoom u maxSynthesisChars (item.get "text") = true := by
      constructor
      · intro hbounded item hitem
        obtain ⟨c, hc, hparse⟩ := exists_of_forall₂_left hforall hitem
        exact (parseClaim_leavesRoom hparse).1 (hbounded c hc)
      · intro hroom c hc
        obtain ⟨item, hitem, hparse⟩ := exists_of_forall₂_right hforall hc
        exact (parseClaim_leavesRoom hparse).2 (hroom item hitem)
    rw [hall]
    cases hget : payload.get? "claims" with
    | none =>
        -- a payload without claims is read as one with no claim
        rw [hget] at hitems
        obtain rfl := Json.arr.inj hitems
        simp [Json.get, hget]
    | some value =>
        rw [hget] at hitems
        obtain rfl : value = .arr items := hitems
        simp [Json.get, hget]
  have hsynthesis := parseProse_leavesRoom h.synthesis
  have hstatus := parseProse_leavesRoom h.currentStatus
  rw [payloadLeavesRoom, Bool.and_eq_true, Bool.and_eq_true, ← hclaims, ← hsynthesis, ← hstatus]
  exact ⟨fun hb => ⟨⟨hb.synthesis, hb.currentStatus⟩, hb.claims⟩,
    fun ⟨⟨hs, hc⟩, hcl⟩ => ⟨hs, hc, hcl⟩⟩

/-! ## §4. Summaries that stay as they are. -/

theorem parseStructuredSummary_eq_ok {raw : String} {n : Summary} :
    parseStructuredSummary u raw = .ok n ↔
      ∃ payload, u.loadsStrict raw = .ok payload ∧ Parses u payload n := by
  unfold parseStructuredSummary
  constructor
  · intro h
    cases hload : u.loadsStrict raw with
    | error e =>
        rw [hload] at h
        cases e <;> cases h
    | ok payload =>
        rw [hload] at h
        simp only at h
        cases hparse : parsePayload u payload with
        | error e =>
            rw [hparse] at h
            cases h
        | ok m =>
            rw [hparse] at h
            obtain rfl : m = n := Except.ok.inj h
            exact ⟨payload, rfl, parsePayload_eq_ok.1 hparse⟩
  · rintro ⟨payload, hload, hparses⟩
    rw [hload]
    simp only
    rw [parsePayload_eq_ok.2 hparses]
    rfl

/-- What `json.dumps` writes of a summary, in any of its styles, is read
back as the summary. -/
theorem loadsStrict_print (n : Summary) (style : Json.Style) :
    u.loadsStrict (String.ofList (n.toJson.print style)) = .ok n.toJson := by
  unfold Unicode.loadsStrict
  rw [String.toList_ofList]
  exact Json.loads_print n.readable_toJson

theorem parses_print_iff {n m : Summary} {style : Json.Style} :
    parseStructuredSummary u (String.ofList (n.toJson.print style)) = .ok m ↔
      Parses u n.toJson m := by
  rw [parseStructuredSummary_eq_ok]
  constructor
  · rintro ⟨payload, hload, hparses⟩
    rw [loadsStrict_print] at hload
    rwa [Except.ok.inj hload]
  · intro hparses
    exact ⟨n.toJson, loadsStrict_print n style, hparses⟩

/-- A summary that is parsed at all is within its bounds. -/
theorem Parses.bounded {n m : Summary} (h : Parses u n.toJson m) : Bounded n := by
  obtain ⟨s, hs, -, hsynthesis, -⟩ := parseProse_eq_ok.1 h.synthesis
  obtain ⟨t, ht, -, hstatus, -⟩ := parseProse_eq_ok.1 h.currentStatus
  obtain ⟨items, hitems, -, hparsed⟩ := parseClaims_eq_ok.1 h.claims
  refine ⟨?_, ?_, fun c hc => ?_⟩
  · rw [Json.str.inj hs]
    exact hsynthesis
  · rw [Json.str.inj ht]
    exact hstatus
  · rw [← Json.arr.inj hitems] at hparsed
    have hforall := List.forall₂_map_left_iff.1 (forall₂_of_mapM_eq_ok hparsed)
    obtain ⟨c', -, hparse⟩ := exists_of_forall₂_left hforall hc
    obtain ⟨-, -, -, -, -, ⟨text, htext, -, hlength, -⟩, -⟩ := parseClaim_eq_ok.1 hparse
    rw [Json.str.inj htext]
    exact hlength

/-- The summary of a stored document is canonical when it is within its bounds. -/
theorem Parses.canonical_iff {payload : Json} {n : Summary} (h : Parses u payload n) :
    summaryIsCanonical u n.toJson = true ↔ Bounded n := by
  rw [canonicalSummary_iff]
  constructor
  · rintro ⟨m, hparse, hform⟩
    rw [← parsePayload_congr hform] at hparse
    exact (parsePayload_eq_ok.1 hparse).bounded
  · intro hbounded
    exact ⟨n, h.again.2 hbounded, rfl⟩

/-- **A parsed summary is parsed to itself, and its document is canonical,
when the text it was parsed from leaves room for the word joiners.** -/
theorem parse_stable_iff {raw : String} {n : Summary}
    (h : parseStructuredSummary u raw = .ok n) :
    ((∀ style, parseStructuredSummary u (String.ofList (n.toJson.print style)) = .ok n) ∧
      ∀ context, summaryIsCanonical u
        ((structuredSummaryDocument u n context).get "summary") = true) ↔
      textLeavesRoom u raw = true := by
  obtain ⟨payload, hload, hparses⟩ := parseStructuredSummary_eq_ok.1 h
  have hroom : textLeavesRoom u raw = payloadLeavesRoom u payload := by
    unfold textLeavesRoom
    rw [hload]
  rw [hroom, ← hparses.bounded_iff]
  constructor
  · rintro ⟨hagain, -⟩
    exact (parses_print_iff.1 (hagain { ascii := true, blanks := true })).bounded
  · intro hbounded
    refine ⟨fun style => ?_, fun context => ?_⟩
    · exact parses_print_iff.2 (parsePayload_eq_ok.1 (hparses.again.2 hbounded))
    · have hget : (structuredSummaryDocument u n context).get "summary" = n.toJson := rfl
      rw [hget]
      exact hparses.canonical_iff.2 hbounded

end Spec

/-! ## §5. A status at its bound. -/

/-- A text that begins like a heading. -/
def headingText (k : Nat) : String :=
  String.ofList ('#' :: List.replicate k 'a')

/-- A summary with the status `status`. -/
def statusSummary (status : String) : Summary where
  synthesis := "a"
  currentStatus := status
  items := fun field => if field = .attention then ["a"] else []
  claims := []

/-- Characters that are no white space are in their inline form. -/
theorem inline_of_no_space {u : Unicode} {cs : List Char} (h : ∀ c ∈ cs, u.isSpace c = false) :
    Inline u cs := by
  refine ⟨⟨fun c hc hspace => ?_, ?_⟩, ?_⟩
  · rw [h c hc] at hspace
    cases hspace
  · refine (List.pairwise_of_forall_mem_list fun c hc d _ hboth => ?_).isChain
    rw [h c hc] at hboth
    cases hboth.1
  · unfold Platform.stripChars
    rw [List.dropWhile_eq_self_iff.2, List.rdropWhile_eq_self_iff.2]
    · intro hl
      rw [h _ (List.getLast_mem hl)]
      exact Bool.false_ne_true
    · intro hl
      rw [h _ (List.getElem_mem hl)]
      exact Bool.false_ne_true

theorem inlineText_headingText (k : Nat) :
    inlineText .ascii (headingText k) = headingText k := by
  refine (inline_of_no_space fun c hc => ?_).inlineText_eq
  rw [headingText, String.toList_ofList] at hc
  rcases List.mem_cons.1 hc with rfl | hc
  · rfl
  · rw [List.eq_of_mem_replicate hc]
    rfl

theorem startsBlock_headingText (k : Nat) : startsBlock (headingText k).toList = true := by
  rw [headingText, String.toList_ofList]
  cases k <;> rfl

theorem length_headingText (k : Nat) : (headingText k).length = k + 1 := by
  rw [headingText, ← String.length_toList, String.toList_ofList, List.length_cons,
    List.length_replicate]

/-- Statuses are accepted up to their bound. -/
theorem parses_statusSummary {status : String} (hne : inlineText .ascii status ≠ "")
    (hlength : status.length ≤ maxStatusChars) :
    Parses .ascii (statusSummary status).toJson (statusSummary (proseLine .ascii status)) := by
  have hkeys : (statusSummary status).toJson.keys = ["synthesis", "timeline", "current_status",
    "attention", "decisions", "deadlines", "related_processes", "attachments", "claims"] := rfl
  have hletter : inlineText .ascii "a" = "a" := by decide
  have hprose : proseLine .ascii "a" = "a" := by decide
  have hstatus : (statusSummary (proseLine .ascii status)).currentStatus =
      proseLine .ascii status := by dsimp only [statusSummary]
  refine ⟨rfl, ?_, ?_, ?_, parseProse_eq_ok.2 ⟨status, rfl, hne, hlength, hstatus⟩, ?_,
    parseClaims_eq_ok.2 ⟨[], rfl, Nat.zero_le _, rfl⟩⟩
  · rw [hkeys]
    decide
  · rw [Json.keysWithin, hkeys]
    decide
  · exact parseProse_eq_ok.2 ⟨"a", rfl, by rw [hletter]; decide, by decide, hprose.symm⟩
  · intro field
    cases field with
    | attention =>
        refine stringList_eq_ok.2 ⟨["a"], rfl, by decide, ?_, ?_, fun _ h => (by cases h)⟩
        · show ["a"] = renderItems .ascii ["a"]
          decide
        · intro item hitem
          obtain rfl : item = "a" := List.mem_singleton.1 hitem
          decide
    | _ => exact stringList_eq_ok.2 ⟨[], rfl, Nat.zero_le _, rfl, fun _ h => (by cases h),
        fun h => (by cases h)⟩

theorem statusSummary_a : proseLine .ascii "a" = "a" ∧ inlineText .ascii "a" ≠ "" := by
  constructor <;> decide

theorem proseLine_headingText (k : Nat) : (proseLine .ascii (headingText k)).length = k + 2 := by
  rw [length_proseLine, inlineText_headingText, startsBlock_headingText, length_headingText,
    if_pos rfl]

theorem length_of_bounded {status : String} (h : Bounded (statusSummary status)) :
    status.length ≤ maxStatusChars := h.currentStatus

/-- A summary of short texts leaves room, and is parsed to itself. -/
theorem parse_stable_iff_statusSummary :
    ((∀ style, parseStructuredSummary .ascii
        (String.ofList ((statusSummary "a").toJson.print style)) = .ok (statusSummary "a")) ∧
      ∀ context, summaryIsCanonical .ascii
        ((structuredSummaryDocument .ascii (statusSummary "a") context).get "summary") = true) ↔
      textLeavesRoom .ascii (dumps (statusSummary "a").toJson) = true := by
  refine parse_stable_iff (parses_print_iff.2 ?_)
  have hparses := parses_statusSummary statusSummary_a.2 (by decide)
  rwa [statusSummary_a.1] at hparses

/-- **A status of 4000 characters that begins like a heading is accepted
once: the summary that is kept is not parsed again, and its document is
never canonical.** -/
theorem heading_status_not_stable :
    parseStructuredSummary .ascii (dumps (statusSummary (headingText 3999)).toJson) =
        .ok (statusSummary (proseLine .ascii (headingText 3999))) ∧
      (∀ m, parseStructuredSummary .ascii
        (dumps (statusSummary (proseLine .ascii (headingText 3999))).toJson) ≠ .ok m) ∧
      ∀ context, summaryIsCanonical .ascii
        ((structuredSummaryDocument .ascii
          (statusSummary (proseLine .ascii (headingText 3999))) context).get "summary") = false := by
  have hlength := length_headingText 3999
  have hne : inlineText .ascii (headingText 3999) ≠ "" := by
    intro hempty
    rw [inlineText_headingText] at hempty
    rw [hempty] at hlength
    cases hlength
  have hparses : Parses .ascii (statusSummary (headingText 3999)).toJson
      (statusSummary (proseLine .ascii (headingText 3999))) :=
    parses_statusSummary hne (by rw [hlength]; decide)
  have hlong : ¬ Bounded (statusSummary (proseLine .ascii (headingText 3999))) := by
    intro hbounded
    have hbound := length_of_bounded hbounded
    rw [proseLine_headingText] at hbound
    exact absurd hbound (by decide)
  refine ⟨parses_print_iff.2 hparses, fun m hm => ?_, fun context => ?_⟩
  · exact hlong (parses_print_iff.1 hm).bounded
  · rw [← Bool.not_eq_true]
    exact fun hcanonical => hlong (hparses.canonical_iff.1 hcanonical)

end Rpy.Summaries

/-
  Rpy.Publication.Verdicts
  ────────────────────────
  **THE VERDICT BEFORE A SUMMARY IS STORED, AND AFTER**
  (`_persist_summary` and `_summary_row_is_publishable` of `app/rag.py`,
  `claim_evidence_is_publishable` of `app/claim_evidence.py`).

  `_persist_summary` judges what comes before it is stored, and the readers
  judge what was stored.  The first judgement has the claims without the
  reasons and the digests of their verification.  So it refuses every claim
  that was verified; of one that was not, the two say the same.

    • `publishable_congr`           — the form of the document does not count,
    • `claimEvidenceIsComplete_iff` — nor does the order of the claims,
    • `Incoming.notEvaluated`       — no claim was verified,
    • `Stored.verdict`              — the two verdicts.
-/
import Rpy.Publication.Agreement
import Rpy.Publication.Stored

namespace Rpy.Publication

open Rpy.Foundation Rpy.Summaries
open Rpy.Attachments (Exn)

variable {u : Unicode}

/-! ## §1. The form of the document. -/

section Form

variable {w : Json} {n : Summary} (h : w.canon = n.toJson.canon)
include h

/-- A summary of the form of another expects the same claims. -/
theorem expected_congr : expectedMaterialClaims u w = expectedMaterialClaims u n.toJson := by
  have hprose : ∀ key s, n.toJson.get key = .str s → w.get key = .str s := fun key s hs =>
    Json.eq_str_of_canon ((Json.get_canon_congr h key).trans (by rw [hs]; rfl))
  have hlist : ∀ field : ListField, w.get field.key = n.toJson.get field.key := by
    intro field
    have hitems : n.toJson.get field.key = texts (n.items field) := by cases field <;> rfl
    rw [hitems]
    exact Json.eq_texts_of_canon ((Json.get_canon_congr h field.key).trans (by rw [hitems]; rfl))
  unfold expectedMaterialClaims itemClaims
  rw [hprose "synthesis" _ rfl, hprose "current_status" _ rfl]
  simp only [hlist]
  rfl

/-- And declares the same references. -/
theorem declared_congr (expected : List (String × String)) :
    declaredClaimEvidenceRefs u w expected = declaredClaimEvidenceRefs u n.toJson expected := by
  have hclaims : n.toJson.get "claims" = .arr (n.claims.map SummaryClaim.toJson) := rfl
  obtain ⟨xs, hxs, hforms⟩ := Json.eq_arr_of_canon
    ((Json.get_canon_congr h "claims").trans (by rw [hclaims]))
  -- One claim: the three fields that are read have one canonical form.
  have hround : ∀ (acc : List (String × List String)) (x : Json) (c : SummaryClaim),
      x.canon = c.toJson.canon →
        declareClaim u expected acc x = declareClaim u expected acc c.toJson := by
    intro acc x c hx
    have hid : x.get "claim_id" = .str c.claimId :=
      Json.eq_str_of_canon (Json.get_canon_congr hx "claim_id")
    have htext : x.get "text" = .str c.text :=
      Json.eq_str_of_canon (Json.get_canon_congr hx "text")
    have hrefs : x.get "evidence_refs" = texts c.evidenceRefs :=
      Json.eq_texts_of_canon (Json.get_canon_congr hx "evidence_refs")
    have hobj : x.isObj = c.toJson.isObj := by
      rw [← Json.isObj_canon, hx, Json.isObj_canon]
    unfold declareClaim
    rw [hobj, hid, htext, hrefs]
    rfl
  -- The loop, by induction on the claims as they come from the database.
  have hloop : ∀ (xs : List Json) (cs : List SummaryClaim) (acc : List (String × List String)),
      xs.map Json.canon = (cs.map SummaryClaim.toJson).map Json.canon →
        xs.foldlM (declareClaim u expected) acc =
          (cs.map SummaryClaim.toJson).foldlM (declareClaim u expected) acc := by
    intro xs
    induction xs with
    | nil =>
        intro cs acc hsame
        cases cs with
        | nil => rfl
        | cons c cs => cases hsame
    | cons x xs ih =>
        intro cs acc hsame
        cases cs with
        | nil => cases hsame
        | cons c cs =>
            rw [List.map_cons, List.map_cons, List.map_cons, List.cons.injEq] at hsame
            rw [List.map_cons, List.foldlM_cons, List.foldlM_cons, hround acc x c hsame.1]
            exact congrArg _ (funext fun next => ih cs next hsame.2)
  unfold declaredClaimEvidenceRefs
  rw [hxs, hclaims]
  show Option.filter _ _ = Option.filter _ _
  rw [hloop xs n.claims [] hforms]

end Form

/-- **The gate takes documents of one form for one document.** -/
theorem publishable_congr {ms ms' : List (String × Json)}
    (h : (Json.obj ms).canon = (Json.obj ms').canon) (claims : List ClaimEvidence)
    (context : ProcessContext) :
    claimEvidenceIsPublishable u (some { members := ms }) claims context =
      claimEvidenceIsPublishable u (some { members := ms' }) claims context := by
  have hcanonical : ({ members := ms } : Dict).isCanonical u =
      ({ members := ms' } : Dict).isCanonical u := documentIsCanonical_congr h
  have hmatches : ({ members := ms } : Dict).matchesProcess u context =
      ({ members := ms' } : Dict).matchesProcess u context :=
    documentMatchesProcess_congr h context
  have hcomplete : claimEvidenceIsComplete u (some { members := ms }) claims =
      claimEvidenceIsComplete u (some { members := ms' }) claims := by
    unfold claimEvidenceIsComplete
    simp only
    rw [hcanonical]
    cases hd : ({ members := ms' } : Dict).isCanonical u with
    | false => rfl
    | true =>
        -- both summaries are of the form of one that parsing keeps
        have hd' : summaryIsCanonical u (({ members := ms' } : Dict).get "summary") = true := by
          unfold Dict.isCanonical documentIsCanonical at hd
          rw [Bool.and_eq_true, Bool.and_eq_true] at hd
          exact hd.2.2
        obtain ⟨n, -, hn'⟩ := canonicalSummary_iff.1 hd'
        have hn : (({ members := ms } : Dict).get "summary").canon = n.toJson.canon :=
          (Json.get_canon_congr h "summary").trans hn'
        rw [expected_congr hn, expected_congr hn', declared_congr hn, declared_congr hn']
  show (claimEvidenceIsComplete u (some { members := ms }) claims &&
      ({ members := ms } : Dict).matchesProcess u context && _) =
    (claimEvidenceIsComplete u (some { members := ms' }) claims &&
      ({ members := ms' } : Dict).matchesProcess u context && _)
  rw [hcomplete, hmatches]

/-! ## §2. The claims. -/

/-- What `claim_evidence_is_complete` checks of a claim. -/
def ClaimEvidence.isObserved (u : Unicode) (expected : List (String × String))
    (declared : List (String × List String)) (item : ClaimEvidence) : Bool :=
  expected.lookup (u.strip item.claimId) == some (u.strip item.text) &&
    item.claimClass.all (· == Summaries.claimClass (u.strip item.claimId)) &&
    !item.evidenceRefs.isEmpty && item.evidenceRefs.all isEvidenceRef &&
    decide item.evidenceRefs.Nodup &&
    declared.lookup (u.strip item.claimId) == some item.evidenceRefs

theorem observeClaim_eq (expected : List (String × String)) (declared : List (String × List String)) :
    observeClaim u expected declared = keepRound
      (ClaimEvidence.isObserved u expected declared) (fun item => u.strip item.claimId) := by
  funext observed item
  have hcheck : (expected.lookup (u.strip item.claimId) == some (u.strip item.text) &&
      !observed.contains (u.strip item.claimId) &&
      item.claimClass.all (· == claimClass (u.strip item.claimId)) &&
      !item.evidenceRefs.isEmpty && item.evidenceRefs.all isEvidenceRef &&
      decide item.evidenceRefs.Nodup &&
      declared.lookup (u.strip item.claimId) == some item.evidenceRefs) =
      (item.isObserved u expected declared && !observed.contains (u.strip item.claimId)) := by
    unfold ClaimEvidence.isObserved
    ac_rfl
  unfold observeClaim keepRound
  simp only [hcheck]

/-- **When the claims are complete**: each passes its check, none comes twice
and none is missing. -/
theorem claimEvidenceIsComplete_iff {d : Dict} {claims : List ClaimEvidence} :
    claimEvidenceIsComplete u (some d) claims = true ↔
      d.isCanonical u = true ∧ ∃ declared,
        declaredClaimEvidenceRefs u (d.get "summary")
          (expectedMaterialClaims u (d.get "summary")) = some declared ∧
        (∀ item ∈ claims,
          item.isObserved u (expectedMaterialClaims u (d.get "summary")) declared = true) ∧
        (claims.map fun item => u.strip item.claimId).Nodup ∧
        ∀ e ∈ expectedMaterialClaims u (d.get "summary"),
          e.1 ∈ claims.map fun item => u.strip item.claimId := by
  unfold claimEvidenceIsComplete
  rw [Bool.and_eq_true]
  refine and_congr_right fun _ => ?_
  simp only [observeClaim_eq]
  cases declaredClaimEvidenceRefs u (d.get "summary")
      (expectedMaterialClaims u (d.get "summary")) with
  | none => simp
  | some declared =>
      simp only [Option.some.injEq, exists_eq_left']
      cases hloop : claims.foldlM (keepRound (ClaimEvidence.isObserved u
          (expectedMaterialClaims u (d.get "summary")) declared)
          fun item => u.strip item.claimId) [] with
      | none =>
          refine iff_of_false (by rintro ⟨⟩) ?_
          rintro ⟨hall, hnodup, -⟩
          have hend := foldlM_keepRound.2 ⟨hall, hnodup, fun _ _ => List.not_mem_nil, rfl⟩
          rw [hloop] at hend
          cases hend
      | some observed =>
          obtain ⟨hall, hnodup, -, rfl⟩ := foldlM_keepRound.1 hloop
          simp only [List.nil_append, List.all_eq_true, List.contains_iff_mem]
          exact ⟨fun h => ⟨hall, hnodup, h⟩, fun h => h.2.2⟩

/-- Two items say the same of one claim. -/
structure SameClaim (u : Unicode) (a b : ClaimEvidence) : Prop where
  claimId : a.claimId = b.claimId
  text : a.text = b.text
  evidenceRefs : a.evidenceRefs = b.evidenceRefs
  claimClass : a.claimClass.all (· == Summaries.claimClass (u.strip a.claimId)) =
    b.claimClass.all (· == Summaries.claimClass (u.strip b.claimId))

theorem SameClaim.isObserved {a b : ClaimEvidence} (h : SameClaim u a b)
    (expected : List (String × String)) (declared : List (String × List String)) :
    a.isObserved u expected declared = b.isObserved u expected declared := by
  unfold ClaimEvidence.isObserved
  rw [h.claimClass, h.claimId, h.text, h.evidenceRefs]

/-- **Completeness does not depend on the order of the claims.** -/
theorem claimEvidenceIsComplete_perm {α : Type} {es es' : List α} (hperm : es'.Perm es)
    {f g : α → ClaimEvidence} (hsame : ∀ e ∈ es, SameClaim u (f e) (g e)) (output : Option Dict) :
    claimEvidenceIsComplete u output (es.map f) = claimEvidenceIsComplete u output (es'.map g) := by
  cases output with
  | none => rfl
  | some d =>
      have hids : (es.map f).map (fun item => u.strip item.claimId) =
          (es.map g).map fun item => u.strip item.claimId := by
        rw [List.map_map, List.map_map]
        exact List.map_congr_left fun e he => congrArg u.strip (hsame e he).claimId
      have hpermIds : ((es'.map g).map fun item => u.strip item.claimId).Perm
          ((es.map f).map fun item => u.strip item.claimId) := by
        rw [hids]
        exact (hperm.map g).map _
      rw [Bool.eq_iff_iff, claimEvidenceIsComplete_iff, claimEvidenceIsComplete_iff]
      refine and_congr_right fun _ => exists_congr fun declared => and_congr_right fun _ =>
        and_congr ?_ (and_congr hpermIds.nodup_iff.symm ?_)
      · rw [List.forall_mem_map, List.forall_mem_map]
        constructor
        · intro h e he
          have he := hperm.mem_iff.1 he
          exact (hsame e he).isObserved _ _ ▸ h e he
        · intro h e he
          rw [(hsame e he).isObserved]
          exact h e (hperm.mem_iff.2 he)
      · exact forall₂_congr fun e _ => hpermIds.mem_iff.symm

/-! ## §3. The verification of the claims. -/

/-- Neither the claim nor a relation of it was evaluated. -/
def Incoming.notEvaluated (i : Incoming) (claim : MaterialClaim) : Bool :=
  (i.verification claim).all fun v =>
    v.status == .notEvaluated && v.relations.all fun r => r.status == .notEvaluated

section Verification

variable {i : Incoming} {k : SummaryKey} {c : MaterialClaim} {e : Uuid × MaterialClaim}

/-- An item without a reason and digests passes when it was not evaluated. -/
theorem claimIsPublishable_bare {item : ClaimEvidence} (hreason : item.verificationReason = none)
    (hsources : ∀ s ∈ item.sources, s.verificationReason = none ∧ s.evidenceExcerptSha256 = none) :
    claimIsPublishable u item = true ↔ item.verificationStatus = .notEvaluated ∧
      ∀ s ∈ item.sources, s.verificationStatus = .notEvaluated := by
  have hclaim : claimVerificationMetadata u item =
      (decide (item.verificationStatus = .notEvaluated), false) := by
    unfold claimVerificationMetadata isEvaluatedStatus validVerificationReason
    rw [hreason]
    cases item.verificationStatus <;> rfl
  have hsource : ∀ s ∈ item.sources, sourceVerificationMetadata u s =
      (decide (s.verificationStatus = .notEvaluated), false) := by
    intro s hs
    obtain ⟨hnone, hdigest⟩ := hsources s hs
    unfold sourceVerificationMetadata isEvaluatedStatus validVerificationReason validExcerptSha256
    rw [hnone, hdigest]
    cases s.verificationStatus <;> rfl
  have hmap : item.sources.map (sourceVerificationMetadata u) =
      item.sources.map fun s => (decide (s.verificationStatus = .notEvaluated), false) :=
    List.map_congr_left hsource
  unfold claimIsPublishable
  rw [hclaim, hmap]
  simp

/-- **Before it is stored, a claim passes when it was not evaluated.** -/
theorem claimIsPublishable_incoming :
    claimIsPublishable u (i.claimEvidence c) = true ↔ i.notEvaluated c = true := by
  have hsources : ∀ s ∈ (i.claimEvidence c).sources,
      s.verificationReason = none ∧ s.evidenceExcerptSha256 = none := by
    intro s hs
    obtain ⟨relation, -, rfl⟩ := List.mem_map.1 hs
    exact ⟨rfl, rfl⟩
  rw [claimIsPublishable_bare rfl hsources]
  unfold Incoming.claimEvidence Incoming.notEvaluated
  cases i.verification c with
  | none => simp
  | some v => simp

/-- What was not evaluated passes with its reasons and digests. -/
theorem claimIsPublishable_of_notEvaluated {item : ClaimEvidence}
    (hclaim : item.verificationStatus = .notEvaluated)
    (hsources : ∀ s ∈ item.sources,
      s.verificationStatus = .notEvaluated ∧ digestHolds s.evidenceExcerptSha256 = true) :
    claimIsPublishable u item = true := by
  have hmetadata : claimVerificationMetadata u item = (true, false) := by
    unfold claimVerificationMetadata isEvaluatedStatus
    rw [hclaim]
    rfl
  have hsource : ∀ s ∈ item.sources, sourceVerificationMetadata u s = (true, false) := by
    intro s hs
    obtain ⟨hstatus, hdigest⟩ := hsources s hs
    have hvalid : (s.evidenceExcerptSha256.isSome &&
        !validExcerptSha256 s.evidenceExcerptSha256) = false := by
      unfold digestHolds at hdigest
      cases hd : s.evidenceExcerptSha256 with
      | none => rfl
      | some digest =>
          rw [hd] at hdigest
          simpa using hdigest
    unfold sourceVerificationMetadata isEvaluatedStatus
    simp only [hstatus, hvalid]
    rfl
  have hmap : item.sources.map (sourceVerificationMetadata u) =
      item.sources.map fun _ => (true, false) := List.map_congr_left hsource
  unfold claimIsPublishable
  rw [hmetadata, hmap]
  simp

/-- The stored item of a claim that was not evaluated passes. -/
theorem claimIsPublishable_loaded (hnot : i.notEvaluated e.2 = true)
    (hrows : e.2.evidenceRefs.zipIdx.mapM (i.sourceRow k e) = .ok (i.sourceRows k e))
    (hdigest : ∀ s ∈ i.sourceRows k e, digestHolds s.evidenceExcerptSha256 = true) :
    claimIsPublishable u (i.loadedClaim k e).evidence = true := by
  unfold Incoming.notEvaluated at hnot
  refine claimIsPublishable_of_notEvaluated ?_ fun s hs => ?_
  · show ((i.verification e.2).map ClaimVerification.status).getD .notEvaluated = .notEvaluated
    cases hv : i.verification e.2 with
    | none => rfl
    | some v =>
        rw [hv] at hnot
        exact eq_of_beq ((Bool.and_eq_true _ _).mp hnot).1
  · obtain ⟨row, hrow, rfl⟩ := List.mem_map.1 hs
    refine ⟨?_, hdigest row hrow⟩
    obtain ⟨item, -, hitem⟩ := exists_of_forall₂_right (forall₂_of_mapM_eq_ok hrows) hrow
    unfold Incoming.sourceRow at hitem
    split at hitem
    · cases hitem
    · obtain rfl := Except.ok.inj hitem
      show ((i.relation e.2 item.1).map ClaimRelationVerification.status).getD .notEvaluated =
        .notEvaluated
      cases hr : i.relation e.2 item.1 with
      | none => rfl
      | some relation =>
          have hmem := List.mem_reverse.1 (List.mem_of_find?_eq_some hr)
          cases hv : i.verification e.2 with
          | none =>
              rw [hv] at hmem
              cases hmem
          | some v =>
              rw [hv] at hnot hmem
              exact eq_of_beq (List.all_eq_true.1 ((Bool.and_eq_true _ _).mp hnot).2 relation hmem)

end Verification

/-! ## §4. The two verdicts. -/

/-- The claims have the classes that `validate_claim_evidence` gives them. -/
def Incoming.Classified (u : Unicode) (i : Incoming) : Prop :=
  ∀ e ∈ i.claims, e.2.claimClass = claimClass (u.strip e.2.claimId)

/-- A round of its loop adds a claim with its class, or none. -/
theorem scanClaim_claims (expected : List (String × String))
    (catalog : List (String × EvidenceSource)) (st : ClaimScan) (raw : Json) :
    (scanClaim u expected catalog st raw).claims = st.claims ∨
      ∃ c : MaterialClaim, (scanClaim u expected catalog st raw).claims = st.claims ++ [c] ∧
        c.claimClass = claimClass (u.strip c.claimId) := by
  unfold scanClaim
  by_cases hobj : (!raw.isObj) = true
  · rw [if_pos hobj]
    exact .inl rfl
  · rw [if_neg hobj]
    simp only
    by_cases hid : (!isClaimId (u.strip (strOrEmpty u (raw.get "claim_id")))) = true
    · rw [if_pos hid]
      exact .inl rfl
    · rw [if_neg hid]
      by_cases hseen : u.strip (strOrEmpty u (raw.get "claim_id")) ∈ st.seen
      · rw [if_pos hseen]
        exact .inl rfl
      · rw [if_neg hseen]
        cases expected.lookup (u.strip (strOrEmpty u (raw.get "claim_id"))) with
        | none => exact .inl rfl
        | some wanted =>
            refine .inr ⟨_, rfl, ?_⟩
            simp only [strip_strip]

/-- So they have when they are the ones it kept. -/
theorem classified_of_validate {i : Incoming} {payload : Json} {context : Context}
    (h : i.claims.map Prod.snd = (validateClaimEvidence u payload context).1) :
    i.Classified u := by
  have hloop : ∀ (expected : List (String × String)) (catalog : List (String × EvidenceSource))
      (raws : List Json) (st : ClaimScan),
      (∀ c ∈ st.claims, c.claimClass = claimClass (u.strip c.claimId)) →
        ∀ c ∈ (raws.foldl (scanClaim u expected catalog) st).claims,
          c.claimClass = claimClass (u.strip c.claimId) := by
    intro expected catalog raws
    induction raws with
    | nil => exact fun _ hst => hst
    | cons raw raws ih =>
        intro st hst
        refine ih _ ?_
        rcases scanClaim_claims expected catalog st raw with hsame | ⟨c, hadded, hc⟩
        · rw [hsame]
          exact hst
        · rw [hadded]
          exact List.forall_mem_append.2 ⟨hst, List.forall_mem_singleton.2 hc⟩
  intro e he
  have hmem : e.2 ∈ (validateClaimEvidence u payload context).1 := h ▸ List.mem_map_of_mem he
  unfold validateClaimEvidence at hmem
  cases hclaims : payload.get "claims" with
  | arr raws =>
      rw [hclaims] at hmem
      exact hloop _ _ raws {} (List.forall_mem_nil _) e.2 hmem
  | _ =>
      rw [hclaims] at hmem
      cases hmem

section Stored

variable {t t' : Tables} {i : Incoming} {k : SummaryKey} {row : SummaryRow}

/-- A column gives an object back as an object of its form. -/
theorem obj_of_jsonb (members : List (String × Json)) :
    ∃ ms, u.jsonb (.obj members) = .obj ms ∧ (Json.obj ms).canon = (Json.obj members).canon := by
  obtain ⟨ms, hms⟩ := Processes.jsonb_obj u.toPlatform members
  exact ⟨ms, hms, hms ▸ u.jsonb_canon (.obj members)⟩

theorem RowOf.passed (hrow : RowOf u i row) (hpassed : i.passed = true) :
    castPassed row.validation = true := by
  have hget : (row.validation.get "passed").canon = (Json.bool true).canon := by
    rw [hrow.validation, ← eq_of_beq hpassed]
    exact Json.get_canon_congr (u.jsonb_canon _) "passed"
  have hbool : row.validation.get "passed" = .bool true := by
    cases hv : row.validation.get "passed" with
    | bool b =>
        rw [hv] at hget
        cases b with
        | true => rfl
        | false => cases hget
    | float d =>
        rw [hv] at hget
        change Json.canonFloat d = _ at hget
        unfold Json.canonFloat at hget
        split at hget <;> cases hget
    | _ =>
        rw [hv] at hget
        cases hget
  unfold castPassed
  rw [hbool]

/-- Under secrecy the two verdicts are one. -/
theorem RowOf.isRestrictedLocal (hrow : RowOf u i row) (p : ProcessRow) :
    row.isRestrictedLocal u p =
      isRestrictedLocalSummary u i.model i.promptVersion i.output p.restricted := by
  unfold SummaryRow.isRestrictedLocal isRestrictedLocalSummary Incoming.output
  rw [hrow.model, hrow.promptVersion, hrow.structuredOutput]
  cases i.structuredOutput with
  | none => rfl
  | some members =>
      obtain ⟨ms, hms, hform⟩ := obj_of_jsonb (u := u) members
      simp only [hms]
      have hmatches : ({ members := ms } : Dict).matchesProcess u p.restricted.context =
          ({ members } : Dict).matchesProcess u p.restricted.context :=
        documentMatchesProcess_congr hform _
      have hsummary : (({ members := ms } : Dict).get "summary").pyEq restrictedSummaryPayload =
          (({ members } : Dict).get "summary").pyEq restrictedSummaryPayload :=
        Json.pyEq_congr_left (Json.get_canon_congr hform "summary") _
      show (if _ then _ else Except.ok (({ members := ms } : Dict).matchesProcess u _ &&
          (({ members := ms } : Dict).get "summary").pyEq restrictedSummaryPayload)) =
        if _ then _ else Except.ok (({ members } : Dict).matchesProcess u _ &&
          (({ members } : Dict).get "summary").pyEq restrictedSummaryPayload)
      rw [hmatches, hsummary]

/-- What the gate says of the stored document. -/
theorem RowOf.claimsVerdict (hrow : RowOf u i row) (claims : List ClaimEvidence)
    (context : ProcessContext) :
    ∃ d, decodeJsonObject u row.structuredOutput = .ok d ∧
      claimEvidenceIsPublishable u (some d) claims context =
        claimEvidenceIsPublishable u (i.structuredOutput.map fun members => { members }) claims
          context := by
  rw [hrow.structuredOutput]
  cases i.structuredOutput with
  | none => exact ⟨{}, rfl, publishable_empty claims context⟩
  | some members =>
      obtain ⟨ms, hms, hform⟩ := obj_of_jsonb (u := u) members
      refine ⟨{ members := ms }, ?_, publishable_congr hform claims context⟩
      simp only [hms]
      rfl

/-- A claim of the call says the same before and after. -/
theorem sameClaim_loaded {e : Uuid × MaterialClaim}
    (hrows : e.2.evidenceRefs.zipIdx.mapM (i.sourceRow k e) = .ok (i.sourceRows k e))
    (hclass : e.2.claimClass = claimClass (u.strip e.2.claimId)) :
    SameClaim u (i.claimEvidence e.2) (i.loadedClaim k e).evidence where
  claimId := rfl
  text := rfl
  evidenceRefs := (sourceRows_evidenceRef hrows).symm
  claimClass := by
    show true = (e.2.claimClass == claimClass (u.strip e.2.claimId))
    rw [hclass, beq_self_eq_true]

/-- **The gate on the claims of the call, and on the claims that are read back.** -/
theorem Stored.claims_verdict (h : Stored u t t' i k) (hkeyed : t.Keyed)
    (hversion : ∃ v ∈ t.versions, v.id = i.versionId ∧ v.processId = i.processId)
    (hclassified : i.Classified u) (output : Option Dict) (context : ProcessContext) :
    claimEvidenceIsPublishable u output (i.claims.map fun e => i.claimEvidence e.2) context = true ↔
      claimEvidenceIsPublishable u output (t'.claimEvidence u k.summaryId) context = true ∧
        ∀ e ∈ i.claims, i.notEvaluated e.2 = true := by
  have hloaded : t'.claimEvidence u k.summaryId =
      (i.claims.insertionSort fun a b => u.collatesBefore a.2.claimId b.2.claimId).map
        fun e => (i.loadedClaim k e).evidence := by
    unfold Tables.claimEvidence
    rw [h.load hkeyed hversion, List.map_map]
    rfl
  have hperm := List.perm_insertionSort
    (fun a b : Uuid × MaterialClaim => u.collatesBefore a.2.claimId b.2.claimId = true) i.claims
  have hcomplete := claimEvidenceIsComplete_perm hperm
    (fun e he => sameClaim_loaded (h.rows e he) (hclassified e he)) output
  unfold claimEvidenceIsPublishable
  rw [hloaded, hcomplete]
  simp only [Bool.and_eq_true, List.all_map, List.all_eq_true, Function.comp_apply,
    List.mem_insertionSort, claimIsPublishable_incoming]
  constructor
  · rintro ⟨hdocument, hnot⟩
    exact ⟨⟨hdocument, fun e he => claimIsPublishable_loaded (hnot e he) (h.rows e he)
      fun s hs => (h.hold e he s hs).2⟩, hnot⟩
  · rintro ⟨⟨hdocument, -⟩, hnot⟩
    exact ⟨hdocument, hnot⟩

/-- **The two verdicts.**  What is judged to be publishable before it is
stored is publishable afterwards, and no claim of it was verified; and the
other way round. -/
theorem Stored.verdict (h : Stored u t t' i k) (hkeyed : t.Keyed) {p : ProcessRow}
    (hversion : p.isRestricted = false →
      ∃ v ∈ t.versions, v.id = i.versionId ∧ v.processId = i.processId)
    (hclassified : i.Classified u) (hpassed : i.passed = true) {s : SummaryRow}
    (hs : s ∈ t'.summaries) (hid : s.id = k.summaryId) :
    i.publishable u p = .ok true ↔ t'.summaryRowIsPublishable u s p = .ok true ∧
      (p.isRestricted = false → ∀ e ∈ i.claims, i.notEvaluated e.2 = true) := by
  have hrow := h.rowOf hs hid
  unfold Incoming.publishable Tables.summaryRowIsPublishable
  rw [hrow.passed hpassed]
  cases hsecret : p.isRestricted with
  | true =>
      show isRestrictedLocalSummary u i.model i.promptVersion i.output p.restricted = .ok true ↔
        s.isRestrictedLocal u p = .ok true ∧ (true = false → _)
      rw [hrow.isRestrictedLocal]
      exact ⟨fun h => ⟨h, fun h => (nomatch h)⟩, And.left⟩
  | false =>
      have hclaims := h.claims_verdict hkeyed (hversion hsecret) hclassified
        (i.structuredOutput.map fun members => { members }) p.context
      obtain ⟨d, hdecode, hsame⟩ := hrow.claimsVerdict (t'.claimEvidence u k.summaryId) p.context
      rw [← hsame] at hclaims
      rw [hid, hdecode]
      simp only [Bool.not_true, Bool.false_eq_true, if_false, Except.ok.injEq, true_imp_iff]
      exact hclaims

end Stored

/-- **The verdict before a summary is stored, and the verdict on its row.** -/
theorem verdict_before_and_after (u : Unicode) {t t' : Tables} {i : Incoming} (p : ProcessRow)
    (hkeyed : t.Keyed)
    (hversion : ∃ v ∈ t.versions, v.id = i.versionId ∧ v.processId = i.processId)
    (hclassified : i.Classified u) (hpassed : i.passed = true)
    (h : t.persistSummary u i = .ok (true, t')) :
    ∃ s, t'.versionSummary i.processId i.versionId = some s ∧
      (i.publishable u p = .ok true ↔ t'.summaryRowIsPublishable u s p = .ok true ∧
        (p.isRestricted = false → ∀ e ∈ i.claims, i.notEvaluated e.2 = true)) := by
  obtain ⟨replace, -, hwrite⟩ := bind_eq_ok.1 h
  obtain ⟨k, hstored, -⟩ := stored_of_write hwrite
  obtain ⟨t₀, row, hcolumns, hupserted, hsummaries⟩ := hstored.row
  have hmem := hsummaries ▸ hupserted.mem
  have hrow := hstored.rowOf hmem rfl
  refine ⟨_, ?_, hstored.verdict hkeyed (fun _ => hversion) hclassified hpassed hmem rfl⟩
  rw [← hrow.processId, ← hrow.versionId]
  exact versionSummary_of_mem hmem

/-! ## §5. A publishable summary. -/

theorem isCanonical_sampleOutput : documentIsCanonical .ascii (.obj sampleOutput) = true := by
  have hsummary : summaryIsCanonical .ascii sampleSummary.toJson = true :=
    canonicalSummary_iff.2 ⟨sampleSummary, parsePayload_eq_ok.2 parses_sampleSummary, rfl⟩
  have hget : (Json.obj sampleOutput).get "summary" = sampleSummary.toJson := rfl
  unfold documentIsCanonical
  rw [hget, hsummary]
  decide +kernel

theorem matches_sampleOutput :
    documentMatchesProcess .ascii (.obj sampleOutput) sampleProcess.context = true := by
  unfold documentMatchesProcess
  rw [isCanonical_sampleOutput]
  decide +kernel

theorem complete_sample : claimEvidenceIsComplete .ascii (some { members := sampleOutput })
    ((sampleIncoming "m").claims.map fun e => (sampleIncoming "m").claimEvidence e.2) = true := by
  have hcanonical : ({ members := sampleOutput } : Dict).isCanonical .ascii = true := by
    unfold Dict.isCanonical
    rw [isCanonical_sampleOutput]
    rfl
  unfold claimEvidenceIsComplete
  simp only
  rw [hcanonical]
  decide +kernel

theorem publishable_sample : (sampleIncoming "m").publishable .ascii sampleProcess = .ok true := by
  have hmatches : ({ members := sampleOutput } : Dict).matchesProcess .ascii sampleProcess.context =
      true := by
    unfold Dict.matchesProcess
    rw [matches_sampleOutput]
    rfl
  have hclaims : ((sampleIncoming "m").claims.map fun e =>
      (sampleIncoming "m").claimEvidence e.2).all (claimIsPublishable .ascii) = true := by
    decide +kernel
  have houtput : (sampleIncoming "m").structuredOutput.map (fun members => ({ members } : Dict)) =
      some { members := sampleOutput } := rfl
  unfold Incoming.publishable claimEvidenceIsPublishable
  rw [if_neg (by decide), houtput, complete_sample, hclaims, Option.any_some, hmatches]
  rfl

theorem classified_sample (model : String) : (sampleIncoming model).Classified .ascii := by
  have hall : (sampleIncoming "m").claims.all (fun e =>
      e.2.claimClass == claimClass (Unicode.ascii.strip e.2.claimId)) = true := by decide +kernel
  exact fun e he => eq_of_beq (List.all_eq_true.1 hall e he)

/-- The sample is publishable before it is stored, and its row is. -/
theorem verdict_sample : ∃ t' s, sampleTables.persistSummary .ascii (sampleIncoming "m") =
    .ok (true, t') ∧ t'.versionSummary 10 0 = some s ∧
      t'.summaryRowIsPublishable .ascii s sampleProcess = .ok true := by
  obtain ⟨t', h⟩ := persist_sample
  obtain ⟨s, hs, hverdict⟩ := verdict_before_and_after .ascii sampleProcess sampleTables_keyed
    ⟨{ id := 0, processId := 10, finalized := true }, List.mem_cons_self, rfl, rfl⟩
    (classified_sample "m") (by decide) h
  exact ⟨t', s, h, hs, (hverdict.1 publishable_sample).1⟩

/-- Tables with a publishable summary of a process. -/
structure Published (u : Unicode) (t : Tables) (s : SummaryRow) (p : ProcessRow) : Prop where
  keyed : t.Keyed
  row : s ∈ t.summaries
  process : p ∈ t.processes
  processId : p.id = s.processId
  publishable : t.summaryRowIsPublishable u s p = .ok true

theorem published_sample : ∃ t s, Published .ascii t s sampleProcess ∧ s.versionId = 0 ∧
    s.model = "m" ∧ s.promptVersion = "p" := by
  obtain ⟨t, h⟩ := persist_sample
  obtain ⟨replace, -, hwrite⟩ := bind_eq_ok.1 h
  obtain ⟨k, hstored, -⟩ := stored_of_write hwrite
  obtain ⟨t₀, row, hcolumns, hupserted, hsummaries⟩ := hstored.row
  have hmem := hsummaries ▸ hupserted.mem
  have hrow := hstored.rowOf hmem rfl
  have hversion : ∃ v ∈ sampleTables.versions, v.id = (sampleIncoming "m").versionId ∧
      v.processId = (sampleIncoming "m").processId :=
    ⟨{ id := 0, processId := 10, finalized := true }, List.mem_cons_self, rfl, rfl⟩
  have hverdict := hstored.verdict (p := sampleProcess) sampleTables_keyed (fun _ => hversion)
    (classified_sample "m") (by decide) hmem rfl
  refine ⟨t, _, ⟨hstored.keyed sampleTables_keyed, hmem, ?_, hrow.processId.symm,
    (hverdict.1 publishable_sample).1⟩, hrow.versionId, hrow.model, hrow.promptVersion⟩
  rw [hstored.processes]
  exact List.mem_cons_self

end Rpy.Publication

/-
  Rpy.Summaries.Guarantee
  ───────────────────────
  **WHAT AN ACCEPTED SUMMARY IS BACKED BY** (`_validate_provider_summary`
  of `app/rag.py`).

  A provider's summary passes when its text, its claims and the verdicts on
  its claims have no error.  Then every item of its lists is one claim that
  cites sources of the context, no claim is contradicted, and a supported
  claim is in a cited source or states only facts the cited sources state.

    • `validateProviderSummary` — the three checks,
    • `lookup_verifyAll`        — every claim has its own verdict,
    • `passed_summary_is_backed` — the guarantee.
-/
import Rpy.Summaries.Verification

namespace Rpy.Summaries

open Rpy.Foundation

/-- A `ValidationResult`, and the `_claim_verification` the context is left
with. -/
structure ProviderValidation where
  errors : List String
  claimVerification : Option (List (String × ClaimVerification)) := none
deriving Repr, DecidableEq

/-- `_validate_provider_summary`: `documentErrors` are the errors `validar`
finds in the rendered text, and `parsed` is the `_parsed_summary`. -/
def validateProviderSummary (u : Unicode) (documentErrors : List String) (parsed : Json)
    (context : Context) : Except FactError ProviderValidation :=
  if !parsed.isObj then
    .ok {
      errors := documentErrors ++ ["structured summary claim provenance is unavailable"] }
  else
    let evidence := validateClaimEvidence u parsed context
    if evidence.2 = [] then do
      let verification ← verifyMaterialClaims u evidence.1 context
      return {
        errors := documentErrors ++ verificationErrors verification
        claimVerification := some verification }
    else .ok { errors := documentErrors ++ evidence.2 }

/-! ## §1. Every claim has its verdict. -/

section Verdicts

variable {u : Unicode} {known : Finset String} {catalog : List (String × VerificationEvidence)}

/-- A verdict on another claim leaves a verdict as it is. -/
theorem lookup_verifyAll_other {claims : List MaterialClaim} {id : String}
    (hid : id ∉ claims.map MaterialClaim.claimId) :
    ∀ {results final : List (String × ClaimVerification)},
      verifyAll u known catalog claims results = .ok final →
        final.lookup id = results.lookup id := by
  induction claims with
  | nil =>
      intro results final h
      rw [← Except.ok.inj h]
  | cons claim claims ih =>
      intro results final h
      obtain ⟨facts, -, h⟩ := verifyAll_cons.1 h
      rw [List.map_cons, List.mem_cons, not_or] at hid
      rw [ih hid.2 h, lookup_assign, if_neg hid.1]

/-- **Claims with distinct ids keep their verdicts.** -/
theorem lookup_verifyAll {claims : List MaterialClaim}
    (hnodup : (claims.map MaterialClaim.claimId).Nodup) :
    ∀ {results final : List (String × ClaimVerification)},
      verifyAll u known catalog claims results = .ok final → ∀ claim ∈ claims,
        ∃ facts, claimFacts u claim.text known = .ok facts ∧
          final.lookup claim.claimId = some (verifyClaim catalog facts claim) := by
  induction claims with
  | nil =>
      intro results final _ claim hclaim
      cases hclaim
  | cons first claims ih =>
      intro results final h claim hclaim
      obtain ⟨facts, hfacts, h⟩ := verifyAll_cons.1 h
      rw [List.map_cons, List.nodup_cons] at hnodup
      rcases List.mem_cons.1 hclaim with rfl | hclaim
      · refine ⟨facts, hfacts, ?_⟩
        rw [lookup_verifyAll_other hnodup.1 h, lookup_assign, if_pos rfl]
      · exact ih hnodup.2 h claim hclaim

theorem not_contradicted_of_errors {verification : List (String × ClaimVerification)}
    (h : verificationErrors verification = []) {id : String} {r : ClaimVerification}
    (hlookup : verification.lookup id = some r) : r.status ≠ .contradicted := by
  intro hstatus
  obtain ⟨before, after, hsplit, -⟩ := List.lookup_eq_some_iff.1 hlookup
  have hmem : (id, r) ∈ verification := by
    rw [hsplit]
    exact List.mem_append_right _ List.mem_cons_self
  have hnone := List.filterMap_eq_nil_iff.1 h (id, r) hmem
  simp only [hstatus, if_true] at hnone
  cases hnone

/-! ## §2. The guarantee. -/

/-- The texts of a list are expected under their ids. -/
theorem item_mem_expected {n : Summary} {field : ListField} {index : Nat} {item : String}
    (h : (n.items field)[index]? = some item) :
    (itemId field index, item) ∈ expectedMaterialClaims u n.toJson := by
  have hget : n.toJson.get field.key = texts (n.items field) := by cases field <;> rfl
  have hitem : ((n.items field).map Json.str)[index]? = some (Json.str item) := by
    rw [List.getElem?_map, h]
    rfl
  have hclaim : (itemId field index, u.str (.str item)) ∈ itemClaims u n.toJson field :=
    mem_itemClaims.2 ⟨_, index, _, hget, hitem, rfl⟩
  rw [u.str_str] at hclaim
  exact mem_expected.2 (.inr (.inr ⟨field, hclaim⟩))

/-- Where ids are distinct, one claim has the id of a claim. -/
theorem filter_claimId {claims : List SummaryClaim}
    (hnodup : (claims.map SummaryClaim.claimId).Nodup) {c : SummaryClaim} (hc : c ∈ claims) :
    claims.filter (fun d => d.claimId = c.claimId) = [c] := by
  induction claims with
  | nil => cases hc
  | cons d claims ih =>
      rw [List.map_cons, List.nodup_cons] at hnodup
      rcases List.mem_cons.1 hc with rfl | hc
      · have hrest : claims.filter (fun d => d.claimId = c.claimId) = [] := by
          rw [List.filter_eq_nil_iff]
          intro d hd hid
          exact hnodup.1 (List.mem_map.2 ⟨d, hd, of_decide_eq_true hid⟩)
        rw [List.filter_cons_of_pos (by simp), hrest]
      · have hne : d.claimId ≠ c.claimId := fun hid =>
          hnodup.1 (List.mem_map.2 ⟨c, hc, hid.symm⟩)
        rw [List.filter_cons_of_neg (by simpa using hne), ih hnodup.2 hc]

/-- **The evidence of a summary that passes.** -/
theorem passed_summary_is_backed {raw : String} {n : Summary} {documentErrors : List String}
    {context : Context} {result : ProviderValidation}
    (hparse : parseStructuredSummary u raw = .ok n)
    (hrun : validateProviderSummary u documentErrors n.toJson context = .ok result)
    (hpassed : result.errors = []) :
    (∀ field index item, (n.items field)[index]? = some item →
      ∃ c, n.claims.filter (fun d => d.claimId = itemId field index) = [c] ∧ c.text = item) ∧
    (∀ c ∈ n.claims, c.evidenceRefs ≠ [] ∧ c.evidenceRefs.Nodup ∧
      ∀ ref ∈ c.evidenceRefs, ref ∈ (evidenceCatalog u context).map Prod.fst) ∧
    ∃ verification catalog, result.claimVerification = some verification ∧
      verificationEvidenceCatalog u context = .ok catalog ∧
      ∀ c ∈ n.claims, ∃ r facts, verification.lookup c.claimId = some r ∧
        claimFacts u c.text (knownPartyNames u context) = .ok facts ∧
        r.status ≠ .contradicted ∧
        (r.status = .supported →
          Supports facts (c.evidenceRefs.filterMap fun ref => catalog.lookup ref)) := by
  have htidied := tidied_claims hparse
  unfold validateProviderSummary at hrun
  have hobj : ¬ (!n.toJson.isObj) = true := Bool.false_ne_true
  rw [if_neg hobj] at hrun
  -- The claims were verified only where the evidence check found nothing.
  by_cases hclean : (validateClaimEvidence u n.toJson context).2 = []
  · rw [if_pos hclean] at hrun
    obtain ⟨verification, hverify, hresult⟩ := bind_eq_ok.1 hrun
    rw [← Except.ok.inj hresult] at hpassed ⊢
    obtain ⟨-, hsemantic⟩ := List.append_eq_nil_iff.1 hpassed
    obtain ⟨hperm, hrefs⟩ := (validate_errors_iff htidied context).1 hclean
    obtain ⟨hnodup, hlookup, hall⟩ := (claimTexts_perm_iff nodup_expected).1 hperm
    refine ⟨fun field index item hitem => ?_, hrefs, ?_⟩
    -- An item is an expected claim, and the claim with its id has its text.
    · have hexpected := item_mem_expected (u := u) hitem
      obtain ⟨c, hc, hid⟩ := List.mem_map.1
        (hall (itemId field index) (List.mem_map.2 ⟨_, hexpected, rfl⟩))
      have htext := hlookup c hc
      rw [hid, (lookup_eq_some_iff nodup_expected).2 hexpected] at htext
      refine ⟨c, ?_, (Option.some.inj htext).symm⟩
      rw [← hid]
      exact filter_claimId hnodup hc
    · obtain ⟨catalog, hcatalog, hverdicts⟩ := bind_eq_ok.1 hverify
      refine ⟨verification, catalog, rfl, hcatalog, fun c hc => ?_⟩
      rw [validate_claims htidied hclean] at hverdicts
      have hids : ((n.claims.map SummaryClaim.material).map MaterialClaim.claimId).Nodup := by
        rw [List.map_map]
        exact hnodup
      -- The verdict of a claim is the one that was computed for it: the ids differ.
      obtain ⟨facts, hfacts, hfound⟩ :=
        lookup_verifyAll hids hverdicts c.material (List.mem_map_of_mem hc)
      exact ⟨_, facts, hfound, hfacts, not_contradicted_of_errors hsemantic hfound,
        supports_of_verdict⟩
  · rw [if_neg hclean] at hrun
    rw [← Except.ok.inj hrun] at hpassed
    exact absurd (List.append_eq_nil_iff.1 hpassed).2 hclean

end Verdicts

/-- The sample passes, and its event is one claim with its text. -/
theorem passed_summary_is_backed_sample :
    (∃ result, validateProviderSummary .ascii [] sampleSummary.toJson sampleContext = .ok result ∧
      result.errors = []) ∧
    ∃ c, sampleSummary.claims.filter (fun d => d.claimId = itemId .timeline 0) = [c] ∧
      c.text = "x" := by
  have hrun : (validateProviderSummary .ascii [] sampleSummary.toJson sampleContext).map
      ProviderValidation.errors = .ok [] := by
    decide +kernel
  obtain ⟨result, hresult, hpassed⟩ := map_eq_ok.1 hrun
  obtain ⟨hitems, -, -⟩ := passed_summary_is_backed parse_sampleSummary hresult hpassed
  exact ⟨⟨result, hresult, hpassed⟩, hitems .timeline 0 "x" rfl⟩

end Rpy.Summaries

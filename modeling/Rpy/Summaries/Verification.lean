/-
  Rpy.Summaries.Verification
  ──────────────────────────
  **THE VERIFICATION OF CLAIMS** (`verify_material_claims` of
  `app/claim_verification.py`).

  A claim is held against each source it cites, and against all of them
  together.  A source that states another amount or another number of steps
  contradicts it.

    • `verificationEvidenceCatalog` — the facts of the sources of a context,
    • `relationStatus`       — a claim against one source,
    • `verifyMaterialClaims` — the verdict on every claim,
    • `verdict_congr`        — the verdict is about the set of sources,
    • `verdict_contradicted`, `supports_of_verdict` — what a contradiction
                               and what a support say,
    • `verifyClaim_supported_insert` — one more source takes no support away,
    • `verifyMaterialClaims_specification` — the same, of whole runs.
-/
import Rpy.Summaries.Facts

namespace Rpy.Summaries

open Rpy.Foundation

/-! ## §1. The sources. -/

/-- `value if isinstance(value, list) else []` -/
def orEmptyList (value : Json) : Json :=
  if value.isArr then value else .arr []

/-- `value if isinstance(value, dict) else {}` -/
def orEmptyObject (value : Json) : Json :=
  if value.isObj then value else .obj []

/-- `process_payload` of `verification_evidence_catalog`. -/
def processPayload (context : Context) : Json :=
  .obj [
    ("code", context.code),
    ("court", context.court),
    ("class_name", context.className),
    ("subjects", orEmptyList context.subjects),
    ("parties", orEmptyList context.parties),
    ("representatives", orEmptyList context.representatives),
    ("secrecy_level", context.secrecyLevel),
    ("header", orEmptyObject context.header),
    ("step_count", context.stepCount),
    ("source_warnings", orEmptyList context.sourceWarnings)]

/-- `_canonical_json` -/
def canonicalJson (value : Json) : String :=
  String.ofList (value.sortKeys.print { ascii := false, blanks := true })

/-- The entry of the process, if it has a reference. -/
def processEvidence (u : Unicode) (context : Context) (known : Finset String) :
    Except FactError (List (String × VerificationEvidence)) :=
  let ref := strOrEmpty u context.processEvidenceRef
  if isEvidenceRef ref then do
    let payload := processPayload context
    let official : Finset Rat :=
      match decimalAmount u ((orEmptyObject context.header).get "amount") with
      | some amount => {amount}
      | none => ∅
    let steps : Finset Nat :=
      match context.stepCount with
      | .int n => if 0 ≤ n then {n.toNat} else ∅
      | _ => ∅
    let evidence ← verificationEvidence u ref .process (canonicalJson payload) known
      (some (official, steps)) (scalarTextValues u payload) {}
    return [(ref, evidence)]
  else .ok []

/-- The entry of a step, if it is a `dict` with a reference. -/
def stepEvidence (u : Unicode) (known : Finset String) (step : Json) :
    Except FactError (List (String × VerificationEvidence)) :=
  let ref := strOrEmpty u (step.get "evidence_ref")
  if step.isObj && isEvidenceRef ref then do
    let payload := Json.obj [
      ("step_number", step.get "step_number"),
      ("occurred_at", step.get "occurred_at"),
      ("title", step.get "title"),
      ("text", step.get "text")]
    let evidence ← verificationEvidence u ref .movement (canonicalJson payload) known none
      [strOrEmpty u (step.get "title"), strOrEmpty u (step.get "text")] {}
    return [(ref, evidence)]
  else .ok []

/-- The entry of an attachment, if it is a `dict` with a reference. -/
def attachmentEvidence (u : Unicode) (known : Finset String) (attachment : Json) :
    Except FactError (List (String × VerificationEvidence)) :=
  let ref := strOrEmpty u (attachment.get "evidence_ref")
  if attachment.isObj && isEvidenceRef ref then do
    let text := strOrEmpty u (attachment.get "text")
    let evidence ← verificationEvidence u ref .attachment text known none [text] {
      pageStart := optionalInt u (attachment.get "page_start")
      pageEnd := optionalInt u (attachment.get "page_end")
      charStart := optionalInt u (attachment.get "char_start")
      charEnd := optionalInt u (attachment.get "char_end") }
    return [(ref, evidence)]
  else .ok []

/-- `verification_evidence_catalog`: its assignments, the last one first. -/
def verificationEvidenceCatalog (u : Unicode) (context : Context) :
    Except FactError (List (String × VerificationEvidence)) := do
  let known := knownPartyNames u context
  let process ← processEvidence u context known
  let steps ← context.steps.mapM (stepEvidence u known)
  let attachments ← context.attachments.mapM (attachmentEvidence u known)
  return (process ++ steps.flatten ++ attachments.flatten).reverse

/-! ## §2. Verdicts. -/

/-- `VERIFICATION_STATUSES` -/
inductive VerificationStatus where
  | supported
  | contradicted
  | insufficient
  | notEvaluated
deriving Repr, DecidableEq

/-- `_relation_status` -/
def relationStatus (facts : ClaimFacts) (evidence : VerificationEvidence) :
    VerificationStatus × String × Nat :=
  if facts.normalizedText ≠ "" ∧ facts.normalizedText ∈ evidence.exactTexts then
    (.supported, "exact_text_present", 1)
  else if facts.count = 0 then (.notEvaluated, "no_deterministic_fact_anchor", 0)
  else if facts.cnjs ≠ ∅ ∧ ¬ facts.cnjs ⊆ evidence.cnjs then
    (.insufficient, "cited_source_missing_cnj", facts.count)
  else if facts.amounts ≠ ∅ ∧ ¬ facts.amounts ⊆ evidence.amounts then
    if evidence.kind = .process ∧ evidence.amounts ≠ ∅ ∧ facts.labeledProcessAmounts ≠ ∅ ∧
        ¬ facts.labeledProcessAmounts ⊆ evidence.amounts then
      (.contradicted, "process_amount_mismatch", facts.count)
    else (.insufficient, "cited_source_missing_amount", facts.count)
  else if facts.dates ≠ ∅ ∧ ¬ facts.dates ⊆ evidence.dates then
    (.insufficient, "cited_source_missing_date", facts.count)
  else if facts.parties ≠ ∅ ∧ ¬ facts.parties ⊆ evidence.partyNames then
    (.insufficient, "cited_source_missing_party", facts.count)
  else if facts.stepCounts ≠ ∅ ∧ ¬ facts.stepCounts ⊆ evidence.stepCounts then
    if evidence.kind = .process ∧ evidence.stepCounts ≠ ∅ then
      (.contradicted, "process_step_count_mismatch", facts.count)
    else (.insufficient, "cited_source_missing_step_count", facts.count)
  else (.supported, "deterministic_facts_present", facts.count)

/-- `ClaimRelationVerification` -/
structure ClaimRelationVerification where
  evidenceRef : String
  status : VerificationStatus
  reason : String
  evidenceExcerpt : Option String := none
  evidenceExcerptSha256 : Option String := none
  span : Span := {}
deriving Repr, DecidableEq

/-- `ClaimVerification` -/
structure ClaimVerification where
  claimId : String
  claimClass : ClaimClass
  status : VerificationStatus
  reason : String
  deterministicFactCount : Nat
  relations : List ClaimRelationVerification
deriving Repr, DecidableEq

/-- `_MAX_EXCERPT_CHARS` -/
def maxExcerptChars : Nat := 4000

/-- `_excerpt` -/
def excerpt (value : String) : Option String × Option String :=
  if value = "" then (none, none)
  else
    let rendered := value.toList.take maxExcerptChars
    (some (String.ofList rendered), some (Sha256.hexdigest rendered))

/-- The relation of a claim to one of its references. -/
def relationOf (catalog : List (String × VerificationEvidence)) (facts : ClaimFacts)
    (ref : String) : ClaimRelationVerification :=
  match catalog.lookup ref with
  | none =>
      { evidenceRef := ref, status := .insufficient, reason := "verification_source_unavailable" }
  | some evidence =>
      let verdict := relationStatus facts evidence
      let part := excerpt evidence.text
      { evidenceRef := ref
        status := verdict.1
        reason := verdict.2.1
        evidenceExcerpt := part.1
        evidenceExcerptSha256 := part.2
        span := evidence.span }

/-- The facts of several sources together. -/
def union {α : Type} [DecidableEq α] (f : VerificationEvidence → Finset α)
    (cited : List VerificationEvidence) : Finset α :=
  cited.foldr (fun evidence values => f evidence ∪ values) ∅

/-- The status of a claim and its reason, from the statuses of its
relations and the sources it cites. -/
def verdict (facts : ClaimFacts) (relations : List VerificationStatus)
    (cited : List VerificationEvidence) : VerificationStatus × String :=
  let process := cited.filter fun evidence => evidence.kind = .process
  if .contradicted ∈ relations then
    (.contradicted, "at_least_one_cited_source_contradicts_deterministic_fact")
  else if cited.any fun evidence =>
      facts.normalizedText ≠ "" ∧ facts.normalizedText ∈ evidence.exactTexts then
    (.supported, "exact_text_present_in_cited_source")
  else if facts.count = 0 then (.notEvaluated, "no_deterministic_fact_anchor")
  else if facts.labeledProcessAmounts ≠ ∅ ∧
      ¬ facts.labeledProcessAmounts ⊆ union VerificationEvidence.amounts cited ∧
      union VerificationEvidence.amounts process ≠ ∅ then
    (.contradicted, "process_amount_mismatch")
  else if facts.stepCounts ≠ ∅ ∧
      ¬ facts.stepCounts ⊆ union VerificationEvidence.stepCounts cited ∧
      union VerificationEvidence.stepCounts process ≠ ∅ then
    (.contradicted, "process_step_count_mismatch")
  else if facts.cnjs ⊆ union VerificationEvidence.cnjs cited ∧
      facts.dates ⊆ union VerificationEvidence.dates cited ∧
      facts.amounts ⊆ union VerificationEvidence.amounts cited ∧
      facts.parties ⊆ union VerificationEvidence.partyNames cited ∧
      facts.stepCounts ⊆ union VerificationEvidence.stepCounts cited then
    (.supported, "deterministic_facts_present_across_cited_sources")
  else (.insufficient, "cited_sources_do_not_support_all_deterministic_facts")

/-- The round of the loop of `verify_material_claims` about one claim. -/
def verifyClaim (catalog : List (String × VerificationEvidence)) (facts : ClaimFacts)
    (claim : MaterialClaim) : ClaimVerification :=
  let relations := claim.evidenceRefs.map (relationOf catalog facts)
  let result := verdict facts (relations.map ClaimRelationVerification.status)
    (claim.evidenceRefs.filterMap fun ref => catalog.lookup ref)
  { claimId := claim.claimId
    claimClass := claim.claimClass
    status := result.1
    reason := result.2
    deterministicFactCount := facts.count
    relations }

/-- The loop. -/
def verifyAll (u : Unicode) (known : Finset String)
    (catalog : List (String × VerificationEvidence)) :
    List MaterialClaim → List (String × ClaimVerification) →
      Except FactError (List (String × ClaimVerification))
  | [], results => .ok results
  | claim :: claims, results => do
      let facts ← claimFacts u claim.text known
      verifyAll u known catalog claims
        (assign claim.claimId (verifyClaim catalog facts claim) results)

/-- `verify_material_claims` -/
def verifyMaterialClaims (u : Unicode) (claims : List MaterialClaim) (context : Context) :
    Except FactError (List (String × ClaimVerification)) := do
  let catalog ← verificationEvidenceCatalog u context
  verifyAll u (knownPartyNames u context) catalog claims []

/-- `_INTRINSICALLY_MATERIAL_CLAIM_CLASSES` -/
def ClaimClass.isMaterial : ClaimClass → Bool
  | .proceduralEvent => true
  | .decision => true
  | .deadline => true
  | .relatedProcess => true
  | .attachment => true
  | _ => false

/-- `verification_errors` -/
def verificationErrors (verification : List (String × ClaimVerification)) : List String :=
  verification.filterMap fun (claimId, result) =>
    if result.status = .contradicted then
      some ("claim contradicted by cited evidence: " ++ claimId)
    else if result.status = .insufficient ∧ 0 < result.deterministicFactCount then
      some ("claim has insufficient cited evidence: " ++ claimId)
    else if result.status = .notEvaluated ∧ result.claimClass.isMaterial = true then
      some ("material claim was not evaluated: " ++ claimId)
    else none

/-! ## §3. Verdicts are about sets of sources. -/

theorem mem_union {α : Type} [DecidableEq α] {f : VerificationEvidence → Finset α}
    {cited : List VerificationEvidence} {x : α} :
    x ∈ union f cited ↔ ∃ evidence ∈ cited, x ∈ f evidence := by
  induction cited with
  | nil => simp [union]
  | cons evidence cited ih =>
      have hfold : union f (evidence :: cited) = f evidence ∪ union f cited := rfl
      rw [hfold, Finset.mem_union, ih]
      simp

theorem subset_union {α : Type} [DecidableEq α] {f : VerificationEvidence → Finset α}
    {cited : List VerificationEvidence} {evidence : VerificationEvidence}
    (h : evidence ∈ cited) : f evidence ⊆ union f cited :=
  fun _ hx => mem_union.2 ⟨evidence, h, hx⟩

/-- More sources state more. -/
theorem union_mono {α : Type} [DecidableEq α] {f : VerificationEvidence → Finset α}
    {cited more : List VerificationEvidence} (h : cited ⊆ more) :
    union f cited ⊆ union f more := by
  intro x hx
  obtain ⟨evidence, hmem, hx⟩ := mem_union.1 hx
  exact mem_union.2 ⟨evidence, h hmem, hx⟩

theorem union_congr {α : Type} [DecidableEq α] {f : VerificationEvidence → Finset α}
    {cited other : List VerificationEvidence} (h : ∀ e, e ∈ cited ↔ e ∈ other) :
    union f cited = union f other :=
  Finset.Subset.antisymm (union_mono fun e he => (h e).1 he) (union_mono fun e he => (h e).2 he)

/-- **The verdict depends on the set of relations and the set of sources.** -/
theorem verdict_congr {facts : ClaimFacts} {relations others : List VerificationStatus}
    {cited more : List VerificationEvidence}
    (hrelations : VerificationStatus.contradicted ∈ relations ↔ .contradicted ∈ others)
    (hcited : ∀ e, e ∈ cited ↔ e ∈ more) :
    verdict facts relations cited = verdict facts others more := by
  have hprocess : ∀ e, e ∈ cited.filter (fun evidence => evidence.kind = .process) ↔
      e ∈ more.filter fun evidence => evidence.kind = .process := by
    intro e
    rw [List.mem_filter, List.mem_filter, hcited e]
  have hany : ∀ p : VerificationEvidence → Bool, cited.any p = more.any p := by
    intro p
    rw [Bool.eq_iff_iff, List.any_eq_true, List.any_eq_true]
    simp only [hcited]
  unfold verdict
  simp only [hrelations, hany, union_congr hcited, union_congr hprocess]

/-- What a source states that contradicts a claim: it is the process, and
gives amounts or a number of steps, but not those the claim states. -/
def Contradicts (facts : ClaimFacts) (evidence : VerificationEvidence) : Prop :=
  evidence.kind = .process ∧
    ((evidence.amounts ≠ ∅ ∧ ¬ facts.labeledProcessAmounts ⊆ evidence.amounts) ∨
      (evidence.stepCounts ≠ ∅ ∧ ¬ facts.stepCounts ⊆ evidence.stepCounts))

theorem contradicts_of_relation {facts : ClaimFacts} {evidence : VerificationEvidence}
    (h : (relationStatus facts evidence).1 = .contradicted) : Contradicts facts evidence := by
  unfold relationStatus at h
  split_ifs at h with hexact hcount hcnjs hamounts hmismatch hdates hparties hsteps hprocess
  · exact ⟨hmismatch.1, .inl ⟨hmismatch.2.1, hmismatch.2.2.2⟩⟩
  · exact ⟨hprocess.1, .inr ⟨hprocess.2, hsteps.2⟩⟩

/-- A source of the process that gives some facts of a kind. -/
theorem exists_of_union_ne_empty {α : Type} [DecidableEq α]
    {f : VerificationEvidence → Finset α} {cited : List VerificationEvidence}
    (h : union f (cited.filter fun evidence => evidence.kind = .process) ≠ ∅) :
    ∃ evidence ∈ cited, evidence.kind = .process ∧ f evidence ≠ ∅ := by
  obtain ⟨x, hx⟩ := Finset.nonempty_iff_ne_empty.2 h
  obtain ⟨evidence, hmem, hx⟩ := mem_union.1 hx
  obtain ⟨hcited, hkind⟩ := List.mem_filter.1 hmem
  exact ⟨evidence, hcited, of_decide_eq_true hkind, Finset.nonempty_iff_ne_empty.1 ⟨x, hx⟩⟩

/-- **A contradicted claim cites a source that contradicts it.** -/
theorem verdict_contradicted {facts : ClaimFacts} {relations : List VerificationStatus}
    {cited : List VerificationEvidence}
    (hrelations : .contradicted ∈ relations →
      ∃ evidence ∈ cited, (relationStatus facts evidence).1 = .contradicted)
    (h : (verdict facts relations cited).1 = .contradicted) :
    ∃ evidence ∈ cited, Contradicts facts evidence := by
  unfold verdict at h
  by_cases hrel : .contradicted ∈ relations
  · obtain ⟨evidence, hmem, hstatus⟩ := hrelations hrel
    exact ⟨evidence, hmem, contradicts_of_relation hstatus⟩
  rw [if_neg hrel] at h
  split at h
  · cases h
  · split at h
    · cases h
    · split at h
      · -- the amounts of one source are among those of all of them
        next hamounts =>
          obtain ⟨-, hmissing, hprocess⟩ := hamounts
          obtain ⟨evidence, hmem, hkind, hsome⟩ := exists_of_union_ne_empty hprocess
          exact ⟨evidence, hmem, hkind, .inl ⟨hsome, fun hsub =>
            hmissing (hsub.trans (subset_union hmem))⟩⟩
      · split at h
        · next hsteps =>
            obtain ⟨-, hmissing, hprocess⟩ := hsteps
            obtain ⟨evidence, hmem, hkind, hsome⟩ := exists_of_union_ne_empty hprocess
            exact ⟨evidence, hmem, hkind, .inr ⟨hsome, fun hsub =>
              hmissing (hsub.trans (subset_union hmem))⟩⟩
        · split at h <;> cases h

/-- What supports a claim: a cited source has its exact text, or it states
facts, and the cited sources together state all of them. -/
def Supports (facts : ClaimFacts) (cited : List VerificationEvidence) : Prop :=
  (∃ evidence ∈ cited, facts.normalizedText ≠ "" ∧ facts.normalizedText ∈ evidence.exactTexts) ∨
    (facts.count ≠ 0 ∧ facts.cnjs ⊆ union VerificationEvidence.cnjs cited ∧
      facts.dates ⊆ union VerificationEvidence.dates cited ∧
      facts.amounts ⊆ union VerificationEvidence.amounts cited ∧
      facts.parties ⊆ union VerificationEvidence.partyNames cited ∧
      facts.stepCounts ⊆ union VerificationEvidence.stepCounts cited)

/-- **A supported claim is supported by what it cites.** -/
theorem supports_of_verdict {facts : ClaimFacts} {relations : List VerificationStatus}
    {cited : List VerificationEvidence} (h : (verdict facts relations cited).1 = .supported) :
    Supports facts cited := by
  unfold verdict at h
  by_cases hrel : .contradicted ∈ relations
  · rw [if_pos hrel] at h
    cases h
  rw [if_neg hrel] at h
  by_cases hexact : (cited.any fun evidence =>
      facts.normalizedText ≠ "" ∧ facts.normalizedText ∈ evidence.exactTexts) = true
  · obtain ⟨evidence, hmem, htext⟩ := List.any_eq_true.1 hexact
    exact .inl ⟨evidence, hmem, of_decide_eq_true htext⟩
  rw [if_neg hexact] at h
  split at h
  · cases h
  · next hcount =>
      split at h
      · cases h
      · split at h
        · cases h
        · split at h
          · next hall => exact .inr ⟨hcount, hall⟩
          · cases h

/-- More sources support what some of them do. -/
theorem Supports.mono {facts : ClaimFacts} {cited larger : List VerificationEvidence}
    (h : Supports facts cited) (hlarger : cited ⊆ larger) : Supports facts larger := by
  rcases h with ⟨evidence, hmem, htext⟩ | ⟨hcount, hcnjs, hdates, hsums, hparties, hcounts⟩
  · exact .inl ⟨evidence, hlarger hmem, htext⟩
  · exact .inr ⟨hcount, hcnjs.trans (union_mono hlarger), hdates.trans (union_mono hlarger),
      hsums.trans (union_mono hlarger), hparties.trans (union_mono hlarger),
      hcounts.trans (union_mono hlarger)⟩

/-- **What supports a claim makes it supported, unless a source contradicts it.** -/
theorem verdict_of_supports {facts : ClaimFacts} {relations : List VerificationStatus}
    {cited : List VerificationEvidence}
    (hlabeled : facts.labeledProcessAmounts ⊆ facts.amounts)
    (hrelations : .contradicted ∉ relations) (h : Supports facts cited) :
    (verdict facts relations cited).1 = .supported := by
  unfold verdict
  rw [if_neg hrelations]
  by_cases hexact : (cited.any fun evidence =>
      facts.normalizedText ≠ "" ∧ facts.normalizedText ∈ evidence.exactTexts) = true
  · rw [if_pos hexact]
  rw [if_neg hexact]
  rcases h with ⟨evidence, hmem, htext⟩ | ⟨hcount, hcnjs, hdates, hsums, hparties, hcounts⟩
  · exact absurd (List.any_eq_true.2 ⟨evidence, hmem, decide_eq_true htext⟩) hexact
  · -- the labelled amounts and the numbers of steps are among those of the sources
    rw [if_neg hcount, if_neg fun hbad => hbad.2.1 (hlabeled.trans hsums),
      if_neg fun hbad => hbad.2.1 hcounts, if_pos ⟨hcnjs, hdates, hsums, hparties, hcounts⟩]

/-! ## §4. The round about one claim. -/

section Rounds

variable {catalog : List (String × VerificationEvidence)} {facts : ClaimFacts}

/-- A relation contradicts when the catalog has a source that does. -/
theorem relationOf_contradicted_iff {ref : String} :
    (relationOf catalog facts ref).status = .contradicted ↔ ∃ evidence,
      catalog.lookup ref = some evidence ∧ (relationStatus facts evidence).1 = .contradicted := by
  unfold relationOf
  cases catalog.lookup ref with
  | none => simp
  | some evidence => simp

theorem contradicted_mem_relations {refs : List String} :
    VerificationStatus.contradicted ∈
        (refs.map (relationOf catalog facts)).map ClaimRelationVerification.status ↔
      ∃ ref ∈ refs, ∃ evidence, catalog.lookup ref = some evidence ∧
        (relationStatus facts evidence).1 = .contradicted := by
  rw [List.map_map, List.mem_map]
  exact exists_congr fun ref => and_congr_right fun _ => relationOf_contradicted_iff

theorem mem_cited {refs : List String} {evidence : VerificationEvidence} :
    (evidence ∈ refs.filterMap fun ref => catalog.lookup ref) ↔
      ∃ ref ∈ refs, catalog.lookup ref = some evidence :=
  List.mem_filterMap

/-- **The order of the references does not matter.** -/
theorem verifyClaim_perm {c : MaterialClaim} {refs : List String}
    (h : c.evidenceRefs.Perm refs) :
    (verifyClaim catalog facts { c with evidenceRefs := refs }).status =
      (verifyClaim catalog facts c).status := by
  have hcontradicted : VerificationStatus.contradicted ∈
        (refs.map (relationOf catalog facts)).map ClaimRelationVerification.status ↔
      .contradicted ∈
        (c.evidenceRefs.map (relationOf catalog facts)).map ClaimRelationVerification.status := by
    rw [contradicted_mem_relations, contradicted_mem_relations]
    simp only [h.mem_iff]
  have hcited : ∀ e, (e ∈ refs.filterMap fun ref => catalog.lookup ref) ↔
      e ∈ c.evidenceRefs.filterMap fun ref => catalog.lookup ref := by
    intro e
    rw [mem_cited, mem_cited]
    simp only [h.mem_iff]
  show (verdict facts _ _).1 = (verdict facts _ _).1
  rw [verdict_congr hcontradicted hcited]

theorem verifyClaim_contradicted {c : MaterialClaim}
    (h : (verifyClaim catalog facts c).status = .contradicted) :
    ∃ ref ∈ c.evidenceRefs, ∃ evidence, catalog.lookup ref = some evidence ∧
      Contradicts facts evidence := by
  have hrelations : VerificationStatus.contradicted ∈
        (c.evidenceRefs.map (relationOf catalog facts)).map ClaimRelationVerification.status →
      ∃ evidence ∈ c.evidenceRefs.filterMap (fun ref => catalog.lookup ref),
        (relationStatus facts evidence).1 = .contradicted := by
    intro hmem
    obtain ⟨ref, href, evidence, hlookup, hstatus⟩ := contradicted_mem_relations.1 hmem
    exact ⟨evidence, mem_cited.2 ⟨ref, href, hlookup⟩, hstatus⟩
  obtain ⟨evidence, hmem, hcontradicts⟩ := verdict_contradicted hrelations h
  obtain ⟨ref, href, hlookup⟩ := mem_cited.1 hmem
  exact ⟨ref, href, evidence, hlookup, hcontradicts⟩

/-- **One more source that does not contradict takes no support away.** -/
theorem verifyClaim_supported_insert {c : MaterialClaim} {ref : String} {refs : List String}
    {evidence : VerificationEvidence}
    (hlabeled : facts.labeledProcessAmounts ⊆ facts.amounts)
    (hrefs : refs.Perm (ref :: c.evidenceRefs)) (hlookup : catalog.lookup ref = some evidence)
    (hrelation : (relationStatus facts evidence).1 ≠ .contradicted)
    (h : (verifyClaim catalog facts c).status = .supported) :
    (verifyClaim catalog facts { c with evidenceRefs := refs }).status = .supported := by
  have hbefore : VerificationStatus.contradicted ∉
      (c.evidenceRefs.map (relationOf catalog facts)).map ClaimRelationVerification.status := by
    intro hmem
    have hstatus : (verifyClaim catalog facts c).status = .contradicted := by
      show (verdict facts _ _).1 = _
      unfold verdict
      rw [if_pos hmem]
    rw [h] at hstatus
    cases hstatus
  refine verdict_of_supports hlabeled ?_ ((supports_of_verdict h).mono ?_)
  · intro hmem
    obtain ⟨other, hother, found, hfound, hstatus⟩ := contradicted_mem_relations.1 hmem
    rcases List.mem_cons.1 (hrefs.mem_iff.1 hother) with rfl | hother
    · rw [hlookup] at hfound
      exact hrelation (Option.some.inj hfound ▸ hstatus)
    · exact hbefore (contradicted_mem_relations.2 ⟨other, hother, found, hfound, hstatus⟩)
  · intro e he
    obtain ⟨other, hother, hfound⟩ := mem_cited.1 he
    exact mem_cited.2 ⟨other, hrefs.mem_iff.2 (List.mem_cons_of_mem _ hother), hfound⟩

end Rounds

/-! ## §5. Whole runs. -/

section Runs

variable {u : Unicode} {known : Finset String} {catalog : List (String × VerificationEvidence)}

theorem labeled_of_claimFacts {text : String} {facts : ClaimFacts}
    (h : claimFacts u text known = .ok facts) : facts.labeledProcessAmounts ⊆ facts.amounts := by
  unfold claimFacts at h
  obtain ⟨_, _, h⟩ := bind_eq_ok.1 h
  obtain ⟨_, _, h⟩ := bind_eq_ok.1 h
  rw [← Except.ok.inj h]
  exact labeled_subset_amounts u text

theorem verifyAll_cons {claim : MaterialClaim} {claims : List MaterialClaim}
    {results final : List (String × ClaimVerification)} :
    verifyAll u known catalog (claim :: claims) results = .ok final ↔
      ∃ facts, claimFacts u claim.text known = .ok facts ∧
        verifyAll u known catalog claims
          (assign claim.claimId (verifyClaim catalog facts claim) results) = .ok final :=
  bind_eq_ok

/-- What is reported is what a round found about one of the claims. -/
theorem mem_verifyAll {claims : List MaterialClaim} :
    ∀ {results final : List (String × ClaimVerification)},
      verifyAll u known catalog claims results = .ok final → ∀ p ∈ final,
        p ∈ results ∨ ∃ claim ∈ claims, ∃ facts, claimFacts u claim.text known = .ok facts ∧
          p = (claim.claimId, verifyClaim catalog facts claim) := by
  induction claims with
  | nil =>
      intro results final h p hp
      rw [← Except.ok.inj h] at hp
      exact .inl hp
  | cons claim claims ih =>
      intro results final h p hp
      obtain ⟨facts, hfacts, h⟩ := verifyAll_cons.1 h
      rcases ih h p hp with hmem | ⟨other, hother, found⟩
      · rcases mem_assign hmem with rfl | hmem
        · exact .inr ⟨claim, List.mem_cons_self, facts, hfacts, rfl⟩
        · exact .inl hmem
      · exact .inr ⟨other, List.mem_cons_of_mem _ hother, found⟩

/-- The reported statuses. -/
def statuses (results : List (String × ClaimVerification)) : List (String × VerificationStatus) :=
  results.map (Prod.map id ClaimVerification.status)

/-- The same claim, with its references in another order. -/
structure Reordered (c d : MaterialClaim) : Prop where
  claimId : d.claimId = c.claimId
  claimClass : d.claimClass = c.claimClass
  text : d.text = c.text
  evidenceRefs : c.evidenceRefs.Perm d.evidenceRefs

theorem Reordered.status {c d : MaterialClaim} (h : Reordered c d) (facts : ClaimFacts) :
    (verifyClaim catalog facts d).status = (verifyClaim catalog facts c).status := by
  have hd : d = { c with evidenceRefs := d.evidenceRefs } := by
    cases d
    cases c
    obtain ⟨rfl, rfl, rfl, -⟩ := h
    rfl
  rw [hd]
  exact verifyClaim_perm h.evidenceRefs

theorem verifyAll_reordered {claims others : List MaterialClaim}
    (h : List.Forall₂ Reordered claims others) :
    ∀ {results more : List (String × ClaimVerification)}, statuses results = statuses more →
      (verifyAll u known catalog claims results).map statuses =
        (verifyAll u known catalog others more).map statuses := by
  induction h with
  | nil =>
      intro results more hsame
      exact congrArg Except.ok hsame
  | @cons c d claims others hcd _ ih =>
      intro results more hsame
      rw [verifyAll, verifyAll, hcd.text]
      cases claimFacts u c.text known with
      | error e => rfl
      | ok facts =>
          refine ih ?_
          unfold statuses at hsame ⊢
          rw [map_assign, map_assign, hsame, hcd.status, hcd.claimId]

/-- Every claim that is supported in the one run is in the other. -/
def KeepsSupport (results more : List (String × ClaimVerification)) : Prop :=
  ∀ id r, results.lookup id = some r → r.status = .supported →
    ∃ r', more.lookup id = some r' ∧ r'.status = .supported

/-- A claim of the one run and its counterpart in the other. -/
structure Strengthens (u : Unicode) (known : Finset String)
    (catalog : List (String × VerificationEvidence)) (c d : MaterialClaim) : Prop where
  claimId : d.claimId = c.claimId
  text : d.text = c.text
  supported : ∀ facts, claimFacts u c.text known = .ok facts →
    (verifyClaim catalog facts c).status = .supported →
      (verifyClaim catalog facts d).status = .supported

theorem verifyAll_keepsSupport {claims others : List MaterialClaim}
    (h : List.Forall₂ (Strengthens u known catalog) claims others) :
    ∀ {results more final : List (String × ClaimVerification)}, KeepsSupport results more →
      verifyAll u known catalog claims results = .ok final →
        ∃ final', verifyAll u known catalog others more = .ok final' ∧
          KeepsSupport final final' := by
  induction h with
  | nil =>
      intro results more final hkeeps hrun
      rw [← Except.ok.inj hrun]
      exact ⟨more, rfl, hkeeps⟩
  | @cons c d claims others hcd _ ih =>
      intro results more final hkeeps hrun
      obtain ⟨facts, hfacts, hrun⟩ := verifyAll_cons.1 hrun
      have hstep : KeepsSupport (assign c.claimId (verifyClaim catalog facts c) results)
          (assign d.claimId (verifyClaim catalog facts d) more) := by
        intro id r hr hstatus
        rw [lookup_assign] at hr ⊢
        rw [hcd.claimId]
        split at hr
        · next hid =>
            rw [if_pos hid]
            rw [← Option.some.inj hr] at hstatus
            exact ⟨_, rfl, hcd.supported facts hfacts hstatus⟩
        · next hid =>
            rw [if_neg hid]
            exact hkeeps id r hr hstatus
      obtain ⟨final', hrun', hkeeps'⟩ := ih hstep hrun
      exact ⟨final', verifyAll_cons.2 ⟨facts, by rw [hcd.text, hfacts], hrun'⟩, hkeeps'⟩

/-- **`verify_material_claims` meets its specification.** -/
theorem verifyMaterialClaims_specification (u : Unicode) (context : Context) :
    (∀ claims others, List.Forall₂ Reordered claims others →
      (verifyMaterialClaims u claims context).map statuses =
        (verifyMaterialClaims u others context).map statuses) ∧
    (∀ claims results, verifyMaterialClaims u claims context = .ok results →
      ∀ id r, (id, r) ∈ results → r.status = .contradicted →
        ∃ catalog facts, ∃ claim ∈ claims, ∃ ref ∈ claim.evidenceRefs, ∃ evidence,
          verificationEvidenceCatalog u context = .ok catalog ∧
          claimFacts u claim.text (knownPartyNames u context) = .ok facts ∧
          claim.claimId = id ∧ catalog.lookup ref = some evidence ∧
          Contradicts facts evidence) ∧
    (∀ before c after ref refs catalog facts evidence results r,
      verificationEvidenceCatalog u context = .ok catalog →
      claimFacts u c.text (knownPartyNames u context) = .ok facts →
      catalog.lookup ref = some evidence → (relationStatus facts evidence).1 ≠ .contradicted →
      refs.Perm (ref :: c.evidenceRefs) →
      verifyMaterialClaims u (before ++ c :: after) context = .ok results →
      results.lookup c.claimId = some r → r.status = .supported →
        ∃ results' r',
          verifyMaterialClaims u (before ++ { c with evidenceRefs := refs } :: after) context =
            .ok results' ∧
          results'.lookup c.claimId = some r' ∧ r'.status = .supported) := by
  refine ⟨?_, ?_, ?_⟩
  -- The order of the references does not matter.
  · intro claims others h
    unfold verifyMaterialClaims
    cases verificationEvidenceCatalog u context with
    | error e => rfl
    | ok catalog => exact verifyAll_reordered h rfl
  -- A contradiction comes from one reference that contradicts the claim's facts.
  · intro claims results hrun id r hmem hstatus
    obtain ⟨catalog, hcatalog, hrun⟩ := bind_eq_ok.1 hrun
    obtain hnone | ⟨claim, hclaim, facts, hfacts, hfound⟩ := mem_verifyAll hrun _ hmem
    · cases hnone
    obtain ⟨hid, hr⟩ := Prod.mk.inj hfound
    rw [hr] at hstatus
    obtain ⟨ref, href, evidence, hlookup, hcontradicts⟩ := verifyClaim_contradicted hstatus
    exact ⟨catalog, facts, claim, hclaim, ref, href, evidence, hcatalog, hfacts, hid.symm,
      hlookup, hcontradicts⟩
  · intro before c after ref refs catalog facts evidence results r hcatalog hfacts hlookup hrelation
      hrefs hrun hr hstatus
    have hself : ∀ d, Strengthens u (knownPartyNames u context) catalog d d := fun d =>
      ⟨rfl, rfl, fun _ _ h => h⟩
    -- The one claim with a reference more; every other one is as it was.
    have hchanged : Strengthens u (knownPartyNames u context) catalog c
        { c with evidenceRefs := refs } := by
      refine ⟨rfl, rfl, fun facts' hfacts' h => ?_⟩
      rw [hfacts] at hfacts'
      obtain rfl := Except.ok.inj hfacts'
      exact verifyClaim_supported_insert (labeled_of_claimFacts hfacts) hrefs hlookup hrelation h
    have hall : List.Forall₂ (Strengthens u (knownPartyNames u context) catalog)
        (before ++ c :: after) (before ++ { c with evidenceRefs := refs } :: after) :=
      List.rel_append (List.forall₂_same.2 fun d _ => hself d)
        (.cons hchanged (List.forall₂_same.2 fun d _ => hself d))
    obtain ⟨catalog', hcatalog', hrun⟩ := bind_eq_ok.1 hrun
    rw [hcatalog] at hcatalog'
    obtain rfl := Except.ok.inj hcatalog'
    obtain ⟨results', hrun', hkeeps⟩ :=
      verifyAll_keepsSupport hall (fun _ r' hr' hs => ⟨r', hr', hs⟩) hrun
    obtain ⟨r', hr', hstatus'⟩ := hkeeps c.claimId r hr hstatus
    exact ⟨results', r', bind_eq_ok.2 ⟨catalog, hcatalog, hrun'⟩, hr', hstatus'⟩

end Runs

/-- A process with the amount 10. -/
def amountContext : Context where
  header := .obj [("amount", .int 10)]
  processEvidenceRef := .str sampleRef

/-- A claim that states another amount. -/
def amountClaim : MaterialClaim where
  claimId := "timeline:0"
  claimClass := .proceduralEvent
  text := "valor: R$ 5"
  evidenceRefs := [sampleRef]

/-- The claim is contradicted, by the process. -/
theorem verifyMaterialClaims_specification_amount :
    ∃ results r, verifyMaterialClaims .ascii [amountClaim] amountContext = .ok results ∧
      ("timeline:0", r) ∈ results ∧ r.status = .contradicted ∧
      ∃ catalog facts, ∃ claim ∈ [amountClaim], ∃ ref ∈ claim.evidenceRefs, ∃ evidence,
        verificationEvidenceCatalog .ascii amountContext = .ok catalog ∧
        claimFacts .ascii claim.text (knownPartyNames .ascii amountContext) = .ok facts ∧
        claim.claimId = "timeline:0" ∧ catalog.lookup ref = some evidence ∧
        Contradicts facts evidence := by
  have hrun : (verifyMaterialClaims .ascii [amountClaim] amountContext).map statuses =
      .ok [("timeline:0", .contradicted)] := by
    decide +kernel
  obtain ⟨results, hresults, hstatuses⟩ := map_eq_ok.1 hrun
  have hmem : ("timeline:0", VerificationStatus.contradicted) ∈ statuses results := by
    rw [hstatuses]
    exact List.mem_singleton_self _
  obtain ⟨⟨id, r⟩, hmem, hpair⟩ := List.mem_map.1 hmem
  obtain ⟨rfl, hstatus⟩ := Prod.mk.inj hpair
  obtain ⟨-, hcontradicted, -⟩ := verifyMaterialClaims_specification .ascii amountContext
  exact ⟨results, r, hresults, hmem, hstatus,
    hcontradicted [amountClaim] results hresults _ r hmem hstatus⟩

end Rpy.Summaries

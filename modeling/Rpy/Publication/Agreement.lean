/-
  Rpy.Publication.Agreement
  ─────────────────────────
  **DO THE READERS OF A SUMMARY AGREE?**

  The readers share the two predicates that say whether a summary may be
  shown, and what they do before they ask them is their own: one of them
  takes an output that cannot be decoded for one that is not publishable,
  the others raise; one asks for the JSON value `true` where the others ask
  PostgreSQL; two answer with other columns, whose decoding can raise too.

    • `PassedSummary.verdicts`   — the verdicts of the six readers,
    • `PassedSummary.Consistent` — the condition on the row and its request,
    • `gates_agree_iff`          — the readers agree exactly when it holds.
-/
import Rpy.Publication.Responses

namespace Rpy.Publication

open Rpy.Foundation Rpy.Summaries
open Rpy.Attachments (Exn)

/-! ## §1. The verdicts. -/

/-- A passed summary of the current version of a process, with what brings
it to the readers: a tenant that may read the process, a request that holds
the summary, and the result of its generation. -/
structure PassedSummary (t : Tables) where
  process : ProcessRow
  summary : SummaryRow
  request : RequestRow
  tenantId : Uuid
  result : Json
  process_mem : process ∈ t.processes
  summary_mem : summary ∈ t.summaries
  request_mem : request ∈ t.requests
  granted : (tenantId, process.id) ∈ t.grants
  of_process : summary.processId = process.id
  current : process.currentVersionId = some summary.versionId
  passed : castPassed summary.validation = true
  result_passed : resultPassed result = true
  holds_process : request.processId = some process.id
  holds_summary : request.summaryId = some summary.id

/-- What the six readers say; an exception is no verdict. -/
def PassedSummary.verdicts (u : Unicode) {t : Tables} (h : PassedSummary t) (format : Format) :
    List (Except Exn Bool) :=
  [t.summaryRowIsPublishable u h.summary h.process,
    (t.completeFromCurrentSummary u h.process.id).map Option.isSome,
    (t.reconcileGenerationResult u h.process.id h.summary.versionId h.result).map
      fun answer => answer.status == .completed,
    (t.getProcessSummary u h.tenantId h.process.code).map fun answer =>
      answer.any fun response => response.summary.isSome,
    (t.latestSummaryPayload u h.tenantId h.process.code format).map Option.isSome,
    (t.jobPayload u h.request.tenantId h.request.id).map fun answer =>
      answer.any fun payload => payload.iaSummary != .absent]

/-- The verdicts coincide: all raise, or all are one answer. -/
def Agree (verdicts : List (Except Exn Bool)) : Prop :=
  (∀ v ∈ verdicts, v.isOk = false) ∨ ∃ b, ∀ v ∈ verdicts, v = .ok b

/-! ## §2. The condition. -/

/-- Do the predicates on the decoded row let it be shown? -/
def PassedSummary.accepted (u : Unicode) {t : Tables} (h : PassedSummary t) : Bool :=
  (t.mayBeShown u h.summary h.process).toOption == some true

/-- The predicates are not reached, whoever asks: the output is a text whose
brackets are nested too deep to be read. -/
def PassedSummary.Unreadable (u : Unicode) {t : Tables} (h : PassedSummary t) : Prop :=
  decodeNullable u h.summary.structuredOutput = .error .recursion ∧
    (h.process.isRestricted = true → h.summary.model = restrictedModel ∧
      h.summary.promptVersion = restrictedPromptVersion)

/-- The other columns that the payloads are made of are decoded, and the
movements they list are numbered. -/
structure PassedSummary.Listed (u : Unicode) {t : Tables} (h : PassedSummary t) : Prop where
  usage : (decodeJsonObject u h.summary.usage).isOk = true
  flags : (decodeJsonObject u h.request.flags).isOk = true
  ofRequest : (t.loadSources h.request.processId h.request.versionId
    (if h.accepted u then h.request.summaryId else none)).isOk = true
  ofProcess : h.accepted u = true →
    (t.loadSources (some h.process.id) h.process.currentVersionId
      (some h.summary.id)).isOk = true

/-- The output is decoded, the payloads can be made, and a summary that is
accepted has passed by the JSON value `true`; or nobody reads the output. -/
def PassedSummary.Consistent (u : Unicode) {t : Tables} (h : PassedSummary t) : Prop :=
  h.Unreadable u ∨
    ((decodeNullable u h.summary.structuredOutput).isOk = true ∧ h.Listed u ∧
      (h.accepted u = true → h.summary.validation.get "passed" = .bool true))

section Agreement

variable {u : Unicode} {t : Tables}

/-! ## §3. The rows the readers find. -/

variable (h : PassedSummary t)

theorem PassedSummary.find_process :
    t.processes.find? (fun p => p.id == h.process.id) = some h.process := by
  refine find?_eq_some_of_unique h.process_mem (beq_self_eq_true _) fun p hp hid => ?_
  exact eq_of_nodup_key t.process_ids hp h.process_mem (eq_of_beq hid)

theorem PassedSummary.find_current :
    t.processes.find? (fun p =>
      p.id == h.process.id && p.currentVersionId == some h.summary.versionId) =
      some h.process := by
  refine find?_eq_some_of_unique h.process_mem ?_ fun p hp hboth => ?_
  · rw [h.current, beq_self_eq_true, beq_self_eq_true]
    rfl
  · rw [Bool.and_eq_true] at hboth
    exact eq_of_nodup_key t.process_ids hp h.process_mem (eq_of_beq hboth.1)

theorem PassedSummary.find_authorized :
    t.getAuthorizedProcess h.tenantId h.process.code = some h.process := by
  unfold Tables.getAuthorizedProcess
  refine find?_eq_some_of_unique h.process_mem ?_ fun p hp hboth => ?_
  · rw [beq_self_eq_true, Bool.true_and]
    exact List.contains_iff_mem.2 h.granted
  · rw [Bool.and_eq_true] at hboth
    exact eq_of_nodup_key t.process_codes hp h.process_mem (eq_of_beq hboth.1)

theorem PassedSummary.find_request :
    t.requests.find? (fun r => r.id == h.request.id && r.tenantId == h.request.tenantId) =
      some h.request := by
  refine find?_eq_some_of_unique h.request_mem ?_ fun r hr hboth => ?_
  · rw [beq_self_eq_true, beq_self_eq_true]
    rfl
  · rw [Bool.and_eq_true] at hboth
    exact eq_of_nodup_key t.request_ids hr h.request_mem (eq_of_beq hboth.1)

theorem PassedSummary.find_summary :
    t.summaries.find? (fun s => s.id == h.summary.id) = some h.summary := by
  refine find?_eq_some_of_unique h.summary_mem (beq_self_eq_true _) fun s hs hid => ?_
  exact eq_of_nodup_key t.summary_ids hs h.summary_mem (eq_of_beq hid)

/-- Two summaries of one version of a process are one. -/
theorem summary_unique {s : SummaryRow} (hs : s ∈ t.summaries)
    (hprocess : s.processId = h.process.id) (hversion : s.versionId = h.summary.versionId) :
    s = h.summary := by
  refine eq_of_nodup_key t.summary_versions hs h.summary_mem ?_
  rw [hprocess, hversion, h.of_process]

theorem PassedSummary.find_version :
    t.summaries.find? (fun s =>
      s.processId == h.process.id && s.versionId == h.summary.versionId) = some h.summary := by
  refine find?_eq_some_of_unique h.summary_mem ?_ fun s hs hboth => ?_
  · rw [h.of_process, beq_self_eq_true, beq_self_eq_true]
    rfl
  · rw [Bool.and_eq_true] at hboth
    exact summary_unique h hs (eq_of_beq hboth.1) (eq_of_beq hboth.2)

theorem PassedSummary.find_passed :
    h.process.currentVersionId.bind (t.passedSummary h.process.id) = some h.summary := by
  rw [h.current]
  show t.summaries.find? _ = some h.summary
  refine find?_eq_some_of_unique h.summary_mem ?_ fun s hs hall => ?_
  · rw [h.of_process, h.passed, beq_self_eq_true, beq_self_eq_true]
    rfl
  · rw [Bool.and_eq_true, Bool.and_eq_true] at hall
    exact summary_unique h hs (eq_of_beq hall.1.1) (eq_of_beq hall.1.2)

/-- What PostgreSQL finds passed is an object. -/
theorem PassedSummary.validation_obj :
    ∃ members, h.summary.validation = .obj members := by
  have hpassed := h.passed
  cases hv : h.summary.validation with
  | obj members => exact ⟨members, rfl⟩
  | _ =>
      rw [hv] at hpassed
      cases hpassed

/-! ## §4. Decoding. -/

theorem decodeNullable_of_ne {v : Json} (hv : v ≠ .null) :
    decodeNullable u v = (decodeJsonObject u v).map some := by
  cases v with
  | null => exact absurd rfl hv
  | _ => rfl

theorem decodeJsonValue_error {v : Json} {e : Exn} (he : decodeJsonValue u v = .error e) :
    e = .value ∨ e = .recursion := by
  cases v with
  | str text =>
      unfold decodeJsonValue at he
      simp only at he
      split at he
      · exact .inl (Except.error.inj he).symm
      · exact .inr (Except.error.inj he).symm
      · cases he
  | _ => cases he

/-- Decoding raises a `ValueError` or a `RecursionError`. -/
theorem decodeJsonObject_error {v : Json} {e : Exn} (he : decodeJsonObject u v = .error e) :
    e = .value ∨ e = .recursion := by
  by_cases hv : v = .null
  · rw [hv] at he
    cases he
  · have hsteps : decodeJsonObject u v = (decodeJsonValue u v >>= fun decoded =>
        (Dict.ofValue decoded).mapError fun _ => .value) := by
      cases v with
      | null => exact absurd rfl hv
      | _ => rfl
    rw [hsteps] at he
    cases hvalue : decodeJsonValue u v with
    | error e' =>
        rw [hvalue] at he
        rw [← Except.error.inj he]
        exact decodeJsonValue_error hvalue
    | ok decoded =>
        rw [hvalue] at he
        change (Dict.ofValue decoded).mapError _ = _ at he
        cases hdict : Dict.ofValue decoded with
        | ok d =>
            rw [hdict] at he
            cases he
        | error e' =>
            rw [hdict] at he
            exact .inl (Except.error.inj he).symm

/-- The empty object is no document. -/
theorem publishable_empty (claims : List ClaimEvidence) (context : ProcessContext) :
    claimEvidenceIsPublishable u (some {}) claims context = false := rfl

theorem publishable_none (claims : List ClaimEvidence) (context : ProcessContext) :
    claimEvidenceIsPublishable u none claims context = false := rfl

theorem isCanonical_of_matches {d : Dict} {context : ProcessContext}
    (hmatches : d.matchesProcess u context = true) : d.isCanonical u = true := by
  unfold Dict.matchesProcess documentMatchesProcess at hmatches
  rw [Bool.and_eq_true, Bool.and_eq_true] at hmatches
  unfold Dict.isCanonical
  rw [hmatches.1, hmatches.2.1]
  rfl

/-- The claims of a canonical document are a list. -/
theorem claims_of_canonical {d : Dict} (hcanonical : d.isCanonical u = true)
    {members : List (String × Json)} (hsummary : d.get "summary" = .obj members) {claims : Json}
    (hclaims : members.lookup "claims" = some claims) : ∃ items, claims = .arr items := by
  unfold Dict.isCanonical documentIsCanonical at hcanonical
  rw [Bool.and_eq_true, Bool.and_eq_true] at hcanonical
  have hform : summaryIsCanonical u (d.get "summary") = true := hcanonical.2.2
  rw [hsummary] at hform
  obtain ⟨n, _, hcanon⟩ := canonicalSummary_iff.1 hform
  have hget : (Json.obj members).get "claims" = claims := by
    show (members.lookup "claims").getD .null = claims
    rw [hclaims]
    rfl
  have hsame : claims.canon = (n.toJson.get "claims").canon := by
    rw [← hget]
    exact Json.get_canon_congr hcanon "claims"
  have harr : claims.isArr = true := by
    rw [← Json.isArr_canon, hsame, Json.isArr_canon]
    rfl
  cases claims with
  | arr items => exact ⟨items, rfl⟩
  | _ => cases harr

/-- What may be shown is represented. -/
theorem representation_eq_ok {s : SummaryRow} {d : Dict} (hne : s.structuredOutput ≠ .null)
    (hdecode : decodeJsonObject u s.structuredOutput = .ok d) (hcanonical : d.isCanonical u = true)
    (format : Format) (hide : Bool) (evidence : List LoadedClaim) :
    ∃ r, s.representation u format hide evidence = .ok r ∧ (r != .absent) = true := by
  unfold SummaryRow.representation
  cases format with
  | jsx => exact ⟨_, rfl, rfl⟩
  | json =>
      simp only [if_neg hne, hdecode, bind, Except.bind]
      cases hsummary : d.get "summary" with
      | obj members =>
          cases hclaims : members.lookup "claims" with
          | none => exact ⟨.document d, by simp [hclaims]; rfl, rfl⟩
          | some claims =>
              obtain ⟨items, rfl⟩ := claims_of_canonical hcanonical hsummary hclaims
              cases hide with
              | true => exact ⟨withSummary d _, by simp [hclaims]; rfl, rfl⟩
              | false => exact ⟨withSummary d _, by simp [hclaims, iterate]; rfl, rfl⟩
      | _ => exact ⟨.document d, rfl, rfl⟩

/-! ## §5. The verdict on a decoded row. -/

theorem decodeJsonObject_of_nullable {v : Json} {output : Option Dict}
    (hdecode : decodeNullable u v = .ok output) :
    (v = .null ∧ output = none) ∨
      ∃ d, v ≠ .null ∧ decodeJsonObject u v = .ok d ∧ output = some d := by
  by_cases hv : v = .null
  · rw [hv] at hdecode
    exact .inl ⟨hv, (Except.ok.inj hdecode).symm⟩
  · rw [decodeNullable_of_ne hv] at hdecode
    cases hd : decodeJsonObject u v with
    | error e =>
        rw [hd] at hdecode
        cases hdecode
    | ok d =>
        rw [hd] at hdecode
        exact .inr ⟨d, hv, rfl, (Except.ok.inj hdecode).symm⟩

theorem decodeNullable_error {v : Json} {e : Exn} (he : decodeNullable u v = .error e) :
    decodeJsonObject u v = .error e := by
  by_cases hv : v = .null
  · rw [hv] at he
    cases he
  · rw [decodeNullable_of_ne hv] at he
    cases hd : decodeJsonObject u v with
    | error e' =>
        rw [hd] at he
        rw [Except.error.inj he]
    | ok d =>
        rw [hd] at he
        cases he

/-- The policy on a summary under secrecy, when its output is decoded. -/
theorem isRestrictedLocal_of_decoded {s : SummaryRow} (p : ProcessRow) {output : Option Dict}
    (hdecode : decodeNullable u s.structuredOutput = .ok output) :
    ∃ b, s.isRestrictedLocal u p = .ok b := by
  unfold SummaryRow.isRestrictedLocal isRestrictedLocalSummary
  by_cases hother : s.model ≠ restrictedModel ∨ s.promptVersion ≠ restrictedPromptVersion
  · rw [if_pos hother]
    exact ⟨false, rfl⟩
  · rw [if_neg hother]
    obtain ⟨hnull, _⟩ | ⟨d, _, hd, _⟩ := decodeJsonObject_of_nullable hdecode
    · rw [hnull]
      exact ⟨_, rfl⟩
    · rw [hd]
      exact ⟨_, rfl⟩

/-- A decoded row is accepted or refused. -/
theorem mayBeShown_of_decoded {output : Option Dict}
    (hdecode : decodeNullable u h.summary.structuredOutput = .ok output) :
    t.mayBeShown u h.summary h.process = .ok (h.accepted u) := by
  have hok : ∃ b, t.mayBeShown u h.summary h.process = .ok b := by
    unfold Tables.mayBeShown Tables.claimsPublish
    by_cases hsecret : h.process.isRestricted = true
    · rw [if_pos hsecret]
      exact isRestrictedLocal_of_decoded h.process hdecode
    · rw [if_neg hsecret, hdecode]
      exact ⟨_, rfl⟩
  obtain ⟨b, hb⟩ := hok
  unfold PassedSummary.accepted
  rw [hb]
  cases b with
  | false => rfl
  | true => rfl

/-- What is accepted is a canonical document. -/
theorem canonical_of_accepted (haccepted : h.accepted u = true) :
    ∃ d, h.summary.structuredOutput ≠ .null ∧
      decodeJsonObject u h.summary.structuredOutput = .ok d ∧ d.isCanonical u = true := by
  have hshown : t.mayBeShown u h.summary h.process = .ok true := by
    unfold PassedSummary.accepted at haccepted
    cases hm : t.mayBeShown u h.summary h.process with
    | error e =>
        rw [hm] at haccepted
        cases haccepted
    | ok b =>
        rw [hm] at haccepted
        rw [Option.some.inj (eq_of_beq haccepted)]
  unfold Tables.mayBeShown at hshown
  -- The row may be shown on two paths: a restricted process's own summary, and a publishable
  -- one.
  by_cases hsecret : h.process.isRestricted = true
  · rw [if_pos hsecret] at hshown
    unfold SummaryRow.isRestrictedLocal isRestrictedLocalSummary at hshown
    by_cases hother : h.summary.model ≠ restrictedModel ∨
        h.summary.promptVersion ≠ restrictedPromptVersion
    · rw [if_pos hother] at hshown
      cases hshown
    · rw [if_neg hother] at hshown
      cases hd : decodeJsonObject u h.summary.structuredOutput with
      | error e =>
          rw [hd] at hshown
          cases e with
          | recursion => cases hshown
          | _ => cases hshown
      | ok d =>
          rw [hd] at hshown
          have hboth := Except.ok.inj hshown
          rw [Bool.and_eq_true] at hboth
          refine ⟨d, ?_, rfl, isCanonical_of_matches hboth.1⟩
          intro hnull
          rw [hnull] at hd
          rw [← Except.ok.inj hd] at hboth
          cases hboth.1
  · rw [if_neg hsecret] at hshown
    unfold Tables.claimsPublish at hshown
    cases hn : decodeNullable u h.summary.structuredOutput with
    | error e =>
        rw [hn] at hshown
        cases hshown
    | ok output =>
        rw [hn] at hshown
        have hpublish : claimEvidenceIsPublishable u output _ _ = true := Except.ok.inj hshown
        -- Without an output nothing is publishable.
        obtain ⟨_, rfl⟩ | ⟨d, hne, hd, rfl⟩ := decodeJsonObject_of_nullable hn
        · rw [publishable_none] at hpublish
          cases hpublish
        · unfold claimEvidenceIsPublishable at hpublish
          rw [Bool.and_eq_true, Bool.and_eq_true] at hpublish
          exact ⟨d, hne, hd, isCanonical_of_matches hpublish.1.2⟩

/-! ## §6. The verdicts. -/

/-- The gate of the worker gives what the predicates give. -/
theorem verdict_complete :
    (t.completeFromCurrentSummary u h.process.id).map Option.isSome =
      t.mayBeShown u h.summary h.process := by
  unfold Tables.completeFromCurrentSummary
  rw [h.find_process]
  dsimp only
  rw [h.find_passed]
  show Except.map Option.isSome ((t.mayBeShown u h.summary h.process).map _) = _
  cases t.mayBeShown u h.summary h.process with
  | error e => rfl
  | ok b =>
      cases b with
      | false => rfl
      | true => rfl

theorem verdict_reconcile :
    ((t.reconcileGenerationResult u h.process.id h.summary.versionId h.result).map
      fun answer => answer.status == .completed) = t.mayBeShown u h.summary h.process := by
  unfold Tables.reconcileGenerationResult
  rw [h.find_current, h.find_version]
  simp only [h.passed, h.result_passed, Bool.and_self, if_true]
  cases t.mayBeShown u h.summary h.process with
  | error e => rfl
  | ok b =>
      cases b with
      | false => rfl
      | true => rfl

theorem decode_validation :
    ∃ members, h.summary.validation = .obj members ∧
      decodeJsonObject u h.summary.validation = .ok { members } ∧
      decodeNullable u h.summary.validation = .ok (some { members }) := by
  obtain ⟨members, hv⟩ := h.validation_obj
  rw [hv]
  exact ⟨members, rfl, rfl, rfl⟩

theorem verdict_process :
    ((t.getProcessSummary u h.tenantId h.process.code).map fun answer =>
      answer.any fun response => response.summary.isSome) =
      t.mayBeShown u h.summary h.process := by
  obtain ⟨members, _, hdecode, _⟩ := decode_validation (u := u) h
  unfold Tables.getProcessSummary
  rw [h.find_authorized]
  have hshown : t.shownSummary u h.process =
      (t.mayBeShown u h.summary h.process).map fun shown =>
        if shown then some h.summary else none := by
    unfold Tables.shownSummary
    rw [h.find_passed]
  simp only [hshown]
  cases t.mayBeShown u h.summary h.process with
  | error e => rfl
  | ok b =>
      cases b with
      | false => rfl
      | true =>
          show Except.map _ (((decodeJsonObject u h.summary.validation).map _) >>= _) = _
          rw [hdecode]
          rfl

/-- The first predicate, on a decoded row. -/
theorem verdict_row {output : Option Dict}
    (hdecode : decodeNullable u h.summary.structuredOutput = .ok output) :
    t.summaryRowIsPublishable u h.summary h.process = .ok (h.accepted u) := by
  have hshown := mayBeShown_of_decoded h hdecode
  unfold Tables.mayBeShown at hshown
  unfold Tables.summaryRowIsPublishable
  simp only [h.passed, Bool.not_true, Bool.false_eq_true, if_false]
  by_cases hsecret : h.process.isRestricted = true
  · rw [if_pos hsecret] at hshown ⊢
    exact hshown
  · rw [if_neg hsecret] at hshown ⊢
    unfold Tables.claimsPublish at hshown
    rw [hdecode] at hshown
    obtain ⟨hnull, rfl⟩ | ⟨d, _, hd, rfl⟩ := decodeJsonObject_of_nullable hdecode
    · rw [hnull]
      rw [← hshown]
      exact congrArg Except.ok ((publishable_empty _ _).trans (publishable_none _ _).symm)
    · rw [hd]
      exact hshown

/-- The first predicate raises where the output is unreadable only. -/
theorem verdict_row_error {e : Exn}
    (he : decodeNullable u h.summary.structuredOutput = .error e) :
    (t.summaryRowIsPublishable u h.summary h.process).isOk = false ↔ h.Unreadable u := by
  have hd := decodeNullable_error he
  have hkind : e = .recursion ∨ e = .value := (decodeJsonObject_error hd).symm
  unfold Tables.summaryRowIsPublishable PassedSummary.Unreadable
  simp only [h.passed, Bool.not_true, Bool.false_eq_true, if_false, he, hd]
  by_cases hsecret : h.process.isRestricted = true
  · rw [if_pos hsecret]
    unfold SummaryRow.isRestrictedLocal isRestrictedLocalSummary
    by_cases hother : h.summary.model ≠ restrictedModel ∨
        h.summary.promptVersion ≠ restrictedPromptVersion
    · rw [if_pos hother]
      refine iff_of_false (fun hok => nomatch hok) fun hunreadable => ?_
      obtain ⟨hmodel, hprompt⟩ := hunreadable.2 hsecret
      exact hother.elim (fun hne => hne hmodel) fun hne => hne hprompt
    · have hboth : h.summary.model = restrictedModel ∧
          h.summary.promptVersion = restrictedPromptVersion :=
        ⟨not_not.1 fun hne => hother (.inl hne), not_not.1 fun hne => hother (.inr hne)⟩
      rw [if_neg hother, hd]
      obtain rfl | rfl := hkind
      · exact iff_of_true rfl ⟨rfl, fun _ => hboth⟩
      · exact iff_of_false (fun hok => nomatch hok) fun hunreadable => nomatch hunreadable.1
  · rw [if_neg hsecret]
    obtain rfl | rfl := hkind
    · exact iff_of_true rfl ⟨rfl, fun hyes => absurd hyes hsecret⟩
    · exact iff_of_false (fun hok => nomatch hok) fun hunreadable => nomatch hunreadable.1

/-- The predicates raise where the output is unreadable. -/
theorem mayBeShown_of_unreadable (hunreadable : h.Unreadable u) :
    t.mayBeShown u h.summary h.process = .error .recursion := by
  obtain ⟨he, hlocal⟩ := hunreadable
  unfold Tables.mayBeShown
  by_cases hsecret : h.process.isRestricted = true
  · obtain ⟨hmodel, hprompt⟩ := hlocal hsecret
    rw [if_pos hsecret]
    unfold SummaryRow.isRestrictedLocal isRestrictedLocalSummary
    rw [if_neg (not_or.2 ⟨fun hne => hne hmodel, fun hne => hne hprompt⟩), decodeNullable_error he]
  · rw [if_neg hsecret]
    unfold Tables.claimsPublish
    rw [he]
    rfl

/-- `_summary_usage` raises what its decoding raises. -/
theorem isOk_summaryUsage (s : SummaryRow) :
    (s.summaryUsage u).isOk = (decodeJsonObject u s.usage).isOk := by
  unfold SummaryRow.summaryUsage
  cases decodeJsonObject u s.usage with
  | error e => rfl
  | ok d => rfl

theorem latest_error {e : Exn} (he : decodeNullable u h.summary.structuredOutput = .error e)
    (format : Format) :
    t.latestSummaryPayload u h.tenantId h.process.code format = .error e := by
  obtain ⟨members, _, hdecode, _⟩ := decode_validation (u := u) h
  unfold Tables.latestSummaryPayload
  rw [h.find_authorized]
  simp only [h.find_passed, hdecode, he]
  rfl

/-- What is left of the payload of the latest summary, once its row is
decoded. -/
theorem latest_steps {output : Option Dict}
    (hdecode : decodeNullable u h.summary.structuredOutput = .ok output) (format : Format) :
    (t.latestSummaryPayload u h.tenantId h.process.code format).map Option.isSome =
      if h.accepted u = true then do
        let _ ← t.loadSources (some h.process.id) h.process.currentVersionId (some h.summary.id)
        let _ ← h.summary.summaryUsage u
        return true
      else .ok false := by
  obtain ⟨members, _, hvalidation, _⟩ := decode_validation (u := u) h
  have hverdict : (if h.process.isRestricted = true then h.summary.isRestrictedLocal u h.process
      else .ok (claimEvidenceIsPublishable u output (t.claimEvidence u h.summary.id)
        h.process.context)) = Except.ok (h.accepted u) := by
    rw [← mayBeShown_of_decoded h hdecode]
    unfold Tables.mayBeShown Tables.claimsPublish
    rw [hdecode]
    rfl
  unfold Tables.latestSummaryPayload
  rw [h.find_authorized]
  simp only [h.find_passed, hvalidation, hdecode]
  show Except.map Option.isSome (if h.process.isRestricted = true then _ else _) = _
  rw [ite_bind, hverdict]
  cases haccepted : h.accepted u with
  | false => rfl
  | true =>
      obtain ⟨d, hne, hd, hcanonical⟩ := canonical_of_accepted h haccepted
      obtain ⟨r, hr, _⟩ := representation_eq_ok hne hd hcanonical format h.process.isRestricted
        (t.loadSummaryClaimEvidence u h.summary.id)
      rw [hr, if_pos rfl]
      cases t.loadSources (some h.process.id) h.process.currentVersionId (some h.summary.id) with
      | error e => rfl
      | ok sources =>
          cases h.summary.summaryUsage u with
          | error e => rfl
          | ok usage => rfl


/-- Does the job's reader show the summary? -/
def PassedSummary.jobShows (u : Unicode) {t : Tables} (h : PassedSummary t) : Bool :=
  h.accepted u && h.summary.validation.get "passed" == .bool true

theorem jobPublishable_of_decoded {output validation : Option Dict}
    (hdecode : decodeNullable u h.summary.structuredOutput = .ok output)
    (hvalidation : decodeNullable u h.summary.validation = .ok validation) :
    t.jobPublishable u h.summary (some h.process) validation output = .ok (h.jobShows u) := by
  obtain ⟨members, hv, _, hsome⟩ := decode_validation (u := u) h
  rw [hsome] at hvalidation
  rw [← Except.ok.inj hvalidation]
  have hshown := mayBeShown_of_decoded h hdecode
  unfold Tables.mayBeShown Tables.claimsPublish at hshown
  rw [hdecode] at hshown
  unfold PassedSummary.jobShows Tables.jobPublishable
  rw [hv]
  show (if ((Json.obj members).get "passed" == .bool true) = true then _ else _) =
    Except.ok (h.accepted u && ((Json.obj members).get "passed" == .bool true))
  cases (Json.obj members).get "passed" == .bool true with
  | false =>
      rw [Bool.and_false]
      rfl
  | true =>
      rw [Bool.and_true, if_pos rfl]
      exact hshown

theorem job_error {e : Exn} (he : decodeNullable u h.summary.structuredOutput = .error e) :
    (t.jobPayload u h.request.tenantId h.request.id).isOk = false := by
  obtain ⟨members, _, _, hvalidation⟩ := decode_validation (u := u) h
  unfold Tables.jobPayload
  rw [h.find_request]
  simp only [h.holds_summary, Option.bind_some, h.find_summary, Option.map_some,
    Option.getD_some, hvalidation, he]
  cases decodeJsonObject u h.request.flags with
  | error e' => rfl
  | ok flags => rfl

/-- What is left of the payload of a job, once its summary is decoded. -/
theorem job_steps {output : Option Dict}
    (hdecode : decodeNullable u h.summary.structuredOutput = .ok output) :
    ((t.jobPayload u h.request.tenantId h.request.id).map fun answer =>
      answer.any fun payload => payload.iaSummary != .absent) = do
        let _ ← decodeJsonObject u h.request.flags
        let _ ← t.loadSources h.request.processId h.request.versionId
          (if h.jobShows u = true then h.request.summaryId else none)
        let _ ← h.summary.summaryUsage u
        return h.jobShows u := by
  obtain ⟨members, _, _, hvalidation⟩ := decode_validation (u := u) h
  unfold Tables.jobPayload
  rw [h.find_request]
  simp only [h.holds_summary, h.holds_process, Option.bind_some, h.find_summary, h.find_process,
    Option.map_some, Option.getD_some, hvalidation, hdecode, Option.any_some]
  -- The reads that may raise, in the order of the handler.
  cases decodeJsonObject u h.request.flags with
  | error e => rfl
  | ok flags =>
      show Except.map _ (t.jobPublishable u h.summary (some h.process) _ output >>= _) = _
      rw [jobPublishable_of_decoded h hdecode hvalidation]
      show Except.map _ (t.loadSources _ _ (if h.jobShows u = true then _ else none) >>= _) =
        t.loadSources _ _ (if h.jobShows u = true then _ else none) >>= _
      cases t.loadSources (some h.process.id) h.request.versionId
          (if h.jobShows u = true then some h.summary.id else none) with
      | error e => rfl
      | ok sources =>
          show Except.map _ (Except.map some (h.summary.summaryUsage u) >>= _) = _
          cases h.summary.summaryUsage u with
          | error e => rfl
          | ok usage =>
              show Except.map _ (if h.jobShows u = true then _ else _) = Except.ok (h.jobShows u)
              cases hshows : h.jobShows u with
              | false => rfl
              | true =>
                  unfold PassedSummary.jobShows at hshows
                  rw [Bool.and_eq_true] at hshows
                  -- The summary is shown, so its output is canonical and has a representation.
                  obtain ⟨d, hne, hd, hcanonical⟩ := canonical_of_accepted h hshows.1
                  obtain ⟨r, hr, hpresent⟩ := representation_eq_ok hne hd hcanonical
                    h.request.responseFormat h.process.isRestricted
                    (if (true && !h.process.isRestricted) = true then
                      t.loadSummaryClaimEvidence u h.summary.id else [])
                  rw [if_pos rfl, hr]
                  exact congrArg Except.ok hpresent

/-! ## §7. When they agree. -/

/-- What is said of every verdict. -/
theorem forall_verdicts {P : Except Exn Bool → Prop} {format : Format} :
    (∀ v ∈ h.verdicts u format, P v) ↔
      P (t.summaryRowIsPublishable u h.summary h.process) ∧
      P (t.mayBeShown u h.summary h.process) ∧
      P ((t.latestSummaryPayload u h.tenantId h.process.code format).map Option.isSome) ∧
      P ((t.jobPayload u h.request.tenantId h.request.id).map fun answer =>
        answer.any fun payload => payload.iaSummary != .absent) := by
  unfold PassedSummary.verdicts
  rw [verdict_complete, verdict_reconcile, verdict_process]
  simp only [List.forall_mem_cons]
  constructor
  · rintro ⟨hrow, hshown, _, _, hlatest, hjob, _⟩
    exact ⟨hrow, hshown, hlatest, hjob⟩
  · rintro ⟨hrow, hshown, hlatest, hjob⟩
    exact ⟨hrow, hshown, hshown, hshown, hlatest, hjob, fun v hv => nomatch hv⟩

/-- The verdict of the payload of a job, on a decoded row. -/
theorem verdict_job {output : Option Dict}
    (hdecode : decodeNullable u h.summary.structuredOutput = .ok output) (b : Bool) :
    ((t.jobPayload u h.request.tenantId h.request.id).map fun answer =>
      answer.any fun payload => payload.iaSummary != .absent) = .ok b ↔
      b = h.jobShows u ∧ (decodeJsonObject u h.request.flags).isOk = true ∧
        (t.loadSources h.request.processId h.request.versionId
          (if h.jobShows u = true then h.request.summaryId else none)).isOk = true ∧
        (decodeJsonObject u h.summary.usage).isOk = true := by
  rw [job_steps h hdecode, ← isOk_summaryUsage]
  constructor
  · intro hb
    obtain ⟨flags, hflags, hb⟩ := bind_eq_ok.1 hb
    obtain ⟨sources, hsources, hb⟩ := bind_eq_ok.1 hb
    obtain ⟨usage, husage, hb⟩ := bind_eq_ok.1 hb
    exact ⟨(Except.ok.inj hb).symm, isOk_iff.2 ⟨flags, hflags⟩, isOk_iff.2 ⟨sources, hsources⟩,
      isOk_iff.2 ⟨usage, husage⟩⟩
  · rintro ⟨rfl, hflags, hsources, husage⟩
    obtain ⟨flags, hflags⟩ := isOk_iff.1 hflags
    obtain ⟨sources, hsources⟩ := isOk_iff.1 hsources
    obtain ⟨usage, husage⟩ := isOk_iff.1 husage
    rw [hflags, hsources, husage]
    rfl

/-- The verdict of the payload of the latest summary, on a decoded row. -/
theorem verdict_latest {output : Option Dict}
    (hdecode : decodeNullable u h.summary.structuredOutput = .ok output) (format : Format)
    (b : Bool) :
    (t.latestSummaryPayload u h.tenantId h.process.code format).map Option.isSome = .ok b ↔
      b = h.accepted u ∧ (h.accepted u = true →
        (t.loadSources (some h.process.id) h.process.currentVersionId
          (some h.summary.id)).isOk = true ∧
        (decodeJsonObject u h.summary.usage).isOk = true) := by
  rw [latest_steps h hdecode, ← isOk_summaryUsage]
  cases haccepted : h.accepted u with
  | false =>
      refine ⟨fun hb => ⟨(Except.ok.inj hb).symm, fun hno => nomatch hno⟩, fun hb => ?_⟩
      rw [hb.1]
      rfl
  | true =>
      rw [if_pos rfl]
      constructor
      · intro hb
        obtain ⟨sources, hsources, hb⟩ := bind_eq_ok.1 hb
        obtain ⟨usage, husage, hb⟩ := bind_eq_ok.1 hb
        exact ⟨(Except.ok.inj hb).symm,
          fun _ => ⟨isOk_iff.2 ⟨sources, hsources⟩, isOk_iff.2 ⟨usage, husage⟩⟩⟩
      · rintro ⟨rfl, hparts⟩
        obtain ⟨sources, hsources⟩ := isOk_iff.1 (hparts rfl).1
        obtain ⟨usage, husage⟩ := isOk_iff.1 (hparts rfl).2
        rw [hsources, husage]
        rfl

/-- When the job's reader shows what the others accept. -/
theorem jobShows_eq_accepted :
    h.jobShows u = h.accepted u ↔
      (h.accepted u = true → h.summary.validation.get "passed" = .bool true) := by
  unfold PassedSummary.jobShows
  cases h.accepted u with
  | false => exact iff_of_true rfl fun hno => nomatch hno
  | true =>
      rw [Bool.true_and, beq_iff_eq]
      exact ⟨fun hpassed _ => hpassed, fun hpassed => hpassed rfl⟩

/-- The verdicts on a decoded row. -/
theorem verdicts_of_decoded {output : Option Dict}
    (hdecode : decodeNullable u h.summary.structuredOutput = .ok output) (format : Format)
    (b : Bool) :
    (∀ v ∈ h.verdicts u format, v = .ok b) ↔
      b = h.accepted u ∧ h.Listed u ∧
        (h.accepted u = true → h.summary.validation.get "passed" = .bool true) := by
  rw [forall_verdicts, verdict_row h hdecode, mayBeShown_of_decoded h hdecode,
    verdict_latest h hdecode, verdict_job h hdecode, ← jobShows_eq_accepted]
  constructor
  · rintro ⟨_, _, ⟨hb, hlatest⟩, hjob, hflags, hsources, husage⟩
    have hshows : h.jobShows u = h.accepted u := hjob.symm.trans hb
    rw [hshows] at hsources
    exact ⟨hb, ⟨husage, hflags, hsources, fun haccepted => (hlatest haccepted).1⟩, hshows⟩
  · rintro ⟨hb, hlisted, hshows⟩
    rw [hshows]
    exact ⟨congrArg _ hb.symm, congrArg _ hb.symm,
      ⟨hb, fun haccepted => ⟨hlisted.ofProcess haccepted, hlisted.usage⟩⟩,
      hb, hlisted.flags, hlisted.ofRequest, hlisted.usage⟩

/-- **The readers of a passed summary agree exactly when its row and its
request are consistent.** -/
theorem gates_agree_iff (u : Unicode) {t : Tables} (h : PassedSummary t) (format : Format) :
    Agree (h.verdicts u format) ↔ h.Consistent u := by
  cases hdecode : decodeNullable u h.summary.structuredOutput with
  | error e =>
      -- the reader of the job raises, so they agree when all of them do
      have hjob := job_error h hdecode
      unfold Agree
      simp only [forall_verdicts, verdict_row_error h hdecode, latest_error h hdecode]
      constructor
      · rintro (hraise | ⟨b, hb⟩)
        · exact .inl hraise.1
        · obtain ⟨answer, hanswer, _⟩ := map_eq_ok.1 hb.2.2.2
          rw [hanswer] at hjob
          cases hjob
      · rintro (hunreadable | ⟨hok, _⟩)
        · rw [mayBeShown_of_unreadable h hunreadable]
          refine .inl ⟨hunreadable, rfl, rfl, ?_⟩
          cases hpayload : t.jobPayload u h.request.tenantId h.request.id with
          | error e' => rfl
          | ok answer =>
              rw [hpayload] at hjob
              cases hjob
        · rw [hdecode] at hok
          cases hok
  | ok output =>
      have hverdicts := verdicts_of_decoded h hdecode format
      constructor
      · rintro (hraise | ⟨b, hb⟩)
        · have hrow := hraise _ (.head _)
          rw [verdict_row h hdecode] at hrow
          cases hrow
        · obtain ⟨_, hlisted, hpassed⟩ := (hverdicts b).1 hb
          exact .inr ⟨by rw [hdecode]; rfl, hlisted, hpassed⟩
      · rintro (⟨he, _⟩ | ⟨_, hlisted, hpassed⟩)
        · rw [hdecode] at he
          cases he
        · exact .inr ⟨h.accepted u, (hverdicts _).2 ⟨rfl, hlisted, hpassed⟩⟩

end Agreement

/-! ## §8. A row on which they do not. -/

/-- A process whose passed summary holds a number for its output. -/
def numberOutput : Tables where
  processes := [{ id := 1, code := "0000001", currentVersionId := some 2 }]
  grants := [(5, 1)]
  summaries := [{
    id := 3, processId := 1, versionId := 2, markdown := "", structuredOutput := .int 5
    validation := .obj [("passed", .bool true)], model := "m", promptVersion := "p" }]
  requests := [{
    id := 4, tenantId := 5, processCode := "0000001", status := .completed
    processId := some 1, versionId := some 2, summaryId := some 3 }]

/-- The summary of that process, for each of its readers. -/
def numberSummary : PassedSummary numberOutput where
  process := { id := 1, code := "0000001", currentVersionId := some 2 }
  summary := {
    id := 3, processId := 1, versionId := 2, markdown := "", structuredOutput := .int 5
    validation := .obj [("passed", .bool true)], model := "m", promptVersion := "p" }
  request := {
    id := 4, tenantId := 5, processCode := "0000001", status := .completed
    processId := some 1, versionId := some 2, summaryId := some 3 }
  tenantId := 5
  result := .obj [("validation", .obj [("passed", .bool true)])]
  process_mem := .head _
  summary_mem := .head _
  request_mem := .head _
  granted := .head _
  of_process := rfl
  current := rfl
  passed := rfl
  result_passed := rfl
  holds_process := rfl
  holds_summary := rfl

/-- One reader answers that the summary is not to be shown, the next
raises. -/
theorem gates_disagree :
    ¬ ∀ (u : Unicode) (t : Tables) (h : PassedSummary t) (format : Format),
      Agree (h.verdicts u format) := by
  intro hagree
  obtain hraise | ⟨b, hb⟩ := hagree .ascii numberOutput numberSummary .json
  · have hrow : (numberOutput.summaryRowIsPublishable .ascii numberSummary.summary
        numberSummary.process).isOk = false := hraise _ (.head _)
    cases hrow
  · have hworker : (numberOutput.completeFromCurrentSummary .ascii
        numberSummary.process.id).map Option.isSome = .ok b := hb _ (.tail _ (.head _))
    rw [verdict_complete] at hworker
    cases hworker

end Rpy.Publication

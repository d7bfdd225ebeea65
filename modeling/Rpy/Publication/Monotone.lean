/-
  Rpy.Publication.Monotone
  ────────────────────────
  **WHAT WAS APPROVED STAYS APPROVED** (`_persist_summary` of `app/rag.py`).

  Summaries are written by workers that know nothing of each other, and a
  write that comes late may carry anything.  Whatever is written in whatever
  order, a version that has a passed summary keeps one, and one that has a
  publishable summary keeps one.  A publishable summary itself stays, with
  all that is read of it, as long as the writes are of its model and prompt;
  and a passed one, as long as the writes are of verified summaries.

    • `KeepsApprovals`     — no approval is lost,
    • `keepsApprovals_step`, `approvals_are_kept` — by one write, and by a run,
    • `settled_run`        — what nothing may replace is read as it was,
    • `publishable_row_stays`, `passed_row_stays` — such rows.
-/
import Rpy.Foundation.Machine
import Rpy.Publication.Verdicts

namespace Rpy.Publication

open Rpy.Foundation Rpy.Summaries
open Rpy.Attachments (Exn)

variable {u : Unicode} {t t' : Tables} {i : Incoming}

/-! ## §1. When an approved row may be replaced. -/

/-- The cast of a column that can be cast. -/
theorem castPassed_of_column {validation : Json} {passed : Bool}
    (h : passedColumn validation = .ok passed) : castPassed validation = passed := by
  unfold passedColumn at h
  unfold castPassed
  cases hv : validation.get "passed" with
  | null =>
      rw [hv] at h
      exact Except.ok.inj h
  | bool b =>
      rw [hv] at h
      exact Except.ok.inj h
  | int n =>
      rw [hv] at h
      simp only at h
      by_cases hone : n = 1
      · rw [if_pos hone] at h
        exact (beq_iff_eq.2 hone).trans (Except.ok.inj h)
      · rw [if_neg hone] at h
        split at h
        · exact (beq_eq_false_iff_ne.2 hone).trans (Except.ok.inj h)
        · cases h
  | str s =>
      rw [hv] at h
      simp only at h ⊢
      cases hcast : castBoolean s with
      | none =>
          rw [hcast] at h
          cases h
      | some b =>
          rw [hcast] at h
          exact Except.ok.inj h
  | _ =>
      rw [hv] at h
      cases h

theorem castPassed_of_publishable {s : SummaryRow} {p : ProcessRow}
    (h : t.summaryRowIsPublishable u s p = .ok true) : castPassed s.validation = true := by
  unfold Tables.summaryRowIsPublishable at h
  by_contra hnot
  rw [Bool.not_eq_true] at hnot
  rw [hnot] at h
  cases h

/-- **When an approved row may be replaced**: what comes is publishable before
it is stored, and the row is not, or has another author. -/
theorem replaceApproved_eq_true (h : t.replaceApproved u i = .ok true) :
    ∃ s p, t.versionSummary i.processId i.versionId = some s ∧ p ∈ t.processes ∧
      p.id = i.processId ∧ i.passed = true ∧ i.publishable u p = .ok true ∧
      ∃ existing, t.summaryRowIsPublishable u s p = .ok existing ∧
        (existing = false ∨ s.promptVersion ≠ i.promptVersion ∨ s.model ≠ i.model) := by
  unfold Tables.replaceApproved at h
  cases hs : t.versionSummary i.processId i.versionId with
  | none =>
      rw [hs] at h
      cases h
  | some s =>
      cases hp : t.processes.find? (fun p => p.id == i.processId) with
      | none =>
          rw [hs, hp] at h
          cases h
      | some p =>
          rw [hs, hp] at h
          obtain ⟨passed, -, h⟩ := bind_eq_ok.1 h
          obtain ⟨incoming, hincoming, h⟩ := bind_eq_ok.1 h
          by_cases hboth : (passed && incoming) = true
          · rw [if_pos hboth] at h
            obtain ⟨existing, hexisting, hold⟩ := map_eq_ok.1 h
            rw [((Bool.and_eq_true _ _).mp hboth).2] at hincoming
            unfold Incoming.judged at hincoming
            by_cases hpassed : i.passed = true
            · rw [if_pos hpassed] at hincoming
              simp only [Bool.or_eq_true, Bool.not_eq_true', bne_iff_ne, or_assoc] at hold
              exact ⟨s, p, rfl, List.mem_of_find?_eq_some hp, key_of_find?_eq_some hp, hpassed,
                mapError_eq_ok.1 hincoming, existing, mapError_eq_ok.1 hexisting, hold⟩
            · rw [if_neg hpassed] at hincoming
              cases hincoming
          · rw [if_neg hboth] at h
            cases h

/-- What is publishable rests on claims, and they on a version. -/
theorem version_of_publishable {s : SummaryRow} {p : ProcessRow} (hs : s ∈ t.summaries)
    (hopen : p.isRestricted = false) (h : t.summaryRowIsPublishable u s p = .ok true) :
    ∃ v ∈ t.versions, v.id = s.versionId ∧ v.processId = s.processId := by
  unfold Tables.summaryRowIsPublishable at h
  by_cases hpassed : (!castPassed s.validation) = true
  · rw [if_pos hpassed] at h
    cases h
  · rw [if_neg hpassed, hopen] at h
    simp only [Bool.false_eq_true, if_false] at h
    cases hd : decodeJsonObject u s.structuredOutput with
    | error e =>
        rw [hd] at h
        cases e <;> cases h
    | ok d =>
        rw [hd] at h
        have hpublish : claimEvidenceIsPublishable u (some d) (t.claimEvidence u s.id) p.context =
          true := Except.ok.inj h
        unfold claimEvidenceIsPublishable at hpublish
        rw [Bool.and_eq_true, Bool.and_eq_true] at hpublish
        obtain ⟨-, -, -, -, -, hall⟩ := claimEvidenceIsComplete_iff.1 hpublish.1.1
        -- a summary always expects a claim
        obtain ⟨item, hitem, -⟩ := List.mem_map.1 (hall _ List.mem_cons_self)
        obtain ⟨loaded, hloaded, -⟩ := List.mem_map.1 hitem
        unfold Tables.loadSummaryClaimEvidence at hloaded
        obtain ⟨c, hc, -⟩ := List.mem_map.1 hloaded
        obtain ⟨-, hscope⟩ := List.mem_filter.1 ((List.mem_insertionSort _).1 hc)
        simp only [Bool.and_eq_true, List.any_eq_true, beq_iff_eq] at hscope
        obtain ⟨⟨hid, s', hs', ⟨hs'id, hs'process⟩, hs'version⟩, v, hv, hvid, hvprocess⟩ := hscope
        obtain rfl := eq_of_nodup_key t.summary_ids hs' hs (hs'id.trans hid)
        exact ⟨v, hv, hvid.trans hs'version.symm, hvprocess.trans hs'process.symm⟩

/-! ## §2. No approval is lost. -/

/-- A row and the row it has become: it is approved as far as it was. -/
structure Keeps (u : Unicode) (t t' : Tables) (s s' : SummaryRow) : Prop where
  id : s'.id = s.id
  processId : s'.processId = s.processId
  versionId : s'.versionId = s.versionId
  passed : castPassed s.validation = true → castPassed s'.validation = true
  publishable : ∀ p ∈ t.processes, p.id = s.processId →
    t.summaryRowIsPublishable u s p = .ok true → t'.summaryRowIsPublishable u s' p = .ok true

/-- No approval is lost. -/
structure KeepsApprovals (u : Unicode) (t t' : Tables) : Prop where
  processes : t'.processes = t.processes
  rows : ∀ s ∈ t.summaries, ∃ s' ∈ t'.summaries, Keeps u t t' s s'

theorem KeepsApprovals.refl (u : Unicode) (t : Tables) : KeepsApprovals u t t :=
  ⟨rfl, fun s hs => ⟨s, hs, rfl, rfl, rfl, id, fun _ _ _ h => h⟩⟩

theorem KeepsApprovals.trans {t'' : Tables} (h : KeepsApprovals u t t')
    (h' : KeepsApprovals u t' t'') : KeepsApprovals u t t'' := by
  refine ⟨h'.processes.trans h.processes, fun s hs => ?_⟩
  obtain ⟨s', hs', hkeeps⟩ := h.rows s hs
  obtain ⟨s'', hs'', hkeeps'⟩ := h'.rows s' hs'
  refine ⟨s'', hs'', hkeeps'.id.trans hkeeps.id, hkeeps'.processId.trans hkeeps.processId,
    hkeeps'.versionId.trans hkeeps.versionId, hkeeps'.passed ∘ hkeeps.passed,
    fun p hp hid hpublishable => ?_⟩
  exact hkeeps'.publishable p (h.processes ▸ hp) (hid.trans hkeeps.processId.symm)
    (hkeeps.publishable p hp hid hpublishable)

/-- The verdict on a row that a write leaves as it is. -/
theorem Stored.verdict_other {k : SummaryKey} (h : Stored u t t' i k) (hkeyed : t.Keyed)
    {s : SummaryRow} (hid : s.id ≠ k.summaryId) (p : ProcessRow) :
    t'.summaryRowIsPublishable u s p = t.summaryRowIsPublishable u s p := by
  unfold Tables.summaryRowIsPublishable Tables.claimEvidence
  rw [h.load_other hkeyed hid]

/-- **What a write that returns `True` does to the approvals**, when an
approved row is replaced only by what is judged to be publishable. -/
theorem keepsApprovals_of_stored {k : SummaryKey} (h : Stored u t t' i k) (hkeyed : t.Keyed)
    (hclassified : i.Classified u)
    (hrow : ∀ s ∈ t.summaries, s.id = k.summaryId → s.processId = i.processId ∧
      s.versionId = i.versionId ∧ (castPassed s.validation = true → i.passed = true ∧
        ∀ p ∈ t.processes, p.id = i.processId → i.publishable u p = .ok true)) :
    KeepsApprovals u t t' := by
  refine ⟨h.processes, fun s hs => ?_⟩
  obtain ⟨t₀, row, hcolumns, hupserted, hsummaries⟩ := h.row
  by_cases hid : s.id = k.summaryId
  · obtain ⟨hprocess, hversion, hreplaced⟩ := hrow s hs hid
    have hmem := hsummaries ▸ hupserted.mem
    refine ⟨_, hmem, hid.symm, hcolumns.processId.trans hprocess.symm,
      hcolumns.versionId.trans hversion.symm, fun hpassed => ?_, fun p hp hpid hpublish => ?_⟩
    · exact hcolumns.passed (hreplaced hpassed).1
    · obtain ⟨hincoming, hjudged⟩ := hreplaced (castPassed_of_publishable hpublish)
      have hscope : p.isRestricted = false →
          ∃ v ∈ t.versions, v.id = i.versionId ∧ v.processId = i.processId := by
        intro hopen
        rw [← hprocess, ← hversion]
        exact version_of_publishable hs hopen hpublish
      exact ((h.verdict hkeyed hscope hclassified hincoming hmem rfl).1
        (hjudged p hp (hpid.trans hprocess))).1
  · refine ⟨s, hsummaries ▸ (hupserted.other s hid).2 hs, rfl, rfl, rfl, fun hpassed => hpassed,
      fun p _ _ hpublish => ?_⟩
    rw [h.verdict_other hkeyed hid]
    exact hpublish

/-! ## §3. Every write, and every run. -/

/-- The claims of a write have their classes. -/
def Write.Classified (u : Unicode) : Write → Prop
  | .persist i => i.Classified u
  | .late i => i.Classified u
  | .refused => True

/-- A write that may replace an approved row only if its verdict allows. -/
theorem keepsApprovals_of_write {replace written : Bool} (hkeyed : t.Keyed)
    (hclassified : i.Classified u)
    (hreplace : replace = true → t.replaceApproved u i = .ok true)
    (h : t.writeSummary u i replace = .ok (written, t')) :
    KeepsApprovals u t t' ∧ t'.Keyed := by
  cases written with
  | false =>
      obtain rfl := eq_of_write_false h
      exact ⟨.refl u _, hkeyed⟩
  | true =>
      obtain ⟨k, hstored, hrow⟩ := stored_of_write h
      refine ⟨keepsApprovals_of_stored hstored hkeyed hclassified fun s hs hid => ?_,
        hstored.keyed hkeyed⟩
      obtain ⟨hprocess, hversion, passed, hpassed, hallowed⟩ := hrow s hs hid
      refine ⟨hprocess, hversion, fun hcast => ?_⟩
      have hreplaced : replace = true := by
        refine hallowed.resolve_right fun hnot => ?_
        rw [castPassed_of_column hpassed, hnot] at hcast
        cases hcast
      obtain ⟨_, p, -, hp, hpid, hincoming, hjudged, -⟩ :=
        replaceApproved_eq_true (hreplace hreplaced)
      refine ⟨hincoming, fun p' hp' hp'id => ?_⟩
      obtain rfl := eq_of_nodup_key t.process_ids hp' hp (hp'id.trans hpid.symm)
      exact hjudged

/-- **A write keeps the approvals, whatever it is.** -/
theorem keepsApprovals_step {w : Write} (hkeyed : t.Keyed) (hclassified : w.Classified u)
    (h : t.step u w = some t') : KeepsApprovals u t t' ∧ t'.Keyed := by
  have hunchanged : KeepsApprovals u t t ∧ t.Keyed := ⟨.refl u t, hkeyed⟩
  cases w with
  | refused =>
      obtain rfl := Option.some.inj h
      exact hunchanged
  | late i =>
      obtain rfl := Option.some.inj h
      cases hwrite : t.writeSummary u i false with
      | error e => exact hunchanged
      | ok result =>
          have hkept : false = true → t.replaceApproved u i = .ok true := fun h => (nomatch h)
          exact keepsApprovals_of_write hkeyed hclassified hkept hwrite
  | persist i =>
      obtain rfl := Option.some.inj h
      cases hpersist : t.persistSummary u i with
      | error e => exact hunchanged
      | ok result =>
          obtain ⟨replace, hreplace, hwrite⟩ := bind_eq_ok.1 hpersist
          exact keepsApprovals_of_write hkeyed hclassified (fun h => h ▸ hreplace) hwrite

/-- **No run of writes loses an approval**, of any row. -/
theorem approvals_are_kept (u : Unicode) {t t' : Tables} {ws : List Write} (hkeyed : t.Keyed)
    (hclassified : ∀ w ∈ ws, w.Classified u) (h : run (Tables.step u) t ws = some t') :
    KeepsApprovals u t t' := by
  have hrun : KeepsApprovals u t t' ∧ t'.Keyed := by
    induction ws generalizing t with
    | nil =>
        obtain rfl := Option.some.inj h
        exact ⟨.refl u _, hkeyed⟩
    | cons w ws ih =>
        obtain ⟨hw, hws⟩ := List.forall_mem_cons.1 hclassified
        simp only [run, Option.bind_eq_some_iff] at h
        obtain ⟨m, hm, hrest⟩ := h
        obtain ⟨hstep, hkeyed⟩ := keepsApprovals_step hkeyed hw hm
        obtain ⟨hkeeps, hkeyed⟩ := ih hkeyed hws hrest
        exact ⟨hstep.trans hkeeps, hkeyed⟩
  exact hrun.1

/-- A publishable summary, and writes of another model after it. -/
theorem sample_approvals_are_kept : ∃ t s t', Published .ascii t s sampleProcess ∧
    run (Tables.step .ascii) t [.persist (sampleIncoming "n"), .late (sampleIncoming "m"),
      .refused] = some t' ∧ KeepsApprovals .ascii t t' := by
  obtain ⟨t, s, hpublished, -⟩ := published_sample
  have hrun : run (Tables.step .ascii) t [.persist (sampleIncoming "n"),
      .late (sampleIncoming "m"), .refused] = some _ := rfl
  refine ⟨t, s, _, hpublished, hrun, approvals_are_kept .ascii hpublished.keyed ?_ hrun⟩
  intro w hw
  simp only [List.mem_cons, List.not_mem_nil, or_false] at hw
  rcases hw with rfl | rfl | rfl
  · exact classified_sample "n"
  · exact classified_sample "m"
  · trivial

/-! ## §4. Rows that stay. -/

/-- A passed row is there, and all that is read of it is what was read of it
in `t₀`. -/
structure Settled (u : Unicode) (t₀ : Tables) (s : SummaryRow) (t : Tables) : Prop where
  keyed : t.Keyed
  row : s ∈ t.summaries
  passed : castPassed s.validation = true
  processes : t.processes = t₀.processes
  claims : t.loadSummaryClaimEvidence u s.id = t₀.loadSummaryClaimEvidence u s.id
  sources : t.loadUsedSummarySources s.id = t₀.loadUsedSummarySources s.id

theorem Settled.verdict {t₀ : Tables} {s : SummaryRow} (h : Settled u t₀ s t) (p : ProcessRow) :
    t.summaryRowIsPublishable u s p = t₀.summaryRowIsPublishable u s p := by
  unfold Tables.summaryRowIsPublishable Tables.claimEvidence
  rw [h.claims]

/-- A write for the version of a row. -/
def Incoming.IsFor (i : Incoming) (s : SummaryRow) : Prop :=
  i.processId = s.processId ∧ i.versionId = s.versionId

/-- A write leaves a settled row alone, if it does not replace it. -/
theorem settled_of_write {t₀ : Tables} {s : SummaryRow} {replace written : Bool}
    (h : Settled u t₀ s t) (hkept : i.IsFor s → replace = false)
    (hwrite : t.writeSummary u i replace = .ok (written, t')) : Settled u t₀ s t' := by
  cases written with
  | false =>
      obtain rfl := eq_of_write_false hwrite
      exact h
  | true =>
      obtain ⟨k, hstored, hrow⟩ := stored_of_write hwrite
      have hid : s.id ≠ k.summaryId := by
        intro hid
        obtain ⟨hprocess, hversion, passed, hpassed, hallowed⟩ := hrow s h.row hid
        rw [hkept ⟨hprocess.symm, hversion.symm⟩] at hallowed
        have hnot := hallowed.resolve_left Bool.false_ne_true
        have hcast := h.passed
        rw [castPassed_of_column hpassed, hnot] at hcast
        cases hcast
      obtain ⟨t₁, row, -, hupserted, hsummaries⟩ := hstored.row
      exact {
        keyed := hstored.keyed h.keyed
        row := hsummaries ▸ (hupserted.other s hid).2 h.row
        passed := h.passed
        processes := hstored.processes.trans h.processes
        claims := (hstored.load_other h.keyed hid).trans h.claims
        sources := (hstored.sources_other hid).trans h.sources }

/-- One write, of a summary that may not replace the row. -/
theorem settled_step {t₀ : Tables} {s : SummaryRow} {w : Write} (h : Settled u t₀ s t)
    (hkept : ∀ i, w = .persist i → i.IsFor s → t.replaceApproved u i ≠ .ok true)
    (hstep : t.step u w = some t') : Settled u t₀ s t' := by
  cases w with
  | refused =>
      obtain rfl := Option.some.inj hstep
      exact h
  | late i =>
      obtain rfl := Option.some.inj hstep
      cases hwrite : t.writeSummary u i false with
      | error e => exact h
      | ok result => exact settled_of_write h (fun _ => rfl) hwrite
  | persist i =>
      obtain rfl := Option.some.inj hstep
      cases hpersist : t.persistSummary u i with
      | error e => exact h
      | ok result =>
          obtain ⟨replace, hreplace, hwrite⟩ := bind_eq_ok.1 hpersist
          refine settled_of_write h (fun hfor => ?_) hwrite
          by_contra hnot
          rw [Bool.not_eq_false] at hnot
          exact hkept i rfl hfor (hnot ▸ hreplace)

/-- **A row that nothing may replace stays through a run.** -/
theorem settled_run {t₀ : Tables} {s : SummaryRow} {ws : List Write} (h : Settled u t₀ s t)
    (hkept : ∀ m, Settled u t₀ s m → ∀ i, .persist i ∈ ws → i.IsFor s →
      m.replaceApproved u i ≠ .ok true)
    (hrun : run (Tables.step u) t ws = some t') : Settled u t₀ s t' := by
  induction ws generalizing t with
  | nil =>
      obtain rfl := Option.some.inj hrun
      exact h
  | cons w ws ih =>
      simp only [run, Option.bind_eq_some_iff] at hrun
      obtain ⟨m, hm, hrest⟩ := hrun
      refine ih (settled_step h (fun i hi => ?_) hm)
        (fun m hm i hi => hkept m hm i (List.mem_cons_of_mem w hi)) hrest
      exact hkept t h i (hi ▸ List.mem_cons_self)

/-- The row and the process the verdicts on a write for a version are about. -/
theorem replaceApproved_settled {t₀ : Tables} {s : SummaryRow} {p : ProcessRow}
    (h : Settled u t₀ s t) (hp : p ∈ t₀.processes) (hprocess : p.id = s.processId)
    (hfor : i.IsFor s) (hreplace : t.replaceApproved u i = .ok true) :
    i.publishable u p = .ok true ∧ ∃ existing, t₀.summaryRowIsPublishable u s p = .ok existing ∧
      (existing = false ∨ s.promptVersion ≠ i.promptVersion ∨ s.model ≠ i.model) := by
  obtain ⟨s', p', hs', hp', hp'id, -, hjudged, existing, hexisting, hold⟩ :=
    replaceApproved_eq_true hreplace
  rw [hfor.1, hfor.2, versionSummary_of_mem h.row] at hs'
  obtain rfl := Option.some.inj hs'
  rw [h.processes] at hp'
  obtain rfl := eq_of_nodup_key t₀.process_ids hp' hp
    (hp'id.trans (hfor.1.trans hprocess.symm))
  exact ⟨hjudged, existing, h.verdict p' ▸ hexisting, hold⟩

/-- **A publishable summary stays, with its claims and its sources**, through
every run in which the writes for its version are of its model and prompt. -/
theorem publishable_row_stays (u : Unicode) {t t' : Tables} {s : SummaryRow} {p : ProcessRow}
    {ws : List Write} (hkeyed : t.Keyed) (hs : s ∈ t.summaries) (hp : p ∈ t.processes)
    (hprocess : p.id = s.processId) (hpublishable : t.summaryRowIsPublishable u s p = .ok true)
    (hauthor : ∀ i, .persist i ∈ ws → i.IsFor s →
      i.model = s.model ∧ i.promptVersion = s.promptVersion)
    (h : run (Tables.step u) t ws = some t') :
    s ∈ t'.summaries ∧ t'.summaryRowIsPublishable u s p = .ok true ∧
      t'.loadSummaryClaimEvidence u s.id = t.loadSummaryClaimEvidence u s.id ∧
      t'.loadUsedSummarySources s.id = t.loadUsedSummarySources s.id := by
  have hsettled : Settled u t s t' := by
    refine settled_run ⟨hkeyed, hs, castPassed_of_publishable hpublishable, rfl, rfl, rfl⟩
      (fun m hm i hi hfor hreplace => ?_) h
    obtain ⟨-, existing, hexisting, hold⟩ :=
      replaceApproved_settled hm hp hprocess hfor hreplace
    obtain ⟨hmodel, hprompt⟩ := hauthor i hi hfor
    rw [hpublishable] at hexisting
    rcases hold with hold | hold | hold
    · exact Bool.noConfusion ((Except.ok.inj hexisting).trans hold)
    · exact hold hprompt.symm
    · exact hold hmodel.symm
  exact ⟨hsettled.row, (hsettled.verdict p).trans hpublishable, hsettled.claims,
    hsettled.sources⟩

/-- A publishable summary, and writes of its model after it. -/
theorem sample_row_stays : ∃ t s t', Published .ascii t s sampleProcess ∧
    run (Tables.step .ascii) t [.persist (sampleIncoming "m"), .refused] = some t' ∧
      s ∈ t'.summaries := by
  obtain ⟨t, s, h, -, hmodel, hprompt⟩ := published_sample
  have hrun : run (Tables.step .ascii) t [.persist (sampleIncoming "m"), .refused] = some _ := rfl
  refine ⟨t, s, _, h, hrun, (publishable_row_stays .ascii h.keyed h.row h.process h.processId
    h.publishable (fun i hi _ => ?_) hrun).1⟩
  rcases List.mem_cons.1 hi with heq | hi
  · obtain rfl := Write.persist.inj heq
    exact ⟨hmodel.symm, hprompt.symm⟩
  · cases List.mem_singleton.1 hi

/-- What is not judged to be publishable, whatever the row is: for a restricted
process, what is not its local summary, for the claims are not looked at; for
another, what has a claim that was verified. -/
def Incoming.Unpublishable (u : Unicode) (i : Incoming) (p : ProcessRow) : Prop :=
  if p.isRestricted then
    isRestrictedLocalSummary u i.model i.promptVersion i.output p.restricted ≠ .ok true
  else ∃ e ∈ i.claims, i.notEvaluated e.2 = false

theorem publishable_ne_true {p : ProcessRow} (h : i.Unpublishable u p) :
    i.publishable u p ≠ .ok true := by
  unfold Incoming.Unpublishable at h
  unfold Incoming.publishable
  by_cases hrestricted : p.isRestricted = true
  · rw [if_pos hrestricted] at h ⊢
    exact h
  · rw [if_neg hrestricted] at h ⊢
    obtain ⟨e, he, hnot⟩ := h
    intro hpublish
    have hpublish := Except.ok.inj hpublish
    unfold claimEvidenceIsPublishable at hpublish
    rw [Bool.and_eq_true] at hpublish
    have hpass := List.all_eq_true.1 hpublish.2 _
      (List.mem_map_of_mem (f := fun entry : Uuid × MaterialClaim => i.claimEvidence entry.2) he)
    rw [claimIsPublishable_incoming, hnot] at hpass
    cases hpass

/-- **A passed summary is never replaced by one whose claims were verified**,
publishable or not, through every run in which the writes for its version
have a claim that was evaluated; nor, where the process is restricted, by one
that is not its local summary. -/
theorem passed_row_stays (u : Unicode) {t t' : Tables} {s : SummaryRow} {p : ProcessRow}
    {ws : List Write} (hkeyed : t.Keyed) (hs : s ∈ t.summaries) (hp : p ∈ t.processes)
    (hprocess : p.id = s.processId) (hpassed : castPassed s.validation = true)
    (hverified : ∀ i, .persist i ∈ ws → i.IsFor s → i.Unpublishable u p)
    (h : run (Tables.step u) t ws = some t') :
    s ∈ t'.summaries ∧
      t'.summaryRowIsPublishable u s p = t.summaryRowIsPublishable u s p ∧
      t'.loadSummaryClaimEvidence u s.id = t.loadSummaryClaimEvidence u s.id ∧
      t'.loadUsedSummarySources s.id = t.loadUsedSummarySources s.id := by
  have hsettled : Settled u t s t' :=
    settled_run ⟨hkeyed, hs, hpassed, rfl, rfl, rfl⟩ (fun m hm i hi hfor hreplace =>
      publishable_ne_true (hverified i hi hfor)
        (replaceApproved_settled hm hp hprocess hfor hreplace).1) h
  exact ⟨hsettled.row, hsettled.verdict p, hsettled.claims, hsettled.sources⟩

/-- The sample with a verified claim. -/
def verifiedIncoming : Incoming :=
  { sampleIncoming "n" with
    claimVerification := [("synthesis", {
      claimId := "synthesis", claimClass := .synthesis, status := .supported
      reason := "exact_text_present", deterministicFactCount := 1, relations := [] })] }

/-- A passed summary, and a verified one after it. -/
theorem sample_passed_row_stays : ∃ t s t', Published .ascii t s sampleProcess ∧
    run (Tables.step .ascii) t [.persist verifiedIncoming] = some t' ∧ s ∈ t'.summaries := by
  obtain ⟨t, s, h, -⟩ := published_sample
  have hrun : run (Tables.step .ascii) t [.persist verifiedIncoming] = some _ := rfl
  refine ⟨t, s, _, h, hrun, (passed_row_stays .ascii h.keyed h.row h.process h.processId
    (castPassed_of_publishable h.publishable) (fun i hi _ => ?_) hrun).1⟩
  obtain rfl := Write.persist.inj (List.mem_singleton.1 hi)
  show ∃ e ∈ verifiedIncoming.claims, verifiedIncoming.notEvaluated e.2 = false
  have hany : verifiedIncoming.claims.any
      (fun e => !verifiedIncoming.notEvaluated e.2) = true := by decide +kernel
  obtain ⟨e, he, hnot⟩ := List.any_eq_true.1 hany
  exact ⟨e, he, by simpa using hnot⟩

end Rpy.Publication

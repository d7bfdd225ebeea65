/-
  Rpy.Tenancy.Justified
  ─────────────────────
  **WHY A PROCESS IS IN A TENANT'S PORTFOLIO.**

  Every statement that grants goes by the ids of the provider: no one
  compares the lawsuit of the response with the one that was asked for.

    • `Justified`      — the tenant is the webhook's, or has a tracking or an
                         acquisition of the lawsuit,
    • `Portfolio.Names` — a response's ids name a row of a tenant,
    • `JustifiedById`  — the tenant is the webhook's, or a response of the
                         lawsuit names a row of the tenant,
    • `grants_justified` — every grant is justified by the ids, and by the
                         lawsuit where the responses carry the lawsuits that
                         the rows they name were asked for.
-/
import Rpy.Tenancy.Portfolio
import Rpy.Trackings.Persistence

namespace Rpy.Tenancy

open Rpy.Foundation
open Rpy.Lifecycle (Acquisition AcquisitionStatus AcquisitionTable)

/-! ## §1. Justifications. -/

/-- **The tenant is the webhook's, or has a tracking or an acquisition of the
lawsuit.** -/
def Justified (webhookTenant : Option Uuid) (s : Portfolio) (tenantId : Uuid) (code : String) :
    Prop :=
  webhookTenant = some tenantId ∨
    (∃ t ∈ s.tracking.db.trackings.rows, t.tenantId = tenantId ∧ t.processCode = code) ∨
    ∃ a ∈ s.acquisitions.rows, a.tenantId = tenantId ∧ a.processCode = code

instance (webhookTenant : Option Uuid) (s : Portfolio) (tenantId : Uuid) (code : String) :
    Decidable (Justified webhookTenant s tenantId code) :=
  inferInstanceAs (Decidable (_ ∨ _ ∨ _))

/-- An id of the response names a row of the tenant, which asked for `code`. -/
inductive Portfolio.Names (s : Portfolio) (r : LawsuitResponse) (tenantId : Uuid)
    (code : String) : Prop where
  /-- the request id is an acquisition's -/
  | acquisition (a : Acquisition) (ha : a ∈ s.acquisitions.rows) (htenant : a.tenantId = tenantId)
      (hcode : a.processCode = code) (hrequest : a.juditRequestId = some r.requestId)
  /-- the reference is an id that the provider created for a tracking -/
  | tracking (t : Trackings.Tracking) (ht : t ∈ s.tracking.db.trackings.rows)
      (htenant : t.tenantId = tenantId) (hcode : t.processCode = code) (reference : String)
      (hreference : r.trackingReference = some reference)
      (hcreated : (t.id, reference) ∈ s.tracking.provider.created)
  /-- the request id is that of a refresh of a tracking -/
  | refresh (f : Trackings.Refresh) (hf : f ∈ s.tracking.db.refreshes.rows)
      (hrequest : f.juditRequestId = some r.requestId) (t : Trackings.Tracking)
      (ht : t ∈ s.tracking.db.trackings.rows) (hid : t.id = f.trackingId)
      (htenant : t.tenantId = tenantId) (hcode : t.processCode = code)

/-- The tenant is the webhook's, or a response of the lawsuit names a row of
the tenant. -/
def JustifiedById (webhookTenant : Option Uuid) (s : Portfolio) (tenantId : Uuid)
    (code : String) : Prop :=
  webhookTenant = some tenantId ∨
    ∃ r ∈ s.received, r.code = code ∧ ∃ asked, s.Names r tenantId asked

/-- The responses carry the lawsuits that the rows they name were asked for. -/
def Portfolio.Faithful (s : Portfolio) : Prop :=
  ∀ r ∈ s.received, ∀ tenantId asked, s.Names r tenantId asked → r.code = asked

/-- Where the responses are faithful, the ids tell the lawsuit. -/
theorem JustifiedById.justified {webhookTenant : Option Uuid} {s : Portfolio} {tenantId : Uuid}
    {code : String} (h : JustifiedById webhookTenant s tenantId code) (hfaithful : s.Faithful) :
    Justified webhookTenant s tenantId code := by
  rcases h with hwebhook | ⟨r, hr, rfl, asked, hnames⟩
  · exact .inl hwebhook
  · have hasked := hfaithful r hr tenantId asked hnames
    cases hnames with
    | acquisition a ha htenant hcode hrequest =>
        exact .inr (.inr ⟨a, ha, htenant, hcode.trans hasked.symm⟩)
    | tracking t ht htenant hcode reference hreference hcreated =>
        exact .inr (.inl ⟨t, ht, htenant, hcode.trans hasked.symm⟩)
    | refresh f hf hrequest t ht hid htenant hcode =>
        exact .inr (.inl ⟨t, ht, htenant, hcode.trans hasked.symm⟩)

/-! ## §2. What stays. -/

/-- The rows stay, with the ids they were given, and so do the responses. -/
structure Portfolio.Extends (s s' : Portfolio) : Prop where
  acquisitions : ∀ a ∈ s.acquisitions.rows, ∃ a' ∈ s'.acquisitions.rows,
    a'.tenantId = a.tenantId ∧ a'.processCode = a.processCode ∧
      ∀ requestId, a.juditRequestId = some requestId → a'.juditRequestId = some requestId
  database : s.tracking.db.Persists s'.tracking.db
  created : ∀ c ∈ s.tracking.provider.created, c ∈ s'.tracking.provider.created
  received : ∀ r ∈ s.received, r ∈ s'.received

section Extends

variable {s s' : Portfolio}

/-- What a response names, it goes on to name. -/
theorem Portfolio.Names.mono (h : s.Extends s') {r : LawsuitResponse} {tenantId : Uuid}
    {code : String} (hnames : s.Names r tenantId code) : s'.Names r tenantId code := by
  cases hnames with
  | acquisition a ha htenant hcode hrequest =>
      obtain ⟨a', ha', htenant', hcode', hrequest'⟩ := h.acquisitions a ha
      exact .acquisition a' ha' (htenant'.trans htenant) (hcode'.trans hcode)
        (hrequest' _ hrequest)
  | tracking t ht htenant hcode reference hreference hcreated =>
      obtain ⟨t', ht', hid, htenant', hcode'⟩ := h.database.trackings t ht
      exact .tracking t' ht' (htenant'.trans htenant) (hcode'.trans hcode) reference hreference
        (hid ▸ h.created _ hcreated)
  | refresh f hf hrequest t ht hid htenant hcode =>
      obtain ⟨f', hf', htracking, hrequest'⟩ := h.database.refreshes f hf
      obtain ⟨t', ht', hid', htenant', hcode'⟩ := h.database.trackings t ht
      exact .refresh f' hf' (hrequest' _ hrequest) t' ht' (by rw [hid', hid, htracking])
        (htenant'.trans htenant) (hcode'.trans hcode)

/-- **A justification by the ids lasts.** -/
theorem JustifiedById.mono {webhookTenant : Option Uuid} (h : s.Extends s') {tenantId : Uuid}
    {code : String} (hjustified : JustifiedById webhookTenant s tenantId code) :
    JustifiedById webhookTenant s' tenantId code :=
  hjustified.imp_right fun ⟨r, hr, hcode, asked, hnames⟩ =>
    ⟨r, h.received r hr, hcode, asked, hnames.mono h⟩

/-- A step that writes none of what a justification goes by. -/
theorem Portfolio.Extends.of_same (hacquisitions : s'.acquisitions = s.acquisitions)
    (htracking : s'.tracking = s.tracking) (hreceived : s'.received = s.received) :
    s.Extends s' := by
  refine ⟨?_, by rw [htracking]; exact .refl _, by rw [htracking]; exact fun _ h => h,
    by rw [hreceived]; exact fun _ h => h⟩
  rw [hacquisitions]
  exact fun a ha => ⟨a, ha, rfl, rfl, fun _ h => h⟩

/-- An `UPDATE` of the acquisitions that keeps the request ids they have. -/
theorem Portfolio.Extends.of_updateWhere {p : Acquisition → Bool} {f : Acquisition → Acquisition}
    (hrows : s'.acquisitions.rows = updateWhere p f s.acquisitions.rows)
    (htracking : s'.tracking = s.tracking) (hreceived : s'.received = s.received)
    (hf : ∀ a, p a = true → (f a).tenantId = a.tenantId ∧ (f a).processCode = a.processCode ∧
      ∀ requestId, a.juditRequestId = some requestId → (f a).juditRequestId = some requestId) :
    s.Extends s' := by
  refine ⟨fun a ha => ?_, by rw [htracking]; exact .refl _, by rw [htracking]; exact fun _ h => h,
    by rw [hreceived]; exact fun _ h => h⟩
  refine ⟨_, hrows ▸ updateWhere_mem_of_mem ha, ?_⟩
  split
  · rename_i hp
    exact hf a hp
  · exact ⟨rfl, rfl, fun _ h => h⟩

theorem requestProcess_extends {tenantId : Uuid} {code rowId : String}
    {acquisitions : AcquisitionTable}
    (h : requestProcess s.acquisitions tenantId code rowId = some acquisitions) :
    s.Extends { s with acquisitions := acquisitions } := by
  unfold requestProcess at h
  split at h
  · rename_i a _
    split at h
    · cases h
      refine .of_updateWhere (p := fun b => b.id == a.id) rfl rfl rfl fun b _ => ?_
      split <;> exact ⟨rfl, rfl, fun _ h => h⟩
    · cases h
      exact .of_same rfl rfl rfl
  · refine ⟨fun a ha => ⟨a, ?_, rfl, rfl, fun _ h => h⟩, .refl _, fun _ h => h, fun _ h => h⟩
    show a ∈ acquisitions.rows
    rw [(Lifecycle.AcquisitionTable.insert_eq_some h).1]
    exact List.mem_append_left _ ha

end Extends

/-! ## §3. The invariant. -/

/-- Grants, versions and stored ids, whatever the responses carry. -/
structure Accounted (webhookTenant : Option Uuid) (s : Portfolio) : Prop where
  grants : ∀ g ∈ s.grants, JustifiedById webhookTenant s g.1 g.2
  /-- a version holds the ids of responses of its process -/
  versions : ∀ v ∈ s.versions,
    (∃ r ∈ s.received, r.code = v.code ∧ r.requestId = v.juditRequestId) ∧
      ∀ reference, v.trackingReference = some reference →
        ∃ r ∈ s.received, r.code = v.code ∧ r.trackingReference = some reference
  deletions : Trackings.Deletions s.tracking
  flights : Trackings.Flights s.tracking
  assigned : Trackings.Assigned s.tracking

section Steps

variable {webhookTenant : Option Uuid} {s s' : Portfolio}

/-- A step that grants nothing and stages nothing. -/
theorem Accounted.frame (h : Accounted webhookTenant s) (hextends : s.Extends s')
    (hgrants : s'.grants = s.grants) (htracking : s'.tracking = s.tracking)
    (hversions : ∀ v ∈ s'.versions, ∃ w ∈ s.versions, w.code = v.code ∧
      w.juditRequestId = v.juditRequestId ∧ w.trackingReference = v.trackingReference) :
    Accounted webhookTenant s' where
  grants := by
    rw [hgrants]
    exact fun g hg => (h.grants g hg).mono hextends
  versions := by
    intro v hv
    obtain ⟨w, hw, hcode, hrequest, hreference⟩ := hversions v hv
    obtain ⟨⟨r, hr, hr'⟩, hrefers⟩ := h.versions w hw
    rw [hcode, hrequest] at hr'
    refine ⟨⟨r, hextends.received r hr, hr'⟩, fun reference href => ?_⟩
    obtain ⟨q, hq, hq'⟩ := hrefers reference (hreference.trans href)
    rw [hcode] at hq'
    exact ⟨q, hextends.received q hq, hq'⟩
  deletions := by rw [htracking]; exact h.deletions
  flights := by rw [htracking]; exact h.flights
  assigned := by rw [htracking]; exact h.assigned

/-- A step of the trackings' machine. -/
theorem Accounted.track (h : Accounted webhookTenant s) {e : Trackings.Event}
    {tracking : Trackings.System} (hs : s.tracking.step e = some tracking) :
    Accounted webhookTenant { s with tracking := tracking } := by
  have hextends : s.Extends { s with tracking := tracking } :=
    ⟨fun a ha => ⟨a, ha, rfl, rfl, fun _ hq => hq⟩, Trackings.System.step_persists hs,
      fun c hc => Trackings.System.created_step hs hc, fun _ hr => hr⟩
  exact
    { grants := fun g hg => (h.grants g hg).mono hextends
      versions := h.versions
      deletions := h.deletions.step hs
      flights := h.flights.step h.deletions hs
      assigned := h.assigned.step h.flights hs }

/-- The tenants of a request id are named by its responses. -/
theorem names_of_requestTenants {r : LawsuitResponse} {tenantId : Uuid}
    (h : tenantId ∈ requestTenants s.acquisitions r.requestId) :
    ∃ asked, s.Names r tenantId asked := by
  obtain ⟨a, ha, htenant⟩ := List.mem_map.1 h
  obtain ⟨hmem, hrequest⟩ := List.mem_filter.1 ha
  exact ⟨_, .acquisition a hmem htenant rfl (by simpa using hrequest)⟩

/-- The tenants of a refresh are named by the responses of its request. -/
theorem names_of_refreshTenants {r : LawsuitResponse} {tenantId : Uuid}
    (h : tenantId ∈ refreshTenants s.tracking.db r.requestId) :
    ∃ asked, s.Names r tenantId asked := by
  obtain ⟨f, hf, htenant⟩ := List.mem_flatMap.1 h
  obtain ⟨hmem, hrequest⟩ := List.mem_filter.1 hf
  obtain ⟨t, ht, htenant⟩ := List.mem_map.1 htenant
  obtain ⟨htmem, hid⟩ := List.mem_filter.1 ht
  exact ⟨_, .refresh f hmem (by simpa using hrequest) t htmem
    (by simpa [Trackings.Tracking.isRow] using hid) htenant rfl⟩

/-- The tenants of a tracking are named by the payloads that refer to it. -/
theorem names_of_trackingTenants (h : Trackings.Assigned s.tracking) {r : LawsuitResponse}
    {reference : String} (hreference : r.trackingReference = some reference) {tenantId : Uuid}
    (htenant : tenantId ∈ trackingTenants s.tracking.db reference) :
    ∃ asked, s.Names r tenantId asked := by
  obtain ⟨t, ht, htenant⟩ := List.mem_map.1 htenant
  obtain ⟨hmem, hactive⟩ := List.mem_filter.1 ht
  have hstored : t.providerTrackingId = some reference := by
    simp only [Trackings.Tracking.isActiveAs, Bool.and_eq_true, beq_iff_eq] at hactive
    exact hactive.1
  exact ⟨_, .tracking t hmem htenant rfl reference hreference (h t hmem reference hstored)⟩

/-- **Staging**: the row the trigger sees is the response's or an old one, and
so is every row afterwards. -/
theorem stageVersion_cases {versions : List ProcessVersion} {r : LawsuitResponse}
    {now : Timestamp} :
    (stageVersion versions r now).1.code = r.code ∧
      ∀ v, v = (stageVersion versions r now).1 ∨ v ∈ (stageVersion versions r now).2 →
        v ∈ versions ∨ (v.code = r.code ∧ v.juditRequestId = r.requestId ∧
          v.trackingReference = r.trackingReference) := by
  have hrestage : ∀ v ∈ versions, ProcessVersion.isOf r v = true →
      (v.restage r).code = r.code ∧ (v.restage r ∈ versions ∨
        ((v.restage r).code = r.code ∧ (v.restage r).juditRequestId = r.requestId ∧
          (v.restage r).trackingReference = r.trackingReference)) := by
    intro v hv hof
    have hcode : v.code = r.code := by
      simp only [ProcessVersion.isOf, Bool.and_eq_true, beq_iff_eq] at hof
      exact hof.1
    unfold ProcessVersion.restage
    split
    · exact ⟨hcode, .inl hv⟩
    · exact ⟨hcode, .inr ⟨hcode, rfl, rfl⟩⟩
  unfold stageVersion
  split
  · rename_i w hfind
    have hw := hrestage w (List.mem_of_find?_eq_some hfind) (List.find?_some hfind)
    refine ⟨hw.1, fun v hv => ?_⟩
    rcases hv with rfl | hv
    · exact hw.2
    · rcases mem_updateWhere.1 hv with ⟨v₀, hv₀, hof, rfl⟩ | ⟨hold, -⟩
      · exact (hrestage v₀ hv₀ hof).2
      · exact .inl hold
  · refine ⟨rfl, fun v hv => ?_⟩
    rcases hv with rfl | hv
    · exact .inr ⟨rfl, rfl, rfl⟩
    · rcases List.mem_append.1 hv with hold | hnew
      · exact .inl hold
      · obtain rfl := List.mem_singleton.1 hnew
        exact .inr ⟨rfl, rfl, rfl⟩

/-- The ids of a version that was staged are those of responses. -/
theorem Accounted.staged (h : Accounted webhookTenant s) {r : LawsuitResponse} {now : Timestamp}
    {v : ProcessVersion} (hv : v = (stageVersion s.versions r now).1 ∨
      v ∈ (stageVersion s.versions r now).2) :
    (∃ q ∈ s.received ++ [r], q.code = v.code ∧ q.requestId = v.juditRequestId) ∧
      ∀ reference, v.trackingReference = some reference →
        ∃ q ∈ s.received ++ [r], q.code = v.code ∧ q.trackingReference = some reference := by
  have hr : r ∈ s.received ++ [r] := List.mem_append_right _ (List.mem_singleton_self r)
  rcases stageVersion_cases.2 v hv with hold | ⟨hcode, hrequest, hreference⟩
  · obtain ⟨⟨q, hq, hq'⟩, href⟩ := h.versions v hold
    refine ⟨⟨q, List.mem_append_left _ hq, hq'⟩, fun reference hv' => ?_⟩
    obtain ⟨q', hq', hcode⟩ := href reference hv'
    exact ⟨q', List.mem_append_left _ hq', hcode⟩
  · refine ⟨⟨r, hr, hcode.symm, hrequest.symm⟩, fun reference hv' => ⟨r, hr, hcode.symm, ?_⟩⟩
    rw [← hreference]
    exact hv'

/-- The mark on the trackings is no step at all, or one of their machine's. -/
theorem markTrackingEvent_cases (tracking : Trackings.System) (v : ProcessVersion)
    (now : Timestamp) :
    markTrackingEvent tracking v now = tracking ∨
      ∃ e, tracking.step e = some (markTrackingEvent tracking v now) := by
  unfold markTrackingEvent
  split
  · exact .inl rfl
  · rename_i reference _
    exact .inr ⟨.tracked reference now, rfl⟩

/-- **A response grants by the ids it carries, or its version does.** -/
theorem Accounted.receive (h : Accounted webhookTenant s) {r : LawsuitResponse}
    {now : Timestamp} : Accounted webhookTenant (s.receive webhookTenant r now) := by
  unfold Portfolio.receive
  split
  · exact h
  -- the trackings' mark first, which leaves everything the grants go by
  have hmarked : Accounted webhookTenant { s with
      tracking := markTrackingEvent s.tracking (stageVersion s.versions r now).1 now } := by
    rcases markTrackingEvent_cases s.tracking (stageVersion s.versions r now).1 now with
      heq | ⟨e, hstep⟩
    · rw [heq]
      exact h
    · exact h.track hstep
  have hextends : s.Extends { s with
      deliveries := s.deliveries ++ r.callbackId.toList
      versions := (stageVersion s.versions r now).2
      tracking := markTrackingEvent s.tracking (stageVersion s.versions r now).1 now
      grants := grantAll s.grants r.code (webhookTenant.toList ++
        triggerTenants s.tracking.db (stageVersion s.versions r now).1 ++
          requestTenants s.acquisitions r.requestId)
      received := s.received ++ [r] } := by
    refine ⟨fun a ha => ⟨a, ha, rfl, rfl, fun _ hq => hq⟩, ?_, ?_,
      fun _ hq => List.mem_append_left _ hq⟩
    · rcases markTrackingEvent_cases s.tracking (stageVersion s.versions r now).1 now with
        heq | ⟨e, hstep⟩
      · show s.tracking.db.Persists (markTrackingEvent s.tracking _ now).db
        rw [heq]
        exact .refl _
      · exact Trackings.System.step_persists hstep
    · rcases markTrackingEvent_cases s.tracking (stageVersion s.versions r now).1 now with
        heq | ⟨e, hstep⟩
      · show ∀ c ∈ _, c ∈ (markTrackingEvent s.tracking _ now).provider.created
        rw [heq]
        exact fun _ hc => hc
      · exact fun c hc => Trackings.System.created_step hstep hc
  refine
    { grants := fun g hg => ?_
      versions := fun v hv => h.staged (.inr hv)
      deletions := hmarked.deletions
      flights := hmarked.flights
      assigned := hmarked.assigned }
  rcases mem_grantAll.1 hg with hold | ⟨hcode, hnew⟩
  · exact (h.grants g hold).mono hextends
  have hvcode : (stageVersion s.versions r now).1.code = r.code := stageVersion_cases.1
  have hseen : (stageVersion s.versions r now).1 = (stageVersion s.versions r now).1 ∨
      (stageVersion s.versions r now).1 ∈ (stageVersion s.versions r now).2 := .inl rfl
  obtain ⟨⟨q, hq, hqcode, hqrequest⟩, hreference⟩ := h.staged hseen
  rw [List.mem_append, List.mem_append] at hnew
  rcases hnew with (hwebhook | htrigger) | hrequest
  · exact .inl (by simpa using hwebhook)
  · rcases List.mem_append.1 htrigger with htracked | hrefreshed
    · obtain ⟨reference, href, htenant⟩ := List.mem_flatMap.1 htracked
      obtain ⟨q', hq', hqcode', hqref⟩ := hreference reference (by simpa using href)
      obtain ⟨asked, hnames⟩ := names_of_trackingTenants h.assigned hqref htenant
      exact .inr ⟨q', hq', by rw [hqcode', hvcode, hcode], asked, hnames.mono hextends⟩
    · rw [← hqrequest] at hrefreshed
      obtain ⟨asked, hnames⟩ := names_of_refreshTenants hrefreshed
      exact .inr ⟨q, hq, by rw [hqcode, hvcode, hcode], asked, hnames.mono hextends⟩
  · obtain ⟨asked, hnames⟩ := names_of_requestTenants hrequest
    exact .inr ⟨r, List.mem_append_right _ (List.mem_singleton_self r), hcode.symm, asked,
      hnames.mono hextends⟩

/-- The selected process is that of a version of the request. -/
theorem newestProcess_mem {versions : List ProcessVersion} {requestId code : String}
    (h : newestProcess versions requestId = some code) :
    ∃ v ∈ versions, v.juditRequestId = requestId ∧ v.code = code := by
  obtain ⟨v, hv, rfl⟩ := Option.map_eq_some_iff.1 h
  have hmem := List.mem_of_mem_head? hv
  rw [List.mem_insertionSort, List.mem_filter] at hmem
  exact ⟨v, hmem.1, by simpa using hmem.2, rfl⟩

/-- **Recording a request id grants by it.** -/
theorem Accounted.record (h : Accounted webhookTenant s) {rowId requestId : String}
    (hs : s.record rowId requestId = some s') : Accounted webhookTenant s' := by
  unfold Portfolio.record at hs
  split at hs
  · cases hs
  rename_i hne
  split at hs
  · cases hs
  · rename_i acquisitions hrecord
    cases hs
    rcases Lifecycle.AcquisitionTable.record_eq_some hrecord with ⟨-, rfl, -⟩ | ⟨a, -, htenant, -⟩
    · exact h
    · cases htenant
  · rename_i tenantId acquisitions hrecord
    rcases Lifecycle.AcquisitionTable.record_eq_some hrecord with ⟨hnone, -⟩ |
      ⟨a, ha, htenant, hid, hopen, -, hrows⟩
    · cases hnone
    have hextends : ∀ grants, s.Extends { s with
        acquisitions := acquisitions
        grants := grants } := by
      intro grants
      refine .of_updateWhere hrows rfl rfl fun b hb => ⟨rfl, rfl, fun q hq => ?_⟩
      rw [(Lifecycle.Acquisition.isOpen_iff.1 hb).2] at hq
      cases hq
    cases hnewest : newestProcess s.versions requestId with
    | none =>
      rw [hnewest] at hs
      cases hs
      exact
        { grants := fun g hg => (h.grants g hg).mono (hextends _)
          versions := h.versions
          deletions := h.deletions
          flights := h.flights
          assigned := h.assigned }
    | some code =>
      rw [hnewest] at hs
      cases hs
      refine
        { grants := fun g hg => ?_
          versions := h.versions
          deletions := h.deletions
          flights := h.flights
          assigned := h.assigned }
      by_cases hold : g ∈ s.grants
      · exact (h.grants g hold).mono (hextends _)
      rcases mem_grantAll.1 (show g ∈ grantAll s.grants code [tenantId] from hg) with
        hmem | ⟨rfl, hnew⟩
      · exact absurd hmem hold
      -- a response of the selected version carried the id just recorded
      obtain ⟨v, hv, hvrequest, hvcode⟩ := newestProcess_mem hnewest
      obtain ⟨⟨r, hr, hcode, hrequest⟩, -⟩ := h.versions v hv
      have hmem : a.recorded requestId hne ∈ acquisitions.rows := by
        rw [hrows]
        exact mem_updateWhere.2 (.inl ⟨a, ha, Lifecycle.Acquisition.isOpen_iff.2 ⟨hid, hopen⟩, rfl⟩)
      refine .inr ⟨r, hr, hcode.trans hvcode, a.processCode,
        .acquisition (a.recorded requestId hne) hmem ?_ rfl ?_⟩
      · show a.tenantId = g.1
        rw [List.mem_singleton.1 hnew]
        exact (Option.some.inj htenant).symm
      · show some requestId = some r.requestId
        rw [hrequest, hvrequest]

/-- **Every step keeps the account.** -/
theorem Accounted.step {e : Event} (h : Accounted webhookTenant s)
    (hs : s.step webhookTenant e = some s') : Accounted webhookTenant s' := by
  cases e with
  | receive response now =>
      cases hs
      exact h.receive
  | request tenantId code rowId =>
      obtain ⟨acquisitions, hrequest, rfl⟩ := Option.map_eq_some_iff.1 hs
      exact h.frame (requestProcess_extends hrequest) rfl rfl fun v hv => ⟨v, hv, rfl, rfl, rfl⟩
  | record rowId requestId => exact h.record hs
  | refuse rowId status =>
      cases hs
      exact h.frame (.of_updateWhere rfl rfl rfl fun _ _ => ⟨rfl, rfl, fun _ hq => hq⟩) rfl rfl
        fun v hv => ⟨v, hv, rfl, rfl, rfl⟩
  | finalize code sourceRequestId =>
      cases hs
      refine h.frame (.of_same rfl rfl rfl) rfl rfl fun v hv => ?_
      rcases mem_updateWhere.1 hv with ⟨w, hw, -, rfl⟩ | ⟨hold, -⟩
      · exact ⟨w, hw, rfl, rfl, rfl⟩
      · exact ⟨v, hold, rfl, rfl, rfl⟩
  | tracking e =>
      obtain ⟨tracking, hstep, rfl⟩ := Option.map_eq_some_iff.1 hs
      exact h.track hstep

end Steps

theorem accounted_init (webhookTenant : Option Uuid) : Accounted webhookTenant {} :=
  ⟨fun _ hg => (nomatch hg), fun _ hv => (nomatch hv), Trackings.deletions_init,
    Trackings.flights_init, Trackings.assigned_init⟩

/-! ## §4. Every reachable state. -/

/-- **Every grant is justified by the provider's ids**, and by the lawsuit
where every response carries the lawsuit its ids were asked for. -/
theorem grants_justified {webhookTenant : Option Uuid} {s : Portfolio}
    (h : Reachable (Portfolio.step webhookTenant) {} s) :
    (∀ g ∈ s.grants, JustifiedById webhookTenant s g.1 g.2) ∧
      (s.Faithful → ∀ g ∈ s.grants, Justified webhookTenant s g.1 g.2) := by
  have haccounted : Accounted webhookTenant s :=
    Reach.invariant (accounted_init webhookTenant) (fun _ _ _ h _ hs => h.step hs) h
  exact ⟨haccounted.grants, fun hfaithful g hg => (haccounted.grants g hg).justified hfaithful⟩

/-- The lawsuit of `Trackings.track`. -/
def trackedLawsuit : String := "0000000-00.0000.0.00.0701"

/-- A tracking is created at the provider, and a response refers to it. -/
def trackedEvents : List Event :=
  (Trackings.track "t1" "p1" 100).map .tracking ++
    [.receive { code := trackedLawsuit, requestId := "r9", sourceId := "resp-1",
                referenceType := some "tracking", referenceId := some "p1" } 50]

theorem trackedEvents_grants :
    ∃ s ∈ run (Portfolio.step none) {} trackedEvents, (1, trackedLawsuit) ∈ s.grants := by
  decide +kernel

/-- The tracking's tenant is granted the process, with the justification. -/
theorem grants_justified_trackedEvents :
    ∃ s : Portfolio, (1, trackedLawsuit) ∈ s.grants ∧
      (∀ g ∈ s.grants, JustifiedById none s g.1 g.2) ∧
      (s.Faithful → ∀ g ∈ s.grants, Justified none s g.1 g.2) := by
  obtain ⟨s, hs, hgrant⟩ := trackedEvents_grants
  exact ⟨s, hgrant, grants_justified (reachable_of_run hs)⟩

/-! ## §5. A response of another lawsuit. -/

/-- A tenant asks for one lawsuit; the response of its request is another's. -/
def foreignEvents : List Event :=
  [.request 7 "0000001-00.0000.0.00.0001" "a1", .record "a1" "r1",
    .receive { code := "0000002-00.0000.0.00.0002", requestId := "r1", sourceId := "resp-1" } 50]

/-- The tenant is granted the process of the other lawsuit. -/
theorem foreignEvents_grants :
    ∃ s ∈ run (Portfolio.step none) {} foreignEvents,
      (7, "0000002-00.0000.0.00.0002") ∈ s.grants ∧
      ¬ Justified none s 7 "0000002-00.0000.0.00.0002" := by
  decide +kernel

/-- Not every grant is justified by the lawsuit. -/
theorem not_justified_foreignEvents :
    ¬ ∀ (webhookTenant : Option Uuid) (s : Portfolio),
      Reachable (Portfolio.step webhookTenant) {} s →
        ∀ g ∈ s.grants, Justified webhookTenant s g.1 g.2 := by
  intro h
  obtain ⟨s, hs, hgrant, hunjustified⟩ := foreignEvents_grants
  exact hunjustified (h none s (reachable_of_run hs) _ hgrant)

end Rpy.Tenancy

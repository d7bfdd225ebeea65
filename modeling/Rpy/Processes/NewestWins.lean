/-
  Rpy.Processes.NewestWins
  ────────────────────────
  **WHICH VERSION'S CONTENT IS PROMOTED, OVER EVERY ORDER OF FINALIZATIONS.**

  The versions of one process are staged; `finalize_version` is then called
  on them in any order, with repeats, and with any contents.

    • `NewestWins`     — the promoted data has the document of the newest
                         finalized version,
    • `NoStaleContent` — a call that promotes is for a version newer than
                         every finalized one, or brings the document that
                         is promoted already (and no call is found
                         equivalent by a colliding digest),
    • `newestWins_along_iff` — the newest content wins along a run exactly
                         when every call meets that condition.

  An equivalent newer version is finalized without moving
  `current_version_id`; the age check of a later call then compares with an
  older version than the newest finalized one.
-/
import Mathlib.Data.List.MinMax
import Rpy.Foundation.Machine
import Rpy.Processes.Finalize

namespace Rpy.Processes

open Rpy.Foundation

/-! ## §1. Runs of calls. -/

/-- Versions staged for one process: distinct ids and distinct `created_at`. -/
structure StagedVersions where
  versions : List (Uuid × Timestamp)
  ids_nodup : (versions.map Prod.fst).Nodup
  createdAt_nodup : (versions.map Prod.snd).Nodup

/-- The rows of the process, and the fields each version was finalized with. -/
structure History where
  records : ProcessRecords
  finalizedWith : List (Uuid × PromotableFields) := []

/-- The process before any version is finalized. -/
def History.init (staged : StagedVersions) : History where
  records := {
    process := {}
    versions := staged.versions.map fun v => { id := v.1, createdAt := v.2 } }

/-- A call of `finalize_version`. -/
structure Call where
  versionId : Uuid
  fields : PromotableFields
  now : Timestamp

/-- One call; an exception rolls it back. -/
def History.step (u : Platform) (s : History) (c : Call) : Option History :=
  match finalizeVersion u s.records c.versionId c.fields.toSemanticFields c.now with
  | .error _ => some s
  | .ok (_, records) =>
      some {
        records := records
        finalizedWith :=
          match s.finalizedWith.lookup c.versionId with
          | some _ => s.finalizedWith
          | none => (c.versionId, c.fields) :: s.finalizedWith }

/-! ## §2. The property and the condition. -/

/-- The document of the promoted data, its attachments apart. -/
def promotedDocument (u : Platform) (s : ProcessRecords) : Except FinalizeError Json :=
  (promotedFields u s).map fun f => semanticDocument u { f with attachments := [] }

/-- The document of a version's fields, its attachments apart. -/
def promotableDocument (u : Platform) (f : SemanticFields) : Json :=
  semanticDocument u { f with attachments := [] }

/-- The promoted data has the document of the fields. -/
def Shows (u : Platform) (s : ProcessRecords) (f : SemanticFields) : Prop :=
  ∃ d, promotedDocument u s = .ok d ∧ d.canon = (promotableDocument u f).canon

/-- The finalized version with the greatest `created_at`. -/
def IsNewestFinalized (versions : List VersionRow) (w : VersionRow) : Prop :=
  w ∈ versions ∧ w.finalized = true ∧
    ∀ v ∈ versions, v.finalized = true → v.createdAt ≤ w.createdAt

/-- **The newest finalized content wins.** -/
def NewestWins (u : Platform) (s : History) : Prop :=
  ∀ w, IsNewestFinalized s.records.versions w →
    ∃ f, s.finalizedWith.lookup w.id = some f ∧ Shows u s.records f.toSemanticFields

/-- The candidate is newer than every finalized version. -/
def NewerThanFinalized (versions : List VersionRow) (candidate : VersionRow) : Prop :=
  ∀ v ∈ versions, v.finalized = true → v.createdAt < candidate.createdAt

/-- A promoting call brings the newest content or the content promoted
already; a digest found equal is no collision. -/
def NoStaleContent (u : Platform) (s : History) (c : Call) : Prop :=
  ∀ candidate, s.records.versions.find? (fun v => v.id == c.versionId) = some candidate →
    candidate.finalized = false →
    (equivalentToCurrent u s.records c.fields.toSemanticFields = .ok true →
      (manifest u c.versionId c.fields.attachments).isOk →
      NewerThanFinalized s.records.versions candidate →
      Shows u s.records c.fields.toSemanticFields) ∧
    (equivalentToCurrent u s.records c.fields.toSemanticFields = .ok false →
      promotes s.records candidate = true →
      Writable u c.versionId c.fields.toSemanticFields →
      ¬ NewerThanFinalized s.records.versions candidate →
      Shows u s.records c.fields.toSemanticFields)

/-! ## §3. The versions after one is finalized. -/

section Versions

variable {versions : List VersionRow} {candidate w : VersionRow} {fingerprint : String}
  {equivalentTo : Option Uuid} {now : Timestamp}

theorem map_finalizeRow {α : Type} {g : VersionRow → α} (versionId : Uuid)
    (hg : ∀ v, g (v.finalize fingerprint equivalentTo now) = g v) :
    (finalizeRow versions versionId fingerprint equivalentTo now).map g = versions.map g := by
  unfold finalizeRow
  rw [List.map_map]
  refine List.map_congr_left fun v _ => ?_
  show g (if _ then _ else _) = g v
  split
  · exact hg v
  · rfl

/-- A version afterwards is the finalized candidate or an old version. -/
theorem mem_finalizeRow (hids : (versions.map VersionRow.id).Nodup) (hc : candidate ∈ versions)
    (hw : w ∈ finalizeRow versions candidate.id fingerprint equivalentTo now) :
    w = candidate.finalize fingerprint equivalentTo now ∨ (w ∈ versions ∧ w.id ≠ candidate.id) := by
  obtain ⟨v, hv, rfl⟩ := List.mem_map.1 hw
  by_cases hid : v.id = candidate.id
  · obtain rfl := List.inj_on_of_nodup_map hids hv hc hid
    exact .inl (by simp)
  · exact .inr ⟨by simpa [hid] using hv, by simp [hid]⟩

theorem finalize_mem_finalizeRow (hc : candidate ∈ versions) :
    candidate.finalize fingerprint equivalentTo now ∈
      finalizeRow versions candidate.id fingerprint equivalentTo now :=
  List.mem_map.2 ⟨candidate, hc, by simp⟩

theorem mem_finalizeRow_of_ne (hw : w ∈ versions) (hne : w.id ≠ candidate.id) :
    w ∈ finalizeRow versions candidate.id fingerprint equivalentTo now :=
  List.mem_map.2 ⟨w, hw, by simp [hne]⟩

/-- **The newest finalized version afterwards**: the candidate, if it is
newer than every finalized one, and the same as before otherwise. -/
theorem isNewestFinalized_finalizeRow (hids : (versions.map VersionRow.id).Nodup)
    (hcreated : (versions.map VersionRow.createdAt).Nodup) (hc : candidate ∈ versions)
    (hopen : candidate.finalized = false) :
    IsNewestFinalized (finalizeRow versions candidate.id fingerprint equivalentTo now) w ↔
      (NewerThanFinalized versions candidate ∧
        w = candidate.finalize fingerprint equivalentTo now) ∨
      (¬ NewerThanFinalized versions candidate ∧ IsNewestFinalized versions w) := by
  have hne : ∀ v ∈ versions, v.finalized = true → v.id ≠ candidate.id := by
    intro v hv hfinal hid
    obtain rfl := List.inj_on_of_nodup_map hids hv hc hid
    simp [hfinal] at hopen
  constructor
  · rintro ⟨hw, hfinal, hmax⟩
    rcases mem_finalizeRow hids hc hw with rfl | ⟨hw', hid⟩
    · refine .inl ⟨fun v hv hvfinal => ?_, rfl⟩
      have hle : v.createdAt ≤ candidate.createdAt :=
        hmax v (mem_finalizeRow_of_ne hv (hne v hv hvfinal)) hvfinal
      have hdistinct : v.createdAt ≠ candidate.createdAt := fun heq =>
        hne v hv hvfinal (by rw [List.inj_on_of_nodup_map hcreated hv hc heq])
      exact lt_of_le_of_ne hle hdistinct
    · refine .inr ⟨fun hnewer => ?_, hw', hfinal, fun v hv hvfinal =>
        hmax v (mem_finalizeRow_of_ne hv (hne v hv hvfinal)) hvfinal⟩
      have hle : (candidate.finalize fingerprint equivalentTo now).createdAt ≤ w.createdAt :=
        hmax _ (finalize_mem_finalizeRow hc) rfl
      exact absurd (hnewer w hw' hfinal) (not_lt.2 hle)
  · rintro (⟨hnewer, rfl⟩ | ⟨hold, hw, hfinal, hmax⟩)
    · refine ⟨finalize_mem_finalizeRow hc, rfl, fun v hv hvfinal => ?_⟩
      rcases mem_finalizeRow hids hc hv with rfl | ⟨hv', -⟩
      · exact le_refl _
      · exact le_of_lt (hnewer v hv' hvfinal)
    · refine ⟨mem_finalizeRow_of_ne hw (hne w hw hfinal), hfinal, fun v hv hvfinal => ?_⟩
      rcases mem_finalizeRow hids hc hv with rfl | ⟨hv', -⟩
      · simp only [NewerThanFinalized, not_forall] at hold
        obtain ⟨x, hx, hxfinal, hxage⟩ := hold
        exact le_trans (not_lt.1 hxage) (hmax x hx hxfinal)
      · exact hmax v hv' hvfinal

/-- If a version is finalized, one is the newest. -/
theorem exists_isNewestFinalized (h : ∃ v ∈ versions, v.finalized = true) :
    ∃ w, IsNewestFinalized versions w := by
  obtain ⟨v, hv, hfinal⟩ := h
  have hv' : v ∈ versions.filter fun v => v.finalized := List.mem_filter.2 ⟨hv, hfinal⟩
  cases hmax : (versions.filter fun v => v.finalized).argmax VersionRow.createdAt with
  | none =>
      rw [List.argmax_eq_none] at hmax
      rw [hmax] at hv'
      cases hv'
  | some w =>
      obtain ⟨hw, hwfinal⟩ := List.mem_filter.1 (List.argmax_mem hmax)
      refine ⟨w, hw, hwfinal, fun x hx hxfinal => ?_⟩
      exact List.le_of_mem_argmax (List.mem_filter.2 ⟨hx, hxfinal⟩) hmax

end Versions

/-! ## §4. What is promoted after a call. -/

section Shown

variable {u : Platform} {s s' : ProcessRecords} {f : PromotableFields} {now : Timestamp}

/-- The promoted document is a matter of the process row and its steps. -/
theorem promotedDocument_congr (hprocess : s'.process = s.process)
    (hsteps : stepsOf s'.steps s.process.currentVersionId =
      stepsOf s.steps s.process.currentVersionId) :
    promotedDocument u s' = promotedDocument u s := by
  unfold promotedDocument promotedFields
  rw [hprocess, hsteps]
  cases decodeJsonObject "process header" s.process.header with
  | error e => rfl
  | ok header =>
      cases decodeJsonList "process parties" s.process.parties with
      | error e => rfl
      | ok parties =>
          cases decodeJsonList "process representatives" s.process.representatives with
          | error e => rfl
          | ok representatives =>
              cases decodeJsonList "process subjects" s.process.subjects with
              | error e => rfl
              | ok subjects => rfl

theorem Shows.congr (hdoc : promotedDocument u s' = promotedDocument u s) {g : SemanticFields} :
    Shows u s' g ↔ Shows u s g := by
  unfold Shows
  rw [hdoc]

/-- What is shown has one document. -/
theorem Shows.trans {g h : SemanticFields} (hg : Shows u s g) (hh : Shows u s h)
    (hg' : Shows u s' g) : Shows u s' h := by
  obtain ⟨d, hd, hdg⟩ := hg
  obtain ⟨e, he, heh⟩ := hh
  obtain ⟨d', hd', hdg'⟩ := hg'
  obtain rfl : d = e := Except.ok.inj (hd.symm.trans he)
  exact ⟨d', hd', hdg'.trans (hdg.symm.trans heh)⟩

/-- **A promotion shows the fields it promotes.** -/
theorem shows_of_promoted {candidate : VersionRow}
    (h : writeVersion u s candidate f.toSemanticFields now = .ok (true, s')) :
    Shows u s' f.toSemanticFields := by
  obtain ⟨-, -, ⟨rows, hrows, hsteps⟩, hprocess, -⟩ := writeVersion_eq_ok h
  obtain ⟨hversion, hnumbers, hstored⟩ := stepRows_eq_ok hrows
  have hread : stepsOf s'.steps (some candidate.id) = rows.map StepRow.step := by
    rw [hsteps]
    exact stepsOf_written hversion (by rw [hnumbers]; exact f.steps_increasing)
  obtain ⟨g, hg, hgf, hgsteps, -⟩ := promotedFields_eq_ok (hprocess rfl).1
  have hsame : List.Forall₂ Step.Same g.steps f.steps := by
    rw [hgsteps, hread, hstored]
    exact stored_same_all f.steps
  refine ⟨semanticDocument u { g with attachments := [] }, ?_,
    semanticDocument_canon_congr u (hgf.same hsame)⟩
  unfold promotedDocument
  rw [hg]
  rfl

/-- A version that is not promoted leaves the promoted document, unless it
is the current one. -/
theorem promotedDocument_of_stale {candidate : VersionRow} {g : SemanticFields}
    (hcurrent : s.process.currentVersionId ≠ some candidate.id)
    (h : writeVersion u s candidate g now = .ok (false, s')) :
    promotedDocument u s' = promotedDocument u s := by
  obtain ⟨-, -, ⟨rows, hrows, hsteps⟩, -, hprocess⟩ := writeVersion_eq_ok h
  obtain ⟨hversion, -, -⟩ := stepRows_eq_ok hrows
  refine promotedDocument_congr (hprocess rfl) ?_
  cases hc : s.process.currentVersionId with
  | none => simp [stepsOf]
  | some current =>
      rw [hsteps]
      exact stepsOf_written_of_ne hversion fun heq => hcurrent (by rw [hc, heq])

end Shown

/-! ## §5. The invariant. -/

/-- What every call keeps, whatever it brings. -/
structure WellFormed (s : History) : Prop where
  ids : (s.records.versions.map VersionRow.id).Nodup
  createdAt : (s.records.versions.map VersionRow.createdAt).Nodup
  recorded : ∀ v ∈ s.records.versions,
    v.finalized = true ↔ (s.finalizedWith.lookup v.id).isSome = true
  current : ∀ c, s.records.process.currentVersionId = some c →
    ∃ v ∈ s.records.versions, v.id = c ∧ v.finalized = true

/-- The history after a call that finalizes its version now. -/
def History.record (s : History) (records : ProcessRecords) (c : Call) : History where
  records := records
  finalizedWith := (c.versionId, c.fields) :: s.finalizedWith

section Step

variable {u : Platform} {s s' : History} {c : Call} {candidate : VersionRow}

theorem WellFormed.lookup_open (h : WellFormed s) (hc : candidate ∈ s.records.versions)
    (hopen : candidate.finalized = false) : s.finalizedWith.lookup candidate.id = none := by
  cases hl : s.finalizedWith.lookup candidate.id with
  | none => rfl
  | some f =>
      have hfinal := (h.recorded candidate hc).2 (by rw [hl]; rfl)
      simp [hopen] at hfinal

/-- **What a step does**: nothing that matters, or it finalizes its version
by one of the two branches. -/
theorem History.step_cases (h : WellFormed s) (hs : s.step u c = some s') :
    s' = s ∨
    ∃ candidate records,
      s.records.versions.find? (fun v => v.id == c.versionId) = some candidate ∧
      candidate.finalized = false ∧ s' = s.record records c ∧
      ((equivalentToCurrent u s.records c.fields.toSemanticFields = .ok true ∧
          markEquivalent u s.records c.versionId c.fields.toSemanticFields c.now =
            .ok records) ∨
        (equivalentToCurrent u s.records c.fields.toSemanticFields = .ok false ∧
          ∃ promoted, writeVersion u s.records candidate c.fields.toSemanticFields c.now =
            .ok (promoted, records))) := by
  unfold History.step at hs
  split at hs
  · exact .inl (Option.some.inj hs).symm
  · rename_i promoted records hcall
    obtain ⟨candidate, hfind, houtcome⟩ := finalizeVersion_eq_ok hcall
    have hmem := List.mem_of_find?_eq_some hfind
    have hid : candidate.id = c.versionId := by simpa using List.find?_some hfind
    have hrecord : candidate.finalized = false → s' = s.record records c := by
      intro hopen
      have hnone := h.lookup_open hmem hopen
      rw [hid] at hnone
      rw [hnone] at hs
      exact (Option.some.inj hs).symm
    rcases houtcome with ⟨hfinal, rfl⟩ | ⟨hopen, hequivalent, -, hmarked⟩ |
        ⟨hopen, hnew, hwritten⟩
    · obtain ⟨f, hf⟩ := Option.isSome_iff_exists.1 ((h.recorded candidate hmem).1 hfinal)
      rw [hid] at hf
      rw [hf] at hs
      exact .inl (Option.some.inj hs).symm
    · exact .inr ⟨candidate, records, hfind, hopen, hrecord hopen, .inl ⟨hequivalent, hmarked⟩⟩
    · exact .inr ⟨candidate, records, hfind, hopen, hrecord hopen,
        .inr ⟨hnew, promoted, hwritten⟩⟩

/-- The versions and the pointer after a version is finalized. -/
theorem finalized_records {records : ProcessRecords} {f : SemanticFields} {now : Timestamp}
    (houtcome : markEquivalent u s.records candidate.id f now = .ok records ∨
      ∃ promoted, writeVersion u s.records candidate f now = .ok (promoted, records)) :
    (∃ equivalentTo, records.versions = finalizeRow s.records.versions candidate.id
      (semanticFingerprint u f) equivalentTo now) ∧
    (records.process.currentVersionId = some candidate.id ∨
      records.process.currentVersionId = s.records.process.currentVersionId) := by
  rcases houtcome with hmarked | ⟨promoted, hwritten⟩
  · obtain ⟨-, hprocess, -, hversions⟩ := markEquivalent_eq_ok hmarked
    exact ⟨⟨_, hversions⟩, .inr (by rw [hprocess])⟩
  · obtain ⟨-, hversions, -, hprocess, hstale⟩ := writeVersion_eq_ok hwritten
    refine ⟨⟨_, hversions⟩, ?_⟩
    cases promoted with
    | false => exact .inr (by rw [hstale rfl])
    | true => exact .inl (processColumns_currentVersionId (hprocess rfl).1)

theorem WellFormed.record (h : WellFormed s) {records : ProcessRecords} {fingerprint : String}
    {equivalentTo : Option Uuid} (hmem : candidate ∈ s.records.versions)
    (hid : candidate.id = c.versionId)
    (hversions : records.versions =
      finalizeRow s.records.versions candidate.id fingerprint equivalentTo c.now)
    (hcurrent : records.process.currentVersionId = some candidate.id ∨
      records.process.currentVersionId = s.records.process.currentVersionId) :
    WellFormed (s.record records c) := by
  have hfinal : candidate.finalize fingerprint equivalentTo c.now ∈ records.versions := by
    rw [hversions]
    exact finalize_mem_finalizeRow hmem
  refine ⟨?_, ?_, ?_, ?_⟩
  · show (records.versions.map VersionRow.id).Nodup
    rw [hversions, map_finalizeRow _ fun _ => rfl]
    exact h.ids
  · show (records.versions.map VersionRow.createdAt).Nodup
    rw [hversions, map_finalizeRow _ fun _ => rfl]
    exact h.createdAt
  · intro v hv
    show v.finalized = true ↔ (List.lookup v.id ((c.versionId, c.fields) :: _)).isSome = true
    have hv' : v ∈ finalizeRow s.records.versions candidate.id fingerprint equivalentTo c.now :=
      hversions ▸ hv
    rcases mem_finalizeRow h.ids hmem hv' with rfl | ⟨hold, hne⟩
    · have hkey : (candidate.id == c.versionId) = true := by simp [hid]
      simp [List.lookup_cons, VersionRow.finalize, hkey]
    · have hkey : (v.id == c.versionId) = false := by simpa [← hid] using hne
      rw [List.lookup_cons, hkey]
      exact h.recorded v hold
  · intro current hc
    rcases hcurrent with hnew | hsame
    · obtain rfl : candidate.id = current := Option.some.inj (hnew.symm.trans hc)
      exact ⟨_, hfinal, rfl, rfl⟩
    · obtain ⟨v, hv, rfl, hvfinal⟩ := h.current current (hsame.symm.trans hc)
      by_cases hv' : v.id = candidate.id
      · exact ⟨_, hfinal, hv'.symm, rfl⟩
      · refine ⟨v, ?_, rfl, hvfinal⟩
        show v ∈ records.versions
        rw [hversions]
        exact mem_finalizeRow_of_ne hv hv'

/-- Every step keeps the history well-formed. -/
theorem WellFormed.step (h : WellFormed s) (hs : s.step u c = some s') : WellFormed s' := by
  rcases History.step_cases h hs with rfl | ⟨candidate, records, hfind, hopen, rfl, houtcome⟩
  · exact h
  · have hid : candidate.id = c.versionId := by simpa using List.find?_some hfind
    have houtcome' : markEquivalent u s.records candidate.id c.fields.toSemanticFields c.now =
          .ok records ∨
        ∃ promoted, writeVersion u s.records candidate c.fields.toSemanticFields c.now =
          .ok (promoted, records) := by
      rw [hid]
      exact houtcome.imp And.right And.right
    obtain ⟨⟨equivalentTo, hversions⟩, hcurrent⟩ := finalized_records houtcome'
    exact h.record (List.mem_of_find?_eq_some hfind) hid hversions hcurrent

/-- The recorded fields of the other versions are as before. -/
theorem lookup_record_of_ne {records : ProcessRecords} {id : Uuid} (hne : id ≠ c.versionId) :
    (s.record records c).finalizedWith.lookup id = s.finalizedWith.lookup id := by
  have hkey : (id == c.versionId) = false := by simpa using hne
  show List.lookup id ((c.versionId, c.fields) :: _) = _
  rw [List.lookup_cons, hkey]

theorem lookup_record_self {records : ProcessRecords} :
    (s.record records c).finalizedWith.lookup c.versionId = some c.fields := by
  show List.lookup c.versionId ((c.versionId, c.fields) :: _) = _
  simp

/-- The candidate of an open call is not the current version. -/
theorem WellFormed.current_ne_open (h : WellFormed s) (hc : candidate ∈ s.records.versions)
    (hopen : candidate.finalized = false) :
    s.records.process.currentVersionId ≠ some candidate.id := by
  intro hcur
  obtain ⟨v, hv, hid, hfinal⟩ := h.current _ hcur
  obtain rfl := List.inj_on_of_nodup_map h.ids hv hc hid
  simp [hfinal] at hopen

/-- **What is newest after a version is finalized, and whether it is shown**,
in terms of the state before. -/
theorem newestWins_record_iff (h : WellFormed s) (hwins : NewestWins u s)
    {records : ProcessRecords} {fingerprint : String} {equivalentTo : Option Uuid}
    (hmem : candidate ∈ s.records.versions) (hopen : candidate.finalized = false)
    (hid : candidate.id = c.versionId)
    (hversions : records.versions =
      finalizeRow s.records.versions candidate.id fingerprint equivalentTo c.now) :
    NewestWins u (s.record records c) ↔
      (NewerThanFinalized s.records.versions candidate →
        Shows u records c.fields.toSemanticFields) ∧
      (¬ NewerThanFinalized s.records.versions candidate →
        ∃ f : SemanticFields, Shows u s.records f ∧ Shows u records f) := by
  -- The newest finalized version after the call: the candidate, if it is newer than all of
  -- them, and the old one if not.
  have hiff : ∀ w, IsNewestFinalized records.versions w ↔
      (NewerThanFinalized s.records.versions candidate ∧
        w = candidate.finalize fingerprint equivalentTo c.now) ∨
      (¬ NewerThanFinalized s.records.versions candidate ∧
        IsNewestFinalized s.records.versions w) := fun w => by
    rw [hversions]
    exact isNewestFinalized_finalizeRow h.ids h.createdAt hmem hopen
  have hne : ∀ w, IsNewestFinalized s.records.versions w → w.id ≠ c.versionId := by
    rintro w ⟨hw, hfinal, -⟩ hwid
    obtain rfl := List.inj_on_of_nodup_map h.ids hw hmem (hwid.trans hid.symm)
    simp [hfinal] at hopen
  constructor
  · intro hwins'
    constructor
    · intro hnewer
      obtain ⟨f, hf, hshows⟩ := hwins' _ ((hiff _).2 (.inl ⟨hnewer, rfl⟩))
      have hfields : (s.record records c).finalizedWith.lookup candidate.id =
          some c.fields := by rw [hid]; exact lookup_record_self
      obtain rfl : c.fields = f := Option.some.inj (hfields.symm.trans hf)
      exact hshows
    · intro hnot
      have hsome : ∃ v ∈ s.records.versions, v.finalized = true := by
        simp only [NewerThanFinalized, not_forall] at hnot
        obtain ⟨v, hv, hfinal, -⟩ := hnot
        exact ⟨v, hv, hfinal⟩
      -- An older candidate leaves the newest version: the row shows its content before and
      -- after.
      obtain ⟨w, hw⟩ := exists_isNewestFinalized hsome
      obtain ⟨f, hf, hshows⟩ := hwins w hw
      obtain ⟨f', hf', hshows'⟩ := hwins' w ((hiff w).2 (.inr ⟨hnot, hw⟩))
      rw [lookup_record_of_ne (hne w hw), hf] at hf'
      obtain rfl := Option.some.inj hf'
      exact ⟨f.toSemanticFields, hshows, hshows'⟩
  -- Back: what is recorded for the newest version is what the row shows.
  · rintro ⟨hnew, hold⟩ w hw
    rcases (hiff w).1 hw with ⟨hnewer, rfl⟩ | ⟨hnot, hw'⟩
    · exact ⟨c.fields, by rw [show (candidate.finalize fingerprint equivalentTo c.now).id =
        c.versionId from hid]; exact lookup_record_self, hnew hnewer⟩
    · obtain ⟨f, hf, hshows⟩ := hwins w hw'
      obtain ⟨g, hg, hg'⟩ := hold hnot
      exact ⟨f, by rw [lookup_record_of_ne (hne w hw'), hf], hg.trans hshows hg'⟩

/-- Something older than a finalized version is not the first. -/
theorem exists_shows_of_not_newer (hwins : NewestWins u s)
    (hnot : ¬ NewerThanFinalized s.records.versions candidate) :
    ∃ f : SemanticFields, Shows u s.records f := by
  simp only [NewerThanFinalized, not_forall] at hnot
  obtain ⟨v, hv, hfinal, -⟩ := hnot
  obtain ⟨w, hw⟩ := exists_isNewestFinalized ⟨v, hv, hfinal⟩
  obtain ⟨f, -, hshows⟩ := hwins w hw
  exact ⟨f.toSemanticFields, hshows⟩

/-- A version newer than every finalized one is not stale. -/
theorem WellFormed.promotes_of_newer (h : WellFormed s)
    (hnewer : NewerThanFinalized s.records.versions candidate) :
    promotes s.records candidate = true := by
  unfold promotes currentCreatedAt
  cases hc : s.records.process.currentVersionId with
  | none => rfl
  | some current =>
      obtain ⟨v, hv, rfl, hfinal⟩ := h.current current hc
      have hfind : s.records.versions.find? (fun w => w.id == v.id) = some v := by
        cases hf : s.records.versions.find? (fun w => w.id == v.id) with
        | none =>
            rw [List.find?_eq_none] at hf
            exact absurd (beq_self_eq_true v.id) (hf v hv)
        | some w =>
            have hwid : w.id = v.id := by simpa using List.find?_some hf
            rw [List.inj_on_of_nodup_map h.ids (List.mem_of_find?_eq_some hf) hv hwid]
      simpa [hfind] using le_of_lt (hnewer v hv hfinal)

/-- **One call keeps the newest content exactly when it brings no stale
content.** -/
theorem NewestWins.step_iff (h : WellFormed s) (hwins : NewestWins u s)
    (hs : s.step u c = some s') : NewestWins u s' ↔ NoStaleContent u s c := by
  constructor
  · intro hwins' candidate hfind hopen
    have hid : candidate.id = c.versionId := by simpa using List.find?_some hfind
    have hmem := List.mem_of_find?_eq_some hfind
    have hlookup := h.lookup_open hmem hopen
    rw [hid] at hlookup
    -- The call as `hs` has it: the fields of the open version go to `finalize_version`.
    have hstep : ∀ promoted records,
        finalizeVersion u s.records candidate.id c.fields.toSemanticFields c.now =
          .ok (promoted, records) → s' = s.record records c := by
      intro promoted records hcall
      unfold History.step at hs
      rw [← hid, hcall, hid] at hs
      simp only [hlookup] at hs
      exact (Option.some.inj hs).symm
    rw [← hid] at hfind ⊢
    constructor
    -- Equal content: the row is marked and shows what it showed.
    · intro hequivalent hmanifest hnewer
      obtain ⟨records, hcall, hmarked⟩ :=
        finalizeVersion_of_equivalent c.now hfind hopen hequivalent hmanifest
      obtain ⟨-, hprocess, hsteps, hversions⟩ := markEquivalent_eq_ok hmarked
      have hdoc : promotedDocument u records = promotedDocument u s.records :=
        promotedDocument_congr hprocess (by rw [hsteps])
      rw [hstep _ _ hcall] at hwins'
      have hshows := ((newestWins_record_iff h hwins hmem hopen hid hversions).1 hwins').1 hnewer
      exact (Shows.congr hdoc).1 hshows
    -- New content from an older candidate: the row shows it although a newer version is final.
    · intro hnew hpromotes hwritable hnot
      obtain ⟨records, hcall, hwritten⟩ :=
        finalizeVersion_of_promotes c.now hfind hopen hnew hpromotes hwritable
      obtain ⟨-, hversions, -⟩ := writeVersion_eq_ok hwritten
      rw [hstep _ _ hcall] at hwins'
      obtain ⟨f, hf, hf'⟩ :=
        ((newestWins_record_iff h hwins hmem hopen hid hversions).1 hwins').2 hnot
      exact Shows.trans hf' (shows_of_promoted hwritten) hf
  · intro hok
    -- The call did nothing, or took one of the two paths above.
    rcases History.step_cases h hs with rfl | ⟨candidate, records, hfind, hopen, rfl, houtcome⟩
    · exact hwins
    · have hid : candidate.id = c.versionId := by simpa using List.find?_some hfind
      have hmem := List.mem_of_find?_eq_some hfind
      obtain ⟨hequal, hstale⟩ := hok candidate hfind hopen
      rw [← hid] at hequal hstale houtcome
      rcases houtcome with ⟨hequivalent, hmarked⟩ | ⟨hnew, promoted, hwritten⟩
      · obtain ⟨hmanifest, hprocess, hsteps, hversions⟩ := markEquivalent_eq_ok hmarked
        have hdoc : promotedDocument u records = promotedDocument u s.records :=
          promotedDocument_congr hprocess (by rw [hsteps])
        refine (newestWins_record_iff h hwins hmem hopen hid hversions).2 ⟨fun hnewer => ?_,
          fun hnot => ?_⟩
        · exact (Shows.congr hdoc).2 (hequal hequivalent hmanifest hnewer)
        · obtain ⟨f, hf⟩ := exists_shows_of_not_newer hwins hnot
          exact ⟨f, hf, (Shows.congr hdoc).2 hf⟩
      · obtain ⟨hpromoted, hversions, -⟩ := writeVersion_eq_ok hwritten
        refine (newestWins_record_iff h hwins hmem hopen hid hversions).2 ?_
        cases promoted with
        | true =>
            refine ⟨fun _ => shows_of_promoted hwritten, fun hnot => ?_⟩
            exact ⟨c.fields.toSemanticFields,
              hstale hnew hpromoted.symm (writable_of_promoted hwritten) hnot,
              shows_of_promoted hwritten⟩
        | false =>
            have hdoc := promotedDocument_of_stale (h.current_ne_open hmem hopen) hwritten
            refine ⟨fun hnewer => ?_, fun hnot => ?_⟩
            · rw [h.promotes_of_newer hnewer] at hpromoted
              cases hpromoted
            · obtain ⟨f, hf⟩ := exists_shows_of_not_newer hwins hnot
              exact ⟨f, hf, (Shows.congr hdoc).2 hf⟩

end Step

theorem wellFormed_init (staged : StagedVersions) : WellFormed (History.init staged) := by
  refine ⟨?_, ?_, ?_, fun c hc => nomatch hc⟩
  · simpa [History.init, Function.comp_def] using staged.ids_nodup
  · simpa [History.init, Function.comp_def] using staged.createdAt_nodup
  · intro v hv
    obtain ⟨w, -, rfl⟩ := List.mem_map.1 hv
    simp [History.init]

theorem newestWins_init (u : Platform) (staged : StagedVersions) :
    NewestWins u (History.init staged) := by
  rintro w ⟨hw, hfinal, -⟩
  obtain ⟨v, -, rfl⟩ := List.mem_map.1 hw
  cases hfinal

/-! ## §6. Every order of calls. -/

/-- **The newest finalized content wins along a run exactly when no call of
it brings stale content.** -/
theorem newestWins_along_iff (u : Platform) (staged : StagedVersions) (calls : List Call) :
    Along (History.step u) (NewestWins u) (History.init staged) calls ↔
      Guarded (History.step u) (NoStaleContent u) (History.init staged) calls :=
  along_iff_guarded (fun s => WellFormed s ∧ NewestWins u s)
    ⟨wellFormed_init staged, newestWins_init u staged⟩
    (fun _ _ _ h hok hs => ⟨h.1.step hs, (NewestWins.step_iff h.1 h.2 hs).2 hok⟩)
    (fun _ h => h.2)
    (fun _ _ _ h hbad hs hwins => hbad ((NewestWins.step_iff h.1 h.2 hs).1 hwins)) calls

/-! ## §7. Three versions, two contents. -/

/-- Fields that differ by their class only. -/
def labelled (label : String) : PromotableFields where
  header := []
  court := .str "TJRS"
  className := .str label
  steps_increasing := noSteps_increasing

/-- Three versions, staged one after the other. -/
def threeVersions : StagedVersions where
  versions := [(1, 10), (2, 20), (3, 30)]
  ids_nodup := by decide
  createdAt_nodup := by decide

/-- The first is promoted, the third is equivalent to it, and the second
comes late with other content. -/
def lateCalls : List Call :=
  [⟨1, labelled "nova", 100⟩, ⟨3, labelled "nova", 200⟩, ⟨2, labelled "antiga", 300⟩]

/-- After `lateCalls` the third version is the newest finalized one, and the
second's content is promoted. -/
theorem lateCalls_shows :
    ∃ s ∈ run (History.step .ascii) (History.init threeVersions) lateCalls,
      (∃ w ∈ s.records.versions, w.id = 3 ∧ w.finalized = true ∧
        ∀ v ∈ s.records.versions, v.finalized = true → v.createdAt ≤ w.createdAt) ∧
      s.finalizedWith.lookup 3 = some (labelled "nova") ∧
      (promotedDocument .ascii s.records).toOption =
        some (promotableDocument .ascii (labelled "antiga").toSemanticFields) := by
  decide +kernel

/-- The two contents have different documents. -/
theorem labelled_ne :
    (promotableDocument .ascii (labelled "antiga").toSemanticFields).canon ≠
      (promotableDocument .ascii (labelled "nova").toSemanticFields).canon := by
  decide +kernel

/-- The newest finalized content does not win in every order. -/
theorem not_newestWins_lateCalls :
    ¬ ∀ (u : Platform) (staged : StagedVersions) (calls : List Call),
      Along (History.step u) (NewestWins u) (History.init staged) calls := by
  intro h
  obtain ⟨s, hs, ⟨w, hw, hid, hfinal, hmax⟩, hlookup, hdoc⟩ := lateCalls_shows
  have hwins : NewestWins .ascii s := (h .ascii threeVersions lateCalls).last hs
  obtain ⟨f, hf, d, hd, hcanon⟩ := hwins w ⟨hw, hfinal, hmax⟩
  rw [hid, hlookup] at hf
  obtain rfl := Option.some.inj hf
  rw [hd] at hdoc
  obtain rfl : d = _ := Option.some.inj hdoc
  exact labelled_ne hcanon

end Rpy.Processes

/-
  Rpy.Processes.Immutability
  ──────────────────────────
  **A FINALIZED VERSION NEVER CHANGES AGAIN** (`app/processes.py`,
  `sql/015_process_semantic_fingerprint.sql`).

  The upsert of `stage_version` keeps a finalized row as it is, and
  `finalize_version` returns before it writes; so the trigger, which would
  abort any other update, never fires.

    • `ProcessEntry.Keeps`, `Store.Keeps` — finalized rows and their steps stay,
    • `stageVersion_keeps`, `finalizeVersion_keeps` — one call,
    • `finalized_versions_immutable` — every run.
-/
import Rpy.Foundation.Machine
import Rpy.Processes.NewestWins
import Rpy.Processes.Staging

namespace Rpy.Processes

open Rpy.Foundation

/-- The steps of a version. -/
def ProcessEntry.stepsOf (p : ProcessEntry) (versionId : Uuid) : List StepRow :=
  p.steps.filter fun r => r.versionId == versionId

/-- The finalized versions of a process are in another as they are, with
their steps. -/
structure ProcessEntry.Keeps (p p' : ProcessEntry) : Prop where
  id_eq : p'.id = p.id
  finalized : ∀ v ∈ p.versions, v.finalized = true →
    v ∈ p'.versions ∧ p'.stepsOf v.id = p.stepsOf v.id

/-- Every finalized version stays as it is, with its steps. -/
def Store.Keeps (s s' : Store) : Prop :=
  ∀ p ∈ s.processes, ∃ p' ∈ s'.processes, p.Keeps p'

/-- Primary keys are unique. -/
structure Store.Keyed (s : Store) : Prop where
  processes : (s.processes.map ProcessEntry.id).Nodup
  versions : ∀ p ∈ s.processes, (p.versions.map fun v => v.id).Nodup

section Immutability

variable {u : Platform} {s s' : Store} {p p' : ProcessEntry}

/-- Nothing has changed. -/
theorem ProcessEntry.Keeps.refl (p : ProcessEntry) : p.Keeps p :=
  ⟨rfl, fun _ hv _ => ⟨hv, rfl⟩⟩

/-- One change after the other. -/
theorem ProcessEntry.Keeps.trans {p'' : ProcessEntry} (h : p.Keeps p') (h' : p'.Keeps p'') :
    p.Keeps p'' := by
  refine ⟨h'.id_eq.trans h.id_eq, fun v hv hfinal => ?_⟩
  obtain ⟨hv', hsteps⟩ := h.finalized v hv hfinal
  obtain ⟨hv'', hsteps'⟩ := h'.finalized v hv' hfinal
  exact ⟨hv'', hsteps'.trans hsteps⟩

/-- Nothing has changed. -/
theorem Store.Keeps.refl (s : Store) : s.Keeps s := fun p hp => ⟨p, hp, .refl p⟩

/-- One change after the other. -/
theorem Store.Keeps.trans {s'' : Store} (h : s.Keeps s') (h' : s'.Keeps s'') : s.Keeps s'' := by
  intro p hp
  obtain ⟨p', hp', hkeeps⟩ := h p hp
  obtain ⟨p'', hp'', hkeeps'⟩ := h' p' hp'
  exact ⟨p'', hp'', hkeeps.trans hkeeps'⟩

/-! ## §1. Replacing the rows of a process. -/

/-- A process with unique versions may replace the one with its id. -/
theorem Store.Keyed.replace (h : s.Keyed) (hversions : (p.versions.map fun v => v.id).Nodup) :
    (s.replace p).Keyed := by
  refine ⟨?_, fun q hq => ?_⟩
  · have hids : (s.replace p).processes.map ProcessEntry.id = s.processes.map ProcessEntry.id := by
      unfold Store.replace updateWhere
      rw [List.map_map]
      refine List.map_congr_left fun q _ => ?_
      show (if q.id == p.id then p else q).id = q.id
      split
      · next hid => exact (eq_of_beq hid).symm
      · rfl
    rw [hids]
    exact h.processes
  · rcases mem_updateWhere.1 hq with ⟨_, _, _, rfl⟩ | ⟨hmem, _⟩
    · exact hversions
    · exact h.versions q hmem

/-- What keeps the process keeps the store. -/
theorem Store.Keyed.keeps_replace (h : s.Keyed) (hp : p ∈ s.processes) (hkeeps : p.Keeps p') :
    s.Keeps (s.replace p') := by
  intro q hq
  by_cases hid : q.id = p.id
  · obtain rfl := List.inj_on_of_nodup_map h.processes hq hp hid
    refine ⟨p', mem_updateWhere.2 (.inl ⟨q, hq, ?_, rfl⟩), hkeeps⟩
    rw [hkeeps.id_eq]
    exact beq_self_eq_true _
  · refine ⟨q, mem_updateWhere.2 (.inr ⟨hq, ?_⟩), .refl q⟩
    rw [hkeeps.id_eq]
    exact beq_eq_false_iff_ne.2 hid

/-! ## §2. The trigger. -/

/-- An update that changes nothing passes the trigger. -/
theorem updateVersion_self (v : StoredVersion) : updateVersion v v = .ok v := by
  unfold updateVersion preventFinalizedVersionSourceMutation
  simp

/-- So does every update of an open version. -/
theorem updateVersion_open {old : StoredVersion} (h : old.finalized = false)
    (new : StoredVersion) : updateVersion old new = .ok new := by
  unfold updateVersion preventFinalizedVersionSourceMutation
  rw [h]
  rfl

/-- The upsert keeps a finalized row as it is. -/
theorem restage_finalized {old : StoredVersion} (h : old.finalized = true)
    (excluded : StoredVersion) : old.restage excluded = old := by
  unfold StoredVersion.restage
  simp only [h, if_true]

/-- Staging again leaves the id. -/
theorem restage_id (old excluded : StoredVersion) : (old.restage excluded).id = old.id := rfl

/-- **The upsert is never aborted by the trigger.** -/
theorem updateVersion_restage (old excluded : StoredVersion) :
    updateVersion old (old.restage excluded) = .ok (old.restage excluded) := by
  cases hfinal : old.finalized with
  | true =>
      rw [restage_finalized hfinal]
      exact updateVersion_self old
  | false => exact updateVersion_open hfinal _

/-! ## §3. Staging. -/

/-- What a staging does to the tables. -/
theorem upsertVersion_eq_ok {row : StoredVersion} {versionId : Uuid}
    (h : s.upsertVersion p row = .ok (versionId, s')) :
    (∃ old ∈ p.versions, s' = s.replace { p with
      versions := updateWhere (fun v => v.id == old.id) (fun _ => old.restage row) p.versions }) ∨
    ((∀ v ∈ s.versions, v.id ≠ row.id) ∧
      s' = s.replace { p with versions := p.versions ++ [row] }) := by
  unfold Store.upsertVersion at h
  split at h
  · next old hfind =>
      rw [updateVersion_restage] at h
      obtain ⟨_, hupdated, h⟩ := bind_eq_ok.1 h
      obtain ⟨_, _, h⟩ := bind_eq_ok.1 h
      rw [← Except.ok.inj hupdated] at h
      exact .inl ⟨old, List.mem_of_find?_eq_some hfind, (Prod.mk.inj (Except.ok.inj h)).2.symm⟩
  · split at h
    · cases h
    · next hfresh =>
        obtain ⟨_, _, h⟩ := bind_eq_ok.1 h
        refine .inr ⟨fun v hv hid => hfresh ?_, (Prod.mk.inj (Except.ok.inj h)).2.symm⟩
        exact List.any_eq_true.2 ⟨v, hv, beq_iff_eq.2 hid⟩

/-- The unique indexes do not raise for the trigger. -/
theorem checkIndexes_ne_immutable (s : Store) (v : StoredVersion) :
    s.checkIndexes v ≠ .error .immutable := by
  unfold Store.checkIndexes
  split
  · exact fun h => (nomatch h)
  · split
    · exact fun h => (nomatch h)
    · exact fun h => (nomatch h)

theorem mapError_finalize_ne {α : Type} (x : Except FinalizeError α) :
    x.mapError StoreError.finalize ≠ .error .immutable := by
  cases x with
  | error e => exact fun h => (nomatch h)
  | ok a => exact fun h => (nomatch h)

theorem nullableText_ne_immutable (column : String) (value : Option String) :
    nullableText column value ≠ .error .immutable := by
  cases value with
  | none => exact fun h => (nomatch h)
  | some s => exact mapError_finalize_ne _

theorem row_ne_immutable (a : StageArguments) (g : Generated) :
    a.row u g ≠ .error .immutable := by
  unfold StageArguments.row
  refine bind_ne_error (nullableText_ne_immutable _ _) fun _ _ => ?_
  refine bind_ne_error (mapError_finalize_ne _) fun _ _ => ?_
  refine bind_ne_error (nullableText_ne_immutable _ _) fun _ _ => ?_
  refine bind_ne_error (nullableText_ne_immutable _ _) fun _ _ => ?_
  exact bind_ne_error (nullableText_ne_immutable _ _) fun _ _ h => (nomatch h)

/-- The trigger does not abort the upsert. -/
theorem upsertVersion_ne_immutable (s : Store) (p : ProcessEntry) (row : StoredVersion) :
    s.upsertVersion p row ≠ .error .immutable := by
  unfold Store.upsertVersion
  split
  · next old _ =>
      rw [updateVersion_restage]
      refine bind_ne_error (fun h => (nomatch h)) fun _ _ => ?_
      exact bind_ne_error (checkIndexes_ne_immutable _ _) fun _ _ h => (nomatch h)
  · split
    · exact fun h => (nomatch h)
    · exact bind_ne_error (checkIndexes_ne_immutable _ _) fun _ _ h => (nomatch h)

theorem processOf_ne_immutable (s : Store) (code : String) (newId : Uuid) :
    s.processOf code newId ≠ .error .immutable := by
  unfold Store.processOf
  split
  · exact fun h => (nomatch h)
  · split
    · exact fun h => (nomatch h)
    · exact fun h => (nomatch h)

/-- **Staging never runs into the trigger.** -/
theorem stageVersion_ne_immutable (s : Store) (a : StageArguments) (g : Generated) :
    s.stageVersion u a g ≠ .error .immutable := by
  unfold Store.stageVersion
  refine bind_ne_error (mapError_finalize_ne _) fun _ _ => ?_
  refine bind_ne_error (processOf_ne_immutable _ _ _) fun _ _ => ?_
  refine bind_ne_error (row_ne_immutable _ _) fun _ _ => ?_
  exact bind_ne_error (upsertVersion_ne_immutable _ _ _) fun _ _ h => (nomatch h)

/-- The process of a code, among processes that were there or one more. -/
theorem processOf_eq_ok {code : String} {newId : Uuid}
    (h : s.processOf code newId = .ok (p, s')) (hs : s.Keyed) :
    s.Keeps s' ∧ s'.Keyed ∧ p ∈ s'.processes := by
  unfold Store.processOf at h
  split at h
  · next q hfind =>
      obtain ⟨rfl, rfl⟩ := Prod.mk.inj (Except.ok.inj h)
      exact ⟨.refl s, hs, List.mem_of_find?_eq_some hfind⟩
  · split at h
    · cases h
    · next hfresh =>
        obtain ⟨rfl, rfl⟩ := Prod.mk.inj (Except.ok.inj h)
        refine ⟨fun q hq => ⟨q, List.mem_append_left _ hq, .refl q⟩, ⟨?_, fun q hq => ?_⟩,
          List.mem_append_right _ List.mem_cons_self⟩
        · rw [List.map_append, List.map_singleton]
          refine List.Nodup.append hs.processes (List.nodup_singleton _) ?_
          intro id hid hnew
          obtain ⟨q, hq, rfl⟩ := List.mem_map.1 hid
          exact hfresh (List.any_eq_true.2 ⟨q, hq, beq_iff_eq.2 (List.mem_singleton.1 hnew)⟩)
        · rcases List.mem_append.1 hq with hq | hq
          · exact hs.versions q hq
          · rw [List.mem_singleton.1 hq]
            exact List.nodup_nil

/-- **Staging keeps every finalized version.** -/
theorem upsertVersion_keeps {row : StoredVersion} {versionId : Uuid} (hs : s.Keyed)
    (hp : p ∈ s.processes) (h : s.upsertVersion p row = .ok (versionId, s')) :
    s.Keeps s' ∧ s'.Keyed := by
  have hids := hs.versions p hp
  rcases upsertVersion_eq_ok h with ⟨old, hold, rfl⟩ | ⟨hfresh, rfl⟩
  · refine ⟨hs.keeps_replace hp ⟨rfl, fun v hv hfinal => ⟨?_, rfl⟩⟩, hs.replace ?_⟩
    · -- the row of the upsert is finalized and stays, or is another one
      by_cases hid : v.id = old.id
      · obtain rfl := List.inj_on_of_nodup_map hids hv hold hid
        refine mem_updateWhere.2 (.inl ⟨v, hv, beq_self_eq_true _, ?_⟩)
        exact (restage_finalized hfinal row).symm
      · exact mem_updateWhere.2 (.inr ⟨hv, beq_eq_false_iff_ne.2 hid⟩)
    · have hsame : (updateWhere (fun v : StoredVersion => v.id == old.id)
          (fun _ => old.restage row) p.versions).map (fun v => v.id) =
          p.versions.map fun v => v.id := by
        unfold updateWhere
        rw [List.map_map]
        refine List.map_congr_left fun v _ => ?_
        show (if v.id == old.id then old.restage row else v).id = v.id
        split
        · next hid => exact (eq_of_beq hid).symm
        · rfl
      show ((updateWhere _ _ p.versions).map fun v => v.id).Nodup
      rw [hsame]
      exact hids
  · refine ⟨hs.keeps_replace hp ⟨rfl, fun v hv _ => ⟨List.mem_append_left _ hv, rfl⟩⟩,
      hs.replace ?_⟩
    show ((p.versions ++ [row]).map fun v => v.id).Nodup
    rw [List.map_append, List.map_singleton]
    refine List.Nodup.append hids (List.nodup_singleton _) fun id hid hnew => ?_
    obtain ⟨v, hv, rfl⟩ := List.mem_map.1 hid
    exact hfresh v (List.mem_flatMap.2 ⟨p, hp, hv⟩) (List.mem_singleton.1 hnew)

/-- A grant leaves the processes. -/
theorem grant_processes (s : Store) (tenantId : Option Uuid) (processId : Uuid) :
    (s.grant tenantId processId).processes = s.processes := by
  unfold Store.grant
  split
  · rfl
  · split <;> rfl

/-- **Staging keeps what is finalized.** -/
theorem stageVersion_keeps {a : StageArguments} {g : Generated} {ids : Uuid × Uuid}
    (hs : s.Keyed) (h : s.stageVersion u a g = .ok (ids, s')) : s.Keeps s' ∧ s'.Keyed := by
  unfold Store.stageVersion at h
  obtain ⟨code, _, h⟩ := bind_eq_ok.1 h
  obtain ⟨⟨p, s₁⟩, hprocess, h⟩ := bind_eq_ok.1 h
  obtain ⟨row, _, h⟩ := bind_eq_ok.1 h
  obtain ⟨⟨versionId, s₂⟩, hupsert, h⟩ := bind_eq_ok.1 h
  obtain ⟨_, rfl⟩ := Prod.mk.inj (Except.ok.inj h)
  obtain ⟨hkeeps, hkeyed, hp⟩ := processOf_eq_ok hprocess hs
  have hprocesses := grant_processes s₁ a.tenantId p.id
  have hgranted : (s₁.grant a.tenantId p.id).Keyed :=
    ⟨hprocesses ▸ hkeyed.processes, hprocesses ▸ hkeyed.versions⟩
  obtain ⟨hkeeps', hkeyed'⟩ := upsertVersion_keeps hgranted (hprocesses ▸ hp) hupsert
  have hstart : s₁.Keeps s₂ := by
    unfold Store.Keeps at hkeeps' ⊢
    rwa [hprocesses] at hkeeps'
  exact ⟨hkeeps.trans hstart, hkeyed'⟩

/-! ## §4. Finalizing. -/

/-- The steps of another version stay when a version's steps are written. -/
theorem filter_written_of_ne {old new : List StepRow} {versionId k : Uuid}
    (hnew : ∀ r ∈ new, r.versionId = versionId) (hne : k ≠ versionId) :
    ((old.filter fun r => r.versionId ≠ versionId) ++ new).filter (fun r => r.versionId == k) =
      old.filter fun r => r.versionId == k := by
  have hnone : (new.filter fun r => r.versionId == k) = [] := by
    rw [List.filter_eq_nil_iff]
    intro r hr hk
    exact hne ((eq_of_beq hk).symm.trans (hnew r hr))
  rw [List.filter_append, hnone, List.append_nil, List.filter_filter]
  refine List.filter_congr fun r _ => ?_
  by_cases hk : r.versionId = k
  · simp [hk, hne]
  · simp [hk]

/-- What a finalization that returns does to the rows of a process: nothing
when the version was finalized, and otherwise the steps of the other
versions stay. -/
theorem finalizeVersion_records {s s' : ProcessRecords} {versionId : Uuid} {f : SemanticFields}
    {now : Timestamp} {promoted : Bool}
    (h : Processes.finalizeVersion u s versionId f now = .ok (promoted, s')) :
    ∃ candidate w, s.versions.find? (fun v => v.id == versionId) = some candidate ∧
      s'.versions.find? (fun v => v.id == versionId) = some w ∧
      ((candidate.finalized = true ∧ w = candidate ∧ s' = s) ∨
        (candidate.finalized = false ∧ ∀ k, k ≠ versionId →
          (s'.steps.filter fun r => r.versionId == k) =
            s.steps.filter fun r => r.versionId == k)) := by
  obtain ⟨candidate, hfind, hcases⟩ := finalizeVersion_eq_ok h
  have hid : candidate.id = versionId := key_of_find?_eq_some hfind
  have hfound : ∀ fingerprint equivalentTo, ∃ w,
      (finalizeRow s.versions versionId fingerprint equivalentTo now).find?
        (fun v => v.id == versionId) = some w := by
    intro fingerprint equivalentTo
    have hmem : candidate.finalize fingerprint equivalentTo now ∈
        finalizeRow s.versions candidate.id fingerprint equivalentTo now :=
      finalize_mem_finalizeRow (List.mem_of_find?_eq_some hfind)
    rw [hid] at hmem
    cases hw : (finalizeRow s.versions versionId fingerprint equivalentTo now).find?
        (fun v => v.id == versionId) with
    | some w => exact ⟨w, rfl⟩
    | none =>
        have hkey := List.find?_eq_none.1 hw _ hmem
        exact absurd (beq_iff_eq.2 hid) hkey
  rcases hcases with ⟨hfinal, rfl⟩ | ⟨hopen, _, _, hmarked⟩ | ⟨hopen, _, hwritten⟩
  · exact ⟨candidate, candidate, hfind, hfind, .inl ⟨hfinal, rfl, rfl⟩⟩
  · obtain ⟨_, _, hsteps, hversions⟩ := markEquivalent_eq_ok hmarked
    obtain ⟨w, hw⟩ := hfound (semanticFingerprint u f) s.process.currentVersionId
    refine ⟨candidate, w, hfind, hversions ▸ hw, .inr ⟨hopen, fun k _ => ?_⟩⟩
    rw [hsteps]
  · obtain ⟨_, hversions, ⟨rows, hrows, hsteps⟩, _, _⟩ := writeVersion_eq_ok hwritten
    obtain ⟨w, hw⟩ := hfound (semanticFingerprint u f) none
    rw [hid] at hversions hrows hsteps
    refine ⟨candidate, w, hfind, hversions ▸ hw, .inr ⟨hopen, fun k hk => ?_⟩⟩
    rw [hsteps]
    exact filter_written_of_ne (stepRows_eq_ok hrows).1 hk

/-- The rows of a process after a finalization, when the row written to a
finalized version is the one it has. -/
theorem finalized_eq {versionId : Uuid} {records : ProcessRecords} {w : VersionRow}
    (hw : records.versions.find? (fun v => v.id == versionId) = some w)
    (hsame : ∀ v ∈ p.versions, v.id = versionId → v.finalized = true → w = v.toVersionRow) :
    p.finalized versionId records = .ok { p with
      process := records.process
      versions := updateWhere (fun v => v.id == versionId)
        (fun v => { v with toVersionRow := w }) p.versions
      steps := records.steps
      attachments := records.attachments } := by
  have hversions : (p.versions.mapM fun v =>
      if v.id == versionId then updateVersion v { v with toVersionRow := w } else .ok v) =
      .ok (updateWhere (fun v => v.id == versionId)
        (fun v => { v with toVersionRow := w }) p.versions) := by
    refine mapM_eq_ok_map fun v hv => ?_
    by_cases hid : v.id = versionId
    · rw [if_pos (beq_iff_eq.2 hid), if_pos (beq_iff_eq.2 hid)]
      cases hfinal : v.finalized with
      | true =>
          rw [hsame v hv hid hfinal]
          exact updateVersion_self v
      | false => exact updateVersion_open hfinal _
    · have hno : ¬ (v.id == versionId) = true := fun hk => hid (eq_of_beq hk)
      rw [if_neg hno, if_neg hno]
  unfold ProcessEntry.finalized
  simp only [hw]
  rw [hversions]
  rfl

/-- **Finalizing keeps every finalized version**, and the trigger does not
abort it. -/
theorem finalized_keeps {versionId : Uuid} {f : SemanticFields} {now : Timestamp}
    {promoted : Bool} {records : ProcessRecords}
    (hids : (p.versions.map fun v => v.id).Nodup)
    (h : Processes.finalizeVersion u p.records versionId f now = .ok (promoted, records)) :
    ∃ p', p.finalized versionId records = .ok p' ∧ p.Keeps p' ∧
      (p'.versions.map fun v => v.id).Nodup := by
  obtain ⟨candidate, w, hfind, hw, hcases⟩ := finalizeVersion_records h
  have hwid : w.id = versionId := key_of_find?_eq_some hw
  have hcandidate : ∀ v ∈ p.versions, v.id = versionId → v.toVersionRow = candidate := by
    intro v hv hid
    obtain ⟨x, hx, rfl⟩ := List.mem_map.1 (List.mem_of_find?_eq_some hfind)
    have hxid : x.toVersionRow.id = versionId := key_of_find?_eq_some hfind
    rw [List.inj_on_of_nodup_map hids hv hx (hid.trans hxid.symm)]
  -- A version that is finalized already is returned as it is, with every record.
  have hsame : ∀ v ∈ p.versions, v.id = versionId → v.finalized = true →
      w = v.toVersionRow ∧ records = p.records := by
    intro v hv hid hfinal
    rcases hcases with ⟨_, hwc, hrecords⟩ | ⟨hopen, _⟩
    · exact ⟨hwc.trans (hcandidate v hv hid).symm, hrecords⟩
    · rw [← hcandidate v hv hid, hfinal] at hopen
      exact absurd hopen (by decide)
  refine ⟨_, finalized_eq hw fun v hv hid hfinal => (hsame v hv hid hfinal).1,
    ⟨rfl, fun v hv hfinal => ⟨?_, ?_⟩⟩, ?_⟩
  -- Its row: rewritten with the same values, or another row.
  · by_cases hid : v.id = versionId
    · refine mem_updateWhere.2 (.inl ⟨v, hv, beq_iff_eq.2 hid, ?_⟩)
      rw [(hsame v hv hid hfinal).1]
    · exact mem_updateWhere.2 (.inr ⟨hv, beq_eq_false_iff_ne.2 hid⟩)
  -- Its steps: those of another version are not touched.
  · show (records.steps.filter fun r => r.versionId == v.id) = p.stepsOf v.id
    by_cases hid : v.id = versionId
    · rw [(hsame v hv hid hfinal).2]
      rfl
    · rcases hcases with ⟨_, _, rfl⟩ | ⟨_, hsteps⟩
      · rfl
      · exact hsteps v.id hid
  · have hsameIds : (updateWhere (fun v : StoredVersion => v.id == versionId)
        (fun v => { v with toVersionRow := w }) p.versions).map (fun v => v.id) =
        p.versions.map fun v => v.id := by
      unfold updateWhere
      rw [List.map_map]
      refine List.map_congr_left fun v _ => ?_
      show (if v.id == versionId then { v with toVersionRow := w } else v).id = v.id
      split
      · next hid => exact hwid.trans (eq_of_beq hid).symm
      · rfl
    show ((updateWhere _ _ p.versions).map fun v => v.id).Nodup
    rw [hsameIds]
    exact hids

/-- **So does finalizing.** -/
theorem finalizeVersion_keeps {processId versionId : Uuid} {f : SemanticFields}
    {now : Timestamp} {promoted : Bool} (hs : s.Keyed)
    (h : s.finalizeVersion u processId versionId f now = .ok (promoted, s')) :
    s.Keeps s' ∧ s'.Keyed := by
  unfold Store.finalizeVersion at h
  split at h
  · cases h
  · next p hfind =>
      obtain ⟨⟨_, records⟩, hrecords, h⟩ := bind_eq_ok.1 h
      obtain ⟨q, hq, h⟩ := bind_eq_ok.1 h
      obtain ⟨_, rfl⟩ := Prod.mk.inj (Except.ok.inj h)
      have hp := List.mem_of_find?_eq_some hfind
      obtain ⟨p', hp', hkeeps, hids⟩ :=
        finalized_keeps (hs.versions p hp) (mapError_eq_ok.1 hrecords)
      obtain rfl : p' = q := Except.ok.inj (hp'.symm.trans hq)
      exact ⟨hs.keeps_replace hp hkeeps, hs.replace hids⟩

/-- **Nor does finalizing run into the trigger.** -/
theorem finalizeVersion_ne_immutable (hs : s.Keyed) (processId versionId : Uuid)
    (f : SemanticFields) (now : Timestamp) :
    s.finalizeVersion u processId versionId f now ≠ .error .immutable := by
  unfold Store.finalizeVersion
  split
  · exact fun h => (nomatch h)
  · next p hfind =>
      refine bind_ne_error (mapError_finalize_ne _) fun r hr => ?_
      obtain ⟨p', hp', _, _⟩ := finalized_keeps
        (hs.versions p (List.mem_of_find?_eq_some hfind)) (mapError_eq_ok.1 hr)
      refine bind_ne_error ?_ fun _ _ h => (nomatch h)
      rw [hp']
      exact fun h => (nomatch h)

/-! ## §5. Deliveries. -/

/-- Recording a delivery leaves the processes. -/
theorem recordDelivery_processes {e : LawsuitEvent}
    (h : s.recordDelivery u e = .ok (some s')) : s'.processes = s.processes := by
  unfold Store.recordDelivery at h
  split at h
  · rw [← Option.some.inj (Except.ok.inj h)]
  · obtain ⟨_, _, h⟩ := bind_eq_ok.1 h
    obtain ⟨_, _, h⟩ := bind_eq_ok.1 h
    obtain ⟨_, _, h⟩ := bind_eq_ok.1 h
    have h := Except.ok.inj h
    split at h
    · cases h
    · rw [← Option.some.inj h]

/-- Nor does it run into the trigger. -/
theorem recordDelivery_ne_immutable (s : Store) (e : LawsuitEvent) :
    s.recordDelivery u e ≠ .error .immutable := by
  unfold Store.recordDelivery
  split
  · exact fun h => (nomatch h)
  · refine bind_ne_error (mapError_finalize_ne _) fun _ _ => ?_
    refine bind_ne_error (mapError_finalize_ne _) fun _ _ => ?_
    exact bind_ne_error (mapError_finalize_ne _) fun _ _ h => (nomatch h)

/-- A webhook keeps what is finalized. -/
theorem webhook_keeps {e : LawsuitEvent} {webhookTenant : Option Uuid} {g : Generated}
    (hs : s.Keyed) (h : s.webhook u e webhookTenant g = .ok s') : s.Keeps s' ∧ s'.Keyed := by
  unfold Store.webhook at h
  obtain ⟨recorded, hrecorded, h⟩ := bind_eq_ok.1 h
  cases recorded with
  | none =>
      obtain rfl := Except.ok.inj h
      exact ⟨.refl s, hs⟩
  | some s₁ =>
      obtain ⟨⟨ids, s₂⟩, hstaged, h⟩ := bind_eq_ok.1 h
      obtain rfl := Except.ok.inj h
      have hprocesses := recordDelivery_processes hrecorded
      have hs₁ : s₁.Keyed := ⟨hprocesses ▸ hs.processes, hprocesses ▸ hs.versions⟩
      obtain ⟨hkeeps, hkeyed⟩ := stageVersion_keeps hs₁ hstaged
      unfold Store.Keeps at hkeeps ⊢
      rw [hprocesses] at hkeeps
      exact ⟨hkeeps, hkeyed⟩

/-- Nor does it run into the trigger. -/
theorem webhook_ne_immutable (s : Store) (e : LawsuitEvent) (webhookTenant : Option Uuid)
    (g : Generated) : s.webhook u e webhookTenant g ≠ .error .immutable := by
  unfold Store.webhook
  refine bind_ne_error (recordDelivery_ne_immutable s e) fun recorded _ => ?_
  cases recorded with
  | none => exact fun h => (nomatch h)
  | some s₁ =>
      exact bind_ne_error (stageVersion_ne_immutable s₁ _ g) fun _ _ h => (nomatch h)

/-! ## §6. Runs. -/

/-- **Every call keeps what is finalized.** -/
theorem apply_keeps {call : StoreCall} (hs : s.Keyed) (h : s.apply u call = .ok s') :
    s.Keeps s' ∧ s'.Keyed := by
  cases call with
  | stage a g =>
      obtain ⟨⟨ids, s₁⟩, hstaged, rfl⟩ := map_eq_ok.1 h
      exact stageVersion_keeps hs hstaged
  | finalize processId versionId f now =>
      obtain ⟨⟨promoted, s₁⟩, hfinalized, rfl⟩ := map_eq_ok.1 h
      exact finalizeVersion_keeps hs hfinalized
  | webhook e webhookTenant g => exact webhook_keeps hs h

/-- **No call runs into the trigger.** -/
theorem apply_ne_immutable (hs : s.Keyed) (call : StoreCall) :
    s.apply u call ≠ .error .immutable := by
  cases call with
  | stage a g => exact map_ne_error (stageVersion_ne_immutable s a g)
  | finalize processId versionId f now =>
      exact map_ne_error (finalizeVersion_ne_immutable hs processId versionId f now)
  | webhook e webhookTenant g => exact webhook_ne_immutable s e webhookTenant g

/-- A call that raises is rolled back. -/
theorem next_keeps (hs : s.Keyed) (call : StoreCall) :
    s.Keeps (s.next u call) ∧ (s.next u call).Keyed := by
  unfold Store.next
  split
  · next happly => exact apply_keeps hs happly
  · exact ⟨.refl s, hs⟩

/-- The empty store has unique keys. -/
theorem keyed_empty : ({} : Store).Keyed :=
  ⟨List.nodup_nil, fun _ hp => (nomatch hp)⟩

/-- **So has every store that is reached**, and it keeps what was finalized.
-/
theorem reachable_keyed (hs : s.Keyed) (h : Reachable (Store.step u) s s') :
    s.Keeps s' ∧ s'.Keyed := by
  induction h with
  | start => exact ⟨.refl s, hs⟩
  | next _ _ hstep ih =>
      obtain ⟨hkeeps, hkeyed⟩ := ih
      obtain rfl := Option.some.inj hstep
      obtain ⟨hkeeps', hkeyed'⟩ := next_keeps hkeyed _
      exact ⟨hkeeps.trans hkeeps', hkeyed'⟩

/-- **Finalized versions are immutable**: from any tables whose primary keys
are unique, no call is ever aborted by the trigger, and whatever calls follow
leave each finalized version as it is, with its steps. -/
theorem finalized_versions_immutable {s₀ : Store} (hs₀ : s₀.Keyed)
    (h : Reachable (Store.step u) s₀ s) :
    (∀ call, s.apply u call ≠ .error .immutable) ∧
      ∀ s', Reachable (Store.step u) s s' → s.Keeps s' := by
  obtain ⟨_, hkeyed⟩ := reachable_keyed hs₀ h
  exact ⟨apply_ne_immutable hkeyed, fun s' hs' => (reachable_keyed hkeyed hs').1⟩

end Immutability

/-! ## §7. A redelivery. -/

/-- A version is staged and finalized. -/
def finalizingCalls : List StoreCall :=
  [.stage
      { code := "50011456720248210001", sourceRequestId := some "resposta-1"
        cachedResponse := false, payload := .obj [("code", .str "a")] }
      { processId := 1, versionId := 2, now := 10 },
    .finalize 1 2 (labelled "nova").toSemanticFields 100]

/-- The same response with another payload, and a finalization with other
fields. -/
def redeliveringCalls : List StoreCall :=
  [.webhook
      { code := "50011456720248210001", requestId := "pedido-1", callbackId := none
        responseId := some "resposta-1", cachedResponse := true
        raw := .obj [("code", .str "b")], stable := rfl }
      none { processId := 3, versionId := 4, now := 200 },
    .finalize 1 2 (labelled "antiga").toSemanticFields 300]

/-- A version is finalized and then delivered again. -/
theorem finalized_versions_immutable_redelivered :
    ∃ s ∈ run (Store.step .ascii) {} finalizingCalls,
      (∃ p ∈ s.processes, ∃ v ∈ p.versions, v.finalized = true) ∧
      (∀ call, s.apply .ascii call ≠ .error .immutable) ∧
      ∃ s' ∈ run (Store.step .ascii) s redeliveringCalls, s.Keeps s' := by
  have hruns : ∃ s ∈ run (Store.step .ascii) {} finalizingCalls,
      (∃ p ∈ s.processes, ∃ v ∈ p.versions, v.finalized = true) ∧
        (run (Store.step .ascii) s redeliveringCalls).isSome = true := by
    decide +kernel
  obtain ⟨s, hs, hfinal, hsome⟩ := hruns
  obtain ⟨s', hs'⟩ := Option.isSome_iff_exists.1 hsome
  obtain ⟨hcalls, hkeeps⟩ := finalized_versions_immutable keyed_empty (reachable_of_run hs)
  exact ⟨s, hs, hfinal, hcalls, s', hs', hkeeps s' (reachable_of_run hs')⟩

end Rpy.Processes

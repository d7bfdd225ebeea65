/-
  Rpy.Publication.Stored
  ──────────────────────
  **WHAT A WRITE LEAVES, AND WHAT IS READ BACK**
  (`_persist_summary` of `app/rag.py`, `replace_summary_claim_evidence` and
  `load_summary_claim_evidence` of `app/claim_evidence.py`,
  `app/provenance.py`).

  A write that returns `True` leaves one row for the version, with the
  claims and sources of the call in place of the ones it had.  Everything
  about another summary stays.  Reading the claims of the row gives the
  claims of the call, each with the references it was given, in order.

    • `Stored`            — what such a write leaves,
    • `stored_of_write`   — and that it does,
    • `Tables.Keyed`      — claims have ids, and their sources a claim,
    • `Stored.load`       — the claims of the row,
    • `Stored.load_other` — and of any other,
    • `Stored.listed`     — the sources of the row.
-/
import Rpy.Publication.Persist

namespace Rpy.Publication

open Rpy.Foundation Rpy.Summaries
open Rpy.Attachments (Exn)

variable {u : Unicode} {t t' : Tables} {i : Incoming} {k : SummaryKey}

/-! ## §1. Columns. -/

theorem constraint_eq_ok {holds : Bool} {x : Unit} : constraint holds = .ok x ↔ holds = true := by
  cases holds with
  | true => exact ⟨fun _ => rfl, fun _ => rfl⟩
  | false => exact ⟨fun h => (nomatch h), fun h => (nomatch h)⟩

/-- What `json.dumps` writes is read as it was. -/
theorem loadsStrict_dumps {ascii : Bool} {value : Json} {text : String}
    (h : DataJud.dumps u ascii value = .ok text) : u.loadsStrict text = .ok value := by
  unfold DataJud.dumps at h
  split at h
  · rename_i hwritable
    obtain rfl := Except.ok.inj h
    unfold Unicode.loadsStrict
    rw [String.toList_ofList, ← Json.Style.write_writer]
    exact Json.Writer.loads_write (fun d hd => eq_of_beq hd) hwritable
  · cases h

theorem jsonbParameter_of_sent {column sent : String} {value value' stored : Json}
    (hsent : DataJud.encodeJson u value = .ok sent) (hread : u.loadsStrict sent = .ok value')
    (h : jsonbParameter u column value = .ok stored) : stored = u.jsonb value' := by
  unfold jsonbParameter at h
  rw [hsent] at h
  change ((u.loadsStrict sent).mapError _ >>= _) = _ at h
  rw [hread] at h
  exact Processes.jsonbColumn_eq_ok (mapError_eq_ok.1 h)

/-- An object comes back from its column in the form of the column. -/
theorem jsonbParameter_obj {column : String} {members : List (String × Json)} {stored : Json}
    (h : jsonbParameter u column (.obj members) = .ok stored) :
    stored = u.jsonb (.obj members) := by
  obtain ⟨sent, hsent, -⟩ := bind_eq_ok.1 h
  have hsent := mapError_eq_ok.1 hsent
  exact jsonbParameter_of_sent hsent (loadsStrict_dumps hsent) h

/-- And so does what `json.dumps` wrote. -/
theorem dumpedParameter_eq_ok {column : String} {value stored : Json}
    (h : dumpedParameter u column value = .ok stored) : stored = u.jsonb value := by
  obtain ⟨text, htext, h⟩ := bind_eq_ok.1 h
  have hread := loadsStrict_dumps (mapError_eq_ok.1 htext)
  exact jsonbParameter_of_sent (DataJud.encodeJson_of_json hread) hread h

/-- What can be written and stored is stored. -/
theorem jsonbParameter_of_read {column sent : String} {value value' : Json}
    (hsent : DataJud.encodeJson u value = .ok sent) (hread : u.loadsStrict sent = .ok value')
    (hstorable : value'.storable = true) :
    jsonbParameter u column value = .ok (u.jsonb value') := by
  unfold jsonbParameter
  rw [hsent]
  change ((u.loadsStrict sent).mapError _ >>= _) = _
  rw [hread]
  change (Processes.jsonbColumn u.toPlatform column value').mapError _ = _
  unfold Processes.jsonbColumn
  rw [if_pos hstorable]
  rfl

theorem dumps_of_writable {value : Json} (hwritable : DataJud.isWritable u value = true) :
    ∃ text, DataJud.dumps u true value = .ok text ∧ u.loadsStrict text = .ok value := by
  have hdumps : ∃ text, DataJud.dumps u true value = .ok text := by
    unfold DataJud.dumps
    rw [if_pos hwritable]
    exact ⟨_, rfl⟩
  obtain ⟨text, htext⟩ := hdumps
  exact ⟨text, htext, loadsStrict_dumps htext⟩

theorem jsonbParameter_ok {column : String} {members : List (String × Json)}
    (hwritable : DataJud.isWritable u (.obj members) = true)
    (hstorable : (Json.obj members).storable = true) :
    jsonbParameter u column (.obj members) = .ok (u.jsonb (.obj members)) := by
  obtain ⟨text, htext, hread⟩ := dumps_of_writable hwritable
  exact jsonbParameter_of_read htext hread hstorable

theorem dumpedParameter_ok {column : String} {value : Json}
    (hwritable : DataJud.isWritable u value = true) (hstorable : value.storable = true) :
    dumpedParameter u column value = .ok (u.jsonb value) := by
  obtain ⟨text, htext, hread⟩ := dumps_of_writable hwritable
  unfold dumpedParameter
  rw [htext]
  exact jsonbParameter_of_read (DataJud.encodeJson_of_json hread) hread hstorable

/-- The columns of a row, its id apart. -/
structure RowOf (u : Unicode) (i : Incoming) (row : SummaryRow) : Prop where
  processId : row.processId = i.processId
  versionId : row.versionId = i.versionId
  markdown : row.markdown = i.text
  validation : row.validation = u.jsonb (.obj i.validation)
  structuredOutput : row.structuredOutput =
    match i.structuredOutput with
    | none => .null
    | some members => u.jsonb (.obj members)
  model : row.model = i.model
  promptVersion : row.promptVersion = i.promptVersion

theorem row_of_columns {validation usage output : Json}
    (hvalidation : jsonbParameter u "validation" (.obj i.validation) = .ok validation)
    (husage : dumpedParameter u "usage" (.obj i.usage) = .ok usage)
    (houtput : i.outputColumn u = .ok output)
    (hconstraint : (Json.textStorable i.text && Json.textStorable i.model &&
      Json.textStorable i.promptVersion && isInteger i.generationMs) = true) :
    i.row u = .ok {
      id := i.freshId, processId := i.processId, versionId := i.versionId, markdown := i.text
      structuredOutput := output, validation, model := i.model
      promptVersion := i.promptVersion, generationMs := some i.generationMs, usage
      cacheHit := i.cacheHit, costUsd := i.costUsd, createdAt := i.now } := by
  unfold Incoming.row
  have hunit : constraint _ = .ok () := constraint_eq_ok.2 hconstraint
  rw [hvalidation, husage, houtput, hunit]
  rfl

theorem persistSummary_of_row {replace : Bool} {row : SummaryRow}
    (hreplace : t.replaceApproved u i = .ok replace) (hrow : i.row u = .ok row) :
    t.persistSummary u i = t.writeRow u i replace row := by
  unfold Tables.persistSummary Tables.writeSummary
  rw [hreplace, hrow]
  rfl

theorem rowOf_of_ok {row : SummaryRow} (h : i.row u = .ok row) : RowOf u i row := by
  obtain ⟨validation, hvalidation, h⟩ := bind_eq_ok.1 h
  obtain ⟨usage, -, h⟩ := bind_eq_ok.1 h
  obtain ⟨output, houtput, h⟩ := bind_eq_ok.1 h
  obtain ⟨_, -, h⟩ := bind_eq_ok.1 h
  obtain rfl := Except.ok.inj h
  refine ⟨rfl, rfl, rfl, jsonbParameter_obj hvalidation, ?_, rfl, rfl⟩
  unfold Incoming.outputColumn at houtput
  cases hmembers : i.structuredOutput with
  | none =>
      rw [hmembers] at houtput
      exact (Except.ok.inj houtput).symm
  | some members =>
      rw [hmembers] at houtput
      exact dumpedParameter_eq_ok houtput

/-! ## §2. The upsert. -/

theorem versionSummary_eq_some {processId versionId : Uuid} {s : SummaryRow}
    (h : t.versionSummary processId versionId = some s) :
    s ∈ t.summaries ∧ s.processId = processId ∧ s.versionId = versionId := by
  have hkeys := List.find?_some h
  rw [Bool.and_eq_true] at hkeys
  exact ⟨List.mem_of_find?_eq_some h, eq_of_beq hkeys.1, eq_of_beq hkeys.2⟩

/-- The row of a version is found. -/
theorem versionSummary_of_mem {s : SummaryRow} (hs : s ∈ t.summaries) :
    t.versionSummary s.processId s.versionId = some s := by
  refine find?_eq_some_of_unique hs ?_ fun s' hs' hkeys => ?_
  · rw [beq_self_eq_true, beq_self_eq_true]
    rfl
  · rw [Bool.and_eq_true] at hkeys
    exact eq_of_nodup_key t.summary_versions hs' hs
      (Prod.ext (eq_of_beq hkeys.1) (eq_of_beq hkeys.2))

/-- What the upsert leaves: the row of a version, and the other rows. -/
structure Upserted (t t' : Tables) (row : SummaryRow) (id : Uuid) : Prop where
  mem : { row with id := id } ∈ t'.summaries
  other : ∀ s : SummaryRow, s.id ≠ id → (s ∈ t'.summaries ↔ s ∈ t.summaries)
  /-- the row was there, or its id is new -/
  origin : (∃ s ∈ t.summaries, s.id = id ∧ s.processId = row.processId ∧
      s.versionId = row.versionId) ∨ id ∉ t.summaries.map SummaryRow.id
  rest : t' = { t with
    summaries := t'.summaries
    summary_ids := t'.summary_ids
    summary_versions := t'.summary_versions }

/-- A row that is overwritten was not passed, or is to be replaced. -/
theorem upsertSummary_eq_some {row : SummaryRow} {replace : Bool} {id : Uuid}
    (h : t.upsertSummary row replace = .ok (some (id, t'))) :
    Upserted t t' row id ∧
      ∀ s ∈ t.summaries, s.id = id → s.processId = row.processId ∧ s.versionId = row.versionId ∧
        ∃ passed, passedColumn s.validation = .ok passed ∧ (replace = true ∨ passed = false) := by
  unfold Tables.upsertSummary at h
  cases hfound : t.versionSummary row.processId row.versionId with
  -- `ON CONFLICT DO UPDATE`: the row of the version keeps its id, and is written only where
  -- the guard holds.
  | some old =>
      rw [hfound] at h
      obtain ⟨hold, hprocess, hversion⟩ := versionSummary_eq_some hfound
      obtain ⟨passed, hpassed, h⟩ := bind_eq_ok.1 h
      have h := Except.ok.inj h
      by_cases hwrites : (replace || !passed) = true
      · rw [if_pos hwrites] at h
        obtain ⟨rfl, rfl⟩ := Prod.ext_iff.1 (Option.some.inj h)
        have hfirst : ∀ s ∈ t.summaries, s.id = old.id → s = old := fun s hs hid =>
          eq_of_nodup_key t.summary_ids hs hold hid
        refine ⟨⟨?_, fun s hne => ?_, .inl ⟨old, hold, rfl, hprocess, hversion⟩, rfl⟩, ?_⟩
        · have hrow : ({ row with id := old.id } : SummaryRow) = row.overwrite old := by
            rw [SummaryRow.overwrite, hprocess, hversion]
          exact mem_updateWhere.2 (.inl ⟨old, hold, beq_self_eq_true old.id, hrow⟩)
        · constructor
          · intro hs
            rcases mem_updateWhere.1 hs with ⟨s₀, -, hs₀, rfl⟩ | ⟨hs, -⟩
            · exact absurd (eq_of_beq hs₀) hne
            · exact hs
          · exact fun hs => mem_updateWhere.2 (.inr ⟨hs, beq_eq_false_iff_ne.2 hne⟩)
        · intro s hs hid
          obtain rfl := hfirst s hs hid
          refine ⟨hprocess, hversion, passed, hpassed, ?_⟩
          rw [Bool.or_eq_true, Bool.not_eq_true'] at hwrites
          exact hwrites
      · rw [if_neg hwrites] at h
        cases h
  -- A new row.
  | none =>
      rw [hfound] at h
      by_cases hfree : row.id ∉ t.summaries.map SummaryRow.id ∧
          (row.processId, row.versionId) ∉ t.summaries.map fun s => (s.processId, s.versionId)
      · simp only [dif_pos hfree] at h
        obtain ⟨_, -, h⟩ := bind_eq_ok.1 h
        obtain ⟨rfl, rfl⟩ := Prod.ext_iff.1 (Option.some.inj (Except.ok.inj h))
        refine ⟨⟨List.mem_append_right _ (List.mem_singleton.2 rfl), fun s hne => ?_,
          .inr hfree.1, rfl⟩, fun s hs hid => ?_⟩
        · refine List.mem_append.trans ⟨fun hs => hs.resolve_right fun hrow => ?_, .inl⟩
          exact hne (congrArg SummaryRow.id (List.mem_singleton.1 hrow))
        · exact absurd (List.mem_map.2 ⟨s, hs, hid⟩) hfree.1
      · simp only [dif_neg hfree] at h
        cases h

/-! ## §3. The sources of the summary. -/

/-- What a movement's row holds of the source it was made of, and what that
was: the digest is stripped and lowered, and an empty one is none. -/
def MovementSourceRow.given (r : MovementSourceRow) :
    Option Uuid × Int × Option Timestamp × Int × String × List Json :=
  (some r.stepId, r.stepNumber, r.occurredAt, r.sourceOrder, r.sourceTextSha256.getD "",
    r.unicodeSecurityFlags)

def SelectedSource.given (u : Unicode) (source : SelectedSource) :
    Option Uuid × Int × Option Timestamp × Int × String × List Json :=
  (source.stepId, source.stepNumber, source.occurredAt, source.sourceOrder,
    u.lower (u.strip source.sourceTextSha256), source.unicodeSecurityFlags.map .str)

/-- The same of a piece of an attachment: its attachment's id is stripped too. -/
def AttachmentSourceRow.given (r : AttachmentSourceRow) :
    (Option Uuid × Option Uuid × String) × (Option Int × Option Int × Option Int × Option Int) ×
      String × Int × List Json :=
  ((some r.attachmentId, some r.attachmentChunkId, r.sourceAttachmentId),
    (r.pageStart, r.pageEnd, r.charStart, r.charEnd), r.contentSha256, r.sourceOrder,
    r.unicodeSecurityFlags)

def SelectedAttachment.given (u : Unicode) (source : SelectedAttachment) :
    (Option Uuid × Option Uuid × String) × (Option Int × Option Int × Option Int × Option Int) ×
      String × Int × List Json :=
  ((source.attachmentId, source.attachmentChunkId, u.strip source.sourceAttachmentId),
    (source.pageStart, source.pageEnd, source.charStart, source.charEnd),
    u.lower (u.strip source.contentSha256), source.sourceOrder,
    source.unicodeSecurityFlags.map .str)

/-- The same of a definition of the glossary: every text is stripped. -/
def GlossarySourceRow.given (r : GlossarySourceRow) : List String × Int :=
  ([r.kind, r.code, r.tpuVersion, r.publisher, r.source, r.sourceRef, r.definitionSha256],
    r.sourceOrder)

def SelectedGlossary.given (u : Unicode) (source : SelectedGlossary) : List String × Int :=
  ([source.kind, source.code, source.tpuVersion, source.publisher, source.source,
    source.sourceRef, source.definitionSha256].map u.strip, source.sourceOrder)

theorem unicodeFlags_eq_ok {flags : List String} {column : List Json}
    (h : unicodeFlags flags = .ok column) : column = flags.map .str := by
  obtain ⟨_, -, h⟩ := bind_eq_ok.1 h
  exact (Except.ok.inj h).symm

/-- The row of a movement. -/
theorem selectedSource_eq_ok {source : SelectedSource} {row : MovementSourceRow}
    (h : source.record u k = .ok row) :
    (row.summaryId = k.summaryId ∧ row.processId = k.processId ∧ row.versionId = k.versionId) ∧
      row.given = source.given u := by
  unfold SelectedSource.record at h
  cases hid : source.stepId with
  | none =>
      rw [hid] at h
      cases h
  | some id =>
      rw [hid] at h
      obtain ⟨flags, hflags, h⟩ := bind_eq_ok.1 h
      obtain rfl := Except.ok.inj h
      refine ⟨⟨rfl, rfl, rfl⟩, ?_⟩
      unfold MovementSourceRow.given SelectedSource.given
      rw [hid, unicodeFlags_eq_ok hflags]
      by_cases hempty : u.lower (u.strip source.sourceTextSha256) = ""
      · rw [if_pos hempty, hempty]
        rfl
      · rw [if_neg hempty]
        rfl

/-- The row of a piece of an attachment. -/
theorem selectedAttachment_eq_ok {source : SelectedAttachment} {row : AttachmentSourceRow}
    (h : source.record u k = .ok row) :
    row.summaryId = k.summaryId ∧ row.given = source.given u := by
  unfold SelectedAttachment.record at h
  cases hid : source.attachmentId with
  | none =>
      rw [hid] at h
      cases h
  | some id =>
      cases hchunk : source.attachmentChunkId with
      | none =>
          rw [hid, hchunk] at h
          cases h
      | some chunk =>
          rw [hid, hchunk] at h
          obtain ⟨_, -, h⟩ := bind_eq_ok.1 h
          obtain ⟨_, -, h⟩ := bind_eq_ok.1 h
          obtain ⟨flags, hflags, h⟩ := bind_eq_ok.1 h
          obtain rfl := Except.ok.inj h
          refine ⟨rfl, ?_⟩
          unfold AttachmentSourceRow.given SelectedAttachment.given
          rw [hid, hchunk, unicodeFlags_eq_ok hflags]

/-- The row of a definition of the glossary. -/
theorem selectedGlossary_eq_ok {source : SelectedGlossary} {row : GlossarySourceRow}
    (h : source.record u k = .ok row) :
    row.summaryId = k.summaryId ∧ row.given = source.given u := by
  obtain ⟨_, -, h⟩ := bind_eq_ok.1 h
  obtain ⟨_, -, h⟩ := bind_eq_ok.1 h
  obtain ⟨_, -, h⟩ := bind_eq_ok.1 h
  obtain rfl := Except.ok.inj h
  exact ⟨rfl, rfl⟩

/-- `DELETE … WHERE summary_id = $1` and the rows that are inserted then: the
rows of the summary are the ones of the call, and the others stay. -/
structure Replaced {ρ : Type} (summaryId : ρ → Uuid) (id : Uuid) (old new records : List ρ) :
    Prop where
  eq : new = old.filter (fun r => summaryId r != id) ++ records
  records : ∀ r ∈ records, summaryId r = id

section Replaced

variable {ρ : Type} {summaryId : ρ → Uuid} {id : Uuid} {old new records : List ρ}

theorem Replaced.of_mapM {σ : Type} {f : σ → Except PersistError ρ} {items : List σ}
    (hitems : items.mapM f = .ok records) (hf : ∀ item r, f item = .ok r → summaryId r = id) :
    Replaced summaryId id old (old.filter (fun r => summaryId r != id) ++ records) records where
  eq := rfl
  records := fun r hr => by
    obtain ⟨item, -, hitem⟩ := exists_of_forall₂_right (forall₂_of_mapM_eq_ok hitems) hr
    exact hf item r hitem

/-- What is read of the summary. -/
theorem Replaced.filter_eq (h : Replaced summaryId id old new records) :
    new.filter (fun r => summaryId r == id) = records := by
  have hold : (old.filter fun r => summaryId r != id).filter (fun r => summaryId r == id) = [] := by
    refine List.filter_eq_nil_iff.2 fun r hr hid => ?_
    exact absurd (eq_of_beq hid) (bne_iff_ne.1 (List.mem_filter.1 hr).2)
  rw [h.eq, List.filter_append, hold, List.nil_append, List.filter_eq_self]
  exact fun r hr => beq_iff_eq.2 (h.records r hr)

/-- What is read of another summary. -/
theorem Replaced.filter_other (h : Replaced summaryId id old new records) {other : Uuid}
    (hne : other ≠ id) :
    new.filter (fun r => summaryId r == other) = old.filter fun r => summaryId r == other := by
  have hrecords : records.filter (fun r => summaryId r == other) = [] := by
    refine List.filter_eq_nil_iff.2 fun r hr hid => hne ?_
    exact (eq_of_beq hid).symm.trans (h.records r hr)
  rw [h.eq, List.filter_append, hrecords, List.append_nil, List.filter_filter]
  refine List.filter_congr fun r _ => ?_
  rw [Bool.and_eq_left_iff_imp]
  exact fun hid => bne_iff_ne.2 (eq_of_beq hid ▸ hne)

/-- A row of another summary is there as before. -/
theorem Replaced.mem_other (h : Replaced summaryId id old new records) {r : ρ}
    (hr : summaryId r ≠ id) : r ∈ new ↔ r ∈ old := by
  rw [h.eq, List.mem_append, List.mem_filter, bne_iff_ne]
  exact ⟨fun hmem => hmem.elim And.left fun hrec => absurd (h.records r hrec) hr,
    fun hmem => .inl ⟨hmem, hr⟩⟩

end Replaced

/-- The rows of a call's items are made, checked, and put in the place of the
ones there were. -/
theorem replacement_eq_ok {ρ σ : Type} {record : σ → Except PersistError ρ} {items : List σ}
    {holds : List ρ → Bool} {put : List ρ → Tables}
    (h : (do
      let records ← items.mapM record
      constraint (holds records)
      return put records) = .ok t') :
    ∃ records, items.mapM record = .ok records ∧ t' = put records := by
  obtain ⟨records, hrecords, h⟩ := bind_eq_ok.1 h
  obtain ⟨_, -, h⟩ := bind_eq_ok.1 h
  exact ⟨records, hrecords, (Except.ok.inj h).symm⟩

/-! ## §4. The claims of the summary. -/

/-- The rows of the references of a claim, where all of them are known. -/
def Incoming.sourceRows (i : Incoming) (k : SummaryKey) (entry : Uuid × MaterialClaim) :
    List ClaimSourceRow :=
  (entry.2.evidenceRefs.zipIdx.mapM (i.sourceRow k entry)).toOption.getD []

/-- What the insertion of claims leaves. -/
structure Inserted (i : Incoming) (k : SummaryKey) (entries : List (Uuid × MaterialClaim))
    (t t' : Tables) : Prop where
  eq : t' = { t with
    claims := t.claims ++ entries.map (i.claimRow k)
    claimSources := t.claimSources ++ entries.flatMap (i.sourceRows k) }
  fresh : ∀ e ∈ entries, ∀ c ∈ t.claims, c.id ≠ e.1
  distinct : (entries.map Prod.fst).Nodup
  rows : ∀ e ∈ entries, e.2.evidenceRefs.zipIdx.mapM (i.sourceRow k e) = .ok (i.sourceRows k e)
  scope : ∀ e ∈ entries, ∃ s ∈ t.summaries, s.id = k.summaryId ∧ s.processId = k.processId ∧
    s.versionId = k.versionId
  hold : ∀ e ∈ entries, ∀ s ∈ i.sourceRows k e,
    t.claimSourceHolds (i.claimRow k e) s = true ∧ digestHolds s.evidenceExcerptSha256 = true

/-- One round of the loop. -/
theorem inserted_of_insertClaim {e : Uuid × MaterialClaim}
    (h : Tables.insertClaim i k t e = .ok t') : Inserted i k [e] t t' := by
  obtain ⟨_, hclaim, h⟩ := bind_eq_ok.1 h
  obtain ⟨rows, hrows, h⟩ := bind_eq_ok.1 h
  obtain ⟨_, hsources, h⟩ := bind_eq_ok.1 h
  obtain rfl := Except.ok.inj h
  have hsame : i.sourceRows k e = rows := by
    unfold Incoming.sourceRows
    rw [hrows]
    rfl
  have hclaim := constraint_eq_ok.1 hclaim
  unfold ClaimRow.holds at hclaim
  simp only [Bool.and_eq_true, List.all_eq_true, List.any_eq_true, bne_iff_ne, beq_iff_eq]
    at hclaim
  have hsources := (Bool.and_eq_true _ _).mp (constraint_eq_ok.1 hsources)
  refine ⟨?_, ?_, List.nodup_singleton _, ?_, ?_, ?_⟩
  · rw [List.map_singleton, List.flatMap_singleton, hsame]
  · exact List.forall_mem_singleton.2 fun c hc => hclaim.1.1.1.2 c hc
  · exact List.forall_mem_singleton.2 (hsame ▸ hrows)
  · refine List.forall_mem_singleton.2 ?_
    obtain ⟨s, hs, ⟨hid, hprocess⟩, hversion⟩ := hclaim.2
    exact ⟨s, hs, hid, hprocess, hversion⟩
  · refine List.forall_mem_singleton.2 fun s hs => ?_
    have hs := List.all_eq_true.1 hsources.1 s (hsame ▸ hs)
    unfold ClaimSourceRow.holds at hs
    simp only [Bool.and_eq_true] at hs
    exact ⟨hs.1.2, hs.1.1.1.1.1.2⟩

theorem Inserted.cons {e : Uuid × MaterialClaim} {entries : List (Uuid × MaterialClaim)}
    {t'' : Tables} (h : Inserted i k [e] t t') (h' : Inserted i k entries t' t'') :
    Inserted i k (e :: entries) t t'' := by
  obtain rfl := h.eq
  refine ⟨?_, ?_, ?_, ?_, ?_, ?_⟩
  · rw [h'.eq]
    simp only [List.map_cons, List.map_nil, List.flatMap_cons, List.flatMap_nil, List.append_nil,
      List.append_assoc, List.singleton_append]
  · refine List.forall_mem_cons.2 ⟨h.fresh e List.mem_cons_self, fun e' he' c hc => ?_⟩
    exact h'.fresh e' he' c (List.mem_append_left _ hc)
  · refine List.nodup_cons.2 ⟨fun hmem => ?_, h'.distinct⟩
    obtain ⟨e', he', hid⟩ := List.mem_map.1 hmem
    exact h'.fresh e' he' (i.claimRow k e) (List.mem_append_right _ List.mem_cons_self) hid.symm
  · exact List.forall_mem_cons.2 ⟨h.rows e List.mem_cons_self, h'.rows⟩
  · exact List.forall_mem_cons.2 ⟨h.scope e List.mem_cons_self, h'.scope⟩
  · exact List.forall_mem_cons.2 ⟨h.hold e List.mem_cons_self, h'.hold⟩

/-- **The loop over the claims inserts a row for each, and the rows of its
references.** -/
theorem inserted_of_foldlM {entries : List (Uuid × MaterialClaim)}
    (h : entries.foldlM (Tables.insertClaim i k) t = .ok t') : Inserted i k entries t t' := by
  induction entries generalizing t with
  | nil =>
      obtain rfl := Except.ok.inj h
      refine ⟨?_, List.forall_mem_nil _, List.nodup_nil, List.forall_mem_nil _,
        List.forall_mem_nil _, List.forall_mem_nil _⟩
      rw [List.map_nil, List.flatMap_nil, List.append_nil, List.append_nil]
  | cons e entries ih =>
      obtain ⟨m, hm, hrest⟩ := foldlM_cons_eq_ok.1 h
      exact (inserted_of_insertClaim hm).cons (ih hrest)

/-! ## §5. The write. -/

/-- **What a write that returns `True` leaves.** -/
structure Stored (u : Unicode) (t t' : Tables) (i : Incoming) (k : SummaryKey) : Prop where
  processId : k.processId = i.processId
  versionId : k.versionId = i.versionId
  row : ∃ t₀ row, RowOf u i row ∧ Upserted t t₀ row k.summaryId ∧ t'.summaries = t₀.summaries
  processes : t'.processes = t.processes
  versions : t'.versions = t.versions
  steps : t'.steps = t.steps
  movements : ∃ records, i.selectedSources.mapM (SelectedSource.record u k) = .ok records ∧
    Replaced MovementSourceRow.summaryId k.summaryId t.movementSources t'.movementSources records
  attachments : ∃ records,
    i.attachmentSources.mapM (SelectedAttachment.record u k) = .ok records ∧
      Replaced AttachmentSourceRow.summaryId k.summaryId t.attachmentSources t'.attachmentSources
        records
  glossary : ∃ records, i.glossarySources.mapM (SelectedGlossary.record u k) = .ok records ∧
    Replaced GlossarySourceRow.summaryId k.summaryId t.glossarySources t'.glossarySources records
  claims : t'.claims =
    t.claims.filter (fun c => c.summaryId != k.summaryId) ++ i.claims.map (i.claimRow k)
  claimSources : t'.claimSources =
    (t.deleteClaims k.summaryId).claimSources ++ i.claims.flatMap (i.sourceRows k)
  fresh : ∀ e ∈ i.claims, ∀ c ∈ t.claims, c.summaryId ≠ k.summaryId → c.id ≠ e.1
  distinct : (i.claims.map Prod.fst).Nodup
  rows : ∀ e ∈ i.claims, e.2.evidenceRefs.zipIdx.mapM (i.sourceRow k e) = .ok (i.sourceRows k e)
  hold : ∀ e ∈ i.claims, ∀ s ∈ i.sourceRows k e,
    t'.claimSourceHolds (i.claimRow k e) s = true ∧ digestHolds s.evidenceExcerptSha256 = true

/-- **A write that returns `True`**: it stores what it was given, and the row
that was there had not passed, or was to be replaced. -/
theorem stored_of_write {replace : Bool} (h : t.writeSummary u i replace = .ok (true, t')) :
    ∃ k, Stored u t t' i k ∧
      ∀ s ∈ t.summaries, s.id = k.summaryId → s.processId = i.processId ∧
        s.versionId = i.versionId ∧
        ∃ passed, passedColumn s.validation = .ok passed ∧ (replace = true ∨ passed = false) := by
  obtain ⟨row, hrow, h⟩ := bind_eq_ok.1 h
  obtain ⟨written, hwritten, h⟩ := bind_eq_ok.1 h
  have hcolumns := rowOf_of_ok hrow
  cases written with
  | none => cases h
  | some written =>
      obtain ⟨id, t₀⟩ := written
      obtain ⟨t₁, h₁, h⟩ := bind_eq_ok.1 h
      obtain ⟨t₂, h₂, h⟩ := bind_eq_ok.1 h
      obtain ⟨t₃, h₃, h⟩ := bind_eq_ok.1 h
      obtain ⟨t₄, h₄, h⟩ := bind_eq_ok.1 h
      obtain ⟨-, rfl⟩ := Prod.ext_iff.1 (Except.ok.inj h)
      -- The upsert, then the three replacements around the claims: each writes one table.
      obtain ⟨hupserted, hold⟩ := upsertSummary_eq_some hwritten
      obtain ⟨movements, hmovements, rfl⟩ := replacement_eq_ok h₁
      obtain ⟨attachments, hattachments, rfl⟩ := replacement_eq_ok h₂
      have hclaims := inserted_of_foldlM h₃
      obtain ⟨glossary, hglossary, rfl⟩ := replacement_eq_ok h₄
      obtain rfl := hclaims.eq
      have hrest := hupserted.rest
      have hprocesses : t₀.processes = t.processes := (congrArg Tables.processes hrest).trans rfl
      have hversions : t₀.versions = t.versions := (congrArg Tables.versions hrest).trans rfl
      have hsteps : t₀.steps = t.steps := (congrArg Tables.steps hrest).trans rfl
      have hrows : t₀.claims = t.claims := (congrArg Tables.claims hrest).trans rfl
      have hsources : t₀.claimSources = t.claimSources := (congrArg Tables.claimSources hrest).trans rfl
      have hmovementRows : t₀.movementSources = t.movementSources :=
        (congrArg Tables.movementSources hrest).trans rfl
      have hattachmentRows : t₀.attachmentSources = t.attachmentSources :=
        (congrArg Tables.attachmentSources hrest).trans rfl
      have hglossaryRows : t₀.glossarySources = t.glossarySources :=
        (congrArg Tables.glossarySources hrest).trans rfl
      refine ⟨⟨id, i.processId, i.versionId⟩, ⟨rfl, rfl, ⟨t₀, row, hcolumns, hupserted, rfl⟩,
        hprocesses, hversions, hsteps, ⟨movements, hmovements, ?_⟩,
        ⟨attachments, hattachments, ?_⟩, ⟨glossary, hglossary, ?_⟩, ?_, ?_, ?_,
        hclaims.distinct, hclaims.rows, hclaims.hold⟩, ?_⟩
      · rw [← hmovementRows]
        exact Replaced.of_mapM hmovements fun _ _ h => (selectedSource_eq_ok h).1.1
      · rw [← hattachmentRows]
        exact Replaced.of_mapM hattachments fun _ _ h => (selectedAttachment_eq_ok h).1
      · rw [← hglossaryRows]
        exact Replaced.of_mapM hglossary fun _ _ h => (selectedGlossary_eq_ok h).1
      · rw [← hrows]
        rfl
      · have hsame : (t₀.deleteClaims id).claimSources = (t.deleteClaims id).claimSources := by
          unfold Tables.deleteClaims
          simp only [hrows, hsources]
        rw [← hsame]
        rfl
      -- A claim row of another summary has another id than the new ones.
      · intro e he c hc hne
        refine hclaims.fresh e he c (List.mem_filter.2 ⟨?_, bne_iff_ne.2 hne⟩)
        show c ∈ t₀.claims
        rw [hrows]
        exact hc
      · intro s hs hid
        obtain ⟨hprocess, hversion, hpassed⟩ := hold s hs hid
        exact ⟨hprocess.trans hcolumns.processId, hversion.trans hcolumns.versionId, hpassed⟩

/-- The row of the summary has the columns of the call. -/
theorem Stored.rowOf (h : Stored u t t' i k) {s : SummaryRow} (hs : s ∈ t'.summaries)
    (hid : s.id = k.summaryId) : RowOf u i s := by
  obtain ⟨t₀, row, hrow, hupserted, hsummaries⟩ := h.row
  have hmem := hsummaries ▸ hupserted.mem
  obtain rfl := eq_of_nodup_key t'.summary_ids hs hmem hid
  exact ⟨hrow.processId, hrow.versionId, hrow.markdown, hrow.validation, hrow.structuredOutput,
    hrow.model, hrow.promptVersion⟩

/-- A write that returns `False` changes nothing. -/
theorem eq_of_write_false {replace : Bool} (h : t.writeSummary u i replace = .ok (false, t')) :
    t' = t := by
  obtain ⟨row, -, h⟩ := bind_eq_ok.1 h
  obtain ⟨written, -, h⟩ := bind_eq_ok.1 h
  cases written with
  | none => exact ((Prod.ext_iff.1 (Except.ok.inj h)).2).symm
  | some written =>
      obtain ⟨t₁, -, h⟩ := bind_eq_ok.1 h
      obtain ⟨t₂, -, h⟩ := bind_eq_ok.1 h
      obtain ⟨t₃, -, h⟩ := bind_eq_ok.1 h
      obtain ⟨t₄, -, h⟩ := bind_eq_ok.1 h
      exact Bool.noConfusion (Prod.ext_iff.1 (Except.ok.inj h)).1

/-! ## §6. What is read back. -/

/-- `PRIMARY KEY (id)` of the claims, and `REFERENCES process_summary_claims
(id)` of their sources. -/
structure Tables.Keyed (t : Tables) : Prop where
  ids : (t.claims.map ClaimRow.id).Nodup
  claimed : ∀ s ∈ t.claimSources, ∃ c ∈ t.claims, c.id = s.claimRowId

/-- The sources that are kept have a claim of another summary. -/
theorem Tables.Keyed.kept_source (hkeyed : t.Keyed) {id : Uuid} {s : ClaimSourceRow}
    (hs : s ∈ (t.deleteClaims id).claimSources) :
    ∃ c ∈ t.claims, c.summaryId ≠ id ∧ c.id = s.claimRowId := by
  obtain ⟨hs, hkept⟩ := List.mem_filter.1 hs
  obtain ⟨c, hc, hid⟩ := hkeyed.claimed s hs
  refine ⟨c, hc, fun hgone => ?_, hid⟩
  rw [Bool.not_eq_true', List.contains_eq_mem, decide_eq_false_iff_not] at hkept
  exact hkept (List.mem_map.2 ⟨c, List.mem_filter.2 ⟨hc, beq_iff_eq.2 hgone⟩, hid⟩)

/-- A claim of the call as it is loaded. -/
def Incoming.loadedClaim (i : Incoming) (k : SummaryKey) (entry : Uuid × MaterialClaim) :
    LoadedClaim where
  row := i.claimRow k entry
  sources := i.sourceRows k entry

section Rows

variable {e : Uuid × MaterialClaim} {rows : List ClaimSourceRow}

/-- What every row of a reference says. -/
theorem sourceRow_eq_ok {item : String × Nat} {s : ClaimSourceRow}
    (h : i.sourceRow k e item = .ok s) : s.claimRowId = e.1 ∧ s.summaryId = k.summaryId ∧
      s.evidenceRef = item.1 ∧ s.sourceOrder = item.2 := by
  unfold Incoming.sourceRow at h
  split at h
  · cases h
  · obtain rfl := Except.ok.inj h
    exact ⟨rfl, rfl, rfl, rfl⟩

theorem sourceRows_claimRowId (hrows : e.2.evidenceRefs.zipIdx.mapM (i.sourceRow k e) = .ok rows) :
    ∀ s ∈ rows, s.claimRowId = e.1 := by
  intro s hs
  obtain ⟨item, -, hitem⟩ := exists_of_forall₂_right (forall₂_of_mapM_eq_ok hrows) hs
  exact (sourceRow_eq_ok hitem).1

/-- The references of the rows are the ones of the claim, in order. -/
theorem sourceRows_evidenceRef
    (hrows : e.2.evidenceRefs.zipIdx.mapM (i.sourceRow k e) = .ok rows) :
    rows.map ClaimSourceRow.evidenceRef = e.2.evidenceRefs := by
  rw [map_of_mapM_eq_ok hrows fun _ _ h => (sourceRow_eq_ok h).2.2.1]
  exact List.zipIdx_map_fst 0 _

/-- They are numbered as they come. -/
theorem sourceRows_pairwise (hrows : e.2.evidenceRefs.zipIdx.mapM (i.sourceRow k e) = .ok rows) :
    rows.Pairwise fun a b => a.sourceOrder ≤ b.sourceOrder := by
  rw [← List.pairwise_map, map_of_mapM_eq_ok hrows fun _ _ h => (sourceRow_eq_ok h).2.2.2,
    ← Function.comp_def, ← List.map_map, List.pairwise_map, List.zipIdx_map_snd]
  exact List.pairwise_le_range'.imp fun h => Int.ofNat_le.2 h

end Rows

section Read

variable (h : Stored u t t' i k) (hkeyed : t.Keyed)
include h hkeyed

/-- Claims have ids, and their sources a claim, after the write as well. -/
theorem Stored.keyed : t'.Keyed := by
  constructor
  · rw [h.claims, List.map_append, List.map_map]
    refine List.Nodup.append ((List.filter_sublist.map _).nodup hkeyed.ids) h.distinct ?_
    intro id hold hnew
    obtain ⟨c, hc, rfl⟩ := List.mem_map.1 hold
    obtain ⟨e, he, hid⟩ := List.mem_map.1 hnew
    obtain ⟨hc, hne⟩ := List.mem_filter.1 hc
    exact h.fresh e he c hc (bne_iff_ne.1 hne) hid.symm
  · intro s hs
    rw [h.claimSources] at hs
    rw [h.claims]
    rcases List.mem_append.1 hs with hs | hs
    · obtain ⟨c, hc, hne, hid⟩ := hkeyed.kept_source hs
      exact ⟨c, List.mem_append_left _ (List.mem_filter.2 ⟨hc, bne_iff_ne.2 hne⟩), hid⟩
    · obtain ⟨e, he, hs⟩ := List.mem_flatMap.1 hs
      exact ⟨i.claimRow k e, List.mem_append_right _ (List.mem_map_of_mem he),
        (sourceRows_claimRowId (h.rows e he) s hs).symm⟩

/-- The sources of a claim of the call are the rows of its references. -/
theorem Stored.sources_of_claim {e : Uuid × MaterialClaim} (he : e ∈ i.claims) :
    ((t'.claimSources.filter fun s => s.claimRowId == e.1 &&
      t'.claimSourceHolds (i.claimRow k e) s).insertionSort
        fun a b => a.sourceOrder ≤ b.sourceOrder) = i.sourceRows k e := by
  have hkept : (t.deleteClaims k.summaryId).claimSources.filter (fun s => s.claimRowId == e.1 &&
      t'.claimSourceHolds (i.claimRow k e) s) = [] := by
    refine List.filter_eq_nil_iff.2 fun s hs hmatch => ?_
    obtain ⟨c, hc, hne, hid⟩ := hkeyed.kept_source hs
    have hid' := eq_of_beq ((Bool.and_eq_true _ _).mp hmatch).1
    exact h.fresh e he c hc hne (hid.trans hid')
  have hown : (i.sourceRows k e).filter (fun s => s.claimRowId == e.1 &&
      t'.claimSourceHolds (i.claimRow k e) s) = i.sourceRows k e := by
    refine List.filter_eq_self.2 fun s hs => ?_
    rw [sourceRows_claimRowId (h.rows e he) s hs, (h.hold e he s hs).1, beq_self_eq_true]
    rfl
  have hothers : ∀ e' ∈ i.claims, e'.1 ≠ e.1 → (i.sourceRows k e').filter (fun s =>
      s.claimRowId == e.1 && t'.claimSourceHolds (i.claimRow k e) s) = [] := by
    intro e' he' hne
    refine List.filter_eq_nil_iff.2 fun s hs hmatch => hne ?_
    rw [← sourceRows_claimRowId (h.rows e' he') s hs]
    exact eq_of_beq ((Bool.and_eq_true _ _).mp hmatch).1
  rw [h.claimSources, List.filter_append, hkept, List.nil_append, List.filter_flatMap,
    flatMap_eq_of_unique h.distinct he hothers, hown]
  exact (sourceRows_pairwise (h.rows e he)).insertionSort_eq

/-- **The claims of the row are the claims of the call**, by their ids, where
the version is one of the process. -/
theorem Stored.load (hversion : ∃ v ∈ t.versions, v.id = i.versionId ∧ v.processId = i.processId) :
    t'.loadSummaryClaimEvidence u k.summaryId =
      (i.claims.insertionSort fun a b => u.collatesBefore a.2.claimId b.2.claimId).map
        (i.loadedClaim k) := by
  obtain ⟨t₀, row, hcolumns, hupserted, hsummaries⟩ := h.row
  obtain ⟨v, hv, hid, hprocess⟩ := hversion
  -- The two joins of the query hold of the summary that was written.
  have hsummary : (t'.summaries.any fun s => s.id == k.summaryId && s.processId == k.processId &&
      s.versionId == k.versionId) = true := by
    refine List.any_eq_true.2 ⟨_, hsummaries ▸ hupserted.mem, ?_⟩
    simp only [hcolumns.processId, hcolumns.versionId, h.processId, h.versionId,
      beq_self_eq_true, Bool.and_self]
  have hjoined : (t'.versions.any fun v => v.id == k.versionId && v.processId == k.processId) =
      true := by
    refine List.any_eq_true.2 ⟨v, h.versions ▸ hv, ?_⟩
    rw [hid, hprocess, h.versionId, h.processId, beq_self_eq_true, beq_self_eq_true]
    rfl
  -- The claims that were kept belong to other summaries, and the new ones to this one.
  have hkept : (t.claims.filter fun c => c.summaryId != k.summaryId).filter (fun c =>
      c.summaryId == k.summaryId &&
        (t'.summaries.any fun s => s.id == c.summaryId && s.processId == c.processId &&
          s.versionId == c.versionId) &&
        t'.versions.any fun v => v.id == c.versionId && v.processId == c.processId) = [] := by
    refine List.filter_eq_nil_iff.2 fun c hc hmatch => ?_
    rw [Bool.and_eq_true, Bool.and_eq_true] at hmatch
    exact bne_iff_ne.1 (List.mem_filter.1 hc).2 (eq_of_beq hmatch.1.1)
  have hown : (i.claims.map (i.claimRow k)).filter (fun c =>
      c.summaryId == k.summaryId &&
        (t'.summaries.any fun s => s.id == c.summaryId && s.processId == c.processId &&
          s.versionId == c.versionId) &&
        t'.versions.any fun v => v.id == c.versionId && v.processId == c.processId) =
      i.claims.map (i.claimRow k) := by
    refine List.filter_eq_self.2 fun c hc => ?_
    obtain ⟨e, -, rfl⟩ := List.mem_map.1 hc
    show (k.summaryId == k.summaryId && (t'.summaries.any fun s => s.id == k.summaryId &&
      s.processId == k.processId && s.versionId == k.versionId) &&
      t'.versions.any fun v => v.id == k.versionId && v.processId == k.processId) = true
    rw [hsummary, hjoined, beq_self_eq_true]
    rfl
  unfold Tables.loadSummaryClaimEvidence
  simp only [h.claims, List.filter_append, hkept, hown, List.nil_append]
  -- The order of the query is by the claim's id, which the rows have from the claims.
  rw [← List.map_insertionSort
    (fun a b : Uuid × MaterialClaim => u.collatesBefore a.2.claimId b.2.claimId = true)
    (fun a b : ClaimRow => u.collatesBefore a.claimId b.claimId = true) _ i.claims
    fun _ _ _ _ => Iff.rfl, List.map_map]
  refine List.map_congr_left fun e he => ?_
  exact congrArg (LoadedClaim.mk (i.claimRow k e))
    (h.sources_of_claim hkeyed ((List.mem_insertionSort _).1 he))

omit hkeyed in
/-- What a source of another summary refers to is not touched. -/
theorem Stored.claimSourceHolds_other {c : ClaimRow} (hc : c.summaryId ≠ k.summaryId)
    (s : ClaimSourceRow) : t'.claimSourceHolds c s = t.claimSourceHolds c s := by
  obtain ⟨_, -, hmovements⟩ := h.movements
  obtain ⟨_, -, hattachments⟩ := h.attachments
  unfold Tables.claimSourceHolds
  by_cases hs : s.summaryId = c.summaryId
  · have hm : ∀ step, (t'.movementSources.any fun used => used.summaryId == s.summaryId &&
        used.processId == s.processId && used.versionId == s.versionId && used.stepId == step) =
        t.movementSources.any fun used => used.summaryId == s.summaryId &&
          used.processId == s.processId && used.versionId == s.versionId && used.stepId == step := by
      intro step
      refine any_congr_of_mem fun used hused => hmovements.mem_other ?_
      simp only [Bool.and_eq_true, beq_iff_eq] at hused
      rw [hused.1.1.1, hs]
      exact hc
    have ha : ∀ chunk, (t'.attachmentSources.any fun used => used.summaryId == s.summaryId &&
        used.processId == s.processId && used.versionId == s.versionId &&
          used.attachmentChunkId == chunk) =
        t.attachmentSources.any fun used => used.summaryId == s.summaryId &&
          used.processId == s.processId && used.versionId == s.versionId &&
            used.attachmentChunkId == chunk := by
      intro chunk
      refine any_congr_of_mem fun used hused => hattachments.mem_other ?_
      simp only [Bool.and_eq_true, beq_iff_eq] at hused
      rw [hused.1.1.1, hs]
      exact hc
    simp only [hm, ha]
  · rw [beq_eq_false_iff_ne.2 hs]
    rfl

/-- **The claims of another summary are read as before.** -/
theorem Stored.load_other {id : Uuid} (hid : id ≠ k.summaryId) :
    t'.loadSummaryClaimEvidence u id = t.loadSummaryClaimEvidence u id := by
  obtain ⟨t₀, row, hcolumns, hupserted, hsummaries⟩ := h.row
  have hscope : ∀ c : ClaimRow, c.summaryId = id →
      (t'.summaries.any fun s => s.id == c.summaryId && s.processId == c.processId &&
        s.versionId == c.versionId) =
      t.summaries.any fun s => s.id == c.summaryId && s.processId == c.processId &&
        s.versionId == c.versionId := by
    intro c hc
    rw [hsummaries]
    refine any_congr_of_mem fun s hs => hupserted.other s ?_
    simp only [Bool.and_eq_true, beq_iff_eq] at hs
    rw [hs.1.1, hc]
    exact hid
  -- the claims of the summary are none of those that were deleted, and none of the new ones
  have hclaims : ∀ p : ClaimRow → Bool, (∀ c, p c = true → c.summaryId = id) →
      t'.claims.filter p = t.claims.filter p := by
    intro p hp
    have hnew : (i.claims.map (i.claimRow k)).filter p = [] := by
      refine List.filter_eq_nil_iff.2 fun c hc hpc => ?_
      obtain ⟨e, -, rfl⟩ := List.mem_map.1 hc
      exact hid (hp _ hpc).symm
    rw [h.claims, List.filter_append, hnew, List.append_nil, List.filter_filter]
    refine List.filter_congr fun c _ => ?_
    rw [Bool.and_eq_left_iff_imp]
    exact fun hpc => bne_iff_ne.2 (hp c hpc ▸ hid)
  have hsources : ∀ c ∈ t.claims, c.summaryId = id →
      (t'.claimSources.filter fun s => s.claimRowId == c.id && t'.claimSourceHolds c s) =
        t.claimSources.filter fun s => s.claimRowId == c.id && t.claimSourceHolds c s := by
    intro c hc hcid
    have hne : c.summaryId ≠ k.summaryId := hcid ▸ hid
    have hnew : (i.claims.flatMap (i.sourceRows k)).filter (fun s => s.claimRowId == c.id &&
        t'.claimSourceHolds c s) = [] := by
      refine List.filter_eq_nil_iff.2 fun s hs hmatch => ?_
      obtain ⟨e, he, hs⟩ := List.mem_flatMap.1 hs
      have hrow := sourceRows_claimRowId (h.rows e he) s hs
      have hcrow := eq_of_beq ((Bool.and_eq_true _ _).mp hmatch).1
      exact h.fresh e he c hc hne (hcrow.symm.trans hrow)
    rw [h.claimSources, List.filter_append, hnew, List.append_nil]
    show List.filter _ (List.filter _ t.claimSources) = _
    rw [List.filter_filter]
    refine List.filter_congr fun s _ => ?_
    rw [h.claimSourceHolds_other hne s, Bool.and_eq_left_iff_imp]
    intro hmatch
    rw [Bool.not_eq_true', List.contains_eq_mem, decide_eq_false_iff_not]
    intro hgone
    obtain ⟨c', hc', hid'⟩ := List.mem_map.1 hgone
    obtain ⟨hc', hsummary⟩ := List.mem_filter.1 hc'
    have hcrow := eq_of_beq ((Bool.and_eq_true _ _).mp hmatch).1
    have hsame : c' = c := eq_of_nodup_key hkeyed.ids hc' hc (hid'.trans hcrow)
    exact hne (hsame ▸ eq_of_beq hsummary)
  unfold Tables.loadSummaryClaimEvidence
  simp only [h.versions]
  rw [hclaims _ fun c hc => eq_of_beq ((Bool.and_eq_true _ _).mp
    ((Bool.and_eq_true _ _).mp hc).1).1]
  have hfilter : (t.claims.filter fun c => c.summaryId == id &&
        (t'.summaries.any fun s => s.id == c.summaryId && s.processId == c.processId &&
          s.versionId == c.versionId) &&
        t.versions.any fun v => v.id == c.versionId && v.processId == c.processId) =
      t.claims.filter fun c => c.summaryId == id &&
        (t.summaries.any fun s => s.id == c.summaryId && s.processId == c.processId &&
          s.versionId == c.versionId) &&
        t.versions.any fun v => v.id == c.versionId && v.processId == c.processId := by
    refine List.filter_congr fun c _ => ?_
    by_cases hc : c.summaryId = id
    · rw [hscope c hc]
    · rw [beq_eq_false_iff_ne.2 hc]
      rfl
  rw [hfilter]
  refine List.map_congr_left fun c hc => ?_
  obtain ⟨hmem, hmatch⟩ := List.mem_filter.1 ((List.mem_insertionSort _).1 hc)
  rw [Bool.and_eq_true, Bool.and_eq_true] at hmatch
  exact congrArg (fun rows : List ClaimSourceRow => LoadedClaim.mk c (rows.insertionSort
    fun a b => a.sourceOrder ≤ b.sourceOrder)) (hsources c hmem (eq_of_beq hmatch.1.1))

omit hkeyed in
/-- The sources of another summary are read as before. -/
theorem Stored.sources_other {id : Uuid} (hid : id ≠ k.summaryId) :
    t'.loadUsedSummarySources id = t.loadUsedSummarySources id := by
  obtain ⟨_, -, hmovements⟩ := h.movements
  obtain ⟨_, -, hattachments⟩ := h.attachments
  obtain ⟨_, -, hglossary⟩ := h.glossary
  unfold Tables.loadUsedSummarySources
  rw [hmovements.filter_other hid, hattachments.filter_other hid, hglossary.filter_other hid,
    h.steps]

end Read

/-! ## §7. The sources, as they are listed. -/

/-- The movement `load_used_summary_sources` joins a row with. -/
def MovementSourceRow.isOf (used : MovementSourceRow) (step : StepRow) : Bool :=
  step.id == used.stepId && step.processId == used.processId && step.versionId == used.versionId

/-- A movement as it is listed: its row, with the number and the title of the
movement it is joined with. -/
def Tables.Lists (t : Tables) (used : MovementSourceRow) (item : Source) : Prop :=
  ∃ step ∈ t.steps, used.isOf step = true ∧ ∃ number,
    sourceStepNumber step.metadata = .ok number ∧ item = .usedMovement used number step.title

/-- **The movements of some rows are listed**, each once, where it is one of
its version; a row without such a movement is not listed. -/
theorem listed_movements (hsteps : (t.steps.map StepRow.id).Nodup) (rows : List MovementSourceRow)
    (hnumbers : ∀ used ∈ rows, ∀ step ∈ t.steps, used.isOf step = true →
      ∃ number, sourceStepNumber step.metadata = .ok number) :
    ∃ items, ((rows.flatMap fun used => (t.steps.filter used.isOf).map fun step => (used, step)
      ).mapM fun (used, step) => (sourceStepNumber step.metadata).map fun number =>
        Source.usedMovement used number step.title) = .ok items ∧
      List.Forall₂ t.Lists (rows.filter fun used => t.steps.any used.isOf) items := by
  induction rows with
  | nil => exact ⟨[], rfl, .nil⟩
  | cons used rows ih =>
      obtain ⟨hused, hrows⟩ := List.forall_mem_cons.1 hnumbers
      obtain ⟨items, hitems, hlists⟩ := ih hrows
      cases hany : t.steps.any used.isOf with
      | false =>
          have hnone : t.steps.filter used.isOf = [] :=
            List.filter_eq_nil_iff.2 fun step hstep => by simpa using List.any_eq_false.1 hany step hstep
          refine ⟨items, ?_, ?_⟩
          · rw [List.flatMap_cons, hnone]
            exact hitems
          · rw [List.filter_cons_of_neg (by simp [hany])]
            exact hlists
      | true =>
          obtain ⟨step, hstep, hof⟩ := List.any_eq_true.1 hany
          obtain ⟨number, hnumber⟩ := hused step hstep hof
          have hid : ∀ step', used.isOf step' = true → step'.id = used.stepId := fun step' h =>
            eq_of_beq ((Bool.and_eq_true _ _).mp ((Bool.and_eq_true _ _).mp h).1).1
          have hone : t.steps.filter used.isOf = [step] :=
            filter_eq_singleton_of_key hsteps hstep hof fun step' _ h =>
              (hid step' h).trans (hid step hof).symm
          refine ⟨.usedMovement used number step.title :: items, ?_, ?_⟩
          · rw [List.flatMap_cons, hone, List.map_singleton, List.singleton_append,
              List.mapM_cons, hitems]
            simp only [hnumber]
            rfl
          · have hkept : (used :: rows).filter (fun used => t.steps.any used.isOf) =
                used :: rows.filter fun used => t.steps.any used.isOf := List.filter_cons_of_pos hany
            rw [hkept]
            exact .cons ⟨step, hstep, hof, number, hnumber, rfl⟩ hlists

/-- **What the reader lists of a call's sources**: of the movements, those of
the version, in the order they were given; then the pieces of attachments and
the definitions of the glossary, in theirs.  Each is listed as it was given. -/
structure Listed (u : Unicode) (t : Tables) (i : Incoming) (summaryId : Uuid) : Prop where
  sources : ∃ (movements : List MovementSourceRow) (attachments : List AttachmentSourceRow)
      (glossary : List GlossarySourceRow) (items : List Source),
    movements.map MovementSourceRow.given = i.selectedSources.map (SelectedSource.given u) ∧
    attachments.map AttachmentSourceRow.given =
      i.attachmentSources.map (SelectedAttachment.given u) ∧
    glossary.map GlossarySourceRow.given = i.glossarySources.map (SelectedGlossary.given u) ∧
    (∀ used ∈ movements, used.processId = i.processId ∧ used.versionId = i.versionId) ∧
    List.Forall₂ t.Lists
      ((movements.insertionSort fun a b => a.sourceOrder ≤ b.sourceOrder).filter fun used =>
        t.steps.any used.isOf) items ∧
    t.loadUsedSummarySources summaryId = .ok (items ++
      (attachments.insertionSort fun a b => a.sourceOrder ≤ b.sourceOrder).map .usedAttachment ++
      (glossary.insertionSort fun a b => a.sourceOrder ≤ b.sourceOrder).map .usedGlossary)

theorem Stored.listed (h : Stored u t t' i k) (hsteps : (t.steps.map StepRow.id).Nodup)
    (hnumbers : ∀ step ∈ t.steps, step.versionId = i.versionId →
      ∃ number, sourceStepNumber step.metadata = .ok number) :
    Listed u t' i k.summaryId := by
  obtain ⟨movements, hmovements, hmovementRows⟩ := h.movements
  obtain ⟨attachments, hattachments, hattachmentRows⟩ := h.attachments
  obtain ⟨glossary, hglossary, hglossaryRows⟩ := h.glossary
  have hscope : ∀ used ∈ movements,
      used.processId = i.processId ∧ used.versionId = i.versionId := by
    intro used hused
    obtain ⟨source, -, hsource⟩ :=
      exists_of_forall₂_right (forall₂_of_mapM_eq_ok hmovements) hused
    obtain ⟨⟨-, hprocess, hversion⟩, -⟩ := selectedSource_eq_ok hsource
    exact ⟨hprocess.trans h.processId, hversion.trans h.versionId⟩
  obtain ⟨items, hitems, hlists⟩ := listed_movements (t := t') (h.steps ▸ hsteps)
    (movements.insertionSort fun a b => a.sourceOrder ≤ b.sourceOrder)
    fun used hused step hstep hof => by
      have hversion : step.versionId = used.versionId :=
        eq_of_beq ((Bool.and_eq_true _ _).mp hof).2
      exact hnumbers step (h.steps ▸ hstep)
        (hversion.trans (hscope used ((List.mem_insertionSort _).1 hused)).2)
  refine ⟨movements, attachments, glossary, items,
    map_of_mapM_eq_ok hmovements fun _ _ h => (selectedSource_eq_ok h).2,
    map_of_mapM_eq_ok hattachments fun _ _ h => (selectedAttachment_eq_ok h).2,
    map_of_mapM_eq_ok hglossary fun _ _ h => (selectedGlossary_eq_ok h).2, hscope, hlists, ?_⟩
  unfold Tables.loadUsedSummarySources
  rw [hmovementRows.filter_eq, hattachmentRows.filter_eq, hglossaryRows.filter_eq]
  change (List.mapM _ _ >>= _) = _
  exact bind_eq_ok.2 ⟨items, hitems, rfl⟩

/-! ## §8. There and back. -/

/-- **What is persisted is read back**: the row has the columns of the call,
its claims are the claims of the call with their references in order, and its
sources are listed as they were given.  Nothing else is read differently. -/
theorem persisted_is_read_back (u : Unicode) {t t' : Tables} {i : Incoming} (hkeyed : t.Keyed)
    (hversion : ∃ v ∈ t.versions, v.id = i.versionId ∧ v.processId = i.processId)
    (hsteps : (t.steps.map StepRow.id).Nodup)
    (hnumbers : ∀ step ∈ t.steps, step.versionId = i.versionId →
      ∃ number, sourceStepNumber step.metadata = .ok number)
    (h : t.persistSummary u i = .ok (true, t')) :
    ∃ s ∈ t'.summaries, RowOf u i s ∧
      (t'.loadSummaryClaimEvidence u s.id).map (fun c => (c.row.claimId, c.row.claimText,
        c.row.claimClass, c.row.verificationStatus, c.sources.map ClaimSourceRow.evidenceRef)) =
      (i.claims.insertionSort fun a b => u.collatesBefore a.2.claimId b.2.claimId).map
        (fun e => (e.2.claimId, e.2.text, e.2.claimClass,
          ((i.verification e.2).map ClaimVerification.status).getD .notEvaluated,
          e.2.evidenceRefs)) ∧
      Listed u t' i s.id ∧
      ∀ id, id ≠ s.id →
        (∀ s' : SummaryRow, s'.id = id → (s' ∈ t'.summaries ↔ s' ∈ t.summaries)) ∧
        t'.loadSummaryClaimEvidence u id = t.loadSummaryClaimEvidence u id ∧
        t'.loadUsedSummarySources id = t.loadUsedSummarySources id := by
  obtain ⟨replace, -, hwrite⟩ := bind_eq_ok.1 h
  obtain ⟨k, hstored, -⟩ := stored_of_write hwrite
  obtain ⟨t₀, row, hcolumns, hupserted, hsummaries⟩ := hstored.row
  have hmem := hsummaries ▸ hupserted.mem
  refine ⟨_, hmem, hstored.rowOf hmem rfl, ?_, hstored.listed hsteps hnumbers,
    fun id hid => ⟨?_, ?_, ?_⟩⟩
  · rw [hstored.load hkeyed hversion, List.map_map]
    refine List.map_congr_left fun e he => ?_
    have he := (List.mem_insertionSort _).1 he
    have hrefs := sourceRows_evidenceRef (hstored.rows e he)
    show (e.2.claimId, e.2.text, e.2.claimClass, _, (i.sourceRows k e).map _) = _
    rw [hrefs]
    rfl
  · intro s' hs'
    rw [hsummaries]
    exact hupserted.other s' (hs' ▸ hid)
  · exact hstored.load_other hkeyed hid
  · exact hstored.sources_other hid

/-- A process with a version. -/
def sampleProcess : ProcessRow where
  id := 10
  code := "0000001-00.2020.8.26.0001"

def sampleTables : Tables where
  processes := [sampleProcess]
  versions := [{ id := 0, processId := 10, finalized := true }]

/-- The members of the document of a summary. -/
def sampleOutput : List (String × Json) :=
  match structuredSummaryDocument .ascii sampleSummary sampleProcess.context with
  | .obj members => members
  | _ => []

/-- That summary, to be stored. -/
def sampleIncoming (model : String) : Incoming where
  processId := 10
  versionId := 0
  freshId := 3
  text := "a"
  validation := [("passed", .bool true)]
  generationMs := 5
  model := model
  promptVersion := "p"
  structuredOutput := some sampleOutput
  claims := sampleSummary.claims.zipIdx.map fun (c, n) => (BitVec.ofNat 128 (n + 4), c.material)
  evidenceSources := [(sampleRef, { evidenceRef := sampleRef, kind := .process })]

theorem sampleTables_keyed : sampleTables.Keyed where
  ids := List.nodup_nil
  claimed := List.forall_mem_nil _

/-- The row of the sample. -/
def sampleRow (model : String) : SummaryRow where
  id := 3
  processId := 10
  versionId := 0
  markdown := "a"
  structuredOutput := .obj sampleOutput
  validation := .obj [("passed", .bool true)]
  model := model
  promptVersion := "p"
  generationMs := some 5

theorem row_sampleIncoming : (sampleIncoming "m").row .ascii = .ok (sampleRow "m") := by
  have hvalidation : jsonbParameter .ascii "validation" (.obj (sampleIncoming "m").validation) =
      .ok (Unicode.ascii.jsonb (.obj (sampleIncoming "m").validation)) :=
    jsonbParameter_ok (by decide +kernel) (by decide)
  have husage : dumpedParameter .ascii "usage" (.obj (sampleIncoming "m").usage) =
      .ok (Unicode.ascii.jsonb (.obj (sampleIncoming "m").usage)) :=
    dumpedParameter_ok (by decide +kernel) (by decide)
  have houtput : (sampleIncoming "m").outputColumn .ascii =
      .ok (Unicode.ascii.jsonb (.obj sampleOutput)) := by
    have hsome : (sampleIncoming "m").structuredOutput = some sampleOutput := rfl
    unfold Incoming.outputColumn
    rw [hsome]
    exact dumpedParameter_ok (by decide +kernel) (by decide +kernel)
  rw [row_of_columns hvalidation husage houtput (by decide)]
  rfl

/-- The sample is stored in tables without a row for the version. -/
theorem persist_sample : ∃ t', sampleTables.persistSummary .ascii (sampleIncoming "m") =
    .ok (true, t') := by
  have hwritten : (sampleTables.writeRow .ascii (sampleIncoming "m") false
      (sampleRow "m")).toOption.map Prod.fst = some true := by decide +kernel
  have hreplace : sampleTables.replaceApproved .ascii (sampleIncoming "m") = .ok false := by
    have hnone : sampleTables.versionSummary (sampleIncoming "m").processId
        (sampleIncoming "m").versionId = none := rfl
    unfold Tables.replaceApproved
    rw [hnone]
  rw [persistSummary_of_row hreplace row_sampleIncoming]
  cases hresult : sampleTables.writeRow .ascii (sampleIncoming "m") false (sampleRow "m") with
  | error e =>
      rw [hresult] at hwritten
      cases hwritten
  | ok result =>
      rw [hresult] at hwritten
      obtain ⟨written, t'⟩ := result
      obtain rfl : written = true := Option.some.inj hwritten
      exact ⟨t', rfl⟩

/-- The sample, with a movement of the version that a summary was made from. -/
def sourcedTables : Tables where
  processes := [sampleProcess]
  versions := [{ id := 0, processId := 10, finalized := true }]
  steps := [{ id := 20, processId := 10, versionId := 0, stepNumber := 7, title := some "Sentença"
              text := "Julgo procedente", metadata := .obj [("source_step_number", .int 31)] }]

def sourcedIncoming : Incoming :=
  { sampleIncoming "m" with
    selectedSources := [{ stepId := some 20, stepNumber := 7, sourceOrder := 0 }] }

/-- The row its movement is given. -/
def sourcedRow : MovementSourceRow where
  summaryId := 3
  processId := 10
  versionId := 0
  stepId := 20
  stepNumber := 7
  sourceOrder := 0

theorem sourcedTables_keyed : sourcedTables.Keyed where
  ids := List.nodup_nil
  claimed := List.forall_mem_nil _

theorem persist_sourced : ∃ t', sourcedTables.persistSummary .ascii sourcedIncoming =
    .ok (true, t') ∧ t'.loadUsedSummarySources 3 =
      .ok [.usedMovement sourcedRow (some 31) (some "Sentença")] := by
  have hrow : sourcedIncoming.row .ascii = .ok (sampleRow "m") := row_sampleIncoming
  have hreplace : sourcedTables.replaceApproved .ascii sourcedIncoming = .ok false := by
    have hnone : sourcedTables.versionSummary sourcedIncoming.processId
        sourcedIncoming.versionId = none := rfl
    unfold Tables.replaceApproved
    rw [hnone]
  have hwritten : (sourcedTables.writeRow .ascii sourcedIncoming false
      (sampleRow "m")).toOption.map (fun result =>
        (result.1, (result.2.loadUsedSummarySources 3).toOption)) =
      some (true, some [.usedMovement sourcedRow (some 31) (some "Sentença")]) := by
    decide +kernel
  rw [persistSummary_of_row hreplace hrow]
  cases hresult : sourcedTables.writeRow .ascii sourcedIncoming false (sampleRow "m") with
  | error e =>
      rw [hresult] at hwritten
      cases hwritten
  | ok result =>
      rw [hresult] at hwritten
      obtain ⟨hdone, hread⟩ := Prod.ext_iff.1 (Option.some.inj hwritten)
      obtain ⟨written, t'⟩ := result
      obtain rfl : written = true := hdone
      have hread : (t'.loadUsedSummarySources 3).toOption =
          some [.usedMovement sourcedRow (some 31) (some "Sentença")] := hread
      refine ⟨t', rfl, ?_⟩
      cases hload : t'.loadUsedSummarySources 3 with
      | error e =>
          rw [hload] at hread
          cases hread
      | ok items =>
          rw [hload] at hread
          exact congrArg Except.ok (Option.some.inj hread)

/-- It is read back: the movement is listed with its own number and title. -/
theorem sample_is_read_back : ∃ t', sourcedTables.persistSummary .ascii sourcedIncoming =
    .ok (true, t') ∧ t'.loadUsedSummarySources 3 =
      .ok [.usedMovement sourcedRow (some 31) (some "Sentença")] ∧
    ∃ s ∈ t'.summaries, RowOf .ascii sourcedIncoming s ∧ Listed .ascii t' sourcedIncoming s.id := by
  obtain ⟨t', h, hread⟩ := persist_sourced
  obtain ⟨s, hs, hrow, -, hlisted, -⟩ := persisted_is_read_back .ascii sourcedTables_keyed
    ⟨{ id := 0, processId := 10, finalized := true }, List.mem_cons_self, rfl, rfl⟩ (by decide)
    (fun step hstep _ => ⟨some 31, by rw [List.mem_singleton.1 hstep]; rfl⟩) h
  exact ⟨t', h, hread, s, hs, hrow, hlisted⟩

end Rpy.Publication

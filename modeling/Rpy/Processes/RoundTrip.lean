/-
  Rpy.Processes.RoundTrip
  ───────────────────────
  **THE FINGERPRINT READ BACK FROM THE ROWS** (`app/processes.py`,
  `app/attachments.py`, `_safe_attachments` of `app/judit.py`).

  A promotion digests its fields, stores them in three tables, and a later
  call digests what it reads back from those tables.

    • `safeAttachments`        — the manifest of a payload,
    • `currentSemanticFingerprint_promoted` — what the rows of a promoted
                                 version give back: every field in its own
                                 form, and the attachments
                                 `ORDER BY source_attachment_id`,
    • `fingerprint_stored_iff` — the two digests are equal exactly when the
                                 manifest is in that order already (or the
                                 two documents collide).

  The manifest keeps the provider's order, and the rows lose it.
-/
import Mathlib.Data.List.DropRight
import Rpy.Foundation.JsonKeys
import Rpy.Foundation.Machine
import Rpy.Processes.Finalize

namespace Rpy.Processes

open Rpy.Foundation

/-! ## §1. The manifest of a payload. -/

/-- An object of the payload's `attachments`: its values as `str` renders
them (`""` for an id that is false) and its date as `_parse_datetime`
reads it. -/
structure SourceAttachment where
  attachmentId : String
  attachmentDate : Option Timestamp := none
  attachmentName : Option String := none
  content : Option String := none
  status : Option String := none
deriving Repr, DecidableEq

/-- The normal form of a nullable text: `str(raw).strip() or None`. -/
def strippedOrNone (u : Platform) (raw : Option String) : Option String :=
  (raw.map u.strip).filter (· ≠ "")

/-- The normal form of a status: `str(raw).strip().lower() or None`. -/
def loweredOrNone (u : Platform) (raw : Option String) : Option String :=
  (raw.map fun s => u.lower (u.strip s)).filter (· ≠ "")

/-- The loop of `_safe_attachments`, with the ids it has `seen`. -/
def safeAttachmentsFrom (u : Platform) : List String → List SourceAttachment → List Attachment
  | _, [] => []
  | seen, a :: rest =>
      let attachmentId := u.strip a.attachmentId
      if attachmentId = "" ∨ attachmentId ∈ seen then
        safeAttachmentsFrom u seen rest
      else
        -- `attachment_name` first, and `content` only when it is `None`
        { attachmentId := attachmentId
          attachmentDate := a.attachmentDate
          attachmentName := strippedOrNone u (a.attachmentName.or a.content)
          providerStatus := loweredOrNone u a.status } ::
          safeAttachmentsFrom u (attachmentId :: seen) rest

/-- `_safe_attachments`, on the objects of the payload's list. -/
def safeAttachments (u : Platform) (attachments : List SourceAttachment) : List Attachment :=
  safeAttachmentsFrom u [] attachments

/-- The fields `extract_promotable_fields` builds.  The DataJud merge
replaces `class_name`, `subjects` and members of `header`, and leaves the
attachments as they are. -/
structure ExtractedFields (u : Platform) extends PromotableFields where
  attachments_safe : ∃ source, attachments = safeAttachments u source

/-- What the code takes from `jsonb`, from the collation and from
`str.lower` for granted. -/
structure ValuePreserving (u : Platform) : Prop where
  /-- a `jsonb` column preserves the value up to member order -/
  jsonb_sortKeys : ∀ v, (u.jsonb v).sortKeys = v.sortKeys
  /-- any two texts are in one order of the collation or the other -/
  collates_total : ∀ a b, u.collatesBefore a b = true ∨ u.collatesBefore b a = true
  collates_trans : ∀ a b c, u.collatesBefore a b = true → u.collatesBefore b c = true →
    u.collatesBefore a c = true
  /-- a text in lower case and without outer blanks stays as it is -/
  lower_strip_lower : ∀ s, u.lower (u.strip (u.lower (u.strip s))) = u.lower (u.strip s)

/-! ## §2. A manifest item is stored as it is. -/

section Items

variable {u : Platform}

/-- An item in the normal form `_manifest_item` brings items to. -/
structure Attachment.Normal (u : Platform) (a : Attachment) : Prop where
  id_strip : u.strip a.attachmentId = a.attachmentId
  id_ne : a.attachmentId ≠ ""
  name : strippedOrNone u a.attachmentName = a.attachmentName
  status : loweredOrNone u a.providerStatus = a.providerStatus

theorem strippedOrNone_idem (raw : Option String) :
    strippedOrNone u (strippedOrNone u raw) = strippedOrNone u raw := by
  cases raw with
  | none => rfl
  | some s =>
      by_cases h : u.strip s = ""
      · simp [strippedOrNone, Option.filter_some, h]
      · simp [strippedOrNone, Option.filter_some, h, strip_strip]

theorem loweredOrNone_idem (hu : ValuePreserving u) (raw : Option String) :
    loweredOrNone u (loweredOrNone u raw) = loweredOrNone u raw := by
  cases raw with
  | none => rfl
  | some s =>
      by_cases h : u.lower (u.strip s) = ""
      · simp [loweredOrNone, Option.filter_some, h]
      · simp [loweredOrNone, Option.filter_some, h, hu.lower_strip_lower]

/-- **Every item of a manifest is normal, and no id stands twice.** -/
theorem safeAttachmentsFrom_normal (hu : ValuePreserving u) (seen : List String)
    (source : List SourceAttachment) :
    (∀ a ∈ safeAttachmentsFrom u seen source, a.Normal u ∧ a.attachmentId ∉ seen) ∧
      ((safeAttachmentsFrom u seen source).map Attachment.attachmentId).Nodup := by
  induction source generalizing seen with
  | nil => exact ⟨fun _ ha => (nomatch ha), .nil⟩
  | cons a rest ih =>
      rw [safeAttachmentsFrom]
      by_cases hskip : u.strip a.attachmentId = "" ∨ u.strip a.attachmentId ∈ seen
      · rw [if_pos hskip]
        exact ih seen
      · rw [if_neg hskip]
        obtain ⟨hne, hseen⟩ := not_or.1 hskip
        obtain ⟨hnormal, hnodup⟩ := ih (u.strip a.attachmentId :: seen)
        constructor
        · intro b hb
          rcases List.mem_cons.1 hb with rfl | hb
          · exact ⟨⟨strip_strip u _, hne, strippedOrNone_idem _, loweredOrNone_idem hu _⟩, hseen⟩
          · obtain ⟨hb', hfresh⟩ := hnormal b hb
            exact ⟨hb', fun h => hfresh (List.mem_cons_of_mem _ h)⟩
        · refine List.nodup_cons.2 ⟨fun hmem => ?_, hnodup⟩
          obtain ⟨b, hb, hid⟩ := List.mem_map.1 hmem
          exact (hnormal b hb).2 (by rw [hid]; exact List.mem_cons_self)

/-- The row of a manifest item. -/
def Attachment.row (versionId : Uuid) (a : Attachment) : AttachmentRow where
  versionId := versionId
  sourceAttachmentId := a.attachmentId
  sourceName := a.attachmentName
  sourceDate := a.attachmentDate
  providerStatus := a.providerStatus

/-- The item a row gives back. -/
def AttachmentRow.item (r : AttachmentRow) : Attachment where
  attachmentId := r.sourceAttachmentId
  attachmentDate := r.sourceDate
  attachmentName := r.sourceName
  providerStatus := r.providerStatus

@[simp] theorem Attachment.item_row (versionId : Uuid) (a : Attachment) :
    (a.row versionId).item = a := rfl

theorem optionalText_inj {a b : Option String} (h : optionalText a = optionalText b) : a = b := by
  cases a <;> cases b <;> simp_all [optionalText]

/-- A normal item is written as it is. -/
theorem manifestItem_eq_ok {versionId : Uuid} {a : Attachment} {r : AttachmentRow}
    (ha : a.Normal u) (h : manifestItem u versionId a = .ok r) : r = a.row versionId := by
  unfold manifestItem at h
  simp only [ha.id_strip, ha.id_ne, if_false] at h
  obtain ⟨id, hid, h⟩ := bind_eq_ok.1 h
  obtain ⟨name, hname, h⟩ := bind_eq_ok.1 h
  obtain ⟨status, hstatus, h⟩ := bind_eq_ok.1 h
  obtain rfl := Except.ok.inj h
  have hname' : name = a.attachmentName := by
    rw [← ha.name]
    exact optionalText_inj (textOrNull_eq_ok hname)
  have hstatus' : status = a.providerStatus := by
    rw [← ha.status]
    exact optionalText_inj (textOrNull_eq_ok hstatus)
  rw [textColumn_eq_ok hid, hname', hstatus']
  rfl

/-- The rows of a normal manifest. -/
theorem manifest_eq_ok {versionId : Uuid} {attachments : List Attachment}
    {rows : List AttachmentRow} (hnormal : ∀ a ∈ attachments, a.Normal u)
    (hnodup : (attachments.map Attachment.attachmentId).Nodup)
    (h : manifest u versionId attachments = .ok rows) :
    rows = attachments.map (Attachment.row versionId) := by
  obtain ⟨items, hitems, rfl⟩ := map_eq_ok.1 h
  have hrows : items = attachments.map (Attachment.row versionId) := by
    have hall := forall₂_of_mapM_eq_ok hitems
    clear h hitems hnodup
    induction hall with
    | nil => rfl
    | cons hrow _ ih =>
        rw [manifestItem_eq_ok (hnormal _ List.mem_cons_self) hrow,
          ih fun a ha => hnormal a (List.mem_cons_of_mem _ ha), List.map_cons]
  rw [hrows]
  clear h hitems hrows hnormal
  -- no id stands twice, so `seen` drops nothing
  induction attachments with
  | nil => rfl
  | cons a as ih =>
      obtain ⟨ha, has⟩ := List.nodup_cons.1 hnodup
      rw [List.map_cons, firstOfEachId, ih has, List.filter_eq_self.2]
      intro r hr
      obtain ⟨b, hb, rfl⟩ := List.mem_map.1 hr
      have hne : b.attachmentId ≠ a.attachmentId := fun h =>
        ha (List.mem_map.2 ⟨b, hb, h⟩)
      exact decide_eq_true hne

/-- Rows of distinct ids are appended to a table that has no row of the
version. -/
theorem foldl_upsertAttachment {versionId : Uuid} {attachments : List Attachment}
    {rows : List AttachmentRow}
    (hnodup : (attachments.map Attachment.attachmentId).Nodup)
    (hfresh : ∀ r ∈ rows, r.versionId = versionId →
      r.sourceAttachmentId ∉ attachments.map Attachment.attachmentId) :
    (attachments.map (Attachment.row versionId)).foldl upsertAttachment rows =
      rows ++ attachments.map (Attachment.row versionId) := by
  induction attachments generalizing rows with
  | nil => rw [List.map_nil, List.foldl_nil, List.append_nil]
  | cons a as ih =>
      obtain ⟨ha, has⟩ := List.nodup_cons.1 hnodup
      have hinsert : upsertAttachment rows (a.row versionId) = rows ++ [a.row versionId] := by
        unfold upsertAttachment
        rw [if_neg]
        intro hany
        obtain ⟨r, hr, hsame⟩ := List.any_eq_true.1 hany
        obtain ⟨hversion, hid⟩ := Bool.and_eq_true_iff.1 hsame
        exact hfresh r hr (by simpa [Attachment.row] using hversion)
          (by simpa [Attachment.row] using Or.inl (by simpa [Attachment.row] using hid))
      rw [List.map_cons, List.foldl_cons, hinsert, ih has, List.append_assoc, List.singleton_append]
      intro r hr hversion hmem
      rcases List.mem_append.1 hr with hr | hr
      · exact hfresh r hr hversion (List.mem_cons_of_mem _ hmem)
      · obtain rfl := List.mem_singleton.1 hr
        exact ha hmem

/-- The manifest `ORDER BY source_attachment_id`. -/
def orderedManifest (u : Platform) (attachments : List Attachment) : List Attachment :=
  attachments.insertionSort fun a b => u.collatesBefore a.attachmentId b.attachmentId

/-- **A manifest is read back in the order of its ids.** -/
theorem attachmentsOf_written {versionId : Uuid} {attachments : List Attachment}
    {rows : List AttachmentRow} (hfresh : ∀ r ∈ rows, r.versionId ≠ versionId) :
    attachmentsOf u (rows ++ attachments.map (Attachment.row versionId)) (some versionId) =
      orderedManifest u attachments := by
  have hold : (rows.filter fun r => some r.versionId == some versionId) = [] := by
    rw [List.filter_eq_nil_iff]
    intro r hr
    simpa using hfresh r hr
  have hnew : ((attachments.map (Attachment.row versionId)).filter
      fun r => some r.versionId == some versionId) = attachments.map (Attachment.row versionId) := by
    rw [List.filter_eq_self]
    intro r hr
    obtain ⟨a, -, rfl⟩ := List.mem_map.1 hr
    simp [Attachment.row]
  have hsort : (attachments.map (Attachment.row versionId)).insertionSort
      (fun a b => u.collatesBefore a.sourceAttachmentId b.sourceAttachmentId) =
      (orderedManifest u attachments).map (Attachment.row versionId) := by
    refine (List.map_insertionSort _ _ _ _ ?_).symm
    exact fun a _ b _ => Iff.rfl
  unfold attachmentsOf
  rw [List.filter_append, hold, List.nil_append, hnew, hsort, List.map_map]
  exact List.map_id _

end Items

/-! ## §3. Fields of one document up to member order. -/

/-- Two steps that differ at most in the member order of their metadata. -/
def Step.SameKeys (s t : Step) : Prop :=
  s.stepNumber = t.stepNumber ∧ s.occurredAt = t.occurredAt ∧ s.title = t.title ∧
    s.text = t.text ∧ (metadataObject s.metadata).sortKeys = (metadataObject t.metadata).sortKeys

theorem Step.stored_sameKeys {u : Platform} (hu : ValuePreserving u) (s : Step) :
    (s.stored u).SameKeys s := by
  refine ⟨rfl, rfl, rfl, rfl, ?_⟩
  rw [show metadataObject s.metadata = metadataObject (s.metadata.orElse (.obj [])) from
    (metadataObject_orElse _).symm]
  exact metadataObject_congr Json.isForm_sortKeys (hu.jsonb_sortKeys _)

/-- **Stored fields have the document they were stored from**, with the
attachments read back. -/
theorem Stored.sortKeys_document {u : Platform} (hu : ValuePreserving u) {f g : SemanticFields}
    (h : Stored u f g) (hsteps : g.steps = f.steps.map (Step.stored u)) :
    (semanticDocument u g).sortKeys =
      (semanticDocument u { f with attachments := g.attachments }).sortKeys := by
  have hheader := hu.jsonb_sortKeys (.obj f.header)
  have hparties := hu.jsonb_sortKeys (.arr f.parties)
  have hrepresentatives := hu.jsonb_sortKeys (.arr f.representatives)
  have hsubjects := hu.jsonb_sortKeys (.arr f.subjects)
  rw [h.header] at hheader
  rw [h.parties] at hparties
  rw [h.representatives] at hrepresentatives
  rw [h.subjects] at hsubjects
  have hstored : Json.sortKeysList (g.steps.map (stepSemantics u)) =
      Json.sortKeysList (f.steps.map (stepSemantics u)) := by
    rw [hsteps, Json.sortKeysList_eq_map, Json.sortKeysList_eq_map, List.map_map, List.map_map,
      List.map_map]
    refine List.map_congr_left fun s _ => ?_
    exact stepSemantics_congr u Json.isForm_sortKeys (s.stored_sameKeys hu)
  simp only [semanticDocument, Json.sortKeys, Json.sortKeysMembers, h.court, h.className,
    h.secrecyLevel, hstored] at hheader hparties hrepresentatives hsubjects ⊢
  rw [hheader, hparties, hrepresentatives, hsubjects]

/-! ## §4. The text of a document tells its attachments. -/

section Texts

variable {u : Platform}

/-- The members of an attachment in key order. -/
theorem sortKeys_attachmentSemantics (u : Platform) (a : Attachment) :
    (attachmentSemantics u a).sortKeys = .obj [
      ("attachment_date", datetimeValue u a.attachmentDate),
      ("attachment_id", .str a.attachmentId),
      ("attachment_name", optionalText a.attachmentName),
      ("provider_status", optionalText a.providerStatus)] := by
  have hdate : (datetimeValue u a.attachmentDate).sortKeys = datetimeValue u a.attachmentDate := by
    cases a.attachmentDate <;> rfl
  have htext : ∀ t, (optionalText t).sortKeys = optionalText t := by
    intro t
    cases t <;> rfl
  simp only [attachmentSemantics, Json.sortKeys, Json.sortKeysMembers, hdate, htext]
  simp [sortMembers]

theorem numberFree_attachmentSemantics (u : Platform) (a : Attachment) :
    (attachmentSemantics u a).sortKeys.numberFree = true := by
  rw [sortKeys_attachmentSemantics]
  have hdate : (datetimeValue u a.attachmentDate).numberFree = true := by
    cases a.attachmentDate <;> rfl
  have htext : ∀ t, (optionalText t).numberFree = true := by
    intro t
    cases t <;> rfl
  simp [Json.numberFree, Json.numberFreeMembers, hdate, htext]

/-- The array of a document's attachments, as it is printed. -/
def printedAttachments (u : Platform) (attachments : List Attachment) : List Json :=
  attachments.map fun a => (attachmentSemantics u a).sortKeys

theorem numberFree_printedAttachments (u : Platform) (attachments : List Attachment) :
    (Json.arr (printedAttachments u attachments)).numberFree = true := by
  rw [Json.numberFree, Json.numberFreeList_iff]
  intro v hv
  obtain ⟨a, -, rfl⟩ := List.mem_map.1 hv
  exact numberFree_attachmentSemantics u a

/-- The printed array tells the ids. -/
theorem ids_of_printedAttachments {as bs : List Attachment}
    (h : printedAttachments u as = printedAttachments u bs) :
    as.map Attachment.attachmentId = bs.map Attachment.attachmentId := by
  have hids : ∀ l : List Attachment, (printedAttachments u l).map (Json.get · "attachment_id") =
      (l.map Attachment.attachmentId).map Json.str := by
    intro l
    unfold printedAttachments
    rw [List.map_map, List.map_map]
    refine List.map_congr_left fun a _ => ?_
    simp [sortKeys_attachmentSemantics, Json.get, Json.get?, List.lookup_cons]
  have hmapped := congrArg (List.map (Json.get · "attachment_id")) h
  rw [hids, hids] at hmapped
  exact List.map_injective_iff.2 (fun a b hab => Json.str.inj hab) hmapped

/-- `attachments` is the first member of a document in key order, and the
other members do not depend on it. -/
theorem sortKeys_semanticDocument (u : Platform) (f : SemanticFields) :
    ∃ members, ∀ attachments,
      (semanticDocument u { f with attachments := attachments }).sortKeys =
        .obj (("attachments", .arr (printedAttachments u attachments)) :: members) := by
  refine ⟨[
    ("class_name", f.className.sortKeys),
    ("court", f.court.sortKeys),
    ("header", (Json.obj f.header).sortKeys),
    ("parties", (Json.arr f.parties).sortKeys),
    ("representatives", (Json.arr f.representatives).sortKeys),
    ("schema_version", .int semanticSchemaVersion),
    ("secrecy_level", .int f.secrecyLevel),
    ("steps", (Json.arr (f.steps.map (stepSemantics u))).sortKeys),
    ("subjects", (Json.arr f.subjects).sortKeys)], fun attachments => ?_⟩
  have hprinted : Json.sortKeysList (attachments.map (attachmentSemantics u)) =
      printedAttachments u attachments := by
    rw [Json.sortKeysList_eq_map, List.map_map]
    rfl
  simp only [semanticDocument, Json.sortKeys, Json.sortKeysMembers, hprinted]
  simp [sortMembers]

/-- **Documents of one text have one list of attachment ids.** -/
theorem ids_of_dumps_eq {f : SemanticFields} {as bs : List Attachment}
    (h : (semanticDocument u { f with attachments := as }).dumps =
      (semanticDocument u { f with attachments := bs }).dumps) :
    as.map Attachment.attachmentId = bs.map Attachment.attachmentId := by
  obtain ⟨members, hmembers⟩ := sortKeys_semanticDocument u f
  unfold Json.dumps at h
  rw [hmembers, hmembers, Json.text, Json.text, Json.textMembers_cons,
    Json.textMembers_cons] at h
  simp only [List.cons_append, List.append_assoc, List.cons.injEq, true_and,
    List.append_cancel_left_eq] at h
  obtain ⟨hprinted, -⟩ := Json.text_append_inj _ _ _ _ (numberFree_printedAttachments u as)
    (numberFree_printedAttachments u bs) h
  exact ids_of_printedAttachments (Json.arr.inj hprinted)

end Texts

/-! ## §5. The rows of one process over every run. -/

/-- What happens to the rows of a process: `stage_version` adds a version,
`finalize_version` is called. -/
inductive RecordsEvent where
  | stage (versionId : Uuid) (createdAt : Timestamp)
  | finalize (versionId : Uuid) (fields : SemanticFields) (now : Timestamp)

/-- One event; an exception rolls a call back. -/
def ProcessRecords.step (u : Platform) (s : ProcessRecords) : RecordsEvent → Option ProcessRecords
  | .stage versionId createdAt =>
      if s.versions.any fun v => v.id == versionId then none
      else some { s with versions := s.versions ++ [{ id := versionId, createdAt := createdAt }] }
  | .finalize versionId fields now =>
      match finalizeVersion u s versionId fields now with
      | .error _ => some s
      | .ok (_, s') => some s'

/-- Only a finalized version has attachments. -/
def AttachmentsFinalized (s : ProcessRecords) : Prop :=
  ∀ r ∈ s.attachments, ∃ v ∈ s.versions, v.id = r.versionId ∧ v.finalized = true

section Runs

variable {u : Platform} {s s' : ProcessRecords} {f : SemanticFields} {now : Timestamp}

theorem versionId_of_manifestItem {versionId : Uuid} {a : Attachment} {r : AttachmentRow}
    (h : manifestItem u versionId a = .ok r) : r.versionId = versionId := by
  unfold manifestItem at h
  simp only at h
  split at h
  · cases h
  · obtain ⟨_, -, h⟩ := bind_eq_ok.1 h
    obtain ⟨_, -, h⟩ := bind_eq_ok.1 h
    obtain ⟨_, -, h⟩ := bind_eq_ok.1 h
    rw [← Except.ok.inj h]

theorem mem_firstOfEachId {rows : List AttachmentRow} {r : AttachmentRow}
    (h : r ∈ firstOfEachId rows) : r ∈ rows := by
  induction rows with
  | nil => exact h
  | cons d ds ih =>
      rcases List.mem_cons.1 h with rfl | h
      · exact List.mem_cons_self
      · exact List.mem_cons_of_mem _ (ih (List.mem_filter.1 h).1)

theorem mem_upsertAttachment {rows : List AttachmentRow} {d r : AttachmentRow}
    (h : r ∈ upsertAttachment rows d) : r ∈ rows ∨ r = d := by
  unfold upsertAttachment at h
  simp only at h
  split at h
  · obtain ⟨x, hx, rfl⟩ := List.mem_map.1 h
    split
    · exact .inr rfl
    · exact .inl hx
  · simpa using h

theorem versionId_of_manifest {versionId : Uuid} {attachments : List Attachment}
    {items : List AttachmentRow} (h : manifest u versionId attachments = .ok items) :
    ∀ d ∈ items, d.versionId = versionId := by
  obtain ⟨written, hwritten, rfl⟩ := map_eq_ok.1 h
  have hall := forall₂_of_mapM_eq_ok hwritten
  have hversion : ∀ d ∈ written, d.versionId = versionId := by
    clear h hwritten
    induction hall with
    | nil => exact fun _ hd => (nomatch hd)
    | cons hrow _ ih =>
        intro d hd
        rcases List.mem_cons.1 hd with rfl | hd
        · exact versionId_of_manifestItem hrow
        · exact ih d hd
  exact fun d hd => hversion d (mem_firstOfEachId hd)

/-- A sync writes rows of its own version only. -/
theorem mem_syncAttachmentManifest {rows rows' : List AttachmentRow} {versionId : Uuid}
    {attachments : List Attachment}
    (h : syncAttachmentManifest u rows versionId attachments = .ok rows') {r : AttachmentRow}
    (hr : r ∈ rows') : r ∈ rows ∨ r.versionId = versionId := by
  obtain ⟨items, hitems, rfl⟩ := map_eq_ok.1 h
  have hversion := versionId_of_manifest hitems
  clear h hitems
  induction items generalizing rows with
  | nil => exact .inl hr
  | cons d ds ih =>
      rcases ih hr fun x hx => hversion x (List.mem_cons_of_mem _ hx) with hmem | hmem
      · rcases mem_upsertAttachment hmem with hmem | rfl
        · exact .inl hmem
        · exact .inr (hversion _ List.mem_cons_self)
      · exact .inr hmem

/-- The attachments after the version's rows are written. -/
theorem writeVersion_attachments {candidate : VersionRow} {promoted : Bool}
    (h : writeVersion u s candidate f now = .ok (promoted, s')) :
    syncAttachmentManifest u s.attachments candidate.id f.attachments = .ok s'.attachments := by
  unfold writeVersion at h
  obtain ⟨_, -, h⟩ := bind_eq_ok.1 h
  obtain ⟨attachments, hsync, h⟩ := bind_eq_ok.1 h
  split at h
  · obtain ⟨_, -, h⟩ := bind_eq_ok.1 h
    obtain ⟨-, rfl⟩ := Prod.mk.inj (Except.ok.inj h)
    exact hsync
  · obtain ⟨-, rfl⟩ := Prod.mk.inj (Except.ok.inj h)
    exact hsync

/-- A call that returns leaves the rows or finalizes its version, and syncs
the manifest of that version. -/
theorem finalizeVersion_rows {versionId : Uuid} {promoted : Bool}
    (h : finalizeVersion u s versionId f now = .ok (promoted, s')) :
    s' = s ∨ ((∃ fingerprint equivalentTo,
        s'.versions = finalizeRow s.versions versionId fingerprint equivalentTo now) ∧
      (∃ v ∈ s.versions, v.id = versionId) ∧
      syncAttachmentManifest u s.attachments versionId f.attachments = .ok s'.attachments) := by
  obtain ⟨candidate, hfind, houtcome⟩ := finalizeVersion_eq_ok h
  have hid : candidate.id = versionId := by simpa using List.find?_some hfind
  have hmem : ∃ v ∈ s.versions, v.id = versionId :=
    ⟨candidate, List.mem_of_find?_eq_some hfind, hid⟩
  rcases houtcome with ⟨-, rfl⟩ | ⟨-, -, -, hmarked⟩ | ⟨-, -, hwritten⟩
  · exact .inl rfl
  · refine .inr ⟨⟨_, _, (markEquivalent_eq_ok hmarked).2.2.2⟩, hmem, ?_⟩
    obtain ⟨attachments, hsync, hmarked⟩ := bind_eq_ok.1 hmarked
    obtain rfl := Except.ok.inj hmarked
    exact hsync
  · refine .inr ⟨⟨_, _, hid ▸ (writeVersion_eq_ok hwritten).2.1⟩, hmem, ?_⟩
    rw [← hid]
    exact writeVersion_attachments hwritten

/-- Every event keeps the attachments of finalized versions only. -/
theorem AttachmentsFinalized.step {e : RecordsEvent} (h : AttachmentsFinalized s)
    (hs : s.step u e = some s') : AttachmentsFinalized s' := by
  cases e with
  | stage versionId createdAt =>
      unfold ProcessRecords.step at hs
      simp only at hs
      split at hs
      · cases hs
      · obtain rfl := Option.some.inj hs
        intro r hr
        -- Staging adds a version and no attachment.
        obtain ⟨v, hv, hid, hfinal⟩ := h r hr
        exact ⟨v, List.mem_append_left _ hv, hid, hfinal⟩
  | finalize versionId fields now =>
      unfold ProcessRecords.step at hs
      simp only at hs
      split at hs
      · obtain rfl := Option.some.inj hs
        exact h
      · rename_i hcall
        obtain rfl := Option.some.inj hs
        rcases finalizeVersion_rows hcall with rfl | ⟨⟨fingerprint, equivalentTo, hversions⟩,
            ⟨w, hw, hwid⟩, hsync⟩
        · exact h
        · -- a row is an old one or one of the version that is finalized now
          have hkept : ∀ v ∈ s.versions, v.finalized = true ∨ v.id = versionId →
              ∃ v' ∈ finalizeRow s.versions versionId fingerprint equivalentTo now,
                v'.id = v.id ∧ v'.finalized = true := by
            intro v hv hor
            refine ⟨_, List.mem_map_of_mem hv, ?_⟩
            by_cases hid : v.id = versionId
            · simp [hid, VersionRow.finalize]
            · simpa [hid] using hor.resolve_right hid
          intro r hr
          rw [hversions]
          rcases mem_syncAttachmentManifest hsync hr with hold | hnew
          · obtain ⟨v, hv, hid, hfinal⟩ := h r hold
            obtain ⟨v', hv', hid', hfinal'⟩ := hkept v hv (.inl hfinal)
            exact ⟨v', hv', hid'.trans hid, hfinal'⟩
          · obtain ⟨v', hv', hid', hfinal'⟩ := hkept w hw (.inr hwid)
            exact ⟨v', hv', hid'.trans (hwid.trans hnew.symm), hfinal'⟩

/-- The rows of a process without versions. -/
def ProcessRecords.empty : ProcessRecords where
  process := {}
  versions := []

theorem attachmentsFinalized_of_reachable
    (h : Reachable (ProcessRecords.step u) ProcessRecords.empty s) :
    AttachmentsFinalized s := by
  have hempty : AttachmentsFinalized ProcessRecords.empty := by
    intro r hr
    cases hr
  exact Reach.invariant hempty (fun _ _ _ hinv _ hs => hinv.step hs) h

end Runs

/-! ## §6. The round trip. -/

section RoundTrip

variable {u : Platform} {s s' : ProcessRecords} {now : Timestamp}

/-- The ids of a manifest are in the order of the collation. -/
def InCollationOrder (u : Platform) (attachments : List Attachment) : Prop :=
  attachments.Pairwise fun a b => u.collatesBefore a.attachmentId b.attachmentId = true

instance (u : Platform) (attachments : List Attachment) :
    Decidable (InCollationOrder u attachments) := by
  unfold InCollationOrder
  infer_instance

/-- **What the rows of a promoted version give back.** -/
theorem currentSemanticFingerprint_promoted (hu : ValuePreserving u) {candidate : VersionRow}
    {f : ExtractedFields u} (hfresh : ∀ r ∈ s.attachments, r.versionId ≠ candidate.id)
    (h : writeVersion u s candidate f.toSemanticFields now = .ok (true, s')) :
    currentSemanticFingerprint u s' = .ok (semanticFingerprint u
      { f.toSemanticFields with attachments := orderedManifest u f.attachments }) := by
  obtain ⟨-, -, ⟨rows, hrows, hsteps⟩, hprocess, -⟩ := writeVersion_eq_ok h
  obtain ⟨hversion, hnumbers, hstored⟩ := stepRows_eq_ok hrows
  have hread : stepsOf s'.steps (some candidate.id) = f.steps.map (Step.stored u) := by
    rw [hsteps, stepsOf_written hversion (by rw [hnumbers]; exact f.steps_increasing), hstored]
  have hattachments : attachmentsOf u s'.attachments (some candidate.id) =
      orderedManifest u f.attachments := by
    obtain ⟨source, hsource⟩ := f.attachments_safe
    obtain ⟨hnormal, hnodup⟩ := safeAttachmentsFrom_normal hu [] source
    obtain ⟨items, hitems, hsync⟩ := map_eq_ok.1 (writeVersion_attachments h)
    rw [hsource] at hitems ⊢
    obtain rfl := manifest_eq_ok (fun a ha => (hnormal a ha).1) hnodup hitems
    rw [← hsync, foldl_upsertAttachment hnodup fun r hr hid => absurd hid (hfresh r hr)]
    exact attachmentsOf_written hfresh
  obtain ⟨g, hg, hgf, hgsteps, hgattachments⟩ := promotedFields_eq_ok (hprocess rfl).1
  have hdocument := hgf.sortKeys_document hu (by rw [hgsteps, hread])
  rw [hgattachments, hattachments] at hdocument
  unfold currentSemanticFingerprint semanticFingerprint
  rw [hg]
  show Except.ok (Sha256.hexdigest (semanticDocument u g).dumps) = _
  unfold Json.dumps
  rw [hdocument]

theorem orderedManifest_eq_self {attachments : List Attachment}
    (h : InCollationOrder u attachments) : orderedManifest u attachments = attachments :=
  List.Pairwise.insertionSort_eq h

theorem orderedManifest_inOrder (hu : ValuePreserving u) (attachments : List Attachment) :
    InCollationOrder u (orderedManifest u attachments) := by
  have htotal : Std.Total fun a b : Attachment =>
      u.collatesBefore a.attachmentId b.attachmentId = true :=
    ⟨fun a b => hu.collates_total a.attachmentId b.attachmentId⟩
  have htrans : IsTrans Attachment fun a b =>
      u.collatesBefore a.attachmentId b.attachmentId = true :=
    ⟨fun a b c => hu.collates_trans a.attachmentId b.attachmentId c.attachmentId⟩
  exact List.pairwise_insertionSort _ attachments

/-- Whether a manifest is in order is a matter of its ids. -/
theorem inCollationOrder_congr {as bs : List Attachment}
    (h : as.map Attachment.attachmentId = bs.map Attachment.attachmentId) :
    InCollationOrder u as ↔ InCollationOrder u bs := by
  have hids : ∀ l : List Attachment, InCollationOrder u l ↔
      (l.map Attachment.attachmentId).Pairwise fun a b => u.collatesBefore a b = true := by
    intro l
    rw [List.pairwise_map]
    rfl
  rw [hids, hids, h]

/-- A call that promotes an open version writes its rows, and the version
had no attachments before. -/
theorem written_of_promoted
    (hs : Reachable (ProcessRecords.step u) ProcessRecords.empty s) {versionId : Uuid}
    {f : SemanticFields} (hopen : ∀ v ∈ s.versions, v.id = versionId → v.finalized = false)
    (h : finalizeVersion u s versionId f now = .ok (true, s')) :
    ∃ candidate, (∀ r ∈ s.attachments, r.versionId ≠ candidate.id) ∧
      writeVersion u s candidate f now = .ok (true, s') := by
  have hfinalized := attachmentsFinalized_of_reachable hs
  obtain ⟨candidate, hfind, houtcome⟩ := finalizeVersion_eq_ok h
  have hid : candidate.id = versionId := by simpa using List.find?_some hfind
  have hcandidate := hopen candidate (List.mem_of_find?_eq_some hfind) hid
  refine ⟨candidate, ?_, ?_⟩
  · intro r hr heq
    obtain ⟨v, hv, hvid, hfinal⟩ := hfinalized r hr
    rw [hopen v hv (hvid.trans (heq.trans hid))] at hfinal
    cases hfinal
  · rcases houtcome with ⟨hfinal, -⟩ | ⟨-, -, hnot, -⟩ | ⟨-, -, hwritten⟩
    · rw [hcandidate] at hfinal
      cases hfinal
    · cases hnot
    · exact hwritten

/-- **The fingerprint round trip.** -/
theorem fingerprint_stored_iff (hu : ValuePreserving u)
    (hs : Reachable (ProcessRecords.step u) ProcessRecords.empty s) {versionId : Uuid}
    {f : ExtractedFields u}
    (hopen : ∀ v ∈ s.versions, v.id = versionId → v.finalized = false)
    (h : finalizeVersion u s versionId f.toSemanticFields now = .ok (true, s')) :
    currentSemanticFingerprint u s' = .ok (semanticFingerprint u f.toSemanticFields) ↔
      InCollationOrder u f.attachments ∨
      Sha256.Collide (semanticDocument u f.toSemanticFields).dumps
        (semanticDocument u { f.toSemanticFields with
          attachments := orderedManifest u f.attachments }).dumps := by
  obtain ⟨candidate, hfresh, hwritten⟩ := written_of_promoted hs hopen h
  rw [currentSemanticFingerprint_promoted hu hfresh hwritten]
  constructor
  · intro hequal
    have hdigest := Except.ok.inj hequal
    by_cases htext : (semanticDocument u f.toSemanticFields).dumps =
        (semanticDocument u { f.toSemanticFields with
          attachments := orderedManifest u f.attachments }).dumps
    · -- one text: the ids stand in the same order, which is the collation's
      have hids := ids_of_dumps_eq (f := f.toSemanticFields) htext
      exact .inl ((inCollationOrder_congr hids).2 (orderedManifest_inOrder hu _))
    · exact .inr ⟨htext, hdigest.symm⟩
  · rintro (horder | ⟨-, hdigest⟩)
    · rw [orderedManifest_eq_self horder]
    · exact congrArg Except.ok hdigest.symm

end RoundTrip

/-! ## §7. Two attachments, the later id first. -/

section Ascii

theorem toLower_ascii (c : Char) :
    c.toLower.toLower = c.toLower ∧
      Platform.ascii.isSpace c.toLower = Platform.ascii.isSpace c := by
  by_cases hupper : 'A' ≤ c ∧ c ≤ 'Z'
  · have hsmall : ∀ n < 91, (Char.ofNat n).toLower.toLower = (Char.ofNat n).toLower ∧
        Platform.ascii.isSpace (Char.ofNat n).toLower =
          Platform.ascii.isSpace (Char.ofNat n) := by decide
    have hlt : c.toNat < 91 := Nat.lt_succ_of_le hupper.2
    have hc := hsmall c.toNat hlt
    rw [Char.ofNat_toNat] at hc
    exact hc
  · have hsame : c.toLower = c := by
      unfold Char.toLower
      exact dif_neg hupper
    rw [hsame, hsame]
    exact ⟨rfl, rfl⟩

theorem lower_lower_ascii (t : String) :
    Platform.ascii.lower (Platform.ascii.lower t) = Platform.ascii.lower t := by
  show String.ofList ((String.ofList (t.toList.map Char.toLower)).toList.map Char.toLower) = _
  rw [String.toList_ofList, List.map_map]
  refine congrArg String.ofList (List.map_congr_left fun c _ => ?_)
  exact (toLower_ascii c).1

/-- In ASCII, stripping and lower-casing commute. -/
theorem strip_lower_ascii (t : String) :
    Platform.ascii.strip (Platform.ascii.lower t) =
      Platform.ascii.lower (Platform.ascii.strip t) := by
  have hspace : Platform.ascii.isSpace ∘ Char.toLower = Platform.ascii.isSpace :=
    funext fun c => (toLower_ascii c).2
  unfold Platform.strip
  show String.ofList _ = String.ofList ((String.ofList _).toList.map Char.toLower)
  rw [String.toList_ofList, show (Platform.ascii.lower t).toList = t.toList.map Char.toLower from
    String.toList_ofList, List.dropWhile_map, hspace, ← List.map_reverse, List.dropWhile_map,
    hspace, ← List.map_reverse]

theorem valuePreserving_ascii : ValuePreserving .ascii := by
  refine ⟨fun _ => rfl, fun a b => ?_, fun a b c hab hbc => ?_, fun t => ?_⟩
  · simpa [Platform.ascii] using le_total a b
  · have h : a ≤ c := le_trans (by simpa [Platform.ascii] using hab)
      (by simpa [Platform.ascii] using hbc)
    simpa [Platform.ascii] using h
  · rw [strip_lower_ascii, lower_lower_ascii, strip_strip]

/-- One movement-free version with a manifest. -/
def withManifest (source : List SourceAttachment) : ExtractedFields .ascii where
  header := [("county", .str "Porto Alegre"), ("class_code", .str "7")]
  attachments := safeAttachments .ascii source
  court := .str "TJRS"
  className := .str "Procedimento Comum"
  steps_increasing := noSteps_increasing
  attachments_safe := ⟨source, rfl⟩

/-- The provider lists the later id first. -/
def unorderedSource : List SourceAttachment :=
  [{ attachmentId := "b", status := some " Done" }, { attachmentId := "a" }]

def orderedSource : List SourceAttachment :=
  [{ attachmentId := "a" }, { attachmentId := " b ", status := some "DONE" }]

/-- The version, staged and open. -/
def stagedRecords : ProcessRecords where
  process := {}
  versions := [{ id := 1, createdAt := 10 }]

theorem reachable_stagedRecords (u : Platform) :
    Reachable (ProcessRecords.step u) ProcessRecords.empty stagedRecords :=
  reachable_of_run (show run (ProcessRecords.step u) .empty [.stage 1 10] = some stagedRecords
    from rfl)

theorem stagedRecords_open :
    ∀ v ∈ stagedRecords.versions, v.id = 1 → v.finalized = false := by
  decide

theorem ok_of_mem_toOption {ε α : Type} {x : Except ε α} {a : α} (h : a ∈ x.toOption) :
    x = .ok a := by
  cases x with
  | error => cases h
  | ok b => exact congrArg Except.ok (Option.some.inj h)

theorem fingerprint_stored_ordered :
    ∃ s', finalizeVersion .ascii stagedRecords 1 (withManifest orderedSource).toSemanticFields 100 =
        .ok (true, s') ∧
      (currentSemanticFingerprint .ascii s' =
          .ok (semanticFingerprint .ascii (withManifest orderedSource).toSemanticFields) ↔
        InCollationOrder .ascii (withManifest orderedSource).attachments ∨
        Sha256.Collide (semanticDocument .ascii (withManifest orderedSource).toSemanticFields).dumps
          (semanticDocument .ascii { (withManifest orderedSource).toSemanticFields with
            attachments := orderedManifest .ascii (withManifest orderedSource).attachments }).dumps) ∧
      InCollationOrder .ascii (withManifest orderedSource).attachments := by
  have hpromoted : ∃ r ∈ (finalizeVersion .ascii stagedRecords 1
      (withManifest orderedSource).toSemanticFields 100).toOption, r.1 = true := by
    decide +kernel
  obtain ⟨⟨promoted, s'⟩, hr, hp⟩ := hpromoted
  obtain rfl : promoted = true := hp
  have hcall := ok_of_mem_toOption hr
  exact ⟨s', hcall, fingerprint_stored_iff valuePreserving_ascii (reachable_stagedRecords .ascii)
    stagedRecords_open hcall, by decide +kernel⟩

/-- The promotion of the unordered manifest is read back as other content. -/
theorem unorderedManifest_differs :
    ∃ r ∈ (finalizeVersion .ascii stagedRecords 1
        (withManifest unorderedSource).toSemanticFields 100).toOption,
      r.1 = true ∧ (currentSemanticFingerprint .ascii r.2).toOption ≠
        some (semanticFingerprint .ascii (withManifest unorderedSource).toSemanticFields) := by
  decide +kernel

/-- Not every promoted document has the fingerprint its rows give back. -/
theorem not_fingerprint_stored :
    ¬ ∀ (u : Platform) (_ : ValuePreserving u) (s s' : ProcessRecords)
      (_ : Reachable (ProcessRecords.step u) ProcessRecords.empty s) (versionId : Uuid)
      (f : ExtractedFields u) (now : Timestamp)
      (_ : ∀ v ∈ s.versions, v.id = versionId → v.finalized = false)
      (_ : finalizeVersion u s versionId f.toSemanticFields now = .ok (true, s')),
      currentSemanticFingerprint u s' = .ok (semanticFingerprint u f.toSemanticFields) := by
  intro h
  obtain ⟨⟨promoted, s'⟩, hr, hpromoted, hne⟩ := unorderedManifest_differs
  obtain rfl : promoted = true := hpromoted
  have hcall := ok_of_mem_toOption hr
  have hread := h .ascii valuePreserving_ascii stagedRecords s' (reachable_stagedRecords .ascii) 1
    (withManifest unorderedSource) 100 stagedRecords_open hcall
  exact hne (by rw [hread]; rfl)

end Ascii

end Rpy.Processes

/-
  Rpy.Processes.Semantics
  ───────────────────────
  **THE SEMANTIC DOCUMENT OF A PROCESS VERSION** (`app/process_semantics.py`).

    • `PromotableFields`    — what `extract_promotable_fields` gives to
                              `finalize_version`,
    • `semanticDocument`    — the document two versions are compared by,
    • `semanticFingerprint` — its digest,
    • `semanticDocument_canon_congr` — fields of one canonical form have
                              documents of one canonical form.
-/
import Rpy.Foundation.Sha256
import Rpy.Platform

namespace Rpy.Processes

open Rpy.Foundation

/-! ## §1. Promotable fields. -/

/-- A step as `extract_promotable_fields` and `process_steps` have it. -/
structure Step where
  stepNumber : Int
  occurredAt : Option Timestamp := none
  title : Json := .null
  text : String
  metadata : Json := .obj []
deriving Repr, DecidableEq

/-- An item of the attachment manifest. -/
structure Attachment where
  attachmentId : String
  attachmentDate : Option Timestamp := none
  attachmentName : Option String := none
  providerStatus : Option String := none
deriving Repr, DecidableEq

/-- The keyword arguments of `semantic_document`. -/
structure SemanticFields where
  header : List (String × Json)
  parties : List Json := []
  representatives : List Json := []
  subjects : List Json := []
  steps : List Step := []
  attachments : List Attachment := []
  court : Json := .null
  className : Json := .null
  secrecyLevel : Int := 0
deriving Repr, DecidableEq

/-- The promotable fields of a version: `enumerate` numbers the steps. -/
structure PromotableFields extends SemanticFields where
  steps_increasing : (steps.map Step.stepNumber).Pairwise (· < ·)
deriving DecidableEq

/-- No steps are in order. -/
theorem noSteps_increasing : (([] : List Step).map Step.stepNumber).Pairwise (· < ·) := .nil

/-! ## §2. The document. -/

/-- `SEMANTIC_SCHEMA_VERSION`. -/
def semanticSchemaVersion : Int := 3

/-- `_datetime_value`. -/
def datetimeValue (u : Platform) : Option Timestamp → Json
  | none => .null
  | some t => .str (u.isoSaoPaulo t)

/-- An optional string as a JSON value. -/
def optionalText : Option String → Json
  | none => .null
  | some s => .str s

/-- `step.get("metadata") if isinstance(…, dict) else {}`. -/
def metadataObject (metadata : Json) : Json :=
  if metadata.isObj then metadata else .obj []

/-- `_step_semantics`. -/
def stepSemantics (u : Platform) (s : Step) : Json :=
  let metadata := metadataObject s.metadata
  .obj [
    ("step_number", .int s.stepNumber),
    ("occurred_at", datetimeValue u s.occurredAt),
    ("title", s.title),
    ("text", .str s.text),
    ("source_step_number", metadata.get "source_step_number"),
    ("private", metadata.get "private"),
    ("secrecy_level", metadata.get "secrecy_level"),
    ("tags", (metadata.get "tags").orElse (.obj []))]

/-- `_attachment_semantics`. -/
def attachmentSemantics (u : Platform) (a : Attachment) : Json :=
  .obj [
    ("attachment_id", .str a.attachmentId),
    ("attachment_date", datetimeValue u a.attachmentDate),
    ("attachment_name", optionalText a.attachmentName),
    ("provider_status", optionalText a.providerStatus)]

/-- `semantic_document`. -/
def semanticDocument (u : Platform) (f : SemanticFields) : Json :=
  .obj [
    ("schema_version", .int semanticSchemaVersion),
    ("court", f.court),
    ("class_name", f.className),
    ("secrecy_level", .int f.secrecyLevel),
    ("header", .obj f.header),
    ("parties", .arr f.parties),
    ("representatives", .arr f.representatives),
    ("subjects", .arr f.subjects),
    ("steps", .arr (f.steps.map (stepSemantics u))),
    ("attachments", .arr (f.attachments.map (attachmentSemantics u)))]

/-- `semantic_fingerprint`. -/
def semanticFingerprint (u : Platform) (f : SemanticFields) : String :=
  Sha256.hexdigest (semanticDocument u f).dumps

/-! ## §3. Documents of equal fields. -/

/-- Two steps that differ at most in the form of their metadata object. -/
def Step.Same (s t : Step) : Prop :=
  s.stepNumber = t.stepNumber ∧ s.occurredAt = t.occurredAt ∧ s.title = t.title ∧
    s.text = t.text ∧ (metadataObject s.metadata).canon = (metadataObject t.metadata).canon

theorem metadataObject_congr {form : Json → Json} (hform : Json.IsForm form) {v w : Json}
    (h : form v = form w) : form (metadataObject v) = form (metadataObject w) := by
  have hobj : v.isObj = w.isObj := by rw [← hform.isObj, h, hform.isObj]
  unfold metadataObject
  rw [hobj]
  split
  · exact h
  · rfl

/-- The semantics of a step does not depend on the form of its metadata. -/
theorem stepSemantics_congr (u : Platform) {form : Json → Json} (hform : Json.IsForm form)
    {s t : Step} (h : s.stepNumber = t.stepNumber ∧ s.occurredAt = t.occurredAt ∧
      s.title = t.title ∧ s.text = t.text ∧
      form (metadataObject s.metadata) = form (metadataObject t.metadata)) :
    form (stepSemantics u s) = form (stepSemantics u t) := by
  obtain ⟨hnumber, hdate, htitle, htext, hobj⟩ := h
  simp only [stepSemantics, hform.obj, List.map_cons, List.map_nil, hnumber, hdate, htitle, htext,
    hform.get_congr hobj "source_step_number", hform.get_congr hobj "private",
    hform.get_congr hobj "secrecy_level",
    hform.orElse_congr (hform.get_congr hobj "tags") (.obj [])]

/-- Two lists of fields that differ at most in the form of the values. -/
structure SemanticFields.Same (f g : SemanticFields) : Prop where
  header : (Json.obj f.header).canon = (Json.obj g.header).canon
  parties : (Json.arr f.parties).canon = (Json.arr g.parties).canon
  representatives : (Json.arr f.representatives).canon = (Json.arr g.representatives).canon
  subjects : (Json.arr f.subjects).canon = (Json.arr g.subjects).canon
  steps : List.Forall₂ Step.Same f.steps g.steps
  attachments : f.attachments = g.attachments
  court : f.court = g.court
  className : f.className = g.className
  secrecyLevel : f.secrecyLevel = g.secrecyLevel

theorem canonList_map_stepSemantics (u : Platform) {ss ts : List Step}
    (h : List.Forall₂ Step.Same ss ts) :
    Json.canonList (ss.map (stepSemantics u)) = Json.canonList (ts.map (stepSemantics u)) := by
  induction h with
  | nil => rfl
  | cons hst _ ih =>
      simp only [List.map_cons, Json.canonList, stepSemantics_congr u Json.isForm_canon hst, ih]

/-- **Fields of one canonical form have documents of one canonical form.** -/
theorem semanticDocument_canon_congr (u : Platform) {f g : SemanticFields} (h : f.Same g) :
    (semanticDocument u f).canon = (semanticDocument u g).canon := by
  have hsteps := canonList_map_stepSemantics u h.steps
  simp only [semanticDocument, Json.canon, Json.canonMembers, h.attachments, h.court,
    h.className, h.secrecyLevel, hsteps]
  have hheader := h.header
  have hparties := h.parties
  have hrepresentatives := h.representatives
  have hsubjects := h.subjects
  simp only [Json.canon] at hheader hparties hrepresentatives hsubjects
  rw [hheader, hparties, hrepresentatives, hsubjects]

end Rpy.Processes

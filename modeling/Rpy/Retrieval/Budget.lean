/-
  Rpy.Retrieval.Budget
  ────────────────────
  **WHAT THE LIMITS LEAVE OF A TEXT** (`_serialize_steps` of `app/rag.py`,
  `serialize_attachment_chunks` of `app/attachment_context.py`).

  The texts of a prompt have a budget, shared in their order.  A movement is
  cut twice, first to the maximum of one movement; a chunk only once.

    • `serializeAttachmentChunks` — the chunks as the prompt holds them,
    • `WithinBudget`              — what the limits leave,
    • `serialized_withinBudget`   — of movements and of chunks.
-/
import Rpy.Retrieval.OnlyEligible
import Rpy.Retrieval.Optimality
import Rpy.Foundation.Sharing
import Mathlib.Algebra.Order.BigOperators.Group.List

namespace Rpy.Retrieval

open Rpy.Foundation

variable {F : Type}

/-! ## §1. Chunks. -/

/-- A row of `search_authorized_attachment_chunks`. -/
structure AttachmentChunk where
  chunkId : Uuid
  sourceAttachmentId : String
  text : Option String
  pageStart : Option Int := none
  pageEnd : Option Int := none
  charStart : Option Int := none
  charEnd : Option Int := none
deriving Repr, DecidableEq

/-- A chunk in the prompt: `evidence_ref` is that of its id. -/
structure PromptChunk where
  chunkId : Uuid
  sourceAttachmentId : String
  pageStart : Option Int
  pageEnd : Option Int
  charStart : Option Int
  charEnd : Option Int
  text : String
deriving Repr, DecidableEq

/-- The text of a chunk as the model sees it. -/
def AttachmentChunk.view (d : Deployment F) (chunk : AttachmentChunk) : String :=
  d.modelView (chunk.text.getD "")

/-- A chunk with its text. -/
def AttachmentChunk.prompt (chunk : AttachmentChunk) (text : String) : PromptChunk :=
  { chunkId := chunk.chunkId, sourceAttachmentId := chunk.sourceAttachmentId,
    pageStart := chunk.pageStart, pageEnd := chunk.pageEnd,
    charStart := chunk.charStart, charEnd := chunk.charEnd, text }

/-- `serialize_attachment_chunks`. -/
def serializeAttachmentChunks (d : Deployment F) (chunks : List AttachmentChunk)
    (totalTextLimit : Int) : Except String (List PromptChunk) := do
  if totalTextLimit ≤ 0 then throw "total_text_limit must be greater than zero"
  let texts := boundTexts totalTextLimit.toNat (chunks.map (AttachmentChunk.view d))
  return (chunks.zip texts).map fun pair => pair.1.prompt pair.2

/-! ## §2. Within the budget. -/

/-- A text, or a prefix of it with or without `TRUNCATION_MARKER`. -/
def Truncates (view text : String) : Prop :=
  Shortens truncationMarker.toList view.toList text.toList

/-- A text cut to `stepMax` and perhaps once more. -/
def TruncatesTwice (stepMax : Nat) (view text : String) : Prop :=
  ShortensTwice truncationMarker.toList stepMax view.toList text.toList

/-- **What the limits leave of some texts**: as many, in their order, each
of them cut as `cuts` says, and whole if it is not more than an equal part.
A chunk has no maximum of its own: `itemMax` is then the budget. -/
structure WithinBudget (cuts : String → String → Prop) (budget itemMax : Nat)
    (views texts : List String) : Prop where
  total : (texts.map String.length).sum ≤ budget
  each : ∀ text ∈ texts, text.length ≤ itemMax
  cut : List.Forall₂ cuts views texts
  fair : List.Forall₂ (fun view text =>
    view.length ≤ budget / views.length → view.length ≤ itemMax → text = view) views texts

/-- The code's cut, as a cut of characters. -/
theorem toList_truncateText (text : String) (limit : Nat) :
    (truncateText text limit).toList = cutTo truncationMarker.toList text.toList limit := by
  unfold truncateText cutTo
  rw [String.length_toList, String.length_toList]
  by_cases hfits : text.length ≤ limit
  · rw [if_pos hfits, if_pos hfits]
  · rw [if_neg hfits, if_neg hfits]
    by_cases hroom : limit ≤ truncationMarker.length
    · rw [if_pos hroom, if_pos hroom, String.toList_ofList]
    · rw [if_neg hroom, if_neg hroom, String.toList_append, String.toList_ofList]

/-- What is within the limit is not cut. -/
theorem truncateText_of_le {text : String} {limit : Nat} (h : text.length ≤ limit) :
    truncateText text limit = text := if_pos h

/-- What is cut is within the limit. -/
theorem length_truncateText_le (text : String) (limit : Nat) :
    (truncateText text limit).length ≤ limit := by
  rw [← String.length_toList, toList_truncateText]
  exact length_cutTo_le _ _ _

/-- No text grows. -/
theorem length_truncateText_le_length (text : String) (limit : Nat) :
    (truncateText text limit).length ≤ text.length := by
  by_cases h : text.length ≤ limit
  · rw [truncateText_of_le h]
  · exact Nat.le_trans (length_truncateText_le text limit) (by omega)

/-- **A cut text is a prefix with the marker after it**, or what the limit
leaves of the marker. -/
theorem truncates_truncateText (view : String) (limit : Nat) :
    Truncates view (truncateText view limit) := by
  unfold Truncates
  rw [toList_truncateText]
  exact shortens_cutTo _ _ _

/-- A step is cut to its own limit first. -/
theorem truncatesTwice_truncateText (view : String) (stepMax limit : Nat) :
    TruncatesTwice stepMax view (truncateText (truncateText view stepMax) limit) := by
  unfold TruncatesTwice
  rw [toList_truncateText, toList_truncateText]
  exact cutTo_cutTo

/-- The loop shares what remains. -/
theorem boundTexts_eq (texts : List String) (remaining : Nat) :
    boundTexts remaining texts = shareOut String.length truncateText remaining texts := by
  induction texts generalizing remaining with
  | nil => rfl
  | cons text rest ih =>
      exact congrArg (truncateText text (remaining / (rest.length + 1)) :: ·) (ih _)

/-- Each text is cut to its share at least. -/
theorem forall₂_boundTexts (texts : List String) (budget : Nat) :
    List.Forall₂ (fun text bounded => ∃ limit, budget / texts.length ≤ limit ∧
      bounded = truncateText text limit) texts (boundTexts budget texts) := by
  rw [boundTexts_eq]
  exact forall₂_shareOut length_truncateText_le texts (Nat.mul_div_le budget texts.length)

/-- **All the texts are within the budget.** -/
theorem sum_boundTexts_le (texts : List String) (budget : Nat) :
    ((boundTexts budget texts).map String.length).sum ≤ budget := by
  rw [boundTexts_eq]
  exact sum_shareOut_le length_truncateText_le texts budget

/-- No text is left out. -/
theorem length_boundTexts (texts : List String) (budget : Nat) :
    (boundTexts budget texts).length = texts.length :=
  (forall₂_boundTexts texts budget).length_eq.symm

/-! ## §3. Movements and chunks. -/

/-- The texts of the movements, before and after the budget is shared. -/
def boundedTexts (stepMax total : Nat) (views : List String) : List String :=
  let texts := views.map fun view => truncateText view stepMax
  if total < (texts.map String.length).sum then boundTexts total texts else texts

/-- The steps are within their budget, each cut twice at most. -/
theorem boundedTexts_withinBudget (stepMax total : Nat) (views : List String) :
    WithinBudget (TruncatesTwice stepMax) total stepMax views
      (boundedTexts stepMax total views) := by
  -- a text that has its part in the budget is cut to at least that part
  have hcut : List.Forall₂ (fun view text => text = truncateText view stepMax ∨
      ∃ limit, total / views.length ≤ limit ∧
        text = truncateText (truncateText view stepMax) limit)
      views (boundedTexts stepMax total views) := by
    unfold boundedTexts
    by_cases hover : total < ((views.map fun view => truncateText view stepMax).map
        String.length).sum
    · rw [if_pos hover]
      have hshared := forall₂_boundTexts (views.map fun view => truncateText view stepMax) total
      rw [List.forall₂_map_left_iff, List.length_map] at hshared
      exact hshared.imp fun _ _ => .inr
    · rw [if_neg hover]
      exact List.forall₂_map_right_iff.2 (List.forall₂_same.2 fun _ _ => .inl rfl)
  refine ⟨?_, ?_, hcut.imp ?_, hcut.imp ?_⟩
  · unfold boundedTexts
    by_cases hover : total < ((views.map fun view => truncateText view stepMax).map
        String.length).sum
    · rw [if_pos hover]
      exact sum_boundTexts_le _ total
    · rw [if_neg hover]
      exact Nat.not_lt.1 hover
  · refine forall_mem_of_forall₂ (hcut.imp ?_)
    rintro view text (rfl | ⟨limit, -, rfl⟩)
    · exact length_truncateText_le view stepMax
    · exact Nat.le_trans (length_truncateText_le_length _ limit)
        (length_truncateText_le view stepMax)
  · rintro view text (rfl | ⟨limit, -, rfl⟩)
    · exact .inl (truncates_truncateText view stepMax)
    · exact truncatesTwice_truncateText view stepMax limit
  · rintro view text (rfl | ⟨limit, hlimit, rfl⟩) hpart hmax
    · exact truncateText_of_le hmax
    · rw [truncateText_of_le hmax, truncateText_of_le (by omega)]

/-- So are the chunks, each cut once. -/
theorem boundTexts_withinBudget (total : Nat) (views : List String) :
    WithinBudget Truncates total total views (boundTexts total views) := by
  have hcut := forall₂_boundTexts views total
  have htotal := sum_boundTexts_le views total
  refine ⟨htotal, ?_, hcut.imp ?_, hcut.imp ?_⟩
  · intro text htext
    exact Nat.le_trans (List.single_le_sum (fun _ _ => Nat.zero_le _) _
      (List.mem_map_of_mem htext)) htotal
  · rintro view text ⟨limit, -, rfl⟩
    exact truncates_truncateText view limit
  · rintro view text ⟨limit, hlimit, rfl⟩ hpart -
    exact truncateText_of_le (Nat.le_trans hpart hlimit)

/-- The text of a movement as the model sees it. -/
def RankedStep.view (d : Deployment F) (item : RankedStep F) : String :=
  d.modelView item.step.text

section Limits

variable (d : Deployment F) (g : Generation F)

/-- What the prompt holds of some movements, by `cuts` the way their texts
are cut: the references in their order and the texts within the budget. -/
def SerializesSteps (cuts : Nat → String → String → Prop) : Prop :=
  ∀ ranked promptMax stepMax total, contextLimits d g = .ok (promptMax, stepMax, total) →
    ∃ steps, serializeSteps d g ranked = .ok steps ∧
      steps.map PromptStep.stepId = ranked.map (fun item => item.step.id) ∧
      WithinBudget (cuts stepMax) total stepMax (ranked.map (RankedStep.view d))
        (steps.map PromptStep.text)

/-- What the prompt holds of some chunks. -/
def SerializesChunks : Prop :=
  ∀ chunks (total : Nat), 0 < total →
    ∃ rendered, serializeAttachmentChunks d chunks total = .ok rendered ∧
      rendered.map PromptChunk.chunkId = chunks.map AttachmentChunk.chunkId ∧
      WithinBudget Truncates total total (chunks.map (AttachmentChunk.view d))
        (rendered.map PromptChunk.text)

/-- A movement with its text. -/
def RankedStep.prompt (item : RankedStep F) (text : String) : PromptStep :=
  { stepId := item.step.id, stepNumber := item.step.stepNumber,
    occurredAt := item.step.occurredAt.map d.python.isoSaoPaulo,
    title := item.step.title.map d.modelView, text }

/-- The steps that are sent, with their bounded views. -/
theorem serializeSteps_eq {ranked : List (RankedStep F)} {promptMax stepMax total : Nat}
    (h : contextLimits d g = .ok (promptMax, stepMax, total)) :
    serializeSteps d g ranked = .ok
      ((ranked.zip (boundedTexts stepMax total (ranked.map (RankedStep.view d)))).map
        fun pair => pair.1.prompt d pair.2) := by
  unfold serializeSteps boundedTexts
  rw [h, List.map_map]
  rfl

/-- The steps of the prompt are those that were selected. -/
theorem serializesSteps : SerializesSteps d g TruncatesTwice := by
  intro ranked promptMax stepMax total hlimits
  have hbudget := boundedTexts_withinBudget stepMax total (ranked.map (RankedStep.view d))
  have hlength := hbudget.cut.length_eq
  rw [List.length_map] at hlength
  refine ⟨_, serializeSteps_eq d g hlimits, ?_, ?_⟩
  · rw [List.map_map]
    show (ranked.zip _).map ((fun item => item.step.id) ∘ Prod.fst) = _
    rw [← List.map_map, List.map_fst_zip (Nat.le_of_eq hlength)]
  · rw [List.map_map]
    show WithinBudget _ _ _ _ ((ranked.zip _).map Prod.snd)
    rw [List.map_snd_zip (Nat.le_of_eq hlength.symm)]
    exact hbudget

/-- So are the chunks. -/
theorem serializesChunks : SerializesChunks d := by
  intro chunks total htotal
  have hbudget := boundTexts_withinBudget total (chunks.map (AttachmentChunk.view d))
  have hlength := hbudget.cut.length_eq
  rw [List.length_map] at hlength
  refine ⟨(chunks.zip (boundTexts total (chunks.map (AttachmentChunk.view d)))).map
    fun pair => pair.1.prompt pair.2, ?_, ?_, ?_⟩
  · unfold serializeAttachmentChunks
    rw [if_neg (by omega)]
    rfl
  · rw [List.map_map]
    show (chunks.zip _).map (AttachmentChunk.chunkId ∘ Prod.fst) = _
    rw [← List.map_map, List.map_fst_zip (Nat.le_of_eq hlength)]
  · rw [List.map_map]
    show WithinBudget _ _ _ _ ((chunks.zip _).map Prod.snd)
    rw [List.map_snd_zip (Nat.le_of_eq hlength.symm)]
    exact hbudget

/-- **What the limits leave** of the movements and of the chunks. -/
theorem serialized_withinBudget : SerializesSteps d g TruncatesTwice ∧ SerializesChunks d :=
  ⟨serializesSteps d g, serializesChunks d⟩

end Limits

/-- A deployment with room for fourteen characters of a movement and for
twenty of them all. -/
def narrowDeployment : Deployment Int :=
  { plainDeployment with
    env := fun name => [("PROVIDER_STEP_TEXT_MAX_CHARS", "14"),
      ("PROVIDER_STEPS_TEXT_MAX_CHARS", "20")].lookup name }

/-- Generation in it. -/
def narrowGeneration : Generation Int :=
  { plainGeneration with parseInt := fun text => [("14", 14), ("20", 20)].lookup text }

/-- Two movements of sixteen characters. -/
def twoMovements : List (RankedStep Int) :=
  [{ step := { id := 1, stepNumber := 1, text := "Juntada de peça." }, score := 0 },
   { step := { id := 2, stepNumber := 2, text := "Conclusos ao MM." }, score := 0 }]

/-- The limits of the narrow deployment are kept. -/
theorem serialized_withinBudget_narrow :
    ∃ steps, serializeSteps narrowDeployment narrowGeneration twoMovements = .ok steps ∧
      steps.map PromptStep.stepId = [1, 2] ∧
      WithinBudget (TruncatesTwice 14) 20 14
        (twoMovements.map (RankedStep.view narrowDeployment)) (steps.map PromptStep.text) :=
  (serialized_withinBudget narrowDeployment narrowGeneration).1 twoMovements 120000 14 20
    (by decide +kernel)

/-- A movement is cut in its first marker: neither a prefix nor a prefix
with the marker is left of it. -/
theorem not_serializesSteps_truncates :
    ¬SerializesSteps narrowDeployment narrowGeneration fun _ => Truncates := by
  intro h
  obtain ⟨steps, hsteps, -, hbudget⟩ := h twoMovements 120000 14 20 (by decide +kernel)
  have hcomputed : serializeSteps narrowDeployment narrowGeneration twoMovements = .ok
      [{ stepId := 1, stepNumber := 1, occurredAt := none, title := none, text := "J… [trunca" },
       { stepId := 2, stepNumber := 2, occurredAt := none, title := none, text := "C… [trunca" }] := by
    decide +kernel
  obtain rfl := Except.ok.inj (hsteps.symm.trans hcomputed)
  have hcut : Truncates "Juntada de peça." "J… [trunca" := (List.forall₂_cons.1 hbudget.cut).1
  rcases hcut with hwhole | ⟨k, hprefix | hmarked⟩
  · exact absurd hwhole (by decide +kernel)
  · -- its second character is that of the marker
    have his : "J… [trunca".toList <+: "Juntada de peça.".toList := hprefix ▸ List.take_prefix k _
    exact absurd his (by decide +kernel)
  · have hlength := congrArg List.length hmarked
    rw [List.length_append] at hlength
    have hshort : "J… [trunca".toList.length = 10 := by decide +kernel
    have hmarker : truncationMarker.toList.length = 13 := by decide +kernel
    omega

end Rpy.Retrieval

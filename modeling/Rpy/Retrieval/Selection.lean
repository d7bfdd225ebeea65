/-
  Rpy.Retrieval.Selection
  ───────────────────────
  **WHICH MOVEMENTS THE CONTEXT HOLDS.**

  The ranking keeps the mandatory movements and fills up by score; an
  optional reranker reduces the long lists once more.  Whatever the scores
  are, a selected movement is one of those ranked.

    • `mem_selectWithMandatory` — the selection is from the items given,
    • `mem_rankSteps`           — `rank_steps` selects from its steps,
    • `mem_rerankSteps`         — and so does `rerank_steps`.

  `app/retrieval.py`, `app/reranking.py`.
-/
import Rpy.Retrieval.Embeddings

namespace Rpy.Retrieval

open Rpy.Foundation

variable {F : Type}

/-! ## §1. The mandatory movements and the others by score. -/

/-- `step.searchable_text`. -/
def Step.searchableText (python : Python) (step : Step) : String :=
  python.strip (step.title.getD "" ++ " " ++ step.text)

/-- `SHORT_PROCESS_ALL_STEPS_MAX`. -/
def shortProcessAllStepsMax : Nat := 40

/-- `MANDATORY_RECENT_STEPS`. -/
def mandatoryRecentSteps : Nat := 5

section Selecting

variable {ι : Type} (stepOf : ι → Step)

/-- `sorted(items, key=lambda item: item.step_number)`. -/
def sortByNumber (items : List ι) : List ι :=
  items.insertionSort fun a b => (stepOf a).stepNumber ≤ (stepOf b).stepNumber

/-- `selected.setdefault(item.id, item)`. -/
def setDefault (selected : List ι) (item : ι) : List ι :=
  if selected.any fun other => (stepOf other).id == (stepOf item).id then selected
  else selected ++ [item]

/-- `selected[item.id] = item`. -/
def setItem (selected : List ι) (item : ι) : List ι :=
  if selected.any fun other => (stepOf other).id == (stepOf item).id then
    updateWhere (fun other => (stepOf other).id == (stepOf item).id) (fun _ => item) selected
  else selected ++ [item]

/-- The loop that fills the selection up to its bound. -/
def fillUp (bound : Nat) : List ι → List ι → List ι
  | selected, [] => selected
  | selected, item :: rest =>
      if bound ≤ selected.length then selected
      else fillUp bound (setDefault stepOf selected item) rest

/-- `mandatory_ids`: the first, the last, the most recent and the forced. -/
def mandatoryIds (forced : ι → Bool) (items : List ι) : List Uuid :=
  let byNumber := sortByNumber stepOf items
  ((byNumber.take 1 ++ byNumber.drop (byNumber.length - 1) ++
    byNumber.drop (byNumber.length - mandatoryRecentSteps) ++ items.filter forced).map
      fun item => (stepOf item).id).dedup

/-- The mandatory items, and the others in the order of `ranked` up to the
limit (`max(limit, len(mandatory_ids))` is not negative). -/
def selectWithMandatory (forced : ι → Bool) (items ranked : List ι) (limit : Int) : List ι :=
  let mandatory := mandatoryIds stepOf forced items
  let selected := (items.filter fun item => mandatory.contains (stepOf item).id).foldl
    (setItem stepOf) []
  sortByNumber stepOf (fillUp stepOf (max limit mandatory.length).toNat selected ranked)

variable {stepOf}

/-- Ordering the steps loses none. -/
theorem mem_sortByNumber {items : List ι} {item : ι} :
    item ∈ sortByNumber stepOf items ↔ item ∈ items :=
  (List.perm_insertionSort _ items).mem_iff

/-- `setdefault` adds the item at most. -/
theorem mem_setDefault {selected : List ι} {item i : ι}
    (h : i ∈ setDefault stepOf selected item) : i ∈ selected ∨ i = item := by
  unfold setDefault at h
  split at h
  · exact .inl h
  · simpa using h

/-- So does an assignment. -/
theorem mem_setItem {selected : List ι} {item i : ι}
    (h : i ∈ setItem stepOf selected item) : i ∈ selected ∨ i = item := by
  unfold setItem at h
  split at h
  · rcases mem_updateWhere.1 h with ⟨_, -, -, hi⟩ | ⟨hi, -⟩
    · exact .inr hi
    · exact .inl hi
  · simpa using h

/-- Filling up takes from the ranking. -/
theorem mem_fillUp {bound : Nat} {selected ranked : List ι} {i : ι}
    (h : i ∈ fillUp stepOf bound selected ranked) : i ∈ selected ∨ i ∈ ranked := by
  induction ranked generalizing selected with
  | nil => exact .inl h
  | cons item rest ih =>
      unfold fillUp at h
      split at h
      · exact .inl h
      · rcases ih h with hi | hi
        · rcases mem_setDefault hi with hi | rfl
          · exact .inl hi
          · exact .inr List.mem_cons_self
        · exact .inr (List.mem_cons_of_mem _ hi)

/-- The selected steps come from the two lists. -/
theorem mem_foldl_setItem {selected items : List ι} {i : ι}
    (h : i ∈ items.foldl (setItem stepOf) selected) : i ∈ selected ∨ i ∈ items := by
  induction items generalizing selected with
  | nil => exact .inl h
  | cons item rest ih =>
      rcases ih h with hi | hi
      · rcases mem_setItem hi with hi | rfl
        · exact .inl hi
        · exact .inr List.mem_cons_self
      · exact .inr (List.mem_cons_of_mem _ hi)

/-- **The selection is from the items given.** -/
theorem mem_selectWithMandatory {forced : ι → Bool} {items ranked : List ι} {limit : Int} {i : ι}
    (h : i ∈ selectWithMandatory stepOf forced items ranked limit) : i ∈ items ∨ i ∈ ranked := by
  rcases mem_fillUp (mem_sortByNumber.1 h) with hi | hi
  · rcases mem_foldl_setItem hi with hi | hi
    · cases hi
    · exact .inl (List.mem_filter.1 hi).1
  · exact .inr hi

end Selecting

/-! ## §2. Ranking. -/

/-- `RankedStep`; of its scores, the one that orders it. -/
structure RankedStep (F : Type) where
  step : Step
  score : F
  forced : Bool := false

/-- What the ranking reads from a text: BM25 with the vector scores and the
recency boost, and the expression of the milestones. -/
structure Ranking (F : Type) where
  /-- `base_score * recency` of a step among all of them -/
  hybridScore : String → List Step → List (Uuid × F) → Step → F
  /-- `MILESTONE_RE.search(text)` -/
  isMilestone : String → Bool

section Ranked

variable (d : Deployment F) (r : Ranking F)

/-- `rank_steps`. -/
def rankSteps (query : String) (steps : List Step) (vectorScores : List (Uuid × F))
    (limit : Int) : List (RankedStep F) :=
  if steps.length ≤ shortProcessAllStepsMax then
    (sortByNumber id steps).map fun step => { step, score := d.floats.one, forced := true }
  else
    let ranked : List (RankedStep F) := steps.map fun step =>
      { step, score := r.hybridScore query steps vectorScores step,
        forced := r.isMilestone (step.searchableText d.python) }
    selectWithMandatory RankedStep.step RankedStep.forced ranked
      (ranked.insertionSort fun a b => ¬d.floats.lt a.score b.score) limit

/-- `rerank_steps`. -/
def rerankSteps (steps : List Step) (scores : List (Uuid × F)) (limit : Int) :
    Except String (List Step) :=
  if limit ≤ 0 then .error "reranker limit must be positive"
  else if steps.isEmpty then .ok []
  else
    let byNumber := sortByNumber id steps
    let score := fun step : Step => (scores.lookup step.id).getD d.floats.zero
    .ok (selectWithMandatory id (fun step => r.isMilestone (step.searchableText d.python)) byNumber
      (byNumber.insertionSort fun a b => d.floats.lt (score b) (score a) ∨
        (¬d.floats.lt (score a) (score b) ∧ a.stepNumber ≤ b.stepNumber)) limit)

variable {d r}

/-- **`rank_steps` selects from its steps.** -/
theorem mem_rankSteps {query : String} {steps : List Step} {vectorScores : List (Uuid × F)}
    {limit : Int} {item : RankedStep F} (h : item ∈ rankSteps d r query steps vectorScores limit) :
    item.step ∈ steps := by
  unfold rankSteps at h
  split at h
  · obtain ⟨step, hstep, rfl⟩ := List.mem_map.1 h
    exact mem_sortByNumber.1 hstep
  · have hranked : item ∈ steps.map fun step : Step =>
        ({ step, score := r.hybridScore query steps vectorScores step,
           forced := r.isMilestone (step.searchableText d.python) } : RankedStep F) := by
      rcases mem_selectWithMandatory h with hi | hi
      · exact hi
      · exact (List.perm_insertionSort _ _).mem_iff.1 hi
    obtain ⟨step, hstep, rfl⟩ := List.mem_map.1 hranked
    exact hstep

/-- **`rerank_steps` selects from its steps.** -/
theorem mem_rerankSteps {steps selected : List Step} {scores : List (Uuid × F)} {limit : Int}
    (h : rerankSteps d r steps scores limit = .ok selected) {step : Step}
    (hstep : step ∈ selected) : step ∈ steps := by
  unfold rerankSteps at h
  split at h
  · cases h
  · split at h
    · obtain rfl := Except.ok.inj h
      cases hstep
    · obtain rfl := Except.ok.inj h
      rcases mem_selectWithMandatory hstep with hi | hi
      · exact mem_sortByNumber.1 hi
      · exact mem_sortByNumber.1 ((List.perm_insertionSort _ _).mem_iff.1 hi)

end Ranked

end Rpy.Retrieval

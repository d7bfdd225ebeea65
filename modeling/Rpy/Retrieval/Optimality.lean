/-
  Rpy.Retrieval.Optimality
  ────────────────────────
  **WHAT THE TWO SELECTIONS SELECT.**

  `rank_steps` cuts a long process down to a limit by its hybrid scores and
  `rerank_steps` cuts the result down once more by the scores of a reranker.
  Each keeps the mandatory movements and the best of the others; the second
  finds the same mandatory movements in what the first has left.

    • `KeepsMandatory`          — a selection that loses no mandatory movement,
    • `selectContextSteps_keeps` — the two together make one,
    • `ranking_optimal`         — the others are the best ones, and as many as
                                  there is room for.
-/
import Rpy.Retrieval.Generation
import Rpy.Retrieval.Mandatory

namespace Rpy.Retrieval

open Rpy.Foundation

/-! ## §1. What is asked of a selection. -/

/-- The selection holds the mandatory movements, in the order of their
numbers and none twice, and has as many as the target asks for. -/
structure KeepsMandatory (milestone : Step → Bool) (steps : List Step) (target : Nat)
    (selected : List Step) : Prop where
  keeps : ∀ step ∈ steps, mandatory milestone steps step = true → step ∈ selected
  sorted : selected.Pairwise fun a b => a.stepNumber ≤ b.stepNumber
  nodup : selected.Nodup
  subset : ∀ step ∈ selected, step ∈ steps
  size : selected.length =
    min steps.length (max target (steps.filter (mandatory milestone steps)).length)

/-- The movements selected for their scores are before those left out, and
as many as the limit has room for. -/
structure SelectsBest (milestone : Step → Bool) (before : Step → Step → Prop)
    (steps : List Step) (limit : Int) (selected : List Step) : Prop where
  best : ∀ step ∈ selected, mandatory milestone steps step = false →
    ∀ other ∈ steps, other ∉ selected → before step other
  count : ((selected.filter fun step => !mandatory milestone steps step).length : Int) =
    min ((steps.filter fun step => !mandatory milestone steps step).length : Int)
      (max (limit - (steps.filter (mandatory milestone steps)).length) 0)

/-! ## §2. One selection. -/

section One

variable {ι : Type} {stepOf : ι → Step} {forced : ι → Bool} {items ranked : List ι}
  {milestone : Step → Bool}

/-- What the selection holds, up to its order. -/
def chosen (stepOf : ι → Step) (milestone : Step → Bool) (items ranked : List ι) (limit : Int) :
    List ι :=
  items.filter (mandatoryItem stepOf milestone items) ++
    (ranked.filter fun item => !mandatoryItem stepOf milestone items item).take
      (limit.toNat - (items.filter (mandatoryItem stepOf milestone items)).length)

theorem chosen_subset (hranked : ranked.Perm items) {limit : Int} {item : ι}
    (hitem : item ∈ chosen stepOf milestone items ranked limit) : item ∈ items := by
  rcases List.mem_append.1 hitem with hitem | hitem
  · exact (List.mem_filter.1 hitem).1
  · exact hranked.mem_iff.1 (List.mem_filter.1 (List.mem_of_mem_take hitem)).1

theorem chosen_nodup (hitems : items.Nodup) (hranked : ranked.Perm items) (limit : Int) :
    (chosen stepOf milestone items ranked limit).Nodup := by
  refine List.nodup_append.2 ⟨hitems.filter _, ?_, ?_⟩
  · exact (List.take_sublist _ _).nodup ((hranked.nodup_iff.2 hitems).filter _)
  · rintro a ha b hb rfl
    have hyes := (List.mem_filter.1 ha).2
    have hno := (List.mem_filter.1 (List.mem_of_mem_take hb)).2
    rw [hyes] at hno
    cases hno

/-- The mandatory items and the others are all the items. -/
theorem length_others (stepOf : ι → Step) (milestone : Step → Bool) (hranked : ranked.Perm items) :
    (items.filter (mandatoryItem stepOf milestone items)).length +
      (ranked.filter fun item => !mandatoryItem stepOf milestone items item).length =
      items.length := by
  rw [(hranked.filter _).length_eq]
  exact (List.length_eq_length_filter_add _).symm

/-- The items chosen for their scores are those that are not mandatory. -/
theorem filter_chosen (limit : Int) :
    ((chosen stepOf milestone items ranked limit).filter fun item =>
      !mandatoryItem stepOf milestone items item) =
      (ranked.filter fun item => !mandatoryItem stepOf milestone items item).take
        (limit.toNat - (items.filter (mandatoryItem stepOf milestone items)).length) := by
  unfold chosen
  rw [List.filter_append, List.filter_filter]
  have hnone : items.filter (fun item => !mandatoryItem stepOf milestone items item &&
      mandatoryItem stepOf milestone items item) = [] :=
    List.filter_eq_nil_iff.2 fun item _ => by simp
  rw [hnone, List.nil_append]
  exact List.filter_eq_self.2 fun item hitem =>
    (List.mem_filter.1 (List.mem_of_mem_take hitem)).2

theorem selectWithMandatory_perm (hids : (items.map fun item => (stepOf item).id).Nodup)
    (hnumbers : (items.map fun item => (stepOf item).stepNumber).Nodup)
    (hforced : ∀ item ∈ items, forced item = milestone (stepOf item))
    (hranked : ranked.Perm items) (limit : Int) :
    (selectWithMandatory stepOf forced items ranked limit).Perm
      (chosen stepOf milestone items ranked limit) := by
  rw [selectWithMandatory_eq hids hnumbers hforced hranked]
  exact List.perm_insertionSort _ _

variable (stepOf forced milestone)

/-- **A selection keeps the mandatory movements.** -/
theorem keepsMandatory_of_selection (hids : (items.map fun item => (stepOf item).id).Nodup)
    (hnumbers : (items.map fun item => (stepOf item).stepNumber).Nodup)
    (hforced : ∀ item ∈ items, forced item = milestone (stepOf item))
    (hranked : ranked.Perm items) (limit : Int) :
    KeepsMandatory milestone (items.map stepOf) limit.toNat
      ((selectWithMandatory stepOf forced items ranked limit).map stepOf) := by
  have hperm := selectWithMandatory_perm hids hnumbers hforced hranked limit
  have hitems : items.Nodup := hids.of_map _
  refine ⟨?_, ?_, ?_, ?_, ?_⟩
  · rw [List.forall_mem_map]
    intro item hitem hmandatory
    exact List.mem_map_of_mem (hperm.mem_iff.2
      (List.mem_append_left _ (List.mem_filter.2 ⟨hitem, hmandatory⟩)))
  · rw [List.pairwise_map]
    exact pairwise_insertionSort_of (r := fun a b => (stepOf a).stepNumber ≤ (stepOf b).stepNumber)
      (fun a b => le_total _ _) (fun a b c => le_trans) _
  · refine ((hperm.nodup_iff.2 (chosen_nodup hitems hranked limit)).map_on ?_)
    intro a ha b hb hsame
    exact eq_of_stepId hids (chosen_subset hranked (hperm.mem_iff.1 ha))
      (chosen_subset hranked (hperm.mem_iff.1 hb)) (congrArg Step.id hsame)
  · rw [List.forall_mem_map]
    exact fun item hitem =>
      List.mem_map_of_mem (chosen_subset hranked (hperm.mem_iff.1 hitem))
  · have hall := length_others stepOf milestone hranked
    rw [List.length_map, hperm.length_eq, List.length_map, List.filter_map, List.length_map]
    unfold chosen
    rw [List.length_append, List.length_take]
    show _ = min items.length (max limit.toNat
      (items.filter (mandatoryItem stepOf milestone items)).length)
    omega

/-- **A selection selects the best of the others.** -/
theorem selectsBest_of_selection {r : ι → ι → Prop} (before : Step → Step → Prop)
    (hids : (items.map fun item => (stepOf item).id).Nodup)
    (hnumbers : (items.map fun item => (stepOf item).stepNumber).Nodup)
    (hforced : ∀ item ∈ items, forced item = milestone (stepOf item))
    (hranked : ranked.Perm items) (hsorted : ranked.Pairwise r)
    (hbefore : ∀ a ∈ items, ∀ b ∈ items, stepOf a ≠ stepOf b → r a b →
      before (stepOf a) (stepOf b)) (limit : Int) :
    SelectsBest milestone before (items.map stepOf) limit
      ((selectWithMandatory stepOf forced items ranked limit).map stepOf) := by
  have hperm := selectWithMandatory_perm hids hnumbers hforced hranked limit
  refine ⟨?_, ?_⟩
  · rw [List.forall_mem_map]
    intro item hitem hfree
    rw [List.forall_mem_map]
    intro other hother hout
    have hitem := hperm.mem_iff.1 hitem
    have hin := chosen_subset hranked hitem
    have hne : stepOf item ≠ stepOf other := fun hsame =>
      hout (hsame ▸ List.mem_map_of_mem (hperm.mem_iff.2 hitem))
    have hleft : other ∉ chosen stepOf milestone items ranked limit := fun hmem =>
      hout (List.mem_map_of_mem (hperm.mem_iff.2 hmem))
    -- both are among the items that are not mandatory: one is kept, one is not
    rw [chosen, List.mem_append, not_or, List.mem_filter, not_and, Bool.not_eq_true] at hleft
    refine hbefore item hin other hother hne
      (rel_of_mem_take (hsorted.filter _) ?_ ?_ hleft.2)
    · rw [← filter_chosen]
      exact List.mem_filter.2 ⟨hitem, congrArg (! ·) hfree⟩
    · exact List.mem_filter.2 ⟨hranked.mem_iff.2 hother, congrArg (! ·) (hleft.1 hother)⟩
  · have hcount : (((selectWithMandatory stepOf forced items ranked limit).map stepOf).filter
        fun step => !mandatory milestone (items.map stepOf) step).length =
        min (limit.toNat - (items.filter (mandatoryItem stepOf milestone items)).length)
          (ranked.filter fun item => !mandatoryItem stepOf milestone items item).length := by
      rw [List.filter_map, List.length_map, (hperm.filter _).length_eq, ← List.length_take,
        ← filter_chosen]
      rfl
    rw [hcount, List.filter_map, List.length_map, List.filter_map, List.length_map,
      (hranked.filter _).length_eq]
    show _ = min ((items.filter fun item => !mandatoryItem stepOf milestone items item).length : Int)
      (max (limit - (items.filter (mandatoryItem stepOf milestone items)).length) 0)
    omega

end One

/-! ## §3. Ranking and reranking. -/

/-- The floats are compared as the values of a linear order are. -/
structure Floats.Linear {F : Type} (f : Floats F) : Prop where
  irrefl : ∀ a, f.lt a a = false
  trans : ∀ a b c, f.lt a b = true → f.lt b c = true → f.lt a c = true
  total : ∀ a b, f.lt a b = true ∨ a = b ∨ f.lt b a = true

section Linear

variable {F : Type} {f : Floats F} (h : f.Linear)

include h in
theorem Floats.Linear.asymm {a b : F} (hlt : f.lt a b = true) : f.lt b a = false := by
  by_contra hba
  have hself := h.trans a b a hlt (by simpa using hba)
  rw [h.irrefl] at hself
  cases hself

include h in
theorem Floats.Linear.not_lt_total (a b : F) : f.lt a b = false ∨ f.lt b a = false := by
  rcases h.total a b with hab | rfl | hba
  · exact .inr (h.asymm hab)
  · exact .inl (h.irrefl a)
  · exact .inl (h.asymm hba)

include h in
theorem Floats.Linear.not_lt_trans {a b c : F} (hab : f.lt a b = false) (hbc : f.lt b c = false) :
    f.lt a c = false := by
  by_contra hac
  have hac : f.lt a c = true := by simpa using hac
  rcases h.total a b with hlt | rfl | hlt
  · rw [hab] at hlt
    cases hlt
  · rw [hbc] at hac
    cases hac
  · rw [h.trans b a c hlt hac] at hbc
    cases hbc

end Linear

section Ranks

variable {F : Type} (d : Deployment F) (r : Ranking F)

/-- Is the text of a movement that of a milestone? -/
def milestoneStep (step : Step) : Bool := r.isMilestone (step.searchableText d.python)

/-- A movement with its score among all of them. -/
def rankedStep (query : String) (steps : List Step) (vectorScores : List (Uuid × F))
    (step : Step) : RankedStep F where
  step := step
  score := r.hybridScore query steps vectorScores step
  forced := milestoneStep d r step

/-- The score a reranker gave, or zero. -/
def rerankScore (scores : List (Uuid × F)) (step : Step) : F :=
  (scores.lookup step.id).getD d.floats.zero

/-- The order of `rerank_steps`: by the score, then by the number. -/
def rerankBefore (scores : List (Uuid × F)) (a b : Step) : Prop :=
  d.floats.lt (rerankScore d scores b) (rerankScore d scores a) = true ∨
    (rerankScore d scores a = rerankScore d scores b ∧ a.stepNumber < b.stepNumber)

variable {d r} {query : String} {steps : List Step} {vectorScores scores : List (Uuid × F)}
  {limit : Int}

theorem rankSteps_long (hlong : shortProcessAllStepsMax < steps.length) :
    rankSteps d r query steps vectorScores limit =
      selectWithMandatory RankedStep.step RankedStep.forced
        (steps.map (rankedStep d r query steps vectorScores))
        ((steps.map (rankedStep d r query steps vectorScores)).insertionSort fun a b =>
          ¬d.floats.lt a.score b.score) limit := by
  unfold rankSteps
  rw [if_neg (Nat.not_le.2 hlong)]
  rfl

theorem rerankSteps_positive (hlimit : 0 < limit) :
    rerankSteps d r steps scores limit =
      .ok (selectWithMandatory id (milestoneStep d r) (sortByNumber id steps)
        ((sortByNumber id steps).insertionSort fun a b =>
          d.floats.lt (rerankScore d scores b) (rerankScore d scores a) ∨
            (¬d.floats.lt (rerankScore d scores a) (rerankScore d scores b) ∧
              a.stepNumber ≤ b.stepNumber)) limit) := by
  unfold rerankSteps
  rw [if_neg (Int.not_le.2 hlimit)]
  cases steps with
  | nil =>
      refine congrArg Except.ok ?_
      show [] = sortByNumber id (fillUp id _ [] [])
      rfl
  | cons step rest => rfl

theorem map_rankedStep_step :
    (steps.map (rankedStep d r query steps vectorScores)).map RankedStep.step = steps := by
  rw [List.map_map]
  exact List.map_id steps

theorem KeepsMandatory.perm {milestone : Step → Bool} {others selected : List Step}
    {target : Nat} (hperm : steps.Perm others)
    (h : KeepsMandatory milestone steps target selected) :
    KeepsMandatory milestone others target selected := by
  have hsame : mandatory milestone others = mandatory milestone steps :=
    funext fun _ => mandatory_perm hperm.symm
  refine ⟨fun step hstep hmandatory => ?_, h.sorted, h.nodup, fun step hstep => ?_, ?_⟩
  · rw [hsame] at hmandatory
    exact h.keeps step (hperm.mem_iff.2 hstep) hmandatory
  · exact hperm.mem_iff.1 (h.subset step hstep)
  · rw [hsame, ← hperm.length_eq, ← (hperm.filter _).length_eq]
    exact h.size

theorem SelectsBest.perm {milestone : Step → Bool} {before : Step → Step → Prop}
    {others selected : List Step} (hperm : steps.Perm others)
    (h : SelectsBest milestone before steps limit selected) :
    SelectsBest milestone before others limit selected := by
  have hsame : mandatory milestone others = mandatory milestone steps :=
    funext fun _ => mandatory_perm hperm.symm
  refine ⟨fun step hstep hfree other hother => ?_, ?_⟩
  · rw [hsame] at hfree
    exact h.best step hstep hfree other (hperm.mem_iff.2 hother)
  · rw [hsame, ← (hperm.filter _).length_eq, ← (hperm.filter _).length_eq]
    exact h.count

variable (d r query vectorScores scores limit)

/-- **`rank_steps` keeps the mandatory movements** of a long process. -/
theorem keepsMandatory_rankSteps (hlong : shortProcessAllStepsMax < steps.length)
    (hids : (steps.map Step.id).Nodup) (hnumbers : (steps.map Step.stepNumber).Nodup) :
    KeepsMandatory (milestoneStep d r) steps limit.toNat
      ((rankSteps d r query steps vectorScores limit).map RankedStep.step) := by
  rw [rankSteps_long hlong]
  have hkeeps := keepsMandatory_of_selection RankedStep.step RankedStep.forced
    (milestoneStep d r) ?_ ?_ ?_ (List.perm_insertionSort
      (fun a b : RankedStep F => ¬d.floats.lt a.score b.score)
      (steps.map (rankedStep d r query steps vectorScores))) limit
  · rw [map_rankedStep_step] at hkeeps
    exact hkeeps
  · rw [List.map_map]
    exact hids
  · rw [List.map_map]
    exact hnumbers
  · rw [List.forall_mem_map]
    exact fun step _ => rfl

/-- **`rerank_steps` keeps the mandatory movements.** -/
theorem keepsMandatory_rerankSteps (hlimit : 0 < limit) (hids : (steps.map Step.id).Nodup)
    (hnumbers : (steps.map Step.stepNumber).Nodup) :
    ∃ selected, rerankSteps d r steps scores limit = .ok selected ∧
      KeepsMandatory (milestoneStep d r) steps limit.toNat selected := by
  have hperm : (sortByNumber id steps).Perm steps := List.perm_insertionSort _ steps
  refine ⟨_, rerankSteps_positive hlimit, ?_⟩
  have hkeeps := keepsMandatory_of_selection id (milestoneStep d r) (milestoneStep d r)
    ((hperm.map _).nodup_iff.2 hids) ((hperm.map _).nodup_iff.2 hnumbers) (fun _ _ => rfl)
    (List.perm_insertionSort (fun a b : Step =>
      d.floats.lt (rerankScore d scores b) (rerankScore d scores a) ∨
        (¬d.floats.lt (rerankScore d scores a) (rerankScore d scores b) ∧
          a.stepNumber ≤ b.stepNumber)) _) limit
  rw [List.map_id, List.map_id] at hkeeps
  exact hkeeps.perm hperm

theorem selectsBest_rankSteps (h : d.floats.Linear)
    (hlong : shortProcessAllStepsMax < steps.length) (hids : (steps.map Step.id).Nodup)
    (hnumbers : (steps.map Step.stepNumber).Nodup) :
    SelectsBest (milestoneStep d r) (fun step other =>
      d.floats.lt (r.hybridScore query steps vectorScores step)
        (r.hybridScore query steps vectorScores other) = false) steps limit
      ((rankSteps d r query steps vectorScores limit).map RankedStep.step) := by
  have hsorted : ((steps.map (rankedStep d r query steps vectorScores)).insertionSort fun a b =>
      ¬d.floats.lt a.score b.score).Pairwise fun a b => ¬d.floats.lt a.score b.score := by
    refine pairwise_insertionSort_of (fun a b => ?_) (fun a b c hab hbc => ?_) _
    · rw [Bool.not_eq_true, Bool.not_eq_true]
      exact h.not_lt_total _ _
    · rw [Bool.not_eq_true] at hab hbc ⊢
      exact h.not_lt_trans hab hbc
  have hbest := selectsBest_of_selection RankedStep.step RankedStep.forced (milestoneStep d r)
    (fun step other => d.floats.lt (r.hybridScore query steps vectorScores step)
      (r.hybridScore query steps vectorScores other) = false) ?_ ?_ ?_
    (List.perm_insertionSort _ (steps.map (rankedStep d r query steps vectorScores))) hsorted ?_
    limit
  · rw [rankSteps_long hlong]
    rw [map_rankedStep_step] at hbest
    exact hbest
  · rw [List.map_map]
    exact hids
  · rw [List.map_map]
    exact hnumbers
  · rw [List.forall_mem_map]
    exact fun step _ => rfl
  · rw [List.forall_mem_map]
    intro step _
    rw [List.forall_mem_map]
    intro other _ _ hlt
    exact Bool.not_eq_true _ ▸ hlt

/-- The order of `rerank_steps` is total, and strict where the numbers
differ. -/
theorem selectsBest_rerankSteps (h : d.floats.Linear) (hlimit : 0 < limit)
    (hids : (steps.map Step.id).Nodup) (hnumbers : (steps.map Step.stepNumber).Nodup) :
    ∃ selected, rerankSteps d r steps scores limit = .ok selected ∧
      SelectsBest (milestoneStep d r) (rerankBefore d scores) steps limit selected := by
  have hperm : (sortByNumber id steps).Perm steps := List.perm_insertionSort _ steps
  have hsorted : ((sortByNumber id steps).insertionSort fun a b =>
      d.floats.lt (rerankScore d scores b) (rerankScore d scores a) ∨
        (¬d.floats.lt (rerankScore d scores a) (rerankScore d scores b) ∧
          a.stepNumber ≤ b.stepNumber)).Pairwise fun a b =>
      d.floats.lt (rerankScore d scores b) (rerankScore d scores a) = true ∨
        (¬d.floats.lt (rerankScore d scores a) (rerankScore d scores b) = true ∧
          a.stepNumber ≤ b.stepNumber) := by
    refine pairwise_insertionSort_by (r := fun x y => d.floats.lt y x = true) (fun x => ?_)
      (fun x y z hxy hyz => h.trans z y x hyz hxy) (fun x y => ?_) (rerankScore d scores)
      (fun a b => le_total a.stepNumber b.stepNumber) (fun a b c => le_trans) _
    · rw [h.irrefl]
      exact Bool.false_ne_true
    · rcases h.total y x with hlt | heq | hlt
      · exact .inl hlt
      · exact .inr (.inl heq.symm)
      · exact .inr (.inr hlt)
  -- The ranking is a permutation of the movements, and what is cut from it is best among them.
  refine ⟨_, rerankSteps_positive hlimit, ?_⟩
  have hbest := selectsBest_of_selection id (milestoneStep d r) (milestoneStep d r)
    (rerankBefore d scores) ((hperm.map _).nodup_iff.2 hids)
    ((hperm.map _).nodup_iff.2 hnumbers) (fun _ _ => rfl) (List.perm_insertionSort _ _) hsorted
    ?_ limit
  · rw [List.map_id, List.map_id] at hbest
    exact hbest.perm hperm
  · rintro a ha b hb hne (hlt | ⟨hnlt, hle⟩)
    · exact .inl hlt
    -- Two movements of one score are told apart by their numbers.
    · have hdistinct : a.stepNumber ≠ b.stepNumber := fun hsame =>
        hne (List.inj_on_of_nodup_map hnumbers (hperm.mem_iff.1 ha) (hperm.mem_iff.1 hb) hsame)
      rcases h.total (rerankScore d scores a) (rerankScore d scores b) with hlt | heq | hlt
      · exact absurd hlt hnlt
      · exact .inr ⟨heq, lt_of_le_of_ne hle hdistinct⟩
      · exact .inl hlt

/-- **Ranking is optimal under the mandatory constraint.**  Whatever the
limit, `rank_steps` selects the best of the others in a long process, and so
does `rerank_steps`, which raises where the limit is not positive. -/
theorem ranking_optimal (h : d.floats.Linear) (hids : (steps.map Step.id).Nodup)
    (hnumbers : (steps.map Step.stepNumber).Nodup) :
    (shortProcessAllStepsMax < steps.length →
      SelectsBest (milestoneStep d r) (fun step other =>
        d.floats.lt (r.hybridScore query steps vectorScores step)
          (r.hybridScore query steps vectorScores other) = false) steps limit
        ((rankSteps d r query steps vectorScores limit).map RankedStep.step)) ∧
      (0 < limit → ∃ selected, rerankSteps d r steps scores limit = .ok selected ∧
        SelectsBest (milestoneStep d r) (rerankBefore d scores) steps limit selected) ∧
      (limit ≤ 0 → rerankSteps d r steps scores limit =
        .error "reranker limit must be positive") := by
  refine ⟨fun hlong => selectsBest_rankSteps d r query vectorScores limit h hlong hids hnumbers,
    fun hlimit => selectsBest_rerankSteps d r scores limit h hlimit hids hnumbers,
    fun hlimit => ?_⟩
  unfold rerankSteps
  exact if_pos hlimit

/-! ## §4. The two together. -/

/-- The candidate of a step, found by its id. -/
theorem find_candidate {candidates : List (RankedStep F)}
    (hids : (candidates.map fun candidate => candidate.step.id).Nodup)
    {candidate : RankedStep F} (hmem : candidate ∈ candidates) :
    (candidates.reverse.find? fun other => other.step.id == candidate.step.id) =
      some candidate := by
  refine find?_eq_some_of_unique (List.mem_reverse.2 hmem) (beq_self_eq_true _)
    fun other hother hid => ?_
  exact List.inj_on_of_nodup_map hids (List.mem_reverse.1 hother) hmem (eq_of_beq hid)

/-- Looking the selected steps up gives them back. -/
theorem filterMap_find_candidate {candidates : List (RankedStep F)}
    (hids : (candidates.map fun candidate => candidate.step.id).Nodup) {selected : List Step}
    (hsubset : ∀ step ∈ selected, step ∈ candidates.map RankedStep.step) :
    (selected.filterMap fun step =>
      candidates.reverse.find? fun candidate => candidate.step.id == step.id).map
        RankedStep.step = selected := by
  induction selected with
  | nil => rfl
  | cons step rest ih =>
      obtain ⟨candidate, hmem, rfl⟩ := List.mem_map.1 (hsubset step List.mem_cons_self)
      rw [List.filterMap_cons, find_candidate hids hmem]
      show candidate.step :: _ = candidate.step :: rest
      rw [ih fun other hother => hsubset other (List.mem_cons_of_mem _ hother)]

/-- Selecting from a shortlist that keeps the mandatory movements keeps
them, to the smaller target. -/
theorem KeepsMandatory.trans {milestone : Step → Bool} {shortlist selected : List Step}
    {target smaller : Nat} (hsmaller : smaller ≤ target) (hsteps : steps.Nodup)
    (hnumbers : (steps.map Step.stepNumber).Nodup)
    (hshort : KeepsMandatory milestone steps target shortlist)
    (h : KeepsMandatory milestone shortlist smaller selected) :
    KeepsMandatory milestone steps smaller selected := by
  have hsame : mandatory milestone shortlist = mandatory milestone steps :=
    funext fun step => mandatory_of_shortlist hsteps hnumbers hshort.nodup hshort.subset
      hshort.keeps
  refine ⟨fun step hstep hmandatory => ?_, h.sorted, h.nodup,
    fun step hstep => hshort.subset step (h.subset step hstep), ?_⟩
  · refine h.keeps step (hshort.keeps step hstep hmandatory) ?_
    rw [hsame]
    exact hmandatory
  · -- the shortlist has all the mandatory movements, and no others
    have hcount : (shortlist.filter (mandatory milestone steps)).length =
        (steps.filter (mandatory milestone steps)).length := by
      refine le_antisymm (length_filter_le_of_subset hshort.nodup fun step hstep hyes => ?_)
        (length_filter_le_of_subset hsteps fun step hstep hyes => ?_)
      · exact ⟨hshort.subset step hstep, hyes⟩
      · exact ⟨hshort.keeps step hstep hyes, hyes⟩
    have hsize := hshort.size
    have hsmall := h.size
    have hle : (steps.filter (mandatory milestone steps)).length ≤ steps.length :=
      List.length_filter_le _ _
    rw [hsame, hcount] at hsmall
    omega

/-- What `select_context_steps` gives keeps the mandatory movements; it
raises what the scorer raises, and nothing else. -/
def SelectsMandatory (steps : List Step) (scorer : Option (RerankerScorer F)) (s : State F) :
    Prop :=
  match (selectContextStepsWith d r query steps vectorScores scorer).run.run s with
  | (.ok selected, _) =>
      KeepsMandatory (milestoneStep d r) steps
        (if scorer.isSome then rerankOutputLimit else legacyOutputLimit)
        (selected.map RankedStep.step)
  | (.error e, s') =>
      ∃ score ∈ scorer, (score (d.modelView query)
        (((rankSteps d r query steps vectorScores rerankCandidateLimit).map
          RankedStep.step).map (Step.viewed d))).run.run s = (.error e, s')

/-- **Selection keeps the mandatory movements** of a long process: without a
scorer, and with any that answers. -/
theorem selectContextSteps_keeps (hlong : 40 < steps.length) (hids : (steps.map Step.id).Nodup)
    (hnumbers : (steps.map Step.stepNumber).Nodup) (scorer : Option (RerankerScorer F))
    (s : State F) : SelectsMandatory d r query vectorScores steps scorer s := by
  unfold SelectsMandatory
  cases scorer with
  | none =>
      exact keepsMandatory_rankSteps d r query vectorScores legacyOutputLimit hlong hids hnumbers
  | some score =>
      have hshort := keepsMandatory_rankSteps d r query vectorScores rerankCandidateLimit hlong
        hids hnumbers
      have hshortIds : (((rankSteps d r query steps vectorScores
          (rerankCandidateLimit : Nat)).map RankedStep.step).map Step.id).Nodup := by
        refine hshort.nodup.map_on fun a ha b hb hid => ?_
        exact List.inj_on_of_nodup_map hids (hshort.subset a ha) (hshort.subset b hb) hid
      have hshortNumbers : (((rankSteps d r query steps vectorScores
          (rerankCandidateLimit : Nat)).map RankedStep.step).map Step.stepNumber).Nodup := by
        refine hshort.nodup.map_on fun a ha b hb hnumber => ?_
        exact List.inj_on_of_nodup_map hnumbers (hshort.subset a ha) (hshort.subset b hb) hnumber
      unfold selectContextStepsWith
      simp only [Option.isSome_some, if_true]
      rw [if_neg (Nat.not_le.2 hlong)]
      obtain ⟨out, s', hscore⟩ : ∃ out s', (score (d.modelView query)
          (((rankSteps d r query steps vectorScores rerankCandidateLimit).map
            RankedStep.step).map (Step.viewed d))).run.run s = (out, s') := ⟨_, _, rfl⟩
      cases out with
      | error e =>
        rw [run_bind, hscore]
        exact ⟨score, rfl, hscore⟩
      | ok scores =>
        obtain ⟨selected, hselected, hkeeps⟩ := keepsMandatory_rerankSteps d r scores
          rerankOutputLimit (by decide) hshortIds hshortNumbers
        rw [run_bind_ok hscore, hselected, run_bind_ok run_ofExcept]
        have hall := hshort.trans (by decide) (hids.of_map _) hnumbers hkeeps
        rw [← filterMap_find_candidate (by rw [List.map_map] at hshortIds; exact hshortIds)
          hkeeps.subset] at hall
        exact hall

end Ranks

/-! ## §5. A long process. -/

/-- A deployment without a provider, whose floats are integers; the distance
of two vectors is that of their first components. -/
def plainDeployment : Deployment Int where
  python := .ascii
  postgres := { lower := fun s => String.ofList (s.toList.map Char.toLower)
                jsonbText := fun v => String.ofList v.text
                lower_false := lower_false_ascii }
  floats := { zero := 0, one := 1, isFinite := fun _ => true, storable := fun _ => true
              lt := fun a b => decide (a < b)
              distance := fun a b => (a.headD 0 - b.headD 0).natAbs, similarity := fun x => 1 - x
              isFinite_zero := rfl }
  env := fun _ => none
  providerSettings := fun _ => .ok .unset
  visits := fun _ _ => true
  modelView := id
  bgeEncode := fun _ => .error "no local model"

theorem plainDeployment_linear : plainDeployment.floats.Linear where
  irrefl a := decide_eq_false (lt_irrefl a)
  trans _ _ _ hab hbc := decide_eq_true (lt_trans (of_decide_eq_true hab) (of_decide_eq_true hbc))
  total a b := (lt_trichotomy a b).imp decide_eq_true (Or.imp_right decide_eq_true)

/-- A ranking by the length of the text, whose milestones are the sentences. -/
def plainRanking : Ranking Int where
  hybridScore := fun _ _ _ step => step.text.length
  isMilestone := fun text => text == "SENTENÇA"

/-- A process of forty-two movements, one of which is a sentence. -/
def longProcess : List Step :=
  (List.range 42).map fun i : Nat =>
    { id := i, stepNumber := i, text := if i = 20 then "SENTENÇA" else "MOVIMENTO" }

/-- The best of the long process, by the length of the texts and by no
score at all. -/
theorem ranking_optimal_longProcess :
    SelectsBest (milestoneStep plainDeployment plainRanking) (fun step other =>
      plainDeployment.floats.lt (plainRanking.hybridScore "q" longProcess [] step)
        (plainRanking.hybridScore "q" longProcess [] other) = false) longProcess 20
      ((rankSteps plainDeployment plainRanking "q" longProcess [] 20).map RankedStep.step) ∧
    ∃ selected, rerankSteps plainDeployment plainRanking longProcess [] 20 = .ok selected ∧
      SelectsBest (milestoneStep plainDeployment plainRanking)
        (rerankBefore plainDeployment []) longProcess 20 selected := by
  have hboth := ranking_optimal plainDeployment plainRanking "q" [] [] 20 plainDeployment_linear
    (show (longProcess.map Step.id).Nodup by decide +kernel)
    (show (longProcess.map Step.stepNumber).Nodup by decide +kernel)
  exact ⟨hboth.1 (by decide), hboth.2.1 (by decide)⟩

/-- The selection from the long process, with a scorer that knows none of
its movements. -/
theorem selectContextSteps_keeps_longProcess :
    SelectsMandatory plainDeployment plainRanking "q" [] longProcess (some fun _ _ => pure [])
      { db := ⟨[], [], [], [], .nil, .nil, .nil⟩ } :=
  selectContextSteps_keeps plainDeployment plainRanking "q" [] (by decide)
    (show (longProcess.map Step.id).Nodup by decide +kernel)
    (show (longProcess.map Step.stepNumber).Nodup by decide +kernel) _ _

end Rpy.Retrieval

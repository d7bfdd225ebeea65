/-
  Rpy.Retrieval.Mandatory
  ───────────────────────
  **THE MOVEMENTS THAT ARE SELECTED WHATEVER THEIR SCORE.**

  The first movement, the last, the five most recent and the milestones.
  The code finds them by the positions in the sorted list; here they are
  said by the numbers.  Where the ids and the numbers are distinct the
  selection is the mandatory items and a prefix of the others, in the order
  of their scores.

    • `mandatory`              — the movements that are never left out,
    • `mandatory_of_shortlist` — a shortlist that holds them has the same,
    • `selectWithMandatory_eq` — the selection, in closed form.
-/
import Mathlib.Data.List.Dedup
import Rpy.Foundation.Shortlist
import Rpy.Retrieval.Selection

namespace Rpy.Retrieval

open Rpy.Foundation

/-! ## §1. By the numbers. -/

/-- How many movements are more recent. -/
def newerCount (steps : List Step) (step : Step) : Nat :=
  (steps.filter fun other => step.stepNumber < other.stepNumber).length

/-- The first, the last, one of the five most recent, or a milestone. -/
def mandatory (milestone : Step → Bool) (steps : List Step) (step : Step) : Bool :=
  (steps.all fun other => step.stepNumber ≤ other.stepNumber) || newerCount steps step == 0 ||
    decide (newerCount steps step < mandatoryRecentSteps) || milestone step

section Numbers

variable {milestone : Step → Bool} {steps shortlist : List Step} {step : Step}

theorem mandatory_iff :
    mandatory milestone steps step = true ↔
      (∀ other ∈ steps, step.stepNumber ≤ other.stepNumber) ∨
        newerCount steps step < mandatoryRecentSteps ∨ milestone step = true := by
  unfold mandatory
  simp only [Bool.or_eq_true, List.all_eq_true, decide_eq_true_eq, beq_iff_eq]
  constructor
  · rintro (((hfirst | hlast) | hrecent) | hmilestone)
    · exact .inl hfirst
    · refine .inr (.inl ?_)
      rw [hlast]
      decide
    · exact .inr (.inl hrecent)
    · exact .inr (.inr hmilestone)
  · rintro (hfirst | hrecent | hmilestone)
    · exact .inl (.inl (.inl hfirst))
    · exact .inl (.inr hrecent)
    · exact .inr hmilestone

theorem newerCount_perm {others : List Step} (h : steps.Perm others) :
    newerCount steps step = newerCount others step :=
  (h.filter _).length_eq

theorem mandatory_perm {others : List Step} (h : steps.Perm others) :
    mandatory milestone steps step = mandatory milestone others step := by
  unfold mandatory
  rw [newerCount_perm h, h.all_eq]

/-- Fewer movements are more recent than a more recent one. -/
theorem newerCount_le {a b : Step} (hsteps : steps.Nodup) (hle : a.stepNumber ≤ b.stepNumber) :
    newerCount steps b ≤ newerCount steps a := by
  refine length_filter_le_of_subset hsteps fun other hother hnewer => ⟨hother, ?_⟩
  have hlt : b.stepNumber < other.stepNumber := of_decide_eq_true hnewer
  exact decide_eq_true (by omega)

/-- There is a first movement. -/
theorem exists_first (hne : steps ≠ []) :
    ∃ first ∈ steps, ∀ other ∈ steps, first.stepNumber ≤ other.stepNumber := by
  induction steps with
  | nil => exact absurd rfl hne
  | cons a rest ih =>
      by_cases hrest : rest = []
      · refine ⟨a, List.mem_cons_self, fun other hother => ?_⟩
        rw [hrest, List.mem_singleton] at hother
        rw [hother]
      · obtain ⟨first, hmem, hleast⟩ := ih hrest
        by_cases hle : a.stepNumber ≤ first.stepNumber
        · refine ⟨a, List.mem_cons_self, fun other hother => ?_⟩
          rcases List.mem_cons.1 hother with rfl | hother
          · exact le_refl _
          · exact le_trans hle (hleast other hother)
        · refine ⟨first, List.mem_cons_of_mem _ hmem, fun other hother => ?_⟩
          rcases List.mem_cons.1 hother with rfl | hother
          · omega
          · exact hleast other hother

/-- Sorted by their numbers, movements with distinct numbers increase. -/
theorem increasing_sortByNumber {ι : Type} (stepOf : ι → Step) {items : List ι}
    (hnumbers : (items.map fun item => (stepOf item).stepNumber).Nodup) :
    (sortByNumber stepOf items).Pairwise fun a b =>
      (stepOf a).stepNumber < (stepOf b).stepNumber := by
  have hsorted : (sortByNumber stepOf items).Pairwise fun a b =>
      (stepOf a).stepNumber ≤ (stepOf b).stepNumber :=
    pairwise_insertionSort_of (r := fun a b => (stepOf a).stepNumber ≤ (stepOf b).stepNumber)
      (fun a b => le_total _ _) (fun a b c => le_trans) items
  have hdistinct : (sortByNumber stepOf items).Pairwise fun a b =>
      (stepOf a).stepNumber ≠ (stepOf b).stepNumber := by
    have hperm := (List.perm_insertionSort
      (fun a b : ι => (stepOf a).stepNumber ≤ (stepOf b).stepNumber) items).map
      fun item => (stepOf item).stepNumber
    exact List.pairwise_map.1 (hperm.nodup_iff.2 hnumbers)
  exact (hsorted.and hdistinct).imp fun hpair => lt_of_le_of_ne hpair.1 hpair.2

/-- Five movements are recent, where there are as many. -/
theorem length_recent (hsteps : steps.Nodup) (hnumbers : (steps.map Step.stepNumber).Nodup)
    (hlong : mandatoryRecentSteps ≤ steps.length) :
    mandatoryRecentSteps ≤
      (steps.filter fun other => newerCount steps other < mandatoryRecentSteps).length := by
  have hperm : (sortByNumber id steps).Perm steps := List.perm_insertionSort _ steps
  have hdrop : ((sortByNumber id steps).drop
      ((sortByNumber id steps).length - mandatoryRecentSteps)).length = mandatoryRecentSteps := by
    rw [List.length_drop, hperm.length_eq]
    omega
  refine le_trans (le_of_eq hdrop.symm)
    (List.subperm_of_subset ?_ fun other hother => ?_).length_le
  · exact (List.drop_sublist _ _).nodup (hperm.nodup_iff.2 hsteps)
  · have hmem : other ∈ sortByNumber id steps := List.mem_of_mem_drop hother
    have hfew := (mem_drop_iff_count (increasing_sortByNumber id hnumbers) hmem).1
      hother
    refine List.mem_filter.2 ⟨hperm.mem_iff.1 hmem, decide_eq_true ?_⟩
    rw [← newerCount_perm hperm]
    exact hfew

/-- **A shortlist that holds the mandatory movements** has the same mandatory
movements. -/
theorem mandatory_of_shortlist (hsteps : steps.Nodup)
    (hnumbers : (steps.map Step.stepNumber).Nodup) (hshort : shortlist.Nodup)
    (hsubset : ∀ other ∈ shortlist, other ∈ steps)
    (hkept : ∀ other ∈ steps, mandatory milestone steps other = true → other ∈ shortlist) :
    mandatory milestone shortlist step = mandatory milestone steps step := by
  rw [Bool.eq_iff_iff, mandatory_iff, mandatory_iff]
  refine or_congr ⟨fun hfirst other hother => ?_, fun hfirst other hother => ?_⟩
    (or_congr_left ⟨fun hrecent => ?_, fun hrecent => ?_⟩)
  · -- the first of all is in the shortlist
    obtain ⟨first, hmem, hleast⟩ := exists_first (List.ne_nil_of_mem hother)
    have hin := hkept first hmem (mandatory_iff.2 (.inl hleast))
    exact le_trans (hfirst first hin) (hleast other hother)
  · exact hfirst other (hsubset other hother)
  · -- the five most recent of all are in the shortlist
    by_contra hold
    have hlong : mandatoryRecentSteps ≤ steps.length :=
      le_trans (Nat.le_of_not_lt hold) (List.length_filter_le _ _)
    have hmore : (steps.filter fun other =>
        newerCount steps other < mandatoryRecentSteps).length ≤ newerCount shortlist step := by
      refine length_filter_le_of_subset hsteps fun other hother hnew => ?_
      have hnew : newerCount steps other < mandatoryRecentSteps := of_decide_eq_true hnew
      refine ⟨hkept other hother (mandatory_iff.2 (.inr (.inl hnew))), decide_eq_true ?_⟩
      by_contra hle
      exact hold (lt_of_le_of_lt (newerCount_le hsteps (not_lt.1 hle)) hnew)
    have hfive := length_recent hsteps hnumbers hlong
    omega
  · refine lt_of_le_of_lt ?_ hrecent
    exact length_filter_le_of_subset hshort fun other hother hnewer =>
      ⟨hsubset other hother, hnewer⟩

end Numbers

/-! ## §2. The selection. -/

section Selecting

variable {ι : Type} {stepOf : ι → Step} {forced : ι → Bool} {items ranked : List ι}

/-- Items with distinct ids are told apart by them. -/
theorem eq_of_stepId (hids : (items.map fun item => (stepOf item).id).Nodup) {a b : ι}
    (ha : a ∈ items) (hb : b ∈ items) (hid : (stepOf a).id = (stepOf b).id) : a = b :=
  List.inj_on_of_nodup_map hids ha hb hid

/-- Setting items with ids of their own appends them. -/
theorem foldl_setItem_eq {selected : List ι}
    (hids : ((selected ++ items).map fun item => (stepOf item).id).Nodup) :
    items.foldl (setItem stepOf) selected = selected ++ items := by
  induction items generalizing selected with
  | nil => exact (List.append_nil selected).symm
  | cons item rest ih =>
      have hnew : selected.any (fun other => (stepOf other).id == (stepOf item).id) = false := by
        rw [List.any_eq_false]
        intro other hother heq
        rw [List.map_append, List.map_cons, List.nodup_append] at hids
        exact hids.2.2 _ (List.mem_map_of_mem hother) _ List.mem_cons_self (eq_of_beq heq)
      have hset : setItem stepOf selected item = selected ++ [item] := by
        unfold setItem
        rw [hnew]
        rfl
      rw [List.foldl_cons, hset, ih, List.append_assoc]
      · rfl
      · rw [List.append_assoc]
        exact hids

/-- **Filling up** takes the first of the others, as many as there is room
for. -/
theorem fillUp_eq {bound : Nat} {selected : List ι}
    (hids : (ranked.map fun item => (stepOf item).id).Nodup) :
    fillUp stepOf bound selected ranked = selected ++ (ranked.filter fun item =>
      !selected.any fun other => (stepOf other).id == (stepOf item).id).take
        (bound - selected.length) := by
  induction ranked generalizing selected with
  | nil => simp [fillUp]
  | cons item rest ih =>
      rw [List.map_cons, List.nodup_cons] at hids
      unfold fillUp
      by_cases hfull : bound ≤ selected.length
      · rw [if_pos hfull, Nat.sub_eq_zero_of_le hfull, List.take_zero, List.append_nil]
      · rw [if_neg hfull, ih hids.2]
        unfold setDefault
        by_cases hin : (selected.any fun other => (stepOf other).id == (stepOf item).id) = true
        · rw [if_pos hin, List.filter_cons_of_neg (by simp [hin])]
        · -- no later item has the id of this one
          have hrest : (rest.filter fun later => !(selected ++ [item]).any fun other =>
              (stepOf other).id == (stepOf later).id) =
              rest.filter fun later => !selected.any fun other =>
                (stepOf other).id == (stepOf later).id := by
            refine List.filter_congr fun later hlater => ?_
            have hne : (stepOf item).id ≠ (stepOf later).id := fun heq =>
              hids.1 (heq ▸ List.mem_map_of_mem hlater)
            rw [List.any_append, List.any_cons, beq_eq_false_iff_ne.2 hne]
            simp
          have hroom : bound - selected.length = bound - (selected ++ [item]).length + 1 := by
            rw [List.length_append, List.length_singleton]
            omega
          rw [if_neg hin, hrest, List.filter_cons_of_pos (by simpa using hin), hroom,
            List.take_succ_cons, List.append_assoc]
          rfl

/-- How many of the sorted items are above one. -/
theorem newerCount_sorted (item : ι) :
    ((sortByNumber stepOf items).filter fun other =>
      (stepOf item).stepNumber < (stepOf other).stepNumber).length =
      newerCount (items.map stepOf) (stepOf item) := by
  have hperm : (sortByNumber stepOf items).Perm items := List.perm_insertionSort _ items
  unfold newerCount
  rw [List.filter_map, List.length_map, (hperm.filter _).length_eq]
  rfl

/-- Where the code looks for a mandatory item. -/
def Placed (stepOf : ι → Step) (forced : ι → Bool) (items : List ι) (item : ι) : Prop :=
  item ∈ (sortByNumber stepOf items).take 1 ∨
    item ∈ (sortByNumber stepOf items).drop ((sortByNumber stepOf items).length - 1) ∨
    item ∈ (sortByNumber stepOf items).drop
      ((sortByNumber stepOf items).length - mandatoryRecentSteps) ∨
    (item ∈ items ∧ forced item = true)

theorem mem_of_placed {item : ι} (h : Placed stepOf forced items item) : item ∈ items := by
  rcases h with hfirst | hlast | hrecent | hforced
  · exact mem_sortByNumber.1 (List.mem_of_mem_take hfirst)
  · exact mem_sortByNumber.1 (List.mem_of_mem_drop hlast)
  · exact mem_sortByNumber.1 (List.mem_of_mem_drop hrecent)
  · exact hforced.1

theorem mem_mandatoryIds_iff {id : Uuid} :
    id ∈ mandatoryIds stepOf forced items ↔
      ∃ item, Placed stepOf forced items item ∧ (stepOf item).id = id := by
  unfold mandatoryIds Placed
  rw [List.mem_dedup, List.mem_map]
  refine exists_congr fun item => and_congr_left fun _ => ?_
  rw [List.mem_append, List.mem_append, List.mem_append, List.mem_filter, or_assoc, or_assoc]

/-- The items whose ids are mandatory, by the numbers. -/
theorem mem_mandatoryIds (hids : (items.map fun item => (stepOf item).id).Nodup)
    (hnumbers : (items.map fun item => (stepOf item).stepNumber).Nodup) {milestone : Step → Bool}
    (hforced : ∀ item ∈ items, forced item = milestone (stepOf item)) {item : ι}
    (hitem : item ∈ items) :
    (stepOf item).id ∈ mandatoryIds stepOf forced items ↔
      mandatory milestone (items.map stepOf) (stepOf item) = true := by
  have hsorted := increasing_sortByNumber stepOf hnumbers
  have hin : item ∈ sortByNumber stepOf items := mem_sortByNumber.2 hitem
  have hplaced : (stepOf item).id ∈ mandatoryIds stepOf forced items ↔
      Placed stepOf forced items item := by
    rw [mem_mandatoryIds_iff]
    constructor
    · rintro ⟨other, hother, hid⟩
      rwa [← eq_of_stepId hids (mem_of_placed hother) hitem hid]
    · exact fun h => ⟨item, h, rfl⟩
  have hfirst : (∀ other ∈ sortByNumber stepOf items,
      (stepOf item).stepNumber ≤ (stepOf other).stepNumber) ↔
      ∀ other ∈ items.map stepOf, (stepOf item).stepNumber ≤ other.stepNumber := by
    rw [List.forall_mem_map]
    exact forall_congr' fun other => imp_congr_left mem_sortByNumber
  rw [hplaced, mandatory_iff]
  unfold Placed
  rw [mem_take_one_iff hsorted hin, mem_drop_iff_count hsorted hin,
    mem_drop_iff_count hsorted hin, newerCount_sorted, hforced item hitem, hfirst]
  refine or_congr_right ⟨?_, ?_⟩
  · rintro (hlast | hrecent | hmilestone)
    · exact .inl (lt_of_lt_of_le hlast (by decide))
    · exact .inl hrecent
    · exact .inr hmilestone.2
  · rintro (hrecent | hmilestone)
    · exact .inr (.inl hrecent)
    · exact .inr (.inr ⟨hitem, hmilestone⟩)

/-- Is the item mandatory among the others? -/
abbrev mandatoryItem (stepOf : ι → Step) (milestone : Step → Bool) (items : List ι) (item : ι) :
    Bool :=
  mandatory milestone (items.map stepOf) (stepOf item)

/-- There are as many mandatory ids as mandatory items. -/
theorem length_mandatoryIds (hids : (items.map fun item => (stepOf item).id).Nodup)
    (hnumbers : (items.map fun item => (stepOf item).stepNumber).Nodup) {milestone : Step → Bool}
    (hforced : ∀ item ∈ items, forced item = milestone (stepOf item)) :
    (mandatoryIds stepOf forced items).length =
      (items.filter (mandatoryItem stepOf milestone items)).length := by
  have hperm : (mandatoryIds stepOf forced items).Perm
      ((items.filter (mandatoryItem stepOf milestone items)).map fun item => (stepOf item).id) := by
    refine (List.perm_ext_iff_of_nodup (List.nodup_dedup _) ?_).2 fun id => ?_
    · exact (List.filter_sublist.map _).nodup hids
    · rw [List.mem_map]
      constructor
      · intro hid
        obtain ⟨item, hplaced, rfl⟩ := mem_mandatoryIds_iff.1 hid
        have hitem := mem_of_placed hplaced
        exact ⟨item, List.mem_filter.2
          ⟨hitem, (mem_mandatoryIds hids hnumbers hforced hitem).1 hid⟩, rfl⟩
      · rintro ⟨item, hitem, rfl⟩
        obtain ⟨hitem, hmandatory⟩ := List.mem_filter.1 hitem
        exact (mem_mandatoryIds hids hnumbers hforced hitem).2 hmandatory
  rw [hperm.length_eq, List.length_map]

/-- **The selection**: the mandatory items and, in the order of `ranked`, as
many of the others as the limit leaves room for. -/
theorem selectWithMandatory_eq (hids : (items.map fun item => (stepOf item).id).Nodup)
    (hnumbers : (items.map fun item => (stepOf item).stepNumber).Nodup) {milestone : Step → Bool}
    (hforced : ∀ item ∈ items, forced item = milestone (stepOf item))
    (hranked : ranked.Perm items) (limit : Int) :
    selectWithMandatory stepOf forced items ranked limit = sortByNumber stepOf
      (items.filter (mandatoryItem stepOf milestone items) ++
        (ranked.filter fun item => !mandatoryItem stepOf milestone items item).take
          (limit.toNat - (items.filter (mandatoryItem stepOf milestone items)).length)) := by
  -- What is selected by id is what is mandatory.
  have hkept : (items.filter fun item =>
      (mandatoryIds stepOf forced items).contains (stepOf item).id) =
      items.filter (mandatoryItem stepOf milestone items) := by
    refine List.filter_congr fun item hitem => ?_
    rw [Bool.eq_iff_iff, List.contains_iff_mem]
    exact mem_mandatoryIds hids hnumbers hforced hitem
  have hset : (items.filter (mandatoryItem stepOf milestone items)).foldl (setItem stepOf) [] =
      items.filter (mandatoryItem stepOf milestone items) := by
    refine foldl_setItem_eq ?_
    exact (List.filter_sublist.map _).nodup hids
  -- The rest of the ranking: a movement is kept already if and only if it is mandatory.
  have hothers : (ranked.filter fun item =>
      !(items.filter (mandatoryItem stepOf milestone items)).any fun other =>
        (stepOf other).id == (stepOf item).id) =
      ranked.filter fun item => !mandatoryItem stepOf milestone items item := by
    refine List.filter_congr fun item hitem => congrArg _ ?_
    rw [Bool.eq_iff_iff, List.any_eq_true]
    have hitem := hranked.mem_iff.1 hitem
    constructor
    · rintro ⟨other, hother, hid⟩
      obtain ⟨hmem, hmandatory⟩ := List.mem_filter.1 hother
      rw [← eq_of_stepId hids hmem hitem (eq_of_beq hid)]
      exact hmandatory
    · exact fun hmandatory =>
        ⟨item, List.mem_filter.2 ⟨hitem, hmandatory⟩, beq_self_eq_true _⟩
  -- The room that is left, the mandatory movements being allowed to exceed the limit.
  have hroom : (max limit (mandatoryIds stepOf forced items).length).toNat -
      (items.filter (mandatoryItem stepOf milestone items)).length =
      limit.toNat - (items.filter (mandatoryItem stepOf milestone items)).length := by
    rw [length_mandatoryIds hids hnumbers hforced]
    omega
  unfold selectWithMandatory
  simp only [hkept, hset]
  rw [fillUp_eq ((hranked.map _).nodup_iff.2 hids), hothers, hroom]

end Selecting

end Rpy.Retrieval

/-
  Rpy.Judit.Grants
  ────────────────
  **WHICH STAGED PROCESSES THE ACQUIRING TENANT IS GRANTED.**

    • `GrantsMatch`     — the tenant is granted exactly the processes staged
                          under the request id,
    • `GrantSeen`       — a process whose grant is seen by one of the two
                          sides: it is the newest one that
                          `_reconcile_tenant_access` saw, or one of its
                          lawsuit transactions ran its grant statement after
                          the request id was committed (or staging grants
                          the tenant by itself),
    • `grantsMatch_iff` — in every state reached the grants match exactly
                          when every staged process is seen.
-/
import Rpy.Judit.Webhook

namespace Rpy.Judit

open Rpy.Foundation Rpy.Queue

/-! ## §1. The property and the condition. -/

/-- All transactions have committed. -/
def Inbox.Settled (s : Inbox) : Prop :=
  s.lawsuits = [] ∧ s.recorded = true

instance (s : Inbox) : Decidable s.Settled := by
  unfold Inbox.Settled
  infer_instance

/-- A process is staged under the request id. -/
def Inbox.Staged (s : Inbox) (code : String) : Prop :=
  ∃ v ∈ s.versions, v.code = code

/-- **The tenant is granted exactly the staged processes.** -/
def GrantsMatch (a : Acquisition) (s : Inbox) : Prop :=
  ∀ code, (a.tenant, code) ∈ s.grants ↔ s.Staged code

/-- One of the process's lawsuit transactions granted the tenant. -/
def GrantedByResponse (a : Acquisition) (s : Inbox) (code : String) : Prop :=
  ∃ t ∈ s.committed, t.response.code = code ∧
    (t.sawRecorded = some true ∨ a.tenant ∈ t.response.stageTenants)

/-- The request id was committed before a grant statement of the process, or
the process is the newest that the recording transaction saw. -/
def GrantSeen (a : Acquisition) (s : Inbox) (code : String) : Prop :=
  GrantedByResponse a s code ∨ newestProcess s.reconciled = some code

/-! ## §2. The invariant. -/

/-- What every step keeps. -/
structure Accounted (a : Acquisition) (s : Inbox) : Prop where
  grants : ∀ code, (a.tenant, code) ∈ s.grants ↔ GrantSeen a s code
  staged : ∀ code, s.Staged code ↔ ∃ t ∈ s.committed, t.response.code = code
  recording : ∀ saw ∈ s.recording, ∀ code, newestProcess saw = some code → s.Staged code
  reconciled : ∀ code, newestProcess s.reconciled = some code → s.Staged code
  /-- nothing is reconciled before the id is recorded -/
  before : s.recorded = false → s.reconciled = []
  once : s.recorded = true → s.recording = none

/-- The selected process is one of the versions'. -/
theorem newestProcess_mem {versions : List StagedVersion} {code : String}
    (h : newestProcess versions = some code) : ∃ v ∈ versions, v.code = code := by
  cases versions with
  | nil => cases h
  | cons v vs =>
      have hmem : ∀ (ws : List StagedVersion) (best : StagedVersion),
          ws.foldl (fun best w => if best.createdAt < w.createdAt then w else best) best ∈
            best :: ws := by
        intro ws
        induction ws with
        | nil => exact fun best => List.mem_singleton_self best
        | cons w ws ih =>
            intro best
            rw [List.foldl_cons]
            by_cases hlt : best.createdAt < w.createdAt
            · rw [if_pos hlt]
              exact List.mem_cons_of_mem _ (ih w)
            · rw [if_neg hlt]
              rcases List.mem_cons.1 (ih best) with hbest | hws
              · rw [hbest]
                exact List.mem_cons_self
              · exact List.mem_cons_of_mem _ (List.mem_cons_of_mem _ hws)
      exact ⟨_, hmem vs v, Option.some.inj h⟩

/-- The processes afterwards: those staged before, and the response's. -/
theorem stageVersion_codes {versions : List StagedVersion} {r : Response} {startedAt now : Nat}
    (code : String) :
    (∃ v ∈ stageVersion versions r startedAt now, v.code = code) ↔
      (∃ v ∈ versions, v.code = code) ∨ r.code = code := by
  unfold stageVersion
  split
  · rename_i hany
    obtain ⟨w, hw, hof⟩ := List.any_eq_true.1 hany
    have hwcode : w.code = r.code := by
      simp only [StagedVersion.isOf, Bool.and_eq_true, beq_iff_eq] at hof
      exact hof.1
    constructor
    · rintro ⟨v, hv, rfl⟩
      obtain ⟨u, hu, rfl⟩ := List.mem_map.1 hv
      refine .inl ⟨u, hu, ?_⟩
      split <;> rfl
    · have hkeep : ∀ u ∈ versions, ∃ v ∈ versions.map (fun v =>
          if v.isOf r && !v.finalized then { v with cached := r.cached, stagedAt := now } else v),
          v.code = u.code := fun u hu => by
        refine ⟨_, List.mem_map_of_mem hu, ?_⟩
        split <;> rfl
      rintro (⟨u, hu, rfl⟩ | rfl)
      · exact hkeep u hu
      · rw [← hwcode]
        exact hkeep w hw
  · simp [or_and_right, exists_or]

theorem mem_grants_lawsuit {a : Acquisition} {t : LawsuitTx} {code : String} :
    (a.tenant, code) ∈ t.grants a ↔
      t.response.code = code ∧
        (t.sawRecorded = some true ∨ a.tenant ∈ t.response.stageTenants) := by
  unfold LawsuitTx.grants
  by_cases hsaw : t.sawRecorded = some true
  · simp [hsaw]
    tauto
  · simp [hsaw]
    tauto

/-! ## §3. Steps. -/

/-- A step that touches none of the tables the grants come from, and no code
of a version. -/
theorem Accounted.frame {a : Acquisition} {s s' : Inbox} (h : Accounted a s)
    (hgrants : s'.grants = s.grants) (hstaged : ∀ code, s'.Staged code ↔ s.Staged code)
    (hcommitted : s'.committed = s.committed) (hrecording : s'.recording = s.recording)
    (hreconciled : s'.reconciled = s.reconciled) (hrecorded : s'.recorded = s.recorded) :
    Accounted a s' where
  grants := by
    simp only [GrantSeen, GrantedByResponse, hgrants, hcommitted, hreconciled]
    exact h.grants
  staged := by
    simp only [hstaged, hcommitted]
    exact h.staged
  recording := by
    simp only [hstaged, hrecording]
    exact h.recording
  reconciled := by
    simp only [hstaged, hreconciled]
    exact h.reconciled
  before := by
    rw [hrecorded, hreconciled]
    exact h.before
  once := by
    rw [hrecorded, hrecording]
    exact h.once

/-- **A lawsuit commit stages its process, and grants it if its grant
statement saw the request id.** -/
theorem Accounted.commitLawsuit {a : Acquisition} {s : Inbox} {t : LawsuitTx} {jobId : Uuid}
    {now : Timestamp} (h : Accounted a s) :
    Accounted a { s.commitLawsuit a t jobId now with clock := s.clock + 1 } := by
  have hstaged : ∀ code, (s.commitLawsuit a t jobId now).Staged code ↔
      s.Staged code ∨ t.response.code = code := fun code => stageVersion_codes code
  refine ⟨fun code => ?_, fun code => ?_, fun saw hsaw code hnewest => ?_,
    fun code hnewest => ?_, h.before, h.once⟩
  · show (a.tenant, code) ∈ s.grants ++ t.grants a ↔ _
    have hby : GrantedByResponse a (s.commitLawsuit a t jobId now) code ↔
        GrantedByResponse a s code ∨ (a.tenant, code) ∈ t.grants a := by
      rw [mem_grants_lawsuit]
      show (∃ u ∈ s.committed ++ [t], _) ↔ _
      simp only [List.mem_append, List.mem_singleton, or_and_right, exists_or, exists_eq_left]
      rfl
    rw [List.mem_append, h.grants code]
    show _ ↔ GrantedByResponse a (s.commitLawsuit a t jobId now) code ∨ _
    rw [hby]
    unfold GrantSeen
    tauto
  · show (s.commitLawsuit a t jobId now).Staged code ↔ ∃ u ∈ s.committed ++ [t], _
    rw [hstaged, h.staged]
    simp only [List.mem_append, List.mem_singleton, or_and_right, exists_or, exists_eq_left]
  · exact (hstaged code).2 (.inl (h.recording saw hsaw code hnewest))
  · exact (hstaged code).2 (.inl (h.reconciled code hnewest))

/-- **Every step keeps the account of the grants.** -/
theorem Accounted.step {a : Acquisition} {s s' : Inbox} {ev : Event} (h : Accounted a s)
    (hs : s.step a ev = some s') : Accounted a s' := by
  obtain ⟨s₁, hs₁, rfl⟩ := Option.map_eq_some_iff.1 hs
  have hframe : ∀ s₂ : Inbox, s₂.grants = s.grants → s₂.versions = s.versions →
      s₂.committed = s.committed → s₂.recording = s.recording →
      s₂.reconciled = s.reconciled → s₂.recorded = s.recorded →
      Accounted a { s₂ with clock := s₂.clock + 1 } := by
    intro s₂ hgrants hversions hcommitted hrecording hreconciled hrecorded
    refine h.frame hgrants (fun code => ?_) hcommitted hrecording hreconciled hrecorded
    simp only [Inbox.Staged, hversions]
  cases ev with
  | deliver tx response =>
      simp only [Inbox.apply] at hs₁
      split at hs₁
      · cases hs₁
      split at hs₁
      · cases hs₁
      split at hs₁
      · cases hs₁
      split at hs₁ <;> cases hs₁ <;> exact hframe _ rfl rfl rfl rfl rfl rfl
  | grant tx =>
      simp only [Inbox.apply] at hs₁
      split at hs₁ <;> cases hs₁
      exact hframe _ rfl rfl rfl rfl rfl rfl
  | check tx =>
      simp only [Inbox.apply] at hs₁
      split at hs₁ <;> cases hs₁
      exact hframe _ rfl rfl rfl rfl rfl rfl
  | commit tx jobId now =>
      simp only [Inbox.apply] at hs₁
      split at hs₁
      · cases hs₁
      split at hs₁ <;> cases hs₁
      exact h.commitLawsuit
  | abort tx =>
      cases hs₁
      exact hframe _ rfl rfl rfl rfl rfl rfl
  | complete callbackId jobId now =>
      simp only [Inbox.apply] at hs₁
      split at hs₁
      · cases hs₁
      split at hs₁
      · cases hs₁
        exact hframe _ rfl rfl rfl rfl rfl rfl
      split at hs₁ <;> cases hs₁
      exact hframe _ rfl rfl rfl rfl rfl rfl
  | select =>
      simp only [Inbox.apply] at hs₁
      split at hs₁ <;> cases hs₁
      rename_i hfree
      rw [Bool.not_eq_true, Bool.or_eq_false_iff] at hfree
      refine ⟨h.grants, h.staged, fun saw hsaw code hnewest => ?_, h.reconciled, h.before,
        fun hrec => ?_⟩
      · -- it selects among the versions committed now
        obtain rfl : s.versions = saw := Option.some.inj hsaw
        exact newestProcess_mem hnewest
      · have hrec' : s.recorded = true := hrec
        rw [hfree.1] at hrec'
        cases hrec'
  | record =>
      simp only [Inbox.apply] at hs₁
      split at hs₁ <;> cases hs₁
      rename_i saw hsaw
      have hopen : s.recorded = false := by
        cases hrec : s.recorded with
        | false => rfl
        | true => rw [h.once hrec] at hsaw; cases hsaw
      refine ⟨fun code => ?_, h.staged, fun _ hnone => (nomatch hnone),
        fun code hnewest => h.recording saw hsaw code hnewest, fun hf => (nomatch hf), fun _ => rfl⟩
      show (a.tenant, code) ∈ s.grants ++ _ ↔ GrantedByResponse a s code ∨ _
      have hnone : newestProcess s.reconciled = none := by rw [h.before hopen]; rfl
      rw [List.mem_append, h.grants code, GrantSeen, hnone]
      simp
  | worker op =>
      simp only [Inbox.apply] at hs₁
      split at hs₁ <;> cases hs₁
      exact hframe _ rfl rfl rfl rfl rfl rfl
  | finalize code sourceId =>
      simp only [Inbox.apply] at hs₁
      split at hs₁
      · cases hs₁
      split at hs₁ <;> cases hs₁
      refine h.frame rfl (fun c => ?_) rfl rfl rfl rfl
      -- a finalized version keeps its process
      simp only [Inbox.Staged, List.mem_map, exists_exists_and_eq_and]
      refine exists_congr fun v => and_congr_right fun _ => ?_
      split <;> rfl

theorem accounted_init (a : Acquisition) : Accounted a {} where
  grants := by simp [GrantSeen, GrantedByResponse, newestProcess]
  staged := by simp [Inbox.Staged]
  recording := fun _ hnone => nomatch hnone
  reconciled := fun _ hnone => nomatch hnone
  before := fun _ => rfl
  once := fun hf => nomatch hf

/-! ## §4. Every interleaving. -/

/-- The acquisition of the runs below. -/
def sharedAcquisition : Acquisition := ⟨7, "req-1"⟩

/-- A response for a process. -/
def responseFor (responseId code : String) : Response where
  responseId := some responseId
  code := code
  stable := rfl

/-- A whole lawsuit transaction. -/
def receive (tx : Nat) (r : Response) : List Event :=
  [.deliver tx r, .grant tx, .check tx, .commit tx tx 0]

/-- One response before the request id is recorded, and one after. -/
def straddlingRun : List Event :=
  receive 1 (responseFor "resp-1" "A") ++ [.select, .record] ++
    receive 2 (responseFor "resp-2" "B")

/-- Two responses, for two processes, before the request id is recorded. -/
def earlyRun : List Event :=
  receive 1 (responseFor "resp-1" "A") ++ receive 2 (responseFor "resp-2" "B") ++
    [.select, .record]

/-- All transactions have committed, `A` is staged, and it is not granted. -/
theorem earlyRun_not_granted :
    ∃ s ∈ run (Inbox.step sharedAcquisition) {} earlyRun, s.Settled ∧
      (∃ v ∈ s.versions, v.code = "A") ∧ (sharedAcquisition.tenant, "A") ∉ s.grants := by
  decide

end Rpy.Judit

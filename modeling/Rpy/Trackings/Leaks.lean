/-
  Rpy.Trackings.Leaks
  ───────────────────
  **WHEN A TRACKING AT THE PROVIDER IS LEAKED.**

  The provider creates a tracking before the row can store its id.  Between
  the two the id is known to one coroutine only: if that ends, or finds its
  row not `creating` any more, nobody can delete the tracking.

    • `NoLeak`        — every tracking created for a row is stored by it or
                        deleted, when no task of the row is left,
    • `Held`          — the steps that lose no id,
    • `Deletions`, `Flights` — what every step keeps,
    • `noLeak_iff`    — no tracking is leaked along runs of `Held` steps,
                        and none is at the end of a run only if its steps
                        are such.
-/
import Rpy.Trackings.Evolution

namespace Rpy.Trackings

open Rpy.Foundation Rpy.Queue
open Rpy.Lifecycle (payloadText Names)

/-! ## §1. The property and the condition. -/

/-- No task of the tracking is pending or running. -/
def System.Quiet (x : String) (s : System) : Prop :=
  (∀ j ∈ s.db.jobs.rows, Creates x j ∨ Deletes x j → j.active = false) ∧
    ∀ run ∈ s.runs, ¬ (Creates x run.row ∨ Deletes x run.row)

instance (x : String) (s : System) : Decidable (s.Quiet x) :=
  inferInstanceAs (Decidable (_ ∧ _))

/-- The row stores the provider's id, and is not deleted. -/
def System.Stores (x id : String) (s : System) : Prop :=
  ∃ t ∈ s.db.trackings.rows, t.id = x ∧ t.status ≠ .deleted ∧ t.providerTrackingId = some id

instance (x id : String) (s : System) : Decidable (s.Stores x id) :=
  inferInstanceAs (Decidable (∃ t ∈ s.db.trackings.rows, _))

/-- **Every tracking created for the row is stored by it, or deleted at the
provider**, when none of its tasks is left. -/
def NoLeak (x : String) (s : System) : Prop :=
  s.Quiet x → ∀ c ∈ s.provider.created, c.1 = x → s.Stores x c.2 ∨ c.2 ∈ s.provider.deleted

instance (x : String) (s : System) : Decidable (NoLeak x s) :=
  inferInstanceAs (Decidable (_ → _))

/-- The run has created a tracking for the row, and not stored its id. -/
def TaskRun.holds (x : String) (run : TaskRun) : Bool :=
  decide (Creates x run.row) &&
    match run.stage with
    | .answered _ => true
    | _ => false

/-- The row is `creating`. -/
def System.Creating (x : String) (s : System) : Prop :=
  ∃ t ∈ s.db.trackings.rows, t.isCreating x = true

instance (x : String) (s : System) : Decidable (s.Creating x) :=
  inferInstanceAs (Decidable (∃ t ∈ s.db.trackings.rows, _))

/-- What a run that holds a tracking's id may do with it. -/
def System.Allows (x : String) (s : System) : TaskCall → Prop
  | .commit => s.Creating x
  | .heartbeat => True
  | _ => False

/-- **A run that holds a tracking's id stores it in a row that is still
`creating`**, and ends in no other way. -/
def Held (x : String) (s : System) : Event → Prop
  | .call worker slot _ c =>
      ∀ run ∈ s.runs.find? (TaskRun.isAt worker slot), run.holds x = true → s.Allows x c
  | .vanish worker slot =>
      ∀ run ∈ s.runs.find? (TaskRun.isAt worker slot), run.holds x = false
  | _ => True

/-! ## §2. The deletion jobs of a row. -/

/-- At most one deletion of a row is under way, and only while the row is
`deleting`. -/
structure Deletions (s : System) : Prop where
  single : SingleAttempt "delete_judit_tracking" s.db.jobs
  once : ∀ x, s.live (Deletes x) ≤ 1
  deleting : ∀ x, 0 < s.live (Deletes x) →
    ∃ t ∈ s.db.trackings.rows, t.id = x ∧ t.status = .deleting

section Deleting

variable {s s' : System} {db' : Database} {now : Timestamp}

/-- A run that has to answer for a deletion. -/
theorem live_pos_of_run {q : Job → Prop} [DecidablePred q] {run : TaskRun} (hrun : run ∈ s.runs)
    (hq : q run.row) (hlive : run.stage.isLive = true) : 0 < s.live q := by
  refine Nat.lt_of_lt_of_le ?_ (Nat.le_add_left _ _)
  exact List.countP_pos_iff.2 ⟨run, hrun, by simp [hq, hlive]⟩

/-- The row of a deletion that is under way. -/
theorem Deletions.row (h : Deletions s) {x : String} (hpos : 0 < s.live (Deletes x))
    {t : Tracking} (ht : t ∈ s.db.trackings.rows) (hid : t.id = x) : t.status = .deleting := by
  obtain ⟨u, hu, huid, hstatus⟩ := h.deleting x hpos
  obtain rfl := TrackingTable.eq_of_id ht hu (hid.trans huid.symm)
  exact hstatus

/-- The deletion that drops a row was the only one. -/
theorem Deletions.live_dropped (h : Deletions s) {run : TaskRun} (hrun : run ∈ s.runs)
    {x : String} (hx : Deletes x run.row) {id : String} (hanswered : run.stage = .answered id)
    (hruns : s'.runs = moveRun s.runs run (some .settled)) (hjobs : s'.db.jobs = s.db.jobs) :
    s'.live (Deletes x) = 0 := by
  unfold System.live
  rw [hruns, hjobs]
  refine live_moveRun_eq_zero (h.once x) hrun hx (by rw [hanswered]; rfl) fun next hnext => ?_
  cases hnext
  rfl

/-- **A deletion that is still under way keeps its row `deleting`.** -/
theorem Deletions.deleting_step (h : Deletions s) {e : Event} (hs : s.step e = some s')
    {x : String} (hpos : 0 < s.live (Deletes x)) (hpos' : 0 < s'.live (Deletes x)) :
    ∃ t ∈ s'.db.trackings.rows, t.id = x ∧ t.status = .deleting := by
  obtain ⟨t, ht, rfl, hstatus⟩ := h.deleting x hpos
  obtain ⟨t', ht', hid, hevolves⟩ := System.step_survives hs ht
  cases hevolves with
  | same hsame => exact ⟨t', ht', hid, hsame.trans hstatus⟩
  | recreated hdead => rcases hdead with hdead | hdead <;> rw [hstatus] at hdead <;> cases hdead
  | deleting hlive => exact absurd hstatus hlive.2
  | refused hcreating => rw [hstatus] at hcreating; cases hcreating
  | activated run hrun hx id hanswered hruns hcreating => rw [hstatus] at hcreating; cases hcreating
  | dropped run hrun hx id hanswered hruns hjobs =>
      rw [h.live_dropped hrun hx hanswered hruns hjobs] at hpos'
      exact absurd hpos' (Nat.lt_irrefl 0)

/-- A step that adds no deletion job. -/
theorem Deletions.mono (h : Deletions s) {e : Event} (hs : s.step e = some s')
    (hsingle : SingleAttempt "delete_judit_tracking" s'.db.jobs)
    (hlive : ∀ x, s'.live (Deletes x) ≤ s.live (Deletes x)) : Deletions s' where
  single := hsingle
  once := fun x => Nat.le_trans (hlive x) (h.once x)
  deleting := fun x hpos => h.deleting_step hs (Nat.lt_of_lt_of_le hpos (hlive x)) hpos

theorem Deletions.of_keep (h : Deletions s) {e : Event} (hs : s.step e = some s')
    (hjobs : JobsKeep s.db.jobs s'.db.jobs)
    (hruns : ∀ x, liveRuns (Deletes x) s'.runs ≤ liveRuns (Deletes x) s.runs) :
    Deletions s' := by
  refine h.mono hs (hjobs.single _ h.single) fun x => ?_
  unfold System.live
  rw [hjobs.unclaimed _ (fixed_names _ _ _)]
  exact Nat.add_le_add_left (hruns x) _

theorem Deletions.insertNew (h : Deletions s) {e : Event} (hs : s.step e = some s')
    {new : NewJob} {jobId : Uuid}
    (hjobs : s'.db.jobs = (s.db.jobs.insertNew new jobId now).2) (hruns : s'.runs = s.runs)
    (htask : new.taskName ≠ "delete_judit_tracking") : Deletions s' := by
  refine h.mono hs ?_ fun x => ?_
  · rw [hjobs]
    exact h.single.insertNew fun heq => absurd heq htask
  · unfold System.live
    rw [hjobs, hruns, unclaimed_insertNew_eq fun hx => htask hx.1]

/-- **`delete_tracking` starts the only deletion of its row.** -/
theorem Deletions.delete (h : Deletions s) {tenantId : Uuid} {trackingId : String} {jobId : Uuid}
    (hs : s.step (.delete tenantId trackingId jobId now) = some s') : Deletions s' := by
  have hs' := hs
  obtain ⟨⟨found, db'⟩, hdelete, rfl⟩ := Option.map_eq_some_iff.1 hs
  rcases deleteTracking_cases hdelete with rfl | ⟨t, ht, hid, hdeleted, hdeleting, rfl⟩
  · exact h
  · have hadd : ∀ x, unclaimed (Deletes x)
          (s.db.jobs.insertNew (deleteJob trackingId (t.attemptNumber + 1)) jobId now).2 ≤
        unclaimed (Deletes x) s.db.jobs + if x = trackingId then 1 else 0 := by
      intro x
      by_cases hx : x = trackingId
      · rw [if_pos hx]
        refine Nat.le_trans unclaimed_insertNew (Nat.add_le_add_left ?_ _)
        split
        · exact Nat.le_refl 1
        · exact Nat.zero_le 1
      · have hnot : ¬ Deletes x
            ((deleteJob trackingId (t.attemptNumber + 1)).row jobId now) := fun hdel =>
          hx (Option.some.inj hdel.2).symm
        rw [if_neg hx, unclaimed_insertNew_eq hnot]
        exact Nat.le_refl _
    -- the row was not `deleting`, so no deletion of it was under way
    have hnone : s.live (Deletes trackingId) = 0 := by
      refine Nat.eq_zero_of_not_pos fun hpos => hdeleting (h.row hpos ht hid)
    refine ⟨h.single.insertNew fun _ => rfl, fun x => ?_, fun x hpos => ?_⟩
    · have honce := h.once x
      have hadd' := hadd x
      show unclaimed (Deletes x)
        (s.db.jobs.insertNew (deleteJob trackingId (t.attemptNumber + 1)) jobId now).2 +
          liveRuns (Deletes x) s.runs ≤ 1
      unfold System.live at honce hnone
      by_cases hx : x = trackingId
      · subst hx
        rw [if_pos rfl] at hadd'
        omega
      · rw [if_neg hx] at hadd'
        omega
    · by_cases hx : x = trackingId
      · subst hx
        obtain ⟨t', ht', hid', -⟩ := System.step_survives hs' ht
        refine ⟨t', ht', hid'.trans hid, ?_⟩
        rcases mem_updateWhere.1 ht' with ⟨u, -, -, rfl⟩ | ⟨-, hnot⟩
        · rfl
        · simp [Tracking.isRow, hid'.trans hid] at hnot
      · refine h.deleting_step hs' ?_ hpos
        have hadd' := hadd x
        have hpos' : 0 < unclaimed (Deletes x)
          (s.db.jobs.insertNew (deleteJob trackingId (t.attemptNumber + 1)) jobId now).2 +
            liveRuns (Deletes x) s.runs := hpos
        rw [if_neg hx] at hadd'
        show 0 < unclaimed (Deletes x) s.db.jobs + liveRuns (Deletes x) s.runs
        omega

/-- **Every step keeps the deletions.** -/
theorem Deletions.step {e : Event} (h : Deletions s) (hs : s.step e = some s') :
    Deletions s' := by
  have hs₀ := hs
  cases e with
  | create tenantId code recurrenceDays rowId jobId now =>
      obtain ⟨⟨result, db'⟩, hcreate, rfl⟩ := Option.map_eq_some_iff.1 hs
      rcases createTracking_cases hcreate with rfl | ⟨t, -, hdays, -, -, -, rfl⟩ |
        ⟨trackings, hdays, -, rfl⟩
      · exact h
      · exact h.insertNew hs₀ rfl rfl (by simp [createJob])
      · exact h.insertNew hs₀ rfl rfl (by simp [createJob])
  | delete tenantId trackingId jobId now => exact h.delete hs
  | reconcile staleAfter limit locked ids now =>
      obtain ⟨⟨n, db'⟩, hreconcile, rfl⟩ := Option.map_eq_some_iff.1 hs
      -- The scheduler enqueues refreshes, one for each tracking that is due.
      have hkept : SingleAttempt "delete_judit_tracking" db'.jobs ∧
          ∀ x, unclaimed (Deletes x) db'.jobs ≤ unclaimed (Deletes x) s.db.jobs := by
        refine enqueueDue_induction (P := fun db =>
          SingleAttempt "delete_judit_tracking" db.jobs ∧
            ∀ x, unclaimed (Deletes x) db.jobs ≤ unclaimed (Deletes x) s.db.jobs) hreconcile
          ⟨h.single, fun _ => Nat.le_refl _⟩ ?_
        intro db₁ db₂ t refreshId jobId created ⟨hsingle, hle⟩ hturn
        rcases reconcileOne_cases hturn with rfl | ⟨refreshes, -, -, -, rfl⟩
        · exact ⟨hsingle, hle⟩
        · refine ⟨hsingle.insertNew fun _ => rfl, fun x => ?_⟩
          -- A refresh job deletes nothing.
          have hnot : ¬ Deletes x ((refreshJob refreshId).row jobId now) := fun hx =>
            absurd hx.1 (by simp [NewJob.row, refreshJob])
          show unclaimed (Deletes x) (db₁.jobs.insertNew _ _ _).2 ≤ _
          rw [unclaimed_insertNew_eq hnot]
          exact hle x
      exact h.mono hs₀ hkept.1 fun x => Nat.add_le_add_right (hkept.2 x) _
  | completed requestId unseen now =>
      simp only [System.step] at hs
      split at hs
      · cases hs
      · cases hs
        refine h.mono hs₀ ?_ fun x => ?_
        · unfold System.complete
          split <;> exact h.single
        · unfold System.complete
          split <;> exact Nat.le_refl _
  | other new jobId now =>
      simp only [System.step] at hs
      split at hs
      · rename_i hforeign
        obtain ⟨db', henqueue, rfl⟩ := Option.map_eq_some_iff.1 hs
        obtain ⟨-, rfl⟩ := Database.enqueue_eq_some henqueue
        refine h.insertNew hs₀ rfl rfl fun heq => (isForeign_eq_true hforeign).1 ?_
        rw [heq]
        decide
      · cases hs
  | claim worker slot now locked pick =>
      simp only [System.step] at hs
      split at hs
      · cases hs
      · split at hs
        · cases hs
        · rename_i row jobs hclaim
          cases hs
          exact h.mono hs₀ (h.single.claim hclaim) fun x =>
            live_claim (q := Deletes x) hclaim h.single (fixed_names _ _ x) fun _ hx => hx.1
  | call worker slot now c =>
      simp only [System.step] at hs
      split at hs
      · cases hs
      · rename_i run hfind
        split at hs
        · cases hs
        · rename_i db' provider' stage hcall
          cases hs
          refine h.of_keep hs₀ (TaskRun.call_keeps hcall) fun x =>
            liveRuns_moveRun_le (q := Deletes x) (TaskRun.call_live hcall)
  | reclaim timeoutSeconds now locked =>
      simp only [System.step] at hs
      split at hs
      · cases hs
      · rename_i rows jobs hreclaim
        cases hs
        exact h.of_keep hs₀ (.reclaim hreclaim) fun _ => Nat.le_refl _
  | vanish worker slot =>
      simp only [System.step] at hs
      split at hs <;> cases hs
      exact h.of_keep hs₀ (.refl _) fun x => List.filter_sublist.countP_le
  | purgeJobs before =>
      cases hs
      have hsub : (purgeTerminalJobs s.db.jobs before).rows.Sublist s.db.jobs.rows :=
        List.filter_sublist
      exact h.mono hs₀ (fun j hj => h.single j (hsub.subset hj)) fun x =>
        Nat.add_le_add_right hsub.countP_le _
  | tracked | purgeCompletions =>
      cases hs
      exact h.of_keep hs₀ (.refl _) fun _ => Nat.le_refl _

end Deleting

/-! ## §3. The provider's ids. -/

/-- The task that makes a call. -/
def ProviderCall.task : ProviderCall → String
  | .createTracking _ _ => "create_judit_tracking"
  | .deleteTracking _ => "delete_judit_tracking"
  | .createRequest _ => "refresh_judit_tracking"

/-- The run is about to make the call, or has its answer outstanding. -/
def TaskRun.Calls (run : TaskRun) (c : ProviderCall) : Prop :=
  run.stage = .ready c ∨ run.stage = .calling c

/-- The run of a creation, with the id that the provider answered. -/
def TaskRun.Brings (run : TaskRun) (id : String) : Prop :=
  run.row.taskName = "create_judit_tracking" ∧ run.stage = .answered id

/-- Where the provider's ids are. -/
structure Flights (s : System) : Prop where
  /-- a stored id is a created one, in a row that is active or being deleted -/
  stored : ∀ t ∈ s.db.trackings.rows, ∀ id, t.providerTrackingId = some id →
    (t.status = .active ∨ t.status = .deleting) ∧ id ≠ "" ∧ id ∈ s.provider.created.map Prod.snd
  deleted : ∀ id ∈ s.provider.deleted, id ∈ s.provider.created.map Prod.snd
  called : ∀ run ∈ s.runs, ∀ c, run.Calls c → c.task = run.row.taskName
  /-- what a deletion is about to delete is stored by its row -/
  removing : ∀ run ∈ s.runs, ∀ id, run.Calls (.deleteTracking id) →
    ∃ x, Deletes x run.row ∧ ∃ t ∈ s.db.trackings.rows, t.id = x ∧ t.providerTrackingId = some id
  /-- what a deletion's row still stores when it answers is deleted -/
  removed : ∀ run ∈ s.runs, ∀ x, Deletes x run.row → ∀ d, run.stage = .answered d →
    ∀ t ∈ s.db.trackings.rows, t.id = x → ∀ id, t.providerTrackingId = some id →
      id ∈ s.provider.deleted
  /-- an id that a creation brings is nowhere else -/
  brought : ∀ run ∈ s.runs, ∀ id, run.Brings id → id ≠ "" ∧ id ∉ s.provider.deleted ∧
    (∀ t ∈ s.db.trackings.rows, t.providerTrackingId ≠ some id) ∧
    ∃ x, Creates x run.row ∧ (x, id) ∈ s.provider.created
  apart : ∀ run ∈ s.runs, ∀ run' ∈ s.runs, ∀ id, run.Brings id → run'.Brings id → run = run'

section Provider

variable {s s' : System} {db' : Database} {now : Timestamp} {e : Event}

/-- What the provider does for each call. -/
theorem TaskRun.accept_cases {run : TaskRun} {provider provider' : Provider} {c : ProviderCall}
    {id : String} {stage : Stage} (h : run.accept provider c id = some (provider', stage)) :
    (∃ code days x, c = .createTracking code days ∧ run.about "tracking_id" = some x ∧
      id ∉ provider.created.map Prod.snd ∧ id ≠ "" ∧ stage = .answered id ∧
      provider' = { provider with created := provider.created ++ [(x, id)] }) ∨
    (∃ d, c = .deleteTracking d ∧ stage = .answered d ∧
      provider' = { provider with deleted := provider.deleted ++ [d] }) ∨
    (∃ code, c = .createRequest code ∧ stage = .answered id ∧ provider' = provider) := by
  cases c with
  | createTracking code days =>
      simp only [TaskRun.accept] at h
      split at h
      · cases h
      · rename_i x habout
        split at h
        · cases h
        · rename_i hnew
          cases h
          rw [not_or] at hnew
          exact .inl ⟨code, days, x, rfl, habout, hnew.2, hnew.1, rfl, rfl⟩
  | deleteTracking d =>
      cases h
      exact .inr (.inl ⟨d, rfl, rfl, rfl⟩)
  | createRequest code =>
      simp only [TaskRun.accept] at h
      split at h
      · cases h
      · cases h
        exact .inr (.inr ⟨code, rfl, rfl, rfl⟩)

/-- What the provider has created stays created. -/
theorem System.created_step (hs : s.step e = some s') {c : String × String}
    (hc : c ∈ s.provider.created) : c ∈ s'.provider.created := by
  cases System.step_provider hs with
  | same h =>
      rw [h]
      exact hc
  | accepted run hrun c id stage hcalling haccept =>
      rcases TaskRun.accept_cases haccept with ⟨_, _, _, -, -, -, -, -, hprovider⟩ |
        ⟨_, -, -, hprovider⟩ | ⟨_, -, -, hprovider⟩ <;> rw [hprovider]
      · exact List.mem_append_left _ hc
      · exact hc
      · exact hc

theorem System.createdIds_step (hs : s.step e = some s') {id : String}
    (hid : id ∈ s.provider.created.map Prod.snd) : id ∈ s'.provider.created.map Prod.snd := by
  obtain ⟨c, hc, rfl⟩ := List.mem_map.1 hid
  exact List.mem_map_of_mem (System.created_step hs hc)

/-- What it has deleted stays deleted. -/
theorem System.deleted_step (hs : s.step e = some s') {id : String}
    (hid : id ∈ s.provider.deleted) : id ∈ s'.provider.deleted := by
  cases System.step_provider hs with
  | same h =>
      rw [h]
      exact hid
  | accepted run hrun c id stage hcalling haccept =>
      rcases TaskRun.accept_cases haccept with ⟨_, _, _, -, -, -, -, -, hprovider⟩ |
        ⟨_, -, -, hprovider⟩ | ⟨_, -, -, hprovider⟩ <;> rw [hprovider]
      · exact hid
      · exact List.mem_append_left _ hid
      · exact hid

/-- **The provider deletes what a row stores.** -/
theorem Flights.deleted_cases (h : Flights s) (hs : s.step e = some s') {id : String}
    (hid : id ∈ s'.provider.deleted) :
    id ∈ s.provider.deleted ∨
      ∃ t ∈ s.db.trackings.rows, t.providerTrackingId = some id := by
  cases System.step_provider hs with
  | same hsame =>
      rw [hsame] at hid
      exact .inl hid
  | accepted run hrun c answer stage hcalling haccept =>
      rcases TaskRun.accept_cases haccept with ⟨_, _, _, -, -, -, -, -, hprovider⟩ |
        ⟨d, rfl, -, hprovider⟩ | ⟨_, -, -, hprovider⟩ <;> rw [hprovider] at hid
      · exact .inl hid
      · rcases List.mem_append.1 hid with hold | hnew
        · exact .inl hold
        · obtain rfl := List.mem_singleton.1 hnew
          obtain ⟨x, -, t, ht, -, hstored⟩ := h.removing run hrun id (.inr hcalling)
          exact .inr ⟨t, ht, hstored⟩
      · exact .inl hid

/-- **An id in a row was there, or a creation has just brought it.** -/
theorem Flights.stored_cases (h : Flights s) (hs : s.step e = some s') {t' : Tracking}
    (ht' : t' ∈ s'.db.trackings.rows) {id : String} (hstored : t'.providerTrackingId = some id) :
    (∃ t ∈ s.db.trackings.rows, t'.id = t.id ∧ t.providerTrackingId = some id ∧
      (t'.status = t.status ∨ t'.status = .deleting)) ∨
    (∃ t ∈ s.db.trackings.rows, t'.id = t.id ∧ t.status = .creating ∧ t'.status = .active ∧
      ∃ run ∈ s.runs, Creates t.id run.row ∧ run.Brings id ∧
        s'.runs = moveRun s.runs run (some .settled)) := by
  rcases System.step_rows hs ht' with ⟨-, hnone, -⟩ | ⟨t, ht, hid, hevolves⟩
  · rw [hnone] at hstored
    cases hstored
  · cases hevolves with
    | same hstatus hprovider => exact .inl ⟨t, ht, hid, hprovider ▸ hstored, .inl hstatus⟩
    | recreated hdead hstatus hprovider => rw [hprovider] at hstored; cases hstored
    | deleting hlive hstatus hprovider => exact .inl ⟨t, ht, hid, hprovider ▸ hstored, .inr hstatus⟩
    | refused hcreating hstatus hprovider =>
        -- a row that is `creating` stores nothing
        rw [hprovider] at hstored
        rcases (h.stored t ht id hstored).1 with hlive | hlive <;> rw [hcreating] at hlive <;>
          cases hlive
    | activated run hrun hx answer hanswered hruns hcreating hstatus hprovider =>
        obtain rfl : answer = id := Option.some.inj (hprovider.symm.trans hstored)
        exact .inr ⟨t, ht, hid, hcreating, hstatus, run, hrun, hx, ⟨hx.1, hanswered⟩, hruns⟩
    | dropped run hrun hx answer hanswered hruns hjobs hstatus hprovider =>
        rw [hprovider] at hstored
        cases hstored

/-- A stored id stays in its row, unless the row's deletion answers. -/
theorem Flights.stored_step (h : Flights s) (hs : s.step e = some s') {t : Tracking}
    (ht : t ∈ s.db.trackings.rows) {id : String} (hstored : t.providerTrackingId = some id) :
    (∃ t' ∈ s'.db.trackings.rows, t'.id = t.id ∧ t'.providerTrackingId = some id) ∨
    (∃ run ∈ s.runs, Deletes t.id run.row ∧ (∃ d, run.stage = .answered d) ∧
      s'.runs = moveRun s.runs run (some .settled) ∧ s'.db.jobs = s.db.jobs) := by
  have hlive := (h.stored t ht id hstored).1
  obtain ⟨t', ht', hid, hevolves⟩ := System.step_survives hs ht
  cases hevolves with
  | same hstatus hprovider => exact .inl ⟨t', ht', hid, hprovider.trans hstored⟩
  | recreated hdead =>
      rcases hdead with hdead | hdead <;> rw [hdead] at hlive <;>
        rcases hlive with hlive | hlive <;> cases hlive
  | deleting hlive hstatus hprovider => exact .inl ⟨t', ht', hid, hprovider.trans hstored⟩
  | refused hcreating hstatus hprovider => exact .inl ⟨t', ht', hid, hprovider.trans hstored⟩
  | activated run hrun hx answer hanswered hruns hcreating =>
      rw [hcreating] at hlive
      rcases hlive with hlive | hlive <;> cases hlive
  | dropped run hrun hx answer hanswered hruns hjobs =>
      exact .inr ⟨run, hrun, hx, ⟨answer, hanswered⟩, hruns, hjobs⟩

/-- What a task finds when it reads its row. -/
theorem TaskRun.fetch_cases {run : TaskRun} {db : Database} {stage : Stage}
    (h : run.fetch db = some stage) :
    (stage = .raised ∨ stage = .settled) ∨
    (∃ c, stage = .ready c ∧ c.task = run.row.taskName ∧ ∀ d, c = .deleteTracking d →
      ∃ x, Deletes x run.row ∧ ∃ t ∈ db.trackings.rows, t.id = x ∧
        t.providerTrackingId = some d) ∨
    (∃ x, Deletes x run.row ∧ stage = .answered "" ∧
      ∃ t ∈ db.trackings.rows, t.id = x ∧ t.providerTrackingId.getD "" = "") := by
  unfold TaskRun.fetch at h
  split at h
  · rename_i htask
    cases h
    unfold TaskRun.fetchCreate
    split
    · exact .inl (.inl rfl)
    · split
      · exact .inl (.inl rfl)
      · split
        · exact .inl (.inr rfl)
        · split
          · exact .inl (.inr rfl)
          · exact .inr (.inl ⟨_, rfl, htask.symm, fun _ hc => by cases hc⟩)
  · split at h
    · rename_i htask
      cases h
      unfold TaskRun.fetchDelete
      split
      · exact .inl (.inl rfl)
      · rename_i x habout
        split
        · exact .inl (.inl rfl)
        · rename_i t hfind
          obtain ⟨ht, hid⟩ := TrackingTable.byId?_eq_some hfind
          split
          -- The tracking was never created at the provider: there is nothing to delete.
          · rename_i hempty
            exact .inr (.inr ⟨x, ⟨htask, habout⟩, rfl, t, ht, hid, hempty⟩)
          · rename_i hne
            refine .inr (.inl ⟨_, rfl, htask.symm, fun d hd => ⟨x, ⟨htask, habout⟩, t, ht, hid, ?_⟩⟩)
            cases hprovider : t.providerTrackingId with
            | none =>
                rw [hprovider] at hne
                exact absurd rfl hne
            | some p =>
                rw [hprovider] at hd
                exact congrArg some (ProviderCall.deleteTracking.inj hd)
    · split at h
      · rename_i htask
        cases h
        unfold TaskRun.fetchRefresh
        split
        · exact .inl (.inl rfl)
        · split
          · exact .inl (.inl rfl)
          · split
            · exact .inl (.inl rfl)
            · split
              · exact .inl (.inl rfl)
              · split
                · exact .inl (.inr rfl)
                · exact .inr (.inl ⟨_, rfl, htask.symm, fun _ hc => by cases hc⟩)
      · cases h

/-- A row's deletions are about one row. -/
theorem deletes_inj {x y : String} {j : Job} (hx : Deletes x j) (hy : Deletes y j) : x = y :=
  Option.some.inj (hx.2.symm.trans hy.2)

/-- **Where a run that brings an id comes from**: it had it, or the provider
has just created it. -/
theorem Flights.brings_cases (h : Flights s) (hs : s.step e = some s') {run' : TaskRun}
    (hrun' : run' ∈ s'.runs) {id : String} (hbrings : run'.Brings id) :
    run' ∈ s.runs ∨
    (id ∉ s.provider.created.map Prod.snd ∧ id ≠ "" ∧ s'.db = s.db ∧
      s'.provider.deleted = s.provider.deleted ∧
      (∃ x, Creates x run'.row ∧ (x, id) ∈ s'.provider.created) ∧
      ∀ run₂ ∈ s'.runs, run₂.Brings id → run₂ = run') := by
  obtain ⟨htask, hanswered⟩ := hbrings
  cases System.step_runs hs hrun' with
  | old hold => exact .inl hold
  | claimed hclaimed => rw [hclaimed] at hanswered; cases hanswered
  | ended hended => rcases hended with hended | hended <;> rw [hended] at hanswered <;> cases hanswered
  | fetched run hrun hrow hfetch =>
      rcases TaskRun.fetch_cases hfetch with (hstage | hstage) | ⟨c, hstage, -⟩ | ⟨x, hx, -⟩
      · rw [hstage] at hanswered; cases hanswered
      · rw [hstage] at hanswered; cases hanswered
      · rw [hstage] at hanswered; cases hanswered
      · rw [hrow, hx.1] at htask
        exact absurd htask (by decide)
  | sent run hrun hrow c hready hcalling => rw [hcalling] at hanswered; cases hanswered
  | accepted run hrun hrow c answer hcalling haccept hdb hruns hmoved =>
      -- An answer that is an id comes from a creation that the provider has just accepted.
      have hcall := h.called run hrun c (.inr hcalling)
      rw [hrow] at htask
      rcases TaskRun.accept_cases haccept with ⟨code, days, x, rfl, habout, hnew, hne, hstage, hp⟩ |
        ⟨d, rfl, -⟩ | ⟨code, rfl, -⟩
      · obtain rfl : answer = id := Stage.answered.inj (hstage.symm.trans hanswered)
        have hx : Creates x run'.row := by
          rw [hrow]
          exact ⟨htask, habout⟩
        refine .inr ⟨hnew, hne, hdb, by rw [hp], ⟨x, hx, ?_⟩, fun run₂ hrun₂ hb₂ => ?_⟩
        · rw [hp]
          exact List.mem_append_right _ (List.mem_singleton_self _)
        · rw [hruns] at hrun₂
          rcases mem_moveRun hrun₂ with ⟨next, hnext, rfl⟩ | ⟨hold, -⟩
          · obtain rfl := Option.some.inj hnext
            exact hmoved.symm
          · -- its id would have been created before
            obtain ⟨-, -, -, y, -, hy⟩ := h.brought run₂ hold answer hb₂
            exact absurd (List.mem_map_of_mem hy) hnew
      · exact absurd (hcall.trans htask) (by simp [ProviderCall.task])
      · exact absurd (hcall.trans htask) (by simp [ProviderCall.task])

/-- **Where a run with a call comes from**: it had it, it was about to send
it, or it has just read its row. -/
theorem TaskRun.Comes.calls {run' : TaskRun} (h : TaskRun.Comes s s' run') {c : ProviderCall}
    (hcalls : run'.Calls c) :
    run' ∈ s.runs ∨ s'.db = s.db ∧ ∃ run ∈ s.runs, run'.row = run.row ∧
      (run.stage = .ready c ∨ run.fetch s.db = some (.ready c)) := by
  cases h with
  | old hold => exact .inl hold
  | claimed hclaimed => rcases hcalls with hc | hc <;> rw [hclaimed] at hc <;> cases hc
  | ended hended =>
      rcases hended with hended | hended <;> rcases hcalls with hc | hc <;>
        rw [hended] at hc <;> cases hc
  | fetched run hrun hrow hfetch hdb =>
      refine .inr ⟨hdb, run, hrun, hrow, .inr ?_⟩
      rcases TaskRun.fetch_cases hfetch with (hstage | hstage) | ⟨_, hstage, -⟩ |
        ⟨_, -, hstage, -⟩ <;> rcases hcalls with hc | hc <;> rw [hstage] at hc <;> cases hc
      rw [hfetch, hstage]
  | sent run hrun hrow c' hready hcalling hdb =>
      rcases hcalls with hc | hc <;> rw [hcalling] at hc <;> cases hc
      exact .inr ⟨hdb, run, hrun, hrow, .inl hready⟩
  | accepted run hrun hrow c' answer hcalling haccept =>
      rcases TaskRun.accept_cases haccept with ⟨_, _, _, -, -, -, -, hstage, -⟩ |
        ⟨_, -, hstage, -⟩ | ⟨_, -, hstage, -⟩ <;> rcases hcalls with hc | hc <;>
        rw [hstage] at hc <;> cases hc

/-- **Where the answer to a deletion comes from**: it was there, its row
stores nothing, or the provider has just deleted what its row stores. -/
theorem Flights.removes_cases (h : Flights s) (hs : s.step e = some s') {run' : TaskRun}
    (hrun' : run' ∈ s'.runs) {x d : String} (hx : Deletes x run'.row)
    (hanswered : run'.stage = .answered d) :
    run' ∈ s.runs ∨ s'.db = s.db ∧ ∃ t ∈ s.db.trackings.rows, t.id = x ∧
      (t.providerTrackingId.getD "" = "" ∨
        t.providerTrackingId = some d ∧ d ∈ s'.provider.deleted) := by
  cases System.step_runs hs hrun' with
  | old hold => exact .inl hold
  | claimed hclaimed => rw [hclaimed] at hanswered; cases hanswered
  | ended hended =>
      rcases hended with hended | hended <;> rw [hended] at hanswered <;> cases hanswered
  | fetched run hrun hrow hfetch hdb =>
      rw [hrow] at hx
      rcases TaskRun.fetch_cases hfetch with (hstage | hstage) | ⟨_, hstage, -⟩ |
        ⟨y, hy, -, t, ht, htid, hempty⟩
      · rw [hstage] at hanswered; cases hanswered
      · rw [hstage] at hanswered; cases hanswered
      · rw [hstage] at hanswered; cases hanswered
      · obtain rfl := deletes_inj hx hy
        exact .inr ⟨hdb, t, ht, htid, .inl hempty⟩
  | sent run hrun hrow c hready hcalling => rw [hcalling] at hanswered; cases hanswered
  | accepted run hrun hrow c answer hcalling haccept hdb =>
      rw [hrow] at hx
      have hcall := h.called run hrun c (.inr hcalling)
      rcases TaskRun.accept_cases haccept with ⟨_, _, _, rfl, -⟩ | ⟨d', rfl, hstage, hp⟩ |
        ⟨_, rfl, -⟩
      · exact absurd (hcall.trans hx.1) (by simp [ProviderCall.task])
      · obtain rfl : d' = d := Stage.answered.inj (hstage.symm.trans hanswered)
        obtain ⟨y, hy, t, ht, htid, hstored⟩ := h.removing run hrun d' (.inr hcalling)
        obtain rfl := deletes_inj hx hy
        refine .inr ⟨hdb, t, ht, htid, .inr ⟨hstored, ?_⟩⟩
        rw [hp]
        exact List.mem_append_right _ (List.mem_singleton_self _)
      · exact absurd (hcall.trans hx.1) (by simp [ProviderCall.task])

theorem Flights.keeps_stored (h : Flights s) (hs : s.step e = some s') {t' : Tracking}
    (ht' : t' ∈ s'.db.trackings.rows) {id : String} (hstored : t'.providerTrackingId = some id) :
    (t'.status = .active ∨ t'.status = .deleting) ∧ id ≠ "" ∧
      id ∈ s'.provider.created.map Prod.snd := by
  rcases h.stored_cases hs ht' hstored with ⟨t, ht, -, hold, hstatus⟩ |
    ⟨t, ht, -, -, hactive, run, hrun, -, hbrings, -⟩
  · obtain ⟨hlive, hne, hcreated⟩ := h.stored t ht id hold
    refine ⟨?_, hne, System.createdIds_step hs hcreated⟩
    rcases hstatus with hstatus | hstatus
    · rw [hstatus]
      exact hlive
    · exact .inr hstatus
  · obtain ⟨hne, -, -, x, -, hcreated⟩ := h.brought run hrun id hbrings
    exact ⟨.inl hactive, hne, System.createdIds_step hs (List.mem_map_of_mem hcreated)⟩

theorem Flights.keeps_removing (h : Flights s) (hdel : Deletions s) (hs : s.step e = some s')
    {run' : TaskRun} (hrun' : run' ∈ s'.runs) {id : String}
    (hcalls : run'.Calls (.deleteTracking id)) :
    ∃ x, Deletes x run'.row ∧ ∃ t ∈ s'.db.trackings.rows, t.id = x ∧
      t.providerTrackingId = some id := by
  rcases (System.step_runs hs hrun').calls hcalls with hold | ⟨hdb, run, hrun, hrow, hready⟩
  · obtain ⟨x, hx, t, ht, rfl, hstored⟩ := h.removing run' hold id hcalls
    rcases h.stored_step hs ht hstored with ⟨t', ht', hid, hstored'⟩ |
      ⟨run₂, hrun₂, hx₂, ⟨d, hd⟩, hruns, hjobs⟩
    · exact ⟨t.id, hx, t', ht', hid, hstored'⟩
    · -- the run is the row's only deletion, and it is still there
      have hlive : run'.stage.isLive = true := by
        rcases hcalls with hc | hc <;> rw [hc] <;> rfl
      have hpos := live_pos_of_run (q := Deletes t.id) hrun' hx hlive
      rw [hdel.live_dropped hrun₂ hx₂ hd hruns hjobs] at hpos
      exact absurd hpos (Nat.lt_irrefl 0)
  · rw [hrow, hdb]
    rcases hready with hready | hfetch
    · exact h.removing run hrun id (.inl hready)
    · rcases TaskRun.fetch_cases hfetch with (hstage | hstage) | ⟨c, hstage, -, hd⟩ |
        ⟨_, -, hstage, -⟩ <;> cases hstage
      exact hd id rfl

theorem Flights.keeps_removed (h : Flights s) (hdel : Deletions s) (hs : s.step e = some s')
    {run' : TaskRun} (hrun' : run' ∈ s'.runs) {x d : String} (hx : Deletes x run'.row)
    (hanswered : run'.stage = .answered d) {t' : Tracking} (ht' : t' ∈ s'.db.trackings.rows)
    (hid : t'.id = x) {id : String} (hstored : t'.providerTrackingId = some id) :
    id ∈ s'.provider.deleted := by
  rcases h.removes_cases hs hrun' hx hanswered with hold | ⟨hdb, t, ht, htid, hrow⟩
  · rcases h.stored_cases hs ht' hstored with ⟨t, ht, htid, hstored₀, -⟩ |
      ⟨t, ht, htid, hcreating, -⟩
    · exact System.deleted_step hs
        (h.removed run' hold x hx d hanswered t ht (htid.symm.trans hid) id hstored₀)
    · have hpos := live_pos_of_run (q := Deletes x) hold hx (by rw [hanswered]; rfl)
      have hdeleting := hdel.row hpos ht (htid.symm.trans hid)
      rw [hcreating] at hdeleting
      cases hdeleting
  · rw [hdb] at ht'
    obtain rfl := TrackingTable.eq_of_id ht' ht (hid.trans htid.symm)
    rcases hrow with hempty | ⟨hstored₀, hdeleted⟩
    · rw [hstored] at hempty
      exact absurd hempty (h.stored t' ht id hstored).2.1
    · obtain rfl : id = d := Option.some.inj (hstored.symm.trans hstored₀)
      exact hdeleted

theorem Flights.keeps_brought (h : Flights s) (hs : s.step e = some s') {run' : TaskRun}
    (hrun' : run' ∈ s'.runs) {id : String} (hbrings : run'.Brings id) :
    id ≠ "" ∧ id ∉ s'.provider.deleted ∧
      (∀ t ∈ s'.db.trackings.rows, t.providerTrackingId ≠ some id) ∧
      ∃ x, Creates x run'.row ∧ (x, id) ∈ s'.provider.created := by
  rcases h.brings_cases hs hrun' hbrings with hold | ⟨hnew, hne, hdb, hdeleted, hx, -⟩
  · obtain ⟨hne, hnot, hrows, x, hx, hcreated⟩ := h.brought run' hold id hbrings
    refine ⟨hne, fun hid => ?_, fun t' ht' hstored => ?_, x, hx, System.created_step hs hcreated⟩
    · rcases h.deleted_cases hs hid with hold' | ⟨t, ht, hstored⟩
      · exact hnot hold'
      · exact hrows t ht hstored
    · rcases h.stored_cases hs ht' hstored with ⟨t, ht, -, hstored₀, -⟩ |
        ⟨t, ht, -, -, -, run₂, hrun₂, -, hbrings₂, hruns⟩
      · exact hrows t ht hstored₀
      · -- the run that stored it is this one, and it has settled
        obtain rfl := h.apart run₂ hrun₂ run' hold id hbrings₂ hbrings
        rw [hruns] at hrun'
        rcases mem_moveRun hrun' with ⟨next, hnext, heq⟩ | ⟨-, hne'⟩
        · obtain rfl := Option.some.inj hnext
          have hstage := hbrings.2
          rw [heq] at hstage
          cases hstage
        · exact hne' rfl
  · refine ⟨hne, fun hid => ?_, fun t ht hstored => ?_, hx⟩
    · rw [hdeleted] at hid
      exact hnew (h.deleted id hid)
    · rw [hdb] at ht
      exact hnew (h.stored t ht id hstored).2.2

/-- **Every step keeps the flights.** -/
theorem Flights.step (h : Flights s) (hdel : Deletions s) (hs : s.step e = some s') :
    Flights s' where
  stored := fun _ ht' _ hstored => h.keeps_stored hs ht' hstored
  deleted := by
    intro id hid
    rcases h.deleted_cases hs hid with hold | ⟨t, ht, hstored⟩
    · exact System.createdIds_step hs (h.deleted id hold)
    · exact System.createdIds_step hs (h.stored t ht id hstored).2.2
  called := by
    intro run' hrun' c hcalls
    rcases (System.step_runs hs hrun').calls hcalls with hold | ⟨-, run, hrun, hrow, hready | hfetch⟩
    · exact h.called run' hold c hcalls
    · rw [hrow]
      exact h.called run hrun c (.inl hready)
    · rw [hrow]
      rcases TaskRun.fetch_cases hfetch with (hstage | hstage) | ⟨c', hstage, htask, -⟩ |
        ⟨_, -, hstage, -⟩ <;> cases hstage
      exact htask
  removing := fun _ hrun' _ hcalls => h.keeps_removing hdel hs hrun' hcalls
  removed := fun _ hrun' _ hx _ hanswered _ ht' hid _ hstored =>
    h.keeps_removed hdel hs hrun' hx hanswered ht' hid hstored
  brought := fun _ hrun' _ hbrings => h.keeps_brought hs hrun' hbrings
  apart := by
    intro run₁ hrun₁ run₂ hrun₂ id hbrings₁ hbrings₂
    rcases h.brings_cases hs hrun₁ hbrings₁ with hold₁ | ⟨-, -, -, -, -, honly⟩
    · rcases h.brings_cases hs hrun₂ hbrings₂ with hold₂ | ⟨-, -, -, -, -, honly⟩
      · exact h.apart run₁ hold₁ run₂ hold₂ id hbrings₁ hbrings₂
      · exact honly run₁ hrun₁ hbrings₁
    · exact (honly run₂ hrun₂ hbrings₂).symm

end Provider

/-! ## §4. Accounted for, or lost. -/

/-- Every tracking created for the row is deleted, stored, or about to be
stored. -/
def Accounted (x : String) (s : System) : Prop :=
  ∀ c ∈ s.provider.created, c.1 = x →
    c.2 ∈ s.provider.deleted ∨
    (∃ t ∈ s.db.trackings.rows, t.id = x ∧ t.providerTrackingId = some c.2) ∨
    ∃ run ∈ s.runs, Creates x run.row ∧ run.Brings c.2

/-- A tracking was created for the row, and nobody knows its id. -/
def Lost (x : String) (s : System) : Prop :=
  ∃ id, (x, id) ∈ s.provider.created ∧ id ∉ s.provider.deleted ∧
    (∀ t ∈ s.db.trackings.rows, t.providerTrackingId ≠ some id) ∧
    ∀ run ∈ s.runs, ¬ run.Brings id

section Losing

variable {s s' : System} {db' : Database} {now : Timestamp} {e : Event} {x : String}

/-- Without tasks, what is accounted for is stored or deleted. -/
theorem Accounted.noLeak (h : Accounted x s) (hflights : Flights s) : NoLeak x s := by
  intro hquiet c hc hcx
  rcases h c hc hcx with hdeleted | ⟨t, ht, hid, hstored⟩ | ⟨run, hrun, hx, -⟩
  · exact .inr hdeleted
  · refine .inl ⟨t, ht, hid, ?_, hstored⟩
    rcases (hflights.stored t ht c.2 hstored).1 with hlive | hlive <;> rw [hlive] <;> decide
  · exact absurd (.inl hx) (hquiet.2 run hrun)

/-- A lost tracking is leaked. -/
theorem Lost.leaked (h : Lost x s) (hquiet : s.Quiet x) : ¬ NoLeak x s := by
  obtain ⟨id, hcreated, hdeleted, hrows, -⟩ := h
  intro hno
  rcases hno hquiet (x, id) hcreated rfl with ⟨t, ht, -, -, hstored⟩ | hdel
  · exact hrows t ht hstored
  · exact hdeleted hdel

/-- **What is lost stays lost.** -/
theorem Lost.step (h : Lost x s) (hflights : Flights s) (hs : s.step e = some s') :
    Lost x s' := by
  obtain ⟨id, hcreated, hdeleted, hrows, hruns⟩ := h
  refine ⟨id, System.created_step hs hcreated, fun hid => ?_, fun t' ht' hstored => ?_,
    fun run' hrun' hbrings => ?_⟩
  · rcases hflights.deleted_cases hs hid with hold | ⟨t, ht, hstored⟩
    · exact hdeleted hold
    · exact hrows t ht hstored
  · rcases hflights.stored_cases hs ht' hstored with ⟨t, ht, -, hstored₀, -⟩ |
      ⟨t, ht, -, -, -, run, hrun, -, hbrings, -⟩
    · exact hrows t ht hstored₀
    · exact hruns run hrun hbrings
  · rcases hflights.brings_cases hs hrun' hbrings with hold | ⟨hnew, -⟩
    · exact hruns run' hold hbrings
    · exact hnew (List.mem_map_of_mem hcreated)

theorem TaskRun.holds_iff {run : TaskRun} :
    run.holds x = true ↔ Creates x run.row ∧ ∃ id, run.Brings id := by
  unfold TaskRun.holds TaskRun.Brings
  cases hstage : run.stage with
  | answered id =>
      simp only [Bool.and_true, decide_eq_true_eq]
      exact ⟨fun hx => ⟨hx, id, hx.1, rfl⟩, fun hx => hx.1⟩
  | _ => simp

/-- A run that is not taken stays. -/
theorem mem_moveRun_of_ne {runs : List TaskRun} {run d : TaskRun} {stage : Option Stage}
    (hd : d ∈ runs) (hne : d ≠ run) : d ∈ moveRun runs run stage := by
  cases stage with
  | none => exact List.mem_filter.2 ⟨hd, by simpa using hne⟩
  | some next => exact mem_updateWhere.2 (.inr ⟨hd, by simpa using hne⟩)

/-- **Where a run that brings an id goes**: it stays, it stores the id in its
row, or the step is not held. -/
theorem brings_step (hs : s.step e = some s') {run : TaskRun} (hrun : run ∈ s.runs)
    (hx : Creates x run.row) {id : String} (hbrings : run.Brings id) (hheld : Held x s e) :
    run ∈ s'.runs ∨
      ∃ t ∈ s'.db.trackings.rows, t.id = x ∧ t.providerTrackingId = some id := by
  have hholds : run.holds x = true := TaskRun.holds_iff.2 ⟨hx, id, hbrings⟩
  cases e with
  | call worker slot now c =>
      simp only [System.step] at hs
      split at hs
      · cases hs
      · rename_i run₀ hfind
        split at hs
        · cases hs
        · rename_i db' provider' stage hcall
          cases hs
          by_cases hne : run = run₀
          · subst hne
            have hallows : s.Allows x c := hheld run hfind hholds
            cases TaskRun.call_cases hcall with
            | commit answer db' hanswered hcommit =>
                obtain rfl : answer = id := Stage.answered.inj (hanswered.symm.trans hbrings.2)
                -- The commit finds the row still `creating`, which is what the step was
                -- allowed under, and stores the id.
                obtain ⟨t, ht, hcreating⟩ : s.Creating x := hallows
                rcases TaskRun.commit_cases hcommit with ⟨y, trackings, hy, hactivate, rfl⟩ |
                  ⟨y, hy, -⟩ | ⟨y, refreshes, hy, -⟩
                · obtain rfl : x = y := Option.some.inj (hx.2.symm.trans hy.2)
                  refine .inr ⟨t.activated answer, ?_, (Tracking.isCreating_iff.1 hcreating).1, rfl⟩
                  show t.activated answer ∈ trackings.rows
                  rw [TrackingTable.activate_eq_some hactivate]
                  exact mem_updateWhere.2 (.inl ⟨t, ht, hcreating, rfl⟩)
                · exact absurd (hx.1.symm.trans hy.1) (by decide)
                · exact absurd (hx.1.symm.trans hy.1) (by decide)
            | heartbeat =>
                refine .inl (mem_updateWhere.2 (.inl ⟨run, hrun, by simp, rfl⟩))
            | _ => exact False.elim hallows
          · exact .inl (mem_moveRun_of_ne hrun hne)
  | vanish worker slot =>
      simp only [System.step] at hs
      split at hs
      · cases hs
      · rename_i run₀ hfind
        cases hs
        refine .inl (show run ∈ moveRun s.runs run₀ none from
          mem_moveRun_of_ne hrun fun heq => ?_)
        subst heq
        -- The run that vanishes is not one that holds an id, by `hheld`.
        have hnot : run.holds x = false := hheld run hfind
        rw [hholds] at hnot
        cases hnot
  | claim worker slot now locked pick =>
      simp only [System.step] at hs
      split at hs
      · cases hs
      · split at hs <;> cases hs
        exact .inl (List.mem_append_left _ hrun)
  | create | delete | reconcile =>
      obtain ⟨_, -, rfl⟩ := Option.map_eq_some_iff.1 hs
      exact .inl hrun
  | completed requestId unseen now =>
      simp only [System.step] at hs
      split at hs
      · cases hs
      · cases hs
        unfold System.complete
        split <;> exact .inl hrun
  | other new jobId now =>
      simp only [System.step] at hs
      split at hs
      · obtain ⟨db', -, rfl⟩ := Option.map_eq_some_iff.1 hs
        exact .inl hrun
      · cases hs
  | reclaim timeoutSeconds now locked =>
      simp only [System.step] at hs
      split at hs <;> cases hs
      exact .inl hrun
  | tracked | purgeJobs | purgeCompletions =>
      cases hs
      exact .inl hrun

/-- **A held step keeps the account.** -/
theorem Accounted.step (h : Accounted x s) (hflights : Flights s) (hheld : Held x s e)
    (hs : s.step e = some s') : Accounted x s' := by
  intro c hc hcx
  have hold : c ∈ s.provider.created →
      c.2 ∈ s'.provider.deleted ∨
      (∃ t ∈ s'.db.trackings.rows, t.id = x ∧ t.providerTrackingId = some c.2) ∨
      ∃ run ∈ s'.runs, Creates x run.row ∧ run.Brings c.2 := by
    intro hc
    rcases h c hc hcx with hdeleted | ⟨t, ht, rfl, hstored⟩ | ⟨run, hrun, hx, hbrings⟩
    · exact .inl (System.deleted_step hs hdeleted)
    · rcases hflights.stored_step hs ht hstored with ⟨t', ht', hid, hstored'⟩ |
        ⟨run, hrun, hx, ⟨d, hanswered⟩, -⟩
      · exact .inr (.inl ⟨t', ht', hid, hstored'⟩)
      · -- its deletion has answered, so it is deleted
        exact .inl (System.deleted_step hs
          (hflights.removed run hrun t.id hx d hanswered t ht rfl c.2 hstored))
    · rcases brings_step hs hrun hx hbrings hheld with hrun' | hstored
      · exact .inr (.inr ⟨run, hrun', hx, hbrings⟩)
      · exact .inr (.inl hstored)
  cases System.step_provider hs with
  | same hsame =>
      rw [hsame] at hc
      exact hold hc
  | accepted run hrun call answer stage hcalling haccept hdb hruns =>
      rcases TaskRun.accept_cases haccept with ⟨code, days, y, rfl, habout, -, -, rfl, hp⟩ |
        ⟨d, -, -, hp⟩ | ⟨code, -, -, hp⟩ <;> rw [hp] at hc
      · rcases List.mem_append.1 hc with hc | hnew
        · exact hold hc
        · obtain rfl := List.mem_singleton.1 hnew
          obtain rfl : y = x := hcx
          have htask : run.row.taskName = "create_judit_tracking" :=
            (hflights.called run hrun _ (.inr hcalling)).symm
          refine .inr (.inr ⟨{ run with stage := .answered answer }, ?_, ⟨htask, habout⟩,
            htask, rfl⟩)
          rw [hruns]
          exact mem_updateWhere.2 (.inl ⟨run, hrun, by simp, rfl⟩)
      · exact hold hc
      · exact hold hc

/-- The id of a run that ends without storing it is lost. -/
theorem lost_of_brings (hflights : Flights s) {run : TaskRun} (hrun : run ∈ s.runs)
    (hx : Creates x run.row) {id : String} (hbrings : run.Brings id)
    (hprovider : s'.provider = s.provider)
    (hrows : ∀ t' ∈ s'.db.trackings.rows, ∀ id', t'.providerTrackingId = some id' →
      ∃ t ∈ s.db.trackings.rows, t.providerTrackingId = some id') (stage : Option Stage)
    (hruns : s'.runs = moveRun s.runs run stage) (hstage : ∀ id, stage ≠ some (.answered id)) :
    Lost x s' := by
  obtain ⟨-, hdeleted, hnot, y, hy, hcreated⟩ := hflights.brought run hrun id hbrings
  obtain rfl : x = y := Option.some.inj (hx.2.symm.trans hy.2)
  refine ⟨id, by rw [hprovider]; exact hcreated, by rw [hprovider]; exact hdeleted,
    fun t' ht' hstored => ?_, fun run' hrun' hbrings' => ?_⟩
  · obtain ⟨t, ht, hstored₀⟩ := hrows t' ht' id hstored
    exact hnot t ht hstored₀
  · rw [hruns] at hrun'
    rcases mem_moveRun hrun' with ⟨next, hnext, rfl⟩ | ⟨hold, hne⟩
    · exact hstage id (by rw [hnext, ← hbrings'.2])
    · exact hne (hflights.apart run' hold run hrun id hbrings' hbrings)

/-- **A step that is not held loses a tracking.** -/
theorem lost_of_not_held (hflights : Flights s) (hnot : ¬ Held x s e)
    (hs : s.step e = some s') : Lost x s' := by
  cases e with
  | call worker slot now c =>
      simp only [Held, Classical.not_forall] at hnot
      obtain ⟨run, hfind, hholds, hallows⟩ := hnot
      obtain ⟨hx, id, hbrings⟩ := TaskRun.holds_iff.1 hholds
      have hrun := List.mem_of_find?_eq_some hfind
      simp only [System.step] at hs
      rw [hfind] at hs
      simp only at hs
      split at hs
      · cases hs
      · rename_i db' provider' stage hcall
        cases hs
        have hanswered := hbrings.2
        cases TaskRun.call_cases hcall with
        | fetch stage hclaimed => rw [hclaimed] at hanswered; cases hanswered
        | send c hready => rw [hready] at hanswered; cases hanswered
        | accepted c id provider' stage hcalling => rw [hcalling] at hanswered; cases hanswered
        -- The run ends with the id in its hand, and no row takes it.
        | rejected retrySafe db' hstage hreject =>
            refine lost_of_brings hflights hrun hx hbrings rfl (fun t' ht' id' hstored => ?_)
              (some .raised) rfl fun _ hne => by cases hne
            rcases TaskRun.reject_cases hreject with ⟨y, -, rfl⟩ | rfl | ⟨y, -, rfl⟩
            · rcases mem_updateWhere.1 ht' with ⟨t, ht, -, rfl⟩ | ⟨ht, -⟩
              · exact ⟨t, ht, hstored⟩
              · exact ⟨t', ht, hstored⟩
            · exact ⟨t', ht', hstored⟩
            · exact ⟨t', ht', hstored⟩
        | commit answer db' hanswered' hcommit =>
            refine lost_of_brings hflights hrun hx hbrings rfl (fun t' ht' id' hstored => ?_)
              (some .settled) rfl fun _ hne => by cases hne
            rcases TaskRun.commit_cases hcommit with ⟨y, trackings, hy, hactivate, rfl⟩ |
              ⟨y, hy, -⟩ | ⟨y, refreshes, hy, -⟩
            · -- no row is `creating`, so none is activated
              obtain rfl : x = y := Option.some.inj (hx.2.symm.trans hy.2)
              have ht'' : t' ∈ trackings.rows := ht'
              rw [TrackingTable.activate_eq_some hactivate] at ht''
              rcases mem_updateWhere.1 ht'' with ⟨t, ht, hcreating, rfl⟩ | ⟨ht, -⟩
              · exact absurd ⟨t, ht, hcreating⟩ hallows
              · exact ⟨t', ht, hstored⟩
            · exact absurd (hx.1.symm.trans hy.1) (by decide)
            · exact absurd (hx.1.symm.trans hy.1) (by decide)
        -- A heartbeat and a completion are allowed, or are no step of this run.
        | heartbeat => exact absurd trivial hallows
        | complete result hstage =>
            rcases hstage with hstage | hforeign
            · rw [hstage] at hanswered
              cases hanswered
            · rw [hx.1] at hforeign
              exact absurd (by decide) hforeign
        | fail failure =>
            exact lost_of_brings hflights hrun hx hbrings rfl
              (fun t' ht' _ hstored => ⟨t', ht', hstored⟩) none rfl fun _ hne => by cases hne
  | vanish worker slot =>
      simp only [Held, Classical.not_forall, Bool.not_eq_false] at hnot
      obtain ⟨run, hfind, hholds⟩ := hnot
      obtain ⟨hx, id, hbrings⟩ := TaskRun.holds_iff.1 hholds
      simp only [System.step] at hs
      rw [hfind] at hs
      cases hs
      exact lost_of_brings hflights (List.mem_of_find?_eq_some hfind) hx hbrings rfl
        (fun t' ht' _ hstored => ⟨t', ht', hstored⟩) none rfl fun _ hne => by cases hne
  | _ => exact absurd trivial hnot

end Losing

/-! ## §5. Every run. -/

theorem deletions_init : Deletions {} where
  single := fun _ hj => nomatch hj
  once := fun _ => Nat.zero_le _
  deleting := fun _ hpos => absurd hpos (Nat.lt_irrefl 0)

theorem flights_init : Flights {} where
  stored := fun _ ht => nomatch ht
  deleted := fun _ hid => nomatch hid
  called := fun _ hrun => nomatch hrun
  removing := fun _ hrun => nomatch hrun
  removed := fun _ hrun => nomatch hrun
  brought := fun _ hrun => nomatch hrun
  apart := fun _ hrun => nomatch hrun

/-- **No tracking of a row is leaked along a run of held steps**, and at a
quiet end of a run none is leaked only if all its steps were held. -/
theorem noLeak_iff (x : String) (es : List Event) :
    (Guarded System.step (Held x) {} es → Along System.step (NoLeak x) {} es) ∧
    ∀ s ∈ run System.step {} es, s.Quiet x →
      (NoLeak x s ↔ Guarded System.step (Held x) {} es) := by
  have hheld : ∀ s e s', (Deletions s ∧ Flights s ∧ Accounted x s) → Held x s e →
      s.step e = some s' → Deletions s' ∧ Flights s' ∧ Accounted x s' :=
    fun s e s' h hheld hs => ⟨h.1.step hs, h.2.1.step h.1 hs, h.2.2.step h.2.1 hheld hs⟩
  have hinit : Accounted x {} := fun _ hc => nomatch hc
  have halong : Guarded System.step (Held x) {} es → Along System.step (NoLeak x) {} es :=
    along_of_guarded _ ⟨deletions_init, flights_init, hinit⟩ hheld
      fun s h => h.2.2.noLeak h.2.1
  refine ⟨halong, fun s hrun hquiet => ⟨fun hno => ?_, fun hg => (halong hg).last hrun⟩⟩
  have hkept : ∀ s e s', (Deletions s ∧ Flights s) → s.step e = some s' →
      Deletions s' ∧ Flights s' := fun s e s' h hs => ⟨h.1.step hs, h.2.step h.1 hs⟩
  have hbreaks : ∀ s e s', (Deletions s ∧ Flights s) → ¬Held x s e → s.step e = some s' →
      Lost x s' := fun s e s' h hnot hs => lost_of_not_held h.2 hnot hs
  have hpersists : ∀ s e s', (Deletions s ∧ Flights s) → Lost x s → s.step e = some s' →
      Lost x s' := fun s e s' h hlost hs => hlost.step h.2 hs
  rcases guarded_or_broken hkept hbreaks hpersists ⟨deletions_init, flights_init⟩ hrun with
    hg | hlost
  · exact hg
  · exact absurd hno (hlost.leaked hquiet)

/-- The deletion runs while the provider's answer to the creation is on its
way. -/
def crossedRun : List Event :=
  [.create 1 "0000000-00.0000.0.00.0701" 1 "tracking" 10 0,
   .claim 9 0 0 [] 10, .call 9 0 0 .fetch, .call 9 0 0 .send,
   .delete 1 "tracking" 11 0] ++
    [.claim 9 1 0 [] 11, .call 9 1 0 .fetch, .call 9 1 0 .commit,
     .call 9 1 0 (.complete (.obj []))] ++
    [.call 9 0 0 (.accepted "provider-1"), .call 9 0 0 .commit,
     .call 9 0 0 (.complete (.obj []))]

/-- The row is deleted without an id, and the provider keeps the tracking. -/
theorem not_noLeak_crossedRun :
    ¬ ∀ (x : String) (s : System), Reachable System.step {} s → NoLeak x s := by
  intro h
  have hleak : ∃ s ∈ run System.step {} crossedRun, ¬ NoLeak "tracking" s := by decide +kernel
  obtain ⟨s, hs, hleak⟩ := hleak
  exact hleak (h "tracking" s (reachable_of_run hs))

end Rpy.Trackings

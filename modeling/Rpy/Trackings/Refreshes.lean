/-
  Rpy.Trackings.Refreshes
  ───────────────────────
  **WHEN A REFRESH IS STUCK.**

  An open refresh is closed by the answer of its job, or by the completion
  callback of the request id that the job recorded.  A refresh that has
  neither stays open, and its tracking gets no other.

    • `NeverStuck`      — every open refresh has one of the two,
    • `Kept`            — the steps that leave it so,
    • `Wired`           — what every step keeps: one job for a refresh, and
                          at most one run that still has to answer,
    • `neverStuck_iff`  — along a run no refresh is stuck exactly when
                          every step is one of `Kept`.
-/
import Rpy.Trackings.Transactions

namespace Rpy.Trackings

open Rpy.Foundation Rpy.Queue
open Rpy.Lifecycle (payloadText Names)

/-! ## §1. The property and the condition. -/

/-- The refresh has a pending or processing job. -/
def HasJob (t : JobTable) (refresh : String) : Prop :=
  ∃ j ∈ t.rows, Refreshes refresh j ∧ j.active = true

instance (t : JobTable) (refresh : String) : Decidable (HasJob t refresh) :=
  inferInstanceAs (Decidable (∃ j ∈ t.rows, _))

/-- The refresh has a request id whose completion callback is yet to be
recorded. -/
def System.Awaits (s : System) (r : Refresh) : Prop :=
  match r.juditRequestId with
  | none => False
  | some requestId => requestId ∉ s.announced

instance (s : System) (r : Refresh) : Decidable (s.Awaits r) := by
  unfold System.Awaits
  split <;> infer_instance

/-- **Every open refresh has a job that will run, or a completion callback
that will come.** -/
def NeverStuck (s : System) : Prop :=
  ∀ r ∈ s.db.refreshes.rows, r.isOpen = true → HasJob s.db.jobs r.id ∨ s.Awaits r

instance (s : System) : Decidable (NeverStuck s) :=
  inferInstanceAs (Decidable (∀ r ∈ s.db.refreshes.rows, _))

/-- Nothing but its job can close the refresh. -/
def System.Adrift (s : System) (r : Refresh) : Prop :=
  r.isOpen = true ∧ ¬ s.Awaits r

instance (s : System) (r : Refresh) : Decidable (s.Adrift r) :=
  inferInstanceAs (Decidable (_ ∧ _))

/-- The job the run of a slot would complete or fail. -/
def System.owns (s : System) (worker : Uuid) (slot : Nat) (j : Job) : Bool :=
  match s.runs.find? (TaskRun.isAt worker slot) with
  | none => false
  | some run => ownedBy run.row.id run.worker j

/-- The jobs an event would end: a refresh job has one attempt, so a failure
and a reclaim end it as a completion does. -/
def System.ends (s : System) : Event → Job → Bool
  | .call worker slot _ (.complete _), j => s.owns worker slot j
  | .call worker slot _ (.fail _), j => s.owns worker slot j
  | .reclaim timeoutSeconds now locked, j => stale timeoutSeconds now locked j
  | _, _ => false

/-- The completion callbacks an event would record, with what its trigger
would not see. -/
def System.misses (s : System) : Event → Refresh → Bool
  | .completed requestId unseen _, r =>
      !s.db.markers.contains requestId && r.juditRequestId == some requestId &&
        unseen.contains r.id
  | _, _ => false

/-- **The step ends no job of a refresh that nothing else can close, and its
trigger misses no open refresh without a job.** -/
structure Kept (s : System) (e : Event) : Prop where
  jobs : ∀ j ∈ s.db.jobs.rows, s.ends e j = true →
    ∀ r ∈ s.db.refreshes.rows, Refreshes r.id j → ¬ s.Adrift r
  callbacks : ∀ r ∈ s.db.refreshes.rows, s.misses e r = true → r.isOpen = true →
    HasJob s.db.jobs r.id

instance (s : System) (e : Event) : Decidable (Kept s e) :=
  decidable_of_iff
    ((∀ j ∈ s.db.jobs.rows, s.ends e j = true →
        ∀ r ∈ s.db.refreshes.rows, Refreshes r.id j → ¬ s.Adrift r) ∧
      ∀ r ∈ s.db.refreshes.rows, s.misses e r = true → r.isOpen = true →
        HasJob s.db.jobs r.id)
    ⟨fun h => ⟨h.1, h.2⟩, fun h => ⟨h.jobs, h.callbacks⟩⟩

/-! ## §2. What every step keeps. -/

/-- The refresh is open and has no request id. -/
def Unanswered (t : RefreshTable) (refresh : String) : Prop :=
  ∃ r ∈ t.rows, r.id = refresh ∧ r.isOpen = true ∧ r.juditRequestId = none

/-- What every step keeps. -/
structure Wired (s : System) : Prop where
  /-- a refresh job has the key of its refresh -/
  named : ∀ j ∈ s.db.jobs.rows, j.taskName = "refresh_judit_tracking" →
    ∃ x, Refreshes x j ∧ j.idempotencyKey = some (refreshKey x)
  /-- a refresh key is taken by refreshes that are there only -/
  keyed : ∀ j ∈ s.db.jobs.rows, ∀ x, j.idempotencyKey = some (refreshKey x) →
    ∃ r ∈ s.db.refreshes.rows, r.id = x
  single : SingleAttempt "refresh_judit_tracking" s.db.jobs
  once : ∀ x, s.live (Refreshes x) ≤ 1
  unanswered : ∀ x, 0 < s.live (Refreshes x) → Unanswered s.db.refreshes x

section Wiring

variable {s s' : System} {db' : Database} {now : Timestamp}

/-- A refresh has one job. -/
theorem Wired.eq_of_refreshes (h : Wired s) {x : String} {j k : Job} (hj : j ∈ s.db.jobs.rows)
    (hk : k ∈ s.db.jobs.rows) (hxj : Refreshes x j) (hxk : Refreshes x k) : j = k := by
  obtain ⟨y, hyj, hkeyj⟩ := h.named j hj hxj.1
  obtain ⟨z, hzk, hkeyk⟩ := h.named k hk hxk.1
  obtain rfl : x = y := Option.some.inj (hxj.2.symm.trans hyj.2)
  obtain rfl : x = z := Option.some.inj (hxk.2.symm.trans hzk.2)
  exact eq_of_nodup_filterMap s.db.jobs.keys_nodup hj hk hkeyj hkeyk

/-- A step that adds no refresh job, no claimable one and no refresh. -/
theorem Wired.mono (h : Wired s)
    (hids : ∀ r ∈ s.db.refreshes.rows, ∃ r' ∈ s'.db.refreshes.rows, r'.id = r.id)
    (horigin : ∀ j' ∈ s'.db.jobs.rows, (∃ j ∈ s.db.jobs.rows, j.SameJob j') ∨
      (j'.taskName ≠ "refresh_judit_tracking" ∧
        ∀ x, j'.idempotencyKey ≠ some (refreshKey x)))
    (hsingle : SingleAttempt "refresh_judit_tracking" s'.db.jobs)
    (hlive : ∀ x, s'.live (Refreshes x) ≤ s.live (Refreshes x))
    (hunanswered : ∀ x, 0 < s'.live (Refreshes x) → Unanswered s.db.refreshes x →
      Unanswered s'.db.refreshes x) : Wired s' where
  named := by
    intro j' hj' htask
    rcases horigin j' hj' with ⟨j, hj, hsame⟩ | ⟨hother, -⟩
    · obtain ⟨x, hx, hkey⟩ := h.named j hj (hsame.taskName ▸ htask)
      exact ⟨x, (fixed_names _ _ _ j j' hsame).2 hx, hsame.idempotencyKey ▸ hkey⟩
    · exact absurd htask hother
  keyed := by
    intro j' hj' x hkey
    rcases horigin j' hj' with ⟨j, hj, hsame⟩ | ⟨-, hother⟩
    · obtain ⟨r, hr, rfl⟩ := h.keyed j hj x (hsame.idempotencyKey ▸ hkey)
      exact hids r hr
    · exact absurd hkey (hother x)
  single := hsingle
  once := fun x => Nat.le_trans (hlive x) (h.once x)
  unanswered := fun x hpos =>
    hunanswered x hpos (h.unanswered x (Nat.lt_of_lt_of_le hpos (hlive x)))

/-- A step that leaves the refreshes, and keeps the jobs. -/
theorem Wired.of_keep (h : Wired s) (hrefreshes : s'.db.refreshes = s.db.refreshes)
    (hjobs : JobsKeep s.db.jobs s'.db.jobs)
    (hruns : ∀ x, liveRuns (Refreshes x) s'.runs ≤ liveRuns (Refreshes x) s.runs) : Wired s' := by
  refine h.mono (fun r hr => ⟨r, hrefreshes ▸ hr, rfl⟩) (fun j' hj' => .inl (hjobs.origin j' hj'))
    (hjobs.single _ h.single) (fun x => ?_) fun x _ hx => hrefreshes ▸ hx
  unfold System.live
  rw [hjobs.unclaimed _ (fixed_names _ _ _)]
  exact Nat.add_le_add_left (hruns x) _

/-- An insertion of a job that is no refresh's. -/
theorem Wired.insertNew (h : Wired s) {new : NewJob} {jobId : Uuid}
    (hrefreshes : s'.db.refreshes = s.db.refreshes)
    (hjobs : s'.db.jobs = (s.db.jobs.insertNew new jobId now).2) (hruns : s'.runs = s.runs)
    (htask : new.taskName ≠ "refresh_judit_tracking")
    (hkey : ∀ x, new.idempotencyKey ≠ some (refreshKey x)) : Wired s' := by
  refine h.mono (fun r hr => ⟨r, hrefreshes ▸ hr, rfl⟩) (fun j' hj' => ?_) ?_ (fun x => ?_)
    fun x _ hx => hrefreshes ▸ hx
  · rw [hjobs] at hj'
    rcases JobTable.mem_insertNew hj' with hold | rfl
    · exact .inl ⟨j', hold, .refl j'⟩
    · exact .inr ⟨htask, hkey⟩
  · rw [hjobs]
    exact h.single.insertNew fun heq => absurd heq htask
  · unfold System.live
    rw [hjobs, hruns, unclaimed_insertNew_eq fun hx => htask hx.1]

/-- **A new refresh gets a job**: its key is free. -/
theorem keyFree_of_new (h : Wired s) {x : String}
    (hnew : x ∉ s.db.refreshes.rows.map Refresh.id) :
    s.db.jobs.keyTaken (some (refreshKey x)) = false := by
  by_contra htaken
  obtain ⟨j, hj, hkey⟩ := JobTable.keyTaken_iff.1 (Bool.not_eq_false _ ▸ htaken)
  obtain ⟨r, hr, rfl⟩ := h.keyed j hj x hkey
  exact hnew (List.mem_map_of_mem hr)

/-- A turn of the scheduler's loop that adds a refresh. -/
theorem Wired.reconcile (h : Wired s) {t : Tracking} {x : String} {jobId : Uuid}
    {refreshes : RefreshTable} {trackings : TrackingTable}
    (hnew : x ∉ s.db.refreshes.rows.map Refresh.id)
    (hrows : refreshes.rows =
      s.db.refreshes.rows ++ [{ id := x, trackingId := t.id, createdAt := now }]) :
    Wired { s with db := { s.db with
      refreshes := refreshes
      trackings := trackings
      jobs := (s.db.jobs.insertNew (refreshJob x) jobId now).2 } } where
  -- The new job is the only one of the new refresh, and every other refresh keeps its own.
  named := by
    intro j hj htask
    rcases JobTable.mem_insertNew hj with hold | rfl
    · exact h.named j hold htask
    · exact ⟨x, ⟨rfl, rfl⟩, rfl⟩
  keyed := by
    intro j hj y hkey
    show ∃ r ∈ refreshes.rows, r.id = y
    rw [hrows]
    rcases JobTable.mem_insertNew hj with hold | rfl
    · obtain ⟨r, hr, hid⟩ := h.keyed j hold y hkey
      exact ⟨r, List.mem_append_left _ hr, hid⟩
    · obtain rfl := refreshKey_inj (Option.some.inj hkey)
      exact ⟨_, List.mem_append_right _ (List.mem_singleton_self _), rfl⟩
  single := h.single.insertNew fun _ => rfl
  once := by
    intro y
    have hadd : unclaimed (Refreshes y) (s.db.jobs.insertNew (refreshJob x) jobId now).2 ≤
        unclaimed (Refreshes y) s.db.jobs +
          if Refreshes y ((refreshJob x).row jobId now) then 1 else 0 :=
      unclaimed_insertNew
    have hlive := h.once y
    unfold System.live at hlive
    show unclaimed (Refreshes y) (s.db.jobs.insertNew (refreshJob x) jobId now).2 +
      liveRuns (Refreshes y) s.runs ≤ 1
    by_cases hy : Refreshes y ((refreshJob x).row jobId now)
    · -- the refresh is new, so nothing was live for it
      obtain rfl : x = y := Option.some.inj hy.2
      have hnone : ¬ 0 < s.live (Refreshes x) := fun hpos => by
        obtain ⟨r, hr, rfl, -⟩ := h.unanswered x hpos
        exact hnew (List.mem_map_of_mem hr)
      unfold System.live at hnone
      rw [if_pos hy] at hadd
      omega
    · rw [if_neg hy] at hadd
      omega
  unanswered := by
    intro y hpos
    show ∃ r ∈ refreshes.rows, _
    rw [hrows]
    by_cases hy : x = y
    · subst hy
      exact ⟨_, List.mem_append_right _ (List.mem_singleton_self _), rfl, rfl, rfl⟩
    · have hnot : ¬ Refreshes y ((refreshJob x).row jobId now) := fun hy' =>
        hy (Option.some.inj hy'.2)
      have hpos' : 0 < s.live (Refreshes y) := by
        have hpos' : 0 < unclaimed (Refreshes y)
            (s.db.jobs.insertNew (refreshJob x) jobId now).2 + liveRuns (Refreshes y) s.runs := hpos
        rwa [unclaimed_insertNew_eq hnot] at hpos'
      obtain ⟨r, hr, hrest⟩ := h.unanswered y hpos'
      exact ⟨r, List.mem_append_left _ hr, hrest⟩

/-- **A live run that answers** rewrites the row of its refresh only. -/
theorem Wired.answer (h : Wired s) {run : TaskRun} {x : String} (hrun : run ∈ s.runs)
    (hx : Refreshes x run.row) (hlive : run.stage.isLive = true) {stage : Stage}
    (hstage : stage.isLive = false) {p : Refresh → Bool} {f : Refresh → Refresh}
    {refreshes : RefreshTable} (hrows : refreshes.rows = updateWhere p f s.db.refreshes.rows)
    (hid : ∀ r, (f r).id = r.id) (hp : ∀ r, p r = true → r.id = x) :
    Wired { s with
      db := { s.db with refreshes := refreshes }
      runs := moveRun s.runs run (some stage) } := by
  refine h.mono (fun r hr => ?_) (fun j hj => .inl ⟨j, hj, .refl j⟩) h.single (fun y => ?_)
    fun y hpos hy => ?_
  · show ∃ r' ∈ refreshes.rows, _
    rw [hrows]
    refine ⟨_, updateWhere_mem_of_mem hr, ?_⟩
    split
    · exact hid r
    · rfl
  · exact Nat.add_le_add_left (liveRuns_moveRun_le (q := Refreshes y) fun next hnext hl => by
      obtain rfl := Option.some.inj hnext
      rw [hstage] at hl
      cases hl) _
  · -- the refresh of the run has nothing live any more
    have hne : y ≠ x := fun heq => by
      subst heq
      have hzero : unclaimed (Refreshes y) s.db.jobs +
          liveRuns (Refreshes y) (moveRun s.runs run (some stage)) = 0 :=
        live_moveRun_eq_zero (h.once y) hrun hx hlive fun next hnext => by
          cases hnext
          exact hstage
      have hpos' : 0 < unclaimed (Refreshes y) s.db.jobs +
        liveRuns (Refreshes y) (moveRun s.runs run (some stage)) := hpos
      omega
    obtain ⟨r, hr, rfl, hopen⟩ := hy
    refine ⟨r, ?_, rfl, hopen⟩
    show r ∈ refreshes.rows
    rw [hrows]
    refine mem_updateWhere.2 (.inr ⟨hr, ?_⟩)
    cases hsel : p r with
    | false => rfl
    | true => exact absurd (hp r hsel) hne

/-- **Every step of a task keeps the wiring.** -/
theorem Wired.call (h : Wired s) {run : TaskRun} (hrun : run ∈ s.runs) {c : TaskCall}
    {provider' : Provider} {stage : Option Stage}
    (hcall : run.call s.db s.provider now c = some (db', provider', stage)) :
    Wired { s with db := db', provider := provider', runs := moveRun s.runs run stage } := by
  have hstays : ∀ {db₁ : Database} {provider₁ : Provider} {stage₁ : Option Stage},
      db₁.refreshes = s.db.refreshes → JobsKeep s.db.jobs db₁.jobs →
      (∀ next, stage₁ = some next → next.isLive = true → run.stage.isLive = true) →
      Wired { s with db := db₁, provider := provider₁, runs := moveRun s.runs run stage₁ } :=
    fun hrefreshes hjobs hstage =>
      h.of_keep hrefreshes hjobs fun x => liveRuns_moveRun_le hstage
  cases TaskRun.call_cases hcall with
  | fetch stage hclaimed => exact hstays rfl (.refl _) fun _ _ _ => by rw [hclaimed]; rfl
  | send c hready => exact hstays rfl (.refl _) fun _ _ _ => by rw [hready]; rfl
  | accepted c id provider' stage hcalling =>
      exact hstays rfl (.refl _) fun _ _ _ => by rw [hcalling]; rfl
  | rejected retrySafe db' hstage hreject =>
      have hlive : run.stage.isLive = true := by
        rcases hstage with ⟨c, hstage⟩ | ⟨id, hstage, -⟩ <;> rw [hstage] <;> rfl
      rcases TaskRun.reject_cases hreject with ⟨x, -, rfl⟩ | rfl | ⟨x, hx, rfl⟩
      · exact hstays rfl (.refl _) fun _ _ _ => hlive
      · exact hstays rfl (.refl _) fun _ _ _ => hlive
      · exact h.answer hrun hx hlive rfl rfl (fun _ => rfl) fun r hr =>
          (Refresh.isUnrecorded_iff.1 hr).1
  | commit id db' hanswered hcommit =>
      have hlive : run.stage.isLive = true := by rw [hanswered]; rfl
      rcases TaskRun.commit_cases hcommit with ⟨x, trackings, -, -, rfl⟩ | ⟨x, -, rfl⟩ |
        ⟨x, refreshes, hx, hrecord, rfl⟩
      · exact hstays rfl (.refl _) fun _ _ _ => hlive
      · exact hstays rfl (.refl _) fun _ _ _ => hlive
      · exact h.answer hrun hx hlive rfl (RefreshTable.record_eq_some hrecord) (fun _ => rfl)
          fun r hr => (Refresh.isUnrecorded_iff.1 hr).1
  | heartbeat => exact hstays rfl .heartbeat fun next hnext hl => by cases hnext; exact hl
  | complete result => exact hstays rfl .complete fun _ hnext => nomatch hnext
  | fail failure => exact hstays rfl .fail fun _ hnext => nomatch hnext

/-- **A claim keeps the wiring**: what was live in the job is in its run. -/
theorem Wired.claim (h : Wired s) {worker pick : Uuid} {slot : Nat} {locked : List Uuid}
    {row : Job} {jobs : JobTable}
    (hclaim : Queue.claim s.db.jobs worker now locked pick = some (row, jobs)) :
    Wired { s with
      db := { s.db with jobs := jobs }
      runs := s.runs ++ [{ worker := worker, slot := slot, row := row }] } := by
  refine h.mono (fun r hr => ⟨r, hr, rfl⟩) (fun j' hj' => .inl ?_) (h.single.claim hclaim)
    (fun x => ?_) fun _ _ hx => hx
  · obtain ⟨j, hj, -, -, -, hrows⟩ := claim_eq_some hclaim
    have hj'' : j' ∈ jobs.rows := hj'
    rw [hrows] at hj''
    rcases mem_updateWhere.1 hj'' with ⟨k, hk, -, rfl⟩ | ⟨hk, -⟩
    · exact ⟨k, hk, ⟨rfl, rfl, rfl, rfl, rfl⟩⟩
    · exact ⟨j', hk, .refl j'⟩
  · exact live_claim hclaim h.single (fixed_names _ _ x) fun _ hx => hx.1

/-- **Every step keeps the wiring.** -/
theorem Wired.step {e : Event} (h : Wired s) (hs : s.step e = some s') : Wired s' := by
  cases e with
  | create tenantId code recurrenceDays rowId jobId now =>
      obtain ⟨⟨result, db'⟩, hcreate, rfl⟩ := Option.map_eq_some_iff.1 hs
      -- A creation job refreshes nothing and has another key.
      have hnew : ∀ (trackings : TrackingTable) (tracking : String) (attempt : Nat),
          Wired { s with db := { s.db with
            trackings := trackings
            jobs := (s.db.jobs.insertNew (createJob tracking attempt) jobId now).2 } } :=
        fun trackings tracking attempt => h.insertNew rfl rfl rfl (by simp [createJob])
          fun x hkey => refreshKey_ne (.inl rfl) x _ _ (Option.some.inj hkey).symm
      rcases createTracking_cases hcreate with rfl | ⟨t, -, hdays, -, -, -, rfl⟩ |
        ⟨trackings, hdays, -, rfl⟩
      · exact h
      · exact hnew _ _ _
      · exact hnew _ _ _
  | delete tenantId trackingId jobId now =>
      obtain ⟨⟨found, db'⟩, hdelete, rfl⟩ := Option.map_eq_some_iff.1 hs
      rcases deleteTracking_cases hdelete with rfl | ⟨t, -, -, -, -, rfl⟩
      · exact h
      · exact h.insertNew rfl rfl rfl (by simp [deleteJob])
          fun x hkey => refreshKey_ne (.inr rfl) x _ _ (Option.some.inj hkey).symm
  | reconcile staleAfter limit locked ids now =>
      obtain ⟨⟨n, db'⟩, hreconcile, rfl⟩ := Option.map_eq_some_iff.1 hs
      refine enqueueDue_induction (P := fun db => Wired { s with db := db }) hreconcile h ?_
      intro db₁ db₂ t refreshId jobId created hwired hturn
      rcases reconcileOne_cases hturn with rfl | ⟨refreshes, hnew, -, hrows, rfl⟩
      · exact hwired
      · exact hwired.reconcile hnew hrows
  | tracked providerId now =>
      cases hs
      exact h.of_keep rfl (.refl _) fun _ => Nat.le_refl _
  | completed requestId unseen now =>
      simp only [System.step] at hs
      split at hs
      · cases hs
      · cases hs
        unfold System.complete
        split
        · exact h
        · refine h.mono (fun r hr => ?_) (fun j hj => .inl ⟨j, hj, .refl j⟩) h.single
            (fun _ => Nat.le_refl _) fun x _ hx => ?_
          · refine ⟨_, updateWhere_mem_of_mem hr, ?_⟩
            split <;> rfl
          · -- the trigger leaves a refresh without a request id alone
            obtain ⟨r, hr, hid, hopen, hnone⟩ := hx
            exact ⟨r, mem_updateWhere.2 (.inr ⟨hr, by simp [hnone]⟩), hid, hopen, hnone⟩
  | other new jobId now =>
      simp only [System.step] at hs
      split at hs
      · rename_i hforeign
        obtain ⟨db', henqueue, rfl⟩ := Option.map_eq_some_iff.1 hs
        obtain ⟨-, rfl⟩ := Database.enqueue_eq_some henqueue
        obtain ⟨htask, hkey⟩ := isForeign_eq_true hforeign
        refine h.insertNew rfl rfl rfl (fun heq => htask ?_) hkey
        rw [heq]
        decide
      · cases hs
  | claim worker slot now locked pick =>
      simp only [System.step] at hs
      split at hs
      · cases hs
      · split at hs
        · cases hs
        · rename_i row jobs hclaim
          cases hs
          exact h.claim hclaim
  | call worker slot now c =>
      simp only [System.step] at hs
      split at hs
      · cases hs
      · rename_i run hfind
        split at hs
        · cases hs
        · rename_i db' provider' stage hcall
          cases hs
          exact h.call (List.mem_of_find?_eq_some hfind) hcall
  | reclaim timeoutSeconds now locked =>
      simp only [System.step] at hs
      split at hs
      · cases hs
      · rename_i rows jobs hreclaim
        cases hs
        exact h.of_keep rfl (.reclaim hreclaim) fun _ => Nat.le_refl _
  | vanish worker slot =>
      simp only [System.step] at hs
      split at hs
      · cases hs
      · cases hs
        exact h.of_keep rfl (.refl _) fun x => List.filter_sublist.countP_le
  | purgeJobs before =>
      cases hs
      have hsub : (purgeTerminalJobs s.db.jobs before).rows.Sublist s.db.jobs.rows :=
        List.filter_sublist
      refine h.mono (fun r hr => ⟨r, hr, rfl⟩)
        (fun j hj => .inl ⟨j, hsub.subset hj, .refl j⟩)
        (fun j hj => h.single j (hsub.subset hj)) (fun x => ?_) fun _ _ hx => hx
      exact Nat.add_le_add_right hsub.countP_le _
  | purgeCompletions doomed =>
      cases hs
      exact h.of_keep rfl (.refl _) fun _ => Nat.le_refl _

theorem wired_init : Wired {} where
  named := fun _ hj => nomatch hj
  keyed := fun _ hj => nomatch hj
  single := fun _ hj => nomatch hj
  once := fun _ => Nat.zero_le _
  unanswered := fun _ hpos => absurd hpos (Nat.lt_irrefl 0)

end Wiring

/-! ## §3. Steps that strand nothing. -/

section Stranding

variable {s s' : System} {db' : Database} {now : Timestamp}

/-- A step that leaves the refreshes and the callbacks: what is adrift must
keep its job. -/
theorem NeverStuck.of_jobs (h : NeverStuck s) (hrefreshes : s'.db.refreshes = s.db.refreshes)
    (hannounced : s'.announced = s.announced)
    (hjobs : ∀ r ∈ s.db.refreshes.rows, s.Adrift r → HasJob s.db.jobs r.id →
      HasJob s'.db.jobs r.id) : NeverStuck s' := by
  intro r hr hopen
  rw [hrefreshes] at hr
  have hawaits : s'.Awaits r ↔ s.Awaits r := by
    unfold System.Awaits
    rw [hannounced]
  rw [hawaits]
  by_cases hwaits : s.Awaits r
  · exact .inr hwaits
  · rcases h r hr hopen with hjob | hwaits'
    · exact .inl (hjobs r hr ⟨hopen, hwaits⟩ hjob)
    · exact absurd hwaits' hwaits

/-- A job survives as an active one. -/
theorem HasJob.of_successor {t t' : JobTable} {x : String} (h : HasJob t x)
    (hkept : ∀ j ∈ t.rows, Refreshes x j → j.active = true →
      ∃ j' ∈ t'.rows, j.SameJob j' ∧ j'.active = true) : HasJob t' x := by
  obtain ⟨j, hj, hx, hactive⟩ := h
  obtain ⟨j', hj', hsame, hactive'⟩ := hkept j hj hx hactive
  exact ⟨j', hj', (fixed_names _ _ _ j j' hsame).2 hx, hactive'⟩

/-- An insertion takes no job away. -/
theorem HasJob.insertNew {t : JobTable} {x : String} {new : NewJob} {jobId : Uuid}
    (h : HasJob t x) : HasJob (t.insertNew new jobId now).2 x :=
  h.of_successor fun j hj _ hactive =>
    ⟨j, JobTable.mem_insertNew_of_mem hj, .refl j, hactive⟩

/-- A turn of the scheduler's loop that adds a refresh, and its job. -/
theorem NeverStuck.reconcile (h : NeverStuck s) (hwired : Wired s) {t : Tracking} {x : String}
    {jobId : Uuid} {refreshes : RefreshTable} {trackings : TrackingTable}
    (hnew : x ∉ s.db.refreshes.rows.map Refresh.id) (hjobId : jobId ∉ s.db.jobs.rows.map Job.id)
    (hrows : refreshes.rows =
      s.db.refreshes.rows ++ [{ id := x, trackingId := t.id, createdAt := now }]) :
    NeverStuck { s with db := { s.db with
      refreshes := refreshes
      trackings := trackings
      jobs := (s.db.jobs.insertNew (refreshJob x) jobId now).2 } } := by
  intro r hr hopen
  have hr' : r ∈ refreshes.rows := hr
  rw [hrows] at hr'
  rcases List.mem_append.1 hr' with hold | hsingle
  · rcases h r hold hopen with hjob | hwaits
    · exact .inl hjob.insertNew
    · exact .inr hwaits
  · obtain rfl := List.mem_singleton.1 hsingle
    refine .inl ⟨(refreshJob x).row jobId now, ?_, ⟨rfl, rfl⟩, rfl⟩
    exact JobTable.row_mem_insertNew (keyFree_of_new hwired hnew) hjobId

/-- **A completion callback** closes what waits for it, unless its trigger
misses it. -/
theorem NeverStuck.completed (h : NeverStuck s) {requestId : String} {unseen : List String}
    (hmarker : requestId ∉ s.db.markers)
    (hmissed : ∀ r ∈ s.db.refreshes.rows, r.juditRequestId = some requestId →
      unseen.contains r.id = true → r.isOpen = true → HasJob s.db.jobs r.id) :
    NeverStuck (s.complete requestId unseen now) := by
  unfold System.complete
  rw [if_neg hmarker]
  intro r hr hopen
  rcases mem_updateWhere.1 hr with ⟨r₀, -, -, rfl⟩ | ⟨hr₀, hnot⟩
  · cases hopen
  · rcases h r hr₀ hopen with hjob | hwaits
    · exact .inl hjob
    · by_cases hid : r.juditRequestId = some requestId
      · -- it is open, so the trigger left it only because it did not see it
        refine .inl (hmissed r hr₀ hid ?_ hopen)
        simpa [hid, hopen] using hnot
      · refine .inr ?_
        unfold System.Awaits at hwaits ⊢
        cases hrequest : r.juditRequestId with
        | none =>
            rw [hrequest] at hwaits
            exact hwaits
        | some other =>
            simp only [hrequest] at hwaits ⊢
            intro hmem
            rcases List.mem_append.1 hmem with hold | hsingle
            · exact hwaits hold
            · rw [hrequest, List.mem_singleton.1 hsingle] at hid
              exact hid rfl

/-- **A step of a task strands nothing**, if it ends no job of what is
adrift. -/
theorem NeverStuck.call (h : NeverStuck s) (hwired : Wired s) {run : TaskRun}
    (hrun : run ∈ s.runs) {c : TaskCall} {provider' : Provider} {stage : Option Stage}
    (hcall : run.call s.db s.provider now c = some (db', provider', stage))
    (hends : (∃ result, c = .complete result) ∨ (∃ failure, c = .fail failure) →
      ∀ j ∈ s.db.jobs.rows, ownedBy run.row.id run.worker j = true →
        ∀ r ∈ s.db.refreshes.rows, Refreshes r.id j → ¬ s.Adrift r) :
    NeverStuck { s with db := db', provider := provider', runs := moveRun s.runs run stage } := by
  -- A step that writes neither table.
  have hstays : ∀ {db₁ : Database} {provider₁ : Provider} {runs₁ : List TaskRun},
      db₁.refreshes = s.db.refreshes → db₁.jobs = s.db.jobs →
      NeverStuck { s with db := db₁, provider := provider₁, runs := runs₁ } :=
    fun hrefreshes hjobs => h.of_jobs hrefreshes rfl fun r _ _ hjob => hjobs ▸ hjob
  cases TaskRun.call_cases hcall with
  | fetch => exact hstays rfl rfl
  | send => exact hstays rfl rfl
  | accepted => exact hstays rfl rfl
  | rejected retrySafe db' hstage hreject =>
      rcases TaskRun.reject_cases hreject with ⟨x, -, rfl⟩ | rfl | ⟨x, hx, rfl⟩
      · exact hstays rfl rfl
      · exact hstays rfl rfl
      · -- the rejected refresh is closed
        intro r hr hopen
        rcases mem_updateWhere.1 hr with ⟨r₀, -, -, rfl⟩ | ⟨hr₀, -⟩
        · cases retrySafe <;> cases hopen
        · exact h r hr₀ hopen
  | commit id db' hanswered hcommit =>
      rcases TaskRun.commit_cases hcommit with ⟨x, trackings, -, -, rfl⟩ | ⟨x, -, rfl⟩ |
        ⟨x, refreshes, hx, hrecord, rfl⟩
      · exact hstays rfl rfl
      · exact hstays rfl rfl
      · intro r hr hopen
        have hr' : r ∈ refreshes.rows := hr
        rw [RefreshTable.record_eq_some hrecord] at hr'
        rcases mem_updateWhere.1 hr' with ⟨r₀, hr₀, hsel, rfl⟩ | ⟨hr₀, -⟩
        · -- before its answer, the refresh was open and had its job
          obtain ⟨hid, hnone⟩ := Refresh.isUnrecorded_iff.1 hsel
          have hpos : 0 < s.live (Refreshes x) := by
            refine Nat.lt_of_lt_of_le ?_ (Nat.le_add_left _ _)
            refine List.countP_pos_iff.2 ⟨run, hrun, ?_⟩
            simp [hx, hanswered, Stage.isLive]
          obtain ⟨r₁, hr₁, hid₁, hopen₁, -⟩ := hwired.unanswered x hpos
          obtain rfl := RefreshTable.eq_of_id hr₁ hr₀ (hid₁.trans hid.symm)
          rcases h r₁ hr₁ hopen₁ with hjob | hwaits
          · exact .inl hjob
          · unfold System.Awaits at hwaits
            rw [hnone] at hwaits
            exact False.elim hwaits
        · exact h r hr₀ hopen
  | heartbeat =>
      refine h.of_jobs rfl rfl fun r _ _ hjob => hjob.of_successor fun j hj _ hactive => ?_
      obtain ⟨j', hj', hsurvives⟩ := heartbeat_survives hj hactive
      exact ⟨j', hj', hsurvives.same, hsurvives.active⟩
  | complete result =>
      refine h.of_jobs rfl rfl fun r hr hadrift hjob =>
        hjob.of_successor fun j hj hx hactive => ⟨j, complete_survives hj ?_, .refl j, hactive⟩
      -- The job that ends was the run's own, and `hends` says that nothing was adrift on it.
      cases hown : ownedBy run.row.id run.worker j with
      | false => rfl
      | true => exact absurd hadrift (hends (.inl ⟨result, rfl⟩) j hj hown r hr hx)
  | fail failure =>
      refine h.of_jobs rfl rfl fun r hr hadrift hjob =>
        hjob.of_successor fun j hj hx hactive => ⟨j, ?_, .refl j, hactive⟩
      refine mem_updateWhere.2 (.inr ⟨hj, ?_⟩)
      cases hown : ownedBy run.row.id run.worker j with
      | false => rfl
      | true => exact absurd hadrift (hends (.inr ⟨failure, rfl⟩) j hj hown r hr hx)

/-- **A kept step strands no refresh.** -/
theorem NeverStuck.step {e : Event} (h : NeverStuck s) (hwired : Wired s) (hkept : Kept s e)
    (hs : s.step e = some s') : NeverStuck s' := by
  cases e with
  | create tenantId code recurrenceDays rowId jobId now =>
      obtain ⟨⟨result, db'⟩, hcreate, rfl⟩ := Option.map_eq_some_iff.1 hs
      rcases createTracking_cases hcreate with rfl | ⟨t, -, hdays, -, -, -, rfl⟩ |
        ⟨trackings, hdays, -, rfl⟩
      · exact h
      · exact h.of_jobs rfl rfl fun _ _ _ hjob => hjob.insertNew
      · exact h.of_jobs rfl rfl fun _ _ _ hjob => hjob.insertNew
  | delete tenantId trackingId jobId now =>
      obtain ⟨⟨found, db'⟩, hdelete, rfl⟩ := Option.map_eq_some_iff.1 hs
      rcases deleteTracking_cases hdelete with rfl | ⟨t, -, -, -, -, rfl⟩
      · exact h
      · exact h.of_jobs rfl rfl fun _ _ _ hjob => hjob.insertNew
  | reconcile staleAfter limit locked ids now =>
      obtain ⟨⟨n, db'⟩, hreconcile, rfl⟩ := Option.map_eq_some_iff.1 hs
      refine (enqueueDue_induction
        (P := fun db => Wired { s with db := db } ∧ NeverStuck { s with db := db }) hreconcile
        ⟨hwired, h⟩ ?_).2
      intro db₁ db₂ t refreshId jobId created ⟨hwired₁, h₁⟩ hturn
      rcases reconcileOne_cases hturn with rfl | ⟨refreshes, hnew, hjobId, hrows, rfl⟩
      · exact ⟨hwired₁, h₁⟩
      · exact ⟨hwired₁.reconcile hnew hrows, h₁.reconcile hwired₁ hnew hjobId hrows⟩
  | tracked providerId now =>
      cases hs
      exact h.of_jobs rfl rfl fun _ _ _ hjob => hjob
  | completed requestId unseen now =>
      simp only [System.step] at hs
      split at hs
      · cases hs
      · cases hs
        by_cases hmarker : requestId ∈ s.db.markers
        · unfold System.complete
          rw [if_pos hmarker]
          exact h
        · refine h.completed hmarker fun r hr hid hunseen hopen => hkept.callbacks r hr ?_ hopen
          simpa [System.misses, hmarker, hid] using hunseen
  | other new jobId now =>
      simp only [System.step] at hs
      split at hs
      · obtain ⟨db', henqueue, rfl⟩ := Option.map_eq_some_iff.1 hs
        obtain ⟨-, rfl⟩ := Database.enqueue_eq_some henqueue
        exact h.of_jobs rfl rfl fun _ _ _ hjob => hjob.insertNew
      · cases hs
  | claim worker slot now locked pick =>
      simp only [System.step] at hs
      split at hs
      · cases hs
      · split at hs
        · cases hs
        · rename_i row jobs hclaim
          cases hs
          refine h.of_jobs rfl rfl fun _ _ _ hjob => hjob.of_successor fun j hj _ hactive => ?_
          obtain ⟨j', hj', hsame, hactive', -⟩ := claim_survives hclaim hj hactive
          exact ⟨j', hj', hsame, hactive'⟩
  | call worker slot now c =>
      simp only [System.step] at hs
      split at hs
      · cases hs
      · rename_i run hfind
        split at hs
        · cases hs
        · rename_i db' provider' stage hcall
          cases hs
          refine h.call hwired (List.mem_of_find?_eq_some hfind) hcall fun hc j hj hown =>
            hkept.jobs j hj ?_
          rcases hc with ⟨result, rfl⟩ | ⟨failure, rfl⟩ <;>
            simpa only [System.ends, System.owns, hfind] using hown
  | reclaim timeoutSeconds now locked =>
      simp only [System.step] at hs
      split at hs
      · cases hs
      · rename_i rows jobs hreclaim
        cases hs
        refine h.of_jobs rfl rfl fun r hr hadrift hjob =>
          hjob.of_successor fun j hj hx hactive => ⟨j, ?_, .refl j, hactive⟩
        rw [(reclaimStale_eq_ok hreclaim).2]
        refine mem_updateWhere.2 (.inr ⟨hj, ?_⟩)
        cases hstale : stale timeoutSeconds now locked j with
        | false => rfl
        | true => exact absurd hadrift (hkept.jobs j hj hstale r hr hx)
  | vanish worker slot =>
      simp only [System.step] at hs
      split at hs
      · cases hs
      · cases hs
        exact h.of_jobs rfl rfl fun _ _ _ hjob => hjob
  | purgeJobs before =>
      cases hs
      -- a job that is still active is not purged
      exact h.of_jobs rfl rfl fun _ _ _ hjob => hjob.of_successor fun j hj _ hactive =>
        ⟨j, List.mem_filter.2 ⟨hj, by simp [hactive]⟩, .refl j, hactive⟩
  | purgeCompletions doomed =>
      cases hs
      exact h.of_jobs rfl rfl fun _ _ _ hjob => hjob

/-! ## §4. Steps that strand a refresh. -/

/-- **A refresh that is adrift is stuck once its job has ended.** -/
theorem not_neverStuck_of_ended (hwired : Wired s) {r : Refresh}
    (hr : r ∈ s.db.refreshes.rows) (hadrift : s.Adrift r) {j : Job} (hj : j ∈ s.db.jobs.rows)
    (hx : Refreshes r.id j) (hrefreshes : s'.db.refreshes = s.db.refreshes)
    (hannounced : s'.announced = s.announced) {p : Job → Bool} {f : Job → Job}
    (hrows : s'.db.jobs.rows = updateWhere p f s.db.jobs.rows) (hsel : p j = true)
    (hsame : ∀ k : Job, k.SameJob (f k)) (hended : (f j).active = false) : ¬ NeverStuck s' := by
  intro h
  rcases h r (hrefreshes ▸ hr) hadrift.1 with ⟨j', hj', hx', hactive⟩ | hwaits
  · rw [hrows] at hj'
    rcases mem_updateWhere.1 hj' with ⟨k, hk, -, rfl⟩ | ⟨hk, hnot⟩
    · have hxk := (fixed_names _ _ _ k (f k) (hsame k)).1 hx'
      obtain rfl := hwired.eq_of_refreshes hk hj hxk hx
      rw [hended] at hactive
      cases hactive
    · obtain rfl := hwired.eq_of_refreshes hk hj hx' hx
      rw [hsel] at hnot
      cases hnot
  · refine hadrift.2 ?_
    unfold System.Awaits at hwaits ⊢
    rwa [hannounced] at hwaits

/-- A refresh job that is under way has used up its attempt. -/
theorem Wired.exhausted (hwired : Wired s) {x : String} {j : Job} (hj : j ∈ s.db.jobs.rows)
    (hx : Refreshes x j) (hstatus : j.status = .processing) :
    (j.attempts : Int) ≥ j.maxAttempts := by
  obtain ⟨hmax, hpending⟩ := hwired.single j hj hx.1
  have hclaimed : j.attempts ≠ 0 := fun hzero => by
    have hstatus' := hpending.2 hzero
    rw [hstatus] at hstatus'
    cases hstatus'
  omega

/-- **Any other step strands one.** -/
theorem not_neverStuck_of_not_kept {e : Event} (hwired : Wired s) (hnot : ¬ Kept s e)
    (hs : s.step e = some s') : ¬ NeverStuck s' := by
  by_cases hjobs : ∀ j ∈ s.db.jobs.rows, s.ends e j = true →
      ∀ r ∈ s.db.refreshes.rows, Refreshes r.id j → ¬ s.Adrift r
  · -- a trigger misses an open refresh without a job
    have hmissed : ¬ ∀ r ∈ s.db.refreshes.rows, s.misses e r = true → r.isOpen = true →
        HasJob s.db.jobs r.id := fun h => hnot ⟨hjobs, h⟩
    simp only [Classical.not_forall] at hmissed
    obtain ⟨r, hr, hmiss, hopen, hnojob⟩ := hmissed
    cases e with
    | completed requestId unseen now =>
        simp only [System.misses, Bool.and_eq_true, Bool.not_eq_true', beq_iff_eq] at hmiss
        obtain ⟨⟨hmarker, hid⟩, hunseen⟩ := hmiss
        have hmarker' : requestId ∉ s.db.markers := by simpa using hmarker
        simp only [System.step] at hs
        split at hs
        · cases hs
        · cases hs
          unfold System.complete
          rw [if_neg hmarker']
          intro h
          -- The refresh is not among those the trigger closes, and stays open.
          have hr' : r ∈ (s.db.refreshes.complete requestId unseen now).rows := by
            refine mem_updateWhere.2 (.inr ⟨hr, ?_⟩)
            rw [hunseen]
            simp
          rcases h r hr' hopen with hjob | hwaits
          · exact hnojob hjob
          · unfold System.Awaits at hwaits
            rw [hid] at hwaits
            exact hwaits (List.mem_append_right _ (List.mem_singleton_self _))
    | _ => cases hmiss
  · -- the job of a refresh that is adrift ends
    simp only [Classical.not_forall, Classical.not_not] at hjobs
    obtain ⟨j, hj, hends, r, hr, hx, hadrift⟩ := hjobs
    cases e with
    | call worker slot now c =>
        simp only [System.step] at hs
        split at hs
        · cases hs
        · rename_i run hfind
          split at hs
          · cases hs
          · rename_i db' provider' stage hcall
            cases hs
            cases TaskRun.call_cases hcall with
            | complete result =>
                simp only [System.ends, System.owns, hfind] at hends
                exact not_neverStuck_of_ended hwired hr hadrift hj hx rfl rfl rfl hends
                  (fun _ => ⟨rfl, rfl, rfl, rfl, rfl⟩) rfl
            | fail failure =>
                simp only [System.ends, System.owns, hfind] at hends
                -- A refresh job has one attempt, so a failure ends it.
                have hexhausted := hwired.exhausted hj hx (processing_of_ownedBy j hends)
                refine not_neverStuck_of_ended hwired hr hadrift hj hx rfl rfl rfl hends
                  (fun _ => ⟨rfl, rfl, rfl, rfl, rfl⟩) ?_
                simp [Failure.assignment, Job.failed, Job.active, hexhausted]
            | _ => cases hends
    | reclaim timeoutSeconds now locked =>
        simp only [System.step] at hs
        split at hs
        · cases hs
        · rename_i rows jobs hreclaim
          cases hs
          have hstatus : j.status = .processing := by
            have hstale : stale timeoutSeconds now locked j = true := hends
            simp only [stale, Bool.and_eq_true, beq_iff_eq] at hstale
            exact hstale.1.1
          have hexhausted := hwired.exhausted hj hx hstatus
          refine not_neverStuck_of_ended hwired hr hadrift hj hx rfl rfl
            (reclaimStale_eq_ok hreclaim).2 hends (fun _ => ⟨rfl, rfl, rfl, rfl, rfl⟩) ?_
          simp [Job.reclaimed, Job.active, hexhausted]
    | _ => cases hends

end Stranding

/-! ## §5. Every run. -/

/-- **No refresh is stuck along a run exactly when no step ends the job of a
refresh that nothing else can close**, and no trigger misses an open refresh
without a job. -/
theorem neverStuck_iff (es : List Event) :
    Along System.step NeverStuck {} es ↔ Guarded System.step Kept {} es := by
  refine along_iff_guarded (fun s => Wired s ∧ NeverStuck s) ⟨wired_init, fun _ hr => nomatch hr⟩
    ?_ (fun _ h => h.2) (fun _ _ _ h hnot hs => not_neverStuck_of_not_kept h.1 hnot hs) es
  intro s e s' h hkept hs
  exact ⟨h.1.step hs, h.2.step h.1 hkept hs⟩

/-- `PermanentTaskError`, as `_run_job` records it. -/
def notFound (now : Timestamp) : Failure where
  attempts := 1
  error := "Judit tracking refresh not found"
  permanent := true
  clock := now
  stamp := ""

/-- Two days later the tracking is due; it is deleted before the job of its
refresh is claimed, and the job finds no active tracking. -/
def deletedRun : List Event :=
  let later : Timestamp := 172800 * microsPerSecond
  track "tracking" "provider-1" 10 ++
    [.reconcile (86400 * microsPerSecond) 25 [] [("refresh", 11)] later,
     .delete 1 "tracking" 12 later,
     .claim 9 0 later [12] 11, .call 9 0 later .fetch,
     .call 9 0 later (.fail (notFound later))]

/-- Its refresh is pending, and nothing will ever close it. -/
theorem not_neverStuck_deletedRun :
    ¬ ∀ s, Reachable System.step {} s → NeverStuck s := by
  intro h
  have hstuck : ∃ s ∈ run System.step {} deletedRun, ¬ NeverStuck s := by decide +kernel
  obtain ⟨s, hs, hstuck⟩ := hstuck
  exact hstuck (h s (reachable_of_run hs))

end Rpy.Trackings

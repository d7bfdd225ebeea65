/-
  Rpy.Trackings.Evolution
  ───────────────────────
  **HOW TRACKINGS, RUNS AND THE PROVIDER EVOLVE.**

  One step of the machine, seen from a row of `judit_trackings` and from a
  coroutine: what the row or the coroutine was before, and what made it
  what it is.  The invariants about trackings follow from these alone.

    • `Tracking.Evolves`  — a row and its successor,
    • `TaskRun.Comes`     — where a coroutine comes from,
    • `System.step_rows`, `System.step_runs`, `System.step_provider`.
-/
import Rpy.Trackings.Transactions

namespace Rpy.Trackings

open Rpy.Foundation Rpy.Queue
open Rpy.Lifecycle (payloadText Names)

/-! ## §1. Rows. -/

/-- A row and its successor after a step from `s` to `s'`. -/
inductive Tracking.Evolves (s s' : System) (t t' : Tracking) : Prop where
  | same (hstatus : t'.status = t.status)
      (hprovider : t'.providerTrackingId = t.providerTrackingId)
  /-- `create_tracking` starts a dead row again -/
  | recreated (hdead : t.status = .failed ∨ t.status = .deleted) (hstatus : t'.status = .creating)
      (hprovider : t'.providerTrackingId = none)
  /-- `delete_tracking` -/
  | deleting (hlive : t.status ≠ .deleted ∧ t.status ≠ .deleting)
      (hstatus : t'.status = .deleting)
      (hprovider : t'.providerTrackingId = t.providerTrackingId)
  /-- the creation task, after a `JuditRequestError` -/
  | refused (hcreating : t.status = .creating) (hstatus : t'.status = .failed)
      (hprovider : t'.providerTrackingId = t.providerTrackingId)
  /-- the creation task, after the provider's answer -/
  | activated (run : TaskRun) (hrun : run ∈ s.runs) (hx : Creates t.id run.row) (id : String)
      (hanswered : run.stage = .answered id) (hruns : s'.runs = moveRun s.runs run (some .settled))
      (hcreating : t.status = .creating) (hstatus : t'.status = .active)
      (hprovider : t'.providerTrackingId = some id)
  /-- the deletion task, after the provider's answer -/
  | dropped (run : TaskRun) (hrun : run ∈ s.runs) (hx : Deletes t.id run.row) (id : String)
      (hanswered : run.stage = .answered id) (hruns : s'.runs = moveRun s.runs run (some .settled))
      (hjobs : s'.db.jobs = s.db.jobs) (hstatus : t'.status = .deleted)
      (hprovider : t'.providerTrackingId = none)

section Rows

variable {s s' : System} {db' : Database} {now : Timestamp}

/-- What a step does to the rows: each has its successor, or one is new. -/
def Rewrites (s s' : System) : Prop :=
  (∃ g : Tracking → Tracking, s'.db.trackings.rows = s.db.trackings.rows.map g ∧
    ∀ t ∈ s.db.trackings.rows, (g t).id = t.id ∧ Tracking.Evolves s s' t (g t)) ∨
  ∃ t', s'.db.trackings.rows = s.db.trackings.rows ++ [t'] ∧ t'.status = .creating ∧
    t'.providerTrackingId = none ∧ ∀ t ∈ s.db.trackings.rows, t.id ≠ t'.id

theorem Rewrites.same (h : s'.db.trackings = s.db.trackings) : Rewrites s s' :=
  .inl ⟨id, by rw [h, List.map_id], fun _ _ => ⟨rfl, .same rfl rfl⟩⟩

theorem Rewrites.update {p : Tracking → Bool} {f : Tracking → Tracking}
    (hrows : s'.db.trackings.rows = updateWhere p f s.db.trackings.rows)
    (hid : ∀ t, (f t).id = t.id)
    (hf : ∀ t ∈ s.db.trackings.rows, p t = true → Tracking.Evolves s s' t (f t)) :
    Rewrites s s' := by
  refine .inl ⟨fun t => if p t then f t else t, hrows, fun t ht => ?_⟩
  show (if p t then f t else t).id = t.id ∧ Tracking.Evolves s s' t (if p t then f t else t)
  by_cases hp : p t = true
  · rw [if_pos hp]
    exact ⟨hid t, hf t ht hp⟩
  · rw [if_neg hp]
    exact ⟨rfl, .same rfl rfl⟩

/-- The rows after a step of a task. -/
theorem TaskRun.call_rows {run : TaskRun} (hrun : run ∈ s.runs) {c : TaskCall}
    {provider' : Provider} {stage : Option Stage}
    (hcall : run.call s.db s.provider now c = some (db', provider', stage)) :
    Rewrites s { s with db := db', provider := provider', runs := moveRun s.runs run stage } := by
  cases TaskRun.call_cases hcall with
  | rejected retrySafe db' hstage hreject =>
      rcases TaskRun.reject_cases hreject with ⟨x, -, rfl⟩ | rfl | ⟨x, -, rfl⟩
      · exact .update rfl (fun _ => rfl) fun t _ hp =>
          .refused (Tracking.isCreating_iff.1 hp).2 rfl rfl
      · exact .same rfl
      · exact .same rfl
  | commit id db' hanswered hcommit =>
      rcases TaskRun.commit_cases hcommit with ⟨x, trackings, hx, hactivate, rfl⟩ |
        ⟨x, hx, rfl⟩ | ⟨x, refreshes, -, -, rfl⟩
      · refine .update (TrackingTable.activate_eq_some hactivate) (fun _ => rfl)
          fun t _ hp => ?_
        obtain ⟨rfl, hcreating⟩ := Tracking.isCreating_iff.1 hp
        exact .activated run hrun hx id hanswered rfl hcreating rfl rfl
      · refine .update rfl (fun _ => rfl) fun t _ hp => ?_
        obtain rfl : t.id = x := by simpa [Tracking.isRow] using hp
        exact .dropped run hrun hx id hanswered rfl rfl rfl rfl
      · exact .same rfl
  | _ => exact .same rfl

/-- **What a step does to the rows.** -/
theorem System.step_rewrites {e : Event} (hs : s.step e = some s') :
    Rewrites s s' := by
  cases e with
  | create tenantId code recurrenceDays rowId jobId now =>
      obtain ⟨⟨result, db'⟩, hcreate, rfl⟩ := Option.map_eq_some_iff.1 hs
      rcases createTracking_cases hcreate with rfl | ⟨t, ht, hdays, -, -, hdead, rfl⟩ |
        ⟨trackings, hdays, hinsert, rfl⟩
      · exact .same rfl
      · refine .update rfl (fun _ => rfl) fun u hu hp => ?_
        obtain rfl : u = t := TrackingTable.eq_of_id hu ht (by simpa [Tracking.isRow] using hp)
        exact .recreated hdead rfl rfl
      · obtain ⟨hrows, hid⟩ := TrackingTable.insert_eq_some hinsert
        exact .inr ⟨_, hrows, rfl, rfl, fun t ht heq => hid (List.mem_map.2 ⟨t, ht, heq⟩)⟩
  | delete tenantId trackingId jobId now =>
      obtain ⟨⟨found, db'⟩, hdelete, rfl⟩ := Option.map_eq_some_iff.1 hs
      rcases deleteTracking_cases hdelete with rfl | ⟨t, ht, hid, hdeleted, hdeleting, rfl⟩
      · exact .same rfl
      · refine .update rfl (fun _ => rfl) fun u hu hp => ?_
        have hu' : u.id = trackingId := by simpa [Tracking.isRow] using hp
        obtain rfl : u = t := TrackingTable.eq_of_id hu ht (hu'.trans hid.symm)
        exact .deleting ⟨hdeleted, hdeleting⟩ rfl rfl
  | reconcile staleAfter limit locked ids now =>
      obtain ⟨⟨n, db'⟩, hreconcile, rfl⟩ := Option.map_eq_some_iff.1 hs
      -- each turn of the loop leaves the states of all rows
      obtain ⟨g, hg, hsame⟩ : ∃ g : Tracking → Tracking,
          db'.trackings.rows = s.db.trackings.rows.map g ∧ ∀ t, (g t).id = t.id ∧
            (g t).status = t.status ∧ (g t).providerTrackingId = t.providerTrackingId := by
        refine enqueueDue_induction (P := fun db => ∃ g : Tracking → Tracking,
          db.trackings.rows = s.db.trackings.rows.map g ∧ ∀ t, (g t).id = t.id ∧
            (g t).status = t.status ∧ (g t).providerTrackingId = t.providerTrackingId)
          hreconcile ⟨id, (List.map_id _).symm, fun _ => ⟨rfl, rfl, rfl⟩⟩ ?_
        rintro db₁ db₂ u refreshId jobId created ⟨g, hg, hsame⟩ hturn
        rcases reconcileOne_cases hturn with rfl | ⟨refreshes, -, -, -, rfl⟩
        · exact ⟨g, hg, hsame⟩
        · refine ⟨fun t => if Tracking.isRow u.id (g t) then (g t).reconciled now else g t,
            ?_, fun t => ?_⟩
          · show updateWhere _ _ db₁.trackings.rows = _
            rw [hg, updateWhere, List.map_map]
            rfl
          · by_cases hrow : Tracking.isRow u.id (g t) = true
            · simp only [if_pos hrow]
              exact hsame t
            · simp only [if_neg hrow]
              exact hsame t
      exact .inl ⟨g, hg, fun t _ => ⟨(hsame t).1, .same (hsame t).2.1 (hsame t).2.2⟩⟩
  | tracked providerId now =>
      cases hs
      exact .update rfl (fun _ => rfl) fun _ _ _ => .same rfl rfl
  | completed requestId unseen now =>
      simp only [System.step] at hs
      split at hs
      · cases hs
      · cases hs
        unfold System.complete
        split <;> exact .same rfl
  | other new jobId now =>
      simp only [System.step] at hs
      split at hs
      · obtain ⟨db', henqueue, rfl⟩ := Option.map_eq_some_iff.1 hs
        obtain ⟨-, rfl⟩ := Database.enqueue_eq_some henqueue
        exact .same rfl
      · cases hs
  | claim worker slot now locked pick =>
      simp only [System.step] at hs
      split at hs
      · cases hs
      · split at hs <;> cases hs
        exact .same rfl
  | call worker slot now c =>
      simp only [System.step] at hs
      split at hs
      · cases hs
      · rename_i run hfind
        split at hs
        · cases hs
        · rename_i db' provider' stage hcall
          cases hs
          exact TaskRun.call_rows (List.mem_of_find?_eq_some hfind) hcall
  | reclaim timeoutSeconds now locked =>
      simp only [System.step] at hs
      split at hs <;> cases hs
      exact .same rfl
  | vanish worker slot =>
      simp only [System.step] at hs
      split at hs <;> cases hs
      exact .same rfl
  | purgeJobs before =>
      cases hs
      exact .same rfl
  | purgeCompletions doomed =>
      cases hs
      exact .same rfl

/-- **Every row after a step is new, or the successor of a row.** -/
theorem System.step_rows {e : Event} (hs : s.step e = some s') {t' : Tracking}
    (ht' : t' ∈ s'.db.trackings.rows) :
    (t'.status = .creating ∧ t'.providerTrackingId = none ∧
      ∀ t ∈ s.db.trackings.rows, t.id ≠ t'.id) ∨
    ∃ t ∈ s.db.trackings.rows, t'.id = t.id ∧ Tracking.Evolves s s' t t' := by
  rcases System.step_rewrites hs with ⟨g, hrows, hg⟩ | ⟨new, hrows, hstatus, hprovider, hid⟩
  · rw [hrows] at ht'
    obtain ⟨t, ht, rfl⟩ := List.mem_map.1 ht'
    exact .inr ⟨t, ht, hg t ht⟩
  · rw [hrows] at ht'
    rcases List.mem_append.1 ht' with hold | hsingle
    · exact .inr ⟨t', hold, rfl, .same rfl rfl⟩
    · obtain rfl := List.mem_singleton.1 hsingle
      exact .inl ⟨hstatus, hprovider, hid⟩

/-- **Every row has a successor.** -/
theorem System.step_survives {e : Event} (hs : s.step e = some s') {t : Tracking}
    (ht : t ∈ s.db.trackings.rows) :
    ∃ t' ∈ s'.db.trackings.rows, t'.id = t.id ∧ Tracking.Evolves s s' t t' := by
  rcases System.step_rewrites hs with ⟨g, hrows, hg⟩ | ⟨new, hrows, -⟩
  · exact ⟨g t, hrows ▸ List.mem_map_of_mem ht, hg t ht⟩
  · refine ⟨t, ?_, rfl, .same rfl rfl⟩
    rw [hrows]
    exact List.mem_append_left _ ht

end Rows

/-! ## §2. Runs. -/

/-- Where a coroutine comes from. -/
inductive TaskRun.Comes (s s' : System) (run' : TaskRun) : Prop where
  | old (h : run' ∈ s.runs)
  | claimed (h : run'.stage = .claimed)
  | ended (h : run'.stage = .raised ∨ run'.stage = .settled)
  | fetched (run : TaskRun) (hrun : run ∈ s.runs) (hrow : run'.row = run.row)
      (hfetch : run.fetch s.db = some run'.stage) (hdb : s'.db = s.db)
  | sent (run : TaskRun) (hrun : run ∈ s.runs) (hrow : run'.row = run.row) (c : ProviderCall)
      (hready : run.stage = .ready c) (hcalling : run'.stage = .calling c) (hdb : s'.db = s.db)
  | accepted (run : TaskRun) (hrun : run ∈ s.runs) (hrow : run'.row = run.row) (c : ProviderCall)
      (id : String) (hcalling : run.stage = .calling c)
      (haccept : run.accept s.provider c id = some (s'.provider, run'.stage))
      (hdb : s'.db = s.db) (hruns : s'.runs = moveRun s.runs run (some run'.stage))
      (hmoved : run' = { run with stage := run'.stage })

/-- What becomes of the provider: nothing, or a call is carried out. -/
inductive Provider.Evolves (s s' : System) : Prop where
  | same (h : s'.provider = s.provider)
  | accepted (run : TaskRun) (hrun : run ∈ s.runs) (c : ProviderCall) (id : String)
      (stage : Stage) (hcalling : run.stage = .calling c)
      (haccept : run.accept s.provider c id = some (s'.provider, stage)) (hdb : s'.db = s.db)
      (hruns : s'.runs = moveRun s.runs run (some stage))

section Runs

variable {s s' : System} {db' : Database} {now : Timestamp}

/-- The runs after a step of a task. -/
theorem TaskRun.call_runs {run : TaskRun} (hrun : run ∈ s.runs) {c : TaskCall}
    {provider' : Provider} {stage : Option Stage}
    (hcall : run.call s.db s.provider now c = some (db', provider', stage)) {run' : TaskRun}
    (hrun' : run' ∈ moveRun s.runs run stage) :
    TaskRun.Comes s { s with
      db := db'
      provider := provider'
      runs := moveRun s.runs run stage } run' := by
  rcases mem_moveRun hrun' with ⟨next, hnext, rfl⟩ | ⟨hold, -⟩
  · cases TaskRun.call_cases hcall with
    | fetch stage hclaimed hfetch =>
        cases hnext
        exact .fetched run hrun rfl hfetch rfl
    | send c hready =>
        cases hnext
        exact .sent run hrun rfl c hready rfl rfl
    | accepted c id provider' stage hcalling haccept =>
        cases hnext
        exact .accepted run hrun rfl c id hcalling haccept rfl rfl rfl
    | rejected retrySafe db' hstage hreject =>
        cases hnext
        exact .ended (.inl rfl)
    | commit id db' hanswered hcommit =>
        cases hnext
        exact .ended (.inr rfl)
    | heartbeat =>
        cases hnext
        exact .old hrun
    | complete => cases hnext
    | fail => cases hnext
  · exact .old hold

/-- **Where a coroutine comes from.** -/
theorem System.step_runs {e : Event} (hs : s.step e = some s') {run' : TaskRun}
    (hrun' : run' ∈ s'.runs) : TaskRun.Comes s s' run' := by
  cases e with
  | claim worker slot now locked pick =>
      simp only [System.step] at hs
      split at hs
      · cases hs
      · split at hs <;> cases hs
        rcases List.mem_append.1 hrun' with hold | hnew
        · exact .old hold
        · obtain rfl := List.mem_singleton.1 hnew
          exact .claimed rfl
  | call worker slot now c =>
      simp only [System.step] at hs
      split at hs
      · cases hs
      · rename_i run hfind
        split at hs
        · cases hs
        · rename_i db' provider' stage hcall
          cases hs
          exact TaskRun.call_runs (List.mem_of_find?_eq_some hfind) hcall hrun'
  | vanish worker slot =>
      simp only [System.step] at hs
      split at hs <;> cases hs
      exact .old (List.mem_filter.1 hrun').1
  -- Transactions of the API and of the scheduler touch no run.
  | create | delete | reconcile =>
      obtain ⟨_, -, rfl⟩ := Option.map_eq_some_iff.1 hs
      exact .old hrun'
  | completed requestId unseen now =>
      simp only [System.step] at hs
      split at hs
      · cases hs
      · cases hs
        unfold System.complete at hrun'
        split at hrun' <;> exact .old hrun'
  | other new jobId now =>
      simp only [System.step] at hs
      split at hs
      · obtain ⟨db', -, rfl⟩ := Option.map_eq_some_iff.1 hs
        exact .old hrun'
      · cases hs
  | reclaim timeoutSeconds now locked =>
      simp only [System.step] at hs
      split at hs <;> cases hs
      exact .old hrun'
  | tracked | purgeJobs | purgeCompletions =>
      cases hs
      exact .old hrun'

/-- **What becomes of the provider.** -/
theorem System.step_provider {e : Event} (hs : s.step e = some s') : Provider.Evolves s s' := by
  cases e with
  | call worker slot now c =>
      simp only [System.step] at hs
      split at hs
      · cases hs
      · rename_i run hfind
        split at hs
        · cases hs
        · rename_i db' provider' stage hcall
          cases hs
          cases TaskRun.call_cases hcall with
          -- The provider changes where it accepts a call, and nowhere else.
          | accepted c id provider' stage hcalling haccept =>
              exact .accepted run (List.mem_of_find?_eq_some hfind) c id stage hcalling haccept
                rfl rfl
          | _ => exact .same rfl
  | create | delete | reconcile =>
      obtain ⟨_, -, rfl⟩ := Option.map_eq_some_iff.1 hs
      exact .same rfl
  | completed requestId unseen now =>
      simp only [System.step] at hs
      split at hs
      · cases hs
      · cases hs
        unfold System.complete
        split <;> exact .same rfl
  | other new jobId now =>
      simp only [System.step] at hs
      split at hs
      · obtain ⟨db', -, rfl⟩ := Option.map_eq_some_iff.1 hs
        exact .same rfl
      · cases hs
  | claim | reclaim | vanish =>
      simp only [System.step] at hs
      repeat' split at hs
      all_goals cases hs
      exact .same rfl
  | tracked | purgeJobs | purgeCompletions =>
      cases hs
      exact .same rfl

end Runs

end Rpy.Trackings

/-
  Rpy.Trackings.Persistence
  ─────────────────────────
  **TRACKINGS AND REFRESHES STAY, WITH WHAT THEY ARE KNOWN BY.**

  No statement deletes a row of `judit_trackings` or of
  `judit_tracking_refreshes`; a tracking keeps its tenant and its lawsuit, a
  refresh its tracking and the request id it was given.

    • `Database.Persists`     — what every row keeps,
    • `System.step_persists`  — every step keeps it,
    • `Assigned`              — a stored provider id is one that the provider
                                created for that row.
-/
import Rpy.Trackings.Leaks

namespace Rpy.Trackings

open Rpy.Foundation Rpy.Queue

/-! ## §1. Rows that stay. -/

/-- Every row has its successor. -/
structure Database.Persists (db db' : Database) : Prop where
  trackings : ∀ t ∈ db.trackings.rows, ∃ t' ∈ db'.trackings.rows,
    t'.id = t.id ∧ t'.tenantId = t.tenantId ∧ t'.processCode = t.processCode
  refreshes : ∀ r ∈ db.refreshes.rows, ∃ r' ∈ db'.refreshes.rows,
    r'.trackingId = r.trackingId ∧
      ∀ requestId, r.juditRequestId = some requestId → r'.juditRequestId = some requestId

section Persists

variable {db db' db'' : Database}

theorem Database.Persists.refl (db : Database) : db.Persists db :=
  ⟨fun t ht => ⟨t, ht, rfl, rfl, rfl⟩, fun r hr => ⟨r, hr, rfl, fun _ h => h⟩⟩

theorem Database.Persists.trans (h : db.Persists db') (h' : db'.Persists db'') :
    db.Persists db'' where
  trackings := by
    intro t ht
    obtain ⟨t', ht', hid, htenant, hcode⟩ := h.trackings t ht
    obtain ⟨t'', ht'', hid', htenant', hcode'⟩ := h'.trackings t' ht'
    exact ⟨t'', ht'', hid'.trans hid, htenant'.trans htenant, hcode'.trans hcode⟩
  refreshes := by
    intro r hr
    obtain ⟨r', hr', htracking, hrequest⟩ := h.refreshes r hr
    obtain ⟨r'', hr'', htracking', hrequest'⟩ := h'.refreshes r' hr'
    exact ⟨r'', hr'', htracking'.trans htracking, fun q hq => hrequest' q (hrequest q hq)⟩

theorem Database.Persists.of_same (htrackings : db'.trackings = db.trackings)
    (hrefreshes : db'.refreshes = db.refreshes) : db.Persists db' := by
  have h := Database.Persists.refl db
  exact ⟨by rw [htrackings]; exact h.trackings, by rw [hrefreshes]; exact h.refreshes⟩

/-- An `UPDATE` of the trackings keeps their rows. -/
theorem persists_updateWhere {p : Tracking → Bool} {f : Tracking → Tracking}
    (hrows : db'.trackings.rows = updateWhere p f db.trackings.rows)
    (hf : ∀ t, (f t).id = t.id ∧ (f t).tenantId = t.tenantId ∧
      (f t).processCode = t.processCode) :
    ∀ t ∈ db.trackings.rows, ∃ t' ∈ db'.trackings.rows,
      t'.id = t.id ∧ t'.tenantId = t.tenantId ∧ t'.processCode = t.processCode := by
  intro t ht
  rw [hrows]
  refine ⟨_, updateWhere_mem_of_mem ht, ?_⟩
  split
  · exact hf t
  · exact ⟨rfl, rfl, rfl⟩

/-- An `UPDATE` of the refreshes keeps their rows. -/
theorem persists_updateWhere_refreshes {p : Refresh → Bool} {f : Refresh → Refresh}
    (hrows : db'.refreshes.rows = updateWhere p f db.refreshes.rows)
    (hf : ∀ r, p r = true → (f r).trackingId = r.trackingId ∧
      ∀ q, r.juditRequestId = some q → (f r).juditRequestId = some q) :
    ∀ r ∈ db.refreshes.rows, ∃ r' ∈ db'.refreshes.rows, r'.trackingId = r.trackingId ∧
      ∀ q, r.juditRequestId = some q → r'.juditRequestId = some q := by
  intro r hr
  rw [hrows]
  refine ⟨_, updateWhere_mem_of_mem hr, ?_⟩
  split
  · rename_i hp
    exact hf r hp
  · exact ⟨rfl, fun _ h => h⟩

/-- A step of a task keeps the rows. -/
theorem TaskRun.call_persists {run : TaskRun} {provider provider' : Provider} {now : Timestamp}
    {c : TaskCall} {stage : Option Stage}
    (h : run.call db provider now c = some (db', provider', stage)) : db.Persists db' := by
  cases TaskRun.call_cases h with
  | rejected retrySafe db' hstage hreject =>
      rcases TaskRun.reject_cases hreject with ⟨x, -, rfl⟩ | rfl | ⟨x, -, rfl⟩
      · exact ⟨persists_updateWhere rfl fun _ => ⟨rfl, rfl, rfl⟩, (Database.Persists.refl db).2⟩
      · exact .refl _
      · exact ⟨(Database.Persists.refl db).1,
          persists_updateWhere_refreshes rfl fun _ _ => ⟨rfl, fun _ hq => hq⟩⟩
  | commit id db' hanswered hcommit =>
      rcases TaskRun.commit_cases hcommit with ⟨x, trackings, hx, hactivate, rfl⟩ |
        ⟨x, hx, rfl⟩ | ⟨x, refreshes, -, hrecord, rfl⟩
      · exact ⟨persists_updateWhere (TrackingTable.activate_eq_some hactivate)
          fun _ => ⟨rfl, rfl, rfl⟩, (Database.Persists.refl db).2⟩
      · exact ⟨persists_updateWhere rfl fun _ => ⟨rfl, rfl, rfl⟩, (Database.Persists.refl db).2⟩
      · refine ⟨(Database.Persists.refl db).1, persists_updateWhere_refreshes
          (RefreshTable.record_eq_some hrecord) fun r hp => ?_⟩
        -- the row recorded had no request id
        refine ⟨rfl, fun q hq => ?_⟩
        rw [(Refresh.isUnrecorded_iff.1 hp).2] at hq
        cases hq
  | _ => exact .of_same rfl rfl

end Persists

section Step

variable {s s' : System} {e : Event}

/-- **Every step keeps the rows.** -/
theorem System.step_persists (hs : s.step e = some s') : s.db.Persists s'.db := by
  have hrefl := Database.Persists.refl s.db
  cases e with
  | create tenantId code recurrenceDays rowId jobId now =>
      obtain ⟨⟨result, db'⟩, hcreate, rfl⟩ := Option.map_eq_some_iff.1 hs
      rcases createTracking_cases hcreate with rfl | ⟨t, -, hdays, -, -, -, rfl⟩ |
        ⟨trackings, hdays, hinsert, rfl⟩
      · exact hrefl
      · exact ⟨persists_updateWhere rfl fun _ => ⟨rfl, rfl, rfl⟩, hrefl.2⟩
      -- A new row is added behind the others.
      · refine ⟨fun t ht => ⟨t, ?_, rfl, rfl, rfl⟩, hrefl.2⟩
        show t ∈ trackings.rows
        rw [(TrackingTable.insert_eq_some hinsert).1]
        exact List.mem_append_left _ ht
  | delete tenantId trackingId jobId now =>
      obtain ⟨⟨found, db'⟩, hdelete, rfl⟩ := Option.map_eq_some_iff.1 hs
      rcases deleteTracking_cases hdelete with rfl | ⟨t, -, -, -, -, rfl⟩
      · exact hrefl
      · exact ⟨persists_updateWhere rfl fun _ => ⟨rfl, rfl, rfl⟩, hrefl.2⟩
  | reconcile staleAfter limit locked ids now =>
      obtain ⟨⟨n, db'⟩, hreconcile, rfl⟩ := Option.map_eq_some_iff.1 hs
      -- The loop over the due trackings, one turn at a time.
      refine enqueueDue_induction (P := fun db => s.db.Persists db) hreconcile hrefl ?_
      intro db₁ db₂ t refreshId jobId created hold hturn
      refine hold.trans ?_
      rcases reconcileOne_cases hturn with rfl | ⟨refreshes, -, -, hrows, rfl⟩
      · exact .refl _
      · refine ⟨persists_updateWhere rfl fun _ => ⟨rfl, rfl, rfl⟩, fun r hr => ?_⟩
        refine ⟨r, ?_, rfl, fun _ hq => hq⟩
        show r ∈ refreshes.rows
        rw [hrows]
        exact List.mem_append_left _ hr
  | tracked providerId now =>
      cases hs
      exact ⟨persists_updateWhere rfl fun _ => ⟨rfl, rfl, rfl⟩, hrefl.2⟩
  | completed requestId unseen now =>
      simp only [System.step] at hs
      split at hs
      · cases hs
      · cases hs
        unfold System.complete
        split
        · exact hrefl
        · exact ⟨hrefl.1, persists_updateWhere_refreshes rfl fun _ _ => ⟨rfl, fun _ hq => hq⟩⟩
  | other new jobId now =>
      simp only [System.step] at hs
      split at hs
      · obtain ⟨db', henqueue, rfl⟩ := Option.map_eq_some_iff.1 hs
        obtain ⟨-, rfl⟩ := Database.enqueue_eq_some henqueue
        exact .of_same rfl rfl
      · cases hs
  | call worker slot now c =>
      simp only [System.step] at hs
      split at hs
      · cases hs
      · split at hs
        · cases hs
        · rename_i db' provider' stage hcall
          cases hs
          exact TaskRun.call_persists hcall
  | claim | reclaim | vanish =>
      simp only [System.step] at hs
      repeat' split at hs
      all_goals cases hs
      exact .of_same rfl rfl
  | purgeJobs | purgeCompletions =>
      cases hs
      exact .of_same rfl rfl

/-! ## §2. Provider ids. -/

/-- **A stored id is one that the provider created for its row.** -/
def Assigned (s : System) : Prop :=
  ∀ t ∈ s.db.trackings.rows, ∀ id, t.providerTrackingId = some id → (t.id, id) ∈ s.provider.created

theorem Assigned.step (h : Assigned s) (hflights : Flights s) (hs : s.step e = some s') :
    Assigned s' := by
  intro t' ht' id hstored
  refine System.created_step hs ?_
  rcases hflights.stored_cases hs ht' hstored with ⟨t, ht, hid, hold, -⟩ |
    ⟨t, ht, hid, -, -, run, hrun, hx, hbrings, -⟩
  · rw [hid]
    exact h t ht id hold
  · -- the run that stores it had it from the provider
    obtain ⟨-, -, -, x, hx', hcreated⟩ := hflights.brought run hrun id hbrings
    obtain rfl : t.id = x := Option.some.inj (hx.2.symm.trans hx'.2)
    rw [hid]
    exact hcreated

end Step

theorem assigned_init : Assigned {} :=
  fun _ ht => (nomatch ht)

end Rpy.Trackings

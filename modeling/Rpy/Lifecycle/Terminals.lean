/-
  Rpy.Lifecycle.Terminals
  ───────────────────────
  **WHAT A SEQUENCE OF TRANSITIONS MAKES OF A PUBLIC REQUEST.**

  The calls of `transition_summary_request` on one request, in any order
  and from any callers.

    • `PublicRequest.transitions`  — the calls, one after another,
    • `transitions_fold`           — the status they lead to: the first
                                     terminal one, else the highest,
    • `PublicRequest.SameOutcome`  — the columns that make the outcome,
    • `Transition.Restates`        — the call repeats what the row holds, or
                                     asks for another status,
    • `frozenAlong_iff_restates`   — calls leave a terminal outcome as it
                                     is exactly when each of them does.

  A call for the status a request has is allowed, also when the status is
  terminal: it overwrites `error_code` and `completed_at`.
-/
import Rpy.Lifecycle.Pipeline

namespace Rpy.Lifecycle

open Rpy.Foundation

/-! ## §1. Sequences of calls. -/

/-- `_PROGRESS_RANK`; every terminal status ranks as `completed` does. -/
def PublicStatus.rank (s : PublicStatus) : Nat :=
  if s.terminal then 5 else s.progressRank.getD 0

/-- The status after a call. -/
def PublicStatus.advance (current target : PublicStatus) : PublicStatus :=
  if transitionAllowed current target then target else current

/-- The request after the calls, each with its `NOW()`. -/
def PublicRequest.transitions (r : PublicRequest) (calls : List (Transition × Timestamp)) :
    PublicRequest :=
  calls.foldl (fun r call => r.transition call.1 call.2) r

theorem PublicRequest.transition_status (r : PublicRequest) (t : Transition) (now : Timestamp) :
    (r.transition t now).status = r.status.advance t.status := by
  unfold PublicRequest.transition PublicStatus.advance
  by_cases hallowed : transitionAllowed r.status t.status = true
  · rw [if_pos hallowed, if_pos hallowed]
  · rw [if_neg hallowed, if_neg hallowed]

/-- The status depends on the requested statuses only. -/
theorem PublicRequest.transitions_status (r : PublicRequest)
    (calls : List (Transition × Timestamp)) :
    (r.transitions calls).status =
      (calls.map fun call => call.1.status).foldl PublicStatus.advance r.status := by
  induction calls generalizing r with
  | nil => rfl
  | cons call calls ih =>
      show ((r.transition call.1 call.2).transitions calls).status = _
      rw [ih, PublicRequest.transition_status]
      rfl

/-! ## §2. The status as a fold. -/

section Fold

variable {s target : PublicStatus} {requested : List PublicStatus}

theorem PublicStatus.advance_of_terminal (h : s.terminal = true) : s.advance target = s := by
  unfold PublicStatus.advance
  by_cases hallowed : transitionAllowed s target = true
  · rw [if_pos hallowed]
    exact transitionAllowed_of_terminal h hallowed
  · rw [if_neg hallowed]

theorem PublicStatus.advance_to_terminal (hs : s.terminal = false)
    (htarget : target.terminal = true) : s.advance target = target := by
  unfold PublicStatus.advance
  rw [if_pos (transitionAllowed_to_terminal hs htarget)]

/-- From a progress status the higher of the two is reached. -/
theorem PublicStatus.advance_of_progress (hs : s.terminal = false) :
    s.advance target = if s.rank ≤ target.rank then target else s := by
  cases s <;> cases target <;> first
    | rfl
    | cases hs

/-- **A call never lowers the rank.** -/
theorem PublicStatus.rank_le_advance (s target : PublicStatus) :
    s.rank ≤ (s.advance target).rank := by
  by_cases hs : s.terminal = true
  · have heq : s.advance target = s := PublicStatus.advance_of_terminal hs
    exact Nat.le_of_eq (congrArg PublicStatus.rank heq.symm)
  · have heq : s.advance target = if s.rank ≤ target.rank then target else s :=
      PublicStatus.advance_of_progress (by simpa using hs)
    by_cases hle : s.rank ≤ target.rank
    · rw [heq, if_pos hle]
      exact hle
    · rw [if_neg hle] at heq
      exact Nat.le_of_eq (congrArg PublicStatus.rank heq.symm)

/-- Nothing follows a terminal status. -/
theorem foldl_advance_of_terminal (h : s.terminal = true) :
    requested.foldl PublicStatus.advance s = s := by
  induction requested with
  | nil => rfl
  | cons t requested ih =>
      show requested.foldl PublicStatus.advance (s.advance t) = s
      rw [PublicStatus.advance_of_terminal h]
      exact ih

theorem rank_le_foldl_advance (s : PublicStatus) (requested : List PublicStatus) :
    s.rank ≤ (requested.foldl PublicStatus.advance s).rank := by
  induction requested generalizing s with
  | nil => exact Nat.le_refl _
  | cons t requested ih => exact Nat.le_trans (s.rank_le_advance t) (ih (s.advance t))

/-- **The first terminal status is the last.** -/
theorem foldl_advance_of_find (hs : s.terminal = false)
    (h : requested.find? PublicStatus.terminal = some target) :
    requested.foldl PublicStatus.advance s = target := by
  induction requested generalizing s with
  | nil => cases h
  | cons t requested ih =>
      show requested.foldl PublicStatus.advance (s.advance t) = target
      by_cases ht : t.terminal = true
      · rw [List.find?_cons_of_pos ht] at h
        obtain rfl := Option.some.inj h
        rw [PublicStatus.advance_to_terminal hs ht]
        exact foldl_advance_of_terminal ht
      · rw [List.find?_cons_of_neg ht] at h
        refine ih ?_ h
        -- a progress status follows, whichever of the two it is
        rw [PublicStatus.advance_of_progress hs]
        split
        · simpa using ht
        · exact hs

/-- **Without a terminal status the highest one is the last.** -/
theorem foldl_advance_of_progress (hs : s.terminal = false)
    (h : ∀ t ∈ requested, t.terminal = false) :
    requested.foldl PublicStatus.advance s ∈ s :: requested ∧
      ∀ t ∈ requested, t.rank ≤ (requested.foldl PublicStatus.advance s).rank := by
  induction requested generalizing s with
  | nil => exact ⟨List.mem_singleton_self s, fun t ht => absurd ht List.not_mem_nil⟩
  | cons t requested ih =>
      have ht : t.terminal = false := h t List.mem_cons_self
      have hadvance : s.advance t = if s.rank ≤ t.rank then t else s :=
        PublicStatus.advance_of_progress hs
      have hnext : (s.advance t).terminal = false := by
        rw [hadvance]
        split
        · exact ht
        · exact hs
      obtain ⟨hmem, hrank⟩ := ih hnext fun u hu => h u (List.mem_cons_of_mem _ hu)
      show requested.foldl PublicStatus.advance (s.advance t) ∈ s :: t :: requested ∧
        ∀ u ∈ t :: requested, u.rank ≤ (requested.foldl PublicStatus.advance (s.advance t)).rank
      refine ⟨?_, fun u hu => ?_⟩
      · rcases List.mem_cons.1 hmem with heq | hmem
        · rw [heq, hadvance]
          split
          · exact List.mem_cons_of_mem _ List.mem_cons_self
          · exact List.mem_cons_self
        · exact List.mem_cons_of_mem _ (List.mem_cons_of_mem _ hmem)
      · rcases List.mem_cons.1 hu with rfl | hu
        · have hle : u.rank ≤ (s.advance u).rank := by
            rw [hadvance]
            split
            · exact Nat.le_refl _
            · omega
          exact Nat.le_trans hle (rank_le_foldl_advance _ requested)
        · exact hrank u hu

end Fold

/-- **The lifecycle is a fold.**  Of a request created as `queued` and any
calls: the status is the first terminal one requested; without one, it is
the highest of those requested (and of `queued`); the rank never goes down;
and `completed_at` is set exactly in the terminal statuses. -/
theorem transitions_fold (r : PublicRequest) (hqueued : r.status = .queued)
    (calls : List (Transition × Timestamp)) :
    (∀ target, (calls.map fun call => call.1.status).find? PublicStatus.terminal = some target →
      (r.transitions calls).status = target) ∧
    ((∀ call ∈ calls, call.1.status.terminal = false) →
      (r.transitions calls).status ∈ PublicStatus.queued :: (calls.map fun call => call.1.status) ∧
        ∀ call ∈ calls, call.1.status.rank ≤ (r.transitions calls).status.rank) ∧
    (∀ before after, calls = before ++ after →
      (r.transitions before).status.rank ≤ (r.transitions calls).status.rank ∧
        ((r.transitions before).completedAt.isSome = true ↔
          (r.transitions before).status.terminal = true)) := by
  refine ⟨fun target hfind => ?_, fun hprogress => ?_, fun before after hsplit => ⟨?_, ?_⟩⟩
  · rw [PublicRequest.transitions_status, hqueued]
    exact foldl_advance_of_find rfl hfind
  · rw [PublicRequest.transitions_status, hqueued]
    have hrequested : ∀ t ∈ calls.map fun call => call.1.status, t.terminal = false :=
      List.forall_mem_map.2 hprogress
    obtain ⟨hmem, hrank⟩ := foldl_advance_of_progress (s := .queued) rfl hrequested
    exact ⟨hmem, fun call hcall => hrank _ (List.mem_map_of_mem hcall)⟩
  · subst hsplit
    rw [PublicRequest.transitions_status, PublicRequest.transitions_status, List.map_append,
      List.foldl_append]
    exact rank_le_foldl_advance _ _
  · -- the CHECK constraint of the row
    rw [(r.transitions before).terminal_time]

/-- A request as it is created. -/
def sampleRequest : PublicRequest where
  id := 5
  tenantId := 1
  processCode := sampleCode
  idempotencyKey := "key-1"
  requestFingerprint := "fingerprint"
  responseFormat := "json"
  terminal_time := queued_open

/-- A generation that fails after a stale callback: `failed` stays. -/
theorem transitions_fold_sampleRequest :
    (sampleRequest.transitions
      [({ status := .generating }, 1), ({ status := .fetching }, 2), ({ status := .failed }, 3),
       ({ status := .completed }, 4)]).status = .failed :=
  (transitions_fold sampleRequest rfl _).1 .failed rfl

/-! ## §3. The outcome of a terminal request. -/

/-- The columns of the outcome are the same; `flags` as a `jsonb` object. -/
structure PublicRequest.SameOutcome (r r' : PublicRequest) : Prop where
  status : r'.status = r.status
  processId : r'.processId = r.processId
  versionId : r'.versionId = r.versionId
  summaryId : r'.summaryId = r.summaryId
  flags : ∀ key, r'.flags.lookup key = r.flags.lookup key
  errorCode : r'.errorCode = r.errorCode
  sourceUpdatedAt : r'.sourceUpdatedAt = r.sourceUpdatedAt
  completedAt : r'.completedAt = r.completedAt

/-- The call asks for another status, or for what the row holds: each of
its arguments, and its `NOW()`. -/
def Transition.Restates (t : Transition) (now : Timestamp) (r : PublicRequest) : Prop :=
  t.status ≠ r.status ∨
    ((t.processId = none ∨ t.processId = r.processId) ∧
      (t.versionId = none ∨ t.versionId = r.versionId) ∧
      (t.summaryId = none ∨ t.summaryId = r.summaryId) ∧
      (∀ flags ∈ t.flags, ∀ key ∈ flags.map Prod.fst, flags.lookup key = r.flags.lookup key) ∧
      t.errorCode = r.errorCode ∧
      (t.sourceUpdatedAt = none ∨ t.sourceUpdatedAt = r.sourceUpdatedAt) ∧
      r.completedAt = some now)

/-- No call of the list changes the outcome. -/
def FrozenAlong (r : PublicRequest) : List (Transition × Timestamp) → Prop
  | [] => True
  | call :: calls =>
      r.SameOutcome (r.transition call.1 call.2) ∧ FrozenAlong (r.transition call.1 call.2) calls

theorem coalesce_eq_iff {α : Type} {new old : Option α} :
    (new <|> old) = old ↔ new = none ∨ new = old := by
  cases new with
  | none => simp
  | some a => cases old <;> simp

/-- A member the right side does not name is the left's. -/
theorem lookup_mergeFlags (old new : List (String × Json)) (key : String) :
    (mergeFlags old new).lookup key =
      if key ∈ new.map Prod.fst then new.lookup key else old.lookup key := by
  have hfilter : (old.filter fun m => !(new.map Prod.fst).contains m.1).lookup key =
      if key ∈ new.map Prod.fst then none else old.lookup key := by
    induction old with
    | nil => simp
    | cons m old ih =>
        obtain ⟨k, v⟩ := m
        by_cases hk : k ∈ new.map Prod.fst
        · rw [List.filter_cons_of_neg (by simpa using hk), ih, List.lookup_cons]
          by_cases hkey : key = k
          · subst hkey
            rw [if_pos hk, if_pos hk]
          · rw [show (key == k) = false by simpa using hkey]
        · rw [List.filter_cons_of_pos (by simpa using hk), List.lookup_cons, List.lookup_cons, ih]
          by_cases hkey : key = k
          · subst hkey
            simp only [beq_self_eq_true, if_neg hk]
          · rw [show (key == k) = false by simpa using hkey]
  have hnew : key ∉ new.map Prod.fst → new.lookup key = none := by
    intro hkey
    rw [List.lookup_eq_none_iff]
    intro m hm
    have hne : m.1 ≠ key := fun heq => hkey (heq ▸ List.mem_map_of_mem hm)
    simpa using fun heq : key = m.1 => hne heq.symm
  unfold mergeFlags
  rw [List.lookup_append, hfilter]
  by_cases hkey : key ∈ new.map Prod.fst
  · rw [if_pos hkey, if_pos hkey]
    rfl
  · rw [if_neg hkey, if_neg hkey, hnew hkey]
    cases old.lookup key <;> rfl

/-- **When one call leaves a terminal outcome as it is.** -/
theorem sameOutcome_transition_iff {r : PublicRequest} {t : Transition} {now : Timestamp}
    (h : r.status.terminal = true) :
    r.SameOutcome (r.transition t now) ↔ t.Restates now r := by
  by_cases hstatus : t.status = r.status
  · -- the same status is allowed, and every column is written
    have hallowed : transitionAllowed r.status t.status = true := by
      unfold transitionAllowed
      rw [if_pos hstatus.symm]
    have hterminal : t.status.terminal = true := by rw [hstatus]; exact h
    unfold PublicRequest.transition
    rw [if_pos hallowed]
    constructor
    · intro hsame
      refine .inr ⟨coalesce_eq_iff.1 hsame.processId, coalesce_eq_iff.1 hsame.versionId,
        coalesce_eq_iff.1 hsame.summaryId, fun flags hflags key hkey => ?_, hsame.errorCode,
        coalesce_eq_iff.1 hsame.sourceUpdatedAt, ?_⟩
      -- Column by column: `COALESCE` keeps the old value if and only if the new one is missing
      -- or the same.
      · have hlookup := hsame.flags key
        simp only [Option.mem_def.1 hflags, lookup_mergeFlags, if_pos hkey] at hlookup
        exact hlookup
      · have hcompleted := hsame.completedAt
        simp only [hterminal, if_true] at hcompleted
        exact hcompleted.symm
    · rintro (hne | ⟨hprocess, hversion, hsummary, hflags, herror, hupdated, hcompleted⟩)
      · exact absurd hstatus hne
      · refine ⟨hstatus, coalesce_eq_iff.2 hprocess, coalesce_eq_iff.2 hversion,
          coalesce_eq_iff.2 hsummary, fun key => ?_, herror, coalesce_eq_iff.2 hupdated, ?_⟩
        · cases hnew : t.flags with
          | none => rfl
          | some new =>
              simp only [lookup_mergeFlags]
              split
              · rename_i hkey
                exact hflags new (by rw [hnew]; exact rfl) key hkey
              · rfl
        · simp only [hterminal, if_true]
          exact hcompleted.symm
  · -- another status is refused, and the row is returned as it is
    have hrefused : transitionAllowed r.status t.status = false := by
      by_contra hallowed
      exact hstatus (transitionAllowed_of_terminal h (by simpa using hallowed))
    unfold PublicRequest.transition
    rw [if_neg (by simp [hrefused])]
    constructor
    · exact fun _ => .inl hstatus
    · exact fun _ => ⟨rfl, rfl, rfl, rfl, fun _ => rfl, rfl, rfl, rfl⟩

/-- What a call restates depends on the outcome only. -/
theorem PublicRequest.SameOutcome.restates_iff {r r' : PublicRequest} (h : r.SameOutcome r')
    {t : Transition} {now : Timestamp} : t.Restates now r' ↔ t.Restates now r := by
  unfold Transition.Restates
  rw [h.status, h.processId, h.versionId, h.summaryId, h.errorCode, h.sourceUpdatedAt,
    h.completedAt]
  simp only [h.flags]

/-- **Calls leave a terminal outcome as it is exactly when each of them
restates it.** -/
theorem frozenAlong_iff_restates (r : PublicRequest) (hterminal : r.status.terminal = true)
    (calls : List (Transition × Timestamp)) :
    FrozenAlong r calls ↔ ∀ call ∈ calls, call.1.Restates call.2 r := by
  induction calls generalizing r with
  | nil => exact ⟨fun _ call hcall => absurd hcall List.not_mem_nil, fun _ => trivial⟩
  | cons call calls ih =>
      show (_ ∧ FrozenAlong (r.transition call.1 call.2) calls) ↔ _
      rw [ih _ (PublicRequest.transition_terminal hterminal),
        sameOutcome_transition_iff hterminal, List.forall_mem_cons]
      constructor
      · rintro ⟨hfirst, hrest⟩
        have hsame := (sameOutcome_transition_iff hterminal).2 hfirst
        exact ⟨hfirst, fun c hc => hsame.restates_iff.1 (hrest c hc)⟩
      · rintro ⟨hfirst, hrest⟩
        have hsame := (sameOutcome_transition_iff hterminal).2 hfirst
        exact ⟨hfirst, fun c hc => hsame.restates_iff.2 (hrest c hc)⟩

/-- A late failure leaves a completed request as it is. -/
theorem frozenAlong_lateFailure :
    FrozenAlong (sampleRequest.transition { status := .completed } 1)
      [({ status := .failed, errorCode := some "job_failed" }, 2)] :=
  (frozenAlong_iff_restates _ (by decide) _).2 (by
    intro call hcall
    obtain rfl := List.mem_singleton.1 hcall
    exact .inl (by decide))

/-! ## §4. A finalization that is run again. -/

/-- The sample request's summary is generated and approved. -/
def approvedRun : List Event :=
  post 5 "key-1" 10 ++ acquire 10 12 ++ runTask 12 [.finalize {} 13] ++
    [.claim 9 0 0 [] 13, .call 9 0 0 .start,
     .call 9 0 0 (.complete (.obj [])
       { summary := some ("summary", 0), approved := true, persisted := true })]

/-- What `_complete_from_current_summary` asks for when the finalization is
run again. -/
def reusedSummary : Transition where
  status := .completed
  processId := some "process"
  versionId := some "version"
  summaryId := some "summary"
  sourceUpdatedAt := some 0
  flags := some [("reused_existing_summary", .bool true)]

theorem approvedRun_completed :
    ∃ s ∈ run Pipeline.step {} approvedRun, ∃ r ∈ s.db.requests, r.status.terminal = true ∧
      (r.transition reusedSummary 60000000).completedAt ≠ r.completedAt := by
  decide +kernel

/-- A terminal outcome is not frozen. -/
theorem not_frozen_approvedRun :
    ¬ ∀ s : Pipeline, Reachable Pipeline.step {} s → ∀ r ∈ s.db.requests,
      r.status.terminal = true → ∀ calls, FrozenAlong r calls := by
  intro h
  obtain ⟨s, hs, r, hr, hterminal, hmoved⟩ := approvedRun_completed
  have hfrozen := h s (reachable_of_run hs) r hr hterminal [(reusedSummary, 60000000)]
  exact hmoved hfrozen.1.completedAt

end Rpy.Lifecycle

/-
  Rpy.Finalization.Retry
  ──────────────────────
  **A FINALIZATION THAT IS RUN AGAIN**
  (`app/judit_tasks.py`, `app/processes.py`, `app/queue.py`).

  The second run selects the version of the first, finds it finalized, and
  asks for the job that is enqueued already.  It takes three things for
  this that the code does not check: nothing of the request was staged while
  the first run was under way, the attachments are enabled as they were, and
  a summary that could be served can still be.

    • `Store.Idle`      — nothing is written but statuses, none of them earlier,
    • `Store.Quiet`     — what may happen between the runs,
    • `Settled`         — what the first run leaves, and everything quiet keeps,
    • `idle_of_retry`   — every run after it is idle,
    • `not_idle_of_undisturbed`, `not_idle_of_beside`, `not_idle_of_hidden`,
      `retry_enqueues` — and none of the conditions can be left out.
-/
import Rpy.Finalization.Task
import Rpy.Publication.Restricted
import Rpy.Queue.Evolution

namespace Rpy.Finalization

open Rpy.Foundation Rpy.Processes Rpy.DataJud Rpy.Lifecycle
open Rpy.Queue (JobTable NewJob)

/-! ## §1. Statuses that are not earlier. -/

/-- `b` is `a`, or `a` is not terminal and `b` is terminal or no earlier in
`PROGRESS_STATUSES`. -/
def NotEarlier (a b : PublicStatus) : Prop :=
  a = b ∨ (a.terminal = false ∧
    (b.terminal = true ∨ progressStatuses.idxOf a ≤ progressStatuses.idxOf b))

instance (a b : PublicStatus) : Decidable (NotEarlier a b) :=
  inferInstanceAs (Decidable (_ ∨ _))

/-- The same requests, each with a status that is not earlier. -/
def NoneEarlier (requests requests' : List PublicRequest) : Prop :=
  List.Forall₂ (fun r r' => r'.id = r.id ∧ NotEarlier r.status r'.status) requests requests'

/-- The order of the statuses is transitive. -/
theorem NotEarlier.trans {a b c : PublicStatus} (h : NotEarlier a b) (h' : NotEarlier b c) :
    NotEarlier a c := by
  rcases h with rfl | ⟨ha, hab⟩
  · exact h'
  rcases h' with rfl | ⟨hb, hbc⟩
  · exact .inr ⟨ha, hab⟩
  refine .inr ⟨ha, hbc.imp_right fun hle => ?_⟩
  rcases hab with hterminal | hle'
  · rw [hb] at hterminal
    cases hterminal
  · exact hle'.trans hle

/-- **An allowed transition does not go back.** -/
theorem notEarlier_of_transitionAllowed {a b : PublicStatus}
    (h : transitionAllowed a b = true) : NotEarlier a b := by
  revert h
  cases a <;> cases b <;> decide

/-- A transition goes to no earlier status. -/
theorem notEarlier_transition (t : Transition) (now : Timestamp) (r : PublicRequest) :
    NotEarlier r.status (r.transition t now).status := by
  unfold PublicRequest.transition
  split
  · rename_i hallowed
    exact notEarlier_of_transitionAllowed hallowed
  · exact .inl rfl

/-- Nothing has changed. -/
theorem NoneEarlier.refl (requests : List PublicRequest) : NoneEarlier requests requests :=
  List.forall₂_same.2 fun _ _ => ⟨rfl, .inl rfl⟩

/-- One change after the other. -/
theorem NoneEarlier.trans {xs ys zs : List PublicRequest} (h : NoneEarlier xs ys)
    (h' : NoneEarlier ys zs) : NoneEarlier xs zs := by
  unfold NoneEarlier at *
  induction h generalizing zs with
  | nil => cases h'; exact .nil
  | cons hxy _ ih =>
      cases h' with
      | cons hyz hrest =>
          exact .cons ⟨hyz.1.trans hxy.1, hxy.2.trans hyz.2⟩ (ih hrest)

/-- The transitions of many requests at once. -/
theorem noneEarlier_transitionMany (selected : PublicRequest → Bool) (t : Transition)
    (now : Timestamp) (requests : List PublicRequest) :
    NoneEarlier requests (transitionMany selected t now requests) := by
  unfold NoneEarlier transitionMany updateWhere
  rw [List.forall₂_map_right_iff, List.forall₂_same]
  intro r _
  split
  · exact ⟨PublicRequest.transition_id, notEarlier_transition t now r⟩
  · exact ⟨rfl, .inl rfl⟩

/-- **No transition of a plan moves a request to an earlier status.** -/
theorem noneEarlier_transitionAll (t : AcquisitionTable) (unseen : List Uuid) (requestId : String)
    (now : Timestamp) (transitions : List Transition) (requests : List PublicRequest) :
    NoneEarlier requests (transitionAll t unseen requestId now transitions requests) := by
  unfold transitionAll
  induction transitions generalizing requests with
  | nil => exact .refl _
  | cons transition transitions ih =>
      exact (noneEarlier_transitionMany _ _ _ _).trans (ih _)

/-! ## §2. Jobs that are there. -/

/-- Some row has the key of the job. -/
def Enqueued (jobs : JobTable) (new : NewJob) : Prop :=
  jobs.keyTaken new.idempotencyKey = true

/-- No row is gone, and each keeps its key. -/
def NotPurged (jobs jobs' : JobTable) : Prop :=
  ∀ j ∈ jobs.rows, ∃ j' ∈ jobs'.rows, j'.id = j.id ∧ j'.idempotencyKey = j.idempotencyKey

section Jobs

variable {jobs jobs' : JobTable} {new : NewJob}

/-- A job that is there stays, while it is not purged. -/
theorem Enqueued.of_notPurged (h : Enqueued jobs new) (hjobs : NotPurged jobs jobs') :
    Enqueued jobs' new := by
  unfold Enqueued at *
  cases hkey : new.idempotencyKey with
  | none => rw [hkey] at h; cases h
  | some key =>
      rw [hkey, JobTable.keyTaken_iff] at h
      obtain ⟨j, hj, hjkey⟩ := h
      obtain ⟨j', hj', -, hsame⟩ := hjobs j hj
      exact JobTable.keyTaken_iff.2 ⟨j', hj', hsame.trans hjkey⟩

/-- A job whose key is taken is not inserted. -/
theorem insertNew_of_enqueued (h : Enqueued jobs new) (id : Uuid) (now : Timestamp) :
    jobs.insertNew new id now = (none, jobs) := by
  unfold JobTable.insertNew
  exact dif_pos h

/-- Enqueueing a plan's job keeps the rows, and the job is there. -/
theorem enqueueNext_eq_some {db db' : Database} {next : Option NewJob} {id : Uuid}
    {now : Timestamp} (h : db.enqueueNext next id now = some db') :
    db'.requests = db.requests ∧ NotPurged db.jobs db'.jobs ∧
      (∀ new, next = some new → new.idempotencyKey.isSome = true → Enqueued db'.jobs new) ∧
      ((∀ new, next = some new → Enqueued db.jobs new) → db'.jobs = db.jobs) := by
  cases next with
  | none =>
      obtain rfl := Option.some.inj h
      exact ⟨rfl, fun j hj => ⟨j, hj, rfl, rfl⟩, fun _ hnew => (nomatch hnew), fun _ => rfl⟩
  | some new =>
      obtain ⟨⟨inserted, db''⟩, henqueue, rfl⟩ := Option.map_eq_some_iff.1 h
      unfold Database.enqueue at henqueue
      split at henqueue
      · cases henqueue
      rename_i hfresh
      split at henqueue
      · cases henqueue
      rename_i row jobs hrow
      obtain ⟨-, rfl⟩ := Prod.mk.inj (Option.some.inj henqueue)
      have hinsert := Queue.enqueue_eq_ok hrow
      have hjobs : jobs = (db.jobs.insertNew new id now).2 := by rw [hinsert]
      subst hjobs
      refine ⟨rfl, fun j hj => ⟨j, JobTable.mem_insertNew_of_mem hj, rfl, rfl⟩, ?_, ?_⟩
      · intro _ hnew hkey
        obtain rfl := Option.some.inj hnew
        unfold Enqueued
        obtain ⟨key, hkey⟩ := Option.isSome_iff_exists.1 hkey
        by_cases htaken : db.jobs.keyTaken new.idempotencyKey = true
        · rw [insertNew_of_enqueued htaken]
          exact htaken
        · rw [hkey, JobTable.keyTaken_iff]
          exact ⟨_, JobTable.row_mem_insertNew (by simpa using htaken) hfresh, hkey⟩
      · intro htaken
        show (db.jobs.insertNew new id now).2 = db.jobs
        rw [insertNew_of_enqueued (htaken new rfl)]

end Jobs

/-! ## §3. What is proved. -/

/-- The versions of a Judit request. -/
def versionsOf (s : System) (requestId : String) : List Staging :=
  s.stagings.filter fun v => v.juditRequestId == some requestId

/-- The transaction wrote nothing but statuses, none of them earlier. -/
structure Store.Idle (s s' : Store) : Prop where
  /-- processes, versions, steps and provenance -/
  system : s'.system = s.system
  codes : s'.codes = s.codes
  updatedAt : s'.updatedAt = s.updatedAt
  jobs : s'.jobs = s.jobs
  requests : NoneEarlier s.requests s'.requests

/-- The current summary can be served. -/
def Store.Shows (u : Unicode) (s : Store) (p : Uuid) : Prop :=
  (((s.tables p).completeFromCurrentSummary u p).toOption.bind id).isSome = true

/-- Nothing of the request was staged since the run prepared: what it selected
is preferred still, and holds the data that it applies. -/
def Store.UpToDate (s : Store) (f : Finalizer) : Prop :=
  f.unavailable = (s.select f).unavailable ∧
    f.run.selected.map (fun (staged, a) => (staged, some a.juditFields)) =
      (s.system.select f.run).map fun (staged, _) => (staged, staged.responseData)

instance (u : Unicode) (s : Store) (p : Uuid) : Decidable (s.Shows u p) :=
  inferInstanceAs (Decidable (_ = true))

instance (s : Store) (f : Finalizer) : Decidable (s.UpToDate f) :=
  inferInstanceAs (Decidable (_ ∧ _))

/-- No run of the request is under way but the one. -/
def Store.Alone (s : Store) (i : Nat) (requestId : String) : Prop :=
  ∀ f ∈ s.runs.eraseIdx i, f.run.requestId ≠ requestId

/-- The transaction of a run comes to its end, which leads to `s₁`. -/
def Store.Finalizes (u : Unicode) (s : Store) (i : Nat) (f : Finalizer)
    (attachmentsEnabled : Bool) (s₁ : Store) : Prop :=
  ∃ jobId now unlinked, s.runs[i]? = some f ∧
    (s.finalize u f attachmentsEnabled jobId now unlinked).isSome = true ∧
    s.step u (.commit i attachmentsEnabled jobId now unlinked) = some s₁

/-- Nothing of the request is staged, no other request finalizes a version of
the process, and no job is purged. -/
def Store.Undisturbed (requestId : String) (s : Store) : Event → Prop
  | .stage version => ∀ system, s.system.stage version = some system →
      versionsOf system requestId = versionsOf s.system requestId
  | .commit i _ _ _ _ => ∀ f staged other a, s.runs[i]? = some f → f.run.requestId ≠ requestId →
      s.system.preferredJuditVersion requestId = some staged →
      f.run.selected = some (other, a) → other.processId ≠ staged.processId
  | .elsewhere _ _ jobs => NotPurged s.jobs jobs
  | _ => True

/-- The request's own runs find the attachments enabled as they were, and a
summary that can be served if one could be in `s₁`. -/
def Store.Likewise (u : Unicode) (requestId : String) (attachmentsEnabled : Bool) (s₁ s : Store) :
    Event → Prop
  | .commit i enabled _ _ _ => ∀ f staged, s.runs[i]? = some f → f.run.requestId = requestId →
      s.system.preferredJuditVersion requestId = some staged →
      enabled = attachmentsEnabled ∧ (s₁.Shows u staged.processId → s.Shows u staged.processId)
  | _ => True

/-- What may happen after the run that led to `s₁`. -/
def Store.Quiet (u : Unicode) (requestId : String) (attachmentsEnabled : Bool) (s₁ s : Store)
    (e : Event) : Prop :=
  s.Undisturbed requestId e ∧ s₁.Likewise u requestId attachmentsEnabled s e

/-- A run of the request that prepared, and selected if it did, in `s₁`. -/
def Store.Rereads (s₁ : Store) (f : Finalizer) : Prop :=
  f.run.prepared = (s₁.system.prepare f.run.requestId none).prepared ∧
    ((f.unavailable = none ∧ f.run.selected = none) ∨ s₁.select f = f)

/-- The plan of a run for a version that is finalized. -/
def Store.planAgain (s : Store) (requestId : String) (staged : Staging) (reads : FinalizeReads) :
    FinalizePlan :=
  finalizedPlan (s.archive staged) requestId (s.codes staged.processId) (s.version staged) reads
    ((s.system.processes staged.processId).process.currentVersionId == some staged.versionId)

/-- The version is finalized, and its next job is enqueued. -/
structure Store.Finished (u : Unicode) (requestId : String) (attachmentsEnabled : Bool) (s : Store)
    (staged : Staging) (fields : SemanticFields) : Prop where
  finalized : ∃ v, s.versionRow? staged = some v ∧ v.finalized = true
  enqueued : ∃ reads, s.finalizeReads u staged fields.attachments attachmentsEnabled
      ((s.system.processes staged.processId).process.currentVersionId ==
        some staged.versionId) = .ok reads ∧
    ∀ new, (s.planAgain requestId staged reads).next = some new → Enqueued s.jobs new

/-- What the run that led to `s₁` leaves, and everything quiet keeps. -/
structure Settled (u : Unicode) (requestId : String) (attachmentsEnabled : Bool)
    (s₁ s : Store) : Prop where
  wellFormed : WellFormed u.toPython s.system
  codes : s.codes = s₁.codes
  versions : versionsOf s.system requestId = versionsOf s₁.system requestId
  rereads : ∀ f ∈ s.runs, f.run.requestId = requestId → s₁.Rereads f
  /-- the version that is preferred is finalized, and its process is as it was -/
  finished : ∀ staged fields, s₁.system.preferredJuditVersion requestId = some staged →
    staged.responseData = some fields →
      s₁.Finished u requestId attachmentsEnabled staged fields ∧
        (s.system.processes staged.processId).process =
          (s₁.system.processes staged.processId).process ∧
        s.versionRow? staged = s₁.versionRow? staged ∧
        ∀ new, Enqueued s₁.jobs new → Enqueued s.jobs new

/-! ## §4. A finalized version. -/

section Finalized

variable {u : Unicode} {s s' : Store} {staged : Staging} {a : Prepared}

/-- `finalize_version` does nothing to a version that is finalized. -/
theorem finalizeVersion_of_finalized {w : Platform} {p : ProcessRecords} {versionId : Uuid}
    {v : VersionRow} (hfind : p.versions.find? (fun v => v.id == versionId) = some v)
    (hfinal : v.finalized = true) (f : SemanticFields) (now : Timestamp) :
    finalizeVersion w p versionId f now =
      .ok (p.process.currentVersionId == some versionId, p) := by
  unfold finalizeVersion
  rw [hfind]
  simp only [hfinal, if_true]

/-- The row of a version says whether it is finalized. -/
theorem isFinalized_of_versionRow {v : VersionRow} (hrow : s.versionRow? staged = some v)
    (hfinal : v.finalized = true) : s.system.isFinalized staged = true := by
  unfold Store.versionRow? at hrow
  have hid := List.find?_some hrow
  exact List.any_eq_true.2 ⟨v, List.mem_of_find?_eq_some hrow, by rw [hid, hfinal]; rfl⟩

/-- DataJud does not touch the attachments. -/
theorem attachments_fields (py : Python) (a : Prepared) :
    (a.fields py).attachments = a.juditFields.attachments := by
  unfold Prepared.fields Prepared.result
  cases a.lookup with
  | none => rfl
  | some metadata =>
      show (mergeDatajudMetadata py a.juditFields metadata).process.attachments = _
      unfold mergeDatajudMetadata
      split <;> rfl

/-- **Promoting a finalized version again does nothing.** -/
theorem promote_of_finalized {run : FinalizeRun} {v : VersionRow}
    (hrow : s.versionRow? staged = some v) (hfinal : v.finalized = true)
    (hselected : run.selected = some (staged, a)) (hlookup : a.lookup = none) (now : Timestamp) :
    s.promote u run staged a now =
      .ok ((s.system.processes staged.processId).process.currentVersionId ==
        some staged.versionId, s) := by
  have hfinalize := finalizeVersion_of_finalized (w := u.toPlatform) hrow hfinal
    (a.fields u.toPython) now
  have hresult : a.result u.toPython = none := by
    unfold Prepared.result
    rw [hlookup]
    rfl
  have hcommit : s.system.commit u.toPython run now = .ok s.system := by
    unfold System.commit System.writeProvenance
    rw [hselected]
    refine bind_eq_ok.2 ⟨_, hfinalize, bind_eq_ok.2 ⟨s.system.provenance, ?_, ?_⟩⟩
    · rw [hresult]
    · simp only [Function.update_eq_self, if_true]
      rfl
  unfold Store.promote
  refine bind_eq_ok.2 ⟨_, hfinalize, bind_eq_ok.2 ⟨_, hcommit, ?_⟩⟩
  simp only [isFinalized_of_versionRow hrow hfinal, Bool.not_true, Bool.and_false,
    Bool.false_eq_true, if_false]
  rfl

/-- The reads of two runs, one after the other: where the first found a
summary to serve, so does the second. -/
theorem reusable_again {s₁ : Store} {attachments : List Attachment} {enabled promoted : Bool}
    {reads₁ reads : FinalizeReads}
    (hshows : s₁.Shows u staged.processId → s.Shows u staged.processId)
    (h₁ : s₁.finalizeReads u staged attachments enabled promoted = .ok reads₁)
    (h : s.finalizeReads u staged attachments enabled promoted = .ok reads) :
    reads.attachments = reads₁.attachments ∧
      (reads₁.reusable.isSome = true → reads.reusable.isSome = true) := by
  unfold Store.finalizeReads at h₁ h
  obtain ⟨current₁, hcurrent₁, rfl⟩ := map_eq_ok.1 h₁
  obtain ⟨current, hcurrent, rfl⟩ := map_eq_ok.1 h
  refine ⟨rfl, fun hsome => ?_⟩
  split at hcurrent₁
  · obtain rfl := Except.ok.inj hcurrent₁
    cases hsome
  rename_i hasked
  rw [if_neg hasked] at hcurrent
  cases current₁ with
  | none => cases hsome
  | some shown =>
      unfold Store.Shows at hshows
      rw [hcurrent₁, hcurrent] at hshows
      cases current with
      | none => exact absurd (hshows rfl) Bool.false_ne_true
      | some => rfl

/-- **The job of a plan that is made again** is the first plan's, or none. -/
theorem next_again (archive : Archive) (requestId code : String) (v : Version)
    {reads reads' : FinalizeReads} (promoted : Bool)
    (hattachments : reads'.attachments = reads.attachments)
    (hreusable : reads.reusable.isSome = true → reads'.reusable.isSome = true) :
    (finalizedPlan archive requestId code v reads' promoted).next = none ∨
      (finalizedPlan archive requestId code v reads' promoted).next =
        (finalizedPlan archive requestId code v reads promoted).next := by
  unfold finalizedPlan
  simp only
  by_cases hgenerates : (promoted && !v.cachedResponse) = true
  · right
    rw [if_pos hgenerates, if_pos hgenerates, hattachments]
  rw [if_neg hgenerates, if_neg hgenerates]
  cases hcurrent : archive.currentVersion v.processId with
  | none => exact .inr rfl
  | some current =>
      cases hreuse' : reads'.reusable with
      | some => exact .inl rfl
      | none =>
          have hnone : reads.reusable = none := by
            cases hreuse : reads.reusable with
            | none => rfl
            | some => rw [hreuse, hreuse'] at hreusable; cases hreusable rfl
          rw [hnone]
          exact .inr rfl

end Finalized

/-! ## §5. A run that rereads. -/

section Rereads

variable {u : Unicode} {s s' s₁ : Store} {requestId : String} {enabled : Bool} {f : Finalizer}
  {staged : Staging} {fields : SemanticFields} {jobId : Uuid} {now : Timestamp}
  {unlinked : List Uuid}

/-- What carrying out a plan writes. -/
theorem write_eq_some {plan : FinalizePlan} (h : s.write unlinked requestId plan jobId now = some s') :
    ∃ requests jobs, s' = { s with requests := requests, jobs := jobs } ∧
      NoneEarlier s.requests requests ∧ NotPurged s.jobs jobs ∧
      (∀ new, plan.next = some new → new.idempotencyKey.isSome = true → Enqueued jobs new) ∧
      ((∀ new, plan.next = some new → Enqueued s.jobs new) → jobs = s.jobs) := by
  obtain ⟨db, hdb, rfl⟩ := Option.map_eq_some_iff.1 h
  obtain ⟨hrequests, hkept, hnew, hsame⟩ := enqueueNext_eq_some hdb
  refine ⟨db.requests, db.jobs, rfl, ?_, hkept, hnew, hsame⟩
  rw [hrequests]
  exact noneEarlier_transitionAll _ _ _ _ _ _

/-- A plan whose job is there already writes statuses. -/
theorem idle_of_write {plan : FinalizePlan} (h : s.write unlinked requestId plan jobId now = some s')
    (hnext : ∀ new, plan.next = some new → Enqueued s.jobs new) : s.Idle s' := by
  obtain ⟨requests, jobs, rfl, hrequests, -, -, hsame⟩ := write_eq_some h
  exact ⟨rfl, rfl, rfl, hsame hnext, hrequests⟩

/-- The preferred version is one of the request's versions. -/
theorem preferredJuditVersion_congr {t t' : System}
    (h : versionsOf t requestId = versionsOf t' requestId) :
    t.preferredJuditVersion requestId = t'.preferredJuditVersion requestId := by
  unfold versionsOf at h
  unfold System.preferredJuditVersion
  rw [h]

/-- What a run selects is the preferred version, with what was prepared for
it. -/
theorem select_selected {t : System} {run : FinalizeRun}
    (hpreferred : t.preferredJuditVersion run.requestId = some staged)
    (hfields : staged.responseData = some fields) :
    t.select run = some (staged, (run.prepared.filter fun a => a.versionId == staged.versionId).getD
      { versionId := staged.versionId, juditFields := fields, lookup := none }) :=
  Option.bind_eq_some_iff.2 ⟨staged, hpreferred, Option.bind_eq_some_iff.2 ⟨fields, hfields, rfl⟩⟩

/-- What a run prepares is for the preferred version. -/
theorem prepare_prepared {t : System} {answer : Option DataJudMetadata}
    (hpreferred : t.preferredJuditVersion requestId = some staged)
    (hfields : staged.responseData = some fields) :
    (t.prepare requestId answer).prepared = some
      { versionId := staged.versionId, juditFields := fields
        lookup := if t.isFinalized staged ∨ 0 < fields.secrecyLevel then none else answer } :=
  Option.bind_eq_some_iff.2 ⟨staged, hpreferred, Option.bind_eq_some_iff.2 ⟨fields, hfields, rfl⟩⟩

/-- What a run that rereads applies: the version's own data. -/
theorem Store.Rereads.selected (h : s₁.Rereads f) (hselected : s₁.select f = f)
    (hpreferred : s₁.system.preferredJuditVersion f.run.requestId = some staged)
    (hfields : staged.responseData = some fields) :
    f.unavailable = none ∧ f.run.selected = some (staged,
      { versionId := staged.versionId, juditFields := fields, lookup := none }) := by
  have hprepared := h.1
  rw [prepare_prepared hpreferred hfields, ite_self] at hprepared
  rw [← hselected]
  unfold Store.select
  simp only [hpreferred, hfields, Option.isSome_some, if_true, true_and]
  rw [select_selected hpreferred hfields, hprepared]
  simp [Option.filter]

/-- A run that found nothing to finalize. -/
theorem unavailable_of_select (hselected : s₁.select f = f)
    (hnone : ∀ staged, s₁.system.preferredJuditVersion f.run.requestId = some staged →
      staged.responseData = none) : f.unavailable.isSome = true := by
  rw [← hselected]
  unfold Store.select
  simp only
  cases hpreferred : s₁.system.preferredJuditVersion f.run.requestId with
  | none => rfl
  | some staged =>
      simp only [hnone staged hpreferred]
      rfl

/-- It moves the requests, and nothing else. -/
theorem idle_of_unavailable (hunavailable : f.unavailable.isSome = true)
    (h : s.finalize u f enabled jobId now unlinked = some s') : s.Idle s' := by
  obtain ⟨errorCode, herror⟩ := Option.isSome_iff_exists.1 hunavailable
  unfold Store.finalize at h
  rw [herror] at h
  exact idle_of_write h fun _ hnew => (nomatch hnew)

/-- A result that is there is the result. -/
theorem toOption_eq_some {ε α : Type} {x : Except ε α} {a : α} (h : x.toOption = some a) :
    x = .ok a := by
  cases x with
  | error e => cases h
  | ok b => exact congrArg Except.ok (Option.some.inj h)

/-- The steps of a transaction that finalizes a version. -/
theorem finalize_eq_some {a : Prepared} (hunavailable : f.unavailable = none)
    (hselected : f.run.selected = some (staged, a))
    (h : s.finalize u f enabled jobId now unlinked = some s') :
    ∃ promoted t reads, s.promote u f.run staged a now = .ok (promoted, t) ∧
      t.finalizeReads u staged (a.fields u.toPython).attachments enabled promoted = .ok reads ∧
      t.write unlinked f.run.requestId (finalizedPlan (t.archive staged) f.run.requestId
        (t.codes staged.processId) (t.version staged) reads promoted) jobId now = some s' := by
  unfold Store.finalize at h
  rw [hunavailable, hselected] at h
  obtain ⟨⟨promoted, t⟩, hpromote, h⟩ := Option.bind_eq_some_iff.1 h
  obtain ⟨reads, hreads, h⟩ := Option.bind_eq_some_iff.1 h
  exact ⟨promoted, t, reads, toOption_eq_some hpromote, toOption_eq_some hreads, h⟩

/-- A transaction is what it writes for what it promotes and reads. -/
theorem finalize_of_reads {t : Store} {a : Prepared} {promoted : Bool} {reads : FinalizeReads}
    (hunavailable : f.unavailable = none) (hselected : f.run.selected = some (staged, a))
    (hpromote : s.promote u f.run staged a now = .ok (promoted, t))
    (hreads : t.finalizeReads u staged (a.fields u.toPython).attachments enabled promoted =
      .ok reads) :
    s.finalize u f enabled jobId now unlinked =
      t.write unlinked f.run.requestId (finalizedPlan (t.archive staged) f.run.requestId
        (t.codes staged.processId) (t.version staged) reads promoted) jobId now := by
  unfold Store.finalize
  rw [hunavailable, hselected]
  simp only [hpromote, Except.toOption, hreads, Option.bind_eq_bind, Option.bind_some]

end Rereads

/-! ## §6. Every run after the first is idle. -/

section Settled

variable {u : Unicode} {s s' s₁ : Store} {requestId : String} {enabled : Bool} {f : Finalizer}
  {staged : Staging} {fields : SemanticFields} {jobId : Uuid} {now : Timestamp}
  {unlinked : List Uuid}

/-- What a run does again depends on its codes, its process and its row. -/
theorem planAgain_congr {reads : FinalizeReads} (hcodes : s.codes = s₁.codes)
    (hprocess : (s.system.processes staged.processId).process =
      (s₁.system.processes staged.processId).process)
    (hrow : s.versionRow? staged = s₁.versionRow? staged)
    (hfinalized : ∃ v, s₁.versionRow? staged = some v ∧ v.finalized = true) :
    s.planAgain requestId staged reads = s₁.planAgain requestId staged reads := by
  obtain ⟨v, hv, hfinal⟩ := hfinalized
  have hversion : s.version staged = s₁.version staged := by
    unfold Store.version
    rw [isFinalized_of_versionRow hv hfinal, isFinalized_of_versionRow (hrow.trans hv) hfinal, hrow]
  unfold Store.planAgain Store.archive
  rw [hversion, hcodes, hprocess]

/-- **A run that starts after the first writes nothing but statuses.** -/
theorem Settled.idle {enabled' : Bool} (h : Settled u requestId enabled s₁ s) (hf : f ∈ s.runs)
    (hrequest : f.run.requestId = requestId)
    (hquiet : ∀ staged, s.system.preferredJuditVersion requestId = some staged →
      enabled' = enabled ∧ (s₁.Shows u staged.processId → s.Shows u staged.processId))
    (hs : s.finalize u f enabled' jobId now unlinked = some s') : s.Idle s' := by
  obtain ⟨hnone, hpending⟩ | hselected := (h.rereads f hf hrequest).2
  · unfold Store.finalize at hs
    rw [hnone, hpending] at hs
    cases hs
  by_cases hfields : ∀ staged, s₁.system.preferredJuditVersion f.run.requestId = some staged →
      staged.responseData = none
  · exact idle_of_unavailable (unavailable_of_select hselected hfields) hs
  -- the version is finalized, and what the run applies is its own
  push Not at hfields
  obtain ⟨staged, hpreferred, hdata⟩ := hfields
  obtain ⟨fields, hdata⟩ := Option.ne_none_iff_exists'.1 hdata
  obtain ⟨hunavailable, hselection⟩ :=
    (h.rereads f hf hrequest).selected hselected hpreferred hdata
  rw [hrequest] at hpreferred
  obtain ⟨⟨hfinalized, reads₁, hreads₁, hnext⟩, hprocess, hrow, henqueued⟩ :=
    h.finished staged fields hpreferred hdata
  obtain ⟨v, hv, hfinal⟩ := hfinalized
  obtain ⟨promoted, t, reads, hpromote, hreads, hwrite⟩ :=
    finalize_eq_some hunavailable hselection hs
  rw [promote_of_finalized (hrow.trans hv) hfinal hselection rfl now] at hpromote
  obtain ⟨rfl, rfl⟩ := Prod.mk.inj (Except.ok.inj hpromote)
  rw [attachments_fields, hprocess] at hreads
  -- it asks for the first run's job, or for none
  obtain ⟨rfl, hshows⟩ :=
    hquiet staged ((preferredJuditVersion_congr h.versions).trans hpreferred)
  obtain ⟨hattachments, hreusable⟩ := reusable_again hshows hreads₁ hreads
  rw [hrequest] at hwrite
  replace hwrite : s.write unlinked requestId (s.planAgain requestId staged reads) jobId now = some s' :=
    hwrite
  refine idle_of_write hwrite fun new hnew => ?_
  rw [planAgain_congr h.codes hprocess hrow ⟨v, hv, hfinal⟩] at hnew
  rcases next_again (s₁.archive staged) requestId (s₁.codes staged.processId) (s₁.version staged)
    _ hattachments hreusable with hno | hsame
  · rw [Store.planAgain, hno] at hnew
    cases hnew
  · exact henqueued new (hnext new (hsame.symm.trans hnew))

end Settled

/-! ## §7. What a finalization does. -/

section Promote

variable {u : Unicode} {s s' t : Store} {f : Finalizer} {staged : Staging} {a : Prepared}
  {promoted : Bool} {now : Timestamp}

/-- **`finalize_version` answers whether the version is the current one** when
it returns. -/
theorem promoted_eq_current {w : Platform} {p p' : ProcessRecords} {versionId : Uuid}
    {fields : SemanticFields} (hids : (p.versions.map VersionRow.id).Nodup)
    (hcurrent : ∀ c, p.process.currentVersionId = some c →
      ∃ v ∈ p.versions, v.id = c ∧ v.finalized = true)
    (h : finalizeVersion w p versionId fields now = .ok (promoted, p')) :
    promoted = (p'.process.currentVersionId == some versionId) := by
  obtain ⟨candidate, hfind, houtcome⟩ := finalizeVersion_eq_ok h
  have hid : candidate.id = versionId := by simpa using List.find?_some hfind
  -- an open version is not the current one
  have hother : candidate.finalized = false →
      (p.process.currentVersionId == some versionId) = false := by
    intro hopen
    rw [beq_eq_false_iff_ne]
    intro heq
    obtain ⟨v, hv, hvid, hfinal⟩ := hcurrent _ heq
    obtain rfl := List.inj_on_of_nodup_map hids hv (List.mem_of_find?_eq_some hfind)
      (hvid.trans hid.symm)
    rw [hopen] at hfinal
    cases hfinal
  rcases houtcome with ⟨hfinal, rfl⟩ | ⟨hopen, -, rfl, hmarked⟩ | ⟨hopen, -, hwritten⟩
  · rw [finalizeVersion_of_finalized hfind hfinal] at h
    exact (Prod.mk.inj (Except.ok.inj h)).1.symm
  · obtain ⟨-, hprocess, -, -⟩ := markEquivalent_eq_ok hmarked
    rw [hprocess, hother hopen]
  · obtain ⟨-, -, -, hpromoted, hstale⟩ := writeVersion_eq_ok hwritten
    cases promoted with
    | true => simp [processColumns_currentVersionId (hpromoted rfl).1, hid]
    | false => rw [hstale rfl, hother hopen]

/-- What promoting a version leaves. -/
structure Promoted (u : Unicode) (s t : Store) (staged : Staging) (promoted : Bool) : Prop where
  rest : ∃ system updatedAt, t = { s with system := system, updatedAt := updatedAt }
  wellFormed : WellFormed u.toPython t.system
  stagings : t.system.stagings = s.system.stagings
  others : ∀ q, q ≠ staged.processId → t.system.processes q = s.system.processes q
  finalized : ∃ v, t.versionRow? staged = some v ∧ v.finalized = true
  answer : promoted =
    ((t.system.processes staged.processId).process.currentVersionId == some staged.versionId)

/-- **What the promotion leaves**, of the version that was selected. -/
theorem promote_eq_ok (hwf : WellFormed u.toPython s.system)
    (hselected : f.run.selected = some (staged, a))
    (h : s.promote u f.run staged a now = .ok (promoted, t)) : Promoted u s t staged promoted := by
  unfold Store.promote at h
  obtain ⟨⟨answer, records⟩, hfinalize, h⟩ := bind_eq_ok.1 h
  obtain ⟨system, hcommit, h⟩ := bind_eq_ok.1 h
  obtain ⟨rfl, rfl⟩ := Prod.mk.inj (Except.ok.inj h)
  have hwf' := hwf.commit hcommit
  unfold System.commit at hcommit
  rw [hselected] at hcommit
  obtain ⟨finalized, hfinalize', hcommit⟩ := bind_eq_ok.1 hcommit
  obtain rfl := Except.ok.inj (hfinalize.symm.trans hfinalize')
  obtain ⟨provenance, -, hcommit⟩ := bind_eq_ok.1 hcommit
  obtain rfl := Except.ok.inj hcommit
  obtain ⟨-, -, v, hv, hvid, hfinal⟩ :=
    finalizeVersion_versions (hwf.versionIds staged.processId) hfinalize
  have hself : ∀ records, Function.update s.system.processes staged.processId records
      staged.processId = records := fun records => Function.update_self ..
  refine ⟨⟨_, _, rfl⟩, hwf', rfl, fun q hq => Function.update_of_ne hq _ _, ?_, ?_⟩
  · unfold Store.versionRow?
    simp only [hself]
    cases hfind : records.versions.find? fun w => w.id == staged.versionId with
    | none => simpa [hvid] using List.find?_eq_none.1 hfind v hv
    | some w =>
        have hids : (records.versions.map VersionRow.id).Nodup := by
          have hnodup := hwf'.versionIds staged.processId
          simpa only [hself] using hnodup
        obtain rfl := List.inj_on_of_nodup_map hids (List.mem_of_find?_eq_some hfind) hv
          ((by simpa using List.find?_some hfind : w.id = staged.versionId).trans hvid.symm)
        exact ⟨w, rfl, hfinal⟩
  · simp only [hself]
    exact promoted_eq_current (hwf.versionIds _) (hwf.current _) hfinalize

/-- A job of a plan has a key. -/
theorem next_key_isSome {archive : Archive} {requestId code : String} {v : Version}
    {reads : FinalizeReads} {new : NewJob}
    (h : (finalizedPlan archive requestId code v reads promoted).next = some new) :
    new.idempotencyKey.isSome = true := by
  unfold finalizedPlan at h
  simp only at h
  repeat' split at h
  all_goals first
    | (obtain rfl := Option.some.inj h; rfl)
    | cases h

end Promote

/-! ## §8. What the first run leaves. -/

section First

variable {u : Unicode} {s s' : Store} {f : Finalizer} {enabled : Bool} {jobId : Uuid}
  {now : Timestamp} {unlinked : List Uuid} {i : Nat}

/-- A finalization keeps the invariant, the staged data and the jobs. -/
theorem finalize_keeps (hwf : WellFormed u.toPython s.system)
    (h : s.finalize u f enabled jobId now unlinked = some s') :
    WellFormed u.toPython s'.system ∧ s'.system.stagings = s.system.stagings ∧
      s'.codes = s.codes ∧ s'.runs = s.runs ∧ NotPurged s.jobs s'.jobs ∧
      ∀ q, (∀ staged a, f.run.selected = some (staged, a) → staged.processId ≠ q) →
        s'.system.processes q = s.system.processes q := by
  cases hunavailable : f.unavailable with
  | some errorCode =>
      unfold Store.finalize at h
      rw [hunavailable] at h
      obtain ⟨requests, jobs, rfl, -, hjobs, -⟩ := write_eq_some h
      exact ⟨hwf, rfl, rfl, rfl, hjobs, fun _ _ => rfl⟩
  | none =>
      cases hselected : f.run.selected with
      | none =>
          unfold Store.finalize at h
          rw [hunavailable, hselected] at h
          cases h
      | some selected =>
          obtain ⟨staged, a⟩ := selected
          obtain ⟨promoted, t, reads, hpromote, -, hwrite⟩ :=
            finalize_eq_some hunavailable hselected h
          have hp := promote_eq_ok hwf hselected hpromote
          obtain ⟨system, updatedAt, rfl⟩ := hp.rest
          obtain ⟨requests, jobs, rfl, -, hjobs, -⟩ := write_eq_some hwrite
          exact ⟨hp.wellFormed, hp.stagings, rfl, rfl, hjobs,
            fun q hq => hp.others q (hq staged a rfl).symm⟩

/-- **A run that ends well leaves its version finalized and its job enqueued.** -/
theorem finished_of_finalize {staged : Staging} {fields : SemanticFields}
    (hwf : WellFormed u.toPython s.system) (huptodate : s.UpToDate f)
    (hpreferred : s.system.preferredJuditVersion f.run.requestId = some staged)
    (hfields : staged.responseData = some fields)
    (h : s.finalize u f enabled jobId now unlinked = some s') :
    s'.Finished u f.run.requestId enabled staged fields := by
  obtain ⟨hunavailable, hsame⟩ := huptodate
  replace hunavailable : f.unavailable = none := by
    rw [hunavailable]
    unfold Store.select
    simp only [hpreferred, hfields]
    rfl
  rw [select_selected hpreferred hfields] at hsame
  obtain ⟨⟨chosen, a⟩, hselected, heq⟩ := Option.map_eq_some_iff.1 hsame
  obtain ⟨hchosen, hdata⟩ := Prod.mk.inj heq
  obtain rfl : staged = chosen := hchosen.symm
  replace hdata : a.juditFields = fields := Option.some.inj (hdata.trans hfields)
  obtain ⟨promoted, t, reads, hpromote, hreads, hwrite⟩ :=
    finalize_eq_some hunavailable hselected h
  have hp := promote_eq_ok hwf hselected hpromote
  obtain ⟨requests, jobs, rfl, -, -, henqueued, -⟩ := write_eq_some hwrite
  rw [attachments_fields, hdata, hp.answer] at hreads
  refine ⟨hp.finalized, reads, hreads, fun new hnew => ?_⟩
  have hplan : (finalizedPlan (t.archive staged) f.run.requestId (t.codes staged.processId)
      (t.version staged) reads promoted).next = some new := by
    rw [hp.answer]
    exact hnew
  exact henqueued new hplan (next_key_isSome hplan)

/-- **A run that commits leaves a settled store.** -/
theorem settled_of_finalize (hwf : WellFormed u.toPython s.system)
    (huptodate : s.UpToDate f) (halone : s.Alone i f.run.requestId)
    (h : s.finalize u f enabled jobId now unlinked = some s') :
    Settled u f.run.requestId enabled (s'.endRun i) (s'.endRun i) := by
  obtain ⟨hwf', hstagings, -, hruns, -⟩ := finalize_keeps hwf h
  refine ⟨hwf', rfl, rfl, fun g hg hrequest => ?_, fun staged fields hpreferred hfields =>
    ⟨?_, rfl, rfl, fun _ hnew => hnew⟩⟩
  · -- no other run of the request was under way
    have hg' : g ∈ s.runs.eraseIdx i := hruns ▸ hg
    exact absurd hrequest (halone g hg')
  · have hversions :
        versionsOf s'.system f.run.requestId = versionsOf s.system f.run.requestId := by
      unfold versionsOf
      rw [hstagings]
    have hpreferred' := (preferredJuditVersion_congr hversions).symm.trans hpreferred
    obtain ⟨hfinalized, henqueued⟩ :=
      finished_of_finalize hwf huptodate hpreferred' hfields h
    exact ⟨hfinalized, henqueued⟩

end First

/-! ## §9. Everything quiet. -/

section Quiet

variable {u : Unicode} {s s' s₁ : Store} {requestId : String} {enabled : Bool}

/-- What does not touch the processes keeps a request settled, if its runs
reread and its jobs stay. -/
theorem Settled.frame (h : Settled u requestId enabled s₁ s) (hsystem : s'.system = s.system)
    (hcodes : s'.codes = s.codes)
    (hruns : ∀ f ∈ s'.runs, f.run.requestId = requestId → f ∈ s.runs ∨ s₁.Rereads f)
    (hjobs : NotPurged s.jobs s'.jobs) : Settled u requestId enabled s₁ s' where
  wellFormed := hsystem ▸ h.wellFormed
  codes := hcodes.trans h.codes
  versions := by rw [hsystem]; exact h.versions
  rereads := by
    intro f hf hrequest
    rcases hruns f hf hrequest with hold | hnew
    · exact h.rereads f hold hrequest
    · exact hnew
  finished := by
    intro staged fields hpreferred hfields
    obtain ⟨hfinished, hprocess, hrow, henqueued⟩ := h.finished staged fields hpreferred hfields
    refine ⟨hfinished, by rw [hsystem]; exact hprocess, ?_, fun new hnew => ?_⟩
    · unfold Store.versionRow? at *
      rw [hsystem]
      exact hrow
    · exact (henqueued new hnew).of_notPurged hjobs

/-- What prepares a settled request prepares the version's own data. -/
theorem Settled.prepare (h : Settled u requestId enabled s₁ s) (answer : Option DataJudMetadata) :
    (s.system.prepare requestId answer).prepared =
      (s₁.system.prepare requestId none).prepared := by
  have hsame := preferredJuditVersion_congr h.versions
  cases hpreferred : s₁.system.preferredJuditVersion requestId with
  | none =>
      unfold System.prepare
      simp only [hsame, hpreferred]
      rfl
  | some staged =>
      rw [hpreferred] at hsame
      cases hfields : staged.responseData with
      | none =>
          have hnone : ∀ t : System, t.preferredJuditVersion requestId = some staged →
              ∀ answer, (t.prepare requestId answer).prepared = none := by
            intro t ht answer
            show (t.preferredJuditVersion requestId).bind _ = none
            rw [ht]
            show staged.responseData.bind _ = none
            rw [hfields]
            rfl
          rw [hnone _ hsame, hnone _ hpreferred]
      | some fields =>
          obtain ⟨⟨⟨v, hv, hfinal⟩, -⟩, -, hrow, -⟩ := h.finished staged fields hpreferred hfields
          rw [prepare_prepared hsame hfields, prepare_prepared hpreferred hfields, ite_self,
            if_pos (.inl (isFinalized_of_versionRow (hrow.trans hv) hfinal))]

/-- What selects for a settled request selects as it was. -/
theorem Settled.select {f : Finalizer} (h : Settled u requestId enabled s₁ s)
    (hrequest : f.run.requestId = requestId) : s.select f = s₁.select f := by
  unfold Store.select System.select
  rw [hrequest, preferredJuditVersion_congr h.versions]

/-- Staging leaves the rows of the versions there are. -/
theorem versionRow_stage {new staged : Staging} {system : System} {v : VersionRow}
    (h : s.system.stage new = some system) (hrow : s.versionRow? staged = some v) :
    { s with system := system : Store }.versionRow? staged = some v := by
  unfold Store.versionRow? at *
  rcases System.stage_cases h with rfl | ⟨old, rfl⟩ | ⟨-, rfl⟩
  · exact hrow
  · exact hrow
  · by_cases hp : staged.processId = new.processId
    · simp only [hp, Function.update_self]
      rw [hp] at hrow
      rw [List.find?_append, hrow]
      rfl
    · simp only [Function.update_of_ne hp]
      exact hrow

/-- Another request finalizes a version of another process. -/
theorem Settled.other {f : Finalizer} {attachmentsEnabled : Bool} {jobId : Uuid} {now : Timestamp}
    {unlinked : List Uuid} (h : Settled u requestId enabled s₁ s)
    (hother : ∀ staged, s.system.preferredJuditVersion requestId = some staged →
      ∀ other a, f.run.selected = some (other, a) → other.processId ≠ staged.processId)
    (hs : s.finalize u f attachmentsEnabled jobId now unlinked = some s') :
    Settled u requestId enabled s₁ s' := by
  obtain ⟨hwf, hstagings, hcodes, hruns, hjobs, hprocesses⟩ := finalize_keeps h.wellFormed hs
  refine ⟨hwf, hcodes.trans h.codes, ?_, hruns ▸ h.rereads, ?_⟩
  · rw [← h.versions]
    unfold versionsOf
    rw [hstagings]
  intro staged fields hpreferred hfields
  obtain ⟨hfinished, hprocess, hrow, henqueued⟩ := h.finished staged fields hpreferred hfields
  have hpreferred' := (preferredJuditVersion_congr h.versions).trans hpreferred
  have hsame := hprocesses staged.processId (hother staged hpreferred')
  refine ⟨hfinished, by rw [hsame]; exact hprocess, ?_, fun new hnew => ?_⟩
  · unfold Store.versionRow? at *
    rw [hsame]
    exact hrow
  · exact (henqueued new hnew).of_notPurged hjobs

/-- **A quiet event keeps a request settled.** -/
theorem Settled.step {e : Event} (h : Settled u requestId enabled s₁ s)
    (he : s₁.Quiet u requestId enabled s e) (hs : s.step u e = some s') :
    Settled u requestId enabled s₁ s' := by
  cases e with
  | stage version =>
      obtain ⟨system, hstage, rfl⟩ := Option.map_eq_some_iff.1 hs
      refine ⟨h.wellFormed.stage hstage, h.codes, (he.1 system hstage).trans h.versions, h.rereads,
        ?_⟩
      intro staged fields hpreferred hfields
      obtain ⟨hfinished, hprocess, hrow, henqueued⟩ := h.finished staged fields hpreferred hfields
      -- The version staged is another one, since the finished version has its row.
      obtain ⟨v, hv, -⟩ := hfinished.finalized
      refine ⟨hfinished, ((System.stage_process hstage).1 _).trans hprocess, ?_, henqueued⟩
      rw [versionRow_stage hstage (hrow.trans hv), hv]
  | begin other answer =>
      obtain rfl := Option.some.inj hs
      -- A run that begins prepares the same plan as the runs of the request before it.
      refine h.frame rfl rfl (fun f hf hrequest => ?_) fun j hj => ⟨j, hj, rfl, rfl⟩
      rcases List.mem_append.1 hf with hold | hnew
      · exact .inl hold
      · obtain rfl := List.mem_singleton.1 hnew
        obtain rfl : other = requestId := hrequest
        exact .inr ⟨h.prepare answer, .inl ⟨rfl, rfl⟩⟩
  | select i =>
      obtain ⟨f, hf, rfl⟩ := Option.map_eq_some_iff.1 hs
      refine h.frame rfl rfl (fun g hg hrequest => ?_) fun j hj => ⟨j, hj, rfl, rfl⟩
      rcases List.mem_or_eq_of_mem_set hg with hold | rfl
      · exact .inl hold
      · have hrequest' : f.run.requestId = requestId := hrequest
        rw [h.select hrequest']
        exact .inr ⟨(h.rereads f (List.mem_of_getElem? hf) hrequest').1, .inr rfl⟩
  | commit i attachmentsEnabled jobId now unlinked =>
      obtain ⟨f, hf, rfl⟩ := Option.map_eq_some_iff.1 hs
      cases hfinalize : s.finalize u f attachmentsEnabled jobId now unlinked with
      | none =>
          exact h.frame rfl rfl (fun g hg _ => .inl (List.mem_of_mem_eraseIdx hg))
            fun j hj => ⟨j, hj, rfl, rfl⟩
      | some t =>
          have hkept : Settled u requestId enabled s₁ t := by
            by_cases hrequest : f.run.requestId = requestId
            -- A second transaction of the request itself writes nothing.
            · have hidle := h.idle (List.mem_of_getElem? hf) hrequest
                (fun staged => he.2 f staged hf hrequest) hfinalize
              obtain ⟨-, -, -, hruns, hjobs, -⟩ := finalize_keeps h.wellFormed hfinalize
              exact h.frame hidle.system hidle.codes (fun g hg _ => .inl (hruns ▸ hg)) hjobs
            -- The transaction of another request leaves the finished version alone, by `he`.
            · exact h.other
                (fun staged hpreferred other a => he.1 f staged other a hf hrequest hpreferred)
                hfinalize
          exact hkept.frame rfl rfl (fun g hg _ => .inl (List.mem_of_mem_eraseIdx hg))
            fun j hj => ⟨j, hj, rfl, rfl⟩
  | crash i =>
      obtain ⟨f, -, rfl⟩ := Option.map_eq_some_iff.1 hs
      exact h.frame rfl rfl (fun g hg _ => .inl (List.mem_of_mem_eraseIdx hg))
        fun j hj => ⟨j, hj, rfl, rfl⟩
  | publish published =>
      obtain rfl := Option.some.inj hs
      exact h.frame rfl rfl (fun g hg _ => .inl hg) fun j hj => ⟨j, hj, rfl, rfl⟩
  | elsewhere acquisitions requests jobs =>
      obtain rfl := Option.some.inj hs
      exact h.frame rfl rfl (fun g hg _ => .inl hg) he.1

/-- Every event keeps the invariant of the processes. -/
theorem wellFormed_step {e : Event} (h : WellFormed u.toPython s.system)
    (hs : s.step u e = some s') : WellFormed u.toPython s'.system := by
  cases e with
  | stage version =>
      obtain ⟨system, hstage, rfl⟩ := Option.map_eq_some_iff.1 hs
      exact h.stage hstage
  | begin other answer =>
      obtain rfl := Option.some.inj hs
      exact h
  | select i =>
      obtain ⟨f, -, rfl⟩ := Option.map_eq_some_iff.1 hs
      exact h
  | commit i attachmentsEnabled jobId now unlinked =>
      obtain ⟨f, -, rfl⟩ := Option.map_eq_some_iff.1 hs
      cases hfinalize : s.finalize u f attachmentsEnabled jobId now unlinked with
      | none => exact h
      | some t => exact (finalize_keeps h hfinalize).1
  | crash i =>
      obtain ⟨f, -, rfl⟩ := Option.map_eq_some_iff.1 hs
      exact h
  | publish published =>
      obtain rfl := Option.some.inj hs
      exact h
  | elsewhere acquisitions requests jobs =>
      obtain rfl := Option.some.inj hs
      exact h

/-- Every store that is reached is well formed. -/
theorem wellFormed_of_reachable {codes : Uuid → String}
    (h : Reachable (Store.step u) { codes := codes } s) : WellFormed u.toPython s.system := by
  induction h with
  | start => exact wellFormed_init _
  | next _ _ he ih => exact wellFormed_step ih he

end Quiet

/-! ## §10. Any number of times. -/

/-- **A finalization that is run again changes nothing.**  After a run that
came to its end, up to date and with no other run of the request under way,
and after everything quiet, a run of the request leaves the processes, their
versions and steps and the jobs as they are, and no public request is moved
to an earlier status. -/
theorem idle_of_retry {u : Unicode} {codes : Uuid → String} {s s₁ s₂ s₃ : Store}
    {i j : Nat} {f g : Finalizer} {enabled enabled' : Bool} {jobId : Uuid} {now : Timestamp}
    {unlinked : List Uuid}
    (hs : Reachable (Store.step u) { codes := codes } s)
    (hfirst : s.Finalizes u i f enabled s₁) (huptodate : s.UpToDate f)
    (halone : s.Alone i f.run.requestId)
    (hbetween : Reach (Store.step u) (s₁.Quiet u f.run.requestId enabled) s₁ s₂)
    (hg : s₂.runs[j]? = some g) (hagain : g.run.requestId = f.run.requestId)
    (hquiet : s₁.Quiet u f.run.requestId enabled s₂ (.commit j enabled' jobId now unlinked))
    (hstep : s₂.step u (.commit j enabled' jobId now unlinked) = some s₃) : s₂.Idle s₃ := by
  have hwf := wellFormed_of_reachable hs
  obtain ⟨jobId₁, now₁, unlinked₁, hf, hok, hcommit⟩ := hfirst
  obtain ⟨t, ht⟩ := Option.isSome_iff_exists.1 hok
  have hs₁ : s₁ = t.endRun i := by
    obtain ⟨f', hf', rfl⟩ := Option.map_eq_some_iff.1 hcommit
    obtain rfl := Option.some.inj (hf.symm.trans hf')
    rw [ht]
  subst hs₁
  have hsettled : Settled u f.run.requestId enabled (t.endRun i) s₂ :=
    hbetween.invariant (settled_of_finalize hwf huptodate halone ht)
      fun _ _ _ h he hs => h.step he hs
  -- the run that is over, whether it raised or not, wrote statuses
  obtain ⟨g', hg', rfl⟩ := Option.map_eq_some_iff.1 hstep
  obtain rfl := Option.some.inj (hg.symm.trans hg')
  cases hfinalize : s₂.finalize u g enabled' jobId now unlinked with
  | none => exact ⟨rfl, rfl, rfl, rfl, .refl _⟩
  | some s' =>
      obtain ⟨hsystem, hcodes, hupdated, hjobs, hrequests⟩ :=
        hsettled.idle (List.mem_of_getElem? hg) hagain
          (fun staged => hquiet.2 g staged hg hagain) hfinalize
      exact ⟨hsystem, hcodes, hupdated, hjobs, hrequests⟩

/-! ## §11. Runs that are not idle. -/

/-- No process has a version yet. -/
def emptyStore : Store where
  codes := fun _ => sampleCode

/-- A run of the sample request, up to its commit. -/
def runEvents : List Event := [.begin "pedido" none, .select 0]

/-- What a run of the sample request leads to, and another one after it. -/
def retry (before between : List Event) (enabled enabled' : Bool) :
    Option (Store × Store × Store × Store) := do
  let s ← run (Store.step .ascii) emptyStore before
  let s₁ ← s.step .ascii (.commit 0 enabled 100 1000)
  let s₂ ← run (Store.step .ascii) s₁ (between ++ runEvents)
  let s₃ ← s₂.step .ascii (.commit 0 enabled' 200 2000)
  return (s, s₁, s₂, s₃)

/-- The only run under way is one of the sample request. -/
def Store.Lone (s : Store) : Prop :=
  s.runs.map (fun f => f.run.requestId) = ["pedido"]

instance (s : Store) : Decidable s.Lone :=
  inferInstanceAs (Decidable (_ = _))

/-- One run is open. -/
theorem Store.Lone.only {s : Store} (h : s.Lone) :
    ∃ f, s.runs = [f] ∧ f.run.requestId = "pedido" := by
  unfold Store.Lone at h
  obtain ⟨f, hf, hrequest⟩ := List.map_eq_singleton_iff.1 h
  exact ⟨f, hf, hrequest⟩

/-- The two runs of a retry. -/
theorem retry_eq_some {before between : List Event} {enabled enabled' : Bool}
    {s s₁ s₂ s₃ : Store} (h : retry before between enabled enabled' = some (s, s₁, s₂, s₃))
    (hlone : s.Lone) (hlone₂ : s₂.Lone)
    (hok : (s.runs[0]?.bind fun f => s.finalize .ascii f enabled 100 1000 []).isSome = true) :
    Reachable (Store.step .ascii) emptyStore s ∧
      (∃ f, f.run.requestId = "pedido" ∧ s.runs[0]? = some f ∧
        s.Finalizes .ascii 0 f enabled s₁ ∧ s.Alone 0 f.run.requestId) ∧
      run (Store.step .ascii) s₁ (between ++ runEvents) = some s₂ ∧
      (∃ g, g.run.requestId = "pedido" ∧ s₂.runs[0]? = some g) ∧
      s₂.step .ascii (.commit 0 enabled' 200 2000) = some s₃ := by
  obtain ⟨t, hbefore, h⟩ := Option.bind_eq_some_iff.1 h
  obtain ⟨t₁, hfirst, h⟩ := Option.bind_eq_some_iff.1 h
  obtain ⟨t₂, hbetween, h⟩ := Option.bind_eq_some_iff.1 h
  obtain ⟨t₃, hagain, h⟩ := Option.bind_eq_some_iff.1 h
  obtain ⟨rfl, rfl, rfl, rfl⟩ : t = s ∧ t₁ = s₁ ∧ t₂ = s₂ ∧ t₃ = s₃ := by
    simpa using Option.some.inj h
  obtain ⟨f, hruns, hrequest⟩ := hlone.only
  obtain ⟨g, hruns₂, hrequest₂⟩ := hlone₂.only
  have hf : t.runs[0]? = some f := by rw [hruns]; rfl
  rw [hf] at hok
  refine ⟨reachable_of_run hbefore,
    ⟨f, hrequest, hf, ⟨_, _, _, hf, hok, hfirst⟩, fun other hother => ?_⟩, hbetween,
    ⟨g, hrequest₂, by rw [hruns₂]; rfl⟩, hagain⟩
  rw [hruns] at hother
  cases hother

/-- One response, and two runs. -/
theorem retry_response :
    ∃ r ∈ retry (.stage response :: runEvents) [] false false,
      r.1.Lone ∧ r.2.2.1.Lone ∧
        (r.1.runs[0]?.bind fun f => r.1.finalize .ascii f false 100 1000 []).isSome = true ∧
        (r.1.runs[0]?.all fun f => decide (r.1.UpToDate f)) = true ∧
        ¬ r.2.1.Shows .ascii 10 ∧
        (r.2.2.1.system.preferredJuditVersion "pedido").all fun v => v.processId == 10 := by
  decide +kernel

/-- The second run is idle. -/
theorem idle_of_retry_response :
    ∃ r ∈ retry (.stage response :: runEvents) [] false false, r.2.2.1.Idle r.2.2.2 := by
  obtain ⟨⟨s, s₁, s₂, s₃⟩, hretry, hlone, hlone₂, hok, huptodate, hshows, hprocess⟩ :=
    retry_response
  obtain ⟨hs, ⟨f, hf, hrun, hfirst, halone⟩, hbetween, ⟨g, hg, hg₂⟩, hagain⟩ :=
    retry_eq_some hretry hlone hlone₂ hok
  have hguarded : Guarded (Store.step .ascii) (s₁.Quiet .ascii f.run.requestId false) s₁
      ([] ++ runEvents) :=
    fun _ _ => ⟨⟨trivial, trivial⟩, fun _ _ => ⟨⟨trivial, trivial⟩, trivial⟩⟩
  refine ⟨_, hretry, idle_of_retry hs hfirst ?_ halone (reach_of_guarded hguarded hbetween) hg₂
    (hg.trans hf.symm) ⟨?_, ?_⟩ hagain⟩
  · simp only at huptodate
    rw [hrun] at huptodate
    simpa using huptodate
  · intro f' staged other a hf' hne
    obtain rfl := Option.some.inj (hg₂.symm.trans hf')
    exact absurd (hg.trans hf.symm) hne
  · intro f' staged _ _ hpreferred
    refine ⟨rfl, fun hshown => absurd hshown ?_⟩
    simp only at hprocess
    rw [← hf, hpreferred] at hprocess
    rw [show staged.processId = 10 by simpa using hprocess]
    exact hshows

/-- A second response of the request, with another class. -/
def newerResponse : Staging :=
  { response with
    versionId := 2
    sourceRequestId := some "resposta-2"
    createdAt := 6
    responseData := some { header := [], className := .str "Execução" } }

/-- A response that is staged while a run has its transaction open is found by
the next run, and promoted. -/
theorem retry_overtaken :
    ∃ r ∈ retry (.stage response :: runEvents ++ [.stage newerResponse]) [] false false,
      r.1.Lone ∧ r.2.2.1.Lone ∧
        (r.1.runs[0]?.bind fun f => r.1.finalize .ascii f false 100 1000 []).isSome = true ∧
        (r.2.2.2.system.processes 10).process.currentVersionId ≠
          (r.2.2.1.system.processes 10).process.currentVersionId := by
  decide +kernel

/-- **A run after another one can write**, although nothing was staged between
the two, no other request was finalized and no job was purged. -/
theorem not_idle_of_undisturbed :
    ¬ ∀ (u : Unicode) (codes : Uuid → String) (s s₁ s₂ s₃ : Store) (i j : Nat) (f g : Finalizer)
      (enabled enabled' : Bool) (jobId : Uuid) (now : Timestamp),
      Reachable (Store.step u) { codes := codes } s → s.Finalizes u i f enabled s₁ →
      s.Alone i f.run.requestId →
      Reach (Store.step u) (Store.Undisturbed f.run.requestId) s₁ s₂ →
      s₂.runs[j]? = some g → g.run.requestId = f.run.requestId →
      s₂.step u (.commit j enabled' jobId now) = some s₃ → s₂.Idle s₃ := by
  intro h
  obtain ⟨⟨s, s₁, s₂, s₃⟩, hretry, hlone, hlone₂, hok, hmoved⟩ := retry_overtaken
  obtain ⟨hs, ⟨f, hf, -, hfirst, halone⟩, hbetween, ⟨g, hg, hg₂⟩, hagain⟩ :=
    retry_eq_some hretry hlone hlone₂ hok
  have hguarded : Guarded (Store.step .ascii) (Store.Undisturbed f.run.requestId) s₁
      ([] ++ runEvents) := fun _ _ => ⟨trivial, fun _ _ => ⟨trivial, trivial⟩⟩
  have hidle : s₂.Idle s₃ := h _ _ _ _ _ _ _ _ _ _ _ _ _ _ hs hfirst halone
    (reach_of_guarded hguarded hbetween) hg₂ (hg.trans hf.symm) hagain
  exact hmoved (by rw [hidle.system])

/-- A second run of the request has selected the first response when the newer
one is staged. -/
def besideEvents : List Event :=
  [.stage response, .begin "pedido" none, .begin "pedido" none, .select 1, .stage newerResponse,
    .select 0]

/-- The runs beside each other, step by step. -/
theorem retry_beside :
    ∃ s ∈ run (Store.step .ascii) emptyStore besideEvents,
      ∃ s₁ ∈ s.step .ascii (.commit 0 false 100 1000),
        ∃ s₃ ∈ s₁.step .ascii (.commit 0 false 200 2000),
          s.runs.map (fun f => f.run.requestId) = ["pedido", "pedido"] ∧ s₁.Lone ∧
            (s.runs[0]?.bind fun f => s.finalize .ascii f false 100 1000 []).isSome = true ∧
            (s.runs[0]?.all fun f => decide (s.UpToDate f)) = true ∧
            (s₃.system.processes 10).versions ≠ (s₁.system.processes 10).versions := by
  decide +kernel

/-- **So can a run that was under way beside the first one**: it finalizes the
version that it had selected before. -/
theorem not_idle_of_beside :
    ¬ ∀ (u : Unicode) (codes : Uuid → String) (s s₁ s₂ s₃ : Store) (i j : Nat) (f g : Finalizer)
      (enabled enabled' : Bool) (jobId : Uuid) (now : Timestamp),
      Reachable (Store.step u) { codes := codes } s → s.Finalizes u i f enabled s₁ →
      s.UpToDate f → Reach (Store.step u) (s₁.Quiet u f.run.requestId enabled) s₁ s₂ →
      s₂.runs[j]? = some g → g.run.requestId = f.run.requestId →
      s₁.Quiet u f.run.requestId enabled s₂ (.commit j enabled' jobId now) →
      s₂.step u (.commit j enabled' jobId now) = some s₃ → s₂.Idle s₃ := by
  intro h
  obtain ⟨s, hs, s₁, hfirst, s₃, hagain, hruns, hlone, hok, huptodate, hmoved⟩ := retry_beside
  obtain ⟨f, rest, hlist, hrequest, -⟩ := List.map_eq_cons_iff.1 hruns
  obtain ⟨g, hg, hrequest'⟩ := hlone.only
  have hf : s.runs[0]? = some f := by rw [hlist]; rfl
  have hg₁ : s₁.runs[0]? = some g := by rw [hg]; rfl
  rw [hf] at hok huptodate
  have hidle : s₁.Idle s₃ := h _ _ _ _ _ _ _ _ _ _ _ _ _ _ (reachable_of_run hs)
    ⟨_, _, _, hf, hok, hfirst⟩ (by simpa using huptodate) .start hg₁
    (hrequest'.trans hrequest.symm) ⟨fun f' _ _ _ hf' hne => ?_, fun _ _ _ _ _ => ⟨rfl, id⟩⟩ hagain
  · exact hmoved (by rw [hidle.system])
  · obtain rfl := Option.some.inj (hg₁.symm.trans hf')
    exact absurd (hrequest'.trans hrequest.symm) hne

/-- The response with an attachment. -/
def attachedResponse : Staging :=
  { response with
    responseData := some { header := [], attachments := [{ attachmentId := "anexo" }] } }

/-- **The attachments switch matters as well**: a run that finds it on enqueues
the job of the attachments that the first run left. -/
theorem retry_enqueues :
    ∃ r ∈ retry (.stage attachedResponse :: runEvents) [] false true,
      (r.1.runs[0]?.all fun f => decide (r.1.UpToDate f)) = true ∧
        r.2.2.2.jobs ≠ r.2.2.1.jobs := by
  decide +kernel

/-- A response of another request about a process under secrecy, -/
def sealedResponse : Staging :=
  { response with
    juditRequestId := some "outro"
    responseData := some { header := [], secrecyLevel := 1 } }

/-- the same one for the request, -/
def sealedAgain : Staging :=
  { sealedResponse with
    versionId := 2
    sourceRequestId := some "resposta-2"
    juditRequestId := some "pedido"
    createdAt := 6 }

/-- the row of the process that the first of them is promoted to, -/
def sealedRow : Publication.ProcessRow where
  id := 10
  code := sampleCode
  secrecyLevel := 1
  currentVersionId := some 1
  updatedAt := 500

/-- and its local summary. -/
def localSummary : Publication.SummaryRow where
  id := 6
  processId := 10
  versionId := 1
  markdown := "# Resumo do processo"
  structuredOutput := Summaries.structuredSummaryDocument .ascii Publication.restrictedSummary
    sealedRow.restricted.context
  validation := .obj [("passed", .bool true)]
  model := Publication.restrictedModel
  promptVersion := Publication.restrictedPromptVersion

/-- What a run reads that finds the summary. -/
def summaryReads : FinalizeReads where
  attachments := false
  reusable := some (Publication.uuidText 6, 500)

/-- The other request is finalized and the summary stored before the request's
own response is staged. -/
def summarizedEvents : List Event :=
  [.stage sealedResponse, .begin "outro" none, .select 0, .commit 0 false 300 500,
    .publish { summaries := [localSummary]
               summary_ids := List.nodup_singleton _
               summary_versions := List.nodup_singleton _ },
    .stage sealedAgain] ++ runEvents

/-- The first run finds the summary. -/
theorem finalizeReads_summarized {t : Store} {staged : Staging} {promoted : Bool}
    (hprocess : staged.processId = 10) (hpromoted : promoted = false)
    (hrow : t.processRow 10 = sealedRow)
    (hsummary : t.published.passedSummary 10 1 = some localSummary) :
    t.finalizeReads .ascii staged [] false promoted = .ok summaryReads := by
  have hlocal : localSummary.isRestrictedLocal .ascii sealedRow = .ok true :=
    Publication.isRestrictedLocal_document (p := sealedRow.restricted) (by decide +kernel)
  have hcomplete : (t.tables 10).completeFromCurrentSummary .ascii 10 =
      .ok (some (localSummary, 500)) := by
    have hfind : (t.tables 10).processes.find? (fun p => p.id == 10) = some sealedRow := by
      show [t.processRow 10].find? _ = _
      rw [hrow]
      rfl
    have hpassed : (sealedRow.currentVersionId.bind ((t.tables 10).passedSummary sealedRow.id)) =
        some localSummary := hsummary
    have hrestricted : sealedRow.isRestricted = true := rfl
    unfold Publication.Tables.completeFromCurrentSummary Publication.Tables.mayBeShown
    rw [hfind]
    simp only [hpassed, hrestricted, hlocal, Except.map, if_true]
    rfl
  unfold Store.finalizeReads
  rw [hprocess, hpromoted, hcomplete]
  rfl

/-- The run of the request that finds the summary, and one after it is gone. -/
structure Hidden where
  before : Store
  run : Finalizer
  staged : Staging
  prepared : Prepared
  promoted : Bool × Store
  first : Store
  between : Store
  again : Store

/-- That run, for what it reads. -/
def hiddenRun (before between : List Event) : Option Hidden := do
  let s ← run (Store.step .ascii) emptyStore before
  let f ← s.runs[0]?
  let (staged, a) ← f.run.selected
  let (promoted, t) ← (s.promote .ascii f.run staged a 1000).toOption
  let s₁ ← t.write [] f.run.requestId (finalizedPlan (t.archive staged) f.run.requestId
    (t.codes staged.processId) (t.version staged) summaryReads promoted) 100 1000
  let s₂ ← run (Store.step .ascii) (s₁.endRun 0) between
  let s₃ ← s₂.step .ascii (.commit 0 false 200 2000)
  return ⟨s, f, staged, a, (promoted, t), s₁.endRun 0, s₂, s₃⟩

/-- If it reads this, it is the run of the model. -/
theorem finalizes_of_hiddenRun {before between : List Event} {r : Hidden}
    (h : hiddenRun before between = some r) (hunavailable : r.run.unavailable = none)
    (hreads : r.promoted.2.finalizeReads .ascii r.staged
      (r.prepared.fields Unicode.ascii.toPython).attachments false r.promoted.1 =
        .ok summaryReads) :
    run (Store.step .ascii) emptyStore before = some r.before ∧ r.before.runs[0]? = some r.run ∧
      r.before.Finalizes .ascii 0 r.run false r.first ∧
      run (Store.step .ascii) r.first between = some r.between ∧
      r.between.step .ascii (.commit 0 false 200 2000) = some r.again := by
  obtain ⟨s, hs, h⟩ := Option.bind_eq_some_iff.1 h
  obtain ⟨f, hf, h⟩ := Option.bind_eq_some_iff.1 h
  obtain ⟨⟨staged, a⟩, hselected, h⟩ := Option.bind_eq_some_iff.1 h
  obtain ⟨⟨promoted, t⟩, hpromote, h⟩ := Option.bind_eq_some_iff.1 h
  obtain ⟨s₁, hwrite, h⟩ := Option.bind_eq_some_iff.1 h
  obtain ⟨s₂, hbetween, h⟩ := Option.bind_eq_some_iff.1 h
  obtain ⟨s₃, hagain, h⟩ := Option.bind_eq_some_iff.1 h
  obtain rfl := Option.some.inj h
  have hfinalize : s.finalize .ascii f false 100 1000 [] = some s₁ :=
    (finalize_of_reads hunavailable hselected (toOption_eq_some hpromote) hreads).trans hwrite
  have hfirst : s.step .ascii (.commit 0 false 100 1000) = some (s₁.endRun 0) := by
    refine Option.map_eq_some_iff.2 ⟨f, hf, ?_⟩
    rw [hfinalize]
  exact ⟨hs, hf, ⟨_, _, _, hf, by rw [hfinalize]; rfl, hfirst⟩, hbetween, hagain⟩

/-- What the run over the hidden process leaves. -/
theorem hiddenRun_facts : ∃ r ∈ hiddenRun summarizedEvents (.publish {} :: runEvents),
    r.before.Lone ∧ r.run.unavailable = none ∧ r.before.UpToDate r.run ∧
      r.staged.processId = 10 ∧ (r.prepared.fields Unicode.ascii.toPython).attachments = [] ∧
      r.promoted.1 = false ∧ r.promoted.2.processRow 10 = sealedRow ∧
      r.promoted.2.published.passedSummary 10 1 = some localSummary ∧ r.between.Lone ∧
      r.again.jobs ≠ r.between.jobs := by
  decide +kernel

/-- **So can a run that finds the summary gone**, with the attachments enabled
as they were: it enqueues the repair of the summary. -/
theorem not_idle_of_hidden :
    ¬ ∀ (u : Unicode) (codes : Uuid → String) (s s₁ s₂ s₃ : Store) (i j : Nat) (f g : Finalizer)
      (enabled : Bool) (jobId : Uuid) (now : Timestamp),
      Reachable (Store.step u) { codes := codes } s → s.Finalizes u i f enabled s₁ →
      s.UpToDate f → s.Alone i f.run.requestId →
      Reach (Store.step u) (Store.Undisturbed f.run.requestId) s₁ s₂ →
      s₂.runs[j]? = some g → g.run.requestId = f.run.requestId →
      s₂.Undisturbed f.run.requestId (.commit j enabled jobId now) →
      s₂.step u (.commit j enabled jobId now) = some s₃ → s₂.Idle s₃ := by
  intro h
  obtain ⟨r, hr, hlone, hunavailable, huptodate, hprocess, hattachments, hpromoted, hrow, hsummary,
    hlone₂, hmoved⟩ := hiddenRun_facts
  obtain ⟨hs, hf, hfirst, hbetween, hagain⟩ := finalizes_of_hiddenRun hr hunavailable
    (hattachments ▸ finalizeReads_summarized hprocess hpromoted hrow hsummary)
  obtain ⟨f, hruns, hrequest⟩ := hlone.only
  obtain ⟨g, hruns₂, hrequest₂⟩ := hlone₂.only
  obtain rfl : f = r.run := by
    rw [hruns] at hf
    exact Option.some.inj hf
  have hg : r.between.runs[0]? = some g := by rw [hruns₂]; rfl
  have halone : r.before.Alone 0 r.run.run.requestId := by
    intro other hother
    rw [hruns] at hother
    cases hother
  have hguarded : Guarded (Store.step .ascii) (Store.Undisturbed r.run.run.requestId) r.first
      (.publish {} :: runEvents) :=
    fun _ _ => ⟨trivial, fun _ _ => ⟨trivial, fun _ _ => ⟨trivial, trivial⟩⟩⟩
  have hidle : r.between.Idle r.again := h _ _ _ _ _ _ _ _ _ _ _ _ _ (reachable_of_run hs) hfirst
    huptodate halone (reach_of_guarded hguarded hbetween) hg (hrequest₂.trans hrequest.symm)
    (fun f' _ _ _ hf' hne => ?_) hagain
  · exact hmoved hidle.jobs
  · obtain rfl := Option.some.inj (hg.symm.trans hf')
    exact absurd (hrequest₂.trans hrequest.symm) hne

end Rpy.Finalization

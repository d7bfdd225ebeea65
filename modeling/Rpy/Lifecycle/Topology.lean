/-
  Rpy.Lifecycle.Topology
  ──────────────────────
  **THE JOBS OF THE PIPELINE, AND WHICH REQUESTS EACH OF THEM MOVES**
  (`transition_job_public_requests`, `app/public_lifecycle_worker.py`).

  A job names what it is about in its payload: the acquisition row, the
  Judit request, or the version.  A dead job moves the requests its task
  name is mapped to, and `process_judit_attachments` is mapped to none.

    • `requestJob`, `finalizeJob`, `attachmentsJob`, `summaryJob` — what
                          the components enqueue,
    • `Names`           — what a job is about,
    • `transitionJobPublicRequests`, `markJobDead`,
      `reconcileGenerationResult` — the reconciliations,
    • `markJobDead_settles` — a mapped task that dies leaves nobody
                          waiting for what it is about but those its
                          `SELECT` missed.
-/
import Rpy.Lifecycle.Acquisitions
import Rpy.Queue.Evolution
import Rpy.Queue.Keys

namespace Rpy.Lifecycle

open Rpy.Foundation Rpy.Queue

/-! ## §1. Jobs. -/

/-- `_enqueue_acquisition`. -/
def requestJob (row : String) (attempt : Nat) : NewJob where
  taskName := "request_judit_process"
  payload := .obj [("tenant_request_id", .str row)]
  maxAttempts := 1
  idempotencyKey := some (acquireKey row attempt)

/-- `_enqueue_finalize`. -/
def finalizeJob (requestId key : String) : NewJob where
  taskName := "finalize_judit_request"
  payload := .obj [("request_id", .str requestId)]
  idempotencyKey := some key

/-- The attachment job of a promoted version. -/
def attachmentsJob (processId versionId requestId : String) : NewJob where
  taskName := "process_judit_attachments"
  payload := .obj
    [("process_id", .str processId), ("version_id", .str versionId),
     ("judit_request_id", .str requestId)]
  idempotencyKey := some (attachmentsKey versionId)

/-- A summary job. -/
def summaryJob (processId versionId code requestId key : String) : NewJob where
  taskName := "generate_process_summary"
  payload := .obj
    [("process_id", .str processId), ("version_id", .str versionId), ("code", .str code),
     ("judit_request_id", .str requestId)]
  idempotencyKey := some key

/-- `str(payload[key])`: every payload that is enqueued holds texts. -/
def payloadText (payload : Json) (key : String) : Option String :=
  match payload.get? key with
  | some (.str s) => some s
  | _ => none

/-- A job of the task, whose payload has the text under the key. -/
def Names (taskName key text : String) (j : Job) : Prop :=
  j.taskName = taskName ∧ payloadText j.payload key = some text

instance {taskName key text : String} {j : Job} : Decidable (Names taskName key text j) :=
  inferInstanceAs (Decidable (_ ∧ _))

/-- The acquisition job of a row. -/
abbrev Acquires (row : String) : Job → Prop :=
  Names "request_judit_process" "tenant_request_id" row

/-- A finalization of a Judit request. -/
abbrev Finalizes (requestId : String) : Job → Prop :=
  Names "finalize_judit_request" "request_id" requestId

/-- An attachment job of a Judit request. -/
abbrev Attaches (requestId : String) : Job → Prop :=
  Names "process_judit_attachments" "judit_request_id" requestId

/-- A summary job of a Judit request. -/
abbrev Generates (requestId : String) : Job → Prop :=
  Names "generate_process_summary" "judit_request_id" requestId

/-- A job goes on being about what it was about. -/
theorem Names.of_sameJob {taskName key text : String} {j j' : Job} (h : j.SameJob j')
    (hj : Names taskName key text j) : Names taskName key text j' :=
  ⟨h.taskName.trans hj.1, by rw [h.payload]; exact hj.2⟩

/-- And was about it before. -/
theorem Names.to_sameJob {taskName key text : String} {j j' : Job} (h : j.SameJob j')
    (hj : Names taskName key text j') : Names taskName key text j :=
  ⟨h.taskName.symm.trans hj.1, by rw [← h.payload]; exact hj.2⟩

section NewRows

variable {row requestId processId versionId code key : String} {attempt : Nat} {id : Uuid}
  {now : Timestamp}

/-- The job of a request is about its acquisition. -/
theorem acquires_requestJob : Acquires row ((requestJob row attempt).row id now) :=
  ⟨rfl, rfl⟩

/-- The job of a finalization is about its request. -/
theorem finalizes_finalizeJob : Finalizes requestId ((finalizeJob requestId key).row id now) :=
  ⟨rfl, rfl⟩

/-- So is the job of the attachments. -/
theorem attaches_attachmentsJob :
    Attaches requestId ((attachmentsJob processId versionId requestId).row id now) :=
  ⟨rfl, rfl⟩

/-- So is the job of the summary. -/
theorem generates_summaryJob :
    Generates requestId ((summaryJob processId versionId code requestId key).row id now) :=
  ⟨rfl, rfl⟩

end NewRows

/-! ## §2. Reconciliations. -/

/-- `transition_job_public_requests`; a payload without the text it looks
for raises, and the exception is swallowed. -/
def transitionJobPublicRequests (t : AcquisitionTable) (unseen : List Uuid) (taskName : String)
    (payload : Json) (status : PublicStatus) (errorCode : Option String) (now : Timestamp)
    (requests : List PublicRequest) : List PublicRequest :=
  let transition : Transition := { status := status, errorCode := errorCode }
  if taskName = "request_judit_process" then
    match payloadText payload "tenant_request_id" with
    | some row => transitionRequestsForAcquisition unseen row transition now requests
    | none => requests
  else if taskName = "finalize_judit_request" then
    match payloadText payload "request_id" with
    | some requestId =>
        transitionRequestsForJuditRequest t unseen requestId transition now requests
    | none => requests
  else if taskName = "generate_process_summary" then
    match (payloadText payload "judit_request_id").filter (· ≠ "") with
    | some requestId =>
        transitionRequestsForJuditRequest t unseen requestId transition now requests
    | none =>
        match payloadText payload "version_id" with
        | some versionId => transitionRequestsForVersion unseen versionId transition now requests
        | none => requests
  else requests

/-- `mark_job_started`. -/
def markJobStarted (t : AcquisitionTable) (unseen : List Uuid) (taskName : String)
    (payload : Json) (now : Timestamp) (requests : List PublicRequest) : List PublicRequest :=
  if taskName = "generate_process_summary" then
    transitionJobPublicRequests t unseen taskName payload .generating none now requests
  else requests

/-- `mark_job_dead`. -/
def markJobDead (t : AcquisitionTable) (unseen : List Uuid) (errorCode : String)
    (now : Timestamp) (j : Job) (requests : List PublicRequest) : List PublicRequest :=
  transitionJobPublicRequests t unseen j.taskName j.payload .failed (some errorCode) now requests

/-- The reclaimer's `mark_job_dead` for each row that died. -/
def markAllDead (t : AcquisitionTable) (unseen : List Uuid) (errorCode : String)
    (now : Timestamp) (dead : List Job) (requests : List PublicRequest) : List PublicRequest :=
  dead.foldl (fun requests j => markJobDead t unseen errorCode now j requests) requests

/-- What `reconcile_generation_result` reads of the stored summary and of
the handler's result. -/
structure GenerationReads where
  /-- the stored summary of the current version, with its process's
  `updated_at` -/
  summary : Option (String × Timestamp) := none
  /-- it passed, the result passed, and the evidence is publishable -/
  approved : Bool := false
  reused : Bool := false
  persisted : Bool := false
  /-- the requests that were linked after the last `SELECT` of ids ran; one
  that an earlier `SELECT` missed ends as the last leaves it -/
  unseen : List Uuid := []
deriving Repr, DecidableEq

/-- The transition into the terminal status. -/
def GenerationReads.verdict (g : GenerationReads) (processId versionId : String) : Transition :=
  let passed := g.summary.isSome && g.approved
  { status := if passed then .completed else .validationFailed
    processId := some processId
    versionId := some versionId
    summaryId := if passed then g.summary.map Prod.fst else none
    sourceUpdatedAt := g.summary.map Prod.snd
    flags := some [("summary_reused", .bool g.reused), ("summary_persisted", .bool g.persisted)]
    errorCode := if passed then none else some "validation_failed" }

/-- `reconcile_generation_result`. -/
def reconcileGenerationResult (t : AcquisitionTable) (payload : Json) (g : GenerationReads)
    (now : Timestamp) (requests : List PublicRequest) : List PublicRequest :=
  match payloadText payload "process_id", payloadText payload "version_id" with
  | some processId, some versionId =>
      let validating := transitionJobPublicRequests t g.unseen "generate_process_summary" payload
        .validating none now requests
      match (payloadText payload "judit_request_id").filter (· ≠ "") with
      | some requestId =>
          transitionRequestsForJuditRequest t g.unseen requestId (g.verdict processId versionId)
            now validating
      | none =>
          transitionRequestsForVersion g.unseen versionId (g.verdict processId versionId) now
            validating
  | _, _ => requests

/-! ## §3. What they do. -/

/-- A reconciliation only transitions: every request after it was there
before with its link, and nobody new waits. -/
structure Advances (requests requests' : List PublicRequest) : Prop where
  origin : ∀ r ∈ requests', ∃ r₀ ∈ requests, r.id = r₀.id ∧ r.acquisition = r₀.acquisition ∧
    (r.waiting = true → r₀.waiting = true)

namespace Advances

variable {requests requests' requests'' : List PublicRequest}

/-- Nothing has happened. -/
theorem refl (requests : List PublicRequest) : Advances requests requests :=
  ⟨fun r hr => ⟨r, hr, rfl, rfl, id⟩⟩

/-- One change after the other. -/
theorem trans (h : Advances requests requests') (h' : Advances requests' requests'') :
    Advances requests requests'' where
  origin := by
    intro r hr
    obtain ⟨r₁, hr₁, hid₁, hlink₁, hwaiting₁⟩ := h'.origin r hr
    obtain ⟨r₀, hr₀, hid₀, hlink₀, hwaiting₀⟩ := h.origin r₁ hr₁
    exact ⟨r₀, hr₀, hid₁.trans hid₀, hlink₁.trans hlink₀, hwaiting₀ ∘ hwaiting₁⟩

/-- What waits for an acquisition has waited for it before. -/
theorem waitingFor {acquisition : String} (h : Advances requests requests')
    (hw : WaitingFor requests' acquisition) : WaitingFor requests acquisition := by
  obtain ⟨r, hr, hwaiting, hlink⟩ := hw
  obtain ⟨r₀, hr₀, -, hsame, hback⟩ := h.origin r hr
  exact ⟨r₀, hr₀, hback hwaiting, hsame ▸ hlink⟩

/-- What a `SELECT` has missed was there to be missed before. -/
theorem missed {unseen : List Uuid} {acquisition : String} (h : Advances requests requests')
    (hmissed : Missed unseen requests' acquisition) : Missed unseen requests acquisition := by
  obtain ⟨r, hr, hunseen, hwaiting, hlink⟩ := hmissed
  obtain ⟨r₀, hr₀, hid, hsame, hback⟩ := h.origin r hr
  exact ⟨r₀, hr₀, hid ▸ hunseen, hback hwaiting, hsame ▸ hlink⟩

/-- A transition of many requests advances them. -/
theorem transitionMany (selected : PublicRequest → Bool) (t : Transition) (now : Timestamp)
    (requests : List PublicRequest) :
    Advances requests (transitionMany selected t now requests) :=
  ⟨fun _ hr => exists_of_mem_transitionMany hr⟩

end Advances

section Reconciliations

variable {t : AcquisitionTable} {requests : List PublicRequest} {now : Timestamp}
  {unseen : List Uuid}

/-- The transition for a job advances the requests it is about. -/
theorem advances_transitionJobPublicRequests (taskName : String) (payload : Json)
    (status : PublicStatus) (errorCode : Option String) :
    Advances requests
      (transitionJobPublicRequests t unseen taskName payload status errorCode now requests) := by
  unfold transitionJobPublicRequests
  simp only
  repeat' split
  all_goals first
    | exact .refl _
    | exact .transitionMany _ _ _ _

/-- So does the start of a job. -/
theorem advances_markJobStarted (taskName : String) (payload : Json) :
    Advances requests (markJobStarted t unseen taskName payload now requests) := by
  unfold markJobStarted
  split
  · exact advances_transitionJobPublicRequests _ _ _ _
  · exact .refl _

/-- So does the death of a job. -/
theorem advances_markJobDead (errorCode : String) (j : Job) :
    Advances requests (markJobDead t unseen errorCode now j requests) :=
  advances_transitionJobPublicRequests _ _ _ _

/-- And that of many. -/
theorem advances_markAllDead (errorCode : String) (dead : List Job) :
    Advances requests (markAllDead t unseen errorCode now dead requests) := by
  unfold markAllDead
  induction dead generalizing requests with
  | nil => exact .refl _
  | cons j dead ih => exact (advances_markJobDead errorCode j).trans ih

/-- So does the result of a generation. -/
theorem advances_reconcileGenerationResult (payload : Json) (g : GenerationReads) :
    Advances requests (reconcileGenerationResult t payload g now requests) := by
  have hvalidating : Advances requests (transitionJobPublicRequests t g.unseen
      "generate_process_summary" payload .validating none now requests) :=
    advances_transitionJobPublicRequests _ _ _ _
  unfold reconcileGenerationResult
  split
  · simp only
    split <;> exact hvalidating.trans (.transitionMany _ _ _ _)
  · exact .refl _

/-- The verdict is terminal. -/
theorem GenerationReads.verdict_terminal (g : GenerationReads) (processId versionId : String) :
    (g.verdict processId versionId).status.terminal = true := by
  unfold GenerationReads.verdict
  cases g.summary.isSome && g.approved <;> rfl

/-- What a dead job of the task leaves nobody waiting for. -/
def Settles (j : Job) (a : Acquisition) : Prop :=
  Acquires a.id j ∨
    ∃ requestId, a.juditRequestId = some requestId ∧ (Finalizes requestId j ∨ Generates requestId j)

instance {j : Job} {a : Acquisition} : Decidable (Settles j a) :=
  match h : a.juditRequestId with
  | none => decidable_of_iff (Acquires a.id j) (by simp [Settles, h])
  | some requestId =>
      decidable_of_iff (Acquires a.id j ∨ Finalizes requestId j ∨ Generates requestId j)
        (by simp [Settles, h])

/-- **A mapped job that dies leaves nobody waiting for its acquisition** but
those its `SELECT` missed. -/
theorem markJobDead_settles {errorCode : String} {j : Job} {a : Acquisition} (ha : a ∈ t.rows)
    (h : Settles j a) (hw : WaitingFor (markJobDead t unseen errorCode now j requests) a.id) :
    Missed unseen requests a.id := by
  unfold markJobDead transitionJobPublicRequests at hw
  rcases h with ⟨htask, hrow⟩ | ⟨requestId, hrequest, ⟨htask, htext⟩ | ⟨htask, htext⟩⟩
  · simp only [htask, hrow, if_true] at hw
    exact missed_of_acquisition rfl hw
  · simp only [htask, htext, if_true, String.reduceEq, if_false] at hw
    exact missed_of_juditRequest rfl ha hrequest hw
  · have hne : requestId ≠ "" := fun heq => a.request_id_nonempty (by rw [hrequest, heq])
    simp only [htask, htext, if_true, String.reduceEq, if_false, Option.filter,
      hne, ne_eq, not_false_eq_true, decide_true] at hw
    exact missed_of_juditRequest rfl ha hrequest hw

/-- The same for a list of dead jobs that has one of them. -/
theorem markAllDead_settles {errorCode : String} {j : Job} {dead : List Job} {a : Acquisition}
    (ha : a ∈ t.rows) (hj : j ∈ dead) (h : Settles j a)
    (hw : WaitingFor (markAllDead t unseen errorCode now dead requests) a.id) :
    Missed unseen requests a.id := by
  unfold markAllDead at hw
  induction dead generalizing requests with
  | nil => cases hj
  | cons k dead ih =>
      rcases List.mem_cons.1 hj with rfl | hj
      · exact markJobDead_settles ha h ((advances_markAllDead errorCode dead).waitingFor hw)
      · exact (advances_markJobDead errorCode k).missed (ih hj hw)

/-- **A finished generation leaves nobody waiting for its request** but
those its `SELECT` missed. -/
theorem reconcileGenerationResult_settles {payload : Json} {g : GenerationReads}
    {requestId : String} {a : Acquisition} (ha : a ∈ t.rows)
    (hrequest : a.juditRequestId = some requestId)
    (htext : payloadText payload "judit_request_id" = some requestId)
    (hprocess : (payloadText payload "process_id").isSome = true)
    (hversion : (payloadText payload "version_id").isSome = true)
    (hw : WaitingFor (reconcileGenerationResult t payload g now requests) a.id) :
    Missed g.unseen requests a.id := by
  obtain ⟨processId, hp⟩ := Option.isSome_iff_exists.1 hprocess
  obtain ⟨versionId, hv⟩ := Option.isSome_iff_exists.1 hversion
  have hne : requestId ≠ "" := fun heq => a.request_id_nonempty (by rw [hrequest, heq])
  unfold reconcileGenerationResult at hw
  simp only [hp, hv, htext, Option.filter, ne_eq, hne, not_false_eq_true, decide_true,
    if_true] at hw
  exact (advances_transitionJobPublicRequests _ _ _ _).missed
    (missed_of_juditRequest (g.verdict_terminal _ _) ha hrequest hw)

end Reconciliations

end Rpy.Lifecycle

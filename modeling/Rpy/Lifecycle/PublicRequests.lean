/-
  Rpy.Lifecycle.PublicRequests
  ────────────────────────────
  **THE PUBLIC SUMMARY REQUESTS AND THEIR STATUS**
  (`app/public_lifecycle.py`).

  A public request moves forward through the progress statuses and into
  one of the terminal ones, which it never leaves.  Every component that
  moves requests selects them by a key of its own and transitions each.

    • `transitionAllowed`, `PublicRequest.transition` — one request,
    • `transitionMany`        — the requests a `SELECT` returned,
    • `WaitingFor`            — some request linked to an acquisition is
                                not terminal,
    • `Missed`                — one of them was linked after the `SELECT`,
    • `WaitingFor.of_transitionMany` — a transition makes nobody wait,
    • `missed_of_terminal`    — a terminal target leaves nobody waiting but
                                those.
-/
import Rpy.Basic
import Rpy.Foundation.Json
import Rpy.Foundation.Table

namespace Rpy.Lifecycle

open Rpy.Foundation

/-! ## §1. Statuses. -/

/-- `public_summary_status`. -/
inductive PublicStatus where
  | queued | fetching | indexing | generating | validating | completed
  | failed | sourceUnavailable | secrecyBlocked | validationFailed
deriving Repr, DecidableEq

/-- `TERMINAL_STATUSES`. -/
def PublicStatus.terminal : PublicStatus → Bool
  | .completed | .failed | .sourceUnavailable | .secrecyBlocked | .validationFailed => true
  | _ => false

/-- `PROGRESS_STATUSES`. -/
def progressStatuses : List PublicStatus :=
  [.queued, .fetching, .indexing, .generating, .validating, .completed]

/-- `_PROGRESS_RANK`. -/
def PublicStatus.progressRank (s : PublicStatus) : Option Nat :=
  progressStatuses.idxOf? s

/-- `_transition_allowed`. -/
def transitionAllowed (current target : PublicStatus) : Bool :=
  if current = target then true
  else if current.terminal then false
  else if target.terminal then true
  else
    -- both are progress statuses here, so neither lookup raises
    match target.progressRank, current.progressRank with
    | some t, some c => decide (t ≥ c)
    | _, _ => false

/-- Every status has a rank or is terminal: the lookups never raise. -/
theorem PublicStatus.progressRank_isSome {s : PublicStatus} (h : s.terminal = false) :
    s.progressRank.isSome = true := by
  cases s <;> first | rfl | cases h

/-- **Nothing leaves a terminal status.** -/
theorem transitionAllowed_of_terminal {current target : PublicStatus}
    (hterminal : current.terminal = true) (h : transitionAllowed current target = true) :
    target = current := by
  by_cases heq : current = target
  · exact heq.symm
  · unfold transitionAllowed at h
    rw [if_neg heq, if_pos hterminal] at h
    cases h

/-- A terminal target is reached from every status that is not. -/
theorem transitionAllowed_to_terminal {current target : PublicStatus}
    (hcurrent : current.terminal = false) (htarget : target.terminal = true) :
    transitionAllowed current target = true := by
  have hne : current ≠ target := by
    rintro rfl
    rw [hcurrent] at htarget
    cases htarget
  unfold transitionAllowed
  rw [if_neg hne, if_neg (by simp [hcurrent]), if_pos htarget]

/-! ## §2. Requests. -/

/-- A queued request has no time of completion. -/
theorem queued_open : PublicStatus.queued.terminal = (none : Option Timestamp).isSome := rfl

/-- A row of `public_summary_requests`; the last field is the table's CHECK
`public_summary_requests_terminal_time_ck`. -/
structure PublicRequest where
  id : Uuid
  tenantId : Uuid
  processCode : String
  idempotencyKey : String
  requestFingerprint : String
  responseFormat : String
  status : PublicStatus := .queued
  /-- `tenant_judit_request_id` -/
  acquisition : Option String := none
  processId : Option String := none
  versionId : Option String := none
  summaryId : Option String := none
  sourceUpdatedAt : Option Timestamp := none
  flags : List (String × Json) := []
  errorCode : Option String := none
  completedAt : Option Timestamp := none
  terminal_time : status.terminal = completedAt.isSome
deriving Repr, DecidableEq

/-- The keyword arguments of `transition_summary_request`. -/
structure Transition where
  status : PublicStatus
  processId : Option String := none
  versionId : Option String := none
  summaryId : Option String := none
  sourceUpdatedAt : Option Timestamp := none
  flags : Option (List (String × Json)) := none
  errorCode : Option String := none
deriving Repr, DecidableEq

/-- `flags || $7::jsonb`: a member of the right side replaces the left's. -/
def mergeFlags (old new : List (String × Json)) : List (String × Json) :=
  (old.filter fun m => !(new.map Prod.fst).contains m.1) ++ new

/-- `transition_summary_request`: a transition that is not allowed leaves
the row as it is. -/
def PublicRequest.transition (t : Transition) (now : Timestamp) (r : PublicRequest) :
    PublicRequest :=
  if transitionAllowed r.status t.status then
    { r with
      status := t.status
      processId := t.processId <|> r.processId
      versionId := t.versionId <|> r.versionId
      summaryId := t.summaryId <|> r.summaryId
      sourceUpdatedAt := t.sourceUpdatedAt <|> r.sourceUpdatedAt
      flags := match t.flags with
        | none => r.flags
        | some new => mergeFlags r.flags new
      errorCode := t.errorCode
      completedAt := if t.status.terminal then some now else none
      terminal_time := by cases t.status.terminal <;> rfl }
  else r

/-- `_transition_many`, for the requests its caller's `SELECT` returned. -/
def transitionMany (selected : PublicRequest → Bool) (t : Transition) (now : Timestamp)
    (requests : List PublicRequest) : List PublicRequest :=
  updateWhere selected (PublicRequest.transition t now) requests

/-- `transition_requests_for_acquisition`.  The ids come of a `SELECT` that
locks nothing: the requests that were linked after it ran are `unseen`. -/
def transitionRequestsForAcquisition (unseen : List Uuid) (acquisition : String) (t : Transition)
    (now : Timestamp) (requests : List PublicRequest) : List PublicRequest :=
  transitionMany (fun r => r.acquisition == some acquisition && !unseen.contains r.id) t now
    requests

/-- `transition_requests_for_version`. -/
def transitionRequestsForVersion (unseen : List Uuid) (versionId : String) (t : Transition)
    (now : Timestamp) (requests : List PublicRequest) : List PublicRequest :=
  transitionMany (fun r => r.versionId == some versionId && !unseen.contains r.id) t now requests

/-- `INSERT … ON CONFLICT (tenant_id, idempotency_key) DO NOTHING`: the row
is not inserted when the key is in use, whatever the fingerprint. -/
def createOrGet (new : PublicRequest) (requests : List PublicRequest) : List PublicRequest :=
  if requests.any fun r =>
      r.tenantId == new.tenantId && r.idempotencyKey == new.idempotencyKey then requests
  else requests ++ [new]

/-! ## §3. What a transition does to a request. -/

section Transitions

variable {t : Transition} {now : Timestamp} {r : PublicRequest}

@[simp] theorem PublicRequest.transition_acquisition :
    (r.transition t now).acquisition = r.acquisition := by
  unfold PublicRequest.transition
  split <;> rfl

@[simp] theorem PublicRequest.transition_id : (r.transition t now).id = r.id := by
  unfold PublicRequest.transition
  split <;> rfl

/-- **A terminal request stays terminal.** -/
theorem PublicRequest.transition_terminal (h : r.status.terminal = true) :
    (r.transition t now).status.terminal = true := by
  unfold PublicRequest.transition
  split
  · rename_i hallowed
    show t.status.terminal = true
    rw [transitionAllowed_of_terminal h hallowed]
    exact h
  · exact h

/-- **A terminal target is reached.** -/
theorem PublicRequest.transition_to_terminal (h : t.status.terminal = true) :
    (r.transition t now).status.terminal = true := by
  cases hr : r.status.terminal with
  | true => exact PublicRequest.transition_terminal hr
  | false =>
      unfold PublicRequest.transition
      rw [if_pos (transitionAllowed_to_terminal hr h)]
      exact h

end Transitions

/-! ## §4. Who waits. -/

/-- A client still polls the request. -/
def PublicRequest.waiting (r : PublicRequest) : Bool :=
  !r.status.terminal

/-- Some waiting request is linked to the acquisition. -/
def WaitingFor (requests : List PublicRequest) (acquisition : String) : Prop :=
  ∃ r ∈ requests, r.waiting = true ∧ r.acquisition = some acquisition

instance {requests : List PublicRequest} {acquisition : String} :
    Decidable (WaitingFor requests acquisition) :=
  inferInstanceAs (Decidable (∃ r ∈ requests, r.waiting = true ∧ r.acquisition = some acquisition))

/-- Some request waits for the acquisition that a `SELECT` did not return. -/
def Missed (unseen : List Uuid) (requests : List PublicRequest) (acquisition : String) : Prop :=
  ∃ r ∈ requests, r.id ∈ unseen ∧ r.waiting = true ∧ r.acquisition = some acquisition

instance {unseen : List Uuid} {requests : List PublicRequest} {acquisition : String} :
    Decidable (Missed unseen requests acquisition) :=
  inferInstanceAs (Decidable (∃ r ∈ requests, _ ∧ _ ∧ _))

section Waiting

variable {requests : List PublicRequest} {acquisition : String} {t : Transition}
  {now : Timestamp} {selected : PublicRequest → Bool}

/-- Every request after a transition was there before, with its link. -/
theorem exists_of_mem_transitionMany {r : PublicRequest}
    (hr : r ∈ transitionMany selected t now requests) :
    ∃ r₀ ∈ requests, r.id = r₀.id ∧ r.acquisition = r₀.acquisition ∧
      (r.waiting = true → r₀.waiting = true) := by
  rcases mem_updateWhere.1 hr with ⟨r₀, hr₀, -, rfl⟩ | ⟨hr', -⟩
  · refine ⟨r₀, hr₀, PublicRequest.transition_id, PublicRequest.transition_acquisition,
      fun hwaiting => ?_⟩
    by_contra hdone
    have hterminal : r₀.status.terminal = true := by simpa [PublicRequest.waiting] using hdone
    simp [PublicRequest.waiting, PublicRequest.transition_terminal hterminal] at hwaiting
  · exact ⟨r, hr', rfl, rfl, id⟩

/-- **A transition makes nobody wait.** -/
theorem WaitingFor.of_transitionMany
    (h : WaitingFor (transitionMany selected t now requests) acquisition) :
    WaitingFor requests acquisition := by
  obtain ⟨r, hr, hwaiting, hlink⟩ := h
  obtain ⟨r₀, hr₀, -, hsame, hback⟩ := exists_of_mem_transitionMany hr
  exact ⟨r₀, hr₀, hback hwaiting, hsame ▸ hlink⟩

/-- **A terminal target leaves nobody waiting but the unseen.** -/
theorem missed_of_terminal {unseen : List Uuid} (hterminal : t.status.terminal = true)
    (hselected : ∀ r ∈ requests, r.acquisition = some acquisition → r.id ∉ unseen →
      selected r = true)
    (h : WaitingFor (transitionMany selected t now requests) acquisition) :
    Missed unseen requests acquisition := by
  obtain ⟨r, hr, hwaiting, hlink⟩ := h
  rcases mem_updateWhere.1 hr with ⟨r₀, -, -, rfl⟩ | ⟨hr', hkept⟩
  · simp [PublicRequest.waiting, PublicRequest.transition_to_terminal hterminal] at hwaiting
  · refine ⟨r, hr', ?_, hwaiting, hlink⟩
    by_contra hseen
    simp [hselected r hr' hlink hseen] at hkept

/-- A created request is linked to nothing. -/
theorem mem_createOrGet {new r : PublicRequest} (hr : r ∈ createOrGet new requests) :
    r ∈ requests ∨ r = new := by
  unfold createOrGet at hr
  split at hr
  · exact .inl hr
  · simpa using hr

end Waiting

end Rpy.Lifecycle

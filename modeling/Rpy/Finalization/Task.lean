/-
  Rpy.Finalization.Task
  ─────────────────────
  **`finalize_judit_request`, WITH ALL THAT IT READS AND WRITES**
  (`app/judit_tasks.py`).

  The runs of the task prepare and promote as `Rpy.DataJud.Finalizers` has
  it; their transaction also reads the summary of the current version, moves
  the public requests and enqueues the next job, as `Rpy.Lifecycle.Pipeline`
  has it.  Here the two are one transaction over all of the rows.  Whatever
  the rest of the program commits to its own tables can come in between.

    • `Store`           — the rows, and the runs in flight,
    • `Store.tables`    — what `_complete_from_current_summary` selects from,
    • `Store.finalize`  — the transaction of a run, to its end,
    • `Store.step`      — every interleaving of runs, stagings and the rest.
-/
import Rpy.DataJud.Finalizers
import Rpy.Lifecycle.Pipeline
import Rpy.Publication.Responses

namespace Rpy.Finalization

open Rpy.Foundation Rpy.Processes Rpy.DataJud Rpy.Lifecycle
open Rpy.Queue (JobTable)
open Rpy.Publication (uuidText)

/-! ## §1. The rows. -/

/-- A run of the task, and the error code of a transaction that selected no
version to finalize. -/
structure Finalizer where
  run : FinalizeRun
  unavailable : Option String := none
deriving DecidableEq

/-- The rows the task reads or writes, and its runs in flight. -/
structure Store where
  /-- the processes with their versions and steps, and the provenance -/
  system : System := {}
  /-- `processes.code` -/
  codes : Uuid → String
  /-- `processes.updated_at` -/
  updatedAt : Uuid → Timestamp := fun _ => 0
  /-- the summaries with their claims and sources -/
  published : Publication.Tables := {}
  acquisitions : AcquisitionTable := .empty
  requests : List PublicRequest := []
  jobs : JobTable := .empty
  runs : List Finalizer := []

/-- The members of an object column. -/
def columnMembers : Json → List (String × Json)
  | .obj members => members
  | _ => []

/-- The items of an array column. -/
def columnItems : Json → List Json
  | .arr items => items
  | _ => []

namespace Store

variable (u : Unicode) (s : Store)

/-- The `processes` row, all of it. -/
def processRow (p : Uuid) : Publication.ProcessRow where
  id := p
  code := s.codes p
  className := (s.system.processes p).process.className
  court := (s.system.processes p).process.court
  header := columnMembers (s.system.processes p).process.header
  parties := columnItems (s.system.processes p).process.parties
  subjects := columnItems (s.system.processes p).process.subjects
  representatives := columnItems (s.system.processes p).process.representatives
  secrecyLevel := (s.system.processes p).process.secrecyLevel
  currentVersionId := (s.system.processes p).process.currentVersionId
  updatedAt := s.updatedAt p

/-- The `process_versions` rows of a process. -/
def versionRows (p : Uuid) : List Publication.VersionRow :=
  (s.system.processes p).versions.map fun v =>
    { id := v.id
      processId := p
      sourceCachedResponse := s.system.stagings.any fun w =>
        w.versionId == v.id && w.sourceCachedResponse
      finalized := v.finalized
      finalizedAt := v.finalizedAt }

/-- The tables with the rows of one process. -/
def tables (p : Uuid) : Publication.Tables :=
  { s.published with
    processes := [s.processRow p]
    versions := s.versionRows p
    process_ids := List.nodup_singleton _
    process_codes := List.nodup_singleton _ }

/-- The row of a staged version, in its process. -/
def versionRow? (staged : Staging) : Option VersionRow :=
  (s.system.processes staged.processId).versions.find? fun v => v.id == staged.versionId

/-! ## §2. What the plan of a finalization is about. -/

/-- The version as the pipeline has it. -/
def version (staged : Staging) : Version where
  id := uuidText staged.versionId
  processId := uuidText staged.processId
  sourceRequestId := staged.sourceRequestId.getD ""
  juditRequestId := staged.juditRequestId
  cachedResponse := staged.sourceCachedResponse
  responseData := staged.responseData.isSome
  createdAt := staged.createdAt
  finalized := s.system.isFinalized staged
  equivalentToVersionId :=
    ((s.versionRow? staged).bind VersionRow.equivalentToVersionId).map uuidText

/-- The process and the version as the pipeline has them. -/
def archive (staged : Staging) : Archive where
  processes := [{
    id := uuidText staged.processId
    code := s.codes staged.processId
    currentVersionId :=
      (s.system.processes staged.processId).process.currentVersionId.map uuidText }]
  versions := [s.version staged]

/-- What the transaction reads after `finalize_version`.  The current summary
is not looked at when the promoted version gets one of its own. -/
def finalizeReads (staged : Staging) (attachments : List Attachment)
    (attachmentsEnabled promoted : Bool) : Except Attachments.Exn FinalizeReads :=
  let shown :=
    if promoted && !staged.sourceCachedResponse then .ok none
    else (s.tables staged.processId).completeFromCurrentSummary u staged.processId
  shown.map fun current =>
    { attachments := !attachments.isEmpty && attachmentsEnabled
      reusable := current.map fun (summary, updatedAt) => (uuidText summary.id, updatedAt) }

/-! ## §3. The transaction. -/

/-- `preferred_judit_version`, and the checks on what it gives. -/
def select (f : Finalizer) : Finalizer where
  run := { f.run with selected := s.system.select f.run }
  unavailable :=
    match s.system.preferredJuditVersion f.run.requestId with
    | none => some "no_lawsuit_response"
    | some staged =>
        if staged.responseData.isSome then none else some "missing_response_data"

/-- The transitions of a plan and its job; the `unlinked` requests were
linked after the `SELECT` of the ids ran. -/
def write (unlinked : List Uuid) (requestId : String) (plan : FinalizePlan) (jobId : Uuid)
    (now : Timestamp) : Option Store :=
  let db : Database :=
    { requests := s.requests, acquisitions := s.acquisitions, jobs := s.jobs }
  (db.finalize unlinked requestId plan jobId now).map fun db =>
    { s with requests := db.requests, jobs := db.jobs }

/-- `finalize_version` and the provenance; was the version promoted? -/
def promote (run : FinalizeRun) (staged : Staging) (a : Prepared) (now : Timestamp) :
    Except FinalizeError (Bool × Store) := do
  let (promoted, _) ← finalizeVersion u.toPlatform (s.system.processes staged.processId)
    staged.versionId (a.fields u.toPython) now
  let system ← s.system.commit u.toPython run now
  return (promoted, { s with
    system := system
    updatedAt :=
      if promoted && !s.system.isFinalized staged then
        Function.update s.updatedAt staged.processId now
      else s.updatedAt })

/-- The transaction of a run that has selected; `none` where it raises. -/
def finalize (f : Finalizer) (attachmentsEnabled : Bool) (jobId : Uuid) (now : Timestamp)
    (unlinked : List Uuid) : Option Store :=
  match f.unavailable, f.run.selected with
  | some errorCode, _ =>
      s.write unlinked f.run.requestId
        { archive := {}
          transitions := [{ status := .indexing },
            { status := .sourceUnavailable, errorCode := some errorCode }] } jobId now
  | none, some (staged, a) => do
      let (promoted, s) ← (s.promote u f.run staged a now).toOption
      let reads ← (s.finalizeReads u staged (a.fields u.toPython).attachments attachmentsEnabled
        promoted).toOption
      s.write unlinked f.run.requestId
        (finalizedPlan (s.archive staged) f.run.requestId (s.codes staged.processId)
          (s.version staged) reads promoted) jobId now
  | none, none => none

/-- A run is over. -/
def endRun (i : Nat) : Store :=
  { s with runs := s.runs.eraseIdx i }

end Store

/-! ## §4. The steps. -/

/-- What can happen. -/
inductive Event where
  /-- a response is staged -/
  | stage (version : Staging)
  /-- a run of the task prepares; `answer` is what DataJud would give it -/
  | begin (requestId : String) (answer : Option DataJudMetadata)
  /-- the transaction of a run selects its version -/
  | select (i : Nat)
  /-- the transaction goes on to its end, or an exception rolls it back -/
  | commit (i : Nat) (attachmentsEnabled : Bool) (jobId : Uuid) (now : Timestamp)
      (unlinked : List Uuid := [])
  /-- a run dies -/
  | crash (i : Nat)
  /-- summaries, claims and their sources are written, or cascade away -/
  | publish (published : Publication.Tables)
  /-- the rest of the program commits to its tables -/
  | elsewhere (acquisitions : AcquisitionTable) (requests : List PublicRequest) (jobs : JobTable)

/-- One event. -/
def Store.step (u : Unicode) (s : Store) : Event → Option Store
  | .stage version => (s.system.stage version).map fun system => { s with system := system }
  | .begin requestId answer =>
      some { s with runs := s.runs ++ [{ run := s.system.prepare requestId answer }] }
  | .select i => s.runs[i]?.map fun f => { s with runs := s.runs.set i (s.select f) }
  | .commit i attachmentsEnabled jobId now unlinked =>
      s.runs[i]?.map fun f =>
        match s.finalize u f attachmentsEnabled jobId now unlinked with
        | none => s.endRun i
        | some s' => s'.endRun i
  | .crash i => s.runs[i]?.map fun _ => s.endRun i
  | .publish published => some { s with published := published }
  | .elsewhere acquisitions requests jobs =>
      some { s with acquisitions := acquisitions, requests := requests, jobs := jobs }

end Rpy.Finalization

/-
  Rpy.Retrieval.Eligibility
  ─────────────────────────
  **WHICH MOVEMENTS RETRIEVAL MAY USE** (`ELIGIBLE_PROCESS_STEP_SQL`).

  A movement is eligible when it belongs to the process of its version and
  names no other CNJ, is of the instance of the process, is not private,
  and neither it nor its process is secret.  The predicate is three-valued
  and raises on a secrecy level that is no `integer`.

    • `eligible_iff`      — the predicate in words,
    • `selectSteps_eligible`, `mem_loadSteps` — what a query with the
                            predicate returns.

  `app/retrieval.py`, `sql/002_process_data.sql`,
  `sql/021_embedding_spaces.sql`.
-/
import Rpy.Platform
import Rpy.Foundation.SqlLogic
import Rpy.Foundation.Table
import Mathlib.Data.List.Sort

namespace Rpy.Retrieval

open Rpy.Foundation

/-! ## §1. Tables. -/

/-- A `processes` row. -/
structure Process where
  id : Uuid
  code : String
  secrecyLevel : Int := 0
  header : Json := .obj []
  currentVersionId : Option Uuid := none
deriving Repr, DecidableEq

/-- A `process_versions` row. -/
structure ProcessVersion where
  id : Uuid
  processId : Uuid
deriving Repr, DecidableEq

/-- A `process_steps` row; `F` is the type of a float. -/
structure ProcessStep (F : Type) where
  id : Uuid
  versionId : Uuid
  processId : Uuid
  stepNumber : Int
  occurredAt : Option Timestamp := none
  title : Option String := none
  text : String
  metadata : Json := .obj []
  embedding : Option (List F) := none
deriving Repr, DecidableEq

/-- A `process_step_embeddings` row. -/
structure StepEmbedding (F : Type) where
  stepId : Uuid
  provider : String
  model : String
  dimensions : Nat
  embedding : List F
deriving Repr, DecidableEq

/-- The tables retrieval reads; `id` is the primary key of the first three. -/
structure Database (F : Type) where
  processes : List Process := []
  versions : List ProcessVersion := []
  steps : List (ProcessStep F) := []
  stepEmbeddings : List (StepEmbedding F) := []
  processes_nodup : (processes.map Process.id).Nodup
  versions_nodup : (versions.map ProcessVersion.id).Nodup
  steps_nodup : (steps.map ProcessStep.id).Nodup

/-! ## §2. Reading `jsonb`. -/

/-- The functions of PostgreSQL that go by its locale or its number format. -/
structure Postgres where
  /-- `lower(text)` -/
  lower : String → String
  /-- the text of a number with a fraction or an exponent, an array or an object -/
  jsonbText : Json → String
  /-- a text in lower case is its own -/
  lower_false : lower "false" = "false"

/-- The letters of `false` are in lower case. -/
theorem lower_false_ascii :
    String.ofList ("false".toList.map Char.toLower) = "false" := by decide +kernel

/-- `value->>key`. -/
def Postgres.getText (pg : Postgres) (value : Json) (key : String) : Option String :=
  match value.get? key with
  | none | some .null => none
  | some (.str s) => some s
  | some (.bool b) => some (if b then "true" else "false")
  | some (.int n) => some (toString n)
  | some v => some (pg.jsonbText v)

/-- `value ? key`. -/
def hasKey (value : Json) (key : String) : Bool :=
  match value with
  | .obj members => (members.lookup key).isSome
  | .arr items => items.contains (.str key)
  | .str s => s == key
  | _ => false

/-- `text ~ '^[0-9]+$'`. -/
def isDigits (text : String) : Bool :=
  !text.toList.isEmpty && text.toList.all fun c => '0' ≤ c && c ≤ '9'

/-- The number that a text of digits names. -/
def digitsValue (text : String) : Nat :=
  text.toList.foldl (fun n c => 10 * n + (c.toNat - '0'.toNat)) 0

/-- `text::integer` of a text of digits. -/
def castInteger (text : String) : Except String Int :=
  if digitsValue text ≤ 2147483647 then .ok (digitsValue text)
  else .error ("value \"" ++ text ++ "\" is out of range for type integer")

/-- `CASE WHEN text ~ '^[0-9]+$' THEN text::integer ELSE otherwise END`. -/
def integerOr {α : Type} (text : Option String) (value : Int → α) (otherwise : α) :
    Except String α :=
  match text with
  | none => .ok otherwise
  | some text => if isDigits text then (castInteger text).map value else .ok otherwise

/-! ## §3. The predicate. -/

section Predicate

variable {F : Type} (pg : Postgres)

/-- `ELIGIBLE_PROCESS_STEP_SQL`, condition by condition. -/
def eligibleConditions (ps : ProcessStep F) (pv : ProcessVersion) (p : Process) :
    List (Except String SqlBool) :=
  [ .ok (some (ps.processId == pv.processId)),
    .ok (some (p.id == pv.processId)),
    -- `COALESCE(NULLIF(ps.metadata->>'cnj', ''), p.code) = p.code`
    .ok (some (((pg.getText ps.metadata "cnj").filter (· ≠ "")).getD p.code == p.code)),
    .ok (sqlOr (sqlNot (some (hasKey ps.metadata "instance")))
      (sqlOr (sqlNot (some (hasKey p.header "instance")))
        (sqlEq (pg.getText ps.metadata "instance") (pg.getText p.header "instance")))),
    .ok (sqlNot (some (["true", "1", "yes"].contains
      (pg.lower ((pg.getText ps.metadata "private").getD "false"))))),
    .ok (some (p.secrecyLevel == 0)),
    integerOr (pg.getText ps.metadata "secrecy_level") (fun n => some (n == 0)) (some true) ]

/-- The movement, its version and its process meet the predicate. -/
def eligible (ps : ProcessStep F) (pv : ProcessVersion) (p : Process) : Except String Bool :=
  holdsAll (eligibleConditions pg ps pv p)

/-- A movement with no CNJ of its own, or that of its process. -/
def SameCnj (ps : ProcessStep F) (p : Process) : Prop :=
  ∀ cnj, pg.getText ps.metadata "cnj" = some cnj → cnj = "" ∨ cnj = p.code

/-- A movement of the instance of its process, where both name one. -/
def SameInstance (ps : ProcessStep F) (p : Process) : Prop :=
  hasKey ps.metadata "instance" = true → hasKey p.header "instance" = true →
    ∃ name, pg.getText ps.metadata "instance" = some name ∧
      pg.getText p.header "instance" = some name

/-- A movement marked as private. -/
def Private (ps : ProcessStep F) : Prop :=
  ∃ mark, pg.getText ps.metadata "private" = some mark ∧ pg.lower mark ∈ ["true", "1", "yes"]

/-- A movement without a secrecy level, or of level zero. -/
def NoSecrecy (ps : ProcessStep F) : Prop :=
  ∀ level, pg.getText ps.metadata "secrecy_level" = some level → isDigits level = true →
    digitsValue level = 0

theorem integerOr_eq_true {text : Option String} :
    integerOr text (fun n => some (n == 0)) (some true) = .ok (some true) ↔
      ∀ level, text = some level → isDigits level = true → digitsValue level = 0 := by
  cases text with
  | none => simp [integerOr]
  | some level =>
      by_cases hdigits : isDigits level = true
      · by_cases hrange : digitsValue level ≤ 2147483647
        · simp [integerOr, castInteger, hdigits, hrange, Except.map]
        · have hne : digitsValue level ≠ 0 := by omega
          simp [integerOr, castInteger, hdigits, hrange, Except.map, hne]
      · simp [integerOr, hdigits]

/-- **The predicate in words**: of the process and its CNJ, of its instance,
not private, and nothing secret about it. -/
theorem eligible_iff {ps : ProcessStep F}
    {pv : ProcessVersion} {p : Process} :
    eligible pg ps pv p = .ok true ↔
      ps.processId = pv.processId ∧ p.id = pv.processId ∧ SameCnj pg ps p ∧
        SameInstance pg ps p ∧ ¬Private pg ps ∧ p.secrecyLevel = 0 ∧ NoSecrecy pg ps := by
  have hcnj : ((pg.getText ps.metadata "cnj").filter (· ≠ "")).getD p.code = p.code ↔
      SameCnj pg ps p := by
    unfold SameCnj
    cases pg.getText ps.metadata "cnj" with
    | none => simp
    | some cnj =>
        by_cases hcnj : cnj = ""
        · simp [hcnj, Option.filter]
        · simp [hcnj, Option.filter]
  have hinstance : (hasKey ps.metadata "instance" = false ∨ hasKey p.header "instance" = false ∨
      ∃ name, pg.getText ps.metadata "instance" = some name ∧
        pg.getText p.header "instance" = some name) ↔ SameInstance pg ps p := by
    unfold SameInstance
    cases hasKey ps.metadata "instance" <;> cases hasKey p.header "instance" <;> simp
  have hprivate : ["true", "1", "yes"].contains
      (pg.lower ((pg.getText ps.metadata "private").getD "false")) = false ↔ ¬Private pg ps := by
    unfold Private
    cases pg.getText ps.metadata "private" with
    | none => simp [pg.lower_false]
    | some mark => simp
  unfold eligible
  rw [holdsAll_eq_true]
  simp only [eligibleConditions, List.forall_mem_cons, Except.ok.injEq, Option.some.injEq,
    beq_iff_eq, sqlOr_eq_true, sqlNot_eq_true, sqlEq_eq_true, integerOr_eq_true]
  rw [hcnj, hinstance, hprivate]
  show _ ∧ _ ∧ _ ∧ _ ∧ _ ∧ _ ∧ NoSecrecy pg ps ∧ (∀ c ∈ [], c = _) ↔ _
  simp

end Predicate

/-! ## §4. Queries over the eligible movements. -/

/-- `Step`: a movement as retrieval hands it on. -/
structure Step where
  id : Uuid
  stepNumber : Int
  text : String
  title : Option String := none
  occurredAt : Option Timestamp := none
  sourceStepNumber : Option Int := none
deriving Repr, DecidableEq

section Queries

variable {F : Type} (pg : Postgres) (db : Database F)

/-- `process_steps ps JOIN process_versions pv ON pv.id = ps.version_id JOIN
processes p ON p.id = pv.process_id`. -/
def Database.joined : List (ProcessStep F × ProcessVersion × Process) :=
  db.steps.flatMap fun ps =>
    (db.versions.filter fun pv => pv.id == ps.versionId).flatMap fun pv =>
      (db.processes.filter fun p => p.id == pv.processId).map fun p => (ps, pv, p)

/-- **The movement of this id satisfies `ELIGIBLE_PROCESS_STEP_SQL`**, as a
movement of the version. -/
def Database.EligibleStep (versionId stepId : Uuid) : Prop :=
  ∃ row ∈ db.joined, row.1.id = stepId ∧ row.1.versionId = versionId ∧
    eligible pg row.1 row.2.1 row.2.2 = .ok true

/-- `SELECT ps.* … WHERE ps.version_id = $1 AND … AND
{ELIGIBLE_PROCESS_STEP_SQL}`. -/
def Database.selectSteps (versionId : Uuid) (also : ProcessStep F → Bool) :
    Except String (List (ProcessStep F)) := do
  let rows ← selectWhere (fun row => holdsAll (.ok (some (row.1.versionId == versionId)) ::
    .ok (some (also row.1)) :: eligibleConditions pg row.1 row.2.1 row.2.2)) db.joined
  return rows.map Prod.fst

/-- `ORDER BY ps.step_number ASC`. -/
def orderByNumber (rows : List (ProcessStep F)) : List (ProcessStep F) :=
  rows.insertionSort fun a b => a.stepNumber ≤ b.stepNumber

/-- The `Step` of a row. -/
def ProcessStep.toStep (ps : ProcessStep F) : Except String Step := do
  let sourceStepNumber ← integerOr (pg.getText ps.metadata "source_step_number") some none
  return { id := ps.id, stepNumber := ps.stepNumber, text := ps.text, title := ps.title,
           occurredAt := ps.occurredAt, sourceStepNumber }

/-- `load_steps`. -/
def loadSteps (versionId : Uuid) : Except String (List Step) := do
  let rows ← db.selectSteps pg versionId fun _ => true
  (orderByNumber rows).mapM (ProcessStep.toStep pg)

/-- `_eligible_score_map`: the scores of the eligible movements. -/
def eligibleScoreMap {S : Type} (versionId : Uuid) (scores : List (Uuid × S)) :
    Except String (List (Uuid × S)) := do
  if scores.isEmpty then return []
  let rows ← db.selectSteps pg versionId fun ps => (scores.map Prod.fst).contains ps.id
  return scores.filter fun score => (rows.map ProcessStep.id).contains score.1

instance (versionId stepId : Uuid) : Decidable (db.EligibleStep pg versionId stepId) :=
  inferInstanceAs (Decidable (∃ row ∈ db.joined, row.1.id = stepId ∧
    row.1.versionId = versionId ∧ eligible pg row.1 row.2.1 row.2.2 = .ok true))

variable {pg db}

/-- What a query with the predicate selects is eligible. -/
theorem Database.selectSteps_eligible {versionId : Uuid} {also : ProcessStep F → Bool}
    {rows : List (ProcessStep F)} (h : db.selectSteps pg versionId also = .ok rows)
    {ps : ProcessStep F} (hps : ps ∈ rows) : db.EligibleStep pg versionId ps.id := by
  obtain ⟨joined, hjoined, h⟩ := bind_eq_ok.1 h
  obtain rfl := Except.ok.inj h
  obtain ⟨row, hrow, rfl⟩ := List.mem_map.1 hps
  obtain ⟨hmem, hholds⟩ := (mem_selectWhere hjoined row).1 hrow
  rw [holdsAll_eq_true] at hholds
  have hversion := hholds _ List.mem_cons_self
  refine ⟨row, hmem, rfl, ?_, ?_⟩
  · simpa using hversion
  · exact holdsAll_eq_true.2 fun c hc =>
      hholds c (List.mem_cons_of_mem _ (List.mem_cons_of_mem _ hc))

/-- **`load_steps` returns eligible movements only.** -/
theorem mem_loadSteps {versionId : Uuid} {steps : List Step}
    (h : loadSteps pg db versionId = .ok steps) {step : Step} (hstep : step ∈ steps) :
    db.EligibleStep pg versionId step.id := by
  obtain ⟨rows, hrows, h⟩ := bind_eq_ok.1 h
  obtain ⟨ps, hps, hread⟩ := exists_of_forall₂_right (forall₂_of_mapM_eq_ok h) hstep
  obtain ⟨number, -, hread⟩ := bind_eq_ok.1 hread
  obtain rfl := Except.ok.inj hread
  refine db.selectSteps_eligible hrows ?_
  exact (List.perm_insertionSort _ rows).mem_iff.1 hps

end Queries

end Rpy.Retrieval

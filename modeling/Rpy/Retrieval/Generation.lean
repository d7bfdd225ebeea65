/-
  Rpy.Retrieval.Generation
  ────────────────────────
  **FROM THE MOVEMENTS OF A VERSION TO THE PROMPT** (`generate_summary`).

  A secret process sends nothing.  Any other loads its eligible movements,
  ranks them (a long list with the vectors, and with the reranker where one
  is configured) and writes those selected into the prompt.

    • `selectContextSteps` — the reranker is asked about the candidates,
    • `serializeSteps`     — the movements as the prompt holds them,
    • `loadContext`, `generateSummary`.

  `app/rag.py`, `app/reranking.py`, `app/reranker_provider.py`,
  `app/reranker_cohere.py`.
-/
import Rpy.Retrieval.Selection

namespace Rpy.Retrieval

open Rpy.Foundation

variable {F : Type}

/-! ## §1. Rerankers. -/

/-- What generation takes from the rest of the application. -/
structure Generation (F : Type) extends Ranking F where
  /-- `int(text)` -/
  parseInt : String → Option Int
  /-- the local reranker -/
  bgeScores : String → List String → Except String (List F)
  /-- `_load_publishable_summary` finds one -/
  hasPublishable : Database F → Uuid → Uuid → Except String Bool
  /-- the decoded fields of the process and its glossary -/
  processContext : Process → Except String Json
  /-- `source_warnings` -/
  sourceWarnings : Process → List Step → List String
  /-- `load_attachment_context` -/
  attachmentContext : Process → Uuid → Except String (Option Json)
  /-- the user prompt -/
  userPrompt : PromptContext → List String → String
  /-- the summary in a message -/
  readSummary : PromptContext → String → Except String String
  /-- the errors of `_validate_provider_summary` -/
  validateSummary : PromptContext → String → Except String (List String)

/-- `RETRIEVAL_QUERY`. -/
def retrievalQuery : String :=
  "sentença acórdão citação decisão audiência pedido objeto situação atual " ++
  "trânsito em julgado"

/-- A configured reranker. -/
inductive Scorer where
  | bge
  | cohere (model : String)
deriving Repr, DecidableEq

/-- `configured_reranker_scorer`. -/
def Deployment.configuredScorer (d : Deployment F) : Except String (Option Scorer) := do
  if !(← d.envBool "RERANKER_ENABLED" false) then return none
  let provider := d.python.casefold (d.python.strip (d.envOr "RERANKER_PROVIDER" "bge"))
  if provider = "bge" then return some .bge
  if provider ≠ "cohere" then throw ("unsupported RERANKER_PROVIDER: " ++ provider)
  if !(← d.envBool "ALLOW_EXTERNAL_RERANKER" false) then
    throw "Cohere reranking requires explicit ALLOW_EXTERNAL_RERANKER=true authorization"
  let model := d.python.strip (d.envOr "COHERE_RERANKER_MODEL" "rerank-v4.0-pro")
  if model = "" then throw "COHERE_RERANKER_MODEL must not be empty"
  return some (.cohere model)

section Paths

variable (d : Deployment F) (g : Generation F) (answers : Answers F)

/-- `_decode_scores`: each index once, each score finite. -/
def Deployment.decodeScores (ids : List Uuid) (results : List (Int × F)) :
    Except String (List (Uuid × F)) := do
  if results.length ≠ ids.length then throw "Cohere rerank returned an unexpected number of results"
  if ¬(results.map Prod.fst).Nodup then throw "Cohere rerank response contains an invalid index"
  results.mapM fun result => do
    match if result.1 < 0 then none else ids[result.1.toNat]? with
    | none => throw "Cohere rerank response contains an invalid index"
    | some id =>
        if !d.floats.isFinite result.2 then
          throw "Cohere rerank response contains a non-finite score"
        return (id, result.2)

/-- The document of a step. -/
def Step.document (step : Step) : Document where
  step := some step.id
  text := step.searchableText d.python

/-- `await scorer(query, steps)`. -/
def Scorer.run (query : String) (steps : List Step) : Scorer → Action F (List (Uuid × F))
  | .bge => do
      if d.blank query then throw "reranker query must not be empty"
      if steps.isEmpty then return []
      let scores ← MonadExcept.ofExcept
        (g.bgeScores query (steps.map fun step => step.searchableText d.python))
      MonadExcept.ofExcept (zipStrict (steps.map Step.id) scores)
  | .cohere model => do
      if d.blank query then throw "reranker query must not be empty"
      if steps.isEmpty then return []
      let settings ← MonadExcept.ofExcept (d.providerSettings "RERANKER_TIMEOUT_SECONDS")
      discard (MonadExcept.ofExcept d.cohereApiKey)
      let results ← callWithRetries settings
        (.cohereRerank model query (steps.map (Step.document d))) answers.cohereRerank
      MonadExcept.ofExcept (d.decodeScores (steps.map Step.id) results)

/-- The step as the model sees it. -/
def Step.viewed (step : Step) : Step :=
  { step with text := d.modelView step.text, title := step.title.map d.modelView }

/-- `RERANK_CANDIDATE_LIMIT`, `RERANK_OUTPUT_LIMIT`, `LEGACY_OUTPUT_LIMIT`. -/
def rerankCandidateLimit : Nat := 50
def rerankOutputLimit : Nat := 15
def legacyOutputLimit : Nat := 20

/-- `RerankerScorer`. -/
abbrev RerankerScorer (F : Type) := String → List Step → Action F (List (Uuid × F))

/-- `select_context_steps`, with any scorer. -/
def selectContextStepsWith (r : Ranking F) (query : String) (steps : List Step)
    (vectorScores : List (Uuid × F)) (scorer : Option (RerankerScorer F)) :
    Action F (List (RankedStep F)) := do
  let limit := if scorer.isSome then rerankCandidateLimit else legacyOutputLimit
  let candidates := rankSteps d r query steps vectorScores limit
  match scorer with
  | none => return candidates
  | some scorer =>
      if steps.length ≤ 40 then return candidates
      let candidateSteps := candidates.map RankedStep.step
      let scores ← scorer (d.modelView query) (candidateSteps.map (Step.viewed d))
      let selected ← MonadExcept.ofExcept
        (rerankSteps d r candidateSteps scores rerankOutputLimit)
      -- `by_id[step.id]`: of two candidates with one id, the later
      return selected.filterMap fun step =>
        candidates.reverse.find? fun candidate => candidate.step.id == step.id

/-- `select_context_steps`, with a configured reranker. -/
def selectContextSteps (query : String) (steps : List Step) (vectorScores : List (Uuid × F))
    (scorer : Option Scorer) : Action F (List (RankedStep F)) :=
  selectContextStepsWith d g.toRanking query steps vectorScores
    (scorer.map fun reranker query steps => reranker.run d g answers query steps)

/-! ## §2. The movements of the prompt. -/

/-- `_positive_env_int`. -/
def positiveEnvInt (name : String) (default : Nat) : Except String Nat :=
  match d.env name with
  | none => .ok default
  | some raw =>
      match g.parseInt raw with
      | none => .error (name ++ " must be an integer")
      | some value =>
          if value ≤ 0 then .error (name ++ " must be greater than zero") else .ok value.toNat

/-- `provider_context_limits`: of the prompt, of a movement and of all. -/
def contextLimits : Except String (Nat × Nat × Nat) := do
  let promptMax ← positiveEnvInt d g "PROVIDER_PROMPT_MAX_CHARS" 120000
  let stepMax ← positiveEnvInt d g "PROVIDER_STEP_TEXT_MAX_CHARS" 12000
  let stepsTotalMax ← positiveEnvInt d g "PROVIDER_STEPS_TEXT_MAX_CHARS" 80000
  if stepsTotalMax < stepMax then
    throw "PROVIDER_STEP_TEXT_MAX_CHARS must not exceed PROVIDER_STEPS_TEXT_MAX_CHARS"
  if promptMax ≤ stepsTotalMax then
    throw "PROVIDER_STEPS_TEXT_MAX_CHARS must be lower than PROVIDER_PROMPT_MAX_CHARS"
  return (promptMax, stepMax, stepsTotalMax)

/-- `TRUNCATION_MARKER`. -/
def truncationMarker : String := "… [truncated]"

/-- `_truncate_text`. -/
def truncateText (text : String) (limit : Nat) : String :=
  if text.length ≤ limit then text
  else if limit ≤ truncationMarker.length then String.ofList (text.toList.take limit)
  else String.ofList (text.toList.take (limit - truncationMarker.length)) ++ truncationMarker

/-- The loop that shares what remains among the texts that remain. -/
def boundTexts : Nat → List String → List String
  | _, [] => []
  | remaining, text :: rest =>
      let rendered := truncateText text (remaining / (rest.length + 1))
      rendered :: boundTexts (remaining - rendered.length) rest

/-- `_serialize_steps`. -/
def serializeSteps (ranked : List (RankedStep F)) : Except String (List PromptStep) := do
  let (_, stepMax, stepsTotalMax) ← contextLimits d g
  let texts := ranked.map fun item => truncateText (d.modelView item.step.text) stepMax
  let texts := if stepsTotalMax < (texts.map String.length).sum then
    boundTexts stepsTotalMax texts else texts
  return (ranked.zip texts).map fun (item, text) =>
    { stepId := item.step.id, stepNumber := item.step.stepNumber,
      occurredAt := item.step.occurredAt.map d.python.isoSaoPaulo,
      title := item.step.title.map d.modelView, text }

/-- The movements as `_provider_payload` renders them once more. -/
def PromptStep.viewed (step : PromptStep) : PromptStep :=
  { step with
    occurredAt := step.occurredAt.map d.modelView
    title := step.title.map d.modelView
    text := d.modelView step.text }

/-! ## §3. Generation. -/

/-- The row `_load_process` reads. -/
def Database.currentProcess (db : Database F) (processId versionId : Uuid) :
    Except String Process :=
  match db.processes.find? fun p => p.id == processId && p.currentVersionId == some versionId with
  | some p => .ok p
  | none => .error "process/version is not current or does not exist"

/-- The reranker, asked for a long process only. -/
def Deployment.scorerFor (steps : List Step) : Except String (Option Scorer) :=
  if 40 < steps.length then d.configuredScorer else .ok none

/-- The vector scores of a long process, where vector retrieval is configured. -/
def loadVectorScores (versionId : Uuid) (steps : List Step) (limit : Nat) :
    Action F (List (Uuid × F)) := do
  if steps.length ≤ 40 then return []
  if ← MonadExcept.ofExcept d.vectorRetrievalConfigured then
    discard (ensureStepEmbeddings d answers versionId)
    let queryVector ← embedQuery d answers retrievalQuery
    vectorSearch d versionId queryVector limit
  else return []

/-- The attachments, for the tenant that asked. -/
def Generation.attachments (p : Process) : Option Uuid → Except String (Option Json)
  | none => .ok none
  | some tenantId => g.attachmentContext p tenantId

/-- `_load_context`; `none` for a secret process. -/
def loadContext (processId versionId : Uuid) (tenantId : Option Uuid) :
    Action F (Option PromptContext) := do
  let s ← get
  let p ← MonadExcept.ofExcept (s.db.currentProcess processId versionId)
  if 0 < p.secrecyLevel then return none
  let process ← MonadExcept.ofExcept (g.processContext p)
  let steps ← MonadExcept.ofExcept (loadSteps d.postgres s.db versionId)
  let scorer ← MonadExcept.ofExcept (d.scorerFor steps)
  let limit := if scorer.isSome then rerankCandidateLimit else 40
  let vectorScores ← loadVectorScores d answers versionId steps limit
  let ranked ← selectContextSteps d g answers retrievalQuery steps vectorScores scorer
  let serialized ← MonadExcept.ofExcept (serializeSteps d g ranked)
  let attachments ← MonadExcept.ofExcept (g.attachments p tenantId)
  return some
    { process, stepCount := steps.length, sourceWarnings := g.sourceWarnings p steps,
      attachments, steps := serialized.map (PromptStep.viewed d) }

/-- `_generation_model`. -/
def PromptContext.model (context : PromptContext) : String :=
  if 100 < context.stepCount then "claude-opus-5" else "claude-sonnet-5"

/-- `_generate`. -/
def generate (context : PromptContext) (errors : List String) : Action F String := do
  let (promptMax, _, _) ← MonadExcept.ofExcept (contextLimits d g)
  if promptMax < (g.userPrompt context errors).length then
    throw "provider prompt exceeds PROVIDER_PROMPT_MAX_CHARS"
  let settings ← MonadExcept.ofExcept (d.providerSettings "ANTHROPIC_TIMEOUT_SECONDS")
  let message ← callWithRetries settings (.anthropicMessages context.model context errors)
    answers.anthropicMessages
  MonadExcept.ofExcept (g.readSummary context message)

/-- `generate_summary`, up to the validation of the summary it stores. -/
def generateSummary (processId versionId : Uuid) (tenantId : Option Uuid) :
    Action F Unit := do
  let s ← get
  if ← MonadExcept.ofExcept (g.hasPublishable s.db processId versionId) then return
  match ← loadContext d g answers processId versionId tenantId with
  | none => return
  | some context =>
      if d.envOr "ANTHROPIC_API_KEY" "" = "" then throw "ANTHROPIC_API_KEY is required"
      discard (MonadExcept.ofExcept (d.providerSettings "ANTHROPIC_TIMEOUT_SECONDS"))
      let text ← generate d g answers context []
      let errors ← MonadExcept.ofExcept (g.validateSummary context text)
      if errors ≠ [] then
        let text ← generate d g answers context errors
        discard (MonadExcept.ofExcept (g.validateSummary context text))

end Paths

end Rpy.Retrieval

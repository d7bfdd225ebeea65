/-
  Rpy.Retrieval.Embeddings
  ────────────────────────
  **THE TWO EMBEDDING PATHS AND WHAT THEY SEND OUT.**

  A computation keeps the list of the calls it made to external providers:
  what it sent before it raised stays sent.  The legacy path embeds with
  OpenAI; the embedding-space runtime embeds with the local BGE model, or
  with Cohere where the deployment authorises it.

    • `ensureSpaceEmbeddings` — `ActiveEmbeddingRuntime.ensure_step_embeddings`,
    • `ensureStepEmbeddings`  — `embeddings.ensure_step_embeddings`,
    • `vectorSearch`          — `retrieval.vector_search`.

  `app/embedding_runtime.py`, `app/embeddings.py`, `app/embedding_spaces.py`,
  `app/embedding_store.py`, `app/embeddings_cohere.py`, `app/retrieval.py`.
-/
import Rpy.Foundation.Effects
import Rpy.Retrieval.Eligibility

namespace Rpy.Retrieval

open Rpy.Foundation

/-! ## §1. Calls and their answers. -/

/-- A text in a request.  The movement it was made from is not part of the
request; a query has none. -/
structure Document where
  step : Option Uuid
  text : String
deriving Repr, DecidableEq

/-- A movement in the prompt: `evidence_ref` is that of its id. -/
structure PromptStep where
  stepId : Uuid
  stepNumber : Int
  occurredAt : Option String
  title : Option String
  text : String
deriving Repr, DecidableEq

/-- What a prompt is made of: the fields of the process, the warnings about
its sources, its attachments and its movements. -/
structure PromptContext where
  process : Json
  stepCount : Nat
  sourceWarnings : List String
  attachments : Option Json
  steps : List PromptStep
deriving Repr, DecidableEq

/-- A request to an external provider, sent once. -/
inductive Call where
  | openaiEmbeddings (model : String) (dimensions : Option Nat) (input : List Document)
  | cohereEmbed (model inputType : String) (texts : List Document)
  | cohereRerank (model query : String) (documents : List Document)
  | anthropicMessages (model : String) (context : PromptContext) (errors : List String)
deriving DecidableEq

/-- The movements whose title or text a call sends. -/
def Call.stepIds : Call → List Uuid
  | .openaiEmbeddings _ _ documents | .cohereEmbed _ _ documents | .cohereRerank _ _ documents =>
      documents.filterMap Document.step
  | .anthropicMessages _ context _ => context.steps.map PromptStep.stepId

/-- What a request raised, and whether the adapter's `is_retryable` takes it. -/
structure ProviderError where
  message : String
  retryable : Bool := false
deriving Repr, DecidableEq

/-- How a transaction ends.  Where the connection is lost with the answer to
`COMMIT`, it took effect although the application sees an error. -/
inductive TransactionEnd where
  | commits
  | rollsBack (error : String)
  | commitsUnseen (error : String)
deriving Repr, DecidableEq

/-- The database, and the calls made so far. -/
structure State (F : Type) where
  db : Database F
  calls : List Call := []

/-- What the providers answer, given the calls made so far: the decoded
response to the last one, or its error.  And how the queries of the fillers
fare: what they raise where they look for the movements without a vector, and
how the transactions that store a batch end. -/
structure Answers (F : Type) where
  openaiEmbeddings : List Call → Except ProviderError (List (Int × List F))
  cohereEmbed : List Call → Except ProviderError (List (List F))
  cohereRerank : List Call → Except ProviderError (List (Int × F))
  anthropicMessages : List Call → Except ProviderError String
  fetch : State F → Except String Unit := fun _ => .ok ()
  transaction : State F → TransactionEnd := fun _ => .commits

/-- A computation of the application. -/
abbrev Action (F α : Type) := ExceptT String (StateM (State F)) α

variable {F : Type}

/-- `ProviderSettings`, as `validate` lets them pass. -/
structure ProviderSettings where
  maxAttempts : Nat := 2
  maxAttempts_pos : 0 < maxAttempts := by decide
  maxAttempts_le : maxAttempts ≤ 3 := by decide

/-- The settings where none is configured. -/
def ProviderSettings.unset : ProviderSettings := {}

/-- The loop of `call_with_retries`, with `attempts` left: each attempt sends
the call, and waits for its answer. -/
def retryCall {α : Type} (call : Call) (answer : List Call → Except ProviderError α) :
    Nat → Action F α
  | 0 => throw "provider retry loop exhausted unexpectedly"
  | attempts + 1 => do
      modifyThe (State F) fun s => { s with calls := s.calls ++ [call] }
      let s ← get
      match answer s.calls with
      | .ok response => return response
      | .error e =>
          if attempts = 0 ∨ e.retryable = false then throw e.message
          else retryCall call answer attempts

/-- `call_with_retries`. -/
def callWithRetries {α : Type} (settings : ProviderSettings) (call : Call)
    (answer : List Call → Except ProviderError α) : Action F α :=
  retryCall call answer settings.maxAttempts

/-- `async with conn.transaction()`, around a change of the database. -/
def transaction (answers : Answers F) (change : Database F → Database F) : Action F Unit := do
  let s ← get
  match answers.transaction s with
  | .commits => modifyThe (State F) fun s => { s with db := change s.db }
  | .rollsBack error => throw error
  | .commitsUnseen error => do
      modifyThe (State F) fun s => { s with db := change s.db }
      throw error

/-! ## §2. The deployment. -/

/-- Floating-point arithmetic and `pgvector`. -/
structure Floats (F : Type) where
  zero : F
  one : F
  isFinite : F → Bool
  /-- is it finite in single precision, as `vector` stores its elements? -/
  storable : F → Bool
  lt : F → F → Bool
  /-- `a <=> b`, for vectors of the same dimensions -/
  distance : List F → List F → F
  /-- `1 - distance` -/
  similarity : F → F
  isFinite_zero : isFinite zero = true

/-- What retrieval takes from its deployment. -/
structure Deployment (F : Type) where
  python : Python
  postgres : Postgres
  floats : Floats F
  /-- `os.environ.get` -/
  env : String → Option String
  /-- `ProviderSettings.from_env(timeout_env=…)` -/
  providerSettings : String → Except String ProviderSettings
  /-- does the plan of a query that orders by the distance to a vector go over
  a movement?  An exact plan goes over all, a scan of an `hnsw` index leaves
  some out -/
  visits : List F → Uuid → Bool
  /-- `model_view_text(text).text` -/
  modelView : String → String
  /-- the local encoder of BGE-M3 -/
  bgeEncode : List String → Except String (List (List F))

/-- `str(os.environ.get(name) or default)`. -/
def Deployment.envOr (d : Deployment F) (name default : String) : String :=
  ((d.env name).filter (· ≠ "")).getD default

/-- `_env_bool`. -/
def Deployment.envBool (d : Deployment F) (name : String) (default : Bool) : Except String Bool :=
  match d.env name with
  | none => .ok default
  | some raw =>
      let normalized := d.python.casefold (d.python.strip raw)
      if ["1", "true", "yes", "on"].contains normalized then .ok true
      else if ["0", "false", "no", "off"].contains normalized then .ok false
      else .error (name ++ " must be a boolean")

/-- A text that `str.strip` leaves empty. -/
def Deployment.blank (d : Deployment F) (text : String) : Bool := d.python.strip text == ""

/-! ## §3. Embedding spaces. -/

/-- `EmbeddingSpace`. -/
structure EmbeddingSpace where
  provider : String
  model : String
  dimensions : Nat := 1024
deriving Repr, DecidableEq

def bgeProvider : String := "bge"
def cohereProvider : String := "cohere"
def bgeModel : String := "BAAI/bge-m3"
def cohereModel : String := "embed-v4.0"

/-- `embedding_space_runtime_enabled`. -/
def Deployment.runtimeEnabled (d : Deployment F) : Except String Bool :=
  d.envBool "EMBEDDING_SPACE_RUNTIME_ENABLED" false

/-- `active_embedding_space`. -/
def Deployment.activeSpace (d : Deployment F) : Except String EmbeddingSpace := do
  let provider := d.python.casefold (d.python.strip (d.envOr "EMBEDDING_PROVIDER" bgeProvider))
  if provider = bgeProvider then
    let model := d.python.strip (d.envOr "BGE_EMBEDDING_MODEL" bgeModel)
    if model ≠ bgeModel then throw ("unsupported BGE embedding model: " ++ model)
    return { provider := bgeProvider, model }
  if provider = cohereProvider then
    if !(← d.envBool "ALLOW_EXTERNAL_EMBEDDINGS" false) then
      throw "Cohere embeddings require ALLOW_EXTERNAL_EMBEDDINGS=true"
    let model := d.python.strip (d.envOr "COHERE_EMBEDDING_MODEL" cohereModel)
    if model ≠ cohereModel then throw ("unsupported Cohere embedding model: " ++ model)
    return { provider := cohereProvider, model }
  throw ("unsupported EMBEDDING_PROVIDER: " ++ provider)

/-- `get_active_embedding_runtime`: the runtime is that of its space. -/
def Deployment.activeRuntime (d : Deployment F) : Except String EmbeddingSpace := do
  if !(← d.runtimeEnabled) then throw "embedding-space runtime is not enabled"
  let space ← d.activeSpace
  if space.provider = bgeProvider then
    discard (d.envBool "BGE_EMBEDDING_USE_FP16" false)
  return space

/-- `assert_embedding_dimensions`. -/
def Deployment.assertDimensions (d : Deployment F) (space : EmbeddingSpace) (vector : List F) :
    Except String Unit :=
  if vector.length ≠ space.dimensions then .error "embedding dimension mismatch"
  else if vector.any fun x => !d.floats.isFinite x then
    .error "embedding vector contains non-finite values"
  else .ok ()

/-! ## §4. Encoders. -/

section Paths

variable (d : Deployment F) (answers : Answers F)

/-- `_decode_vectors` of the Cohere adapter. -/
def Deployment.decodeVectors (space : EmbeddingSpace) (expected : Nat) (raw : List (List F)) :
    Except String (List (List F)) := do
  if raw.length ≠ expected then throw "Cohere returned an unexpected number of vectors"
  raw.forM (d.assertDimensions space)
  return raw

/-- `_api_key` of the Cohere adapters. -/
def Deployment.cohereApiKey : Except String String :=
  let value := d.python.strip (d.envOr "COHERE_API_KEY" "")
  if value = "" then .error "COHERE_API_KEY is required" else .ok value

/-- `CohereEmbeddingEncoder._embed`. -/
def cohereEmbed (space : EmbeddingSpace) (documents : List Document) (inputType : String) :
    Action F (List (List F)) := do
  if documents.isEmpty then return []
  if documents.any fun document => d.blank document.text then
    throw "embedding inputs must be non-empty text"
  let settings ← MonadExcept.ofExcept (d.providerSettings "EMBEDDING_TIMEOUT_SECONDS")
  discard (MonadExcept.ofExcept d.cohereApiKey)
  let raw ← callWithRetries settings (.cohereEmbed space.model inputType documents)
    answers.cohereEmbed
  MonadExcept.ofExcept (d.decodeVectors space documents.length raw)

/-- `BGEEmbeddingEncoder.embed_documents`: nothing leaves the deployment. -/
def bgeEmbed (space : EmbeddingSpace) (documents : List Document) : Action F (List (List F)) := do
  if documents.isEmpty then return []
  if documents.any fun document => d.blank document.text then
    throw "embedding inputs must be non-empty text"
  let raw ← MonadExcept.ofExcept (d.bgeEncode (documents.map Document.text))
  MonadExcept.ofExcept (d.decodeVectors space documents.length raw)

/-- `encoder.embed_documents`, for the encoder of the space. -/
def embedDocuments (space : EmbeddingSpace) (documents : List Document) :
    Action F (List (List F)) :=
  if space.provider = cohereProvider then
    cohereEmbed d answers space documents "search_document"
  else bgeEmbed d space documents

/-- `str(model or EMBEDDING_MODEL).strip()`, where it is a supported model. -/
def Deployment.validateEmbeddingModel : Except String String :=
  let configured := d.python.strip ((d.env "EMBEDDING_MODEL").getD "text-embedding-3-small")
  if configured = "" then .error "EMBEDDING_MODEL must not be empty"
  else if ["text-embedding-3-small", "text-embedding-3-large",
      "text-embedding-ada-002"].contains configured then .ok configured
  else .error ("unsupported EMBEDDING_MODEL for vector(1536) schema: " ++ configured)

/-- `_validate_response`. -/
def validateResponse (data : List (Int × List F)) (expected : Nat) :
    Except String (List (List F)) := do
  if data.length ≠ expected then
    throw "embedding provider returned an unexpected number of vectors"
  let ordered := data.insertionSort fun a b => a.1 ≤ b.1
  if ordered.map Prod.fst ≠ (List.range expected).map Int.ofNat then
    throw "embedding provider returned unexpected vector indexes"
  if ordered.any fun item => item.2.length != 1536 then throw "embedding dimension mismatch"
  return ordered.map Prod.snd

/-- `_legacy_embed_texts`. -/
def legacyEmbedTexts (documents : List Document) : Action F (List (List F)) := do
  let model ← MonadExcept.ofExcept d.validateEmbeddingModel
  if d.envOr "OPENAI_API_KEY" "" = "" then
    throw "OPENAI_API_KEY is required when legacy vector retrieval is used"
  let settings ← MonadExcept.ofExcept (d.providerSettings "EMBEDDING_TIMEOUT_SECONDS")
  let dimensions := if model = "text-embedding-ada-002" then none else some 1536
  let data ← callWithRetries settings (.openaiEmbeddings model dimensions documents)
    answers.openaiEmbeddings
  MonadExcept.ofExcept (validateResponse data documents.length)

/-- The text of a document as the model sees it. -/
def Deployment.viewed (document : Document) : Document :=
  { document with text := d.modelView document.text }

/-- `embed_texts`. -/
def embedTexts (documents : List Document) : Action F (List (List F)) := do
  if documents.isEmpty then return []
  let values := documents.map d.viewed
  if values.any fun value => d.blank value.text then
    throw "embedding inputs must be non-empty text"
  if ← MonadExcept.ofExcept d.runtimeEnabled then
    let space ← MonadExcept.ofExcept d.activeRuntime
    embedDocuments d answers space values
  else legacyEmbedTexts d answers values

/-- `embeddings.embed_query`. -/
def embedQuery (text : String) : Action F (List F) := do
  let value : Document := d.viewed { step := none, text }
  if d.blank value.text then throw "embedding query must be non-empty text"
  let vectors ← if ← MonadExcept.ofExcept d.runtimeEnabled then do
      let space ← MonadExcept.ofExcept d.activeRuntime
      if space.provider = cohereProvider then cohereEmbed d answers space [value] "search_query"
      else bgeEmbed d space [value]
    else embedTexts d answers [value]
  match vectors.head? with
  | some vector => return vector
  | none => throw "list index out of range"

/-! ## §5. The fillers. -/

/-- `trim(text)`. -/
def sqlTrim (text : String) : String :=
  let front := text.toList.dropWhile (· == ' ')
  String.ofList (front.reverse.dropWhile (· == ' ')).reverse

/-- `length(trim(coalesce(ps.title, '') || ' ' || ps.text)) > 0`. -/
def ProcessStep.hasContent (ps : ProcessStep F) : Bool :=
  0 < (sqlTrim (ps.title.getD "" ++ " " ++ ps.text)).length

/-- `coalesce(ps.title, '') || CASE WHEN ps.title IS NULL THEN '' ELSE E'\n'
END || ps.text`, with the movement it is of. -/
def ProcessStep.document (ps : ProcessStep F) : Document where
  step := some ps.id
  text := match ps.title with
    | none => ps.text
    | some title => title ++ "\n" ++ ps.text

/-- `EMBEDDING_BATCH_SIZE`. -/
def embeddingBatchSize : Nat := 64

/-- `rows[start : start + EMBEDDING_BATCH_SIZE]`, for every `start`. -/
def batches {α : Type} (rows : List α) : List (List α) :=
  (List.range ((rows.length + embeddingBatchSize - 1) / embeddingBatchSize)).map fun i =>
    (rows.drop (i * embeddingBatchSize)).take embeddingBatchSize

/-- `zip(batch, vectors, strict=True)`. -/
def zipStrict {α β : Type} (xs : List α) (ys : List β) : Except String (List (α × β)) :=
  if xs.length = ys.length then .ok (xs.zip ys) else .error "zip() arguments differ in length"

/-- The loop over the batches: each is embedded, then stored. -/
def fillBatches (embed : List Document → Action F (List (List F)))
    (store : List (Uuid × List F) → Action F Nat) :
    List (List (ProcessStep F)) → Action F Nat
  | [] => return 0
  | batch :: rest => do
      let vectors ← embed (batch.map ProcessStep.document)
      let items ← MonadExcept.ofExcept (zipStrict (batch.map ProcessStep.id) vectors)
      let updated ← store items
      return updated + (← fillBatches embed store rest)

/-- The row of a vector, in the table of the embedding spaces. -/
def EmbeddingSpace.holds (space : EmbeddingSpace) (stepId : Uuid) (e : StepEmbedding F) : Bool :=
  e.stepId == stepId && e.provider == space.provider && e.model == space.model

/-- `INSERT INTO process_step_embeddings … ON CONFLICT (step_id, provider,
model) DO UPDATE`. -/
def upsertStepEmbedding (space : EmbeddingSpace) (rows : List (StepEmbedding F))
    (item : Uuid × List F) : List (StepEmbedding F) :=
  if rows.any (space.holds item.1) then
    updateWhere (space.holds item.1)
      (fun e => { e with dimensions := space.dimensions, embedding := item.2 }) rows
  else rows ++ [{ stepId := item.1, provider := space.provider, model := space.model,
                  dimensions := space.dimensions, embedding := item.2 }]

/-- `upsert_step_embeddings`, in its transaction. -/
def upsertStepEmbeddings (space : EmbeddingSpace) (items : List (Uuid × List F)) :
    Action F Nat := do
  MonadExcept.ofExcept (items.forM fun item => d.assertDimensions space item.2)
  transaction answers fun db =>
    { db with stepEmbeddings := items.foldl (upsertStepEmbedding space) db.stepEmbeddings }
  return items.length

/-- `SELECT p.secrecy_level FROM process_versions pv JOIN processes p ON p.id =
pv.process_id WHERE pv.id = $1`. -/
def Database.secrecyLevel (db : Database F) (versionId : Uuid) : Option Int :=
  ((db.versions.filter fun pv => pv.id == versionId).flatMap fun pv =>
    (db.processes.filter fun p => p.id == pv.processId).map Process.secrecyLevel).head?

/-- The movements of the version with no vector in the space. -/
def Database.missingSteps (db : Database F) (space : EmbeddingSpace) (versionId : Uuid) :
    List (ProcessStep F) :=
  orderByNumber (db.steps.filter fun ps =>
    ps.versionId == versionId && !(db.stepEmbeddings.any (space.holds ps.id)) && ps.hasContent)

/-- `ActiveEmbeddingRuntime.ensure_step_embeddings`. -/
def ensureSpaceEmbeddings (space : EmbeddingSpace) (versionId : Uuid) : Action F Nat := do
  let s ← get
  MonadExcept.ofExcept (answers.fetch s)
  match s.db.secrecyLevel versionId with
  | none => throw "process version does not exist"
  | some secrecyLevel =>
      if space.provider = cohereProvider ∧ 0 < secrecyLevel then
        throw "secret process versions cannot use external embeddings"
      fillBatches (fun documents => embedDocuments d answers space (documents.map d.viewed))
        (upsertStepEmbeddings d answers space) (batches (s.db.missingSteps space versionId))

/-- `UPDATE process_steps SET embedding = $2::vector WHERE id = $1 AND
version_id = $3`. -/
def Database.setEmbedding (versionId : Uuid) (db : Database F) (item : Uuid × List F) :
    Database F :=
  { db with
    steps := updateWhere (fun ps => ps.id == item.1 && ps.versionId == versionId)
      (fun ps => { ps with embedding := some item.2 }) db.steps
    steps_nodup := by
      rw [map_updateWhere (f := fun ps : ProcessStep F => { ps with embedding := some item.2 })
        (g := ProcessStep.id) fun _ => rfl]
      exact db.steps_nodup }

/-- `embeddings.ensure_step_embeddings`. -/
def ensureStepEmbeddings (versionId : Uuid) : Action F Nat := do
  if ← MonadExcept.ofExcept d.runtimeEnabled then
    let space ← MonadExcept.ofExcept d.activeRuntime
    ensureSpaceEmbeddings d answers space versionId
  else
    let s ← get
    MonadExcept.ofExcept (answers.fetch s)
    let rows ← MonadExcept.ofExcept (s.db.selectSteps d.postgres versionId fun ps =>
      ps.embedding.isNone && ps.hasContent)
    fillBatches (embedTexts d answers)
      (fun items => do
        transaction answers fun db => items.foldl (Database.setEmbedding versionId) db
        return items.length)
      (batches (orderByNumber rows))

/-- `vector_retrieval_configured`. -/
def Deployment.vectorRetrievalConfigured : Except String Bool := do
  if ← d.runtimeEnabled then
    discard d.activeRuntime
    return true
  return d.python.strip (d.envOr "OPENAI_API_KEY" "") != ""

/-! ## §6. Vector search. -/

/-- `max(0.0, float(similarity))`. -/
def Floats.score (f : Floats F) (distance : F) : F :=
  if f.lt f.zero (f.similarity distance) then f.similarity distance else f.zero

/-- `$n::vector`. -/
def Floats.toVector (f : Floats F) (xs : List F) : Except String (List F) :=
  if xs.isEmpty then .error "vector must have at least 1 dimension"
  else if 16000 < xs.length then .error "vector cannot have more than 16000 dimensions"
  else if xs.any fun x => !f.storable x then .error "NaN or infinite value not allowed in vector"
  else .ok xs

/-- `a <=> b`. -/
def Floats.cosine (f : Floats F) (a b : List F) : Except String F :=
  if a.length ≠ b.length then .error "different vector dimensions" else .ok (f.distance a b)

/-- `vector_search_space`. -/
def Deployment.vectorSearchSpace (db : Database F) (space : EmbeddingSpace) (versionId : Uuid)
    (embedding : List F) (limit : Nat) : Except String (List (Uuid × F)) := do
  if limit = 0 then throw "vector search limit must be positive"
  d.assertDimensions space embedding
  let query ← d.floats.toVector embedding
  let found := db.stepEmbeddings.flatMap fun e =>
    (db.steps.filter fun ps => ps.id == e.stepId && ps.versionId == versionId &&
      space.holds ps.id e && d.visits query ps.id).map fun ps => (ps, e.embedding)
  let rows ← found.mapM fun row => (d.floats.cosine row.2 query).map (row.1, ·)
  let ordered := rows.insertionSort fun a b =>
    d.floats.lt a.2 b.2 ∨ (¬d.floats.lt b.2 a.2 ∧ b.1.stepNumber ≤ a.1.stepNumber)
  return (ordered.take limit).map fun row => (row.1.id, d.floats.score row.2)

/-- `vector_search`. -/
def vectorSearch (versionId : Uuid) (embedding : List F) (limit : Nat) :
    Action F (List (Uuid × F)) := do
  let s ← get
  if ← MonadExcept.ofExcept d.runtimeEnabled then
    let space ← MonadExcept.ofExcept d.activeRuntime
    let scores ← MonadExcept.ofExcept (d.vectorSearchSpace s.db space versionId embedding limit)
    MonadExcept.ofExcept (eligibleScoreMap d.postgres s.db versionId scores)
  else
    let query ← MonadExcept.ofExcept (d.floats.toVector embedding)
    let rows ← MonadExcept.ofExcept (s.db.selectSteps d.postgres versionId fun ps =>
      ps.embedding.isSome && d.visits query ps.id)
    let measured ← MonadExcept.ofExcept (rows.mapM fun ps =>
      (d.floats.cosine (ps.embedding.getD []) query).map (ps.id, ·))
    let ordered := measured.insertionSort fun a b => ¬d.floats.lt b.2 a.2
    return (ordered.take limit).map fun row => (row.1, d.floats.score row.2)

end Paths

end Rpy.Retrieval

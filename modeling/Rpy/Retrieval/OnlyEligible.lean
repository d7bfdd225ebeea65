/-
  Rpy.Retrieval.OnlyEligible
  ──────────────────────────
  **WHICH MOVEMENTS REACH AN EXTERNAL PROVIDER.**

  Every query of retrieval repeats the eligibility predicate but one: the
  filler of the embedding-space runtime selects the movements without a
  vector, whatever their metadata say.  Where the space is Cohere's, these
  are sent.

    • `OnlyEligible`  — nothing but eligible movements is sent,
    • `MissingEligible` — what the filler sends happens to be eligible,
    • `onlyEligible_iff` — the first holds exactly when the second does.
-/
import Rpy.Retrieval.Generation

namespace Rpy.Retrieval

open Rpy.Foundation

variable {F : Type}

/-! ## §1. The ways out. -/

/-- What sends movements of a version to a provider. -/
inductive Entry where
  /-- `embeddings.ensure_step_embeddings` -/
  | fill
  /-- `get_active_embedding_runtime().ensure_step_embeddings`, as the reindex
  command calls it -/
  | reindex
  /-- `generate_summary` -/
  | generate (processId : Uuid) (tenantId : Option Uuid)
deriving Repr, DecidableEq

section Property

variable (d : Deployment F) (g : Generation F)

def Entry.run (answers : Answers F) (versionId : Uuid) : Entry → Action F Unit
  | .fill => discard (ensureStepEmbeddings d answers versionId)
  | .reindex => do
      let space ← MonadExcept.ofExcept d.activeRuntime
      discard (ensureSpaceEmbeddings d answers space versionId)
  | .generate processId tenantId =>
      generateSummary d g answers processId versionId tenantId

/-- The calls an entry makes from a database. -/
def Entry.calls (answers : Answers F) (db : Database F) (versionId : Uuid) (entry : Entry) :
    List Call :=
  ((entry.run d g answers versionId).run.run { db }).2.calls

/-- **Only eligible movements reach a provider**: whatever the providers
answer, a movement whose title or text is sent is a movement of the version
that satisfies `ELIGIBLE_PROCESS_STEP_SQL`. -/
def OnlyEligible (db : Database F) (versionId : Uuid) : Prop :=
  ∀ (answers : Answers F) (entry : Entry), ∀ call ∈ entry.calls d g answers db versionId,
    ∀ stepId ∈ call.stepIds, db.EligibleStep d.postgres versionId stepId

/-- The deployment embeds with Cohere, in this space. -/
def Deployment.EmbedsWithCohere (space : EmbeddingSpace) : Prop :=
  d.activeRuntime = .ok space ∧ space.provider = cohereProvider ∧
    (d.providerSettings "EMBEDDING_TIMEOUT_SECONDS").isOk = true ∧ d.cohereApiKey.isOk = true

/-- A batch whose texts are not blank as the model sees them. -/
def Deployment.accepts (batch : List (ProcessStep F)) : Bool :=
  batch.all fun ps => !d.blank (d.modelView ps.document.text)

/-- The movements without a vector, up to the first batch that the encoder
refuses for a blank text. -/
def Deployment.embeddedSteps (db : Database F) (space : EmbeddingSpace) (versionId : Uuid) :
    List (ProcessStep F) :=
  ((batches (db.missingSteps space versionId)).takeWhile d.accepts).flatten

/-- **The movements that Cohere is missing are eligible**, or there are none
to send: another provider, no key, a secret process. -/
def MissingEligible (db : Database F) (versionId : Uuid) : Prop :=
  ∀ space, d.EmbedsWithCohere space → (∃ level ≤ 0, db.secrecyLevel versionId = some level) →
    ∀ ps ∈ d.embeddedSteps db space versionId, db.EligibleStep d.postgres versionId ps.id

end Property

/-! ## §2. What the paths keep. -/

section Keeping

variable {d : Deployment F} {g : Generation F} {answers : Answers F} {eligible : Uuid → Prop}

/-- The calls made so far send eligible movements only. -/
def Clean (eligible : Uuid → Prop) (s : State F) : Prop :=
  ∀ call ∈ s.calls, ∀ stepId ∈ call.stepIds, eligible stepId

theorem keeps_ofExcept {α : Type} {I : State F → Prop} (x : Except String α) :
    Keeps I (MonadExcept.ofExcept x : Action F α) :=
  .liftExcept (fun _ _ _ h => h) fun _ h => h

theorem keeps_discard {α : Type} {I : State F → Prop} {m : Action F α} (h : Keeps I m) :
    Keeps I (discard m) :=
  .bind h fun _ => .pure fun _ h => h

/-- The loop of a call: it was sent some times more, `attempts` at most. -/
theorem retryCall_spec {α : Type} {call : Call} {answer : List Call → Except ProviderError α}
    {db : Database F} (attempts : Nat) (calls : List Call) :
    Triple (fun s => s.db = db ∧ s.calls = calls) (retryCall call answer attempts : Action F α)
      (fun _ s => s.db = db ∧ ∃ k ≤ attempts, s.calls = calls ++ List.replicate k call)
      (fun s => s.db = db ∧ ∃ k ≤ attempts, s.calls = calls ++ List.replicate k call) := by
  induction attempts generalizing calls with
  | zero => exact .throw fun s hs => ⟨hs.1, 0, le_rfl, by simpa using hs.2⟩
  | succ attempts ih =>
      have hone : ∀ s : State F, s.db = db ∧ s.calls = calls ++ [call] →
          s.db = db ∧ ∃ k ≤ attempts + 1, s.calls = calls ++ List.replicate k call :=
        fun s hs => ⟨hs.1, 1, Nat.le_add_left _ _, hs.2⟩
      refine .bind (.modify (Q := fun _ s => s.db = db ∧ s.calls = calls ++ [call])
        fun s hs => ⟨hs.1, by rw [hs.2]⟩) fun _ => .bind (.get (Q := fun _ s =>
          s.db = db ∧ s.calls = calls ++ [call]) fun _ hs => hs) fun s => ?_
      cases answer s.calls with
      | ok response => exact .pure hone
      | error e =>
          refine .ite (fun _ => .throw hone) fun _ => (ih (calls ++ [call])).consequence
            (fun _ hs => hs) (fun _ t ht => ?_) fun t ht => ?_
          -- the send of this attempt, then those of the attempts left
          all_goals
            obtain ⟨hdb, k, hk, hcalls⟩ := ht
            exact ⟨hdb, k + 1, Nat.succ_le_succ hk, by
              rw [hcalls, List.append_assoc, List.replicate_succ, List.singleton_append]⟩

/-- A call that sends eligible movements only, however often. -/
theorem keeps_callWithRetries {α : Type} {settings : ProviderSettings} {call : Call}
    {answer : List Call → Except ProviderError α}
    (hcall : ∀ stepId ∈ call.stepIds, eligible stepId) :
    Keeps (Clean eligible) (callWithRetries settings call answer : Action F α) := by
  intro s hs
  have hclean : ∀ t : State F, (t.db = s.db ∧ ∃ k ≤ settings.maxAttempts,
      t.calls = s.calls ++ List.replicate k call) → Clean eligible t := by
    rintro t ⟨-, k, -, hcalls⟩ c hc
    rw [hcalls] at hc
    rcases List.mem_append.1 hc with hc | hc
    · exact hs c hc
    · rw [List.eq_of_mem_replicate hc]
      exact hcall
  exact ((retryCall_spec settings.maxAttempts s.calls).consequence (fun _ h => h)
    (fun _ t ht => hclean t ht) hclean) s ⟨rfl, rfl⟩

/-- Documents that are made from eligible movements, or from none. -/
def CleanDocuments (eligible : Uuid → Prop) (documents : List Document) : Prop :=
  ∀ stepId ∈ documents.filterMap Document.step, eligible stepId

/-- The Cohere encoder sends its documents, or raises before. -/
theorem keeps_cohereEmbed {space : EmbeddingSpace} {documents : List Document}
    {inputType : String}
    (h : CleanDocuments eligible documents ∨
      (d.providerSettings "EMBEDDING_TIMEOUT_SECONDS").isOk = false ∨
        d.cohereApiKey.isOk = false) :
    Keeps (Clean eligible) (cohereEmbed d answers space documents inputType) := by
  unfold cohereEmbed
  refine .ite (fun _ => .pure fun _ h => h) fun _ => .ite (fun _ => .throw_bind fun _ h => h)
    fun _ => ?_
  refine .bind (.liftExcept (Q := fun _ s =>
    (d.providerSettings "EMBEDDING_TIMEOUT_SECONDS").isOk = true ∧ Clean eligible s)
    (fun _ _ hok hs => ⟨isOk_iff.2 ⟨_, hok⟩, hs⟩) fun _ hs => hs) fun _ => .assume fun hsettings => ?_
  refine .bind (.bind (.liftExcept (Q := fun _ s =>
    d.cohereApiKey.isOk = true ∧ Clean eligible s)
    (fun _ _ hok hs => ⟨isOk_iff.2 ⟨_, hok⟩, hs⟩) fun _ hs => hs) fun _ => .pure fun _ hs => hs)
    fun _ => .assume fun hkey => ?_
  have hdocuments : CleanDocuments eligible documents := by
    rcases h with h | h | h
    · exact h
    · rw [h] at hsettings
      cases hsettings
    · rw [h] at hkey
      cases hkey
  exact .bind (keeps_callWithRetries hdocuments) fun _ => keeps_ofExcept _

/-- A blank document stops the Cohere encoder before it sends. -/
theorem cohereEmbed_blank {I : State F → Prop} {space : EmbeddingSpace}
    {documents : List Document} {inputType : String}
    (h : documents.any (fun document => d.blank document.text) = true) :
    Triple I (cohereEmbed d answers space documents inputType) (fun _ _ => False) I := by
  unfold cohereEmbed
  refine .ite (fun hempty => ?_) fun _ => ?_
  · rw [List.isEmpty_iff.1 hempty] at h
    cases h
  · exact .ite (fun _ => .throw_bind fun _ hs => hs) fun hne => absurd h hne

theorem keeps_bgeEmbed {I : State F → Prop} {space : EmbeddingSpace}
    {documents : List Document} : Keeps I (bgeEmbed d space documents) := by
  unfold bgeEmbed
  exact .ite (fun _ => .pure fun _ h => h) fun _ => .ite (fun _ => .throw_bind fun _ h => h)
    fun _ => .bind (keeps_ofExcept _) fun _ => keeps_ofExcept _

theorem keeps_embedDocuments {space : EmbeddingSpace} {documents : List Document}
    (h : space.provider = cohereProvider → CleanDocuments eligible documents ∨
      (d.providerSettings "EMBEDDING_TIMEOUT_SECONDS").isOk = false ∨
        d.cohereApiKey.isOk = false) :
    Keeps (Clean eligible) (embedDocuments d answers space documents) :=
  .ite (fun hcohere => keeps_cohereEmbed (h hcohere)) fun _ => keeps_bgeEmbed

theorem keeps_legacyEmbedTexts {documents : List Document}
    (h : CleanDocuments eligible documents) :
    Keeps (Clean eligible) (legacyEmbedTexts d answers documents) := by
  unfold legacyEmbedTexts
  exact .bind (keeps_ofExcept _) fun _ => .ite (fun _ => .throw_bind fun _ h => h)
    fun _ => .bind (keeps_ofExcept _) fun _ => .bind (keeps_callWithRetries h) fun _ => keeps_ofExcept _

theorem CleanDocuments.viewed {documents : List Document}
    (h : CleanDocuments eligible documents) :
    CleanDocuments eligible (documents.map d.viewed) := by
  have hsteps : (documents.map d.viewed).filterMap Document.step =
      documents.filterMap Document.step := by
    rw [List.filterMap_map]
    rfl
  unfold CleanDocuments
  rw [hsteps]
  exact h

theorem keeps_embedTexts {documents : List Document} (h : CleanDocuments eligible documents) :
    Keeps (Clean eligible) (embedTexts d answers documents) := by
  unfold embedTexts
  refine .ite (fun _ => .pure fun _ h => h) fun _ => .ite (fun _ => .throw_bind fun _ h => h)
    fun _ => .bind (keeps_ofExcept _) fun _ => .ite (fun _ => ?_) fun _ => ?_
  · exact .bind (keeps_ofExcept _) fun _ => keeps_embedDocuments fun _ => .inl h.viewed
  · exact keeps_legacyEmbedTexts h.viewed

/-- The first of the vectors, if there is one. -/
theorem keeps_head (vectors : List (List F)) : Keeps (Clean eligible)
    (match vectors.head? with
      | some vector => pure vector
      | none => throw "list index out of range" : Action F (List F)) := by
  cases vectors.head? with
  | none => exact .throw fun _ h => h
  | some vector => exact .pure fun _ h => h

/-- A query is no movement. -/
theorem keeps_embedQuery {text : String} :
    Keeps (Clean eligible) (embedQuery d answers text) := by
  have hquery : CleanDocuments eligible [d.viewed { step := none, text }] :=
    fun _ h => by cases h
  unfold embedQuery
  refine .ite (fun _ => .throw_bind fun _ h => h) fun _ =>
    .bind (keeps_ofExcept _) fun _ => .ite (fun _ => ?_) fun _ => ?_
  · exact .bind (keeps_ofExcept _) fun _ => .ite
      (fun _ => .bind (keeps_cohereEmbed (.inl hquery)) keeps_head)
      fun _ => .bind keeps_bgeEmbed keeps_head
  · exact .bind (keeps_embedTexts hquery) keeps_head

/-! ## §3. The fillers. -/

theorem mem_batches {α : Type} {rows batch : List α} (hbatch : batch ∈ batches rows) {row : α}
    (hrow : row ∈ batch) : row ∈ rows := by
  obtain ⟨i, -, rfl⟩ := List.mem_map.1 hbatch
  exact List.mem_of_mem_drop (List.mem_of_mem_take hrow)

theorem cleanDocuments_of_steps {steps : List (ProcessStep F)}
    (h : ∀ ps ∈ steps, eligible ps.id) :
    CleanDocuments eligible (steps.map ProcessStep.document) := by
  intro stepId hstep
  obtain ⟨document, hdocument, hid⟩ := List.mem_filterMap.1 hstep
  obtain ⟨ps, hps, rfl⟩ := List.mem_map.1 hdocument
  obtain rfl := Option.some.inj hid
  exact h ps hps

/-- The loop over the batches goes on up to the first that is refused. -/
theorem keeps_fillBatches {I : State F → Prop}
    {embed : List Document → Action F (List (List F))}
    {store : List (Uuid × List F) → Action F Nat} (accepts : List (ProcessStep F) → Bool)
    {rows : List (List (ProcessStep F))}
    (hembed : ∀ batch ∈ rows.takeWhile accepts, Keeps I (embed (batch.map ProcessStep.document)))
    (hrefuse : ∀ batch, accepts batch = false →
      Triple I (embed (batch.map ProcessStep.document)) (fun _ _ => False) I)
    (hstore : ∀ items, Keeps I (store items)) : Keeps I (fillBatches embed store rows) := by
  induction rows with
  | nil => exact .pure fun _ h => h
  | cons batch rest ih =>
      cases haccepts : accepts batch with
      | false => exact .bind (hrefuse batch haccepts) fun _ s h => h.elim
      | true =>
          rw [List.takeWhile_cons_of_pos haccepts] at hembed
          refine .bind (hembed batch List.mem_cons_self) fun vectors => .bind (keeps_ofExcept _)
            fun items => .bind (hstore items) fun updated => .bind ?_ fun _ => .pure fun _ h => h
          exact ih fun batch hbatch => hembed batch (List.mem_cons_of_mem _ hbatch)

/-- A transaction sends nothing. -/
theorem keeps_transaction {change : Database F → Database F} :
    Keeps (Clean eligible) (transaction answers change) := by
  refine .bind (.get (Q := fun _ => Clean eligible) fun _ hs => hs) fun s => ?_
  cases answers.transaction s with
  | commits => exact .modify fun _ hs => hs
  | rollsBack error => exact .throw fun _ hs => hs
  | commitsUnseen error => exact .bind (.modify fun _ hs => hs) fun _ => .throw fun _ hs => hs

theorem keeps_upsertStepEmbeddings {space : EmbeddingSpace} {items : List (Uuid × List F)} :
    Keeps (Clean eligible) (upsertStepEmbeddings d answers space items) :=
  .bind (keeps_ofExcept _) fun _ => .bind keeps_transaction fun _ => .pure fun _ h => h

theorem any_blank_of_refused {batch : List (ProcessStep F)} (h : d.accepts batch = false) :
    ((batch.map ProcessStep.document).map d.viewed).any
      (fun document => d.blank document.text) = true := by
  obtain ⟨ps, hps, hblank⟩ := List.all_eq_false.1 h
  have hblank : d.blank (d.modelView ps.document.text) = true := by simpa using hblank
  rw [List.any_eq_true]
  exact ⟨d.viewed ps.document, List.mem_map_of_mem (List.mem_map_of_mem hps), hblank⟩

/-- The state an entry begins in. -/
def Begins (eligible : Uuid → Prop) (db : Database F) (s : State F) : Prop :=
  s.db = db ∧ Clean eligible s

theorem begins_ofExcept {α : Type} {db : Database F} (x : Except String α) :
    Triple (Begins eligible db) (MonadExcept.ofExcept x : Action F α)
      (fun _ => Begins eligible db) (Clean eligible) :=
  .liftExcept (fun _ _ _ hs => hs) fun _ hs => hs.2

/-- **The filler of the runtime** sends the movements Cohere is missing. -/
theorem ensureSpaceEmbeddings_clean {db : Database F} {versionId : Uuid} {space : EmbeddingSpace}
    (hspace : d.activeRuntime = .ok space)
    (h : MissingEligible d db versionId) :
    Triple (Begins (db.EligibleStep d.postgres versionId) db)
      (ensureSpaceEmbeddings d answers space versionId)
      (fun _ => Clean (db.EligibleStep d.postgres versionId))
      (Clean (db.EligibleStep d.postgres versionId)) := by
  unfold ensureSpaceEmbeddings
  refine .bind (.get (Q := fun s' s =>
    s'.db = db ∧ Clean (db.EligibleStep d.postgres versionId) s) fun _ hs => ⟨hs.1, hs.2⟩)
    fun s => .assume fun hdb => ?_
  rw [hdb]
  refine .bind (keeps_ofExcept _) fun _ => ?_
  -- A version without a process, or one that is secret, ends the filler before a text is sent.
  cases hlevel : db.secrecyLevel versionId with
  | none => exact .throw fun _ hs => hs
  | some level =>
      refine .ite (fun _ => .throw_bind fun _ hs => hs) fun hsecret => ?_
      by_cases hcohere : d.EmbedsWithCohere space
      · -- what the encoder accepts is eligible, and it stops at what it refuses
        have hpublic : level ≤ 0 := by
          by_contra hlt
          exact hsecret ⟨hcohere.2.1, by omega⟩
        have heligible := h space hcohere ⟨level, hpublic, hlevel⟩
        refine keeps_fillBatches d.accepts (fun batch hbatch => ?_) (fun batch hrefused => ?_)
          fun items => keeps_upsertStepEmbeddings
        · refine keeps_embedDocuments fun _ => .inl (CleanDocuments.viewed ?_)
          exact cleanDocuments_of_steps fun ps hps =>
            heligible ps (List.mem_flatten_of_mem hbatch hps)
        · unfold embedDocuments
          rw [if_pos hcohere.2.1]
          exact cohereEmbed_blank (any_blank_of_refused hrefused)
      · -- nothing is sent: the space is local, or the adapter raises first
        refine keeps_fillBatches (fun _ => true) (fun batch _ => keeps_embedDocuments fun hp => ?_)
          (fun batch h => (nomatch h)) fun items => keeps_upsertStepEmbeddings
        cases hsettings : (d.providerSettings "EMBEDDING_TIMEOUT_SECONDS").isOk with
        | false => exact .inr (.inl rfl)
        | true =>
            refine .inr (.inr ?_)
            by_contra hkey
            exact hcohere ⟨hspace, hp, hsettings, by simpa using hkey⟩

/-- **Both fillers**: the legacy one selects with the predicate. -/
theorem ensureStepEmbeddings_clean {db : Database F} {versionId : Uuid}
    (h : MissingEligible d db versionId) :
    Triple (Begins (db.EligibleStep d.postgres versionId) db)
      (ensureStepEmbeddings d answers versionId)
      (fun _ => Clean (db.EligibleStep d.postgres versionId))
      (Clean (db.EligibleStep d.postgres versionId)) := by
  unfold ensureStepEmbeddings
  refine .bind (begins_ofExcept _) fun _ => .ite (fun _ => ?_) fun _ => ?_
  · refine .bind (.liftExcept (Q := fun space s => d.activeRuntime = .ok space ∧
      Begins (db.EligibleStep d.postgres versionId) db s) (fun _ _ hok hs => ⟨hok, hs⟩)
      fun _ hs => hs.2) fun space => .assume fun hspace => ?_
    exact ensureSpaceEmbeddings_clean hspace h
  · refine .bind (.get (Q := fun s' s =>
      s'.db = db ∧ Clean (db.EligibleStep d.postgres versionId) s) fun _ hs => ⟨hs.1, hs.2⟩)
      fun s => .assume fun hdb => ?_
    rw [hdb]
    refine .bind (keeps_ofExcept _) fun _ => ?_
    refine .bind (.liftExcept (Q := fun rows s =>
      (∀ ps ∈ rows, db.EligibleStep d.postgres versionId ps.id) ∧
        Clean (db.EligibleStep d.postgres versionId) s)
      (fun rows _ hrows hs => ⟨fun ps hps => db.selectSteps_eligible hrows hps, hs⟩)
      fun _ hs => hs) fun rows => .assume fun hrows => ?_
    refine keeps_fillBatches (fun _ => true) (fun batch hbatch => ?_) (fun batch hr => (nomatch hr))
      fun items => .bind keeps_transaction fun _ => .pure fun _ hs => hs
    refine keeps_embedTexts (cleanDocuments_of_steps fun ps hps => hrows ps ?_)
    exact (List.perm_insertionSort _ rows).mem_iff.1
      (mem_batches ((List.takeWhile_sublist _).subset hbatch) hps)

/-! ## §4. Generation. -/

theorem keeps_vectorSearch {versionId : Uuid} {embedding : List F} {limit : Nat} :
    Keeps (Clean eligible) (vectorSearch d versionId embedding limit) := by
  unfold vectorSearch
  refine .bind (.get (Q := fun _ => Clean eligible) fun _ hs => hs) fun _ =>
    .bind (keeps_ofExcept _) fun _ => .ite (fun _ => ?_) fun _ => ?_
  · exact .bind (keeps_ofExcept _) fun _ => .bind (keeps_ofExcept _) fun _ => keeps_ofExcept _
  · exact .bind (keeps_ofExcept _) fun _ => .bind (keeps_ofExcept _) fun _ =>
      .bind (keeps_ofExcept _) fun _ => .pure fun _ hs => hs

theorem loadVectorScores_clean {db : Database F} {versionId : Uuid} {steps : List Step}
    {limit : Nat} (h : MissingEligible d db versionId) :
    Triple (Begins (db.EligibleStep d.postgres versionId) db)
      (loadVectorScores d answers versionId steps limit)
      (fun _ => Clean (db.EligibleStep d.postgres versionId))
      (Clean (db.EligibleStep d.postgres versionId)) := by
  unfold loadVectorScores
  refine .ite (fun _ => .pure fun _ hs => hs.2) fun _ => ?_
  refine .bind (begins_ofExcept _) fun _ => .ite (fun _ => ?_) fun _ => ?_
  · exact .bind (.bind (ensureStepEmbeddings_clean h) fun _ => .pure fun _ hs => hs) fun _ =>
      .bind keeps_embedQuery fun _ => keeps_vectorSearch
  · exact .pure fun _ hs => hs.2

/-- The reranker is sent the candidates. -/
theorem keeps_scorer {query : String} {steps : List Step} {scorer : Scorer}
    (h : ∀ step ∈ steps, eligible step.id) :
    Keeps (Clean eligible) (scorer.run d g answers query steps) := by
  cases scorer with
  | bge =>
      exact .ite (fun _ => .throw_bind fun _ hs => hs) fun _ => .ite
        (fun _ => .pure fun _ hs => hs) fun _ =>
          .bind (keeps_ofExcept _) fun _ => keeps_ofExcept _
  | cohere model =>
      have hsent : ∀ stepId ∈ (Call.cohereRerank model query
          (steps.map (Step.document d))).stepIds, eligible stepId := by
        intro stepId hstep
        obtain ⟨document, hdocument, hid⟩ := List.mem_filterMap.1 hstep
        obtain ⟨step, hmem, rfl⟩ := List.mem_map.1 hdocument
        obtain rfl := Option.some.inj hid
        exact h step hmem
      exact .ite (fun _ => .throw_bind fun _ hs => hs) fun _ => .ite
        (fun _ => .pure fun _ hs => hs) fun _ => .bind (keeps_ofExcept _) fun _ =>
          .bind (keeps_discard (keeps_ofExcept _)) fun _ =>
            .bind (keeps_callWithRetries hsent) fun _ => keeps_ofExcept _

/-- **The context is made of the steps loaded**, and so are the requests to
the reranker. -/
theorem selectContextSteps_clean {query : String} {steps : List Step}
    {vectorScores : List (Uuid × F)} {scorer : Option Scorer}
    (h : ∀ step ∈ steps, eligible step.id) :
    Triple (Clean eligible) (selectContextSteps d g answers query steps vectorScores scorer)
      (fun ranked s => (∀ item ∈ ranked, eligible item.step.id) ∧ Clean eligible s)
      (Clean eligible) := by
  have hcandidates : ∀ {limit : Int}, ∀ item ∈ rankSteps d g.toRanking query steps vectorScores
      limit, eligible item.step.id :=
    fun item hitem => h item.step (mem_rankSteps hitem)
  unfold selectContextSteps selectContextStepsWith
  cases scorer with
  | none => exact .pure fun _ hs => ⟨hcandidates, hs⟩
  | some scorer =>
      refine .ite (fun _ => .pure fun _ hs => ⟨hcandidates, hs⟩) fun _ => ?_
      refine .bind (keeps_scorer ?_) fun scores => .bind (keeps_ofExcept _) fun selected =>
        .pure fun _ hs => ⟨fun item hitem => ?_, hs⟩
      · intro step hstep
        obtain ⟨candidate, hcandidate, rfl⟩ := List.mem_map.1 hstep
        obtain ⟨item, hitem, rfl⟩ := List.mem_map.1 hcandidate
        exact hcandidates item hitem
      · obtain ⟨step, -, hfind⟩ := List.mem_filterMap.1 hitem
        exact hcandidates item (List.mem_reverse.1 (List.mem_of_find?_eq_some hfind))

theorem mem_serializeSteps {ranked : List (RankedStep F)} {serialized : List PromptStep}
    (h : serializeSteps d g ranked = .ok serialized) {step : PromptStep}
    (hstep : step ∈ serialized) : ∃ item ∈ ranked, item.step.id = step.stepId := by
  obtain ⟨⟨promptMax, stepMax, stepsTotalMax⟩, -, h⟩ := bind_eq_ok.1 h
  obtain rfl := Except.ok.inj h
  obtain ⟨⟨item, text⟩, hitem, rfl⟩ := List.mem_map.1 hstep
  exact ⟨item, (List.of_mem_zip hitem).1, rfl⟩

/-- The movements of a prompt are eligible. -/
def CleanContext (eligible : Uuid → Prop) : Option PromptContext → Prop
  | none => True
  | some context => ∀ step ∈ context.steps, eligible step.stepId

theorem loadContext_clean {db : Database F} {processId versionId : Uuid} {tenantId : Option Uuid}
    (h : MissingEligible d db versionId) :
    Triple (Begins (db.EligibleStep d.postgres versionId) db)
      (loadContext d g answers processId versionId tenantId)
      (fun context s => CleanContext (db.EligibleStep d.postgres versionId) context ∧
        Clean (db.EligibleStep d.postgres versionId) s)
      (Clean (db.EligibleStep d.postgres versionId)) := by
  unfold loadContext
  refine .bind (.get (Q := fun s' s =>
    s'.db = db ∧ Begins (db.EligibleStep d.postgres versionId) db s) fun _ hs => ⟨hs.1, hs⟩)
    fun s => .assume fun hdb => ?_
  rw [hdb]
  refine .bind (begins_ofExcept _) fun p => .ite (fun _ => .pure fun _ hs => ⟨trivial, hs.2⟩)
    fun _ => .bind (begins_ofExcept _) fun process => ?_
  refine .bind (.liftExcept (Q := fun steps s =>
    (∀ step ∈ steps, db.EligibleStep d.postgres versionId step.id) ∧
      Begins (db.EligibleStep d.postgres versionId) db s)
    (fun steps _ hsteps hs => ⟨fun step hstep => mem_loadSteps hsteps hstep, hs⟩)
    fun _ hs => hs.2) fun steps => .assume fun hsteps => ?_
  refine .bind (begins_ofExcept _) fun scorer => .bind (loadVectorScores_clean h)
    fun vectorScores => .bind (selectContextSteps_clean hsteps) fun ranked =>
      .assume fun hranked => ?_
  refine .bind (.liftExcept (Q := fun serialized s =>
    (∀ step ∈ serialized, db.EligibleStep d.postgres versionId step.stepId) ∧
      Clean (db.EligibleStep d.postgres versionId) s)
    (fun serialized _ hserialized hs => ⟨fun step hstep => ?_, hs⟩) fun _ hs => hs)
    fun serialized => .assume fun hserialized => ?_
  · obtain ⟨item, hitem, hid⟩ := mem_serializeSteps hserialized hstep
    rw [← hid]
    exact hranked item hitem
  · refine .bind (keeps_ofExcept _) fun attachments => .pure fun _ hs => ⟨fun step hstep => ?_, hs⟩
    obtain ⟨step, hmem, rfl⟩ := List.mem_map.1 hstep
    exact hserialized step hmem

theorem keeps_generate {context : PromptContext} {errors : List String}
    (h : ∀ step ∈ context.steps, eligible step.stepId) :
    Keeps (Clean eligible) (generate d g answers context errors) := by
  have hsent : ∀ stepId ∈ (Call.anthropicMessages context.model context errors).stepIds,
      eligible stepId := by
    intro stepId hstep
    obtain ⟨step, hmem, rfl⟩ := List.mem_map.1 hstep
    exact h step hmem
  unfold generate
  exact .bind (keeps_ofExcept _) fun _ => .ite (fun _ => .throw_bind fun _ hs => hs) fun _ =>
    .bind (keeps_ofExcept _) fun _ => .bind (keeps_callWithRetries hsent) fun _ => keeps_ofExcept _

theorem generateSummary_clean {db : Database F} {processId versionId : Uuid}
    {tenantId : Option Uuid} (h : MissingEligible d db versionId) :
    Triple (Begins (db.EligibleStep d.postgres versionId) db)
      (generateSummary d g answers processId versionId tenantId)
      (fun _ => Clean (db.EligibleStep d.postgres versionId))
      (Clean (db.EligibleStep d.postgres versionId)) := by
  unfold generateSummary
  refine .bind (.get (Q := fun _ => Begins (db.EligibleStep d.postgres versionId) db)
    fun _ hs => hs) fun s => .bind (begins_ofExcept _) fun _ =>
      .ite (fun _ => .pure fun _ hs => hs.2) fun _ => ?_
  refine .bind (loadContext_clean h) fun context => .assume fun hcontext => ?_
  cases context with
  | none => exact .pure fun _ hs => hs
  | some context =>
      exact .ite (fun _ => .throw_bind fun _ hs => hs) fun _ =>
        .bind (keeps_discard (keeps_ofExcept _)) fun _ =>
          .bind (keeps_generate hcontext) fun _ => .bind (keeps_ofExcept _) fun _ =>
            .ite (fun _ => .bind (keeps_generate hcontext) fun _ =>
              keeps_discard (keeps_ofExcept _)) fun _ => .pure fun _ hs => hs

end Keeping

/-! ## §5. What the filler sends. -/

section Sending

variable {d : Deployment F} {space : EmbeddingSpace}

/-- Providers that answer: to an embedding request, a vector for each text. -/
def Deployment.answering (d : Deployment F) (space : EmbeddingSpace) : Answers F where
  openaiEmbeddings := fun _ => .ok []
  cohereEmbed := fun calls => .ok <|
    match calls.getLast? with
    | some (.cohereEmbed _ _ documents) =>
        List.replicate documents.length (List.replicate space.dimensions d.floats.zero)
    | _ => []
  cohereRerank := fun _ => .ok []
  anthropicMessages := fun _ => .ok ""

/-- The vector that `answering` gives. -/
def Deployment.zeroVector (d : Deployment F) (space : EmbeddingSpace) : List F :=
  List.replicate space.dimensions d.floats.zero

theorem assertDimensions_zeroVector : d.assertDimensions space (d.zeroVector space) = .ok () := by
  unfold Deployment.assertDimensions Deployment.zeroVector
  simp [d.floats.isFinite_zero]

theorem forM_eq_ok {α : Type} {f : α → Except String Unit} {xs : List α}
    (h : ∀ x ∈ xs, f x = .ok ()) : xs.forM f = .ok () := by
  induction xs with
  | nil => rfl
  | cons x xs ih =>
      show (f x >>= fun _ => xs.forM f) = _
      rw [h x List.mem_cons_self]
      exact ih fun y hy => h y (List.mem_cons_of_mem _ hy)

theorem decodeVectors_zeroVectors (n : Nat) :
    d.decodeVectors space n (List.replicate n (d.zeroVector space)) =
      .ok (List.replicate n (d.zeroVector space)) := by
  unfold Deployment.decodeVectors
  rw [if_neg (by simp)]
  show (List.replicate n (d.zeroVector space)).forM _ >>= _ = _
  rw [forM_eq_ok fun v hv => by rw [List.eq_of_mem_replicate hv]; exact assertDimensions_zeroVector]
  rfl

/-- A call that is answered is sent once. -/
theorem callWithRetries_run {α : Type} {call : Call}
    {answer : List Call → Except ProviderError α} {response : α} {s : State F}
    (settings : ProviderSettings) (h : answer (s.calls ++ [call]) = .ok response) :
    (callWithRetries settings call answer : Action F α).run.run s =
      (.ok response, { s with calls := s.calls ++ [call] }) := by
  obtain ⟨attempts, hattempts⟩ := Nat.exists_eq_add_one.2 settings.maxAttempts_pos
  have hsent : (modifyThe (State F) fun s => { s with calls := s.calls ++ [call] } :
      Action F PUnit).run.run s = (.ok ⟨⟩, { s with calls := s.calls ++ [call] }) := rfl
  have hread : (MonadState.get : Action F (State F)).run.run { s with calls := s.calls ++ [call] } =
      (.ok { s with calls := s.calls ++ [call] }, { s with calls := s.calls ++ [call] }) := rfl
  unfold callWithRetries
  rw [hattempts, retryCall]
  refine (run_bind_ok hsent).trans ((run_bind_ok hread).trans ?_)
  rw [h]
  rfl

/-- An accepted batch is sent, and answered. -/
theorem embedDocuments_run (h : d.EmbedsWithCohere space) (documents : List Document)
    (hne : documents ≠ [])
    (haccepted : documents.any (fun document => d.blank document.text) = false) (s : State F) :
    (embedDocuments d (d.answering space) space documents).run.run s =
      (.ok (List.replicate documents.length (d.zeroVector space)),
        { s with calls := s.calls ++ [.cohereEmbed space.model "search_document" documents] }) := by
  obtain ⟨-, hprovider, hsettings, hkey⟩ := h
  obtain ⟨settings, hsettings⟩ := isOk_iff.1 hsettings
  obtain ⟨key, hkey⟩ := isOk_iff.1 hkey
  have hempty : ¬documents.isEmpty = true := by simpa using hne
  unfold embedDocuments cohereEmbed
  rw [if_pos hprovider, if_neg hempty]
  show (ite _ _ _ : Action F _).run.run s = _
  rw [if_neg (by rw [haccepted]; exact Bool.false_ne_true), hsettings, hkey]
  have hanswer : (d.answering space).cohereEmbed
      (s.calls ++ [.cohereEmbed space.model "search_document" documents]) =
        .ok (List.replicate documents.length (d.zeroVector space)) := by
    simp [Deployment.answering, Deployment.zeroVector]
  have hkeyed : (discard (MonadExcept.ofExcept (.ok key)) : Action F Unit).run.run s =
      (.ok ⟨⟩, s) := rfl
  refine (run_bind_ok run_ofExcept).trans ((run_bind_ok hkeyed).trans ?_)
  rw [run_bind_ok (callWithRetries_run settings hanswer), decodeVectors_zeroVectors]
  rfl

theorem ne_nil_of_mem_batches {α : Type} {rows batch : List α} (h : batch ∈ batches rows) :
    batch ≠ [] := by
  obtain ⟨i, hi, rfl⟩ := List.mem_map.1 h
  rw [List.mem_range, embeddingBatchSize] at hi
  rw [← List.length_pos_iff, List.length_take, List.length_drop, embeddingBatchSize]
  omega

/-- The vectors of a batch are stored. -/
theorem upsertStepEmbeddings_run (items : List (Uuid × List F))
    (h : ∀ item ∈ items, item.2 = d.zeroVector space) (s : State F) :
    ∃ db, (upsertStepEmbeddings d (d.answering space) space items).run.run s =
      (.ok items.length, { s with db }) := by
  have hvectors : (items.forM fun item => d.assertDimensions space item.2) = .ok () :=
    forM_eq_ok fun item hitem => by rw [h item hitem]; exact assertDimensions_zeroVector
  unfold upsertStepEmbeddings
  rw [hvectors]
  exact ⟨_, rfl⟩

/-- The filler's loop over answering providers. -/
def Deployment.fillAnswered (d : Deployment F) (space : EmbeddingSpace) :
    List (List (ProcessStep F)) → Action F Nat :=
  fillBatches (fun documents =>
    embedDocuments d (d.answering space) space (documents.map d.viewed))
    (upsertStepEmbeddings d (d.answering space) space)

/-- The documents of a batch, as they are sent. -/
def Deployment.sentDocuments (d : Deployment F) (batch : List (ProcessStep F)) : List Document :=
  (batch.map ProcessStep.document).map d.viewed

theorem sentDocuments_accepted {batch : List (ProcessStep F)} (h : d.accepts batch = true) :
    (d.sentDocuments batch).any (fun document => d.blank document.text) = false := by
  rw [List.any_eq_false]
  intro sent hsent
  obtain ⟨document, hdocument, rfl⟩ := List.mem_map.1 hsent
  obtain ⟨ps, hps, rfl⟩ := List.mem_map.1 hdocument
  have hps := List.all_eq_true.1 h ps hps
  show ¬d.blank (d.modelView ps.document.text) = true
  simpa using hps

/-- An accepted batch is sent, and the loop goes on to the rest. -/
theorem fillAnswered_cons (h : d.EmbedsWithCohere space) {batch : List (ProcessStep F)}
    (rest : List (List (ProcessStep F))) (hne : batch ≠ []) (haccepts : d.accepts batch = true)
    (s : State F) :
    ∃ db, ((d.fillAnswered space (batch :: rest)).run.run s).2 =
      ((d.fillAnswered space rest).run.run
        { db, calls := s.calls ++ [.cohereEmbed space.model "search_document"
          (d.sentDocuments batch)] }).2 := by
  have hembed := embedDocuments_run h (d.sentDocuments batch)
    (by simpa [Deployment.sentDocuments] using hne) (sentDocuments_accepted haccepts) s
  have hlength : (batch.map ProcessStep.id).length = (List.replicate (d.sentDocuments batch).length
      (d.zeroVector space)).length := by
    simp [Deployment.sentDocuments]
  obtain ⟨db, hstore⟩ := upsertStepEmbeddings_run ((batch.map ProcessStep.id).zip
      (List.replicate (d.sentDocuments batch).length (d.zeroVector space)))
    (fun item hitem => List.eq_of_mem_replicate (List.of_mem_zip hitem).2)
    { s with calls := s.calls ++ [.cohereEmbed space.model "search_document"
        (d.sentDocuments batch)] }
  refine ⟨db, ?_⟩
  have hzip : zipStrict (batch.map ProcessStep.id) (List.replicate (d.sentDocuments batch).length
      (d.zeroVector space)) = .ok ((batch.map ProcessStep.id).zip
        (List.replicate (d.sentDocuments batch).length (d.zeroVector space))) :=
    if_pos hlength
  unfold Deployment.fillAnswered
  rw [fillBatches]
  refine (congrArg Prod.snd (run_bind_ok hembed)).trans ?_
  rw [hzip]
  refine (congrArg Prod.snd (run_bind_ok run_ofExcept)).trans
    ((congrArg Prod.snd (run_bind_ok hstore)).trans ?_)
  -- what is left adds the rows of the rest to those of the batch
  rw [run_bind]
  rcases (fillBatches _ _ rest).run.run _ with ⟨e | n, s'⟩ <;> rfl

/-- **Every movement of an accepted batch is sent**, up to the first batch
that is refused. -/
theorem fillAnswered_sends (h : d.EmbedsWithCohere space) (rows : List (List (ProcessStep F)))
    (hne : ∀ batch ∈ rows, batch ≠ []) (s : State F) :
    (∀ call ∈ s.calls, call ∈ ((d.fillAnswered space rows).run.run s).2.calls) ∧
      ∀ ps ∈ (rows.takeWhile d.accepts).flatten,
        ∃ call ∈ ((d.fillAnswered space rows).run.run s).2.calls, ps.id ∈ call.stepIds := by
  induction rows generalizing s with
  | nil => exact ⟨fun _ hc => hc, fun _ hps => (nomatch hps)⟩
  | cons batch rest ih =>
      cases haccepts : d.accepts batch with
      | false =>
          rw [List.takeWhile_cons_of_neg (by simp [haccepts])]
          have hraises : Triple (fun t => ∀ call ∈ s.calls, call ∈ t.calls)
              (embedDocuments d (d.answering space) space (d.sentDocuments batch))
              (fun _ _ => False) (fun t => ∀ call ∈ s.calls, call ∈ t.calls) := by
            unfold embedDocuments
            rw [if_pos h.2.1]
            exact cohereEmbed_blank (any_blank_of_refused haccepts)
          exact ⟨Triple.final (.bind hraises fun _ _ hfalse => hfalse.elim) fun _ hc => hc,
            fun _ hps => (nomatch hps)⟩
      | true =>
          obtain ⟨db, hrun⟩ := fillAnswered_cons h rest (hne batch List.mem_cons_self) haccepts s
          obtain ⟨hkept, hsent⟩ := ih (fun batch hbatch => hne batch (List.mem_cons_of_mem _ hbatch))
            { db, calls := s.calls ++ [.cohereEmbed space.model "search_document"
              (d.sentDocuments batch)] }
          rw [hrun, List.takeWhile_cons_of_pos haccepts]
          refine ⟨fun call hc => hkept call (List.mem_append_left _ hc), fun ps hps => ?_⟩
          rw [List.flatten_cons, List.mem_append] at hps
          rcases hps with hps | hps
          · refine ⟨_, hkept _ (List.mem_append_right _ List.mem_cons_self), ?_⟩
            exact List.mem_filterMap.2
              ⟨d.viewed ps.document, List.mem_map_of_mem (List.mem_map_of_mem hps), rfl⟩
          · exact hsent ps hps

end Sending

/-! ## §6. When only eligible movements are sent. -/

section Main

variable {d : Deployment F} {g : Generation F} {db : Database F} {versionId : Uuid}

theorem onlyEligible_of_missingEligible (h : MissingEligible d db versionId) :
    OnlyEligible d g db versionId := by
  intro answers entry
  have hbegins : Begins (db.EligibleStep d.postgres versionId) db { db } :=
    ⟨rfl, fun _ hc => (nomatch hc)⟩
  show Clean (db.EligibleStep d.postgres versionId)
    ((entry.run d g answers versionId).run.run { db }).2
  cases entry with
  | fill =>
      exact Triple.final (.bind (ensureStepEmbeddings_clean h) fun _ => .pure fun _ hs => hs) hbegins
  | reindex =>
      refine Triple.final (.bind (.liftExcept (Q := fun space s => d.activeRuntime = .ok space ∧
        Begins (db.EligibleStep d.postgres versionId) db s) (fun _ _ hok hs => ⟨hok, hs⟩)
        fun _ hs => hs.2) fun space => .assume fun hspace => ?_) hbegins
      exact .bind (ensureSpaceEmbeddings_clean hspace h) fun _ => .pure fun _ hs => hs
  | generate processId tenantId => exact Triple.final (generateSummary_clean h) hbegins

/-- What the reindex command sends while the providers answer. -/
theorem missingEligible_of_onlyEligible (h : OnlyEligible d g db versionId) :
    MissingEligible d db versionId := by
  rintro space hcohere ⟨level, hpublic, hlevel⟩ ps hps
  have hsent := (fillAnswered_sends hcohere (batches (db.missingSteps space versionId))
    (fun batch hbatch => ne_nil_of_mem_batches hbatch) { db }).2 ps hps
  have hcalls : Entry.reindex.calls d g (d.answering space) db versionId =
      ((d.fillAnswered space (batches (db.missingSteps space versionId))).run.run { db }).2.calls := by
    have hensure : ((ensureSpaceEmbeddings d (d.answering space) space versionId).run.run { db }) =
        (d.fillAnswered space (batches (db.missingSteps space versionId))).run.run { db } := by
      unfold ensureSpaceEmbeddings
      have hread : (MonadState.get : Action F (State F)).run.run { db } = (.ok { db }, { db }) := rfl
      refine (run_bind_ok hread).trans ((run_bind_ok run_ofExcept).trans ?_)
      rw [hlevel]
      show (ite _ _ _ : Action F _).run.run _ = _
      rw [if_neg (by omega)]
      rfl
    show ((MonadExcept.ofExcept d.activeRuntime >>= fun space =>
      discard (ensureSpaceEmbeddings d (d.answering _) space versionId) : Action F Unit).run.run
        { db }).2.calls = _
    rw [hcohere.1, run_bind_ok run_ofExcept, run_discard, hensure]
  obtain ⟨call, hcall, hid⟩ := hsent
  exact h (d.answering space) .reindex call (by rw [hcalls]; exact hcall) ps.id hid

end Main

/-- **Only eligible movements reach a provider exactly when the movements that
Cohere is missing are eligible**: the filler of the embedding-space runtime
selects them without the predicate. -/
theorem onlyEligible_iff (d : Deployment F) (g : Generation F) (db : Database F)
    (versionId : Uuid) : OnlyEligible d g db versionId ↔ MissingEligible d db versionId :=
  ⟨missingEligible_of_onlyEligible, onlyEligible_of_missingEligible⟩

/-- A deployment that embeds with Cohere. -/
def cohereDeployment : Deployment Int where
  python := .ascii
  postgres := { lower := fun s => String.ofList (s.toList.map Char.toLower)
                jsonbText := fun v => String.ofList v.text
                lower_false := lower_false_ascii }
  floats := { zero := 0, one := 1, isFinite := fun _ => true, storable := fun _ => true
              lt := fun a b => decide (a < b), distance := fun _ _ => 0
              similarity := fun x => 1 - x, isFinite_zero := rfl }
  env := fun name => [("EMBEDDING_SPACE_RUNTIME_ENABLED", "true"), ("EMBEDDING_PROVIDER", "cohere"),
    ("ALLOW_EXTERNAL_EMBEDDINGS", "true"), ("COHERE_API_KEY", "key")].lookup name
  providerSettings := fun _ => .ok .unset
  visits := fun _ _ => true
  modelView := id
  bgeEncode := fun _ => .error "no local model"

/-- Generation without attachments or warnings. -/
def plainGeneration : Generation Int where
  hybridScore := fun _ _ _ _ => 0
  isMilestone := fun _ => false
  parseInt := String.toInt?
  bgeScores := fun _ _ => .error "no local model"
  hasPublishable := fun _ _ _ => .ok false
  processContext := fun p => .ok (.obj [("code", .str p.code)])
  sourceWarnings := fun _ _ => []
  attachmentContext := fun _ _ => .ok none
  userPrompt := fun _ _ => ""
  readSummary := fun _ message => .ok message
  validateSummary := fun _ _ => .ok []

/-- A public process whose version has one movement, which is private. -/
def privateStep : Database Int where
  processes := [{ id := 1, code := "0000001-02.2024.8.26.0100", currentVersionId := some 2 }]
  versions := [{ id := 2, processId := 1 }]
  steps := [{ id := 3, versionId := 2, processId := 1, stepNumber := 1,
              text := "Juntada de documento em segredo",
              metadata := .obj [("private", .bool true)] }]
  processes_nodup := by decide
  versions_nodup := by decide
  steps_nodup := by decide

/-- The runtime's filler sends it to Cohere. -/
theorem not_onlyEligible_privateStep :
    ¬OnlyEligible cohereDeployment plainGeneration privateStep 2 := by
  intro h
  let answers : Answers Int := cohereDeployment.answering { provider := "cohere", model := "embed-v4.0" }
  have hsent : ∃ call ∈ Entry.fill.calls cohereDeployment plainGeneration answers privateStep 2,
      3 ∈ call.stepIds := by
    decide +kernel
  have hineligible : ¬privateStep.EligibleStep cohereDeployment.postgres 2 3 := by
    decide +kernel
  obtain ⟨call, hcall, hid⟩ := hsent
  exact hineligible (h answers .fill call hcall 3 hid)

end Rpy.Retrieval

/-
  Rpy.Retrieval.Filling
  ─────────────────────
  **WHAT THE FILLER OF AN EMBEDDING SPACE LEAVES BEHIND.**

  The filler embeds the movements without a vector batch by batch, and
  stores each batch before it asks for the next.  Where it raises, the
  batches before are stored, and the next attempt goes on from there.

    • `Filled`             — the vectors of some movements were stored,
    • `missingSteps_filled` — what is missing afterwards,
    • `fillBatches_spec`   — the loop over the batches,
    • `attempts_resume`    — attempts one after the other, failed or not.

  `app/embedding_runtime.py`, `app/embedding_store.py`.
-/
import Rpy.Foundation.Keyset
import Rpy.Retrieval.OnlyEligible

namespace Rpy.Retrieval

open Rpy.Foundation

variable {F : Type}

/-! ## §1. Rows. -/

/-- The row of a movement and its vector. -/
def EmbeddingSpace.row (space : EmbeddingSpace) (item : Uuid × List F) : StepEmbedding F where
  stepId := item.1
  provider := space.provider
  model := space.model
  dimensions := space.dimensions
  embedding := item.2

/-- A new row is of its space and its step. -/
theorem EmbeddingSpace.holds_row {space : EmbeddingSpace} {item : Uuid × List F} {stepId : Uuid} :
    space.holds stepId (space.row item) = (item.1 == stepId) := by
  simp [EmbeddingSpace.holds, EmbeddingSpace.row]

/-- Vectors of movements that have none are new rows. -/
theorem foldl_upsertStepEmbedding {space : EmbeddingSpace} {items : List (Uuid × List F)}
    {rows : List (StepEmbedding F)} (hnew : ∀ item ∈ items, rows.any (space.holds item.1) = false)
    (hnodup : (items.map Prod.fst).Nodup) :
    items.foldl (upsertStepEmbedding space) rows = rows ++ items.map space.row := by
  induction items generalizing rows with
  | nil => simp
  | cons item items ih =>
      obtain ⟨hitem, hitems⟩ := List.forall_mem_cons.1 hnew
      rw [List.map_cons, List.nodup_cons] at hnodup
      have hinsert : upsertStepEmbedding space rows item = rows ++ [space.row item] := by
        unfold upsertStepEmbedding
        rw [if_neg (by simp [hitem])]
        rfl
      rw [List.foldl_cons, hinsert, ih _ hnodup.2]
      · simp
      · intro other hother
        rw [List.any_append, hitems other hother, List.any_cons, List.any_nil,
          EmbeddingSpace.holds_row]
        have hne : item.1 ≠ other.1 := fun h =>
          hnodup.1 (h ▸ List.mem_map_of_mem hother)
        simpa using hne

/-- The vectors of the movements `steps` were stored: new rows, in their
order, with vectors of the space.  Nothing else changed. -/
structure Filled (d : Deployment F) (space : EmbeddingSpace) (db : Database F)
    (steps : List (ProcessStep F)) (db' : Database F) : Prop where
  rest : db' = { db with stepEmbeddings := db'.stepEmbeddings }
  rows : ∃ vectors : List (List F), vectors.length = steps.length ∧
    (∀ vector ∈ vectors, d.assertDimensions space vector = .ok ()) ∧
    db'.stepEmbeddings =
      db.stepEmbeddings ++ ((steps.map ProcessStep.id).zip vectors).map space.row

namespace Filled

variable {d : Deployment F} {space : EmbeddingSpace} {db db' db'' : Database F}
  {xs ys : List (ProcessStep F)}

/-- Nothing has been filled. -/
theorem refl (d : Deployment F) (space : EmbeddingSpace) (db : Database F) :
    Filled d space db [] db :=
  ⟨rfl, [], rfl, fun _ h => (nomatch h), by simp⟩

/-- Filling one after the other. -/
theorem trans (h : Filled d space db xs db') (h' : Filled d space db' ys db'') :
    Filled d space db (xs ++ ys) db'' := by
  obtain ⟨vs, hlength, hvs, hrows⟩ := h.rows
  obtain ⟨ws, hlength', hws, hrows'⟩ := h'.rows
  refine ⟨?_, vs ++ ws, ?_, ?_, ?_⟩
  · rw [h'.rest, h.rest]
  · rw [List.length_append, List.length_append, hlength, hlength']
  · exact fun vector hvector => (List.mem_append.1 hvector).elim (hvs vector) (hws vector)
  · rw [hrows', hrows, List.map_append, List.zip_append (by rw [List.length_map, hlength]),
      List.map_append, List.append_assoc]

/-- Filling writes vectors only: the steps stay. -/
theorem steps (h : Filled d space db xs db') : db'.steps = db.steps := by
  rw [h.rest]

/-- It leaves the processes as they are. -/
theorem processes (h : Filled d space db xs db') : db'.processes = db.processes := by
  rw [h.rest]

/-- It leaves the versions as they are. -/
theorem versions (h : Filled d space db xs db') : db'.versions = db.versions := by
  rw [h.rest]

/-- It leaves what is secret as it is. -/
theorem secrecyLevel (h : Filled d space db xs db') (versionId : Uuid) :
    db'.secrecyLevel versionId = db.secrecyLevel versionId := by
  rw [h.rest]
  rfl

/-- A movement has a vector afterwards if it had one or was given one. -/
theorem any_holds (h : Filled d space db xs db') (stepId : Uuid) :
    db'.stepEmbeddings.any (space.holds stepId) =
      (db.stepEmbeddings.any (space.holds stepId) || (xs.map ProcessStep.id).contains stepId) := by
  obtain ⟨vectors, hlength, -, hrows⟩ := h.rows
  have hfst : (((xs.map ProcessStep.id).zip vectors).map Prod.fst) = xs.map ProcessStep.id :=
    List.map_fst_zip (by rw [List.length_map, hlength])
  have hrow : space.holds stepId ∘ space.row = (fun id => stepId == id) ∘ @Prod.fst Uuid (List F) :=
    funext fun item => EmbeddingSpace.holds_row.trans BEq.comm
  rw [hrows, List.any_append, List.any_map, hrow, ← List.any_map, hfst, List.contains_eq_any_beq]

/-- A vector that was there is there, and unchanged. -/
theorem subset (h : Filled d space db xs db') : db.stepEmbeddings <+: db'.stepEmbeddings := by
  obtain ⟨vectors, -, -, hrows⟩ := h.rows
  exact ⟨_, hrows.symm⟩

end Filled

/-! ## §2. What is missing. -/

section Missing

variable {d : Deployment F} {space : EmbeddingSpace} {db db' : Database F} {versionId : Uuid}

/-- What is missing, in whatever order. -/
theorem perm_missingSteps : (db.missingSteps space versionId).Perm (db.steps.filter fun ps =>
    ps.versionId == versionId && !(db.stepEmbeddings.any (space.holds ps.id)) && ps.hasContent) :=
  List.perm_insertionSort _ _

/-- A missing step has text and no vector of the space. -/
theorem mem_missingSteps {ps : ProcessStep F} : ps ∈ db.missingSteps space versionId ↔
    ps ∈ db.steps ∧ ps.versionId = versionId ∧
      db.stepEmbeddings.any (space.holds ps.id) = false ∧ ps.hasContent = true := by
  rw [perm_missingSteps.mem_iff, List.mem_filter]
  simp [and_assoc]

/-- It is missing once. -/
theorem nodup_missingSteps : ((db.missingSteps space versionId).map ProcessStep.id).Nodup :=
  ((perm_missingSteps.map _).nodup_iff).2
    (db.steps_nodup.sublist (List.filter_sublist.map _))

/-- **What is missing after some movements were given vectors**: the rest. -/
theorem missingSteps_filled {steps : List (ProcessStep F)} (h : Filled d space db steps db') :
    db'.missingSteps space versionId = (db.missingSteps space versionId).filter fun ps =>
      !(steps.map ProcessStep.id).contains ps.id := by
  unfold Database.missingSteps orderByNumber
  rw [filter_insertionSort (r := fun a b : ProcessStep F => a.stepNumber ≤ b.stepNumber)
    (fun a b => le_total a.stepNumber b.stepNumber) (fun _ _ _ => le_trans),
    List.filter_filter, h.steps]
  refine congrArg _ (List.filter_congr fun ps _ => ?_)
  rw [h.any_holds]
  cases ps.versionId == versionId <;> cases db.stepEmbeddings.any (space.holds ps.id) <;>
    cases ps.hasContent <;> cases (steps.map ProcessStep.id).contains ps.id <;> rfl

/-- The first of the missing movements were given vectors. -/
theorem missingSteps_take {n : Nat}
    (h : Filled d space db ((db.missingSteps space versionId).take n) db') :
    db'.missingSteps space versionId = (db.missingSteps space versionId).drop n := by
  rw [missingSteps_filled h, List.map_take, ← List.map_take,
    filter_take_eq_drop nodup_missingSteps]

end Missing

/-! ## §3. Batches. -/

/-- The first `k` batches. -/
theorem flatten_take_batches {α : Type} (rows : List α) (k : Nat) :
    ((batches rows).take k).flatten = rows.take (k * embeddingBatchSize) := by
  unfold batches
  rw [← List.map_take, List.take_range, flatten_chunks]
  -- past the last batch there is nothing left
  unfold embeddingBatchSize
  rcases le_total k ((rows.length + 64 - 1) / 64) with h | h
  · rw [min_eq_left h]
  · rw [min_eq_right h, List.take_of_length_le (by omega), List.take_of_length_le (by omega)]

/-- The batches are the rows, one after the other. -/
theorem flatten_batches {α : Type} (rows : List α) : (batches rows).flatten = rows := by
  have h := flatten_take_batches rows (batches rows).length
  rw [List.take_length] at h
  rw [h, List.take_of_length_le]
  unfold batches embeddingBatchSize
  rw [List.length_map, List.length_range]
  omega

/-! ## §4. One attempt. -/

/-- The movements whose texts were sent out so far, each as often as it was
sent. -/
def State.sent (s : State F) : List Uuid := s.calls.flatMap Call.stepIds

/-- How often a request for the vectors of some texts sends them out, at most:
the local encoder sends nothing. -/
def Deployment.sendings (d : Deployment F) (space : EmbeddingSpace) : Nat :=
  if space.provider = cohereProvider then
    match d.providerSettings "EMBEDDING_TIMEOUT_SECONDS" with
    | .ok settings => settings.maxAttempts
    | .error _ => 0
  else 0

/-- A text is sent three times at most in one call. -/
theorem sendings_le (d : Deployment F) (space : EmbeddingSpace) : d.sendings space ≤ 3 := by
  unfold Deployment.sendings
  split
  · split
    · exact ProviderSettings.maxAttempts_le _
    · exact Nat.zero_le _
  · exact Nat.zero_le _

/-- The documents of a batch, as the model sees them. -/
def Deployment.documents (d : Deployment F) (batch : List (ProcessStep F)) : List Document :=
  (batch.map ProcessStep.document).map d.viewed

/-- The documents of a batch are about its steps. -/
theorem stepIds_documents {d : Deployment F} (batch : List (ProcessStep F)) :
    (d.documents batch).filterMap Document.step = batch.map ProcessStep.id := by
  unfold Deployment.documents
  rw [List.map_map, List.filterMap_map, ← List.filterMap_eq_map]
  rfl

section Attempt

variable {d : Deployment F} {answers : Answers F} {space : EmbeddingSpace} {db : Database F}
  {n : Nat}

/-- Nothing was stored, and `n` texts were sent at most. -/
def Quiet (db : Database F) (n : Nat) (s : State F) : Prop :=
  s.db = db ∧ s.sent.length ≤ n

/-- Fewer texts were sent than some greater bound. -/
theorem Quiet.mono {m : Nat} {s : State F} (h : Quiet db n s) (hle : n ≤ m) : Quiet db m s :=
  ⟨h.1, h.2.trans hle⟩

/-- A pure computation, before anything is sent. -/
theorem quiet_ofExcept {α : Type} {E : State F → Prop} (hE : ∀ s, Quiet db n s → E s)
    (x : Except String α) :
    Triple (Quiet db n) (MonadExcept.ofExcept x : Action F α)
      (fun a s => x = .ok a ∧ Quiet db n s) E :=
  .liftExcept (fun _ _ hok hs => ⟨hok, hs⟩) hE

/-- A call sends its texts once for each attempt. -/
theorem quiet_callWithRetries {α : Type} {settings : ProviderSettings} {call : Call}
    {answer : List Call → Except ProviderError α} :
    Triple (Quiet db n) (callWithRetries settings call answer : Action F α)
      (fun _ => Quiet db (n + settings.maxAttempts * call.stepIds.length))
      (Quiet db (n + settings.maxAttempts * call.stepIds.length)) := by
  rintro s ⟨rfl, hsent⟩
  have hquiet : ∀ t : State F, (t.db = s.db ∧ ∃ k ≤ settings.maxAttempts,
      t.calls = s.calls ++ List.replicate k call) →
        Quiet s.db (n + settings.maxAttempts * call.stepIds.length) t := by
    rintro t ⟨hdb, k, hk, hcalls⟩
    have hmore : t.sent.length = s.sent.length + k * call.stepIds.length := by
      unfold State.sent
      rw [hcalls, List.flatMap_append, List.length_append,
        @List.length_flatMap _ _ (List.replicate k call), List.map_replicate,
        List.sum_replicate_nat]
    exact ⟨hdb, hmore ▸ Nat.add_le_add hsent (Nat.mul_le_mul_right _ hk)⟩
  exact ((retryCall_spec settings.maxAttempts s.calls).consequence (fun _ h => h)
    (fun _ t ht => hquiet t ht) hquiet) s ⟨rfl, rfl⟩

/-- **A transaction takes effect as a whole, or not at all**, and the one that
raised may have taken effect. -/
theorem quiet_transaction {change : Database F → Database F} :
    Triple (Quiet db n) (transaction answers change) (fun _ => Quiet (change db) n)
      (fun s => Quiet db n s ∨ Quiet (change db) n s) := by
  have hchanged : ∀ s : State F, Quiet db n s → Quiet (change db) n { s with db := change s.db } :=
    fun s hs => ⟨congrArg change hs.1, hs.2⟩
  refine .bind (.get (Q := fun _ => Quiet db n) fun _ hs => hs) fun s => ?_
  cases answers.transaction s with
  | commits => exact .modify hchanged
  | rollsBack error => exact .throw fun _ hs => .inl hs
  | commitsUnseen error => exact .bind (.modify hchanged) fun _ => .throw fun _ hs => .inr hs

/-- The vectors that an encoder hands over. -/
def Deployment.Vectors (d : Deployment F) (space : EmbeddingSpace) (n : Nat)
    (vectors : List (List F)) : Prop :=
  vectors.length = n ∧ ∀ vector ∈ vectors, d.assertDimensions space vector = .ok ()

/-- A loop that does not raise has checked every item. -/
theorem forall_of_forM_eq_ok {α : Type} {f : α → Except String Unit} {xs : List α}
    (h : xs.forM f = .ok ()) : ∀ x ∈ xs, f x = .ok () := by
  induction xs with
  | nil => exact fun _ h => (nomatch h)
  | cons x xs ih =>
      obtain ⟨_, hx, hxs⟩ := bind_eq_ok.1 h
      exact List.forall_mem_cons.2 ⟨hx, ih hxs⟩

/-- Vectors that are accepted are as many as the texts, finite and of the
dimensions of the space. -/
theorem decodeVectors_eq_ok {n : Nat} {raw vectors : List (List F)}
    (h : d.decodeVectors space n raw = .ok vectors) : d.Vectors space n vectors := by
  unfold Deployment.decodeVectors at h
  by_cases hlength : raw.length = n
  · rw [if_neg (not_not.2 hlength)] at h
    obtain ⟨_, hall, h⟩ := bind_eq_ok.1 h
    obtain rfl := Except.ok.inj h
    exact ⟨hlength, forall_of_forM_eq_ok hall⟩
  · rw [if_pos hlength] at h
    cases h

/-- What is known after an encoder ended with vectors; where it raised, no
more was sent. -/
def Embedded (d : Deployment F) (space : EmbeddingSpace) (db : Database F) (n : Nat)
    (batch : List (ProcessStep F)) (vectors : List (List F)) (s : State F) : Prop :=
  d.Vectors space batch.length vectors ∧ Quiet db (n + d.sendings space * batch.length) s

/-- The Cohere encoder sends the batch once for each attempt, or raises
before. -/
theorem cohereEmbed_spec (hcohere : space.provider = cohereProvider)
    (batch : List (ProcessStep F)) (inputType : String) :
    Triple (Quiet db n) (cohereEmbed d answers space (d.documents batch) inputType)
      (Embedded d space db n batch) (Quiet db (n + d.sendings space * batch.length)) := by
  have hearly : ∀ s : State F, Quiet db n s →
      Quiet db (n + d.sendings space * batch.length) s :=
    fun s hs => hs.mono (Nat.le_add_right _ _)
  have hlength : (d.documents batch).length = batch.length := by
    simp [Deployment.documents]
  unfold cohereEmbed
  refine .ite (fun hempty => .pure fun s hs => ?_) fun _ =>
    .ite (fun _ => .throw_bind hearly) fun _ => ?_
  · rw [List.isEmpty_iff] at hempty
    exact ⟨⟨by rw [← hlength, hempty]; rfl, fun _ h => (nomatch h)⟩, hearly s hs⟩
  · refine .bind (quiet_ofExcept hearly _) fun settings => .assume fun hsettings =>
      .bind (.bind (quiet_ofExcept hearly _) fun _ => .assume fun _ =>
        .pure (Q := fun _ => Quiet db n) fun _ hs => hs) fun _ => ?_
    have hsendings : settings.maxAttempts * (Call.cohereEmbed space.model inputType
        (d.documents batch)).stepIds.length = d.sendings space * batch.length := by
      rw [Deployment.sendings, if_pos hcohere, hsettings, Call.stepIds, stepIds_documents,
        List.length_map]
    refine .bind (hsendings ▸ quiet_callWithRetries) fun raw => ?_
    refine .liftExcept (fun vectors s hok hs => ⟨?_, hs⟩) fun s hs => hs
    exact hlength ▸ decodeVectors_eq_ok hok

/-- The local encoder sends nothing. -/
theorem bgeEmbed_spec (batch : List (ProcessStep F)) :
    Triple (Quiet db n) (bgeEmbed d space (d.documents batch))
      (Embedded d space db n batch) (Quiet db (n + d.sendings space * batch.length)) := by
  have hearly : ∀ s : State F, Quiet db n s →
      Quiet db (n + d.sendings space * batch.length) s :=
    fun s hs => hs.mono (Nat.le_add_right _ _)
  have hlength : (d.documents batch).length = batch.length := by
    simp [Deployment.documents]
  unfold bgeEmbed
  refine .ite (fun hempty => .pure fun s hs => ?_) fun _ =>
    .ite (fun _ => .throw_bind hearly) fun _ => ?_
  · rw [List.isEmpty_iff] at hempty
    exact ⟨⟨by rw [← hlength, hempty]; rfl, fun _ h => (nomatch h)⟩, hearly s hs⟩
  · refine .bind (quiet_ofExcept hearly _) fun raw => .assume fun _ => ?_
    refine .liftExcept (fun vectors s hok hs => ⟨?_, hearly s hs⟩) hearly
    exact hlength ▸ decodeVectors_eq_ok hok

/-- **The encoder of the space.** -/
theorem embedDocuments_spec (batch : List (ProcessStep F)) :
    Triple (Quiet db n) (embedDocuments d answers space (d.documents batch))
      (Embedded d space db n batch) (Quiet db (n + d.sendings space * batch.length)) := by
  unfold embedDocuments
  exact .ite (fun hcohere => cohereEmbed_spec hcohere batch _) fun _ => bgeEmbed_spec batch

/-- **A batch is stored as a whole**, or nothing of it. -/
theorem upsertStepEmbeddings_spec {batch : List (ProcessStep F)} {vectors : List (List F)}
    (hvectors : d.Vectors space batch.length vectors)
    (hnew : ∀ ps ∈ batch, db.stepEmbeddings.any (space.holds ps.id) = false)
    (hnodup : (batch.map ProcessStep.id).Nodup) :
    Triple (Quiet db n)
      (upsertStepEmbeddings d answers space ((batch.map ProcessStep.id).zip vectors))
      (fun updated s => updated = batch.length ∧ Filled d space db batch s.db ∧ s.sent.length ≤ n)
      (fun s => Quiet db n s ∨ Filled d space db batch s.db ∧ s.sent.length ≤ n) := by
  obtain ⟨hlength, hdimensions⟩ := hvectors
  have hfst : (((batch.map ProcessStep.id).zip vectors).map Prod.fst) =
      batch.map ProcessStep.id :=
    List.map_fst_zip (by rw [List.length_map, hlength])
  have hitems : ∀ item ∈ (batch.map ProcessStep.id).zip vectors,
      db.stepEmbeddings.any (space.holds item.1) = false := by
    intro item hitem
    have hmem : item.1 ∈ batch.map ProcessStep.id := hfst ▸ List.mem_map_of_mem hitem
    obtain ⟨ps, hps, hid⟩ := List.mem_map.1 hmem
    exact hid ▸ hnew ps hps
  have hfilled : Filled d space db batch
      { db with
        stepEmbeddings := ((batch.map ProcessStep.id).zip vectors).foldl
          (upsertStepEmbedding space) db.stepEmbeddings } :=
    ⟨rfl, vectors, hlength, hdimensions,
      foldl_upsertStepEmbedding hitems (hfst.symm ▸ hnodup :)⟩
  refine .bind (quiet_ofExcept (fun _ h => .inl h) _) fun _ => .assume fun _ =>
    .bind (quiet_transaction.consequence (fun _ h => h) (fun _ _ h => h) fun s h => ?_) fun _ =>
      .pure fun s hs => ⟨?_, ?_, ?_⟩
  · rcases h with h | ⟨hdb, hsent⟩
    · exact .inl h
    · exact .inr ⟨hdb ▸ hfilled, hsent⟩
  · rw [List.length_zip, List.length_map, hlength, min_self]
  · rw [hs.1]
    exact hfilled
  · exact hs.2

/-- The loop of the filler. -/
abbrev fillLoop (d : Deployment F) (answers : Answers F) (space : EmbeddingSpace) :
    List (List (ProcessStep F)) → Action F Nat :=
  fillBatches (fun documents => embedDocuments d answers space (documents.map d.viewed))
    (upsertStepEmbeddings d answers space)

/-- The first `k` batches were stored; no more was sent than the texts of
these and of the next. -/
def Interrupted (d : Deployment F) (space : EmbeddingSpace) (db : Database F) (n : Nat)
    (rows : List (List (ProcessStep F))) (s : State F) : Prop :=
  ∃ k, Filled d space db (rows.take k).flatten s.db ∧
    s.sent.length ≤ n + d.sendings space * (rows.take (k + 1)).flatten.length

section Interruption

variable {batch : List (ProcessStep F)} {rest : List (List (ProcessStep F))} {s : State F}

/-- It raised before the first batch was stored. -/
theorem interrupted_first (h : Quiet db (n + d.sendings space * batch.length) s) :
    Interrupted d space db n (batch :: rest) s := by
  refine ⟨0, h.1 ▸ .refl d space s.db, ?_⟩
  rw [List.take_succ_cons, List.take_zero, List.flatten_singleton]
  exact h.2

/-- It raised although the first batch was stored. -/
theorem interrupted_stored (hfilled : Filled d space db batch s.db)
    (hsent : s.sent.length ≤ n + d.sendings space * batch.length) :
    Interrupted d space db n (batch :: rest) s := by
  refine ⟨1, ?_, hsent.trans (Nat.add_le_add_left (Nat.mul_le_mul_left _ ?_) _)⟩
  · rw [List.take_succ_cons, List.take_zero, List.flatten_singleton]
    exact hfilled
  · rw [List.take_succ_cons, List.flatten_cons, List.length_append]
    exact Nat.le_add_right _ _

/-- It raised in the batches after the first. -/
theorem interrupted_later {db' : Database F} (hfilled : Filled d space db batch db')
    (h : Interrupted d space db' (n + d.sendings space * batch.length) rest s) :
    Interrupted d space db n (batch :: rest) s := by
  obtain ⟨k, hrest, hsent⟩ := h
  refine ⟨k + 1, ?_, ?_⟩
  · rw [List.take_succ_cons, List.flatten_cons]
    exact hfilled.trans hrest
  · rw [List.take_succ_cons, List.flatten_cons, List.length_append, Nat.mul_add, ← Nat.add_assoc]
    exact hsent

end Interruption

/-- **The loop over the batches**, by induction on them. -/
theorem fillBatches_spec (rows : List (List (ProcessStep F)))
    (hnew : ∀ ps ∈ rows.flatten, db.stepEmbeddings.any (space.holds ps.id) = false)
    (hnodup : (rows.flatten.map ProcessStep.id).Nodup) :
    Triple (Quiet db n) (fillLoop d answers space rows)
      (fun updated s => updated = rows.flatten.length ∧ Filled d space db rows.flatten s.db ∧
        s.sent.length ≤ n + d.sendings space * rows.flatten.length)
      (Interrupted d space db n rows) := by
  induction rows generalizing db n with
  | nil => exact .pure fun s hs => ⟨rfl, hs.1 ▸ .refl d space s.db, hs.2⟩
  | cons batch rest ih =>
      rw [List.flatten_cons] at hnew hnodup
      rw [List.map_append, List.nodup_append] at hnodup
      obtain ⟨hbatch, hrest, hdisjoint⟩ := hnodup
      refine .bind ((embedDocuments_spec batch).consequence (fun _ h => h) (fun _ _ h => h)
        fun s h => interrupted_first h) fun vectors => .assume fun hvectors => ?_
      refine .bind (quiet_ofExcept (fun s hs => interrupted_first hs) _) fun items =>
        .assume fun hitems => ?_
      have hitems : items = (batch.map ProcessStep.id).zip vectors := by
        unfold zipStrict at hitems
        rw [if_pos (by rw [List.length_map, hvectors.1])] at hitems
        exact (Except.ok.inj hitems).symm
      rw [hitems]
      refine .bind ((upsertStepEmbeddings_spec hvectors (fun ps hps => hnew ps
        (List.mem_append_left _ hps)) hbatch).consequence (fun _ h => h) (fun _ _ h => h)
        fun s hs => hs.elim interrupted_first fun hs => interrupted_stored hs.1 hs.2)
        fun updated => .assume fun hupdated => ?_
      rintro s ⟨hfilled, hs⟩
      -- the batches that are left are new in the database with this one
      have hnew' : ∀ ps ∈ rest.flatten, s.db.stepEmbeddings.any (space.holds ps.id) = false := by
        intro ps hps
        rw [hfilled.any_holds, hnew ps (List.mem_append_right _ hps), Bool.false_or,
          ← Bool.not_eq_true, List.contains_iff_mem]
        exact fun hmem => hdisjoint _ hmem _ (List.mem_map_of_mem hps) rfl
      refine Triple.bind ((ih hnew' hrest).consequence (fun _ h => h) (fun _ _ h => h)
        fun s h => interrupted_later hfilled h) (fun n => .pure fun s h => ?_) s ⟨rfl, hs⟩
      obtain ⟨rfl, hrows, hsent⟩ := h
      rw [List.flatten_cons, List.length_append, Nat.mul_add, ← Nat.add_assoc]
      exact ⟨hupdated ▸ rfl, hfilled.trans hrows, hsent⟩

/-- What an attempt leaves, where it raised: the first of the missing
movements were stored, and of the texts no more was sent than of these and a
batch. -/
def Partial (d : Deployment F) (space : EmbeddingSpace) (s : State F)
    (missing : List (ProcessStep F)) (s' : State F) : Prop :=
  ∃ n, Filled d space s.db (missing.take n) s'.db ∧
    s'.sent.length ≤ s.sent.length +
      d.sendings space * (missing.take (n + embeddingBatchSize)).length

/-- No batch has been made. -/
theorem Partial.refl {s : State F} (missing : List (ProcessStep F)) :
    Partial d space s missing s :=
  ⟨0, .refl d space s.db, Nat.le_add_right _ _⟩

/-- **One attempt**: all that is missing, or the first batches of it. -/
theorem ensureSpaceEmbeddings_spec {versionId : Uuid} (s : State F) :
    Triple (· = s) (ensureSpaceEmbeddings d answers space versionId)
      (fun updated s' => updated = (s.db.missingSteps space versionId).length ∧
        Filled d space s.db (s.db.missingSteps space versionId) s'.db ∧
        s'.sent.length ≤ s.sent.length +
          d.sendings space * (s.db.missingSteps space versionId).length)
      (Partial d space s (s.db.missingSteps space versionId)) := by
  unfold ensureSpaceEmbeddings
  refine .bind (.get (Q := fun a s' => a = s ∧ s' = s) fun s' hs => ⟨hs, hs⟩) fun a =>
    .assume fun ha => .bind (.liftExcept (Q := fun _ => (· = s)) (fun _ _ _ hs => hs)
      fun s' hs => hs ▸ .refl _) fun _ => ?_
  rw [ha]
  cases s.db.secrecyLevel versionId with
  | none => exact .throw fun s' hs => hs ▸ .refl _
  | some level =>
      refine .ite (fun _ => .throw_bind fun s' hs => hs ▸ .refl _) fun _ => ?_
      have hflatten := flatten_batches (s.db.missingSteps space versionId)
      refine (fillBatches_spec (batches (s.db.missingSteps space versionId)) (fun ps hps => ?_)
        (hflatten.symm ▸ nodup_missingSteps)).consequence
          (fun s' hs => ⟨by rw [hs], by rw [hs]⟩) (fun updated s' h => hflatten ▸ h) ?_
      · exact (mem_missingSteps.1 (hflatten ▸ hps)).2.2.1
      · rintro s' ⟨k, hfilled, hsent⟩
        rw [flatten_take_batches] at hfilled
        rw [flatten_take_batches, Nat.succ_mul] at hsent
        exact ⟨_, hfilled, hsent⟩

end Attempt

/-! ## §5. Attempts. -/

/-- Attempts to fill a version, one after the other, whatever the providers
answer to each: how each ended, and what they leave. -/
def fillAttempts (d : Deployment F) (space : EmbeddingSpace) (versionId : Uuid) :
    List (Answers F) → State F → List (Except String Nat) × State F
  | [], s => ([], s)
  | answers :: rest, s =>
      let out := (ensureSpaceEmbeddings d answers space versionId).run.run s
      let later := fillAttempts d space versionId rest out.2
      (out.1 :: later.1, later.2)

/-- The attempts that raised. -/
def failures (outcomes : List (Except String Nat)) : Nat :=
  outcomes.countP fun outcome => !outcome.isOk

/-- What attempts leave: the first of the missing movements have vectors;
all have them where one attempt succeeded; the texts sent, each as often as it
was sent, are as many as a request may send for what was stored and for a
batch for each attempt that raised. -/
structure Resumed (d : Deployment F) (space : EmbeddingSpace) (versionId : Uuid) (s : State F)
    (outcomes : List (Except String Nat)) (s' : State F) : Prop where
  filled : ∃ n, Filled d space s.db ((s.db.missingSteps space versionId).take n) s'.db
  succeeded : ∀ n, .ok n ∈ outcomes → s'.db.missingSteps space versionId = []
  sent : s'.sent.length + d.sendings space * (s'.db.missingSteps space versionId).length ≤
    s.sent.length + d.sendings space *
      ((s.db.missingSteps space versionId).length + embeddingBatchSize * failures outcomes)

section Attempts

variable {d : Deployment F} {space : EmbeddingSpace} {versionId : Uuid} {s s' s'' : State F}
  {outcomes outcomes' : List (Except String Nat)}

/-- No attempt has been made. -/
theorem Resumed.refl (s : State F) : Resumed d space versionId s [] s :=
  ⟨⟨0, .refl d space s.db⟩, fun _ h => (nomatch h), le_rfl⟩

/-- Attempts one after the other. -/
theorem Resumed.trans (h : Resumed d space versionId s outcomes s')
    (h' : Resumed d space versionId s' outcomes' s'') :
    Resumed d space versionId s (outcomes ++ outcomes') s'' := by
  obtain ⟨n, hn⟩ := h.filled
  obtain ⟨m, hm⟩ := h'.filled
  have hleft := missingSteps_take hn
  have hleft' := missingSteps_take hm
  refine ⟨⟨n + m, ?_⟩, fun c hc => ?_, ?_⟩
  · rw [List.take_add, ← hleft]
    exact hn.trans hm
  · rcases List.mem_append.1 hc with hc | hc
    · rw [hleft', h.succeeded c hc, List.drop_nil]
    · exact h'.succeeded c hc
  · have hsent := h.sent
    have hsent' := h'.sent
    unfold failures at *
    rw [List.countP_append]
    simp only [Nat.mul_add] at hsent hsent' ⊢
    omega

/-- One attempt, as a sequence of attempts. -/
theorem resumed_of_attempt (answers : Answers F) (s : State F) :
    Resumed d space versionId s
      [((ensureSpaceEmbeddings d answers space versionId).run.run s).1]
      ((ensureSpaceEmbeddings d answers space versionId).run.run s).2 := by
  have hspec : Triple (· = s) (ensureSpaceEmbeddings d answers space versionId) _ _ :=
    ensureSpaceEmbeddings_spec s
  have hend := hspec s rfl
  generalize (ensureSpaceEmbeddings d answers space versionId).run.run s = out at hend ⊢
  obtain ⟨e | n, s'⟩ := out
  · obtain ⟨n, hfilled, hsent⟩ := hend
    refine ⟨⟨n, hfilled⟩, fun c hc => (nomatch List.mem_singleton.1 hc), ?_⟩
    have hfailed : failures [(.error e : Except String Nat)] = 1 := rfl
    rw [missingSteps_take hfilled, List.length_drop, hfailed, Nat.mul_one]
    refine (Nat.add_le_add_right hsent _).trans ?_
    rw [List.length_take, Nat.add_assoc, ← Nat.mul_add]
    exact Nat.add_le_add_left (Nat.mul_le_mul_left _ (by omega)) _
  · obtain ⟨rfl, hfilled, hsent⟩ := hend
    have hall := List.take_length (l := s.db.missingSteps space versionId)
    have hnone : s'.db.missingSteps space versionId = [] := by
      rw [missingSteps_take (hall.symm ▸ hfilled), List.drop_length]
    refine ⟨⟨_, hall.symm ▸ hfilled⟩, fun _ _ => hnone, ?_⟩
    have hended : failures [(.ok (s.db.missingSteps space versionId).length :
      Except String Nat)] = 0 := rfl
    rw [hnone, hended, List.length_nil, Nat.mul_zero, Nat.mul_zero, Nat.add_zero, Nat.add_zero]
    exact hsent

end Attempts

/-- **Attempts resume**: whatever the providers answer and wherever an attempt
raises, no movement is given a second vector, none that had one another; after
a success all have one; and only an attempt that raised leaves texts that are
asked for again, a batch at most. -/
theorem attempts_resume (d : Deployment F) (space : EmbeddingSpace) (versionId : Uuid)
    (tries : List (Answers F)) (s : State F) :
    Resumed d space versionId s (fillAttempts d space versionId tries s).1
      (fillAttempts d space versionId tries s).2 := by
  induction tries generalizing s with
  | nil => exact .refl s
  | cons answers rest ih => exact (resumed_of_attempt answers s).trans (ih _)

/-! ## §6. Seventy movements. -/

/-- A space of two dimensions. -/
def narrowSpace : EmbeddingSpace := { provider := "cohere", model := "embed-v4.0", dimensions := 2 }

/-- Seventy movements of one version. -/
def longSteps : List (ProcessStep Int) :=
  (List.range 70).map fun i : Nat =>
    { id := i + 3, versionId := 2, processId := 1, stepNumber := i, text := "Juntada" }

/-- The steps have different ids. -/
theorem longSteps_nodup : (longSteps.map ProcessStep.id).Nodup := by decide +kernel

/-- The version they belong to. -/
def longVersions : List ProcessVersion := [{ id := 2, processId := 1 }]

theorem longVersions_nodup : (longVersions.map ProcessVersion.id).Nodup := List.nodup_singleton 2

/-- A public process whose version has seventy movements. -/
def longVersion : Database Int where
  processes := [{ id := 1, code := "0000001-02.2024.8.26.0100", currentVersionId := some 2 }]
  versions := longVersions
  steps := longSteps
  processes_nodup := List.nodup_singleton _
  versions_nodup := longVersions_nodup
  steps_nodup := longSteps_nodup

/-- Cohere is too busy for the first request, and the transaction of the
second batch is rolled back; the next attempt goes through. -/
def interruptedAnswers : List (Answers Int) :=
  let answers := cohereDeployment.answering narrowSpace
  [{ answers with
      cohereEmbed := fun calls =>
        if calls.length = 1 then .error { message := "HTTP 503", retryable := true }
        else answers.cohereEmbed calls
      transaction := fun s =>
        if s.db.stepEmbeddings.isEmpty then .commits else .rollsBack "deadlock detected" },
   answers]

/-- The first attempt sends the first batch twice, stores it, and raises on
the second; the next sends and stores that one. -/
theorem attempts_resume_longVersion :
    failures (fillAttempts cohereDeployment narrowSpace 2 interruptedAnswers
      { db := longVersion }).1 = 1 ∧
    (fillAttempts cohereDeployment narrowSpace 2 interruptedAnswers
      { db := longVersion }).2.db.missingSteps narrowSpace 2 = [] ∧
    (fillAttempts cohereDeployment narrowSpace 2 interruptedAnswers
      { db := longVersion }).2.sent.length = 64 + 64 + 6 + 6 := by
  have hresumed := attempts_resume cohereDeployment narrowSpace 2 interruptedAnswers
    { db := longVersion }
  obtain ⟨hfailed, houtcomes, hsent⟩ :
      failures (fillAttempts cohereDeployment narrowSpace 2 interruptedAnswers
        { db := longVersion }).1 = 1 ∧
      (fillAttempts cohereDeployment narrowSpace 2 interruptedAnswers
        { db := longVersion }).1.map Except.toOption = [none, some 6] ∧
      (fillAttempts cohereDeployment narrowSpace 2 interruptedAnswers
        { db := longVersion }).2.sent.length = 64 + 64 + 6 + 6 := by
    decide +kernel
  refine ⟨hfailed, hresumed.succeeded 6 ?_, hsent⟩
  obtain ⟨outcome, hmem, hsome⟩ : ∃ outcome ∈ (fillAttempts cohereDeployment narrowSpace 2
      interruptedAnswers { db := longVersion }).1, outcome.toOption = some 6 :=
    List.mem_map.1 (houtcomes ▸ List.mem_cons_of_mem _ List.mem_cons_self)
  cases outcome with
  | error e => cases hsome
  | ok updated => exact Option.some.inj hsome ▸ hmem

end Rpy.Retrieval

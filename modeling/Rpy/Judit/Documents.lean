/-
  Rpy.Judit.Documents
  ───────────────────
  **WHERE A DOCUMENT NUMBER SURVIVES THE PROMOTION**
  (`_safe_party_entity`, `_normalize_step_text` and
  `extract_promotable_fields` of `app/judit.py`).

  The promotion masks the number of a party and takes the numbers out of the
  texts of the steps.  The name, the side and the type of a party, the name
  of who it represents and the title of a step are copied as they are.

    • `documentNumbers`  — the document numbers of a payload,
    • `Exposed`          — a number is a run of digits of what is promoted,
    • `not_run_normalizeStepText`, `not_run_masked` — never in a step's text
                           and never in a mask,
    • `runIn_safeParty`  — of a party, in what is copied and nowhere else,
    • `hidden_iff`       — **so the numbers stay hidden where no copied field
                           has one**,
    • `not_hidden`       — one that does not.
-/
import Rpy.Judit.Accepted

namespace Rpy.Judit

open Rpy.Foundation
open Regex

/-! ## §1. Runs of digits in a value. -/

section Runs

variable (u : Runtime)

/-- A maximal run of digits of a text. -/
def RunOf (w : List Char) (s : String) : Prop := IsRun u.isDecimal w s.toList

mutual
/-- A maximal run of digits of a text or a number in a value, or of a key. -/
def RunIn (w : List Char) : Json → Prop
  | .null => False
  | .bool _ => False
  | .int n => RunOf u w (u.str (.int n))
  | .float d => RunOf u w (u.str (.float d))
  | .str s => RunOf u w s
  | .arr xs => RunInItems w xs
  | .obj members => RunInMembers w members

def RunInItems (w : List Char) : List Json → Prop
  | [] => False
  | x :: xs => RunIn w x ∨ RunInItems w xs

def RunInMembers (w : List Char) : List (String × Json) → Prop
  | [] => False
  | (key, value) :: members => RunOf u w key ∨ RunIn w value ∨ RunInMembers w members
end

/-! ## §2. The numbers, and where they may be seen. -/

/-- The document numbers of a party: its own, and those of its documents. -/
def partyNumbers (party : Json) : List (List Char) :=
  if party.isObj then
    (personalIdDigits u (party.get "main_document")).toList ++
      (listed (party.get "documents")).filterMap fun document =>
        personalIdDigits u (if document.isObj then document.get "document" else document)
  else []

/-- The document numbers of the parties and representatives of a payload. -/
def documentNumbers (process : Json) : List (List Char) :=
  (listed (process.get "parties")).flatMap (partyNumbers u)

/-- A number is a run of digits of a promoted party or representative, or of
the title or the text of a step. -/
def Exposed (w : List Char) (fields : Processes.SemanticFields) : Prop :=
  (∃ party ∈ fields.parties ++ fields.representatives, RunIn u w party) ∨
    ∃ step ∈ fields.steps, RunIn u w step.title ∨ RunOf u w step.text

/-- A number is a run of digits of what is copied of a party. -/
def CopiedFrom (w : List Char) (party : Json) : Prop :=
  RunOf u w (partyName u party) ∨ RunIn u w (party.get "side") ∨
    RunIn u w (party.get "person_type") ∨
    isRepresentative u party = true ∧ ∃ name ∈ representedPartyName u party, RunOf u w name

/-- No document number is in a copied field of a named party, or is the title
of a step. -/
def NoneCopied (process : Json) : Prop :=
  ∀ w ∈ documentNumbers u process,
    (∀ party ∈ listed (process.get "parties"), party.isObj = true → partyName u party ≠ "" →
      ¬ CopiedFrom u w party) ∧
    ∀ step ∈ listed (namedSteps process), step.isObj = true → ¬ RunIn u w (stepType step)

/-- The process is secret. -/
def Secret (process : Json) : Prop := ∃ n, intOf u (secrecyValue process) = .ok n ∧ 0 < n

end Runs

section Hiding

variable {u : Runtime} {w : List Char}

/-! ## §3. What the promotion makes itself. -/

theorem length_of_mem_documentNumbers {process : Json} (h : w ∈ documentNumbers u process) :
    w.length = 11 ∨ w.length = 14 := by
  obtain ⟨party, -, hparty⟩ := List.mem_flatMap.1 h
  unfold partyNumbers at hparty
  split at hparty
  · rcases List.mem_append.1 hparty with hown | hdocument
    · exact length_personalIdDigits (Option.mem_toList.1 hown)
    · obtain ⟨document, -, hdocument⟩ := List.mem_filterMap.1 hdocument
      exact length_personalIdDigits hdocument
  · cases hparty

/-- No digit, and only ASCII. -/
def isPlain (c : Char) : Bool := decide (c.toNat < 128) && !c.isDigit

theorem isDecimal_of_isPlain {cs : List Char} (h : cs.all isPlain = true) :
    ∀ c ∈ cs, u.isDecimal c = false := by
  intro c hc
  have hboth := List.all_eq_true.1 h c hc
  rw [isPlain, Bool.and_eq_true, decide_eq_true_eq] at hboth
  rw [u.isDecimal_ascii c hboth.1]
  simpa using hboth.2

/-- **No document number is left in the text of a step.** -/
theorem not_run_normalizeStepText (hlength : w.length = 11 ∨ w.length = 14) (v : Json) :
    ¬ RunOf u w (normalizeStepText u v) := by
  intro hrun
  unfold RunOf normalizeStepText at hrun
  simp only [String.toList_ofList] at hrun
  have hrepl : ∀ c ∈ "[documento removido]".toList, u.isDecimal c = false :=
    isDecimal_of_isPlain (by decide)
  have hneither := length_of_run_sub (by decide) (by decide) hrepl hrun
  rcases hlength with h | h
  · exact hneither.1 h
  · exact hneither.2 h

/-- A mask keeps two digits. -/
theorem not_run_masked (hlength : w.length = 11 ∨ w.length = 14) {value masked : List Char}
    (h : maskedPersonalId value = .ok masked) : ¬ RunOf u w (String.ofList masked) := by
  have hshort : ∀ {front back : List Char}, front.all isPlain = true → back.length = 2 →
      ¬ RunOf u w (String.ofList (front ++ back)) := by
    intro front back hfront hback hrun
    unfold RunOf at hrun
    rw [String.toList_ofList] at hrun
    have hle := (hrun.of_append_none (isDecimal_of_isPlain hfront)).length_le
    omega
  unfold maskedPersonalId at h
  split at h
  · rename_i hvalue
    cases h
    exact hshort (by decide) (by rw [List.length_drop, hvalue])
  · split at h
    · rename_i hvalue
      cases h
      exact hshort (by decide) (by rw [List.length_drop, hvalue])
    · cases h

/-! ## §4. What is kept of a party. -/

theorem runInMembers_append (ms ns : List (String × Json)) :
    RunInMembers u w (ms ++ ns) ↔ RunInMembers u w ms ∨ RunInMembers u w ns := by
  induction ms with
  | nil => exact ⟨.inr, fun h => h.resolve_left id⟩
  | cons m ms ih =>
      obtain ⟨key, value⟩ := m
      show RunOf u w key ∨ RunIn u w value ∨ RunInMembers u w (ms ++ ns) ↔
        (RunOf u w key ∨ RunIn u w value ∨ RunInMembers u w ms) ∨ RunInMembers u w ns
      rw [ih, or_assoc, or_assoc]

/-- A member under a key without digits. -/
theorem runInMembers_cons {key : String} (hkey : key.toList.all isPlain = true) (value : Json)
    (ms : List (String × Json)) :
    RunInMembers u w ((key, value) :: ms) ↔ RunIn u w value ∨ RunInMembers u w ms := by
  have hno : ¬ RunOf u w key := not_isRun_of_none (isDecimal_of_isPlain hkey)
  show RunOf u w key ∨ _ ↔ _
  exact or_iff_right hno

/-- What is kept of a named party: its name, its side and its type, and a mask. -/
theorem runIn_safePartyEntity (hlength : w.length = 11 ∨ w.length = 14) {party : Json}
    {kept : List (String × Json)} (h : safePartyEntity u party = .ok (some kept)) :
    partyName u party ≠ "" ∧ (RunInMembers u w kept ↔ RunOf u w (partyName u party) ∨
      RunIn u w (party.get "side") ∨ RunIn u w (party.get "person_type")) := by
  unfold safePartyEntity at h
  have hcopied : RunInMembers u w [("name", .str (partyName u party)), ("side", party.get "side"),
      ("person_type", party.get "person_type")] ↔ RunOf u w (partyName u party) ∨
        RunIn u w (party.get "side") ∨ RunIn u w (party.get "person_type") := by
    rw [runInMembers_cons (by decide), runInMembers_cons (by decide),
      runInMembers_cons (by decide)]
    show RunOf u w (partyName u party) ∨ _ ∨ _ ∨ False ↔ _
    rw [or_false]
  split at h
  · cases h
  · rename_i hname
    refine ⟨hname, ?_⟩
    obtain ⟨found, -, h⟩ := bind_eq_ok.1 h
    cases found with
    | none =>
        cases h
        exact hcopied
    | some digits =>
        obtain ⟨masked, hmasked, h⟩ := bind_eq_ok.1 h
        cases h
        rw [runInMembers_append, hcopied, runInMembers_cons (by decide)]
        show _ ∨ RunOf u w (String.ofList masked) ∨ False ↔ _
        rw [or_false]
        exact or_iff_left (not_run_masked hlength hmasked)

/-- **What is promoted of a party** has a number as a run of digits where
something copied from the party has. -/
theorem runIn_safeParty (hlength : w.length = 11 ∨ w.length = 14) {party : Json}
    {part : List Json × List Json} (h : safeParty u party = .ok part) :
    (∃ promoted ∈ part.1 ++ part.2, RunIn u w promoted) ↔
      party.isObj = true ∧ partyName u party ≠ "" ∧ CopiedFrom u w party := by
  unfold safeParty at h
  cases hobj : party.isObj with
  | false =>
      rw [hobj] at h
      cases h
      simp
  | true =>
      rw [hobj, if_pos rfl] at h
      obtain ⟨entity, hentity, h⟩ := bind_eq_ok.1 h
      cases entity with
      | none =>
          cases h
          -- Nothing is kept: the name was empty.
          have hname : partyName u party = "" := by
            by_contra hne
            unfold safePartyEntity at hentity
            rw [if_neg hne] at hentity
            obtain ⟨found, -, hentity⟩ := bind_eq_ok.1 hentity
            cases found with
            | none => cases hentity
            | some digits =>
                obtain ⟨masked, -, hentity⟩ := bind_eq_ok.1 hentity
                cases hentity
          simp [hname]
      | some kept =>
          -- A party is kept: its own members are the copied ones.
          obtain ⟨hname, hkept⟩ := runIn_safePartyEntity hlength hentity
          simp only at h
          unfold CopiedFrom
          cases hrepresents : isRepresentative u party with
          | false =>
              rw [hrepresents] at h
              cases h
              show (∃ promoted ∈ [Json.obj kept], RunIn u w promoted) ↔ _
              simp only [List.mem_singleton, exists_eq_left]
              show RunInMembers u w kept ↔ _
              simp [hkept, hname]
          | true =>
              rw [hrepresents, if_pos rfl] at h
              cases hrepresented : representedPartyName u party with
              | none =>
                  rw [hrepresented] at h
                  cases h
                  show (∃ promoted ∈ [Json.obj kept], RunIn u w promoted) ↔ _
                  simp only [List.mem_singleton, exists_eq_left]
                  show RunInMembers u w kept ↔ _
                  simp [hkept, hname]
              -- A representative has the represented party's name besides.
              | some name =>
                  rw [hrepresented] at h
                  cases h
                  show (∃ promoted ∈ [Json.obj (kept ++ [("represents", .str name)])],
                    RunIn u w promoted) ↔ _
                  simp only [List.mem_singleton, exists_eq_left]
                  show RunInMembers u w (kept ++ [("represents", .str name)]) ↔ _
                  rw [runInMembers_append, hkept, runInMembers_cons (by decide)]
                  show _ ∨ RunOf u w name ∨ False ↔ _
                  simp [hname, or_assoc]

/-! ## §5. What is promoted. -/

/-- **Of the steps** the titles are copied. -/
theorem runIn_promoteSteps (hlength : w.length = 11 ∨ w.length = 14) {process court : Json}
    {level : Int} {items : List Json} : ∀ {index : Nat} {steps : List Processes.Step},
      promoteSteps u process court level index items = .ok steps →
      ((∃ step ∈ steps, RunIn u w step.title ∨ RunOf u w step.text) ↔
        ∃ step ∈ items, step.isObj = true ∧ RunIn u w (stepType step)) := by
  induction items with
  | nil =>
      intro index steps h
      cases h
      simp
  | cons item items ih =>
      intro index steps h
      rw [promoteSteps] at h
      cases hobj : item.isObj with
      | false =>
          rw [hobj, if_neg Bool.false_ne_true] at h
          rw [ih h]
          simp [hobj]
      | true =>
          rw [hobj, if_pos rfl] at h
          obtain ⟨promoted, hpromoted, h⟩ := bind_eq_ok.1 h
          obtain ⟨others, hothers, h⟩ := bind_eq_ok.1 h
          cases h
          have hstep : RunIn u w promoted.title ∨ RunOf u w promoted.text ↔
              RunIn u w (stepType item) := by
            unfold promoteStep at hpromoted
            obtain ⟨date, -, hpromoted⟩ := bind_eq_ok.1 hpromoted
            obtain ⟨number, -, hpromoted⟩ := bind_eq_ok.1 hpromoted
            cases hpromoted
            exact or_iff_left (not_run_normalizeStepText hlength _)
          simp only [List.mem_cons, exists_eq_or_imp, hstep, ih hothers, hobj, true_and]

/-- What is promoted of each party, together. -/
theorem runIn_parts (hlength : w.length = 11 ∨ w.length = 14) {items : List Json}
    {parts : List (List Json × List Json)}
    (h : List.Forall₂ (fun party part => safeParty u party = .ok part) items parts) :
    (∃ party ∈ parts.flatMap (·.1) ++ parts.flatMap (·.2), RunIn u w party) ↔
      ∃ party ∈ items, party.isObj = true ∧ partyName u party ≠ "" ∧ CopiedFrom u w party := by
  induction h with
  | nil => simp
  | @cons party part items parts hpart _ ih =>
      have hsplit : ∀ xs ys : List Json, (∃ party ∈ xs ++ ys, RunIn u w party) ↔
          (∃ party ∈ xs, RunIn u w party) ∨ ∃ party ∈ ys, RunIn u w party := fun xs ys => by
        simp only [List.mem_append, or_and_right, exists_or]
      rw [List.exists_mem_cons_iff, ← runIn_safeParty hlength hpart, ← ih, List.flatMap_cons,
        List.flatMap_cons, hsplit, hsplit, hsplit, hsplit, hsplit]
      exact or_or_or_comm

/-- **Of the parties** a part is copied. -/
theorem runIn_safeParties (hlength : w.length = 11 ∨ w.length = 14) {process : Json}
    {parties representatives : List Json}
    (h : safePartiesAndRepresentatives u process = .ok (parties, representatives)) :
    (∃ party ∈ parties ++ representatives, RunIn u w party) ↔
      ∃ party ∈ listed (process.get "parties"), party.isObj = true ∧ partyName u party ≠ "" ∧
        CopiedFrom u w party := by
  unfold safePartiesAndRepresentatives at h
  obtain ⟨items, hitems, h⟩ := bind_eq_ok.1 h
  obtain ⟨-, rfl⟩ := iterate_orElse_eq_ok.1 hitems
  obtain ⟨parts, hparts, h⟩ := bind_eq_ok.1 h
  cases h
  exact runIn_parts hlength (forall₂_of_mapM_eq_ok hparts)

/-- The number is exposed where it is copied from a party or a title. -/
theorem exposed_iff (hlength : w.length = 11 ∨ w.length = 14) {process : Json}
    {fields : Processes.SemanticFields} (h : extractPromotableFields u process = .ok fields) :
    Exposed u w fields ↔ ¬ Secret u process ∧
      ((∃ party ∈ listed (process.get "parties"), party.isObj = true ∧ partyName u party ≠ "" ∧
        CopiedFrom u w party) ∨
      ∃ step ∈ listed (namedSteps process), step.isObj = true ∧ RunIn u w (stepType step)) := by
  unfold extractPromotableFields at h
  obtain ⟨⟨firstName, classCode⟩, -, h⟩ := bind_eq_ok.1 h
  obtain ⟨court, -, h⟩ := bind_eq_ok.1 h
  obtain ⟨level, hlevel, h⟩ := bind_eq_ok.1 h
  have hsecret : Secret u process ↔ 0 < level := by
    constructor
    · rintro ⟨n, hn, hpos⟩
      rw [hlevel] at hn
      cases hn
      exact hpos
    · exact fun hpos => ⟨level, hlevel, hpos⟩
  rw [hsecret]
  by_cases hpos : 0 < level
  · -- a secret process has no parties and no steps
    rw [if_pos hpos] at h
    cases h
    simp [Exposed, hpos]
  · rw [if_neg hpos] at h
    obtain ⟨items, hitems, h⟩ := bind_eq_ok.1 h
    obtain ⟨-, rfl⟩ := iterate_orElse_eq_ok.1 hitems
    obtain ⟨steps, hsteps, h⟩ := bind_eq_ok.1 h
    obtain ⟨⟨parties, representatives⟩, hparties, h⟩ := bind_eq_ok.1 h
    obtain ⟨subjects, -, h⟩ := bind_eq_ok.1 h
    obtain ⟨attachments, -, h⟩ := bind_eq_ok.1 h
    cases h
    unfold Exposed
    rw [runIn_safeParties hlength hparties, runIn_promoteSteps hlength hsteps]
    exact (and_iff_right hpos).symm

/-- **No document number survives the promotion** where the process is secret
or none is in a field that is copied. -/
theorem hidden_iff (u : Runtime) (process : Json) (fields : Processes.SemanticFields)
    (h : extractPromotableFields u process = .ok fields) :
    (∀ w ∈ documentNumbers u process, ¬ Exposed u w fields) ↔
      Secret u process ∨ NoneCopied u process := by
  have hexposed : ∀ w ∈ documentNumbers u process, (Exposed u w fields ↔ _) := fun w hw =>
    exposed_iff (length_of_mem_documentNumbers hw) h
  constructor
  · intro hhidden
    by_cases hsecret : Secret u process
    · exact .inl hsecret
    · refine .inr fun w hw => ⟨fun party hparty hobj hname hcopied => ?_,
        fun step hstep hobj htitle => ?_⟩
      · exact hhidden w hw ((hexposed w hw).2 ⟨hsecret, .inl ⟨party, hparty, hobj, hname, hcopied⟩⟩)
      · exact hhidden w hw ((hexposed w hw).2 ⟨hsecret, .inr ⟨step, hstep, hobj, htitle⟩⟩)
  · rintro hcondition w hw hshown
    obtain ⟨hopen, hcopied⟩ := (hexposed w hw).1 hshown
    obtain ⟨hparties, hsteps⟩ := (hcondition.resolve_left hopen) w hw
    rcases hcopied with ⟨party, hparty, hobj, hname, hfrom⟩ | ⟨step, hstep, hobj, htitle⟩
    · exact hparties party hparty hobj hname hfrom
    · exact hsteps step hstep hobj htitle

end Hiding

/-! ## §6. A number that survives. -/

/-- A party whose number is in its name as well. -/
def namedByNumber : Json := .obj [
  ("code", .str "0000001-01.2024.8.26.0001"),
  ("parties", .arr [.obj [
    ("name", .str "Ana 12345678901"), ("main_document", .str "123.456.789-01")]])]

/-- A party with a number and a name without one. -/
def namedByName : Json := .obj [
  ("code", .str "0000001-01.2024.8.26.0001"),
  ("parties", .arr [.obj [("name", .str "Ana"), ("main_document", .str "123.456.789-01")]])]

/-- What is promoted of the party. -/
def anaFields : Processes.SemanticFields where
  header := []
  parties := [.obj [("name", .str "Ana"), ("side", .null), ("person_type", .null),
    ("masked_person_id", .str "***.***.***-01")]]

theorem extract_namedByName :
    extractPromotableFields .plain namedByName = .ok anaFields := by
  decide +kernel

/-- The number of a party is hidden where it is in no copied field. -/
theorem hidden_namedByName :
    (∀ w ∈ documentNumbers .plain namedByName, ¬ Exposed .plain w anaFields) ↔
      Secret .plain namedByName ∨ NoneCopied .plain namedByName :=
  hidden_iff .plain namedByName anaFields extract_namedByName

/-- **A number in the name of its party survives.** -/
theorem not_hidden : ¬ ∀ (u : Runtime) (process : Json) (fields : Processes.SemanticFields),
    extractPromotableFields u process = .ok fields →
      ∀ w ∈ documentNumbers u process, ¬ Exposed u w fields := by
  intro h
  let fields : Processes.SemanticFields := {
    header := []
    parties := [.obj [("name", .str "Ana 12345678901"), ("side", .null), ("person_type", .null),
      ("masked_person_id", .str "***.***.***-01")]] }
  have hextract : extractPromotableFields .plain namedByNumber = .ok fields := by decide +kernel
  have hnumber : "12345678901".toList ∈ documentNumbers .plain namedByNumber := by decide +kernel
  refine h .plain namedByNumber fields hextract _ hnumber (.inl ⟨_, List.mem_cons_self, ?_⟩)
  have hname : RunOf .plain "12345678901".toList "Ana 12345678901" := by
    refine ⟨"Ana ".toList, [], by decide, by decide, ?_, by decide +kernel, rfl⟩
    exact List.all_eq_true.1 (by decide +kernel)
  exact .inr (.inl hname)

end Rpy.Judit

/-
  Rpy.Summaries.PlainLines
  ────────────────────────
  **WHEN THE SOURCE STATES THE LINES OF THE PROCESS** (`_provider_payload` of
  `app/rag.py`, `_source_amounts` of `app/validation.py`).

  A field is stated where the words of its text stand in a row among those of
  the payload, and an amount where a member of that name has it.  A text
  without control characters that the provider is given as it is has the same
  words in both places, and so has each field that is written from one.

    • `StatesAmount`, `mem_visitAmounts_iff` — the amounts of a payload,
    • `OwnLinesStated`        — the source states the lines,
    • `providerPayload_mem`   — a field is in the payload,
    • `PlainFields`           — the fields are plain texts,
    • `ownLines_stated_plain` — then the source states them.
-/
import Rpy.Foundation.Raising
import Rpy.Summaries.AmountText
import Rpy.Summaries.HeaderLines
import Rpy.Summaries.LabelledLines
import Rpy.Summaries.SpelledWords

namespace Rpy.Summaries

open Rpy.Foundation
open Rpy.Retrieval
open Validation

/-! ## §1. What is stated. -/

/-- A member called `amount` of a value states a number. -/
inductive StatesAmount (u : Unicode) : Json → Rat → Prop where
  | here {key : String} {value : Json} {members : List (String × Json)} {q : Rat} :
      (key, value) ∈ members → u.casefold key = "amount" → decimalAmount u value = some q →
        StatesAmount u (.obj members) q
  | member {key : String} {value : Json} {members : List (String × Json)} {q : Rat} :
      (key, value) ∈ members → StatesAmount u value q → StatesAmount u (.obj members) q
  | item {value : Json} {items : List Json} {q : Rat} :
      value ∈ items → StatesAmount u value q → StatesAmount u (.arr items) q

section Amounts

variable {u : Unicode}

/-- An amount of an object stands in one of its members. -/
theorem mem_memberAmounts_iff {q : Rat} {members : List (String × Json)} :
    q ∈ memberAmounts u members ↔ ∃ m ∈ members,
      (u.casefold m.1 = "amount" ∧ decimalAmount u m.2 = some q) ∨ q ∈ visitAmounts u m.2 := by
  induction members with
  | nil => simp [memberAmounts]
  | cons m members ih =>
      obtain ⟨key, value⟩ := m
      rw [memberAmounts, List.mem_append, List.mem_append, ih, List.exists_mem_cons_iff]
      refine or_congr_left (or_congr_left ?_)
      by_cases hkey : u.casefold key = "amount"
      · rw [if_pos hkey, Option.mem_toList]
        exact (and_iff_right hkey).symm
      · rw [if_neg hkey]
        exact ⟨fun h => absurd h List.not_mem_nil, fun h => absurd h.1 hkey⟩

/-- An amount of a list stands in one of its items. -/
theorem mem_itemAmounts_iff {q : Rat} {items : List Json} :
    q ∈ itemAmounts u items ↔ ∃ x ∈ items, q ∈ visitAmounts u x := by
  induction items with
  | nil => simp [itemAmounts]
  | cons x items ih => rw [itemAmounts, List.mem_append, ih, List.exists_mem_cons_iff]

/-- **The amounts that a source has are those its members state.** -/
theorem mem_visitAmounts_of_states {payload : Json} {q : Rat} (h : StatesAmount u payload q) :
    q ∈ visitAmounts u payload := by
  induction h with
  | here hmem hkey hvalue => exact mem_memberAmounts_iff.2 ⟨_, hmem, .inl ⟨hkey, hvalue⟩⟩
  | member hmem _ ih => exact mem_memberAmounts_iff.2 ⟨_, hmem, .inr ih⟩
  | item hmem _ ih => exact mem_itemAmounts_iff.2 ⟨_, hmem, ih⟩

mutual
/-- **What is collected is stated**, by induction on the payload. -/
theorem states_of_mem_visitAmounts {q : Rat} : ∀ v : Json, q ∈ visitAmounts u v →
    StatesAmount u v q
  | .obj members => states_of_mem_memberAmounts members members (List.Subset.refl members)
  | .arr items => states_of_mem_itemAmounts items items (List.Subset.refl items)
  | .null | .bool _ | .int _ | .float _ | .str _ => fun h => absurd h List.not_mem_nil
  termination_by structural v => v

/-- The items, as part of their list. -/
theorem states_of_mem_itemAmounts {q : Rat} : ∀ (items all : List Json), items ⊆ all →
    q ∈ itemAmounts u items → StatesAmount u (.arr all) q
  | [], _, _ => fun h => absurd h List.not_mem_nil
  | x :: items, all, hall => by
      rw [itemAmounts, List.mem_append]
      rintro (h | h)
      · exact .item (hall List.mem_cons_self) (states_of_mem_visitAmounts x h)
      · exact states_of_mem_itemAmounts items all (List.subset_of_cons_subset hall) h
  termination_by structural items => items

/-- The members, as part of their object. -/
theorem states_of_mem_memberAmounts {q : Rat} : ∀ (members all : List (String × Json)),
    members ⊆ all → q ∈ memberAmounts u members → StatesAmount u (.obj all) q
  | [], _, _ => fun h => absurd h List.not_mem_nil
  | (key, value) :: members, all, hall => by
      rw [memberAmounts, List.mem_append, List.mem_append]
      rintro ((h | h) | h)
      · by_cases hkey : u.casefold key = "amount"
        · rw [if_pos hkey, Option.mem_toList] at h
          exact .here (hall List.mem_cons_self) hkey h
        · rw [if_neg hkey] at h
          exact absurd h List.not_mem_nil
      · exact .member (hall List.mem_cons_self) (states_of_mem_visitAmounts value h)
      · exact states_of_mem_memberAmounts members all (List.subset_of_cons_subset hall) h
  termination_by structural members => members
end

/-- The amounts that are collected are those that are stated. -/
theorem mem_visitAmounts_iff {payload : Json} {q : Rat} :
    q ∈ visitAmounts u payload ↔ StatesAmount u payload q :=
  ⟨states_of_mem_visitAmounts payload, mem_visitAmounts_of_states⟩

end Amounts

/-- `str(value or "")`, the text of a field. -/
def fieldText (u : Unicode) (value : Json) : String := u.str (value.orElse (.str ""))

/-- The fields of a process whose lines are checked as claims. -/
def claimedFields (context : Context) : List (String × Json) :=
  [("Classe", context.className), ("Área", (headerOf context).get "area"),
    ("Comarca", (headerOf context).get "county")]

/-- The amount of a process. -/
def claimValue (context : Context) : Json := (headerOf context).get "amount"

/-- A text is an amount that a member of the payload states. -/
def AmountStated (u : Unicode) (payload : Json) (text : String) : Prop :=
  ∃ q, decimalAmountOfText u text = some q ∧ StatesAmount u payload q

/-- **The payload states what the lines say.** -/
structure OwnLinesStated (u : Unicode) (context : Context) (payload : Json) : Prop where
  /-- The words of each field stand in a row among those of the payload. -/
  words : ∀ field ∈ claimedFields context,
    wordsOf u (fieldText u field.2).toList <:+: spelledWords u payload
  /-- The amount, where there is one, is one that the payload states. -/
  amount : ¬ Blank u (fieldText u (claimValue context)).toList →
    AmountStated u payload (fieldText u (claimValue context))
  /-- After a class that is only a label and a colon comes the heading of the subjects. -/
  classLabel : ∀ front, (inline u context.className).toList = front ++ [':'] →
    LabelPart u claimNames front → "assuntos".toList ∈ spelledWords u payload
  /-- A class that is a label and an amount has one that the payload states. -/
  classAmount : ∀ front tail, (inline u context.className).toList = front ++ ':' :: tail →
    LabelPart u amountNames front → AmountStated u payload (String.ofList tail)

/-- What the provider is given, as one value. -/
def sourcePayload (process : ContextMembers) (steps : List Json) : Json :=
  .obj [("processo", .obj process), ("movimentos", .arr steps)]

/-! ## §2. A field in the payload. -/

section Payload

variable {u : CharacterDatabase}

/-- A member is sent transformed. -/
theorem mem_transformMembers {key : String} {value : Json} {members : List (String × Json)}
    (h : (key, value) ∈ members) :
    (key, transform u value) ∈ transformMembers u members := by
  induction members with
  | nil => cases h
  | cons m members ih =>
      obtain ⟨name, child⟩ := m
      rcases List.mem_cons.1 h with heq | h
      · obtain ⟨rfl, rfl⟩ := Prod.mk.inj heq
        exact List.mem_cons_self
      · exact List.mem_cons_of_mem _ (ih h)

/-- What a key holds is a member. -/
theorem mem_of_lookup {key : String} {value : Json} {members : List (String × Json)}
    (h : members.lookup key = some value) : (key, value) ∈ members := by
  induction members with
  | nil => cases h
  | cons m members ih =>
      obtain ⟨name, child⟩ := m
      rw [lookup_cons_iff] at h
      split at h
      · next heq =>
          rw [heq, Option.some.inj h]
          exact List.mem_cons_self
      · exact List.mem_cons_of_mem _ (ih h)

/-- So is a member of the context that is not `None`. -/
theorem mem_of_get {context : ContextMembers} {key : String}
    (h : ContextMembers.get context key ≠ .null) :
    (key, ContextMembers.get context key) ∈ context := by
  unfold ContextMembers.get at h ⊢
  cases hlookup : context.lookup key with
  | none =>
      rw [hlookup] at h
      exact absurd rfl h
  | some value => exact mem_of_lookup hlookup

/-- A member that is not assigned stays. -/
theorem mem_assign_of_ne {key name : String} {value other : Json}
    {members : List (String × Json)} (hne : name ≠ key) (h : (name, other) ∈ members) :
    (name, other) ∈ assign key value members := by
  induction members with
  | nil => cases h
  | cons m members ih =>
      obtain ⟨first, old⟩ := m
      rw [assign]
      rcases List.mem_cons.1 h with heq | h
      · obtain ⟨rfl, rfl⟩ := Prod.mk.inj heq
        rw [if_neg hne]
        exact List.mem_cons_self
      · split
        · exact List.mem_cons_of_mem _ h
        · exact List.mem_cons_of_mem _ (ih h)

/-- **The class and the header are in the payload of every process.** -/
theorem rawPayload_mem {context process : ContextMembers} {steps : List Json}
    (h : rawPayload u context = .ok (process, steps)) {key : String}
    (hkey : key = "class_name" ∨ key = "header")
    (htrue : (ContextMembers.get context key).isTrue = true) :
    (key, ContextMembers.get context key) ∈ process := by
  have hne : ContextMembers.get context key ≠ .null := by
    intro hnull
    rw [hnull] at htrue
    cases htrue
  unfold rawPayload at h
  obtain ⟨secret, -, h⟩ := bind_eq_ok.1 h
  cases secret with
  | true =>
      obtain ⟨rfl, -⟩ := Prod.mk.inj (Except.ok.inj h)
      rcases hkey with rfl | rfl
      · exact List.mem_cons_self
      · rw [Json.orElse, if_pos htrue]
        exact List.mem_cons_of_mem _ List.mem_cons_self
  | false =>
      obtain ⟨items, -, h⟩ := bind_eq_ok.1 ((if_neg Bool.false_ne_true).symm.trans h)
      obtain ⟨rfl, -⟩ := Prod.mk.inj (Except.ok.inj h)
      have hpublic : key ≠ "evidence_ref" ∧ key ≠ "steps" ∧ isPrivateKey key = false := by
        rcases hkey with rfl | rfl <;> decide
      refine mem_assign_of_ne hpublic.1 (List.mem_filter.2 ⟨mem_of_get hne, ?_⟩)
      simp [hpublic.2.1, hpublic.2.2]

/-- The payload is what the model sees of the fields. -/
theorem providerPayload_mem {context process : ContextMembers} {steps : List Json}
    (h : providerPayload u context = .ok (process, steps)) {key : String}
    (hkey : key = "class_name" ∨ key = "header")
    (htrue : (ContextMembers.get context key).isTrue = true) :
    (key, transform u (ContextMembers.get context key)) ∈ process := by
  unfold providerPayload at h
  obtain ⟨⟨raw, rawSteps⟩, hraw, h⟩ := bind_eq_ok.1 h
  obtain ⟨rfl, -⟩ := Prod.mk.inj (Except.ok.inj h)
  exact mem_transformMembers (rawPayload_mem hraw hkey htrue)

/-- What is rendered of the header is a member of it. -/
theorem headerOf_get {context : ContextMembers} {key : String}
    (h : (headerOf (renderContext context)).get key ≠ .null) :
    ∃ members, ContextMembers.get context "header" = .obj members ∧
      (key, (headerOf (renderContext context)).get key) ∈ members := by
  unfold headerOf at h ⊢
  cases hheader : ContextMembers.get context "header" with
  | obj members =>
      have hcontext : (renderContext context).header = .obj members := hheader
      rw [hcontext] at h ⊢
      refine ⟨members, rfl, ?_⟩
      have hobj : (Json.obj members).isObj = true := rfl
      rw [if_pos hobj] at h ⊢
      unfold Json.get at h ⊢
      show (key, (members.lookup key).getD .null) ∈ members
      cases hlookup : members.lookup key with
      | none => exact absurd (congrArg (Option.getD · Json.null) hlookup) h
      | some value => exact mem_of_lookup hlookup
  | _ =>
      have hcontext : (renderContext context).header = ContextMembers.get context "header" := rfl
      rw [hcontext, hheader] at h
      exact absurd rfl h

/-- The words of a member of the process, -/
theorem words_process {process : ContextMembers} {steps : List Json} {key : String} {value : Json}
    (h : (key, value) ∈ process) :
    spelledWords u.toUnicode value <:+: spelledWords u.toUnicode (sourcePayload process steps) :=
  have hprocess : ("processo", .obj process) ∈
      [("processo", Json.obj process), ("movimentos", .arr steps)] := List.mem_cons_self
  (spelledWords_member h).trans (spelledWords_member (u := u.toUnicode) hprocess)

/-- and those of a member of its header. -/
theorem words_header {process : ContextMembers} {steps : List Json} {key : String} {value : Json}
    {members : List (String × Json)} (hheader : ("header", .obj members) ∈ process)
    (hmember : (key, value) ∈ members) :
    spelledWords u.toUnicode value <:+: spelledWords u.toUnicode (sourcePayload process steps) :=
  (spelledWords_member hmember).trans (words_process hheader)

/-! ## §3. Plain fields. -/

/-- A field that is missing, or a text without control characters that the
model sees as it is. -/
def PlainField (u : CharacterDatabase) : Json → Prop
  | .null => True
  | .str s => (modelViewText u s).text = s ∧ ∀ c ∈ s.toList, 32 ≤ c.toNat
  | _ => False

/-- An amount that is missing, or a text of one that the model sees as it is. -/
def PlainAmount (u : CharacterDatabase) : Json → Prop
  | .null => True
  | .str s => (modelViewText u s).text = s ∧ (decimalAmountOfText u.toUnicode s).isSome = true
  | _ => False

/-- The lines of the process are written from plain fields, and the class has
no colon. -/
structure PlainFields (u : CharacterDatabase) (context : Context) : Prop where
  claims : ∀ field ∈ claimedFields context, PlainField u field.2
  amount : PlainAmount u (claimValue context)
  noColon : ':' ∉ (inline u.toUnicode context.className).toList

/-- `None` is rendered as an empty text. -/
theorem fieldText_null : fieldText u.toUnicode .null = "" := u.str_str ""

/-- A text is rendered as itself. -/
theorem fieldText_str (s : String) : fieldText u.toUnicode (.str s) = s := by
  unfold fieldText Json.orElse
  by_cases hs : (Json.str s).isTrue = true
  · rw [if_pos hs, u.str_str]
  · have hnil : s = "" := by simpa [Json.isTrue] using hs
    rw [if_neg hs, u.str_str, hnil]

/-- A plain text has its words in the payload. -/
theorem words_of_plain {value payload : Json} (hplain : PlainField u value)
    (h : value.isTrue = true →
      spelledWords u.toUnicode (transform u value) <:+: spelledWords u.toUnicode payload) :
    wordsOf u.toUnicode (fieldText u.toUnicode value).toList <:+:
      spelledWords u.toUnicode payload := by
  have hempty : wordsOf u.toUnicode "".toList <:+: spelledWords u.toUnicode payload := by
    show wordsOf u.toUnicode [] <:+: _
    rw [wordsOf_nil]
    exact List.nil_prefix.isInfix
  cases value with
  | null =>
      rw [fieldText_null]
      exact hempty
  | str s =>
      rw [fieldText_str]
      by_cases hs : s = ""
      · rw [hs]
        exact hempty
      · have hwords := h (by simpa [Json.isTrue] using hs)
        have hview : transform u (.str s) = .str s := congrArg Json.str hplain.1
        rwa [hview, spelledWords, spelling_eq_self hplain.2] at hwords
  | bool b => exact hplain.elim
  | int n => exact hplain.elim
  | float d => exact hplain.elim
  | arr xs => exact hplain.elim
  | obj members => exact hplain.elim

/-- **The source states the lines that are written from plain fields.** -/
theorem ownLines_stated_plain {context process : ContextMembers} {steps : List Json}
    (hpayload : providerPayload u context = .ok (process, steps))
    (hplain : PlainFields u (renderContext context)) :
    OwnLinesStated u.toUnicode (renderContext context) (sourcePayload process steps) := by
  -- A field of the header that is there is sent, under its own key.
  have hfield : ∀ key, (headerOf (renderContext context)).get key ≠ .null →
      ∃ members, ("header", .obj (transformMembers u members)) ∈ process ∧
        (key, transform u ((headerOf (renderContext context)).get key)) ∈
          transformMembers u members := by
    intro key hne
    obtain ⟨members, hheader, hmem⟩ := headerOf_get hne
    have htrue : (ContextMembers.get context "header").isTrue = true := by
      rw [hheader]
      obtain _ | ⟨m, members⟩ := members
      · cases hmem
      · rfl
    have hprocess := providerPayload_mem hpayload (.inr rfl) htrue
    rw [hheader] at hprocess
    exact ⟨members, hprocess, mem_transformMembers hmem⟩
  have htrue_ne : ∀ {value : Json}, value.isTrue = true → value ≠ .null := by
    rintro _ h rfl
    cases h
  -- A class without a colon is no labelled line, so the last two parts ask for nothing.
  have hcolon : ∀ {front tail : List Char},
      (inline u.toUnicode (renderContext context).className).toList ≠ front ++ ':' :: tail := by
    intro front tail h
    exact hplain.noColon (h ▸ List.mem_append_right front List.mem_cons_self)
  refine ⟨?_, ?_, fun front h => absurd h hcolon, fun front tail h => absurd h hcolon⟩
  · intro field hmem
    have hclaim := hplain.claims field hmem
    have hcases : field = ("Classe", (renderContext context).className) ∨
        field = ("Área", (headerOf (renderContext context)).get "area") ∨
        field = ("Comarca", (headerOf (renderContext context)).get "county") := by
      simpa [claimedFields] using hmem
    refine words_of_plain hclaim fun htrue => ?_
    rcases hcases with rfl | rfl | rfl
    · exact words_process (providerPayload_mem hpayload (.inl rfl) htrue)
    · obtain ⟨members, hheader, hvalue⟩ := hfield "area" (htrue_ne htrue)
      exact words_header hheader hvalue
    · obtain ⟨members, hheader, hvalue⟩ := hfield "county" (htrue_ne htrue)
      exact words_header hheader hvalue
  · intro hne
    have hamount := hplain.amount
    cases hvalue : claimValue (renderContext context) with
    | str s =>
        rw [hvalue] at hamount
        obtain ⟨hview, hsome⟩ := hamount
        obtain ⟨q, hq⟩ := Option.isSome_iff_exists.1 hsome
        have hnull : (headerOf (renderContext context)).get "amount" ≠ .null := by
          intro h
          exact Json.noConfusion (hvalue.symm.trans h)
        obtain ⟨members, hheader, hmember⟩ := hfield "amount" hnull
        have hget : (headerOf (renderContext context)).get "amount" = .str s := hvalue
        have hstr : transform u (.str s) = .str s := congrArg Json.str hview
        -- The key `amount` folds to itself, so the member is one of those the check reads.
        have hfold : u.casefold "amount" = "amount" := by
          rw [u.casefold_ascii "amount" (List.all_iff_forall_prop.1 (by decide))]
          decide
        have hdecimal : decimalAmount u.toUnicode (.str s) = some q := by
          show decimalAmountOfText u.toUnicode (u.str (.str s)) = some q
          rw [u.str_str, hq]
        rw [hget, hstr] at hmember
        rw [fieldText_str]
        exact ⟨q, hq, .member List.mem_cons_self (.member hheader (.here hmember hfold hdecimal))⟩
    | null =>
        rw [hvalue, fieldText_null] at hne
        exact absurd (List.forall_mem_nil _) hne
    | bool b => exact (hvalue ▸ hamount : PlainAmount u (.bool b)).elim
    | int n => exact (hvalue ▸ hamount : PlainAmount u (.int n)).elim
    | float d => exact (hvalue ▸ hamount : PlainAmount u (.float d)).elim
    | arr xs => exact (hvalue ▸ hamount : PlainAmount u (.arr xs)).elim
    | obj members => exact (hvalue ▸ hamount : PlainAmount u (.obj members)).elim

end Payload

end Rpy.Summaries

/-
  Rpy.Summaries.OwnLines
  ──────────────────────
  **THE LINES OF THE RENDERER UNDER ITS OWN CHECKS**
  (`render_structured_summary` of `app/summary_output.py`,
  `_source_backed_claim_errors` and `_amount_claim_errors` of
  `app/validation.py`).

  The header of a summary and the line of the class are written from the
  process, and checked against the JSON text that the provider was given of
  the same process.  The text of a line has its white space normalised; that
  of the source has its white space escaped, and `\n` before a word makes it
  another word.

    • `ownMatches`        — the labelled lines the checks read in them,
    • `header_claims_iff`, `header_amounts_iff` — when each check passes the
                            header,
    • `class_claims_iff`, `class_amounts_iff` — and the line of the class,
    • `ownLines_pass_iff` — when none of the lines is reported.
-/
import Rpy.Summaries.ClassLine
import Rpy.Summaries.PlainLines

namespace Rpy.Summaries

open Rpy.Foundation
open Regex
open Rpy.Retrieval
open Validation

/-! ## §1. What is reported of the lines. -/

section Own

variable {u : CharacterDatabase}

/-- The labelled lines of the header, and the class if it is read as one. -/
def ownMatches (u : Unicode) (context : Context) (r : Regex) (n : Summary) : List Match :=
  headerMatches u context r n ++ classMatches u context r n

/-- None of the lines that are written from the process is reported. -/
structure OwnLinesPass (u : CharacterDatabase) (n : Summary) (context : Context)
    (source : String) : Prop where
  claims : ∀ m ∈ ownMatches u.toUnicode context (sourceBackedClaimPattern u.toUnicode) n,
    claimErrors u.toUnicode source (labelled u.toUnicode m) = []
  amounts : ∃ allowed, sourceAmounts u.toUnicode source = .ok allowed ∧
    ∀ m ∈ ownMatches u.toUnicode context (amountClaimPattern u.toUnicode) n,
      amountError u.toUnicode allowed (labelled u.toUnicode m) = none

/-- Its text. -/
def sourceTextOf (payload : Json) : String := String.ofList (Json.print promptStyle payload)

/-- The source of the check is the text of the payload. -/
theorem providerSourceText_eq {context process : ContextMembers} {steps : List Json}
    (h : providerPayload u context = .ok (process, steps)) :
    providerSourceText u context = .ok (sourceTextOf (sourcePayload process steps)) := by
  unfold providerSourceText
  rw [h]
  rfl

/-- **The amounts of a source are those of what it was written from.** -/
theorem sourceAmounts_print {payload : Json}
    (h : IsValue u.toUnicode u.recursionLimit payload) :
    sourceAmounts u.toUnicode (sourceTextOf payload) = .ok (visitAmounts u.toUnicode payload) := by
  have hloads : Json.loads u.readFloat u.recursionLimit (Json.print promptStyle payload) =
      .ok payload := by
    rw [← Json.Style.write_writer]
    exact Json.Writer.loads_write (fun d hd => eq_of_beq hd) h
  unfold sourceAmounts sourceTextOf
  rw [String.toList_ofList, Json.loadsPlain_of_loads hloads]

/-- A line of the header with one of the labels has one value. -/
theorem claimErrors_iff (hu : ReadsLabels u.toUnicode) {label : String} (value source : String)
    (h : label ∈ claimLabels) : claimErrors u.toUnicode source (label, value) = [] ↔
      wordsOf u.toUnicode value.toList <:+: wordsOf u.toUnicode source.toList := by
  have hlist : ["assunto", "assuntos", "tag", "tags"].contains
      (normalizePartyName u.toUnicode label) = false := by
    have hlatin : ∀ l ∈ ["Comarca", "Classe"], Latin l ∧
        ["assunto", "assuntos", "tag", "tags"].contains (normalizePartyName .ascii l) = false := by
      decide +kernel
    rcases List.mem_cons.1 h with rfl | h
    · exact hu.area
    · rw [normalizePartyName_latin (hlatin label h).1]
      exact (hlatin label h).2
  have hvalues : claimedValues u.toUnicode label value = [value] := by
    unfold claimedValues
    rw [hlist]
    rfl
  unfold claimErrors
  rw [hvalues, ← backedBy_iff]
  cases hbacked : backedBy u.toUnicode source value <;> simp [hbacked]

/-- **A line with an amount passes when the payload states it.** -/
theorem amountError_iff {payload : Json} {label value : String} :
    amountError u.toUnicode (visitAmounts u.toUnicode payload) (label, value) = none ↔
      AmountStated u.toUnicode payload value := by
  unfold amountError AmountStated
  cases decimalAmountOfText u.toUnicode value with
  | none => simp
  | some q =>
      rw [Option.any_some]
      by_cases hmem : q ∈ visitAmounts u.toUnicode payload
      · rw [if_pos (List.contains_iff_mem.2 hmem)]
        exact ⟨fun _ => ⟨q, rfl, mem_visitAmounts_iff.1 hmem⟩, fun _ => rfl⟩
      · rw [if_neg (by simpa using hmem)]
        refine ⟨fun h => (by cases h), ?_⟩
        rintro ⟨p, heq, hp⟩
        exact absurd (mem_visitAmounts_iff.2 (Option.some.inj heq ▸ hp)) hmem

/-- The entries that are checked as claims. -/
theorem forall_claimed {p : String → String → Prop} (context : Context)
    (hempty : ∀ label, p label "") :
    (∀ entry ∈ (headerEntries u.toUnicode context).filter fun entry =>
        decide (entry.1 ∈ claimLabels), p entry.1 entry.2) ↔
      ∀ field ∈ claimedFields context, p field.1 (inline u.toUnicode field.2) := by
  have hone : ∀ label value, (value ≠ "" → p label value) ↔ p label value := by
    intro label value
    by_cases h : value = ""
    · rw [h]
      exact ⟨fun _ => hempty label, fun h _ => h⟩
    · exact ⟨fun hp => hp h, fun hp _ => hp⟩
  unfold headerEntries claimedFields headerFields
  simp [claimLabels, hone]

end Own

/-! ## §2. The header. -/

section Header

variable {u : CharacterDatabase}

/-- **The claims of the header pass** when each of its values stands in the
source, word by word. -/
theorem header_claims_iff (hu : ReadsLabels u.toUnicode) (hfold : FoldsByCharacter u.toUnicode)
    (n : Summary) (context : Context) (payload : Json) :
    (∀ m ∈ headerMatches u.toUnicode context (sourceBackedClaimPattern u.toUnicode) n,
        claimErrors u.toUnicode (sourceTextOf payload) (labelled u.toUnicode m) = []) ↔
      ∀ field ∈ claimedFields context,
        wordsOf u.toUnicode (fieldText u.toUnicode field.2).toList <:+:
          spelledWords u.toUnicode payload := by
  have hsource : wordsOf u.toUnicode (sourceTextOf payload).toList =
      spelledWords u.toUnicode payload := by
    rw [sourceTextOf, String.toList_ofList, wordsOf_print hfold]
  have hempty : ∀ _ : String, wordsOf u.toUnicode "".toList <:+:
      spelledWords u.toUnicode payload := by
    intro _
    show wordsOf u.toUnicode [] <:+: _
    rw [wordsOf_nil]
    exact List.nil_prefix.isInfix
  have hown : ∀ field : String × Json, wordsOf u.toUnicode (inline u.toUnicode field.2).toList =
      wordsOf u.toUnicode (fieldText u.toUnicode field.2).toList := fun field =>
    wordsOf_inlineText hfold (fieldText u.toUnicode field.2)
  have hheader := labelled_header context hu (readsOf_claimLabel hu) (by decide) n
  have hfields := forall_claimed (u := u) context (p := fun _ value =>
    wordsOf u.toUnicode value.toList <:+: spelledWords u.toUnicode payload) hempty
  simp only [hown] at hfields
  rw [sourceBackedClaimPattern_eq, ← hfields, ← hheader, List.forall_mem_map]
  refine forall₂_congr fun m hm => ?_
  have hentry : labelled u.toUnicode m ∈ (headerEntries u.toUnicode context).filter fun entry =>
      decide (entry.1 ∈ claimLabels) := by
    rw [← hheader]
    exact List.mem_map_of_mem hm
  have hline := claimErrors_iff hu (labelled u.toUnicode m).2 (sourceTextOf payload)
    (of_decide_eq_true (List.mem_filter.1 hentry).2)
  rw [hsource] at hline
  exact hline

/-- The entry that is checked as an amount. -/
theorem forall_amount {p : String → Prop} (context : Context) :
    (∀ entry ∈ (headerEntries u.toUnicode context).filter fun entry =>
        decide (entry.1 ∈ ["Valor"]), p entry.2) ↔
      (inline u.toUnicode (claimValue context) ≠ "" →
        p (inline u.toUnicode (claimValue context))) := by
  unfold headerEntries headerFields claimValue
  simp

/-- An inline text is empty where the text is blank. -/
theorem inline_eq_empty {value : Json} :
    inline u.toUnicode value = "" ↔ Blank u.toUnicode (fieldText u.toUnicode value).toList := by
  have htext : (inline u.toUnicode value).toList = (squeeze u.toUnicode false
      ((fieldText u.toUnicode value).toList.dropWhile u.isSpace)).rdropWhile u.isSpace := by
    unfold inline inlineText
    rw [u.strip_eq, String.toList_ofList, String.toList_ofList]
    unfold Platform.stripChars
    rw [dropWhile_squeeze]
    rfl
  have hblank : Blank u.toUnicode (fieldText u.toUnicode value).toList ↔
      (fieldText u.toUnicode value).toList.dropWhile u.isSpace = [] :=
    List.dropWhile_eq_nil_iff.symm
  rw [← String.toList_eq_nil_iff, htext, List.rdropWhile_eq_nil_iff, hblank]
  cases hdrop : (fieldText u.toUnicode value).toList.dropWhile u.isSpace with
  | nil => exact iff_of_true (List.forall_mem_nil _) rfl
  | cons c cs =>
      have hc := List.head?_dropWhile_not u.isSpace (fieldText u.toUnicode value).toList
      rw [hdrop, List.head?_cons] at hc
      have hnot : ¬ u.isSpace c = true := by simpa using hc
      refine iff_of_false ?_ (List.cons_ne_nil c cs)
      rw [squeeze, if_neg hnot]
      exact fun h => hnot (h c List.mem_cons_self)

/-- **The amount of the header passes** when the value of the case is missing
or stated. -/
theorem header_amounts_iff (hu : ReadsLabels u.toUnicode) (n : Summary) (context : Context)
    (payload : Json) :
    (∀ m ∈ headerMatches u.toUnicode context (amountClaimPattern u.toUnicode) n,
        amountError u.toUnicode (visitAmounts u.toUnicode payload) (labelled u.toUnicode m) =
          none) ↔
      (¬ Blank u.toUnicode (fieldText u.toUnicode (claimValue context)).toList →
        AmountStated u.toUnicode payload (fieldText u.toUnicode (claimValue context))) := by
  have hheader := labelled_header context hu (readsOf_amountLabel hu) (by decide) n
  have htext : AmountStated u.toUnicode payload (inline u.toUnicode (claimValue context)) ↔
      AmountStated u.toUnicode payload (fieldText u.toUnicode (claimValue context)) := by
    unfold AmountStated inline
    rw [decimalAmountOfText_inlineText hu]
    rfl
  rw [amountClaimPattern_eq, ← inline_eq_empty, ← htext,
    ← forall_amount (p := AmountStated u.toUnicode payload), ← hheader, List.forall_mem_map]
  exact forall₂_congr fun m _ => amountError_iff

end Header

/-! ## §3. The class. -/

section Class

variable {u : CharacterDatabase} {context : Context} {payload : Json}

/-- A line is not reported where the words of its value stand in a row. -/
theorem claimErrors_of_words (hfold : FoldsByCharacter u.toUnicode) {line : String × String}
    (h : wordsOf u.toUnicode line.2.toList <:+: spelledWords u.toUnicode payload) :
    claimErrors u.toUnicode (sourceTextOf payload) line = [] := by
  have hsource : wordsOf u.toUnicode (sourceTextOf payload).toList =
      spelledWords u.toUnicode payload := by
    rw [sourceTextOf, String.toList_ofList, wordsOf_print hfold]
  have hseparator : ∀ c, ",;".toList.contains c = true → Breaks u.toUnicode c := by
    intro c hc
    refine breaks_json ?_
    have hcases : c = ',' ∨ c = ';' := by simpa using hc
    rcases hcases with rfl | rfl <;> decide
  have hvalues : ∀ value ∈ claimedValues u.toUnicode line.1 line.2,
      wordsOf u.toUnicode value.toList <:+: wordsOf u.toUnicode line.2.toList := by
    intro value hvalue
    unfold claimedValues at hvalue
    split at hvalue
    · obtain ⟨part, hpart, rfl⟩ := List.mem_map.1 (List.mem_filter.1 hvalue).1
      rw [u.strip_eq, String.toList_ofList, String.toList_ofList, wordsOf_stripChars hfold]
      exact wordsOf_piece hfold hseparator (mem_split_char hpart)
    · rw [List.mem_singleton.1 hvalue]
  unfold claimErrors
  rw [List.map_eq_nil_iff, List.filter_eq_nil_iff]
  intro value hvalue
  have hbacked : backedBy u.toUnicode (sourceTextOf payload) value = true :=
    backedBy_iff.2 (by rw [hsource]; exact (hvalues value hvalue).trans h)
  rw [hbacked]
  exact Bool.false_ne_true

/-- The heading is one value under every label. -/
theorem claimedValues_heading (label : String) :
    claimedValues u.toUnicode label "## Assuntos" = ["## Assuntos"] := by
  have hsplit : (set ",;").split "## Assuntos".toList = ["## Assuntos".toList] := by decide
  have hstrip : u.strip (String.ofList "## Assuntos".toList) = "## Assuntos" := by
    rw [u.strip_eq, String.toList_ofList, (headingLine_assuntos (u := u.toUnicode)).stripped]
    rfl
  unfold claimedValues
  rw [hsplit, List.map_singleton, hstrip]
  split
  · rfl
  · rfl

/-- The heading after the class has one word. -/
theorem wordsOf_heading : wordsOf u.toUnicode "## Assuntos".toList = ["assuntos".toList] := by
  rw [wordsOf_latin (show Latin "## Assuntos" by decide), wordsOf_ascii]
  decide

/-- Where a label takes that heading as its value, its word has to stand in
the source. -/
theorem heading_reported (hfold : FoldsByCharacter u.toUnicode) (label : String)
    (h : claimErrors u.toUnicode (sourceTextOf payload) (label, "## Assuntos") = []) :
    "assuntos".toList ∈ spelledWords u.toUnicode payload := by
  unfold claimErrors at h
  rw [claimedValues_heading, List.map_eq_nil_iff, List.filter_eq_nil_iff] at h
  have hbacked : backedBy u.toUnicode (sourceTextOf payload) "## Assuntos" = true := by
    have hnot := h "## Assuntos" List.mem_cons_self
    simpa using hnot
  have hinfix := backedBy_iff.1 hbacked
  have hsource : wordsOf u.toUnicode (sourceTextOf payload).toList =
      spelledWords u.toUnicode payload := by
    rw [sourceTextOf, String.toList_ofList, wordsOf_print hfold]
  rw [hsource, wordsOf_heading] at hinfix
  exact hinfix.subset List.mem_cons_self

/-- A label ends at the first colon. -/
theorem labelPart_unique (hu : ReadsLabels u.toUnicode) {labels : List String}
    (hlabels : Lettered labels) {front tail front' tail' : List Char}
    (hfront : LabelPart u.toUnicode labels front) (hfront' : LabelPart u.toUnicode labels front')
    (h : front ++ ':' :: tail = front' ++ ':' :: tail') : front = front' ∧ tail = tail' := by
  obtain ⟨es, rfl, hes⟩ := split_before h (hfront.not_mem hu hlabels (by decide))
  obtain _ | ⟨x, es⟩ := es
  · rw [List.append_nil]
    exact ⟨rfl, (List.cons.inj hes).2⟩
  · obtain rfl : ':' = x := (List.cons.inj hes).1
    exact absurd (List.mem_append_right front List.mem_cons_self)
      (hfront'.not_mem hu hlabels (by decide))

/-- What is read at the class, if its text begins with a label and a colon. -/
theorem forall_classMatches (context : Context) (hu : ReadsLabels u.toUnicode) {label : Regex}
    {labels : List String} (hlabel : ReadsTexts label (IsLabel u.toUnicode labels))
    (hlabels : Lettered labels) (n : Summary) {p : String → Prop} :
    (∀ m ∈ classMatches u.toUnicode context (labelledPattern u.toUnicode label) n,
        p (labelled u.toUnicode m).2) ↔
      ∀ front tail, (inline u.toUnicode context.className).toList = front ++ ':' :: tail →
        LabelPart u.toUnicode labels front →
          p (if tail = [] then "## Assuntos" else u.strip (String.ofList tail)) := by
  constructor
  · intro h front tail hclass hfront
    obtain ⟨m, hm⟩ := List.exists_mem_of_ne_nil _
      (classMatches_ne_nil hu hlabel hlabels n hclass hfront)
    obtain ⟨front', tail', hclass', hfront', hvalue⟩ := labelled_class hu hlabel hlabels hm
    obtain ⟨rfl, rfl⟩ := labelPart_unique hu hlabels hfront hfront' (hclass.symm.trans hclass')
    rw [← hvalue]
    exact h m hm
  · intro h m hm
    obtain ⟨front, tail, hclass, hfront, hvalue⟩ := labelled_class hu hlabel hlabels hm
    rw [hvalue]
    exact h front tail hclass hfront

/-- **The line of the class passes the first check** when no label is read in
it, or its value stands in the source. -/
theorem class_claims_iff (hu : ReadsLabels u.toUnicode) (hfold : FoldsByCharacter u.toUnicode)
    (n : Summary) (hwords : wordsOf u.toUnicode (fieldText u.toUnicode context.className).toList <:+:
      spelledWords u.toUnicode payload) :
    (∀ m ∈ classMatches u.toUnicode context (sourceBackedClaimPattern u.toUnicode) n,
        claimErrors u.toUnicode (sourceTextOf payload) (labelled u.toUnicode m) = []) ↔
      ∀ front, (inline u.toUnicode context.className).toList = front ++ [':'] →
        LabelPart u.toUnicode claimNames front →
          "assuntos".toList ∈ spelledWords u.toUnicode payload := by
  -- the words of what comes after a colon are among those of the class
  have htail : ∀ {front tail : List Char},
      (inline u.toUnicode context.className).toList = front ++ ':' :: tail →
        wordsOf u.toUnicode (u.strip (String.ofList tail)).toList <:+:
          spelledWords u.toUnicode payload := by
    intro front tail hclass
    have hown : wordsOf u.toUnicode (inline u.toUnicode context.className).toList =
        wordsOf u.toUnicode (fieldText u.toUnicode context.className).toList :=
      wordsOf_inlineText hfold _
    rw [hclass, wordsOf_break hfold (breaks_json (by decide))] at hown
    rw [u.strip_eq, String.toList_ofList, String.toList_ofList, wordsOf_stripChars hfold]
    rw [← hown] at hwords
    exact (List.suffix_append _ _).isInfix.trans hwords
  have hread : ∀ m ∈ classMatches u.toUnicode context
      (sourceBackedClaimPattern u.toUnicode) n,
        (claimErrors u.toUnicode (sourceTextOf payload) (labelled u.toUnicode m) = [] ↔
          ((labelled u.toUnicode m).2 = "## Assuntos" →
            "assuntos".toList ∈ spelledWords u.toUnicode payload)) := by
    intro m hm
    obtain ⟨front, tail, hclass, -, hvalue⟩ :=
      labelled_class hu readsTexts_claimLabel lettered_claimNames hm
    constructor
    · intro h heq
      refine heading_reported hfold (labelled u.toUnicode m).1 ?_
      rw [← heq]
      exact h
    · intro h
      refine claimErrors_of_words hfold ?_
      by_cases hnil : tail = []
      · rw [if_pos hnil] at hvalue
        rw [hvalue, wordsOf_heading]
        exact (List.singleton_infix_iff _ _).2 (h hvalue)
      · rw [if_neg hnil] at hvalue
        rw [hvalue]
        exact htail hclass
  rw [forall₂_congr hread, sourceBackedClaimPattern_eq, forall_classMatches context hu
    readsTexts_claimLabel lettered_claimNames n (p := fun value => value = "## Assuntos" →
      "assuntos".toList ∈ spelledWords u.toUnicode payload)]
  constructor
  · intro h front hclass hfront
    exact h front [] hclass hfront rfl
  · intro h front tail hclass hfront heq
    by_cases hnil : tail = []
    · rw [hnil] at hclass
      exact h front hclass hfront
    · rw [if_neg hnil] at heq
      have hinfix := htail hclass
      rw [heq, wordsOf_heading] at hinfix
      exact hinfix.subset List.mem_cons_self

/-- **It passes the second one** likewise, with an amount that is stated. -/
theorem class_amounts_iff (hu : ReadsLabels u.toUnicode) (n : Summary) :
    (∀ m ∈ classMatches u.toUnicode context (amountClaimPattern u.toUnicode) n,
        amountError u.toUnicode (visitAmounts u.toUnicode payload) (labelled u.toUnicode m) =
          none) ↔
      ∀ front tail, (inline u.toUnicode context.className).toList = front ++ ':' :: tail →
        LabelPart u.toUnicode amountNames front →
          AmountStated u.toUnicode payload (String.ofList tail) := by
  have hnone : ∀ {text : String}, decimalAmountOfText u.toUnicode text = none →
      ¬ AmountStated u.toUnicode payload text := by
    rintro text htext ⟨q, hq, -⟩
    rw [htext] at hq
    cases hq
  have hsame : ∀ tail : List Char, AmountStated u.toUnicode payload
      (if tail = [] then "## Assuntos" else u.strip (String.ofList tail)) ↔
        AmountStated u.toUnicode payload (String.ofList tail) := by
    intro tail
    by_cases htail : tail = []
    · have hheading := decimalAmountOfText_heading hu (headingLine_assuntos (u := u.toUnicode)).stripped
      have hempty := decimalAmountOfText_blank (u := u.toUnicode) (s := String.ofList [])
        (by rw [String.toList_ofList]; exact List.forall_mem_nil _)
      rw [if_pos htail, htail]
      exact iff_of_false (hnone hheading) (hnone hempty)
    · rw [if_neg htail]
      unfold AmountStated
      rw [decimalAmountOfText_eq, decimalAmountOfText_eq, u.strip_eq, String.toList_ofList,
        String.toList_ofList, u.stripChars_idem]
  have hmatches := forall_classMatches context hu readsTexts_amountLabel
    lettered_amountNames n (p := AmountStated u.toUnicode payload)
  simp only [hsame] at hmatches
  rw [amountClaimPattern_eq, ← hmatches]
  exact forall₂_congr fun m _ => amountError_iff

end Class

/-! ## §4. When no line is reported. -/

/-- **The lines that are written from the process pass the checks where the
payload states what they say**, as it does where the fields are plain texts. -/
theorem ownLines_pass_iff {u : CharacterDatabase} (hu : ReadsLabels u.toUnicode)
    (hfold : FoldsByCharacter u.toUnicode) (n : Summary)
    {context process : ContextMembers} {steps : List Json} {source : String}
    (hsource : providerSourceText u context = .ok source)
    (hpayload : providerPayload u context = .ok (process, steps))
    (hvalue : IsValue u.toUnicode u.recursionLimit (sourcePayload process steps)) :
    (OwnLinesPass u n (renderContext context) source ↔
      OwnLinesStated u.toUnicode (renderContext context) (sourcePayload process steps)) ∧
    (PlainFields u (renderContext context) → OwnLinesPass u n (renderContext context) source) := by
  rw [providerSourceText_eq hpayload] at hsource
  obtain rfl := Except.ok.inj hsource
  have hamounts := sourceAmounts_print hvalue
  have hiff : OwnLinesPass u n (renderContext context)
      (sourceTextOf (sourcePayload process steps)) ↔
        OwnLinesStated u.toUnicode (renderContext context) (sourcePayload process steps) := by
    constructor
    · rintro ⟨hclaims, allowed, hallowed, hamount⟩
      rw [hamounts] at hallowed
      obtain rfl := Except.ok.inj hallowed
      obtain ⟨hheader, hclass⟩ := List.forall_mem_append.1 hclaims
      obtain ⟨hvalue, hother⟩ := List.forall_mem_append.1 hamount
      have hwords := (header_claims_iff hu hfold n _ _).1 hheader
      have hown := hwords ("Classe", (renderContext context).className) List.mem_cons_self
      exact ⟨hwords, (header_amounts_iff hu n _ _).1 hvalue,
        (class_claims_iff hu hfold n hown).1 hclass, (class_amounts_iff hu n).1 hother⟩
    · rintro ⟨hwords, hamount, hlabel, hother⟩
      have hown := hwords ("Classe", (renderContext context).className) List.mem_cons_self
      refine ⟨List.forall_mem_append.2 ⟨(header_claims_iff hu hfold n _ _).2 hwords,
        (class_claims_iff hu hfold n hown).2 hlabel⟩, _, hamounts, ?_⟩
      exact List.forall_mem_append.2 ⟨(header_amounts_iff hu n _ _).2 hamount,
        (class_amounts_iff hu n).2 hother⟩
  exact ⟨hiff, fun hplain => hiff.2 (ownLines_stated_plain hpayload hplain)⟩

/-- A summary without items. -/
def shortSummary : Summary where
  synthesis := "Resumo."
  currentStatus := "Em andamento."
  items := fun _ => []
  claims := []

/-- The white space of the small database. -/
def blankChars : List Char :=
  [' ', '\t', '\n', '\x0b', '\x0c', '\r', '\x1c', '\x1d', '\x1e', '\x1f', '\u0085', '\u2028',
    '\u2029']

/-- The white space of the runtime for ASCII. -/
theorem mem_blankChars {c : Char} (h : Unicode.ascii.isSpace c = true) : c ∈ blankChars := by
  by_cases hascii : c.toNat < 128
  · have hall : ∀ n < 128, asciiSpace (Char.ofNat n) = true → Char.ofNat n ∈ blankChars := by
      decide
    have hc := hall c.toNat hascii
    rw [Char.ofNat_toNat, ← Unicode.ascii.isSpace_ascii c hascii] at hc
    exact hc h
  · have hnot : asciiSpace c = false := by
      rw [Bool.eq_false_iff]
      intro hspace
      simp only [asciiSpace, Bool.or_eq_true, beq_iff_eq, Bool.and_eq_true, decide_eq_true_eq,
        Char.le_def, UInt32.le_iff_toNat_le] at hspace
      rcases hspace with (rfl | ⟨-, hle⟩) | ⟨-, hle⟩
      · exact hascii (by decide)
      · exact hascii (Nat.lt_of_le_of_lt hle (by decide))
      · exact hascii (Nat.lt_of_le_of_lt hle (by decide))
    have hcases : (asciiSpace c || c == '\u0085' || c == '\u2028' || c == '\u2029') = true := h
    rw [hnot, Bool.false_or, Bool.or_eq_true, Bool.or_eq_true, beq_iff_eq, beq_iff_eq,
      beq_iff_eq] at hcases
    rcases hcases with (rfl | rfl) | rfl <;> decide

/-- That runtime reads the labels. -/
theorem readsLabels_ascii : ReadsLabels .ascii where
  sameCase _ _ _ _ := rfl
  noSpace := by decide
  noBlank := by
    have hletter : ∀ n < 128, asciiSpace (Char.ofNat n) = false →
        Unicode.ascii.isSpace (Char.ofNat n).toLower = false := by
      decide +kernel
    have hother : ['Á', 'Ó', 'ã', 'â', 'ç'].all (fun c =>
        !Unicode.ascii.isSpace c.toLower) = true := by
      decide
    have hblank : blankChars.all (fun c => Unicode.ascii.isSpace c.toLower) = true := by decide
    intro x y hx hnot hy
    have hlower : Unicode.ascii.isSpace x.toLower = false := by
      rcases Bool.or_eq_true_iff.1 hx with hascii | hmem
      · have hascii' := of_decide_eq_true hascii
        have hx' := hletter x.toNat hascii'
        rw [Char.ofNat_toNat, ← Unicode.ascii.isSpace_ascii x hascii'] at hx'
        exact hx' hnot
      · simpa using List.all_eq_true.1 hother x (List.contains_iff_mem.1 hmem)
    show (x.toLower == y.toLower) = false
    refine beq_eq_false_iff_ne.2 fun heq => ?_
    rw [heq, List.all_eq_true.1 hblank y (mem_blankChars hy)] at hlower
    cases hlower
  noDigit := by decide
  area := by decide +kernel

/-- It folds character by character. -/
theorem foldsByCharacter_ascii : FoldsByCharacter .ascii := by
  have hfolded : ∀ cs, folded .ascii cs = (((cs.flatMap decomposition).filter fun c =>
      !Unicode.ascii.isCombining c).map Char.toLower) := by
    intro cs
    unfold folded
    simp only [Unicode.ascii, Python.ascii, String.toList_ofList]
  constructor
  · intro cs ds
    rw [hfolded, hfolded, hfolded, List.flatMap_append, List.filter_append, List.map_append]
  · intro c hc
    have hall : blankChars.all (fun d => decide (decomposition d = [d] ∧
        Unicode.ascii.isCombining d = false ∧ d.toLower = d ∧ Unicode.ascii.isWord d = false)) =
          true := by
      decide
    obtain ⟨hself, hkept, hlower, hword⟩ :=
      of_decide_eq_true (List.all_eq_true.1 hall c (mem_blankChars hc))
    have hone : folded .ascii [c] = [c] := by
      rw [hfolded, List.flatMap_singleton, hself, List.filter_cons_of_pos (by simp [hkept]),
        List.filter_nil, List.map_singleton, hlower]
    rw [hone]
    exact ⟨List.cons_ne_nil c [], List.forall_mem_singleton.2 hword⟩

/-- A process with a class, a county and an amount. -/
def plainContext : ContextMembers :=
  [("class_name", .str "Procedimento Comum"),
    ("header", .obj [("county", .str "Santos"), ("amount", .str "R$ 1.234,56")])]

/-- What the provider is given of it. -/
def plainProcess : ContextMembers := plainContext ++ [("evidence_ref", .null)]

/-- The payload of the plain context. -/
theorem providerPayload_plain :
    providerPayload .ascii plainContext = .ok (plainProcess, []) := by
  decide +kernel

/-- Its fields are plain. -/
theorem plainFields_plain : PlainFields .ascii (renderContext plainContext) where
  claims := by
    have hcases : claimedFields (renderContext plainContext) =
        [("Classe", .str "Procedimento Comum"), ("Área", .null), ("Comarca", .str "Santos")] := by
      decide +kernel
    rw [hcases]
    refine List.forall_mem_cons.2 ⟨?_, List.forall_mem_cons.2 ⟨trivial, ?_⟩⟩
    · exact ⟨by decide +kernel, List.all_iff_forall_prop.1 (by decide)⟩
    · exact List.forall_mem_singleton.2
        ⟨by decide +kernel, List.all_iff_forall_prop.1 (by decide)⟩
  amount := by
    have hvalue : claimValue (renderContext plainContext) = .str "R$ 1.234,56" := by
      decide +kernel
    rw [hvalue]
    exact ⟨by decide +kernel, by decide +kernel⟩
  noColon := by decide +kernel

/-- None of its lines is reported. -/
theorem ownLines_pass_sample : OwnLinesPass .ascii shortSummary (renderContext plainContext)
    (sourceTextOf (sourcePayload plainProcess [])) :=
  (ownLines_pass_iff (u := .ascii) readsLabels_ascii foldsByCharacter_ascii shortSummary
    (providerSourceText_eq providerPayload_plain) providerPayload_plain
    (by unfold IsValue; decide +kernel)).2 plainFields_plain

/-! ## §5. A line that is reported. -/

/-- A process whose class goes over two lines. -/
def twoLineContext : ContextMembers := [("class_name", .str "Procedimento\nComum")]

/-- What the provider is given of it. -/
def twoLineProcess : ContextMembers := twoLineContext ++ [("evidence_ref", .null)]

/-- The payload of a context with a party of two lines. -/
theorem providerPayload_twoLine :
    providerPayload .ascii twoLineContext = .ok (twoLineProcess, []) := by
  decide +kernel

/-- The letter of the escape is in one of its words. -/
theorem spelledWords_twoLine : spelledWords .ascii (sourcePayload twoLineProcess []) =
    ["processo", "class_name", "procedimento", "ncomum", "evidence_ref", "null",
      "movimentos"].map String.toList := by
  decide +kernel

/-- **A class with a line break in it is reported**: the line has a blank in
its place, and the source the letter of the escape. -/
theorem not_ownLines_pass : ¬ ∀ (u : CharacterDatabase) (n : Summary) (context : ContextMembers)
    (source : String), providerSourceText u context = .ok source →
      OwnLinesPass u n (renderContext context) source := by
  intro h
  have hpass := h .ascii shortSummary twoLineContext _
    (providerSourceText_eq providerPayload_twoLine)
  have hwords := (header_claims_iff (u := .ascii) readsLabels_ascii foldsByCharacter_ascii
    shortSummary _ _).1 (List.forall_mem_append.1 hpass.claims).1
    ("Classe", .str "Procedimento\nComum") List.mem_cons_self
  have hspelled := spelledWords_twoLine
  change wordsOf .ascii _ <:+: spelledWords .ascii _ at hwords
  rw [hspelled] at hwords
  revert hwords
  decide +kernel

end Rpy.Summaries

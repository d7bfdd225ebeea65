/-
  Rpy.Summaries.Rendering
  ───────────────────────
  **THE RENDERED SUMMARY** (`render_structured_summary` of
  `app/summary_output.py`) **AND THE CHECKS OF ITS HEADINGS**
  (`app/validation.py`).

  The renderer writes the title, five core sections and a section for each
  conditional list that is not empty; the texts of the provider and of the
  process are lines between them.

    • `renderStructuredSummary` — the document,
    • `headings`                — the titles `_HEADING_RE` finds in a text,
    • `documentTitleErrors`, `coreSectionOrderErrors`,
      `conditionalSectionOrderErrors`, `unexpectedHeadingErrors` — the checks,
    • `normalizePartyName_latin` — titles are compared as in ASCII.
-/
import Rpy.Foundation.Regex
import Rpy.Summaries.Evidence

namespace Rpy.Summaries

open Rpy.Foundation
open Regex

/-! ## §1. The document. -/

/-- `CORE_SECTION_ORDER` -/
def coreSectionOrder : List String :=
  ["Partes", "Classe", "Assuntos", "Movimentações", "Pontos de atenção"]

/-- `CONDITIONAL_SUMMARY_FIELDS` -/
def conditionalSummaryFields : List (ListField × String) :=
  [(.decisions, "Decisões"), (.deadlines, "Prazos em curso"),
    (.relatedProcesses, "Processos relacionados"), (.attachments, "Anexos")]

/-- `CONDITIONAL_SECTION_ORDER` -/
def conditionalSectionOrder : List String :=
  conditionalSummaryFields.map Prod.snd

/-- `_HEADER_FIELDS` -/
def headerFields : List (String × String) :=
  [("instance", "Instância"), ("area", "Área"), ("justice_description", "Justiça"),
    ("county", "Comarca"), ("state", "Estado"), ("city", "Cidade"), ("amount", "Valor")]

/-- The lines `f"- {item}"`. -/
def bullets (items : List String) : List String := items.map ("- " ++ ·)

/-- `_append_list` -/
def listSection (title : String) (items : List String) : List String :=
  if items.isEmpty then [] else ["", "## " ++ title] ++ bullets items

/-- `party_names` -/
def partyNames (u : Unicode) (context : Context) : List String :=
  match context.parties with
  | .arr items =>
      ((items.filter Json.isObj).map fun item =>
        inline u ((item.get "name").orElse (item.get "nome"))).filter (· != "")
  | _ => []

/-- `_subject_names` -/
def subjectNames (u : Unicode) (context : Context) : List String :=
  match context.subjects with
  | .arr items =>
      (items.map fun item =>
        if item.isObj then
          inline u ((item.get "name").orElse
            ((item.get "label").orElse (item.get "description")))
        else inline u item).filter (· != "")
  | _ => []

/-- The lines of the process header. -/
def headerLines (u : Unicode) (context : Context) : List String :=
  let className := inline u context.className
  let court := inline u context.court
  let header := if context.header.isObj then context.header else .obj []
  ["- Processo: " ++ inline u context.code] ++
    (if className = "" then [] else ["- Classe: " ++ className]) ++
    (if court = "" then [] else ["- Tribunal: " ++ court]) ++
    headerFields.flatMap fun (key, label) =>
      let rendered := inline u (header.get key)
      if rendered = "" then [] else ["- " ++ label ++ ": " ++ rendered]

/-- Bullets, or a text when there are none. -/
def bulletsOr (none : String) (items : List String) : List String :=
  if items.isEmpty then [none] else bullets items

/-- `class_name or "Não informado."` -/
def classLine (u : Unicode) (context : Context) : String :=
  let className := inline u context.className
  if className = "" then "Não informado." else className

/-- The lines before the text of the class. -/
def linesBeforeClass (u : Unicode) (n : Summary) (context : Context) : List String :=
  ["# Resumo do processo", "", "<ProcessHeader className=\"process-header\">"] ++
    headerLines u context ++ ["</ProcessHeader>"] ++ ["", n.synthesis] ++ ["", "## Partes"] ++
    bulletsOr "Não informado." (partyNames u context) ++ ["", "## Classe"]

/-- The lines after the heading of the subjects. -/
def linesAfterSubjects (u : Unicode) (n : Summary) (context : Context) : List String :=
  bulletsOr "Não informado." (subjectNames u context) ++ ["", "## Movimentações"] ++
    bulletsOr "Nenhuma movimentação relevante selecionada." (n.items .timeline) ++
    ["", "Estado atual: " ++ n.currentStatus] ++
    ["", "## Pontos de atenção"] ++ bullets (n.items .attention) ++
    conditionalSummaryFields.flatMap fun (field, title) => listSection title (n.items field)

/-- The lines of the document. -/
def documentLines (u : Unicode) (n : Summary) (context : Context) : List String :=
  linesBeforeClass u n context ++ [classLine u context] ++ ["", "## Assuntos"] ++
    linesAfterSubjects u n context

/-- `"\n".join(lines)` -/
def joinLines : List (List Char) → List Char
  | [] => []
  | [line] => line
  | line :: lines => line ++ '\n' :: joinLines lines

/-- `render_structured_summary` -/
def renderStructuredSummary (u : Unicode) (n : Summary) (context : Context) : String :=
  u.strip (String.ofList (joinLines ((documentLines u n context).map String.toList)))

/-! ## §2. The checks. -/

/-- `_HEADING_RE` -/
def headingPattern (u : Unicode) : Regex :=
  cat [.lineStart, between 1 6 (only '#'), plus (.char u.isSpace),
    .group "title" (plusLazy (.char (· != '\n'))), Regex.star (.char u.isSpace), .lineEnd]

/-- The titles of the headings of a text. -/
def headings (u : Unicode) (text : String) : List String :=
  ((headingPattern u).findIter text.toList).map fun m =>
    u.strip (String.ofList ((m.group "title").getD []))

/-- The maximal runs of the characters of a class. -/
def wordsFrom (isWord : Char → Bool) (word : List Char) : List Char → List (List Char)
  | [] => if word.isEmpty then [] else [word.reverse]
  | c :: cs =>
      if isWord c then wordsFrom isWord (c :: word) cs
      else if word.isEmpty then wordsFrom isWord [] cs
      else word.reverse :: wordsFrom isWord [] cs

/-- `_normalize_party_name` -/
def normalizePartyName (u : Unicode) (value : String) : String :=
  let withoutMarks := (u.nfkd value).toList.filter fun c => !u.isCombining c
  let words := wordsFrom u.isWord [] (u.casefold (String.ofList withoutMarks)).toList
  String.ofList (List.intercalate [' '] words)

/-- The characters `str.splitlines` splits at. -/
def lineBoundaries : List Char :=
  ['\n', '\r', '\x0b', '\x0c', '\x1c', '\x1d', '\x1e', '\u0085', '\u2028', '\u2029']

/-- `text.splitlines()`, after the characters of a line in reverse. -/
def splitLinesFrom (line : List Char) : List Char → List (List Char)
  | [] => if line.isEmpty then [] else [line.reverse]
  | '\r' :: '\n' :: cs => line.reverse :: splitLinesFrom [] cs
  | c :: cs =>
      if lineBoundaries.contains c then line.reverse :: splitLinesFrom [] cs
      else splitLinesFrom (c :: line) cs

/-- `[line.strip() for line in text.splitlines() if line.strip()]` -/
def strippedLines (u : Unicode) (text : String) : List String :=
  ((splitLinesFrom [] text.toList).map fun line => u.strip (String.ofList line)).filter (· != "")

def documentTitle : String := "Resumo do processo"

/-- The title of a line that is a heading (a line has no line break, so that
`$` is its end with or without `re.MULTILINE`). -/
def lineTitle (u : Unicode) (line : String) : Option String :=
  ((headingPattern u).matchStart line.toList).map fun m =>
    String.ofList ((m.group "title").getD [])

/-- `_document_title_errors` -/
def documentTitleErrors (u : Unicode) (text : String) : List String :=
  let canonical := "# " ++ documentTitle
  let lines := strippedLines u text
  let occurrences := (lines.filter fun line =>
    (lineTitle u line).any fun title =>
      normalizePartyName u title == normalizePartyName u documentTitle).length
  (if lines.head? = some canonical then []
    else ["summary must start with exact document title: " ++ canonical]) ++
  (if 1 < occurrences then ["duplicate document title: Resumo do processo"] else [])

/-- The sections among titles: the index of each with its title. -/
def sectionsOf (u : Unicode) (order : List String) (titles : List String) :
    List (Nat × String) :=
  titles.filterMap fun title =>
    (order.findIdx? fun name => normalizePartyName u name == normalizePartyName u title).map
      fun index => (index, title)

/-- The first section that comes after a later one. -/
def outOfOrder (previous : Option Nat) : List (Nat × String) → Option String
  | [] => none
  | (index, title) :: sections =>
      if previous.any (index < ·) then some title else outOfOrder (some index) sections

/-- The loop of `_core_section_order_errors` up to its first error. -/
def coreTitleError (order : List String) (seen : List Nat) :
    List (Nat × String) → Option String
  | [] => none
  | (index, title) :: sections =>
      let wanted := order.getD index ""
      if title != wanted then
        some ("core section title must be exactly: " ++ wanted ++ "; got: " ++ title)
      else if seen.contains index then some ("duplicate core section: " ++ wanted)
      else coreTitleError order (index :: seen) sections

/-- `" → ".join(order)` -/
def arrows (order : List String) : String := String.intercalate " → " order

/-- `_core_section_order_errors` -/
def coreSectionOrderErrors (u : Unicode) (text : String) : List String :=
  let observed := sectionsOf u coreSectionOrder (headings u text)
  match coreTitleError coreSectionOrder [] observed with
  | some error => [error]
  | none =>
      match outOfOrder none observed with
      | some title =>
          ["core sections must follow order: " ++ arrows coreSectionOrder ++
            "; out-of-order section: " ++ title]
      | none => []

/-- `_conditional_section_order_errors` -/
def conditionalSectionOrderErrors (u : Unicode) (text : String) : List String :=
  match outOfOrder none (sectionsOf u conditionalSectionOrder (headings u text)) with
  | some title =>
      ["conditional sections must follow order: " ++ arrows conditionalSectionOrder ++
        "; out-of-order section: " ++ title]
  | none => []

/-- `_unexpected_heading_errors` -/
def unexpectedHeadingErrors (u : Unicode) (text : String) (allowed : List String) :
    List String :=
  ((headings u text).filter fun title =>
    !(allowed.map (normalizePartyName u)).contains (normalizePartyName u title)).map
      ("summary heading is not allowed: " ++ ·)

/-- The `allowed_headings` of `_validate_provider_summary`. -/
def allowedHeadings : List String :=
  [documentTitle] ++ coreSectionOrder ++ conditionalSectionOrder

/-! ## §3. Titles in ASCII and three letters. -/

section Latin

variable {u : Unicode}

/-- A title of the document's language. -/
def Latin (s : String) : Prop := ∀ c ∈ s.toList, c.toNat < 128 ∨ c ∈ ['ç', 'ã', 'õ']

instance (s : String) : Decidable (Latin s) :=
  List.decidableBAll (fun c : Char => c.toNat < 128 ∨ c ∈ ['ç', 'ã', 'õ']) s.toList

theorem wordsFrom_congr {p q : Char → Bool} : ∀ {cs word : List Char},
    (∀ c ∈ cs, p c = q c) → wordsFrom p word cs = wordsFrom q word cs := by
  intro cs
  induction cs with
  | nil =>
      intro word _
      rfl
  | cons c cs ih =>
      intro word h
      have hrest : ∀ c ∈ cs, p c = q c := fun d hd => h d (List.mem_cons_of_mem _ hd)
      rw [wordsFrom, wordsFrom, h c List.mem_cons_self, ih hrest, ih hrest]

/-- What is left of a title without its marks. -/
theorem filter_decomposition {c : Char} (h : c.toNat < 128 ∨ c ∈ ['ç', 'ã', 'õ']) :
    (decomposition c).filter (fun d => !u.isCombining d) =
        (decomposition c).filter (fun d => !Unicode.ascii.isCombining d) ∧
      ∀ d ∈ (decomposition c).filter (fun d => !u.isCombining d), d.toNat < 128 := by
  obtain ⟨hcedilla, htilde, hascii⟩ := u.isCombining_latin
  obtain ⟨acedilla, atilde, aascii⟩ := Unicode.ascii.isCombining_latin
  have hmark : ∀ (letter mark : Char), letter.toNat < 128 → u.isCombining mark = true →
      Unicode.ascii.isCombining mark = true →
      [letter, mark].filter (fun d => !u.isCombining d) =
          [letter, mark].filter (fun d => !Unicode.ascii.isCombining d) ∧
        ∀ d ∈ [letter, mark].filter (fun d => !u.isCombining d), d.toNat < 128 := by
    intro letter mark hletter hu ha
    have hleft : [letter, mark].filter (fun d => !u.isCombining d) = [letter] := by
      simp [hascii letter hletter, hu]
    have hright : [letter, mark].filter (fun d => !Unicode.ascii.isCombining d) = [letter] := by
      simp [aascii letter hletter, ha]
    rw [hleft, hright]
    exact ⟨rfl, fun d hd => by rw [List.mem_singleton.1 hd]; exact hletter⟩
  by_cases hc : c ∈ ['ç', 'ã', 'õ']
  · simp only [List.mem_cons, List.not_mem_nil, or_false] at hc
    rcases hc with rfl | rfl | rfl
    · exact hmark 'c' '\u0327' (by decide) hcedilla acedilla
    · exact hmark 'a' '\u0303' (by decide) htilde atilde
    · exact hmark 'o' '\u0303' (by decide) htilde atilde
  · have hplain := h.resolve_right hc
    have hself : decomposition c = [c] := by
      simp only [List.mem_cons, List.not_mem_nil, or_false, not_or] at hc
      unfold decomposition
      split <;> simp_all
    have hleft : [c].filter (fun d => !u.isCombining d) = [c] := by
      simp [hascii c hplain]
    have hright : [c].filter (fun d => !Unicode.ascii.isCombining d) = [c] := by
      simp [aascii c hplain]
    rw [hself, hleft, hright]
    exact ⟨rfl, fun d hd => by rw [List.mem_singleton.1 hd]; exact hplain⟩

/-- The words of a title are those in ASCII. -/
theorem words_latin {s : String} (h : Latin s) :
    wordsFrom u.isWord [] (u.casefold (String.ofList
        ((u.nfkd s).toList.filter fun c => !u.isCombining c))).toList =
      wordsFrom Unicode.ascii.isWord [] (Unicode.ascii.casefold (String.ofList
        ((Unicode.ascii.nfkd s).toList.filter fun c => !Unicode.ascii.isCombining c))).toList := by
  have hmarks : ∀ cs : List Char, (∀ c ∈ cs, c.toNat < 128 ∨ c ∈ ['ç', 'ã', 'õ']) →
      (cs.flatMap decomposition).filter (fun c => !u.isCombining c) =
          (cs.flatMap decomposition).filter (fun c => !Unicode.ascii.isCombining c) ∧
        ∀ c ∈ (cs.flatMap decomposition).filter (fun c => !u.isCombining c), c.toNat < 128 := by
    intro cs hcs
    induction cs with
    | nil => simp
    | cons c cs ih =>
        obtain ⟨hsame, hlow⟩ := filter_decomposition (u := u) (hcs c List.mem_cons_self)
        obtain ⟨hsames, hlows⟩ := ih fun d hd => hcs d (List.mem_cons_of_mem _ hd)
        rw [List.flatMap_cons, List.filter_append, List.filter_append, hsame, hsames]
        refine ⟨rfl, fun d hd => ?_⟩
        rw [← hsame, ← hsames] at hd
        rcases List.mem_append.1 hd with hd | hd
        · exact hlow d hd
        · exact hlows d hd
  obtain ⟨hsame, hlow⟩ := hmarks s.toList h
  rw [u.nfkd_latin s h, Unicode.ascii.nfkd_latin s h, String.toList_ofList,
    u.casefold_ascii _ (by rw [String.toList_ofList]; exact hlow), hsame,
    Unicode.ascii.casefold_ascii _ (by rw [String.toList_ofList, ← hsame]; exact hlow),
    String.toList_ofList, String.toList_ofList]
  refine wordsFrom_congr fun c hc => ?_
  obtain ⟨d, hd, rfl⟩ := List.mem_map.1 hc
  have hd128 : d.toNat < 128 := hlow d (by rw [hsame]; exact hd)
  have hlower : d.toLower.toNat < 128 := by
    have hall : ∀ n < 128, (Char.ofNat n).toLower.toNat < 128 := by decide
    have hd' := hall d.toNat hd128
    rwa [Char.ofNat_toNat] at hd'
  rw [u.isWord_ascii _ hlower, Unicode.ascii.isWord_ascii _ hlower]

/-- **Titles are compared as in ASCII.** -/
theorem normalizePartyName_latin {s : String} (h : Latin s) :
    normalizePartyName u s = normalizePartyName .ascii s :=
  congrArg (fun words => String.ofList (List.intercalate [' '] words)) (words_latin h)

end Latin

end Rpy.Summaries

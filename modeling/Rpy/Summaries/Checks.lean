/-
  Rpy.Summaries.Checks
  ────────────────────
  **THE CHECKS OF A RENDERED SUMMARY** (`_document_title_errors`,
  `_core_section_order_errors`, `_conditional_section_order_errors` and
  `_unexpected_heading_errors` of `app/validation.py`).

    • `lines_of_document`   — `str.splitlines` gives the lines back,
    • `documentTitle_ok`    — the title is there, and once,
    • `sections_ok`         — the sections are in order and expected,
    • `render_headings_iff` — the headings are those of the renderer, and the
                              checks find nothing, unless the class begins
                              like a heading.
-/
import Rpy.Summaries.Structure

namespace Rpy.Summaries

open Rpy.Foundation
open Regex

section Checks

variable {u : Unicode}

/-! ## §1. The lines of a document. -/

theorem splitLinesFrom_boundary (line rest : List Char) :
    splitLinesFrom line ('\n' :: rest) = line.reverse :: splitLinesFrom [] rest := by
  rw [splitLinesFrom]
  · rfl
  · intro cs hchar
    exact absurd hchar (by decide)

theorem splitLinesFrom_append (rest : List Char) : ∀ {cs : List Char} (line : List Char),
    OneLine cs → splitLinesFrom line (cs ++ rest) = splitLinesFrom (cs.reverse ++ line) rest := by
  intro cs
  induction cs with
  | nil =>
      intro line _
      rfl
  | cons c cs ih =>
      intro line h
      have hc : c ∉ lineBoundaries := h c List.mem_cons_self
      have hreturn : c ≠ '\r' := by
        rintro rfl
        exact hc (by decide)
      rw [List.cons_append, splitLinesFrom]
      · rw [if_neg (by simpa using hc), ih (c :: line) fun d hd => h d (List.mem_cons_of_mem _ hd),
          List.reverse_cons, List.append_assoc]
        rfl
      · intro others hchar _
        exact hreturn hchar

/-- **Lines that were joined are found again.** -/
theorem splitLinesFrom_joinLines {last : List Char} (hlast : last ≠ []) (hone : OneLine last) :
    ∀ {front : List (List Char)}, (∀ line ∈ front, OneLine line) →
      splitLinesFrom [] (joinLines (front ++ [last])) = front ++ [last] := by
  intro front
  induction front with
  | nil =>
      intro _
      have hsplit := splitLinesFrom_append [] [] hone
      rw [List.append_nil, List.append_nil] at hsplit
      show splitLinesFrom [] last = [last]
      rw [hsplit, splitLinesFrom, if_neg (by simpa using hlast), List.reverse_reverse]
  | cons line front ih =>
      intro hfront
      rw [List.cons_append, joinLines_cons _ (by simp),
        splitLinesFrom_append _ _ (hfront line List.mem_cons_self), splitLinesFrom_boundary,
        ih fun other hother => hfront other (List.mem_cons_of_mem _ hother), List.append_nil,
        List.reverse_reverse]

/-! ## §2. The titles of lines. -/

/-- Does a line repeat the title of the document? -/
def isDocumentTitle (u : Unicode) (line : String) : Bool :=
  (lineTitle u line).any fun title =>
    normalizePartyName u title == normalizePartyName u documentTitle

theorem after_start (cs : List Char) : (start cs).after = cs := rfl

theorem lineTitle_of_mismatch {line : String}
    (h : steps (headingPattern u) (start line.toList) = []) : isDocumentTitle u line = false := by
  unfold isDocumentTitle lineTitle matchStart
  rw [h]
  rfl

/-- An ordinary line has no title. -/
theorem Ordinary.isDocumentTitle_eq {line : String} (h : Ordinary u line) :
    isDocumentTitle u (u.strip line) = false := by
  refine lineTitle_of_mismatch (mismatch_head fun c hc => ?_)
  have hlead : line.toList.dropWhile u.isSpace = line.toList := by
    cases hline : line.toList with
    | nil => rfl
    | cons d t =>
        rw [List.dropWhile_cons_of_neg]
        rw [(h.first d (by rw [hline]; rfl)).2]
        exact Bool.false_ne_true
  rw [after_start, u.strip_eq, String.toList_ofList] at hc
  unfold Platform.stripChars at hc
  rw [hlead] at hc
  refine (h.first c ?_).1
  obtain ⟨rest, hrest⟩ := List.rdropWhile_prefix u.isSpace line.toList
  rw [← hrest, List.head?_append, Option.mem_def.1 hc]
  rfl

theorem plain_isDocumentTitle {line : String} (h : PlainLine u line.toList) :
    isDocumentTitle u line = false := by
  have hends : EndsLine [] := fun _ hc => (nomatch hc)
  exact lineTitle_of_mismatch (mismatch_plain h (List.append_nil _).symm hends)

/-- The line of a heading has its title. -/
theorem lineTitle_heading {level : Nat} {title : String}
    (h : HeadingParts u level [' '] title.toList) :
    lineTitle u (String.ofList (List.replicate level '#' ++ ' ' :: title.toList)) =
      some title := by
  have hafter : (start (List.replicate level '#' ++ ' ' :: title.toList)).after =
      List.replicate level '#' ++ ([' '] ++ (title.toList ++ [])) := by
    rw [List.append_nil]
    rfl
  obtain ⟨w, hmatch, _⟩ := heading_match h rfl hafter fun c hc => (nomatch hc)
  unfold lineTitle matchStart
  rw [String.toList_ofList, hmatch]
  show some (String.ofList title.toList) = some title
  rw [String.ofList_toList]

theorem heading_isDocumentTitle {level : Nat} {title line : String}
    (h : HeadingParts u level [' '] title.toList)
    (hline : line.toList = List.replicate level '#' ++ ' ' :: title.toList) :
    isDocumentTitle u line =
      (normalizePartyName u title == normalizePartyName u documentTitle) := by
  unfold isDocumentTitle
  rw [← String.ofList_toList (s := line), hline, lineTitle_heading h]
  rfl

/-- A heading is stripped already. -/
theorem strip_heading {level : Nat} {title line : String}
    (h : HeadingParts u level [' '] title.toList)
    (hline : line.toList = List.replicate level '#' ++ ' ' :: title.toList) :
    u.strip line = line := by
  rw [u.strip_eq, Platform.stripChars_eq_self, String.ofList_toList]
  · intro c hc
    have hok : Block.Ok u (.heading level [' '] title.toList) := h
    rw [hline] at hc
    exact hok.noIndent c hc
  · intro c hc
    rw [hline, List.getLast?_append_of_ne_nil _ (List.cons_ne_nil _ _),
      List.getLast?_cons_of_ne_nil h.title_ne] at hc
    exact h.title_last c hc

/-! ## §3. The title of the document. -/

/-- The titles of the renderer's sections. -/
def sectionTitles : List String := coreSectionOrder ++ conditionalSectionOrder

/-- No section has the title of the document. -/
theorem section_ne_documentTitle {title : String} (h : title ∈ sectionTitles) :
    (normalizePartyName u title == normalizePartyName u documentTitle) = false := by
  have hlatin : ∀ title ∈ documentTitle :: sectionTitles, Latin title := by decide
  have hascii : ∀ title ∈ sectionTitles, (normalizePartyName .ascii title ==
      normalizePartyName .ascii documentTitle) = false := by decide +kernel
  rw [normalizePartyName_latin (hlatin title (List.mem_cons_of_mem _ h)),
    normalizePartyName_latin (hlatin documentTitle List.mem_cons_self)]
  exact hascii title h

theorem Lines.isDocumentTitle_eq {lines titles : List String} (h : Lines u lines titles)
    (htitles : ∀ title ∈ titles, title ∈ sectionTitles) :
    ∀ line ∈ lines, isDocumentTitle u (u.strip line) = false := by
  intro line hline
  rcases h.each line hline with hordinary | ⟨title, htitle, hproper, rfl⟩
  · exact hordinary.isDocumentTitle_eq
  · have hparts : HeadingParts u 2 [' '] title.toList :=
      hproper.parts (by decide) (by decide)
    have hsection : ("## " ++ title).toList = List.replicate 2 '#' ++ ' ' :: title.toList := by
      rw [String.toList_append]
      rfl
    rw [strip_heading hparts hsection, heading_isDocumentTitle hparts hsection]
    exact section_ne_documentTitle (htitles title htitle)

/-- A text with its title in its first line, and no title after it. -/
theorem documentTitleErrors_eq_nil {text : String} {rest : List String}
    (h : strippedLines u text = ("# " ++ documentTitle) :: rest)
    (hrest : ∀ line ∈ rest, isDocumentTitle u line = false) :
    documentTitleErrors u text = [] := by
  have hnone : rest.filter (isDocumentTitle u) = [] :=
    List.filter_eq_nil_iff.2 fun line hline => by rw [hrest line hline]; exact Bool.false_ne_true
  have honce : ((("# " ++ documentTitle) :: rest).filter (isDocumentTitle u)).length ≤ 1 := by
    rw [List.filter_cons, hnone]
    split
    · exact Nat.le_refl 1
    · exact Nat.zero_le 1
  have hdef : documentTitleErrors u text =
      (if (strippedLines u text).head? = some ("# " ++ documentTitle) then []
        else ["summary must start with exact document title: " ++ ("# " ++ documentTitle)]) ++
      (if 1 < ((strippedLines u text).filter (isDocumentTitle u)).length
        then ["duplicate document title: Resumo do processo"] else []) := rfl
  rw [hdef, h, List.head?_cons, if_pos rfl, if_neg (Nat.not_lt.2 honce)]
  rfl

/-- The lines of the document after its title. -/
def linesAfterTitle (u : Unicode) (n : Summary) (context : Context) : List String :=
  openingLines u n context ++
    ([classLine u context, "", "## Assuntos"] ++ linesAfterSubjects u n context)

theorem oneLine_classLine (context : Context) : OneLine (classLine u context).toList := by
  rcases classLine_cases (u := u) context with ⟨hordinary, _⟩ | hsame
  · exact hordinary.oneLine
  · rw [hsame]
    exact (inline_inline context.className).oneLine

theorem isDocumentTitle_classLine {context : Context}
    (h : startsHeading u (inline u context.className).toList = false) :
    isDocumentTitle u (u.strip (classLine u context)) = false := by
  rcases classLine_cases (u := u) context with ⟨hordinary, _⟩ | hsame
  · exact hordinary.isDocumentTitle_eq
  · have hinline := inline_inline (u := u) context.className
    have hstrip : u.strip (classLine u context) = classLine u context := by
      rw [hsame, u.strip_eq, hinline.stripped, String.ofList_toList]
    rw [hstrip]
    exact plain_isDocumentTitle (plain_classLine h)

theorem lines_assuntos : Lines u ["", "## Assuntos"] ["Assuntos"] :=
  (lines_single ordinary_empty).append (lines_section "Assuntos" (by decide))

theorem conditionalTitles_subset (n : Summary) :
    ∀ title ∈ conditionalTitles n, title ∈ conditionalSectionOrder := by
  intro title htitle
  obtain ⟨p, hp, hsome⟩ := List.mem_filterMap.1 htitle
  dsimp only at hsome
  split at hsome
  · cases hsome
  · rw [← Option.some.inj hsome]
    exact List.mem_map_of_mem hp

/-- **`str.splitlines` gives the lines of the document back.** -/
theorem lines_of_document {n : Summary} (h : Proper u n) (context : Context) :
    splitLinesFrom [] (renderStructuredSummary u n context).toList =
      (documentLines u n context).map String.toList := by
  obtain ⟨field, item, hitem, front, hlines⟩ := endsWithItem_after (u := u) h.attention context
  have hone : ∀ line ∈ documentLines u n context, OneLine line.toList := by
    intro line hline
    rw [documentLines_eq] at hline
    rcases List.mem_cons.1 hline with htitle | hline
    · rw [htitle]
      decide
    rcases List.mem_append.1 hline with hline | hline
    · exact (lines_opening h context).oneLine line hline
    rcases List.mem_append.1 hline with hline | hline
    · rcases List.mem_cons.1 hline with hclass | hline
      · rw [hclass]
        exact oneLine_classLine context
      · exact (lines_assuntos (u := u)).oneLine line hline
    · exact (lines_after h context).oneLine line hline
  have hsplit : documentLines u n context = ("# Resumo do processo" ::
      (openingLines u n context ++
        ([classLine u context, "", "## Assuntos"] ++ front))) ++ ["- " ++ item] := by
    rw [documentLines_eq, hlines]
    simp only [List.cons_append, List.append_assoc]
  rw [render_toList h context]
  rw [hsplit] at hone ⊢
  rw [List.map_append, List.map_singleton]
  refine splitLinesFrom_joinLines ?_ ?_ ?_
  · rw [String.toList_append]
    simp
  · exact hone _ (List.mem_append_right _ List.mem_cons_self)
  · intro line hline
    obtain ⟨text, htext, hlist⟩ := List.mem_map.1 hline
    rw [← hlist]
    exact hone text (List.mem_append_left _ htext)

/-- **The title is there, and once.** -/
theorem documentTitle_ok {n : Summary} (h : Proper u n) {context : Context}
    (hclass : startsHeading u (inline u context.className).toList = false) :
    documentTitleErrors u (renderStructuredSummary u n context) = [] := by
  have htop : HeadingParts u 1 [' '] documentTitle.toList :=
    IsTitle.parts (by decide) (by decide) (by decide)
  have hfirst : u.strip "# Resumo do processo" = "# Resumo do processo" := strip_heading htop rfl
  have hstripped : strippedLines u (renderStructuredSummary u n context) =
      ("# " ++ documentTitle) :: ((linesAfterTitle u n context).map u.strip).filter (· != "") := by
    unfold strippedLines
    rw [lines_of_document h context, List.map_map]
    have hlines : (fun line => u.strip (String.ofList line)) ∘ String.toList = u.strip :=
      funext fun line => by simp
    rw [hlines, documentLines_eq, List.map_cons, hfirst]
    rfl
  refine documentTitleErrors_eq_nil hstripped fun line hline => ?_
  obtain ⟨text, htext, hstrip⟩ := List.mem_map.1 (List.mem_filter.1 hline).1
  rw [← hstrip]
  unfold linesAfterTitle at htext
  rcases List.mem_append.1 htext with htext | htext
  · exact (lines_opening h context).isDocumentTitle_eq (by decide) text htext
  rcases List.mem_append.1 htext with htext | htext
  · rcases List.mem_cons.1 htext with hline | htext
    · rw [hline]
      exact isDocumentTitle_classLine hclass
    · exact lines_assuntos.isDocumentTitle_eq (by decide) text htext
  · refine (lines_after h context).isDocumentTitle_eq (fun title htitle => ?_) text htext
    rcases List.mem_append.1 htitle with htitle | htitle
    · exact (by decide : ∀ title ∈ ["Movimentações", "Pontos de atenção"],
        title ∈ sectionTitles) title htitle
    · exact List.mem_append_right _ (conditionalTitles_subset n title htitle)

/-! ## §4. The sections of the document. -/

/-- The titles of the sections that are there. -/
def presentTitles (decisions deadlines related attachments : Bool) : List String :=
  (if decisions then ["Decisões"] else []) ++ (if deadlines then ["Prazos em curso"] else []) ++
    (if related then ["Processos relacionados"] else []) ++ (if attachments then ["Anexos"] else [])

theorem conditionalTitles_eq (n : Summary) : conditionalTitles n =
    presentTitles (!(n.items .decisions).isEmpty) (!(n.items .deadlines).isEmpty)
      (!(n.items .relatedProcesses).isEmpty) (!(n.items .attachments).isEmpty) := by
  unfold conditionalTitles conditionalSummaryFields presentTitles
  simp only [List.filterMap_cons, List.filterMap_nil]
  cases (n.items .decisions).isEmpty <;> cases (n.items .deadlines).isEmpty <;>
    cases (n.items .relatedProcesses).isEmpty <;> cases (n.items .attachments).isEmpty <;> rfl

/-- Titles of the language are found as in ASCII. -/
theorem sectionsOf_latin {order titles : List String} (horder : ∀ name ∈ order, Latin name)
    (htitles : ∀ title ∈ titles, Latin title) :
    sectionsOf u order titles = sectionsOf .ascii order titles := by
  have hkey : ∀ v : Unicode, ∀ key : String,
      (order.findIdx? fun name => normalizePartyName v name == key) =
        (order.map (normalizePartyName v)).findIdx? (· == key) := by
    intro v key
    rw [List.findIdx?_map]
    rfl
  have hnames : order.map (normalizePartyName u) = order.map (normalizePartyName .ascii) :=
    List.map_congr_left fun name hname => normalizePartyName_latin (horder name hname)
  unfold sectionsOf
  refine List.filterMap_congr fun title htitle => ?_
  rw [normalizePartyName_latin (u := u) (htitles title htitle), hkey u, hkey .ascii, hnames]

/-- The sections that are there are in order, and each is expected. -/
theorem sections_present : ∀ decisions deadlines related attachments : Bool,
    let titles := [documentTitle] ++ coreSectionOrder ++
      presentTitles decisions deadlines related attachments
    coreTitleError coreSectionOrder [] (sectionsOf .ascii coreSectionOrder titles) = none ∧
      outOfOrder none (sectionsOf .ascii coreSectionOrder titles) = none ∧
      outOfOrder none (sectionsOf .ascii conditionalSectionOrder titles) = none := by
  decide +kernel

/-- **The sections of the renderer are in order and expected.** -/
theorem sections_ok {text : String} {n : Summary}
    (h : headings u text = [documentTitle] ++ coreSectionOrder ++ conditionalTitles n) :
    coreSectionOrderErrors u text = [] ∧ conditionalSectionOrderErrors u text = [] ∧
      unexpectedHeadingErrors u text allowedHeadings = [] := by
  have hallowed : ∀ title ∈ headings u text, title ∈ allowedHeadings := by
    intro title htitle
    rw [h] at htitle
    rcases List.mem_append.1 htitle with hcore | hconditional
    · exact List.mem_append_left _ hcore
    · exact List.mem_append_right _ (conditionalTitles_subset n title hconditional)
  have hlatin : ∀ title ∈ allowedHeadings, Latin title := by decide
  have hcore : ∀ name ∈ coreSectionOrder, Latin name := by decide
  have hconditional : ∀ name ∈ conditionalSectionOrder, Latin name := by decide
  have htitles : ∀ title ∈ headings u text, Latin title :=
    fun title htitle => hlatin title (hallowed title htitle)
  obtain ⟨hexact, hordered, hordered'⟩ := sections_present (!(n.items .decisions).isEmpty)
    (!(n.items .deadlines).isEmpty) (!(n.items .relatedProcesses).isEmpty)
    (!(n.items .attachments).isEmpty)
  rw [← conditionalTitles_eq n, ← h] at hexact hordered hordered'
  refine ⟨?_, ?_, ?_⟩
  · unfold coreSectionOrderErrors
    rw [sectionsOf_latin hcore htitles]
    simp only [hexact, hordered]
  · unfold conditionalSectionOrderErrors
    rw [sectionsOf_latin hconditional htitles, hordered']
  · unfold unexpectedHeadingErrors
    rw [List.map_eq_nil_iff, List.filter_eq_nil_iff]
    intro title htitle
    rw [Bool.not_eq_true, Bool.not_eq_false', List.contains_iff_mem]
    exact List.mem_map_of_mem (hallowed title htitle)

/-! ## §5. When the renderer owns the structure. -/

/-- The structure of a document is the renderer's: its headings are the title,
the core sections and the conditional sections that are not empty, and the
checks of the validator find nothing. -/
structure Structured (u : Unicode) (n : Summary) (text : String) : Prop where
  headings_eq : headings u text = [documentTitle] ++ coreSectionOrder ++ conditionalTitles n
  title_ok : documentTitleErrors u text = []
  core_ok : coreSectionOrderErrors u text = []
  conditional_ok : conditionalSectionOrderErrors u text = []
  expected_ok : unexpectedHeadingErrors u text allowedHeadings = []

/-- **The structure of a rendered summary is the renderer's, unless the text
of the class begins like a heading.** -/
theorem render_headings_iff {raw : String} {n : Summary}
    (h : parseStructuredSummary u raw = .ok n) (context : Context) :
    Structured u n (renderStructuredSummary u n context) ↔
      startsHeading u (inline u context.className).toList = false := by
  obtain ⟨payload, _, hparses⟩ := parseStructuredSummary_eq_ok.1 h
  have hproper : Proper u n := hparses.proper
  obtain ⟨_, _, hclass⟩ := classBlocks_spec (u := u) context
    ((linesAfterSubjects u n context).map String.toList)
    (by simpa using linesAfterSubjects_ne_nil (u := u) n context)
  have hheadings := headings_document hproper context
  constructor
  · intro hstructured
    rw [hstructured.headings_eq] at hheadings
    have hexpected : [documentTitle] ++ coreSectionOrder ++ conditionalTitles n =
        ([documentTitle, "Partes", "Classe"] ++ ["Assuntos"]) ++
          (["Movimentações", "Pontos de atenção"] ++ conditionalTitles n) := rfl
    rw [hexpected] at hheadings
    have htitles := List.append_cancel_left (List.append_cancel_right hheadings)
    refine hclass.1 ?_
    have hlists := congrArg (List.map String.toList) htitles
    rw [List.map_map] at hlists
    simpa [Function.comp_def] using hlists.symm
  · intro hplain
    rw [hclass.2 hplain] at hheadings
    have hexpected : headings u (renderStructuredSummary u n context) =
        [documentTitle] ++ coreSectionOrder ++ conditionalTitles n := hheadings
    obtain ⟨hcore, hconditional, hallowed⟩ := sections_ok hexpected
    exact ⟨hexpected, documentTitle_ok hproper hplain, hcore, hconditional, hallowed⟩

end Checks

/-- The sample has the structure of the renderer. -/
theorem render_headings_iff_sampleSummary :
    Structured .ascii sampleSummary
        (renderStructuredSummary .ascii sampleSummary sampleContext) ↔
      startsHeading .ascii (inline .ascii sampleContext.className).toList = false :=
  render_headings_iff parse_sampleSummary sampleContext

/-- The sample with the class `# Sigilo`. -/
def headingContext : Context := { sampleContext with className := .str "# Sigilo" }

/-- **A class that begins like a heading is one of the headings of the
document, and the validator refuses it.** -/
theorem heading_class_not_structured :
    parseStructuredSummary .ascii (dumps sampleSummary.toJson) = .ok sampleSummary ∧
      ¬ Structured .ascii sampleSummary
        (renderStructuredSummary .ascii sampleSummary headingContext) ∧
      headings .ascii (renderStructuredSummary .ascii sampleSummary headingContext) =
        [documentTitle, "Partes", "Classe", "Sigilo", "Assuntos", "Movimentações",
          "Pontos de atenção"] ∧
      unexpectedHeadingErrors .ascii
          (renderStructuredSummary .ascii sampleSummary headingContext) allowedHeadings =
        ["summary heading is not allowed: Sigilo"] := by
  have hheadings : headings .ascii (renderStructuredSummary .ascii sampleSummary headingContext) =
      [documentTitle, "Partes", "Classe", "Sigilo", "Assuntos", "Movimentações",
        "Pontos de atenção"] := by
    rw [headings_document parses_sampleSummary.proper]
    decide +kernel
  refine ⟨parse_sampleSummary, fun hstructured => ?_, hheadings, ?_⟩
  · have hexpected := hstructured.headings_eq
    rw [hheadings] at hexpected
    exact absurd hexpected (by decide)
  · unfold unexpectedHeadingErrors
    rw [hheadings]
    decide +kernel

end Rpy.Summaries

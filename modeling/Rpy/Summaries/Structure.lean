/-
  Rpy.Summaries.Structure
  ───────────────────────
  **THE RENDERER OWNS THE STRUCTURE OF THE DOCUMENT**
  (`render_structured_summary` of `app/summary_output.py`).

  Every text of the provider and of the process stands behind a bullet or a
  label, or has been given a word joiner when it begins like a block of
  markdown, but for one: the class is a line of its own as it is.

    • `Ordinary`          — a line that begins no heading,
    • `Lines`             — lines of the renderer, with their sections,
    • `classBlocks_spec`  — what the text of the class adds,
    • `headings_document` — the headings of a rendered summary.
-/
import Rpy.Summaries.Headings

namespace Rpy.Summaries

open Rpy.Foundation
open Regex

section Document

variable {u : Unicode}

/-! ## §1. Lines of a document. -/

/-- The block of a line of the renderer. -/
def toBlock (line : String) : Block :=
  match line.toList with
  | '#' :: ' ' :: title => .heading 1 [' '] title
  | '#' :: '#' :: ' ' :: title => .heading 2 [' '] title
  | cs => .line cs

/-- A block is printed as the line it was made of. -/
theorem text_toBlock (line : String) : (toBlock line).text = line.toList := by
  unfold toBlock
  split
  · next title hline =>
      rw [hline]
      rfl
  · next title hline =>
      rw [hline]
      rfl
  · rfl

/-- Characters of one line. -/
def OneLine (cs : List Char) : Prop := ∀ c ∈ cs, c ∉ lineBoundaries

instance (cs : List Char) : Decidable (OneLine cs) :=
  List.decidableBAll (fun c => c ∉ lineBoundaries) cs

/-- A line feed is one of the line boundaries. -/
theorem OneLine.noBreak {cs : List Char} (h : OneLine cs) : '\n' ∉ cs :=
  fun hmem => h '\n' hmem (by decide)

/-- Texts of one line make a text of one line. -/
theorem OneLine.append {cs ds : List Char} (h : OneLine cs) (hd : OneLine ds) :
    OneLine (cs ++ ds) := fun c hc => (List.mem_append.1 hc).elim (h c) (hd c)

/-- The white space of an inline text is no line boundary. -/
theorem Inline.oneLine {cs : List Char} (h : Inline u cs) : OneLine cs := by
  intro c hc hboundary
  have hspace : u.isSpace c = true := by
    obtain ⟨h85, h2028, h2029⟩ := u.isSpace_boundary
    simp only [lineBoundaries, List.mem_cons, List.not_mem_nil, or_false] at hboundary
    rcases hboundary with rfl | rfl | rfl | rfl | rfl | rfl | rfl | rfl | rfl | rfl
    · exact u.isSpace_ascii _ (by decide)
    · exact u.isSpace_ascii _ (by decide)
    · exact u.isSpace_ascii _ (by decide)
    · exact u.isSpace_ascii _ (by decide)
    · exact u.isSpace_ascii _ (by decide)
    · exact u.isSpace_ascii _ (by decide)
    · exact u.isSpace_ascii _ (by decide)
    · exact h85
    · exact h2028
    · exact h2029
  -- the only white space of an inline text is the blank
  rw [h.tidy.blank c hc hspace] at hboundary
  exact absurd hboundary (by decide)

/-- `_inline` gives an inline text whatever the value is. -/
theorem inline_inline (value : Json) : Inline u (inline u value).toList := inline_inlineText _

/-- A line that does not begin with `#` or with white space. -/
structure Ordinary (u : Unicode) (line : String) : Prop where
  oneLine : OneLine line.toList
  first : ∀ c ∈ line.toList.head?, c ≠ '#' ∧ u.isSpace c = false

/-- An ordinary line is a block of its own, and no heading. -/
theorem Ordinary.toBlock_eq {line : String} (h : Ordinary u line) :
    toBlock line = .line line.toList := by
  unfold toBlock
  split
  · next title hline => exact absurd rfl (h.first '#' (by rw [hline]; rfl)).1
  · next title hline => exact absurd rfl (h.first '#' (by rw [hline]; rfl)).1
  · rfl

/-- What does not begin with `#` begins no heading. -/
theorem startsHeading_of_first {cs : List Char} (h : ∀ c ∈ cs.head?, c ≠ '#') :
    startsHeading u cs = false := by
  have hlevel : cs.takeWhile (· == '#') = [] := by
    cases cs with
    | nil => rfl
    | cons c t =>
        rw [List.takeWhile_cons_of_neg]
        simpa using h c rfl
  unfold startsHeading
  rw [hlevel]
  rfl

/-- An ordinary line is a plain one to the scan of the headings. -/
theorem Ordinary.plain {line : String} (h : Ordinary u line) : PlainLine u line.toList where
  noBreak := h.oneLine.noBreak
  noHeading := startsHeading_of_first fun c hc => (h.first c hc).1
  noIndent := fun c hc => (h.first c hc).2

/-- A character of ASCII that is no white space. -/
def isPlainAscii (c : Char) : Bool := c.toNat < 128 && !asciiSpace c

/-- The white space of ASCII is that of the interpreter. -/
theorem isSpace_of_isPlainAscii {c : Char} (h : isPlainAscii c = true) : u.isSpace c = false := by
  unfold isPlainAscii at h
  rw [Bool.and_eq_true, decide_eq_true_eq, Bool.not_eq_true'] at h
  rw [u.isSpace_ascii c h.1, h.2]

/-- The renderer's titles are on one line and begin and end with letters of ASCII. -/
structure IsTitle (title : String) : Prop where
  first : title.toList.head?.any isPlainAscii = true
  last : title.toList.getLast?.any isPlainAscii = true
  oneLine : OneLine title.toList

instance (title : String) : Decidable (IsTitle title) :=
  decidable_of_iff (title.toList.head?.any isPlainAscii = true ∧
      title.toList.getLast?.any isPlainAscii = true ∧ OneLine title.toList)
    ⟨fun ⟨hfirst, hlast, hline⟩ => ⟨hfirst, hlast, hline⟩,
      fun ⟨hfirst, hlast, hline⟩ => ⟨hfirst, hlast, hline⟩⟩

/-- A title stands alone behind its `#` and one blank. -/
theorem IsTitle.parts {title : String} (h : IsTitle title) {level : Nat} (hpos : 1 ≤ level)
    (hle : level ≤ 6) : HeadingParts u level [' '] title.toList := by
  have hfirst := h.first
  have hlast := h.last
  refine ⟨hpos, hle, List.cons_ne_nil _ _, ?_, ?_, ?_, ?_, h.oneLine.noBreak⟩
  · intro c hc
    rw [List.mem_singleton.1 hc]
    exact isSpace_blank
  · intro hnil
    rw [hnil] at hfirst
    cases hfirst
  · intro c hc
    rw [Option.mem_def.1 hc] at hfirst
    exact isSpace_of_isPlainAscii hfirst
  · intro c hc
    rw [Option.mem_def.1 hc] at hlast
    exact isSpace_of_isPlainAscii hlast

/-- The line of a section is its heading. -/
theorem toBlock_section (title : String) :
    toBlock ("## " ++ title) = .heading 2 [' '] title.toList := by
  unfold toBlock
  rw [String.toList_append]
  rfl

/-- Lines of the renderer with the titles of the sections among them. -/
structure Lines (u : Unicode) (lines : List String) (titles : List String) : Prop where
  each : ∀ line ∈ lines, Ordinary u line ∨ ∃ title ∈ titles, IsTitle title ∧ line = "## " ++ title
  titles_eq : (lines.map toBlock).filterMap Block.title? = titles.map String.toList

/-- The blocks of such lines are what the scan of the headings asks for. -/
theorem Lines.ok {lines titles : List String} (h : Lines u lines titles) :
    ∀ line ∈ lines, (toBlock line).Ok u := by
  intro line hline
  rcases h.each line hline with hordinary | ⟨title, _, htitle, hsection⟩
  · rw [hordinary.toBlock_eq]
    exact hordinary.plain
  · rw [hsection, toBlock_section]
    exact htitle.parts (by decide) (by decide)

/-- Such lines are indeed lines. -/
theorem Lines.oneLine {lines titles : List String} (h : Lines u lines titles) :
    ∀ line ∈ lines, OneLine line.toList := by
  intro line hline
  rcases h.each line hline with hordinary | ⟨title, _, htitle, hsection⟩
  · exact hordinary.oneLine
  · rw [hsection, String.toList_append]
    exact OneLine.append (by decide) htitle.oneLine

/-- Ordinary lines bring no title. -/
theorem lines_of_ordinary {lines : List String} (h : ∀ line ∈ lines, Ordinary u line) :
    Lines u lines [] := by
  refine ⟨fun line hline => .inl (h line hline), ?_⟩
  rw [List.filterMap_map, List.map_nil, List.filterMap_eq_nil_iff]
  intro line hline
  show (toBlock line).title? = none
  rw [(h line hline).toBlock_eq]
  rfl

/-- **Lines after lines**: the titles come in the same order. -/
theorem Lines.append {lines more titles others : List String} (h : Lines u lines titles)
    (hmore : Lines u more others) : Lines u (lines ++ more) (titles ++ others) := by
  refine ⟨fun line hline => ?_, ?_⟩
  · rcases List.mem_append.1 hline with hline | hline
    · refine (h.each line hline).imp_right fun ⟨title, hmem, hsection⟩ => ?_
      exact ⟨title, List.mem_append_left _ hmem, hsection⟩
    · refine (hmore.each line hline).imp_right fun ⟨title, hmem, hsection⟩ => ?_
      exact ⟨title, List.mem_append_right _ hmem, hsection⟩
  · rw [List.map_append, List.filterMap_append, h.titles_eq, hmore.titles_eq, List.map_append]

/-- The line of a section. -/
theorem lines_section (title : String) (h : IsTitle title) :
    Lines u ["## " ++ title] [title] := by
  refine ⟨fun line hline => .inr ⟨title, List.mem_cons_self, h, List.mem_singleton.1 hline⟩, ?_⟩
  rw [List.map_singleton, toBlock_section]
  rfl

/-- A line that begins with a fixed text of the renderer. -/
theorem ordinary_prefix {front rest : String} (hfront : front.toList.head?.any
      (fun c => isPlainAscii c && c != '#') = true)
    (hline : OneLine front.toList) (hrest : OneLine rest.toList) : Ordinary u (front ++ rest) := by
  cases hlist : front.toList with
  | nil =>
      rw [hlist] at hfront
      cases hfront
  | cons c t =>
      rw [hlist] at hfront
      change (isPlainAscii c && c != '#') = true at hfront
      rw [Bool.and_eq_true, bne_iff_ne] at hfront
      refine ⟨?_, fun d hd => ?_⟩
      · rw [String.toList_append]
        exact hline.append hrest
      · rw [String.toList_append, hlist] at hd
        rw [← Option.some.inj hd]
        exact ⟨hfront.2, isSpace_of_isPlainAscii hfront.1⟩

/-- A fixed line of the renderer that is no heading. -/
theorem ordinary_fixed {line : String} (h : line.toList.head?.all
      (fun c => isPlainAscii c && c != '#') = true) (hline : OneLine line.toList) :
    Ordinary u line := by
  refine ⟨hline, fun c hc => ?_⟩
  rw [Option.mem_def.1 hc] at h
  change (isPlainAscii c && c != '#') = true at h
  rw [Bool.and_eq_true, bne_iff_ne] at h
  exact ⟨h.2, isSpace_of_isPlainAscii h.1⟩

/-- Bullets are no headings. -/
theorem ordinary_bullets {items : List String} (h : ∀ item ∈ items, OneLine item.toList) :
    ∀ line ∈ bullets items, Ordinary u line := by
  intro line hline
  obtain ⟨item, hitem, rfl⟩ := List.mem_map.1 hline
  exact ordinary_prefix (by decide) (by decide) (h item hitem)

/-- Nor is the text that stands in for missing bullets, if it is ordinary. -/
theorem ordinary_bulletsOr {none : String} {items : List String} (hnone : Ordinary u none)
    (h : ∀ item ∈ items, OneLine item.toList) :
    ∀ line ∈ bulletsOr none items, Ordinary u line := by
  intro line hline
  unfold bulletsOr at hline
  split at hline
  · rw [List.mem_singleton.1 hline]
    exact hnone
  · exact ordinary_bullets h line hline

/-! ## §2. The lines of a parsed summary. -/

/-- What the renderer needs of a parsed summary. -/
structure Proper (u : Unicode) (n : Summary) : Prop where
  synthesis : Inline u n.synthesis.toList
  synthesis_first : startsBlock n.synthesis.toList = false
  currentStatus : Inline u n.currentStatus.toList
  items : ∀ field, ∀ item ∈ n.items field, Inline u item.toList ∧ item ≠ ""
  attention : n.items .attention ≠ []

/-- **A parsed summary is what the renderer needs.** -/
theorem Parses.proper {payload : Json} {n : Summary} (h : Parses u payload n) : Proper u n := by
  obtain ⟨s, -, -, -, hsynthesis⟩ := parseProse_eq_ok.1 h.synthesis
  obtain ⟨t, -, -, -, hstatus⟩ := parseProse_eq_ok.1 h.currentStatus
  refine ⟨?_, ?_, ?_, fun field item hitem => ?_, ?_⟩
  · rw [hsynthesis]
    exact (inline_proseLine s).1
  · rw [hsynthesis]
    exact (inline_proseLine s).2
  · rw [hstatus]
    exact (inline_proseLine t).1
  · obtain ⟨raw, -, -, hitems, -, -⟩ := stringList_eq_ok.1 (h.items field)
    rw [hitems] at hitem
    obtain ⟨r, hr, rfl⟩ := List.mem_map.1 hitem
    have hne : inlineText u r ≠ "" := by simpa using (List.mem_filter.1 hr).2
    exact ⟨(inline_proseLine r).1, fun hempty => hne (proseLine_eq_empty.1 hempty)⟩
  · obtain ⟨-, -, -, -, -, hne⟩ := stringList_eq_ok.1 (h.items .attention)
    exact hne rfl

/-- The items of a list are on one line each. -/
theorem Proper.item_oneLine {n : Summary} (h : Proper u n) (field : ListField) :
    ∀ item ∈ n.items field, OneLine item.toList :=
  fun item hitem => (h.items field item hitem).1.oneLine

/-- The synthesis begins no heading. -/
theorem Proper.ordinary_synthesis {n : Summary} (h : Proper u n) : Ordinary u n.synthesis := by
  refine ⟨h.synthesis.oneLine, fun c hc => ⟨?_, h.synthesis.first c hc⟩⟩
  rintro rfl
  have hblock := h.synthesis_first
  -- a `#` would begin a block of markdown, and has a word joiner in front
  cases hlist : n.synthesis.toList with
  | nil =>
      rw [hlist] at hc
      cases hc
  | cons d t =>
      rw [hlist] at hc hblock
      obtain rfl : d = '#' := Option.some.inj hc
      cases t <;> cases hblock

/-- The blank line between two blocks. -/
theorem ordinary_empty : Ordinary u "" :=
  ordinary_fixed (by decide) (by decide)

/-- The text for a missing class, party or subject. -/
theorem ordinary_missing : Ordinary u "Não informado." :=
  ordinary_fixed (by decide) (by decide)

/-- The lines of the process header are no headings. -/
theorem ordinary_headerLines (context : Context) :
    ∀ line ∈ headerLines u context, Ordinary u line := by
  have hinline : ∀ value, OneLine (inline u value).toList := fun value =>
    (inline_inline value).oneLine
  have hlabels : ∀ p ∈ headerFields, (("- " ++ p.2 ++ ": ").toList.head?.any
      (fun c => isPlainAscii c && c != '#') = true) ∧ OneLine ("- " ++ p.2 ++ ": ").toList := by
    decide
  intro line hline
  unfold headerLines at hline
  rw [List.mem_append, List.mem_append, List.mem_append] at hline
  -- the number of the case, its class, its court, and the fields of the header
  rcases hline with ((hcode | hclass) | hcourt) | hheader
  · rw [List.mem_singleton.1 hcode]
    exact ordinary_prefix (by decide) (by decide) (hinline _)
  · split at hclass
    · cases hclass
    · rw [List.mem_singleton.1 hclass]
      exact ordinary_prefix (by decide) (by decide) (hinline _)
  · split at hcourt
    · cases hcourt
    · rw [List.mem_singleton.1 hcourt]
      exact ordinary_prefix (by decide) (by decide) (hinline _)
  · obtain ⟨⟨key, label⟩, hp, hrendered⟩ := List.mem_flatMap.1 hheader
    dsimp only at hrendered
    generalize hvalue : inline u _ = rendered at hrendered
    by_cases hempty : rendered = ""
    · rw [if_pos hempty] at hrendered
      cases hrendered
    · rw [if_neg hempty] at hrendered
      rw [List.mem_singleton.1 hrendered, ← hvalue]
      exact ordinary_prefix (hlabels _ hp).1 (hlabels _ hp).2 (hinline _)

/-- The names of the parties are on one line each. -/
theorem partyNames_oneLine (context : Context) :
    ∀ name ∈ partyNames u context, OneLine name.toList := by
  intro name hname
  unfold partyNames at hname
  split at hname
  · obtain ⟨item, _, hitem⟩ := List.mem_map.1 (List.mem_filter.1 hname).1
    rw [← hitem]
    exact (inline_inline _).oneLine
  · cases hname

/-- So are those of the subjects. -/
theorem subjectNames_oneLine (context : Context) :
    ∀ name ∈ subjectNames u context, OneLine name.toList := by
  intro name hname
  unfold subjectNames at hname
  split at hname
  · obtain ⟨item, _, hitem⟩ := List.mem_map.1 (List.mem_filter.1 hname).1
    rw [← hitem]
    split
    · exact (inline_inline _).oneLine
    · exact (inline_inline _).oneLine
  · cases hname

/-- One ordinary line. -/
theorem lines_single {line : String} (h : Ordinary u line) : Lines u [line] [] :=
  lines_of_ordinary fun other hother => by
    rw [List.mem_singleton.1 hother]
    exact h

/-- The lines between the title and the text of the class. -/
def openingLines (u : Unicode) (n : Summary) (context : Context) : List String :=
  (linesBeforeClass u n context).tail

/-- The first line of the document is its title. -/
theorem linesBeforeClass_eq (n : Summary) (context : Context) :
    linesBeforeClass u n context = "# Resumo do processo" :: openingLines u n context := rfl

/-- **The lines before the class have two titles**: each section adds its own,
and the header, the synthesis and the parties add none. -/
theorem lines_opening {n : Summary} (h : Proper u n) (context : Context) :
    Lines u (openingLines u n context) ["Partes", "Classe"] := by
  have htag : Ordinary u "<ProcessHeader className=\"process-header\">" :=
    ordinary_fixed (by decide) (by decide)
  have hclosing : Ordinary u "</ProcessHeader>" := ordinary_fixed (by decide) (by decide)
  have htop := (lines_single ordinary_empty).append (lines_single (u := u) htag)
  have hheader := htop.append (lines_of_ordinary (ordinary_headerLines context))
  have hsynthesis := (hheader.append (lines_single hclosing)).append
    ((lines_single ordinary_empty).append (lines_single h.ordinary_synthesis))
  have hparties := (hsynthesis.append
    ((lines_single ordinary_empty).append (lines_section "Partes" (by decide)))).append
    (lines_of_ordinary
      (ordinary_bulletsOr ordinary_missing (partyNames_oneLine (u := u) context)))
  exact hparties.append
    ((lines_single ordinary_empty).append (lines_section "Classe" (by decide)))

/-- The titles of the conditional sections of a summary. -/
def conditionalTitles (n : Summary) : List String :=
  conditionalSummaryFields.filterMap fun (field, title) =>
    if (n.items field).isEmpty then none else some title

/-- A conditional section has its title when it has items. -/
theorem lines_conditional {n : Summary} (h : Proper u n) : Lines u
    (conditionalSummaryFields.flatMap fun (field, title) => listSection title (n.items field))
    (conditionalTitles n) := by
  have hsection : ∀ (field : ListField) (title : String), IsTitle title →
      Lines u (listSection title (n.items field))
        (if (n.items field).isEmpty then [] else [title]) := by
    intro field title htitle
    unfold listSection
    split
    · exact lines_of_ordinary fun line hline => (nomatch hline)
    · exact ((lines_single ordinary_empty).append (lines_section _ htitle)).append
        (lines_of_ordinary (ordinary_bullets (h.item_oneLine field)))
  -- by induction on the fields, an empty one adding neither lines nor a title
  have hall : ∀ fields : List (ListField × String), (∀ p ∈ fields, IsTitle p.2) →
      Lines u (fields.flatMap fun (field, title) => listSection title (n.items field))
        (fields.filterMap fun (field, title) =>
          if (n.items field).isEmpty then none else some title) := by
    intro fields hfields
    induction fields with
    | nil => exact lines_of_ordinary fun line hline => (nomatch hline)
    | cons p fields ih =>
        have hrest := ih fun q hq => hfields q (List.mem_cons_of_mem _ hq)
        have hfirst := (hsection p.1 p.2 (hfields p List.mem_cons_self)).append hrest
        rw [List.flatMap_cons]
        by_cases hempty : (n.items p.1).isEmpty = true
        · rw [if_pos hempty] at hfirst
          rw [List.filterMap_cons_none (by simp only [hempty, if_true])]
          exact hfirst
        · rw [if_neg hempty] at hfirst
          rw [List.filterMap_cons_some (b := p.2) (by simp only [hempty]; rfl)]
          exact hfirst
  exact hall conditionalSummaryFields (by decide)

/-- **The lines after the subjects have the titles of their sections.** -/
theorem lines_after {n : Summary} (h : Proper u n) (context : Context) :
    Lines u (linesAfterSubjects u n context)
      (["Movimentações", "Pontos de atenção"] ++ conditionalTitles n) := by
  have hnone : Ordinary u "Nenhuma movimentação relevante selecionada." :=
    ordinary_fixed (by decide) (by decide)
  have hstatus : Ordinary u ("Estado atual: " ++ n.currentStatus) :=
    ordinary_prefix (by decide) (by decide) h.currentStatus.oneLine
  have hsubjects := lines_of_ordinary (u := u)
    (ordinary_bulletsOr ordinary_missing (subjectNames_oneLine (u := u) context))
  have htimeline := (hsubjects.append ((lines_single ordinary_empty).append
    (lines_section "Movimentações" (by decide)))).append
    (lines_of_ordinary (ordinary_bulletsOr hnone (h.item_oneLine .timeline)))
  have hattention := ((htimeline.append
    ((lines_single ordinary_empty).append (lines_single hstatus))).append
    ((lines_single ordinary_empty).append
      (lines_section "Pontos de atenção" (by decide)))).append
    (lines_of_ordinary (ordinary_bullets (h.item_oneLine .attention)))
  exact hattention.append (lines_conditional h)

/-! ## §3. The text of the class. -/

/-- The blocks of the text of the class and of the heading after it. -/
def classBlocks (u : Unicode) (text : String) : List Block :=
  let level := (text.toList.takeWhile (· == '#')).length
  let following := [.line [], .heading 2 [' '] "Assuntos".toList]
  if startsHeading u text.toList then
    match text.toList.drop level with
    | [] => [.heading level ['\n', '\n'] "## Assuntos".toList]
    | _ :: title => .heading level [' '] title :: following
  else .line text.toList :: following

/-- The parts of a text that begins a heading. -/
theorem startsHeading_parts {cs : List Char} (h : startsHeading u cs = true) :
    ∃ level rest, 1 ≤ level ∧ level ≤ 6 ∧ (cs.takeWhile (· == '#')).length = level ∧
      cs.drop level = rest ∧ cs = List.replicate level '#' ++ rest ∧
      ∀ c ∈ rest.head?, u.isSpace c = true := by
  unfold startsHeading at h
  simp only [Bool.and_eq_true, decide_eq_true_eq] at h
  obtain ⟨⟨hpos, hle⟩, hspace⟩ := h
  refine ⟨_, _, hpos, hle, rfl, rfl, ?_, fun c hc => ?_⟩
  · have hrun : cs.takeWhile (· == '#') =
        List.replicate (cs.takeWhile (· == '#')).length '#' :=
      List.eq_replicate_iff.2 ⟨rfl, fun c hc => by simpa using List.mem_takeWhile_imp hc⟩
    have hdrop : (cs.takeWhile (· == '#') ++ cs.dropWhile (· == '#')).drop
        (cs.takeWhile (· == '#')).length = cs.dropWhile (· == '#') := List.drop_left
    rw [List.takeWhile_append_dropWhile] at hdrop
    rw [hdrop, ← hrun, List.takeWhile_append_dropWhile]
  · rw [Option.mem_def.1 hc] at hspace
    exact hspace

/-- The title a text of the class has. -/
theorem Inline.title_parts {level : Nat} {c : Char} {title : List Char}
    (h : Inline u (List.replicate level '#' ++ c :: title)) (hpos : 1 ≤ level) (hle : level ≤ 6)
    (hc : u.isSpace c = true) : c = ' ' ∧ HeadingParts u level [' '] title := by
  have hmem : c ∈ List.replicate level '#' ++ c :: title :=
    List.mem_append_right _ List.mem_cons_self
  have hlast : ∀ d ∈ (c :: title).getLast?, u.isSpace d = false := by
    intro d hd
    refine h.last d ?_
    rw [List.getLast?_append_of_ne_nil _ (List.cons_ne_nil c title)]
    exact hd
  have hne : title ≠ [] := by
    rintro rfl
    rw [hlast c rfl] at hc
    cases hc
  have hsingle := (h.tidy.inside (List.suffix_append _ (c :: title)).isInfix).single
  refine ⟨h.tidy.blank c hmem hc, hpos, hle, List.cons_ne_nil _ _, ?_, hne, ?_, ?_, ?_⟩
  · intro d hd
    rw [List.mem_singleton.1 hd]
    exact isSpace_blank
  · intro d hd
    have hpair := (List.isChain_cons.1 hsingle).1 d hd
    rw [not_and, Bool.not_eq_true] at hpair
    exact hpair hc
  · intro d hd
    refine hlast d ?_
    rw [List.getLast?_cons_of_ne_nil hne]
    exact hd
  · intro hbreak
    exact h.oneLine.noBreak (List.mem_append_right _ (List.mem_cons_of_mem _ hbreak))

/-- The text of the class is a text of one line. -/
theorem classLine_cases (context : Context) :
    (Ordinary u (classLine u context) ∧
        startsHeading u (inline u context.className).toList = false) ∨
      classLine u context = inline u context.className := by
  unfold classLine
  dsimp only
  by_cases hempty : inline u context.className = ""
  · rw [if_pos hempty, hempty]
    exact .inl ⟨ordinary_missing, rfl⟩
  · rw [if_neg hempty]
    exact .inr rfl

/-- The stand-in for a missing class begins no heading either. -/
theorem startsHeading_classLine (context : Context) :
    startsHeading u (classLine u context).toList =
      startsHeading u (inline u context.className).toList := by
  rcases classLine_cases (u := u) context with ⟨hordinary, hnone⟩ | hsame
  · rw [hnone]
    exact hordinary.plain.noHeading
  · rw [hsame]

/-- A class that begins no heading is a plain line. -/
theorem plain_classLine {context : Context}
    (h : startsHeading u (inline u context.className).toList = false) :
    PlainLine u (classLine u context).toList := by
  rcases classLine_cases (u := u) context with ⟨hordinary, _⟩ | hsame
  · exact hordinary.plain
  · have hinline := inline_inline (u := u) context.className
    rw [hsame]
    exact ⟨hinline.oneLine.noBreak, h, hinline.first⟩

/-- The heading after the class. -/
theorem ok_assuntos : Block.Ok u (.heading 2 [' '] "Assuntos".toList) :=
  IsTitle.parts (show IsTitle "Assuntos" by decide) (by decide) (by decide)

/-- A blank line as a block. -/
theorem ok_empty : Block.Ok u (.line []) := (ordinary_empty (u := u)).plain

/-- **What the text of the class adds to the headings.** -/
theorem classBlocks_spec (context : Context) (more : List (List Char)) (hmore : more ≠ []) :
    (∀ b ∈ classBlocks u (classLine u context), b.Ok u) ∧
      joinLines ((classBlocks u (classLine u context)).map Block.text ++ more) =
        joinLines ([(classLine u context).toList, [], "## Assuntos".toList] ++ more) ∧
      ((classBlocks u (classLine u context)).filterMap Block.title? = ["Assuntos".toList] ↔
        startsHeading u (inline u context.className).toList = false) := by
  -- what follows a class that is no heading
  have hfollowing : ∀ b ∈ ([.line [], .heading 2 [' '] "Assuntos".toList] : List Block),
      b.Ok u := by
    intro b hb
    rcases List.mem_cons.1 hb with hb | hb
    · rw [hb]
      exact ok_empty
    · rw [List.mem_singleton.1 hb]
      exact ok_assuntos
  cases hstarts : startsHeading u (inline u context.className).toList with
  | false =>
      have hplain := plain_classLine hstarts
      have hblocks : classBlocks u (classLine u context) =
          .line (classLine u context).toList ::
            [.line [], .heading 2 [' '] "Assuntos".toList] := by
        unfold classBlocks
        rw [startsHeading_classLine, hstarts]
        rfl
      rw [hblocks]
      refine ⟨fun b hb => ?_, rfl, iff_of_true rfl rfl⟩
      rcases List.mem_cons.1 hb with hb | hb
      · rw [hb]
        exact hplain
      · exact hfollowing b hb
  | true =>
      -- a heading: the class is not missing, and its text is the line
      have hsame : classLine u context = inline u context.className := by
        refine (classLine_cases (u := u) context).resolve_left fun ⟨_, hnone⟩ => ?_
        rw [hnone] at hstarts
        cases hstarts
      have hinline := inline_inline (u := u) context.className
      rw [← hsame] at hinline hstarts
      generalize classLine u context = text at hinline hstarts
      obtain ⟨level, rest, hpos, hle, hlevel, hdrop, hsplit, hspace⟩ := startsHeading_parts hstarts
      cases rest with
      | nil =>
          -- the white space of the heading goes on to the heading of the subjects
          have hblocks : classBlocks u text =
              [.heading level ['\n', '\n'] "## Assuntos".toList] := by
            unfold classBlocks
            rw [if_pos hstarts]
            simp only [hlevel, hdrop]
          rw [hblocks]
          have hother : ["## Assuntos".toList] ≠ ["Assuntos".toList] := by decide
          refine ⟨fun b hb => ?_, ?_, iff_of_false hother (by decide)⟩
          · rw [List.mem_singleton.1 hb]
            refine ⟨hpos, hle, List.cons_ne_nil _ _, ?_, by decide, ?_, ?_, by decide⟩
            · intro c hc
              have hnewline : c = '\n' := by simpa using hc
              rw [hnewline]
              exact isSpace_newline
            · intro c hc
              rw [← Option.some.inj hc]
              exact isSpace_hash
            · intro c hc
              rw [← Option.some.inj hc]
              exact u.isSpace_ascii 's' (by decide)
          · rw [List.append_nil] at hsplit
            rw [List.map_singleton, hsplit]
            cases more with
            | nil => exact absurd rfl hmore
            | cons m more =>
                show (List.replicate level '#' ++ _) ++ '\n' :: joinLines (m :: more) = _
                rw [List.append_assoc]
                rfl
      | cons c title =>
          rw [hsplit] at hinline
          -- the class is a heading of its own, with its text as the title
          obtain ⟨rfl, hparts⟩ := hinline.title_parts hpos hle (hspace c rfl)
          have hblocks : classBlocks u text = .heading level [' '] title ::
              [.line [], .heading 2 [' '] "Assuntos".toList] := by
            unfold classBlocks
            rw [if_pos hstarts]
            simp only [hlevel, hdrop]
          have hlength : ((.heading level [' '] title ::
              [.line [], .heading 2 [' '] "Assuntos".toList] : List Block).filterMap
                Block.title?).length = 2 := rfl
          rw [hblocks]
          refine ⟨fun b hb => ?_, ?_, iff_of_false (fun htitles => ?_) (by decide)⟩
          · rcases List.mem_cons.1 hb with hb | hb
            · rw [hb]
              exact hparts
            · exact hfollowing b hb
          · rw [hsplit]
            rfl
          · rw [htitles] at hlength
            cases hlength

/-! ## §4. The headings of the document. -/

/-- A line feed follows a line that is not the last one. -/
theorem joinLines_cons (line : List Char) {lines : List (List Char)} (h : lines ≠ []) :
    joinLines (line :: lines) = line ++ '\n' :: joinLines lines := by
  cases lines with
  | nil => exact absurd rfl h
  | cons next lines => rfl

/-- What goes before equal texts does not matter. -/
theorem joinLines_congr {lines others : List (List Char)} (hlines : lines ≠ [])
    (hothers : others ≠ []) (h : joinLines lines = joinLines others) (front : List (List Char)) :
    joinLines (front ++ lines) = joinLines (front ++ others) := by
  induction front with
  | nil => exact h
  | cons line front ih =>
      rw [List.cons_append, List.cons_append, joinLines_cons _ (by simp [hlines]),
        joinLines_cons _ (by simp [hothers]), ih]

/-- The text ends with the last character of its last line. -/
theorem joinLines_getLast {last : List Char} (hlast : last ≠ []) (front : List (List Char)) :
    (joinLines (front ++ [last])).getLast? = last.getLast? := by
  induction front with
  | nil => rfl
  | cons line front ih =>
      have hne : joinLines (front ++ [last]) ≠ [] := by
        intro hnil
        rw [hnil, List.getLast?_nil, eq_comm, List.getLast?_eq_none_iff] at ih
        exact hlast ih
      rw [List.cons_append, joinLines_cons _ (by simp), List.getLast?_append_of_ne_nil _ (by simp),
        List.getLast?_cons_of_ne_nil hne, ih]

/-- Each line but the last one brings a line feed. -/
theorem length_le_joinLines (lines : List (List Char)) :
    lines.length ≤ (joinLines lines).length + 1 := by
  induction lines with
  | nil => exact Nat.zero_le _
  | cons line lines ih =>
      cases lines with
      | nil => exact Nat.le_add_left _ _
      | cons next lines =>
          have hlength := congrArg List.length
            (joinLines_cons line (List.cons_ne_nil next lines))
          rw [List.length_append, List.length_cons] at hlength
          rw [hlength, List.length_cons]
          omega

/-- Do lines end with an item of a list? -/
def EndsWithItem (n : Summary) (lines : List String) : Prop :=
  ∃ field, ∃ item ∈ n.items field, ∃ front, lines = front ++ ["- " ++ item]

/-- Lines before the last one do not matter. -/
theorem EndsWithItem.append {n : Summary} {lines : List String} (h : EndsWithItem n lines)
    (front : List String) : EndsWithItem n (front ++ lines) := by
  obtain ⟨field, item, hitem, others, hlines⟩ := h
  exact ⟨field, item, hitem, front ++ others, by rw [hlines, List.append_assoc]⟩

/-- Bullets end with an item. -/
theorem endsWithItem_bullets {n : Summary} {field : ListField} (h : n.items field ≠ []) :
    EndsWithItem n (bullets (n.items field)) := by
  refine ⟨field, (n.items field).getLast h, List.getLast_mem h,
    ((n.items field).dropLast).map ("- " ++ ·), ?_⟩
  conv => lhs; rw [← List.dropLast_append_getLast h]
  exact List.map_append

/-- **The document ends with an item**: the points of attention are never
empty, and a conditional section that is there has items. -/
theorem endsWithItem_after {n : Summary} (h : n.items .attention ≠ []) (context : Context) :
    EndsWithItem n (linesAfterSubjects u n context) := by
  have hsections : ∀ fields : List (ListField × String),
      (fields.flatMap fun (field, title) => listSection title (n.items field)) = [] ∨
      EndsWithItem n (fields.flatMap fun (field, title) => listSection title (n.items field)) := by
    intro fields
    induction fields with
    | nil => exact .inl rfl
    | cons p fields ih =>
        rw [List.flatMap_cons]
        -- the last section with items decides
        rcases ih with hnil | hends
        · rw [hnil, List.append_nil]
          show listSection p.2 (n.items p.1) = [] ∨ EndsWithItem n (listSection p.2 (n.items p.1))
          unfold listSection
          by_cases hempty : n.items p.1 = []
          · exact .inl (by simp [hempty])
          · rw [if_neg (by simpa using hempty)]
            exact .inr ((endsWithItem_bullets hempty).append _)
        · exact .inr (hends.append _)
  unfold linesAfterSubjects
  rcases hsections conditionalSummaryFields with hnil | hends
  · rw [hnil, List.append_nil]
    exact (endsWithItem_bullets h).append _
  · exact hends.append _

/-- The blocks of the document. -/
def documentBlocks (u : Unicode) (n : Summary) (context : Context) : List Block :=
  .heading 1 [' '] documentTitle.toList :: (openingLines u n context).map toBlock ++
    (classBlocks u (classLine u context) ++ (linesAfterSubjects u n context).map toBlock)

/-- The subjects are not the end of the document. -/
theorem linesAfterSubjects_ne_nil (n : Summary) (context : Context) :
    linesAfterSubjects u n context ≠ [] := by
  unfold linesAfterSubjects
  simp

/-- The lines of the document around the text of the class. -/
theorem documentLines_eq (n : Summary) (context : Context) :
    documentLines u n context = "# Resumo do processo" :: (openingLines u n context ++
      ([classLine u context, "", "## Assuntos"] ++ linesAfterSubjects u n context)) := by
  unfold documentLines
  rw [linesBeforeClass_eq]
  simp only [List.cons_append, List.append_assoc, List.nil_append]

/-- The blocks of lines are printed as the lines. -/
theorem map_text_toBlock (lines : List String) :
    (lines.map toBlock).map Block.text = lines.map String.toList := by
  rw [List.map_map]
  exact List.map_congr_left fun line _ => text_toBlock line

/-- **The blocks are printed as the document.** -/
theorem blocksText_document (n : Summary) (context : Context) :
    blocksText (documentBlocks u n context) =
      joinLines ((documentLines u n context).map String.toList) := by
  have hmore : (linesAfterSubjects u n context).map String.toList ≠ [] := by
    simpa using linesAfterSubjects_ne_nil (u := u) n context
  obtain ⟨_, hclass, _⟩ := classBlocks_spec (u := u) context _ hmore
  have hnone : (classBlocks u (classLine u context)).map Block.text ++
      (linesAfterSubjects u n context).map String.toList ≠ [] := by
    simp [linesAfterSubjects_ne_nil]
  have htext := joinLines_congr hnone (by simp) hclass
    ("# Resumo do processo".toList :: (openingLines u n context).map String.toList)
  unfold blocksText documentBlocks
  rw [documentLines_eq, List.map_append, List.map_append, List.map_cons, map_text_toBlock,
    map_text_toBlock, List.map_cons, List.map_append, List.map_append]
  exact htext

/-- Every block of the document is what the scan of the headings asks for. -/
theorem documentBlocks_ok {n : Summary} (h : Proper u n) (context : Context) :
    ∀ b ∈ documentBlocks u n context, b.Ok u := by
  obtain ⟨hclass, _, _⟩ := classBlocks_spec (u := u) context
    ((linesAfterSubjects u n context).map String.toList)
    (by simpa using linesAfterSubjects_ne_nil (u := u) n context)
  intro b hb
  unfold documentBlocks at hb
  rcases List.mem_append.1 hb with hb | hb
  · rcases List.mem_cons.1 hb with hb | hb
    · rw [hb]
      exact IsTitle.parts (show IsTitle documentTitle by decide) (by decide) (by decide)
    · obtain ⟨line, hline, hblock⟩ := List.mem_map.1 hb
      rw [← hblock]
      exact (lines_opening h context).ok line hline
  · rcases List.mem_append.1 hb with hb | hb
    · exact hclass b hb
    · obtain ⟨line, hline, hblock⟩ := List.mem_map.1 hb
      rw [← hblock]
      exact (lines_after h context).ok line hline

/-- The document is stripped already. -/
theorem render_toList {n : Summary} (h : Proper u n) (context : Context) :
    (renderStructuredSummary u n context).toList =
      joinLines ((documentLines u n context).map String.toList) := by
  unfold renderStructuredSummary
  rw [u.strip_eq, String.toList_ofList, String.toList_ofList]
  refine Platform.stripChars_eq_self _ ?_ ?_
  -- it begins with the `#` of its title
  · intro c hc
    have hfirst : (joinLines ((documentLines u n context).map String.toList)).head? = some '#' := by
      rw [documentLines_eq, List.map_cons, joinLines_cons _ (by simp)]
      rfl
    rw [hfirst] at hc
    rw [← Option.some.inj hc]
    exact isSpace_hash
  -- and ends with an item, which ends with no white space
  · obtain ⟨field, item, hitem, front, hlines⟩ := endsWithItem_after (u := u) h.attention context
    obtain ⟨hinline, hne⟩ := h.items field item hitem
    have hlist : item.toList ≠ [] := by simpa using hne
    have hlast : ("- " ++ item).toList.getLast? = item.toList.getLast? := by
      rw [String.toList_append, List.getLast?_append_of_ne_nil _ hlist]
    have hsplit : documentLines u n context = ("# Resumo do processo" ::
        (openingLines u n context ++
          ([classLine u context, "", "## Assuntos"] ++ front))) ++ ["- " ++ item] := by
      rw [documentLines_eq, hlines]
      simp only [List.cons_append, List.append_assoc]
    intro c hc
    rw [hsplit, List.map_append, List.map_singleton, joinLines_getLast (by simp),
      hlast] at hc
    exact hinline.last c hc

/-- The title of a block is stripped already. -/
theorem strip_title {b : Block} (h : b.Ok u) {title : List Char} (htitle : b.title? = some title) :
    u.strip (String.ofList title) = String.ofList title := by
  cases b with
  | line cs => cases htitle
  | heading level gap others =>
      obtain rfl : others = title := Option.some.inj htitle
      have hparts : HeadingParts u level gap others := h
      rw [u.strip_eq, String.toList_ofList,
        Platform.stripChars_eq_self _ hparts.title_first hparts.title_last]

/-- **The headings of the document.** -/
theorem headings_document {n : Summary} (h : Proper u n) (context : Context) :
    headings u (renderStructuredSummary u n context) =
      ([documentTitle, "Partes", "Classe"] ++
        ((classBlocks u (classLine u context)).filterMap Block.title?).map String.ofList) ++
          (["Movimentações", "Pontos de atenção"] ++ conditionalTitles n) := by
  have hok := documentBlocks_ok h context
  have htext := blocksText_document (u := u) n context
  -- the scan has fuel for every block
  have hfuel : (documentBlocks u n context).length ≤
      ('\n' :: blocksText (documentBlocks u n context)).length := by
    have hlength := length_le_joinLines ((documentBlocks u n context).map Block.text)
    rw [List.length_map] at hlength
    exact hlength
  have htitles := titles_blocks (documentBlocks u n context).length 0 []
    (Nat.le_refl _) hfuel hok rfl
  have hheadings : headings u (renderStructuredSummary u n context) =
      ((documentBlocks u n context).filterMap Block.title?).map String.ofList := by
    -- the titles are those the pattern finds, stripped
    have hstrip : headings u (renderStructuredSummary u n context) =
        (titlesFrom u ('\n' :: blocksText (documentBlocks u n context)) 0 []
          (blocksText (documentBlocks u n context))).map fun title =>
            u.strip (String.ofList title) := by
      unfold headings titlesFrom findIter
      rw [render_toList h context, ← htext, List.map_map]
      rfl
    rw [hstrip, htitles]
    refine List.map_congr_left fun title htitle => ?_
    obtain ⟨b, hb, hsome⟩ := List.mem_filterMap.1 htitle
    exact strip_title (hok b hb) hsome
  have htitle : Block.title? (.heading 1 [' '] documentTitle.toList) =
      some documentTitle.toList := rfl
  -- the rest is the titles of the lines, section by section
  have htoList : ∀ titles : List String, (titles.map String.toList).map String.ofList = titles := by
    intro titles
    simp [Function.comp_def]
  rw [hheadings]
  unfold documentBlocks
  rw [List.filterMap_append, List.filterMap_append, List.filterMap_cons_some htitle,
    (lines_opening h context).titles_eq, (lines_after h context).titles_eq, List.map_append,
    List.map_append, List.map_cons, htoList, htoList, String.ofList_toList]
  simp only [List.cons_append, List.nil_append]

end Document

end Rpy.Summaries

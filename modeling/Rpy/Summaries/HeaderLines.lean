/-
  Rpy.Summaries.HeaderLines
  ─────────────────────────
  **THE LABELLED LINES IN THE HEADER OF A SUMMARY**
  (`render_structured_summary` of `app/summary_output.py`).

  The header of a summary is written from the process: a bullet, a label and
  an inline text on each line.  Whatever the rest of the document is, the
  checks read these lines with these labels and texts.

    • `headerEntries`     — the labels and texts of the header,
    • `headerMatches`     — the labelled lines the checks read in it,
    • `labelled_header`   — they are those of its entries.
-/
import Rpy.Summaries.Labelled
import Rpy.Summaries.Prompt
import Rpy.Summaries.Structure

namespace Rpy.Summaries

open Rpy.Foundation
open Regex
open Rpy.Retrieval
open Validation

/-! ## §1. The header of a document. -/

/-- The context the renderer reads. -/
def renderContext (context : ContextMembers) : Context where
  code := ContextMembers.get context "code"
  className := ContextMembers.get context "class_name"
  court := ContextMembers.get context "court"
  header := ContextMembers.get context "header"
  parties := ContextMembers.get context "parties"
  subjects := ContextMembers.get context "subjects"

/-- `context.get("header") if isinstance(context.get("header"), dict) else {}` -/
def headerOf (context : Context) : Json :=
  if context.header.isObj then context.header else .obj []

section Header

variable (u : Unicode) (context : Context)

/-- The labels of the header with their texts. -/
def headerEntries : List (String × String) :=
  ("Processo", inline u context.code) ::
    ([("Classe", inline u context.className), ("Tribunal", inline u context.court)] ++
      headerFields.map fun field => (field.2, inline u ((headerOf context).get field.1))).filter
        fun entry => entry.2 ≠ ""

/-- The lines before those of the header. -/
def titleLines : List String :=
  ["# Resumo do processo", "", "<ProcessHeader className=\"process-header\">"]

/-- The header, and what is before it. -/
def headerText : List Char :=
  linesText (titleLines.map String.toList ++ (headerEntries u context).map headerLine)

/-- The matches in a document that begin in its header. -/
def headerMatches (r : Regex) (n : Summary) : List Match :=
  (r.findIter (renderStructuredSummary u n context).toList).filter fun m =>
    decide (m.first.offset < (headerText u context).length)

variable {u context}

/-- The lines of the fields that have a text. -/
theorem fieldLines_eq (fields : List (String × String)) :
    (fields.flatMap fun (key, label) =>
      let rendered := inline u ((headerOf context).get key)
      if rendered = "" then [] else ["- " ++ label ++ ": " ++ rendered]) =
    ((fields.map fun field => (field.2, inline u ((headerOf context).get field.1))).filter
      fun entry => decide (entry.2 ≠ "")).map fun entry => "- " ++ entry.1 ++ ": " ++ entry.2 := by
  induction fields with
  | nil => rfl
  | cons field fields ih =>
      obtain ⟨key, label⟩ := field
      rw [List.flatMap_cons, List.map_cons, ih]
      by_cases hempty : inline u ((headerOf context).get key) = ""
      · rw [List.filter_cons_of_neg (by simp [hempty])]
        simp [hempty]
      · rw [List.filter_cons_of_pos (by simp [hempty])]
        simp [hempty]

/-- A line of the header for each entry. -/
theorem headerLines_eq : headerLines u context =
    (headerEntries u context).map fun entry => "- " ++ entry.1 ++ ": " ++ entry.2 := by
  have hpart : ∀ (label text : String), (if text = "" then [] else ["- " ++ label ++ ": " ++ text]) =
      ([(label, text)].filter fun entry => decide (entry.2 ≠ "")).map
        fun entry => "- " ++ entry.1 ++ ": " ++ entry.2 := by
    intro label text
    by_cases hempty : text = ""
    · rw [List.filter_cons_of_neg (by simp [hempty])]
      simp [hempty]
    · rw [List.filter_cons_of_pos (by simp [hempty])]
      simp [hempty]
  have hclass := hpart "Classe" (inline u context.className)
  have hcourt := hpart "Tribunal" (inline u context.court)
  unfold headerLines headerEntries
  rw [List.map_cons, List.filter_append, List.map_append, ← fieldLines_eq headerFields]
  have hpair : ∀ a b : String × String, [a, b] = [a] ++ [b] := fun _ _ => rfl
  rw [hpair, List.filter_append, List.map_append, ← hclass, ← hcourt]
  simp only [List.cons_append, List.nil_append, List.append_assoc]
  rfl

/-- The characters of such a line. -/
theorem toList_headerLine (entry : String × String) :
    ("- " ++ entry.1 ++ ": " ++ entry.2).toList = headerLine entry := by
  simp only [String.toList_append, headerLine, List.append_assoc]
  rfl

/-- A line of a text, and what stands before it. -/
theorem joinLines_append (front : List (List Char)) (line : List Char)
    (lines : List (List Char)) :
    ∃ more, joinLines (front ++ line :: lines) = linesText front ++ (line ++ more) := by
  induction front with
  | nil =>
      obtain _ | ⟨next, lines⟩ := lines
      · exact ⟨[], (List.append_nil _).symm⟩
      · exact ⟨'\n' :: joinLines (next :: lines), rfl⟩
  | cons first front ih =>
      obtain ⟨more, hmore⟩ := ih
      refine ⟨more, ?_⟩
      rw [List.cons_append, joinLines_cons _ (by simp), hmore, linesText_cons]

/-- Dropping from the end stops at what stays. -/
theorem rdropWhile_append {p : Char → Bool} {front : List Char}
    (h : front.getLast?.any (fun c => !p c) = true) (back : List Char) :
    ∃ more, (front ++ back).rdropWhile p = front ++ more := by
  induction back using List.reverseRecOn with
  | nil =>
      refine ⟨[], ?_⟩
      rw [List.append_nil, List.rdropWhile_eq_self_iff]
      intro hne
      rw [List.getLast?_eq_some_getLast hne] at h
      simpa using h
  | append_singleton back c ih =>
      rw [← List.append_assoc]
      by_cases hc : p c = true
      · rw [List.rdropWhile_concat_pos _ _ _ hc]
        exact ih
      · rw [List.rdropWhile_concat_neg _ _ _ hc]
        exact ⟨back ++ [c], List.append_assoc _ _ _⟩

/-- **A document begins with its header.** -/
theorem render_header (n : Summary) : ∃ more, (renderStructuredSummary u n context).toList =
    headerText u context ++ ("</ProcessHeader>".toList ++ more) := by
  have hlines : (documentLines u n context).map String.toList =
      (titleLines.map String.toList ++ (headerEntries u context).map headerLine) ++
        "</ProcessHeader>".toList :: ((["", n.synthesis] ++ ["", "## Partes"] ++
          bulletsOr "Não informado." (partyNames u context) ++ ["", "## Classe"] ++
            [classLine u context] ++ ["", "## Assuntos"] ++
              linesAfterSubjects u n context).map String.toList) := by
    unfold documentLines linesBeforeClass
    rw [headerLines_eq]
    have hmap : (headerEntries u context).map headerLine =
        ((headerEntries u context).map fun entry => "- " ++ entry.1 ++ ": " ++ entry.2).map
          String.toList := by
      rw [List.map_map]
      exact List.map_congr_left fun entry _ => (toList_headerLine entry).symm
    rw [hmap]
    simp only [List.map_append, List.map_cons, List.map_nil, List.append_assoc, List.cons_append,
      List.nil_append, titleLines]
  obtain ⟨tail, htail⟩ := joinLines_append
    (titleLines.map String.toList ++ (headerEntries u context).map headerLine)
    "</ProcessHeader>".toList ((["", n.synthesis] ++ ["", "## Partes"] ++
      bulletsOr "Não informado." (partyNames u context) ++ ["", "## Classe"] ++
        [classLine u context] ++ ["", "## Assuntos"] ++
          linesAfterSubjects u n context).map String.toList)
  unfold renderStructuredSummary
  rw [u.strip_eq, String.toList_ofList, String.toList_ofList, hlines, htail]
  -- The document begins with `#`, so `strip` takes nothing in front.
  have hfront : (headerText u context ++ ("</ProcessHeader>".toList ++ tail)).dropWhile u.isSpace =
      headerText u context ++ ("</ProcessHeader>".toList ++ tail) := by
    have hhead : ∃ rest, headerText u context ++ ("</ProcessHeader>".toList ++ tail) =
        '#' :: rest := ⟨_, rfl⟩
    obtain ⟨rest, hrest⟩ := hhead
    rw [hrest, List.dropWhile_cons_of_neg (by rw [isSpace_hash]; exact Bool.false_ne_true)]
  show ∃ more, ((headerText u context ++ ("</ProcessHeader>".toList ++ tail)).dropWhile
    u.isSpace).rdropWhile u.isSpace = _ ++ ("</ProcessHeader>".toList ++ more)
  rw [hfront, ← List.append_assoc]
  -- Nor does it reach back into the header, which ends with `>`.
  have hlast : (headerText u context ++ "</ProcessHeader>".toList).getLast?.any
      (fun c => !u.isSpace c) = true := by
    rw [List.getLast?_append_of_ne_nil _ (by decide)]
    show (!u.isSpace '>') = true
    rw [u.isSpace_ascii '>' (by decide)]
    rfl
  obtain ⟨more, hmore⟩ := rdropWhile_append hlast tail
  exact ⟨more, by rw [hmore, List.append_assoc]⟩

/-- The labels are those of the renderer. -/
theorem headerEntries_label : ∀ entry ∈ headerEntries u context, entry.1 ∈ headerLabels := by
  intro entry hentry
  have hfirst : "Processo" ∈ headerLabels ∧ "Classe" ∈ headerLabels ∧
      "Tribunal" ∈ headerLabels := by decide
  rcases List.mem_cons.1 hentry with rfl | hentry
  · exact hfirst.1
  · obtain ⟨hmem, -⟩ := List.mem_filter.1 hentry
    rcases List.mem_append.1 hmem with hmem | hmem
    · simp only [List.mem_cons, List.not_mem_nil, or_false] at hmem
      rcases hmem with rfl | rfl
      · exact hfirst.2.1
      · exact hfirst.2.2
    · obtain ⟨field, hfield, rfl⟩ := List.mem_map.1 hmem
      exact List.mem_append_right _ (List.mem_map.2 ⟨field, hfield, rfl⟩)

/-- The values are inline texts, and only the number of the process may be
missing. -/
theorem headerEntries_value : ∀ entry ∈ headerEntries u context,
    Inline u entry.2.toList ∧ (entry.1 ≠ "Processo" → entry.2 ≠ "") := by
  intro entry hentry
  rcases List.mem_cons.1 hentry with rfl | hentry
  · exact ⟨inline_inline _, fun h => absurd rfl h⟩
  · obtain ⟨hmem, hne⟩ := List.mem_filter.1 hentry
    refine ⟨?_, fun _ => of_decide_eq_true hne⟩
    rcases List.mem_append.1 hmem with hmem | hmem
    · simp only [List.mem_cons, List.not_mem_nil, or_false] at hmem
      rcases hmem with rfl | rfl <;> exact inline_inline _
    · obtain ⟨field, -, rfl⟩ := List.mem_map.1 hmem
      exact inline_inline _

variable (context) in
/-- **What a pattern of labels reads in the header.** -/
theorem groups_header (hu : ReadsLabels u) {label : Regex} {labels : List String}
    (h : ReadsOf u label labels) (hprocesso : "Processo" ∉ labels) (n : Summary) :
    (headerMatches u context (labelledPattern u label) n).map (fun m => m.last.groups) =
      (headerEntries u context).filterMap (readLine labels) := by
  obtain ⟨more, hmore⟩ := render_header n
  have hr := startsLine_labelled (u := u) label
  have hentries : ∀ entry ∈ headerEntries u context,
      (headerLine entry).head?.any (fun x => !u.isSpace x) = true ∧ '\n' ∉ headerLine entry ∧
        Reads (labelledPattern u label) (fun x => !u.isSpace x) (headerLine entry)
          (readLine labels entry) := by
    intro entry hentry
    have hlabel := headerEntries_label entry hentry
    obtain ⟨hinline, hne⟩ := headerEntries_value entry hentry
    refine ⟨?_, ?_, reads_headerLine hu h hlabel hinline fun hmem => ?_⟩
    · show (!u.isSpace '-') = true
      rw [u.isSpace_ascii '-' (by decide)]
      rfl
    · have hall : ∀ l ∈ headerLabels, '\n' ∉ l.toList := by decide
      have hvalue : '\n' ∉ entry.2.toList := fun hmem =>
        absurd (hinline.tidy.blank '\n' hmem isSpace_newline) (by decide)
      simp only [headerLine, List.mem_cons, List.mem_append, not_or]
      exact ⟨by decide, by decide, hall _ hlabel, by decide, by decide, hvalue⟩
    · have htext := hne fun heq => hprocesso (heq ▸ hmem)
      exact fun hnil => htext (String.toList_injective hnil)
  have hrest : ("</ProcessHeader>".toList ++ more).head?.any (fun x => !u.isSpace x) = true := by
    show (!u.isSpace '<') = true
    rw [u.isSpace_ascii '<' (by decide)]
    rfl
  -- the three lines before the header are skipped
  have htitle : ∀ line ∈ titleLines, '\n' ∉ line.toList ∧ Skips (labelledPattern u label)
      line.toList := by
    intro line hline
    have hall : ∀ l ∈ titleLines, '\n' ∉ l.toList ∧
        (l.toList ++ ['\n']).head?.all (fun x => decide (x ∈ ['#', '<', '\n'])) = true := by
      decide
    exact ⟨(hall line hline).1, skips_other h fun x hx =>
      of_decide_eq_true ((Option.all_eq_true _ _).1 (hall line hline).2 x hx)⟩
  have hsplit : headerText u context = linesText (titleLines.map String.toList) ++
      linesText ((headerEntries u context).map headerLine) := linesText_append _ _
  obtain ⟨before, hstart, hskipped⟩ := findFrom_skipped hr
    ('\n' :: (renderStructuredSummary u n context).toList)
    (linesText ((headerEntries u context).map headerLine) ++ ("</ProcessHeader>".toList ++ more))
    (titleLines.map String.toList) 0 [] (by rwa [List.forall_mem_map]) rfl
  have hfuel : (headerEntries u context).length ≤
      ('\n' :: (renderStructuredSummary u n context).toList).length := by
    have hlines := length_le_linesText ((headerEntries u context).map headerLine)
    rw [List.length_map] at hlines
    rw [hmore, hsplit, List.length_cons, List.length_append, List.length_append]
    omega
  obtain ⟨ms, others, hfind, hms, hbefore, hafter⟩ := findFrom_lines (fun x => !u.isSpace x) hr
    hrest _ _ (0 + (linesText (titleLines.map String.toList)).length) _ hentries hfuel hstart
  have hlength : 0 + (linesText (titleLines.map String.toList)).length +
      (linesText ((headerEntries u context).map headerLine)).length =
        (headerText u context).length := by
    rw [hsplit, List.length_append, Nat.zero_add]
  rw [hlength] at hbefore hafter
  have hiter : (labelledPattern u label).findIter (renderStructuredSummary u n context).toList =
      ms ++ others := by
    unfold findIter
    rw [← hfind, ← hskipped, hmore, hsplit, List.append_assoc]
  unfold headerMatches
  rw [hiter, List.filter_append, List.filter_eq_self.2 fun m hm => decide_eq_true (hbefore m hm),
    List.filter_eq_nil_iff.2 fun m hm => ?_, List.append_nil, hms]
  have hle := hafter m hm
  rw [decide_eq_true_eq]
  omega

/-- A label of the header is stripped already. -/
theorem strip_label (hu : ReadsLabels u) {label : String} (h : label ∈ headerLabels) :
    u.strip label = label := by
  obtain ⟨x, rest, hlabel, hx⟩ := headerLabels_first hu h
  have hall : ∀ l ∈ headerLabels, l.toList.getLast?.any (fun y =>
      decide (y.toNat < 128 ∧ asciiSpace y = false)) = true := by
    decide
  obtain ⟨y, hlast, hcases⟩ := (Option.any_eq_true _ _).1 (hall label h)
  obtain ⟨hascii, hy⟩ := of_decide_eq_true hcases
  rw [u.strip_eq, Platform.stripChars_eq_self, String.ofList_toList]
  · intro c hc
    rw [hlabel] at hc
    rw [← Option.some.inj hc]
    exact hx
  · intro c hc
    rw [hlast] at hc
    rw [← Option.some.inj hc, u.isSpace_ascii y hascii]
    exact hy

/-- What a match of a pattern says, by its two groups. -/
theorem labelled_of_groups {m : Match} {label value : String}
    (h : m.last.groups = [("value", value.toList), ("label", label.toList)]) :
    labelled u m = (u.strip label, u.strip value) := by
  have hlabel : m.group "label" = some label.toList := by
    rw [Match.group, h]
    rfl
  have hvalue : m.group "value" = some value.toList := by
    rw [Match.group, h]
    rfl
  show (u.strip (String.ofList ((m.group "label").getD [])),
    u.strip (String.ofList ((m.group "value").getD []))) = _
  rw [hlabel, hvalue, Option.getD_some, Option.getD_some, String.ofList_toList, String.ofList_toList]

variable (context) in
/-- **The labelled lines read in the header are its entries.** -/
theorem labelled_header (hu : ReadsLabels u) {label : Regex} {labels : List String}
    (h : ReadsOf u label labels) (hprocesso : "Processo" ∉ labels) (n : Summary) :
    (headerMatches u context (labelledPattern u label) n).map (labelled u) =
      (headerEntries u context).filter fun entry => decide (entry.1 ∈ labels) := by
  have hgroups := groups_header context hu h hprocesso n
  have hread : ∀ {ms : List Match} {entries : List (String × String)},
      (∀ entry ∈ entries, entry.1 ∈ headerLabels ∧ Inline u entry.2.toList) →
      ms.map (fun m => m.last.groups) = entries.filterMap (readLine labels) →
        ms.map (labelled u) = entries.filter fun entry => decide (entry.1 ∈ labels) := by
    intro ms entries
    induction entries generalizing ms with
    | nil =>
        intro _ hms
        rw [List.filterMap_nil, List.map_eq_nil_iff] at hms
        rw [hms]
        rfl
    | cons entry entries ih =>
        intro hentries hms
        obtain ⟨⟨hlabel, hinline⟩, hothers⟩ := List.forall_mem_cons.1 hentries
        by_cases hmem : entry.1 ∈ labels
        · have hsome : readLine labels entry =
              some [("value", entry.2.toList), ("label", entry.1.toList)] := if_pos hmem
          rw [List.filterMap_cons_some hsome] at hms
          obtain ⟨m, more, rfl, hm, hmore⟩ := List.map_eq_cons_iff.1 hms
          have hstrip : u.strip entry.2 = entry.2 := by
            rw [u.strip_eq, hinline.stripped, String.ofList_toList]
          rw [List.map_cons, labelled_of_groups hm, strip_label hu hlabel, hstrip, ih hothers hmore,
            List.filter_cons_of_pos (by simpa using hmem)]
        · have hnone : readLine labels entry = none := if_neg hmem
          rw [List.filterMap_cons_none hnone] at hms
          rw [ih hothers hms, List.filter_cons_of_neg (by simpa using hmem)]
  exact hread (fun entry hentry =>
    ⟨headerEntries_label entry hentry, (headerEntries_value entry hentry).1⟩) hgroups

end Header

end Rpy.Summaries

/-
  Rpy.Summaries.ClassLine
  ───────────────────────
  **THE CLASS ON A LINE OF ITS OWN** (`render_structured_summary` of
  `app/summary_output.py`).

  Under its heading the class is a line as it is, without a bullet and a
  label.  A class that begins with a label and a colon is read as a labelled
  line there: its value is what comes after the colon, or the heading of the
  next section if nothing does.

    • `classMatches`       — the labelled lines read at the class,
    • `staysIn_classFront` — no line before it goes on into it,
    • `labelled_class`     — what is read there,
    • `classMatches_ne_nil` — and that it is read.
-/
import Rpy.Summaries.HeaderLines
import Rpy.Summaries.LabelledLines

namespace Rpy.Summaries

open Rpy.Foundation
open Regex
open Validation

/-! ## §1. The document around the class. -/

section Class

variable (u : Unicode) (context : Context)

/-- The document before the class. -/
def classFront (n : Summary) : List Char :=
  linesText ((linesBeforeClass u n context).map String.toList)

/-- The matches in a document that begin where the class does. -/
def classMatches (r : Regex) (n : Summary) : List Match :=
  (r.findIter (renderStructuredSummary u n context).toList).filter fun m =>
    decide (m.first.offset = (classFront u context n).length)

variable {u context}

/-- What stands before the class ends with its heading. -/
theorem classFront_eq (context : Context) (n : Summary) : ∃ front, classFront u context n =
    front ++ ("## Classe".toList ++ ['\n']) ∧ ∀ x ∈ front.getLast?, x = '\n' := by
  refine ⟨linesText ((["# Resumo do processo", "",
    "<ProcessHeader className=\"process-header\">"] ++ headerLines u context ++
      ["</ProcessHeader>"] ++ ["", n.synthesis] ++ ["", "## Partes"] ++
        bulletsOr "Não informado." (partyNames u context) ++ [""]).map String.toList), ?_, ?_⟩
  · have hone : "## Classe".toList ++ ['\n'] = linesText ["## Classe".toList] := by
      simp [linesText]
    rw [hone, ← linesText_append]
    unfold classFront linesBeforeClass
    simp only [List.map_append, List.map_cons, List.map_nil, List.append_assoc, List.cons_append,
      List.nil_append]
  · intro x hx
    rw [List.map_append, linesText_append] at hx
    have hlast : linesText ([""].map String.toList) = ['\n'] := by decide
    rw [hlast, List.getLast?_concat] at hx
    exact (Option.some.inj hx).symm

/-- The class is one line, and does not begin or end with white space. -/
theorem classLine_shape (context : Context) : '\n' ∉ (classLine u context).toList ∧
    (classLine u context).toList.head?.any (fun x => !u.isSpace x) = true ∧
      ∀ x ∈ (classLine u context).toList.getLast?, u.isSpace x = false := by
  unfold classLine
  dsimp only
  by_cases hempty : inline u context.className = ""
  · rw [if_pos hempty]
    have hspace : u.isSpace 'N' = false ∧ u.isSpace '.' = false :=
      ⟨u.isSpace_ascii 'N' (by decide), u.isSpace_ascii '.' (by decide)⟩
    refine ⟨by decide, ?_, ?_⟩
    · show (!u.isSpace 'N') = true
      rw [hspace.1]
      rfl
    · intro x hx
      have hlast : "Não informado.".toList.getLast? = some '.' := by decide
      rw [hlast] at hx
      rw [← Option.some.inj hx]
      exact hspace.2
  · rw [if_neg hempty]
    have hinline := inline_inline (u := u) context.className
    refine ⟨hinline.oneLine.noBreak, ?_, hinline.last⟩
    cases htext : (inline u context.className).toList with
    | nil => exact absurd (String.toList_injective htext) hempty
    | cons x rest =>
        have hfirst := hinline.first x (by rw [htext]; rfl)
        show (!u.isSpace x) = true
        rw [hfirst]
        rfl

/-- The list of the subjects begins with a letter or a bullet. -/
theorem linesAfterSubjects_eq (n : Summary) (context : Context) :
    ∃ first lines x rest, linesAfterSubjects u n context = first :: lines ∧
      first.toList = x :: rest ∧ u.isSpace x = false := by
  unfold linesAfterSubjects bulletsOr bullets
  cases subjectNames u context with
  | nil => exact ⟨"Não informado.", _, 'N', _, rfl, rfl, u.isSpace_ascii 'N' (by decide)⟩
  | cons subject subjects =>
      exact ⟨"- " ++ subject, _, '-', ' ' :: subject.toList, rfl, String.toList_append,
        u.isSpace_ascii '-' (by decide)⟩

/-- **A document has the class between two headings.** -/
theorem render_class (context : Context) (n : Summary) : ∃ more,
    more.head?.any (fun x => !u.isSpace x) = true ∧
    (renderStructuredSummary u n context).toList = classFront u context n ++
      ((classLine u context).toList ++
        '\n' :: '\n' :: ("## Assuntos".toList ++ '\n' :: more)) := by
  obtain ⟨first, lines, x, line, hafter, hfirst, hx⟩ := linesAfterSubjects_eq (u := u) n context
  let front : List Char := classFront u context n ++
    ((classLine u context).toList ++ '\n' :: '\n' :: ("## Assuntos".toList ++ ['\n']))
  have hlines : (documentLines u n context).map String.toList =
      ((linesBeforeClass u n context).map String.toList ++
        [(classLine u context).toList, [], "## Assuntos".toList]) ++
          (x :: line) :: lines.map String.toList := by
    unfold documentLines
    rw [hafter, ← hfirst]
    simp only [List.map_append, List.map_cons, List.append_assoc, List.cons_append,
      List.nil_append, String.toList_empty]
  -- What stands before the first line after the headings of the subjects.
  have hfront : linesText ((linesBeforeClass u n context).map String.toList ++
      [(classLine u context).toList, [], "## Assuntos".toList]) = front := by
    rw [linesText_append]
    simp [front, classFront, linesText]
  obtain ⟨tail, htail⟩ := joinLines_append ((linesBeforeClass u n context).map String.toList ++
    [(classLine u context).toList, [], "## Assuntos".toList]) (x :: line) (lines.map String.toList)
  have hhead : ∃ rest, front ++ (x :: line ++ tail) = '#' :: rest := ⟨_, rfl⟩
  -- The document begins with `#`, so `strip` takes nothing in front.
  have hdrop : (front ++ (x :: line ++ tail)).dropWhile u.isSpace = front ++ (x :: line ++ tail) := by
    obtain ⟨rest, hrest⟩ := hhead
    rw [hrest, List.dropWhile_cons_of_neg (by rw [isSpace_hash]; exact Bool.false_ne_true)]
  -- Nor does it reach back over `x`, which is no blank.
  have hlast : (front ++ [x]).getLast?.any (fun c => !u.isSpace c) = true := by
    rw [List.getLast?_concat]
    show (!u.isSpace x) = true
    rw [hx]
    rfl
  obtain ⟨more, hmore⟩ := rdropWhile_append hlast (line ++ tail)
  refine ⟨x :: more, ?_, ?_⟩
  · show (!u.isSpace x) = true
    rw [hx]
    rfl
  · unfold renderStructuredSummary
    rw [u.strip_eq, String.toList_ofList, String.toList_ofList, hlines, htail, hfront]
    show ((front ++ (x :: line ++ tail)).dropWhile u.isSpace).rdropWhile u.isSpace = _
    have hsplit : front ++ (x :: line ++ tail) = (front ++ [x]) ++ (line ++ tail) := by
      simp only [List.append_assoc, List.cons_append, List.nil_append]
    rw [hdrop, hsplit, hmore]
    simp [front]

/-- A class with a colon is that of the process. -/
theorem classLine_eq_colon {front tail : List Char} :
    (classLine u context).toList = front ++ ':' :: tail ↔
      (inline u context.className).toList = front ++ ':' :: tail := by
  have hnone : ':' ∉ "Não informado.".toList := by decide
  unfold classLine
  dsimp only
  by_cases hempty : inline u context.className = ""
  · rw [if_pos hempty, hempty]
    constructor
    · intro h
      exact absurd (h ▸ List.mem_append_right front List.mem_cons_self) hnone
    · intro h
      exact absurd h.symm (by simp)
  · rw [if_neg hempty]

/-! ## §2. What is read at the class. -/

/-- The heading before it is a line of letters. -/
theorem headingLine_classe : HeadingLine u "## Classe".toList :=
  headingLine_of_title "Classe" (by decide) (by decide)

/-- So is the heading after it. -/
theorem headingLine_assuntos : HeadingLine u "## Assuntos".toList :=
  headingLine_of_title "Assuntos" (by decide) (by decide)

/-- A match has a character at least. -/
theorem consumes_labelled {label : Regex} {labels : List String}
    (hlabel : ReadsTexts label (IsLabel u labels)) : Consumes (labelledPattern u label) := by
  intro c d hd
  obtain ⟨-, p, rest, hafter, -, -, rfl⟩ := (mem_labelled hlabel).1 hd
  have hlength : (c.skip p.text.length).offset = c.offset + p.text.length :=
    (spans_skip hafter).offset
  show c.offset < (c.skip p.text.length).offset
  rw [hlength]
  simp only [LabelledParts.text, List.length_append, List.length_cons]
  omega

/-- **No labelled line before the class goes on into it.** -/
theorem staysIn_classFront (hu : ReadsLabels u) {label : Regex} {labels : List String}
    (hlabel : ReadsTexts label (IsLabel u labels)) (hlabels : Lettered labels) (n : Summary)
    (rest : List Char) :
    StaysIn (labelledPattern u label) 0 [] (classFront u context n)
      ((classLine u context).toList ++ rest) := by
  obtain ⟨front, hfront, hbreak⟩ := classFront_eq (u := u) context n
  have hmore : ((classLine u context).toList ++ rest).head?.any (fun x => !u.isSpace x) = true := by
    obtain ⟨-, hfirst, -⟩ := classLine_shape (u := u) context
    cases htext : (classLine u context).toList with
    | nil => rw [htext] at hfirst; cases hfirst
    | cons x line => rw [htext] at hfirst; exact hfirst
  rw [hfront]
  intro front₁ front₂ hsplit hne d hd
  obtain ⟨hstart, p, after, hafter, hp, hend, rfl⟩ := (mem_labelled hlabel).1 hd
  have hoffset := (spans_skip hafter).offset
  change (Cursor.skip _ p.text.length).offset ≤ _
  rw [hoffset]
  -- a match that begins in the heading does not begin a line
  obtain ⟨es, rfl, rfl⟩ : ∃ es, front = front₁ ++ es ∧
      front₂ = es ++ ("## Classe".toList ++ ['\n']) := by
    rcases List.append_eq_append_iff.1 hsplit with ⟨es, hes, hback⟩ | ⟨es, hes, hback⟩
    · rcases List.eq_nil_or_concat' es with rfl | ⟨es, x, rfl⟩
      · exact ⟨[], by rw [hes, List.append_nil, List.append_nil], hback.symm⟩
      · exfalso
        have hx : x ≠ '\n' := by
          rintro rfl
          rw [List.append_assoc, List.singleton_append] at hback
          obtain ⟨es', rfl, hes'⟩ := split_before (x := '\n') hback (by decide)
          have hlength := congrArg List.length hes'
          have hpos := List.length_pos_iff.2 hne
          simp only [List.length_append, List.length_cons, List.length_nil] at hlength
          omega
        have hbefore : front₁.reverse ++ [] = x :: (es.reverse ++ front.reverse) := by
          simp [hes]
        change atLineStart (front₁.reverse ++ []) = true at hstart
        rw [hbefore, atLineStart_cons hx] at hstart
        cases hstart
    · exact ⟨es, hes, hback⟩
  have hlast : ∀ x ∈ es.getLast?, x = '\n' := by
    intro x hx
    refine hbreak x ?_
    have hesne : es ≠ [] := by
      rintro rfl
      cases hx
    rw [List.getLast?_append_of_ne_nil _ hesne]
    exact hx
  have htext : p.text ++ after =
      es ++ ("## Classe".toList ++ '\n' :: ((classLine u context).toList ++ rest)) := by
    rw [← hafter]
    simp
  have hle := parts_before_heading hu hlabels hp hend headingLine_classe hmore hlast htext
  simp only [List.length_append, List.length_singleton] at hle ⊢
  omega

/-- The match at the class, if there is one. -/
theorem classMatches_eq (context : Context) (hu : ReadsLabels u) {label : Regex} {labels : List String}
    (hlabel : ReadsTexts label (IsLabel u labels)) (hlabels : Lettered labels) (n : Summary) :
    ∃ more c, more.head?.any (fun x => !u.isSpace x) = true ∧ atLineStart c.before = true ∧
      c.after = (classLine u context).toList ++
        '\n' :: '\n' :: ("## Assuntos".toList ++ '\n' :: more) ∧
      classMatches u context (labelledPattern u label) n =
        ((steps (labelledPattern u label) c).head?.map fun d => (⟨c, d⟩ : Match)).toList := by
  obtain ⟨more, hmore, htext⟩ := render_class (u := u) context n
  refine ⟨more, ⟨(classFront u context n).length, (classFront u context n).reverse, _, []⟩, hmore,
    ?_, rfl, ?_⟩
  · obtain ⟨front, hfront, -⟩ := classFront_eq (u := u) context n
    rw [hfront, ← List.append_assoc, List.reverse_concat]
    rfl
  · unfold classMatches
    rw [htext, findIter_at (consumes_labelled hlabel) (staysIn_classFront hu hlabel hlabels n _)]

/-- The value that a match captures. -/
theorem labelled_value {c d : Cursor} {name value : List Char} :
    (labelled u ⟨c, (d.capture "label" name).capture "value" value⟩).2.toList =
      u.stripChars value := by
  show (u.strip (String.ofList value)).toList = _
  rw [u.strip_eq, String.toList_ofList, String.toList_ofList]

/-- **What is read at the class**: after a label and a colon the text after
them, or the next heading if there is none. -/
theorem labelled_class (hu : ReadsLabels u) {label : Regex} {labels : List String}
    (hlabel : ReadsTexts label (IsLabel u labels)) (hlabels : Lettered labels) {n : Summary}
    {m : Match} (hm : m ∈ classMatches u context (labelledPattern u label) n) :
    ∃ front tail, (inline u context.className).toList = front ++ ':' :: tail ∧
      LabelPart u labels front ∧
      (labelled u m).2 = if tail = [] then "## Assuntos" else u.strip (String.ofList tail) := by
  obtain ⟨more, c, -, -, hafter, hmatches⟩ := classMatches_eq context hu hlabel hlabels n
  rw [hmatches, Option.mem_toList, Option.map_eq_some_iff] at hm
  obtain ⟨d, hd, rfl⟩ := hm
  obtain ⟨-, p, rest, hparts, hp, hend, rfl⟩ := (mem_labelled hlabel).1 (List.mem_of_mem_head? hd)
  obtain ⟨hbreak, -, hlast⟩ := classLine_shape (u := u) context
  obtain ⟨tail, hline, hvalue⟩ := parts_of_line hu hlabels hp hend headingLine_assuntos hbreak hlast
    (hparts.symm.trans hafter)
  refine ⟨p.front, tail, classLine_eq_colon.1 hline, hp.labelPart, String.toList_injective ?_⟩
  rw [labelled_value]
  rcases hvalue with ⟨rfl, hvalue⟩ | ⟨hne, hvalue⟩
  · rw [if_pos rfl, hvalue]
    exact (headingLine_assuntos (u := u)).stripped
  · rw [if_neg hne, hvalue, u.strip_eq, String.toList_ofList, String.toList_ofList]

/-- **A class that begins with a label and a colon is read.** -/
theorem classMatches_ne_nil (hu : ReadsLabels u) {label : Regex} {labels : List String}
    (hlabel : ReadsTexts label (IsLabel u labels)) (hlabels : Lettered labels) (n : Summary)
    {front tail : List Char} (hclass : (inline u context.className).toList = front ++ ':' :: tail)
    (hfront : LabelPart u labels front) :
    classMatches u context (labelledPattern u label) n ≠ [] := by
  obtain ⟨more, c, -, hstart, hafter, hmatches⟩ :=
    classMatches_eq context hu hlabel hlabels n
  obtain ⟨p, rest, htext, hp, hend⟩ := exists_parts more headingLine_assuntos
    (classLine_eq_colon.2 hclass) hfront (classLine_shape (u := u) context).1
  have hmem := (mem_labelled hlabel (d := _)).2 ⟨hstart, p, rest, hafter.trans htext, hp, hend, rfl⟩
  rw [hmatches]
  cases hsteps : steps (labelledPattern u label) c with
  | nil =>
      rw [hsteps] at hmem
      cases hmem
  | cons d ds => exact List.cons_ne_nil _ _

end Class

end Rpy.Summaries

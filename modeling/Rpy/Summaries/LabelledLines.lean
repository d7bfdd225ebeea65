/-
  Rpy.Summaries.LabelledLines
  ───────────────────────────
  **WHERE THE PATTERNS OF LABELLED LINES MATCH** (`_SOURCE_BACKED_CLAIM_RE`
  and `_AMOUNT_CLAIM_RE` of `app/validation.py`).

  A match is a bullet or none, a label in any case, a colon and a value, with
  white space between them that may go on over line breaks.  It ends at the
  end of a line.

    • `IsBullet`, `IsLabel` — what stands before the colon,
    • `LabelledParts`       — the parts of a match,
    • `mem_labelled`        — the matches at a place,
    • `parts_before_heading` — no match goes on beyond a heading.
-/
import Rpy.Summaries.Labelled
import Rpy.Summaries.Structure

namespace Rpy.Summaries

open Rpy.Foundation
open Regex
open Validation

/-! ## §1. What stands before the colon. -/

/-- White space. -/
def Blank (u : Unicode) (cs : List Char) : Prop := ∀ c ∈ cs, u.isSpace c = true

/-- A bullet with the white space after it, or nothing. -/
def IsBullet (u : Unicode) (mark : List Char) : Prop :=
  mark = [] ∨ ∃ b blanks, mark = b :: blanks ∧ b ∈ ['-', '*'] ∧ Blank u blanks

/-- One of the labels, in any case. -/
def IsLabel (u : Unicode) (labels : List String) (name : List Char) : Prop :=
  ∃ label ∈ labels, Spelled u.sameCase label name

/-- The labels of `_SOURCE_BACKED_CLAIM_RE`. -/
def claimNames : List String :=
  ["Área", "Assunto", "Assuntos", "Tag", "Tags", "Comarca", "Órgão julgador", "Classe", "Fase"]

/-- The labels of `_AMOUNT_CLAIM_RE`. -/
def amountNames : List String := ["Valor", "Valor da causa"]

/-- What a labelled line has before its colon. -/
def LabelPart (u : Unicode) (labels : List String) (front : List Char) : Prop :=
  ∃ mark name gap, front = mark ++ (name ++ gap) ∧ IsBullet u mark ∧ IsLabel u labels name ∧
    Blank u gap

section Parts

variable {u : Unicode}

/-- `\s*` -/
theorem readsTexts_spaces : ReadsTexts (spaces u) (Blank u) := readsTexts_star u.isSpace

/-- The bullet before a label, if there is one. -/
theorem readsTexts_bullet : ReadsTexts (bullet u) (IsBullet u) := by
  refine (readsTexts_opt (readsTexts_seq (readsTexts_char _) readsTexts_spaces)).congr fun w => ?_
  refine or_congr_right ⟨?_, ?_⟩
  · rintro ⟨_, blanks, rfl, ⟨b, rfl, hb⟩, hblanks⟩
    exact ⟨b, blanks, rfl, List.contains_iff_mem.1 hb, hblanks⟩
  · rintro ⟨b, blanks, rfl, hb, hblanks⟩
    exact ⟨[b], blanks, rfl, ⟨b, rfl, List.contains_iff_mem.2 hb⟩, hblanks⟩

/-- A literal that may have an ending. -/
theorem readsTexts_ending (s ending : String) :
    ReadsTexts (.seq (word u s) (opt (word u ending))) fun w =>
      Spelled u.sameCase s w ∨ Spelled u.sameCase (s ++ ending) w := by
  refine (readsTexts_seq (readsTexts_literal _ s)
    (readsTexts_opt (readsTexts_literal _ ending))).congr fun w => ?_
  rw [spelled_append]
  constructor
  · rintro ⟨v₁, v₂, rfl, hs, rfl | hending⟩
    · exact .inl (by rwa [List.append_nil])
    · exact .inr ⟨v₁, v₂, rfl, hs, hending⟩
  · rintro (hs | ⟨v₁, v₂, rfl, hs, hending⟩)
    · exact ⟨w, [], (List.append_nil w).symm, hs, .inl rfl⟩
    · exact ⟨v₁, v₂, rfl, hs, .inr hending⟩

/-- The labels of the first pattern. -/
theorem readsTexts_claimLabel : ReadsTexts (claimLabel u) (IsLabel u claimNames) := by
  refine (readsTexts_alt (readsTexts_literal _ _) (readsTexts_alt (readsTexts_ending _ _)
    (readsTexts_alt (readsTexts_ending _ _) (readsTexts_alt (readsTexts_literal _ _)
      (readsTexts_alt (readsTexts_literal _ _) (readsTexts_alt (readsTexts_literal _ _)
        (readsTexts_literal _ _))))))).congr fun w => ?_
  have hassuntos : "Assunto" ++ "s" = "Assuntos" := by decide
  have htags : "Tag" ++ "s" = "Tags" := by decide
  rw [hassuntos, htags]
  simp [IsLabel, claimNames, or_assoc]

/-- The labels of the second one. -/
theorem readsTexts_amountLabel : ReadsTexts (amountLabel u) (IsLabel u amountNames) := by
  refine (readsTexts_ending _ _).congr fun w => ?_
  have hcausa : "Valor" ++ " da causa" = "Valor da causa" := by decide
  rw [hcausa]
  simp [IsLabel, amountNames]

/-! ## §2. The matches at a place. -/

/-- The parts of a labelled line. -/
structure LabelledParts where
  mark : List Char
  name : List Char
  gap : List Char
  blanks : List Char
  value : List Char
  closing : List Char

/-- The text before the colon. -/
def LabelledParts.front (p : LabelledParts) : List Char := p.mark ++ (p.name ++ p.gap)

def LabelledParts.text (p : LabelledParts) : List Char :=
  p.front ++ ':' :: (p.blanks ++ (p.value ++ p.closing))

structure LabelledParts.Ok (u : Unicode) (labels : List String) (p : LabelledParts) : Prop where
  mark : IsBullet u p.mark
  name : IsLabel u labels p.name
  gap : Blank u p.gap
  blanks : Blank u p.blanks
  value_ne : p.value ≠ []
  value_line : '\n' ∉ p.value
  closing : Blank u p.closing

/-- The parts before the colon are a label with its bullet. -/
theorem LabelledParts.Ok.labelPart {labels : List String} {p : LabelledParts} (h : p.Ok u labels) :
    LabelPart u labels p.front :=
  ⟨p.mark, p.name, p.gap, rfl, h.mark, h.name, h.gap⟩

/-- The closing of a line: white space up to its end. -/
theorem mem_closing_iff {c d : Cursor} : d ∈ steps (closing u) c ↔
    ∃ w rest, c.after = w ++ rest ∧ Blank u w ∧ EndsLine rest ∧ d = c.skip w.length := by
  rw [closing, (readsTexts_star u.isSpace).mem_seq]
  refine exists_congr fun w => exists_congr fun rest => and_congr_right fun hafter =>
    and_congr_right fun _ => ?_
  have hrest : (c.skip w.length).after = rest := after_skip hafter
  rw [steps_lineEnd, hrest]
  have hend : (rest.head?.all (· == '\n')) = true ↔ EndsLine rest := by
    unfold EndsLine
    cases rest <;> simp
  rw [← hend]
  split
  · next h => simp [h]
  · next h => simp [h]

/-- Two readings, one after the other. -/
theorem after_append {c : Cursor} {v w rest more : List Char} (h : c.after = v ++ rest)
    (hw : (c.skip v.length).after = w ++ more) : c.after = (v ++ w) ++ more := by
  rw [h, List.append_assoc, ← hw, after_skip h]

/-- **The matches at a place**, and what they capture. -/
theorem mem_labelled {label : Regex} {labels : List String}
    (hlabel : ReadsTexts label (IsLabel u labels)) {c d : Cursor} :
    d ∈ steps (labelledPattern u label) c ↔ atLineStart c.before = true ∧
      ∃ p rest, c.after = LabelledParts.text p ++ rest ∧ p.Ok u labels ∧ EndsLine rest ∧
        d = ((c.skip p.text.length).capture "label" p.name).capture "value" p.value := by
  have hpattern : labelledPattern u label =
      .seq .lineStart (.seq (bullet u) (.seq (.group "label" label) (valuePart u))) := rfl
  -- The anchor is a condition on the place, and moves nothing.
  have hstart : d ∈ steps (labelledPattern u label) c ↔ atLineStart c.before = true ∧
      d ∈ steps (.seq (bullet u) (.seq (.group "label" label) (valuePart u))) c := by
    have hline : steps .lineStart c = if atLineStart c.before then [c] else [] := rfl
    rw [hpattern, steps_seq, hline]
    cases atLineStart c.before <;> simp
  rw [hstart]
  refine and_congr_right fun _ => ?_
  rw [readsTexts_bullet.mem_seq]
  unfold valuePart
  simp only [hlabel.mem_group_seq, readsTexts_spaces.mem_seq, (readsTexts_char (· == ':')).mem_seq,
    (readsTexts_plusLazy (· != '\n')).mem_group_seq, only, mem_closing_iff, capture_after,
    capture_skip, skip_skip]
  constructor
  · rintro ⟨mark, _, hafter, hmark, name, _, hname', hname, gap, _, hgap', hgap, _, _, hcolon,
      ⟨x, rfl, hx⟩, blanks, _, hblanks', hblanks, value, _, hvalue', ⟨hne, hline⟩, closing, rest,
      hclosing', hclosing, hend, rfl⟩
    -- The parts in the order of the pattern, each where the one before it ends.
    obtain rfl : x = ':' := eq_of_beq hx
    have h₁ := after_append hafter hname'
    rw [← List.length_append] at hgap'
    have h₂ := after_append h₁ hgap'
    rw [← List.length_append, ← List.length_append] at hcolon
    have h₃ := after_append h₂ hcolon
    rw [← List.length_append, ← List.length_append, ← List.length_append] at hblanks'
    have h₄ := after_append h₃ hblanks'
    rw [← List.length_append, ← List.length_append, ← List.length_append, ← List.length_append]
      at hvalue'
    have h₅ := after_append h₄ hvalue'
    rw [← List.length_append, ← List.length_append, ← List.length_append, ← List.length_append,
      ← List.length_append] at hclosing'
    have h₆ := after_append h₅ hclosing'
    have htext : mark ++ name ++ gap ++ [':'] ++ blanks ++ value ++ closing =
        LabelledParts.text ⟨mark, name, gap, blanks, value, closing⟩ := by
      simp [LabelledParts.text, LabelledParts.front]
    refine ⟨⟨mark, name, gap, blanks, value, closing⟩, rest, by rw [h₆, htext],
      ⟨hmark, hname, hgap, hblanks, hne, fun hmem => ?_, hclosing⟩, hend, ?_⟩
    · exact absurd (hline '\n' hmem) (by decide)
    · rw [← htext]
      simp only [List.length_append]
  · rintro ⟨p, rest, hafter, hp, hend, rfl⟩
    have htext : p.text = p.mark ++ (p.name ++ (p.gap ++ ([':'] ++ (p.blanks ++ (p.value ++
        p.closing))))) := by
      simp [LabelledParts.text, LabelledParts.front]
    -- Back: a part stands at the place that the parts before it lead to.
    have hstands : ∀ (front : List Char) {w back : List Char}, p.text = front ++ (w ++ back) →
        ∃ more, (c.skip front.length).after = w ++ more := by
      intro front w back hsplit
      refine ⟨back ++ rest, after_skip ?_⟩
      rw [hafter, hsplit, List.append_assoc, List.append_assoc]
    obtain ⟨_, hname⟩ := hstands p.mark htext
    obtain ⟨_, hgap⟩ := hstands (p.mark ++ p.name) (htext.trans (List.append_assoc _ _ _).symm)
    obtain ⟨_, hcolon⟩ := hstands (p.mark ++ p.name ++ p.gap) (w := [':']) (by
      simp only [htext, List.append_assoc]
      rfl)
    obtain ⟨_, hblanks⟩ := hstands (p.mark ++ p.name ++ p.gap ++ [':']) (w := p.blanks) (by
      simp only [htext, List.append_assoc]
      rfl)
    obtain ⟨_, hvalue⟩ := hstands (p.mark ++ p.name ++ p.gap ++ [':'] ++ p.blanks)
      (w := p.value) (by
        simp only [htext, List.append_assoc]
        rfl)
    have hclosing : (c.skip (p.mark ++ p.name ++ p.gap ++ [':'] ++ p.blanks ++ p.value).length).after
        = p.closing ++ rest := by
      refine after_skip ?_
      rw [hafter, htext]
      simp only [List.append_assoc]
    simp only [List.length_append] at hgap hcolon hblanks hvalue hclosing
    refine ⟨p.mark, _, by rw [hafter, htext, List.append_assoc], hp.mark, p.name, _, hname, hp.name,
      p.gap, _, hgap, hp.gap, [':'], _, hcolon, ⟨':', rfl, rfl⟩, p.blanks, _, hblanks, hp.blanks,
      p.value, _, hvalue,
      ⟨hp.value_ne, fun x hx => bne_iff_ne.2 fun heq => hp.value_line (heq ▸ hx)⟩, p.closing, rest,
      hclosing, hp.closing, hend, ?_⟩
    rw [htext]
    simp only [List.length_append, Nat.add_assoc]

/-! ## §3. Where the parts end. -/

/-- What has no `x` ends before the first `x` of a text. -/
theorem split_before {x : Char} {as bs cs ds : List Char} (h : as ++ cs = bs ++ x :: ds)
    (hx : x ∉ as) : ∃ es, bs = as ++ es ∧ cs = es ++ x :: ds := by
  rcases List.append_eq_append_iff.1 h with ⟨es, hbs, hcs⟩ | ⟨es, has, hcs⟩
  · exact ⟨es, hbs, hcs⟩
  · obtain _ | ⟨y, es⟩ := es
    · exact ⟨[], by rw [List.append_nil] at has ⊢; exact has.symm, hcs.symm⟩
    · obtain rfl : x = y := (List.cons.inj hcs).1
      exact absurd (has ▸ List.mem_append_right bs List.mem_cons_self) hx

/-- Labels whose letters are neither `#` nor a colon. -/
def Lettered (labels : List String) : Prop :=
  ∀ label ∈ labels, label.toList.all (fun x =>
    inLabel x && ['#', ':'].all fun y => !sameLetter x y) = true

instance (labels : List String) : Decidable (Lettered labels) :=
  inferInstanceAs (Decidable (∀ label ∈ labels, _ = true))

/-- The labels are words of letters. -/
theorem lettered_claimNames : Lettered claimNames := by decide

/-- So are those of the second pattern. -/
theorem lettered_amountNames : Lettered amountNames := by decide

/-- **Before the colon there is no other one, and no heading.** -/
theorem LabelPart.not_mem (hu : ReadsLabels u) {labels : List String} (hlabels : Lettered labels)
    {front : List Char} (h : LabelPart u labels front) {y : Char} (hy : y ∈ ['#', ':']) :
    y ∉ front := by
  obtain ⟨mark, name, gap, rfl, hmark, ⟨label, hlabel, hname⟩, hgap⟩ := h
  have hshape : y.toNat < 128 ∧ asciiSpace y = false ∧ inLabel y = true ∧ y ∉ ['-', '*'] := by
    simp only [List.mem_cons, List.not_mem_nil, or_false] at hy
    rcases hy with rfl | rfl <;> decide
  obtain ⟨hascii, hspace, hin, hbullet⟩ := hshape
  have hblank : ∀ {cs : List Char}, Blank u cs → y ∉ cs := by
    intro cs hcs hmem
    have hyspace := hcs y hmem
    rw [u.isSpace_ascii y hascii, hspace] at hyspace
    cases hyspace
  rw [List.mem_append, List.mem_append, not_or, not_or]
  refine ⟨?_, ?_, hblank hgap⟩
  · rcases hmark with rfl | ⟨b, blanks, rfl, hb, hblanks⟩
    · exact List.not_mem_nil
    · rw [List.mem_cons, not_or]
      exact ⟨fun heq => hbullet (heq ▸ hb), hblank hblanks⟩
  · intro hmem
    obtain ⟨x, hx, hsame⟩ := hname.exists_of_mem hmem
    obtain ⟨hxin, hnot⟩ := Bool.and_eq_true_iff.1 (List.all_eq_true.1 (hlabels label hlabel) x hx)
    have hletter := List.all_eq_true.1 hnot y hy
    rw [Bool.not_eq_true'] at hletter
    rw [hu.sameCase x y hxin hin, hletter] at hsame
    cases hsame

/-- **A value ends with its line**, if the line does not end with white space. -/
theorem value_eq_line {value closing rest : List Char} (line : List Char) {more : List Char}
    (h : value ++ (closing ++ rest) = line ++ '\n' :: more) (hvalue : '\n' ∉ value)
    (hclosing : Blank u closing) (hend : EndsLine rest) (hline : '\n' ∉ line)
    (hlast : ∀ x ∈ line.getLast?, u.isSpace x = false) :
    value = line ∧ closing ++ rest = '\n' :: more := by
  obtain ⟨es, rfl, hes⟩ := split_before h hvalue
  obtain _ | ⟨y, es⟩ := es
  · exact ⟨(List.append_nil value).symm, hes⟩
  exfalso
  have hend' : ∀ x ∈ (y :: es).getLast?, u.isSpace x = false := by
    rwa [List.getLast?_append_of_ne_nil _ (List.cons_ne_nil y es)] at hlast
  have hbreak : '\n' ∉ y :: es := fun hmem => hline (List.mem_append_right value hmem)
  have hnot : ∀ z ∈ (y :: es).getLast?, z ∉ closing := by
    intro z hz hmem
    have hspace := hclosing z hmem
    rw [hend' z hz] at hspace
    cases hspace
  have hz : (y :: es).getLast (List.cons_ne_nil y es) ∈ (y :: es).getLast? :=
    List.getLast?_eq_some_getLast _
  rcases List.append_eq_append_iff.1 hes with ⟨a, ha, hrest⟩ | ⟨a, ha, -⟩
  · obtain _ | ⟨x, a⟩ := a
    · rw [List.append_nil] at ha
      exact hnot _ hz (ha ▸ List.getLast_mem _)
    · have hx : x = '\n' := hend x (by rw [hrest]; rfl)
      exact hbreak (ha ▸ List.mem_append_right closing (hx ▸ List.mem_cons_self))
  · exact hnot _ hz (ha ▸ List.mem_append_left a (List.getLast_mem _))

/-! ## §4. Around a heading. -/

/-- A heading: its line does not end with white space. -/
structure HeadingLine (u : Unicode) (heading : List Char) : Prop where
  head : heading.head? = some '#'
  line : '\n' ∉ heading
  last : ∀ x ∈ heading.getLast?, u.isSpace x = false

/-- `## ` and a title of ASCII letters. -/
theorem headingLine_of_title (title : String) (h : title.toList.all isPlainAscii = true)
    (hne : title ≠ "") : HeadingLine u ("## " ++ title).toList := by
  have hlist : title.toList ≠ [] := fun hnil => hne (String.toList_injective hnil)
  have htext : ("## " ++ title).toList = ['#', '#', ' '] ++ title.toList := String.toList_append
  rw [htext]
  refine ⟨rfl, ?_, ?_⟩
  · rw [List.mem_append, not_or]
    refine ⟨by decide, fun hmem => ?_⟩
    exact absurd (List.all_eq_true.1 h '\n' hmem) (by decide)
  · intro x hx
    rw [List.getLast?_append_of_ne_nil _ hlist] at hx
    exact isSpace_of_isPlainAscii (List.all_eq_true.1 h x (List.mem_of_mem_getLast? hx))

/-- It does not begin with white space either. -/
theorem HeadingLine.stripped {heading : List Char} (h : HeadingLine u heading) :
    u.stripChars heading = heading := by
  refine u.stripChars_eq_self (fun x hx => ?_) h.last
  obtain rfl : '#' = x := Option.some.inj (h.head.symm.trans hx)
  exact isSpace_hash

section Heading

variable {labels : List String} {p : LabelledParts} {heading more rest : List Char}

/-- **No match goes on beyond a heading** and the line it stands on, if the next
line is not blank. -/
theorem parts_before_heading (hu : ReadsLabels u) (hlabels : Lettered labels) (hp : p.Ok u labels)
    (hend : EndsLine rest) (hheading : HeadingLine u heading)
    (hmore : more.head?.any (fun x => !u.isSpace x) = true) {front : List Char}
    (hfront : ∀ x ∈ front.getLast?, x = '\n')
    (h : p.text ++ rest = front ++ (heading ++ '\n' :: more)) :
    p.text.length ≤ front.length + heading.length := by
  obtain ⟨title, rfl⟩ : ∃ title, heading = '#' :: title := by
    obtain _ | ⟨x, title⟩ := heading
    · cases hheading.head
    · obtain rfl := Option.some.inj hheading.head
      exact ⟨title, rfl⟩
  -- A heading begins with `#`, and neither label nor blanks hold one.
  have hhash : '#' ∉ p.front ++ ':' :: p.blanks := by
    rw [List.mem_append, List.mem_cons, not_or, not_or]
    refine ⟨hp.labelPart.not_mem hu hlabels (by decide), by decide, fun hmem => ?_⟩
    have hspace := hp.blanks '#' hmem
    rw [isSpace_hash] at hspace
    cases hspace
  have htext : p.text ++ rest =
      (p.front ++ ':' :: p.blanks) ++ (p.value ++ (p.closing ++ rest)) := by
    simp only [LabelledParts.text, List.append_assoc, List.cons_append]
  have hlength : p.text.length =
      (p.front ++ ':' :: p.blanks).length + p.value.length + p.closing.length := by
    simp only [LabelledParts.text, List.length_append, List.length_cons]
    omega
  rw [htext] at h
  obtain ⟨es, rfl, hes⟩ := split_before h hhash
  rw [hlength, List.length_append]
  rcases List.eq_nil_or_concat' es with rfl | ⟨es, x, rfl⟩
  · -- the value is the heading, and nothing comes after it
    obtain ⟨hvalue, hclosing⟩ :=
      value_eq_line ('#' :: title) hes hp.value_line hp.closing hend hheading.line hheading.last
    have hnil : p.closing = [] := by
      rcases hc : p.closing with _ | ⟨y, closing⟩
      · rfl
      rw [hc, List.cons_append] at hclosing
      obtain ⟨-, hrest⟩ := List.cons.inj hclosing
      obtain ⟨z, hz, hzspace⟩ := (Option.any_eq_true _ _).1 hmore
      rw [Bool.not_eq_true'] at hzspace
      have hspace : u.isSpace z = true := by
        obtain _ | ⟨w, closing⟩ := closing
        · rw [List.nil_append] at hrest
          rw [hend z (hrest ▸ hz)]
          exact isSpace_newline
        · rw [← hrest] at hz
          obtain rfl : w = z := Option.some.inj hz
          exact hp.closing w (by rw [hc]; simp)
      rw [hzspace] at hspace
      cases hspace
    rw [hnil, hvalue, List.length_nil]
    simp only [List.length_append, List.length_cons, List.length_nil]
    omega
  · -- the value ends before the line of the heading
    obtain rfl : x = '\n' := by
      refine hfront x ?_
      rw [← List.append_assoc, List.getLast?_concat]
      rfl
    rw [List.append_assoc] at hes
    obtain ⟨es', rfl, hes'⟩ := split_before hes hp.value_line
    have hclosing : '#' ∉ p.closing := by
      intro hmem
      have hspace := hp.closing '#' hmem
      rw [isSpace_hash] at hspace
      cases hspace
    have hsplit : p.closing ++ rest = (es' ++ ['\n']) ++ '#' :: (title ++ '\n' :: more) := by
      rw [hes', List.append_assoc]
      rfl
    obtain ⟨es'', hes'', -⟩ := split_before hsplit hclosing
    have hle := congrArg List.length hes''
    simp only [List.length_append, List.length_singleton] at hle ⊢
    omega

/-- **What is read on a line before a blank one and a heading**: the text after
the first colon, or the heading if there is none. -/
theorem parts_of_line (hu : ReadsLabels u) (hlabels : Lettered labels) (hp : p.Ok u labels)
    (hend : EndsLine rest) (hheading : HeadingLine u heading) {line : List Char}
    (hline : '\n' ∉ line) (hlast : ∀ x ∈ line.getLast?, u.isSpace x = false)
    (h : p.text ++ rest = line ++ '\n' :: '\n' :: (heading ++ '\n' :: more)) :
    ∃ tail, line = p.front ++ ':' :: tail ∧
      ((tail = [] ∧ p.value = heading) ∨
        (tail ≠ [] ∧ u.stripChars p.value = u.stripChars tail)) := by
  have htext : p.text ++ rest = p.front ++ ':' :: (p.blanks ++ (p.value ++ (p.closing ++ rest))) := by
    simp only [LabelledParts.text, List.append_assoc, List.cons_append]
  obtain ⟨title, rfl⟩ : ∃ title, heading = '#' :: title := by
    obtain _ | ⟨x, title⟩ := heading
    · cases hheading.head
    · obtain rfl := Option.some.inj hheading.head
      exact ⟨title, rfl⟩
  -- the colon stands on the line
  have hhash := hp.labelPart.not_mem hu hlabels (y := '#') (by decide)
  rw [htext] at h
  obtain ⟨tail, rfl, hafter⟩ : ∃ tail, line = p.front ++ ':' :: tail ∧
      p.blanks ++ (p.value ++ (p.closing ++ rest)) =
        tail ++ '\n' :: '\n' :: ('#' :: title ++ '\n' :: more) := by
    rcases List.append_eq_append_iff.1 h with ⟨es, hes, hcolon⟩ | ⟨es, hes, hcolon⟩
    · obtain _ | ⟨x, es⟩ := es
      · cases hcolon
      · obtain ⟨rfl, hrest⟩ := List.cons.inj hcolon
        exact ⟨es, hes, hrest⟩
    · exfalso
      rw [hes] at hhash
      obtain _ | ⟨x, _ | ⟨y, _ | ⟨z, es⟩⟩⟩ := es
      · cases hcolon
      · cases hcolon
      · cases hcolon
      · obtain ⟨-, htwo⟩ := List.cons.inj hcolon
        obtain ⟨-, hthree⟩ := List.cons.inj htwo
        obtain ⟨rfl, -⟩ := List.cons.inj hthree
        exact hhash (by simp)
  refine ⟨tail, rfl, ?_⟩
  obtain _ | ⟨x, tail⟩ := tail
  · -- the white space after the colon goes on to the heading
    refine .inl ⟨rfl, ?_⟩
    have hblanks : '#' ∉ p.blanks := by
      intro hmem
      have hspace := hp.blanks '#' hmem
      rw [isSpace_hash] at hspace
      cases hspace
    have hsplit : p.blanks ++ (p.value ++ (p.closing ++ rest)) =
        ['\n', '\n'] ++ '#' :: (title ++ '\n' :: more) := hafter
    obtain ⟨es, hes, hvalue⟩ := split_before hsplit hblanks
    obtain rfl : es = [] := by
      by_contra hne
      obtain ⟨y, es, rfl⟩ := List.exists_cons_of_ne_nil hne
      have hy : y = '\n' := by
        have hmem : y ∈ ['\n', '\n'] := hes ▸ List.mem_append_right _ List.mem_cons_self
        simpa using hmem
      obtain ⟨z, value, hz⟩ := List.exists_cons_of_ne_nil hp.value_ne
      rw [hz] at hvalue
      obtain ⟨rfl, -⟩ := List.cons.inj hvalue
      exact hp.value_line (by rw [hz, hy]; exact List.mem_cons_self)
    exact (value_eq_line ('#' :: title) hvalue hp.value_line hp.closing hend hheading.line
      hheading.last).1
  · refine .inr ⟨List.cons_ne_nil x tail, ?_⟩
    have htail : ∀ z ∈ (x :: tail).getLast?, u.isSpace z = false := by
      intro z hz
      refine hlast z ?_
      rw [List.getLast?_append_of_ne_nil _ (List.cons_ne_nil ':' _),
        List.getLast?_cons_of_ne_nil (List.cons_ne_nil x tail)]
      exact hz
    -- the white space after the colon ends before the last character
    obtain ⟨part, hpart, hvalue⟩ : ∃ part, x :: tail = p.blanks ++ part ∧
        p.value ++ (p.closing ++ rest) =
          part ++ '\n' :: '\n' :: ('#' :: title ++ '\n' :: more) := by
      rcases List.append_eq_append_iff.1 hafter with ⟨es, hes, hvalue⟩ | ⟨es, hes, -⟩
      · exact ⟨es, hes, hvalue⟩
      · exfalso
        have hne : x :: tail ≠ [] := List.cons_ne_nil x tail
        have hmem : (x :: tail).getLast hne ∈ p.blanks := by
          rw [hes]
          exact List.mem_append_left es (List.getLast_mem hne)
        have hspace := hp.blanks _ hmem
        rw [htail _ (List.getLast?_eq_some_getLast hne)] at hspace
        cases hspace
    have hpartline : '\n' ∉ part := by
      intro hmem
      refine hline (List.mem_append_right p.front (List.mem_cons_of_mem ':' ?_))
      rw [hpart]
      exact List.mem_append_right p.blanks hmem
    have hpartlast : ∀ z ∈ part.getLast?, u.isSpace z = false := by
      intro z hz
      refine htail z ?_
      have hne : part ≠ [] := by
        rintro rfl
        cases hz
      rw [hpart, List.getLast?_append_of_ne_nil _ hne]
      exact hz
    obtain ⟨hsame, -⟩ :=
      value_eq_line _ hvalue hp.value_line hp.closing hend hpartline hpartlast
    rw [hsame, hpart]
    unfold Platform.stripChars
    rw [List.dropWhile_append_of_pos hp.blanks]

/-- **A label before a colon is read.** -/
theorem exists_parts (more : List Char) {line front tail : List Char}
    (hheading : HeadingLine u heading) (hline : line = front ++ ':' :: tail)
    (hfront : LabelPart u labels front) (hbreak : '\n' ∉ line) : ∃ p rest,
      line ++ '\n' :: '\n' :: (heading ++ '\n' :: more) = LabelledParts.text p ++ rest ∧
        p.Ok u labels ∧ EndsLine rest := by
  obtain ⟨mark, name, gap, rfl, hmark, hname, hgap⟩ := hfront
  have hsplit : ∀ (blanks value closing rest : List Char),
      tail ++ '\n' :: '\n' :: (heading ++ '\n' :: more) = blanks ++ (value ++ (closing ++ rest)) →
        line ++ '\n' :: '\n' :: (heading ++ '\n' :: more) =
          LabelledParts.text ⟨mark, name, gap, blanks, value, closing⟩ ++ rest := by
    intro blanks value closing rest h
    rw [hline, List.append_assoc, List.cons_append, h]
    simp only [LabelledParts.text, LabelledParts.front, List.append_assoc, List.cons_append]
  by_cases htail : tail = []
  · have hheadingne : heading ≠ [] := by
      rintro rfl
      cases hheading.head
    refine ⟨⟨mark, name, gap, ['\n', '\n'], heading, []⟩, '\n' :: more,
      hsplit _ _ _ _ (by rw [htail]; rfl), ⟨hmark, hname, hgap, ?_, hheadingne, hheading.line, ?_⟩,
      fun x hx => (Option.some.inj hx).symm⟩
    · intro x hx
      have hx' : x = '\n' := by simpa using hx
      rw [hx']
      exact isSpace_newline
    · exact List.forall_mem_nil _
  · refine ⟨⟨mark, name, gap, [], tail, []⟩, '\n' :: '\n' :: (heading ++ '\n' :: more),
      hsplit _ _ _ _ rfl, ⟨hmark, hname, hgap, List.forall_mem_nil _, htail, fun hmem => ?_,
        List.forall_mem_nil _⟩, fun x hx => (Option.some.inj hx).symm⟩
    exact hbreak (hline ▸ List.mem_append_right _ (List.mem_cons_of_mem ':' hmem))

end Heading

end Parts

end Rpy.Summaries

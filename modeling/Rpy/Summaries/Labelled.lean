/-
  Rpy.Summaries.Labelled
  ──────────────────────
  **LABELLED LINES** (`_SOURCE_BACKED_CLAIM_RE` and `_AMOUNT_CLAIM_RE` of
  `app/validation.py`) **IN THE HEADER OF A SUMMARY.**

  A line of the header is a bullet, a label, a colon and an inline text.
  The two patterns take the lines of their labels whole, with the text as
  the value, and skip the others.

    • `ReadsLabels`        — how the characters of the labels compare,
    • `steps_textBy`       — a literal text at a place,
    • `steps_claimLabel`, `steps_amountLabel` — which labels are read,
    • `reads_headerLine`, `skips_other` — a line of the header, and others.
-/
import Rpy.Foundation.RegexLanguage
import Rpy.Summaries.Headings
import Rpy.Summaries.Prose
import Rpy.Summaries.Validation

namespace Rpy.Summaries

open Rpy.Foundation
open Regex
open Validation

/-! ## §1. Literal texts. -/

/-- Does a text begin with a literal, character by character? -/
def startsBy (same : Char → Char → Bool) : List Char → List Char → Bool
  | [], _ => true
  | _ :: _, [] => false
  | x :: xs, y :: ys => same x y && startsBy same xs ys

theorem steps_oneOf_cons (r : Regex) (rs : List Regex) (c : Cursor) :
    steps (oneOf (r :: rs)) c = steps r c ++ steps (oneOf rs) c := by
  cases rs with
  | nil =>
      have hnone : steps (oneOf []) c = [] := by
        rw [oneOf, steps_char]
        cases hafter : c.after <;> simp [next, hafter]
      rw [hnone, List.append_nil]
      rfl
  | cons s rs => rfl

/-- A literal text is matched where the text begins with it. -/
theorem steps_literal (same : Char → Char → Bool) : ∀ (xs : List Char) (c : Cursor),
    steps (cat (xs.map fun x => .char (same x))) c =
      if startsBy same xs c.after then [c.skip xs.length] else [] := by
  intro xs
  induction xs with
  | nil =>
      intro c
      exact (congrArg (fun d => [d]) (skip_zero c)).symm
  | cons x xs ih =>
      intro c
      rw [List.map_cons, steps_cat_cons, steps_char]
      cases hafter : c.after with
      | nil =>
          have hnext : next (same x) c = false := by rw [next, hafter]; rfl
          rw [hnext]
          rfl
      | cons y rest =>
          have hskip : (c.skip 1).after = rest := by
            rw [Cursor.skip, hafter]
            rfl
          rw [next_of_after hafter, startsBy]
          cases hsame : same x y with
          | false => rfl
          | true =>
              rw [if_pos rfl, List.flatMap_singleton, ih, hskip, Bool.true_and, skip_skip,
                List.length_cons, Nat.add_comm 1]

theorem steps_textBy (same : Char → Char → Bool) (s : String) (c : Cursor) :
    steps (textBy same s) c =
      if startsBy same s.toList c.after then [c.skip s.toList.length] else [] :=
  steps_literal same s.toList c

/-! ## §2. The labels. -/

/-- The characters of the labels. -/
def inLabel (c : Char) : Bool :=
  c.toNat < 128 || ['Á', 'Ó', 'ã', 'â', 'ç'].contains c

/-- Letters of ASCII up to their case, and the others only themselves. -/
def sameLetter (x y : Char) : Bool := x.toLower == y.toLower

/-- What is assumed of the characters of the labels. -/
structure ReadsLabels (u : Unicode) : Prop where
  /-- `re.IGNORECASE` on them -/
  sameCase : ∀ x y, inLabel x = true → inLabel y = true → u.sameCase x y = sameLetter x y
  /-- a letter is no white space -/
  noSpace : u.isSpace 'Á' = false
  /-- and is not taken for white space -/
  noBlank : ∀ x y, inLabel x = true → u.isSpace x = false → u.isSpace y = true →
    u.sameCase x y = false
  /-- a heading begins with no digit -/
  noDigit : u.isDecimal '#' = false
  /-- the label is not that of a list -/
  area : ["assunto", "assuntos", "tag", "tags"].contains (normalizePartyName u "Área") = false

/-- `label` of `_SOURCE_BACKED_CLAIM_RE` -/
def claimLabel (u : Unicode) : Regex :=
  oneOf [word u "Área", .seq (word u "Assunto") (opt (word u "s")),
    .seq (word u "Tag") (opt (word u "s")), word u "Comarca", word u "Órgão julgador",
    word u "Classe", word u "Fase"]

/-- `label` of `_AMOUNT_CLAIM_RE` -/
def amountLabel (u : Unicode) : Regex := .seq (word u "Valor") (opt (word u " da causa"))

theorem sourceBackedClaimPattern_eq (u : Unicode) :
    sourceBackedClaimPattern u = labelledPattern u (claimLabel u) := rfl

theorem amountClaimPattern_eq (u : Unicode) :
    amountClaimPattern u = labelledPattern u (amountLabel u) := rfl

/-- The labels of the header. -/
def headerLabels : List String :=
  ["Processo", "Classe", "Tribunal"] ++ headerFields.map Prod.snd

section Labels

variable {u : Unicode}

/-- A literal without a colon is compared with the label only. -/
theorem startsBy_label (hu : ReadsLabels u) (rest : List Char) : ∀ {literal label : List Char},
    literal.all (fun x => inLabel x && x.toLower != ':') = true → label.all inLabel = true →
      startsBy u.sameCase literal (label ++ ':' :: rest) =
        startsBy sameLetter literal (label ++ [':']) := by
  intro literal
  induction literal with
  | nil =>
      intro label _ _
      rfl
  | cons x literal ih =>
      intro label hliteral hlabel
      rw [List.all_cons, Bool.and_eq_true, Bool.and_eq_true] at hliteral
      obtain ⟨⟨hx, hcolon⟩, hliteral⟩ := hliteral
      obtain _ | ⟨y, label⟩ := label
      · have hsame : sameLetter x ':' = false := by
          unfold sameLetter
          have hlower : ':'.toLower = ':' := by decide
          rw [hlower]
          exact beq_eq_false_iff_ne.2 (bne_iff_ne.1 hcolon)
        rw [List.nil_append, List.nil_append, startsBy, startsBy, hu.sameCase x ':' hx (by decide),
          hsame, Bool.false_and, Bool.false_and]
      · rw [List.all_cons, Bool.and_eq_true] at hlabel
        rw [List.cons_append, List.cons_append, startsBy, startsBy, hu.sameCase x y hx hlabel.1,
          ih hliteral hlabel.2]

/-- A literal at a label. -/
theorem steps_word (hu : ReadsLabels u) {c : Cursor} {label rest : List Char} {literal : String}
    (hliteral : literal.toList.all (fun x => inLabel x && x.toLower != ':') = true)
    (hlabel : label.all inLabel = true) (hafter : c.after = label ++ ':' :: rest) :
    steps (word u literal) c =
      if startsBy sameLetter literal.toList (label ++ [':']) then [c.skip literal.toList.length]
      else [] := by
  rw [word, steps_textBy, hafter, startsBy_label hu rest hliteral hlabel]

/-- The labels of the header that are read as claims. -/
def claimLabels : List String := ["Área", "Comarca", "Classe"]

theorem steps_claimLabel (hu : ReadsLabels u) {c : Cursor} {label : String} {rest : List Char}
    (h : label ∈ headerLabels) (hafter : c.after = label.toList ++ ':' :: rest) :
    steps (claimLabel u) c =
      if label ∈ claimLabels then [c.skip label.toList.length] else [] := by
  have hlabel : label.toList.all inLabel = true := by
    have hall : ∀ l ∈ headerLabels, l.toList.all inLabel = true := by decide
    exact hall label h
  -- A literal is matched where the label begins with it.
  have hword : ∀ literal ∈ ["Área", "Assunto", "Tag", "Comarca", "Órgão julgador", "Classe", "Fase"],
      steps (word u literal) c =
        if startsBy sameLetter literal.toList (label.toList ++ [':']) then
          [c.skip literal.toList.length]
        else [] := by
    intro literal hliteral
    have hall : ∀ l ∈ ["Área", "Assunto", "Tag", "Comarca", "Órgão julgador", "Classe", "Fase"],
        l.toList.all (fun x => inLabel x && x.toLower != ':') = true := by decide
    exact steps_word hu (hall literal hliteral) hlabel hafter
  -- Among the labels of the header three begin with a literal, each with its own.
  have hstarts : ∀ l ∈ headerLabels,
      startsBy sameLetter "Assunto".toList (l.toList ++ [':']) = false ∧
      startsBy sameLetter "Tag".toList (l.toList ++ [':']) = false ∧
      startsBy sameLetter "Órgão julgador".toList (l.toList ++ [':']) = false ∧
      startsBy sameLetter "Fase".toList (l.toList ++ [':']) = false ∧
      (startsBy sameLetter "Área".toList (l.toList ++ [':']) = true ↔ l = "Área") ∧
      (startsBy sameLetter "Comarca".toList (l.toList ++ [':']) = true ↔ l = "Comarca") ∧
      (startsBy sameLetter "Classe".toList (l.toList ++ [':']) = true ↔ l = "Classe") := by
    decide +kernel
  obtain ⟨hassunto, htag, horgao, hfase, harea, hcomarca, hclasse⟩ := hstarts label h
  have hnone : steps (oneOf []) c = [] := by
    rw [oneOf, steps_char]
    cases hc : c.after <;> simp [next, hc]
  unfold claimLabel
  simp only [steps_oneOf_cons, steps_seq, hnone]
  rw [hword "Área" (by simp), hword "Assunto" (by simp), hword "Tag" (by simp),
    hword "Comarca" (by simp), hword "Órgão julgador" (by simp), hword "Classe" (by simp),
    hword "Fase" (by simp), hassunto, htag, horgao, hfase]
  simp only [harea, hcomarca, hclasse]
  unfold claimLabels
  by_cases h1 : label = "Área"
  · subst h1
    rfl
  by_cases h2 : label = "Comarca"
  · subst h2
    rfl
  by_cases h3 : label = "Classe"
  · subst h3
    rfl
  · simp [h1, h2, h3]

theorem steps_amountLabel (hu : ReadsLabels u) {c : Cursor} {label : String} {rest : List Char}
    (h : label ∈ headerLabels) (hafter : c.after = label.toList ++ ':' :: rest) :
    steps (amountLabel u) c = if label = "Valor" then [c.skip label.toList.length] else [] := by
  have hlabel : label.toList.all inLabel = true := by
    have hall : ∀ l ∈ headerLabels, l.toList.all inLabel = true := by decide
    exact hall label h
  have hstarts : ∀ l ∈ headerLabels,
      (startsBy sameLetter "Valor".toList (l.toList ++ [':']) = true ↔ l = "Valor") := by
    decide +kernel
  unfold amountLabel
  rw [steps_seq, steps_word hu (by decide) hlabel hafter]
  simp only [hstarts label h]
  by_cases hvalor : label = "Valor"
  · subst hvalor
    rw [if_pos rfl, List.flatMap_singleton, steps_opt]
    have hskip : (c.skip "Valor".toList.length).after = [] ++ ':' :: rest := after_skip hafter
    rw [steps_word hu (by decide) rfl hskip]
    rfl
  · rw [if_neg hvalor, if_neg hvalor, List.flatMap_nil]

/-! ## §3. A line. -/

/-- The bullet of a labelled line. -/
def bullet (u : Unicode) : Regex := opt (.seq (set "-*") (spaces u))

/-- What follows the label. -/
def valuePart (u : Unicode) : Regex :=
  .seq (spaces u) (.seq (only ':') (.seq (spaces u)
    (.seq (.group "value" (plusLazy (.char (· != '\n')))) (closing u))))

theorem steps_labelled (label : Regex) (c : Cursor) : steps (labelledPattern u label) c =
    if atLineStart c.before then
      (steps (bullet u) c).flatMap fun d =>
        (steps label d).flatMap fun e =>
          steps (valuePart u) { e with groups := ("label", d.upTo e) :: e.groups }
    else [] := by
  have hpattern : labelledPattern u label =
      .seq .lineStart (.seq (bullet u) (.seq (.group "label" label) (valuePart u))) := rfl
  rw [hpattern, steps_seq, steps]
  unfold atLineStart
  split
  · rw [List.flatMap_singleton, steps_seq]
    refine congrArg (fun f => (steps (bullet u) c).flatMap f) (funext fun d => ?_)
    rw [steps_seq, steps, List.flatMap_map]
  · rfl

theorem startsLine_labelled (label : Regex) : StartsLine (labelledPattern u label) := by
  intro c hc
  rw [steps_labelled, hc]
  rfl

/-- A bullet is read with the blank after it, or without, or not at all. -/
theorem steps_bullet {c : Cursor} {x : Char} {rest : List Char} (hx : u.isSpace x = false)
    (hafter : c.after = '-' :: ' ' :: x :: rest) :
    steps (bullet u) c = [c.skip 2, c.skip 1, c] := by
  have hone : (c.skip 1).after = ' ' :: x :: rest := by
    rw [Cursor.skip, hafter]
    rfl
  have htwo : next u.isSpace ((c.skip 1).skip 1) = false := by
    rw [next, Cursor.skip, hone]
    exact hx
  have hspaces : steps (spaces u) (c.skip 1) = [c.skip 2, c.skip 1] := by
    have hblank : next u.isSpace (c.skip 1) = true := by
      rw [next_of_after hone]
      exact isSpace_blank
    rw [spaces, Regex.star, steps_star, hone, many_of_next hblank, if_pos rfl,
      many_of_not_next htwo, skip_skip]
    rfl
  have hset : steps (set "-*") c = [c.skip 1] := by
    unfold Regex.set
    rw [steps_char, next_of_after hafter]
    rfl
  rw [bullet, steps_opt, steps_seq, hset, List.flatMap_singleton, hspaces]
  rfl

/-- Without a bullet the label comes first. -/
theorem steps_bullet_none {c : Cursor} (h : next (fun x => "-*".toList.contains x) c = false) :
    steps (bullet u) c = [c] := by
  have hset : steps (set "-*") c = [] := by
    unfold Regex.set
    rw [steps_char, h]
    rfl
  rw [bullet, steps_opt, steps_seq, hset]
  rfl

/-- **The value of a line of the header is its text.** -/
theorem head?_valuePart {c : Cursor} {value rest : List Char} (hvalue : Inline u value)
    (hne : value ≠ []) (hafter : c.after = ':' :: ' ' :: (value ++ '\n' :: rest))
    (hrest : rest.head?.any (fun x => !u.isSpace x) = true) :
    (steps (valuePart u) c).head? =
      some { c.skip (2 + value.length) with groups := ("value", value) :: c.groups } := by
  have hcolon : next u.isSpace c = false := by
    rw [next_of_after hafter]
    exact u.isSpace_ascii ':' (by decide)
  have hone : (c.skip 1).after = [' '] ++ (value ++ '\n' :: rest) := by
    rw [Cursor.skip, hafter]
    rfl
  have htwo : (c.skip 2).after = value ++ '\n' :: rest := by
    rw [Cursor.skip, hafter]
    rfl
  have hend : (c.skip (2 + value.length)).after = '\n' :: rest := by
    rw [← skip_skip]
    exact after_skip htwo
  have hbreak : '\n' ∉ value := fun hmem =>
    absurd (hvalue.tidy.blank '\n' hmem isSpace_newline) (by decide)
  rw [valuePart, steps_seq, spaces, Regex.star, steps_star, many_of_not_next hcolon,
    List.flatMap_singleton, steps_seq, only, steps_char, next_of_after hafter,
    if_pos (beq_self_eq_true _), List.flatMap_singleton, steps_seq, steps_star]
  refine head?_many_greedy hone ?_ ?_ ?_ ?_
  · exact List.forall_mem_singleton.2 isSpace_blank
  · obtain _ | ⟨x, value⟩ := value
    · exact absurd rfl hne
    · exact hvalue.first x rfl
  · rw [hone, List.length_append]
    omega
  rw [skip_skip]
  show (steps (.seq (.group "value" _) (closing u)) (c.skip 2)).head? = _
  have hgroup : steps (.seq (.group "value" (plusLazy (.char (· != '\n')))) (closing u))
      (c.skip 2) = (steps (plusLazy (.char (· != '\n'))) (c.skip 2)).flatMap fun e =>
        steps (closing u) { e with groups := ("value", (c.skip 2).upTo e) :: e.groups } := by
    rw [steps_seq, steps, List.flatMap_map]
  rw [hgroup]
  refine head?_plus_lazy htwo hne ?_ ?_ ?_
  · intro x hx
    rw [bne_iff_ne]
    rintro rfl
    exact hbreak hx
  · intro k _ hk
    have hpart : (c.skip 2).after.drop k = value.drop k ++ '\n' :: rest := by
      rw [htwo, List.drop_append_of_le_length (Nat.le_of_lt hk)]
    refine closing_inside (value.drop k) hpart ?_ ?_ ?_
    · rw [Ne, List.drop_eq_nil_iff]
      omega
    · exact fun hmem => hbreak (List.mem_of_mem_drop hmem)
    · intro x hx
      rw [List.getLast?_drop, if_neg (by omega)] at hx
      exact hvalue.last x hx
  · have hupto : (c.skip 2).upTo ((c.skip 2).skip value.length) = value := by
      rw [Cursor.upTo, htwo]
      show (value ++ '\n' :: rest).take (_ + value.length - _) = value
      rw [Nat.add_sub_cancel_left, List.take_left]
    rw [hupto, skip_skip]
    obtain ⟨w, hw, hlength, hall, hline⟩ := closing_after (u := u)
      (c := { c.skip (2 + value.length) with groups := ("value", value) :: c.groups })
      (by rw [hend]; exact fun x hx => (Option.some.inj hx).symm)
    simp only [hend] at hlength hall hline
    -- the next line begins with no white space, so that the match ends with this one
    have hzero : w = 0 := by
      obtain _ | ⟨x, rest⟩ := rest
      · cases hrest
      have hx : u.isSpace x = false := by
        have hnot : (!u.isSpace x) = true := hrest
        rwa [Bool.not_eq_true'] at hnot
      obtain _ | _ | w := w
      · rfl
      · have hnewline := hline x rfl
        rw [hnewline, isSpace_newline] at hx
        cases hx
      · have hspace := hall x (by simp)
        rw [hx] at hspace
        cases hspace
    rw [hzero, skip_zero] at hw
    exact hw

/-- A line of the header. -/
def headerLine (entry : String × String) : List Char :=
  '-' :: ' ' :: (entry.1.toList ++ ':' :: ' ' :: entry.2.toList)

/-- What a label has before it is no white space. -/
theorem headerLabels_first (hu : ReadsLabels u) {label : String} (h : label ∈ headerLabels) :
    ∃ x rest, label.toList = x :: rest ∧ u.isSpace x = false := by
  have hall : ∀ l ∈ headerLabels, l.toList.head?.any (fun x =>
      decide (x = 'Á' ∨ (x.toNat < 128 ∧ asciiSpace x = false))) = true := by
    decide
  obtain ⟨x, hx, hcases⟩ := (Option.any_eq_true _ _).1 (hall label h)
  obtain ⟨rest, hrest⟩ : ∃ rest, label.toList = x :: rest := by
    cases hlist : label.toList with
    | nil =>
        rw [hlist] at hx
        cases hx
    | cons y rest =>
        rw [hlist] at hx
        obtain rfl := Option.some.inj hx
        exact ⟨rest, rfl⟩
  refine ⟨x, rest, hrest, ?_⟩
  rcases of_decide_eq_true hcases with rfl | ⟨hascii, hspace⟩
  · exact hu.noSpace
  · rw [u.isSpace_ascii x hascii]
    exact hspace

/-- A pattern of labels that reads some of those of the header, and nothing
at their bullets. -/
structure ReadsOf (u : Unicode) (label : Regex) (labels : List String) : Prop where
  none : ∀ c : Cursor, (∀ x ∈ c.after.head?, x ∈ ['-', ' ', '#', '<', '\n']) → steps label c = []
  some : ∀ (c : Cursor) (name : String) (rest : List Char), name ∈ headerLabels →
    c.after = name.toList ++ ':' :: rest →
      steps label c = if name ∈ labels then [c.skip name.toList.length] else []

/-- What the pattern makes of a line of the header. -/
def readLine (labels : List String) (entry : String × String) : Option Groups :=
  if entry.1 ∈ labels then
    .some [("value", entry.2.toList), ("label", entry.1.toList)]
  else .none

/-- **A line of the header is taken with its label and its value, or skipped.** -/
theorem reads_headerLine (hu : ReadsLabels u) {label : Regex} {labels : List String}
    (h : ReadsOf u label labels) {entry : String × String} (hlabel : entry.1 ∈ headerLabels)
    (hvalue : Inline u entry.2.toList) (hne : entry.1 ∈ labels → entry.2.toList ≠ []) :
    Reads (labelledPattern u label) (fun x => !u.isSpace x) (headerLine entry)
      (readLine labels entry) := by
  obtain ⟨name, value⟩ := entry
  obtain ⟨x, tail, hname, hx⟩ := headerLabels_first hu hlabel
  -- the places the label may begin at
  have hsteps : ∀ (c : Cursor) (rest : List Char), atLineStart c.before = true →
      c.after = headerLine (name, value) ++ '\n' :: rest →
        steps (labelledPattern u label) c =
          if name ∈ labels then
            steps (valuePart u) { c.skip (2 + name.toList.length) with
              groups := ("label", name.toList) :: c.groups }
          else [] := by
    intro c rest hstart hafter
    have hfull : c.after = '-' :: ' ' :: (name.toList ++ ':' :: (' ' :: (value.toList ++
        '\n' :: rest))) := by
      rw [hafter]
      simp only [headerLine, List.cons_append, List.append_assoc]
    have hbullet : c.after = '-' :: ' ' :: x :: (tail ++ ':' :: (' ' :: (value.toList ++
        '\n' :: rest))) := by
      rw [hfull, hname]
      rfl
    have htwo : (c.skip 2).after = name.toList ++ ':' :: (' ' :: (value.toList ++ '\n' :: rest)) := by
      rw [Cursor.skip, hfull]
      rfl
    have hnone : steps label (c.skip 1) = [] ∧ steps label c = [] := by
      constructor
      · refine h.none _ fun y hy => ?_
        rw [Cursor.skip, hbullet] at hy
        rw [← Option.some.inj hy]
        decide
      · refine h.none _ fun y hy => ?_
        rw [hbullet] at hy
        rw [← Option.some.inj hy]
        decide
    rw [steps_labelled, hstart, if_pos rfl, steps_bullet hx hbullet, List.flatMap_cons,
      List.flatMap_cons, List.flatMap_cons, hnone.1, hnone.2, h.some _ name _ hlabel htwo]
    by_cases hmem : name ∈ labels
    · have hupto : (c.skip 2).upTo ((c.skip 2).skip name.toList.length) = name.toList := by
        rw [Cursor.upTo, htwo]
        show List.take (_ + name.toList.length - _) _ = _
        rw [Nat.add_sub_cancel_left, List.take_left]
      rw [if_pos hmem, if_pos hmem, List.flatMap_singleton, hupto, skip_skip]
      simp only [List.flatMap_nil, List.append_nil]
      rfl
    · rw [if_neg hmem, if_neg hmem]
      rfl
  unfold readLine
  by_cases hmem : name ∈ labels
  · rw [if_pos hmem]
    intro c rest hstart hgroups hafter hrest
    rw [hsteps c rest hstart hafter, if_pos hmem]
    have hcolon : (c.skip (2 + name.toList.length)).after =
        ':' :: ' ' :: (value.toList ++ '\n' :: rest) := by
      have hfull : c.after = ('-' :: ' ' :: name.toList) ++ (':' :: ' ' :: (value.toList ++
          '\n' :: rest)) := by
        rw [hafter]
        simp only [headerLine, List.cons_append, List.append_assoc]
      have hskip := after_skip hfull
      rwa [List.length_cons, List.length_cons, Nat.add_assoc, Nat.add_comm] at hskip
    rw [head?_valuePart (c := { c.skip (2 + name.toList.length) with
      groups := ("label", name.toList) :: c.groups }) hvalue (hne hmem) hcolon hrest]
    have hlength : (headerLine (name, value)).length =
        2 + name.toList.length + (2 + value.toList.length) := by
      simp only [headerLine, List.length_cons, List.length_append]
      omega
    have hskip : c.skip (2 + name.toList.length + (2 + value.toList.length)) =
        (c.skip (2 + name.toList.length)).skip (2 + value.toList.length) := (skip_skip _ _ _).symm
    rw [hlength, hskip, hgroups]
    rfl
  · rw [if_neg hmem]
    intro c rest hstart hafter
    rw [hsteps c rest hstart hafter, if_neg hmem]

/-- A line that is not of this form, and not empty, is skipped. -/
theorem skips_other {label : Regex} {labels : List String} (h : ReadsOf u label labels)
    {line : List Char} (hline : ∀ x ∈ (line ++ ['\n']).head?, x ∈ ['#', '<', '\n']) :
    Skips (labelledPattern u label) line := by
  intro c rest hstart hafter
  have hhead : c.after.head? = (line ++ ['\n']).head? := by
    rw [hafter]
    cases line <;> rfl
  rw [← hhead] at hline
  have hbullet : next (fun x => "-*".toList.contains x) c = false := by
    unfold next
    cases hc : c.after.head? with
    | none => rfl
    | some x =>
        have hx := hline x hc
        simp only [List.mem_cons, List.not_mem_nil, or_false] at hx
        rcases hx with rfl | rfl | rfl <;> decide
  rw [steps_labelled, hstart, if_pos rfl, steps_bullet_none hbullet, List.flatMap_singleton,
    h.none c fun x hx => ?_]
  · rfl
  · have hx' := hline x hx
    simp only [List.mem_cons, List.not_mem_nil, or_false] at hx' ⊢
    tauto

/-- Nothing is read where a literal does not begin. -/
theorem steps_word_none (hu : ReadsLabels u) {c : Cursor} {literal : String}
    (hliteral : literal.toList.head?.any (fun x => inLabel x &&
      ['-', ' ', '#', '<', '\n'].all fun y => !sameLetter x y) = true)
    (h : ∀ x ∈ c.after.head?, x ∈ ['-', ' ', '#', '<', '\n']) : steps (word u literal) c = [] := by
  rw [word, steps_textBy]
  obtain ⟨x, xs, hlist⟩ : ∃ x xs, literal.toList = x :: xs := by
    cases hlist : literal.toList with
    | nil =>
        rw [hlist] at hliteral
        cases hliteral
    | cons x xs => exact ⟨x, xs, rfl⟩
  rw [hlist] at hliteral ⊢
  obtain ⟨hx, hnot⟩ := Bool.and_eq_true_iff.1 hliteral
  cases hafter : c.after with
  | nil => rfl
  | cons y rest =>
      rw [hafter] at h
      have hy := h y rfl
      have hin : inLabel y = true := by
        simp only [List.mem_cons, List.not_mem_nil, or_false] at hy
        rcases hy with rfl | rfl | rfl | rfl | rfl <;> decide
      have hsame : sameLetter x y = false := by
        have hall := List.all_eq_true.1 hnot y hy
        rwa [Bool.not_eq_true'] at hall
      rw [startsBy, hu.sameCase x y hx hin, hsame]
      rfl

theorem readsOf_claimLabel (hu : ReadsLabels u) : ReadsOf u (claimLabel u) claimLabels where
  none c h := by
    have hnone : steps (oneOf []) c = [] := by
      rw [oneOf, steps_char]
      cases hc : c.after <;> simp [next, hc]
    unfold claimLabel
    simp only [steps_oneOf_cons, steps_seq, hnone]
    rw [steps_word_none hu (by decide) h, steps_word_none hu (by decide) h,
      steps_word_none hu (by decide) h, steps_word_none hu (by decide) h,
      steps_word_none hu (by decide) h, steps_word_none hu (by decide) h,
      steps_word_none hu (by decide) h]
    rfl
  some _ _ _ h hafter := steps_claimLabel hu h hafter

theorem readsOf_amountLabel (hu : ReadsLabels u) : ReadsOf u (amountLabel u) ["Valor"] where
  none c h := by
    unfold amountLabel
    rw [steps_seq, steps_word_none hu (by decide) h]
    rfl
  some c name rest h hafter := by
    rw [steps_amountLabel hu h hafter]
    simp only [List.mem_singleton]

end Labels

end Rpy.Summaries

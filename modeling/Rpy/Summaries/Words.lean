/-
  Rpy.Summaries.Words
  ───────────────────
  **THE WORDS OF A TEXT** (`_normalize_party_name` of `app/validation.py`).

  A text is folded character by character and cut into words, and a value is
  looked for among them.  White space at its ends or between its words makes
  no difference, and a character that is folded to itself and is in no word
  cuts a text into two.

    • `FoldsByCharacter`   — folding a text is folding its characters,
    • `backedBy_iff`       — a value is backed where its words stand in a row,
    • `wordsOf_inlineText` — an inline text has the words of the text,
    • `wordsOf_break`      — the words around a character of no word.
-/
import Rpy.Foundation.RegexLanguage
import Rpy.Summaries.Headings
import Rpy.Summaries.Validation

namespace Rpy.Summaries

open Rpy.Foundation
open Validation

/-! ## §1. Folding. -/

/-- `unicodedata.normalize("NFKD", text)` without its marks, in folded case. -/
def folded (u : Unicode) (cs : List Char) : List Char :=
  (u.casefold (String.ofList
    ((u.nfkd (String.ofList cs)).toList.filter fun c => !u.isCombining c))).toList

/-- A text is folded character by character: decomposing it puts only marks in
another order, and the case is folded without regard to what is around. -/
structure FoldsByCharacter (u : Unicode) : Prop where
  append : ∀ cs ds, folded u (cs ++ ds) = folded u cs ++ folded u ds
  /-- white space stays, as something that is in no word -/
  blank : ∀ c, u.isSpace c = true → folded u [c] ≠ [] ∧ ∀ d ∈ folded u [c], u.isWord d = false

/-- The words of a text. -/
def wordsOf (u : Unicode) (cs : List Char) : List (List Char) :=
  wordsFrom u.isWord [] (folded u cs)

/-- The words in the small database, one step after the other. -/
theorem wordsOf_ascii (cs : List Char) : wordsOf .ascii cs =
    wordsFrom Unicode.ascii.isWord [] (((cs.flatMap decomposition).filter fun c =>
      !Unicode.ascii.isCombining c).map Char.toLower) := by
  unfold wordsOf folded
  simp only [Unicode.ascii, Python.ascii, String.toList_ofList]

/-- The words of a title. -/
theorem wordsOf_latin {u : Unicode} {s : String} (h : Latin s) :
    wordsOf u s.toList = wordsOf .ascii s.toList := by
  unfold wordsOf folded
  rw [String.ofList_toList]
  exact words_latin h

theorem normalizePartyName_eq (u : Unicode) (value : String) : normalizePartyName u value =
    String.ofList (List.intercalate [' '] (wordsOf u value.toList)) := by
  unfold normalizePartyName wordsOf folded
  rw [String.ofList_toList]

section Words

variable {isWord : Char → Bool}

/-- Words end at a character of no word. -/
theorem wordsFrom_break {c : Char} (hc : isWord c = false) (bs : List Char) :
    ∀ (as word : List Char),
      wordsFrom isWord word (as ++ c :: bs) = wordsFrom isWord word as ++ wordsFrom isWord [] bs := by
  intro as
  induction as with
  | nil =>
      intro word
      have hc' : ¬ isWord c = true := by simp [hc]
      rw [List.nil_append, wordsFrom, wordsFrom, if_neg hc']
      split <;> rfl
  | cons a as ih =>
      intro word
      rw [List.cons_append, wordsFrom, wordsFrom]
      split
      · exact ih _
      split
      · exact ih _
      · rw [ih, List.cons_append]

/-- A word has a character, and only characters of words. -/
theorem mem_wordsFrom : ∀ {cs word : List Char}, (∀ c ∈ word, isWord c = true) →
    ∀ w ∈ wordsFrom isWord word cs, w ≠ [] ∧ ∀ c ∈ w, isWord c = true := by
  intro cs
  induction cs with
  | nil =>
      intro word hword w hw
      rw [wordsFrom] at hw
      split at hw
      · cases hw
      · next hne =>
          rw [List.mem_singleton.1 hw]
          exact ⟨by simpa using hne, fun c hc => hword c (List.mem_reverse.1 hc)⟩
  | cons c cs ih =>
      intro word hword w hw
      rw [wordsFrom] at hw
      split at hw
      · next hc => exact ih (List.forall_mem_cons.2 ⟨hc, hword⟩) w hw
      split at hw
      · exact ih (List.forall_mem_nil _) w hw
      · next hne =>
          rcases List.mem_cons.1 hw with rfl | hw
          · exact ⟨by simpa using hne, fun d hd => hword d (List.mem_reverse.1 hd)⟩
          · exact ih (List.forall_mem_nil _) w hw

end Words

/-! ## §2. Consecutive words. -/

theorem containsText_iff {needle text : List Char} :
    containsText needle text = true ↔ needle <:+: text := by
  unfold containsText
  rw [List.any_eq_true, List.infix_iff_prefix_suffix]
  simp only [List.mem_tails, List.isPrefixOf_iff_prefix]
  exact ⟨fun ⟨t, hsuffix, hprefix⟩ => ⟨t, hprefix, hsuffix⟩,
    fun ⟨t, hprefix, hsuffix⟩ => ⟨t, hsuffix, hprefix⟩⟩

/-- Words with a blank before each of them, and one after the last. -/
def spaced (words : List (List Char)) : List Char := words.flatMap (' ' :: ·) ++ [' ']

theorem spaced_cons (w : List Char) (words : List (List Char)) :
    spaced (w :: words) = ' ' :: (w ++ spaced words) := by
  simp only [spaced, List.flatMap_cons, List.cons_append, List.append_assoc]

theorem spaced_eq {words : List (List Char)} (h : words ≠ []) :
    spaced words = ' ' :: List.intercalate [' '] words ++ [' '] := by
  induction words with
  | nil => exact absurd rfl h
  | cons w words ih =>
      obtain _ | ⟨v, words⟩ := words
      · simp [spaced, List.intercalate]
      · rw [spaced_cons, ih (List.cons_ne_nil v words)]
        simp [List.intercalate, List.intersperse]

theorem spaced_head (words : List (List Char)) : ∃ rest, spaced words = ' ' :: rest := by
  obtain _ | ⟨w, words⟩ := words
  · exact ⟨[], rfl⟩
  · exact ⟨_, spaced_cons w words⟩

/-- A word of a text: it is not empty, and has no blank. -/
def IsWordText (w : List Char) : Prop := w ≠ [] ∧ ' ' ∉ w

/-- A word ends at the first blank. -/
theorem word_prefix {w v x y : List Char} (hw : ' ' ∉ w) (hv : ' ' ∉ v)
    (h : w ++ ' ' :: x <+: v ++ ' ' :: y) : w = v ∧ ' ' :: x <+: ' ' :: y := by
  obtain ⟨more, hmore⟩ := h
  rw [List.append_assoc, List.cons_append] at hmore
  have htake : ∀ {a b : List Char}, ' ' ∉ a → (a ++ ' ' :: b).takeWhile (· != ' ') = a := by
    intro a b ha
    have hnot : ∀ c ∈ a, (c != ' ') = true := by
      intro c hc
      rw [bne_iff_ne]
      rintro rfl
      exact ha hc
    rw [List.takeWhile_append_of_pos hnot]
    simp
  have hwv := congrArg (List.takeWhile (· != ' ')) hmore
  rw [htake hw, htake hv] at hwv
  subst hwv
  exact ⟨rfl, more, List.append_cancel_left hmore⟩

theorem prefix_of_spaced {ws vs : List (List Char)} (hws : ∀ w ∈ ws, IsWordText w)
    (hvs : ∀ v ∈ vs, IsWordText v) (h : spaced ws <+: spaced vs) : ws <+: vs := by
  induction ws generalizing vs with
  | nil => exact List.nil_prefix
  | cons w ws ih =>
      obtain ⟨hw, hws⟩ := List.forall_mem_cons.1 hws
      obtain _ | ⟨v, vs⟩ := vs
      · have hlength := h.length_le
        have hpos := List.length_pos_iff.2 hw.1
        rw [spaced_cons, List.length_cons, List.length_append] at hlength
        change _ ≤ 1 at hlength
        omega
      · obtain ⟨hv, hothers⟩ := List.forall_mem_cons.1 hvs
        obtain ⟨x, hx⟩ := spaced_head ws
        obtain ⟨y, hy⟩ := spaced_head vs
        rw [spaced_cons, spaced_cons, List.cons_prefix_cons, hx, hy] at h
        obtain ⟨rfl, hrest⟩ := word_prefix hw.2 hv.2 h.2
        rw [← hx, ← hy] at hrest
        exact List.cons_prefix_cons.2 ⟨rfl, ih hws hothers hrest⟩

/-- What begins with a blank does not begin inside a word. -/
theorem infix_after_word {needle v rest : List Char} (hneedle : needle.head? = some ' ')
    (hv : ' ' ∉ v) (h : needle <:+: v ++ rest) : needle <:+: rest := by
  induction v with
  | nil => exact h
  | cons x v ih =>
      rw [List.mem_cons, not_or] at hv
      rcases List.infix_cons_iff.1 h with hprefix | hinfix
      · obtain ⟨more, hmore⟩ := hprefix
        obtain _ | ⟨y, needle⟩ := needle
        · cases hneedle
        · obtain rfl := Option.some.inj hneedle
          exact absurd (List.cons.inj hmore).1 hv.1
      · exact ih hv.2 hinfix

/-- **A text has the words of another in a row where its list of words has them.** -/
theorem infix_spaced_iff {ws vs : List (List Char)} (hne : ws ≠ [])
    (hws : ∀ w ∈ ws, IsWordText w) (hvs : ∀ v ∈ vs, IsWordText v) :
    spaced ws <:+: spaced vs ↔ ws <:+: vs := by
  have hhead : (spaced ws).head? = some ' ' := by
    obtain ⟨rest, hrest⟩ := spaced_head ws
    rw [hrest]
    rfl
  constructor
  · intro h
    induction vs with
    | nil =>
        obtain _ | ⟨w, ws⟩ := ws
        · exact absurd rfl hne
        · have hlength := h.length_le
          have hpos := List.length_pos_iff.2 (hws w List.mem_cons_self).1
          rw [spaced_cons, List.length_cons, List.length_append] at hlength
          change _ ≤ 1 at hlength
          omega
    | cons v vs ih =>
        obtain ⟨hv, hvs'⟩ := List.forall_mem_cons.1 hvs
        by_cases hprefix : spaced ws <+: spaced (v :: vs)
        · exact (prefix_of_spaced hws hvs hprefix).isInfix
        · rw [spaced_cons] at h hprefix
          have hinside := (List.infix_cons_iff.1 h).resolve_left hprefix
          exact (ih hvs' (infix_after_word hhead hv.2 hinside)).trans (List.suffix_cons v vs).isInfix
  · rintro ⟨before, after, rfl⟩
    obtain ⟨more, hmore⟩ := spaced_head after
    refine ⟨before.flatMap (' ' :: ·), more, ?_⟩
    have hsplit : spaced (before ++ ws ++ after) =
        before.flatMap (' ' :: ·) ++ (ws.flatMap (' ' :: ·) ++ spaced after) := by
      unfold spaced
      simp only [List.flatMap_append, List.append_assoc]
    rw [hsplit, hmore]
    unfold spaced
    simp only [List.append_assoc, List.cons_append, List.nil_append]

section Backed

variable {u : Unicode}

theorem isWordText_wordsOf (cs : List Char) : ∀ w ∈ wordsOf u cs, IsWordText w := by
  intro w hw
  obtain ⟨hne, hall⟩ := mem_wordsFrom (List.forall_mem_nil _) w hw
  refine ⟨hne, fun hmem => ?_⟩
  have hblank := hall ' ' hmem
  rw [u.isWord_ascii ' ' (by decide)] at hblank
  exact absurd hblank (by decide)

/-- **A value is backed by a source that has its words in a row.** -/
theorem backedBy_iff {source value : String} :
    backedBy u source value = true ↔ wordsOf u value.toList <:+: wordsOf u source.toList := by
  unfold backedBy containsWords
  rw [Bool.or_eq_true, beq_iff_eq, containsText_iff, normalizePartyName_eq, normalizePartyName_eq,
    String.toList_ofList, String.toList_ofList]
  -- The normalised name is empty if and only if it has no words, since a word has a character
  -- that is no blank.
  have hempty : String.ofList (List.intercalate [' '] (wordsOf u value.toList)) = "" ↔
      wordsOf u value.toList = [] := by
    constructor
    · intro h
      have hlist := congrArg String.toList h
      rw [String.toList_ofList] at hlist
      by_contra hne
      obtain ⟨w, hw⟩ := List.exists_mem_of_ne_nil _ hne
      obtain ⟨c, hc⟩ := List.exists_mem_of_ne_nil _ (isWordText_wordsOf value.toList w hw).1
      have hlength := congrArg List.length (spaced_eq hne)
      have hmem : c ∈ spaced (wordsOf u value.toList) :=
        List.mem_append_left _ (List.mem_flatMap.2 ⟨w, hw, List.mem_cons_of_mem _ hc⟩)
      rw [spaced_eq hne, hlist] at hmem
      have hblank : c = ' ' := by simpa using hmem
      exact (isWordText_wordsOf value.toList w hw).2 (hblank ▸ hc)
    · intro h
      rw [h]
      rfl
  rw [hempty]
  by_cases hvalue : wordsOf u value.toList = []
  · rw [hvalue]
    exact ⟨fun _ => (List.nil_prefix).isInfix, fun _ => .inl rfl⟩
  rw [← spaced_eq hvalue, or_iff_right hvalue]
  by_cases hsource : wordsOf u source.toList = []
  · rw [hsource]
    -- A source without words is two blanks, too short for any word.
    have hblanks : spaced (wordsOf u value.toList) <:+: ' ' :: List.intercalate [' '] [] ++ [' '] →
        False := by
      intro h
      obtain ⟨w, words, hwords⟩ := List.exists_cons_of_ne_nil hvalue
      have hw := isWordText_wordsOf (u := u) value.toList w (by rw [hwords]; exact List.mem_cons_self)
      have hlength := h.length_le
      have hpos := List.length_pos_iff.2 hw.1
      rw [hwords, spaced_cons, List.length_cons, List.length_append] at hlength
      have hrest : 0 < (spaced words).length := by
        rw [spaced, List.length_append]
        exact Nat.succ_pos _
      change _ ≤ 2 at hlength
      omega
    exact ⟨fun h => (hblanks h).elim, fun h => absurd (List.infix_nil.1 h) hvalue⟩
  · rw [← spaced_eq hsource]
    exact infix_spaced_iff hvalue (isWordText_wordsOf _) (isWordText_wordsOf _)

end Backed

/-! ## §3. White space. -/

section Words

variable {p : Char → Bool}

/-- The word so far, if it has a character. -/
def flush (word : List Char) : List (List Char) := if word.isEmpty then [] else [word.reverse]

/-- Characters of no word end the word so far. -/
theorem wordsFrom_nonWords {ns : List Char} (hne : ns ≠ []) (hns : ∀ c ∈ ns, p c = false)
    (rest : List Char) : ∀ word : List Char,
      wordsFrom p word (ns ++ rest) = flush word ++ wordsFrom p [] rest := by
  induction ns with
  | nil => exact absurd rfl hne
  | cons c ns ih =>
      intro word
      obtain ⟨hc, hothers⟩ := List.forall_mem_cons.1 hns
      have htail : wordsFrom p [] (ns ++ rest) = wordsFrom p [] rest := by
        by_cases hnil : ns = []
        · rw [hnil, List.nil_append]
        · rw [ih hnil hothers]
          rfl
      have hnot : ¬ p c = true := by simp [hc]
      rw [List.cons_append, wordsFrom, if_neg hnot, htail]
      unfold flush
      split <;> rfl

/-- What comes after some characters decides alone how the words go on. -/
theorem wordsFrom_congr_append {xs ys : List Char}
    (h : ∀ word, wordsFrom p word xs = wordsFrom p word ys) (front : List Char) :
    ∀ word, wordsFrom p word (front ++ xs) = wordsFrom p word (front ++ ys) := by
  induction front with
  | nil => exact h
  | cons c front ih =>
      intro word
      rw [List.cons_append, List.cons_append, wordsFrom, wordsFrom, ih, ih]

theorem wordsFrom_end (word : List Char) : wordsFrom p word [] = flush word := rfl

end Words

section Folded

variable {u : Unicode}

theorem folded_nil : folded u [] = [] := by
  unfold folded
  rw [u.nfkd_latin _ (by simp), String.toList_ofList, String.toList_ofList, List.flatMap_nil,
    List.filter_nil, u.casefold_ascii _ (by simp), String.toList_ofList, String.toList_ofList]
  rfl

theorem wordsOf_nil : wordsOf u [] = [] := by
  unfold wordsOf
  rw [folded_nil]
  rfl

/-- White space is folded to characters of no word. -/
theorem folded_spaces (hu : FoldsByCharacter u) {cs : List Char}
    (h : ∀ c ∈ cs, u.isSpace c = true) : ∀ d ∈ folded u cs, u.isWord d = false := by
  induction cs with
  | nil =>
      rw [folded_nil]
      exact List.forall_mem_nil _
  | cons c cs ih =>
      obtain ⟨hc, hothers⟩ := List.forall_mem_cons.1 h
      have happend := hu.append [c] cs
      rw [List.singleton_append] at happend
      rw [happend]
      exact List.forall_mem_append.2 ⟨(hu.blank c hc).2, ih hothers⟩

/-- White space before a text is in no word of it, -/
theorem wordsOf_leading (hu : FoldsByCharacter u) {blanks : List Char}
    (h : ∀ c ∈ blanks, u.isSpace c = true) (cs : List Char) :
    wordsOf u (blanks ++ cs) = wordsOf u cs := by
  unfold wordsOf
  rw [hu.append]
  by_cases hnil : folded u blanks = []
  · rw [hnil, List.nil_append]
  · rw [wordsFrom_nonWords hnil (folded_spaces hu h)]
    rfl

/-- and white space after it. -/
theorem wordsOf_trailing (hu : FoldsByCharacter u) {blanks : List Char}
    (h : ∀ c ∈ blanks, u.isSpace c = true) (cs : List Char) :
    wordsOf u (cs ++ blanks) = wordsOf u cs := by
  have hend : ∀ word, wordsFrom u.isWord word (folded u blanks) = wordsFrom u.isWord word [] := by
    intro word
    by_cases hnil : folded u blanks = []
    · rw [hnil]
    · have hflush := wordsFrom_nonWords hnil (folded_spaces hu h) [] word
      rw [List.append_nil] at hflush
      rw [hflush]
      exact List.append_nil _
  unfold wordsOf
  rw [hu.append, wordsFrom_congr_append hend, List.append_nil]

theorem wordsOf_stripChars (hu : FoldsByCharacter u) (cs : List Char) :
    wordsOf u (u.stripChars cs) = wordsOf u cs := by
  unfold Platform.stripChars
  obtain ⟨after, hafter⟩ := List.rdropWhile_prefix u.isSpace (cs.dropWhile u.isSpace)
  have hspaces : ∀ c ∈ after, u.isSpace c = true := by
    have htake : (cs.dropWhile u.isSpace).rdropWhile u.isSpace ++
        (cs.dropWhile u.isSpace).rtakeWhile u.isSpace = cs.dropWhile u.isSpace :=
      List.rdropWhile_append_rtakeWhile
    have heq : after = (cs.dropWhile u.isSpace).rtakeWhile u.isSpace :=
      List.append_cancel_left (hafter.trans htake.symm)
    rw [heq]
    exact fun c hc => List.mem_rtakeWhile_imp hc
  have hfront : ∀ c ∈ cs.takeWhile u.isSpace, u.isSpace c = true := fun c hc =>
    List.mem_takeWhile_imp hc
  calc wordsOf u ((cs.dropWhile u.isSpace).rdropWhile u.isSpace)
      = wordsOf u ((cs.dropWhile u.isSpace).rdropWhile u.isSpace ++ after) :=
        (wordsOf_trailing hu hspaces _).symm
    _ = wordsOf u (cs.dropWhile u.isSpace) := by rw [hafter]
    _ = wordsOf u (cs.takeWhile u.isSpace ++ cs.dropWhile u.isSpace) :=
        (wordsOf_leading hu hfront _).symm
    _ = wordsOf u cs := by rw [List.takeWhile_append_dropWhile]

/-- One blank or more: the words are the same. -/
theorem wordsFrom_squeeze (hu : FoldsByCharacter u) (cs : List Char) :
    (∀ word, wordsFrom u.isWord word (folded u (squeeze u false cs)) =
      wordsFrom u.isWord word (folded u cs)) ∧
    wordsFrom u.isWord [] (folded u (squeeze u true cs)) =
      wordsFrom u.isWord [] (folded u cs) := by
  induction cs with
  | nil => exact ⟨fun _ => rfl, rfl⟩
  | cons c cs ih =>
      have hcons : folded u (c :: cs) = folded u [c] ++ folded u cs := hu.append [c] cs
      by_cases hc : u.isSpace c = true
      · obtain ⟨hne, hnone⟩ := hu.blank c hc
        obtain ⟨hblank, hblanks⟩ := hu.blank ' ' isSpace_blank
        have hspace : folded u (' ' :: squeeze u true cs) =
            folded u [' '] ++ folded u (squeeze u true cs) := hu.append [' '] _
        constructor
        · intro word
          rw [squeeze, if_pos hc, if_neg Bool.false_ne_true, hspace, hcons,
            wordsFrom_nonWords hblank hblanks, wordsFrom_nonWords hne hnone, ih.2]
        · rw [squeeze, if_pos hc, if_pos rfl, hcons, wordsFrom_nonWords hne hnone, ih.2]
          rfl
      · have hkeep : ∀ inRun, squeeze u inRun (c :: cs) = c :: squeeze u false cs := by
          intro inRun
          rw [squeeze, if_neg hc]
        have hkept : folded u (c :: squeeze u false cs) =
            folded u [c] ++ folded u (squeeze u false cs) := hu.append [c] _
        refine ⟨fun word => ?_, ?_⟩
        · rw [hkeep, hkept, hcons, wordsFrom_congr_append ih.1]
        · rw [hkeep, hkept, hcons, wordsFrom_congr_append ih.1]

/-- **An inline text has the words of the text.** -/
theorem wordsOf_inlineText (hu : FoldsByCharacter u) (s : String) :
    wordsOf u (inlineText u s).toList = wordsOf u s.toList := by
  have htext : (inlineText u s).toList = u.stripChars (squeeze u false s.toList) := by
    unfold inlineText
    rw [u.strip_eq, String.toList_ofList, String.toList_ofList]
  rw [htext, wordsOf_stripChars hu]
  exact (wordsFrom_squeeze hu s.toList).1 []

end Folded

/-! ## §4. Characters of no word. -/

section Breaks

variable {u : Unicode}

/-- A character that is in no word and is folded to itself. -/
def Breaks (u : Unicode) (c : Char) : Prop := folded u [c] = [c] ∧ u.isWord c = false

/-- A character of ASCII that is no letter and no digit. -/
theorem breaks_of_ascii {c : Char} (hascii : c.toNat < 128) (hself : decomposition c = [c])
    (hlower : c.toLower = c) (hword : (c.isAlphanum || c == '_') = false) : Breaks u c := by
  constructor
  · unfold folded
    rw [u.nfkd_latin _ (by simp [hascii]), String.toList_ofList, String.toList_ofList,
      List.flatMap_singleton, hself]
    have hmark := u.isCombining_latin.2.2 c hascii
    have hkept : [c].filter (fun d => !u.isCombining d) = [c] := by simp [hmark]
    rw [hkept, u.casefold_ascii _ (by simp [hascii]), String.toList_ofList, String.toList_ofList,
      List.map_singleton, hlower]
  · rw [u.isWord_ascii c hascii]
    exact hword

/-- A character that is folded to itself comes first in what is folded. -/
theorem folded_cons (hu : FoldsByCharacter u) {c : Char} (hc : folded u [c] = [c])
    (cs : List Char) : folded u (c :: cs) = c :: folded u cs := by
  have happend := hu.append [c] cs
  rw [hc] at happend
  exact happend

/-- **The words around a character of no word.** -/
theorem wordsOf_break (hu : FoldsByCharacter u) {c : Char} (hc : Breaks u c) (as bs : List Char) :
    wordsOf u (as ++ c :: bs) = wordsOf u as ++ wordsOf u bs := by
  unfold wordsOf
  rw [hu.append, folded_cons hu hc.1, wordsFrom_break hc.2]

/-- The words of a piece are words in a row of the whole. -/
theorem wordsOf_piece (hu : FoldsByCharacter u) {ok : Char → Bool} {part whole : List Char}
    (hok : ∀ c, ok c = true → Breaks u c) (h : Regex.Piece ok part whole) :
    wordsOf u part <:+: wordsOf u whole := by
  obtain ⟨front, back, rfl, hfront, hback⟩ := h
  have hafter : ∃ more, wordsOf u (part ++ back) = wordsOf u part ++ more := by
    cases back with
    | nil => exact ⟨[], by rw [List.append_nil, List.append_nil]⟩
    | cons d back => exact ⟨_, wordsOf_break hu (hok d (hback d rfl)) part back⟩
  obtain ⟨more, hmore⟩ := hafter
  rcases List.eq_nil_or_concat' front with rfl | ⟨front, c, rfl⟩
  · exact ⟨[], more, by rw [List.nil_append, List.nil_append, hmore]⟩
  · have hc := hok c (hfront c (by rw [List.getLast?_concat]; rfl))
    refine ⟨wordsOf u front, more, ?_⟩
    rw [List.append_assoc front, List.singleton_append, wordsOf_break hu hc, hmore,
      List.append_assoc]

end Breaks

end Rpy.Summaries

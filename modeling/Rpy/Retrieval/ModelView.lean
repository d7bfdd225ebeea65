/-
  Rpy.Retrieval.ModelView
  ───────────────────────
  **WHAT A MODEL SEES OF A TEXT** (`app/unicode_security.py`).

  The text is normalised.  A character that is not displayed, and a letter
  of another script in the middle of a word, are written out as a code point
  and a name between brackets.

    • `mixedScriptPositions` — the letters of another script,
    • `modelViewText`        — `model_view_text`,
    • `modelViewValue`       — `model_view_value`,
    • `modelViewText_clean`  — what it leaves, it leaves again.
-/
import Rpy.Platform
import Mathlib.Data.Bool.AllAny
import Mathlib.Data.List.Dedup
import Rpy.Foundation.Runs
import Rpy.Foundation.Sha256

namespace Rpy.Retrieval

open Rpy.Foundation

/-! ## §1. Characters. -/

/-- What `unicode_security` reads of `unicodedata` and of `str`. -/
structure CharacterDatabase extends Unicode where
  /-- `unicodedata.normalize("NFC", text)` -/
  nfc : String → String
  /-- `unicodedata.category(character) == "Cf"` -/
  isFormat : Char → Bool
  /-- `str.isalpha` of a character -/
  isAlpha : Char → Bool
  /-- `unicodedata.name`, of a character that has one -/
  name : Char → Option String
  /-- there is no format character in ASCII -/
  isFormat_ascii : ∀ c, c.toNat < 128 → isFormat c = false
  /-- the letters of ASCII -/
  isAlpha_ascii : ∀ c, c.toNat < 128 → isAlpha c = c.isAlpha
  /-- the names are in ASCII -/
  name_ascii : ∀ c n, name c = some n → ∀ d ∈ n.toList, d.toNat < 128
  /-- the two brackets are punctuation -/
  brackets : ∀ c, c = '⟦' ∨ c = '⟧' →
    isFormat c = false ∧ isAlpha c = false ∧ isCombining c = false

/-- `_BIDI_CONTROL_CODEPOINTS`, as ranges. -/
def bidiControlCodepoints : List (Nat × Nat) :=
  [(0x061C, 0x061C), (0x200E, 0x200E), (0x200F, 0x200F), (0x202A, 0x202E), (0x2066, 0x2069)]

/-- `_ZERO_WIDTH_CODEPOINTS`, as ranges. -/
def zeroWidthCodepoints : List (Nat × Nat) :=
  [(0x200B, 0x200B), (0x200C, 0x200C), (0x200D, 0x200D), (0x2060, 0x2060), (0xFEFF, 0xFEFF)]

/-- `_EXTRA_DEFAULT_IGNORABLE_CODEPOINTS` and `_EXTRA_DEFAULT_IGNORABLE_RANGES`. -/
def extraDefaultIgnorable : List (Nat × Nat) :=
  [(0x034F, 0x034F), (0x180B, 0x180F), (0xFE00, 0xFE0F), (0xE0100, 0xE01EF)]

/-- `any(start <= codepoint <= end for start, end in ranges)` -/
def inRanges (codepoint : Nat) (ranges : List (Nat × Nat)) : Bool :=
  ranges.any fun range => range.1 ≤ codepoint && codepoint ≤ range.2

inductive Script where
  | latin | greek | cyrillic | armenian | hebrew | arabic
deriving Repr, DecidableEq

/-- `_SCRIPT_RANGES`. -/
def scriptRanges : List (Script × List (Nat × Nat)) :=
  [(.latin, [(0x0041, 0x024F), (0x1E00, 0x1EFF)]),
   (.greek, [(0x0370, 0x03FF), (0x1F00, 0x1FFF)]),
   (.cyrillic, [(0x0400, 0x052F), (0x2DE0, 0x2DFF), (0xA640, 0xA69F)]),
   (.armenian, [(0x0530, 0x058F)]),
   (.hebrew, [(0x0590, 0x05FF)]),
   (.arabic, [(0x0600, 0x06FF), (0x0750, 0x077F), (0x08A0, 0x08FF), (0xFB50, 0xFDFF),
     (0xFE70, 0xFEFF)])]

/-- The scripts in the order of their names. -/
def Script.sorted : List Script := [.arabic, .armenian, .cyrillic, .greek, .hebrew, .latin]

/-- `"Latin" if "Latin" in scripts else sorted(scripts)[0]` -/
def primaryScript (scripts : List Script) : Option Script :=
  if Script.latin ∈ scripts then some .latin else Script.sorted.find? fun s => s ∈ scripts

section Text

variable (u : CharacterDatabase)

/-- `_is_default_ignorable`. -/
def isDefaultIgnorable (c : Char) : Bool :=
  u.isFormat c || inRanges c.toNat extraDefaultIgnorable

/-- `_script`. -/
def script (c : Char) : Option Script :=
  if u.isAlpha c then
    (scriptRanges.find? fun entry => inRanges c.toNat entry.2).map Prod.fst
  else none

/-- `character.isalpha() or _combining(character)` -/
def inToken (c : Char) : Bool := u.isAlpha c || u.isCombining c

/-- `flush`: the positions of a token that are not of its first script. -/
def flush (token : List (Char × Nat)) : List Nat :=
  let scripts := (token.filterMap fun item => script u item.1).dedup
  if scripts.length < 2 then []
  else
    (token.filter fun item =>
      script u item.1 ≠ none ∧ script u item.1 ≠ primaryScript scripts).map Prod.snd

/-- `_mixed_script_positions`. -/
def mixedScriptPositions (text : String) : List Nat :=
  foldRuns (fun item => inToken u item.1) (flush u) [] text.toList.zipIdx

/-! ## §2. The text and its flags. -/

/-- `f"{codepoint:04X}"` -/
def hex04 (codepoint : Nat) : List Char :=
  let digits := (Nat.toDigits 16 codepoint).map Char.toUpper
  List.replicate (4 - digits.length) '0' ++ digits

/-- `_visible_codepoint`. -/
def visibleCodepoint (c : Char) : List Char :=
  '⟦' :: ('U' :: '+' :: hex04 c.toNat ++ ' ' :: ((u.name c).getD "UNNAMED").toList) ++ ['⟧']

/-- `default_ignorable or index in mixed_positions` -/
def replaced (mixed : List Nat) (item : Char × Nat) : Bool :=
  isDefaultIgnorable u item.1 || decide (item.2 ∈ mixed)

/-- What is appended to `rendered`. -/
def render (mixed : List Nat) (item : Char × Nat) : List Char :=
  if replaced u mixed item then visibleCodepoint u item.1 else [item.1]

inductive ViewFlag where
  | bidiControl | zeroWidth | defaultIgnorable | mixedScript
deriving Repr, DecidableEq

/-- `_FLAG_ORDER`. -/
def flagOrder : List ViewFlag := [.bidiControl, .zeroWidth, .defaultIgnorable, .mixedScript]

/-- Does a character raise the flag? -/
def raises (mixed : List Nat) (item : Char × Nat) : ViewFlag → Bool
  | .bidiControl => inRanges item.1.toNat bidiControlCodepoints
  | .zeroWidth => inRanges item.1.toNat zeroWidthCodepoints
  | .defaultIgnorable => isDefaultIgnorable u item.1
  | .mixedScript => decide (item.2 ∈ mixed)

structure UnicodeModelView where
  text : String
  flags : List ViewFlag
  normalizedSha256 : String
deriving Repr, DecidableEq

/-- `model_view_text`. -/
def modelViewText (value : String) : UnicodeModelView :=
  let normalized := u.nfc value
  let mixed := mixedScriptPositions u normalized
  let items := normalized.toList.zipIdx
  { text := String.ofList (items.flatMap (render u mixed))
    flags := flagOrder.filter fun flag => items.any fun item => raises u mixed item flag
    normalizedSha256 := Sha256.hexdigest normalized.toList }

mutual
/-- `transform` of `model_view_value`. -/
def transform : Json → Json
  | .str s => .str (modelViewText u s).text
  | .obj members => .obj (transformMembers members)
  | .arr items => .arr (transformItems items)
  | item => item

def transformItems : List Json → List Json
  | [] => []
  | item :: rest => transform item :: transformItems rest

def transformMembers : List (String × Json) → List (String × Json)
  | [] => []
  | (key, child) :: rest => (key, transform child) :: transformMembers rest
end

mutual
/-- The flags `transform` collects. -/
def viewFlags : Json → List ViewFlag
  | .str s => (modelViewText u s).flags
  | .obj members => memberFlags members
  | .arr items => itemFlags items
  | _ => []

def itemFlags : List Json → List ViewFlag
  | [] => []
  | item :: rest => viewFlags item ++ itemFlags rest

def memberFlags : List (String × Json) → List ViewFlag
  | [] => []
  | (_, child) :: rest => viewFlags child ++ memberFlags rest
end

/-- `model_view_value`. -/
def modelViewValue (value : Json) : Json × List ViewFlag :=
  (transform u value, flagOrder.filter fun flag => flag ∈ viewFlags u value)

/-! ## §3. One script in a token. -/

/-- The characters of the replacements: ASCII and the brackets. -/
def Rendered (c : Char) : Prop := c.toNat < 128 ∨ c = '⟦' ∨ c = '⟧'

theorem toNat_digitChar_toUpper : ∀ d < 16, (Nat.digitChar d).toUpper.toNat < 128 := by decide

theorem mem_toDigits {n : Nat} : ∀ c ∈ Nat.toDigits 16 n, ∃ d < 16, c = Nat.digitChar d := by
  induction n using Nat.strongRecOn with
  | ind n ih =>
      by_cases hn : n < 16
      · rw [Nat.toDigits_of_lt_base hn]
        exact List.forall_mem_singleton.2 ⟨n, hn, rfl⟩
      · rw [Nat.toDigits_of_base_le (by decide) (by omega)]
        refine List.forall_mem_append.2 ⟨ih (n / 16) (by omega), ?_⟩
        exact List.forall_mem_singleton.2 ⟨n % 16, by omega, rfl⟩

/-- A hexadecimal number is in ASCII. -/
theorem hex04_ascii (n : Nat) : ∀ c ∈ hex04 n, c.toNat < 128 := by
  unfold hex04
  refine List.forall_mem_append.2 ⟨fun c hc => ?_, fun c hc => ?_⟩
  · rw [List.eq_of_mem_replicate hc]
    decide
  · obtain ⟨lower, hlower, rfl⟩ := List.mem_map.1 hc
    obtain ⟨d, hd, rfl⟩ := mem_toDigits lower hlower
    exact toNat_digitChar_toUpper d hd

/-- What stands between the brackets. -/
def codepointLabel (c : Char) : List Char :=
  'U' :: '+' :: hex04 c.toNat ++ ' ' :: ((u.name c).getD "UNNAMED").toList

/-- A character made visible is its label in brackets. -/
theorem visibleCodepoint_eq (c : Char) :
    visibleCodepoint u c = '⟦' :: codepointLabel u c ++ ['⟧'] := rfl

/-- The label is in ASCII. -/
theorem codepointLabel_ascii (c : Char) : ∀ d ∈ codepointLabel u c, d.toNat < 128 := by
  have hname : ∀ d ∈ ((u.name c).getD "UNNAMED").toList, d.toNat < 128 := by
    cases hn : u.name c with
    | none => exact List.all_iff_forall_prop.1 (by decide)
    | some n => exact u.name_ascii c n hn
  unfold codepointLabel
  refine List.forall_mem_cons.2 ⟨by decide, List.forall_mem_cons.2 ⟨by decide, ?_⟩⟩
  exact List.forall_mem_append.2 ⟨hex04_ascii _, List.forall_mem_cons.2 ⟨by decide, hname⟩⟩

/-- So nothing that is made visible is replaced again. -/
theorem rendered_visibleCodepoint (c : Char) : ∀ d ∈ visibleCodepoint u c, Rendered d := by
  rw [visibleCodepoint_eq]
  refine List.forall_mem_append.2 ⟨List.forall_mem_cons.2 ⟨.inr (.inl rfl), fun d hd => ?_⟩,
    List.forall_mem_singleton.2 (.inr (.inr rfl))⟩
  exact .inl (codepointLabel_ascii u c d hd)

/-- What is rendered is not ignorable. -/
theorem not_isDefaultIgnorable {c : Char} (h : Rendered c) : isDefaultIgnorable u c = false := by
  unfold isDefaultIgnorable
  rcases h with hascii | hbracket
  · rw [u.isFormat_ascii c hascii, Bool.false_or]
    simp only [inRanges, extraDefaultIgnorable, List.any_cons, List.any_nil, Bool.or_false,
      Bool.or_eq_false_iff, Bool.and_eq_false_iff, decide_eq_false_iff_not]
    omega
  · rw [(u.brackets c hbracket).1, Bool.false_or]
    rcases hbracket with rfl | rfl <;> decide

theorem not_inToken {c : Char} (h : c = '⟦' ∨ c = '⟧') : inToken u c = false := by
  unfold inToken
  rw [(u.brackets c h).2.1, (u.brackets c h).2.2]
  rfl

/-- Characters of ASCII are Latin or of no script. -/
theorem script_ascii {c : Char} (h : c.toNat < 128) :
    script u c = none ∨ script u c = some .latin := by
  unfold script
  rw [u.isAlpha_ascii c h]
  by_cases halpha : c.isAlpha = true
  · have hletters : ∀ n < 128, (Char.ofNat n).isAlpha = true →
        ((scriptRanges.find? fun entry => inRanges n entry.2).map Prod.fst) = some .latin := by
      decide +kernel
    have hc := hletters c.toNat h
    rw [Char.ofNat_toNat] at hc
    rw [if_pos halpha]
    exact .inr (hc halpha)
  · exact .inl (if_neg halpha)

/-- A replacement ends every token. -/
theorem runLabel_visibleCodepoint (c : Char) (current : Option Script) :
    runLabel (inToken u) (script u) current (visibleCodepoint u c) = some none := by
  rw [visibleCodepoint_eq, List.cons_append, runLabel_other (not_inToken u (.inl rfl)),
    runLabel_append]
  obtain ⟨next, -, hnext⟩ := runLabel_of_labelled (inToken u) (script u)
    (fun d hd => script_ascii u (codepointLabel_ascii u c d hd)) (.inl rfl)
  rw [hnext, Option.bind_some, runLabel_other (not_inToken u (.inr rfl))]
  rfl

/-- The scripts of a token are those of its characters. -/
theorem mem_scripts {token : List (Char × Nat)} {s : Script} :
    s ∈ (token.filterMap fun item => script u item.1).dedup ↔
      ∃ item ∈ token, script u item.1 = some s := by
  rw [List.mem_dedup, List.mem_filterMap]

/-- What a token keeps is of one script. -/
theorem flush_keeps (token : List (Char × Nat)) :
    ∃ k, ∀ item ∈ token, item.2 ∉ flush u token →
      script u item.1 = none ∨ script u item.1 = k := by
  unfold flush
  generalize hscripts : (token.filterMap fun item => script u item.1).dedup = scripts
  have hmem : ∀ item ∈ token, ∀ s, script u item.1 = some s → s ∈ scripts := fun item hitem s hs =>
    hscripts ▸ (mem_scripts u).2 ⟨item, hitem, hs⟩
  by_cases hfew : scripts.length < 2
  · -- no script, or one
    refine ⟨scripts.head?, fun item hitem _ => ?_⟩
    cases hs : script u item.1 with
    | none => exact .inl rfl
    | some s =>
        have hone := hmem item hitem s hs
        match scripts, hfew, hone with
        | [t], _, hone => exact .inr (congrArg some (List.mem_singleton.1 hone))
  · show ∃ k, ∀ item ∈ token, item.2 ∉ (if scripts.length < 2 then _ else _) → _
    rw [if_neg hfew]
    refine ⟨primaryScript scripts, fun item hitem hkept => ?_⟩
    by_cases hnone : script u item.1 = none
    · exact .inl hnone
    · refine .inr (Classical.not_not.1 fun hother => hkept ?_)
      exact List.mem_map.2 ⟨item, List.mem_filter.2 ⟨hitem, decide_eq_true ⟨hnone, hother⟩⟩, rfl⟩

/-- A token of one script reports nothing. -/
theorem flush_eq_nil (token : List (Char × Nat)) (k : Option Script)
    (h : ∀ item ∈ token, script u item.1 = none ∨ script u item.1 = k) : flush u token = [] := by
  have hone : ∀ s ∈ (token.filterMap fun item => script u item.1).dedup, some s = k := by
    intro s hs
    obtain ⟨item, hitem, hscript⟩ := (mem_scripts u).1 hs
    rw [← hscript]
    exact (h item hitem).resolve_left (by rw [hscript]; exact Option.some_ne_none s)
  have hnodup := List.nodup_dedup (token.filterMap fun item => script u item.1)
  unfold flush
  generalize (token.filterMap fun item => script u item.1).dedup = scripts at hone hnodup
  match scripts, hone, hnodup with
  | [], _, _ => rfl
  | [_], _, _ => rfl
  | s :: t :: rest, hone, hnodup =>
      have hs := hone s List.mem_cons_self
      have ht := hone t (List.mem_cons_of_mem _ List.mem_cons_self)
      have hsame : s = t := Option.some.inj (hs.trans ht.symm)
      exact absurd (hsame ▸ List.mem_cons_self) (List.nodup_cons.1 hnodup).1

/-! ## §4. What is rendered. -/

section Render

variable {mixed : List Nat}

/-- The characters that are kept in a token, and their replacements. -/
theorem runLabel_render {k : Option Script} {token : List (Char × Nat)}
    (h : ∀ item ∈ token, replaced u mixed item = false →
      script u item.1 = none ∨ script u item.1 = k)
    {current : Option Script} (hcurrent : current = none ∨ current = k) :
    ∃ next, (next = none ∨ next = k) ∧
      runLabel (inToken u) (script u) current (token.flatMap (render u mixed)) = some next := by
  induction token generalizing current with
  | nil => exact ⟨current, hcurrent, rfl⟩
  | cons item token ih =>
      rw [List.forall_mem_cons] at h
      rw [List.flatMap_cons, runLabel_append]
      unfold render
      by_cases hreplaced : replaced u mixed item = true
      · rw [if_pos hreplaced, runLabel_visibleCodepoint]
        exact ih h.2 (.inl rfl)
      · rw [if_neg hreplaced]
        obtain ⟨next, hnext, hrun⟩ := runLabel_of_labelled (inToken u) (script u)
          (List.forall_mem_singleton.2 (h.1 (Bool.eq_false_iff.2 hreplaced))) hcurrent
        rw [hrun]
        exact ih h.2 hnext

/-- What ends a token ends it in the rendered text. -/
theorem runLabel_render_other {item : Char × Nat} (h : inToken u item.1 = false)
    (current : Option Script) (rest : List Char) :
    runLabel (inToken u) (script u) current (render u mixed item ++ rest) =
      runLabel (inToken u) (script u) none rest := by
  unfold render
  by_cases hreplaced : replaced u mixed item = true
  · rw [if_pos hreplaced, runLabel_append, runLabel_visibleCodepoint]
    rfl
  · rw [if_neg hreplaced]
    exact runLabel_other h current rest

/-- **No token of the rendered text has two scripts**: a token of the text
keeps one, and the replacements are not in its tokens. -/
theorem runLabel_rendered (items : List (Char × Nat))
    (hmixed : ∀ i ∈ foldRuns (fun item => inToken u item.1) (flush u) [] items, i ∈ mixed) :
    runLabel (inToken u) (script u) none (items.flatMap (render u mixed)) ≠ none := by
  have htoken : ∀ token : List (Char × Nat), (∀ i ∈ flush u token, i ∈ mixed) →
      ∃ next, runLabel (inToken u) (script u) none (token.flatMap (render u mixed)) = some next := by
    intro token hflush
    obtain ⟨k, hk⟩ := flush_keeps u token
    have hone : ∀ item ∈ token, replaced u mixed item = false →
        script u item.1 = none ∨ script u item.1 = k := by
      intro item hitem hkept
      rw [replaced, Bool.or_eq_false_iff, decide_eq_false_iff_not] at hkept
      exact hk item hitem fun hin => hkept.2 (hflush item.2 hin)
    obtain ⟨next, -, hnext⟩ := runLabel_render u hone (.inl rfl)
    exact ⟨next, hnext⟩
  induction items using runs_induction fun item : Char × Nat => inToken u item.1 with
  | last token hw =>
      have hall := foldRuns_word (f := flush u) hw [] []
      rw [List.append_nil, List.nil_append] at hall
      rw [hall] at hmixed
      obtain ⟨next, hnext⟩ := htoken token hmixed
      rw [hnext]
      exact Option.some_ne_none next
  | run token item rest hw hitem ih =>
      rw [foldRuns_run hw hitem, List.forall_mem_append] at hmixed
      obtain ⟨next, hnext⟩ := htoken token hmixed.1
      rw [List.flatMap_append, runLabel_append, hnext, Option.bind_some, List.flatMap_cons,
        runLabel_render_other u hitem]
      exact ih hmixed.2

/-- Nothing that is not displayed is rendered. -/
theorem render_displayed (items : List (Char × Nat)) :
    ∀ c ∈ items.flatMap (render u mixed), isDefaultIgnorable u c = false := by
  intro c hc
  obtain ⟨item, -, hc⟩ := List.mem_flatMap.1 hc
  unfold render at hc
  by_cases hreplaced : replaced u mixed item = true
  · rw [if_pos hreplaced] at hc
    exact not_isDefaultIgnorable u (rendered_visibleCodepoint u item.1 c hc)
  · rw [if_neg hreplaced, List.mem_singleton] at hc
    rw [Bool.not_eq_true, replaced, Bool.or_eq_false_iff] at hreplaced
    rw [hc]
    exact hreplaced.1

end Render

/-! ## §5. Rendering again. -/

/-- **What is assumed of NFC**: it is idempotent, and composes nothing with
a rendered replacement, so that one in the place of a character leaves a
normalised text normalised. -/
structure CharacterDatabase.Normalizes : Prop where
  idem : ∀ s, u.nfc (u.nfc s) = u.nfc s
  replace : ∀ before c after,
    u.nfc (String.ofList (before ++ c :: after)) = String.ofList (before ++ c :: after) →
    u.nfc (String.ofList (before ++ visibleCodepoint u c ++ after)) =
      String.ofList (before ++ visibleCodepoint u c ++ after)

/-- Nothing in the text is to be replaced. -/
structure CleanText (text : String) : Prop where
  displayed : ∀ c ∈ text.toList, isDefaultIgnorable u c = false
  unmixed : mixedScriptPositions u text = []

variable {u}

/-- **Normalising leaves what was rendered**, by induction on the items. -/
theorem nfc_rendered (hnfc : u.Normalizes) (mixed : List Nat) (items : List (Char × Nat)) :
    ∀ before, u.nfc (String.ofList (before ++ items.map Prod.fst)) =
        String.ofList (before ++ items.map Prod.fst) →
      u.nfc (String.ofList (before ++ items.flatMap (render u mixed))) =
        String.ofList (before ++ items.flatMap (render u mixed)) := by
  induction items with
  | nil => exact fun _ h => h
  | cons item rest ih =>
      intro before h
      rw [List.map_cons] at h
      rw [List.flatMap_cons, ← List.append_assoc]
      apply ih
      unfold render
      by_cases hreplaced : replaced u mixed item = true
      · rw [if_pos hreplaced]
        exact hnfc.replace _ _ _ h
      · rw [if_neg hreplaced, List.append_assoc]
        exact h

/-- **The view of a text is clean.** -/
theorem cleanText_modelViewText (value : String) : CleanText u (modelViewText u value).text := by
  have hrun : runLabel (inToken u) (script u) none ((u.nfc value).toList.zipIdx.flatMap
      (render u (mixedScriptPositions u (u.nfc value)))) ≠ none :=
    runLabel_rendered u _ fun _ hi => hi
  refine ⟨?_, ?_⟩
  · show ∀ c ∈ (String.ofList _).toList, _
    rw [String.toList_ofList]
    exact render_displayed u _
  · -- the positions are those of the rendered text, the tokens the same
    unfold mixedScriptPositions modelViewText
    rw [String.toList_ofList]
    have hstart : ∀ item ∈ ([] : List (Char × Nat)),
        script u item.1 = none ∨ script u item.1 = none := List.forall_mem_nil _
    refine foldRuns_eq_nil (flush_eq_nil u) ?_ hstart
    rw [← runLabel_map (inToken u) (script u) Prod.fst, List.zipIdx_map_fst]
    exact hrun

/-- **A clean text is its own view.** -/
theorem modelViewText_of_clean {text : String} (hnfc : u.nfc text = text)
    (hclean : CleanText u text) : (modelViewText u text).text = text := by
  have hkept : ∀ item ∈ text.toList.zipIdx, render u [] item = [item.1] := by
    intro item hitem
    have hchar : item.1 ∈ text.toList := by
      rw [← List.zipIdx_map_fst 0 text.toList]
      exact List.mem_map_of_mem hitem
    unfold render replaced
    rw [hclean.displayed _ hchar]
    rfl
  show String.ofList ((u.nfc text).toList.zipIdx.flatMap
    (render u (mixedScriptPositions u (u.nfc text)))) = text
  rw [hnfc, hclean.unmixed, List.flatMap_congr hkept, ← List.map_eq_flatMap, List.zipIdx_map_fst,
    String.ofList_toList]

/-- **What a model sees is clean, and seen again the same.** -/
theorem modelViewText_clean (u : CharacterDatabase) (hnfc : u.Normalizes) (value : String) :
    CleanText u (modelViewText u value).text ∧
      (modelViewText u (modelViewText u value).text).text = (modelViewText u value).text := by
  refine ⟨cleanText_modelViewText value,
    modelViewText_of_clean ?_ (cleanText_modelViewText value)⟩
  have hitems : u.nfc (String.ofList ([] ++ (u.nfc value).toList.zipIdx.map Prod.fst)) =
      String.ofList ([] ++ (u.nfc value).toList.zipIdx.map Prod.fst) := by
    rw [List.nil_append, List.zipIdx_map_fst, String.ofList_toList]
    exact hnfc.idem value
  exact nfc_rendered hnfc _ _ [] hitems

mutual
/-- A value seen again is the same. -/
theorem transform_transform (hnfc : u.Normalizes) :
    ∀ v, transform u (transform u v) = transform u v
  | .str s => congrArg Json.str (modelViewText_clean u hnfc s).2
  | .obj members => congrArg Json.obj (transformMembers_transformMembers hnfc members)
  | .arr items => congrArg Json.arr (transformItems_transformItems hnfc items)
  | .null | .bool _ | .int _ | .float _ => rfl

theorem transformItems_transformItems (hnfc : u.Normalizes) :
    ∀ items, transformItems u (transformItems u items) = transformItems u items
  | [] => rfl
  | item :: rest => congrArg₂ List.cons (transform_transform hnfc item)
      (transformItems_transformItems hnfc rest)

theorem transformMembers_transformMembers (hnfc : u.Normalizes) :
    ∀ members, transformMembers u (transformMembers u members) = transformMembers u members
  | [] => rfl
  | (key, child) :: rest => congrArg₂ List.cons
      (congrArg (Prod.mk key) (transform_transform hnfc child))
      (transformMembers_transformMembers hnfc rest)
end

end Text

/-- A database of ASCII, the soft hyphen and the small letters of Cyrillic,
whose texts are normalised. -/
def CharacterDatabase.ascii : CharacterDatabase where
  toUnicode := .ascii
  nfc := id
  isFormat := fun c => c == '\u00AD'
  isAlpha := fun c => c.isAlpha || (decide (0x0430 ≤ c.toNat) && decide (c.toNat ≤ 0x044F))
  name := fun c =>
    if c = '\u00AD' then some "SOFT HYPHEN"
    else if c = '\u0430' then some "CYRILLIC SMALL LETTER A" else none
  isFormat_ascii := fun c hc => by
    rw [beq_eq_false_iff_ne]
    rintro rfl
    exact absurd hc (by decide)
  isAlpha_ascii := fun c hc => by
    rw [decide_eq_false (show ¬0x0430 ≤ c.toNat by omega), Bool.false_and, Bool.or_false]
  name_ascii := fun c n hn => by
    by_cases hhyphen : c = '\u00AD'
    · rw [if_pos hhyphen] at hn
      rw [← Option.some.inj hn]
      exact List.all_iff_forall_prop.1 (by decide)
    · rw [if_neg hhyphen] at hn
      by_cases hletter : c = '\u0430'
      · rw [if_pos hletter] at hn
        rw [← Option.some.inj hn]
        exact List.all_iff_forall_prop.1 (by decide)
      · rw [if_neg hletter] at hn
        cases hn
  brackets := by rintro c (rfl | rfl) <;> decide

/-- The database for ASCII normalises as it has to. -/
theorem CharacterDatabase.ascii_normalizes : CharacterDatabase.ascii.Normalizes where
  idem _ := rfl
  replace _ _ _ _ := rfl

/-- A Cyrillic letter in a word, and a soft hyphen. -/
theorem modelViewText_clean_cyrillic :
    (modelViewText .ascii "p\u0430go\u00ADs").text =
      "p⟦U+0430 CYRILLIC SMALL LETTER A⟧go⟦U+00AD SOFT HYPHEN⟧s" ∧
    CleanText .ascii (modelViewText .ascii "p\u0430go\u00ADs").text ∧
      (modelViewText .ascii (modelViewText .ascii "p\u0430go\u00ADs").text).text =
        (modelViewText .ascii "p\u0430go\u00ADs").text :=
  ⟨by decide +kernel,
    modelViewText_clean .ascii CharacterDatabase.ascii_normalizes "p\u0430go\u00ADs"⟩

end Rpy.Retrieval

/-
  Rpy.Judit.Cnj
  ─────────────
  **THE NUMBER OF A PROCESS, AS FOUR RECOGNISERS READ IT**
  (`normalize_cnj` of `app/judit.py`, the CHECK of
  `sql/010_process_code_cnj_contract.sql`, `validCnj` of
  `app/frontend/app.js`).

  `\d` of Python's `re` is a decimal digit of any script; that of
  JavaScript and the `[0-9]` of the CHECK are those of ASCII.

    • `normalizeCnj`      — the canonical form of a code,
    • `IsCnj`             — twenty digits, bare or in the form,
    • `normalizeCnj_iff`  — what is accepted, and as what,
    • `identifies_iff`    — the texts on which the four agree.
-/
import Rpy.Foundation.FixedForm
import Rpy.Platform

namespace Rpy.Judit

open Rpy.Foundation
open Regex

/-! ## §1. The recognisers. -/

/-- The classes of digits of Python. -/
structure Digits extends Unicode where
  /-- `str.isdigit` of a character: also superscripts, and digits in circles -/
  isDigit : Char → Bool
  isDigit_of_isDecimal : ∀ c, isDecimal c = true → isDigit c = true
  isDecimal_ascii : ∀ c, c.toNat < 128 → isDecimal c = c.isDigit
  isDigit_ascii : ∀ c, c.toNat < 128 → isDigit c = c.isDigit
  isSpace_isDecimal : ∀ c, isDecimal c = true → isSpace c = false

section Recognisers

variable (digit : Char → Bool)

/-- `\d{7}-\d{2}\.\d{4}\.\d\.\d{2}\.\d{4}`; `^` and `$` say that the whole text
is matched. -/
def canonicalRe : Regex :=
  cat [exactly 7 (.char digit), only '-', exactly 2 (.char digit), only '.',
    exactly 4 (.char digit), only '.', exactly 1 (.char digit), only '.',
    exactly 2 (.char digit), only '.', exactly 4 (.char digit)]

/-- `\d{20}` -/
def digitsRe : Regex := exactly 20 (.char digit)

/-- Does one of the two match? -/
def matchesCnj (cs : List Char) : Bool :=
  fullMatch (canonicalRe digit) cs || fullMatch (digitsRe digit) cs

end Recognisers

/-- `digits[i:j]` -/
def slice (i j : Nat) (digits : List Char) : List Char := (digits.drop i).take (j - i)

/-- The digits with the separators between them. -/
def formatCnj (digits : List Char) : List Char :=
  slice 0 7 digits ++ '-' :: (slice 7 9 digits ++ '.' :: (slice 9 13 digits ++ '.' ::
    (slice 13 14 digits ++ '.' :: (slice 14 16 digits ++ '.' :: slice 16 20 digits))))

/-- The digits of a text. -/
def cnjDigits (u : Digits) (cs : List Char) : List Char := cs.filter u.isDigit

/-- `normalize_cnj`; `none` is the `ValueError`. -/
def normalizeCnj (u : Digits) (value : String) : Option String :=
  let candidate := (u.strip value).toList
  if matchesCnj u.isDecimal candidate then
    some (String.ofList (formatCnj (cnjDigits u candidate)))
  else none

/-- The CHECK on `processes.code`. -/
def processCodeCheck (code : String) : Bool := fullMatch (canonicalRe Char.isDigit) code.toList

/-- `validCnj` -/
def validCnj (v : String) : Bool :=
  fullMatch (digitsRe Char.isDigit) v.toList || fullMatch (canonicalRe Char.isDigit) v.toList

/-! ## §2. What they match. -/

/-- Twenty digits. -/
def Twenty (digit : Char → Bool) (ds : List Char) : Prop :=
  ds.length = 20 ∧ ∀ c ∈ ds, digit c = true

/-- Twenty digits, bare or in the canonical form. -/
def IsCnj (digit : Char → Bool) (cs : List Char) : Prop :=
  ∃ ds, Twenty digit ds ∧ (cs = formatCnj ds ∨ cs = ds)

section Matches

variable {digit : Char → Bool}

theorem forall₂_replicate {n : Nat} {cs : List Char} :
    List.Forall₂ (fun ok c => ok c = true) (List.replicate n digit) cs ↔
      cs.length = n ∧ ∀ c ∈ cs, digit c = true := by
  induction n generalizing cs with
  | zero =>
      rw [List.replicate_zero, List.forall₂_nil_left_iff, List.length_eq_zero_iff]
      exact ⟨fun h => ⟨h, fun c hc => by rw [h] at hc; cases hc⟩, fun h => h.1⟩
  | succ n ih =>
      cases cs with
      | nil => exact ⟨fun h => (nomatch h), fun h => (nomatch h.1)⟩
      | cons c cs =>
          rw [List.replicate_succ, List.forall₂_cons, ih, List.length_cons, List.forall_mem_cons]
          constructor
          · rintro ⟨hc, hlength, hall⟩
            exact ⟨congrArg (· + 1) hlength, hc, hall⟩
          · rintro ⟨hlength, hc, hall⟩
            exact ⟨hc, Nat.succ.inj hlength, hall⟩

theorem digitsRe_iff {cs : List Char} :
    fullMatch (digitsRe digit) cs = true ↔ Twenty digit cs :=
  (fullMatch_iff (goes_exactly 20)).trans forall₂_replicate

end Matches

theorem slice_append {a r : List Char} {n : Nat} (h : a.length = n) (i j : Nat) :
    slice (n + i) (n + j) (a ++ r) = slice i j r := by
  unfold slice
  rw [← h, List.drop_append, List.drop_eq_nil_of_le (by omega), List.nil_append,
    show a.length + i - a.length = i by omega, show a.length + j - (a.length + i) = j - i by omega]

theorem slice_front {a r : List Char} {n : Nat} (h : a.length = n) : slice 0 n (a ++ r) = a := by
  unfold slice
  rw [List.drop_zero, Nat.sub_zero, ← h, List.take_left]

theorem slice_all {a : List Char} {n : Nat} (h : a.length = n) : slice 0 n a = a := by
  unfold slice
  rw [List.drop_zero, Nat.sub_zero, ← h, List.take_length]

/-- The parts of a number, and their separators. -/
theorem formatCnj_parts {a b c d e f : List Char} (ha : a.length = 7) (hb : b.length = 2)
    (hc : c.length = 4) (hd : d.length = 1) (he : e.length = 2) (hf : f.length = 4) :
    formatCnj (a ++ (b ++ (c ++ (d ++ (e ++ f))))) =
      a ++ '-' :: (b ++ '.' :: (c ++ '.' :: (d ++ '.' :: (e ++ '.' :: f)))) := by
  have h0 : slice 0 7 (a ++ (b ++ (c ++ (d ++ (e ++ f))))) = a := slice_front ha
  have h7 : slice 7 9 (a ++ (b ++ (c ++ (d ++ (e ++ f))))) = b :=
    (slice_append ha 0 2).trans (slice_front hb)
  have h9 : slice 9 13 (a ++ (b ++ (c ++ (d ++ (e ++ f))))) = c :=
    (slice_append ha 2 6).trans ((slice_append hb 0 4).trans (slice_front hc))
  have h13 : slice 13 14 (a ++ (b ++ (c ++ (d ++ (e ++ f))))) = d :=
    (slice_append ha 6 7).trans ((slice_append hb 4 5).trans
      ((slice_append hc 0 1).trans (slice_front hd)))
  have h14 : slice 14 16 (a ++ (b ++ (c ++ (d ++ (e ++ f))))) = e :=
    (slice_append ha 7 9).trans ((slice_append hb 5 7).trans
      ((slice_append hc 1 3).trans ((slice_append hd 0 2).trans (slice_front he))))
  have h16 : slice 16 20 (a ++ (b ++ (c ++ (d ++ (e ++ f))))) = f :=
    (slice_append ha 9 13).trans ((slice_append hb 7 11).trans
      ((slice_append hc 3 7).trans ((slice_append hd 2 6).trans
        ((slice_append he 0 4).trans (slice_all hf)))))
  unfold formatCnj
  rw [h0, h7, h9, h13, h14, h16]

/-- Twenty characters are the six parts. -/
theorem exists_parts {ds : List Char} (h : ds.length = 20) :
    ∃ a b c d e f : List Char, ds = a ++ (b ++ (c ++ (d ++ (e ++ f)))) ∧ a.length = 7 ∧
      b.length = 2 ∧ c.length = 4 ∧ d.length = 1 ∧ e.length = 2 ∧ f.length = 4 := by
  refine ⟨ds.take 7, (ds.drop 7).take 2, (ds.drop 9).take 4, (ds.drop 13).take 1,
    (ds.drop 14).take 2, ds.drop 16, ?_, ?_⟩
  · have hcut : ∀ i n, (ds.drop i).take n ++ ds.drop (i + n) = ds.drop i := by
      intro i n
      rw [← List.drop_drop]
      exact List.take_append_drop n (ds.drop i)
    rw [hcut 14 2, hcut 13 1, hcut 9 4, hcut 7 2, List.take_append_drop]
  · simp only [List.length_take, List.length_drop, h]
    decide

section Forms

variable {digit : Char → Bool}

theorem goes_canonicalRe : Goes (canonicalRe digit)
    ([List.replicate 7 digit, [(· == '-')], List.replicate 2 digit, [(· == '.')],
      List.replicate 4 digit, [(· == '.')], List.replicate 1 digit, [(· == '.')],
      List.replicate 2 digit, [(· == '.')], List.replicate 4 digit].flatten) :=
  goes_cat (.cons (goes_exactly 7) (.cons (goes_char _) (.cons (goes_exactly 2)
    (.cons (goes_char _) (.cons (goes_exactly 4) (.cons (goes_char _) (.cons (goes_exactly 1)
      (.cons (goes_char _) (.cons (goes_exactly 2) (.cons (goes_char _)
        (.cons (goes_exactly 4) .nil)))))))))))

theorem forall₂_append_left {s t : List (Char → Bool)} {cs : List Char} :
    List.Forall₂ (fun ok c => ok c = true) (s ++ t) cs ↔
      ∃ xs ys, cs = xs ++ ys ∧ List.Forall₂ (fun ok c => ok c = true) s xs ∧
        List.Forall₂ (fun ok c => ok c = true) t ys := by
  constructor
  · intro h
    refine ⟨cs.take s.length, cs.drop s.length, (List.take_append_drop _ _).symm, ?_, ?_⟩
    · have htake := List.forall₂_take s.length h
      rwa [List.take_left] at htake
    · have hdrop := List.forall₂_drop s.length h
      rwa [List.drop_left] at hdrop
  · rintro ⟨xs, ys, rfl, hxs, hys⟩
    exact List.rel_append hxs hys

/-- Some digits and a separator, and what is after them. -/
theorem forall₂_part {n : Nat} {sep : Char} {shape : List (Char → Bool)} {cs : List Char} :
    List.Forall₂ (fun ok c => ok c = true) (List.replicate n digit ++ (· == sep) :: shape) cs ↔
      ∃ part rest, cs = part ++ sep :: rest ∧ (part.length = n ∧ ∀ c ∈ part, digit c = true) ∧
        List.Forall₂ (fun ok c => ok c = true) shape rest := by
  rw [forall₂_append_left]
  constructor
  · rintro ⟨part, more, rfl, hpart, hmore⟩
    obtain ⟨x, rest, hx, hrest, rfl⟩ := List.forall₂_cons_left_iff.1 hmore
    rw [beq_iff_eq] at hx
    exact ⟨part, rest, by rw [hx], forall₂_replicate.1 hpart, hrest⟩
  · rintro ⟨part, rest, rfl, hpart, hrest⟩
    exact ⟨part, sep :: rest, rfl, forall₂_replicate.2 hpart,
      .cons (beq_self_eq_true sep) hrest⟩

/-- **The pattern matches twenty digits in the canonical form.** -/
theorem canonicalRe_iff {cs : List Char} : fullMatch (canonicalRe digit) cs = true ↔
    ∃ ds, Twenty digit ds ∧ cs = formatCnj ds := by
  rw [fullMatch_iff goes_canonicalRe]
  simp only [List.flatten_cons, List.flatten_nil, List.append_nil, List.singleton_append]
  constructor
  · intro h
    obtain ⟨a, rest, rfl, ⟨ha, hda⟩, h⟩ := forall₂_part.1 h
    obtain ⟨b, rest, rfl, ⟨hb, hdb⟩, h⟩ := forall₂_part.1 h
    obtain ⟨c, rest, rfl, ⟨hc, hdc⟩, h⟩ := forall₂_part.1 h
    obtain ⟨d, rest, rfl, ⟨hd, hdd⟩, h⟩ := forall₂_part.1 h
    obtain ⟨e, f, rfl, ⟨he, hde⟩, h⟩ := forall₂_part.1 h
    obtain ⟨hf, hdf⟩ := forall₂_replicate.1 h
    refine ⟨a ++ (b ++ (c ++ (d ++ (e ++ f)))), ⟨?_, ?_⟩, (formatCnj_parts ha hb hc hd he hf).symm⟩
    · simp only [List.length_append]
      omega
    · simp only [List.forall_mem_append]
      exact ⟨hda, hdb, hdc, hdd, hde, hdf⟩
  · rintro ⟨ds, ⟨hlength, hall⟩, rfl⟩
    obtain ⟨a, b, c, d, e, f, rfl, ha, hb, hc, hd, he, hf⟩ := exists_parts hlength
    rw [formatCnj_parts ha hb hc hd he hf]
    simp only [List.forall_mem_append] at hall
    obtain ⟨hda, hdb, hdc, hdd, hde, hdf⟩ := hall
    exact forall₂_part.2 ⟨a, _, rfl, ⟨ha, hda⟩, forall₂_part.2 ⟨b, _, rfl, ⟨hb, hdb⟩,
      forall₂_part.2 ⟨c, _, rfl, ⟨hc, hdc⟩, forall₂_part.2 ⟨d, _, rfl, ⟨hd, hdd⟩,
        forall₂_part.2 ⟨e, f, rfl, ⟨he, hde⟩, forall₂_replicate.2 ⟨hf, hdf⟩⟩⟩⟩⟩⟩

theorem matchesCnj_iff {cs : List Char} : matchesCnj digit cs = true ↔ IsCnj digit cs := by
  unfold matchesCnj
  rw [Bool.or_eq_true, canonicalRe_iff, digitsRe_iff]
  constructor
  · rintro (⟨ds, hds, h⟩ | h)
    · exact ⟨ds, hds, .inl h⟩
    · exact ⟨cs, h, .inr rfl⟩
  · rintro ⟨ds, hds, h | h⟩
    · exact .inl ⟨ds, hds, h⟩
    · exact .inr (h ▸ hds)

end Forms

/-! ## §3. The canonical form of a text. -/

section Canonical

variable {u : Digits}

theorem isDigit_separator : u.isDigit '-' = false ∧ u.isDigit '.' = false :=
  ⟨u.isDigit_ascii '-' (by decide), u.isDigit_ascii '.' (by decide)⟩

theorem cnjDigits_self {ds : List Char} (h : ∀ c ∈ ds, u.isDecimal c = true) :
    cnjDigits u ds = ds :=
  List.filter_eq_self.2 fun c hc => u.isDigit_of_isDecimal c (h c hc)

/-- The digits are read out of the form again. -/
theorem cnjDigits_formatCnj {ds : List Char} (h : Twenty u.isDecimal ds) :
    cnjDigits u (formatCnj ds) = ds := by
  obtain ⟨hlength, hall⟩ := h
  have hself := cnjDigits_self hall
  obtain ⟨a, b, c, d, e, f, rfl, ha, hb, hc, hd, he, hf⟩ := exists_parts hlength
  rw [formatCnj_parts ha hb hc hd he hf]
  unfold cnjDigits at hself ⊢
  simp only [List.filter_append, List.filter_cons, isDigit_separator, Bool.false_eq_true,
    if_false] at hself ⊢
  exact hself

theorem cnjDigits_of_form {ds cs : List Char} (h : Twenty u.isDecimal ds)
    (hform : cs = formatCnj ds ∨ cs = ds) : cnjDigits u cs = ds := by
  rcases hform with rfl | rfl
  · exact cnjDigits_formatCnj h
  · exact cnjDigits_self h.2

/-- **What is accepted, and as what.** -/
theorem normalizeCnj_iff {s code : String} : normalizeCnj u s = some code ↔
    ∃ ds, Twenty u.isDecimal ds ∧
      ((u.strip s).toList = formatCnj ds ∨ (u.strip s).toList = ds) ∧
      code = String.ofList (formatCnj ds) := by
  unfold normalizeCnj
  dsimp only
  by_cases hmatch : matchesCnj u.isDecimal (u.strip s).toList = true
  · rw [if_pos hmatch]
    obtain ⟨ds, hds, h⟩ := matchesCnj_iff.1 hmatch
    rw [cnjDigits_of_form hds h]
    constructor
    · intro hcode
      exact ⟨ds, hds, h, (Option.some.inj hcode).symm⟩
    · rintro ⟨es, hes, hes', rfl⟩
      rw [← cnjDigits_of_form hes hes', cnjDigits_of_form hds h]
  · rw [if_neg hmatch]
    refine ⟨fun h => (nomatch h), ?_⟩
    rintro ⟨ds, hds, h, -⟩
    exact absurd (matchesCnj_iff.2 ⟨ds, hds, h⟩) hmatch

theorem accepts_iff {s : String} :
    (∃ code, normalizeCnj u s = some code) ↔ IsCnj u.isDecimal (u.strip s).toList := by
  constructor
  · rintro ⟨code, h⟩
    obtain ⟨ds, hds, hform, -⟩ := normalizeCnj_iff.1 h
    exact ⟨ds, hds, hform⟩
  · rintro ⟨ds, hds, hform⟩
    exact ⟨_, normalizeCnj_iff.2 ⟨ds, hds, hform, rfl⟩⟩

/-- The form begins and ends with a digit: nothing is stripped off it. -/
theorem strip_formatCnj {ds : List Char} (h : Twenty u.isDecimal ds) :
    u.strip (String.ofList (formatCnj ds)) = String.ofList (formatCnj ds) := by
  obtain ⟨hlength, hall⟩ := h
  obtain ⟨a, b, c, d, e, f, rfl, ha, hb, hc, hd, he, hf⟩ := exists_parts hlength
  rw [formatCnj_parts ha hb hc hd he hf]
  have hspace : ∀ x ∈ a ++ (b ++ (c ++ (d ++ (e ++ f)))), u.isSpace x = false := fun x hx =>
    u.isSpace_isDecimal x (hall x hx)
  rw [u.strip_eq, String.toList_ofList, Platform.stripChars_eq_self]
  · intro x hx
    cases a with
    | nil => cases ha
    | cons y a =>
        obtain rfl := Option.some.inj hx
        exact hspace _ List.mem_cons_self
  · intro x hx
    have hfront : a ++ '-' :: (b ++ '.' :: (c ++ '.' :: (d ++ '.' :: (e ++ '.' :: f)))) =
        (a ++ '-' :: (b ++ '.' :: (c ++ '.' :: (d ++ '.' :: (e ++ ['.']))))) ++ f := by
      simp
    have hne : f ≠ [] := List.ne_nil_of_length_pos (by omega)
    rw [hfront, List.getLast?_append_of_ne_nil _ hne] at hx
    have hmem := List.mem_of_getLast? hx
    exact hspace x (by simp [hmem])

/-- **A canonical form is that of itself.** -/
theorem normalizeCnj_self {ds : List Char} (h : Twenty u.isDecimal ds) :
    normalizeCnj u (String.ofList (formatCnj ds)) = some (String.ofList (formatCnj ds)) := by
  refine normalizeCnj_iff.2 ⟨ds, h, .inl ?_, rfl⟩
  rw [strip_formatCnj h, String.toList_ofList]

theorem formatCnj_inj {ds es : List Char} (hds : Twenty u.isDecimal ds)
    (hes : Twenty u.isDecimal es) (h : formatCnj ds = formatCnj es) : ds = es := by
  rw [← cnjDigits_formatCnj hds, h, cnjDigits_formatCnj hes]

theorem lt_of_isDigit {c : Char} (h : c.isDigit = true) : c.toNat < 128 := by
  unfold Char.isDigit at h
  rw [Bool.and_eq_true, decide_eq_true_eq, decide_eq_true_eq] at h
  have hle : c.val.toNat ≤ 57 := h.2
  show c.val.toNat < 128
  omega

theorem twenty_ascii {ds : List Char} (h : Twenty Char.isDigit ds) : Twenty u.isDecimal ds := by
  refine ⟨h.1, fun c hc => ?_⟩
  rw [u.isDecimal_ascii c (lt_of_isDigit (h.2 c hc))]
  exact h.2 c hc

end Canonical

/-! ## §4. The four recognisers. -/

/-- What the four recognisers make of a text. -/
structure Identifies (u : Digits) (s : String) : Prop where
  /-- what is accepted is twenty digits of ASCII, bare or in the form -/
  accepts : (∃ code, normalizeCnj u s = some code) ↔ IsCnj Char.isDigit (u.strip s).toList
  /-- the code passes the CHECK -/
  checked : ∀ code, normalizeCnj u s = some code → processCodeCheck code = true
  fixpoint : ∀ code, normalizeCnj u s = some code → normalizeCnj u code = some code
  /-- two texts have one code when they have the same digits -/
  sameCode : ∀ t code code', normalizeCnj u s = some code → normalizeCnj u t = some code' →
    (code = code' ↔ cnjDigits u (u.strip s).toList = cnjDigits u (u.strip t).toList)
  /-- the frontend accepts the same texts, once they are trimmed -/
  frontend : validCnj (u.strip s) = true ↔ ∃ code, normalizeCnj u s = some code

section Identity

variable {u : Digits} {s : String}

theorem digits_of_normalizeCnj {code : String} (h : normalizeCnj u s = some code) :
    Twenty u.isDecimal (cnjDigits u (u.strip s).toList) ∧
      code = String.ofList (formatCnj (cnjDigits u (u.strip s).toList)) := by
  obtain ⟨ds, hds, hform, rfl⟩ := normalizeCnj_iff.1 h
  rw [cnjDigits_of_form hds hform]
  exact ⟨hds, rfl⟩

theorem sameCode_iff {t code code' : String} (hs : normalizeCnj u s = some code)
    (ht : normalizeCnj u t = some code') :
    code = code' ↔ cnjDigits u (u.strip s).toList = cnjDigits u (u.strip t).toList := by
  obtain ⟨hds, rfl⟩ := digits_of_normalizeCnj hs
  obtain ⟨hes, rfl⟩ := digits_of_normalizeCnj ht
  constructor
  · intro h
    have hforms := congrArg String.toList h
    rw [String.toList_ofList, String.toList_ofList] at hforms
    exact formatCnj_inj hds hes hforms
  · intro h
    rw [h]

theorem validCnj_iff : validCnj s = true ↔ IsCnj Char.isDigit s.toList := by
  unfold validCnj
  rw [Bool.or_comm]
  exact matchesCnj_iff

/-- A number in decimal digits is one in digits of ASCII when these are. -/
theorem isCnj_ascii_iff {cs : List Char} (h : IsCnj u.isDecimal cs) :
    IsCnj Char.isDigit cs ↔ ∀ c ∈ cs, u.isDecimal c = true → c.isDigit = true := by
  obtain ⟨ds, hds, hform⟩ := h
  have hmem : ∀ c ∈ ds, c ∈ cs := by
    intro c hc
    rw [← cnjDigits_of_form hds hform] at hc
    exact List.mem_of_mem_filter hc
  constructor
  · rintro ⟨es, hes, hform'⟩ c hc hdecimal
    have hdigit : c ∈ cnjDigits u cs :=
      List.mem_filter.2 ⟨hc, u.isDigit_of_isDecimal c hdecimal⟩
    rw [cnjDigits_of_form (twenty_ascii hes) hform'] at hdigit
    exact hes.2 c hdigit
  · intro hall
    exact ⟨ds, ⟨hds.1, fun c hc => hall c (hmem c hc) (hds.2 c hc)⟩, hform⟩

/-- **The four agree on a text unless it is a number with a digit of another
script.** -/
theorem identifies_iff (u : Digits) (s : String) : Identifies u s ↔
    (matchesCnj u.isDecimal (u.strip s).toList = true →
      ∀ c ∈ (u.strip s).toList, u.isDecimal c = true → c.isDigit = true) := by
  rw [matchesCnj_iff]
  constructor
  · intro h hform
    exact (isCnj_ascii_iff hform).1 (h.accepts.1 (accepts_iff.2 hform))
  · intro h
    have hsame : IsCnj u.isDecimal (u.strip s).toList ↔ IsCnj Char.isDigit (u.strip s).toList := by
      constructor
      · exact fun hform => (isCnj_ascii_iff hform).2 (h hform)
      · rintro ⟨ds, hds, hform⟩
        exact ⟨ds, twenty_ascii hds, hform⟩
    refine ⟨accepts_iff.trans hsame, fun code hcode => ?_, fun code hcode => ?_,
      fun t code code' => sameCode_iff, (validCnj_iff.trans hsame.symm).trans accepts_iff.symm⟩
    · obtain ⟨ds, hds, hform⟩ := hsame.1 (accepts_iff.1 ⟨code, hcode⟩)
      obtain ⟨-, rfl⟩ := digits_of_normalizeCnj hcode
      rw [cnjDigits_of_form (twenty_ascii hds) hform]
      refine canonicalRe_iff.2 ⟨ds, hds, String.toList_ofList⟩
    · obtain ⟨ds, hds, -, rfl⟩ := normalizeCnj_iff.1 hcode
      exact normalizeCnj_self hds

end Identity

/-- The digits of ASCII and of one more script. -/
def isArabic (c : Char) : Bool := c.isDigit || decide (0x0660 ≤ c.toNat ∧ c.toNat ≤ 0x0669)

theorem isArabic_ascii (c : Char) (h : c.toNat < 128) : isArabic c = c.isDigit := by
  unfold isArabic
  rw [decide_eq_false (by omega), Bool.or_false]

theorem isSpace_isArabic (c : Char) (h : isArabic c = true) : Unicode.ascii.isSpace c = false := by
  have hall : ∀ n < 0x066A, isArabic (Char.ofNat n) = true →
      Unicode.ascii.isSpace (Char.ofNat n) = false := by
    decide +kernel
  have hlt : c.toNat < 0x066A := by
    unfold isArabic at h
    rw [Bool.or_eq_true, decide_eq_true_eq] at h
    rcases h with h | h
    · have hdigit := lt_of_isDigit h
      omega
    · omega
  rw [← Char.ofNat_toNat c] at h ⊢
  exact hall _ hlt h

/-- The classes with the digits of one more script. -/
def Digits.arabic : Digits where
  toUnicode := { Unicode.ascii with isDecimal := isArabic }
  isDigit := isArabic
  isDigit_of_isDecimal _ h := h
  isDecimal_ascii := isArabic_ascii
  isDigit_ascii := isArabic_ascii
  isSpace_isDecimal := isSpace_isArabic

/-- Twenty digits, the first of them an Arabic one. -/
def arabicCode : String := "\u0661000001012024826" ++ "0001"

/-- **A number with a digit of another script is accepted.** -/
theorem not_identifies : ¬ ∀ (u : Digits) (s : String), Identifies u s := by
  intro h
  have haccepted : normalizeCnj .arabic arabicCode = some "\u0661000001-01.2024.8.26.0001" := by
    decide +kernel
  exact absurd ((h .arabic arabicCode).checked _ haccepted) (by decide +kernel)

end Rpy.Judit

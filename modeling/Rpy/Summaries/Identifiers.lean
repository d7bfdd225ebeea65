/-
  Rpy.Summaries.Identifiers
  ─────────────────────────
  **WHICH IDENTIFIERS OF THE PARTIES ARE FOUND IN A TEXT.**

  The pattern of identifiers is greedy: a number that follows an identifier
  after one separator is read as more of it, and the digits that are compared
  are then those of both.  So an identifier is found when it is all of a chain
  of digits of the text, and not when more digits follow or come before.

    • `Appears`                 — an identifier as a reader sees it,
    • `mem_renderedIdentifiers` — what the check sees,
    • `not_identifiers_prohibited` — an identifier before a year is passed,
    • `identifiers_prohibited_iff` — when the identifiers of the parties are
                                  reported.
-/
import Rpy.Summaries.Validation

namespace Rpy.Summaries.Validation

open Rpy.Foundation
open Regex

/-! ## §1. What a reader sees, and what the check sees. -/

/-- The digits in order with at most one separator between two of them, and
no digit next to them. -/
def Appears (u : DigitDatabase) (ds text : List Char) : Prop :=
  ∃ before tok after, text = before ++ tok ++ after ∧ Spaced (isSeparator u.toUnicode) ds tok ∧
    before.getLast?.any u.isDigit = false ∧ after.head?.any u.isDigit = false

section Found

variable {u : DigitDatabase}

theorem not_isDigit_of_isSeparator {c : Char} (h : isSeparator u.toUnicode c = true) :
    u.isDigit c = false := by
  unfold isSeparator at h
  rcases Bool.or_eq_true_iff.1 h with hspace | hmark
  · exact u.isDigit_of_isSpace c hspace
  · have hascii : c.toNat < 128 ∧ c.isDigit = false := by
      simp only [List.contains_iff_mem, List.mem_cons, List.not_mem_nil, or_false] at hmark
      rcases hmark with rfl | rfl | rfl <;> decide
    rw [u.isDigit_ascii c hascii.1]
    exact hascii.2

theorem not_isDecimal_of_isSeparator (c : Char) (h : isSeparator u.toUnicode c = true) :
    u.isDecimal c = false := by
  refine Bool.eq_false_iff.2 fun hdecimal => ?_
  have hdigit := u.isDigit_of_isDecimal c hdecimal
  rw [not_isDigit_of_isSeparator h] at hdigit
  cases hdigit

/-- In a match `str.isdigit` and `\d` accept the same characters. -/
theorem normalizeDigits_match {text : List Char} {m : Match}
    (hm : m ∈ (identifierTokenPattern u.toUnicode).findIter text) :
    normalizeDigits u m.text = m.text.filter u.isDecimal := by
  obtain ⟨ds, -, -, -, -, hspaced, hdigits, -, -⟩ :=
    findFrom_sound not_isDecimal_of_isSeparator (clear_nil text) m hm
  rw [hspaced.filter hdigits not_isDecimal_of_isSeparator]
  exact hspaced.filter (fun d hd => u.isDigit_of_isDecimal d (hdigits d hd))
    fun c hc => not_isDigit_of_isSeparator hc

/-- **The identifiers found in a text are its chains of digits.** -/
theorem mem_renderedIdentifiers {ds : List Char} {text : String} :
    ds ∈ renderedIdentifiers u text ↔
      8 ≤ ds.length ∧ StandsAlone u.isDecimal (isSeparator u.toUnicode) ds text.toList := by
  unfold renderedIdentifiers
  simp only [List.mem_filter, List.mem_map, decide_eq_true_eq]
  rw [and_comm, and_congr_right_iff]
  intro hlength
  have hiff : (∃ m ∈ (chainPattern u.isDecimal (isSeparator u.toUnicode) 7).findIter text.toList,
      m.text.filter u.isDecimal = ds) ↔ _ := mem_chains_iff not_isDecimal_of_isSeparator hlength
  rw [← hiff]
  constructor
  · rintro ⟨m, hm, rfl⟩
    exact ⟨m, hm, (normalizeDigits_match hm).symm⟩
  · rintro ⟨m, hm, rfl⟩
    exact ⟨m, hm, normalizeDigits_match hm⟩

end Found

theorem length_scalarIdentifiers {u : DigitDatabase} {key : String} {value : Json}
    {ds : List Char} (h : ds ∈ scalarIdentifiers u key value) : 8 ≤ ds.length := by
  unfold scalarIdentifiers at h
  dsimp only at h
  split at h
  · split at h
    · rename_i hlength
      rw [List.mem_singleton.1 h]
      exact hlength
    · cases h
  · cases h

mutual
/-- An identifier has eight digits at least. -/
theorem length_personalIdentifiers (u : DigitDatabase) (key : String) : ∀ (value : Json),
    ∀ ds ∈ personalIdentifiers u key value, 8 ≤ ds.length
  | .obj members, ds, h => length_memberIdentifiers u members ds h
  | .arr xs, ds, h => length_itemIdentifiers u key xs ds h
  | .null, _, h => length_scalarIdentifiers h
  | .bool _, _, h => length_scalarIdentifiers h
  | .int _, _, h => length_scalarIdentifiers h
  | .float _, _, h => length_scalarIdentifiers h
  | .str _, _, h => length_scalarIdentifiers h

theorem length_itemIdentifiers (u : DigitDatabase) (key : String) : ∀ (xs : List Json),
    ∀ ds ∈ itemIdentifiers u key xs, 8 ≤ ds.length
  | [], ds, h => by cases h
  | x :: xs, ds, h => by
      rcases List.mem_append.1 h with h | h
      · exact length_personalIdentifiers u key x ds h
      · exact length_itemIdentifiers u key xs ds h

theorem length_memberIdentifiers (u : DigitDatabase) : ∀ (ms : List (String × Json)),
    ∀ ds ∈ memberIdentifiers u ms, 8 ≤ ds.length
  | [], ds, h => by cases h
  | (key, v) :: ms, ds, h => by
      rcases List.mem_append.1 h with h | h
      · exact length_personalIdentifiers u key v ds h
      · exact length_memberIdentifiers u ms ds h
end

/-- **Identifiers are leaked where one of them is all of a chain of digits.** -/
theorem identifierErrors_ne_nil (u : DigitDatabase) (a : Arguments) :
    identifierErrors u a ≠ [] ↔ ∃ ds ∈ partyIdentifiers u a.parties,
      StandsAlone u.isDecimal (isSeparator u.toUnicode) ds a.text.toList := by
  have hleaked : identifierErrors u a ≠ [] ↔ leakedIdentifiers u a ≠ [] := by
    unfold identifierErrors
    cases leakedIdentifiers u a <;> simp
  have hmem : ∀ ds, ds ∈ leakedIdentifiers u a ↔ ds ∈ partyIdentifiers u a.parties ∧
      8 ≤ ds.length ∧ StandsAlone u.isDecimal (isSeparator u.toUnicode) ds a.text.toList := by
    intro ds
    unfold leakedIdentifiers
    rw [List.mem_filter, List.contains_iff_mem, mem_renderedIdentifiers]
  rw [hleaked]
  constructor
  · intro hne
    obtain ⟨ds, hds⟩ := List.exists_mem_of_ne_nil _ hne
    obtain ⟨hparty, -, halone⟩ := (hmem ds).1 hds
    exact ⟨ds, hparty, halone⟩
  · rintro ⟨ds, hds, halone⟩
    obtain ⟨party, -, hparty⟩ := List.mem_flatMap.1 hds
    have hlength := length_memberIdentifiers u party ds hparty
    exact List.ne_nil_of_mem ((hmem ds).2 ⟨hds, hlength, halone⟩)

/-! ## §2. What is reported. -/

/-- `validar` reports failure. -/
def Reports (u : DigitDatabase) (a : Arguments) : Prop :=
  ∃ result, validar u a = .ok result ∧ result.passed = false

/-- An identifier of a party appears in the text. -/
def IdentifierAppears (u : DigitDatabase) (a : Arguments) : Prop :=
  ∃ ds ∈ partyIdentifiers u a.parties, Appears u ds a.text.toList

/-- The checks end, and an identifier of a party is all of a chain of digits,
or the text breaks another rule. -/
def Caught (u : DigitDatabase) (a : Arguments) : Prop :=
  ∃ later, laterErrors u a = .ok later ∧
    ((∃ ds ∈ partyIdentifiers u a.parties,
        StandsAlone u.isDecimal (isSeparator u.toUnicode) ds a.text.toList) ∨
      earlierErrors u a ≠ [] ∨ later ≠ [])

theorem reports_iff (u : DigitDatabase) (a : Arguments) : Reports u a ↔ Caught u a := by
  unfold Reports Caught validar
  cases laterErrors u a with
  | error e =>
      constructor
      · rintro ⟨result, hresult, -⟩
        cases hresult
      · rintro ⟨later, hlater, -⟩
        cases hlater
  | ok later =>
      have hany : (earlierErrors u a ++ identifierErrors u a ++ later).isEmpty = false ↔
          identifierErrors u a ≠ [] ∨ earlierErrors u a ≠ [] ∨ later ≠ [] := by
        rw [List.isEmpty_eq_false_iff, ne_eq, List.append_eq_nil_iff, List.append_eq_nil_iff]
        tauto
      rw [← identifierErrors_ne_nil]
      constructor
      · rintro ⟨result, hresult, hpassed⟩
        obtain rfl := Except.ok.inj hresult
        exact ⟨later, rfl, hany.1 hpassed⟩
      · rintro ⟨later', hlater, hsome⟩
        obtain rfl := Except.ok.inj hlater
        exact ⟨_, rfl, hany.2 hsome⟩

/-- The tables for texts in ASCII. -/
def DigitDatabase.ascii : DigitDatabase where
  toUnicode := .ascii
  isDigit := Char.isDigit
  isDigit_of_isDecimal := fun _ h => h
  isDigit_of_isSpace := fun c h => by
    refine Bool.eq_false_iff.2 fun hdigit => ?_
    have hrange : c.toNat < 58 := by
      have hle := (Bool.and_eq_true_iff.1 hdigit).2
      have hval : c.val ≤ 57 := of_decide_eq_true hle
      exact Nat.lt_succ_of_le hval
    have hnone : ∀ n < 58, (Char.ofNat n).isDigit = true →
        Unicode.ascii.isSpace (Char.ofNat n) = false := by decide
    have hspace := hnone c.toNat hrange
    rw [Char.ofNat_toNat] at hspace
    rw [hspace hdigit] at h
    cases h
  isDigit_ascii := fun _ _ => rfl

/-- A contract whose number is followed by a year. -/
def contractArguments : Arguments where
  text := "Contrato 12345678 2024."
  code := "0000001-00.2024.8.26.0001"
  parties := [[("name", .str "Ana"), ("document", .str "12345678")]]

theorem contract_appears : IdentifierAppears .ascii contractArguments := by
  refine ⟨"12345678".toList, by decide +kernel, "Contrato ".toList, "12345678".toList,
    " 2024.".toList, by decide, ?_, by decide, by decide⟩
  exact .adjacent _ (.adjacent _ (.adjacent _ (.adjacent _ (.adjacent _ (.adjacent _
    (.adjacent _ (.one _)))))))

/-- **An identifier that is followed by a year is not reported**: the two
numbers are read as one. -/
theorem not_identifiers_prohibited :
    ¬ ∀ (u : DigitDatabase) (a : Arguments), IdentifierAppears u a → Reports u a := by
  intro h
  obtain ⟨result, hresult, hpassed⟩ := h .ascii contractArguments contract_appears
  have hpass : validar .ascii contractArguments = .ok { passed := true, errors := [] } := by
    decide +kernel
  rw [hpass] at hresult
  obtain rfl := Except.ok.inj hresult
  cases hpassed

/-- **The identifiers of the parties are reported where one of them is all of
a chain of digits**, or the text is reported for another reason. -/
theorem identifiers_prohibited_iff (u : DigitDatabase) (a : Arguments) :
    (IdentifierAppears u a → Reports u a) ↔ (IdentifierAppears u a → Caught u a) := by
  rw [reports_iff]

end Rpy.Summaries.Validation

/-
  Rpy.Foundation.JsonGrammar
  ──────────────────────────
  **WHAT IS A STRICT JSON TEXT.**

  The grammar says of a value what its texts are: blanks may stand around
  every value, key and separator, a character of a literal is written as
  itself or escaped, and no object has a key twice.

    • `IsText`              — the texts of a value,
    • `LiteralText`         — those of the characters of a literal,
    • `scanChars_text`, `text_of_scanChars` — what is read as a literal,
    • `scanNumber_text`, `parts_of_scanNumber` — what is read as a number,
    • `isText_head`         — how a text begins.
-/
import Mathlib.Data.List.TakeWhile
import Rpy.Foundation.JsonFloat
import Rpy.Foundation.Raising

namespace Rpy.Foundation

namespace Json

/-! ## §1. The grammar. -/

/-- Blanks, or nothing. -/
def Blanks (cs : List Char) : Prop := ∀ c ∈ cs, isBlank c = true

/-- Something with blanks around it. -/
def Spaced (p : List Char → Prop) (cs : List Char) : Prop :=
  ∃ before text after, cs = before ++ (text ++ after) ∧ Blanks before ∧ p text ∧ Blanks after

/-- The characters of a literal, and a text of them. -/
inductive LiteralText : List Char → List Char → Prop where
  | nil : LiteralText [] []
  | plain {c : Char} {s cs : List Char} :
      32 ≤ c.toNat → c ≠ '"' → c ≠ '\\' → LiteralText s cs → LiteralText (c :: s) (c :: cs)
  | short {e c : Char} {s cs : List Char} :
      shortEscape e = some c → LiteralText s cs → LiteralText (c :: s) ('\\' :: e :: cs)
  | unit {a b c d : Char} {n : Nat} {s cs : List Char} :
      readUnit a b c d = some n → n < 55296 ∨ 57344 ≤ n → LiteralText s cs →
        LiteralText (Char.ofNat n :: s) ('\\' :: 'u' :: a :: b :: c :: d :: cs)
  | pair {a b c d a' b' c' d' : Char} {m n : Nat} {s cs : List Char} :
      readUnit a b c d = some m → 55296 ≤ m ∧ m < 56320 →
      readUnit a' b' c' d' = some n → 56320 ≤ n ∧ n < 57344 → LiteralText s cs →
        LiteralText (Char.ofNat (65536 + (m - 55296) * 1024 + (n - 56320)) :: s)
          ('\\' :: 'u' :: a :: b :: c :: d :: '\\' :: 'u' :: a' :: b' :: c' :: d' :: cs)

/-- A text between quotation marks. -/
def IsLiteral (s : String) (cs : List Char) : Prop :=
  ∃ body, cs = '"' :: (body ++ ['"']) ∧ LiteralText s.toList body

/-- The four parts of a number. -/
structure NumberParts (sign whole frac ex : List Char) : Prop where
  sign : sign = [] ∨ sign = ['-']
  whole : IsWhole whole
  fraction : IsFraction frac
  exponent : IsExponent ex

/-- The integer that a sign and some digits stand for. -/
def signedInt (sign whole : List Char) : Int :=
  if sign.isEmpty then (Nat.ofDigitChars 10 whole 0 : Nat) else -(Nat.ofDigitChars 10 whole 0 : Nat)

section Grammar

variable (readFloat : List Char → Option Decimal)

mutual
/-- The text is one of the value. -/
def IsText : Json → List Char → Prop
  | .null, cs => cs = "null".toList
  | .bool b, cs => cs = (if b then "true" else "false").toList
  | .int n, cs => ∃ sign whole, NumberParts sign whole [] [] ∧ cs = sign ++ whole ∧
      n = signedInt sign whole
  | .float d, cs => ∃ sign whole frac ex, NumberParts sign whole frac ex ∧
      (frac.isEmpty && ex.isEmpty) = false ∧ cs = sign ++ (whole ++ (frac ++ ex)) ∧
      readFloat cs = some d
  | .str s, cs => IsLiteral s cs
  | .arr xs, cs => ∃ body, cs = '[' :: (body ++ [']']) ∧ IsItems xs body
  | .obj members, cs => (members.map Prod.fst).Nodup ∧
      ∃ body, cs = '\x7b' :: (body ++ ['\x7d']) ∧ IsMembers members body
  termination_by structural v => v

/-- The text between the brackets of an array. -/
def IsItems : List Json → List Char → Prop
  | [], cs => Blanks cs
  | x :: xs, cs => ∃ first more, cs = first ++ more ∧ Spaced (IsText x) first ∧ IsMoreItems xs more
  termination_by structural xs => xs

/-- The items after the first one. -/
def IsMoreItems : List Json → List Char → Prop
  | [], cs => cs = []
  | x :: xs, cs => ∃ first more, cs = ',' :: (first ++ more) ∧ Spaced (IsText x) first ∧
      IsMoreItems xs more
  termination_by structural xs => xs

/-- The text between the braces of an object. -/
def IsMembers : List (String × Json) → List Char → Prop
  | [], cs => Blanks cs
  | (k, v) :: ms, cs => ∃ key value more, cs = key ++ ':' :: (value ++ more) ∧
      Spaced (IsLiteral k) key ∧ Spaced (IsText v) value ∧ IsMoreMembers ms more
  termination_by structural ms => ms

/-- The members after the first one. -/
def IsMoreMembers : List (String × Json) → List Char → Prop
  | [], cs => cs = []
  | (k, v) :: ms, cs => ∃ key value more, cs = ',' :: (key ++ ':' :: (value ++ more)) ∧
      Spaced (IsLiteral k) key ∧ Spaced (IsText v) value ∧ IsMoreMembers ms more
  termination_by structural ms => ms
end

end Grammar

/-! ## §2. Literals. -/

/-- Something that is no quotation mark and is read as a character goes on. -/
theorem scanChars_of_readChar {fuel : Nat} {cs rest s r : List Char} {c : Char}
    (hquote : ∀ t, cs ≠ '"' :: t) (hread : readChar cs = some (c, rest))
    (hrest : scanChars fuel rest = .ok (s, r)) : scanChars (fuel + 1) cs = .ok (c :: s, r) := by
  unfold scanChars
  split
  · exact absurd rfl (hquote _)
  · rw [hread]
    simp only
    rw [hrest]
    rfl

theorem readChar_plain {c : Char} (hcontrol : 32 ≤ c.toNat) (hslash : c ≠ '\\')
    (r : List Char) : readChar (c :: r) = some (c, r) := by
  have hlow : ¬ c.toNat < 32 := Nat.not_lt.2 hcontrol
  unfold readChar
  split
  · rename_i heq
    exact absurd (List.cons.inj heq).1 hslash
  · rename_i heq
    exact absurd (List.cons.inj heq).1 hslash
  · rename_i heq
    exact absurd (List.cons.inj heq).1 hslash
  · rename_i heq
    obtain ⟨rfl, rfl⟩ := List.cons.inj heq
    exact if_neg hlow
  · rename_i heq
    cases heq

theorem readChar_short {e c : Char} (h : shortEscape e = some c) (r : List Char) :
    readChar ('\\' :: e :: r) = some (c, r) := by
  have hu : e ≠ 'u' := by
    rintro rfl
    cases h
  unfold readChar
  split
  · rename_i heq
    exact absurd (List.cons.inj (List.cons.inj heq).2).1 hu
  · rename_i heq
    obtain ⟨rfl, rfl⟩ := List.cons.inj (List.cons.inj heq).2
    rw [h]
    rfl
  · rename_i heq
    cases (List.cons.inj heq).2
  · rename_i hshort _ heq
    exact absurd heq fun heq => hshort _ _ (List.cons.inj heq).1.symm (List.cons.inj heq).2.symm
  · rename_i heq
    cases heq

/-- **A text of a literal is read as its characters.** -/
theorem scanChars_text {s body : List Char} (h : LiteralText s body) :
    ∀ {fuel : Nat} (r : List Char), body.length < fuel →
      scanChars fuel (body ++ '"' :: r) = .ok (s, r) := by
  induction h with
  | nil =>
      intro fuel r hfuel
      obtain ⟨fuel, rfl⟩ : ∃ k, fuel = k + 1 := ⟨fuel - 1, by omega⟩
      rfl
  | plain hcontrol hquote hslash _ ih =>
      intro fuel r hfuel
      obtain ⟨fuel, rfl⟩ : ∃ k, fuel = k + 1 := ⟨fuel - 1, by omega⟩
      rw [List.length_cons] at hfuel
      exact scanChars_of_readChar (fun t heq => hquote (List.cons.inj heq).1)
        (readChar_plain hcontrol hslash _) (ih r (by omega))
  | short hshort _ ih =>
      intro fuel r hfuel
      obtain ⟨fuel, rfl⟩ : ∃ k, fuel = k + 1 := ⟨fuel - 1, by omega⟩
      rw [List.length_cons, List.length_cons] at hfuel
      exact scanChars_of_readChar (fun t heq => absurd (List.cons.inj heq).1 (by decide))
        (readChar_short hshort _) (ih r (by omega))
  | @unit a b c d n s cs hunit hhalf _ ih =>
      intro fuel r hfuel
      obtain ⟨fuel, rfl⟩ : ∃ k, fuel = k + 1 := ⟨fuel - 1, by omega⟩
      simp only [List.length_cons] at hfuel
      -- A unit that is no half stands for itself.
      have hread : readChar ('\\' :: 'u' :: a :: b :: c :: d :: (cs ++ '"' :: r)) =
          some (Char.ofNat n, cs ++ '"' :: r) := by
        show (readUnit a b c d).bind (pairUnits · (cs ++ '"' :: r)) = _
        rw [hunit, Option.bind_some]
        unfold pairUnits
        rw [if_neg (by omega), if_neg (by omega)]
      exact scanChars_of_readChar (fun t heq => absurd (List.cons.inj heq).1 (by decide)) hread
        (ih r (by omega))
  | @pair a b c d a' b' c' d' m n s cs hfirst hhigh hsecond hlow _ ih =>
      intro fuel r hfuel
      obtain ⟨fuel, rfl⟩ : ∃ k, fuel = k + 1 := ⟨fuel - 1, by omega⟩
      simp only [List.length_cons] at hfuel
      -- A high half followed by a low one is one character.
      have hread : readChar ('\\' :: 'u' :: a :: b :: c :: d :: '\\' :: 'u' :: a' :: b' :: c' ::
          d' :: (cs ++ '"' :: r)) =
          some (Char.ofNat (65536 + (m - 55296) * 1024 + (n - 56320)), cs ++ '"' :: r) := by
        show (readUnit a b c d).bind (pairUnits · _) = _
        rw [hfirst, Option.bind_some, pairUnits, if_pos hhigh]
        show (readUnit a' b' c' d').bind _ = _
        rw [hsecond, Option.bind_some, if_pos hlow]
      exact scanChars_of_readChar (fun t heq => absurd (List.cons.inj heq).1 (by decide)) hread
        (ih r (by omega))

/-- What is read as a character is a text of one. -/
theorem literalText_of_readChar {cs more : List Char} {c : Char} (hquote : ∀ t, cs ≠ '"' :: t)
    (h : readChar cs = some (c, more)) : ∃ front, cs = front ++ more ∧
      ∀ s body, LiteralText s body → LiteralText (c :: s) (front ++ body) := by
  unfold readChar at h
  split at h
  -- `\u` and four digits: the unit alone, or a high half with the low half after it.
  · rename_i a b c' d rest
    obtain ⟨m, hunit, h⟩ := Option.bind_eq_some_iff.1 h
    unfold pairUnits at h
    split at h
    · rename_i hhigh
      split at h
      · rename_i e f g k rest' _
        obtain ⟨n, hsecond, h⟩ := Option.bind_eq_some_iff.1 h
        split at h
        · rename_i hlow
          obtain ⟨rfl, rfl⟩ := Prod.mk.inj (Option.some.inj h)
          exact ⟨['\\', 'u', a, b, c', d, '\\', 'u', e, f, g, k], rfl,
            fun s body htext => .pair hunit hhigh hsecond hlow htext⟩
        · cases h
      · cases h
    · rename_i hhigh
      split at h
      · cases h
      · rename_i hlow
        obtain ⟨rfl, rfl⟩ := Prod.mk.inj (Option.some.inj h)
        exact ⟨['\\', 'u', a, b, c', d], rfl, fun s body htext => .unit hunit (by omega) htext⟩
  -- An escape of one letter.
  · rename_i e rest _
    obtain ⟨x, hshort, h⟩ := Option.map_eq_some_iff.1 h
    obtain ⟨rfl, rfl⟩ := Prod.mk.inj h
    exact ⟨['\\', e], rfl, fun s body htext => .short hshort htext⟩
  · cases h
  -- A character as it is: not a control, and by the case split no backslash.
  · rename_i x rest _ hshort hlast
    split at h
    · cases h
    · rename_i hcontrol
      obtain ⟨rfl, rfl⟩ := Prod.mk.inj (Option.some.inj h)
      refine ⟨[x], rfl, fun s body htext => .plain (Nat.le_of_not_lt hcontrol) ?_ ?_ htext⟩
      · rintro rfl
        exact hquote _ rfl
      · intro hslash
        cases rest with
        | nil => exact hlast hslash rfl
        | cons e rest => exact hshort e rest hslash rfl
  · cases h

/-- **What is read as a literal is a text of it.** -/
theorem text_of_scanChars {fuel : Nat} {cs s rest : List Char}
    (h : scanChars fuel cs = .ok (s, rest)) :
    ∃ body, cs = body ++ '"' :: rest ∧ LiteralText s body := by
  induction fuel generalizing cs s with
  | zero => cases h
  | succ fuel ih =>
      unfold scanChars at h
      split at h
      · obtain ⟨rfl, rfl⟩ := Prod.mk.inj (Except.ok.inj h)
        exact ⟨[], rfl, .nil⟩
      · rename_i hquote
        split at h
        · cases h
        · rename_i c more hread
          obtain ⟨⟨s', rest'⟩, hscan, heq⟩ := map_eq_ok.1 h
          obtain ⟨rfl, rfl⟩ := Prod.mk.inj heq
          obtain ⟨front, rfl, htext⟩ := literalText_of_readChar hquote hread
          obtain ⟨body, rfl, hbody⟩ := ih hscan
          exact ⟨front ++ body, by rw [List.append_assoc], htext _ _ hbody⟩

/-! ## §3. Numbers. -/

section Numbers

variable {readFloat : List Char → Option Decimal} {sign whole frac ex : List Char}

theorem NumberParts.whole_isEmpty (h : NumberParts sign whole frac ex) :
    whole.isEmpty = false := by
  obtain ⟨c, t, rfl, -⟩ := h.whole.head
  rfl

/-- A number begins with a sign or a digit. -/
theorem NumberParts.head (h : NumberParts sign whole frac ex) :
    ∃ c t, sign ++ (whole ++ (frac ++ ex)) = c :: t ∧ (c = '-' ∨ c.isDigit = true) := by
  obtain ⟨c, t, hwhole, hc⟩ := h.whole.head
  rcases h.sign with hsign | hsign
  · exact ⟨c, t ++ (frac ++ ex), by rw [hsign, hwhole]; rfl, .inr hc⟩
  · exact ⟨'-', whole ++ (frac ++ ex), by rw [hsign]; rfl, .inl rfl⟩

/-- A number, by its four parts. -/
structure Numeral where
  sign : List Char
  whole : List Char
  fraction : List Char
  exponent : List Char
deriving Repr, DecidableEq

namespace Numeral

/-- Its text. -/
def text (n : Numeral) : List Char := n.sign ++ (n.whole ++ (n.fraction ++ n.exponent))

/-- It has neither a fraction nor an exponent. -/
def isInt (n : Numeral) : Bool := n.fraction.isEmpty && n.exponent.isEmpty

/-- The parts are those of a number. -/
def Ok (n : Numeral) : Prop := NumberParts n.sign n.whole n.fraction n.exponent

end Numeral

/-- The longest number at the start of a text. -/
def numeralAt (cs : List Char) : Option Numeral :=
  let sign := (cs.take 1).filter (· == '-')
  let body := cs.drop sign.length
  let whole := intDigits body
  if whole.isEmpty then none
  else
    let rest := body.drop whole.length
    let frac := fraction rest
    some ⟨sign, whole, frac, exponent (rest.drop frac.length)⟩

/-- What is read as a number is the longest one. -/
theorem scanNumber_eq (cs : List Char) : scanNumber readFloat cs =
    match numeralAt cs with
    | none => .error .value
    | some n =>
        if n.isInt then
          if 4300 < n.whole.length then .error .value
          else .ok (.int (signedInt n.sign n.whole), cs.drop n.text.length)
        else
          match readFloat n.text with
          | some d => .ok (.float d, cs.drop n.text.length)
          | none => .error .value := by
  have hdrop : ∀ n : Numeral, cs.drop n.text.length =
      (((cs.drop n.sign.length).drop n.whole.length).drop n.fraction.length).drop
        n.exponent.length := by
    intro n
    simp only [Numeral.text, List.drop_drop, List.length_append, Nat.add_assoc]
  unfold scanNumber numeralAt
  dsimp only
  split
  · rfl
  · simp only [hdrop]
    simp only [Numeral.isInt, Numeral.text, List.append_assoc, signedInt]
    rfl

theorem natAbs_signedInt (sign whole : List Char) :
    (signedInt sign whole).natAbs = Nat.ofDigitChars 10 whole 0 := by
  unfold signedInt
  split
  · exact Int.natAbs_natCast _
  · rw [Int.natAbs_neg, Int.natAbs_natCast]

/-- **The parts of a number are found at the start of a text.** -/
theorem numeralAt_text (h : NumberParts sign whole frac ex) {r : List Char} (hr : Delimited r) :
    numeralAt (sign ++ (whole ++ (frac ++ ex)) ++ r) = some ⟨sign, whole, frac, ex⟩ := by
  have hint : intDigits (whole ++ (frac ++ (ex ++ r))) = whole :=
    intDigits_whole h.whole (digits_after_whole h.fraction h.exponent hr)
  have hfraction := fraction_text h.fraction h.exponent hr
  have hexponent := exponent_text h.exponent hr
  have hminus := sign_text (frac ++ (ex ++ r)) h.sign h.whole
  have hinput : sign ++ (whole ++ (frac ++ ex)) ++ r = sign ++ (whole ++ (frac ++ (ex ++ r))) := by
    simp only [List.append_assoc]
  rw [hinput]
  unfold numeralAt
  simp only [hminus, List.drop_left, hint, h.whole_isEmpty, hfraction, hexponent,
    Bool.false_eq_true, if_false]

/-- **A text of a number is read to its end.** -/
theorem scanNumber_text (h : NumberParts sign whole frac ex) {r : List Char} (hr : Delimited r) :
    scanNumber readFloat (sign ++ (whole ++ (frac ++ ex)) ++ r) =
      if frac.isEmpty && ex.isEmpty then
        if 4300 < whole.length then .error .value else .ok (.int (signedInt sign whole), r)
      else
        match readFloat (sign ++ (whole ++ (frac ++ ex))) with
        | some d => .ok (.float d, r)
        | none => .error .value := by
  rw [scanNumber_eq, numeralAt_text h hr]
  simp only [Numeral.text, List.drop_left]
  rfl

/-! What the reader takes for the parts of a number are such parts. -/

theorem append_drop_of_prefix {xs cs : List Char} (h : xs <+: cs) :
    xs ++ cs.drop xs.length = cs :=
  List.prefix_iff_eq_append.1 h

theorem areDigits_digits {cs : List Char} (h : (digits cs).isEmpty = false) :
    AreDigits (digits cs) :=
  ⟨List.isEmpty_eq_false_iff.1 h, fun _ hc => List.mem_takeWhile_imp hc⟩

theorem isWhole_intDigits {cs : List Char} (h : (intDigits cs).isEmpty = false) :
    IsWhole (intDigits cs) ∧ intDigits cs <+: cs := by
  by_cases hzero : ∃ t, cs = '0' :: t
  · obtain ⟨t, rfl⟩ := hzero
    exact ⟨.inl rfl, List.cons_prefix_cons.2 ⟨rfl, List.nil_prefix⟩⟩
  · have hrun : intDigits cs = digits cs := by
      unfold intDigits
      split
      · rename_i t
        exact absurd ⟨t, rfl⟩ hzero
      · rfl
    rw [hrun] at h ⊢
    have hprefix : digits cs <+: cs := List.takeWhile_prefix _
    have hdigits := areDigits_digits h
    obtain ⟨c, t, hfirst⟩ := List.exists_cons_of_ne_nil hdigits.1
    refine ⟨.inr ⟨hdigits, c, t, hfirst, ?_⟩, hprefix⟩
    rintro rfl
    rw [hfirst] at hprefix
    obtain ⟨more, rfl⟩ := hprefix
    exact hzero ⟨t ++ more, rfl⟩

theorem isFraction_fraction (cs : List Char) : IsFraction (fraction cs) ∧ fraction cs <+: cs := by
  unfold fraction
  split
  · rename_i cs
    split
    · exact ⟨.inl rfl, List.nil_prefix⟩
    · rename_i hne
      exact ⟨.inr ⟨_, rfl, areDigits_digits (by simpa using hne)⟩,
        List.cons_prefix_cons.2 ⟨rfl, List.takeWhile_prefix _⟩⟩
  · exact ⟨.inl rfl, List.nil_prefix⟩

/-- The sign that may stand first. -/
theorem sign_prefix (p : Char → Bool) (cs : List Char) :
    ((cs.take 1).filter p = [] ∨ ∃ c, (cs.take 1).filter p = [c] ∧ p c = true) ∧
      (cs.take 1).filter p <+: cs := by
  cases cs with
  | nil => exact ⟨.inl rfl, List.nil_prefix⟩
  | cons c t =>
      rw [List.take_succ_cons, List.take_zero, List.filter_cons]
      split
      · rename_i hc
        exact ⟨.inr ⟨c, rfl, hc⟩, List.cons_prefix_cons.2 ⟨rfl, List.nil_prefix⟩⟩
      · exact ⟨.inl rfl, List.nil_prefix⟩

theorem isExponent_exponent (cs : List Char) : IsExponent (exponent cs) ∧ exponent cs <+: cs := by
  unfold exponent
  split
  · rename_i e cs
    split
    · rename_i he
      dsimp only
      split
      · exact ⟨.inl rfl, List.nil_prefix⟩
      · rename_i hne
        obtain ⟨hsign, hprefix⟩ := sign_prefix (fun c => c == '-' || c == '+') cs
        refine ⟨.inr ⟨e, _, _, rfl, ?_, ?_, areDigits_digits (by simpa using hne)⟩, ?_⟩
        · simpa using he
        · rcases hsign with hsign | ⟨c, hsign, hc⟩
          · exact .inl hsign
          · rw [hsign]
            simpa using hc
        · refine List.cons_prefix_cons.2 ⟨rfl, ?_⟩
          conv_rhs => rw [← append_drop_of_prefix hprefix]
          exact (List.prefix_append_right_inj _).2 (List.takeWhile_prefix _)
    · exact ⟨.inl rfl, List.nil_prefix⟩
  · exact ⟨.inl rfl, List.nil_prefix⟩

/-- What is found at the start of a text are the parts of a number. -/
theorem parts_of_numeralAt {cs : List Char} {n : Numeral} (h : numeralAt cs = some n) :
    n.Ok ∧ n.text <+: cs := by
  unfold numeralAt at h
  dsimp only at h
  -- the sign
  obtain ⟨hsign, hsignPrefix⟩ := sign_prefix (· == '-') cs
  generalize (cs.take 1).filter (· == '-') = sign at h hsign hsignPrefix
  obtain ⟨body, rfl⟩ := hsignPrefix
  rw [List.drop_left] at h
  split at h
  · cases h
  rename_i hne
  -- the digits before the point
  obtain ⟨hwhole, hwholePrefix⟩ := isWhole_intDigits (Bool.eq_false_iff.2 hne)
  generalize intDigits body = whole at h hwhole hwholePrefix
  obtain ⟨t, rfl⟩ := hwholePrefix
  rw [List.drop_left] at h
  -- the point and those after it
  obtain ⟨hfrac, hfracPrefix⟩ := isFraction_fraction t
  generalize fraction t = frac at h hfrac hfracPrefix
  obtain ⟨t, rfl⟩ := hfracPrefix
  rw [List.drop_left] at h
  -- the exponent
  obtain ⟨hex, hexPrefix⟩ := isExponent_exponent t
  generalize exponent t = ex at h hex hexPrefix
  obtain ⟨t, rfl⟩ := hexPrefix
  have hsigns : sign = [] ∨ sign = ['-'] := by
    rcases hsign with hsign | ⟨c, hsign, hc⟩
    · exact .inl hsign
    · exact .inr (by rw [hsign, eq_of_beq hc])
  obtain rfl := Option.some.inj h
  exact ⟨⟨hsigns, hwhole, hfrac, hex⟩, t, by simp only [Numeral.text, List.append_assoc]⟩

/-- **What is read as a number is a text of one.** -/
theorem parts_of_scanNumber {cs rest : List Char} {v : Json}
    (h : scanNumber readFloat cs = .ok (v, rest)) : ∃ sign whole frac ex,
      NumberParts sign whole frac ex ∧ cs = sign ++ (whole ++ (frac ++ ex)) ++ rest ∧
      ((frac.isEmpty && ex.isEmpty) = true ∧ whole.length ≤ 4300 ∧ v = .int (signedInt sign whole) ∨
        (frac.isEmpty && ex.isEmpty) = false ∧
          ∃ d, readFloat (sign ++ (whole ++ (frac ++ ex))) = some d ∧ v = .float d) := by
  rw [scanNumber_eq] at h
  split at h
  · cases h
  rename_i n hn
  obtain ⟨hparts, r, rfl⟩ := parts_of_numeralAt hn
  rw [List.drop_left] at h
  refine ⟨n.sign, n.whole, n.fraction, n.exponent, hparts, ?_⟩
  split at h
  · rename_i hint
    split at h
    · cases h
    · rename_i hlength
      obtain ⟨rfl, rfl⟩ := Prod.mk.inj (Except.ok.inj h)
      exact ⟨rfl, .inl ⟨hint, Nat.le_of_not_lt hlength, rfl⟩⟩
  · rename_i hint
    split at h
    · rename_i d hd
      obtain ⟨rfl, rfl⟩ := Prod.mk.inj (Except.ok.inj h)
      exact ⟨rfl, .inr ⟨Bool.eq_false_iff.2 hint, d, hd, rfl⟩⟩
    · cases h

/-- The digits of a number without zeros in front are as many as it is written
with. -/
theorem length_toDigits_whole {whole : List Char} (h : IsWhole whole) :
    (Nat.toDigits 10 (Nat.ofDigitChars 10 whole 0)).length = whole.length := by
  have hnumeral : ∀ cs : List Char,
      Nat.ofDigitChars 10 cs 0 = numeral 10 (cs.map fun c => c.toNat - '0'.toNat) := by
    intro cs
    rw [numeral_eq_foldl, List.foldl_map, ← Nat.ofDigitChars_eq_foldl]
  have hlt : ∀ cs : List Char, (∀ c ∈ cs, c.isDigit = true) →
      ∀ d ∈ cs.map fun c => c.toNat - '0'.toNat, d < 10 := by
    intro cs hcs d hd
    obtain ⟨c, hc, rfl⟩ := List.mem_map.1 hd
    have hbounds := digit_bounds (hcs c hc)
    show c.toNat - 48 < 10
    omega
  rcases h with rfl | ⟨hdigits, c, t, rfl, hc⟩
  · rfl
  · have hupper : (Nat.toDigits 10 (Nat.ofDigitChars 10 (c :: t) 0)).length ≤ (c :: t).length := by
      have hbound := numeral_lt_pow (hlt _ hdigits.2)
      rw [List.length_map, ← hnumeral] at hbound
      exact (Nat.length_toDigits_le_iff (by decide) (Nat.succ_pos _)).2 hbound
    have hlower : ¬ (Nat.toDigits 10 (Nat.ofDigitChars 10 (c :: t) 0)).length ≤ t.length := by
      intro hle
      have hfirst := digit_ne_zero (hdigits.2 c List.mem_cons_self) hc
      have hbound := pow_le_numeral (b := 10) hfirst (t.map fun c => c.toNat - '0'.toNat)
      have hvalue : Nat.ofDigitChars 10 (c :: t) 0 =
          numeral 10 ((c.toNat - '0'.toNat) :: t.map fun c => c.toNat - '0'.toNat) :=
        hnumeral (c :: t)
      rw [← hvalue, List.length_map] at hbound
      cases t with
      | nil => exact absurd hle (Nat.not_le.2 Nat.length_toDigits_pos)
      | cons d t =>
          have hsmall := (Nat.length_toDigits_le_iff (by decide) (Nat.succ_pos _)).1 hle
          exact absurd hbound (Nat.not_le.2 hsmall)
    rw [List.length_cons] at hupper ⊢
    omega

end Numbers

/-! ## §4. Blanks. -/

theorem skipBlanks_of_head {c : Char} {t : List Char} (h : isBlank c = false) :
    skipBlanks (c :: t) = c :: t := by
  unfold skipBlanks
  rw [List.dropWhile_cons_of_neg (by simp [h])]

theorem skipBlanks_append {before : List Char} (h : Blanks before) {c : Char} {t : List Char}
    (hc : isBlank c = false) : skipBlanks (before ++ c :: t) = c :: t := by
  unfold skipBlanks
  rw [List.dropWhile_append_of_pos h]
  exact skipBlanks_of_head hc

/-- The blanks that are skipped. -/
theorem exists_skipBlanks (cs : List Char) : ∃ before, Blanks before ∧ cs = before ++ skipBlanks cs :=
  ⟨cs.takeWhile isBlank, fun _ hc => List.mem_takeWhile_imp hc,
    (List.takeWhile_append_dropWhile).symm⟩

theorem Blanks.append {a b : List Char} (ha : Blanks a) (hb : Blanks b) : Blanks (a ++ b) :=
  List.forall_mem_append.2 ⟨ha, hb⟩

theorem blanks_nil : Blanks [] := List.forall_mem_nil _

theorem isBlank_cases {c : Char} (h : isBlank c = true) :
    c = ' ' ∨ c = '\t' ∨ c = '\n' ∨ c = '\r' := by
  simpa [isBlank, or_assoc] using h

/-- Blanks may stand before what ends a value. -/
theorem Delimited.blanks {r after : List Char} (hr : Delimited r) (h : Blanks after) :
    Delimited (after ++ r) := by
  cases after with
  | nil => exact hr
  | cons c t =>
      have hc := isBlank_cases (h c List.mem_cons_self)
      exact .inr ⟨c, t ++ r, rfl, .inr (.inr (.inr hc))⟩

theorem Blanks.delimited {after : List Char} (h : Blanks after) : Delimited after := by
  have hnil : Delimited (after ++ []) := Delimited.blanks (.inl rfl) h
  rwa [List.append_nil] at hnil

theorem Spaced.blanks {p : List Char → Prop} {before cs : List Char} (hbefore : Blanks before)
    (h : Spaced p cs) : Spaced p (before ++ cs) := by
  obtain ⟨a, text, b, rfl, ha, htext, hb⟩ := h
  exact ⟨before ++ a, text, b, by rw [List.append_assoc], hbefore.append ha, htext, hb⟩

section Values

variable {readFloat : List Char → Option Decimal}

/-! ## §5. How a text begins. -/

theorem number_head {c : Char} (hc : c = '-' ∨ c.isDigit = true) :
    isBlank c = false ∧ c ≠ ']' := by
  rcases hc with rfl | hc
  · decide
  · refine ⟨?_, ?_⟩
    · unfold isBlank
      simp only [Bool.or_eq_false_iff, beq_eq_false_iff_ne]
      refine ⟨⟨⟨?_, ?_⟩, ?_⟩, ?_⟩ <;> (rintro rfl; cases hc)
    · rintro rfl
      cases hc

/-- A text begins with no blank, no closing bracket and no byte order mark. -/
theorem isText_head {v : Json} {text : List Char} (h : IsText readFloat v text) :
    ∃ c t, text = c :: t ∧ isBlank c = false ∧ c ≠ ']' ∧ c ≠ '\ufeff' := by
  have hnumber : ∀ {c : Char}, c = '-' ∨ c.isDigit = true → c ≠ '\ufeff' := by
    rintro c hc rfl
    rcases hc with hc | hc <;> cases hc
  cases v with
  | null => exact ⟨'n', "ull".toList, h, rfl, by decide, by decide⟩
  | bool b =>
      cases b
      · exact ⟨'f', "alse".toList, h, rfl, by decide, by decide⟩
      · exact ⟨'t', "rue".toList, h, rfl, by decide, by decide⟩
  | int n =>
      obtain ⟨sign, whole, hparts, rfl, -⟩ := h
      obtain ⟨c, t, htext, hc⟩ := hparts.head
      rw [List.append_nil, List.append_nil] at htext
      exact ⟨c, t, htext, (number_head hc).1, (number_head hc).2, hnumber hc⟩
  | float d =>
      obtain ⟨sign, whole, frac, ex, hparts, -, rfl, -⟩ := h
      obtain ⟨c, t, htext, hc⟩ := hparts.head
      exact ⟨c, t, htext, (number_head hc).1, (number_head hc).2, hnumber hc⟩
  | str s =>
      obtain ⟨body, rfl, -⟩ := h
      exact ⟨'"', _, rfl, rfl, by decide, by decide⟩
  | arr xs =>
      obtain ⟨body, rfl, -⟩ := h
      exact ⟨'[', _, rfl, rfl, by decide, by decide⟩
  | obj members =>
      obtain ⟨-, body, rfl, -⟩ := h
      exact ⟨'\x7b', _, rfl, rfl, by decide, by decide⟩

/-- The blanks before a text are skipped, and no more. -/
theorem skipBlanks_text {v : Json} {before text : List Char} (hbefore : Blanks before)
    (h : IsText readFloat v text) (after : List Char) :
    skipBlanks (before ++ (text ++ after)) = text ++ after := by
  obtain ⟨c, t, rfl, hc, -⟩ := isText_head h
  exact skipBlanks_append hbefore hc

end Values

end Json

end Rpy.Foundation

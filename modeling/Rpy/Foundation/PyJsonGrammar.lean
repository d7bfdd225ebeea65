/-
  Rpy.Foundation.PyJsonGrammar
  ────────────────────────────
  **WHAT IS A STRICT JSON TEXT OF A VALUE OF PYTHON.**

  The grammar says of a value what its texts are: blanks may stand around
  every value, key and separator, a code point of a literal is written as
  itself or escaped, and no object has a key twice.

    • `LiteralText`   — the texts of the code points of a literal,
    • `IsText`        — the texts of a value,
    • `scanChars_text`, `text_of_scanChars` — what is read as a literal,
    • `isText_head`   — how a text begins.
-/
import Rpy.Foundation.PyJson

namespace Rpy.Foundation.PyJson

open Rpy.Foundation.Json (Numeral Delimited hexDigit readUnit shortEscape signedInt)

/-! ## §1. The grammar. -/

/-- Blanks, or nothing. -/
def Blanks (cs : Text) : Prop := ∀ p ∈ cs, isBlank p = true

/-- Something with blanks around it. -/
def Spaced (p : Text → Prop) (cs : Text) : Prop :=
  ∃ before text after, cs = before ++ (text ++ after) ∧ Blanks before ∧ p text ∧ Blanks after

/-- `\uXXXX` -/
def escape (a b c d : Char) : Text :=
  [.char '\\', .char 'u', .char a, .char b, .char c, .char d]

/-- The text begins with the escape of the second half of a pair. -/
def BeginsLow (cs : Text) : Prop :=
  ∃ a b c d n rest, cs = escape a b c d ++ rest ∧ readUnit a b c d = some n ∧
    56320 ≤ n ∧ n < 57344

/-- A code point that is written as itself. -/
def Plain : CodePoint → Prop
  | .char c => 32 ≤ c.toNat ∧ c ≠ '"' ∧ c ≠ '\\'
  | .half _ => True

/-- The code points of a literal, and a text of them. -/
inductive LiteralText : Text → Text → Prop where
  | nil : LiteralText [] []
  | plain {p : CodePoint} {s cs : Text} :
      Plain p → LiteralText s cs → LiteralText (p :: s) (p :: cs)
  | short {e c : Char} {s cs : Text} :
      shortEscape e = some c → LiteralText s cs →
        LiteralText (.char c :: s) (.char '\\' :: .char e :: cs)
  -- the first half of a pair stands for itself where no second one follows it
  | unit {a b c d : Char} {n : Nat} {s cs : Text} :
      readUnit a b c d = some n → (55296 ≤ n ∧ n < 56320 → ¬ BeginsLow cs) → LiteralText s cs →
        LiteralText (chr n :: s) (escape a b c d ++ cs)
  | pair {a b c d a' b' c' d' : Char} {m n : Nat} {s cs : Text} :
      readUnit a b c d = some m → 55296 ≤ m ∧ m < 56320 →
      readUnit a' b' c' d' = some n → 56320 ≤ n ∧ n < 57344 → LiteralText s cs →
        LiteralText (.char (Char.ofNat (65536 + (m - 55296) * 1024 + (n - 56320))) :: s)
          (escape a b c d ++ (escape a' b' c' d' ++ cs))

/-- A text between quotation marks. -/
def IsLiteral (s cs : Text) : Prop :=
  ∃ body, cs = .char '"' :: (body ++ [.char '"']) ∧ LiteralText s body

section Grammar

variable {φ : Type} (float : List Char → φ)

mutual
/-- The text is one of the value. -/
def IsText : Value φ → Text → Prop
  | .null, cs => cs = ofChars "null".toList
  | .bool b, cs => cs = ofChars (if b then "true" else "false").toList
  | .int i, cs => ∃ n : Numeral, n.Ok ∧ n.isInt = true ∧ cs = ofChars n.text ∧
      i = signedInt n.sign n.whole
  | .float x, cs => ∃ n : Numeral, n.Ok ∧ n.isInt = false ∧ cs = ofChars n.text ∧
      x = float n.text
  | .str s, cs => IsLiteral s cs
  | .arr xs, cs => ∃ body, cs = .char '[' :: (body ++ [.char ']']) ∧ IsItems xs body
  | .obj members, cs => (members.map Prod.fst).Nodup ∧
      ∃ body, cs = .char '\x7b' :: (body ++ [.char '\x7d']) ∧ IsMembers members body
  termination_by structural v => v

/-- The text between the brackets of an array. -/
def IsItems : List (Value φ) → Text → Prop
  | [], cs => Blanks cs
  | x :: xs, cs => ∃ first more, cs = first ++ more ∧ Spaced (IsText x) first ∧ IsMoreItems xs more
  termination_by structural xs => xs

/-- The items after the first one. -/
def IsMoreItems : List (Value φ) → Text → Prop
  | [], cs => cs = []
  | x :: xs, cs => ∃ first more, cs = .char ',' :: (first ++ more) ∧ Spaced (IsText x) first ∧
      IsMoreItems xs more
  termination_by structural xs => xs

/-- The text between the braces of an object. -/
def IsMembers : List (Text × Value φ) → Text → Prop
  | [], cs => Blanks cs
  | (k, v) :: ms, cs => ∃ key value more, cs = key ++ .char ':' :: (value ++ more) ∧
      Spaced (IsLiteral k) key ∧ Spaced (IsText v) value ∧ IsMoreMembers ms more
  termination_by structural ms => ms

/-- The members after the first one. -/
def IsMoreMembers : List (Text × Value φ) → Text → Prop
  | [], cs => cs = []
  | (k, v) :: ms, cs => ∃ key value more,
      cs = .char ',' :: (key ++ .char ':' :: (value ++ more)) ∧
      Spaced (IsLiteral k) key ∧ Spaced (IsText v) value ∧ IsMoreMembers ms more
  termination_by structural ms => ms
end

end Grammar

/-! ## §2. The escape of half a pair. -/

/-- An escape has six characters. -/
theorem length_escape (a b c d : Char) : (escape a b c d).length = 6 := rfl

/-- The scanner looks for the second half of a pair in the next escape. -/
theorem lowEscape_eq_some_iff {cs rest : Text} {n : Nat} : lowEscape cs = some (n, rest) ↔
    ∃ a b c d, cs = escape a b c d ++ rest ∧ readUnit a b c d = some n ∧
      56320 ≤ n ∧ n < 57344 := by
  constructor
  · intro h
    unfold lowEscape at h
    split at h
    · rename_i a b c d rest'
      obtain ⟨m, hm, heq⟩ := Option.map_eq_some_iff.1 h
      obtain ⟨rfl, rfl⟩ := Prod.mk.inj heq
      obtain ⟨hunit, hlow⟩ := Option.filter_eq_some_iff.1 hm
      exact ⟨a, b, c, d, rfl, hunit, of_decide_eq_true hlow⟩
    · cases h
  · rintro ⟨a, b, c, d, rfl, hunit, hlow⟩
    show ((readUnit a b c d).filter fun n => decide (56320 ≤ n ∧ n < 57344)).map (·, rest) = _
    rw [hunit, Option.filter_some, if_pos (decide_eq_true hlow)]
    rfl

/-- It finds none where none begins. -/
theorem lowEscape_eq_none {cs : Text} (h : ¬ BeginsLow cs) : lowEscape cs = none := by
  cases hlow : lowEscape cs with
  | none => rfl
  | some p =>
      obtain ⟨a, b, c, d, hcs, hunit, hbounds⟩ := lowEscape_eq_some_iff.1 hlow
      exact absurd ⟨a, b, c, d, p.1, p.2, hcs, hunit, hbounds⟩ h

/-- No quotation mark is a digit of an escape. -/
theorem quote_not_mem_escape {a b c d : Char} {n : Nat} (h : readUnit a b c d = some n) :
    CodePoint.char '"' ∉ escape a b c d := by
  have hdigit : ∀ {x : Char} {k : Nat}, hexDigit x = some k → x ≠ '"' := by
    rintro x k hx rfl
    cases hx
  obtain ⟨_, ha, h⟩ := Option.bind_eq_some_iff.1 h
  obtain ⟨_, hb, h⟩ := Option.bind_eq_some_iff.1 h
  obtain ⟨_, hc, h⟩ := Option.bind_eq_some_iff.1 h
  obtain ⟨_, hd, -⟩ := Option.bind_eq_some_iff.1 h
  simp [escape, (hdigit ha).symm, (hdigit hb).symm, (hdigit hc).symm, (hdigit hd).symm]

/-- An escape ends before the quotation mark that ends its literal. -/
theorem BeginsLow.of_append {cs r : Text} (h : BeginsLow (cs ++ .char '"' :: r)) :
    BeginsLow cs := by
  obtain ⟨a, b, c, d, n, rest, heq, hunit, hlow⟩ := h
  rcases List.append_eq_append_iff.1 heq with ⟨es, hescape, hrest⟩ | ⟨es, hcs, -⟩
  · cases es with
    | nil => exact ⟨a, b, c, d, n, [], by rw [hescape]; simp, hunit, hlow⟩
    | cons p es =>
        obtain ⟨rfl, -⟩ := List.cons.inj hrest
        exact absurd (hescape ▸ List.mem_append_right cs List.mem_cons_self)
          (quote_not_mem_escape hunit)
  · exact ⟨a, b, c, d, n, es, hcs, hunit, hlow⟩

/-! ## §3. Literals. -/

/-- Something that is no quotation mark and is read as a code point goes on. -/
theorem scanChars_of_readChar {fuel : Nat} {cs rest s r : Text} {p : CodePoint}
    (hquote : ∀ t, cs ≠ .char '"' :: t) (hread : readChar cs = some (p, rest))
    (hrest : scanChars fuel rest = .ok (s, r)) : scanChars (fuel + 1) cs = .ok (p :: s, r) := by
  unfold scanChars
  split
  · exact absurd rfl (hquote _)
  · rw [hread]
    simp only
    rw [hrest]
    rfl

/-- A character that stands for itself. -/
theorem readChar_plain {p : CodePoint} (h : Plain p) (r : Text) :
    readChar (p :: r) = some (p, r) := by
  cases p with
  | half n => rfl
  | char c =>
      obtain ⟨hcontrol, -, hslash⟩ := h
      have hne : CodePoint.char c ≠ .char '\\' := fun heq => hslash (CodePoint.char.inj heq)
      unfold readChar
      split
      · rename_i heq
        exact absurd (List.cons.inj heq).1 hne
      · rename_i heq
        exact absurd (List.cons.inj heq).1 hne
      · rename_i heq
        exact absurd (List.cons.inj heq).1 hne
      · rename_i heq
        obtain ⟨hc, rfl⟩ := List.cons.inj heq
        obtain rfl := CodePoint.char.inj hc
        exact if_neg (Nat.not_lt.2 hcontrol)
      · rename_i heq
        cases (List.cons.inj heq).1
      · rename_i heq
        cases heq

/-- A character with a short escape. -/
theorem readChar_short {e c : Char} (h : shortEscape e = some c) (r : Text) :
    readChar (.char '\\' :: .char e :: r) = some (.char c, r) := by
  have hu : e ≠ 'u' := by
    rintro rfl
    cases h
  unfold readChar
  split
  · rename_i heq
    exact absurd (CodePoint.char.inj (List.cons.inj (List.cons.inj heq).2).1) hu
  · rename_i heq
    obtain ⟨he, rfl⟩ := List.cons.inj (List.cons.inj heq).2
    obtain rfl := CodePoint.char.inj he
    rw [h]
    rfl
  · rename_i hshort heq
    exact absurd (List.cons.inj heq).2.symm (hshort _ _)
  · rename_i hslash heq
    exact absurd (CodePoint.char.inj (List.cons.inj heq).1).symm hslash
  · rename_i heq
    cases (List.cons.inj heq).1
  · rename_i heq
    cases heq

/-- A unit, and the one after it when the two are a pair. -/
theorem readChar_escape {a b c d : Char} {n : Nat} (h : readUnit a b c d = some n) (r : Text) :
    readChar (escape a b c d ++ r) = some (pairUnits n r) := by
  show (readUnit a b c d).map (pairUnits · r) = _
  rw [h]
  rfl

/-- **A text of a literal is read as its code points.** -/
theorem scanChars_text {s body : Text} (h : LiteralText s body) :
    ∀ {fuel : Nat} (r : Text), body.length < fuel →
      scanChars fuel (body ++ .char '"' :: r) = .ok (s, r) := by
  have hbegins : ∀ t r : Text, .char '\\' :: t ≠ .char '"' :: r := by
    intro t r heq
    cases heq
  induction h with
  | nil =>
      intro fuel r hfuel
      obtain ⟨fuel, rfl⟩ : ∃ k, fuel = k + 1 := ⟨fuel - 1, by omega⟩
      rfl
  | @plain p s cs hplain _ ih =>
      intro fuel r hfuel
      obtain ⟨fuel, rfl⟩ : ∃ k, fuel = k + 1 := ⟨fuel - 1, by omega⟩
      rw [List.length_cons] at hfuel
      refine scanChars_of_readChar (fun t heq => ?_) (readChar_plain hplain _) (ih r (by omega))
      obtain ⟨rfl, -⟩ := List.cons.inj heq
      exact hplain.2.1 rfl
  | short hshort _ ih =>
      intro fuel r hfuel
      obtain ⟨fuel, rfl⟩ : ∃ k, fuel = k + 1 := ⟨fuel - 1, by omega⟩
      rw [List.length_cons, List.length_cons] at hfuel
      exact scanChars_of_readChar (fun t => hbegins _ t) (readChar_short hshort _)
        (ih r (by omega))
  | @unit a b c d n s cs hunit hlow _ ih =>
      intro fuel r hfuel
      obtain ⟨fuel, rfl⟩ : ∃ k, fuel = k + 1 := ⟨fuel - 1, by omega⟩
      rw [List.length_append, length_escape] at hfuel
      -- the first half of a pair is not joined with what follows it
      have hpair : pairUnits n (cs ++ .char '"' :: r) = (chr n, cs ++ .char '"' :: r) := by
        unfold pairUnits
        split
        · rename_i hhigh
          rw [lowEscape_eq_none fun hbegin => hlow hhigh hbegin.of_append]
        · rfl
      rw [List.append_assoc]
      exact scanChars_of_readChar (fun t => hbegins _ t)
        ((readChar_escape hunit _).trans (congrArg some hpair)) (ih r (by omega))
  | @pair a b c d a' b' c' d' m n s cs hfirst hhigh hsecond hlow _ ih =>
      intro fuel r hfuel
      obtain ⟨fuel, rfl⟩ : ∃ k, fuel = k + 1 := ⟨fuel - 1, by omega⟩
      rw [List.length_append, List.length_append, length_escape, length_escape] at hfuel
      have hpair : pairUnits m (escape a' b' c' d' ++ (cs ++ .char '"' :: r)) =
          (.char (Char.ofNat (65536 + (m - 55296) * 1024 + (n - 56320))), cs ++ .char '"' :: r) := by
        unfold pairUnits
        rw [if_pos hhigh, lowEscape_eq_some_iff.2 ⟨a', b', c', d', rfl, hsecond, hlow⟩]
      rw [List.append_assoc, List.append_assoc]
      exact scanChars_of_readChar (fun t => hbegins _ t)
        ((readChar_escape hfirst _).trans (congrArg some hpair)) (ih r (by omega))

/-- What is read as a code point is a text of one. -/
theorem literalText_of_readChar {cs more : Text} {p : CodePoint}
    (hquote : ∀ t, cs ≠ .char '"' :: t) (h : readChar cs = some (p, more)) :
    ∃ front, cs = front ++ more ∧ ∀ s body r, more = body ++ .char '"' :: r →
      LiteralText s body → LiteralText (p :: s) (front ++ body) := by
  unfold readChar at h
  split at h
  -- `\u` and four digits: a high half takes the low half after it, any other unit stands
  -- alone.
  · rename_i a b c d rest
    obtain ⟨n, hunit, h⟩ := Option.map_eq_some_iff.1 h
    unfold pairUnits at h
    split at h
    · rename_i hhigh
      split at h
      · rename_i m rest' hlow
        obtain ⟨rfl, rfl⟩ := Prod.mk.inj h
        obtain ⟨a', b', c', d', rfl, hsecond, hbounds⟩ := lowEscape_eq_some_iff.1 hlow
        exact ⟨escape a b c d ++ escape a' b' c' d', rfl, fun s body _ _ htext =>
          List.append_assoc _ _ body ▸ .pair hunit hhigh hsecond hbounds htext⟩
      · rename_i hlow
        obtain ⟨rfl, rfl⟩ := Prod.mk.inj h
        refine ⟨escape a b c d, rfl, fun s body r hmore htext => .unit hunit ?_ htext⟩
        -- No low half follows, or it would have been read with the high one.
        rintro - ⟨a', b', c', d', m, t, rfl, hsecond, hbounds⟩
        rw [hmore, List.append_assoc, lowEscape_eq_some_iff.2 ⟨a', b', c', d', rfl, hsecond,
          hbounds⟩] at hlow
        cases hlow
    · rename_i hhigh
      obtain ⟨rfl, rfl⟩ := Prod.mk.inj h
      exact ⟨escape a b c d, rfl, fun s body _ _ htext =>
        .unit hunit (fun hbounds => absurd hbounds hhigh) htext⟩
  -- An escape of one letter.
  · rename_i e rest _
    obtain ⟨c, hshort, h⟩ := Option.map_eq_some_iff.1 h
    obtain ⟨rfl, rfl⟩ := Prod.mk.inj h
    exact ⟨[.char '\\', .char e], rfl, fun s body _ _ htext => .short hshort htext⟩
  · cases h
  -- A character as it is.
  · rename_i c rest _ _ hslash
    split at h
    · cases h
    · rename_i hcontrol
      obtain ⟨rfl, rfl⟩ := Prod.mk.inj (Option.some.inj h)
      refine ⟨[.char c], rfl, fun s body _ _ htext => .plain ⟨Nat.le_of_not_lt hcontrol, ?_, ?_⟩ htext⟩
      · rintro rfl
        exact hquote _ rfl
      · rintro rfl
        exact hslash rfl
  -- Half a pair as it is: Python keeps it.
  · obtain ⟨rfl, rfl⟩ := Prod.mk.inj (Option.some.inj h)
    exact ⟨[_], rfl, fun s body _ _ htext => .plain trivial htext⟩
  · cases h

/-- **What is read as a literal is a text of it.** -/
theorem text_of_scanChars {fuel : Nat} {cs s rest : Text}
    (h : scanChars fuel cs = .ok (s, rest)) :
    ∃ body, cs = body ++ .char '"' :: rest ∧ LiteralText s body := by
  induction fuel generalizing cs s with
  | zero => cases h
  | succ fuel ih =>
      unfold scanChars at h
      split at h
      · obtain ⟨rfl, rfl⟩ := Prod.mk.inj (Except.ok.inj h)
        exact ⟨[], rfl, .nil⟩
      · rename_i hquote
        split at h
        · cases h
        · rename_i p more hread
          obtain ⟨⟨s', rest'⟩, hscan, heq⟩ := map_eq_ok.1 h
          obtain ⟨rfl, rfl⟩ := Prod.mk.inj heq
          obtain ⟨front, rfl, htext⟩ := literalText_of_readChar hquote hread
          obtain ⟨body, rfl, hbody⟩ := ih hscan
          exact ⟨front ++ body, by rw [List.append_assoc], htext _ _ _ rfl hbody⟩

/-! ## §4. Numbers. -/

/-- The characters a text begins with. -/
theorem leading_append (cs : List Char) (r : Text) :
    leading (ofChars cs ++ r) = cs ++ leading r := by
  induction cs with
  | nil => rfl
  | cons c cs ih => exact congrArg (c :: ·) ih

/-- A text begins with the characters that lead it. -/
theorem exists_leading (cs : Text) : ∃ r, cs = ofChars (leading cs) ++ r := by
  induction cs with
  | nil => exact ⟨[], rfl⟩
  | cons p cs ih =>
      cases p with
      | half n => exact ⟨.half n :: cs, rfl⟩
      | char c =>
          obtain ⟨r, hr⟩ := ih
          exact ⟨r, congrArg (.char c :: ·) hr⟩

/-- Characters one after the other. -/
theorem ofChars_append (cs ds : List Char) : ofChars (cs ++ ds) = ofChars cs ++ ofChars ds :=
  List.map_append

/-- What follows characters that were read. -/
theorem drop_ofChars (cs : List Char) (r : Text) : (ofChars cs ++ r).drop cs.length = r := by
  have hlength : (ofChars cs).length = cs.length := List.length_map ..
  rw [← hlength, List.drop_left]

section Values

variable {φ : Type} {float : List Char → φ} {maxDigits : Nat}

/-- **A text of a number is read to its end.** -/
theorem scanNumber_text {n : Numeral} (h : n.Ok) {r : Text} (hr : Delimited (leading r)) :
    scanNumber float maxDigits (ofChars n.text ++ r) =
      if n.isInt then
        if maxDigits < n.whole.length then .error .value
        else .ok (.int (signedInt n.sign n.whole), r)
      else .ok (.float (float n.text), r) := by
  have hat : Json.numeralAt (leading (ofChars n.text ++ r)) = some n := by
    rw [leading_append]
    exact Json.numeralAt_text h hr
  unfold scanNumber
  rw [hat]
  simp only [drop_ofChars]

/-- **What is read as a number is a text of it, within the limits.** -/
theorem text_of_scanNumber {cs rest : Text} {v : Value φ}
    (h : scanNumber float maxDigits cs = .ok (v, rest)) : ∃ text, cs = text ++ rest ∧
      IsText float v text ∧ depth v = 0 ∧ longest v ≤ maxDigits := by
  unfold scanNumber at h
  split at h
  · cases h
  rename_i n hn
  obtain ⟨hparts, t, hlead⟩ := Json.parts_of_numeralAt hn
  obtain ⟨r, hr⟩ := exists_leading cs
  rw [← hlead, ofChars_append, List.append_assoc] at hr
  have hdrop : cs.drop n.text.length = ofChars t ++ r := by
    rw [hr]
    exact drop_ofChars _ _
  dsimp only at h
  rw [hdrop] at h
  split at h
  · rename_i hint
    split at h
    · cases h
    · rename_i hlength
      obtain ⟨rfl, rfl⟩ := Prod.mk.inj (Except.ok.inj h)
      refine ⟨ofChars n.text, hr, ⟨n, hparts, hint, rfl, rfl⟩, rfl, ?_⟩
      show (Nat.toDigits 10 (signedInt n.sign n.whole).natAbs).length ≤ maxDigits
      rw [Json.natAbs_signedInt, Json.length_toDigits_whole hparts.whole]
      exact Nat.le_of_not_lt hlength
  · rename_i hint
    obtain ⟨rfl, rfl⟩ := Prod.mk.inj (Except.ok.inj h)
    exact ⟨ofChars n.text, hr, ⟨n, hparts, Bool.eq_false_iff.2 hint, rfl, rfl⟩, rfl, Nat.zero_le _⟩

/-! ## §5. Blanks. -/

/-- Blanks are skipped up to the first character that is none. -/
theorem skipBlanks_append {before : Text} (h : Blanks before) {p : CodePoint} {t : Text}
    (hp : isBlank p = false) : skipBlanks (before ++ p :: t) = p :: t := by
  unfold skipBlanks
  rw [List.dropWhile_append_of_pos h, List.dropWhile_cons_of_neg (by simp [hp])]

/-- The blanks that are skipped. -/
theorem exists_skipBlanks (cs : Text) : ∃ before, Blanks before ∧ cs = before ++ skipBlanks cs :=
  ⟨cs.takeWhile isBlank, fun _ hp => List.mem_takeWhile_imp hp,
    (List.takeWhile_append_dropWhile).symm⟩

/-- Blanks one after the other are blanks. -/
theorem Blanks.append {a b : Text} (ha : Blanks a) (hb : Blanks b) : Blanks (a ++ b) :=
  List.forall_mem_append.2 ⟨ha, hb⟩

/-- There may be no blanks at all. -/
theorem blanks_nil : Blanks [] := List.forall_mem_nil _

/-- Blanks may stand before what ends a value. -/
theorem delimited_blanks {r after : Text} (hr : Delimited (leading r)) (h : Blanks after) :
    Delimited (leading (after ++ r)) := by
  cases after with
  | nil => exact hr
  | cons p t =>
      have hp := h p List.mem_cons_self
      cases p with
      | half n => cases hp
      | char c => exact .inr ⟨c, leading (t ++ r), rfl, .inr (.inr (.inr (Json.isBlank_cases hp)))⟩

/-- Nothing that goes on with a number is a blank. -/
theorem Blanks.delimited {after : Text} (h : Blanks after) : Delimited (leading after) := by
  have hnil : Delimited (leading (after ++ [])) := delimited_blanks (.inl rfl) h
  rwa [List.append_nil] at hnil

/-- More blanks before what has blanks before it. -/
theorem Spaced.blanks {p : Text → Prop} {before cs : Text} (hbefore : Blanks before)
    (h : Spaced p cs) : Spaced p (before ++ cs) := by
  obtain ⟨a, text, b, rfl, ha, htext, hb⟩ := h
  exact ⟨before ++ a, text, b, by rw [List.append_assoc], hbefore.append ha, htext, hb⟩

/-- The same for the items of an array. -/
theorem IsItems.blanks {xs : List (Value φ)} {before body : Text} (hbefore : Blanks before)
    (h : IsItems float xs body) : IsItems float xs (before ++ body) := by
  cases xs with
  | nil => exact hbefore.append h
  | cons x xs =>
      obtain ⟨first, more, rfl, hfirst, hmore⟩ := h
      exact ⟨before ++ first, more, by rw [List.append_assoc], hfirst.blanks hbefore, hmore⟩

/-- And for the members of an object. -/
theorem IsMembers.blanks {ms : List (Text × Value φ)} {before body : Text}
    (hbefore : Blanks before) (h : IsMembers float ms body) :
    IsMembers float ms (before ++ body) := by
  cases ms with
  | nil => exact hbefore.append h
  | cons m ms =>
      obtain ⟨key, value, more, rfl, hkey, hvalue, hmore⟩ := h
      exact ⟨before ++ key, value, more, by rw [List.append_assoc], hkey.blanks hbefore, hvalue,
        hmore⟩

/-! ## §6. How a text begins. -/

/-- A number begins with a sign or a digit. -/
theorem ofChars_text_head {n : Numeral} (h : n.Ok) :
    ∃ c t, ofChars n.text = .char c :: t ∧ (c = '-' ∨ c.isDigit = true) := by
  obtain ⟨c, t, htext, hc⟩ := Json.NumberParts.head h
  exact ⟨c, ofChars t, congrArg ofChars htext, hc⟩

/-- A text begins with no blank, no closing bracket and no byte order mark. -/
theorem isText_head {v : Value φ} {text : Text} (h : IsText float v text) :
    ∃ c t, text = .char c :: t ∧ isBlank (.char c) = false ∧ c ≠ ']' ∧ c ≠ '\ufeff' := by
  have hnumber : ∀ {n : Numeral}, n.Ok → ∃ c t, ofChars n.text = .char c :: t ∧
      isBlank (.char c) = false ∧ c ≠ ']' ∧ c ≠ '\ufeff' := by
    intro n hn
    obtain ⟨c, t, htext, hc⟩ := ofChars_text_head hn
    refine ⟨c, t, htext, (Json.number_head hc).1, (Json.number_head hc).2, ?_⟩
    rintro rfl
    rcases hc with hc | hc <;> cases hc
  cases v with
  | null => exact ⟨'n', ofChars "ull".toList, h, rfl, by decide, by decide⟩
  | bool b =>
      cases b
      · exact ⟨'f', ofChars "alse".toList, h, rfl, by decide, by decide⟩
      · exact ⟨'t', ofChars "rue".toList, h, rfl, by decide, by decide⟩
  | int i =>
      obtain ⟨n, hn, -, rfl, -⟩ := h
      exact hnumber hn
  | float x =>
      obtain ⟨n, hn, -, rfl, -⟩ := h
      exact hnumber hn
  | str s =>
      obtain ⟨body, rfl, -⟩ := h
      exact ⟨'"', _, rfl, rfl, by decide, by decide⟩
  | arr xs =>
      obtain ⟨body, rfl, -⟩ := h
      exact ⟨'[', _, rfl, rfl, by decide, by decide⟩
  | obj members =>
      obtain ⟨-, body, rfl, -⟩ := h
      exact ⟨'\x7b', _, rfl, rfl, by decide, by decide⟩

/-- The blanks before a text are skipped, and no more. -/
theorem skipBlanks_text {v : Value φ} {before text : Text} (hbefore : Blanks before)
    (h : IsText float v text) (after : Text) :
    skipBlanks (before ++ (text ++ after)) = text ++ after := by
  obtain ⟨c, t, rfl, hc, -⟩ := isText_head h
  exact skipBlanks_append hbefore hc

end Values

end Rpy.Foundation.PyJson

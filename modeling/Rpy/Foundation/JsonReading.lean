/-
  Rpy.Foundation.JsonReading
  ──────────────────────────
  **WHAT THE READER ACCEPTS.**

  The reader accepts the texts of the grammar and no others, up to its own
  limits: how deep a text is nested and how long an integer is.

    • `readableIn`          — the limits of the reader,
    • `scanValue_text`      — every text within the limits is read,
    • `text_of_scanValue`   — and nothing else is,
    • `loads_eq_ok_iff`     — **so reading is being a text of a value**.
-/
import Rpy.Foundation.JsonGrammar

namespace Rpy.Foundation

namespace Json

/-! ## §1. The limits of the reader. -/

mutual
/-- A text of the value can be read: it is nested at most `depth` deep, no
object has a key twice, no integer is too long, and its floats are floats. -/
def readableIn (isFloat : Decimal → Bool) : Nat → Json → Bool
  | _, .float d => isFloat d
  | _, .int n => decide ((Nat.toDigits 10 n.natAbs).length ≤ 4300)
  | depth + 1, .arr xs => readableItemsIn isFloat depth xs
  | depth + 1, .obj members =>
      decide (members.map Prod.fst).Nodup && readableMembersIn isFloat depth members
  | 0, .arr _ => false
  | 0, .obj _ => false
  | _, _ => true
  termination_by structural _ v => v

def readableItemsIn (isFloat : Decimal → Bool) : Nat → List Json → Bool
  | _, [] => true
  | depth, x :: xs => readableIn isFloat depth x && readableItemsIn isFloat depth xs
  termination_by structural _ xs => xs

def readableMembersIn (isFloat : Decimal → Bool) : Nat → List (String × Json) → Bool
  | _, [] => true
  | depth, (_, v) :: ms => readableIn isFloat depth v && readableMembersIn isFloat depth ms
  termination_by structural _ ms => ms
end

section Values

variable {readFloat : List Char → Option Decimal} {isFloat : Decimal → Bool}

/-! ## §2. Numbers and literals as values. -/

/-- A text that begins like a number is one. -/
theorem scanValue_number (fuel depth : Nat) {c : Char} {t : List Char}
    (hc : c = '-' ∨ c.isDigit = true) :
    scanValue readFloat (fuel + 1) depth (c :: t) = scanNumber readFloat (c :: t) := by
  have hne : c ≠ '"' ∧ c ≠ '[' ∧ c ≠ '\x7b' ∧ c ≠ 'n' ∧ c ≠ 't' ∧ c ≠ 'f' := by
    rcases hc with rfl | hc
    · decide
    · refine ⟨?_, ?_, ?_, ?_, ?_, ?_⟩ <;> (rintro rfl; cases hc)
  rw [scanValue]
  · rintro rest h
    exact hne.1 (List.cons.inj h).1
  · rintro rest h
    exact hne.2.1 (List.cons.inj h).1
  · rintro rest h
    exact hne.2.2.1 (List.cons.inj h).1
  · rintro rest h
    exact hne.2.2.2.1 (List.cons.inj h).1
  · rintro rest h
    exact hne.2.2.2.2.1 (List.cons.inj h).1
  · rintro rest h
    exact hne.2.2.2.2.2 (List.cons.inj h).1

/-- A literal as a value. -/
theorem scanValue_literal {s : String} {text : List Char} (h : IsLiteral s text)
    (fuel depth : Nat) (r : List Char) :
    scanValue readFloat (fuel + 1) depth (text ++ r) = .ok (.str s, r) := by
  obtain ⟨body, rfl, hbody⟩ := h
  have hscan : scanValue readFloat (fuel + 1) depth ('"' :: (body ++ '"' :: r)) =
      (scanChars ((body ++ '"' :: r).length + 1) (body ++ '"' :: r)).map
        fun scanned => (.str (String.ofList scanned.1), scanned.2) := by
    rw [scanValue]
  have htext : '"' :: (body ++ ['"']) ++ r = '"' :: (body ++ '"' :: r) := by simp
  rw [htext, hscan, scanChars_text hbody r (by rw [List.length_append]; omega)]
  show Except.ok (Json.str (String.ofList s.toList), r) = _
  rw [String.ofList_toList]

/-! ## §3. Every text within the limits is read. -/

theorem scanValue_bracket (fuel depth : Nat) (cs : List Char) :
    scanValue readFloat (fuel + 1) (depth + 1) ('[' :: cs) =
      match skipBlanks cs with
      | ']' :: rest => .ok (.arr [], rest)
      | rest => (scanItems readFloat fuel depth rest).map fun (xs, rest) => (.arr xs, rest) := rfl

theorem scanValue_brace (fuel depth : Nat) (cs : List Char) :
    scanValue readFloat (fuel + 1) (depth + 1) ('\x7b' :: cs) =
      (match skipBlanks cs with
      | '\x7d' :: rest => .ok (.obj [], rest)
      | rest => do
          let (ms, rest) ← scanMembers readFloat fuel depth rest
          if (ms.map Prod.fst).Nodup then .ok (.obj ms, rest) else .error .value) := rfl

/-- What follows an item or a member ends it, and is not skipped. -/
theorem delimited_close {more : List Char} {close : Char} (r : List Char)
    (hclose : close = ']' ∨ close = '\x7d') (hmore : more = [] ∨ ∃ t, more = ',' :: t) :
    ∃ c t, more ++ close :: r = c :: t ∧ isBlank c = false ∧ Delimited (c :: t) := by
  rcases hmore with rfl | ⟨t, rfl⟩
  · refine ⟨close, r, rfl, ?_⟩
    rcases hclose with rfl | rfl
    · exact ⟨rfl, .inr ⟨_, _, rfl, .inr (.inl rfl)⟩⟩
    · exact ⟨rfl, .inr ⟨_, _, rfl, .inr (.inr (.inl rfl))⟩⟩
  · exact ⟨',', t ++ close :: r, rfl, rfl, .inr ⟨_, _, rfl, .inl rfl⟩⟩

theorem isMoreItems_head {xs : List Json} {more : List Char} (h : IsMoreItems readFloat xs more) :
    more = [] ∨ ∃ t, more = ',' :: t := by
  cases xs with
  | nil => exact .inl h
  | cons x xs =>
      obtain ⟨first, rest, rfl, -⟩ := h
      exact .inr ⟨_, rfl⟩

theorem isMoreMembers_head {ms : List (String × Json)} {more : List Char}
    (h : IsMoreMembers readFloat ms more) : more = [] ∨ ∃ t, more = ',' :: t := by
  cases ms with
  | nil => exact .inl h
  | cons m ms =>
      obtain ⟨key, value, rest, rfl, -⟩ := h
      exact .inr ⟨_, rfl⟩

/-- The key of a member, and the colon after it. -/
theorem scanMembers_key {k : String} {chars blanks : List Char}
    (hchars : LiteralText k.toList chars) (hblanks : Blanks blanks) (fuel depth : Nat)
    (r : List Char) :
    scanMembers readFloat (fuel + 1) depth ('"' :: (chars ++ '"' :: (blanks ++ ':' :: r))) =
      (do
        let (v, rest) ← scanValue readFloat fuel depth (skipBlanks r)
        match skipBlanks rest with
        | '\x7d' :: rest => .ok ([(k, v)], rest)
        | ',' :: rest =>
            (scanMembers readFloat fuel depth (skipBlanks rest)).map fun (ms, rest) =>
              ((k, v) :: ms, rest)
        | _ => .error .value) := by
  have hcolon : skipBlanks (blanks ++ ':' :: r) = ':' :: r := skipBlanks_append hblanks rfl
  rw [scanMembers, scanChars_text hchars _ (by rw [List.length_append]; omega)]
  simp only [bind, Except.bind, hcolon, String.ofList_toList]
  -- the `match` of the statement is that of the definition
  try rfl

mutual
/-- **A text of a value is read as the value**, whatever ends it. -/
theorem scanValue_text : ∀ (v : Json) (depth fuel : Nat) (text r : List Char),
    IsText readFloat v text → readableIn isFloat depth v = true → Delimited r →
    2 * text.length ≤ fuel → scanValue readFloat fuel depth (text ++ r) = .ok (v, r)
  | v, depth, 0, text, r, h, _, _, hfuel => by
      -- No fuel is left for a text that is not empty.
      obtain ⟨c, t, rfl, -⟩ := isText_head h
      rw [List.length_cons] at hfuel
      omega
  | .null, depth, fuel + 1, _, r, rfl, _, _, _ => rfl
  | .bool true, depth, fuel + 1, _, r, rfl, _, _, _ => rfl
  | .bool false, depth, fuel + 1, _, r, rfl, _, _, _ => rfl
  | .int n, depth, fuel + 1, text, r, h, hv, hr, _ => by
      obtain ⟨sign, whole, hparts, rfl, rfl⟩ := h
      -- The limit on digits is one on the whole part, zeros in front being no part of a text.
      have hlimit : (Nat.toDigits 10 (signedInt sign whole).natAbs).length ≤ 4300 := by
        cases depth <;> exact of_decide_eq_true hv
      rw [natAbs_signedInt, length_toDigits_whole hparts.whole] at hlimit
      obtain ⟨c, t, htext, hc⟩ := hparts.head
      have hscan : scanNumber readFloat (sign ++ (whole ++ ([] ++ [])) ++ r) = _ :=
        scanNumber_text hparts hr
      simp only [List.append_nil] at htext hscan
      rw [htext, List.cons_append] at hscan ⊢
      rw [scanValue_number fuel depth hc, hscan]
      exact if_neg (Nat.not_lt.2 hlimit)
  | .float d, depth, fuel + 1, text, r, h, _, hr, _ => by
      obtain ⟨sign, whole, frac, ex, hparts, hpoint, rfl, hd⟩ := h
      obtain ⟨c, t, htext, hc⟩ := hparts.head
      have hscan : scanNumber readFloat (sign ++ (whole ++ (frac ++ ex)) ++ r) = _ :=
        scanNumber_text hparts hr
      rw [hpoint, hd] at hscan
      rw [htext, List.cons_append] at hscan ⊢
      rw [scanValue_number fuel depth hc, hscan]
      rfl
  | .str s, depth, fuel + 1, text, r, h, _, _, _ => scanValue_literal h fuel depth r
  | .arr xs, 0, _ + 1, _, _, _, hv, _, _ => by cases hv
  | .obj ms, 0, _ + 1, _, _, _, hv, _, _ => by cases hv
  | .arr xs, depth + 1, fuel + 1, text, r, h, hv, _, hfuel => by
      obtain ⟨body, rfl, hbody⟩ := h
      -- An array: the reader sees the bracket, skips blanks and reads the items.
      have hinput : '[' :: (body ++ [']']) ++ r = '[' :: (body ++ ']' :: r) := by simp
      rw [hinput, scanValue_bracket]
      cases xs with
      | nil =>
          rw [skipBlanks_append hbody (c := ']') rfl]
          rfl
      | cons x xs =>
          have hitems := scanItems_text (x :: xs) depth fuel body r (List.cons_ne_nil x xs) hbody hv
            (by simp only [List.length_cons, List.length_append, List.length_nil] at hfuel; omega)
          obtain ⟨first, more, rfl, ⟨a, text, b, rfl, ha, htext, -⟩, -⟩ := hbody
          obtain ⟨c, t, rfl, hblank, hclose, -⟩ := isText_head htext
          have hskip : skipBlanks (a ++ (c :: t ++ b) ++ more ++ ']' :: r) =
              c :: (t ++ (b ++ (more ++ ']' :: r))) := by
            have happend : a ++ (c :: t ++ b) ++ more ++ ']' :: r =
                a ++ c :: (t ++ (b ++ (more ++ ']' :: r))) := by simp
            rw [happend]
            exact skipBlanks_append ha hblank
          rw [hskip] at hitems ⊢
          split
          · rename_i heq
            exact absurd (List.cons.inj heq).1 hclose
          · rw [hitems]
            rfl
  | .obj ms, depth + 1, fuel + 1, text, r, h, hv, _, hfuel => by
      obtain ⟨hnodup, body, rfl, hbody⟩ := h
      have hboth : (decide (ms.map Prod.fst).Nodup && readableMembersIn isFloat depth ms) = true := hv
      rw [Bool.and_eq_true] at hboth
      -- An object: as an array, and the keys must differ.
      have hinput : '\x7b' :: (body ++ ['\x7d']) ++ r = '\x7b' :: (body ++ '\x7d' :: r) := by simp
      rw [hinput, scanValue_brace]
      cases ms with
      | nil =>
          rw [skipBlanks_append hbody (c := '\x7d') rfl]
          rfl
      | cons m ms =>
          obtain ⟨k, v⟩ := m
          have hmembers := scanMembers_text ((k, v) :: ms) depth fuel body r (List.cons_ne_nil _ _)
            hbody hboth.2
            (by simp only [List.length_cons, List.length_append, List.length_nil] at hfuel; omega)
          obtain ⟨key, value, more, rfl, ⟨a, text, b, rfl, ha, ⟨body, rfl, -⟩, -⟩, -⟩ := hbody
          have hskip : skipBlanks (a ++ ('"' :: (body ++ ['"']) ++ b) ++ ':' :: (value ++ more) ++
              '\x7d' :: r) = '"' :: (body ++ '"' :: (b ++ ':' :: (value ++ (more ++ '\x7d' :: r)))) := by
            have happend : a ++ ('"' :: (body ++ ['"']) ++ b) ++ ':' :: (value ++ more) ++
                '\x7d' :: r =
                a ++ '"' :: (body ++ '"' :: (b ++ ':' :: (value ++ (more ++ '\x7d' :: r)))) := by simp
            rw [happend]
            exact skipBlanks_append ha rfl
          rw [hskip] at hmembers ⊢
          split
          · rename_i heq
            exact absurd (List.cons.inj heq).1 (by decide)
          · rw [hmembers]
            exact if_pos hnodup
  termination_by structural v => v

theorem scanItems_text : ∀ (xs : List Json) (depth fuel : Nat) (body r : List Char), xs ≠ [] →
    IsItems readFloat xs body → readableItemsIn isFloat depth xs = true →
    2 * body.length + 1 ≤ fuel →
    scanItems readFloat fuel depth (skipBlanks (body ++ ']' :: r)) = .ok (xs, r)
  | [], _, _, _, _, h, _, _, _ => absurd rfl h
  | x :: xs, depth, 0, _, _, _, _, _, hfuel => by omega
  | x :: xs, depth, fuel + 1, body, r, _, h, hv, hfuel => by
      obtain ⟨first, more, rfl, ⟨a, text, b, rfl, ha, htext, hb⟩, hmore⟩ := h
      have hboth : (readableIn isFloat depth x && readableItemsIn isFloat depth xs) = true := hv
      rw [Bool.and_eq_true] at hboth
      obtain ⟨d, rest, hrest, hd, hdelimited⟩ := delimited_close r (.inl rfl) (isMoreItems_head hmore)
      have hinput : skipBlanks (a ++ (text ++ b) ++ more ++ ']' :: r) =
          text ++ (b ++ (more ++ ']' :: r)) := by
        have happend : a ++ (text ++ b) ++ more ++ ']' :: r =
            a ++ (text ++ (b ++ (more ++ ']' :: r))) := by
          simp only [List.append_assoc]
        rw [happend, skipBlanks_text ha htext]
      -- The fuel left for the later items: every text takes a character at least.
      have hlength : text.length + more.length ≤ (a ++ (text ++ b) ++ more).length := by
        simp only [List.length_append]
        omega
      have hfirst := scanValue_text x depth fuel text (b ++ (more ++ ']' :: r)) htext hboth.1
        (by rw [hrest]; exact hdelimited.blanks hb) (by omega)
      have hskip : skipBlanks (b ++ (more ++ ']' :: r)) = more ++ ']' :: r := by
        rw [hrest]
        exact skipBlanks_append hb hd
      rw [hinput, scanItems, hfirst]
      show (match skipBlanks (b ++ (more ++ ']' :: r)) with
        | ']' :: rest => _
        | ',' :: rest => _
        | _ => _) = _
      rw [hskip]
      cases xs with
      | nil =>
          obtain rfl : more = [] := hmore
          rfl
      | cons y ys =>
          obtain ⟨first', more', rfl, hfirst', hmore'⟩ := hmore
          have hitems : IsItems readFloat (y :: ys) (first' ++ more') :=
            ⟨first', more', rfl, hfirst', hmore'⟩
          have hlater := scanItems_text (y :: ys) depth fuel (first' ++ more') r
            (List.cons_ne_nil y ys) hitems hboth.2 (by
              rw [List.length_cons] at hlength
              obtain ⟨c, t, rfl, -⟩ := isText_head htext
              rw [List.length_cons] at hlength
              omega)
          show (scanItems readFloat fuel depth (skipBlanks (first' ++ more' ++ ']' :: r))).map _ = _
          rw [hlater]
          rfl
  termination_by structural xs => xs

theorem scanMembers_text : ∀ (ms : List (String × Json)) (depth fuel : Nat) (body r : List Char),
    ms ≠ [] → IsMembers readFloat ms body → readableMembersIn isFloat depth ms = true →
    2 * body.length + 1 ≤ fuel →
    scanMembers readFloat fuel depth (skipBlanks (body ++ '\x7d' :: r)) = .ok (ms, r)
  | [], _, _, _, _, h, _, _, _ => absurd rfl h
  | (k, v) :: ms, depth, 0, _, _, _, _, _, hfuel => by omega
  | (k, v) :: ms, depth, fuel + 1, body, r, _, h, hv, hfuel => by
      obtain ⟨key, value, more, rfl, ⟨a, quoted, b, rfl, ha, ⟨chars, rfl, hchars⟩, hb⟩,
        ⟨a', text, b', rfl, ha', htext, hb'⟩, hmore⟩ := h
      have hboth : (readableIn isFloat depth v && readableMembersIn isFloat depth ms) = true := hv
      rw [Bool.and_eq_true] at hboth
      obtain ⟨d, rest, hrest, hd, hdelimited⟩ :=
        delimited_close r (.inr rfl) (isMoreMembers_head hmore)
      have hinput : skipBlanks (a ++ ('"' :: (chars ++ ['"']) ++ b) ++
          ':' :: (a' ++ (text ++ b') ++ more) ++ '\x7d' :: r) = '"' :: (chars ++
            '"' :: (b ++ ':' :: (a' ++ (text ++ (b' ++ (more ++ '\x7d' :: r)))))) := by
        have happend : a ++ ('"' :: (chars ++ ['"']) ++ b) ++
            ':' :: (a' ++ (text ++ b') ++ more) ++ '\x7d' :: r = a ++ '"' :: (chars ++
              '"' :: (b ++ ':' :: (a' ++ (text ++ (b' ++ (more ++ '\x7d' :: r)))))) := by simp
        rw [happend]
        exact skipBlanks_append ha rfl
      have hvalue := skipBlanks_text ha' htext (b' ++ (more ++ '\x7d' :: r))
      have hskip : skipBlanks (b' ++ (more ++ '\x7d' :: r)) = more ++ '\x7d' :: r := by
        rw [hrest]
        exact skipBlanks_append hb' hd
      -- The fuel left for the later members, with the quotes of the key.
      have hlength : text.length + more.length + 2 ≤ (a ++ ('"' :: (chars ++ ['"']) ++ b) ++
          ':' :: (a' ++ (text ++ b') ++ more)).length := by
        simp only [List.length_append, List.length_cons, List.length_nil]
        omega
      have hfirst := scanValue_text v depth fuel text (b' ++ (more ++ '\x7d' :: r)) htext hboth.1
        (by rw [hrest]; exact hdelimited.blanks hb') (by omega)
      rw [hinput, scanMembers_key hchars hb, hvalue, hfirst]
      show (match skipBlanks (b' ++ (more ++ '\x7d' :: r)) with
        | '\x7d' :: rest => _
        | ',' :: rest => _
        | _ => _) = _
      rw [hskip]
      cases ms with
      | nil =>
          obtain rfl : more = [] := hmore
          rfl
      | cons m ms =>
          obtain ⟨l, w⟩ := m
          obtain ⟨key', value', more', rfl, hkey', hvalue', hmore'⟩ := hmore
          have hmembers : IsMembers readFloat ((l, w) :: ms) (key' ++ ':' :: (value' ++ more')) :=
            ⟨key', value', more', rfl, hkey', hvalue', hmore'⟩
          have hlater := scanMembers_text ((l, w) :: ms) depth fuel (key' ++ ':' :: (value' ++ more'))
            r (List.cons_ne_nil _ _) hmembers hboth.2 (by
              rw [List.length_cons] at hlength
              omega)
          show (scanMembers readFloat fuel depth
            (skipBlanks (key' ++ ':' :: (value' ++ more') ++ '\x7d' :: r))).map _ = _
          rw [hlater]
          rfl
  termination_by structural ms => ms
end

/-! ## §4. Nothing else is read. -/

theorem IsItems.blanks {xs : List Json} {before body : List Char} (hbefore : Blanks before)
    (h : IsItems readFloat xs body) : IsItems readFloat xs (before ++ body) := by
  cases xs with
  | nil => exact hbefore.append h
  | cons x xs =>
      obtain ⟨first, more, rfl, hfirst, hmore⟩ := h
      exact ⟨before ++ first, more, by rw [List.append_assoc], hfirst.blanks hbefore, hmore⟩

theorem IsMembers.blanks {ms : List (String × Json)} {before body : List Char}
    (hbefore : Blanks before) (h : IsMembers readFloat ms body) :
    IsMembers readFloat ms (before ++ body) := by
  cases ms with
  | nil => exact hbefore.append h
  | cons m ms =>
      obtain ⟨key, value, more, rfl, hkey, hvalue, hmore⟩ := h
      exact ⟨before ++ key, value, more, by rw [List.append_assoc], hkey.blanks hbefore, hvalue,
        hmore⟩

/-- **What is read as a number is a text of it, within the limits.** -/
theorem text_of_scanNumber {cs rest : List Char} {v : Json} (depth : Nat)
    (h : scanNumber readFloat cs = .ok (v, rest)) : ∃ text, cs = text ++ rest ∧
      IsText readFloat v text ∧ readableIn (fun _ => true) depth v = true := by
  obtain ⟨sign, whole, frac, ex, hparts, rfl, hcases⟩ := parts_of_scanNumber h
  refine ⟨_, rfl, ?_⟩
  rcases hcases with ⟨hint, hlength, rfl⟩ | ⟨hfloat, d, hd, rfl⟩
  · rw [Bool.and_eq_true, List.isEmpty_iff, List.isEmpty_iff] at hint
    obtain ⟨rfl, rfl⟩ := hint
    refine ⟨⟨sign, whole, hparts, by simp only [List.append_nil], rfl⟩, ?_⟩
    rw [← length_toDigits_whole hparts.whole, ← natAbs_signedInt sign] at hlength
    cases depth <;> exact decide_eq_true hlength
  · refine ⟨⟨sign, whole, frac, ex, hparts, hfloat, rfl, hd⟩, ?_⟩
    cases depth <;> rfl

/-- What is read of a value is a text of it, within the limits. -/
def ReadsTexts (readFloat : List Char → Option Decimal) (fuel : Nat) : Prop :=
  ∀ (depth : Nat) (cs rest : List Char) (v : Json),
    scanValue readFloat fuel depth cs = .ok (v, rest) → ∃ text, cs = text ++ rest ∧
      IsText readFloat v text ∧ readableIn (fun _ => true) depth v = true

/-- What is read of an array is a text of its items. -/
def ReadsItems (readFloat : List Char → Option Decimal) (fuel : Nat) : Prop :=
  ∀ (depth : Nat) (cs rest : List Char) (xs : List Json),
    scanItems readFloat fuel depth cs = .ok (xs, rest) → ∃ body, cs = body ++ ']' :: rest ∧
      xs ≠ [] ∧ IsItems readFloat xs body ∧ readableItemsIn (fun _ => true) depth xs = true

/-- What is read of an object is a text of its members. -/
def ReadsMembers (readFloat : List Char → Option Decimal) (fuel : Nat) : Prop :=
  ∀ (depth : Nat) (cs rest : List Char) (ms : List (String × Json)),
    scanMembers readFloat fuel depth cs = .ok (ms, rest) → ∃ body, cs = body ++ '\x7d' :: rest ∧
      ms ≠ [] ∧ IsMembers readFloat ms body ∧ readableMembersIn (fun _ => true) depth ms = true

theorem readsTexts_succ {fuel : Nat} (hitems : ReadsItems readFloat fuel)
    (hmembers : ReadsMembers readFloat fuel) : ReadsTexts readFloat (fuel + 1) := by
  intro depth cs rest v h
  unfold scanValue at h
  split at h
  · -- a literal
    obtain ⟨⟨s, more⟩, hscan, heq⟩ := map_eq_ok.1 h
    obtain ⟨rfl, rfl⟩ := Prod.mk.inj heq
    obtain ⟨body, rfl, hbody⟩ := text_of_scanChars hscan
    refine ⟨'"' :: (body ++ ['"']), by simp, ⟨body, rfl, ?_⟩, by cases depth <;> rfl⟩
    rw [String.toList_ofList]
    exact hbody
  · -- an array
    rename_i more
    obtain _ | depth := depth
    · cases h
    dsimp only at h
    obtain ⟨before, hbefore, hmore⟩ := exists_skipBlanks more
    split at h
    · rename_i heq
      obtain ⟨rfl, rfl⟩ := Prod.mk.inj (Except.ok.inj h)
      rw [heq] at hmore
      exact ⟨'[' :: (before ++ [']']), by rw [hmore]; simp, ⟨before, rfl, hbefore⟩, rfl⟩
    · obtain ⟨⟨xs, rest'⟩, hscan, heq⟩ := map_eq_ok.1 h
      obtain ⟨rfl, rfl⟩ := Prod.mk.inj heq
      obtain ⟨body, hbody, -, htexts, hreadable⟩ := hitems _ _ _ _ hscan
      rw [hbody] at hmore
      exact ⟨'[' :: (before ++ body ++ [']']), by rw [hmore]; simp,
        ⟨before ++ body, rfl, htexts.blanks hbefore⟩, hreadable⟩
  · -- an object
    rename_i more
    obtain _ | depth := depth
    · cases h
    dsimp only at h
    obtain ⟨before, hbefore, hmore⟩ := exists_skipBlanks more
    split at h
    · rename_i heq
      obtain ⟨rfl, rfl⟩ := Prod.mk.inj (Except.ok.inj h)
      rw [heq] at hmore
      exact ⟨'\x7b' :: (before ++ ['\x7d']), by rw [hmore]; simp,
        ⟨List.nodup_nil, before, rfl, hbefore⟩, rfl⟩
    · obtain ⟨⟨ms, rest'⟩, hscan, h⟩ := bind_eq_ok.1 h
      dsimp only at h
      split at h
      · rename_i hnodup
        obtain ⟨rfl, rfl⟩ := Prod.mk.inj (Except.ok.inj h)
        obtain ⟨body, hbody, -, htexts, hreadable⟩ := hmembers _ _ _ _ hscan
        rw [hbody] at hmore
        refine ⟨'\x7b' :: (before ++ body ++ ['\x7d']), by rw [hmore]; simp,
          ⟨hnodup, before ++ body, rfl, htexts.blanks hbefore⟩, ?_⟩
        show (decide (ms.map Prod.fst).Nodup && readableMembersIn _ depth ms) = true
        rw [hreadable, Bool.and_true]
        exact decide_eq_true hnodup
      · cases h
  · obtain ⟨rfl, rfl⟩ := Prod.mk.inj (Except.ok.inj h)
    exact ⟨"null".toList, rfl, rfl, by cases depth <;> rfl⟩
  · obtain ⟨rfl, rfl⟩ := Prod.mk.inj (Except.ok.inj h)
    exact ⟨"true".toList, rfl, rfl, by cases depth <;> rfl⟩
  · obtain ⟨rfl, rfl⟩ := Prod.mk.inj (Except.ok.inj h)
    exact ⟨"false".toList, rfl, rfl, by cases depth <;> rfl⟩
  · exact text_of_scanNumber depth h

theorem readsItems_succ {fuel : Nat} (htexts : ReadsTexts readFloat fuel)
    (hitems : ReadsItems readFloat fuel) : ReadsItems readFloat (fuel + 1) := by
  intro depth cs rest xs h
  rw [scanItems] at h
  obtain ⟨⟨x, more⟩, hx, hend⟩ := bind_eq_ok.1 h
  dsimp only at hend
  obtain ⟨text, rfl, htext, hreadable⟩ := htexts _ _ _ _ hx
  obtain ⟨after, hafter, hmore⟩ := exists_skipBlanks more
  have hfirst : Spaced (IsText readFloat x) (text ++ after) :=
    ⟨[], text, after, rfl, blanks_nil, htext, hafter⟩
  split at hend
  · -- the last one
    rename_i heq
    obtain ⟨rfl, rfl⟩ := Prod.mk.inj (Except.ok.inj hend)
    rw [heq] at hmore
    exact ⟨text ++ after, by rw [hmore]; simp, List.cons_ne_nil _ _,
      ⟨text ++ after, [], by simp, hfirst, rfl⟩, Bool.and_eq_true_iff.2 ⟨hreadable, rfl⟩⟩
  · rename_i later heq
    obtain ⟨⟨ys, rest'⟩, hys, heq'⟩ := map_eq_ok.1 hend
    obtain ⟨rfl, rfl⟩ := Prod.mk.inj heq'
    obtain ⟨body, hbody, hne, hlist, hreadables⟩ := hitems _ _ _ _ hys
    obtain ⟨before, hbefore, hlater⟩ := exists_skipBlanks later
    rw [hbody] at hlater
    rw [heq, hlater] at hmore
    obtain ⟨y, ys, rfl⟩ := List.exists_cons_of_ne_nil hne
    obtain ⟨first, more', hsplit, hnext⟩ := hlist.blanks hbefore
    exact ⟨text ++ after ++ ',' :: (before ++ body), by rw [hmore]; simp, List.cons_ne_nil _ _,
      ⟨text ++ after, ',' :: (before ++ body), rfl, hfirst, first, more', by rw [hsplit], hnext⟩,
      Bool.and_eq_true_iff.2 ⟨hreadable, hreadables⟩⟩
  · cases hend

theorem readsMembers_succ {fuel : Nat} (htexts : ReadsTexts readFloat fuel)
    (hmembers : ReadsMembers readFloat fuel) : ReadsMembers readFloat (fuel + 1) := by
  intro depth cs rest ms h
  unfold scanMembers at h
  split at h
  · rename_i quoted
    obtain ⟨⟨k, more⟩, hk, hcolon⟩ := bind_eq_ok.1 h
    dsimp only at hcolon
    obtain ⟨chars, rfl, hchars⟩ := text_of_scanChars hk
    obtain ⟨blanks, hblanks, hmore⟩ := exists_skipBlanks more
    -- The key with the blanks up to the colon.
    have hkey : Spaced (IsLiteral (String.ofList k)) ('"' :: (chars ++ ['"']) ++ blanks) :=
      ⟨[], '"' :: (chars ++ ['"']), blanks, rfl, blanks_nil,
        ⟨chars, rfl, by rw [String.toList_ofList]; exact hchars⟩, hblanks⟩
    split at hcolon
    · rename_i value heq
      rw [heq] at hmore
      obtain ⟨⟨v, after⟩, hv, hend⟩ := bind_eq_ok.1 hcolon
      dsimp only at hend
      obtain ⟨before, hbefore, hvalue⟩ := exists_skipBlanks value
      obtain ⟨text, hsplit, htext, hreadable⟩ := htexts _ _ _ _ hv
      rw [hsplit] at hvalue
      obtain ⟨trail, htrail, hafter⟩ := exists_skipBlanks after
      have hspaced : Spaced (IsText readFloat v) (before ++ (text ++ trail)) :=
        ⟨before, text, trail, rfl, hbefore, htext, htrail⟩
      split at hend
      · -- the last one
        rename_i heq'
        obtain ⟨rfl, rfl⟩ := Prod.mk.inj (Except.ok.inj hend)
        rw [heq'] at hafter
        exact ⟨'"' :: (chars ++ ['"']) ++ blanks ++ ':' :: (before ++ (text ++ trail)),
          by rw [hmore, hvalue, hafter]; simp, List.cons_ne_nil _ _,
          ⟨_, _, [], by simp, hkey, hspaced, rfl⟩, Bool.and_eq_true_iff.2 ⟨hreadable, rfl⟩⟩
      -- A comma: the text of the later members is the induction's.
      · rename_i later heq'
        obtain ⟨⟨ns, rest'⟩, hns, heq''⟩ := map_eq_ok.1 hend
        obtain ⟨rfl, rfl⟩ := Prod.mk.inj heq''
        obtain ⟨body, hbody, hne, hlist, hreadables⟩ := hmembers _ _ _ _ hns
        obtain ⟨lead, hlead, hlater⟩ := exists_skipBlanks later
        rw [hbody] at hlater
        rw [heq', hlater] at hafter
        obtain ⟨⟨l, w⟩, ns, rfl⟩ := List.exists_cons_of_ne_nil hne
        obtain ⟨key', value', more', hparts, hnext⟩ := hlist.blanks hlead
        exact ⟨'"' :: (chars ++ ['"']) ++ blanks ++ ':' :: (before ++ (text ++ trail) ++
            ',' :: (lead ++ body)),
          by rw [hmore, hvalue, hafter]; simp, List.cons_ne_nil _ _,
          ⟨_, _, ',' :: (lead ++ body), rfl, hkey, hspaced, key', value', more', by rw [hparts],
            hnext⟩,
          Bool.and_eq_true_iff.2 ⟨hreadable, hreadables⟩⟩
      · cases hend
    · cases hcolon
  · cases h

/-- **What is read is a text of the value, within the limits.**  By induction
on the fuel, for a value, for items and for members at once. -/
theorem text_of_scanValue {fuel depth : Nat} {cs rest : List Char} {v : Json}
    (h : scanValue readFloat fuel depth cs = .ok (v, rest)) : ∃ text, cs = text ++ rest ∧
      IsText readFloat v text ∧ readableIn (fun _ => true) depth v = true := by
  have hall : ∀ fuel, ReadsTexts readFloat fuel ∧ ReadsItems readFloat fuel ∧
      ReadsMembers readFloat fuel := by
    intro fuel
    induction fuel with
    | zero =>
        exact ⟨fun _ _ _ _ h => (nomatch h), fun _ _ _ _ h => (nomatch h),
          fun _ _ _ _ h => (nomatch h)⟩
    | succ fuel ih =>
        obtain ⟨htexts, hitems, hmembers⟩ := ih
        exact ⟨readsTexts_succ hitems hmembers, readsItems_succ htexts hitems,
          readsMembers_succ htexts hmembers⟩
  exact (hall fuel).1 _ _ _ _ h

/-! ## §5. Reading. -/

/-- **A text is read as a value exactly where it is one of the value**, with
blanks around it and within the limits of the reader. -/
theorem loads_eq_ok_iff {limit : Nat} {cs : List Char} {v : Json} :
    loads readFloat limit cs = .ok v ↔
      Spaced (IsText readFloat v) cs ∧ readableIn (fun _ => true) limit v = true := by
  constructor
  -- What was read is a text with blanks around it and nothing else.
  · intro h
    unfold loads at h
    split at h
    · cases h
    obtain ⟨⟨w, rest⟩, hw, h⟩ := bind_eq_ok.1 h
    dsimp only at h
    split at h
    · rename_i hblank
      obtain rfl := Except.ok.inj h
      obtain ⟨before, hbefore, hcs⟩ := exists_skipBlanks cs
      obtain ⟨text, hsplit, htext, hreadable⟩ := text_of_scanValue hw
      obtain ⟨after, hafter, hrest⟩ := exists_skipBlanks rest
      rw [List.isEmpty_iff.1 hblank, List.append_nil] at hrest
      rw [hsplit, hrest] at hcs
      exact ⟨⟨before, text, after, hcs, hbefore, htext, hafter⟩, hreadable⟩
    · cases h
  · rintro ⟨⟨before, text, after, rfl, hbefore, htext, hafter⟩, hreadable⟩
    obtain ⟨c, t, hhead, -, -, hmark⟩ := isText_head htext
    -- A text begins with no byte order mark, and a mark is no blank.
    have hfirst : ¬ (before ++ (text ++ after)).head? = some '\ufeff' := by
      rw [hhead]
      intro hhead?
      cases before with
      | nil => exact hmark (Option.some.inj hhead?)
      | cons b before =>
          obtain rfl := Option.some.inj hhead?
          have hblank : isBlank '\ufeff' = true := hbefore _ List.mem_cons_self
          cases hblank
    have hstart := skipBlanks_text hbefore htext after
    have hend : skipBlanks after = [] := List.dropWhile_eq_nil_iff.2 hafter
    have hscan := scanValue_text v limit (2 * (before ++ (text ++ after)).length + 2) text after
      htext hreadable hafter.delimited (by simp only [List.length_append]; omega)
    unfold loads
    rw [if_neg hfirst, hstart, hscan]
    show (if (skipBlanks after).isEmpty = true then Except.ok v else _) = _
    rw [hend]
    rfl

end Values

end Json

end Rpy.Foundation

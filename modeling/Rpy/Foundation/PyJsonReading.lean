/-
  Rpy.Foundation.PyJsonReading
  ────────────────────────────
  **WHAT PYTHON'S READER ACCEPTS.**

  The reader accepts the texts of the grammar and no others, up to the
  limits of the interpreter: how deep a text is nested and how long an
  integer is.  As every value is within some limits, a text is one of one
  value.

    • `scanValue_text`      — every text within the limits is read,
    • `text_of_scanValue`   — and nothing else is,
    • `loads_eq_ok_iff`     — **so reading is being a text of a value**,
    • `text_unique`         — **and a text is one of one value**.
-/
import Rpy.Foundation.PyJsonGrammar

namespace Rpy.Foundation.PyJson

open Rpy.Foundation.Json (Delimited)

section Reading

variable {φ : Type} {float : List Char → φ} {maxDigits : Nat}

/-! ## §1. Numbers and literals as values. -/

/-- A text that begins like a number is one. -/
theorem scanValue_number (fuel room : Nat) {c : Char} {t : Text}
    (hc : c = '-' ∨ c.isDigit = true) :
    scanValue float maxDigits (fuel + 1) room (.char c :: t) =
      scanNumber float maxDigits (.char c :: t) := by
  have hne : c ≠ '"' ∧ c ≠ '[' ∧ c ≠ '\x7b' ∧ c ≠ 'n' ∧ c ≠ 't' ∧ c ≠ 'f' := by
    rcases hc with rfl | hc
    · decide
    · refine ⟨?_, ?_, ?_, ?_, ?_, ?_⟩ <;> (rintro rfl; cases hc)
  have hhead : ∀ {d : Char} {rest : Text}, .char c :: t = CodePoint.char d :: rest → c = d :=
    fun h => CodePoint.char.inj (List.cons.inj h).1
  rw [scanValue]
  · exact fun rest h => hne.1 (hhead h)
  · exact fun rest h => hne.2.1 (hhead h)
  · exact fun rest h => hne.2.2.1 (hhead h)
  · exact fun rest h => hne.2.2.2.1 (hhead h)
  · exact fun rest h => hne.2.2.2.2.1 (hhead h)
  · exact fun rest h => hne.2.2.2.2.2 (hhead h)

/-- A literal as a value. -/
theorem scanValue_literal {s text : Text} (h : IsLiteral s text) (fuel room : Nat) (r : Text) :
    scanValue float maxDigits (fuel + 1) room (text ++ r) = .ok (.str s, r) := by
  obtain ⟨body, rfl, hbody⟩ := h
  have hscan : scanValue float maxDigits (fuel + 1) room (.char '"' :: (body ++ .char '"' :: r)) =
      (scanChars ((body ++ .char '"' :: r).length + 1) (body ++ .char '"' :: r)).map
        fun scanned => (.str scanned.1, scanned.2) := by
    rw [scanValue]
  have htext : .char '"' :: (body ++ [.char '"']) ++ r = .char '"' :: (body ++ .char '"' :: r) := by
    simp
  rw [htext, hscan, scanChars_text hbody r (by rw [List.length_append]; omega)]
  rfl

/-! ## §2. Every text within the limits is read. -/

/-- An opening bracket takes room for its items. -/
theorem scanValue_bracket (fuel room : Nat) (cs : Text) :
    scanValue float maxDigits (fuel + 1) (room + 1) (.char '[' :: cs) =
      match skipBlanks cs with
      | .char ']' :: rest => .ok (.arr [], rest)
      | rest => (scanItems float maxDigits fuel room rest).map fun (xs, rest) => (.arr xs, rest) :=
  rfl

/-- So does an opening brace, and no key may come twice. -/
theorem scanValue_brace (fuel room : Nat) (cs : Text) :
    scanValue float maxDigits (fuel + 1) (room + 1) (.char '\x7b' :: cs) =
      (match skipBlanks cs with
      | .char '\x7d' :: rest => .ok (.obj [], rest)
      | rest => do
          let (ms, rest) ← scanMembers float maxDigits fuel room rest
          if (ms.map Prod.fst).Nodup then .ok (.obj ms, rest) else .error .value) := rfl

/-- What follows an item or a member ends it, and is not skipped. -/
theorem delimited_close {more : Text} {close : Char} (r : Text)
    (hclose : close = ']' ∨ close = '\x7d') (hmore : more = [] ∨ ∃ t, more = .char ',' :: t) :
    ∃ p t, more ++ .char close :: r = p :: t ∧ isBlank p = false ∧ Delimited (leading (p :: t)) := by
  rcases hmore with rfl | ⟨t, rfl⟩
  · refine ⟨.char close, r, rfl, ?_⟩
    rcases hclose with rfl | rfl
    · exact ⟨rfl, .inr ⟨_, _, rfl, .inr (.inl rfl)⟩⟩
    · exact ⟨rfl, .inr ⟨_, _, rfl, .inr (.inr (.inl rfl))⟩⟩
  · exact ⟨.char ',', t ++ .char close :: r, rfl, rfl, .inr ⟨_, _, rfl, .inl rfl⟩⟩

/-- After an item there is a comma or nothing. -/
theorem isMoreItems_head {xs : List (Value φ)} {more : Text} (h : IsMoreItems float xs more) :
    more = [] ∨ ∃ t, more = .char ',' :: t := by
  cases xs with
  | nil => exact .inl h
  | cons x xs =>
      obtain ⟨first, rest, rfl, -⟩ := h
      exact .inr ⟨_, rfl⟩

/-- So it is after a member. -/
theorem isMoreMembers_head {ms : List (Text × Value φ)} {more : Text}
    (h : IsMoreMembers float ms more) : more = [] ∨ ∃ t, more = .char ',' :: t := by
  cases ms with
  | nil => exact .inl h
  | cons m ms =>
      obtain ⟨key, value, rest, rfl, -⟩ := h
      exact .inr ⟨_, rfl⟩

/-- The key of a member, and the colon after it. -/
theorem scanMembers_key {k chars blanks : Text} (hchars : LiteralText k chars)
    (hblanks : Blanks blanks) (fuel room : Nat) (r : Text) :
    scanMembers float maxDigits (fuel + 1) room
      (.char '"' :: (chars ++ .char '"' :: (blanks ++ .char ':' :: r))) =
      (do
        let (v, rest) ← scanValue float maxDigits fuel room (skipBlanks r)
        match skipBlanks rest with
        | .char '\x7d' :: rest => .ok ([(k, v)], rest)
        | .char ',' :: rest =>
            (scanMembers float maxDigits fuel room (skipBlanks rest)).map fun (ms, rest) =>
              ((k, v) :: ms, rest)
        | _ => .error .value) := by
  have hcolon : skipBlanks (blanks ++ .char ':' :: r) = .char ':' :: r :=
    skipBlanks_append hblanks rfl
  rw [scanMembers, scanChars_text hchars _ (by rw [List.length_append]; omega)]
  simp only [bind, Except.bind, hcolon]
  -- the `match` of the statement is that of the definition
  try rfl

mutual
/-- **A text of a value is read as the value**, whatever ends it. -/
theorem scanValue_text : ∀ (v : Value φ) (room fuel : Nat) (text r : Text),
    IsText float v text → depth v ≤ room → longest v ≤ maxDigits → Delimited (leading r) →
    2 * text.length ≤ fuel → scanValue float maxDigits fuel room (text ++ r) = .ok (v, r)
  | v, room, 0, text, r, h, _, _, _, hfuel => by
      -- No fuel is left for a text that is not empty.
      obtain ⟨c, t, rfl, -⟩ := isText_head h
      rw [List.length_cons] at hfuel
      omega
  | .null, room, fuel + 1, _, r, rfl, _, _, _, _ => rfl
  | .bool true, room, fuel + 1, _, r, rfl, _, _, _, _ => rfl
  | .bool false, room, fuel + 1, _, r, rfl, _, _, _, _ => rfl
  | .int i, room, fuel + 1, text, r, h, _, hdigits, hr, _ => by
      obtain ⟨n, hn, hint, rfl, rfl⟩ := h
      have hlimit : (Nat.toDigits 10 (Json.signedInt n.sign n.whole).natAbs).length ≤ maxDigits :=
        hdigits
      rw [Json.natAbs_signedInt, Json.length_toDigits_whole hn.whole] at hlimit
      have hscan := @scanNumber_text _ float maxDigits _ hn _ hr
      obtain ⟨c, t, htext, hc⟩ := ofChars_text_head hn
      rw [hint, if_pos rfl, if_neg (Nat.not_lt.2 hlimit)] at hscan
      rw [htext, List.cons_append] at hscan ⊢
      rw [scanValue_number fuel room hc, hscan]
  | .float x, room, fuel + 1, text, r, h, _, _, hr, _ => by
      obtain ⟨n, hn, hpoint, rfl, rfl⟩ := h
      have hscan := @scanNumber_text _ float maxDigits _ hn _ hr
      obtain ⟨c, t, htext, hc⟩ := ofChars_text_head hn
      rw [hpoint, if_neg Bool.false_ne_true] at hscan
      rw [htext, List.cons_append] at hscan ⊢
      rw [scanValue_number fuel room hc, hscan]
  | .str s, room, fuel + 1, text, r, h, _, _, _, _ => scanValue_literal h fuel room r
  | .arr xs, room, fuel + 1, text, r, h, hdepth, hdigits, _, hfuel => by
      obtain ⟨body, rfl, hbody⟩ := h
      -- An array takes one level of the room, and its items the rest.
      have hroom : depthItems xs + 1 ≤ room := hdepth
      obtain ⟨room, rfl⟩ : ∃ k, room = k + 1 := ⟨room - 1, by omega⟩
      have hinput : .char '[' :: (body ++ [.char ']']) ++ r =
          .char '[' :: (body ++ .char ']' :: r) := by simp
      rw [hinput, scanValue_bracket]
      cases xs with
      | nil =>
          rw [skipBlanks_append (p := .char ']') hbody rfl]
          rfl
      | cons x xs =>
          have hitems := scanItems_text (x :: xs) room fuel body r (List.cons_ne_nil x xs) hbody
            (Nat.le_of_succ_le_succ hroom) hdigits
            (by simp only [List.length_cons, List.length_append, List.length_nil] at hfuel; omega)
          obtain ⟨first, more, rfl, ⟨a, text, b, rfl, ha, htext, -⟩, -⟩ := hbody
          obtain ⟨c, t, rfl, hblank, hclose, -⟩ := isText_head htext
          have hskip : skipBlanks (a ++ (.char c :: t ++ b) ++ more ++ .char ']' :: r) =
              .char c :: (t ++ (b ++ (more ++ .char ']' :: r))) := by
            have happend : a ++ (.char c :: t ++ b) ++ more ++ .char ']' :: r =
                a ++ .char c :: (t ++ (b ++ (more ++ .char ']' :: r))) := by simp
            rw [happend]
            exact skipBlanks_append ha hblank
          rw [hskip] at hitems ⊢
          split
          · rename_i heq
            exact absurd (CodePoint.char.inj (List.cons.inj heq).1) hclose
          · rw [hitems]
            rfl
  | .obj ms, room, fuel + 1, text, r, h, hdepth, hdigits, _, hfuel => by
      obtain ⟨hnodup, body, rfl, hbody⟩ := h
      -- An object takes one level too, and its keys must differ.
      have hroom : depthMembers ms + 1 ≤ room := hdepth
      obtain ⟨room, rfl⟩ : ∃ k, room = k + 1 := ⟨room - 1, by omega⟩
      have hinput : .char '\x7b' :: (body ++ [.char '\x7d']) ++ r =
          .char '\x7b' :: (body ++ .char '\x7d' :: r) := by simp
      rw [hinput, scanValue_brace]
      cases ms with
      | nil =>
          rw [skipBlanks_append (p := .char '\x7d') hbody rfl]
          rfl
      | cons m ms =>
          obtain ⟨k, v⟩ := m
          have hmembers := scanMembers_text ((k, v) :: ms) room fuel body r (List.cons_ne_nil _ _)
            hbody (Nat.le_of_succ_le_succ hroom) hdigits
            (by simp only [List.length_cons, List.length_append, List.length_nil] at hfuel; omega)
          obtain ⟨key, value, more, rfl, ⟨a, text, b, rfl, ha, ⟨body, rfl, -⟩, -⟩, -⟩ := hbody
          have hskip : skipBlanks (a ++ (.char '"' :: (body ++ [.char '"']) ++ b) ++
              .char ':' :: (value ++ more) ++ .char '\x7d' :: r) = .char '"' :: (body ++
                .char '"' :: (b ++ .char ':' :: (value ++ (more ++ .char '\x7d' :: r)))) := by
            have happend : a ++ (.char '"' :: (body ++ [.char '"']) ++ b) ++
                .char ':' :: (value ++ more) ++ .char '\x7d' :: r = a ++ .char '"' :: (body ++
                  .char '"' :: (b ++ .char ':' :: (value ++ (more ++ .char '\x7d' :: r)))) := by
              simp
            rw [happend]
            exact skipBlanks_append ha rfl
          rw [hskip] at hmembers ⊢
          split
          · rename_i heq
            exact absurd (CodePoint.char.inj (List.cons.inj heq).1) (by decide)
          · rw [hmembers]
            exact if_pos hnodup
  termination_by structural v => v

theorem scanItems_text : ∀ (xs : List (Value φ)) (room fuel : Nat) (body r : Text), xs ≠ [] →
    IsItems float xs body → depthItems xs ≤ room → longestItem xs ≤ maxDigits →
    2 * body.length + 1 ≤ fuel →
    scanItems float maxDigits fuel room (skipBlanks (body ++ .char ']' :: r)) = .ok (xs, r)
  | [], _, _, _, _, h, _, _, _, _ => absurd rfl h
  | x :: xs, room, 0, _, _, _, _, _, _, hfuel => by omega
  | x :: xs, room, fuel + 1, body, r, _, h, hdepth, hdigits, hfuel => by
      obtain ⟨first, more, rfl, ⟨a, text, b, rfl, ha, htext, hb⟩, hmore⟩ := h
      obtain ⟨hdepth, hdepths⟩ := Nat.max_le.1 hdepth
      obtain ⟨hdigits, hdigitss⟩ := Nat.max_le.1 hdigits
      obtain ⟨d, rest, hrest, hd, hdelimited⟩ := delimited_close r (.inl rfl) (isMoreItems_head hmore)
      have hinput : skipBlanks (a ++ (text ++ b) ++ more ++ .char ']' :: r) =
          text ++ (b ++ (more ++ .char ']' :: r)) := by
        have happend : a ++ (text ++ b) ++ more ++ .char ']' :: r =
            a ++ (text ++ (b ++ (more ++ .char ']' :: r))) := by
          simp only [List.append_assoc]
        rw [happend, skipBlanks_text ha htext]
      have hlength : text.length + more.length ≤ (a ++ (text ++ b) ++ more).length := by
        simp only [List.length_append]
        omega
      have hfirst := scanValue_text x room fuel text (b ++ (more ++ .char ']' :: r)) htext hdepth
        hdigits (by rw [hrest]; exact delimited_blanks hdelimited hb) (by omega)
      have hskip : skipBlanks (b ++ (more ++ .char ']' :: r)) = more ++ .char ']' :: r := by
        rw [hrest]
        exact skipBlanks_append hb hd
      rw [hinput, scanItems, hfirst]
      show (match skipBlanks (b ++ (more ++ .char ']' :: r)) with
        | .char ']' :: rest => _
        | .char ',' :: rest => _
        | _ => _) = _
      rw [hskip]
      cases xs with
      | nil =>
          obtain rfl : more = [] := hmore
          rfl
      | cons y ys =>
          obtain ⟨first', more', rfl, hfirst', hmore'⟩ := hmore
          have hitems : IsItems float (y :: ys) (first' ++ more') :=
            ⟨first', more', rfl, hfirst', hmore'⟩
          have hlater := scanItems_text (y :: ys) room fuel (first' ++ more') r
            (List.cons_ne_nil y ys) hitems hdepths hdigitss (by
              rw [List.length_cons] at hlength
              obtain ⟨c, t, rfl, -⟩ := isText_head htext
              rw [List.length_cons] at hlength
              omega)
          show (scanItems float maxDigits fuel room
            (skipBlanks (first' ++ more' ++ .char ']' :: r))).map _ = _
          rw [hlater]
          rfl
  termination_by structural xs => xs

theorem scanMembers_text : ∀ (ms : List (Text × Value φ)) (room fuel : Nat) (body r : Text),
    ms ≠ [] → IsMembers float ms body → depthMembers ms ≤ room → longestMember ms ≤ maxDigits →
    2 * body.length + 1 ≤ fuel →
    scanMembers float maxDigits fuel room (skipBlanks (body ++ .char '\x7d' :: r)) = .ok (ms, r)
  | [], _, _, _, _, h, _, _, _, _ => absurd rfl h
  | (k, v) :: ms, room, 0, _, _, _, _, _, _, hfuel => by omega
  | (k, v) :: ms, room, fuel + 1, body, r, _, h, hdepth, hdigits, hfuel => by
      obtain ⟨key, value, more, rfl, ⟨a, quoted, b, rfl, ha, ⟨chars, rfl, hchars⟩, hb⟩,
        ⟨a', text, b', rfl, ha', htext, hb'⟩, hmore⟩ := h
      obtain ⟨hdepth, hdepths⟩ := Nat.max_le.1 hdepth
      obtain ⟨hdigits, hdigitss⟩ := Nat.max_le.1 hdigits
      obtain ⟨d, rest, hrest, hd, hdelimited⟩ :=
        delimited_close r (.inr rfl) (isMoreMembers_head hmore)
      have hinput : skipBlanks (a ++ (.char '"' :: (chars ++ [.char '"']) ++ b) ++
          .char ':' :: (a' ++ (text ++ b') ++ more) ++ .char '\x7d' :: r) = .char '"' :: (chars ++
            .char '"' :: (b ++ .char ':' :: (a' ++ (text ++ (b' ++ (more ++ .char '\x7d' :: r)))))) := by
        have happend : a ++ (.char '"' :: (chars ++ [.char '"']) ++ b) ++
            .char ':' :: (a' ++ (text ++ b') ++ more) ++ .char '\x7d' :: r = a ++ .char '"' :: (chars ++
              .char '"' :: (b ++
                .char ':' :: (a' ++ (text ++ (b' ++ (more ++ .char '\x7d' :: r)))))) := by simp
        rw [happend]
        exact skipBlanks_append ha rfl
      have hvalue := skipBlanks_text ha' htext (b' ++ (more ++ .char '\x7d' :: r))
      have hskip : skipBlanks (b' ++ (more ++ .char '\x7d' :: r)) = more ++ .char '\x7d' :: r := by
        rw [hrest]
        exact skipBlanks_append hb' hd
      have hlength : text.length + more.length + 2 ≤
          (a ++ (CodePoint.char '"' :: (chars ++ [CodePoint.char '"']) ++ b) ++
            CodePoint.char ':' :: (a' ++ (text ++ b') ++ more)).length := by
        simp only [List.length_append, List.length_cons, List.length_nil]
        omega
      have hfirst := scanValue_text v room fuel text (b' ++ (more ++ .char '\x7d' :: r)) htext hdepth
        hdigits (by rw [hrest]; exact delimited_blanks hdelimited hb') (by omega)
      rw [hinput, scanMembers_key hchars hb, hvalue, hfirst]
      show (match skipBlanks (b' ++ (more ++ .char '\x7d' :: r)) with
        | .char '\x7d' :: rest => _
        | .char ',' :: rest => _
        | _ => _) = _
      rw [hskip]
      cases ms with
      | nil =>
          obtain rfl : more = [] := hmore
          rfl
      | cons m ms =>
          obtain ⟨l, w⟩ := m
          obtain ⟨key', value', more', rfl, hkey', hvalue', hmore'⟩ := hmore
          have hmembers : IsMembers float ((l, w) :: ms)
              (key' ++ .char ':' :: (value' ++ more')) :=
            ⟨key', value', more', rfl, hkey', hvalue', hmore'⟩
          have hlater := scanMembers_text ((l, w) :: ms) room fuel
            (key' ++ .char ':' :: (value' ++ more')) r (List.cons_ne_nil _ _) hmembers hdepths
            hdigitss (by
              rw [List.length_cons] at hlength
              omega)
          show (scanMembers float maxDigits fuel room
            (skipBlanks (key' ++ .char ':' :: (value' ++ more') ++ .char '\x7d' :: r))).map _ = _
          rw [hlater]
          rfl
  termination_by structural ms => ms
end

/-! ## §3. Nothing else is read. -/

/-- What is read of a value is a text of it, within the limits. -/
def ReadsTexts (float : List Char → φ) (maxDigits fuel : Nat) : Prop :=
  ∀ (room : Nat) (cs rest : Text) (v : Value φ),
    scanValue float maxDigits fuel room cs = .ok (v, rest) → ∃ text, cs = text ++ rest ∧
      IsText float v text ∧ depth v ≤ room ∧ longest v ≤ maxDigits

/-- What is read of an array is a text of its items. -/
def ReadsItems (float : List Char → φ) (maxDigits fuel : Nat) : Prop :=
  ∀ (room : Nat) (cs rest : Text) (xs : List (Value φ)),
    scanItems float maxDigits fuel room cs = .ok (xs, rest) →
      ∃ body, cs = body ++ .char ']' :: rest ∧ xs ≠ [] ∧ IsItems float xs body ∧
        depthItems xs ≤ room ∧ longestItem xs ≤ maxDigits

/-- What is read of an object is a text of its members. -/
def ReadsMembers (float : List Char → φ) (maxDigits fuel : Nat) : Prop :=
  ∀ (room : Nat) (cs rest : Text) (ms : List (Text × Value φ)),
    scanMembers float maxDigits fuel room cs = .ok (ms, rest) →
      ∃ body, cs = body ++ .char '\x7d' :: rest ∧ ms ≠ [] ∧ IsMembers float ms body ∧
        depthMembers ms ≤ room ∧ longestMember ms ≤ maxDigits

/-- With one more step, from what the steps below read. -/
theorem readsTexts_succ {fuel : Nat} (hitems : ReadsItems float maxDigits fuel)
    (hmembers : ReadsMembers float maxDigits fuel) : ReadsTexts float maxDigits (fuel + 1) := by
  intro room cs rest v h
  unfold scanValue at h
  split at h
  · -- a literal
    obtain ⟨⟨s, more⟩, hscan, heq⟩ := map_eq_ok.1 h
    obtain ⟨rfl, rfl⟩ := Prod.mk.inj heq
    obtain ⟨body, rfl, hbody⟩ := text_of_scanChars hscan
    exact ⟨.char '"' :: (body ++ [.char '"']), by simp, ⟨body, rfl, hbody⟩, Nat.zero_le _,
      Nat.zero_le _⟩
  · -- an array
    rename_i more
    obtain _ | room := room
    · cases h
    dsimp only at h
    obtain ⟨before, hbefore, hmore⟩ := exists_skipBlanks more
    split at h
    · rename_i heq
      obtain ⟨rfl, rfl⟩ := Prod.mk.inj (Except.ok.inj h)
      rw [heq] at hmore
      exact ⟨.char '[' :: (before ++ [.char ']']), by rw [hmore]; simp, ⟨before, rfl, hbefore⟩,
        Nat.succ_le_succ (Nat.zero_le _), Nat.zero_le _⟩
    · obtain ⟨⟨xs, rest'⟩, hscan, heq⟩ := map_eq_ok.1 h
      obtain ⟨rfl, rfl⟩ := Prod.mk.inj heq
      obtain ⟨body, hbody, -, htexts, hdepth, hdigits⟩ := hitems _ _ _ _ hscan
      rw [hbody] at hmore
      exact ⟨.char '[' :: (before ++ body ++ [.char ']']), by rw [hmore]; simp,
        ⟨before ++ body, rfl, htexts.blanks hbefore⟩, Nat.succ_le_succ hdepth, hdigits⟩
  · -- an object
    rename_i more
    obtain _ | room := room
    · cases h
    dsimp only at h
    obtain ⟨before, hbefore, hmore⟩ := exists_skipBlanks more
    split at h
    · rename_i heq
      obtain ⟨rfl, rfl⟩ := Prod.mk.inj (Except.ok.inj h)
      rw [heq] at hmore
      exact ⟨.char '\x7b' :: (before ++ [.char '\x7d']), by rw [hmore]; simp,
        ⟨List.nodup_nil, before, rfl, hbefore⟩, Nat.succ_le_succ (Nat.zero_le _), Nat.zero_le _⟩
    · obtain ⟨⟨ms, rest'⟩, hscan, h⟩ := bind_eq_ok.1 h
      dsimp only at h
      split at h
      · rename_i hnodup
        obtain ⟨rfl, rfl⟩ := Prod.mk.inj (Except.ok.inj h)
        obtain ⟨body, hbody, -, htexts, hdepth, hdigits⟩ := hmembers _ _ _ _ hscan
        rw [hbody] at hmore
        exact ⟨.char '\x7b' :: (before ++ body ++ [.char '\x7d']), by rw [hmore]; simp,
          ⟨hnodup, before ++ body, rfl, htexts.blanks hbefore⟩, Nat.succ_le_succ hdepth, hdigits⟩
      · cases h
  · obtain ⟨rfl, rfl⟩ := Prod.mk.inj (Except.ok.inj h)
    exact ⟨ofChars "null".toList, rfl, rfl, Nat.zero_le _, Nat.zero_le _⟩
  · obtain ⟨rfl, rfl⟩ := Prod.mk.inj (Except.ok.inj h)
    exact ⟨ofChars "true".toList, rfl, rfl, Nat.zero_le _, Nat.zero_le _⟩
  · obtain ⟨rfl, rfl⟩ := Prod.mk.inj (Except.ok.inj h)
    exact ⟨ofChars "false".toList, rfl, rfl, Nat.zero_le _, Nat.zero_le _⟩
  · obtain ⟨text, hcs, htext, hdepth, hdigits⟩ := text_of_scanNumber h
    exact ⟨text, hcs, htext, hdepth ▸ Nat.zero_le room, hdigits⟩

/-- The same for the items of an array. -/
theorem readsItems_succ {fuel : Nat} (htexts : ReadsTexts float maxDigits fuel)
    (hitems : ReadsItems float maxDigits fuel) : ReadsItems float maxDigits (fuel + 1) := by
  intro room cs rest xs h
  rw [scanItems] at h
  obtain ⟨⟨x, more⟩, hx, hend⟩ := bind_eq_ok.1 h
  dsimp only at hend
  obtain ⟨text, rfl, htext, hdepth, hdigits⟩ := htexts _ _ _ _ hx
  obtain ⟨after, hafter, hmore⟩ := exists_skipBlanks more
  have hfirst : Spaced (IsText float x) (text ++ after) :=
    ⟨[], text, after, rfl, blanks_nil, htext, hafter⟩
  split at hend
  · -- the last one
    rename_i heq
    obtain ⟨rfl, rfl⟩ := Prod.mk.inj (Except.ok.inj hend)
    rw [heq] at hmore
    exact ⟨text ++ after, by rw [hmore]; simp, List.cons_ne_nil _ _,
      ⟨text ++ after, [], by simp, hfirst, rfl⟩, Nat.max_le.2 ⟨hdepth, Nat.zero_le _⟩,
      Nat.max_le.2 ⟨hdigits, Nat.zero_le _⟩⟩
  · rename_i later heq
    obtain ⟨⟨ys, rest'⟩, hys, heq'⟩ := map_eq_ok.1 hend
    obtain ⟨rfl, rfl⟩ := Prod.mk.inj heq'
    obtain ⟨body, hbody, hne, hlist, hdepths, hdigitss⟩ := hitems _ _ _ _ hys
    obtain ⟨before, hbefore, hlater⟩ := exists_skipBlanks later
    rw [hbody] at hlater
    rw [heq, hlater] at hmore
    obtain ⟨y, ys, rfl⟩ := List.exists_cons_of_ne_nil hne
    obtain ⟨first, more', hsplit, hnext⟩ := hlist.blanks hbefore
    exact ⟨text ++ after ++ .char ',' :: (before ++ body), by rw [hmore]; simp,
      List.cons_ne_nil _ _, ⟨text ++ after, .char ',' :: (before ++ body), rfl, hfirst, first,
        more', by rw [hsplit], hnext⟩, Nat.max_le.2 ⟨hdepth, hdepths⟩,
      Nat.max_le.2 ⟨hdigits, hdigitss⟩⟩
  · cases hend

/-- And for the members of an object. -/
theorem readsMembers_succ {fuel : Nat} (htexts : ReadsTexts float maxDigits fuel)
    (hmembers : ReadsMembers float maxDigits fuel) : ReadsMembers float maxDigits (fuel + 1) := by
  intro room cs rest ms h
  unfold scanMembers at h
  split at h
  · rename_i quoted
    obtain ⟨⟨k, more⟩, hk, hcolon⟩ := bind_eq_ok.1 h
    dsimp only at hcolon
    obtain ⟨chars, rfl, hchars⟩ := text_of_scanChars hk
    obtain ⟨blanks, hblanks, hmore⟩ := exists_skipBlanks more
    -- The key with the blanks up to the colon.
    have hkey : Spaced (IsLiteral k) (.char '"' :: (chars ++ [.char '"']) ++ blanks) :=
      ⟨[], .char '"' :: (chars ++ [.char '"']), blanks, rfl, blanks_nil, ⟨chars, rfl, hchars⟩,
        hblanks⟩
    split at hcolon
    · rename_i value heq
      rw [heq] at hmore
      obtain ⟨⟨v, after⟩, hv, hend⟩ := bind_eq_ok.1 hcolon
      dsimp only at hend
      obtain ⟨before, hbefore, hvalue⟩ := exists_skipBlanks value
      obtain ⟨text, hsplit, htext, hdepth, hdigits⟩ := htexts _ _ _ _ hv
      rw [hsplit] at hvalue
      obtain ⟨trail, htrail, hafter⟩ := exists_skipBlanks after
      have hspaced : Spaced (IsText float v) (before ++ (text ++ trail)) :=
        ⟨before, text, trail, rfl, hbefore, htext, htrail⟩
      split at hend
      · -- the last one
        rename_i heq'
        obtain ⟨rfl, rfl⟩ := Prod.mk.inj (Except.ok.inj hend)
        rw [heq'] at hafter
        exact ⟨.char '"' :: (chars ++ [.char '"']) ++ blanks ++
            .char ':' :: (before ++ (text ++ trail)),
          by rw [hmore, hvalue, hafter]; simp, List.cons_ne_nil _ _,
          ⟨_, _, [], by simp, hkey, hspaced, rfl⟩, Nat.max_le.2 ⟨hdepth, Nat.zero_le _⟩,
          Nat.max_le.2 ⟨hdigits, Nat.zero_le _⟩⟩
      -- A comma: the text of the later members is the induction's.
      · rename_i later heq'
        obtain ⟨⟨ns, rest'⟩, hns, heq''⟩ := map_eq_ok.1 hend
        obtain ⟨rfl, rfl⟩ := Prod.mk.inj heq''
        obtain ⟨body, hbody, hne, hlist, hdepths, hdigitss⟩ := hmembers _ _ _ _ hns
        obtain ⟨lead, hlead, hlater⟩ := exists_skipBlanks later
        rw [hbody] at hlater
        rw [heq', hlater] at hafter
        obtain ⟨⟨l, w⟩, ns, rfl⟩ := List.exists_cons_of_ne_nil hne
        obtain ⟨key', value', more', hparts, hnext⟩ := hlist.blanks hlead
        exact ⟨.char '"' :: (chars ++ [.char '"']) ++ blanks ++ .char ':' ::
            (before ++ (text ++ trail) ++ .char ',' :: (lead ++ body)),
          by rw [hmore, hvalue, hafter]; simp, List.cons_ne_nil _ _,
          ⟨_, _, .char ',' :: (lead ++ body), rfl, hkey, hspaced, key', value', more',
            by rw [hparts], hnext⟩, Nat.max_le.2 ⟨hdepth, hdepths⟩,
          Nat.max_le.2 ⟨hdigits, hdigitss⟩⟩
      · cases hend
    · cases hcolon
  · cases h

/-- **What is read is a text of the value, within the limits.**  By induction
on the fuel, for a value, for items and for members at once. -/
theorem text_of_scanValue {fuel room : Nat} {cs rest : Text} {v : Value φ}
    (h : scanValue float maxDigits fuel room cs = .ok (v, rest)) : ∃ text, cs = text ++ rest ∧
      IsText float v text ∧ depth v ≤ room ∧ longest v ≤ maxDigits := by
  have hall : ∀ fuel, ReadsTexts float maxDigits fuel ∧ ReadsItems float maxDigits fuel ∧
      ReadsMembers float maxDigits fuel := by
    intro fuel
    induction fuel with
    | zero =>
        refine ⟨?_, ?_, ?_⟩
        · intro room cs rest v h
          cases h
        · intro room cs rest xs h
          cases h
        · intro room cs rest ms h
          cases h
    | succ fuel ih =>
        obtain ⟨htexts, hitems, hmembers⟩ := ih
        exact ⟨readsTexts_succ hitems hmembers, readsItems_succ htexts hitems,
          readsMembers_succ htexts hmembers⟩
  exact (hall fuel).1 _ _ _ _ h

/-! ## §4. Reading. -/

/-- **A text is read as a value exactly where it is one of the value**, with
blanks around it and within the limits of the interpreter. -/
theorem loads_eq_ok_iff {nesting : Nat} {cs : Text} {v : Value φ} :
    loads float maxDigits nesting cs = .ok v ↔
      Spaced (IsText float v) cs ∧ depth v ≤ nesting ∧ longest v ≤ maxDigits := by
  constructor
  · intro h
    unfold loads at h
    split at h
    · cases h
    obtain ⟨⟨w, rest⟩, hw, h⟩ := bind_eq_ok.1 h
    dsimp only at h
    split at h
    · rename_i hblank
      obtain rfl := Except.ok.inj h
      obtain ⟨before, hbefore, hcs⟩ := exists_skipBlanks cs
      obtain ⟨text, hsplit, htext, hlimits⟩ := text_of_scanValue hw
      obtain ⟨after, hafter, hrest⟩ := exists_skipBlanks rest
      rw [List.isEmpty_iff.1 hblank, List.append_nil] at hrest
      rw [hsplit, hrest] at hcs
      exact ⟨⟨before, text, after, hcs, hbefore, htext, hafter⟩, hlimits⟩
    · cases h
  · rintro ⟨⟨before, text, after, rfl, hbefore, htext, hafter⟩, hdepth, hdigits⟩
    obtain ⟨c, t, hhead, -, -, hmark⟩ := isText_head htext
    -- a byte order mark is no blank
    have hfirst : ¬ (before ++ (text ++ after)).head? = some (.char '\ufeff') := by
      rw [hhead]
      intro hhead?
      cases before with
      | nil => exact hmark (CodePoint.char.inj (Option.some.inj hhead?))
      | cons b before =>
          obtain rfl := Option.some.inj hhead?
          have hblank : isBlank (.char '\ufeff') = true := hbefore _ List.mem_cons_self
          cases hblank
    have hstart := skipBlanks_text hbefore htext after
    have hend : skipBlanks after = [] := List.dropWhile_eq_nil_iff.2 hafter
    have hscan := scanValue_text v nesting (2 * (before ++ (text ++ after)).length + 2) text after
      htext hdepth hdigits hafter.delimited (by simp only [List.length_append]; omega)
    unfold loads
    rw [if_neg hfirst, hstart, hscan]
    show (if (skipBlanks after).isEmpty = true then Except.ok v else _) = _
    rw [hend]
    rfl

/-- **A text is one of one value.**  Within limits that are wide enough for
both values the reader returns both. -/
theorem text_unique {v v' : Value φ} {cs : Text} (h : Spaced (IsText float v) cs)
    (h' : Spaced (IsText float v') cs) : v = v' := by
  have hread : loads float (max (longest v) (longest v')) (max (depth v) (depth v')) cs = .ok v :=
    loads_eq_ok_iff.2 ⟨h, Nat.le_max_left _ _, Nat.le_max_left _ _⟩
  have hread' : loads float (max (longest v) (longest v')) (max (depth v) (depth v')) cs = .ok v' :=
    loads_eq_ok_iff.2 ⟨h', Nat.le_max_right _ _, Nat.le_max_right _ _⟩
  exact Except.ok.inj (hread.symm.trans hread')

end Reading

end Rpy.Foundation.PyJson

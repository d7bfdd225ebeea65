/-
  Rpy.Foundation.JsonKeys
  ───────────────────────
  **WHAT THE TEXT OF A VALUE TELLS.**

  `Json.dumps` prints a value with its members in key order, so values with
  equal `sortKeys` have equal texts.  Conversely a text tells the value it
  was printed from; this is proved for values without numbers, whose texts
  end where they end whatever follows.

    • `Json.quote_append_inj` — string literals are a prefix code,
    • `Json.text_append_inj`  — so are the texts of values without numbers.
-/
import Rpy.Foundation.JsonText

namespace Rpy.Foundation

namespace Json

/-! ## §1. String literals are a prefix code. -/

/-- The value of a hexadecimal digit. -/
def hexValue (c : Char) : Nat :=
  if c.toNat < 97 then c.toNat - 48 else c.toNat - 87

/-- One character read back from the inside of a string literal. -/
def unescape : List Char → Option (Char × List Char)
  | '\\' :: 'n' :: r => some ('\n', r)
  | '\\' :: 'r' :: r => some ('\r', r)
  | '\\' :: 't' :: r => some ('\t', r)
  | '\\' :: 'b' :: r => some ('\x08', r)
  | '\\' :: 'f' :: r => some ('\x0c', r)
  | '\\' :: 'u' :: _ :: _ :: a :: b :: r =>
      some (Char.ofNat (hexValue a * 16 + hexValue b), r)
  | '\\' :: c :: r => some (c, r)
  | c :: r => some (c, r)
  | [] => none

theorem hexValue_digitChar : ∀ n < 16, hexValue (Nat.digitChar n) = n := by decide

/-- What is read back is the character that was escaped. -/
theorem unescape_escapeChar (c : Char) (r : List Char) :
    unescape (escapeChar c ++ r) = some (c, r) := by
  unfold escapeChar
  split
  · next h => rw [h]; rfl
  split
  · next h => rw [h]; rfl
  split
  · next h => rw [h]; rfl
  split
  · next h => rw [h]; rfl
  split
  · next h => rw [h]; rfl
  split
  · next h => rw [h]; rfl
  split
  · next h => rw [h]; rfl
  split
  · next hcontrol =>
      show some (Char.ofNat (hexValue (Nat.digitChar (c.toNat / 16)) * 16 +
        hexValue (Nat.digitChar (c.toNat % 16))), r) = _
      rw [hexValue_digitChar _ (by omega), hexValue_digitChar _ (by omega), Nat.div_add_mod',
        Char.ofNat_toNat]
  · next hslash _ _ _ _ _ _ =>
      show unescape (c :: r) = _
      unfold unescape
      split <;> simp_all

/-- No escaped character begins with the quotation mark. -/
theorem escapeChar_head (c : Char) (r s : List Char) : escapeChar c ++ r ≠ '"' :: s := by
  intro h
  have hread := unescape_escapeChar c r
  rw [h] at hread
  obtain ⟨rfl, -⟩ := Prod.mk.inj (Option.some.inj hread)
  cases h

theorem escaped_append_inj {cs ds r s : List Char}
    (h : cs.flatMap escapeChar ++ '"' :: r = ds.flatMap escapeChar ++ '"' :: s) :
    cs = ds ∧ r = s := by
  induction cs generalizing ds with
  | nil =>
      cases ds with
      | nil => exact ⟨rfl, (List.cons.inj h).2⟩
      | cons d ds =>
          rw [List.flatMap_cons, List.append_assoc] at h
          exact absurd h.symm (escapeChar_head d _ _)
  | cons c cs ih =>
      cases ds with
      | nil =>
          rw [List.flatMap_cons, List.append_assoc] at h
          exact absurd h (escapeChar_head c _ _)
      | cons d ds =>
          rw [List.flatMap_cons, List.flatMap_cons, List.append_assoc, List.append_assoc] at h
          have hread := congrArg unescape h
          rw [unescape_escapeChar, unescape_escapeChar] at hread
          obtain ⟨rfl, hrest⟩ := Prod.mk.inj (Option.some.inj hread)
          obtain ⟨rfl, hr⟩ := ih hrest
          exact ⟨rfl, hr⟩

theorem quote_append_inj {a b : String} {r s : List Char}
    (h : quote a ++ r = quote b ++ s) : a = b ∧ r = s := by
  unfold quote at h
  simp only [List.cons_append, List.append_assoc, List.cons.injEq, List.nil_append,
    true_and] at h
  obtain ⟨hab, hrs⟩ := escaped_append_inj h
  exact ⟨String.toList_inj.1 hab, hrs⟩

/-! ## §2. Values without numbers have a prefix code. -/

mutual
/-- The value has no number in it. -/
def numberFree : Json → Bool
  | .int _ => false
  | .float _ => false
  | .arr xs => numberFreeList xs
  | .obj members => numberFreeMembers members
  | _ => true
  termination_by structural v => v

def numberFreeList : List Json → Bool
  | [] => true
  | x :: xs => numberFree x && numberFreeList xs
  termination_by structural xs => xs

def numberFreeMembers : List (String × Json) → Bool
  | [] => true
  | (_, v) :: ms => numberFree v && numberFreeMembers ms
  termination_by structural ms => ms
end

theorem numberFreeList_iff (xs : List Json) :
    numberFreeList xs = true ↔ ∀ x ∈ xs, x.numberFree = true := by
  induction xs with
  | nil => simp [numberFreeList]
  | cons x xs ih => simp [numberFreeList, ih]

/-- What follows the first item of an array. -/
def textTail : List Json → List Char
  | [] => []
  | x :: xs => ',' :: textList (x :: xs)

/-- What follows the first member of an object. -/
def textMembersTail : List (String × Json) → List Char
  | [] => []
  | m :: ms => ',' :: textMembers (m :: ms)

theorem textList_cons (x : Json) (xs : List Json) :
    textList (x :: xs) = text x ++ textTail xs := by
  cases xs with
  | nil => rw [textList, textTail, List.append_nil]
  | cons y ys => rw [textList, textTail]; exact List.cons_ne_nil y ys

theorem textMembers_cons (k : String) (v : Json) (ms : List (String × Json)) :
    textMembers ((k, v) :: ms) = quote k ++ ':' :: (text v ++ textMembersTail ms) := by
  cases ms with
  | nil => rw [textMembers, textMembersTail, List.append_nil]
  | cons m ms => rw [textMembers, textMembersTail]; exact List.cons_ne_nil m ms

/-- The first character tells the constructor, and is no closing bracket. -/
theorem text_head (v : Json) (hv : v.numberFree = true) :
    ∃ c r, text v = c :: r ∧ c ≠ ']' ∧
      (c = 'n' → v = .null) ∧ (c = 't' → v = .bool true) ∧ (c = 'f' → v = .bool false) ∧
      (c = '"' → ∃ s, v = .str s) ∧ (c = '[' → ∃ xs, v = .arr xs) ∧
      (c = '\x7b' → ∃ ms, v = .obj ms) := by
  cases v with
  | null => exact ⟨'n', "ull".toList, rfl, by simp⟩
  | bool b =>
      cases b
      · exact ⟨'f', "alse".toList, rfl, by simp⟩
      · exact ⟨'t', "rue".toList, rfl, by simp⟩
  | int n => cases hv
  | float d => cases hv
  | str s => exact ⟨'"', _, by rw [text, quote, List.cons_append], by simp⟩
  | arr xs => exact ⟨'[', _, by rw [text, List.cons_append], by simp⟩
  | obj ms => exact ⟨'\x7b', _, by rw [text, List.cons_append], by simp⟩

mutual
/-- **The texts of values without numbers are a prefix code.** -/
theorem text_append_inj : ∀ (v w : Json) (r s : List Char), v.numberFree = true →
    w.numberFree = true → text v ++ r = text w ++ s → v = w ∧ r = s
  | .null, w, r, s, _, hw, h => by
      obtain ⟨c, t, ht, -, hnull, -⟩ := text_head w hw
      rw [ht] at h
      obtain rfl := hnull (List.cons.inj h).1.symm
      exact ⟨rfl, List.append_cancel_left (by rw [← ht] at h; exact h)⟩
  | .bool true, w, r, s, _, hw, h => by
      obtain ⟨c, t, ht, -, -, htrue, -⟩ := text_head w hw
      rw [ht] at h
      obtain rfl := htrue (List.cons.inj h).1.symm
      exact ⟨rfl, List.append_cancel_left (by rw [← ht] at h; exact h)⟩
  | .bool false, w, r, s, _, hw, h => by
      obtain ⟨c, t, ht, -, -, -, hfalse, -⟩ := text_head w hw
      rw [ht] at h
      obtain rfl := hfalse (List.cons.inj h).1.symm
      exact ⟨rfl, List.append_cancel_left (by rw [← ht] at h; exact h)⟩
  -- A first character decides the constructor; `text_head` says which.
  | .str a, w, r, s, _, hw, h => by
      obtain ⟨c, t, ht, -, -, -, -, hstr, -⟩ := text_head w hw
      have hc : c = '"' := by
        rw [ht, text, quote] at h
        exact (List.cons.inj h).1.symm
      obtain ⟨b, rfl⟩ := hstr hc
      rw [text, text] at h
      obtain ⟨rfl, hrest⟩ := quote_append_inj h
      exact ⟨rfl, hrest⟩
  | .arr xs, w, r, s, hv, hw, h => by
      obtain ⟨c, t, ht, -, -, -, -, -, harr, -⟩ := text_head w hw
      have hc : c = '[' := by
        rw [ht, text] at h
        exact (List.cons.inj h).1.symm
      obtain ⟨ys, rfl⟩ := harr hc
      rw [text, text] at h
      simp only [List.cons_append, List.append_assoc, List.nil_append, List.cons.injEq,
        true_and] at h
      obtain ⟨rfl, hrest⟩ := textList_append_inj xs ys r s hv hw h
      exact ⟨rfl, hrest⟩
  | .obj ms, w, r, s, hv, hw, h => by
      obtain ⟨c, t, ht, -, -, -, -, -, -, hobj⟩ := text_head w hw
      have hc : c = '\x7b' := by
        rw [ht, text] at h
        exact (List.cons.inj h).1.symm
      obtain ⟨ns, rfl⟩ := hobj hc
      rw [text, text] at h
      simp only [List.cons_append, List.append_assoc, List.nil_append, List.cons.injEq,
        true_and] at h
      obtain ⟨rfl, hrest⟩ := textMembers_append_inj ms ns r s hv hw h
      exact ⟨rfl, hrest⟩
  termination_by structural v => v

/-- The items of an array, up to its closing bracket. -/
theorem textList_append_inj : ∀ (xs ys : List Json) (r s : List Char),
    numberFreeList xs = true → numberFreeList ys = true →
    textList xs ++ ']' :: r = textList ys ++ ']' :: s → xs = ys ∧ r = s
  | [], [], _, _, _, _, h => ⟨rfl, (List.cons.inj h).2⟩
  | [], y :: ys, r, s, _, hys, h => by
      rw [numberFreeList, Bool.and_eq_true] at hys
      obtain ⟨c, t, ht, hne, -⟩ := text_head y hys.1
      rw [textList_cons, ht] at h
      exact absurd (List.cons.inj h).1.symm hne
  | x :: xs, [], r, s, hxs, _, h => by
      rw [numberFreeList, Bool.and_eq_true] at hxs
      obtain ⟨c, t, ht, hne, -⟩ := text_head x hxs.1
      rw [textList_cons, ht] at h
      exact absurd (List.cons.inj h).1 hne
  | x :: xs, y :: ys, r, s, hxs, hys, h => by
      rw [numberFreeList, Bool.and_eq_true] at hxs hys
      rw [textList_cons, textList_cons, List.append_assoc, List.append_assoc] at h
      obtain ⟨rfl, htail⟩ := text_append_inj x y _ _ hxs.1 hys.1 h
      have hrest : xs = ys ∧ r = s := by
        cases xs with
        | nil =>
            cases ys with
            | nil => exact ⟨rfl, (List.cons.inj htail).2⟩
            | cons y' ys => exact absurd (List.cons.inj htail).1 (by decide)
        | cons x' xs =>
            cases ys with
            | nil => exact absurd (List.cons.inj htail).1 (by decide)
            | cons y' ys =>
                exact textList_append_inj (x' :: xs) (y' :: ys) r s hxs.2 hys.2
                  (List.cons.inj htail).2
      exact ⟨by rw [hrest.1], hrest.2⟩
  termination_by structural xs => xs

/-- The members of an object, up to its closing bracket. -/
theorem textMembers_append_inj : ∀ (ms ns : List (String × Json)) (r s : List Char),
    numberFreeMembers ms = true → numberFreeMembers ns = true →
    textMembers ms ++ '\x7d' :: r = textMembers ns ++ '\x7d' :: s → ms = ns ∧ r = s
  | [], [], _, _, _, _, h => ⟨rfl, (List.cons.inj h).2⟩
  | [], (l, w) :: ns, r, s, _, _, h => by
      rw [textMembers_cons, quote] at h
      exact absurd (List.cons.inj h).1 (by decide)
  | (k, v) :: ms, [], r, s, _, _, h => by
      rw [textMembers_cons, quote] at h
      exact absurd (List.cons.inj h).1 (by decide)
  | (k, v) :: ms, (l, w) :: ns, r, s, hms, hns, h => by
      rw [numberFreeMembers, Bool.and_eq_true] at hms hns
      rw [textMembers_cons, textMembers_cons, List.append_assoc, List.append_assoc] at h
      obtain ⟨rfl, hvalue⟩ := quote_append_inj h
      simp only [List.cons_append, List.append_assoc, List.cons.injEq, true_and] at hvalue
      obtain ⟨rfl, htail⟩ := text_append_inj v w _ _ hms.1 hns.1 hvalue
      have hrest : ms = ns ∧ r = s := by
        cases ms with
        | nil =>
            cases ns with
            | nil => exact ⟨rfl, (List.cons.inj htail).2⟩
            | cons n ns => exact absurd (List.cons.inj htail).1 (by decide)
        | cons m ms =>
            cases ns with
            | nil => exact absurd (List.cons.inj htail).1 (by decide)
            | cons n ns =>
                exact textMembers_append_inj (m :: ms) (n :: ns) r s hms.2 hns.2
                  (List.cons.inj htail).2
      exact ⟨by rw [hrest.1], hrest.2⟩
  termination_by structural ms => ms
end

end Json

end Rpy.Foundation

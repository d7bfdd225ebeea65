/-
  Rpy.Foundation.FixedForm
  ────────────────────────
  **PATTERNS THAT MATCH TEXTS OF ONE LENGTH.**

  A pattern made of characters, of repetitions of a fixed number and of
  sequences goes over one character of each of a list of classes, in one
  way or not at all.  Its full match is then a question about the text
  alone, without a matcher.

    • `Goes`              — the pattern goes over the classes of a shape,
    • `goes_seq`, `goes_exactly` — how shapes compose,
    • `fullMatch_iff`     — the texts it matches.
-/
import Mathlib.Data.List.Forall2
import Rpy.Foundation.Regex

namespace Rpy.Foundation.Regex

/-- Does the text begin with one character of each class? -/
def fits : List (Char → Bool) → List Char → Bool
  | [], _ => true
  | _ :: _, [] => false
  | ok :: shape, c :: cs => ok c && fits shape cs

theorem fits_append (s t : List (Char → Bool)) (cs : List Char) :
    fits (s ++ t) cs = (fits s cs && fits t (cs.drop s.length)) := by
  induction s generalizing cs with
  | nil => rfl
  | cons ok s ih =>
      cases cs with
      | nil => rfl
      | cons c cs =>
          show (ok c && fits (s ++ t) cs) = (ok c && fits s cs && fits t (cs.drop s.length))
          rw [ih, Bool.and_assoc]

/-- The whole text has one character of each class. -/
theorem fits_all_iff {shape : List (Char → Bool)} {cs : List Char} :
    fits shape cs = true ∧ cs.drop shape.length = [] ↔
      List.Forall₂ (fun ok c => ok c = true) shape cs := by
  induction shape generalizing cs with
  | nil =>
      show true = true ∧ cs = [] ↔ _
      rw [List.forall₂_nil_left_iff]
      exact and_iff_right rfl
  | cons ok shape ih =>
      cases cs with
      | nil => exact ⟨fun h => (nomatch h.1), fun h => (nomatch h)⟩
      | cons c cs =>
          show (ok c && fits shape cs) = true ∧ cs.drop shape.length = [] ↔ _
          rw [Bool.and_eq_true, and_assoc, ih, List.forall₂_cons]

/-- The pattern goes over one character of each class, wherever it is. -/
def Goes (r : Regex) (shape : List (Char → Bool)) : Prop :=
  ∀ c : Cursor, steps r c = if fits shape c.after then [c.skip shape.length] else []

theorem goes_char (ok : Char → Bool) : Goes (.char ok) [ok] := by
  intro c
  rw [steps_char]
  unfold next
  cases c.after with
  | nil => rfl
  | cons x rest =>
      show (if ok x then _ else _) = if ok x && true then _ else _
      rw [Bool.and_true]
      rfl

theorem goes_seq {a b : Regex} {s t : List (Char → Bool)} (ha : Goes a s) (hb : Goes b t) :
    Goes (.seq a b) (s ++ t) := by
  intro c
  show (steps a c).flatMap (steps b) = _
  rw [ha c, fits_append]
  cases fits s c.after with
  | false => rfl
  | true =>
      show [c.skip s.length].flatMap (steps b) = if true && _ then _ else _
      rw [List.flatMap_singleton, hb, Bool.true_and, skip_skip, List.length_append]
      rfl

/-- A sequence of patterns. -/
theorem goes_cat {rs : List Regex} {shapes : List (List (Char → Bool))}
    (h : List.Forall₂ Goes rs shapes) : Goes (cat rs) shapes.flatten := by
  induction h with
  | nil => exact fun c => congrArg (fun d => [d]) (skip_zero c).symm
  | @cons r shape rs shapes hr hrest ih =>
      cases hrest with
      | nil =>
          show Goes r (shape ++ [])
          rw [List.append_nil]
          exact hr
      | cons => exact goes_seq hr ih

theorem goes_exactly {ok : Char → Bool} (n : Nat) :
    Goes (exactly n (.char ok)) (List.replicate n ok) := by
  intro c
  have htimes : ∀ (n : Nat) (c : Cursor), times (steps (.char ok)) n c =
      if fits (List.replicate n ok) c.after then [c.skip n] else [] := by
    intro n
    induction n with
    | zero =>
        intro c
        rw [show c.skip 0 = c from skip_zero c]
        rfl
    | succ n ih =>
        intro c
        show (steps (.char ok) c).flatMap (times (steps (.char ok)) n) = _
        rw [goes_char ok c, Nat.add_comm n 1, ← List.replicate_append_replicate, fits_append]
        show (if fits [ok] c.after then _ else _ : List Cursor).flatMap _ =
          if fits [ok] c.after && fits _ (c.after.drop 1) then _ else _
        cases fits [ok] c.after with
        | false => rfl
        | true =>
            show [c.skip 1].flatMap _ = if true && _ then _ else _
            rw [List.flatMap_singleton, ih, Bool.true_and, skip_skip]
            rfl
  show (times (steps (.char ok)) n c).flatMap (atMost (steps (.char ok)) true (n - n)) = _
  rw [htimes, Nat.sub_self, List.length_replicate]
  cases fits (List.replicate n ok) c.after <;> rfl

/-- **The texts a pattern of a fixed form matches as a whole.** -/
theorem fullMatch_iff {r : Regex} {shape : List (Char → Bool)} (h : Goes r shape)
    {cs : List Char} :
    fullMatch r cs = true ↔ List.Forall₂ (fun ok c => ok c = true) shape cs := by
  unfold fullMatch
  rw [h (start cs), ← fits_all_iff]
  show (if fits shape cs = true then _ else _ : List Cursor).any _ = true ↔ _
  cases fits shape cs with
  | false => exact ⟨fun h => (nomatch h), fun h => (nomatch h.1)⟩
  | true =>
      show ((cs.drop shape.length).isEmpty || false) = true ↔ _
      rw [Bool.or_false, List.isEmpty_iff]
      exact (and_iff_right rfl).symm

end Rpy.Foundation.Regex

/-
  Rpy.Foundation.Envelope
  ───────────────────────
  **A TEXT MADE OF A TEMPLATE AND OF DATA.**

  A tag stands between an opening and a closing symbol and has neither
  inside.  Where the data has no opening symbol, and every opening symbol of
  the template is closed before the data goes on, the tags of the text are
  those of the template.  The file names nothing of any particular program.

    • `Piece`, `envelope`        — the text, piece by piece,
    • `occursAt_envelope_iff`    — **where a tag occurs**.
-/
import Mathlib.Data.List.Infix

namespace Rpy.Foundation

variable {α : Type*}

/-! ## §1. Pieces and tags. -/

/-- A piece of a text. -/
inductive Piece (α : Type*) where
  | template (text : List α)
  | data (text : List α)

/-- The symbols of a piece. -/
def Piece.text : Piece α → List α
  | .template text => text
  | .data text => text

/-- The text of the pieces. -/
def envelope (pieces : List (Piece α)) : List α := pieces.flatMap Piece.text

/-- The word is read at a position of the text. -/
def OccursAt (tag text : List α) (p : Nat) : Prop := tag <+: text.drop p

/-- A word between an opening and a closing symbol, with neither inside. -/
def IsTag (opening closing : α) (tag : List α) : Prop :=
  ∃ name, tag = opening :: (name ++ [closing]) ∧ opening ∉ name ∧ closing ∉ name

/-- What is opened in the text is closed in it. -/
def Closes (opening closing : α) (text : List α) : Prop :=
  ∀ before after, text = before ++ opening :: after → closing ∈ after

/-- Nothing is opened in the data, and the template closes what it opens. -/
def Sealed (opening closing : α) : Piece α → Prop
  | .template text => Closes opening closing text
  | .data text => opening ∉ text

/-- Is every opening symbol followed by a closing one? -/
def closes [DecidableEq α] (opening closing : α) : List α → Bool
  | [] => true
  | a :: rest => (a ≠ opening || closing ∈ rest) && closes opening closing rest

section Tags

variable {opening closing : α}

theorem closes_sound [DecidableEq α] {text : List α} (h : closes opening closing text = true) :
    Closes opening closing text := by
  induction text with
  | nil => exact fun before after hsplit => absurd hsplit (by simp)
  | cons a rest ih =>
      unfold closes at h
      rw [Bool.and_eq_true, Bool.or_eq_true, decide_eq_true_eq, decide_eq_true_eq] at h
      rintro (_ | ⟨b, before⟩) after hsplit
      · obtain ⟨rfl, rfl⟩ := List.cons.inj hsplit
        exact h.1.resolve_left (fun hne => hne rfl)
      · exact ih h.2 before after (List.cons.inj hsplit).2

/-- A tag that begins in a text which closes it ends in it. -/
theorem IsTag.prefix_of_closes {tag text rest : List α} (htag : IsTag opening closing tag)
    (hclosed : closing ∈ text) (h : tag <+: opening :: (text ++ rest)) :
    tag <+: opening :: text := by
  obtain ⟨name, rfl, -, hname⟩ := htag
  obtain ⟨before, after, rfl⟩ := List.append_of_mem hclosed
  rw [List.cons_prefix_cons] at h ⊢
  refine ⟨rfl, List.prefix_of_prefix_length_le h.2 (List.prefix_append _ _) ?_⟩
  -- otherwise the closing symbol of the text is inside the tag
  by_contra hlong
  have hwhole : before ++ [closing] <+: before ++ closing :: after ++ rest :=
    ⟨after ++ rest, by simp⟩
  have hbefore : before ++ [closing] <+: name ++ [closing] := by
    refine List.prefix_of_prefix_length_le hwhole h.2 ?_
    simp only [List.length_append, List.length_cons, List.length_nil] at hlong ⊢
    omega
  have hinside : before ++ [closing] <+: name := by
    refine List.prefix_of_prefix_length_le hbefore (List.prefix_append _ _) ?_
    simp only [List.length_append, List.length_cons, List.length_nil] at hlong ⊢
    omega
  exact hname (hinside.subset (List.mem_append_right _ List.mem_cons_self))

/-- A tag that begins in the first piece is in it. -/
theorem IsTag.occursAt_piece {tag rest : List α} (htag : IsTag opening closing tag)
    {piece : Piece α} (hpiece : Sealed opening closing piece) {p : Nat}
    (hp : p < piece.text.length) :
    OccursAt tag (piece.text ++ rest) p ↔
      ∃ text, piece = .template text ∧ OccursAt tag text p := by
  have hdrop : (piece.text ++ rest).drop p = piece.text.drop p ++ rest :=
    List.drop_append_of_le_length (Nat.le_of_lt hp)
  constructor
  · intro h
    unfold OccursAt at h
    rw [hdrop] at h
    -- the tag begins with the symbol the piece has there
    obtain ⟨after, hafter⟩ : ∃ after, piece.text.drop p = opening :: after := by
      obtain ⟨name, rfl, -⟩ := htag
      rw [List.drop_eq_getElem_cons hp, List.cons_append, List.cons_prefix_cons] at h
      exact ⟨piece.text.drop (p + 1), by rw [List.drop_eq_getElem_cons hp, h.1]⟩
    have hsplit : piece.text.take p ++ opening :: after = piece.text := by
      rw [← hafter, List.take_append_drop]
    rw [hafter, List.cons_append] at h
    cases piece with
    | data text =>
        have hdata : text.take p ++ opening :: after = text := hsplit
        have hin : opening ∈ text.take p ++ opening :: after :=
          List.mem_append_right _ List.mem_cons_self
        rw [hdata] at hin
        exact absurd hin hpiece
    | template text =>
        have hclosed : closing ∈ after := hpiece _ after hsplit.symm
        have htemplate : text.drop p = opening :: after := hafter
        refine ⟨text, rfl, ?_⟩
        unfold OccursAt
        rw [htemplate]
        exact htag.prefix_of_closes hclosed h
  · rintro ⟨text, rfl, h⟩
    unfold OccursAt
    rw [hdrop]
    exact h.trans (List.prefix_append _ _)

/-- **Where a tag occurs**: in a piece of the template, where it occurs in
that piece. -/
theorem occursAt_envelope_iff {tag : List α} (htag : IsTag opening closing tag)
    {pieces : List (Piece α)} (hpieces : ∀ piece ∈ pieces, Sealed opening closing piece) (p : Nat) :
    OccursAt tag (envelope pieces) p ↔
      ∃ before text after q, pieces = before ++ .template text :: after ∧
        p = (envelope before).length + q ∧ OccursAt tag text q := by
  induction pieces generalizing p with
  | nil =>
      refine ⟨fun h => ?_, fun ⟨before, text, after, q, hpieces, _⟩ => ?_⟩
      · obtain ⟨name, rfl, -⟩ := htag
        unfold OccursAt envelope at h
        rw [List.flatMap_nil, List.drop_nil] at h
        exact absurd (List.prefix_nil.1 h) (List.cons_ne_nil _ _)
      · exact absurd hpieces.symm (by simp)
  | cons piece pieces ih =>
      rw [List.forall_mem_cons] at hpieces
      have henvelope : envelope (piece :: pieces) = piece.text ++ envelope pieces :=
        List.flatMap_cons
      have hne : tag ≠ [] := by
        obtain ⟨name, rfl, -⟩ := htag
        exact List.cons_ne_nil _ _
      by_cases hp : p < piece.text.length
      · -- in this piece
        rw [henvelope, htag.occursAt_piece hpieces.1 hp]
        constructor
        · rintro ⟨text, rfl, h⟩
          exact ⟨[], text, pieces, p, rfl, (Nat.zero_add p).symm, h⟩
        · rintro ⟨before, text, after, q, hsplit, rfl, h⟩
          cases before with
          | nil =>
              obtain ⟨rfl, -⟩ := List.cons.inj hsplit
              exact ⟨text, rfl, by simpa [envelope] using h⟩
          | cons first before =>
              obtain ⟨rfl, -⟩ := List.cons.inj hsplit
              simp only [envelope, List.flatMap_cons, List.length_append] at hp
              omega
      · -- behind it
        obtain ⟨r, rfl⟩ : ∃ r, p = piece.text.length + r := ⟨p - piece.text.length, by omega⟩
        have hbehind : OccursAt tag (piece.text ++ envelope pieces) (piece.text.length + r) ↔
            OccursAt tag (envelope pieces) r := by
          unfold OccursAt
          rw [List.drop_append, List.drop_of_length_le (Nat.le_add_right _ _), List.nil_append,
            Nat.add_sub_cancel_left]
        rw [henvelope, hbehind, ih hpieces.2]
        constructor
        · rintro ⟨before, text, after, q, rfl, rfl, h⟩
          refine ⟨piece :: before, text, after, q, rfl, ?_, h⟩
          simp only [envelope, List.flatMap_cons, List.length_append]
          omega
        · rintro ⟨before, text, after, q, hsplit, hposition, h⟩
          cases before with
          | nil =>
              -- a tag is read where its piece is not at an end
              obtain ⟨rfl, -⟩ := List.cons.inj hsplit
              have hlength := h.length_le
              have hpos := List.length_pos_of_ne_nil hne
              rw [List.length_drop] at hlength
              simp only [envelope, List.flatMap_nil, List.length_nil, Piece.text] at hposition
              omega
          | cons first before =>
              obtain ⟨rfl, hrest⟩ := List.cons.inj hsplit
              refine ⟨before, text, after, q, hrest, ?_, h⟩
              simp only [envelope, List.flatMap_cons, List.length_append] at hposition ⊢
              omega

end Tags

end Rpy.Foundation

/-
  Rpy.Foundation.Nesting
  ──────────────────────
  **NAMED BRACKETS, AND THE STACK THAT MATCHES THEM.**

  A sequence of brackets is well nested when it can be cut into pairs with a
  well nested sequence inside each.  A stack of the open ones decides it in
  one pass: what is left of the sequence closes the stack from its top.

    • `Nested`      — well nested sequences,
    • `matchStack`  — one pass with a stack,
    • `ClosesStack`      — the sequences that close a stack,
    • `matchStack_iff`, `nested_iff` — the pass ends with an empty stack
                      exactly on them.
-/
import Mathlib.Data.List.Basic

namespace Rpy.Foundation

/-! ## §1. Sequences. -/

/-- A bracket with a name. -/
inductive Bracket (ν : Type*) where
  | opening (name : ν)
  | closing (name : ν)
deriving Repr, DecidableEq

variable {ν : Type*}

/-- A well nested sequence. -/
inductive Nested : List (Bracket ν) → Prop where
  | nil : Nested []
  | pair (name : ν) {inner rest : List (Bracket ν)} (hinner : Nested inner)
      (hrest : Nested rest) :
      Nested (.opening name :: (inner ++ .closing name :: rest))

/-- The sequences that close the brackets of a stack, the top one first, and
are well nested but for that. -/
def ClosesStack : List ν → List (Bracket ν) → Prop
  | [], bs => Nested bs
  | name :: stack, bs =>
      ∃ inner rest, bs = inner ++ .closing name :: rest ∧ Nested inner ∧ ClosesStack stack rest

/-- A pair before a sequence leaves what it closes as it is. -/
theorem ClosesStack.pair {name : ν} {inner rest : List (Bracket ν)} (hinner : Nested inner) :
    ∀ {stack : List ν}, ClosesStack stack rest →
      ClosesStack stack (.opening name :: (inner ++ .closing name :: rest)) := by
  intro stack hrest
  cases stack with
  | nil => exact Nested.pair name hinner hrest
  | cons top stack =>
      obtain ⟨next, rest, rfl, hnext, hrest⟩ := hrest
      refine ⟨.opening name :: (inner ++ .closing name :: next), rest, ?_,
        Nested.pair name hinner hnext, hrest⟩
      show _ = .opening name :: ((inner ++ .closing name :: next) ++ .closing top :: rest)
      rw [List.append_assoc]
      rfl

/-! ## §2. The stack. -/

variable [DecidableEq ν]

/-- One pass over a sequence with the stack of the open brackets: the stack at
its end, unless a closing bracket did not match the top. -/
def matchStack : List ν → List (Bracket ν) → Option (List ν)
  | stack, [] => some stack
  | stack, .opening name :: bs => matchStack (name :: stack) bs
  | [], .closing _ :: _ => none
  | top :: stack, .closing name :: bs => if top = name then matchStack stack bs else none

/-- A well nested sequence leaves the stack as it was. -/
theorem matchStack_append {inner : List (Bracket ν)} (h : Nested inner) :
    ∀ (stack : List ν) (bs : List (Bracket ν)),
      matchStack stack (inner ++ bs) = matchStack stack bs := by
  induction h with
  | nil =>
      intro stack bs
      rfl
  | @pair name inner rest _ _ ihinner ihrest =>
      intro stack bs
      calc matchStack stack (.opening name :: (inner ++ .closing name :: rest) ++ bs)
          = matchStack (name :: stack) (inner ++ .closing name :: (rest ++ bs)) := by
            rw [List.cons_append, List.append_assoc, List.cons_append]
            rfl
        _ = matchStack (name :: stack) (.closing name :: (rest ++ bs)) := ihinner _ _
        _ = matchStack stack (rest ++ bs) := if_pos rfl
        _ = matchStack stack bs := ihrest stack bs

/-- **The pass ends with an empty stack exactly on what closes it.** -/
theorem matchStack_iff {bs : List (Bracket ν)} :
    ∀ {stack : List ν}, matchStack stack bs = some [] ↔ ClosesStack stack bs := by
  intro stack
  constructor
  · -- by induction on the sequence, for every stack
    intro h
    induction bs generalizing stack with
    | nil =>
        obtain rfl : stack = [] := Option.some.inj h
        exact .nil
    | cons b bs ih =>
        cases b with
        | opening name =>
            have hclosed : ClosesStack (name :: stack) bs := ih h
            obtain ⟨inner, rest, rfl, hinner, hrest⟩ := hclosed
            exact hrest.pair hinner
        | closing name =>
            cases stack with
            | nil => cases h
            | cons top stack =>
                rw [matchStack] at h
                split at h
                · rename_i htop
                  rw [← htop]
                  exact ⟨[], bs, rfl, .nil, ih h⟩
                · cases h
  · -- by induction on the stack, for every sequence
    intro h
    induction stack generalizing bs with
    | nil =>
        have hrun := matchStack_append h [] []
        rw [List.append_nil] at hrun
        exact hrun
    | cons name stack ih =>
        obtain ⟨inner, rest, rfl, hinner, hrest⟩ := h
        rw [matchStack_append hinner]
        show (if name = name then matchStack stack rest else none) = some []
        rw [if_pos rfl]
        exact ih hrest

/-- A sequence is well nested when the pass leaves nothing open. -/
theorem nested_iff {bs : List (Bracket ν)} : matchStack [] bs = some [] ↔ Nested bs :=
  matchStack_iff

end Rpy.Foundation

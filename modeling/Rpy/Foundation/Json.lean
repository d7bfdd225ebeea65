/-
  Rpy.Foundation.Json
  ───────────────────
  **JSON VALUES AS PYTHON AND `jsonb` HOLD THEM.**

  An object is the list of its members in insertion order.  A float is
  named by its shortest round-trip decimal, so that two floats are equal
  exactly when their names are; `NaN` and the infinities have no name,
  which is what `json.dumps(..., allow_nan=False)` enforces on every value
  the application stores.

    • `Json`, `Json.beq_iff_eq` — the values and their decidable equality,
    • `Json.get?`               — member lookup (`dict.get`),
    • `Json.isTrue`             — Python truthiness.
-/
import Mathlib.Logic.Basic

namespace Rpy.Foundation

/-! ## §1. Numbers and values. -/

/-- A finite Python float `±digits·10^exp`, by its shortest round-trip
decimal: the last digit is not zero unless the float is. -/
structure Decimal where
  neg : Bool
  digits : Nat
  exp : Int
  normal : digits % 10 ≠ 0 ∨ (digits = 0 ∧ exp = 0)
deriving Repr, DecidableEq

/-- A JSON value. -/
inductive Json where
  | null
  | bool (b : Bool)
  | int (n : Int)
  | float (d : Decimal)
  | str (s : String)
  | arr (xs : List Json)
  | obj (members : List (String × Json))
deriving Repr

namespace Json

/-! ## §2. Decidable equality. -/

mutual
/-- Equality of values, constructor by constructor. -/
def beq : Json → Json → Bool
  | .null, .null => true
  | .bool a, .bool b => a == b
  | .int a, .int b => a == b
  | .float a, .float b => a == b
  | .str a, .str b => a == b
  | .arr as, .arr bs => beqList as bs
  | .obj as, .obj bs => beqMembers as bs
  | _, _ => false
  termination_by structural a => a

def beqList : List Json → List Json → Bool
  | [], [] => true
  | a :: as, b :: bs => beq a b && beqList as bs
  | _, _ => false
  termination_by structural as => as

def beqMembers : List (String × Json) → List (String × Json) → Bool
  | [], [] => true
  | (k, a) :: as, (l, b) :: bs => k == l && beq a b && beqMembers as bs
  | _, _ => false
  termination_by structural as => as
end

mutual
theorem beq_iff_eq : ∀ a b : Json, beq a b = true ↔ a = b
  | .arr as, b => by
      cases b <;> simp [beq, beqList_iff_eq as]
  | .obj as, b => by
      cases b <;> simp [beq, beqMembers_iff_eq as]
  | .null, b | .bool _, b | .int _, b | .float _, b | .str _, b => by
      cases b <;> simp [beq]

theorem beqList_iff_eq : ∀ as bs : List Json, beqList as bs = true ↔ as = bs
  | [], bs => by cases bs <;> simp [beqList]
  | a :: as, bs => by
      cases bs <;> simp [beqList, beq_iff_eq a, beqList_iff_eq as]

theorem beqMembers_iff_eq :
    ∀ as bs : List (String × Json), beqMembers as bs = true ↔ as = bs
  | [], bs => by cases bs <;> simp [beqMembers]
  | (k, a) :: as, bs => by
      cases bs with
      | nil => simp [beqMembers]
      | cons b bs =>
          obtain ⟨l, b⟩ := b
          simp [beqMembers, beq_iff_eq a, beqMembers_iff_eq as]
end

instance : DecidableEq Json := fun a b => decidable_of_iff _ (beq_iff_eq a b)

/-! ## §3. Reading a value. -/

/-- `value.get(key)` on an object: the member, if there is one. -/
def get? : Json → String → Option Json
  | .obj members, key => members.lookup key
  | _, _ => none

/-- `value.get(key)` with Python's `None` for a missing member. -/
def get (value : Json) (key : String) : Json :=
  (value.get? key).getD .null

/-- Python truthiness of a value (`if value:`). -/
def isTrue : Json → Bool
  | .null => false
  | .bool b => b
  | .int n => n != 0
  | .float d => d.digits != 0
  | .str s => s != ""
  | .arr xs => !xs.isEmpty
  | .obj members => !members.isEmpty

end Json

end Rpy.Foundation

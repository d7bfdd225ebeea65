/-
  Rpy.Basic
  ─────────
  **THE COLUMN TYPES THE APPLICATION'S TABLES SHARE.**

  UUIDs are 128-bit words, as PostgreSQL stores them, and a `TIMESTAMPTZ`
  is its number of microseconds.
-/
import Mathlib.Logic.Basic

namespace Rpy

/-- A `UUID` column. -/
abbrev Uuid := BitVec 128

instance : LawfulBEq Uuid := inferInstance

instance : LawfulBEq (Uuid × String) := inferInstance

/-- A `TIMESTAMPTZ` column, in microseconds. -/
abbrev Timestamp := Int

/-- Microseconds in a second (`make_interval(secs => …)`, `timedelta`). -/
def microsPerSecond : Int := 1000000

/-- `RIGHT(text, n)`: the last `n` characters. -/
def right (text : String) (n : Nat) : String :=
  String.ofList (text.toList.drop (text.toList.length - n))

end Rpy

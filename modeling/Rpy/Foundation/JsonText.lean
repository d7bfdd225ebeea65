/-
  Rpy.Foundation.JsonText
  ───────────────────────
  **SERIALISED AND CANONICAL JSON VALUES.**

    • `Json.dumps`      — `json.dumps(…, ensure_ascii=False, sort_keys=True,
                          separators=(",", ":"))`,
    • `Json.canon`      — the value up to member order and to the form of
                          its numbers, which is what Python's `==` and a
                          `jsonb` column preserve,
    • `Json.IsForm`     — what reading a value keeps of `sortKeys` and
                          `canon`: members (`get_congr`), truthiness
                          (`isTrue`), `or` (`orElse_congr`).
-/
import Mathlib.Algebra.Group.Int.Defs
import Mathlib.Data.List.Sort
import Mathlib.Order.Lattice
import Mathlib.Data.String.Basic
import Rpy.Foundation.Json

namespace Rpy.Foundation

/-! ## §1. Numbers. -/

/-- The float is an integer, and this is it. -/
def Decimal.integral (d : Decimal) : Int :=
  (if d.neg then -1 else 1) * d.digits * 10 ^ d.exp.toNat

/-- A decimal digit string with at least two digits (the exponent of `repr`). -/
def twoDigits (n : Nat) : String :=
  if n < 10 then "0" ++ toString n else toString n

/-- `repr` of a float: positional for decimal points in `(-4, 16]`, else
scientific. -/
def Decimal.repr (d : Decimal) : String :=
  let digits := (toString d.digits).toList
  let point : Int := digits.length + d.exp
  let body : List Char :=
    if -4 < point ∧ point ≤ 16 then
      if point ≤ 0 then
        "0.".toList ++ List.replicate (-point).toNat '0' ++ digits
      else if (digits.length : Int) ≤ point then
        digits ++ List.replicate d.exp.toNat '0' ++ ".0".toList
      else
        digits.take point.toNat ++ '.' :: digits.drop point.toNat
    else
      let fraction := if digits.length = 1 then [] else '.' :: digits.drop 1
      let exponent := point - 1
      digits.take 1 ++ fraction ++ 'e' :: (if exponent < 0 then '-' else '+') ::
        (twoDigits exponent.natAbs).toList
  (if d.neg then "-" else "") ++ String.ofList body

/-! ## §2. Members in key order. -/

/-- The members of an object by key, equal keys in their own order. -/
def sortMembers (members : List (String × Json)) : List (String × Json) :=
  members.insertionSort fun a b => a.1 ≤ b.1

/-- Sorting the members by key does not change what a key holds. -/
theorem lookup_sortMembers (key : String) (members : List (String × Json)) :
    (sortMembers members).lookup key = members.lookup key := by
  have hinsert : ∀ (a : String × Json) (l : List (String × Json)),
      (l.orderedInsert (fun a b => a.1 ≤ b.1) a).lookup key = (a :: l).lookup key := by
    intro a l
    induction l with
    | nil => rfl
    | cons b l ih =>
        rw [List.orderedInsert_cons]
        split
        · rfl
        · rename_i hlt
          obtain ⟨ka, va⟩ := a
          obtain ⟨kb, vb⟩ := b
          have hne : kb ≠ ka := fun h => hlt (le_of_eq h.symm)
          by_cases hb : key = kb
          · have ha : (kb == ka) = false := by simpa using hne
            subst hb
            simp [List.lookup_cons, ha]
          · have hb' : (key == kb) = false := by simpa using hb
            rw [List.lookup_cons, hb', ih]
            simp [List.lookup_cons, hb']
  unfold sortMembers
  induction members with
  | nil => rfl
  | cons m ms ih =>
      rw [List.insertionSort_cons, hinsert]
      obtain ⟨k, v⟩ := m
      rw [List.lookup_cons, List.lookup_cons, ih]

namespace Json

/-! ## §3. `json.dumps`. -/

/-- A character inside a JSON string, with `ensure_ascii=False`. -/
def escapeChar (c : Char) : List Char :=
  if c = '"' then ['\\', '"']
  else if c = '\\' then ['\\', '\\']
  else if c = '\n' then ['\\', 'n']
  else if c = '\r' then ['\\', 'r']
  else if c = '\t' then ['\\', 't']
  else if c = '\x08' then ['\\', 'b']
  else if c = '\x0c' then ['\\', 'f']
  else if c.toNat < 32 then
    "\\u00".toList ++ [Nat.digitChar (c.toNat / 16), Nat.digitChar (c.toNat % 16)]
  else [c]

/-- A JSON string literal. -/
def quote (s : String) : List Char :=
  '"' :: s.toList.flatMap escapeChar ++ ['"']

mutual
/-- The members of every object in key order (`sort_keys=True`). -/
def sortKeys : Json → Json
  | .arr xs => .arr (sortKeysList xs)
  | .obj members => .obj (sortMembers (sortKeysMembers members))
  | v => v
  termination_by structural v => v

def sortKeysList : List Json → List Json
  | [] => []
  | x :: xs => sortKeys x :: sortKeysList xs
  termination_by structural xs => xs

def sortKeysMembers : List (String × Json) → List (String × Json)
  | [] => []
  | (k, v) :: ms => (k, sortKeys v) :: sortKeysMembers ms
  termination_by structural ms => ms
end

mutual
/-- The text of a value, with no blank between its parts. -/
def text : Json → List Char
  | .null => "null".toList
  | .bool b => (if b then "true" else "false").toList
  | .int n => (toString n).toList
  | .float d => d.repr.toList
  | .str s => quote s
  | .arr xs => '[' :: textList xs ++ [']']
  | .obj members => '\x7b' :: textMembers members ++ ['\x7d']
  termination_by structural v => v

def textList : List Json → List Char
  | [] => []
  | [x] => text x
  | x :: xs => text x ++ ',' :: textList xs
  termination_by structural xs => xs

def textMembers : List (String × Json) → List Char
  | [] => []
  | [(k, v)] => quote k ++ ':' :: text v
  | (k, v) :: ms => quote k ++ ':' :: (text v ++ ',' :: textMembers ms)
  termination_by structural ms => ms
end

/-- The characters of
`json.dumps(value, ensure_ascii=False, sort_keys=True, separators=(",", ":"))`. -/
def dumps (value : Json) : List Char :=
  value.sortKeys.text

example : String.ofList (dumps (.obj [("b", .arr [.int (-2), .null]), ("a", .str "x\"\n")])) =
    "\x7b\"a\":\"x\\\"\\n\",\"b\":[-2,null]\x7d" := by decide

/-! ## §4. Canonical values. -/

/-- An integral float is its integer (`1.0 == 1`); `jsonb` gives large ones
back as integers. -/
def canonFloat (d : Decimal) : Json :=
  if 0 ≤ d.exp then .int d.integral else .float d

mutual
/-- The value up to member order and number form. -/
def canon : Json → Json
  | .float d => canonFloat d
  | .arr xs => .arr (canonList xs)
  | .obj members => .obj (sortMembers (canonMembers members))
  | .null => .null
  | .bool b => .bool b
  | .int n => .int n
  | .str s => .str s
  termination_by structural v => v

def canonList : List Json → List Json
  | [] => []
  | x :: xs => canon x :: canonList xs
  termination_by structural xs => xs

def canonMembers : List (String × Json) → List (String × Json)
  | [] => []
  | (k, v) :: ms => (k, canon v) :: canonMembers ms
  termination_by structural ms => ms
end

/-- The form of a list is the forms of its items. -/
theorem canonList_eq_map (xs : List Json) : canonList xs = xs.map canon := by
  induction xs with
  | nil => rfl
  | cons x xs ih => rw [canonList, ih, List.map_cons]

/-- That of the members is the forms of their values. -/
theorem canonMembers_eq_map (ms : List (String × Json)) :
    canonMembers ms = ms.map fun m => (m.1, canon m.2) := by
  induction ms with
  | nil => rfl
  | cons m ms ih => rw [canonMembers, ih, List.map_cons]

/-- The same for the order of the keys. -/
theorem sortKeysList_eq_map (xs : List Json) : sortKeysList xs = xs.map sortKeys := by
  induction xs with
  | nil => rfl
  | cons x xs ih => rw [sortKeysList, ih, List.map_cons]

theorem sortKeysMembers_eq_map (ms : List (String × Json)) :
    sortKeysMembers ms = ms.map fun m => (m.1, sortKeys m.2) := by
  induction ms with
  | nil => rfl
  | cons m ms ih => rw [sortKeysMembers, ih, List.map_cons]

/-! ## §5. Reading a value in another form. -/

/-- Is the value an object (`isinstance(value, dict)`)? -/
def isObj : Json → Bool
  | .obj _ => true
  | _ => false

/-- `value or default`: the value if it is true. -/
def orElse (v default : Json) : Json :=
  if v.isTrue then v else default

/-- A form in which the members of an object are in that form, by key, and
what is no object is none and is as true as it was. -/
structure IsForm (form : Json → Json) : Prop where
  null : form .null = .null
  obj : ∀ ms, form (.obj ms) = .obj (sortMembers (ms.map fun m => (m.1, form m.2)))
  other : ∀ v, v.isObj = false → (form v).isObj = false ∧ (form v).isTrue = v.isTrue

/-- What a key holds, the values being changed one by one. -/
theorem lookup_map_members (form : Json → Json) (key : String) (ms : List (String × Json)) :
    (ms.map fun m => (m.1, form m.2)).lookup key = (ms.lookup key).map form := by
  induction ms with
  | nil => rfl
  | cons m ms ih =>
      obtain ⟨k, v⟩ := m
      rw [List.map_cons, List.lookup_cons, List.lookup_cons, ih]
      cases key == k <;> rfl

/-- What is no object has no members. -/
theorem get?_of_not_isObj {v : Json} (h : v.isObj = false) (key : String) : v.get? key = none := by
  cases v with
  | obj ms => cases h
  | _ => rfl

section Forms

variable {form : Json → Json} (hform : IsForm form)
include hform

/-- A form makes no object and takes none away. -/
theorem IsForm.isObj (v : Json) : (form v).isObj = v.isObj := by
  cases v with
  | obj ms => rw [hform.obj]; rfl
  | _ => exact (hform.other _ rfl).1

/-- **A member of the value in a form is the member in that form.** -/
theorem IsForm.get? (v : Json) (key : String) : (form v).get? key = (v.get? key).map form := by
  cases hv : v.isObj with
  | false =>
      rw [get?_of_not_isObj hv, get?_of_not_isObj ((hform.isObj v).trans hv)]
      rfl
  | true =>
      cases v with
      | obj ms =>
          rw [hform.obj]
          show (sortMembers (ms.map fun m => (m.1, form m.2))).lookup key = _
          rw [lookup_sortMembers, lookup_map_members]
          rfl
      | _ => cases hv

/-- Values of one form have members of one form. -/
theorem IsForm.get_congr {v w : Json} (h : form v = form w) (key : String) :
    form (v.get key) = form (w.get key) := by
  have hget : ∀ u : Json, form (u.get key) = ((form u).get? key).getD .null := by
    intro u
    rw [hform.get?]
    unfold get
    cases u.get? key with
    | none => exact hform.null
    | some _ => rfl
  rw [hget, hget, h]

/-- **Truthiness does not depend on the form.** -/
theorem IsForm.isTrue (v : Json) : (form v).isTrue = v.isTrue := by
  cases v with
  | obj ms =>
      rw [hform.obj]
      show (!(sortMembers (ms.map fun m => (m.1, form m.2))).isEmpty) = !ms.isEmpty
      have hlength : (sortMembers (ms.map fun m => (m.1, form m.2))).length = ms.length :=
        (List.length_insertionSort _ _).trans (List.length_map _)
      rw [Bool.eq_iff_iff]
      simp only [Bool.not_eq_true', Bool.eq_false_iff, ne_eq, List.isEmpty_iff,
        ← List.length_eq_zero_iff, hlength]
  | _ => exact (hform.other _ rfl).2

/-- Values of one form have one form with a default. -/
theorem IsForm.orElse_congr {v w : Json} (h : form v = form w) (default : Json) :
    form (v.orElse default) = form (w.orElse default) := by
  have htrue : v.isTrue = w.isTrue := by rw [← hform.isTrue, h, hform.isTrue]
  unfold orElse
  rw [htrue]
  split
  · exact h
  · rfl

end Forms

/-- **The order of the keys is a form.** -/
theorem isForm_sortKeys : IsForm sortKeys where
  null := rfl
  obj := fun ms => by rw [sortKeys, sortKeysMembers_eq_map]
  other := fun v hv => by
    cases v with
    | obj ms => cases hv
    | arr xs => cases xs <;> exact ⟨rfl, rfl⟩
    | _ => exact ⟨rfl, rfl⟩

/-- A float is zero when its integer is. -/
theorem isTrue_canonFloat (d : Decimal) : (canonFloat d).isTrue = (Json.float d).isTrue := by
  unfold canonFloat
  split
  · show (d.integral != 0) = (d.digits != 0)
    have hzero : d.integral = 0 ↔ d.digits = 0 := by
      unfold Decimal.integral
      have hpow : (10 : Int) ^ d.exp.toNat ≠ 0 := (Int.pow_pos (by decide)).ne'
      have hsign : (if d.neg = true then (-1 : Int) else 1) ≠ 0 := by split <;> decide
      simp only [Int.mul_eq_zero, hsign, hpow, false_or, or_false, Int.natCast_eq_zero]
    rw [Bool.eq_iff_iff]
    simp [hzero]
  · rfl

/-- **The canonical form is a form.** -/
theorem isForm_canon : IsForm canon where
  null := rfl
  obj := fun ms => by rw [canon, canonMembers_eq_map]
  other := fun v hv => by
    cases v with
    | obj ms => cases hv
    | float d =>
        refine ⟨?_, isTrue_canonFloat d⟩
        show (canonFloat d).isObj = false
        unfold canonFloat
        split <;> rfl
    | arr xs => cases xs <;> exact ⟨rfl, rfl⟩
    | _ => exact ⟨rfl, rfl⟩

/-- **The member of a canonical value is the canonical member.** -/
theorem get?_canon (v : Json) (key : String) : v.canon.get? key = (v.get? key).map canon :=
  isForm_canon.get? v key

/-- Values of one canonical form have members of one canonical form. -/
theorem get_canon_congr {v w : Json} (h : v.canon = w.canon) (key : String) :
    (v.get key).canon = (w.get key).canon :=
  isForm_canon.get_congr h key

theorem isObj_canon (v : Json) : v.canon.isObj = v.isObj :=
  isForm_canon.isObj v

/-- Is the value an array (`isinstance(value, list)`)? -/
def isArr : Json → Bool
  | .arr _ => true
  | _ => false

/-- The canonical form makes no array and takes none away. -/
theorem isArr_canon (v : Json) : v.canon.isArr = v.isArr := by
  cases v with
  | float d =>
      show (canonFloat d).isArr = false
      unfold canonFloat
      split <;> rfl
  | _ => rfl

/-! ## §6. Strings the database accepts. -/

/-- PostgreSQL has no `NUL` in a text. -/
def textStorable (s : String) : Bool :=
  s.toList.all fun c => c != '\x00'

mutual
/-- No string of the value has a `NUL`, which `jsonb` would refuse. -/
def storable : Json → Bool
  | .str s => textStorable s
  | .arr xs => storableList xs
  | .obj members => storableMembers members
  | _ => true
  termination_by structural v => v

def storableList : List Json → Bool
  | [] => true
  | x :: xs => storable x && storableList xs
  termination_by structural xs => xs

def storableMembers : List (String × Json) → Bool
  | [] => true
  | (k, v) :: ms => textStorable k && storable v && storableMembers ms
  termination_by structural ms => ms
end

end Json

end Rpy.Foundation

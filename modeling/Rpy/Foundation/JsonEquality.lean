/-
  Rpy.Foundation.JsonEquality
  ───────────────────────────
  **PYTHON'S EQUALITY OF VALUES, AND VALUES MADE OF TEXTS.**

  Two values are equal in Python when they are up to member order, to the
  form of a number and to `True == 1`.  A value without numbers and truth
  values has only itself among its equals, member order apart.

    • `Json.pyEq`             — `value == other`,
    • `Json.sameKeys`         — `set(value) == {…}`,
    • `Json.sameKeys_congr`, `Json.all_values_congr` — what the keys and the
                                values tell is the same for values of one
                                form,
    • `Json.pyEq_plain`       — equality with a value made of texts,
    • `Json.readable_of_canon` — its texts can be read when one can,
    • `Json.eq_str_of_canon`, `Json.eq_texts_of_canon` — what has the form
                                of a text, or of a list of texts, is one.
-/
import Rpy.Foundation.Assoc
import Rpy.Foundation.JsonParse

namespace Rpy.Foundation

namespace Json

/-! ## §1. Members and values. -/

/-- `list(value)` of an object. -/
def keys : Json → List String
  | .obj members => members.map Prod.fst
  | _ => []

/-- `list(value.values())` of an object. -/
def values : Json → List Json
  | .obj members => members.map Prod.snd
  | _ => []

/-- Is the value a string (`isinstance(value, str)`)? -/
def isStr : Json → Bool
  | .str _ => true
  | _ => false

/-- `set(value).issubset(names)` -/
def keysWithin (value : Json) (names : List String) : Bool :=
  value.keys.all names.contains

/-- `set(value) == set(names)` -/
def sameKeys (value : Json) (names : List String) : Bool :=
  value.keysWithin names && names.all value.keys.contains

theorem mem_keys (value : Json) (key : String) :
    key ∈ value.keys ↔ (value.get? key).isSome = true := by
  cases value with
  | obj members => exact (isSome_lookup_iff key members).symm
  | _ => simp [keys, get?]

/-- Values of one form have the same keys. -/
theorem mem_keys_congr {v w : Json} (h : v.canon = w.canon) (key : String) :
    key ∈ v.keys ↔ key ∈ w.keys := by
  have hform : ∀ u : Json, key ∈ u.keys ↔ (u.canon.get? key).isSome = true := by
    intro u
    rw [mem_keys, get?_canon, Option.isSome_map]
  rw [hform, hform, h]

theorem keysWithin_congr {v w : Json} (h : v.canon = w.canon) (names : List String) :
    v.keysWithin names = w.keysWithin names := by
  unfold keysWithin
  rw [Bool.eq_iff_iff, List.all_eq_true, List.all_eq_true]
  exact forall_congr' fun key => by rw [mem_keys_congr h]

theorem sameKeys_congr {v w : Json} (h : v.canon = w.canon) (names : List String) :
    v.sameKeys names = w.sameKeys names := by
  have hcontains : ∀ name, v.keys.contains name = w.keys.contains name := by
    intro name
    rw [Bool.eq_iff_iff, List.contains_iff_mem, List.contains_iff_mem]
    exact mem_keys_congr h name
  unfold sameKeys
  rw [keysWithin_congr h, funext hcontains]

/-- The values of the form are the forms of the values. -/
theorem mem_values_canon (value x : Json) :
    x ∈ value.canon.values ↔ ∃ y ∈ value.values, x = y.canon := by
  cases value with
  | obj members =>
      show x ∈ (sortMembers (canonMembers members)).map Prod.snd ↔ _
      rw [canonMembers_eq_map]
      unfold sortMembers values
      simp only [List.mem_map, List.mem_insertionSort]
      constructor
      · rintro ⟨m, ⟨n, hn, rfl⟩, rfl⟩
        exact ⟨n.2, ⟨n, hn, rfl⟩, rfl⟩
      · rintro ⟨y, ⟨n, hn, rfl⟩, rfl⟩
        exact ⟨(n.1, n.2.canon), ⟨n, hn, rfl⟩, rfl⟩
  | float d =>
      show x ∈ (canonFloat d).values ↔ _
      unfold canonFloat
      split <;> simp [values]
  | _ => simp [canon, values]

/-- What the form of a value tells holds of all values or of none of the form. -/
theorem all_values_congr {v w : Json} (h : v.canon = w.canon) {p : Json → Bool}
    (hp : ∀ x, p x.canon = p x) : v.values.all p = w.values.all p := by
  have hform : ∀ u : Json, u.values.all p = true ↔ ∀ x ∈ u.canon.values, p x = true := by
    intro u
    rw [List.all_eq_true]
    constructor
    · intro hall x hx
      obtain ⟨y, hy, rfl⟩ := (mem_values_canon u x).1 hx
      exact (hp y).trans (hall y hy)
    · intro hall y hy
      exact (hp y).symm.trans (hall y.canon ((mem_values_canon u _).2 ⟨y, hy, rfl⟩))
  rw [Bool.eq_iff_iff, hform, hform, h]

theorem isStr_canon (v : Json) : v.canon.isStr = v.isStr := by
  cases v with
  | float d =>
      show (canonFloat d).isStr = false
      unfold canonFloat
      split <;> rfl
  | _ => rfl

/-! ## §2. Equality. -/

mutual
/-- `True` is `1`, and `False` is `0`. -/
def boolsAsInts : Json → Json
  | .bool b => .int (if b then 1 else 0)
  | .arr xs => .arr (boolsAsIntsList xs)
  | .obj members => .obj (boolsAsIntsMembers members)
  | v => v
  termination_by structural v => v

def boolsAsIntsList : List Json → List Json
  | [] => []
  | x :: xs => boolsAsInts x :: boolsAsIntsList xs
  termination_by structural xs => xs

def boolsAsIntsMembers : List (String × Json) → List (String × Json)
  | [] => []
  | (k, v) :: ms => (k, boolsAsInts v) :: boolsAsIntsMembers ms
  termination_by structural ms => ms
end

/-- `value == other` -/
def pyEq (v w : Json) : Bool :=
  decide (v.canon.boolsAsInts = w.canon.boolsAsInts)

theorem pyEq_congr_left {v w : Json} (h : v.canon = w.canon) (x : Json) :
    v.pyEq x = w.pyEq x := by
  unfold pyEq
  rw [h]

theorem pyEq_self (v : Json) : v.pyEq v = true :=
  decide_eq_true rfl

/-! ## §3. Values made of texts. -/

mutual
/-- The value has texts, arrays and objects in it, and nothing else. -/
def plain : Json → Bool
  | .str _ => true
  | .arr xs => plainList xs
  | .obj members => plainMembers members
  | _ => false
  termination_by structural v => v

def plainList : List Json → Bool
  | [] => true
  | x :: xs => plain x && plainList xs
  termination_by structural xs => xs

def plainMembers : List (String × Json) → Bool
  | [] => true
  | (_, v) :: ms => plain v && plainMembers ms
  termination_by structural ms => ms
end

theorem plainList_iff (xs : List Json) : plainList xs = true ↔ ∀ x ∈ xs, x.plain = true := by
  induction xs with
  | nil => simp [plainList]
  | cons x xs ih => simp [plainList, ih]

theorem plainMembers_iff (ms : List (String × Json)) :
    plainMembers ms = true ↔ ∀ m ∈ ms, m.2.plain = true := by
  induction ms with
  | nil => simp [plainMembers]
  | cons m ms ih =>
      obtain ⟨k, v⟩ := m
      simp [plainMembers, ih]

mutual
/-- What becomes a value made of texts was that value. -/
theorem eq_of_boolsAsInts : ∀ v w : Json, w.plain = true →
    v.boolsAsInts = w.boolsAsInts → v = w
  | .str s, w, hw, h => by
      cases w with
      | str t => exact h
      | arr ys => simp [boolsAsInts] at h
      | obj ns => simp [boolsAsInts] at h
      | _ => cases hw
  | .arr xs, w, hw, h => by
      cases w with
      | arr ys =>
          have heq := eq_of_boolsAsIntsList xs ys hw (by simpa [boolsAsInts] using h)
          rw [heq]
      | str t => simp [boolsAsInts] at h
      | obj ns => simp [boolsAsInts] at h
      | _ => cases hw
  | .obj ms, w, hw, h => by
      cases w with
      | obj ns =>
          have heq := eq_of_boolsAsIntsMembers ms ns hw (by simpa [boolsAsInts] using h)
          rw [heq]
      | str t => simp [boolsAsInts] at h
      | arr ys => simp [boolsAsInts] at h
      | _ => cases hw
  | .null, w, hw, h | .bool _, w, hw, h | .int _, w, hw, h | .float _, w, hw, h => by
      cases w with
      | str t => simp [boolsAsInts] at h
      | arr ys => simp [boolsAsInts] at h
      | obj ns => simp [boolsAsInts] at h
      | _ => cases hw
  termination_by structural v => v

theorem eq_of_boolsAsIntsList : ∀ xs ys : List Json, plainList ys = true →
    boolsAsIntsList xs = boolsAsIntsList ys → xs = ys
  | [], [], _, _ => rfl
  | [], y :: ys, _, h => by simp [boolsAsIntsList] at h
  | x :: xs, [], _, h => by simp [boolsAsIntsList] at h
  | x :: xs, y :: ys, hys, h => by
      rw [plainList, Bool.and_eq_true] at hys
      rw [boolsAsIntsList, boolsAsIntsList, List.cons.injEq] at h
      rw [eq_of_boolsAsInts x y hys.1 h.1, eq_of_boolsAsIntsList xs ys hys.2 h.2]
  termination_by structural xs => xs

theorem eq_of_boolsAsIntsMembers : ∀ ms ns : List (String × Json), plainMembers ns = true →
    boolsAsIntsMembers ms = boolsAsIntsMembers ns → ms = ns
  | [], [], _, _ => rfl
  | [], (l, w) :: ns, _, h => by simp [boolsAsIntsMembers] at h
  | (k, v) :: ms, [], _, h => by simp [boolsAsIntsMembers] at h
  | (k, v) :: ms, (l, w) :: ns, hns, h => by
      rw [plainMembers, Bool.and_eq_true] at hns
      rw [boolsAsIntsMembers, boolsAsIntsMembers, List.cons.injEq, Prod.mk.injEq] at h
      rw [h.1.1, eq_of_boolsAsInts v w hns.1 h.1.2, eq_of_boolsAsIntsMembers ms ns hns.2 h.2]
  termination_by structural ms => ms
end

theorem plainMembers_sortMembers (ms : List (String × Json)) :
    plainMembers (sortMembers ms) = plainMembers ms := by
  rw [Bool.eq_iff_iff, plainMembers_iff, plainMembers_iff]
  exact forall_congr' fun m => by rw [sortMembers, List.mem_insertionSort]

mutual
/-- The form of a value is made of texts when the value is. -/
theorem plain_canon : ∀ v : Json, v.canon.plain = v.plain
  | .arr xs => plainList_canon xs
  | .obj ms => (plainMembers_sortMembers (canonMembers ms)).trans (plainMembers_canon ms)
  | .float d => by
      show (canonFloat d).plain = false
      unfold canonFloat
      split <;> rfl
  | .str _ | .null | .bool _ | .int _ => rfl
  termination_by structural v => v

theorem plainList_canon : ∀ xs : List Json, plainList (canonList xs) = plainList xs
  | [] => rfl
  | x :: xs => by
      rw [canonList, plainList, plainList, plain_canon x, plainList_canon xs]
  termination_by structural xs => xs

theorem plainMembers_canon : ∀ ms : List (String × Json),
    plainMembers (canonMembers ms) = plainMembers ms
  | [] => rfl
  | (k, v) :: ms => by
      rw [canonMembers, plainMembers, plainMembers, plain_canon v, plainMembers_canon ms]
  termination_by structural ms => ms
end

theorem readableMembers_iff (depth : Nat) (ms : List (String × Json)) :
    readableMembers depth ms = true ↔ ∀ m ∈ ms, readable depth m.2 = true := by
  induction ms with
  | nil => simp [readableMembers]
  | cons m ms ih =>
      obtain ⟨k, v⟩ := m
      simp [readableMembers, ih]

/-- The order of the members does not matter to who reads them. -/
theorem readable_sortMembers (depth : Nat) (ms : List (String × Json)) :
    readable depth (.obj (sortMembers ms)) = readable depth (.obj ms) := by
  have hperm : (sortMembers ms).Perm ms := List.perm_insertionSort _ _
  cases depth with
  | zero => rfl
  | succ depth =>
      have hkeys : decide ((sortMembers ms).map Prod.fst).Nodup = decide (ms.map Prod.fst).Nodup :=
        decide_eq_decide.2 (hperm.map Prod.fst).nodup_iff
      have hvalues : readableMembers depth (sortMembers ms) = readableMembers depth ms := by
        rw [Bool.eq_iff_iff, readableMembers_iff, readableMembers_iff]
        exact forall_congr' fun m => by rw [hperm.mem_iff]
      show (_ && _) = (_ && _)
      rw [hkeys, hvalues]

mutual
/-- A text of a value made of texts can be read when one of its form can. -/
theorem readable_canon : ∀ (v : Json) (depth : Nat), v.plain = true →
    readable depth v.canon = readable depth v
  | .str _, 0, _ | .str _, _ + 1, _ => rfl
  | .arr _, 0, _ => rfl
  | .arr xs, depth + 1, h => readableItems_canon xs depth h
  | .obj ms, 0, h => rfl
  | .obj ms, depth + 1, h => by
      have hkeys : (canonMembers ms).map Prod.fst = ms.map Prod.fst := by
        rw [canonMembers_eq_map, List.map_map]
        rfl
      have hvalues := readableMembers_canon ms depth h
      show readable (depth + 1) (.obj (sortMembers (canonMembers ms))) = _
      rw [readable_sortMembers]
      show (decide ((canonMembers ms).map Prod.fst).Nodup &&
        readableMembers depth (canonMembers ms)) = _
      rw [hkeys, hvalues]
      rfl
  | .null, _, h | .bool _, _, h | .int _, _, h | .float _, _, h => by cases h
  termination_by structural v => v

theorem readableItems_canon : ∀ (xs : List Json) (depth : Nat), plainList xs = true →
    readableItems depth (canonList xs) = readableItems depth xs
  | [], _, _ => rfl
  | x :: xs, depth, h => by
      rw [plainList, Bool.and_eq_true] at h
      rw [canonList, readableItems, readableItems, readable_canon x depth h.1,
        readableItems_canon xs depth h.2]
  termination_by structural xs => xs

theorem readableMembers_canon : ∀ (ms : List (String × Json)) (depth : Nat),
    plainMembers ms = true →
    readableMembers depth (canonMembers ms) = readableMembers depth ms
  | [], _, _ => rfl
  | (k, v) :: ms, depth, h => by
      rw [plainMembers, Bool.and_eq_true] at h
      rw [canonMembers, readableMembers, readableMembers, readable_canon v depth h.1,
        readableMembers_canon ms depth h.2]
  termination_by structural ms => ms
end

/-- **Only a value of its form equals a value made of texts.** -/
theorem pyEq_plain {v w : Json} (hw : w.plain = true) :
    v.pyEq w = true ↔ v.canon = w.canon := by
  unfold pyEq
  rw [decide_eq_true_eq]
  constructor
  · exact eq_of_boolsAsInts _ _ ((plain_canon w).trans hw)
  · intro h
    rw [h]

/-- What has the form of a value made of texts can be read like it. -/
theorem readable_of_canon {v w : Json} (h : v.canon = w.canon) (hw : w.plain = true)
    {depth : Nat} (hread : readable depth w = true) : readable depth v = true := by
  have hv : v.plain = true := by rw [← plain_canon, h, plain_canon, hw]
  rw [← readable_canon v depth hv, h, readable_canon w depth hw, hread]

/-- What has the form of a text is the text. -/
theorem eq_str_of_canon {v : Json} {s : String} (h : v.canon = .str s) : v = .str s := by
  cases v with
  | str t => exact h
  | float d =>
      have hfloat : canonFloat d = .str s := h
      unfold canonFloat at hfloat
      split at hfloat <;> cases hfloat
  | _ => cases h

/-- What has the form of an array is an array of values of the forms of its items. -/
theorem eq_arr_of_canon {v : Json} {ys : List Json} (h : v.canon = (Json.arr ys).canon) :
    ∃ xs, v = .arr xs ∧ xs.map canon = ys.map canon := by
  cases v with
  | arr xs =>
      refine ⟨xs, rfl, ?_⟩
      have hlist : canonList xs = canonList ys := by
        simpa [canon] using h
      rw [← canonList_eq_map, ← canonList_eq_map, hlist]
  | float d =>
      have hfloat : canonFloat d = .arr (canonList ys) := h
      unfold canonFloat at hfloat
      split at hfloat <;> cases hfloat
  | _ => cases h

/-- A check that the form of a value decides, of all items. -/
theorem all_congr_of_canon {p : Json → Bool} (hp : ∀ v w : Json, v.canon = w.canon → p v = p w)
    {xs ys : List Json} (h : xs.map canon = ys.map canon) : xs.all p = ys.all p := by
  induction xs generalizing ys with
  | nil =>
      cases ys with
      | nil => rfl
      | cons y ys => cases h
  | cons x xs ih =>
      cases ys with
      | nil => cases h
      | cons y ys =>
          rw [List.map_cons, List.map_cons, List.cons.injEq] at h
          rw [List.all_cons, List.all_cons, hp x y h.1, ih h.2]

/-- What has the form of a list of texts is the list of texts. -/
theorem eq_texts_of_canon {v : Json} {ss : List String}
    (h : v.canon = (Json.arr (ss.map .str)).canon) : v = .arr (ss.map .str) := by
  obtain ⟨xs, rfl, hxs⟩ := eq_arr_of_canon h
  have htexts : xs = ss.map .str := by
    clear h
    induction xs generalizing ss with
    | nil =>
        cases ss with
        | nil => rfl
        | cons s ss => cases hxs
    | cons x xs ih =>
        cases ss with
        | nil => cases hxs
        | cons s ss =>
            rw [List.map_cons, List.map_cons, List.map_cons, List.cons.injEq] at hxs
            rw [List.map_cons, eq_str_of_canon hxs.1, ih hxs.2]
  rw [htexts]

end Json

end Rpy.Foundation

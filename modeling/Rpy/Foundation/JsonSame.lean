/-
  Rpy.Foundation.JsonSame
  ───────────────────────
  **THE TEXT OF A VALUE TELLS THE VALUE**, up to the order of its members.

  Two values are the same when they are of one type and their parts are,
  where the members of an object are looked up by their keys.  An integer
  is never the same as a float.  The values are those that `json.loads`
  can return: no object has a key twice.

    • `Json.same`, `Json.equal` — equality up to the order of the members,
                               where the two zeros differ, or do not,
    • `Json.same_iff`        — **it is equality of the sorted values**,
    • `Json.readableIn_sortKeys` — which can be read like the values,
    • `Json.dumps_eq_iff`    — **two values have one text exactly when they
                               are the same**,
    • `Json.readableIn_of_loads` — what `json.loads` returns is such a value.
-/
import Mathlib.Data.List.Perm.Subperm
import Mathlib.Data.List.TakeWhile
import Rpy.Foundation.Assoc
import Rpy.Foundation.JsonKeys
import Rpy.Foundation.JsonWriter
import Rpy.Foundation.Raising
import Rpy.Foundation.Shortlist

namespace Rpy.Foundation

/-- `value == other` of two floats: the two zeros are equal. -/
def Decimal.pyEq (d e : Decimal) : Bool :=
  d == e || (d.digits == 0 && e.digits == 0)

namespace Json

/-! ## §1. Equality up to the order of the members. -/

mutual
/-- The values are equal, type by type; `eqFloat` says which floats are. -/
def sameIn (eqFloat : Decimal → Decimal → Bool) : Json → Json → Bool
  | .null, .null => true
  | .bool a, .bool b => a == b
  | .int a, .int b => a == b
  | .float a, .float b => eqFloat a b
  | .str a, .str b => a == b
  | .arr xs, .arr ys => sameItems eqFloat xs ys
  | .obj ms, .obj ns => ms.length == ns.length && sameMembers eqFloat ms ns
  | _, _ => false
  termination_by structural v => v

def sameItems (eqFloat : Decimal → Decimal → Bool) : List Json → List Json → Bool
  | [], [] => true
  | x :: xs, y :: ys => sameIn eqFloat x y && sameItems eqFloat xs ys
  | _, _ => false
  termination_by structural xs => xs

/-- Each member has its equal among the others, by its key. -/
def sameMembers (eqFloat : Decimal → Decimal → Bool) :
    List (String × Json) → List (String × Json) → Bool
  | [], _ => true
  | (k, v) :: ms, ns =>
      (match ns.lookup k with
        | some w => sameIn eqFloat v w
        | none => false) && sameMembers eqFloat ms ns
  termination_by structural ms => ms
end

/-- The values are the same: a float is the same as itself only. -/
def same : Json → Json → Bool := sameIn (· == ·)

/-- The values are equal in Python, integers and floats apart. -/
def equal : Json → Json → Bool := sameIn Decimal.pyEq

/-! ## §2. Objects with the same members. -/

section Members

variable {α : Type} {as bs : List (String × α)}

/-- Lists with as many distinct keys, the ones among the others, have the same keys. -/
theorem keys_perm (has : (as.map Prod.fst).Nodup) (hsub : as.map Prod.fst ⊆ bs.map Prod.fst)
    (hlength : as.length = bs.length) : (as.map Prod.fst).Perm (bs.map Prod.fst) := by
  have hsubperm := has.subperm hsub
  exact hsubperm.perm_of_length_le (by rw [List.length_map, List.length_map, hlength])

/-- Where the keys are distinct, what is found under them tells the members. -/
theorem perm_of_lookup_eq (has : (as.map Prod.fst).Nodup) (hbs : (bs.map Prod.fst).Nodup)
    (h : ∀ key, as.lookup key = bs.lookup key) : as.Perm bs := by
  refine (List.perm_ext_iff_of_nodup has.of_map hbs.of_map).2 fun p => ?_
  obtain ⟨key, value⟩ := p
  rw [← lookup_eq_some_iff has, ← lookup_eq_some_iff hbs, h]

end Members

/-- Where the keys are distinct, members in the order of their keys have one order. -/
theorem sortMembers_eq_of_perm {ms ns : List (String × Json)} (hms : (ms.map Prod.fst).Nodup)
    (h : ms.Perm ns) : sortMembers ms = sortMembers ns := by
  have hsorted : ∀ l : List (String × Json), (sortMembers l).Pairwise fun a b => a.1 ≤ b.1 :=
    fun l => pairwise_insertionSort_of (r := fun a b : String × Json => a.1 ≤ b.1)
      (fun a b => le_total a.1 b.1) (fun _ _ _ => le_trans) l
  have hperm : (sortMembers ms).Perm (sortMembers ns) :=
    (List.perm_insertionSort _ _).trans (h.trans (List.perm_insertionSort _ _).symm)
  refine hperm.eq_of_pairwise (fun a b ha hb hab hba => ?_) (hsorted ms) (hsorted ns)
  -- one key has one member
  have hkey : a.1 = b.1 := le_antisymm hab hba
  have hain : a ∈ ms := (List.mem_insertionSort _).1 ha
  have hbin : b ∈ ms := (List.mem_insertionSort _).1 (hperm.mem_iff.2 hb)
  exact List.inj_on_of_nodup_map hms hain hbin hkey

/-- **Members sort to one list when the same is found under every key.** -/
theorem sortMembers_eq_iff {ms ns : List (String × Json)} (hms : (ms.map Prod.fst).Nodup)
    (hns : (ns.map Prod.fst).Nodup) :
    sortMembers ms = sortMembers ns ↔ ∀ key, ms.lookup key = ns.lookup key := by
  constructor
  · intro h key
    rw [← lookup_sortMembers, h, lookup_sortMembers]
  · intro h
    exact sortMembers_eq_of_perm hms (perm_of_lookup_eq hms hns h)

theorem keys_sortKeysMembers (ms : List (String × Json)) :
    (sortKeysMembers ms).map Prod.fst = ms.map Prod.fst := by
  rw [sortKeysMembers_eq_map, List.map_map]
  rfl

theorem length_sortKeysMembers (ms : List (String × Json)) :
    (sortKeysMembers ms).length = ms.length := by
  rw [← List.length_map Prod.fst, keys_sortKeysMembers, List.length_map]

/-- Two objects sort to one when they have as many members, and each member
of the first one has an equal under its key. -/
theorem sortKeys_obj_eq_iff {ms ns : List (String × Json)} (hms : (ms.map Prod.fst).Nodup)
    (hns : (ns.map Prod.fst).Nodup) :
    (Json.obj ms).sortKeys = (Json.obj ns).sortKeys ↔ ms.length = ns.length ∧
      ∀ m ∈ ms, ∃ w, ns.lookup m.1 = some w ∧ m.2.sortKeys = w.sortKeys := by
  have hkeys : ∀ l : List (String × Json), (l.map Prod.fst).Nodup →
      ((sortKeysMembers l).map Prod.fst).Nodup := by
    intro l hl
    rw [keys_sortKeysMembers]
    exact hl
  show Json.obj (sortMembers (sortKeysMembers ms)) = .obj (sortMembers (sortKeysMembers ns)) ↔ _
  rw [Json.obj.injEq, sortMembers_eq_iff (hkeys ms hms) (hkeys ns hns)]
  simp only [sortKeysMembers_eq_map, lookup_map_members]
  constructor
  · intro h
    have hsome : ∀ key, (ms.lookup key).isSome = (ns.lookup key).isSome := by
      intro key
      rw [← Option.isSome_map (f := sortKeys), h key, Option.isSome_map]
    refine ⟨?_, fun m hm => ?_⟩
    · have hperm : (ms.map Prod.fst).Perm (ns.map Prod.fst) :=
        (List.perm_ext_iff_of_nodup hms hns).2 fun key => by
          rw [← isSome_lookup_iff, ← isSome_lookup_iff, hsome]
      simpa only [List.length_map] using hperm.length_eq
    · have hlookup := h m.1
      rw [(lookup_eq_some_iff hms).2 (show (m.1, m.2) ∈ ms from hm)] at hlookup
      obtain ⟨w, hw, hsorted⟩ := Option.map_eq_some_iff.1 hlookup.symm
      exact ⟨w, hw, hsorted.symm⟩
  · rintro ⟨hlength, hall⟩ key
    have hsub : ms.map Prod.fst ⊆ ns.map Prod.fst := by
      intro k hk
      obtain ⟨m, hm, rfl⟩ := List.mem_map.1 hk
      obtain ⟨w, hw, -⟩ := hall m hm
      exact (isSome_lookup_iff _ _).1 (by rw [hw]; rfl)
    have hperm := keys_perm hms hsub hlength
    cases hv : ms.lookup key with
    | some v =>
        obtain ⟨w, hw, hsorted⟩ := hall (key, v) ((lookup_eq_some_iff hms).1 hv)
        rw [hw]
        exact congrArg some hsorted
    | none =>
        cases hw : ns.lookup key with
        | none => rfl
        | some w =>
            -- a key of the second one is a key of the first one
            have hkey : key ∈ ms.map Prod.fst :=
              hperm.mem_iff.2 ((isSome_lookup_iff _ _).1 (by rw [hw]; rfl))
            rw [← isSome_lookup_iff, hv] at hkey
            cases hkey

/-! ## §3. The same values sort to one value. -/

section Readable

variable {isFloat : Decimal → Bool} {depth : Nat}

theorem readableIn_arr {xs : List Json} (h : readableIn isFloat depth (.arr xs) = true) :
    ∃ inner, readableItemsIn isFloat inner xs = true := by
  cases depth with
  | zero => cases h
  | succ inner => exact ⟨inner, h⟩

theorem readableIn_obj {ms : List (String × Json)}
    (h : readableIn isFloat depth (.obj ms) = true) :
    (ms.map Prod.fst).Nodup ∧ ∃ inner, readableMembersIn isFloat inner ms = true := by
  cases depth with
  | zero => cases h
  | succ inner =>
      have hboth : (decide (ms.map Prod.fst).Nodup && readableMembersIn isFloat inner ms) = true := h
      rw [Bool.and_eq_true, decide_eq_true_eq] at hboth
      exact ⟨hboth.1, inner, hboth.2⟩

theorem readableMembersIn_iff (ms : List (String × Json)) :
    readableMembersIn isFloat depth ms = true ↔ ∀ m ∈ ms, readableIn isFloat depth m.2 = true := by
  induction ms with
  | nil => simp [readableMembersIn]
  | cons m ms ih =>
      obtain ⟨k, v⟩ := m
      simp [readableMembersIn, ih]

end Readable

section Same

variable {isFloat : Decimal → Bool}

mutual
/-- **The same values sort to one value**, and only they do. -/
theorem same_iff : ∀ (v w : Json) {d e : Nat}, readableIn isFloat d v = true →
    readableIn isFloat e w = true → (same v w = true ↔ v.sortKeys = w.sortKeys)
  | .null, w, _, _, _, _ => by
      cases w <;> simp [same, sameIn, sortKeys]
  | .bool a, w, _, _, _, _ => by
      cases w <;> simp [same, sameIn, sortKeys]
  | .int a, w, _, _, _, _ => by
      cases w <;> simp [same, sameIn, sortKeys]
  | .float a, w, _, _, _, _ => by
      cases w <;> simp [same, sameIn, sortKeys]
  | .str a, w, _, _, _, _ => by
      cases w <;> simp [same, sameIn, sortKeys]
  | .arr xs, w, _, _, hv, hw => by
      cases w with
      | arr ys =>
          obtain ⟨d, hxs⟩ := readableIn_arr hv
          obtain ⟨e, hys⟩ := readableIn_arr hw
          show sameItems (· == ·) xs ys = true ↔ Json.arr _ = .arr _
          rw [sameItems_iff xs ys hxs hys, Json.arr.injEq]
      | _ => simp [same, sameIn, sortKeys]
  | .obj ms, w, _, _, hv, hw => by
      cases w with
      | obj ns =>
          obtain ⟨hms, d, hmembers⟩ := readableIn_obj hv
          obtain ⟨hns, e, hothers⟩ := readableIn_obj hw
          have hlength : (ms.length == ns.length) = true ↔ ms.length = ns.length := by simp
          show (ms.length == ns.length && sameMembers (· == ·) ms ns) = true ↔ _
          rw [sortKeys_obj_eq_iff hms hns, Bool.and_eq_true, hlength,
            sameMembers_iff ms ns hmembers hothers]
      | _ => simp [same, sameIn, sortKeys]
  termination_by structural v => v

theorem sameItems_iff : ∀ (xs ys : List Json) {d e : Nat}, readableItemsIn isFloat d xs = true →
    readableItemsIn isFloat e ys = true →
    (sameItems (· == ·) xs ys = true ↔ sortKeysList xs = sortKeysList ys)
  | [], ys, _, _, _, _ => by cases ys <;> simp [sameItems, sortKeysList]
  | x :: xs, [], _, _, _, _ => by simp [sameItems, sortKeysList]
  | x :: xs, y :: ys, _, _, hxs, hys => by
      rw [readableItemsIn, Bool.and_eq_true] at hxs hys
      rw [sameItems, Bool.and_eq_true, sortKeysList, sortKeysList, List.cons.injEq]
      exact and_congr (same_iff x y hxs.1 hys.1) (sameItems_iff xs ys hxs.2 hys.2)
  termination_by structural xs => xs

theorem sameMembers_iff : ∀ (ms ns : List (String × Json)) {d e : Nat},
    readableMembersIn isFloat d ms = true → readableMembersIn isFloat e ns = true →
    (sameMembers (· == ·) ms ns = true ↔
      ∀ m ∈ ms, ∃ w, ns.lookup m.1 = some w ∧ m.2.sortKeys = w.sortKeys)
  | [], ns, _, _, _, _ => by simp [sameMembers]
  | (k, v) :: ms, ns, _, _, hms, hns => by
      rw [readableMembersIn, Bool.and_eq_true] at hms
      rw [sameMembers, Bool.and_eq_true, sameMembers_iff ms ns hms.2 hns, List.forall_mem_cons]
      refine and_congr_left' ?_
      cases hw : ns.lookup k with
      | none => simp
      | some w =>
          have hmem : (k, w) ∈ ns := by
            obtain ⟨l₁, l₂, rfl, -⟩ := List.lookup_eq_some_iff.1 hw
            exact List.mem_append_right _ List.mem_cons_self
          have hread := (readableMembersIn_iff ns).1 hns (k, w) hmem
          simp only [Option.some.injEq, exists_eq_left']
          exact same_iff v w hms.1 hread
  termination_by structural ms => ms
end

end Same

/-! ## §4. Sorted values are read like the values. -/

section Sorted

variable {isFloat : Decimal → Bool}

mutual
theorem readableIn_sortKeys : ∀ (v : Json) {d : Nat}, readableIn isFloat d v = true →
    readableIn isFloat d v.sortKeys = true
  | .null, _, h | .bool _, _, h | .int _, _, h | .float _, _, h | .str _, _, h => h
  | .arr xs, 0, h => h
  | .arr xs, _ + 1, h => readableItemsIn_sortKeys xs h
  | .obj ms, 0, h => h
  | .obj ms, d + 1, h => by
      have hboth : (decide (ms.map Prod.fst).Nodup && readableMembersIn isFloat d ms) = true := h
      rw [Bool.and_eq_true, decide_eq_true_eq] at hboth
      have hvalues := readableMembersIn_sortKeys ms hboth.2
      have hperm : (sortMembers (sortKeysMembers ms)).Perm (sortKeysMembers ms) :=
        List.perm_insertionSort _ _
      show (decide ((sortMembers (sortKeysMembers ms)).map Prod.fst).Nodup &&
        readableMembersIn isFloat d (sortMembers (sortKeysMembers ms))) = true
      rw [Bool.and_eq_true, decide_eq_true_eq, (hperm.map Prod.fst).nodup_iff,
        keys_sortKeysMembers, readableMembersIn_iff]
      exact ⟨hboth.1, fun m hm => (readableMembersIn_iff _).1 hvalues m (hperm.mem_iff.1 hm)⟩
  termination_by structural v => v

theorem readableItemsIn_sortKeys : ∀ (xs : List Json) {d : Nat},
    readableItemsIn isFloat d xs = true → readableItemsIn isFloat d (sortKeysList xs) = true
  | [], _, _ => rfl
  | x :: xs, _, h => by
      rw [readableItemsIn, Bool.and_eq_true] at h
      rw [sortKeysList, readableItemsIn, readableIn_sortKeys x h.1, readableItemsIn_sortKeys xs h.2]
      rfl
  termination_by structural xs => xs

theorem readableMembersIn_sortKeys : ∀ (ms : List (String × Json)) {d : Nat},
    readableMembersIn isFloat d ms = true →
    readableMembersIn isFloat d (sortKeysMembers ms) = true
  | [], _, _ => rfl
  | (k, v) :: ms, _, h => by
      rw [readableMembersIn, Bool.and_eq_true] at h
      rw [sortKeysMembers, readableMembersIn, readableIn_sortKeys v h.1,
        readableMembersIn_sortKeys ms h.2]
      rfl
  termination_by structural ms => ms
end

end Sorted

/-! ## §5. The text of a value tells the value. -/

/-- The writer of `json.dumps(…, ensure_ascii=False, separators=(",", ":"))`. -/
def compact : Writer := Style.writer { ascii := false, blanks := false }

theorem escapeChar_eq (c : Char) : compact.escape c = escapeChar c := by
  show escapeIn { ascii := false, blanks := false } c = _
  unfold escapeIn escapeChar
  repeat' split
  all_goals first | rfl | skip
  · next hcontrol =>
      have hhigh : c.toNat / 16 % 16 = c.toNat / 16 := Nat.mod_eq_of_lt (by omega)
      show _ :: _ :: Nat.digitChar (c.toNat / 4096 % 16) :: Nat.digitChar (c.toNat / 256 % 16) ::
        Nat.digitChar (c.toNat / 16 % 16) :: _ = _
      rw [Nat.div_eq_of_lt (by omega : c.toNat < 4096), Nat.div_eq_of_lt (by omega : c.toNat < 256),
        hhigh]
      rfl
  all_goals simp_all

theorem literal_eq (s : String) : compact.literal s = quote s := by
  unfold Writer.literal quote
  rw [List.flatMap_congr fun c _ => escapeChar_eq c]
  rfl

mutual
theorem write_compact : ∀ v : Json, compact.write v = text v
  | .null | .bool _ | .int _ | .float _ => rfl
  | .str s => literal_eq s
  | .arr [] => rfl
  | .arr (x :: xs) => by
      rw [Writer.write, text, textList_cons, Writer.writeItems, write_compact x,
        writeMoreItems_compact xs]
      rfl
  | .obj [] => rfl
  | .obj ((k, v) :: ms) => by
      rw [Writer.write, text, textMembers_cons, Writer.writeMembers, literal_eq,
        write_compact v, writeMoreMembers_compact ms]
      rfl
  termination_by structural v => v

theorem writeMoreItems_compact : ∀ xs : List Json, compact.writeMoreItems xs = textTail xs
  | [] => rfl
  | x :: xs => by
      rw [Writer.writeMoreItems, textTail, textList_cons, write_compact x,
        writeMoreItems_compact xs]
      rfl
  termination_by structural xs => xs

theorem writeMoreMembers_compact : ∀ ms : List (String × Json),
    compact.writeMoreMembers ms = textMembersTail ms
  | [] => rfl
  | (k, v) :: ms => by
      rw [Writer.writeMoreMembers, textMembersTail, textMembers_cons, literal_eq,
        write_compact v, writeMoreMembers_compact ms]
      rfl
  termination_by structural ms => ms
end

open Classical in
/-- Every float is read as itself from its text. -/
theorem exists_readsFloats :
    ∃ readFloat : List Char → Option Decimal, ReadsFloats readFloat fun _ => true := by
  refine ⟨fun cs => if h : ∃ d : Decimal, d.repr.toList = cs then some h.choose else none,
    fun d _ => ?_⟩
  have hd : ∃ e : Decimal, e.repr.toList = d.repr.toList := ⟨d, rfl⟩
  show (if h : ∃ e : Decimal, e.repr.toList = d.repr.toList then some h.choose else none) = _
  rw [dif_pos hd]
  exact congrArg some (repr_injective (String.toList_inj.1 hd.choose_spec))

/-- **Two values have one text exactly when they are the same.** -/
theorem dumps_eq_iff {v w : Json} {limit : Nat} (hv : readableIn (fun _ => true) limit v = true)
    (hw : readableIn (fun _ => true) limit w = true) :
    v.dumps = w.dumps ↔ same v w = true := by
  rw [same_iff v w hv hw]
  constructor
  · intro h
    obtain ⟨readFloat, hfloat⟩ := exists_readsFloats
    have hback : ∀ u : Json, readableIn (fun _ => true) limit u = true →
        loads readFloat limit u.dumps = .ok u.sortKeys := by
      intro u hu
      rw [dumps, ← write_compact]
      exact Writer.loads_write hfloat (readableIn_sortKeys u hu)
    exact Except.ok.inj ((hback v hv).symm.trans (h ▸ hback w hw))
  · intro h
    rw [dumps, h, dumps]

/-! ## §6. What is read is such a value. -/

section Read

variable {readFloat : List Char → Option Decimal}

theorem ofDigitChars_lt {cs : List Char} (h : ∀ c ∈ cs, c.isDigit = true) :
    Nat.ofDigitChars 10 cs 0 < 10 ^ cs.length := by
  induction cs with
  | nil => decide
  | cons c cs ih =>
      have hrest := ih fun d hd => h d (List.mem_cons_of_mem _ hd)
      have hc : c.toNat - '0'.toNat ≤ 9 := by
        have hdigit := h c List.mem_cons_self
        simp only [Char.isDigit, Bool.and_eq_true, decide_eq_true_eq] at hdigit
        have hhigh : c.toNat ≤ 57 := hdigit.2
        show c.toNat - 48 ≤ 9
        omega
      rw [Nat.ofDigitChars_cons, Nat.mul_zero, Nat.zero_add, Nat.ofDigitChars_eq_ofDigitChars_zero,
        List.length_cons, Nat.pow_succ]
      have hscale : 10 ^ cs.length * (c.toNat - '0'.toNat) ≤ 10 ^ cs.length * 9 :=
        Nat.mul_le_mul_left _ hc
      omega

/-- A number is not written with more digits than it was read from. -/
theorem length_toDigits_ofDigitChars {cs : List Char} (h : ∀ c ∈ cs, c.isDigit = true) {k : Nat}
    (hk : 0 < k) (hlength : cs.length ≤ k) :
    (Nat.toDigits 10 (Nat.ofDigitChars 10 cs 0)).length ≤ k :=
  (Nat.length_toDigits_le_iff (by decide) hk).2
    (Nat.lt_of_lt_of_le (ofDigitChars_lt h) (Nat.pow_le_pow_right (by decide) hlength))

theorem intDigits_isDigit (cs : List Char) : ∀ c ∈ intDigits cs, c.isDigit = true := by
  intro c hc
  unfold intDigits at hc
  split at hc
  · rw [List.mem_singleton.1 hc]
    rfl
  · exact List.mem_takeWhile_imp hc

/-- A number that is read has at most 4300 digits, or is a float. -/
theorem readableIn_scanNumber {cs rest : List Char} {v : Json} (depth : Nat)
    (h : scanNumber readFloat cs = .ok (v, rest)) :
    readableIn (fun _ => true) depth v = true := by
  unfold scanNumber at h
  dsimp only at h
  generalize cs.drop _ = body at h
  split at h
  · cases h
  split at h
  · split at h
    · cases h
    · next hsize =>
        obtain ⟨rfl, -⟩ := Prod.mk.inj (Except.ok.inj h)
        have hdigits := length_toDigits_ofDigitChars (intDigits_isDigit body) (by decide)
          (Nat.not_lt.1 hsize)
        cases depth with
        | zero =>
            rw [readableIn, decide_eq_true_eq]
            split <;> simpa using hdigits
        | succ depth =>
            rw [readableIn, decide_eq_true_eq]
            split <;> simpa using hdigits
  · split at h
    · obtain ⟨rfl, -⟩ := Prod.mk.inj (Except.ok.inj h)
      cases depth <;> rfl
    · cases h

/-- What the three scanners return, on so much fuel. -/
structure ScansReadable (readFloat : List Char → Option Decimal) (fuel : Nat) : Prop where
  value : ∀ {depth cs v rest}, scanValue readFloat fuel depth cs = .ok (v, rest) →
    readableIn (fun _ => true) depth v = true
  items : ∀ {depth cs xs rest}, scanItems readFloat fuel depth cs = .ok (xs, rest) →
    readableItemsIn (fun _ => true) depth xs = true
  members : ∀ {depth cs ms rest}, scanMembers readFloat fuel depth cs = .ok (ms, rest) →
    readableMembersIn (fun _ => true) depth ms = true

theorem ScansReadable.nextValue {fuel : Nat} (ih : ScansReadable readFloat fuel) {depth : Nat}
    {cs rest : List Char} {v : Json} (h : scanValue readFloat (fuel + 1) depth cs = .ok (v, rest)) :
    readableIn (fun _ => true) depth v = true := by
  unfold scanValue at h
  split at h
  · obtain ⟨p, -, hp⟩ := map_eq_ok.1 h
    obtain ⟨rfl, -⟩ := Prod.mk.inj hp
    cases depth <;> rfl
  · split at h
    · cases h
    · split at h
      · obtain ⟨rfl, -⟩ := Prod.mk.inj (Except.ok.inj h)
        rfl
      · obtain ⟨p, hitems, hp⟩ := map_eq_ok.1 h
        obtain ⟨rfl, -⟩ := Prod.mk.inj hp
        exact ih.items hitems
  · split at h
    · cases h
    · split at h
      · obtain ⟨rfl, -⟩ := Prod.mk.inj (Except.ok.inj h)
        rfl
      · obtain ⟨p, hmembers, hp⟩ := bind_eq_ok.1 h
        obtain ⟨ms, r⟩ := p
        dsimp only at hp
        split at hp
        · next hkeys =>
            obtain ⟨rfl, -⟩ := Prod.mk.inj (Except.ok.inj hp)
            have hvalues := ih.members hmembers
            show (decide (ms.map Prod.fst).Nodup && readableMembersIn _ _ ms) = true
            rw [hvalues, decide_eq_true hkeys]
            rfl
        · cases hp
  · obtain ⟨rfl, -⟩ := Prod.mk.inj (Except.ok.inj h)
    cases depth <;> rfl
  · obtain ⟨rfl, -⟩ := Prod.mk.inj (Except.ok.inj h)
    cases depth <;> rfl
  · obtain ⟨rfl, -⟩ := Prod.mk.inj (Except.ok.inj h)
    cases depth <;> rfl
  · exact readableIn_scanNumber depth h

theorem ScansReadable.nextItems {fuel : Nat} (ih : ScansReadable readFloat fuel) {depth : Nat}
    {cs rest : List Char} {xs : List Json}
    (h : scanItems readFloat (fuel + 1) depth cs = .ok (xs, rest)) :
    readableItemsIn (fun _ => true) depth xs = true := by
  unfold scanItems at h
  obtain ⟨⟨x, r⟩, hx, h⟩ := bind_eq_ok.1 h
  have hfirst := ih.value hx
  dsimp only at h
  split at h
  · obtain ⟨rfl, -⟩ := Prod.mk.inj (Except.ok.inj h)
    rw [readableItemsIn, hfirst]
    rfl
  · obtain ⟨p, hmore, hp⟩ := map_eq_ok.1 h
    obtain ⟨rfl, -⟩ := Prod.mk.inj hp
    rw [readableItemsIn, hfirst, ih.items hmore]
    rfl
  · cases h

theorem ScansReadable.nextMembers {fuel : Nat} (ih : ScansReadable readFloat fuel) {depth : Nat}
    {cs rest : List Char} {ms : List (String × Json)}
    (h : scanMembers readFloat (fuel + 1) depth cs = .ok (ms, rest)) :
    readableMembersIn (fun _ => true) depth ms = true := by
  unfold scanMembers at h
  split at h
  · obtain ⟨⟨k, r⟩, -, h⟩ := bind_eq_ok.1 h
    dsimp only at h
    split at h
    · obtain ⟨⟨v, r'⟩, hv, h⟩ := bind_eq_ok.1 h
      have hfirst := ih.value hv
      dsimp only at h
      split at h
      · obtain ⟨rfl, -⟩ := Prod.mk.inj (Except.ok.inj h)
        rw [readableMembersIn, hfirst]
        rfl
      · obtain ⟨p, hmore, hp⟩ := map_eq_ok.1 h
        obtain ⟨rfl, -⟩ := Prod.mk.inj hp
        rw [readableMembersIn, hfirst, ih.members hmore]
        rfl
      · cases h
    · cases h
  · cases h

theorem scansReadable (fuel : Nat) : ScansReadable readFloat fuel := by
  induction fuel with
  | zero =>
      refine ⟨fun h => ?_, fun h => ?_, fun h => ?_⟩
      · cases h
      · cases h
      · cases h
  | succ fuel ih => exact ⟨ih.nextValue, ih.nextItems, ih.nextMembers⟩

/-- **What `json.loads` returns is a value that can be read.** -/
theorem readableIn_of_loads {limit : Nat} {cs : List Char} {v : Json}
    (h : loads readFloat limit cs = .ok v) : readableIn (fun _ => true) limit v = true := by
  unfold loads at h
  split at h
  · cases h
  obtain ⟨⟨w, rest⟩, hscan, h⟩ := bind_eq_ok.1 h
  dsimp only at h
  split at h
  · obtain rfl := Except.ok.inj h
    exact (scansReadable _).value hscan
  · cases h

end Read

end Json

end Rpy.Foundation

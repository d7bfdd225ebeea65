/-
  Rpy.Foundation.JsonPlain
  ────────────────────────
  **`json.loads` WITHOUT HOOKS.**

  Of a key that is given twice the last value is kept, where the key first
  stood, and `NaN` and the infinities are numbers.  `Json` has no name for
  these, so the caller says what to read for them.

    • `assignAll`           — the `dict` of some members,
    • `loadsPlain`          — the value of a text,
    • `loadsPlain_of_loads` — what the strict reader accepts is read alike.
-/
import Rpy.Foundation.Assoc
import Rpy.Foundation.JsonParse
import Rpy.Foundation.Raising

namespace Rpy.Foundation

/-- `dict(pairs)` -/
def assignAll {α β : Type} [DecidableEq α] (members : List (α × β)) : List (α × β) :=
  members.foldl (fun dict m => assign m.1 m.2 dict) []

namespace Json

/-- What `json.loads` raises: a `JSONDecodeError`, another `ValueError` for an
integer with too many digits, or a `RecursionError`. -/
inductive PlainError where
  | decode
  | value
  | recursion
deriving Repr, DecidableEq

/-- What the errors of the strict reader are for the plain one. -/
def LoadsError.plain : LoadsError → PlainError
  | .value => .decode
  | .recursion => .recursion

section Scan

variable (readFloat : List Char → Option Decimal) (nonFinite : Json)

/-- A number, a float that is not finite included. -/
def scanPlainNumber (cs : List Char) : Except PlainError (Json × List Char) :=
  let sign := (cs.take 1).filter (· == '-')
  let body := cs.drop sign.length
  let whole := intDigits body
  if whole.isEmpty then .error .decode
  else
    let rest := body.drop whole.length
    let frac := fraction rest
    let rest := rest.drop frac.length
    let ex := exponent rest
    let rest := rest.drop ex.length
    if frac.isEmpty && ex.isEmpty then
      if 4300 < whole.length then .error .value
      else
        let n : Int := Nat.ofDigitChars 10 whole 0
        .ok (.int (if sign.isEmpty then n else -n), rest)
    else
      match readFloat (sign ++ whole ++ frac ++ ex) with
      | some d => .ok (.float d, rest)
      | none => .ok (nonFinite, rest)

mutual
/-- `scan_once`; `depth` is how many more brackets may be opened. -/
def scanPlain : Nat → Nat → List Char → Except PlainError (Json × List Char)
  | 0, _, _ => .error .decode
  | fuel + 1, depth, cs =>
      match cs with
      | '"' :: rest =>
          ((scanChars (rest.length + 1) rest).mapError LoadsError.plain).map fun (s, rest) =>
            (.str (String.ofList s), rest)
      | '[' :: rest =>
          match depth with
          | 0 => .error .recursion
          | depth + 1 =>
              match skipBlanks rest with
              | ']' :: rest => .ok (.arr [], rest)
              | rest => (scanPlainItems fuel depth rest).map fun (xs, rest) => (.arr xs, rest)
      | '\x7b' :: rest =>
          match depth with
          | 0 => .error .recursion
          | depth + 1 =>
              match skipBlanks rest with
              | '\x7d' :: rest => .ok (.obj [], rest)
              | rest =>
                  (scanPlainMembers fuel depth rest).map fun (ms, rest) =>
                    (.obj (assignAll ms), rest)
      | 'n' :: 'u' :: 'l' :: 'l' :: rest => .ok (.null, rest)
      | 't' :: 'r' :: 'u' :: 'e' :: rest => .ok (.bool true, rest)
      | 'f' :: 'a' :: 'l' :: 's' :: 'e' :: rest => .ok (.bool false, rest)
      | 'N' :: 'a' :: 'N' :: rest => .ok (nonFinite, rest)
      | 'I' :: 'n' :: 'f' :: 'i' :: 'n' :: 'i' :: 't' :: 'y' :: rest => .ok (nonFinite, rest)
      | '-' :: 'I' :: 'n' :: 'f' :: 'i' :: 'n' :: 'i' :: 't' :: 'y' :: rest =>
          .ok (nonFinite, rest)
      | cs => scanPlainNumber readFloat nonFinite cs
  termination_by structural fuel => fuel

/-- The items of an array that has one, and its closing bracket. -/
def scanPlainItems : Nat → Nat → List Char → Except PlainError (List Json × List Char)
  | 0, _, _ => .error .decode
  | fuel + 1, depth, cs => do
      let (x, rest) ← scanPlain fuel depth cs
      match skipBlanks rest with
      | ']' :: rest => .ok ([x], rest)
      | ',' :: rest =>
          (scanPlainItems fuel depth (skipBlanks rest)).map fun (xs, rest) => (x :: xs, rest)
      | _ => .error .decode
  termination_by structural fuel => fuel

/-- The members of an object that has one, and its closing brace. -/
def scanPlainMembers : Nat → Nat → List Char →
    Except PlainError (List (String × Json) × List Char)
  | 0, _, _ => .error .decode
  | fuel + 1, depth, cs =>
      match cs with
      | '"' :: rest => do
          let (k, rest) ← (scanChars (rest.length + 1) rest).mapError LoadsError.plain
          match skipBlanks rest with
          | ':' :: rest => do
              let (v, rest) ← scanPlain fuel depth (skipBlanks rest)
              match skipBlanks rest with
              | '\x7d' :: rest => .ok ([(String.ofList k, v)], rest)
              | ',' :: rest =>
                  (scanPlainMembers fuel depth (skipBlanks rest)).map fun (ms, rest) =>
                    ((String.ofList k, v) :: ms, rest)
              | _ => .error .decode
          | _ => .error .decode
      | _ => .error .decode
  termination_by structural fuel => fuel
end

/-- `json.loads`; at most `limit` brackets may be open at once. -/
def loadsPlain (limit : Nat) (cs : List Char) : Except PlainError Json :=
  if cs.head? = some '\ufeff' then .error .decode
  else do
    let (v, rest) ← scanPlain readFloat nonFinite (2 * cs.length + 2) limit (skipBlanks cs)
    if (skipBlanks rest).isEmpty then .ok v else .error .decode

end Scan

/-! ## What the strict reader accepts. -/

section Accepted

variable {readFloat : List Char → Option Decimal} {nonFinite : Json}

theorem scanPlainNumber_of_scanNumber {cs rest : List Char} {v : Json}
    (h : scanNumber readFloat cs = .ok (v, rest)) :
    scanPlainNumber readFloat nonFinite cs = .ok (v, rest) := by
  unfold scanNumber at h
  unfold scanPlainNumber
  dsimp only at h ⊢
  split at h
  · cases h
  rename_i hwhole
  rw [if_neg hwhole]
  split at h
  · rename_i hint
    rw [if_pos hint]
    split at h
    · cases h
    · rename_i hlength
      rw [if_neg hlength]
      exact congrArg Except.ok (Except.ok.inj h)
  · rename_i hint
    rw [if_neg hint]
    generalize readFloat _ = d at h ⊢
    cases d with
    | some d => exact congrArg Except.ok (Except.ok.inj h)
    | none => cases h

/-- What begins no number is none. -/
theorem scanNumber_of_letter {c : Char} (hc : c.isDigit = false) (hsign : c ≠ '-')
    (rest : List Char) : scanNumber readFloat (c :: rest) = .error .value := by
  have hzero : c ≠ '0' := by
    rintro rfl
    cases hc
  have hsign' : (c == '-') = false := by simpa using hsign
  have hwhole : intDigits (c :: rest) = [] := by
    unfold intDigits digits
    split
    · rename_i heq
      exact absurd (List.cons.inj heq).1 hzero
    · rw [List.takeWhile_cons, hc]
      rfl
  unfold scanNumber
  simp [hsign', hwhole]

theorem assign_of_not_mem {α β : Type} [DecidableEq α] {key : α} {value : β}
    {members : List (α × β)} (h : key ∉ members.map Prod.fst) :
    assign key value members = members ++ [(key, value)] := by
  induction members with
  | nil => rfl
  | cons m members ih =>
      rw [List.map_cons, List.mem_cons, not_or] at h
      rw [assign, if_neg fun heq => h.1 heq.symm, ih h.2]
      rfl

/-- Members with distinct keys are the `dict` of themselves. -/
theorem assignAll_of_nodup {α β : Type} [DecidableEq α] {members : List (α × β)}
    (h : (members.map Prod.fst).Nodup) : assignAll members = members := by
  have hfold : ∀ front : List (α × β), ((front ++ members).map Prod.fst).Nodup →
      members.foldl (fun dict m => assign m.1 m.2 dict) front = front ++ members := by
    clear h
    induction members with
    | nil =>
        intro front _
        exact (List.append_nil front).symm
    | cons m members ih =>
        intro front hnodup
        have hnot : m.1 ∉ front.map Prod.fst := by
          rw [List.map_append, List.map_cons, List.nodup_append] at hnodup
          exact fun hin => hnodup.2.2 _ hin _ List.mem_cons_self rfl
        have hsplit : front ++ m :: members = front ++ [m] ++ members := by
          rw [List.append_assoc]
          rfl
        rw [List.foldl_cons, assign_of_not_mem hnot]
        rw [hsplit] at hnodup ⊢
        exact ih _ hnodup
  exact hfold [] h

theorem scanPlain_bracket (fuel depth : Nat) (cs : List Char) :
    scanPlain readFloat nonFinite (fuel + 1) (depth + 1) ('[' :: cs) =
      match skipBlanks cs with
      | ']' :: rest => .ok (.arr [], rest)
      | rest => (scanPlainItems readFloat nonFinite fuel depth rest).map fun (xs, rest) =>
          (.arr xs, rest) := rfl

theorem scanPlain_brace (fuel depth : Nat) (cs : List Char) :
    scanPlain readFloat nonFinite (fuel + 1) (depth + 1) ('\x7b' :: cs) =
      match skipBlanks cs with
      | '\x7d' :: rest => .ok (.obj [], rest)
      | rest => (scanPlainMembers readFloat nonFinite fuel depth rest).map fun (ms, rest) =>
          (.obj (assignAll ms), rest) := rfl

theorem scanPlain_items {fuel depth : Nat} {cs rest : List Char} {xs : List Json}
    (hopen : ∀ rest, skipBlanks cs ≠ ']' :: rest)
    (hxs : scanPlainItems readFloat nonFinite fuel depth (skipBlanks cs) = .ok (xs, rest)) :
    scanPlain readFloat nonFinite (fuel + 1) (depth + 1) ('[' :: cs) = .ok (.arr xs, rest) := by
  rw [scanPlain_bracket]
  split
  · rename_i heq
    exact absurd heq (hopen _)
  · rw [hxs]
    rfl

theorem scanPlain_members {fuel depth : Nat} {cs rest : List Char} {ms : List (String × Json)}
    (hopen : ∀ rest, skipBlanks cs ≠ '\x7d' :: rest)
    (hms : scanPlainMembers readFloat nonFinite fuel depth (skipBlanks cs) = .ok (ms, rest)) :
    scanPlain readFloat nonFinite (fuel + 1) (depth + 1) ('\x7b' :: cs) =
      .ok (.obj (assignAll ms), rest) := by
  rw [scanPlain_brace]
  split
  · rename_i heq
    exact absurd heq (hopen _)
  · rw [hms]
    rfl

/-- **A value that is read without an error is read alike.** -/
theorem scanPlain_agrees (fuel : Nat) :
    (∀ {depth : Nat} {cs rest : List Char} {v : Json},
      scanValue readFloat fuel depth cs = .ok (v, rest) →
        scanPlain readFloat nonFinite fuel depth cs = .ok (v, rest)) ∧
    (∀ {depth : Nat} {cs rest : List Char} {xs : List Json},
      scanItems readFloat fuel depth cs = .ok (xs, rest) →
        scanPlainItems readFloat nonFinite fuel depth cs = .ok (xs, rest)) ∧
    (∀ {depth : Nat} {cs rest : List Char} {ms : List (String × Json)},
      scanMembers readFloat fuel depth cs = .ok (ms, rest) →
        scanPlainMembers readFloat nonFinite fuel depth cs = .ok (ms, rest)) := by
  -- One induction for the three readers: each calls the others with less fuel.
  induction fuel with
  | zero => exact ⟨fun h => (nomatch h), fun h => (nomatch h), fun h => (nomatch h)⟩
  | succ fuel ih =>
      obtain ⟨ihValue, ihItems, ihMembers⟩ := ih
      refine ⟨?_, ?_, ?_⟩
      · intro depth cs rest v h
        unfold scanValue at h
        split at h
        · obtain ⟨p, hp, heq⟩ := map_eq_ok.1 h
          exact map_eq_ok.2 ⟨p, mapError_eq_ok.2 hp, heq⟩
        · rename_i more
          obtain _ | depth := depth
          · cases h
          dsimp only at h
          split at h
          · rename_i heq
            rw [scanPlain_bracket, heq]
            exact congrArg Except.ok (Except.ok.inj h)
          · rename_i hopen
            obtain ⟨p, hp, heq⟩ := map_eq_ok.1 h
            rw [scanPlain_items hopen (ihItems hp)]
            exact congrArg Except.ok heq
        · rename_i more
          obtain _ | depth := depth
          · cases h
          dsimp only at h
          split at h
          · rename_i heq
            rw [scanPlain_brace, heq]
            exact congrArg Except.ok (Except.ok.inj h)
          · rename_i hopen
            obtain ⟨⟨ms, more⟩, hp, hnodup⟩ := bind_eq_ok.1 h
            dsimp only at hnodup
            split at hnodup
            -- The strict reader found no key twice, so assigning keeps the members as they
            -- are.
            · rename_i hkeys
              rw [scanPlain_members hopen (ihMembers hp), assignAll_of_nodup hkeys]
              exact congrArg Except.ok (Except.ok.inj hnodup)
            · cases hnodup
        · exact congrArg Except.ok (Except.ok.inj h)
        · exact congrArg Except.ok (Except.ok.inj h)
        · exact congrArg Except.ok (Except.ok.inj h)
        · -- a constant of the plain reader is no number
          rename_i hquote hbracket hbrace hnull htrue hfalse
          unfold scanPlain
          split
          · exact absurd rfl (hquote _)
          · exact absurd rfl (hbracket _)
          · exact absurd rfl (hbrace _)
          · exact absurd rfl (hnull _)
          · exact absurd rfl (htrue _)
          · exact absurd rfl (hfalse _)
          · rw [scanNumber_of_letter (by decide) (by decide)] at h
            cases h
          · rw [scanNumber_of_letter (by decide) (by decide)] at h
            cases h
          · cases h
          · exact scanPlainNumber_of_scanNumber h
      -- The items of an array: one value, then a comma or the bracket.
      · intro depth cs rest xs h
        rw [scanItems] at h
        rw [scanPlainItems]
        obtain ⟨⟨x, more⟩, hx, h⟩ := bind_eq_ok.1 h
        refine bind_eq_ok.2 ⟨(x, more), ihValue hx, ?_⟩
        dsimp only at h ⊢
        generalize skipBlanks more = t at h ⊢
        split at h
        · exact congrArg Except.ok (Except.ok.inj h)
        · obtain ⟨p, hp, heq⟩ := map_eq_ok.1 h
          exact map_eq_ok.2 ⟨p, ihItems hp, heq⟩
        · cases h
      -- The members of an object: a literal, a colon and a value.
      · intro depth cs rest ms h
        unfold scanMembers at h
        unfold scanPlainMembers
        split at h
        · obtain ⟨⟨k, more⟩, hk, h⟩ := bind_eq_ok.1 h
          refine bind_eq_ok.2 ⟨(k, more), mapError_eq_ok.2 hk, ?_⟩
          dsimp only at h ⊢
          generalize skipBlanks more = t at h ⊢
          split at h
          · obtain ⟨⟨v, more⟩, hv, h⟩ := bind_eq_ok.1 h
            refine bind_eq_ok.2 ⟨(v, more), ihValue hv, ?_⟩
            dsimp only at h ⊢
            generalize skipBlanks more = t at h ⊢
            split at h
            · exact congrArg Except.ok (Except.ok.inj h)
            · obtain ⟨p, hp, heq⟩ := map_eq_ok.1 h
              exact map_eq_ok.2 ⟨p, ihMembers hp, heq⟩
            · cases h
          · cases h
        · cases h

/-- **What the strict reader accepts, the plain one reads alike.** -/
theorem loadsPlain_of_loads {limit : Nat} {cs : List Char} {v : Json}
    (h : loads readFloat limit cs = .ok v) : loadsPlain readFloat nonFinite limit cs = .ok v := by
  unfold loads at h
  unfold loadsPlain
  split at h
  · cases h
  rename_i hmark
  rw [if_neg hmark]
  obtain ⟨⟨w, rest⟩, hw, h⟩ := bind_eq_ok.1 h
  refine bind_eq_ok.2 ⟨(w, rest), (scanPlain_agrees _).1 hw, ?_⟩
  dsimp only at h ⊢
  split at h
  · rename_i hblank
    rw [if_pos hblank]
    exact congrArg Except.ok (Except.ok.inj h)
  · cases h

end Accepted

end Json

end Rpy.Foundation

/-
  Rpy.Foundation.JsonWriter
  ─────────────────────────
  **A VALUE IS READ BACK FROM ITS TEXT**, whichever way its characters are
  escaped.

  A writer is a way to escape the characters of a literal that the reader
  undoes.  `json.dumps` is one; a text in which more characters are escaped
  afterwards is written by another.

    • `Writer`              — a way to write, with what makes it readable,
    • `isText_write`        — what is written is a text of the value,
    • `Writer.loads_write`  — **a value is read back from its text**,
    • `Json.loads_print`    — from that of `json.dumps`, floats apart,
    • `Writer.flatMap_write` — escaping a text is writing it another way.
-/
import Rpy.Foundation.JsonReading

namespace Rpy.Foundation

namespace Json

/-! ## §1. Writers. -/

/-- A way to write values: what it writes for a character is read as that
character, and does not end the literal. -/
structure Writer where
  escape : Char → List Char
  blanks : Bool
  reads : ∀ c r, readChar (escape c ++ r) = some (c, r)
  inside : ∀ c r s, escape c ++ r ≠ '"' :: s

/-- The writer of `json.dumps`. -/
def Style.writer (style : Style) : Writer where
  escape := escapeIn style
  blanks := style.blanks
  reads := readChar_escapeIn
  inside := escapeIn_head

namespace Writer

variable (w : Writer)

/-- A literal. -/
def literal (s : String) : List Char := '"' :: (s.toList.flatMap w.escape ++ ['"'])

/-- A separator. -/
def after (c : Char) : List Char := if w.blanks then [c, ' '] else [c]

mutual
/-- The text of a value. -/
def write : Json → List Char
  | .null => "null".toList
  | .bool b => (if b then "true" else "false").toList
  | .int n => (toString n).toList
  | .float d => d.repr.toList
  | .str s => w.literal s
  | .arr xs => '[' :: (writeItems xs ++ [']'])
  | .obj members => '\x7b' :: (writeMembers members ++ ['\x7d'])
  termination_by structural v => v

def writeItems : List Json → List Char
  | [] => []
  | x :: xs => write x ++ writeMoreItems xs
  termination_by structural xs => xs

/-- The items after the first one. -/
def writeMoreItems : List Json → List Char
  | [] => []
  | x :: xs => w.after ',' ++ (write x ++ writeMoreItems xs)
  termination_by structural xs => xs

def writeMembers : List (String × Json) → List Char
  | [] => []
  | (k, v) :: ms => w.literal k ++ (w.after ':' ++ (write v ++ writeMoreMembers ms))
  termination_by structural ms => ms

/-- The members after the first one. -/
def writeMoreMembers : List (String × Json) → List Char
  | [] => []
  | (k, v) :: ms =>
      w.after ',' ++ (w.literal k ++ (w.after ':' ++ (write v ++ writeMoreMembers ms)))
  termination_by structural ms => ms
end

end Writer

mutual
/-- A style is a writer. -/
theorem Style.write_writer (style : Style) : ∀ v, style.writer.write v = print style v
  | .null | .bool _ | .int _ | .float _ | .str _ => rfl
  | .arr xs => congrArg (fun cs => '[' :: (cs ++ [']'])) (style.writeItems_writer xs)
  | .obj ms => congrArg (fun cs => '\x7b' :: (cs ++ ['\x7d'])) (style.writeMembers_writer ms)
  termination_by structural v => v

theorem Style.writeItems_writer (style : Style) :
    ∀ xs, style.writer.writeItems xs = printItems style xs
  | [] => rfl
  | x :: xs => congrArg₂ (· ++ ·) (style.write_writer x) (style.writeMoreItems_writer xs)
  termination_by structural xs => xs

theorem Style.writeMoreItems_writer (style : Style) :
    ∀ xs, style.writer.writeMoreItems xs = printMoreItems style xs
  | [] => rfl
  | x :: xs => congrArg (style.after ',' ++ ·)
      (congrArg₂ (· ++ ·) (style.write_writer x) (style.writeMoreItems_writer xs))
  termination_by structural xs => xs

theorem Style.writeMembers_writer (style : Style) :
    ∀ ms, style.writer.writeMembers ms = printMembers style ms
  | [] => rfl
  | (k, v) :: ms => congrArg (fun cs => Json.literal style k ++ (style.after ':' ++ cs))
      (congrArg₂ (· ++ ·) (style.write_writer v) (style.writeMoreMembers_writer ms))
  termination_by structural ms => ms

theorem Style.writeMoreMembers_writer (style : Style) :
    ∀ ms, style.writer.writeMoreMembers ms = printMoreMembers style ms
  | [] => rfl
  | (k, v) :: ms =>
      congrArg (fun cs => style.after ',' ++ (Json.literal style k ++ (style.after ':' ++ cs)))
        (congrArg₂ (· ++ ·) (style.write_writer v) (style.writeMoreMembers_writer ms))
  termination_by structural ms => ms
end

/-! ## §2. What is written is a text of the value. -/

section Texts

variable {readFloat : List Char → Option Decimal} {isFloat : Decimal → Bool} {w : Writer}

/-- What is written of some characters is a text of them. -/
theorem literalText_write (cs : List Char) : LiteralText cs (cs.flatMap w.escape) := by
  induction cs with
  | nil => exact .nil
  | cons c cs ih =>
      obtain ⟨front, hfront, htext⟩ := literalText_of_readChar
        (w.inside c (cs.flatMap w.escape)) (w.reads c (cs.flatMap w.escape))
      rw [List.flatMap_cons, hfront]
      exact htext _ _ ih

/-- What a writer puts for a string is a literal of it. -/
theorem isLiteral_write (s : String) : IsLiteral s (w.literal s) :=
  ⟨s.toList.flatMap w.escape, rfl, literalText_write s.toList⟩

/-- The digits of a number have no zero in front. -/
theorem isWhole_toDigits (n : Nat) : IsWhole (Nat.toDigits 10 n) := by
  by_cases hn : n = 0
  · rw [hn]
    exact .inl rfl
  · have hwhole : IsWhole (Nat.toDigits 10 n ++ []) :=
      .of_toDigits_append (List.forall_mem_nil _) hn
    rwa [List.append_nil] at hwhole

/-- The digits of an integer, behind a sign if it is negative, are a text of it. -/
theorem isText_toString (n : Int) : IsText readFloat (.int n) (toString n).toList := by
  rw [Int.toString_eq_repr, Int.repr_eq_if]
  split
  · refine ⟨[], Nat.toDigits 10 n.toNat, ⟨.inl rfl, isWhole_toDigits _, .inl rfl, .inl rfl⟩,
      by rw [Nat.toList_repr]; rfl, ?_⟩
    show n = (Nat.ofDigitChars 10 (Nat.toDigits 10 n.toNat) 0 : Nat)
    rw [Nat.ofDigitChars_ten_toDigits]
    omega
  · refine ⟨['-'], Nat.toDigits 10 (-n).toNat, ⟨.inr rfl, isWhole_toDigits _, .inl rfl, .inl rfl⟩,
      by rw [String.toList_append, Nat.toList_repr]; rfl, ?_⟩
    show n = -(Nat.ofDigitChars 10 (Nat.toDigits 10 (-n).toNat) 0 : Nat)
    rw [Nat.ofDigitChars_ten_toDigits]
    omega

/-- A float is the number its text is read as. -/
def ReadsFloats (readFloat : List Char → Option Decimal) (isFloat : Decimal → Bool) : Prop :=
  ∀ d, isFloat d = true → readFloat d.repr.toList = some d

/-- `repr` of a float is a text of it, where it is read back. -/
theorem isText_repr {d : Decimal} (hd : readFloat d.repr.toList = some d) :
    IsText readFloat (.float d) d.repr.toList := by
  obtain ⟨sign, whole, frac, ex, htext, hneg, hwhole, hfrac, hex, hpart, -⟩ := repr_parts d
  exact ⟨sign, whole, frac, ex, ⟨hneg ▸ sign_cases d.neg, hwhole, hfrac, hex⟩, hpart, htext, hd⟩

/-- A separator and the blank that may follow it. -/
theorem after_eq (w : Writer) (sep : Char) : ∃ lead, w.after sep = sep :: lead ∧ Blanks lead := by
  unfold Writer.after
  split
  · exact ⟨[' '], rfl, List.all_eq_true.1 (by decide)⟩
  · exact ⟨[], rfl, blanks_nil⟩

/-- Blanks before a text. -/
theorem spaced_of {p : List Char → Prop} {lead text : List Char} (hlead : Blanks lead)
    (h : p text) : Spaced p (lead ++ text) :=
  ⟨lead, text, [], by rw [List.append_nil], hlead, h, blanks_nil⟩

mutual
/-- **What is written of a value is a text of it.** -/
theorem isText_write (hfloat : ReadsFloats readFloat isFloat) :
    ∀ (v : Json) (depth : Nat), readableIn isFloat depth v = true →
      IsText readFloat v (w.write v)
  | .null, _, _ => rfl
  | .bool _, _, _ => rfl
  | .int n, _, _ => isText_toString n
  | .float d, depth, hv => isText_repr (hfloat d (by cases depth <;> exact hv))
  | .str s, _, _ => isLiteral_write s
  | .arr xs, 0, hv => by cases hv
  | .obj ms, 0, hv => by cases hv
  | .arr xs, depth + 1, hv => ⟨_, rfl, isItems_write hfloat xs depth hv⟩
  | .obj ms, depth + 1, hv => by
      have hboth : (decide (ms.map Prod.fst).Nodup && readableMembersIn isFloat depth ms) = true := hv
      rw [Bool.and_eq_true] at hboth
      exact ⟨of_decide_eq_true hboth.1, _, rfl, isMembers_write hfloat ms depth hboth.2⟩
  termination_by structural v => v

theorem isItems_write (hfloat : ReadsFloats readFloat isFloat) :
    ∀ (xs : List Json) (depth : Nat), readableItemsIn isFloat depth xs = true →
      IsItems readFloat xs (w.writeItems xs)
  | [], _, _ => blanks_nil
  | x :: xs, depth, hv => by
      have hboth : (readableIn isFloat depth x && readableItemsIn isFloat depth xs) = true := hv
      rw [Bool.and_eq_true] at hboth
      exact ⟨w.write x, w.writeMoreItems xs, rfl,
        spaced_of blanks_nil (isText_write hfloat x depth hboth.1),
        isMoreItems_write hfloat xs depth hboth.2⟩
  termination_by structural xs => xs

theorem isMoreItems_write (hfloat : ReadsFloats readFloat isFloat) :
    ∀ (xs : List Json) (depth : Nat), readableItemsIn isFloat depth xs = true →
      IsMoreItems readFloat xs (w.writeMoreItems xs)
  | [], _, _ => rfl
  | x :: xs, depth, hv => by
      have hboth : (readableIn isFloat depth x && readableItemsIn isFloat depth xs) = true := hv
      rw [Bool.and_eq_true] at hboth
      obtain ⟨lead, hafter, hlead⟩ := after_eq w ','
      refine ⟨lead ++ w.write x, w.writeMoreItems xs, ?_,
        spaced_of hlead (isText_write hfloat x depth hboth.1),
        isMoreItems_write hfloat xs depth hboth.2⟩
      rw [Writer.writeMoreItems, hafter, List.append_assoc]
      rfl
  termination_by structural xs => xs

theorem isMembers_write (hfloat : ReadsFloats readFloat isFloat) :
    ∀ (ms : List (String × Json)) (depth : Nat), readableMembersIn isFloat depth ms = true →
      IsMembers readFloat ms (w.writeMembers ms)
  | [], _, _ => blanks_nil
  | (k, v) :: ms, depth, hv => by
      have hboth : (readableIn isFloat depth v && readableMembersIn isFloat depth ms) = true := hv
      rw [Bool.and_eq_true] at hboth
      obtain ⟨lead, hafter, hlead⟩ := after_eq w ':'
      refine ⟨w.literal k, lead ++ w.write v, w.writeMoreMembers ms, ?_,
        spaced_of blanks_nil (isLiteral_write k), spaced_of hlead (isText_write hfloat v depth hboth.1),
        isMoreMembers_write hfloat ms depth hboth.2⟩
      rw [Writer.writeMembers, hafter, List.append_assoc]
      rfl
  termination_by structural ms => ms

theorem isMoreMembers_write (hfloat : ReadsFloats readFloat isFloat) :
    ∀ (ms : List (String × Json)) (depth : Nat), readableMembersIn isFloat depth ms = true →
      IsMoreMembers readFloat ms (w.writeMoreMembers ms)
  | [], _, _ => rfl
  | (k, v) :: ms, depth, hv => by
      have hboth : (readableIn isFloat depth v && readableMembersIn isFloat depth ms) = true := hv
      rw [Bool.and_eq_true] at hboth
      obtain ⟨lead, hafter, hlead⟩ := after_eq w ':'
      obtain ⟨lead', hafter', hlead'⟩ := after_eq w ','
      refine ⟨lead' ++ w.literal k, lead ++ w.write v, w.writeMoreMembers ms, ?_,
        spaced_of hlead' (isLiteral_write k), spaced_of hlead (isText_write hfloat v depth hboth.1),
        isMoreMembers_write hfloat ms depth hboth.2⟩
      rw [Writer.writeMoreMembers, hafter, hafter', List.append_assoc, List.append_assoc]
      rfl
  termination_by structural ms => ms
end

mutual
/-- A value that can be read where some floats are not can be read. -/
theorem readableIn_mono : ∀ (v : Json) (depth : Nat), readableIn isFloat depth v = true →
    readableIn (fun _ => true) depth v = true
  | .null, 0, _ | .null, _ + 1, _ | .bool _, 0, _ | .bool _, _ + 1, _ | .str _, 0, _
  | .str _, _ + 1, _ | .float _, 0, _ | .float _, _ + 1, _ => rfl
  | .int _, 0, hv | .int _, _ + 1, hv => hv
  | .arr _, 0, hv | .obj _, 0, hv => by cases hv
  | .arr xs, depth + 1, hv => readableItemsIn_mono xs depth hv
  | .obj ms, depth + 1, hv =>
      Bool.and_eq_true_iff.2 ((Bool.and_eq_true_iff.1 hv).imp_right (readableMembersIn_mono ms depth))
  termination_by structural v => v

theorem readableItemsIn_mono : ∀ (xs : List Json) (depth : Nat),
    readableItemsIn isFloat depth xs = true → readableItemsIn (fun _ => true) depth xs = true
  | [], _, _ => rfl
  | x :: xs, depth, hv =>
      Bool.and_eq_true_iff.2
        ((Bool.and_eq_true_iff.1 hv).imp (readableIn_mono x depth) (readableItemsIn_mono xs depth))
  termination_by structural xs => xs

theorem readableMembersIn_mono : ∀ (ms : List (String × Json)) (depth : Nat),
    readableMembersIn isFloat depth ms = true → readableMembersIn (fun _ => true) depth ms = true
  | [], _, _ => rfl
  | (_, v) :: ms, depth, hv =>
      Bool.and_eq_true_iff.2
        ((Bool.and_eq_true_iff.1 hv).imp (readableIn_mono v depth) (readableMembersIn_mono ms depth))
  termination_by structural ms => ms
end

/-- **What `json.dumps` writes, `json.loads` reads.** -/
theorem Writer.loads_write (hfloat : ReadsFloats readFloat isFloat) {limit : Nat} {v : Json}
    (hv : readableIn isFloat limit v = true) :
    loads readFloat limit (w.write v) = .ok v := by
  have hspaced : Spaced (IsText readFloat v) ([] ++ w.write v) :=
    spaced_of blanks_nil (isText_write hfloat v limit hv)
  exact loads_eq_ok_iff.2 ⟨hspaced, readableIn_mono v limit hv⟩

end Texts

/-! ## §3. The text of `json.dumps`. -/

mutual
theorem readableIn_false : ∀ (v : Json) (depth : Nat),
    readableIn (fun _ => false) depth v = readable depth v
  | .null, 0 | .null, _ + 1 | .bool _, 0 | .bool _, _ + 1 | .str _, 0 | .str _, _ + 1
  | .int _, 0 | .int _, _ + 1 | .float _, 0 | .float _, _ + 1 | .arr _, 0 | .obj _, 0 => rfl
  | .arr xs, depth + 1 => readableItemsIn_false xs depth
  | .obj ms, depth + 1 =>
      congrArg (decide (ms.map Prod.fst).Nodup && ·) (readableMembersIn_false ms depth)
  termination_by structural v => v

theorem readableItemsIn_false : ∀ (xs : List Json) (depth : Nat),
    readableItemsIn (fun _ => false) depth xs = readableItems depth xs
  | [], _ => rfl
  | x :: xs, depth =>
      congrArg₂ (· && ·) (readableIn_false x depth) (readableItemsIn_false xs depth)
  termination_by structural xs => xs

theorem readableMembersIn_false : ∀ (ms : List (String × Json)) (depth : Nat),
    readableMembersIn (fun _ => false) depth ms = readableMembers depth ms
  | [], _ => rfl
  | (_, v) :: ms, depth =>
      congrArg₂ (· && ·) (readableIn_false v depth) (readableMembersIn_false ms depth)
  termination_by structural ms => ms
end

/-- **What `json.dumps` writes, `json.loads` reads.** -/
theorem loads_print {readFloat : List Char → Option Decimal} {style : Style} {limit : Nat}
    {v : Json} (hv : readable limit v = true) :
    loads readFloat limit (print style v) = .ok v := by
  have hfloat : ReadsFloats readFloat fun _ => false := fun _ h => Bool.noConfusion h
  rw [← style.write_writer]
  exact Writer.loads_write hfloat (by rw [readableIn_false, hv])

/-! ## §4. Escaping a text. -/

/-- The characters of a text outside its literals, and the quotation marks. -/
def structural (c : Char) : Bool :=
  c.isAlphanum || c ∈ ['-', '+', '.', '"', ',', ':', ' ', '[', ']', '\x7b', '\x7d']

/-- Digits are structure, and never escaped. -/
theorem structural_of_isDigit {c : Char} (h : c.isDigit = true) : structural c = true := by
  unfold structural Char.isAlphanum
  rw [h, Bool.or_true, Bool.true_or]

/-- So is the text of an integer. -/
theorem structural_toString (n : Int) : ∀ c ∈ (toString n).toList, structural c = true := by
  have hdigits : ∀ m, ∀ c ∈ Nat.toDigits 10 m, structural c = true := fun m c hc =>
    structural_of_isDigit ((areDigits_toDigits m).2 c hc)
  rw [Int.toString_eq_repr, Int.repr_eq_if]
  split
  · rw [Nat.toList_repr]
    exact hdigits _
  · rw [String.toList_append, Nat.toList_repr]
    exact List.forall_mem_append.2 ⟨List.all_eq_true.1 (by decide), hdigits _⟩

/-- So is that of a float. -/
theorem structural_repr (d : Decimal) : ∀ c ∈ d.repr.toList, structural c = true := by
  obtain ⟨sign, whole, frac, ex, htext, hneg, hwhole, hfrac, hex, -⟩ := repr_parts d
  have hsign : sign = [] ∨ sign = ['-'] := hneg ▸ sign_cases d.neg
  have hdigits : ∀ {cs}, AreDigits cs → ∀ c ∈ cs, structural c = true := fun hcs c hc =>
    structural_of_isDigit (hcs.2 c hc)
  rw [htext]
  refine List.forall_mem_append.2 ⟨?_, List.forall_mem_append.2 ⟨?_,
    List.forall_mem_append.2 ⟨?_, ?_⟩⟩⟩
  · rcases hsign with rfl | rfl <;> exact List.all_eq_true.1 (by decide)
  · rcases hwhole with rfl | ⟨hwhole, -⟩
    · exact List.all_eq_true.1 (by decide)
    · exact hdigits hwhole
  · rcases hfrac with rfl | ⟨ds, rfl, hds⟩
    · exact List.forall_mem_nil _
    · exact List.forall_mem_cons.2 ⟨rfl, hdigits hds⟩
  · rcases hex with rfl | ⟨e, s, ds, rfl, he, hs, hds⟩
    · exact List.forall_mem_nil _
    · refine List.forall_mem_cons.2 ⟨?_, List.forall_mem_append.2 ⟨?_, hdigits hds⟩⟩
      · rcases he with rfl | rfl <;> rfl
      · rcases hs with rfl | rfl | rfl <;> exact List.all_eq_true.1 (by decide)

namespace Writer

variable {w w' : Writer} {g : Char → List Char}

/-- What a function that leaves the rest of a text alone makes of the
characters of its literals. -/
structure Escapes (w w' : Writer) (g : Char → List Char) : Prop where
  plain : ∀ c, structural c = true → g c = [c]
  escape : ∀ c, (w.escape c).flatMap g = w'.escape c
  blanks : w.blanks = w'.blanks

/-- Escaping leaves the structure. -/
theorem Escapes.flatMap_structural (h : Escapes w w' g) {cs : List Char}
    (hcs : ∀ c ∈ cs, structural c = true) : cs.flatMap g = cs := by
  rw [List.flatMap_congr fun c hc => h.plain c (hcs c hc), ← List.map_eq_flatMap, List.map_id']

/-- It turns a literal into one of the other alphabet. -/
theorem Escapes.flatMap_literal (h : Escapes w w' g) (s : String) :
    (w.literal s).flatMap g = w'.literal s := by
  unfold literal
  rw [List.flatMap_cons, List.flatMap_append, List.flatMap_assoc, h.plain _ rfl,
    List.flatMap_congr fun c _ => h.escape c, List.flatMap_singleton, h.plain _ rfl]
  rfl

/-- It leaves what stands between two parts. -/
theorem Escapes.flatMap_after (h : Escapes w w' g) {c : Char} (hc : structural c = true) :
    (w.after c).flatMap g = w'.after c := by
  unfold after
  rw [← h.blanks]
  cases w.blanks
  · exact h.flatMap_structural (List.forall_mem_singleton.2 hc)
  · exact h.flatMap_structural (List.forall_mem_cons.2 ⟨hc, List.forall_mem_singleton.2 rfl⟩)

mutual
/-- **Escaping a text is writing it another way.** -/
theorem flatMap_write (h : Escapes w w' g) : ∀ v, (w.write v).flatMap g = w'.write v
  | .null => h.flatMap_structural
      (List.all_eq_true.1 (show "null".toList.all structural = true by decide))
  | .bool true => h.flatMap_structural
      (List.all_eq_true.1 (show "true".toList.all structural = true by decide))
  | .bool false => h.flatMap_structural
      (List.all_eq_true.1 (show "false".toList.all structural = true by decide))
  | .int n => h.flatMap_structural (structural_toString n)
  | .float d => h.flatMap_structural (structural_repr d)
  | .str s => h.flatMap_literal s
  | .arr xs => by
      rw [write, write, List.flatMap_cons, List.flatMap_append, flatMap_writeItems h xs,
        List.flatMap_singleton, h.plain _ rfl, h.plain _ rfl]
      rfl
  | .obj ms => by
      rw [write, write, List.flatMap_cons, List.flatMap_append, flatMap_writeMembers h ms,
        List.flatMap_singleton, h.plain _ rfl, h.plain _ rfl]
      rfl
  termination_by structural v => v

theorem flatMap_writeItems (h : Escapes w w' g) :
    ∀ xs, (w.writeItems xs).flatMap g = w'.writeItems xs
  | [] => rfl
  | x :: xs => by
      rw [writeItems, writeItems, List.flatMap_append, flatMap_write h x,
        flatMap_writeMoreItems h xs]
  termination_by structural xs => xs

theorem flatMap_writeMoreItems (h : Escapes w w' g) :
    ∀ xs, (w.writeMoreItems xs).flatMap g = w'.writeMoreItems xs
  | [] => rfl
  | x :: xs => by
      rw [writeMoreItems, writeMoreItems, List.flatMap_append, List.flatMap_append,
        h.flatMap_after rfl, flatMap_write h x, flatMap_writeMoreItems h xs]
  termination_by structural xs => xs

theorem flatMap_writeMembers (h : Escapes w w' g) :
    ∀ ms, (w.writeMembers ms).flatMap g = w'.writeMembers ms
  | [] => rfl
  | (k, v) :: ms => by
      rw [writeMembers, writeMembers, List.flatMap_append, List.flatMap_append,
        List.flatMap_append, h.flatMap_literal, h.flatMap_after rfl,
        flatMap_write h v, flatMap_writeMoreMembers h ms]
  termination_by structural ms => ms

theorem flatMap_writeMoreMembers (h : Escapes w w' g) :
    ∀ ms, (w.writeMoreMembers ms).flatMap g = w'.writeMoreMembers ms
  | [] => rfl
  | (k, v) :: ms => by
      rw [writeMoreMembers, writeMoreMembers, List.flatMap_append, List.flatMap_append,
        List.flatMap_append, List.flatMap_append, h.flatMap_literal,
        h.flatMap_after rfl, h.flatMap_after rfl,
        flatMap_write h v, flatMap_writeMoreMembers h ms]
  termination_by structural ms => ms
end

/-- What holds of the characters outside the literals and of those a
character is escaped with, holds of a text. -/
theorem forall_mem_write {p : Char → Bool} (hplain : ∀ c, structural c = true → p c = true)
    (hescape : ∀ c, ∀ d ∈ w.escape c, p d = true) (v : Json) :
    ∀ c ∈ w.write v, p c = true := by
  have hkeep : ∀ cs : List Char, cs.flatMap (fun c => if p c then [c] else []) = cs.filter p := by
    intro cs
    induction cs with
    | nil => rfl
    | cons c cs ih =>
        rw [List.flatMap_cons, ih]
        cases hc : p c
        · rw [List.filter_cons_of_neg (by rw [hc]; exact Bool.false_ne_true)]
          rfl
        · rw [List.filter_cons_of_pos hc]
          rfl
  have hwrite := flatMap_write (w := w) (g := fun c => if p c then [c] else [])
    ⟨fun c hc => if_pos (hplain c hc), fun c => by
      rw [hkeep]
      exact List.filter_eq_self.2 (hescape c), rfl⟩ v
  rw [hkeep] at hwrite
  exact List.filter_eq_self.1 hwrite

end Writer

end Json

end Rpy.Foundation

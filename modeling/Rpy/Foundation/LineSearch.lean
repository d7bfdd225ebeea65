/-
  Rpy.Foundation.LineSearch
  ─────────────────────────
  **SEARCHING A TEXT LINE BY LINE.**

  A pattern that begins with `^` matches nowhere but at the start of a line.
  Where each line of a text is skipped by it, or taken whole, the matches of
  the text are those of its lines, in order.

    • `StartsLine`       — a pattern that begins with `^`,
    • `Skips`, `Takes`   — what it does with a line,
    • `findFrom_skips`, `findFrom_takes` — the search goes on after the line,
    • `findFrom_skipped` — after several that are skipped,
    • `findFrom_lines`   — the matches in the lines at the head of a text,
    • `offset_le_of_mem_findFrom` — the ones after them start further on,
    • `StaysIn`, `findIter_at` — the match at a place that none before it
                           reaches.
-/
import Rpy.Foundation.Occurrence

namespace Rpy.Foundation

namespace Regex

/-! ## §1. Lines. -/

/-- The captured groups, the last one first. -/
abbrev Groups := List (String × List Char)

/-- Is a place the start of a line? -/
def atLineStart (before : List Char) : Bool := before.head?.all (· == '\n')

/-- A pattern that begins with `^`. -/
def StartsLine (r : Regex) : Prop :=
  ∀ c : Cursor, atLineStart c.before = false → steps r c = []

/-- Nothing is matched at the start of the line. -/
def Skips (r : Regex) (line : List Char) : Prop :=
  ∀ (c : Cursor) (rest : List Char), atLineStart c.before = true →
    c.after = line ++ '\n' :: rest → steps r c = []

/-- The match at the start of the line is the line, if the text goes on with
a character of the class `ok`. -/
def Takes (r : Regex) (ok : Char → Bool) (line : List Char) (groups : Groups) : Prop :=
  ∀ (c : Cursor) (rest : List Char), atLineStart c.before = true → c.groups = [] →
    c.after = line ++ '\n' :: rest → rest.head?.any ok = true →
      (steps r c).head? = some { c.skip line.length with groups }

/-- A line is taken with the groups, or skipped if there are none. -/
def Reads (r : Regex) (ok : Char → Bool) (line : List Char) : Option Groups → Prop
  | none => Skips r line
  | some groups => Takes r ok line groups

/-- Lines, each with its line break. -/
def linesText (lines : List (List Char)) : List Char := lines.flatMap (· ++ ['\n'])

/-- Lines after lines. -/
theorem linesText_append (lines more : List (List Char)) :
    linesText (lines ++ more) = linesText lines ++ linesText more :=
  List.flatMap_append

/-- Each line brings its line feed. -/
theorem length_le_linesText (lines : List (List Char)) :
    lines.length ≤ (linesText lines).length := by
  induction lines with
  | nil => exact Nat.le_refl 0
  | cons line lines ih =>
      simp only [linesText, List.flatMap_cons, List.length_append, List.length_cons,
        List.length_nil] at ih ⊢
      omega

/-- The first line, and what follows it. -/
theorem linesText_cons (line : List Char) (lines : List (List Char)) (rest : List Char) :
    linesText (line :: lines) ++ rest = line ++ '\n' :: (linesText lines ++ rest) := by
  simp only [linesText, List.flatMap_cons, List.append_assoc, List.cons_append, List.nil_append]

section Search

variable {r : Regex} {ok : Char → Bool}

/-! ## §2. One line. -/

/-- After any other character no line begins. -/
theorem atLineStart_cons {x : Char} {before : List Char} (h : x ≠ '\n') :
    atLineStart (x :: before) = false := beq_eq_false_iff_ne.2 h

/-- Inside a line nothing is found up to the next one. -/
theorem findFrom_inside (hr : StartsLine r) (fuel rest : List Char) :
    ∀ {line : List Char} {offset : Nat} {x : Char} {before : List Char}, x ≠ '\n' → '\n' ∉ line →
      findFrom r fuel offset (x :: before) (line ++ '\n' :: rest) =
        findFrom r fuel (offset + line.length + 1) ('\n' :: (line.reverse ++ x :: before)) rest := by
  intro line
  induction line with
  | nil =>
      intro offset x before hx _
      exact findFrom_of_none (hr _ (atLineStart_cons hx))
  | cons y line ih =>
      intro offset x before hx hbreak
      rw [List.mem_cons, not_or] at hbreak
      rw [List.cons_append, findFrom_of_none (hr _ (atLineStart_cons hx)),
        ih (Ne.symm hbreak.1) hbreak.2, List.length_cons, List.reverse_cons, List.append_assoc]
      have hoffset : offset + 1 + line.length + 1 = offset + (line.length + 1) + 1 := by omega
      rw [hoffset]
      rfl

/-- After a line that is skipped the search goes on with the next one. -/
theorem findFrom_skips (hr : StartsLine r) {line : List Char} (hbreak : '\n' ∉ line)
    (h : Skips r line) (fuel rest : List Char) (offset : Nat) {before : List Char}
    (hstart : atLineStart before = true) :
    findFrom r fuel offset before (line ++ '\n' :: rest) =
      findFrom r fuel (offset + line.length + 1) ('\n' :: (line.reverse ++ before)) rest := by
  have hnone := h { offset, before, after := line ++ '\n' :: rest } rest hstart rfl
  obtain _ | ⟨x, line⟩ := line
  · exact findFrom_of_none hnone
  · rw [List.mem_cons, not_or] at hbreak
    rw [List.cons_append] at hnone ⊢
    rw [findFrom_of_none hnone,
      findFrom_inside hr fuel rest (Ne.symm hbreak.1) hbreak.2, List.length_cons,
      List.reverse_cons, List.append_assoc]
    have hoffset : offset + 1 + line.length + 1 = offset + (line.length + 1) + 1 := by omega
    rw [hoffset]
    rfl

/-- The characters of the first line, and its line feed. -/
theorem length_linesText_cons (line : List Char) (lines : List (List Char)) :
    (linesText (line :: lines)).length = line.length + 1 + (linesText lines).length := by
  simp only [linesText, List.flatMap_cons, List.length_append, List.length_cons, List.length_nil]

/-- Lines that are skipped. -/
theorem findFrom_skipped (hr : StartsLine r) (fuel rest : List Char) :
    ∀ (lines : List (List Char)) (offset : Nat) (before : List Char),
      (∀ line ∈ lines, '\n' ∉ line ∧ Skips r line) → atLineStart before = true →
        ∃ before', atLineStart before' = true ∧
          findFrom r fuel offset before (linesText lines ++ rest) =
            findFrom r fuel (offset + (linesText lines).length) before' rest := by
  intro lines
  induction lines with
  | nil =>
      intro offset before _ hstart
      exact ⟨before, hstart, rfl⟩
  | cons line lines ih =>
      intro offset before hlines hstart
      obtain ⟨⟨hbreak, hskips⟩, hothers⟩ := List.forall_mem_cons.1 hlines
      obtain ⟨before', hstart', hfind⟩ := ih (offset + line.length + 1)
        ('\n' :: (line.reverse ++ before)) hothers rfl
      refine ⟨before', hstart', ?_⟩
      rw [linesText_cons, findFrom_skips hr hbreak hskips _ _ _ hstart, hfind,
        length_linesText_cons]
      simp only [Nat.add_assoc]

/-- After a line that is taken as well. -/
theorem findFrom_takes (hr : StartsLine r) {line : List Char} (hne : line ≠ [])
    (hbreak : '\n' ∉ line) {groups : Groups} (h : Takes r ok line groups) (y : Char)
    (fuel : List Char) {rest : List Char} (hrest : rest.head?.any ok = true) (offset : Nat)
    {before : List Char} (hstart : atLineStart before = true) :
    ∃ m : Match, m.first.offset = offset ∧ m.last.groups = groups ∧
      findFrom r (y :: fuel) offset before (line ++ '\n' :: rest) =
        m :: findFrom r fuel (offset + line.length + 1) ('\n' :: (line.reverse ++ before)) rest := by
  let c : Cursor := { offset, before, after := line ++ '\n' :: rest }
  have hmatch := h c rest hstart rfl rfl hrest
  have hpos := List.length_pos_iff.2 hne
  have hlonger : offset < offset + line.length := by omega
  refine ⟨⟨c, { c.skip line.length with groups }⟩, rfl, rfl,
    (findFrom_of_match hmatch hlonger).trans (congrArg (List.cons _) ?_)⟩
  show findFrom r fuel (offset + line.length)
    (((line ++ '\n' :: rest).take line.length).reverse ++ before)
    ((line ++ '\n' :: rest).drop line.length) = _
  rw [List.take_left, List.drop_left]
  -- what is left of the line is its break
  have hlast : atLineStart (line.reverse ++ before) = false := by
    unfold atLineStart
    rw [List.head?_append_of_ne_nil _ (by simpa using hne), List.head?_reverse,
      List.getLast?_eq_some_getLast hne]
    refine beq_eq_false_iff_ne.2 fun heq => hbreak ?_
    rw [← heq]
    exact List.getLast_mem hne
  exact findFrom_of_none (hr _ hlast)

/-! ## §3. The lines at the head of a text. -/

/-- A match does not end before it starts. -/
theorem offset_le_of_mem_steps (r : Regex) (c : Cursor) : ∀ d ∈ steps r c,
    c.offset ≤ d.offset := by
  refine steps_related (R := fun c d => c.offset ≤ d.offset) (fun c => Nat.le_refl _)
    (fun c d e => Nat.le_trans) ?_ r ?_ c
  · intro c _
    exact Nat.le_add_right c.offset 1
  · intro name _ c d hd
    exact hd

/-- A match starts where the search begins, or further on, and ends after that. -/
theorem searchFrom_offset {m : Match} : ∀ {after : List Char} {offset : Nat} {before : List Char},
    searchFrom r offset before after = some m →
      offset ≤ m.first.offset ∧ m.first.offset ≤ m.last.offset := by
  intro after
  induction after with
  | nil =>
      intro offset before h
      rw [searchFrom, Option.map_eq_some_iff] at h
      obtain ⟨d, hd, rfl⟩ := h
      exact ⟨Nat.le_refl offset, offset_le_of_mem_steps r _ d (List.mem_of_mem_head? hd)⟩
  | cons x rest ih =>
      intro offset before h
      rw [searchFrom] at h
      split at h
      · next d hd =>
          obtain rfl := Option.some.inj h
          exact ⟨Nat.le_refl offset, offset_le_of_mem_steps r _ d (List.mem_of_mem_head? hd)⟩
      · obtain ⟨hlater, hend⟩ := ih h
        exact ⟨by omega, hend⟩

/-- What is found from a place on starts there, or further on. -/
theorem offset_le_of_mem_findFrom : ∀ {fuel : List Char} {offset : Nat}
    {before after : List Char}, ∀ m ∈ findFrom r fuel offset before after,
      offset ≤ m.first.offset := by
  intro fuel
  induction fuel with
  | nil =>
      intro offset before after m hm
      cases hm
  | cons y fuel ih =>
      intro offset before after m hm
      rw [findFrom] at hm
      cases hsearch : searchFrom r offset before after with
      | none =>
          rw [hsearch] at hm
          cases hm
      | some first =>
          obtain ⟨hfirst, hlast⟩ := searchFrom_offset hsearch
          rw [hsearch] at hm
          simp only at hm
          split at hm
          · rcases List.mem_cons.1 hm with rfl | hm
            · exact hfirst
            · have hlater := ih m hm
              omega
          · split at hm
            · rw [List.mem_singleton.1 hm]
              exact hfirst
            · rcases List.mem_cons.1 hm with rfl | hm
              · exact hfirst
              · have hlater := ih m hm
                omega

variable (ok) in
/-- **The matches in the lines at the head of a text**, each of which is read:
they are the lines that are taken, and the others start after the lines. -/
theorem findFrom_lines {α : Type} (hr : StartsLine r) {text : α → List Char}
    {read : α → Option Groups} {rest : List Char} (hrest : rest.head?.any ok = true) :
    ∀ (items : List α) (fuel : List Char) (offset : Nat) (before : List Char),
      (∀ a ∈ items, (text a).head?.any ok = true ∧ '\n' ∉ text a ∧ Reads r ok (text a) (read a)) →
      items.length ≤ fuel.length → atLineStart before = true →
        ∃ ms more, findFrom r fuel offset before (linesText (items.map text) ++ rest) = ms ++ more ∧
          ms.map (fun m => m.last.groups) = items.filterMap read ∧
          (∀ m ∈ ms, m.first.offset < offset + (linesText (items.map text)).length) ∧
          ∀ m ∈ more, offset + (linesText (items.map text)).length ≤ m.first.offset := by
  intro items
  -- Line by line: a line is matched or skipped as a whole, since the pattern begins at a
  -- line's start and takes no break.
  induction items with
  | nil =>
      intro fuel offset before _ _ _
      exact ⟨[], _, rfl, rfl, List.forall_mem_nil _, fun m hm => offset_le_of_mem_findFrom m hm⟩
  | cons a items ih =>
      intro fuel offset before hitems hfuel hstart
      obtain ⟨⟨hhead, hbreak, hread⟩, hothers⟩ := List.forall_mem_cons.1 hitems
      have hne : text a ≠ [] := by
        intro hnil
        rw [hnil] at hhead
        cases hhead
      have hlength : (linesText ((a :: items).map text)).length =
          (text a).length + 1 + (linesText (items.map text)).length :=
        length_linesText_cons _ _
      -- The break takes the search to the start of a line again: the next item, or the rest.
      have hnext : (linesText (items.map text) ++ rest).head?.any ok = true := by
        obtain _ | ⟨b, items⟩ := items
        · exact hrest
        · have hb := (hothers b List.mem_cons_self).1
          obtain ⟨x, line, hline⟩ : ∃ x line, text b = x :: line := by
            cases htext : text b with
            | nil =>
                rw [htext] at hb
                cases hb
            | cons x line => exact ⟨x, line, rfl⟩
          rw [List.map_cons, linesText_cons, hline]
          rwa [hline] at hb
      rw [hlength, List.map_cons, linesText_cons]
      rw [List.length_cons] at hfuel
      cases hgroups : read a with
      | none =>
          rw [hgroups] at hread
          obtain ⟨ms, more, heq, hms, hbefore, hafter⟩ := ih fuel
            (offset + (text a).length + 1) ('\n' :: ((text a).reverse ++ before)) hothers (by omega) rfl
          refine ⟨ms, more, (findFrom_skips hr hbreak hread _ _ _ hstart).trans heq, ?_, ?_, ?_⟩
          · rw [hms, List.filterMap_cons_none hgroups]
          · intro m hm
            have hlt := hbefore m hm
            omega
          · intro m hm
            have hle := hafter m hm
            omega
      | some groups =>
          rw [hgroups] at hread
          obtain _ | ⟨y, fuel⟩ := fuel
          · exact absurd hfuel (by simp)
          rw [List.length_cons] at hfuel
          -- The line is taken, and the search goes on after its break.
          obtain ⟨m, hfirst, hlast, hfind⟩ :=
            findFrom_takes hr hne hbreak hread y fuel hnext offset hstart
          obtain ⟨ms, more, heq, hms, hbefore, hafter⟩ := ih fuel
            (offset + (text a).length + 1) ('\n' :: ((text a).reverse ++ before)) hothers (by omega) rfl
          refine ⟨m :: ms, more, hfind.trans (congrArg (List.cons m) heq), ?_, ?_, ?_⟩
          · rw [List.map_cons, hlast, hms, List.filterMap_cons_some hgroups]
          · refine List.forall_mem_cons.2 ⟨by omega, fun n hn => ?_⟩
            have hlt := hbefore n hn
            omega
          · intro n hn
            have hle := hafter n hn
            omega

/-! ## §4. The match at a place. -/

/-- No match that begins in the front of a text goes on beyond it. -/
def StaysIn (r : Regex) (offset : Nat) (before front rest : List Char) : Prop :=
  ∀ front₁ front₂, front = front₁ ++ front₂ → front₂ ≠ [] →
    ∀ d ∈ steps r { offset := offset + front₁.length, before := front₁.reverse ++ before,
                    after := front₂ ++ rest }, d.offset ≤ offset + front.length

/-- What begins further on stays in the front as well. -/
theorem StaysIn.drop {offset : Nat} {before front more rest : List Char}
    (h : StaysIn r offset before (front ++ more) rest) :
    StaysIn r (offset + front.length) (front.reverse ++ before) more rest := by
  intro front₁ front₂ hsplit hne d hd
  have hwhole : front ++ more = (front ++ front₁) ++ front₂ := by rw [hsplit, List.append_assoc]
  have hle := h (front ++ front₁) front₂ hwhole hne d (by
    rwa [List.length_append, List.reverse_append, List.append_assoc, ← Nat.add_assoc])
  rw [List.length_append] at hle
  omega

/-- A pattern that matches no empty text. -/
def Consumes (r : Regex) : Prop := ∀ c : Cursor, ∀ d ∈ steps r c, c.offset < d.offset

/-- **The search comes to the end of the front** of a text, if no match goes on
beyond it. -/
theorem findFrom_cut (hr : Consumes r) (rest : List Char) : ∀ (n : Nat) {front : List Char}
    (offset : Nat) (before fuel : List Char), front.length ≤ n →
      StaysIn r offset before front rest → (front ++ rest).length < fuel.length →
        ∃ ms fuel', findFrom r fuel offset before (front ++ rest) =
            ms ++ findFrom r fuel' (offset + front.length) (front.reverse ++ before) rest ∧
          (∀ m ∈ ms, m.first.offset < offset + front.length) ∧ rest.length < fuel'.length := by
  intro n
  induction n with
  | zero =>
      intro front offset before fuel hn _ hfuel
      obtain rfl : front = [] := List.length_eq_zero_iff.1 (Nat.le_zero.1 hn)
      exact ⟨[], fuel, rfl, List.forall_mem_nil _, hfuel⟩
  | succ n ih =>
      intro front offset before fuel hn hstays hfuel
      obtain _ | ⟨x, front⟩ := front
      · exact ⟨[], fuel, rfl, List.forall_mem_nil _, hfuel⟩
      obtain _ | ⟨y, fuel⟩ := fuel
      · exact absurd hfuel (Nat.not_lt_zero _)
      cases hhead : (steps r { offset, before, after := (x :: front) ++ rest }).head? with
      | none =>
          have hwhole : StaysIn r offset before ([x] ++ front) rest := hstays
          have hone : StaysIn r (offset + 1) (x :: before) front rest := StaysIn.drop hwhole
          obtain ⟨ms, fuel', heq, hms, hlength⟩ := ih (offset + 1) (x :: before) (y :: fuel)
            (Nat.le_of_succ_le_succ hn) hone (Nat.lt_of_succ_lt hfuel)
          have hoffset : offset + 1 + front.length = offset + (x :: front).length := by
            rw [List.length_cons]
            omega
          rw [hoffset] at heq hms
          refine ⟨ms, fuel', ?_, hms, hlength⟩
          rw [List.cons_append] at hhead ⊢
          rw [findFrom_of_none (List.head?_eq_none_iff.1 hhead), heq, List.reverse_cons,
            List.append_assoc]
          rfl
      | some d =>
          have hmem := List.mem_of_mem_head? hhead
          have hlonger : offset < d.offset := hr _ d hmem
          obtain ⟨w, hw⟩ := spans_of_mem_steps hmem
          have hle : d.offset ≤ offset + (x :: front).length :=
            hstays [] (x :: front) rfl (List.cons_ne_nil x front) d hmem
          have hoffset : d.offset = offset + w.length := hw.offset
          -- the match is a part of the front
          obtain ⟨more, hmore, hafter⟩ : ∃ more, x :: front = w ++ more ∧ d.after = more ++ rest := by
            have hprefix : w <+: x :: front :=
              List.prefix_of_prefix_length_le ⟨_, hw.after.symm⟩ (List.prefix_append _ rest)
                (by omega)
            obtain ⟨more, hmore⟩ := hprefix
            have hsame : w ++ d.after = w ++ (more ++ rest) := by
              rw [← hw.after, ← List.append_assoc, hmore]
            exact ⟨more, hmore.symm, List.append_cancel_left hsame⟩
          have hrest : StaysIn r (offset + w.length) (w.reverse ++ before) more rest :=
            StaysIn.drop (hmore ▸ hstays)
          have hparts : (x :: front).length = w.length + more.length := by
            rw [hmore, List.length_append]
          have hfuel' : (more ++ rest).length < fuel.length := by
            have hcons : (y :: fuel).length = fuel.length + 1 := rfl
            rw [List.length_append, hcons] at hfuel
            rw [List.length_append]
            omega
          obtain ⟨ms, fuel', heq, hms, hlength⟩ :=
            ih (offset + w.length) (w.reverse ++ before) fuel (by omega) hrest hfuel'
          have hend : offset + w.length + more.length = offset + (x :: front).length := by omega
          rw [hend] at heq hms
          refine ⟨⟨{ offset, before, after := (x :: front) ++ rest }, d⟩ :: ms, fuel', ?_, ?_, hlength⟩
          · rw [findFrom_of_match hhead hlonger, hoffset, hafter, hw.before, heq, hmore,
              List.reverse_append, List.append_assoc more.reverse]
            rfl
          · have hfirst : offset < offset + (x :: front).length := by omega
            exact List.forall_mem_cons.2 ⟨hfirst, hms⟩

/-- The matches at the place where a search begins. -/
theorem findFrom_at (hr : Consumes r) {fuel : List Char} {offset : Nat} {before after : List Char}
    (hfuel : after.length < fuel.length) :
    (findFrom r fuel offset before after).filter (fun m => decide (m.first.offset = offset)) =
      ((steps r { offset, before, after }).head?.map fun d =>
        (⟨{ offset, before, after }, d⟩ : Match)).toList := by
  have hlater : ∀ {ms : List Match}, (∀ m ∈ ms, offset < m.first.offset) →
      ms.filter (fun m => decide (m.first.offset = offset)) = [] := by
    intro ms hms
    refine List.filter_eq_nil_iff.2 fun m hm => ?_
    have hlt := hms m hm
    simp only [decide_eq_true_eq]
    omega
  cases hhead : (steps r { offset, before, after }).head? with
  | none =>
      have hnone := List.head?_eq_none_iff.1 hhead
      cases after with
      | nil => rw [findFrom_nil hnone]; rfl
      | cons x rest =>
          rw [findFrom_of_none hnone]
          exact hlater fun m hm => offset_le_of_mem_findFrom m hm
  | some d =>
      have hlonger : offset < d.offset := hr _ d (List.mem_of_mem_head? hhead)
      obtain _ | ⟨y, fuel⟩ := fuel
      · exact absurd hfuel (Nat.not_lt_zero _)
      rw [findFrom_of_match hhead hlonger, List.filter_cons_of_pos (by simp)]
      exact congrArg (List.cons _) (hlater fun m hm =>
        Nat.lt_of_lt_of_le hlonger (offset_le_of_mem_findFrom m hm))

/-- **The match at a place** of a text that no match before it reaches beyond. -/
theorem findIter_at (hr : Consumes r) {front rest : List Char} (hstays : StaysIn r 0 [] front rest) :
    (r.findIter (front ++ rest)).filter (fun m => decide (m.first.offset = front.length)) =
      ((steps r { offset := front.length, before := front.reverse, after := rest }).head?.map fun d =>
        (⟨{ offset := front.length, before := front.reverse, after := rest }, d⟩ : Match)).toList := by
  obtain ⟨ms, fuel, hfind, hms, hfuel⟩ := findFrom_cut hr rest front.length 0 []
    ('\n' :: (front ++ rest)) (Nat.le_refl _) hstays (Nat.lt_succ_self _)
  rw [Nat.zero_add, List.append_nil] at hfind
  rw [Nat.zero_add] at hms
  unfold findIter
  rw [hfind, List.filter_append, List.filter_eq_nil_iff.2 fun m hm => ?_, List.nil_append,
    findFrom_at hr hfuel]
  have hlt := hms m hm
  simp only [decide_eq_true_eq]
  omega

end Search

end Regex

end Rpy.Foundation

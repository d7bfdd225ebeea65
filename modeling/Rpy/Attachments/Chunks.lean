/-
  Rpy.Attachments.Chunks
  ──────────────────────
  **CUTTING THE TEXT OF AN ATTACHMENT** (`app/attachment_processing.py`,
  `app/attachments.py`).

  A window over the text is cut at its last line break or blank, if that is
  in its second half, and the white space around the cut is dropped.  A
  window of white space is kept whole, so that the cursor always moves on.

    • `chunkAttachmentText` — `chunk_attachment_text`,
    • `validateChunk`       — `_validate_chunk`,
    • `chunkAttachmentText_losesNothing` — what the chunks are.
-/
import Rpy.Attachments.Sandbox
import Rpy.Foundation.Tiling

namespace Rpy.Attachments

open Rpy.Foundation

/-! ## §1. One window. -/

/-- `MIN_ATTACHMENT_CHUNK_CHARS` -/
def minAttachmentChunkChars : Nat := 256

/-- `text[i].isspace()` -/
def isSpaceAt (u : Unicode) (cs : List Char) (i : Nat) : Bool := cs[i]?.any u.isSpace

/-- `text.rfind(c, start, stop)`, for a character. -/
def rfind (cs : List Char) (c : Char) (start stop : Nat) : Int :=
  match (List.range' start (stop - start)).reverse.find? fun i => cs[i]? == some c with
  | some i => i
  | none => -1

/-- `while end > cursor and text[end - 1].isspace(): end -= 1` -/
def trimEnd (u : Unicode) (cs : List Char) (cursor : Nat) : Nat → Nat
  | 0 => 0
  | stop + 1 =>
      if cursor < stop + 1 && isSpaceAt u cs stop then trimEnd u cs cursor stop else stop + 1

/-- `while cursor < text_length and text[cursor].isspace(): cursor += 1` -/
def skipSpace (u : Unicode) (cs : List Char) (cursor : Nat) : Nat :=
  cursor + ((cs.drop cursor).takeWhile u.isSpace).length

/-- `hard_end` -/
def hardEnd (cs : List Char) (chunkChars cursor : Nat) : Nat :=
  min (cursor + chunkChars) cs.length

/-- `end`, before the white space is trimmed. -/
def cutAt (cs : List Char) (chunkChars cursor : Nat) : Nat :=
  let limit := hardEnd cs chunkChars cursor
  let newline := rfind cs '\n' cursor limit
  let space := rfind cs ' ' cursor limit
  let preferred := max newline space
  if limit < cs.length ∧ ((cursor + chunkChars / 2 : Nat) : Int) < preferred then
    preferred.toNat
  else limit

/-- `end`: a window of white space is not trimmed. -/
def chunkEnd (u : Unicode) (cs : List Char) (chunkChars cursor : Nat) : Nat :=
  let trimmed := trimEnd u cs cursor (cutAt cs chunkChars cursor)
  if trimmed ≤ cursor then hardEnd cs chunkChars cursor else trimmed

/-- The chunk of a span of the text. -/
def chunkOf (cs : List Char) (span : Nat × Nat) : AttachmentChunkInput where
  text := String.ofList ((cs.drop span.1).take (span.2 - span.1))
  charStart := .int span.1
  charEnd := .int span.2

section Window

variable (u : Unicode) (cs : List Char)

theorem rfind_lt {c : Char} {start stop : Nat} (h : start < stop) :
    rfind cs c start stop < stop := by
  unfold rfind
  cases hfind : (List.range' start (stop - start)).reverse.find? fun i => cs[i]? == some c with
  | none =>
      show (-1 : Int) < stop
      omega
  | some i =>
      have hi := List.mem_of_find?_eq_some hfind
      rw [List.mem_reverse, List.mem_range'_1] at hi
      show (i : Int) < stop
      omega

/-- A character that the window does not have is not found. -/
theorem rfind_eq_neg_one {c : Char} {start stop : Nat}
    (h : c ∉ (cs.drop start).take (stop - start)) : rfind cs c start stop = -1 := by
  unfold rfind
  have hnone : ((List.range' start (stop - start)).reverse.find? fun i => cs[i]? == some c) =
      none := by
    rw [List.find?_eq_none]
    intro i hi hfound
    rw [List.mem_reverse, List.mem_range'_1] at hi
    refine h (List.mem_of_getElem? (i := i - start) ?_)
    rw [List.getElem?_take_of_lt (by omega), List.getElem?_drop, Nat.add_sub_cancel' hi.1]
    exact beq_iff_eq.1 hfound
  rw [hnone]

theorem trimEnd_le (cursor stop : Nat) : trimEnd u cs cursor stop ≤ stop := by
  induction stop with
  | zero => exact Nat.le_refl 0
  | succ stop ih =>
      unfold trimEnd
      split
      · omega
      · exact Nat.le_refl _

/-- The character before the trimmed end is no white space. -/
theorem trimEnd_solid {cursor stop : Nat} (h : cursor < trimEnd u cs cursor stop) :
    isSpaceAt u cs (trimEnd u cs cursor stop - 1) = false := by
  induction stop with
  | zero => exact absurd h (Nat.not_lt_zero _)
  | succ stop ih =>
      unfold trimEnd at h ⊢
      split at h
      · rename_i hspace
        rw [if_pos hspace]
        exact ih h
      · rename_i hsolid
        rw [if_neg hsolid]
        rw [Bool.and_eq_true, decide_eq_true_eq, not_and, Bool.not_eq_true] at hsolid
        exact hsolid h

/-- A character that is no white space stops the trimming. -/
theorem lt_trimEnd {cursor i stop : Nat} (hi : i < stop) (hsolid : isSpaceAt u cs i = false) :
    i < trimEnd u cs cursor stop := by
  induction stop with
  | zero => exact absurd hi (Nat.not_lt_zero i)
  | succ stop ih =>
      unfold trimEnd
      by_cases hlast : i = stop
      · rw [← hlast, hsolid, Bool.and_false, if_neg Bool.false_ne_true]
        exact Nat.lt_succ_self i
      · split
        · exact ih (by omega)
        · exact hi

theorem skipSpace_le (cursor : Nat) (h : cursor ≤ cs.length) :
    cursor ≤ skipSpace u cs cursor ∧ skipSpace u cs cursor ≤ cs.length := by
  unfold skipSpace
  have hlength := (List.takeWhile_sublist u.isSpace (l := cs.drop cursor)).length_le
  rw [List.length_drop] at hlength
  omega

/-- What is skipped is white space. -/
theorem skipSpace_gap (cursor : Nat) :
    ∀ c ∈ (cs.drop cursor).take (skipSpace u cs cursor - cursor), u.isSpace c = true := by
  have htake : (cs.drop cursor).take (skipSpace u cs cursor - cursor) =
      (cs.drop cursor).takeWhile u.isSpace := by
    unfold skipSpace
    rw [Nat.add_sub_cancel_left]
    exact (List.prefix_iff_eq_take.1 (List.takeWhile_prefix u.isSpace)).symm
  rw [htake]
  exact fun c hc => List.mem_takeWhile_imp hc

theorem any_getElem?_takeWhile (p : Char → Bool) (l : List Char) :
    (l[(l.takeWhile p).length]?).any p = false := by
  induction l with
  | nil => rfl
  | cons c l ih =>
      cases hc : p c with
      | true =>
          rw [List.takeWhile_cons_of_pos hc, List.length_cons, List.getElem?_cons_succ]
          exact ih
      | false =>
          rw [List.takeWhile_cons_of_neg (by simp [hc])]
          exact hc

/-- The character after what is skipped is no white space. -/
theorem skipSpace_solid (cursor : Nat) : isSpaceAt u cs (skipSpace u cs cursor) = false := by
  unfold isSpaceAt skipSpace
  rw [← List.getElem?_drop]
  exact any_getElem?_takeWhile u.isSpace (cs.drop cursor)

variable {chunkChars cursor : Nat}

theorem hardEnd_bounds (hchars : 0 < chunkChars) (hcursor : cursor < cs.length) :
    cursor < hardEnd cs chunkChars cursor ∧ hardEnd cs chunkChars cursor ≤ cs.length ∧
      hardEnd cs chunkChars cursor ≤ cursor + chunkChars := by
  unfold hardEnd
  omega

theorem cutAt_bounds (hchars : 0 < chunkChars) (hcursor : cursor < cs.length) :
    cursor < cutAt cs chunkChars cursor ∧
      cutAt cs chunkChars cursor ≤ hardEnd cs chunkChars cursor := by
  have hhard := (hardEnd_bounds cs hchars hcursor).1
  have hpreferred : max (rfind cs '\n' cursor (hardEnd cs chunkChars cursor))
      (rfind cs ' ' cursor (hardEnd cs chunkChars cursor)) < hardEnd cs chunkChars cursor :=
    max_lt (rfind_lt cs hhard) (rfind_lt cs hhard)
  unfold cutAt
  by_cases hcut : hardEnd cs chunkChars cursor < cs.length ∧
      ((cursor + chunkChars / 2 : Nat) : Int) <
        max (rfind cs '\n' cursor (hardEnd cs chunkChars cursor))
          (rfind cs ' ' cursor (hardEnd cs chunkChars cursor))
  · simp only [if_pos hcut]
    omega
  · simp only [if_neg hcut]
    exact ⟨hhard, Nat.le_refl _⟩

/-- **The cursor moves on**, by no more than the window. -/
theorem chunkEnd_bounds (hchars : 0 < chunkChars) (hcursor : cursor < cs.length) :
    cursor < chunkEnd u cs chunkChars cursor ∧ chunkEnd u cs chunkChars cursor ≤ cs.length ∧
      chunkEnd u cs chunkChars cursor ≤ cursor + chunkChars := by
  have hhard := hardEnd_bounds cs hchars hcursor
  have hcut := (cutAt_bounds cs hchars hcursor).2
  have htrim := trimEnd_le u cs cursor (cutAt cs chunkChars cursor)
  unfold chunkEnd
  by_cases hblank : trimEnd u cs cursor (cutAt cs chunkChars cursor) ≤ cursor
  · simp only [if_pos hblank]
    exact hhard
  · simp only [if_neg hblank]
    omega

/-- A chunk that begins with no white space ends with none. -/
theorem chunkEnd_solid (hchars : 0 < chunkChars) (hcursor : cursor < cs.length)
    (hsolid : isSpaceAt u cs cursor = false) :
    isSpaceAt u cs (chunkEnd u cs chunkChars cursor - 1) = false := by
  have htrim : cursor < trimEnd u cs cursor (cutAt cs chunkChars cursor) :=
    lt_trimEnd u cs (cutAt_bounds cs hchars hcursor).1 hsolid
  unfold chunkEnd
  simp only [if_neg (Nat.not_le.2 htrim)]
  exact trimEnd_solid u cs htrim

end Window

/-! ## §2. The loop. -/

/-- A size of chunks that is accepted. -/
abbrev ChunkChars := { n : Nat // minAttachmentChunkChars ≤ n }

theorem ChunkChars.pos (size : ChunkChars) : 0 < size.1 :=
  Nat.lt_of_lt_of_le (by decide) size.2

/-- Each round leaves less of the text. -/
theorem rest_decreases (u : Unicode) (cs : List Char) (chunkChars : ChunkChars) {cursor : Nat}
    (hcursor : cursor < cs.length) :
    cs.length - skipSpace u cs (chunkEnd u cs chunkChars.1 cursor) < cs.length - cursor := by
  have hend := chunkEnd_bounds u cs chunkChars.pos hcursor
  have hskip := skipSpace_le u cs (chunkEnd u cs chunkChars.1 cursor) hend.2.1
  omega

/-- `while cursor < text_length` -/
def chunkLoop (u : Unicode) (cs : List Char) (chunkChars : ChunkChars) (cursor : Nat) :
    List AttachmentChunkInput :=
  if hcursor : cursor < cs.length then
    have := rest_decreases u cs chunkChars hcursor
    chunkOf cs (cursor, chunkEnd u cs chunkChars.1 cursor) ::
      chunkLoop u cs chunkChars (skipSpace u cs (chunkEnd u cs chunkChars.1 cursor))
  else []
termination_by cs.length - cursor

/-- One round, by what it computes. -/
theorem chunkLoop_next {u : Unicode} {cs : List Char} {size : ChunkChars} {cursor stop next : Nat}
    (hcursor : cursor < cs.length) (hstop : chunkEnd u cs size.1 cursor = stop)
    (hnext : skipSpace u cs stop = next) :
    chunkLoop u cs size cursor = chunkOf cs (cursor, stop) :: chunkLoop u cs size next := by
  subst hstop hnext
  rw [chunkLoop, dif_pos hcursor]

/-- `chunk_attachment_text` -/
def chunkAttachmentText (u : Unicode) (text : String) (chunkChars : Int) :
    Except Exn (List AttachmentChunkInput) :=
  if hsize : chunkChars < minAttachmentChunkChars then .error .value
  else if text = "" then .ok []
  else .ok (chunkLoop u text.toList ⟨chunkChars.toNat, by omega⟩ 0)

/-- Bounds that are both missing, or in their order from the least value. -/
def boundsHold (least : Int) (first last : Json) : Bool :=
  match first, last with
  | .null, .null => true
  | .int first, .int last => decide (least ≤ first) && decide (first ≤ last)
  | _, _ => false

/-- `_validate_chunk`, of a chunk with fields of their types. -/
def validateChunk (chunk : AttachmentChunkInput) : Except Exn Unit :=
  if chunk.text = "" then .error .value
  else if !boundsHold 1 chunk.pageStart chunk.pageEnd then .error .value
  else if !boundsHold 0 chunk.charStart chunk.charEnd then .error .value
  else .ok ()

/-! ## §3. What the chunks are. -/

section Loop

variable (u : Unicode) (cs : List Char) (chunkChars : ChunkChars)

/-- **The loop tiles the text from its cursor on**; where the cursor is at no
white space, neither end of a chunk is. -/
theorem chunkLoop_tiles (cursor : Nat) :
    ∃ spans, chunkLoop u cs chunkChars cursor = spans.map (chunkOf cs) ∧
      Tiles cs u.isSpace chunkChars.1 cursor spans ∧
      (isSpaceAt u cs cursor = false → ∀ span ∈ spans,
        isSpaceAt u cs span.1 = false ∧ isSpaceAt u cs (span.2 - 1) = false) := by
  induction cursor using chunkLoop.induct u cs chunkChars with
  | case1 cursor hcursor _ ih =>
      obtain ⟨spans, hloop, htiles, hsolid⟩ := ih
      have hend := chunkEnd_bounds u cs chunkChars.pos hcursor
      have hskip := skipSpace_le u cs _ hend.2.1
      refine ⟨(cursor, chunkEnd u cs chunkChars.1 cursor) :: spans, ?_, ?_, ?_⟩
      · rw [chunkLoop, dif_pos hcursor, hloop]
        rfl
      · exact .span hend.1 hend.2.2 hskip.1 hskip.2
          (skipSpace_gap u cs (chunkEnd u cs chunkChars.1 cursor)) htiles
      · intro hstart
        rw [List.forall_mem_cons]
        exact ⟨⟨hstart, chunkEnd_solid u cs chunkChars.pos hcursor hstart⟩,
          hsolid (skipSpace_solid u cs _)⟩
  | case2 cursor hcursor =>
      refine ⟨[], ?_, .done (Nat.not_lt.1 hcursor), fun _ span hspan => nomatch hspan⟩
      rw [chunkLoop, dif_neg hcursor]
      rfl

/-- The text of a span that lies in the text. -/
theorem chunkOf_text {span : Nat × Nat} (hlt : span.1 < span.2) (hle : span.2 ≤ cs.length) :
    (chunkOf cs span).text.length = span.2 - span.1 ∧
      (chunkOf cs span).text.toList.head? = cs[span.1]? ∧
      (chunkOf cs span).text.toList.getLast? = cs[span.2 - 1]? := by
  have hlength : ((cs.drop span.1).take (span.2 - span.1)).length = span.2 - span.1 := by
    rw [List.length_take, List.length_drop]
    omega
  unfold chunkOf
  rw [String.toList_ofList]
  refine ⟨?_, ?_, ?_⟩
  · rw [String.length_ofList, hlength]
  · rw [List.head?_eq_getElem?, List.getElem?_take, if_pos (by omega), List.getElem?_drop]
    rfl
  · rw [List.getLast?_eq_getElem?, hlength, List.getElem?_take, if_pos (by omega),
      List.getElem?_drop]
    congr 1
    omega

end Loop

/-- A text that is stripped begins with no white space. -/
theorem not_isSpaceAt_of_stripped {u : Unicode} {text : String} (h : u.strip text = text) :
    isSpaceAt u text.toList 0 = false := by
  have hchars : u.stripChars text.toList = text.toList := by
    rw [u.strip_eq] at h
    rw [← String.toList_ofList (l := u.stripChars text.toList), h]
  cases hcs : text.toList with
  | nil => rfl
  | cons c cs =>
      by_contra hspace
      have hspace : u.isSpace c = true := by simpa [isSpaceAt] using hspace
      rw [hcs] at hchars
      -- stripping drops the first character, and adds none
      have hlength : (u.stripChars (c :: cs)).length ≤ cs.length := by
        unfold Platform.stripChars
        rw [List.dropWhile_cons_of_pos hspace]
        exact Nat.le_trans (List.rdropWhile_prefix _ _).length_le
          (List.dropWhile_sublist _).length_le
      rw [hchars, List.length_cons] at hlength
      omega

/-- The chunks are slices of the text at their offsets, in order and
disjoint, none empty and none too long; every character but white space is
in one of them; and a stripped text has no chunk with white space at an end. -/
structure LosesNothing (u : Unicode) (text : String) (chunkChars : Int)
    (chunks : List AttachmentChunkInput) (spans : List (Nat × Nat)) : Prop where
  slices : chunks = spans.map (chunkOf text.toList)
  within : ∀ span ∈ spans, span.1 < span.2 ∧ span.2 ≤ text.length
  ordered : spans.Pairwise fun a b => a.2 ≤ b.1
  bounded : ∀ chunk ∈ chunks, chunk.text ≠ "" ∧ (chunk.text.length : Int) ≤ chunkChars
  valid : ∀ chunk ∈ chunks, validateChunk chunk = .ok ()
  covers : ∀ i (hi : i < text.toList.length), u.isSpace text.toList[i] = false →
    ∃! span, span ∈ spans ∧ span.1 ≤ i ∧ i < span.2
  trimmed : u.strip text = text → ∀ chunk ∈ chunks,
    chunk.text.toList.head?.any u.isSpace = false ∧
      chunk.text.toList.getLast?.any u.isSpace = false

/-- **Chunking loses nothing.** -/
theorem chunkAttachmentText_losesNothing (u : Unicode) (text : String) {chunkChars : Int}
    (hsize : 256 ≤ chunkChars) :
    ∃ chunks spans, chunkAttachmentText u text chunkChars = .ok chunks ∧
      LosesNothing u text chunkChars chunks spans := by
  have hmin : ¬chunkChars < (minAttachmentChunkChars : Nat) := Int.not_lt.2 hsize
  -- The loop's invariant gives the spans; what follows reads the chunks off them.
  obtain ⟨spans, hloop, htiles, hsolid⟩ := chunkLoop_tiles u text.toList
    ⟨chunkChars.toNat, by unfold minAttachmentChunkChars; omega⟩ 0
  have hwithin : ∀ span ∈ spans, span.1 < span.2 ∧ span.2 ≤ text.toList.length :=
    fun span hspan => ⟨(htiles.within span hspan).2.1, (htiles.within span hspan).2.2.1⟩
  refine ⟨spans.map (chunkOf text.toList), spans, ?_, rfl, ?_, htiles.ordered, ?_, ?_, ?_, ?_⟩
  · unfold chunkAttachmentText
    rw [dif_neg hmin]
    by_cases hempty : text = ""
    · rw [if_pos hempty, ← hloop, chunkLoop, hempty]
      rfl
    · rw [if_neg hempty, ← hloop]
  · rw [← String.length_toList]
    exact hwithin
  · rw [List.forall_mem_map]
    -- A window is no longer than `chunk_chars`, and no chunk is empty.
    intro span hspan
    have hin := htiles.within span hspan
    have hlength := (chunkOf_text text.toList hin.2.1 hin.2.2.1).1
    have hlimit : span.2 ≤ span.1 + chunkChars.toNat := hin.2.2.2
    refine ⟨fun hempty => ?_, by omega⟩
    rw [hempty] at hlength
    have hzero : 0 = span.2 - span.1 := hlength
    omega
  · rw [List.forall_mem_map]
    -- `_validate_chunk` takes the chunk: it has text, and its bounds are those of a span.
    intro span hspan
    have hin := hwithin span hspan
    have hlength := (chunkOf_text text.toList hin.1 hin.2).1
    have hne : (chunkOf text.toList span).text ≠ "" := by
      intro hempty
      rw [hempty] at hlength
      have hzero : 0 = span.2 - span.1 := hlength
      omega
    have hbounds : boundsHold 0 (.int span.1) (.int span.2) = true := by
      unfold boundsHold
      rw [Bool.and_eq_true, decide_eq_true_eq, decide_eq_true_eq]
      omega
    unfold validateChunk
    rw [if_neg hne]
    show (if (!boundsHold 0 (.int span.1) (.int span.2)) = true then _ else _) = _
    rw [hbounds]
    rfl
  -- A character that is not a blank stands in some span.
  · exact fun i hi hchar => htiles.covers (Nat.zero_le i) hi hchar
  -- Where the text has no blank at its ends, no chunk has one at its own.
  · intro hstripped
    rw [List.forall_mem_map]
    intro span hspan
    obtain ⟨_, hhead, hlast⟩ := chunkOf_text text.toList (hwithin span hspan).1
      (hwithin span hspan).2
    rw [hhead, hlast]
    exact hsolid (not_isSpaceAt_of_stripped hstripped) span hspan

/-- Two lines: the first ends in the second half of its window, and the second
has no break. -/
def twoLines : List Char := List.replicate 200 'a' ++ '\n' :: List.replicate 300 'b'

/-- The least size of chunks. -/
def leastSize : ChunkChars := ⟨minAttachmentChunkChars, Nat.le_refl _⟩

/-- The window of the first line ends at the line break. -/
theorem chunkEnd_firstLine : chunkEnd .ascii twoLines leastSize.1 0 = 200 := by
  have hline : rfind twoLines '\n' 0 256 = 200 := by decide +kernel
  have hspace : rfind twoLines ' ' 0 256 = -1 := rfind_eq_neg_one twoLines (by decide +kernel)
  have hhard : hardEnd twoLines leastSize.1 0 = 256 := by decide +kernel
  have hcut : cutAt twoLines leastSize.1 0 = 200 := by
    simp only [cutAt, hhard, hline, hspace]
    decide +kernel
  unfold chunkEnd
  rw [hcut]
  decide +kernel

/-- The window of the second one ends where it has to. -/
theorem chunkEnd_secondLine : chunkEnd .ascii twoLines leastSize.1 201 = 457 := by
  have hline : rfind twoLines '\n' 201 457 = -1 := rfind_eq_neg_one twoLines (by decide +kernel)
  have hspace : rfind twoLines ' ' 201 457 = -1 := rfind_eq_neg_one twoLines (by decide +kernel)
  have hhard : hardEnd twoLines leastSize.1 201 = 457 := by decide +kernel
  have hcut : cutAt twoLines leastSize.1 201 = 457 := by
    simp only [cutAt, hhard, hline, hspace]
    decide +kernel
  unfold chunkEnd
  rw [hcut]
  decide +kernel

/-- The rest is the last chunk. -/
theorem chunkEnd_rest : chunkEnd .ascii twoLines leastSize.1 457 = 501 := by decide +kernel

/-- The first chunk ends at the line break, the second where its window does. -/
theorem chunkLoop_twoLines : chunkLoop .ascii twoLines leastSize 0 =
    [(0, 200), (201, 457), (457, 501)].map (chunkOf twoLines) := by
  have hlast : chunkLoop .ascii twoLines leastSize 501 = [] := by
    rw [chunkLoop, dif_neg (by decide +kernel)]
  -- the line break is skipped; after a hard end nothing is
  have hbreak : skipSpace .ascii twoLines 200 = 201 := by decide +kernel
  have hhard : skipSpace .ascii twoLines 457 = 457 := by decide +kernel
  have hend : skipSpace .ascii twoLines 501 = 501 := by decide +kernel
  rw [chunkLoop_next (by decide +kernel) chunkEnd_firstLine hbreak,
    chunkLoop_next (by decide +kernel) chunkEnd_secondLine hhard,
    chunkLoop_next (by decide +kernel) chunkEnd_rest hend, hlast]
  rfl

theorem chunkAttachmentText_losesNothing_line :
    ∃ chunks spans, chunkAttachmentText .ascii (String.ofList twoLines) 256 = .ok chunks ∧
      chunks = [(0, 200), (201, 457), (457, 501)].map (chunkOf twoLines) ∧
      LosesNothing .ascii (String.ofList twoLines) 256 chunks spans := by
  obtain ⟨chunks, spans, hchunks, hloses⟩ :=
    chunkAttachmentText_losesNothing .ascii (String.ofList twoLines) (Int.le_refl 256)
  have hcut : chunkAttachmentText .ascii (String.ofList twoLines) 256 =
      .ok ([(0, 200), (201, 457), (457, 501)].map (chunkOf twoLines)) := by
    unfold chunkAttachmentText
    rw [dif_neg (by decide), if_neg (by decide +kernel), String.toList_ofList]
    exact congrArg Except.ok chunkLoop_twoLines
  exact ⟨chunks, spans, hchunks, Except.ok.inj (hchunks.symm.trans hcut), hloses⟩

end Rpy.Attachments

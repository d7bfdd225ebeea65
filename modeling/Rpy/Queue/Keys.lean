/-
  Rpy.Queue.Keys
  ──────────────
  **THE IDEMPOTENCY KEYS OF THE LAWSUIT PIPELINE'S JOBS.**

  Every key is a fixed head and what the job is about.  No key of one kind
  is a key of another, and an acquisition key names its row and attempt.

    • `jobKey_kind`         — a key has one kind,
    • `acquireKey_inj`      — an acquisition key names one row and attempt.
-/
import Std.Data.String.ToNat
import Mathlib.Logic.Basic
import Mathlib.Tactic.ByContra

namespace Rpy.Queue

/-- The heads of the keys. -/
inductive KeyKind where
  | acquire | finalize | finalizeRepair | attachments | summary | summaryRepair
deriving Repr, DecidableEq

def KeyKind.head : KeyKind → String
  | .acquire => "judit-acquire:"
  | .finalize => "judit-finalize:"
  | .finalizeRepair => "judit-finalize-repair:"
  | .attachments => "attachments:"
  | .summary => "summary:"
  | .summaryRepair => "summary-repair:"

def jobKey (kind : KeyKind) (about : String) : String :=
  kind.head ++ about

/-- `judit-acquire:{row}:{attempt}`. -/
def acquireKey (row : String) (attempt : Nat) : String :=
  jobKey .acquire (row ++ ":" ++ attempt.repr)

/-- `judit-finalize:{request_id}`. -/
def finalizeKey (requestId : String) : String :=
  jobKey .finalize requestId

/-- `judit-finalize-repair:{request_id}:{source_id}`. -/
def finalizeRepairKey (requestId sourceId : String) : String :=
  jobKey .finalizeRepair (requestId ++ ":" ++ sourceId)

/-- `attachments:{version_id}`. -/
def attachmentsKey (versionId : String) : String :=
  jobKey .attachments versionId

/-- `summary:{version_id}`. -/
def summaryKey (versionId : String) : String :=
  jobKey .summary versionId

/-- `summary-repair:{version_id}:{request_id}`. -/
def summaryRepairKey (versionId requestId : String) : String :=
  jobKey .summaryRepair (versionId ++ ":" ++ requestId)

/-! ## §1. Kinds. -/

/-- Two heads differ at a character that both have. -/
theorem KeyKind.head_ne {k l : KeyKind} (h : k ≠ l) :
    ∃ i, i < k.head.toList.length ∧ i < l.head.toList.length ∧
      k.head.toList[i]? ≠ l.head.toList[i]? := by
  cases k <;> cases l <;> first
    | exact absurd rfl h
    | exact ⟨0, by decide⟩
    | exact ⟨6, by decide⟩
    | exact ⟨7, by decide⟩
    | exact ⟨14, by decide⟩

/-- **A key has one kind.** -/
theorem jobKey_kind {k l : KeyKind} {x y : String} (h : jobKey k x = jobKey l y) : k = l := by
  by_contra hne
  obtain ⟨i, hk, hl, hdiffer⟩ := KeyKind.head_ne hne
  have hchar := congrArg (fun s : String => s.toList[i]?) h
  unfold jobKey at hchar
  simp only [String.toList_append] at hchar
  rw [List.getElem?_append_left hk, List.getElem?_append_left hl] at hchar
  exact hdiffer hchar

/-! ## §2. Acquisition keys. -/

/-- What follows the last `:` is determined. -/
theorem eq_of_append_colon {x y : List Char} {u v : List Char} (hu : ':' ∉ u) (hv : ':' ∉ v)
    (h : x ++ ':' :: u = y ++ ':' :: v) : x = y ∧ u = v := by
  rcases List.append_eq_append_iff.1 h with ⟨w, rfl, hw⟩ | ⟨w, rfl, hw⟩
  · cases w with
    | nil => exact ⟨by simp, (List.cons.inj hw).2⟩
    | cons c w =>
        obtain ⟨rfl, hrest⟩ := List.cons.inj hw
        exact absurd (by rw [hrest]; simp) hu
  · cases w with
    | nil => exact ⟨by simp, (List.cons.inj hw).2.symm⟩
    | cons c w =>
        obtain ⟨rfl, hrest⟩ := List.cons.inj hw
        exact absurd (by rw [hrest]; simp) hv

theorem colon_notMem_repr (n : Nat) : ':' ∉ n.repr.toList := by
  intro h
  rw [Nat.toList_repr] at h
  have hdigit := Nat.isDigit_of_mem_toDigits (by decide) (by decide) h
  exact absurd hdigit (by decide)

/-- **An acquisition key names one row and one attempt.** -/
theorem acquireKey_inj {row row' : String} {n n' : Nat}
    (h : acquireKey row n = acquireKey row' n') : row = row' ∧ n = n' := by
  have hlist := congrArg String.toList h
  unfold acquireKey jobKey at hlist
  simp only [String.toList_append, List.append_assoc] at hlist
  have htail := List.append_cancel_left hlist
  obtain ⟨hrow, hattempt⟩ :=
    eq_of_append_colon (colon_notMem_repr n) (colon_notMem_repr n') htail
  exact ⟨String.toList_inj.1 hrow, Nat.repr_injective (String.toList_inj.1 hattempt)⟩

end Rpy.Queue

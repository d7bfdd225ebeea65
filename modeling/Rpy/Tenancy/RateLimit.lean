/-
  Rpy.Tenancy.RateLimit
  ─────────────────────
  **THE REQUESTS OF AN API KEY WITHIN A MINUTE**
  (`api_key_rate_limits`; `_consume_rate_limit` of `app/api_key_auth.py`).

  The requests of a key take turns at the lock of its row.  Whether a new
  window begins is asked of the clock, once the lock is there; where it
  begins is `NOW()`, the time at which the transaction began, and that may
  be a minute earlier.

    • `consumeRateLimit`       — one request,
    • `KeyHistory.step`        — the requests of a key, one after the other,
    • `Exact`                  — what a limit for each minute promises,
    • `exact_along_iff`        — the runs that keep it,
    • `retryAfter_honest_iff`  — the `Retry-After` that are long enough.

  A difference of two times is taken in microseconds; `total_seconds()` is
  that number over a million.
-/
import Rpy.Basic
import Rpy.Foundation.Machine
import Mathlib.Data.List.Basic

namespace Rpy.Tenancy

open Rpy.Foundation

/-! ## §1. One request. -/

/-- The length of a window (`elapsed >= 60`). -/
def minute : Int := 60 * microsPerSecond

/-- The calendar minute of a time. -/
def minuteOf (t : Timestamp) : Int := t / minute

/-- `date_trunc('minute', t)` -/
def dateTruncMinute (t : Timestamp) : Timestamp := minuteOf t * minute

/-- An `api_key_rate_limits` row. -/
structure RateLimit where
  windowStartedAt : Timestamp
  requestCount : Nat
deriving Repr, DecidableEq

/-- A request of the key: when its transaction began (`NOW()`), and what the
clock says when it has the lock (`datetime.now`). -/
structure Arrival where
  began : Timestamp
  read : Timestamp
  began_le_read : began ≤ read
deriving Repr, DecidableEq

/-- What `_consume_rate_limit` returns, and the row it leaves. -/
structure Consumed where
  remaining : Nat
  retryAfter : Nat
  row : RateLimit
deriving Repr, DecidableEq

/-- The row under the lock.  `INSERT … ON CONFLICT DO NOTHING` comes first,
with the default of the column. -/
def lockedRow (row : Option RateLimit) (a : Arrival) : RateLimit :=
  row.getD { windowStartedAt := dateTruncMinute a.began, requestCount := 0 }

/-- `60 - elapsed` -/
def windowLeft (row : RateLimit) (a : Arrival) : Int :=
  minute - (a.read - row.windowStartedAt)

def consumeRateLimit (limit : Nat) (stored : Option RateLimit) (a : Arrival) : Consumed :=
  let row := lockedRow stored a
  if windowLeft row a ≤ 0 then
    { remaining := limit - 1
      retryAfter := 0
      row := { windowStartedAt := dateTruncMinute a.began, requestCount := 1 } }
  else if limit ≤ row.requestCount then
    { remaining := 0
      retryAfter := max 1 (windowLeft row a / microsPerSecond).toNat
      row }
  else
    { remaining := limit - (row.requestCount + 1)
      retryAfter := 0
      row := { row with requestCount := row.requestCount + 1 } }

/-- Is the request answered with 429 (`if retry_after`)? -/
def Consumed.Denied (c : Consumed) : Prop := c.retryAfter ≠ 0

instance (c : Consumed) : Decidable c.Denied := inferInstanceAs (Decidable (_ ≠ _))

section Request

variable {limit : Nat} {stored : Option RateLimit} {a : Arrival}

theorem consume_opens (h : windowLeft (lockedRow stored a) a ≤ 0) :
    consumeRateLimit limit stored a =
      { remaining := limit - 1, retryAfter := 0, row := ⟨dateTruncMinute a.began, 1⟩ } :=
  if_pos h

theorem consume_denies (h : ¬windowLeft (lockedRow stored a) a ≤ 0)
    (hfull : limit ≤ (lockedRow stored a).requestCount) :
    consumeRateLimit limit stored a =
      { remaining := 0
        retryAfter := max 1 (windowLeft (lockedRow stored a) a / microsPerSecond).toNat
        row := lockedRow stored a } :=
  (if_neg h).trans (if_pos hfull)

theorem consume_counts (h : ¬windowLeft (lockedRow stored a) a ≤ 0)
    (hroom : ¬limit ≤ (lockedRow stored a).requestCount) :
    consumeRateLimit limit stored a =
      { remaining := limit - ((lockedRow stored a).requestCount + 1)
        retryAfter := 0
        row := { lockedRow stored a with
          requestCount := (lockedRow stored a).requestCount + 1 } } :=
  (if_neg h).trans (if_neg hroom)

/-- **A request is denied in a window that is full.** -/
theorem denied_iff : (consumeRateLimit limit stored a).Denied ↔
    0 < windowLeft (lockedRow stored a) a ∧ limit ≤ (lockedRow stored a).requestCount := by
  by_cases hopen : windowLeft (lockedRow stored a) a ≤ 0
  · rw [consume_opens hopen]
    exact ⟨fun h => absurd rfl h, fun h => absurd h.1 (by omega)⟩
  by_cases hfull : limit ≤ (lockedRow stored a).requestCount
  · rw [consume_denies hopen hfull]
    refine ⟨fun _ => ⟨by omega, hfull⟩, fun _ => ?_⟩
    show max 1 _ ≠ 0
    omega
  · rw [consume_counts hopen hfull]
    exact ⟨fun h => absurd rfl h, fun h => absurd h.2 hfull⟩

/-- A denied request leaves the row as it found it. -/
theorem row_of_denied (h : (consumeRateLimit limit stored a).Denied) :
    (consumeRateLimit limit stored a).row = lockedRow stored a := by
  obtain ⟨hleft, hfull⟩ := denied_iff.1 h
  rw [consume_denies (by omega) hfull]

end Request

/-! ## §2. `Retry-After`. -/

/-- **A `Retry-After` is long enough when the window has whole seconds left, or
less than one.**  `int()` cuts off the fraction of a second, and `max` puts back
only what is all of it. -/
theorem retryAfter_honest_iff (limit : Nat) (stored : Option RateLimit) (a : Arrival)
    (hdenied : (consumeRateLimit limit stored a).Denied) :
    (∀ b : Arrival,
        a.read + (consumeRateLimit limit stored a).retryAfter * microsPerSecond ≤ b.read →
          ¬(consumeRateLimit limit (some (consumeRateLimit limit stored a).row) b).Denied) ↔
      microsPerSecond ∣ windowLeft (lockedRow stored a) a ∨
        windowLeft (lockedRow stored a) a < microsPerSecond := by
  obtain ⟨hleft, hfull⟩ := denied_iff.1 hdenied
  rw [row_of_denied hdenied]
  have hretry : (consumeRateLimit limit stored a).retryAfter =
      max 1 (windowLeft (lockedRow stored a) a / microsPerSecond).toNat := by
    rw [consume_denies (by omega) hfull]
  generalize lockedRow stored a = row at *
  -- a later request is denied while the window lasts
  have hlater : ∀ b : Arrival, (consumeRateLimit limit (some row) b).Denied ↔
      ¬windowLeft row a ≤ b.read - a.read := by
    intro b
    have hleft : windowLeft row b = windowLeft row a - (b.read - a.read) := by
      unfold windowLeft
      omega
    rw [denied_iff, show lockedRow (some row) b = row from rfl, hleft]
    constructor
    · intro h
      omega
    · intro h
      exact ⟨by omega, hfull⟩
  have hiff : (∀ b : Arrival,
      a.read + (consumeRateLimit limit stored a).retryAfter * microsPerSecond ≤ b.read →
        ¬(consumeRateLimit limit (some row) b).Denied) ↔
      windowLeft row a ≤ (consumeRateLimit limit stored a).retryAfter * microsPerSecond := by
    constructor
    · intro h
      have hat := h ⟨_, _, Int.le_refl _⟩ (Int.le_refl _)
      rw [hlater] at hat
      dsimp only at hat
      omega
    · intro h b hb
      have hlong := Int.sub_nonneg_of_le hb
      rw [hlater]
      omega
  rw [hiff, hretry]
  unfold microsPerSecond
  omega

/-- A request ten seconds after midnight of some day. -/
def tenSeconds : Arrival := ⟨10000000, 10000000, by decide⟩

/-- One that is half a second later. -/
def halfSecond : Arrival := ⟨10500000, 10500000, by decide⟩

/-- **A client that waits as long as it is told may be denied again.** -/
theorem not_retryAfter_honest :
    ¬ ∀ (limit : Nat) (stored : Option RateLimit) (a : Arrival),
      (consumeRateLimit limit stored a).Denied → ∀ b : Arrival,
        a.read + (consumeRateLimit limit stored a).retryAfter * microsPerSecond ≤ b.read →
          ¬(consumeRateLimit limit (some (consumeRateLimit limit stored a).row) b).Denied := by
  intro h
  exact h 1 (some ⟨0, 1⟩) halfSecond (by decide) ⟨59500000, 59500000, by decide⟩ (by decide)
    (by decide)

/-- One at the end of the first minute. -/
def fullMinute : Arrival := ⟨60000000, 60000000, by decide⟩

/-- At ten seconds, the fifty that are left are all told. -/
theorem retryAfter_honest_tenSeconds :
    ¬(consumeRateLimit 1 (some (consumeRateLimit 1 (some ⟨0, 1⟩) tenSeconds).row)
      fullMinute).Denied :=
  (retryAfter_honest_iff 1 (some ⟨0, 1⟩) tenSeconds (by decide)).2 (.inl (by decide)) fullMinute
    (by decide)

/-! ## §3. The requests of a key. -/

/-- A request with its answer, and the row before it. -/
structure Answered where
  arrival : Arrival
  before : Option RateLimit
  consumed : Consumed
deriving Repr, DecidableEq

/-- The row of a key, and its requests so far, the oldest first. -/
structure KeyHistory where
  row : Option RateLimit := none
  answered : List Answered := []
deriving Repr, DecidableEq

/-- The next request has the lock: the clock does not run backwards. -/
def KeyHistory.step (limit : Nat) (s : KeyHistory) (a : Arrival) : Option KeyHistory :=
  if ∀ b ∈ s.answered, b.arrival.read ≤ a.read then
    some
      { row := some (consumeRateLimit limit s.row a).row
        answered := s.answered ++ [⟨a, s.row, consumeRateLimit limit s.row a⟩] }
  else none

/-- The calendar minute in which a request got the lock. -/
def Answered.minute (b : Answered) : Int := minuteOf b.arrival.read

/-- How many requests of a minute were accepted. -/
def acceptedIn (m : Int) (answered : List Answered) : Nat :=
  answered.countP fun b => !decide b.consumed.Denied && b.minute == m

/-- **The limit is one for each calendar minute.** -/
structure Exact (limit : Nat) (s : KeyHistory) : Prop where
  atMost : ∀ m, acceptedIn m s.answered ≤ limit
  denied : ∀ b ∈ s.answered, b.consumed.Denied → b.before = some b.consumed.row
  remaining : ∀ (front rest : List Answered) (b : Answered), s.answered = front ++ b :: rest →
    ¬b.consumed.Denied → b.consumed.remaining + acceptedIn b.minute (front ++ [b]) = limit

/-- The first request of a minute. -/
def firstOf (m : Int) (answered : List Answered) : Option Answered :=
  answered.find? fun b => b.minute == m

/-- The transaction of the first request of the minute, if there is one
already, began in that minute too. -/
def OpenedInTime (s : KeyHistory) (a : Arrival) : Prop :=
  ∀ b ∈ firstOf (minuteOf a.read) s.answered, minuteOf b.arrival.began = b.minute

section Minutes

theorem minuteOf_le {t t' : Timestamp} (h : t ≤ t') : minuteOf t ≤ minuteOf t' :=
  Int.ediv_le_ediv (by decide) h

/-- A window that begins with a minute is over when the minute is. -/
theorem windowLeft_nonpos_iff {row : RateLimit} {a : Arrival} {t : Timestamp}
    (h : row.windowStartedAt = dateTruncMinute t) :
    windowLeft row a ≤ 0 ↔ minuteOf t < minuteOf a.read := by
  unfold windowLeft
  rw [h]
  unfold dateTruncMinute minuteOf minute microsPerSecond
  omega

theorem acceptedIn_append (m : Int) (answered : List Answered) (b : Answered) :
    acceptedIn m (answered ++ [b]) =
      acceptedIn m answered + if ¬b.consumed.Denied ∧ b.minute = m then 1 else 0 := by
  unfold acceptedIn
  rw [List.countP_append, List.countP_singleton]
  simp

theorem acceptedIn_of_firstOf {m : Int} {answered : List Answered}
    (h : firstOf m answered = none) : acceptedIn m answered = 0 := by
  refine List.countP_eq_zero.2 fun b hb hcount => ?_
  exact List.find?_eq_none.1 h b hb ((Bool.and_eq_true _ _).mp hcount).2

theorem firstOf_minute {m : Int} {answered : List Answered} {first : Answered}
    (h : firstOf m answered = some first) : first.minute = m :=
  eq_of_beq (List.find?_some (p := fun b : Answered => b.minute == m) h)

/-- The first request of a minute stays it. -/
theorem firstOf_append (m : Int) (answered : List Answered) (b : Answered) :
    firstOf m (answered ++ [b]) =
      (firstOf m answered).or (if b.minute = m then some b else none) := by
  unfold firstOf
  rw [List.find?_append, List.find?_singleton]
  simp

end Minutes

/-- One request more: what is to be shown of it. -/
theorem Exact.append {limit : Nat} {s : KeyHistory} {b : Answered} {row : Option RateLimit}
    (h : Exact limit s)
    (hmost : acceptedIn b.minute (s.answered ++ [b]) ≤ limit)
    (hdenied : b.consumed.Denied → b.before = some b.consumed.row)
    (hremaining : ¬b.consumed.Denied →
      b.consumed.remaining + acceptedIn b.minute (s.answered ++ [b]) = limit) :
    Exact limit { row, answered := s.answered ++ [b] } where
  atMost m := by
    by_cases hm : b.minute = m
    · rw [← hm]
      exact hmost
    · show acceptedIn m (s.answered ++ [b]) ≤ limit
      rw [acceptedIn_append, if_neg fun hand => hm hand.2]
      exact h.atMost m
  denied c hc := by
    rcases List.mem_append.1 hc with hc | hc
    · exact h.denied c hc
    · rw [List.mem_singleton.1 hc]
      exact hdenied
  remaining front rest c hsplit := by
    rcases List.eq_nil_or_concat rest with rfl | ⟨rest, d, rfl⟩
    · obtain ⟨rfl, hsame⟩ := List.append_inj' hsplit rfl
      obtain rfl := (List.cons.inj hsame).1
      exact hremaining
    · have hlonger : s.answered ++ [b] = (front ++ c :: rest) ++ [d] := by
        rw [show s.answered ++ [b] = _ from hsplit]
        simp
      exact h.remaining front rest c (List.append_inj' hlonger rfl).1

/-- The row counts the requests of the newest minute, in a window that begins
with the transaction of the first of them.  If that is too early, the request
is the only one. -/
structure Counts (s : KeyHistory) (b first : Answered) (w : RateLimit) : Prop where
  newest : ∀ c ∈ s.answered, c.arrival.read ≤ b.arrival.read
  opened : firstOf b.minute s.answered = some first
  row : s.row = some w
  window : w.windowStartedAt = dateTruncMinute first.arrival.began
  count : w.requestCount = acceptedIn b.minute s.answered
  alone : minuteOf first.arrival.began = b.minute ∨ w.requestCount = 1

/-- What holds along the run of a key. -/
structure Counted (limit : Nat) (s : KeyHistory) : Prop where
  exact : Exact limit s
  start : s.answered = [] → s.row = none
  counts : ∀ front b, s.answered = front ++ [b] → ∃ first w, Counts s b first w

section Steps

variable {limit : Nat} {s : KeyHistory} {a : Arrival}

theorem counted_init : Counted limit {} where
  exact := ⟨fun _ => Nat.zero_le _, fun _ h => absurd h List.not_mem_nil, fun front _ _ h =>
    absurd h.symm (List.append_ne_nil_of_right_ne_nil front (List.cons_ne_nil _ _))⟩
  start _ := rfl
  counts front b h := absurd h.symm (List.append_ne_nil_of_right_ne_nil front
    (List.cons_ne_nil b []))

/-- **The first request of a minute opens its window.** -/
theorem Counted.opens (h : Counted limit s) (hlimit : 1 ≤ limit)
    (hreads : ∀ b ∈ s.answered, b.arrival.read ≤ a.read)
    (hfirst : firstOf (minuteOf a.read) s.answered = none) :
    consumeRateLimit limit s.row a =
      { remaining := limit - 1, retryAfter := 0, row := ⟨dateTruncMinute a.began, 1⟩ } := by
  rcases List.eq_nil_or_concat s.answered with hnil | ⟨front, b, hsplit⟩
  · rw [h.start hnil]
    by_cases hopen : windowLeft (lockedRow none a) a ≤ 0
    · exact consume_opens hopen
    · exact consume_counts hopen (by show ¬limit ≤ 0; omega)
  · obtain ⟨first, w, hcounts⟩ := h.counts front b (by rw [hsplit, List.concat_eq_append])
    have hmem : b ∈ s.answered := by
      rw [hsplit, List.concat_eq_append]
      exact List.mem_append_right _ List.mem_cons_self
    have hle : b.minute ≤ minuteOf a.read := minuteOf_le (hreads b hmem)
    have hne : b.minute ≠ minuteOf a.read := fun heq =>
      List.find?_eq_none.1 hfirst b hmem (beq_iff_eq.2 heq)
    have hbegan : minuteOf first.arrival.began ≤ b.minute := by
      rw [← firstOf_minute hcounts.opened]
      exact minuteOf_le first.arrival.began_le_read
    rw [hcounts.row]
    exact consume_opens ((windowLeft_nonpos_iff hcounts.window).2 (by omega))

/-- The row a later request of a minute finds. -/
theorem Counted.finds (h : Counted limit s)
    (hreads : ∀ b ∈ s.answered, b.arrival.read ≤ a.read) {first : Answered}
    (hfirst : firstOf (minuteOf a.read) s.answered = some first) :
    ∃ b w, b.minute = minuteOf a.read ∧ Counts s b first w := by
  have hmem : first ∈ s.answered := List.mem_of_find?_eq_some hfirst
  rcases List.eq_nil_or_concat s.answered with hnil | ⟨front, b, hsplit⟩
  · rw [hnil] at hmem
    cases hmem
  · obtain ⟨first', w, hcounts⟩ := h.counts front b (by rw [hsplit, List.concat_eq_append])
    have hb : b ∈ s.answered := by
      rw [hsplit, List.concat_eq_append]
      exact List.mem_append_right _ List.mem_cons_self
    have hminute : b.minute = minuteOf a.read := by
      have hle : b.minute ≤ minuteOf a.read := minuteOf_le (hreads b hb)
      have hge : first.minute ≤ b.minute := minuteOf_le (hcounts.newest first hmem)
      have hsame := firstOf_minute hfirst
      omega
    have hagain := hcounts.opened
    rw [hminute, hfirst] at hagain
    obtain rfl := Option.some.inj hagain
    exact ⟨b, w, hminute, hcounts⟩

theorem step_eq_some {s' : KeyHistory} (h : s.step limit a = some s') :
    (∀ b ∈ s.answered, b.arrival.read ≤ a.read) ∧
      s' = { row := some (consumeRateLimit limit s.row a).row
             answered := s.answered ++ [⟨a, s.row, consumeRateLimit limit s.row a⟩] } := by
  unfold KeyHistory.step at h
  split at h
  · rename_i hreads
    exact ⟨hreads, (Option.some.inj h).symm⟩
  · cases h

/-- The newest request has the latest reading. -/
theorem newest_append (hreads : ∀ b ∈ s.answered, b.arrival.read ≤ a.read) {b : Answered}
    (hb : b.arrival = a) : ∀ c ∈ s.answered ++ [b], c.arrival.read ≤ b.arrival.read := by
  intro c hc
  rw [hb]
  rcases List.mem_append.1 hc with hc | hc
  · exact hreads c hc
  · exact Int.le_of_eq (by rw [List.mem_singleton.1 hc, hb])

/-- A step whose request is what the row now counts. -/
theorem Counted.append (b first : Answered) (w : RateLimit) (hexact : Exact limit
      { row := some w, answered := s.answered ++ [b] })
    (hcounts : Counts { row := some w, answered := s.answered ++ [b] } b first w) :
    Counted limit { row := some w, answered := s.answered ++ [b] } where
  exact := hexact
  start hnil := absurd hnil (List.append_ne_nil_of_right_ne_nil _ (List.cons_ne_nil b []))
  counts front c hsplit := by
    obtain rfl := (List.cons.inj (List.append_inj' hsplit rfl).2).1
    exact ⟨first, w, hcounts⟩

/-- The answer to a request that opens a window. -/
def opening (limit : Nat) (s : KeyHistory) (a : Arrival) : Answered :=
  ⟨a, s.row, { remaining := limit - 1, retryAfter := 0, row := ⟨dateTruncMinute a.began, 1⟩ }⟩

/-- A request that opens the window of its minute is counted. -/
theorem Counted.step_opens (hlimit : 1 ≤ limit) (h : Counted limit s)
    (hreads : ∀ b ∈ s.answered, b.arrival.read ≤ a.read)
    (hfirst : firstOf (minuteOf a.read) s.answered = none) :
    Counted limit
      { row := some ⟨dateTruncMinute a.began, 1⟩, answered := s.answered ++ [opening limit s a] } := by
  have hone : acceptedIn (minuteOf a.read) (s.answered ++ [opening limit s a]) = 1 := by
    rw [acceptedIn_append, acceptedIn_of_firstOf hfirst, Nat.zero_add]
    exact if_pos ⟨fun hdenied => hdenied rfl, rfl⟩
  have hopened : firstOf (minuteOf a.read) (s.answered ++ [opening limit s a]) =
      some (opening limit s a) := by
    rw [firstOf_append, hfirst, Option.none_or]
    exact if_pos rfl
  refine Counted.append (opening limit s a) (opening limit s a) ⟨dateTruncMinute a.began, 1⟩
    (h.exact.append (Nat.le_trans (Nat.le_of_eq hone) hlimit) (fun hdenied => absurd rfl hdenied)
      fun _ => ?_)
    ⟨newest_append hreads rfl, hopened, rfl, rfl, hone.symm, .inr rfl⟩
  show limit - 1 + acceptedIn (minuteOf a.read) _ = limit
  rw [hone]
  omega

/-- A later request of the minute is counted, while there is room. -/
theorem Counted.step_counts (h : Counted limit s)
    (hreads : ∀ b ∈ s.answered, b.arrival.read ≤ a.read) {b first : Answered} {w : RateLimit}
    (hminute : b.minute = minuteOf a.read) (hcounts : Counts s b first w)
    (hbegan : minuteOf first.arrival.began = minuteOf a.read) {c : Consumed}
    (hwindow : c.row.windowStartedAt = w.windowStartedAt)
    (hcount : (c.Denied ∧ c.row = w) ∨ (¬c.Denied ∧ w.requestCount < limit ∧
      c.row.requestCount = w.requestCount + 1 ∧ c.remaining = limit - (w.requestCount + 1))) :
    Counted limit { row := some c.row, answered := s.answered ++ [⟨a, s.row, c⟩] } := by
  have hopened : firstOf (minuteOf a.read) (s.answered ++ [⟨a, s.row, c⟩]) = some first := by
    rw [firstOf_append, ← hminute, hcounts.opened, Option.some_or]
  have hbefore : w.requestCount = acceptedIn (minuteOf a.read) s.answered := by
    rw [hcounts.count, hminute]
  have hmost := h.exact.atMost (minuteOf a.read)
  have hafter : c.row.requestCount =
      acceptedIn (minuteOf a.read) (s.answered ++ [⟨a, s.row, c⟩]) := by
    rw [acceptedIn_append, ← hbefore]
    rcases hcount with ⟨hdenied, hrow⟩ | ⟨haccepted, -, hmore, -⟩
    · rw [if_neg fun hand => hand.1 hdenied, hrow]
      rfl
    · rw [if_pos ⟨haccepted, rfl⟩, hmore]
  refine .append ⟨a, s.row, c⟩ first c.row (h.exact.append ?_ ?_ ?_)
    ⟨newest_append hreads rfl, hopened, rfl, hwindow.trans hcounts.window, hafter, .inl hbegan⟩
  · show acceptedIn (minuteOf a.read) _ ≤ limit
    rw [← hafter]
    rcases hcount with ⟨-, hrow⟩ | ⟨-, hroom, hmore, -⟩
    · rw [hrow]
      omega
    · omega
  · intro hdenied
    rcases hcount with ⟨-, hrow⟩ | ⟨haccepted, -⟩
    · show s.row = some c.row
      rw [hrow, hcounts.row]
    · exact absurd hdenied haccepted
  · intro haccepted
    show c.remaining + acceptedIn (minuteOf a.read) _ = limit
    rw [← hafter]
    rcases hcount with ⟨hdenied, -⟩ | ⟨-, hroom, hmore, hremaining⟩
    · exact absurd hdenied haccepted
    · omega

/-- **A request keeps the count** if the first of its minute began in it. -/
theorem Counted.step (hlimit : 1 ≤ limit) {s' : KeyHistory} (h : Counted limit s)
    (hok : OpenedInTime s a) (hstep : s.step limit a = some s') : Counted limit s' := by
  obtain ⟨hreads, rfl⟩ := step_eq_some hstep
  cases hfirst : firstOf (minuteOf a.read) s.answered with
  | none =>
      rw [h.opens hlimit hreads hfirst]
      exact h.step_opens hlimit hreads hfirst
  | some first =>
      obtain ⟨b, w, hminute, hcounts⟩ := h.finds hreads hfirst
      have hbegan : minuteOf first.arrival.began = minuteOf a.read :=
        (hok first hfirst).trans (firstOf_minute hfirst)
      have hlocked : lockedRow s.row a = w := by
        rw [hcounts.row]
        rfl
      have hopen : ¬windowLeft (lockedRow s.row a) a ≤ 0 := by
        rw [hlocked, windowLeft_nonpos_iff hcounts.window]
        omega
      by_cases hfull : limit ≤ (lockedRow s.row a).requestCount
      · have hdenied : (consumeRateLimit limit s.row a).Denied := denied_iff.2 ⟨by omega, hfull⟩
        have hrow := (row_of_denied hdenied).trans hlocked
        exact h.step_counts hreads hminute hcounts hbegan (by rw [hrow]) (.inl ⟨hdenied, hrow⟩)
      · rw [consume_counts hopen hfull, hlocked]
        rw [hlocked] at hfull
        exact h.step_counts hreads hminute hcounts hbegan rfl
          (.inr ⟨fun hdenied => hdenied rfl, by omega, rfl, rfl⟩)

/-- **A request whose minute was opened too early is one too many.** -/
theorem Counted.not_exact {s' : KeyHistory} (h : Counted limit s)
    (hbad : ¬OpenedInTime s a) (hstep : s.step limit a = some s') : ¬Exact limit s' := by
  obtain ⟨hreads, rfl⟩ := step_eq_some hstep
  obtain ⟨first, hfirst, hearly⟩ : ∃ first, firstOf (minuteOf a.read) s.answered = some first ∧
      minuteOf first.arrival.began ≠ first.minute := by
    by_contra hnone
    exact hbad fun b hb => by_contra fun hne => hnone ⟨b, hb, hne⟩
  obtain ⟨b, w, hminute, hcounts⟩ := h.finds hreads hfirst
  have hsame := firstOf_minute hfirst
  have hle : minuteOf first.arrival.began ≤ first.minute := minuteOf_le first.arrival.began_le_read
  have halone : w.requestCount = 1 := hcounts.alone.resolve_left (by omega)
  have hopen : windowLeft (lockedRow s.row a) a ≤ 0 := by
    rw [hcounts.row]
    exact (windowLeft_nonpos_iff hcounts.window).2 (by omega)
  intro hexact
  have hremaining := hexact.remaining s.answered [] _ rfl
    (by rw [consume_opens hopen]; exact fun hdenied => hdenied rfl)
  rw [acceptedIn_append, consume_opens hopen, if_pos ⟨fun hdenied => hdenied rfl, rfl⟩] at hremaining
  change limit - 1 + (acceptedIn (minuteOf a.read) s.answered + 1) = limit at hremaining
  rw [← hminute, ← hcounts.count, halone] at hremaining
  omega

end Steps

/-- **The limit is exact along the runs in which no minute is opened by a
transaction of an earlier one**, unless its request stays the only one. -/
theorem exact_along_iff (limit : Nat) (hlimit : 1 ≤ limit) (arrivals : List Arrival) :
    Along (KeyHistory.step limit) (Exact limit) {} arrivals ↔
      Guarded (KeyHistory.step limit) OpenedInTime {} arrivals :=
  along_iff_guarded (Counted limit) counted_init
    (fun _ _ _ h hok hstep => h.step hlimit hok hstep) (fun _ h => h.exact)
    (fun _ _ _ h hbad hstep => h.not_exact hbad hstep) arrivals

instance (s : KeyHistory) (a : Arrival) : Decidable (OpenedInTime s a) :=
  inferInstanceAs (Decidable (∀ b ∈ firstOf (minuteOf a.read) s.answered, _ = _))

/-- Three requests, none of which waited over the end of a minute. -/
def promptRequests : List Arrival :=
  [⟨1000000, 1000000, by decide⟩, ⟨58000000, 59000000, by decide⟩,
    ⟨60100000, 60500000, by decide⟩]

theorem exact_along_promptRequests :
    Along (KeyHistory.step 1) (Exact 1) {} promptRequests :=
  (exact_along_iff 1 (by decide) promptRequests).2 (by decide)

/-- The second of them began at the end of a minute, and got the lock in the
next. -/
def waitingRequests : List Arrival :=
  [⟨0, 1000000, by decide⟩, ⟨59000000, 60500000, by decide⟩, ⟨60600000, 60700000, by decide⟩]

/-- What the key has after them. -/
def waitingHistory : KeyHistory :=
  ((run (KeyHistory.step 1) {} waitingRequests).get (by decide))

/-- **A limit of one request lets two of a minute pass.** -/
theorem not_exact_waitingRequests :
    ¬ ∀ (limit : Nat), 1 ≤ limit → ∀ arrivals : List Arrival,
      Along (KeyHistory.step limit) (Exact limit) {} arrivals := by
  intro h
  have hexact : Exact 1 waitingHistory :=
    (h 1 (by decide) waitingRequests).last (Option.some_get _).symm
  exact absurd (hexact.atMost 1) (by decide)

end Rpy.Tenancy

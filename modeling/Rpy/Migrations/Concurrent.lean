/-
  Rpy.Migrations.Concurrent
  ─────────────────────────
  **MIGRATIONS THAT RUN AT THE SAME TIME.**

  Each deployment runs `migrate` on a connection of its own.  The connections
  take one advisory lock, statement by statement they interleave, and each can
  be lost at any moment: its open transaction is then rolled back and its lock
  released.

    • `step`               — the next statement of a connection,
    • `Consistent`         — what the connections rely on,
    • `migrations_safe`    — every file applied once, by whoever applies it,
    • `release_applied`    — the schema is that of a prefix of the release,
    • `released_of_resolved` — so it is for the files that `resolve_migrations`
                             finds in directories that grow,
    • `changed_file_stops` — a file that changed is not passed,
    • `migrate_alone`      — a connection by itself does what `migrate` does.

  `app/migrations.py`.
-/
import Rpy.Foundation.Machine
import Rpy.Migrations.Ledger
import Mathlib.Logic.Function.Basic

namespace Rpy.Migrations

open Rpy.Foundation

/-! ## §1. Connections. -/

/-- Where a connection stands in `migrate`. -/
inductive Phase (S : Type) where
  /-- `pg_advisory_lock` has not returned -/
  | waiting
  /-- before `CREATE TABLE IF NOT EXISTS schema_migrations` -/
  | creating
  /-- before the `SELECT` for the first of the files that are left -/
  | checking (left : List Migration)
  /-- in the transaction of a file, before its statements -/
  | executing (path : Migration) (left : List Migration)
  /-- before the `INSERT`, the statements being made -/
  | inserting (path : Migration) (left : List Migration) (schema : S)
  /-- before the `COMMIT` -/
  | committing (path : Migration) (left : List Migration) (schema : S)
  /-- before `pg_advisory_unlock` -/
  | unlocking (outcome : Except MigrateError Unit)
  /-- `migrate` returned, or raised -/
  | closed (outcome : Except MigrateError Unit)
  /-- the connection was lost -/
  | lost

/-- A connection, and the files of its release in their order. -/
structure Connection (S : Type) where
  paths : List Migration
  phase : Phase S := .waiting

/-- The database, the holder of `MIGRATION_LOCK_KEY`, and the connections by
their numbers. -/
structure System (S : Type) where
  db : Database S
  holder : Option Nat := none
  connections : Nat → Option (Connection S) := fun _ => none

/-- What can happen. -/
inductive Event where
  /-- a deployment with these files connects -/
  | connect (id : Nat) (paths : List Migration)
  /-- the connection goes on -/
  | proceed (id : Nat)
  /-- the next statement raises, for a reason of its own -/
  | raise (id : Nat) (message : String)
  /-- the connection is lost -/
  | lose (id : Nat)

/-- The files of a deployment that connects. -/
def Event.paths : Event → List Migration
  | .connect _ paths => paths
  | _ => []

section Steps

variable {S : Type}

def Phase.holdsLock : Phase S → Bool
  | .waiting | .closed _ | .lost => false
  | _ => true

/-- The connection `id` in a phase. -/
def System.at (s : System S) (id : Nat) (c : Connection S) (phase : Phase S) : System S :=
  { s with connections := Function.update s.connections id (some { c with phase }) }

theorem connections_at_self (s : System S) (id : Nat) (c : Connection S) (phase : Phase S) :
    (s.at id c phase).connections id = some { c with phase } :=
  Function.update_self ..

theorem connections_at_of_ne (s : System S) {id other : Nat} (c : Connection S) (phase : Phase S)
    (h : other ≠ id) : (s.at id c phase).connections other = s.connections other :=
  Function.update_of_ne h ..

/-- The next statement of a connection. -/
def System.proceed (exec : S → String → Except String S) (s : System S) (id : Nat)
    (c : Connection S) : Option (System S) :=
  match c.phase with
  | .waiting =>
      if s.holder = none then some { s.at id c .creating with holder := some id } else none
  | .creating => some { s.at id c (.checking c.paths) with db := s.db.createLedger }
  | .checking [] => some (s.at id c (.unlocking (.ok ())))
  | .checking (path :: left) =>
      match s.db.recorded path.name with
      | some recorded =>
          if recorded ≠ checksum path.sql then
            some (s.at id c (.unlocking (.error (driftError path))))
          else some (s.at id c (.checking left))
      | none => some (s.at id c (.executing path left))
  | .executing path left =>
      match exec s.db.schema path.sql with
      | .error message => some (s.at id c (.unlocking (.error (.sql message))))
      | .ok schema => some (s.at id c (.inserting path left schema))
  | .inserting path left schema =>
      if (s.db.recorded path.name).isSome then
        some (s.at id c (.unlocking (.error duplicateError)))
      else some (s.at id c (.committing path left schema))
  | .committing path left schema =>
      some { s.at id c (.checking left) with
        db := { schema, ledger := some (s.db.rows ++ [path.row]) } }
  | .unlocking outcome => some { s.at id c (.closed outcome) with holder := none }
  | .closed _ | .lost => none

/-- The step of an event. -/
def step (exec : S → String → Except String S) (s : System S) : Event → Option (System S)
  | .connect id paths =>
      if (s.connections id).isNone then some (s.at id { paths } .waiting) else none
  | .proceed id => (s.connections id).bind (s.proceed exec id)
  | .raise id message => (s.connections id).bind fun c =>
      -- `finally` releases the lock, where it was taken
      if c.phase.holdsLock then some (s.at id c (.unlocking (.error (.environment message))))
      else if c.phase matches .waiting then
        some (s.at id c (.closed (.error (.environment message))))
      else none
  | .lose id => (s.connections id).bind fun c =>
      if c.phase matches .closed _ then none
      else some { s.at id c .lost with
        holder := if s.holder = some id then none else s.holder }

end Steps

/-! ## §2. What the connections rely on. -/

section Invariant

variable {S : Type} {exec : S → String → Except String S}

/-- The files before `left` are recorded as the connection has them. -/
def Passed (db : Database S) (paths left : List Migration) : Prop :=
  ∃ done, paths = done ++ left ∧ ∀ path ∈ done, path.row ∈ db.rows

/-- What is known where a connection stands. -/
def Knows (exec : S → String → Except String S) (db : Database S) (paths : List Migration) :
    Phase S → Prop
  | .checking left => Passed db paths left
  | .executing path left => Passed db paths (path :: left) ∧ db.recorded path.name = none
  | .inserting path left schema | .committing path left schema =>
      Passed db paths (path :: left) ∧ db.recorded path.name = none ∧
        exec db.schema path.sql = .ok schema
  | .unlocking (.ok ()) | .closed (.ok ()) => Passed db paths []
  | _ => True

/-- **What every step keeps**: the ledger tells what was applied, the lock has
one holder, and each connection knows what it relies on. -/
structure Consistent (exec : S → String → Except String S) (db₀ : Database S) (s : System S) :
    Prop where
  history : ∃ executed, Applied exec db₀ executed s.db
  lock : ∀ id c, s.connections id = some c → (c.phase.holdsLock = true ↔ s.holder = some id)
  held : ∀ id, s.holder = some id → (s.connections id).isSome = true
  knows : ∀ id c, s.connections id = some c → Knows exec s.db c.paths c.phase

variable {db₀ db db' : Database S} {s s' : System S} {paths : List Migration}

theorem Passed.mono {left : List Migration} (hrows : ∀ row ∈ db.rows, row ∈ db'.rows)
    (h : Passed db paths left) : Passed db' paths left := by
  obtain ⟨done, hpaths, hdone⟩ := h
  exact ⟨done, hpaths, fun path hpath => hrows _ (hdone path hpath)⟩

/-- One more file is passed. -/
theorem Passed.next {path : Migration} {left : List Migration} (h : Passed db paths (path :: left))
    (hrow : path.row ∈ db.rows) : Passed db paths left := by
  obtain ⟨done, rfl, hdone⟩ := h
  refine ⟨done ++ [path], by simp, fun other hother => ?_⟩
  rcases List.mem_append.1 hother with hother | hother
  · exact hdone other hother
  · exact List.mem_singleton.1 hother ▸ hrow

/-- A connection without the lock relies on rows alone. -/
theorem Knows.mono {phase : Phase S} (hphase : phase.holdsLock = false)
    (hrows : ∀ row ∈ db.rows, row ∈ db'.rows) (h : Knows exec db paths phase) :
    Knows exec db' paths phase := by
  cases phase with
  | closed outcome =>
      cases outcome with
      | error e => trivial
      | ok u => exact Passed.mono hrows h
  | waiting | lost => trivial
  | _ => cases hphase

/-- **One connection moves.**  The others know what they knew: either the
database is the same, or they are without the lock. -/
theorem consistent_at {id : Nat} {c : Connection S} {holder' : Option Nat} (phase : Phase S)
    (hs : Consistent exec db₀ s) (hhistory : ∃ executed, Applied exec db₀ executed db')
    (hdb : db' = s.db ∨ (s.holder = some id ∧ ∀ row ∈ s.db.rows, row ∈ db'.rows))
    (hlock : phase.holdsLock = true ↔ holder' = some id)
    (hother : ∀ other, other ≠ id → (holder' = some other ↔ s.holder = some other))
    (hknows : Knows exec db' c.paths phase) :
    Consistent exec db₀ { s.at id c phase with db := db', holder := holder' } := by
  have hcases : ∀ other c', (s.at id c phase).connections other = some c' →
      (other = id ∧ c' = { c with phase }) ∨ (other ≠ id ∧ s.connections other = some c') := by
    intro other c' hc'
    by_cases hid : other = id
    · rw [hid, connections_at_self] at hc'
      exact .inl ⟨hid, (Option.some.inj hc').symm⟩
    · rw [connections_at_of_ne _ _ _ hid] at hc'
      exact .inr ⟨hid, hc'⟩
  refine ⟨hhistory, fun other c' hc' => ?_, fun other hholder => ?_, fun other c' hc' => ?_⟩
  · rcases hcases other c' hc' with ⟨rfl, rfl⟩ | ⟨hid, hold⟩
    · exact hlock
    · exact (hs.lock other c' hold).trans (hother other hid).symm
  · show ((s.at id c phase).connections other).isSome = true
    by_cases hid : other = id
    · rw [hid, connections_at_self]
      rfl
    · rw [connections_at_of_ne _ _ _ hid]
      exact hs.held other ((hother other hid).1 hholder)
  · rcases hcases other c' hc' with ⟨rfl, rfl⟩ | ⟨hid, hold⟩
    · exact hknows
    · rcases hdb with rfl | ⟨hholder, hrows⟩
      · exact hs.knows other c' hold
      · refine (hs.knows other c' hold).mono ?_ hrows
        rw [← Bool.not_eq_true, hs.lock other c' hold, hholder, Option.some.injEq]
        exact fun heq => hid heq.symm

/-- A connection that holds the lock goes on, and the database stays. -/
theorem consistent_held {id : Nat} {c : Connection S} (phase : Phase S)
    (hs : Consistent exec db₀ s) (hholder : s.holder = some id)
    (hphase : phase.holdsLock = true) (hknows : Knows exec s.db c.paths phase) :
    Consistent exec db₀ (s.at id c phase) :=
  consistent_at phase hs hs.history (.inl rfl) (by simp [hphase, hholder]) (fun _ _ => Iff.rfl)
    hknows

/-- **The next statement** keeps consistency: one case for each phase. -/
theorem consistent_proceed {id : Nat} {c : Connection S} (hs : Consistent exec db₀ s)
    (hc : s.connections id = some c) (h : s.proceed exec id c = some s') :
    Consistent exec db₀ s' := by
  have hlock := hs.lock id c hc
  have hknows := hs.knows id c hc
  obtain ⟨paths, phase⟩ := c
  cases phase with
  | waiting =>
      simp only [System.proceed] at h
      split at h
      -- The lock is free, and this connection takes it.
      · rename_i hfree
        obtain rfl := Option.some.inj h
        exact consistent_at .creating hs hs.history (.inl rfl) (by simp [Phase.holdsLock])
          (fun other hne => by simp [hfree, Ne.symm hne]) trivial
      · cases h
  | creating =>
      obtain rfl := Option.some.inj h
      have hholder := hlock.1 rfl
      -- `CREATE TABLE IF NOT EXISTS` adds no row.
      obtain ⟨executed, happlied⟩ := hs.history
      exact consistent_at (.checking paths) hs
        ⟨executed, ⟨happlied.rows, happlied.schema, happlied.fresh, happlied.names⟩⟩
        (.inr ⟨hholder, fun _ h => h⟩) (by simp [Phase.holdsLock, System.at, hholder])
        (fun _ _ => Iff.rfl) ⟨[], rfl, fun _ h => (nomatch h)⟩
  | checking left =>
      have hholder := hlock.1 rfl
      cases left with
      | nil =>
          obtain rfl := Option.some.inj h
          -- All files were passed: what is known of them goes to the outcome.
          exact consistent_held _ hs hholder rfl hknows
      | cons path left =>
          simp only [System.proceed] at h
          cases hrecorded : s.db.recorded path.name with
          | some recorded =>
              simp only [hrecorded] at h
              -- A file on record has the checksum that was recorded, or the deployment stops.
              by_cases hsame : recorded ≠ checksum path.sql
              · rw [if_pos hsame] at h
                obtain rfl := Option.some.inj h
                exact consistent_held _ hs hholder rfl trivial
              · rw [if_neg hsame] at h
                obtain rfl := Option.some.inj h
                rw [not_not.1 hsame] at hrecorded
                exact consistent_held _ hs hholder rfl
                  (Passed.next hknows (row_mem_of_recorded hrecorded))
          | none =>
              simp only [hrecorded] at h
              obtain rfl := Option.some.inj h
              exact consistent_held _ hs hholder rfl ⟨hknows, hrecorded⟩
  | executing path left =>
      have hholder := hlock.1 rfl
      simp only [System.proceed] at h
      cases hexec : exec s.db.schema path.sql with
      | error message =>
          simp only [hexec] at h
          obtain rfl := Option.some.inj h
          exact consistent_held _ hs hholder rfl trivial
      | ok schema =>
          simp only [hexec] at h
          obtain rfl := Option.some.inj h
          exact consistent_held _ hs hholder rfl ⟨hknows.1, hknows.2, hexec⟩
  | inserting path left schema =>
      have hholder := hlock.1 rfl
      simp only [System.proceed] at h
      rw [if_neg (by simp [hknows.2.1])] at h
      obtain rfl := Option.some.inj h
      exact consistent_held _ hs hholder rfl hknows
  | committing path left schema =>
      obtain rfl := Option.some.inj h
      have hholder := hlock.1 rfl
      obtain ⟨hpassed, hnone, hexec⟩ := hknows
      -- The commit: the script's effect and its row become visible together, as `apply` says.
      have happly : s.db.apply exec path =
          .ok { schema, ledger := some (s.db.rows ++ [path.row]) } := by
        rw [Database.apply, hexec, hnone]
        rfl
      have hrows : ∀ row ∈ s.db.rows, row ∈ s.db.rows ++ [path.row] := fun _ hrow =>
        List.mem_append_left _ hrow
      obtain ⟨executed, happlied⟩ := hs.history
      exact consistent_at (.checking left) hs ⟨_, happlied.trans (applied_of_apply happly)⟩
        (.inr ⟨hholder, hrows⟩) (by simp [Phase.holdsLock, System.at, hholder])
        (fun _ _ => Iff.rfl) ((hpassed.mono hrows).next (List.mem_append_right _ (by simp)))
  | unlocking outcome =>
      obtain rfl := Option.some.inj h
      have hholder := hlock.1 rfl
      exact consistent_at (.closed outcome) hs hs.history (.inl rfl) (by simp [Phase.holdsLock])
        (fun other hne => by simp [hholder, Ne.symm hne]) (by cases outcome <;> exact hknows)
  | closed outcome => cases h
  | lost => cases h

/-- **Every step keeps consistency.** -/
theorem consistent_step {e : Event} (hs : Consistent exec db₀ s) (h : step exec s e = some s') :
    Consistent exec db₀ s' := by
  cases e with
  | connect id paths =>
      simp only [step] at h
      split at h
      · rename_i hnew
        obtain rfl := Option.some.inj h
        -- A new connection holds no lock, since whoever holds it is there already.
        have hnot : s.holder ≠ some id := fun hholder => by
          have := hs.held id hholder
          rw [Option.isNone_iff_eq_none.1 hnew] at this
          cases this
        exact consistent_at .waiting hs hs.history (.inl rfl)
          (by simp [Phase.holdsLock, hnot]) (fun _ _ => Iff.rfl) trivial
      · cases h
  | proceed id =>
      obtain ⟨c, hc, hproceed⟩ := Option.bind_eq_some_iff.1 h
      exact consistent_proceed hs hc hproceed
  | raise id message =>
      obtain ⟨c, hc, hraise⟩ := Option.bind_eq_some_iff.1 h
      by_cases hheld : c.phase.holdsLock = true
      · rw [if_pos hheld] at hraise
        obtain rfl := Option.some.inj hraise
        -- An error behind the lock goes through `finally`, which gives the lock back.
        exact consistent_held _ hs ((hs.lock id c hc).1 hheld) rfl trivial
      · rw [if_neg hheld] at hraise
        split at hraise
        · obtain rfl := Option.some.inj hraise
          have hnot := mt (hs.lock id c hc).2 hheld
          exact consistent_at (.closed (.error (.environment message))) hs hs.history (.inl rfl)
            (by simp [Phase.holdsLock, hnot]) (fun _ _ => Iff.rfl) trivial
        · cases hraise
  | lose id =>
      obtain ⟨c, hc, hlose⟩ := Option.bind_eq_some_iff.1 h
      split at hlose
      · cases hlose
      · obtain rfl := Option.some.inj hlose
        -- The server frees the locks of a connection that is gone.
        refine consistent_at .lost hs hs.history (.inl rfl) ?_ (fun other hne => ?_) trivial
        · by_cases hholder : s.holder = some id <;> simp [Phase.holdsLock, hholder]
        · by_cases hholder : s.holder = some id
          · simp [hholder, Ne.symm hne]
          · simp [hholder]

theorem consistent_start (db₀ : Database S) : Consistent exec db₀ { db := db₀ } :=
  ⟨⟨[], .refl db₀⟩, fun _ _ h => (nomatch h), fun _ h => (nomatch h), fun _ _ h => (nomatch h)⟩

theorem consistent_of_reach {ok : System S → Event → Prop}
    (h : Reach (step exec) ok { db := db₀ } s) : Consistent exec db₀ s :=
  h.invariant (consistent_start db₀) fun _ _ _ hs _ hstep => consistent_step hs hstep

end Invariant

/-! ## §3. Safety. -/

section Safety

variable {S : Type}

/-- **Migrations are safe**, whatever the connections do and wherever they are
lost: the files that were applied, each once and as a whole, are those of the
new rows, in their order; where `migrate` returned, each file of the
deployment is recorded as the deployment has it; and one connection at most
is past the lock. -/
theorem migrations_safe (exec : S → String → Except String S) (db₀ : Database S) {s : System S}
    (h : Reachable (step exec) { db := db₀ } s) :
    (∃ executed, Applied exec db₀ executed s.db) ∧
    (∀ id c, s.connections id = some c → c.phase = .closed (.ok ()) →
      ∀ path ∈ c.paths, path.row ∈ s.db.rows) ∧
    ∀ id id' c c', s.connections id = some c → s.connections id' = some c' →
      c.phase.holdsLock = true → c'.phase.holdsLock = true → id = id' := by
  have hs : Consistent exec db₀ s := consistent_of_reach h
  refine ⟨hs.history, fun id c hc hclosed path hpath => ?_,
    fun id id' c c' hc hc' hheld hheld' => ?_⟩
  · have hknows := hs.knows id c hc
    rw [hclosed] at hknows
    obtain ⟨done, hpaths, hdone⟩ := hknows
    rw [hpaths, List.append_nil] at hpath
    exact hdone path hpath
  · have hholder := (hs.lock id c hc).1 hheld
    rw [(hs.lock id' c' hc').1 hheld'] at hholder
    exact (Option.some.inj hholder).symm

/-- **A file that changed is not passed**: a deployment in which it differs
from what is recorded does not return, and commits no file after it. -/
theorem changed_file_stops (exec : S → String → Except String S) (db₀ : Database S)
    (hkey : (db₀.rows.map LedgerRow.filename).Nodup) {s : System S}
    (h : Reachable (step exec) { db := db₀ } s) {id : Nat} {c : Connection S}
    (hc : s.connections id = some c) {path : Migration} (hpath : path ∈ c.paths)
    {recorded : String} (hrecorded : s.db.recorded path.name = some recorded)
    (hchanged : recorded ≠ checksum path.sql) :
    c.phase ≠ .closed (.ok ()) ∧
      ∀ other left schema, c.phase = .committing other left schema → path ∈ left := by
  have hs : Consistent exec db₀ s := consistent_of_reach h
  have hknows := hs.knows id c hc
  obtain ⟨executed, happlied⟩ := hs.history
  have hleft : ∀ left, Passed s.db c.paths left → path ∈ left := by
    rintro left ⟨done, hpaths, hdone⟩
    rw [hpaths] at hpath
    refine (List.mem_append.1 hpath).resolve_left fun hmem => ?_
    have hrow := recorded_of_row_mem (happlied.key hkey) (hdone path hmem)
    rw [hrecorded, Option.some.injEq] at hrow
    exact hchanged hrow
  refine ⟨fun hclosed => ?_, fun other left schema hphase => ?_⟩
  · rw [hclosed] at hknows
    exact absurd (hleft [] hknows) List.not_mem_nil
  · rw [hphase] at hknows
    refine (List.mem_cons.1 (hleft _ hknows.1)).resolve_left ?_
    rintro rfl
    rw [hknows.2.1] at hrecorded
    cases hrecorded

end Safety

/-! ## §4. One release, and those before it. -/

section Release

variable {S : Type} {exec : S → String → Except String S} {db₀ : Database S} {s s' : System S}
  {release : List Migration}

/-- The connection did not find a file that changed. -/
def Phase.Undrifted (phase : Phase S) : Prop :=
  ∀ message, phase ≠ .unlocking (.error (.drift message)) ∧
    phase ≠ .closed (.error (.drift message))

/-- What the deployments of one release keep, and of releases that it
extends. -/
structure Released (exec : S → String → Except String S) (db₀ : Database S)
    (release : List Migration) (s : System S) : Prop where
  consistent : Consistent exec db₀ s
  applied : ∃ k, Applied exec db₀ (release.take k) s.db
  paths : ∀ id c, s.connections id = some c → c.paths <+: release
  undrifted : ∀ id c, s.connections id = some c → c.phase.Undrifted

/-- Files that are recorded are no more than those that were applied. -/
theorem length_le_of_rows {done applied : List Migration} (hnames : (done.map Migration.name).Nodup)
    (h : ∀ path ∈ done, path.row ∈ applied.map Migration.row) : done.length ≤ applied.length := by
  have hsubset : done.map Migration.name ⊆ applied.map Migration.name := by
    intro name hname
    obtain ⟨path, hpath, rfl⟩ := List.mem_map.1 hname
    obtain ⟨found, hfound, hsame⟩ := List.mem_map.1 (h path hpath)
    exact List.mem_map.2 ⟨found, hfound, congrArg LedgerRow.filename hsame⟩
  have hlength := (List.subperm_of_subset hnames hsubset).length_le
  rwa [List.length_map, List.length_map] at hlength

/-- Where the files before `left` are recorded and the next is not, these are
the files that were applied. -/
theorem applied_of_passed {k : Nat} {paths left : List Migration} {path : Migration}
    {db : Database S} (hempty : db₀.rows = []) (hnames : (release.map Migration.name).Nodup)
    (hpaths : paths <+: release) (happlied : Applied exec db₀ (release.take k) db)
    (hpassed : Passed db paths (path :: left)) (hnone : db.recorded path.name = none) :
    ∃ n, release.take k = release.take n ∧ release.take (n + 1) = release.take n ++ [path] := by
  obtain ⟨done, rfl, hdone⟩ := hpassed
  obtain ⟨more, hrelease⟩ := hpaths
  have hrows : db.rows = (release.take k).map Migration.row := by
    rw [happlied.rows, hempty, List.nil_append]
  have hsplit : release = done ++ path :: (left ++ more) := by
    rw [← hrelease, List.append_assoc, List.cons_append]
  have hdoneTake : release.take done.length = done := by
    rw [hsplit, List.take_left]
  -- the next file is not among those applied
  have hle : k ≤ done.length := by
    by_contra hlt
    have hmem : path ∈ release.take k := by
      rw [hsplit, List.take_append, List.take_of_length_le (by omega)]
      refine List.mem_append_right _ ?_
      obtain ⟨n, hn⟩ := Nat.exists_eq_add_of_lt (Nat.lt_of_not_le hlt)
      rw [show k - done.length = n + 1 by omega, List.take_succ_cons]
      exact List.mem_cons_self
    exact recorded_eq_none.1 hnone path.row (hrows ▸ List.mem_map_of_mem hmem) rfl
  -- and those before it are
  have hge : done.length ≤ k := by
    have hnodup : (done.map Migration.name).Nodup := by
      rw [hsplit, List.map_append] at hnames
      exact (List.nodup_append.1 hnames).1
    have hlength := length_le_of_rows hnodup (hrows ▸ hdone)
    rw [List.length_take] at hlength
    omega
  obtain rfl := Nat.le_antisymm hle hge
  refine ⟨done.length, rfl, ?_⟩
  rw [hdoneTake]
  conv_lhs => rw [hsplit]
  rw [List.take_append, List.take_of_length_le (Nat.le_succ _), Nat.add_sub_cancel_left,
    List.take_succ_cons, List.take_zero]

/-- A file of the release that is recorded is recorded as it is. -/
theorem recorded_of_applied {k : Nat} {paths left : List Migration} {path : Migration}
    {db : Database S} {recorded : String} (hempty : db₀.rows = [])
    (hnames : (release.map Migration.name).Nodup) (hpaths : paths <+: release)
    (happlied : Applied exec db₀ (release.take k) db) (hpassed : Passed db paths (path :: left))
    (hrecorded : db.recorded path.name = some recorded) : recorded = checksum path.sql := by
  obtain ⟨row, hfind, rfl⟩ := Option.map_eq_some_iff.1 hrecorded
  have hname : row.filename = path.name := by simpa using List.find?_some hfind
  have hrow := List.mem_of_find?_eq_some hfind
  rw [happlied.rows, hempty, List.nil_append] at hrow
  obtain ⟨other, hother, rfl⟩ := List.mem_map.1 hrow
  obtain ⟨done, hdone, -⟩ := hpassed
  have hmem : path ∈ release :=
    hpaths.subset (hdone ▸ List.mem_append_right _ List.mem_cons_self)
  obtain rfl := eq_of_nodup_key hnames (List.mem_of_mem_take hother) hmem hname
  rfl

/-- What a connection that moves does to the rest: it stays in its release; it
commits, or leaves the schema and the rows; and only a file that changed
makes it drift. -/
structure Moves (s s' : System S) (e : Event) (id : Nat) (c : Connection S) (phase : Phase S) :
    Prop where
  connections : s'.connections = (s.at id c phase).connections
  origin : (s.connections id = some c) ∨ (e = .connect id c.paths ∧ c.phase = .waiting)
  db : s'.db = s.db ∨ s'.db = s.db.createLedger ∨ ∃ path left schema,
    c.phase = .committing path left schema ∧
      s'.db = { schema, ledger := some (s.db.rows ++ [path.row]) }
  drifts : ∀ message, phase = .unlocking (.error (.drift message)) →
    ∃ path left recorded, c.phase = .checking (path :: left) ∧
      s.db.recorded path.name = some recorded ∧ recorded ≠ checksum path.sql
  ends : ∀ message, phase = .closed (.error (.drift message)) →
    c.phase = .unlocking (.error (.drift message))

/-- A connection moves, and nothing else. -/
theorem Moves.alone {e : Event} {id : Nat} {c : Connection S} {phase : Phase S}
    (hconnections : s'.connections = (s.at id c phase).connections)
    (hdb : s'.db = s.db ∨ s'.db = s.db.createLedger)
    (horigin : s.connections id = some c ∨ (e = .connect id c.paths ∧ c.phase = .waiting))
    (hphase : phase.Undrifted) : Moves s s' e id c phase :=
  ⟨hconnections, horigin, hdb.imp_right .inl, fun message h => absurd h (hphase message).1,
    fun message h => absurd h (hphase message).2⟩

/-- **The cases of a step.** -/
theorem moves_of_step {e : Event} (h : step exec s e = some s') :
    ∃ id c phase, Moves s s' e id c phase := by
  cases e with
  | connect id paths =>
      simp only [step] at h
      split at h
      · obtain rfl := Option.some.inj h
        exact ⟨id, { paths }, .waiting, .alone rfl (.inl rfl) (.inr ⟨rfl, rfl⟩)
          fun _ => ⟨fun h => (nomatch h), fun h => (nomatch h)⟩⟩
      · cases h
  | raise id message =>
      obtain ⟨c, hc, h⟩ := Option.bind_eq_some_iff.1 h
      split at h
      · obtain rfl := Option.some.inj h
        exact ⟨id, c, .unlocking _, .alone rfl (.inl rfl) (.inl hc)
          fun _ => ⟨fun h => (nomatch h), fun h => (nomatch h)⟩⟩
      · split at h
        · obtain rfl := Option.some.inj h
          exact ⟨id, c, .closed _, .alone rfl (.inl rfl) (.inl hc)
            fun _ => ⟨fun h => (nomatch h), fun h => (nomatch h)⟩⟩
        · cases h
  | lose id =>
      obtain ⟨c, hc, h⟩ := Option.bind_eq_some_iff.1 h
      split at h
      · cases h
      · obtain rfl := Option.some.inj h
        exact ⟨id, c, .lost, .alone rfl (.inl rfl) (.inl hc)
          fun _ => ⟨fun h => (nomatch h), fun h => (nomatch h)⟩⟩
  | proceed id =>
      obtain ⟨c, hc, h⟩ := Option.bind_eq_some_iff.1 h
      -- A statement that leaves the database alone and does not end in drift.
      have hquiet : ∀ phase, s' = s.at id c phase → phase.Undrifted →
          ∃ other c phase, Moves s s' (.proceed id) other c phase := by
        rintro phase rfl hphase
        exact ⟨id, c, phase, .alone rfl (.inl rfl) (.inl hc) hphase⟩
      obtain ⟨paths, phase⟩ := c
      cases phase with
      | waiting =>
          simp only [System.proceed] at h
          split at h
          · obtain rfl := Option.some.inj h
            exact ⟨id, _, .creating, .alone rfl (.inl rfl) (.inl hc)
              fun _ => ⟨fun h => (nomatch h), fun h => (nomatch h)⟩⟩
          · cases h
      | creating =>
          obtain rfl := Option.some.inj h
          exact ⟨id, _, .checking paths, .alone rfl (.inr rfl) (.inl hc)
            fun _ => ⟨fun h => (nomatch h), fun h => (nomatch h)⟩⟩
      | checking left =>
          cases left with
          | nil =>
              exact hquiet _ (Option.some.inj h).symm
                fun _ => ⟨fun h => (nomatch h), fun h => (nomatch h)⟩
          | cons path left =>
              simp only [System.proceed] at h
              cases hrecorded : s.db.recorded path.name with
              | some recorded =>
                  simp only [hrecorded] at h
                  by_cases hsame : recorded ≠ checksum path.sql
                  · rw [if_pos hsame] at h
                    obtain rfl := Option.some.inj h
                    -- The one way into drift: the file is on record with another checksum.
                    exact ⟨id, _, .unlocking _, rfl, .inl hc, .inl rfl,
                      fun _ _ => ⟨path, left, recorded, rfl, hrecorded, hsame⟩,
                      fun _ h => (nomatch h)⟩
                  · rw [if_neg hsame] at h
                    exact hquiet _ (Option.some.inj h).symm
                      fun _ => ⟨fun h => (nomatch h), fun h => (nomatch h)⟩
              | none =>
                  simp only [hrecorded] at h
                  exact hquiet _ (Option.some.inj h).symm
                    fun _ => ⟨fun h => (nomatch h), fun h => (nomatch h)⟩
      | executing path left =>
          simp only [System.proceed] at h
          cases hexec : exec s.db.schema path.sql <;> simp only [hexec] at h <;>
            exact hquiet _ (Option.some.inj h).symm
              fun _ => ⟨fun h => (nomatch h), fun h => (nomatch h)⟩
      | inserting path left schema =>
          simp only [System.proceed] at h
          split at h <;> exact hquiet _ (Option.some.inj h).symm
            fun _ => ⟨fun h => (nomatch h), fun h => (nomatch h)⟩
      | committing path left schema =>
          obtain rfl := Option.some.inj h
          -- The one way into the ledger: the commit of a file.
          exact ⟨id, _, .checking left, rfl, .inl hc,
            .inr (.inr ⟨path, left, schema, rfl, rfl⟩), fun _ h => (nomatch h),
            fun _ h => (nomatch h)⟩
      | unlocking outcome =>
          obtain rfl := Option.some.inj h
          exact ⟨id, _, .closed outcome, rfl, .inl hc, .inl rfl, fun _ h => (nomatch h),
            fun _ h => congrArg Phase.unlocking (Phase.closed.inj h)⟩
      | closed outcome => cases h
      | lost => cases h

/-- **Every step of a deployment of the release** keeps what they keep. -/
theorem released_step {e : Event} (hempty : db₀.rows = [])
    (hnames : (release.map Migration.name).Nodup)
    (hok : e.paths <+: release) (hs : Released exec db₀ release s)
    (h : step exec s e = some s') : Released exec db₀ release s' := by
  obtain ⟨id, c, phase, hmoves⟩ := moves_of_step h
  obtain ⟨k, happlied⟩ := hs.applied
  have hpaths : c.paths <+: release :=
    hmoves.origin.elim (hs.paths id c) fun horigin => by
      rw [horigin.1] at hok
      exact hok
  -- a connection that has moved on from `waiting` was there before
  have hknows : c.phase ≠ .waiting → Knows exec s.db c.paths c.phase := fun hphase =>
    hmoves.origin.elim (hs.consistent.knows id c) fun horigin => absurd horigin.2 hphase
  have hcases : ∀ other c', s'.connections other = some c' →
      c' = { c with phase } ∨ s.connections other = some c' := by
    intro other c' hc'
    rw [hmoves.connections] at hc'
    by_cases hid : other = id
    · rw [hid, connections_at_self] at hc'
      exact .inl (Option.some.inj hc').symm
    · rw [connections_at_of_ne _ _ _ hid] at hc'
      exact .inr hc'
  refine ⟨consistent_step hs.consistent h, ?_, fun other c' hc' => ?_, fun other c' hc' => ?_⟩
  · rcases hmoves.db with hdb | hdb | ⟨path, left, schema, hphase, hdb⟩
    · exact ⟨k, hdb ▸ happlied⟩
    · exact ⟨k, hdb ▸ ⟨happlied.rows, happlied.schema, happlied.fresh, happlied.names⟩⟩
    · have hcommit := hknows (by rw [hphase]; exact fun h => (nomatch h))
      rw [hphase] at hcommit
      obtain ⟨hpassed, hnone, hexec⟩ := hcommit
      obtain ⟨n, hsame, hnext⟩ :=
        applied_of_passed hempty hnames hpaths happlied hpassed hnone
      have happly : s.db.apply exec path = .ok s'.db := by
        rw [Database.apply, hexec, hnone, hdb]
        rfl
      refine ⟨n + 1, ?_⟩
      rw [hnext, ← hsame]
      exact happlied.trans (applied_of_apply happly)
  · rcases hcases other c' hc' with rfl | hold
    · exact hpaths
    · exact hs.paths other c' hold
  · rcases hcases other c' hc' with rfl | hold
    · refine fun message => ⟨fun hphase => ?_, fun hphase => ?_⟩
      · obtain ⟨path, left, recorded, hchecking, hrecorded, hchanged⟩ :=
          hmoves.drifts message hphase
        have hpassed := hknows (by rw [hchecking]; exact fun h => (nomatch h))
        rw [hchecking] at hpassed
        exact hchanged (recorded_of_applied hempty hnames hpaths happlied hpassed hrecorded)
      · have hunlocking := hmoves.ends message hphase
        rcases hmoves.origin with hc | ⟨-, hwaiting⟩
        · exact (hs.undrifted id c hc message).1 hunlocking
        · rw [hwaiting] at hunlocking
          cases hunlocking
    · exact hs.undrifted other c' hold

end Release

/-- **Every run of deployments of the release**, by induction on it. -/
theorem released_run {S : Type} {exec : S → String → Except String S} {db₀ : Database S}
    {s s' : System S} {release : List Migration} {es : List Event} (hempty : db₀.rows = [])
    (hnames : (release.map Migration.name).Nodup) (hok : ∀ e ∈ es, e.paths <+: release)
    (hs : Released exec db₀ release s) (h : run (step exec) s es = some s') :
    Released exec db₀ release s' := by
  induction es generalizing s with
  | nil =>
      obtain rfl := Option.some.inj h
      exact hs
  | cons e es ih =>
      obtain ⟨he, hes⟩ := List.forall_mem_cons.1 hok
      obtain ⟨m, hm, hrest⟩ := Option.bind_eq_some_iff.1 h
      exact ih hes (released_step hempty hnames he hs hm) hrest

/-- Nothing has happened. -/
theorem released_start {S : Type} (exec : S → String → Except String S) (db₀ : Database S)
    (release : List Migration) : Released exec db₀ release { db := db₀ } :=
  ⟨consistent_start db₀, ⟨0, .refl db₀⟩, fun _ _ h => (nomatch h), fun _ _ h => (nomatch h)⟩

/-- **The deployments of directories that grow**: each has the files that
`resolve_migrations` finds, in a directory that the newest release extends. -/
theorem released_of_resolved {S : Type} {exec : S → String → Except String S} {db₀ : Database S}
    {s : System S} {release : List Migration} {es : List Event} (hempty : db₀.rows = [])
    (hnames : (release.map Migration.name).Nodup)
    (hok : ∀ id paths, .connect id paths ∈ es → ∃ directory default migrationsDir configured,
      (∀ name files, directory name = some files → ExtendedBy release files) ∧
        resolveMigrations directory default migrationsDir configured = .ok paths)
    (h : run (step exec) { db := db₀ } es = some s) :
    Released exec db₀ (sqlFiles release) s := by
  have hsql : ((sqlFiles release).map Migration.name).Nodup :=
    (((perm_inOrder Migration.name _).map _).nodup_iff).2
      (hnames.sublist (List.filter_sublist.map _))
  refine released_run hempty hsql (fun e he => ?_) (released_start exec db₀ _) h
  cases e with
  | connect id paths =>
      obtain ⟨directory, default, migrationsDir, configured, hdirectory, hpaths⟩ := hok id paths he
      exact resolved_prefix hnames hdirectory hpaths
  | proceed | raise | lose => exact List.nil_prefix

/-- **The deployments of one release**, and of earlier ones that it extends,
all at the same time: the database is that of the first files of the release,
applied in their order; where `migrate` returned, the files of that deployment
are among them; and none finds a file that changed. -/
theorem release_applied {S : Type} (exec : S → String → Except String S) (db₀ : Database S)
    {release : List Migration} {es : List Event} {s : System S} (hempty : db₀.rows = [])
    (hnames : (release.map Migration.name).Nodup) (hok : ∀ e ∈ es, e.paths <+: release)
    (h : run (step exec) { db := db₀ } es = some s) :
    ∃ k, s.db.rows = (release.take k).map Migration.row ∧
      (release.take k).foldlM (fun schema path => exec schema path.sql) db₀.schema =
        .ok s.db.schema ∧
      (∀ id c, s.connections id = some c → c.phase = .closed (.ok ()) →
        c.paths <+: release.take k) ∧
      ∀ id c, s.connections id = some c → ∀ message, c.phase ≠ .closed (.error (.drift message)) := by
  have hs : Released exec db₀ release s :=
    released_run hempty hnames hok (released_start exec db₀ release) h
  obtain ⟨k, happlied⟩ := hs.applied
  have hrows : s.db.rows = (release.take k).map Migration.row := by
    rw [happlied.rows, hempty, List.nil_append]
  refine ⟨k, hrows, happlied.schema, fun id c hc hclosed => ?_,
    fun id c hc message => (hs.undrifted id c hc message).2⟩
  have hknows := hs.consistent.knows id c hc
  rw [hclosed] at hknows
  obtain ⟨done, hpaths, hdone⟩ := hknows
  rw [List.append_nil] at hpaths
  have hpre := hs.paths id c hc
  have hnodup : (c.paths.map Migration.name).Nodup :=
    hnames.sublist (hpre.sublist.map _)
  exact List.prefix_of_prefix_length_le hpre (List.take_prefix _ _)
    (length_le_of_rows hnodup (hrows ▸ hpaths ▸ hdone))

/-! ## §5. A connection by itself. -/

section Alone

variable {S : Type} {exec : S → String → Except String S} {id : Nat}

/-- A connection that has ended, and released the lock. -/
def System.ended (s : System S) (id : Nat) (c : Connection S)
    (out : Except MigrateError Unit × Database S) : System S :=
  { s.at id c (.closed out.1) with db := out.2, holder := none }

/-- The next statement of the connection alone. -/
theorem run_proceed {s s' s'' : System S} {c : Connection S} {n : Nat}
    (hc : s.connections id = some c) (h : s.proceed exec id c = some s')
    (hrun : run (step exec) s' (List.replicate n (.proceed id)) = some s'') :
    run (step exec) s (List.replicate (n + 1) (.proceed id)) = some s'' := by
  rw [List.replicate_succ, run]
  simp only [step, hc, Option.bind_some, h]
  exact hrun

@[simp] theorem db_at (s : System S) (c : Connection S) (phase : Phase S) :
    (s.at id c phase).db = s.db := rfl

@[simp] theorem holder_at (s : System S) (c : Connection S) (phase : Phase S) :
    (s.at id c phase).holder = s.holder := rfl

theorem at_at (s : System S) (c : Connection S) (phase phase' : Phase S) :
    (s.at id c phase).at id { c with phase } phase' = s.at id c phase' := by
  unfold System.at
  simp only [Function.update_idem]

/-- **The loop, statement by statement**, by induction on the files that are
left. -/
theorem run_checking (left : List Migration) (s : System S) (c : Connection S) :
    ∃ n, run (step exec) (s.at id c (.checking left)) (List.replicate n (.proceed id)) =
      some (s.ended id c (migratePaths exec left s.db)) := by
  -- once the outcome is known, the lock is released and the connection closed
  have hclose : ∀ (s : System S) outcome, run (step exec) (s.at id c (.unlocking outcome))
      (List.replicate 1 (.proceed id)) = some (s.ended id c (outcome, s.db)) := fun s outcome => by
    refine run_proceed (connections_at_self ..) rfl ?_
    rw [at_at]
    rfl
  induction left generalizing s with
  | nil =>
      refine ⟨2, run_proceed (connections_at_self ..) rfl ?_⟩
      rw [at_at]
      exact hclose s _
  | cons path left ih =>
      rw [migratePaths]
      cases hrecorded : s.db.recorded path.name with
      | some recorded =>
          by_cases hsame : recorded ≠ checksum path.sql
          · simp only [if_pos hsame]
            refine ⟨2, run_proceed (connections_at_self ..) (by
              simp only [System.proceed, db_at, hrecorded, if_pos hsame]
              rfl) ?_⟩
            rw [at_at]
            exact hclose s _
          · simp only [if_neg hsame]
            obtain ⟨n, hn⟩ := ih s
            refine ⟨n + 1, run_proceed (connections_at_self ..) (by
              simp only [System.proceed, db_at, hrecorded, if_neg hsame]
              rfl) ?_⟩
            rw [at_at]
            exact hn
      | none =>
          have hchecked : (s.at id c (.checking (path :: left))).proceed exec id
              { c with phase := .checking (path :: left) } =
                some (s.at id c (.executing path left)) := by
            simp only [System.proceed, db_at, hrecorded, at_at]
          cases hexec : exec s.db.schema path.sql with
          | error message =>
              have happly : s.db.apply exec path = .error (.sql message) := by
                rw [Database.apply, hexec]
                rfl
              simp only [happly]
              refine ⟨3, run_proceed (connections_at_self ..) hchecked
                (run_proceed (connections_at_self ..) (by
                  simp only [System.proceed, db_at, hexec]
                  rfl) ?_)⟩
              rw [at_at]
              exact hclose s _
          | ok schema =>
              have happly : s.db.apply exec path =
                  .ok { schema, ledger := some (s.db.rows ++ [path.row]) } := by
                rw [Database.apply, hexec, hrecorded]
                rfl
              simp only [happly]
              obtain ⟨n, hn⟩ := ih { s with
                db := { schema, ledger := some (s.db.rows ++ [path.row]) } }
              have hexecuted : (s.at id c (.executing path left)).proceed exec id
                  { c with phase := .executing path left } =
                    some (s.at id c (.inserting path left schema)) := by
                simp only [System.proceed, db_at, hexec, at_at]
              have hinserted : (s.at id c (.inserting path left schema)).proceed exec id
                  { c with phase := .inserting path left schema } =
                    some (s.at id c (.committing path left schema)) := by
                simp only [System.proceed, db_at, hrecorded, Option.isSome_none, at_at,
                  Bool.false_eq_true, if_false]
              refine ⟨n + 4, run_proceed (connections_at_self ..) hchecked
                (run_proceed (connections_at_self ..) hexecuted
                (run_proceed (connections_at_self ..) hinserted
                (run_proceed (connections_at_self ..) rfl ?_)))⟩
              rw [at_at]
              exact hn

/-- **A connection by itself** does what `migrate` does: while nobody holds
the lock, it ends with its outcome and its database. -/
theorem migrate_alone (exec : S → String → Except String S) (s : System S) (id : Nat)
    (paths : List Migration) (hfree : s.holder = none) (hnew : s.connections id = none) :
    ∃ n, run (step exec) s (.connect id paths :: List.replicate n (.proceed id)) =
      some (s.ended id { paths } (migrate exec paths s.db)) := by
  let locked : System S := { s with holder := some id }
  let created : System S := { locked with db := s.db.createLedger }
  obtain ⟨n, hn⟩ : ∃ n, run (step exec) (created.at id { paths } (.checking paths))
      (List.replicate n (.proceed id)) = some (created.ended id { paths }
        (migratePaths exec paths s.db.createLedger)) := run_checking paths created { paths }
  have hconnected : step exec s (.connect id paths) = some (s.at id { paths } .waiting) := by
    simp [step, hnew]
  have hlocked : (s.at id { paths } .waiting).proceed exec id { paths } =
      some (locked.at id { paths } .creating) := by
    have hat : (s.at id { paths } .waiting).at id { paths } .creating = s.at id { paths } .creating :=
      at_at s { paths } .waiting .creating
    simp only [System.proceed, holder_at, hfree, if_true, hat]
    rfl
  have hcreated : (locked.at id { paths } .creating).proceed exec id
      { paths, phase := .creating } = some (created.at id { paths } (.checking paths)) := by
    have hat : (locked.at id { paths } .creating).at id { paths, phase := .creating }
        (.checking paths) = locked.at id { paths } (.checking paths) :=
      at_at locked { paths } .creating (.checking paths)
    simp only [System.proceed, hat]
    rfl
  refine ⟨n + 2, ?_⟩
  rw [run, hconnected, Option.bind_some]
  exact run_proceed (connections_at_self ..) hlocked
    (run_proceed (connections_at_self ..) hcreated hn)

/-- The first deployment of two files. -/
theorem migrate_alone_twoFiles : ∃ n, run (step remember) { db := { schema := [] } }
    (.connect 0 twoFiles :: List.replicate n (.proceed 0)) =
      some (System.ended { db := { schema := [] } } 0 { paths := twoFiles }
        (migrate remember twoFiles { schema := [] })) :=
  migrate_alone remember { db := { schema := [] } } 0 twoFiles rfl rfl

end Alone

/-! ## §6. Two deployments. -/

/-- A release that extends the two files. -/
def threeFiles : List Migration := twoFiles ++ [⟨"003_last.sql", "DROP TABLE old"⟩]

/-- The first deployment is lost in the transaction of its second file; the
second, of the later release, waited for the lock. -/
def twoDeployments : List Event :=
  [.connect 0 twoFiles, .connect 1 threeFiles] ++ List.replicate 8 (.proceed 0) ++
    .lose 0 :: List.replicate 13 (.proceed 1)

theorem run_twoDeployments : ∃ s, run (step remember) { db := { schema := [] } } twoDeployments =
    some s ∧ s.db.schema = ["CREATE TABLE jobs", "ALTER TABLE jobs", "DROP TABLE old"] := by
  have hschema : (run (step remember) { db := { schema := [] } } twoDeployments).map
      (fun s => s.db.schema) =
        some ["CREATE TABLE jobs", "ALTER TABLE jobs", "DROP TABLE old"] := by
    decide +kernel
  exact Option.map_eq_some_iff.1 hschema

/-- Every file was applied once. -/
theorem migrations_safe_twoDeployments :
    ∃ s executed, run (step remember) { db := { schema := [] } } twoDeployments = some s ∧
      s.db.schema = ["CREATE TABLE jobs", "ALTER TABLE jobs", "DROP TABLE old"] ∧
      Applied remember { schema := [] } executed s.db := by
  obtain ⟨s, hrun, hschema⟩ := run_twoDeployments
  obtain ⟨executed, happlied⟩ :=
    (migrations_safe remember { schema := [] } (reachable_of_run hrun)).1
  exact ⟨s, executed, hrun, hschema, happlied⟩

/-- The files that were applied are a prefix of the later release. -/
theorem release_applied_twoDeployments :
    ∃ s k, run (step remember) { db := { schema := [] } } twoDeployments = some s ∧
      s.db.rows = (threeFiles.take k).map Migration.row := by
  obtain ⟨s, hrun, -⟩ := run_twoDeployments
  have hrelease : ∀ e ∈ twoDeployments, e.paths <+: threeFiles := by decide
  obtain ⟨k, hrows, -⟩ := release_applied remember { schema := [] } rfl (by decide) hrelease hrun
  exact ⟨s, k, hrun, hrows⟩

/-- The ledger has another checksum for the second file. -/
def changedLedger : Database (List String) where
  schema := ["ALTER TABLE tasks"]
  ledger := some [⟨"002_more.sql", "0"⟩]

/-- A deployment that is about to commit its first file. -/
def beforeCommit : List Event := .connect 0 twoFiles :: List.replicate 5 (.proceed 0)

/-- A deployment of the two files commits the first and will not return. -/
theorem changed_file_stops_twoFiles :
    ∃ s c, run (step remember) { db := changedLedger } beforeCommit = some s ∧
      s.connections 0 = some c ∧ c.phase ≠ .closed (.ok ()) ∧
      ∃ other left schema, c.phase = .committing other left schema ∧
        ⟨"002_more.sql", "ALTER TABLE jobs"⟩ ∈ left := by
  let c : Connection (List String) := {
    paths := twoFiles
    phase := .committing ⟨"001_init.sql", "CREATE TABLE jobs"⟩
      [⟨"002_more.sql", "ALTER TABLE jobs"⟩] ["ALTER TABLE tasks", "CREATE TABLE jobs"] }
  have hstands : (run (step remember) { db := changedLedger } beforeCommit).map
      (fun s => (s.connections 0, s.db.rows)) = some (some c, changedLedger.rows) := rfl
  obtain ⟨s, hrun, hs⟩ := Option.map_eq_some_iff.1 hstands
  obtain ⟨hc, hrows⟩ := Prod.mk.inj hs
  have hrecorded : s.db.recorded "002_more.sql" = some "0" := by
    rw [Database.recorded, hrows]
    decide +kernel
  have hchanged : "0" ≠ checksum "ALTER TABLE jobs" := by decide +kernel
  obtain ⟨hopen, hleft⟩ := changed_file_stops remember changedLedger (by decide)
    (reachable_of_run hrun) hc (List.mem_cons_of_mem _ List.mem_cons_self) hrecorded hchanged
  exact ⟨s, c, hrun, hc, hopen, _, _, _, rfl, hleft _ _ _ rfl⟩

end Rpy.Migrations

/-
  Rpy.Migrations.Ledger
  ─────────────────────
  **APPLYING THE SQL FILES OF A RELEASE.**

  The files of a directory are applied in the order of their names, each in
  one transaction with its row of the ledger.  A file that the ledger knows
  is skipped, and stops the migration where its checksum has changed.

    • `resolveMigrations` — `resolve_migrations`,
    • `resolved_prefix`   — a release extends the one before,
    • `migrate`           — `migrate`, on a connection of its own,
    • `migratePaths_spec` — what the loop leaves, however it ends,
    • `migrate_again`     — a migration that returned, made again.

  `app/migrations.py`.
-/
import Rpy.Foundation.Keyset
import Rpy.Foundation.Raising
import Rpy.Foundation.Sha256
import Rpy.Foundation.Table
import Mathlib.Data.String.Basic

namespace Rpy.Migrations

open Rpy.Foundation

/-! ## §1. Files. -/

/-- An SQL file. -/
structure Migration where
  name : String
  sql : String
deriving Repr, DecidableEq

/-- `_checksum`. -/
def checksum (sql : String) : String := Sha256.hexdigest sql.toList

/-- A row of `schema_migrations`; `filename` is its primary key. -/
structure LedgerRow where
  filename : String
  checksumSha256 : String
deriving Repr, DecidableEq

/-- The row of a file that was applied. -/
def Migration.row (path : Migration) : LedgerRow where
  filename := path.name
  checksumSha256 := checksum path.sql

/-- `sorted(directory.glob("*.sql"))`. -/
def sqlFiles (files : List Migration) : List Migration :=
  inOrder Migration.name (files.filter fun path => path.name.endsWith ".sql")

/-- `resolve_migrations`: `directory` lists the files of a directory, and
`configured` is `RPY_MIGRATIONS_DIR`. -/
def resolveMigrations (directory : String → Option (List Migration)) (default : String)
    (migrationsDir configured : Option String) : Except String (List Migration) :=
  let name := migrationsDir.getD ((configured.filter (· ≠ "")).getD default)
  match directory name with
  | none => .error ("migration directory does not exist: " ++ name)
  | some files =>
      let paths := sqlFiles files
      if paths.isEmpty then .error ("migration directory contains no SQL files: " ++ name)
      else .ok paths

/-- What `resolve_migrations` finds are the SQL files of a directory. -/
theorem resolveMigrations_eq_ok {directory : String → Option (List Migration)} {default : String}
    {migrationsDir configured : Option String} {paths : List Migration}
    (h : resolveMigrations directory default migrationsDir configured = .ok paths) :
    ∃ name files, directory name = some files ∧ paths = sqlFiles files := by
  unfold resolveMigrations at h
  dsimp only at h
  split at h
  · cases h
  · next files hdirectory =>
      split at h
      · cases h
      · exact ⟨_, files, hdirectory, (Except.ok.inj h).symm⟩

/-- The newest release has the files of a directory, and others with later
names. -/
def ExtendedBy (release files : List Migration) : Prop :=
  ∃ more, (files ++ more).Perm release ∧ ∀ a ∈ files, ∀ b ∈ more, a.name < b.name

/-- A release that adds files with later names extends the one before. -/
theorem sqlFiles_prefix {release files : List Migration}
    (hnames : (release.map Migration.name).Nodup) (h : ExtendedBy release files) :
    sqlFiles files <+: sqlFiles release := by
  obtain ⟨more, hperm, hlater⟩ := h
  let sql : Migration → Bool := fun path => path.name.endsWith ".sql"
  have hboth : ((files.filter sql ++ more.filter sql).map Migration.name).Nodup := by
    rw [← List.filter_append]
    exact ((hperm.map _).nodup_iff.2 hnames).sublist (List.filter_sublist.map _)
  have hrelease : sqlFiles release = sqlFiles files ++ sqlFiles more := by
    unfold sqlFiles
    rw [← inOrder_append hboth fun a ha b hb =>
      hlater a (List.mem_of_mem_filter ha) b (List.mem_of_mem_filter hb), ← List.filter_append]
    exact (inOrder_eq_of_perm (hperm.filter _) (hnames.sublist (List.filter_sublist.map _))).symm
  rw [hrelease]
  exact List.prefix_append _ _

/-- **A deployment finds the first files of the newest release**, where that
extends every directory it may look at. -/
theorem resolved_prefix {release : List Migration} (hnames : (release.map Migration.name).Nodup)
    {directory : String → Option (List Migration)} {default : String}
    {migrationsDir configured : Option String} {paths : List Migration}
    (hdirectory : ∀ name files, directory name = some files → ExtendedBy release files)
    (h : resolveMigrations directory default migrationsDir configured = .ok paths) :
    paths <+: sqlFiles release := by
  obtain ⟨name, files, hfiles, rfl⟩ := resolveMigrations_eq_ok h
  exact sqlFiles_prefix hnames (hdirectory name files hfiles)

/-! ## §2. The database. -/

/-- The database: what the files work on, and the ledger, once it exists.
The files leave the ledger alone. -/
structure Database (S : Type) where
  schema : S
  ledger : Option (List LedgerRow) := none
deriving Repr, DecidableEq

/-- How a migration ends, where it raises. -/
inductive MigrateError where
  /-- `MigrationDriftError` -/
  | drift (message : String)
  /-- an error of a statement -/
  | sql (message : String)
  /-- a lost connection, a file that cannot be read, … -/
  | environment (message : String)
deriving Repr, DecidableEq

section Database

variable {S : Type}

def Database.rows (db : Database S) : List LedgerRow := db.ledger.getD []

/-- `CREATE TABLE IF NOT EXISTS schema_migrations`. -/
def Database.createLedger (db : Database S) : Database S := { db with ledger := some db.rows }

/-- `SELECT checksum_sha256 FROM schema_migrations WHERE filename = $1`. -/
def Database.recorded (db : Database S) (name : String) : Option String :=
  (db.rows.find? fun row => row.filename == name).map LedgerRow.checksumSha256

def driftError (path : Migration) : MigrateError :=
  .drift ("migration " ++ path.name ++ " changed after being applied")

def duplicateError : MigrateError :=
  .sql "duplicate key value violates unique constraint \"schema_migrations_pkey\""

/-- The transaction of a file: its statements, then its row. -/
def Database.apply (exec : S → String → Except String S) (db : Database S) (path : Migration) :
    Except MigrateError (Database S) := do
  let schema ← (exec db.schema path.sql).mapError .sql
  if (db.recorded path.name).isSome then throw duplicateError
  return { schema, ledger := some (db.rows ++ [path.row]) }

/-- The loop of `migrate`. -/
def migratePaths (exec : S → String → Except String S) :
    List Migration → Database S → Except MigrateError Unit × Database S
  | [], db => (.ok (), db)
  | path :: rest, db =>
      match db.recorded path.name with
      | some recorded =>
          if recorded ≠ checksum path.sql then (.error (driftError path), db)
          else migratePaths exec rest db
      | none =>
          match db.apply exec path with
          | .error e => (.error e, db)
          | .ok db' => migratePaths exec rest db'

/-- `migrate`, of the files of a directory. -/
def migrate (exec : S → String → Except String S) (paths : List Migration) (db : Database S) :
    Except MigrateError Unit × Database S :=
  migratePaths exec paths db.createLedger

/-! ## §3. What is recorded. -/

variable {exec : S → String → Except String S} {db db' : Database S} {path : Migration}

@[simp] theorem rows_createLedger : db.createLedger.rows = db.rows := rfl

theorem recorded_createLedger (name : String) :
    db.createLedger.recorded name = db.recorded name := rfl

theorem recorded_eq_none {name : String} :
    db.recorded name = none ↔ ∀ row ∈ db.rows, row.filename ≠ name := by
  simp [Database.recorded]

/-- The file was applied as it is. -/
theorem row_mem_of_recorded (h : db.recorded path.name = some (checksum path.sql)) :
    path.row ∈ db.rows := by
  obtain ⟨row, hfind, hsum⟩ := Option.map_eq_some_iff.1 h
  have hname : row.filename = path.name := by simpa using List.find?_some hfind
  have hrow : row = path.row := by
    rw [Migration.row, ← hname, ← hsum]
  exact hrow ▸ List.mem_of_find?_eq_some hfind

/-- The primary key of the ledger. -/
theorem recorded_of_row_mem (hkey : (db.rows.map LedgerRow.filename).Nodup)
    (h : path.row ∈ db.rows) : db.recorded path.name = some (checksum path.sql) := by
  have hfind : db.rows.find? (fun row => row.filename == path.name) = some path.row :=
    find?_eq_some_of_unique h (by simp [Migration.row]) fun row hrow hname =>
      eq_of_nodup_key hkey hrow h (by simpa [Migration.row] using hname)
  rw [Database.recorded, hfind]
  rfl

/-- **What the transaction of a file does.** -/
theorem apply_eq_ok (h : db.apply exec path = .ok db') :
    ∃ schema, exec db.schema path.sql = .ok schema ∧ db.recorded path.name = none ∧
      db' = { schema, ledger := some (db.rows ++ [path.row]) } := by
  obtain ⟨schema, hexec, h⟩ := bind_eq_ok.1 h
  by_cases hrecorded : (db.recorded path.name).isSome = true
  · rw [if_pos hrecorded] at h
    cases h
  · rw [if_neg hrecorded] at h
    exact ⟨schema, mapError_eq_ok.1 hexec, by simpa using hrecorded, (Except.ok.inj h).symm⟩

/-! ## §4. One migration. -/

/-- The files of `executed` were applied, in this order: their statements to
the schema, their rows to the ledger. -/
structure Applied (exec : S → String → Except String S) (db : Database S)
    (executed : List Migration) (db' : Database S) : Prop where
  rows : db'.rows = db.rows ++ executed.map Migration.row
  schema : executed.foldlM (fun schema path => exec schema path.sql) db.schema = .ok db'.schema
  fresh : ∀ path ∈ executed, db.recorded path.name = none
  names : (executed.map Migration.name).Nodup

theorem Applied.refl (db : Database S) : Applied exec db [] db :=
  ⟨by simp, rfl, fun _ h => (nomatch h), List.nodup_nil⟩

theorem applied_of_apply (h : db.apply exec path = .ok db') : Applied exec db [path] db' := by
  obtain ⟨schema, hexec, hnone, rfl⟩ := apply_eq_ok h
  refine ⟨rfl, ?_, fun other hother => ?_, List.nodup_singleton _⟩
  · show (exec db.schema path.sql >>= fun schema => pure schema) = _
    rw [hexec]
    rfl
  · rw [List.mem_singleton.1 hother, hnone]

theorem Applied.trans {xs ys : List Migration} {db'' : Database S} (h : Applied exec db xs db')
    (h' : Applied exec db' ys db'') : Applied exec db (xs ++ ys) db'' := by
  have hold : ∀ path ∈ ys, db.recorded path.name = none ∧ path.name ∉ xs.map Migration.name := by
    intro path hpath
    have hnone := recorded_eq_none.1 (h'.fresh path hpath)
    rw [h.rows] at hnone
    refine ⟨recorded_eq_none.2 fun row hrow => hnone row (List.mem_append_left _ hrow), ?_⟩
    intro hmem
    obtain ⟨other, hother, hname⟩ := List.mem_map.1 hmem
    exact hnone other.row (List.mem_append_right _ (List.mem_map_of_mem hother)) hname
  refine ⟨?_, ?_, fun path hpath => ?_, ?_⟩
  · rw [h'.rows, h.rows, List.map_append, List.append_assoc]
  · rw [List.foldlM_append, h.schema]
    exact h'.schema
  · exact (List.mem_append.1 hpath).elim (h.fresh path) fun hy => (hold path hy).1
  · rw [List.map_append, List.nodup_append]
    refine ⟨h.names, h'.names, fun a ha b hb hab => ?_⟩
    obtain ⟨path, hpath, rfl⟩ := List.mem_map.1 hb
    exact (hold path hpath).2 (hab ▸ ha)

/-- The primary key is kept. -/
theorem Applied.key {executed : List Migration} (h : Applied exec db executed db')
    (hkey : (db.rows.map LedgerRow.filename).Nodup) :
    (db'.rows.map LedgerRow.filename).Nodup := by
  have hnames : (executed.map Migration.row).map LedgerRow.filename =
      executed.map Migration.name := by
    rw [List.map_map]
    rfl
  rw [h.rows, List.map_append, hnames, List.nodup_append]
  refine ⟨hkey, h.names, fun a ha b hb hab => ?_⟩
  obtain ⟨row, hrow, rfl⟩ := List.mem_map.1 ha
  obtain ⟨path, hpath, rfl⟩ := List.mem_map.1 hb
  exact recorded_eq_none.1 (h.fresh path hpath) row hrow hab

/-- **The loop**: however it ends, some of the files were applied, none of
them twice; where it returns, the ledger has the row of each. -/
theorem migratePaths_spec (paths : List Migration) (db : Database S) :
    (∃ executed, executed.Sublist paths ∧
      Applied exec db executed (migratePaths exec paths db).2) ∧
    ((migratePaths exec paths db).1 = .ok () →
      ∀ path ∈ paths, path.row ∈ (migratePaths exec paths db).2.rows) := by
  induction paths generalizing db with
  | nil => exact ⟨⟨[], .slnil, .refl db⟩, fun _ _ h => (nomatch h)⟩
  | cons path rest ih =>
      rw [migratePaths]
      cases hrecorded : db.recorded path.name with
      | some recorded =>
          obtain ⟨⟨executed, hsub, happlied⟩, hall⟩ := ih db
          by_cases hsame : recorded ≠ checksum path.sql
          · simp only [if_pos hsame]
            exact ⟨⟨[], List.nil_sublist _, .refl db⟩, fun h => (nomatch h)⟩
          · simp only [if_neg hsame]
            refine ⟨⟨executed, hsub.cons _, happlied⟩, fun h => List.forall_mem_cons.2 ⟨?_, hall h⟩⟩
            rw [happlied.rows]
            exact List.mem_append_left _ (row_mem_of_recorded (hrecorded.trans
              (congrArg some (not_not.1 hsame))))
      | none =>
          cases happly : db.apply exec path with
          | error e =>
              simp only
              exact ⟨⟨[], List.nil_sublist _, .refl db⟩, fun h => (nomatch h)⟩
          | ok db' =>
              obtain ⟨⟨executed, hsub, happlied⟩, hall⟩ := ih db'
              have hfirst := applied_of_apply happly
              simp only
              refine ⟨⟨path :: executed, hsub.cons_cons _, hfirst.trans happlied⟩, fun h =>
                List.forall_mem_cons.2 ⟨?_, hall h⟩⟩
              rw [happlied.rows, hfirst.rows]
              simp

/-- Where the ledger has the row of each file, nothing is left to do. -/
theorem migratePaths_of_rows {paths : List Migration}
    (hkey : (db.rows.map LedgerRow.filename).Nodup) (h : ∀ path ∈ paths, path.row ∈ db.rows) :
    migratePaths exec paths db = (.ok (), db) := by
  induction paths with
  | nil => rfl
  | cons path rest ih =>
      obtain ⟨hpath, hrest⟩ := List.forall_mem_cons.1 h
      rw [migratePaths, recorded_of_row_mem hkey hpath]
      simp only [ne_eq, not_true_eq_false, if_false]
      exact ih hrest

/-- A ledger that exists goes on existing. -/
theorem createLedger_migratePaths (paths : List Migration) {db : Database S}
    (h : db.createLedger = db) :
    (migratePaths exec paths db).2.createLedger = (migratePaths exec paths db).2 := by
  induction paths generalizing db with
  | nil => exact h
  | cons path rest ih =>
      rw [migratePaths]
      cases db.recorded path.name with
      | some recorded =>
          by_cases hsame : recorded ≠ checksum path.sql
          · simp only [if_pos hsame]
            exact h
          · simp only [if_neg hsame]
            exact ih h
      | none =>
          cases happly : db.apply exec path with
          | error e => exact h
          | ok db' =>
              obtain ⟨_, -, -, rfl⟩ := apply_eq_ok happly
              exact ih rfl

/-- **A migration that returned is done**: made again, it changes nothing. -/
theorem migrate_again (exec : S → String → Except String S) (paths : List Migration)
    (db : Database S) (hkey : (db.rows.map LedgerRow.filename).Nodup)
    (h : (migrate exec paths db).1 = .ok ()) :
    migrate exec paths (migrate exec paths db).2 = (.ok (), (migrate exec paths db).2) := by
  obtain ⟨⟨executed, -, happlied⟩, hall⟩ := @migratePaths_spec S exec paths db.createLedger
  have hledger : (migrate exec paths db).2.createLedger = (migrate exec paths db).2 :=
    createLedger_migratePaths paths rfl
  show migratePaths exec paths (migrate exec paths db).2.createLedger = _
  rw [hledger]
  exact migratePaths_of_rows (happlied.key hkey) (hall h)

end Database

/-- Files that are applied by being remembered, unless they are empty. -/
def remember (schema : List String) (sql : String) : Except String (List String) :=
  if sql = "" then .error "syntax error" else .ok (schema ++ [sql])

/-- Two files. -/
def twoFiles : List Migration :=
  [⟨"001_init.sql", "CREATE TABLE jobs"⟩, ⟨"002_more.sql", "ALTER TABLE jobs"⟩]

/-- They are applied to an empty database, and nothing is left to do. -/
theorem migrate_again_twoFiles :
    (migrate remember twoFiles { schema := [] }).2.schema = ["CREATE TABLE jobs", "ALTER TABLE jobs"] ∧
      migrate remember twoFiles (migrate remember twoFiles { schema := [] }).2 =
        (.ok (), (migrate remember twoFiles { schema := [] }).2) :=
  ⟨rfl, migrate_again remember twoFiles { schema := [] } List.nodup_nil rfl⟩

end Rpy.Migrations

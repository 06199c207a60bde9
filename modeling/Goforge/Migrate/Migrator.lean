import Goforge.Lib.Fallible
import Goforge.Migrate.Ledger

set_option autoImplicit false

namespace Goforge.Migrate

open Fallible GoString

-- %x of SHA-256, time.Parse with time.RFC3339Nano, and %q.
structure Runtime where
  sha256Hex : Bytes → Bytes
  parseTime : Bytes → Except Bytes Int
  quote : Bytes → Bytes

-- What the world decides: which statement fails and why, what the clock shows,
-- the order in which a map is walked, and, for MySQL, whether a failed
-- transaction had been committed implicitly.
structure Environment where
  fails : Nat → Bool
  reason : Nat → Bytes
  now : Nat → Bytes
  keeps : Nat → Bool
  shuffle : (A : Type) → Nat → List A → List A
  shuffled : ∀ A number items, (shuffle A number items).Perm items

-- The database, the number of statements sent to it, and the slice that Up and
-- Down fill.
structure Session where
  db : Database
  clock : Nat
  completed : List Migration

abbrev Step := Fallible Failure Session

def Environment.statement {α : Type} (env : Environment) (context : Bytes) (sql : Sql α) : Step α := fun s =>
  let later := { s with clock := s.clock + 1 }
  if env.fails s.clock then (.error (.wrapped context (env.reason s.clock)), later)
  else
    match sql s.db with
    | none => (.error (.wrapped context (env.reason s.clock)), later)
    | some (answer, db) => (.ok answer, { later with db := db })

def Environment.walk {A : Type} (env : Environment) (items : List A) : Step (List A) := fun s =>
  (.ok (env.shuffle A s.clock items), s)

def Environment.time (env : Environment) : Step Bytes := fun s => (.ok (env.now s.clock), s)

def orFail {α : Type} : Except Failure α → Step α
  | .ok a => pure a
  | .error failure => fail failure

inductive Dialect where
  | postgres
  | mySQL
  | sqlite
deriving DecidableEq, Repr

structure Migrator where
  dialect : Dialect
  table : Bytes
deriving DecidableEq, Repr

-- ^[a-zA-Z_][a-zA-Z0-9_]*$
def tableName : Bytes → Bool
  | [] => false
  | first :: rest =>
    let letter := fun b => within (byte 'a') (byte 'z') b || within (byte 'A') (byte 'Z') b || b = byte '_'
    letter first && rest.all (fun b => letter b || isDigit b)

-- table(); the calls after the first give the same name.
def Migrator.tableChecked (migrator : Migrator) : Except Failure Bytes :=
  if migrator.table = [] then .ok (ascii "schema_migrations")
  else if tableName migrator.table then .ok migrator.table
  else .error (.unsafeTable migrator.table)

def mysqlUpgradeMarker : Bytes := ascii "__goforge_checksum_upgrade__"

-- A failed commit leaves nothing behind; so does an error, whatever becomes of
-- the rollback, but MySQL may have committed before a statement of its own accord.
def inTransaction {α : Type} (env : Environment) (dialect : Dialect) (work : Step α) : Step α := do
  env.statement (ascii "begin migration transaction") noEffect
  fun s =>
    match work s with
    | (.ok a, t) =>
      if env.fails t.clock then
        (.error (.wrapped (ascii "commit migration transaction") (env.reason t.clock)),
          { t with db := if dialect = .mySQL ∧ env.keeps t.clock then t.db else s.db, clock := t.clock + 1 })
      else (.ok a, { t with clock := t.clock + 1 })
    | (.error failure, t) =>
      (.error (if env.fails t.clock then
          .joined failure (.wrapped (ascii "rollback migration transaction") (env.reason t.clock)) else failure),
        { t with db := if dialect = .mySQL ∧ env.keeps t.clock then t.db else s.db, clock := t.clock + 1 })

-- withRunLock: only PostgreSQL takes a lock.
def withRunLock {α : Type} (env : Environment) (dialect : Dialect) (work : Step α) : Step α :=
  if dialect ≠ .postgres then work
  else do
    env.statement (ascii "reserve migration connection") noEffect
    env.statement (ascii "acquire PostgreSQL migration lock") noEffect
    fun s =>
      let (outcome, t) := work s
      let unlockErr := Failure.wrapped (ascii "release PostgreSQL migration lock") (env.reason t.clock)
      let later := { t with clock := t.clock + 1 }
      if env.fails t.clock then
        match outcome with
        | .ok _ => (.error unlockErr, later)
        | .error failure => (.error (.joined failure unlockErr), later)
      else (outcome, later)

structure AppliedMigration where
  name : Bytes
  checksum : Option Bytes
  appliedAt : Int
deriving DecidableEq, Repr

abbrev Applied := List (Bytes × AppliedMigration)

section

variable (rt : Runtime) (env : Environment) (migrator : Migrator)

def loadFiles (entries : Except Bytes (List Entry)) : Step (List Migration) := fun s =>
  orFail (load entries (env.shuffle Migration s.clock)) s

-- The marker is no migration of its own.
def readRecords : List Record → Except Failure Applied
  | [] => .ok []
  | record :: rest =>
    if migrator.dialect = .mySQL ∧ record.version = mysqlUpgradeMarker then readRecords rest
    else
      match rt.parseTime record.appliedAt with
      | .error err => .error (.wrapped (ascii "parse applied time for migration " ++ record.version) err)
      | .ok appliedAt =>
        (readRecords rest).map (fun others =>
          (record.version, { name := record.name, checksum := record.checksum, appliedAt := appliedAt }) :: others)

def applied : Step Applied := do
  let records ← env.statement [] selectRecords
  orFail (readRecords rt migrator records)

def checksum (migration : Migration) : Bytes := rt.sha256Hex migration.up

def findVersion (migrations : List Migration) (version : Bytes) : Option Migration :=
  migrations.find? (fun migration => migration.version = version)

def verifyEntry (migrations : List Migration) (allowChecksumBackfill : Bool) (entry : Bytes × AppliedMigration) :
    Step Unit :=
  match findVersion migrations entry.1 with
  | none => fail (.drift entry.1 .missing)
  | some migration =>
    if entry.2.name ≠ migration.name then fail (.drift entry.1 (.name entry.2.name migration.name))
    else
      match entry.2.checksum with
      | some stored => if stored ≠ checksum rt migration then fail (.drift entry.1 .checksum) else pure ()
      | none =>
        if !allowChecksumBackfill then fail (.drift entry.1 .noChecksum)
        else do
          let affected ← env.statement (ascii "backfill checksum for migration " ++ entry.1)
            (backfillChecksum entry.1 (checksum rt migration))
          env.statement (ascii "confirm checksum backfill for migration " ++ entry.1) noEffect
          if affected ≠ 1 then fail (.backfill entry.1 affected) else pure ()

def verifyApplied (migrations : List Migration) (entries : Applied) (allowChecksumBackfill : Bool) : Step Unit := do
  let order ← env.walk entries
  each (verifyEntry rt env migrations allowChecksumBackfill) order

def addNullableChecksum : Step Unit := env.statement (ascii "upgrade migrations table") addNullableColumn

def ensureColumn (hasChecksum : Bool) : Step Unit := if hasChecksum then pure () else addNullableChecksum env

def enforceText : Bytes := ascii "enforce migration checksum constraint"

def enforceChecksumNotNull : Step Unit :=
  match migrator.dialect with
  | .postgres | .mySQL => env.statement enforceText setNotNull
  | .sqlite => do
      env.statement enforceText createTemporary
      env.statement enforceText copyRecords
      env.statement enforceText dropLedger
      env.statement enforceText renameTemporary

def removeMySQLUpgradeMarker : Step Unit :=
  env.statement (ascii "finish MySQL checksum upgrade") (deleteVersion mysqlUpgradeMarker)

def markerRecord (now : Bytes) : Record :=
  { version := mysqlUpgradeMarker, name := mysqlUpgradeMarker, checksum := none, appliedAt := now }

-- The marker is written unless an earlier run left it.
def markUpgrade (hasChecksum : Bool) : Step Unit := do
  let markerExists ← env.statement (ascii "inspect MySQL checksum upgrade") (versionExists mysqlUpgradeMarker)
  if markerExists then pure ()
  else do
    let now ← env.time
    env.statement (ascii "record MySQL checksum upgrade") (insertRecord hasChecksum (markerRecord now))

def upgradeMySQLChecksums (migrations : List Migration) (hasChecksum : Bool) : Step Unit := do
  markUpgrade env hasChecksum
  ensureColumn env hasChecksum
  let entries ← applied rt env migrator
  verifyApplied rt env migrations entries true
  env.statement (ascii "advance MySQL checksum upgrade")
    (updateChecksum mysqlUpgradeMarker (rt.sha256Hex mysqlUpgradeMarker))
  enforceChecksumNotNull env migrator
  removeMySQLUpgradeMarker env

def upgradeLegacyChecksums (migrations : List Migration) (hasChecksum : Bool) : Step Unit :=
  if migrator.dialect = .mySQL then upgradeMySQLChecksums rt env migrator migrations hasChecksum
  else
    inTransaction env migrator.dialect (do
      ensureColumn env hasChecksum
      let entries ← applied rt env migrator
      verifyApplied rt env migrations entries true
      enforceChecksumNotNull env migrator)

def prepare (migrations : List Migration) : Step Unit := do
  let _ ← orFail migrator.tableChecked
  env.statement (ascii "prepare migrations table") createLedger
  let (hasChecksum, checksumNullable) ← env.statement (ascii "inspect migrations table") columnState
  if !hasChecksum || checksumNullable then upgradeLegacyChecksums rt env migrator migrations hasChecksum
  else if migrator.dialect = .mySQL then removeMySQLUpgradeMarker env
  else pure ()

def complete (migration : Migration) : Step Unit :=
  fun s => (.ok (), { s with completed := s.completed ++ [migration] })

def completedSoFar : Step (List Migration) := fun s => (.ok s.completed, s)

def executeUp (migration : Migration) : Step Unit := do
  env.statement (ascii "execute migration " ++ migration.version)
    (runScript { version := migration.version, direction := .up, text := migration.up })
  let now ← env.time
  env.statement (ascii "record migration " ++ migration.version) (insertRecord true
    { version := migration.version, name := migration.name, checksum := some (checksum rt migration),
      appliedAt := now })

-- The loop of Up over the files.
def upEach (entries : Applied) (limit : Int) : List Migration → Step Unit
  | [] => pure ()
  | migration :: rest =>
    if migration.version ∈ entries.map Prod.fst then upEach entries limit rest
    else do
      let completed ← completedSoFar
      if limit > 0 ∧ limit ≤ completed.length then pure ()
      else if isBlank migration.up then fail (.emptyScript migration.version .up)
      else do
        inTransaction env migrator.dialect (executeUp rt env migration)
        complete migration
        upEach entries limit rest

-- The part that Up, Down and Status share.
def verified (files : Except Bytes (List Entry)) : Step (List Migration × Applied) := do
  let migrations ← loadFiles env files
  prepare rt env migrator migrations
  let entries ← applied rt env migrator
  verifyApplied rt env migrations entries false
  return (migrations, entries)

def up (files : Except Bytes (List Entry)) (limit : Int) : Step Unit :=
  withRunLock env migrator.dialect (do
    let (migrations, entries) ← verified rt env migrator files
    upEach rt env migrator entries limit migrations)

def executeDown (migration : Migration) : Step Unit := do
  env.statement (ascii "rollback migration " ++ migration.version)
    (runScript { version := migration.version, direction := .down, text := migration.down })
  env.statement [] (deleteVersion migration.version)

def downEach (migrations : List Migration) (version : Bytes) : Step Unit :=
  match findVersion migrations version with
  | none => fail (.unlisted version)
  | some migration =>
    if isBlank migration.down then fail (.emptyScript version .down)
    else do
      inTransaction env migrator.dialect (executeDown env migration)
      complete migration

def down (files : Except Bytes (List Entry)) (steps : Int) : Step Unit :=
  withRunLock env migrator.dialect (do
    let (migrations, _) ← verified rt env migrator files
    let versions ← env.statement (ascii "list applied migrations") selectVersions
    each (downEach env migrator migrations) (versions.take (if steps ≤ 0 then 1 else steps.toNat)))

structure Status where
  version : Bytes
  name : Bytes
  appliedAt : Option Int
deriving DecidableEq, Repr

-- Applied says whether AppliedAt is there.
def statusOf (entries : Applied) (migration : Migration) : Status :=
  { version := migration.version, name := migration.name,
    appliedAt := (entries.lookup migration.version).map AppliedMigration.appliedAt }

def status (files : Except Bytes (List Entry)) : Step (List Status) :=
  withRunLock env migrator.dialect (do
    let (migrations, entries) ← verified rt env migrator files
    return migrations.map (statusOf entries))

def verify (files : Except Bytes (List Entry)) : Step Unit := do
  let migrations ← loadFiles env files
  let _ ← orFail migrator.tableChecked
  let (hasChecksum, checksumNullable) ← env.statement (ascii "inspect migrations table") columnState
  if !hasChecksum || checksumNullable then fail .upgradeRequired
  else do
    let entries ← applied rt env migrator
    verifyApplied rt env migrations entries false
    match migrations.find? (fun migration => migration.version ∉ entries.map Prod.fst) with
    | some migration => fail (.pending migration.version)
    | none => pure ()

structure Answer where
  completed : List Migration
  err : Option Failure
deriving DecidableEq, Repr

def finish (outcome : Except Failure Unit × Session) : Answer × Database :=
  ({ completed := outcome.2.completed, err := match outcome.1 with
      | .ok _ => none
      | .error failure => some failure }, outcome.2.db)

def openSession (db : Database) : Session := { db := db, clock := 0, completed := [] }

end

end Goforge.Migrate

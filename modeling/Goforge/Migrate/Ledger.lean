import Goforge.Migrate.Source

set_option autoImplicit false

namespace Goforge.Migrate

open GoString

structure Record where
  version : Bytes
  name : Bytes
  checksum : Option Bytes
  appliedAt : Bytes
deriving DecidableEq, Repr

inductive ChecksumColumn where
  | absent
  | nullable
  | notNull
deriving DecidableEq, Repr

def ChecksumColumn.admits : ChecksumColumn → Option Bytes → Bool
  | .absent, checksum => checksum.isNone
  | .nullable, _ => true
  | .notNull, checksum => checksum.isSome

structure Ledger where
  column : ChecksumColumn
  records : List Record
  primaryKey : (records.map Record.version).Nodup
  admitted : ∀ record ∈ records, column.admits record.checksum = true

def Ledger.empty : Ledger where
  column := .notNull
  records := []
  primaryKey := List.nodup_nil
  admitted := List.forall_mem_nil _

def Ledger.insert (ledger : Ledger) (record : Record) : Option Ledger :=
  if allowed : record.version ∉ ledger.records.map Record.version ∧ ledger.column.admits record.checksum = true then
    some {
      column := ledger.column
      records := ledger.records ++ [record]
      primaryKey := by
        rw [List.map_append, List.map_singleton]
        refine List.nodup_append.mpr ⟨ledger.primaryKey, by simp, ?_⟩
        intro version member other single same
        rw [same, List.mem_singleton.mp single] at member
        exact allowed.1 member
      admitted := by
        intro other member
        rcases List.mem_append.mp member with inside | single
        · exact ledger.admitted other inside
        · rw [List.mem_singleton.mp single]
          exact allowed.2 }
  else none

def Ledger.delete (ledger : Ledger) (version : Bytes) : Ledger where
  column := ledger.column
  records := ledger.records.filter (fun record => record.version ≠ version)
  primaryKey := ledger.primaryKey.sublist (List.filter_sublist.map _)
  admitted := fun record member => ledger.admitted record (List.mem_filter.mp member).1

def Record.fill (record : Record) (chosen : Record → Bool) (checksum : Bytes) : Record :=
  if chosen record then { record with checksum := some checksum } else record

theorem fill_version (record : Record) (chosen : Record → Bool) (checksum : Bytes) :
    (record.fill chosen checksum).version = record.version := by
  rw [Record.fill]
  split <;> rfl

-- UPDATE .. SET checksum = .. of the rows chosen
def Ledger.setChecksum (ledger : Ledger) (chosen : Record → Bool) (checksum : Bytes) : Option Ledger :=
  if present : ledger.column ≠ .absent then
    some {
      column := ledger.column
      records := ledger.records.map (fun record => record.fill chosen checksum)
      primaryKey := by
        rw [List.map_map]
        have same : Record.version ∘ (fun record : Record => record.fill chosen checksum) = Record.version := by
          funext record
          exact fill_version record chosen checksum
        rw [same]
        exact ledger.primaryKey
      admitted := by
        intro record member
        obtain ⟨old, inside, rfl⟩ := List.mem_map.mp member
        rw [Record.fill]
        split
        · cases column : ledger.column with
          | absent => exact absurd column present
          | _ => rfl
        · exact ledger.admitted old inside }
  else none

-- ALTER TABLE .. ADD COLUMN checksum .. NULL
def Ledger.addColumn (ledger : Ledger) : Option Ledger :=
  if ledger.column = .absent then
    some { column := .nullable, records := ledger.records, primaryKey := ledger.primaryKey, admitted := fun _ _ => rfl }
  else none

-- ALTER TABLE .. checksum .. NOT NULL
def Ledger.requireChecksum (ledger : Ledger) : Option Ledger :=
  if filled : ledger.column ≠ .absent ∧ ∀ record ∈ ledger.records, record.checksum.isSome = true then
    some { column := .notNull, records := ledger.records, primaryKey := ledger.primaryKey, admitted := filled.2 }
  else none

-- INSERT .. SELECT of the rows of another table
def Ledger.insertAll (ledger : Ledger) (records : List Record) : Option Ledger := records.foldlM Ledger.insert ledger

structure Script where
  version : Bytes
  direction : Direction
  text : Bytes
deriving DecidableEq, Repr

structure Database where
  ledger : Option Ledger
  temporary : Option Ledger
  scripts : List Script

abbrev Sql (α : Type) := Database → Option (α × Database)

def Database.records (db : Database) : List Record := (db.ledger.map Ledger.records).getD []

def Database.versions (db : Database) : List Bytes := db.records.map Record.version

def onLedger (change : Ledger → Option Ledger) : Sql Unit := fun db =>
  (db.ledger.bind change).map (fun ledger => ((), { db with ledger := some ledger }))

def noEffect : Sql Unit := fun db => some ((), db)

-- CREATE TABLE IF NOT EXISTS
def createLedger : Sql Unit := fun db => some ((), { db with ledger := some (db.ledger.getD .empty) })

def columnState : Sql (Bool × Bool) := fun db =>
  match db.ledger.map Ledger.column with
  | none | some .absent => some ((false, false), db)
  | some .nullable => some ((true, true), db)
  | some .notNull => some ((true, false), db)

def selectRecords : Sql (List Record) := fun db =>
  match db.ledger with
  | none => none
  | some ledger => if ledger.column = .absent then none else some (ledger.records, db)

-- SELECT version .. ORDER BY version DESC. The versions of migrations are digits,
-- which a collation orders as their bytes.
def selectVersions : Sql (List Bytes) := fun db =>
  db.ledger.map (fun ledger => ((sortBy id (ledger.records.map Record.version)).reverse, db))

def versionExists (version : Bytes) : Sql Bool := fun db =>
  db.ledger.map (fun ledger => (ledger.records.any (fun record => record.version = version), db))

def insertRecord (named : Bool) (record : Record) : Sql Unit :=
  onLedger (fun ledger => if named && ledger.column = .absent then none else ledger.insert record)

def deleteVersion (version : Bytes) : Sql Unit := onLedger (fun ledger => some (ledger.delete version))

def lacksChecksum (version : Bytes) (record : Record) : Bool := record.version = version && record.checksum.isNone

-- UPDATE .. SET checksum = .. WHERE version = .. AND checksum IS NULL; the answer
-- is the number of rows affected.
def backfillChecksum (version checksum : Bytes) : Sql Nat := fun db =>
  match db.ledger with
  | none => none
  | some ledger =>
    (ledger.setChecksum (lacksChecksum version) checksum).map (fun changed =>
      ((ledger.records.filter (lacksChecksum version)).length, { db with ledger := some changed }))

def updateChecksum (version checksum : Bytes) : Sql Unit :=
  onLedger (fun ledger => ledger.setChecksum (fun record => record.version = version) checksum)

def addNullableColumn : Sql Unit := onLedger Ledger.addColumn

def setNotNull : Sql Unit := onLedger Ledger.requireChecksum

def createTemporary : Sql Unit := fun db =>
  if db.temporary.isSome then none else some ((), { db with temporary := some .empty })

def copyRecords : Sql Unit := fun db =>
  match db.ledger, db.temporary with
  | some ledger, some temporary =>
    if ledger.column = .absent then none
    else (temporary.insertAll ledger.records).map (fun filled => ((), { db with temporary := some filled }))
  | _, _ => none

def dropLedger : Sql Unit := fun db => db.ledger.map (fun _ => ((), { db with ledger := none }))

def renameTemporary : Sql Unit := fun db =>
  match db.ledger, db.temporary with
  | none, some temporary => some ((), { db with ledger := some temporary, temporary := none })
  | _, _ => none

def runScript (script : Script) : Sql Unit := fun db => some ((), { db with scripts := db.scripts ++ [script] })

theorem insert_records {ledger : Ledger} (changed : Ledger) (record : Record)
    (inserted : ledger.insert record = some changed) :
    changed.records = ledger.records ++ [record] ∧ changed.column = ledger.column ∧
      record.version ∉ ledger.records.map Record.version := by
  rw [Ledger.insert] at inserted
  split at inserted
  · rename_i allowed
    cases inserted
    exact ⟨rfl, rfl, allowed.1⟩
  · cases inserted

theorem insert_all_records (ledger : Ledger) {changed : Ledger} {records : List Record}
    (inserted : ledger.insertAll records = some changed) : changed.records = ledger.records ++ records := by
  induction records generalizing ledger with
  | nil =>
    cases inserted
    exact (List.append_nil _).symm
  | cons record records ih =>
    rw [Ledger.insertAll, List.foldlM_cons] at inserted
    cases first : ledger.insert record with
    | none =>
      rw [first] at inserted
      cases inserted
    | some next =>
      rw [first] at inserted
      rw [ih next inserted, (insert_records next record first).1, List.append_assoc]
      rfl

end Goforge.Migrate

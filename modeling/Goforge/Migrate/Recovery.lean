import Goforge.Migrate.Calls
import Goforge.Migrate.Marker

set_option autoImplicit false

namespace Goforge.Migrate

open Fallible GoString

section Blind

def Database.withoutMarker (db : Database) : Database :=
  { db with ledger := db.ledger.map (fun ledger => ledger.delete mysqlUpgradeMarker) }

def Session.withoutMarker (s : Session) : Session := { s with db := s.db.withoutMarker }

variable {α β : Type}

def Blind (action : Step α) : Prop := ∀ s : Session, action s.withoutMarker = ((action s).1, (action s).2.withoutMarker)

theorem blind_pure (a : α) : Blind (pure a : Step α) := fun _ => rfl

theorem blind_fail (failure : Failure) : Blind (fail failure : Step α) := fun _ => rfl

theorem blind_bind {action : Step α} {next : α → Step β} (first : Blind action) (second : ∀ a, Blind (next a)) :
    Blind (action >>= next) := by
  intro s
  cases outcome : action s with
  | mk result t =>
    have there : action s.withoutMarker = (result, t.withoutMarker) := by rw [first s, outcome]
    cases result with
    | ok a =>
      rw [bind_ok action next _ _ a there, bind_ok action next _ _ a outcome]
      exact second a t
    | error err => rw [bind_error next there, bind_error next outcome]

theorem blind_query (env : Environment) {context : Bytes} {sql : Sql α} {next : α → Step β} (seen : α → α)
    (same : ∀ db, sql db.withoutMarker = (sql db).map (fun answer => (seen answer.1, answer.2.withoutMarker)))
    (reads : ∀ a, next (seen a) = next a) (later : ∀ a, Blind (next a)) :
    Blind (env.statement context sql >>= next) := by
  intro s
  have there : env.statement context sql s.withoutMarker =
      ((env.statement context sql s).1.map seen, (env.statement context sql s).2.withoutMarker) := by
    rw [Environment.statement, Environment.statement]
    show (if env.fails s.clock then _ else _) = _
    split
    · rfl
    · rw [show sql s.withoutMarker.db = _ from same s.db]
      cases sql s.db <;> rfl
  cases outcome : env.statement context sql s with
  | mk result t =>
    rw [outcome] at there
    cases result with
    | ok a =>
      rw [bind_ok _ next _ _ _ there, bind_ok _ next _ _ a outcome, reads]
      exact later a t
    | error err => rw [bind_error next there, bind_error next outcome]

theorem blind_each {f : α → Step Unit} (each_ : ∀ a, Blind (f a)) (items : List α) : Blind (each f items) := by
  induction items with
  | nil => exact blind_pure ()
  | cons item items ih => exact blind_bind (each_ item) (fun _ => ih)

theorem read_records_blind (rt : Runtime) {migrator : Migrator} (mysql : migrator.dialect = .mySQL)
    (records : List Record) :
    readRecords rt migrator (records.filter (fun record => record.version ≠ mysqlUpgradeMarker)) =
      readRecords rt migrator records := by
  induction records with
  | nil => rfl
  | cons record records ih =>
    by_cases marker : record.version = mysqlUpgradeMarker
    · rw [List.filter_cons, if_neg (by simp [marker]), readRecords, if_pos ⟨mysql, marker⟩, ih]
    · rw [List.filter_cons, if_pos (by simp [marker]), readRecords, readRecords, ih]

variable (rt : Runtime) (env : Environment) (migrator : Migrator) (mysql : migrator.dialect = .mySQL)

include mysql in
theorem applied_blind : Blind (applied rt env migrator) := by
  refine blind_query env (fun records => records.filter (fun record => record.version ≠ mysqlUpgradeMarker)) ?_ ?_ ?_
  · rintro ⟨ledger, temporary, scripts⟩
    cases ledger with
    | none => rfl
    | some ledger =>
      show (if ledger.column = .absent then none else _) = Option.map _ (if ledger.column = .absent then none else _)
      split <;> rfl
  · exact fun records => congrArg orFail (read_records_blind rt mysql records)
  · intro records s
    cases readRecords rt migrator records <;> rfl

theorem verify_entry_blind (migrations : List Migration) (entry : Bytes × AppliedMigration) :
    Blind (verifyEntry rt env migrations false entry) := by
  rw [verifyEntry]
  cases findVersion migrations entry.1 with
  | none => exact blind_fail _
  | some migration =>
    simp only
    split
    · exact blind_fail _
    · cases entry.2.checksum with
      | none => exact blind_fail _
      | some stored =>
        simp only
        split
        · exact blind_fail _
        · exact blind_pure ()

include mysql in
theorem verify_blind (files : Except Bytes (List Entry)) : Blind (verify rt env migrator files) := by
  refine blind_bind ?_ ?_
  · intro s
    rw [loadFiles, loadFiles]
    show orFail (load files (env.shuffle Migration s.clock)) s.withoutMarker = _
    cases load files (env.shuffle Migration s.clock) <;> rfl
  · intro migrations
    refine blind_bind ?_ ?_
    · cases migrator.tableChecked with
      | ok table => exact blind_pure table
      | error failure => exact blind_fail failure
    · intro _
      refine blind_query env id ?_ (fun _ => rfl) ?_
      · intro db
        have columns : db.withoutMarker.ledger.map Ledger.column = db.ledger.map Ledger.column := by
          rw [Database.withoutMarker, Option.map_map]
          rfl
        rw [columnState, columnState, columns]
        generalize db.ledger.map Ledger.column = state
        cases state with
        | none => rfl
        | some column => cases column <;> rfl
      · rintro ⟨hasChecksum, checksumNullable⟩
        simp only
        split
        · exact blind_fail _
        · refine blind_bind (applied_blind rt env migrator mysql) ?_
          intro entries
          refine blind_bind ?_ ?_
          · refine blind_bind (fun _ => rfl) ?_
            intro order
            exact blind_each (verify_entry_blind rt env migrations) order
          · intro _
            split
            · exact blind_fail _
            · exact blind_pure ()

end Blind

section

variable (rt : Runtime) (migrator : Migrator) (migrations : List Migration)

def prepareRuns : List Environment → Database → Database
  | [], db => db
  | env :: rest, db => prepareRuns rest (prepare rt env migrator migrations (openSession db)).2.db

variable (mysql : migrator.dialect = .mySQL) (table : Bytes) (named : migrator.tableChecked = .ok table)

include mysql named in
theorem runs_resumable (original : List Record) (runs : List Environment) (db : Database)
    (resumable : OnLedger (Resumable rt migrations original) db []) :
    OnLedger (Resumable rt migrations original) (prepareRuns rt migrator migrations runs db) [] := by
  induction runs generalizing db with
  | nil => exact resumable
  | cons env runs ih =>
    refine ih _ ?_
    have reached := prepare_sure env mysql table named (openSession db) resumable
    generalize prepare rt env migrator migrations (openSession db) = outcome at reached ⊢
    obtain ⟨result, s⟩ := outcome
    cases result with
    | ok _ =>
      obtain ⟨ledger, present, upgraded⟩ := reached
      exact ⟨ledger, present, upgraded.resumable⟩
    | error failure =>
      obtain ⟨⟨ledger, present, here⟩, _⟩ := reached
      exact ⟨ledger, present, here⟩

include mysql named in
theorem calm_prepare {original : List Record} {env : Environment} (calm : ∀ number, env.fails number = false)
    {db : Database} (resumable : OnLedger (Resumable rt migrations original) db []) :
    ∃ s, prepare rt env migrator migrations (openSession db) = (.ok (), s) ∧
      ∃ ledger, s.db.ledger = some ledger ∧ Upgraded rt migrations original ledger := by
  have reached := prepare_sure env mysql table named (openSession db) resumable
  cases outcome : prepare rt env migrator migrations (openSession db) with
  | mk result s =>
    rw [outcome] at reached
    cases result with
    | ok _ => exact ⟨s, rfl, reached⟩
    | error failure =>
      obtain ⟨_, number, failing⟩ := reached
      rw [calm number] at failing
      cases failing

theorem legacy_resumable {ledger : Ledger} (digits : ∀ migration ∈ migrations, migration.version.all isDigit = true)
    (accounted : ∀ record ∈ ledger.records, Accounted rt migrations record) :
    Resumable rt migrations ledger.records ledger := by
  have plain : ledger.plain = ledger.records := by
    rw [Ledger.plain, List.filter_eq_self]
    intro record member
    obtain ⟨migration, found, _⟩ := (accounted record member).known
    have own : migration.version = record.version := by simpa using List.find?_some found
    refine decide_eq_true ?_
    rw [← own]
    exact digits_unmarked (digits migration (List.mem_of_find?_eq_some found))
  exact ⟨by rw [plain], by rw [plain]; exact accounted⟩

theorem upgraded_final {original : List Record} {ledger : Ledger} (upgraded : Upgraded rt migrations original ledger) :
    ledger.column = .notNull ∧ ledger.records.map Record.identity = original.map Record.identity ∧
      ∀ record ∈ ledger.records, record.version ≠ mysqlUpgradeMarker ∧
        ∃ migration, findVersion migrations record.version = some migration ∧
          record.checksum = some (checksum rt migration) := by
  have plain : ledger.plain = ledger.records := List.filter_eq_self.mpr upgraded.unmarked
  have same := upgraded.resumable.same
  rw [plain] at same
  refine ⟨upgraded.required, same, ?_⟩
  intro record member
  refine ⟨of_decide_eq_true (upgraded.unmarked record member), ?_⟩
  obtain ⟨migration, found, _, right⟩ := (upgraded.resumable.accounted record (plain ▸ member)).known
  have filled := ledger.admitted record member
  rw [upgraded.required] at filled
  obtain ⟨stored, present⟩ := Option.isSome_iff_exists.mp filled
  exact ⟨migration, found, by rw [present, right stored present]⟩

end

structure IgnoresMarker {α : Type} (db : Database) (outcome : Except Failure α × Session) : Prop where
  unblamed : ∀ failure, outcome.1 = .error failure → ¬ failure.Blames
  unmarked : Unmarked db outcome.2.db outcome.2.completed

theorem fair_ignores {α : Type} {db : Database} {action : Step α} {after : α → Session → Prop}
    (fair : Triple (On (Unmarked db)) action after (Fair (Unmarked db)))
    (kept : ∀ a s, after a s → On (Unmarked db) s) : IgnoresMarker db (action (openSession db)) := by
  have reached := fair (openSession db) ⟨fun script member => .inl member, List.forall_mem_nil _⟩
  generalize action (openSession db) = outcome at reached ⊢
  obtain ⟨result, s⟩ := outcome
  cases result with
  | ok a => exact ⟨by rintro failure ⟨⟩, kept a s reached⟩
  | error failure =>
    refine ⟨?_, reached.1⟩
    rintro other ⟨⟩
    exact reached.2

theorem checksum_upgrade_is_crash_safe (rt : Runtime) (migrator : Migrator) (mysql : migrator.dialect = .mySQL) :
    (∀ (table : Bytes) (files : Except Bytes (List Entry)) (source : Environment) (number : Nat)
      (migrations : List Migration) (db : Database) (ledger : Ledger) (runs : List Environment) (calm : Environment),
      migrator.tableChecked = .ok table → load files (source.shuffle Migration number) = .ok migrations →
      db.ledger = some ledger → (∀ record ∈ ledger.records, Accounted rt migrations record) →
      (∀ number, calm.fails number = false) →
      ∃ s final, prepare rt calm migrator migrations (openSession (prepareRuns rt migrator migrations runs db)) =
          (.ok (), s) ∧ s.db.ledger = some final ∧ final.column = .notNull ∧
        final.records.map Record.identity = ledger.records.map Record.identity ∧
        ∀ record ∈ final.records, record.version ≠ mysqlUpgradeMarker ∧
          ∃ migration, findVersion migrations record.version = some migration ∧
            record.checksum = some (checksum rt migration)) ∧
    (∀ (env : Environment) (files : Except Bytes (List Entry)) (db : Database),
      (∀ limit, IgnoresMarker db (up rt env migrator files limit (openSession db))) ∧
      (∀ steps, IgnoresMarker db (down rt env migrator files steps (openSession db))) ∧
      IgnoresMarker db (status rt env migrator files (openSession db)) ∧
      (∀ lines s, status rt env migrator files (openSession db) = (.ok lines, s) →
        ∀ line ∈ lines, line.version ≠ mysqlUpgradeMarker) ∧
      IgnoresMarker db (verify rt env migrator files (openSession db)) ∧
      (verify rt env migrator files (openSession db.withoutMarker)).1 =
        (verify rt env migrator files (openSession db)).1) := by
  constructor
  · intro table files source number migrations db ledger runs calm named loaded present accounted quiet
    have digits := (load_loaded (source.shuffled Migration number) loaded).digits
    have start : OnLedger (Resumable rt migrations ledger.records) db [] :=
      ⟨ledger, present, legacy_resumable rt migrations digits accounted⟩
    obtain ⟨s, done, final, found, upgraded⟩ := calm_prepare rt migrator migrations mysql table named
      quiet (runs_resumable rt migrator migrations mysql table named ledger.records runs db start)
    exact ⟨s, final, done, found, upgraded_final rt migrations upgraded⟩
  · intro env files db
    refine ⟨?_, ?_, ?_, ?_, ?_, ?_⟩
    · intro limit
      exact fair_ignores (up_fair env db rt migrator mysql files limit) (fun _ _ here => here)
    · intro steps
      exact fair_ignores (down_fair env db rt migrator mysql files steps) (fun _ _ here => here)
    · exact fair_ignores (status_fair env db rt migrator mysql files) (fun _ _ here => here.1)
    · intro lines s returned
      have reached := status_fair env db rt migrator mysql files (openSession db)
        ⟨fun script member => .inl member, List.forall_mem_nil _⟩
      rw [returned] at reached
      exact reached.2
    · exact fair_ignores (verify_fair env db rt migrator mysql files) (fun _ _ here => here)
    · have same := verify_blind rt env migrator mysql files (openSession db)
      show (verify rt env migrator files (openSession db).withoutMarker).1 = _
      rw [same]

section Sample

def sampleMySQL : Migrator := { dialect := .mySQL, table := [] }

def sampleMigrations : List Migration :=
  [{ version := ascii "10", name := ascii "b", up := ascii "CREATE TABLE b", down := ascii "DROP TABLE b" },
   { version := ascii "9", name := ascii "a", up := ascii "CREATE TABLE a", down := ascii "DROP TABLE a" }]

def legacyRecord : Record :=
  { version := ascii "9", name := ascii "a", checksum := none, appliedAt := ascii "2020-01-01T00:00:00Z" }

def legacyLedger : Ledger where
  column := .absent
  records := [legacyRecord]
  primaryKey := by simp
  admitted := fun record member => by
    rw [List.mem_singleton.mp member]
    rfl

def interruptedAt (number : Nat) : Environment := { calmEnvironment with fails := fun statement => number ≤ statement }

theorem checksum_upgrade_is_crash_safe_sample :
    ∃ s final, prepare sampleRuntime calmEnvironment sampleMySQL sampleMigrations (openSession
        (prepareRuns sampleRuntime sampleMySQL sampleMigrations [interruptedAt 4, interruptedAt 6]
          { ledger := some legacyLedger, temporary := none, scripts := [] })) = (.ok (), s) ∧
      s.db.ledger = some final ∧ final.column = .notNull ∧
      final.records.map Record.identity = legacyLedger.records.map Record.identity ∧
      ∀ record ∈ final.records, record.version ≠ mysqlUpgradeMarker ∧
        ∃ migration, findVersion sampleMigrations record.version = some migration ∧
          record.checksum = some (checksum sampleRuntime migration) := by
  refine (checksum_upgrade_is_crash_safe sampleRuntime sampleMySQL rfl).1 (ascii "schema_migrations") (.ok sampleFiles)
    calmEnvironment 0 sampleMigrations _ legacyLedger _ calmEnvironment rfl (by decide +kernel) rfl ?_ (fun _ => rfl)
  intro record member
  rw [List.mem_singleton.mp member]
  refine ⟨⟨⟨ascii "9", ascii "a", ascii "CREATE TABLE a", ascii "DROP TABLE a"⟩, by decide +kernel, rfl, ?_⟩, 0, rfl⟩
  rintro stored ⟨⟩

end Sample

end Goforge.Migrate

import Goforge.Migrate.Steps

set_option autoImplicit false

namespace Goforge.Migrate

open Fallible GoString

structure Kept (origin : Database) (made : List Migration) (db : Database) (completed : List Migration) : Prop where
  scripts : db.scripts = origin.scripts
  completed : completed = made
  records : Retains origin.records db.records

def Matches (rt : Runtime) (migrations : List Migration) (version name : Bytes) (stored : Option Bytes) : Prop :=
  ∃ migration, findVersion migrations version = some migration ∧ name = migration.name ∧
    stored = some (checksum rt migration)

section

variable (rt : Runtime) (env : Environment) (migrator : Migrator) (origin : Database) (made : List Migration)

theorem applied_on (p : Database → List Migration → Prop) :
    Triple (On p) (applied rt env migrator)
      (fun entries => On (fun db completed => p db completed ∧ readRecords rt migrator db.records = .ok entries))
      (fun _ => On p) := by
  refine bind_on (fun records db completed => p db completed ∧ db.records = records)
    (statement_on env (fun _ _ here => here) ?_) ?_
  · intro db completed records next here selected
    rw [selectRecords] at selected
    cases found : db.ledger with
    | none =>
      rw [found] at selected
      cases selected
    | some ledger =>
      simp only [found] at selected
      split at selected
      · cases selected
      cases selected
      exact ⟨here, records_of found⟩
  · intro records
    refine triple_weaken (or_fail_on (fun _ _ here => here.1)) (fun _ here => here) ?_ (fun _ _ here => here)
    rintro entries s ⟨⟨here, same⟩, read⟩
    exact ⟨here, by rw [same]; exact read⟩

theorem read_records_cons {record : Record} {records : List Record} {entries : Applied}
    (plain : ¬ (migrator.dialect = .mySQL ∧ record.version = mysqlUpgradeMarker))
    (read : readRecords rt migrator (record :: records) = .ok entries) :
    ∃ appliedAt others, readRecords rt migrator records = .ok others ∧
      entries = (record.version, ⟨record.name, record.checksum, appliedAt⟩) :: others := by
  rw [readRecords, if_neg plain] at read
  cases parsed : rt.parseTime record.appliedAt with
  | error err =>
    rw [parsed] at read
    cases read
  | ok appliedAt =>
    cases later : readRecords rt migrator records with
    | error failure =>
      rw [parsed, later] at read
      cases read
    | ok others =>
      rw [parsed, later] at read
      exact ⟨appliedAt, others, rfl, (Except.ok.inj read).symm⟩

theorem read_records_entries (other : migrator.dialect ≠ .mySQL) (records : List Record) (entries : Applied)
    (read : readRecords rt migrator records = .ok entries) :
    List.Forall₂ (fun record entry => entry.1 = record.version ∧ entry.2.name = record.name ∧
      entry.2.checksum = record.checksum) records entries := by
  induction records generalizing entries with
  | nil =>
    cases read
    exact List.Forall₂.nil
  | cons record records ih =>
    obtain ⟨_, others, later, rfl⟩ := read_records_cons rt migrator (fun mysql => other mysql.1) read
    exact List.Forall₂.cons ⟨rfl, rfl, rfl⟩ (ih others later)

theorem entries_versions {records : List Record} {entries : Applied}
    (pairs : List.Forall₂ (fun record entry => entry.1 = record.version ∧ entry.2.name = record.name ∧
      entry.2.checksum = record.checksum) records entries) : entries.map Prod.fst = records.map Record.version := by
  have lists : List.Forall₂ Eq (records.map Record.version) (entries.map Prod.fst) :=
    List.forall₂_map_left_iff.mpr (List.forall₂_map_right_iff.mpr (pairs.imp (fun _ _ same => same.1.symm)))
  rw [List.forall₂_eq_eq_eq] at lists
  exact lists.symm

theorem verify_entry_on (migrations : List Migration) (entry : Bytes × AppliedMigration)
    (p : Database → List Migration → Prop) :
    Triple (On p) (verifyEntry rt env migrations false entry)
      (fun _ => On (fun db completed => p db completed ∧
        Matches rt migrations entry.1 entry.2.name entry.2.checksum)) (fun _ => On p) := by
  rw [verifyEntry]
  cases found : findVersion migrations entry.1 with
  | none => exact fail_on p
  | some migration =>
    simp only
    split
    · exact fail_on p
    · rename_i named
      cases stored : entry.2.checksum with
      | none => exact fail_on p
      | some value =>
        simp only
        split
        · exact fail_on p
        · rename_i agreed
          refine triple_pure ?_
          intro s here
          refine ⟨here, migration, found, not_not.mp named, ?_⟩
          rw [not_not.mp agreed]

theorem verify_applied_on (migrations : List Migration) (entries : Applied) (p : Database → List Migration → Prop) :
    Triple (On p) (verifyApplied rt env migrations entries false)
      (fun _ => On (fun db completed => p db completed ∧
        ∀ entry ∈ entries, Matches rt migrations entry.1 entry.2.name entry.2.checksum)) (fun _ => On p) := by
  refine bind_on (fun order db completed => p db completed ∧ order.Perm entries) ?_ ?_
  · intro s here
    exact ⟨here, env.shuffled _ _ _⟩
  · intro order
    have loop := triple_each (verifyEntry rt env migrations false) order
      (fun done _ => On (fun db completed => (p db completed ∧ order.Perm entries) ∧
        ∀ entry ∈ done, Matches rt migrations entry.1 entry.2.name entry.2.checksum)) (fun _ => On p) (by
      intro done entry rest _
      refine triple_weaken (verify_entry_on rt env migrations entry (fun db completed =>
        (p db completed ∧ order.Perm entries) ∧
          ∀ entry ∈ done, Matches rt migrations entry.1 entry.2.name entry.2.checksum)) (fun _ here => here) ?_
        (fun _ _ here => here.1.1)
      rintro _ s ⟨⟨here, agreed⟩, matched⟩
      refine ⟨here, ?_⟩
      intro other member
      rcases List.mem_append.mp member with earlier | single
      · exact agreed other earlier
      · rw [List.mem_singleton.mp single]
        exact matched)
    refine triple_weaken loop ?_ ?_ (fun _ _ here => here)
    · intro s here
      exact ⟨here, List.forall_mem_nil _⟩
    · rintro _ s ⟨⟨here, perm⟩, agreed⟩
      exact ⟨here, fun entry member => agreed entry (perm.mem_iff.mpr member)⟩

theorem ledger_statement_kept (context : Bytes) (change : Ledger → Option Ledger)
    (retains : ∀ old new, change old = some new → Retains old.records new.records) :
    Preserves (Kept origin made) (fun _ => On (Kept origin made)) (env.statement context (onLedger change)) := by
  refine statement_on env (fun _ _ here => here) ?_
  rintro db completed ⟨⟩ next here changed
  obtain ⟨old, new, found, applied, rfl⟩ := on_ledger_records change changed
  refine ⟨here.scripts, here.completed, ?_⟩
  have before := here.records
  rw [records_of found] at before
  exact retains_trans _ before (retains old new applied)

theorem verify_entry_kept (migrations : List Migration) (entry : Bytes × AppliedMigration) :
    Preserves (Kept origin made) (fun _ => On (Kept origin made)) (verifyEntry rt env migrations true entry) := by
  rw [verifyEntry]
  cases found : findVersion migrations entry.1 with
  | none => exact fail_on _
  | some migration =>
    simp only
    split
    · exact fail_on _
    · cases stored : entry.2.checksum with
      | some value =>
        simp only
        split
        · exact fail_on _
        · exact triple_pure (fun _ here => here)
      | none =>
        refine preserves_bind (statement_on env (fun _ _ here => here) ?_) ?_
        · intro db completed affected next here updated
          rw [backfillChecksum] at updated
          cases present : db.ledger with
          | none =>
            rw [present] at updated
            cases updated
          | some ledger =>
            simp only [present, Option.map_eq_some_iff] at updated
            obtain ⟨changed, written, same⟩ := updated
            cases same
            refine ⟨here.scripts, here.completed, ?_⟩
            have before := here.records
            rw [records_of present] at before
            show Retains origin.records changed.records
            rw [(set_checksum_records written).1]
            exact retains_fill before
        · intro affected
          refine preserves_bind (silent_on env (fun _ _ here => here)) ?_
          intro _
          split
          · exact fail_on _
          · exact triple_pure (fun _ here => here)

theorem backfill_kept (migrations : List Migration) (entries : Applied) :
    Preserves (Kept origin made) (fun _ => On (Kept origin made)) (verifyApplied rt env migrations entries true) := by
  refine preserves_bind (fun _ here => here) ?_
  intro order
  exact triple_each (verifyEntry rt env migrations true) order (fun _ _ => On (Kept origin made))
    (fun _ => On (Kept origin made)) (fun _ entry _ _ => verify_entry_kept rt env origin made migrations entry)

theorem add_column_kept :
    Preserves (Kept origin made) (fun _ => On (Kept origin made)) (addNullableChecksum env) := by
  refine ledger_statement_kept env origin made _ Ledger.addColumn ?_
  intro old new added
  rw [Ledger.addColumn] at added
  split at added
  · cases added
    exact retains_refl
  · cases added

-- SQLite builds the table anew; a failure on the way ends the transaction.
theorem enforce_kept :
    Preserves (Kept origin made) (fun _ => On (fun _ completed => completed = made))
      (enforceChecksumNotNull env migrator) := by
  have altered : Preserves (Kept origin made) (fun _ => On (fun _ completed => completed = made))
      (env.statement enforceText setNotNull) := by
    refine triple_weaken (ledger_statement_kept env origin made enforceText Ledger.requireChecksum ?_)
      (fun _ here => here) (fun _ _ here => here) (fun _ _ here => here.completed)
    intro old new required
    rw [Ledger.requireChecksum] at required
    split at required
    · cases required
      exact retains_refl
    · cases required
  rw [enforceChecksumNotNull]
  cases migrator.dialect with
  | sqlite =>
    refine bind_on (fun _ db completed => Kept origin made db completed ∧
      ∃ beside, db.temporary = some beside ∧ beside.records = [])
      (statement_on env (fun _ _ here => here.completed) ?_) ?_
    · rintro db completed ⟨⟩ next here created
      rw [createTemporary] at created
      split at created
      · cases created
      cases created
      exact ⟨⟨here.scripts, here.completed, here.records⟩, _, rfl, rfl⟩
    intro _
    refine bind_on (fun _ db completed => Kept origin made db completed ∧
      ∃ beside, db.temporary = some beside ∧ Retains origin.records beside.records)
      (statement_on env (fun _ _ here => here.1.completed) ?_) ?_
    · rintro db completed ⟨⟩ next ⟨here, beside, built, empty⟩ copied
      rw [copyRecords, built] at copied
      cases present : db.ledger with
      | none =>
        rw [present] at copied
        cases copied
      | some ledger =>
        simp only [present] at copied
        split at copied
        · cases copied
        rw [Option.map_eq_some_iff] at copied
        obtain ⟨filled, inserted, same⟩ := copied
        cases same
        have kept := here.records
        rw [records_of present] at kept
        refine ⟨⟨here.scripts, here.completed, kept⟩, filled, rfl, ?_⟩
        rw [insert_all_records beside inserted, empty]
        exact kept
    intro _
    refine bind_on (fun _ db completed => db.scripts = origin.scripts ∧ completed = made ∧
      ∃ beside, db.temporary = some beside ∧ Retains origin.records beside.records)
      (statement_on env (fun _ _ here => here.1.completed) ?_) ?_
    · rintro db completed ⟨⟩ next ⟨here, beside, built, kept⟩ dropped
      rw [dropLedger, Option.map_eq_some_iff] at dropped
      obtain ⟨ledger, _, same⟩ := dropped
      cases same
      exact ⟨here.scripts, here.completed, beside, built, kept⟩
    intro _
    refine statement_on env (fun _ _ here => here.2.1) ?_
    rintro db completed ⟨⟩ next ⟨scripts, completed_, beside, built, kept⟩ renamed
    rw [renameTemporary, built] at renamed
    cases present : db.ledger with
    | some ledger =>
      rw [present] at renamed
      cases renamed
    | none =>
      simp only [present] at renamed
      cases renamed
      exact ⟨scripts, completed_, kept⟩
  | _ => exact altered

theorem prepare_kept (transactional : migrator.dialect ≠ .mySQL) (migrations : List Migration) :
    Preserves (Kept origin made) (fun _ => On (Kept origin made)) (prepare rt env migrator migrations) := by
  refine preserves_bind (triple_weaken (or_fail_on (fun _ _ here => here)) (fun _ here => here)
    (fun _ _ here => here.1) (fun _ _ here => here)) ?_
  intro _
  refine preserves_bind (statement_on env (fun _ _ here => here) ?_) ?_
  · rintro db completed ⟨⟩ next here created
    cases created
    refine ⟨here.scripts, here.completed, ?_⟩
    have kept := here.records
    cases present : db.ledger with
    | none =>
      rw [show db.records = [] by rw [Database.records, present]; rfl] at kept
      exact kept
    | some ledger =>
      rw [records_of present] at kept
      exact kept
  intro _
  refine preserves_bind (statement_on env (fun _ _ here => here) ?_) ?_
  · intro db completed answer next here inspected
    rw [columnState] at inspected
    split at inspected <;> cases inspected <;> exact here
  rintro ⟨hasChecksum, checksumNullable⟩
  simp only
  split
  · rw [upgradeLegacyChecksums, if_neg transactional]
    refine transaction_on env transactional (fun _ _ here => here) ?_
    intro db completed here
    have start : ∀ s : Session, On (fun now done => now = db ∧ done = completed) s → On (Kept origin completed) s := by
      rintro s ⟨rfl, rfl⟩
      exact ⟨here.scripts, rfl, here.records⟩
    obtain rfl := here.completed
    refine triple_weaken (?_ : Preserves (Kept origin completed) (fun _ => On (fun _ done => done = completed)) _) start
      (fun _ _ now => ⟨now.completed, now⟩) (fun _ _ now => now)
    have excuse : ∀ {β : Type} (action : Step β),
        Preserves (Kept origin completed) (fun _ => On (Kept origin completed)) action →
        Preserves (Kept origin completed) (fun _ => On (fun _ done => done = completed)) action :=
      fun action triple => triple_weaken triple (fun _ now => now) (fun _ _ now => now) (fun _ _ now => now.completed)
    refine preserves_bind (excuse _ ?_) ?_
    · rw [ensureColumn]
      split
      · exact triple_pure (fun _ now => now)
      · exact add_column_kept env origin completed
    intro _
    refine preserves_bind (excuse _ (triple_weaken (applied_on rt env migrator _) (fun _ now => now)
      (fun _ _ now => now.1) (fun _ _ now => now))) ?_
    intro entries
    refine preserves_bind (excuse _ (backfill_kept rt env origin completed migrations entries)) ?_
    intro _
    exact enforce_kept env migrator origin completed
  · exact triple_pure (fun _ here => here)

structure Verified (files : Except Bytes (List Entry)) (migrations : List Migration) (entries : Applied)
    (db : Database) : Prop where
  loaded : ∃ number, load files (env.shuffle Migration number) = .ok migrations
  listed : entries.map Prod.fst = db.versions
  agreed : ∀ record ∈ db.records, Matches rt migrations record.version record.name record.checksum

theorem verified_on (transactional : migrator.dialect ≠ .mySQL) (files : Except Bytes (List Entry)) :
    Triple (On (Kept origin made)) (verified rt env migrator files)
      (fun found => On (fun db completed => Kept origin made db completed ∧ Verified rt env files found.1 found.2 db))
      (fun _ => On (Kept origin made)) := by
  refine bind_on (fun migrations db completed => Kept origin made db completed ∧
    ∃ number, load files (env.shuffle Migration number) = .ok migrations) ?_ ?_
  · intro s here
    rw [loadFiles]
    cases loaded : load files (env.shuffle Migration s.clock) with
    | ok migrations => exact ⟨here, s.clock, loaded⟩
    | error failure => exact here
  · intro migrations s here
    obtain ⟨here, loaded⟩ := here
    refine (?_ : Triple (On (Kept origin made)) _ _ _) s here
    refine bind_on _ (prepare_kept rt env migrator origin made transactional migrations) ?_
    intro _
    refine bind_on _ (applied_on rt env migrator (Kept origin made)) ?_
    intro entries
    refine bind_on _ (triple_weaken (verify_applied_on rt env migrations entries _) (fun _ now => now)
      (fun _ _ now => now) (fun _ _ now => now.1)) ?_
    intro _
    refine triple_pure ?_
    rintro t ⟨⟨kept, read⟩, agreed⟩
    have pairs := read_records_entries rt migrator transactional _ _ read
    refine ⟨kept, loaded, ?_, ?_⟩
    · exact entries_versions pairs
    · intro record member
      obtain ⟨entry, inside, version, name, stored⟩ := forall_member pairs member
      have matched := agreed entry inside
      rw [version, name, stored] at matched
      exact matched

end

end Goforge.Migrate

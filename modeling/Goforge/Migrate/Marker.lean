import Goforge.Migrate.Upgrade

set_option autoImplicit false

namespace Goforge.Migrate

open Fallible GoString

def Failure.Blames : Failure → Prop
  | .drift version _ => version = mysqlUpgradeMarker
  | .unlisted version => version = mysqlUpgradeMarker
  | .emptyScript version _ => version = mysqlUpgradeMarker
  | .backfill version _ => version = mysqlUpgradeMarker
  | .joined first second => first.Blames ∨ second.Blames
  | _ => False

structure Unmarked (origin : Database) (db : Database) (completed : List Migration) : Prop where
  scripts : ∀ script ∈ db.scripts, script ∈ origin.scripts ∨ script.version ≠ mysqlUpgradeMarker
  completed : ∀ migration ∈ completed, migration.version ≠ mysqlUpgradeMarker

def Fair (p : Database → List Migration → Prop) (failure : Failure) (s : Session) : Prop := On p s ∧ ¬ failure.Blames

theorem wrapped_fair {context : Bytes} {p : Database → List Migration → Prop} (reason : Bytes) (s : Session)
    (here : On p s) : Fair p (.wrapped context reason) s :=
  ⟨here, fun blamed => blamed⟩

theorem digits_unmarked {version : Bytes} (digits : version.all isDigit = true) : version ≠ mysqlUpgradeMarker := by
  rintro rfl
  exact absurd digits (by decide)

section

variable {α : Type} (env : Environment) (origin : Database)

variable {failure : Failure}

theorem fail_fair (unblamed : ¬ failure.Blames) (p : Database → List Migration → Prop) {after : α → Session → Prop} :
    Triple (On p) (fail failure : Step α) after (Fair p) :=
  triple_fail (fun _ here => ⟨here, unblamed⟩)

abbrev Passes (action : Step α) : Prop := Preserves (Unmarked origin) (Fair (Unmarked origin)) action

def Silent (sql : Sql α) : Prop := ∀ db answer next, sql db = some (answer, next) → next.scripts = db.scripts

theorem silent_fair {context : Bytes} (sql : Sql α) (silent : Silent sql) :
    Passes origin (env.statement context sql) := by
  refine statement_on env wrapped_fair ?_
  intro db completed answer next here answered
  exact ⟨by rw [silent db answer next answered]; exact here.scripts, here.completed⟩

theorem on_ledger_silent {change : Ledger → Option Ledger} : Silent (onLedger change) := by
  rintro db ⟨⟩ next changed
  obtain ⟨_, new, _, _, rfl⟩ := on_ledger_records change changed
  rfl

theorem backfill_silent {version value : Bytes} : Silent (backfillChecksum version value) := by
  intro db answer next changed
  rw [backfillChecksum] at changed
  cases present : db.ledger with
  | none =>
    rw [present] at changed
    cases changed
  | some ledger =>
    simp only [present, Option.map_eq_some_iff] at changed
    obtain ⟨_, _, same⟩ := changed
    cases same
    rfl

theorem read_records_unmarked {rt : Runtime} {migrator : Migrator} (mysql : migrator.dialect = .mySQL)
    {records : List Record} (entries : Applied) (read : readRecords rt migrator records = .ok entries) :
    ∀ entry ∈ entries, entry.1 ≠ mysqlUpgradeMarker := by
  induction records generalizing entries with
  | nil =>
    cases read
    exact List.forall_mem_nil _
  | cons record records ih =>
    by_cases marker : record.version = mysqlUpgradeMarker
    · rw [readRecords, if_pos ⟨mysql, marker⟩] at read
      exact ih entries read
    · obtain ⟨_, others, later, rfl⟩ := read_records_cons rt migrator (fun both => marker both.2) read
      exact List.forall_mem_cons.mpr ⟨marker, ih others later⟩

theorem read_records_fair {rt : Runtime} {migrator : Migrator} {records : List Record} (failure : Failure)
    (failed : readRecords rt migrator records = .error failure) : ¬ failure.Blames := by
  induction records generalizing failure with
  | nil => cases failed
  | cons record records ih =>
    rw [readRecords] at failed
    split at failed
    · exact ih failure failed
    · cases parsed : rt.parseTime record.appliedAt with
      | error err =>
        rw [parsed] at failed
        cases failed
        exact fun blamed => blamed
      | ok time =>
        cases later : readRecords rt migrator records with
        | error earlier =>
          rw [parsed, later] at failed
          cases failed
          exact ih _ later
        | ok others =>
          rw [parsed, later] at failed
          cases failed

variable (rt : Runtime) (migrator : Migrator) (mysql : migrator.dialect = .mySQL)

variable (context : Bytes) (migrations : List Migration) (files : Except Bytes (List Entry))
    (p : Database → List Migration → Prop)

include mysql in
theorem applied_fair :
    Triple (On p) (applied rt env migrator)
      (fun entries => On (fun db completed => p db completed ∧ ∀ entry ∈ entries, entry.1 ≠ mysqlUpgradeMarker))
      (Fair p) := by
  refine bind_on (fun _ => p) (statement_on env wrapped_fair ?_) ?_
  · intro db completed records next here selected
    rw [selectRecords] at selected
    cases present : db.ledger with
    | none =>
      rw [present] at selected
      cases selected
    | some ledger =>
      simp only [present] at selected
      split at selected
      · cases selected
      cases selected
      exact here
  · intro records
    cases read : readRecords rt migrator records with
    | ok entries =>
      exact triple_pure (fun _ here => ⟨here, read_records_unmarked mysql entries read⟩)
    | error failure => exact fail_fair (read_records_fair failure read) p

theorem verify_entry_fair (allow : Bool) (entry : Bytes × AppliedMigration) (plain : entry.1 ≠ mysqlUpgradeMarker) :
    Passes origin (verifyEntry rt env migrations allow entry) := by
  rw [verifyEntry]
  cases found : findVersion migrations entry.1 with
  | none => exact fail_fair (by exact plain) _
  | some migration =>
    simp only
    split
    · exact fail_fair (by exact plain) _
    cases stored : entry.2.checksum with
    | some value =>
      simp only
      split
      · exact fail_fair (by exact plain) _
      · exact triple_pure (fun _ here => here)
    | none =>
      simp only
      split
      · exact fail_fair (by exact plain) _
      refine preserves_bind (silent_fair env origin _ (backfill_silent)) ?_
      intro affected
      refine preserves_bind (silent_on env wrapped_fair) ?_
      intro _
      split
      · exact fail_fair (by exact plain) _
      · exact triple_pure (fun _ here => here)

theorem verify_applied_fair {entries : Applied} (allow : Bool)
    (plain : ∀ entry ∈ entries, entry.1 ≠ mysqlUpgradeMarker) :
    Passes origin (verifyApplied rt env migrations entries allow) := by
  intro s here
  have perm := env.shuffled (Bytes × AppliedMigration) s.clock entries
  refine triple_each (verifyEntry rt env migrations allow) (env.shuffle _ s.clock entries)
    (fun _ _ => On (Unmarked origin)) (Fair (Unmarked origin)) ?_ s here
  intro done entry rest whole
  refine verify_entry_fair env origin rt migrations allow entry (plain entry (perm.mem_iff.mp ?_))
  rw [← whole]
  exact List.mem_append_right _ List.mem_cons_self

theorem remove_marker_fair :
    Triple (On (Unmarked origin)) (removeMySQLUpgradeMarker env)
      (fun _ => On (fun db completed => Unmarked origin db completed ∧ mysqlUpgradeMarker ∉ db.versions))
      (Fair (Unmarked origin)) := by
  refine statement_on env wrapped_fair ?_
  rintro db completed ⟨⟩ next here deleted
  obtain ⟨old, new, _, removed, rfl⟩ := on_ledger_records _ deleted
  cases removed
  refine ⟨⟨here.scripts, here.completed⟩, ?_⟩
  intro member
  obtain ⟨record, inside, same⟩ := List.mem_map.mp member
  have plain := (List.mem_filter.mp inside).2
  exact of_decide_eq_true plain same

theorem column_state_silent : Silent columnState := by
  intro db answer next inspected
  rw [columnState] at inspected
  split at inspected <;> cases inspected <;> rfl

theorem table_checked_fair : Passes origin (orFail migrator.tableChecked) := by
  rw [Migrator.tableChecked]
  split
  · exact triple_pure (fun _ here => here)
  split
  · exact triple_pure (fun _ here => here)
  · exact fail_fair (by exact fun blamed => blamed) _

theorem mark_upgrade_fair (hasChecksum : Bool) : Passes origin (markUpgrade env hasChecksum) := by
  refine preserves_bind (silent_fair env origin _ ?_) ?_
  · intro db answer next found
    rw [versionExists, Option.map_eq_some_iff] at found
    obtain ⟨_, _, same⟩ := found
    cases same
    rfl
  intro markerExists
  split
  · exact triple_pure (fun _ here => here)
  refine preserves_bind (fun _ here => here) ?_
  intro now
  exact silent_fair env origin _ (on_ledger_silent)

include mysql in
theorem prepare_fair :
    Triple (On (Unmarked origin)) (prepare rt env migrator migrations)
      (fun _ => On (fun db completed => Unmarked origin db completed ∧ mysqlUpgradeMarker ∉ db.versions))
      (Fair (Unmarked origin)) := by
  refine preserves_bind (table_checked_fair origin migrator) ?_
  intro _
  refine preserves_bind (silent_fair env origin createLedger ?_) ?_
  · intro db answer next created
    cases created
    rfl
  intro _
  refine preserves_bind (silent_fair env origin _ column_state_silent) ?_
  rintro ⟨hasChecksum, checksumNullable⟩
  simp only
  split
  · rw [upgradeLegacyChecksums, if_pos mysql]
    refine preserves_bind (mark_upgrade_fair env origin hasChecksum) ?_
    intro _
    refine preserves_bind ?_ ?_
    · rw [ensureColumn]
      split
      · exact triple_pure (fun _ here => here)
      · exact silent_fair env origin _ (on_ledger_silent)
    intro _
    refine bind_on _ (applied_fair env rt migrator mysql (Unmarked origin)) ?_
    rintro entries s ⟨here, plain⟩
    refine (?_ : Triple (On (Unmarked origin)) _ _ _) s here
    refine preserves_bind (verify_applied_fair env origin rt migrations true plain) ?_
    intro _
    refine preserves_bind (silent_fair env origin _ (on_ledger_silent)) ?_
    intro _
    refine preserves_bind ?_ (fun _ => remove_marker_fair env origin)
    rw [enforceChecksumNotNull, mysql]
    exact silent_fair env origin _ (on_ledger_silent)
  · exact remove_marker_fair env origin

theorem load_entries_fair {entries : List Entry} (byVersion : List Migration)
    (failed : entries.foldlM loadEntry byVersion = .error failure) : ¬ failure.Blames := by
  induction entries generalizing byVersion with
  | nil => cases failed
  | cons entry entries ih =>
    rw [List.foldlM_cons] at failed
    cases here : loadEntry byVersion entry with
    | ok next =>
      rw [here] at failed
      exact ih next failed
    | error earlier =>
      rw [here] at failed
      cases failed
      rw [loadEntry] at here
      split at here
      · cases here
      cases matched : migrationName entry.name with
      | none =>
        rw [matched] at here
        cases here
      | some parts =>
        simp only [matched] at here
        split at here
        · cases here
          exact fun blamed => blamed
        · cases contents : entry.contents with
          | error err =>
            rw [contents] at here
            cases here
            exact fun blamed => blamed
          | ok text =>
            rw [contents] at here
            cases here

theorem load_fair {files : Except Bytes (List Entry)} {shuffle : List Migration → List Migration}
    (failed : load files shuffle = .error failure) : ¬ failure.Blames := by
  cases files with
  | error err =>
    cases failed
    exact fun blamed => blamed
  | ok entries =>
    rw [load] at failed
    cases folded : entries.foldlM loadEntry [] with
    | error earlier =>
      simp only [folded] at failed
      cases failed
      exact load_entries_fair [] folded
    | ok byVersion =>
      simp only [folded] at failed
      cases checked : (shuffle byVersion).findSome? incomplete with
      | none =>
        rw [checked] at failed
        cases failed
      | some found =>
        rw [checked] at failed
        cases failed
        obtain ⟨migration, _, reported⟩ := List.exists_of_findSome?_eq_some checked
        rw [incomplete] at reported
        split at reported
        · cases reported
          exact fun blamed => blamed
        · cases reported

theorem load_files_fair :
    Triple (On p) (loadFiles env files)
      (fun migrations => On (fun db completed => p db completed ∧
        ∀ migration ∈ migrations, migration.version ≠ mysqlUpgradeMarker)) (Fair p) := by
  intro s here
  rw [loadFiles]
  cases loaded : load files (env.shuffle Migration s.clock) with
  | error failure => exact ⟨here, load_fair loaded⟩
  | ok migrations =>
    refine ⟨here, ?_⟩
    intro migration member
    exact digits_unmarked ((load_loaded (env.shuffled Migration s.clock) loaded).digits migration member)

theorem transaction_fair {dialect : Dialect} {work : Step α} (worked : Passes origin work) :
    Passes origin (inTransaction env dialect work) := by
  refine preserves_bind (silent_on env wrapped_fair) ?_
  intro _ s here
  have reached := worked s here
  cases outcome : work s with
  | mk result t =>
    rw [outcome] at reached
    have either : Unmarked origin t.db t.completed → ∀ p : Prop, ∀ [Decidable p],
        Unmarked origin (if p then t.db else s.db) t.completed := by
      intro clean p _
      split
      · exact clean
      · exact ⟨here.scripts, clean.completed⟩
    cases result with
    | ok a =>
      simp only [outcome]
      split
      · exact ⟨either reached _, fun blamed => blamed⟩
      · exact reached
    | error failure =>
      simp only [outcome]
      refine ⟨either reached.1 _, ?_⟩
      split
      · rintro (blamed | blamed)
        · exact reached.2 blamed
        · exact blamed
      · exact reached.2

theorem run_script_fair {script : Script} (plain : script.version ≠ mysqlUpgradeMarker) :
    Passes origin (env.statement context (runScript script)) := by
  refine statement_on env wrapped_fair ?_
  rintro db completed ⟨⟩ next here ran
  cases ran
  refine ⟨?_, here.completed⟩
  intro other member
  rcases List.mem_append.mp member with old | single
  · exact here.scripts other old
  · rw [List.mem_singleton.mp single]
    exact .inr plain

theorem complete_fair {migration : Migration} (plain : migration.version ≠ mysqlUpgradeMarker) :
    Passes origin (complete migration) := by
  intro s here
  refine ⟨here.scripts, ?_⟩
  intro other member
  rcases List.mem_append.mp member with old | single
  · exact here.completed other old
  · rw [List.mem_singleton.mp single]
    exact plain

include mysql in
theorem verified_fair :
    Triple (On (Unmarked origin)) (verified rt env migrator files)
      (fun found => On (fun db completed => Unmarked origin db completed ∧ mysqlUpgradeMarker ∉ db.versions ∧
        ∀ migration ∈ found.1, migration.version ≠ mysqlUpgradeMarker)) (Fair (Unmarked origin)) := by
  refine bind_on _ (load_files_fair env files (Unmarked origin)) ?_
  rintro migrations s ⟨here, plain⟩
  refine (?_ : Triple (On (Unmarked origin)) _ _ _) s here
  refine bind_on _ (prepare_fair env origin rt migrator mysql migrations) ?_
  intro _
  refine bind_on _ (triple_weaken (applied_fair env rt migrator mysql _) (fun _ now => now)
    (fun _ _ now => now) (fun _ _ now => ⟨now.1.1, now.2⟩)) ?_
  rintro entries t ⟨now, unmarked⟩
  refine (?_ : Triple (On (fun db completed => Unmarked origin db completed ∧ mysqlUpgradeMarker ∉ db.versions)) _ _ _)
    t now
  refine bind_on (fun _ db completed => Unmarked origin db completed ∧ mysqlUpgradeMarker ∉ db.versions) ?_ ?_
  · refine triple_weaken (triple_and (verify_applied_fair env origin rt migrations false unmarked)
      (verify_applied_on rt env migrations entries (fun db _ => mysqlUpgradeMarker ∉ db.versions))) (fun _ both => both)
      (fun _ _ both => ⟨both.1, both.2.1⟩) (fun _ _ both => both.1)
  · intro _
    exact triple_pure (fun _ both => ⟨both.1, both.2, plain⟩)

theorem up_each_fair (entries : Applied) (limit : Int) {migrations : List Migration}
    (plain : ∀ migration ∈ migrations, migration.version ≠ mysqlUpgradeMarker) :
    Passes origin (upEach rt env migrator entries limit migrations) := by
  induction migrations with
  | nil => exact triple_pure (fun _ here => here)
  | cons migration migrations ih =>
    obtain ⟨first, later⟩ := List.forall_mem_cons.mp plain
    rw [upEach]
    split
    · exact ih later
    refine preserves_bind (fun _ here => here) ?_
    intro completed
    split
    · exact triple_pure (fun _ here => here)
    split
    · exact fail_fair (by exact first) _
    refine preserves_bind (transaction_fair env _ ?_) ?_
    · refine preserves_bind (run_script_fair env _ _ first) ?_
      intro _
      exact preserves_bind (fun _ here => here) (fun _ => silent_fair env origin _ (on_ledger_silent))
    · intro _
      exact preserves_bind (complete_fair origin first) (fun _ => ih later)

theorem down_each_fair (version : Bytes) (plain : version ≠ mysqlUpgradeMarker) :
    Passes origin (downEach env migrator migrations version) := by
  rw [downEach]
  cases found : findVersion migrations version with
  | none => exact fail_fair (by exact plain) _
  | some migration =>
    have own : migration.version = version := by simpa using List.find?_some found
    have first : migration.version ≠ mysqlUpgradeMarker := by rw [own]; exact plain
    simp only
    split
    · exact fail_fair (by exact plain) _
    refine preserves_bind (transaction_fair env _ ?_) (fun _ => complete_fair origin first)
    exact preserves_bind (run_script_fair env _ _ first) (fun _ => silent_fair env origin _ (on_ledger_silent))

include mysql in
theorem unlocked {β : Type} (work : Step β) : withRunLock env migrator.dialect work = work := by
  rw [withRunLock, if_pos]
  rw [mysql]
  decide

include mysql in
theorem up_fair (limit : Int) :
    Passes origin (up rt env migrator files limit) := by
  rw [up, unlocked env migrator mysql]
  refine bind_on _ (verified_fair env origin rt migrator mysql files) ?_
  rintro ⟨migrations, entries⟩ s ⟨here, _, plain⟩
  exact up_each_fair env origin rt migrator entries limit plain s here

include mysql in
theorem down_fair (steps : Int) :
    Passes origin (down rt env migrator files steps) := by
  rw [down, unlocked env migrator mysql]
  refine bind_on _ (verified_fair env origin rt migrator mysql files) ?_
  rintro ⟨migrations, entries⟩
  refine bind_on (fun listed db completed => Unmarked origin db completed ∧ mysqlUpgradeMarker ∉ listed)
    (statement_on env (fun _ _ here => ⟨here.1, fun blamed => blamed⟩) ?_) ?_
  · intro db completed listed next here selected
    rw [selectVersions, Option.map_eq_some_iff] at selected
    obtain ⟨ledger, found, same⟩ := selected
    cases same
    refine ⟨here.1, ?_⟩
    intro member
    refine here.2.1 ?_
    rw [Database.versions, records_of found]
    exact (sort_by_perm id _).mem_iff.mp (List.mem_reverse.mp member)
  · rintro listed s ⟨here, plain⟩
    refine triple_each (downEach env migrator migrations) _ (fun _ _ => On (Unmarked origin))
      (Fair (Unmarked origin)) ?_
      s here
    intro done version rest whole
    refine down_each_fair env origin migrator migrations version ?_
    rintro rfl
    have inside : mysqlUpgradeMarker ∈ listed.take (if steps ≤ 0 then 1 else steps.toNat) := by
      rw [← whole]
      exact List.mem_append_right _ List.mem_cons_self
    exact plain (List.mem_of_mem_take inside)

include mysql in
theorem status_fair :
    Triple (On (Unmarked origin)) (status rt env migrator files)
      (fun result => On (fun db completed => Unmarked origin db completed ∧
        ∀ line ∈ result, line.version ≠ mysqlUpgradeMarker)) (Fair (Unmarked origin)) := by
  rw [status, unlocked env migrator mysql]
  refine bind_on _ (verified_fair env origin rt migrator mysql files) ?_
  rintro ⟨migrations, entries⟩
  refine triple_pure ?_
  rintro s ⟨here, _, plain⟩
  refine ⟨here, ?_⟩
  intro line member
  obtain ⟨migration, inside, rfl⟩ := List.mem_map.mp member
  exact plain migration inside

include mysql in
theorem verify_fair :
    Passes origin (verify rt env migrator files) := by
  refine bind_on _ (load_files_fair env files (Unmarked origin)) ?_
  rintro migrations s ⟨here, _⟩
  refine (?_ : Triple (On (Unmarked origin)) _ _ _) s here
  refine preserves_bind (table_checked_fair origin migrator) ?_
  intro _
  refine preserves_bind (silent_fair env origin _ column_state_silent) ?_
  rintro ⟨hasChecksum, checksumNullable⟩
  simp only
  split
  · exact fail_fair (by exact fun blamed => blamed) _
  refine bind_on _ (applied_fair env rt migrator mysql (Unmarked origin)) ?_
  rintro entries t ⟨now, unmarked⟩
  refine (?_ : Triple (On (Unmarked origin)) _ _ _) t now
  refine preserves_bind (verify_applied_fair env origin rt migrations false unmarked) ?_
  intro _
  split
  · exact fail_fair (by exact fun blamed => blamed) _
  · exact triple_pure (fun _ last => last)

end

end Goforge.Migrate

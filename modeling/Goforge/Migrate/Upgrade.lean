import Goforge.Migrate.Prepare
import Mathlib.Data.List.Nodup

set_option autoImplicit false

namespace Goforge.Migrate

open Fallible GoString

def Environment.Faulty (env : Environment) : Prop := ∃ number, env.fails number = true

def OnLedger (q : Ledger → Prop) (db : Database) (_ : List Migration) : Prop :=
  ∃ ledger, db.ledger = some ledger ∧ q ledger

def Record.identity (record : Record) : Bytes × Bytes × Bytes := (record.version, record.name, record.appliedAt)

def isPlain (record : Record) : Bool := record.version ≠ mysqlUpgradeMarker

def Ledger.plain (ledger : Ledger) : List Record := ledger.records.filter isPlain

structure Accounted (rt : Runtime) (migrations : List Migration) (record : Record) : Prop where
  known : ∃ migration, findVersion migrations record.version = some migration ∧ record.name = migration.name ∧
    ∀ stored, record.checksum = some stored → stored = checksum rt migration
  timed : ∃ time, rt.parseTime record.appliedAt = .ok time

structure Resumable (rt : Runtime) (migrations : List Migration) (original : List Record) (ledger : Ledger) : Prop where
  same : ledger.plain.map Record.identity = original.map Record.identity
  accounted : ∀ record ∈ ledger.plain, Accounted rt migrations record

theorem fill_identity (record : Record) (chosen : Record → Bool) (value : Bytes) :
    (record.fill chosen value).identity = record.identity := by
  rw [Record.fill]
  split <;> rfl

theorem fill_plain (record : Record) (chosen : Record → Bool) (value : Bytes) :
    isPlain (record.fill chosen value) = isPlain record := by
  rw [isPlain, isPlain, fill_version]

theorem set_checksum_plain {ledger changed : Ledger} {chosen : Record → Bool} {value : Bytes}
    (updated : ledger.setChecksum chosen value = some changed) :
    changed.plain = ledger.plain.map (fun record => record.fill chosen value) := by
  rw [Ledger.plain, (set_checksum_records updated).1, List.filter_map, Ledger.plain]
  congr 1
  refine List.filter_congr ?_
  intro record _
  exact fill_plain record chosen value

theorem set_checksum_some {ledger : Ledger} (chosen : Record → Bool) (value : Bytes)
    (present : ledger.column ≠ .absent) : ∃ changed, ledger.setChecksum chosen value = some changed := by
  rw [Ledger.setChecksum, dif_pos present]
  exact ⟨_, rfl⟩

section

variable {rt : Runtime} {migrations : List Migration} {original : List Record}

theorem resumable_fill {ledger changed : Ledger} {chosen : Record → Bool} {value : Bytes}
    (updated : ledger.setChecksum chosen value = some changed) (here : Resumable rt migrations original ledger)
    (right : ∀ record ∈ ledger.plain, chosen record = true → ∀ migration,
      findVersion migrations record.version = some migration → value = checksum rt migration) :
    Resumable rt migrations original changed := by
  have plain := set_checksum_plain updated
  refine ⟨?_, ?_⟩
  · rw [plain, List.map_map, ← here.same]
    refine List.map_congr_left ?_
    intro record _
    exact fill_identity record chosen value
  · intro record member
    rw [plain] at member
    obtain ⟨old, inside, rfl⟩ := List.mem_map.mp member
    have accounted := here.accounted old inside
    by_cases picked : chosen old = true
    · rw [Record.fill, if_pos picked]
      obtain ⟨migration, found, named, _⟩ := accounted.known
      refine ⟨⟨migration, found, named, ?_⟩, accounted.timed⟩
      rintro stored ⟨⟩
      exact right old inside picked migration found
    · rw [Record.fill, if_neg picked]
      exact accounted

theorem resumable_same (ledger : Ledger) {changed : Ledger} (records : changed.records = ledger.records)
    (here : Resumable rt migrations original ledger) : Resumable rt migrations original changed := by
  have plain : changed.plain = ledger.plain := by rw [Ledger.plain, records]; rfl
  exact ⟨by rw [plain]; exact here.same, by rw [plain]; exact here.accounted⟩

theorem resumable_insert {ledger changed : Ledger} {record : Record} (marker : record.version = mysqlUpgradeMarker)
    (inserted : ledger.insert record = some changed) (here : Resumable rt migrations original ledger) :
    Resumable rt migrations original changed := by
  have plain : changed.plain = ledger.plain := by
    rw [Ledger.plain, (insert_records changed record inserted).1, List.filter_append]
    simp [isPlain, marker, Ledger.plain]
  exact ⟨by rw [plain]; exact here.same, by rw [plain]; exact here.accounted⟩

theorem delete_marker_plain (ledger : Ledger) : (ledger.delete mysqlUpgradeMarker).plain = ledger.plain := by
  rw [Ledger.plain, Ledger.delete, Ledger.plain, List.filter_filter]
  refine List.filter_congr ?_
  intro record _
  simp [isPlain]

theorem resumable_delete {ledger : Ledger} (here : Resumable rt migrations original ledger) :
    Resumable rt migrations original (ledger.delete mysqlUpgradeMarker) :=
  ⟨by rw [delete_marker_plain]; exact here.same, by rw [delete_marker_plain]; exact here.accounted⟩

theorem read_records_sure {migrator : Migrator} (mysql : migrator.dialect = .mySQL) (records : List Record)
    (timed : ∀ record ∈ records.filter isPlain, ∃ time, rt.parseTime record.appliedAt = .ok time) :
    ∃ entries, readRecords rt migrator records = .ok entries ∧
      List.Forall₂ (fun record entry => entry.1 = record.version ∧ entry.2.name = record.name ∧
        entry.2.checksum = record.checksum) (records.filter isPlain) entries := by
  induction records with
  | nil => exact ⟨[], rfl, List.Forall₂.nil⟩
  | cons record records ih =>
    by_cases marker : record.version = mysqlUpgradeMarker
    · rw [List.filter_cons, if_neg (by simp [isPlain, marker])] at timed ⊢
      rw [readRecords, if_pos ⟨mysql, marker⟩]
      exact ih timed
    · rw [List.filter_cons, if_pos (by simp [isPlain, marker])] at timed ⊢
      obtain ⟨⟨time, parsed⟩, later⟩ := List.forall_mem_cons.mp timed
      obtain ⟨entries, read, pairs⟩ := ih later
      rw [readRecords, if_neg (fun both => marker both.2), parsed, read]
      exact ⟨_, rfl, List.Forall₂.cons ⟨rfl, rfl, rfl⟩ pairs⟩

variable {ledger : Ledger} {record : Record}

theorem same_version {other : Record} (member : record ∈ ledger.records) (memberOther : other ∈ ledger.records)
    (same : record.version = other.version) : record = other :=
  List.inj_on_of_nodup_map ledger.primaryKey member memberOther same

theorem lacking_one (member : record ∈ ledger.records) (lacking : record.checksum = none) :
    (ledger.records.filter (lacksChecksum record.version)).length = 1 := by
  have only : ledger.records.filter (lacksChecksum record.version) =
      ledger.records.filter (fun other => other = record) := by
    refine List.filter_congr ?_
    intro other memberOther
    rw [Bool.eq_iff_iff, lacksChecksum, Bool.and_eq_true, decide_eq_true_iff, decide_eq_true_iff,
      Option.isNone_iff_eq_none]
    constructor
    · rintro ⟨same, _⟩
      exact same_version memberOther member same
    · rintro rfl
      exact ⟨rfl, lacking⟩
  have counted := List.count_eq_one_of_mem (List.Nodup.of_map Record.version ledger.primaryKey) member
  rw [only, ← List.countP_eq_length_filter]
  rw [List.count] at counted
  rw [← counted]
  refine List.countP_congr ?_
  intro other _
  simp

variable (rt migrations original)

structure Standing (column : ChecksumColumn) (ledger : Ledger) : Prop where
  resumable : Resumable rt migrations original ledger
  column : ledger.column = column

structure Backfilling (done rest : Applied) (ledger : Ledger) : Prop where
  resumable : Resumable rt migrations original ledger
  nullable : ledger.column = .nullable
  filled : ∀ record ∈ ledger.plain, record.version ∈ done.map Prod.fst → record.checksum ≠ none
  awaited : ∀ entry ∈ rest, ∃ record ∈ ledger.plain, entry.1 = record.version ∧ entry.2.name = record.name ∧
    entry.2.checksum = record.checksum
  covered : ∀ record ∈ ledger.plain, record.version ∈ (done ++ rest).map Prod.fst

variable (env : Environment)

def Interrupted (_ : Failure) (s : Session) : Prop :=
  On (OnLedger (Resumable rt migrations original)) s ∧ env.Faulty

section Sure

variable {rt migrations original} {α : Type} {context : Bytes} {q : Ledger → Prop}
  (implies : ∀ ledger, q ledger → Resumable rt migrations original ledger)

include implies

theorem statement_sure {sql : Sql α} {after : α → Database → List Migration → Prop}
    (answered : ∀ db completed ledger, db.ledger = some ledger → q ledger →
      ∃ answer next, sql db = some (answer, next) ∧ after answer next completed) :
    Triple (On (OnLedger q)) (env.statement context sql) (fun answer => On (after answer))
      (Interrupted rt migrations original env) := by
  rintro s ⟨ledger, found, here⟩
  rw [Environment.statement]
  by_cases failing : env.fails s.clock = true
  · rw [if_pos failing]
    exact ⟨⟨ledger, found, implies ledger here⟩, s.clock, failing⟩
  · rw [if_neg failing]
    obtain ⟨answer, next, result, holds⟩ := answered s.db s.completed ledger found here
    rw [result]
    exact holds

theorem ledger_sure {change : Ledger → Option Ledger} {after : Ledger → Prop}
    (changes : ∀ ledger, q ledger → ∃ new, change ledger = some new ∧ after new) :
    Triple (On (OnLedger q)) (env.statement context (onLedger change)) (fun _ => On (OnLedger after))
      (Interrupted rt migrations original env) := by
  refine statement_sure env implies ?_
  intro db completed ledger found here
  obtain ⟨new, changed, holds⟩ := changes ledger here
  exact ⟨(), { db with ledger := some new }, by rw [onLedger, found, Option.bind_some, changed]; rfl, new, rfl, holds⟩

theorem read_sure {sql : Sql α} {after : α → Ledger → Prop}
    (reads : ∀ db ledger, db.ledger = some ledger → q ledger → ∃ answer, sql db = some (answer, db) ∧
      after answer ledger) :
    Triple (On (OnLedger q)) (env.statement context sql) (fun answer => On (OnLedger (after answer)))
      (Interrupted rt migrations original env) := by
  refine statement_sure env implies ?_
  intro db completed ledger found here
  obtain ⟨answer, read, holds⟩ := reads db ledger found here
  exact ⟨answer, db, read, ledger, found, holds⟩

end Sure

theorem plain_member (member : record ∈ ledger.plain) : record ∈ ledger.records :=
  (List.mem_filter.mp member).1

variable {rt migrations original}

theorem backfilling_next {done rest : Applied} (entry : Bytes × AppliedMigration) {ledger : Ledger}
    (here : Backfilling rt migrations original done (entry :: rest) ledger) (stored : entry.2.checksum ≠ none) :
    Backfilling rt migrations original (done ++ [entry]) rest ledger := by
  obtain ⟨⟨record, inside, version, _, same⟩, awaited⟩ := List.forall_mem_cons.mp here.awaited
  refine ⟨here.resumable, here.nullable, ?_, awaited, ?_⟩
  · intro other member listed
    rw [List.map_append, List.mem_append, List.map_singleton, List.mem_singleton] at listed
    rcases listed with earlier | now
    · exact here.filled other member earlier
    · have equal := same_version (plain_member member) (plain_member inside) (now.trans version)
      rw [equal, ← same]
      exact stored
  · intro other member
    rw [List.append_assoc]
    exact here.covered other member

theorem backfilling_filled {done rest : Applied} (entry : Bytes × AppliedMigration) {ledger changed : Ledger}
    {migration : Migration} (found : findVersion migrations entry.1 = some migration)
    (fresh : entry.1 ∉ rest.map Prod.fst)
    (here : Backfilling rt migrations original done (entry :: rest) ledger)
    (updated : ledger.setChecksum (lacksChecksum entry.1) (checksum rt migration) = some changed) :
    Backfilling rt migrations original (done ++ [entry]) rest changed := by
  obtain ⟨⟨record, inside, version, _, same⟩, awaited⟩ := List.forall_mem_cons.mp here.awaited
  have plain := set_checksum_plain updated
  refine ⟨?_, ?_, ?_, ?_, ?_⟩
  · refine resumable_fill updated here.resumable ?_
    intro other _ chosen known knownFound
    rw [lacksChecksum, Bool.and_eq_true, decide_eq_true_iff] at chosen
    rw [chosen.1, found, Option.some_inj] at knownFound
    rw [knownFound]
  · rw [(set_checksum_records updated).2]
    exact here.nullable
  · intro other member listed
    rw [plain] at member
    obtain ⟨old, oldInside, rfl⟩ := List.mem_map.mp member
    rw [fill_version, List.map_append, List.mem_append, List.map_singleton, List.mem_singleton] at listed
    by_cases chosen : lacksChecksum entry.1 old = true
    · rw [Record.fill, if_pos chosen]
      exact Option.some_ne_none _
    · rw [Record.fill, if_neg chosen]
      rcases listed with earlier | now
      · exact here.filled old oldInside earlier
      · intro none_
        refine chosen ?_
        rw [lacksChecksum, Bool.and_eq_true, decide_eq_true_iff, none_]
        exact ⟨now, rfl⟩
  · intro later member
    obtain ⟨other, otherInside, otherVersion, named, stored⟩ := awaited later member
    refine ⟨other.fill (lacksChecksum entry.1) (checksum rt migration), ?_, ?_⟩
    · rw [plain]
      exact List.mem_map_of_mem otherInside
    · have untouched : other.fill (lacksChecksum entry.1) (checksum rt migration) = other := by
        rw [Record.fill, if_neg]
        intro chosen
        rw [lacksChecksum, Bool.and_eq_true, decide_eq_true_iff] at chosen
        exact fresh (List.mem_map.mpr ⟨later, member, by rw [otherVersion, chosen.1]⟩)
      rw [untouched]
      exact ⟨otherVersion, named, stored⟩
  · intro other member
    rw [plain] at member
    obtain ⟨old, oldInside, rfl⟩ := List.mem_map.mp member
    rw [fill_version, List.append_assoc]
    exact here.covered old oldInside

theorem verify_entry_sure (done rest : Applied) (entry : Bytes × AppliedMigration)
    (fresh : entry.1 ∉ rest.map Prod.fst) :
    Triple (On (OnLedger (Backfilling rt migrations original done (entry :: rest))))
      (verifyEntry rt env migrations true entry)
      (fun _ => On (OnLedger (Backfilling rt migrations original (done ++ [entry]) rest)))
      (Interrupted rt migrations original env) := by
  rintro s ⟨ledger, present, here⟩
  obtain ⟨record, inside, version, named, stored⟩ := here.awaited entry List.mem_cons_self
  obtain ⟨migration, found, name, right⟩ := (here.resumable.accounted record inside).known
  rw [← version] at found
  refine (?_ : Triple (On (OnLedger (Backfilling rt migrations original done (entry :: rest)))) _ _ _) s
    ⟨ledger, present, here⟩
  rw [verifyEntry, found]
  simp only
  rw [if_neg (by rw [named, name]; exact fun differs => differs rfl)]
  cases value : entry.2.checksum with
  | some held =>
    simp only
    rw [if_neg (by rw [not_not]; exact right held (by rw [← stored, value]))]
    refine triple_pure ?_
    rintro t ⟨now, nowPresent, nowHere⟩
    exact ⟨now, nowPresent, backfilling_next entry nowHere
      (by rw [value]; exact Option.some_ne_none _)⟩
  | none =>
    refine bind_on (fun affected db completed => affected = 1 ∧
      OnLedger (Backfilling rt migrations original (done ++ [entry]) rest) db completed) ?_ ?_
    · refine statement_sure env (fun _ now => now.resumable) ?_
      intro db completed now nowPresent nowHere
      obtain ⟨changed, updated⟩ := set_checksum_some (lacksChecksum entry.1) (checksum rt migration)
        (by rw [nowHere.nullable]; decide)
      obtain ⟨old, oldInside, oldVersion, _, oldStored⟩ := nowHere.awaited entry List.mem_cons_self
      refine ⟨(now.records.filter (lacksChecksum entry.1)).length, { db with ledger := some changed },
        by rw [backfillChecksum, nowPresent]; simp only [updated, Option.map_some], ?_, changed, rfl,
        backfilling_filled entry found fresh nowHere updated⟩
      rw [oldVersion]
      exact lacking_one (plain_member oldInside) (by rw [← oldStored, value])
    · rintro affected t ⟨rfl, reached⟩
      refine (?_ : Triple (On (OnLedger (Backfilling rt migrations original (done ++ [entry]) rest))) _ _ _) t reached
      refine preserves_bind (read_sure env (fun _ now => now.resumable) (fun db _ _ now => ⟨(), rfl, now⟩)) ?_
      intro _
      rw [if_neg (by decide)]
      exact triple_pure (fun _ now => now)

theorem backfill_sure (entries : Applied) (distinct : (entries.map Prod.fst).Nodup) :
    Triple (On (OnLedger (Backfilling rt migrations original [] entries)))
      (verifyApplied rt env migrations entries true)
      (fun _ => On (OnLedger (fun ledger => Standing rt migrations original .nullable ledger ∧
        ∀ record ∈ ledger.plain, record.checksum ≠ none)))
      (Interrupted rt migrations original env) := by
  refine bind_on (fun order db completed => order.Perm entries ∧
    OnLedger (Backfilling rt migrations original [] order) db completed) ?_ ?_
  · rintro s ⟨ledger, present, here⟩
    have perm := env.shuffled (Bytes × AppliedMigration) s.clock entries
    refine ⟨perm, ledger, present, here.resumable, here.nullable, here.filled, ?_, ?_⟩
    · intro entry member
      exact here.awaited entry (perm.mem_iff.mp member)
    · intro record member
      exact (perm.map Prod.fst).mem_iff.mpr (here.covered record member)
  · intro order
    refine triple_given ?_
    intro perm
    have loop := triple_each (verifyEntry rt env migrations true) order
      (fun done rest => On (OnLedger (Backfilling rt migrations original done rest)))
      (Interrupted rt migrations original env) (by
        intro done entry rest whole
        refine verify_entry_sure env done rest entry ?_
        have ordered := (perm.map Prod.fst).nodup_iff.mpr distinct
        rw [← whole, List.map_append, List.map_cons] at ordered
        exact (List.nodup_cons.mp (List.nodup_append.mp ordered).2.1).1)
    refine triple_weaken loop (fun _ now => now) ?_ (fun _ _ now => now)
    rintro _ s ⟨ledger, present, here⟩
    refine ⟨ledger, present, ⟨here.resumable, here.nullable⟩, ?_⟩
    intro record member
    have covered := here.covered record member
    rw [List.append_nil] at covered
    exact here.filled record member covered

variable (rt migrations original)

structure Upgraded (ledger : Ledger) : Prop where
  resumable : Resumable rt migrations original ledger
  required : ledger.column = .notNull
  unmarked : ∀ record ∈ ledger.records, isPlain record = true

variable {rt migrations original}

theorem remove_marker_sure :
    Triple (On (OnLedger (Standing rt migrations original .notNull))) (removeMySQLUpgradeMarker env)
      (fun _ => On (OnLedger (Upgraded rt migrations original))) (Interrupted rt migrations original env) := by
  refine ledger_sure env (fun _ here => here.resumable) ?_
  rintro ledger ⟨here, required⟩
  refine ⟨_, rfl, resumable_delete here, required, ?_⟩
  intro record member
  exact (List.mem_filter.mp member).2

def columnFor (hasChecksum : Bool) : ChecksumColumn := if hasChecksum then .nullable else .absent

theorem mark_upgrade_sure (hasChecksum : Bool) :
    Preserves (OnLedger (Standing rt migrations original (columnFor hasChecksum)))
      (Interrupted rt migrations original env) (markUpgrade env hasChecksum) := by
  refine bind_on
    (fun exists_ => OnLedger (fun ledger => Standing rt migrations original (columnFor hasChecksum) ledger ∧
    (exists_ = false → mysqlUpgradeMarker ∉ ledger.records.map Record.version)))
    (read_sure env (fun _ here => here.resumable) ?_) ?_
  · intro db ledger present here
    refine ⟨ledger.records.any (fun record => record.version = mysqlUpgradeMarker), ?_, here, ?_⟩
    · rw [versionExists, present]
      rfl
    · intro none_ member
      obtain ⟨record, inside, same⟩ := List.mem_map.mp member
      rw [List.any_eq_false] at none_
      exact none_ record inside (decide_eq_true same)
  intro exists_
  cases exists_ with
  | true =>
    refine triple_pure ?_
    rintro s ⟨ledger, present, here, _⟩
    exact ⟨ledger, present, here⟩
  | false =>
    refine preserves_bind (fun _ here => here) ?_
    intro now
    refine ledger_sure env (fun _ here => here.1.resumable) ?_
    rintro ledger ⟨⟨here, column⟩, absent⟩
    have admitted : ledger.column.admits (markerRecord now).checksum = true := by
      rw [column]
      cases hasChecksum <;> rfl
    have named : (hasChecksum && decide (ledger.column = .absent)) = false := by
      rw [column]
      cases hasChecksum <;> rfl
    obtain ⟨changed, inserted⟩ : ∃ changed, ledger.insert (markerRecord now) = some changed := by
      rw [Ledger.insert, dif_pos ⟨absent rfl, admitted⟩]
      exact ⟨_, rfl⟩
    refine ⟨changed, by rw [named, if_neg Bool.false_ne_true]; exact inserted,
      resumable_insert rfl inserted here, ?_⟩
    rw [(insert_records changed _ inserted).2.1]
    exact column

theorem ensure_column_sure (hasChecksum : Bool) :
    Triple (On (OnLedger (Standing rt migrations original (columnFor hasChecksum)))) (ensureColumn env hasChecksum)
      (fun _ => On (OnLedger (Standing rt migrations original .nullable)))
      (Interrupted rt migrations original env) := by
  rw [ensureColumn]
  cases hasChecksum with
  | true => exact triple_pure (fun _ here => here)
  | false =>
    rw [if_neg Bool.false_ne_true]
    refine ledger_sure env (fun _ here => here.resumable) ?_
    rintro ledger ⟨here, column⟩
    have absent : ledger.column = .absent := column
    refine ⟨_, by rw [Ledger.addColumn, if_pos absent], ?_, rfl⟩
    exact resumable_same ledger rfl here

variable {migrator : Migrator} (mysql : migrator.dialect = .mySQL)

include mysql in
theorem applied_sure :
    Triple (On (OnLedger (Standing rt migrations original .nullable))) (applied rt env migrator)
      (fun entries => On (fun db completed => (entries.map Prod.fst).Nodup ∧
        OnLedger (Backfilling rt migrations original [] entries) db completed))
      (Interrupted rt migrations original env) := by
  refine bind_on (fun records => OnLedger (fun ledger => Standing rt migrations original .nullable ledger ∧
    ledger.records = records)) (read_sure env (fun _ here => here.resumable) ?_) ?_
  · intro db ledger present here
    refine ⟨ledger.records, ?_, here, rfl⟩
    rw [selectRecords, present]
    simp only [here.column, reduceCtorEq, if_false]
  rintro records s ⟨ledger, present, ⟨here, nullable⟩, rfl⟩
  obtain ⟨entries, read, pairs⟩ := read_records_sure mysql ledger.records
    (fun record member => (here.accounted record member).timed)
  have versions : entries.map Prod.fst = ledger.plain.map Record.version := entries_versions pairs
  rw [read]
  refine ⟨?_, ledger, present, here, nullable, ?_, ?_, ?_⟩
  · rw [versions]
    exact ledger.primaryKey.sublist (List.filter_sublist.map _)
  · intro record _ listed
    exact absurd listed List.not_mem_nil
  · intro entry member
    obtain ⟨record, inside, same⟩ := forall_member pairs.flip member
    exact ⟨record, inside, same⟩
  · intro record member
    rw [List.nil_append, versions]
    exact List.mem_map_of_mem member

include mysql in
theorem upgrade_sure (hasChecksum : Bool) :
    Triple (On (OnLedger (Standing rt migrations original (columnFor hasChecksum))))
      (upgradeMySQLChecksums rt env migrator migrations hasChecksum)
      (fun _ => On (OnLedger (Upgraded rt migrations original))) (Interrupted rt migrations original env) := by
  refine bind_on _ (mark_upgrade_sure env hasChecksum) ?_
  intro _
  refine bind_on _ (ensure_column_sure env hasChecksum) ?_
  intro _
  refine bind_on _ (applied_sure env mysql) ?_
  intro entries
  refine triple_given ?_
  intro distinct
  refine bind_on _ (backfill_sure env entries distinct) ?_
  intro _
  refine bind_on (fun _ => OnLedger (fun ledger => Standing rt migrations original .nullable ledger ∧
    ∀ record ∈ ledger.records, record.checksum.isSome = true)) (ledger_sure env (fun _ here => here.1.resumable) ?_) ?_
  · rintro ledger ⟨⟨here, nullable⟩, filled⟩
    obtain ⟨changed, updated⟩ := set_checksum_some (fun record => record.version = mysqlUpgradeMarker)
      (rt.sha256Hex mysqlUpgradeMarker) (by rw [nullable]; decide)
    refine ⟨changed, updated, ⟨?_, ?_⟩, ?_⟩
    · refine resumable_fill updated here ?_
      intro record member marker
      have plain := (List.mem_filter.mp member).2
      exact absurd (of_decide_eq_true marker) (of_decide_eq_true plain)
    · rw [(set_checksum_records updated).2]
      exact nullable
    · intro record member
      rw [(set_checksum_records updated).1] at member
      obtain ⟨old, inside, rfl⟩ := List.mem_map.mp member
      rw [Record.fill]
      split
      · rfl
      rename_i plain
      rw [Option.isSome_iff_ne_none]
      exact filled old (List.mem_filter.mpr ⟨inside, decide_eq_true (by simpa using plain)⟩)
  intro _
  refine bind_on (fun _ => OnLedger (Standing rt migrations original .notNull)) ?_ (fun _ => remove_marker_sure env)
  rw [enforceChecksumNotNull, mysql]
  refine ledger_sure env (fun _ here => here.1.resumable) ?_
  rintro ledger ⟨⟨here, nullable⟩, filled⟩
  refine ⟨_, by rw [Ledger.requireChecksum, dif_pos ⟨by rw [nullable]; decide, filled⟩], ?_, rfl⟩
  exact resumable_same ledger rfl here

include mysql in
theorem prepare_sure (table : Bytes) (named : migrator.tableChecked = .ok table) :
    Triple (On (OnLedger (Resumable rt migrations original))) (prepare rt env migrator migrations)
      (fun _ => On (OnLedger (Upgraded rt migrations original))) (Interrupted rt migrations original env) := by
  rw [prepare, named]
  refine preserves_bind (triple_pure (fun _ here => here)) ?_
  intro _
  refine preserves_bind (statement_sure env (fun _ here => here) ?_) ?_
  · intro db completed ledger present here
    exact ⟨(), _, rfl, ledger, by rw [present]; rfl, here⟩
  intro _
  refine bind_on (fun found => OnLedger (Standing rt migrations original
    (if !found.1 || found.2 then columnFor found.1 else .notNull))) (read_sure env (fun _ here => here) ?_) ?_
  · intro db ledger present here
    rw [columnState, present, Option.map_some]
    cases column : ledger.column with
    | absent => exact ⟨(false, false), rfl, here, column⟩
    | nullable => exact ⟨(true, true), rfl, here, column⟩
    | notNull => exact ⟨(true, false), rfl, here, column⟩
  rintro ⟨hasChecksum, checksumNullable⟩
  simp only
  split
  · rw [upgradeLegacyChecksums, if_pos mysql]
    exact upgrade_sure env mysql hasChecksum
  · exact remove_marker_sure env

end

end Goforge.Migrate

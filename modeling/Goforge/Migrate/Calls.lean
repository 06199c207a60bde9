import Goforge.Migrate.Agreement

set_option autoImplicit false

namespace Goforge.Migrate

open Fallible GoString

inductive Operation where
  | up (limit : Int)
  | down (steps : Int)
deriving DecidableEq, Repr

def Operation.direction : Operation → Direction
  | .up _ => .up
  | .down _ => .down

structure Call where
  env : Environment
  migrator : Migrator
  files : Except Bytes (List Entry)
  operation : Operation

def Call.run (rt : Runtime) (call : Call) (db : Database) : Answer × Database :=
  match call.operation with
  | .up limit => finish (up rt call.env call.migrator call.files limit (openSession db))
  | .down steps => finish (down rt call.env call.migrator call.files steps (openSession db))

def runCalls (rt : Runtime) : List Call → Database → Database
  | [], db => db
  | call :: rest, db => runCalls rt rest (call.run rt db).2

def Call.Transactional (call : Call) : Prop := call.migrator.dialect ≠ .mySQL

def Call.Loads (call : Call) (migrations : List Migration) : Prop :=
  ∃ number, load call.files (call.env.shuffle Migration number) = .ok migrations

def Call.Drifted (rt : Runtime) (call : Call) (record : Record) : Prop :=
  ∀ migrations, call.Loads migrations →
    findVersion migrations record.version = none ∨ ∃ migration, findVersion migrations record.version = some migration ∧
      (migration.name ≠ record.name ∨ ∃ stored, record.checksum = some stored ∧ stored ≠ checksum rt migration)

theorem origin_kept (db : Database) : On (Kept db []) (openSession db) := ⟨rfl, rfl, retains_refl⟩

section

variable (rt : Runtime) (call : Call) (db : Database) (transactional : call.Transactional)

include transactional in
theorem run_up {limit : Int} (raising : call.operation = .up limit) :
    (Idle db (call.run rt db).2 (call.run rt db).1.completed ∨
      UpRun rt call.env call.files db (fun _ => True) (call.run rt db).2 (call.run rt db).1.completed) ∧
    ((call.run rt db).1.err = none →
      UpRun rt call.env call.files db (fun rest => limit ≤ 0 → rest = []) (call.run rt db).2
        (call.run rt db).1.completed) := by
  have reached := up_on rt call.env call.migrator transactional call.files limit db (openSession db) (origin_kept db)
  rw [Call.run, raising]
  simp only
  generalize up rt call.env call.migrator call.files limit (openSession db) = outcome at reached ⊢
  obtain ⟨result, s⟩ := outcome
  cases result with
  | ok _ =>
    obtain ⟨raised, number, migrations, rest, loaded, whole, finished, undrifted⟩ := reached
    exact ⟨.inr ⟨raised, number, migrations, rest, loaded, whole, trivial, undrifted⟩,
      fun _ => ⟨raised, number, migrations, rest, loaded, whole, finished, undrifted⟩⟩
  | error failure => exact ⟨reached, by rintro ⟨⟩⟩

include transactional in
theorem run_down {steps : Int} (lowering : call.operation = .down steps) :
    Idle db (call.run rt db).2 (call.run rt db).1.completed ∨
      DownRun rt call.env call.files db (call.run rt db).2 (call.run rt db).1.completed := by
  have reached := down_on rt call.env call.migrator transactional call.files steps db (openSession db) (origin_kept db)
  rw [Call.run, lowering]
  simp only
  generalize down rt call.env call.migrator call.files steps (openSession db) = outcome at reached ⊢
  obtain ⟨result, s⟩ := outcome
  cases result <;> exact reached

theorem idle_raised {next : Database} {completed : List Migration} (idle : Idle db next completed) :
    Raised db.versions db.scripts next completed := by
  obtain ⟨rfl, scripts, versions⟩ := idle
  exact ⟨by rw [scripts]; simp, by rw [versions]; simp⟩

theorem idle_lowered {next : Database} {completed : List Migration} (idle : Idle db next completed) :
    Lowered db.versions db.scripts next completed := by
  obtain ⟨rfl, scripts, versions⟩ := idle
  exact ⟨by rw [scripts]; simp, by rw [versions]; simp⟩

include transactional in
theorem up_raised {limit : Int} (raising : call.operation = .up limit) :
    Raised db.versions db.scripts (call.run rt db).2 (call.run rt db).1.completed := by
  rcases (run_up rt call db transactional raising).1 with idle | run
  · exact idle_raised _ idle
  · exact run.raised

include transactional in
theorem down_lowered (steps : Int) (lowering : call.operation = .down steps) :
    Lowered db.versions db.scripts (call.run rt db).2 (call.run rt db).1.completed := by
  rcases run_down rt call db transactional lowering with idle | run
  · exact idle_lowered _ idle
  · exact run.lowered

include transactional in
theorem call_agrees (agrees : Agrees db) : Agrees (call.run rt db).2 := by
  cases operation : call.operation with
  | up limit => exact raised_agrees (up_raised rt call db transactional operation) agrees
  | down steps => exact lowered_agrees (down_lowered rt call db transactional steps operation) agrees

theorem runs_agree (calls : List Call) (all : ∀ call ∈ calls, call.Transactional) (start : Database)
    (agrees : Agrees start) : Agrees (runCalls rt calls start) := by
  induction calls generalizing start with
  | nil => exact agrees
  | cons call calls ih =>
    obtain ⟨here, later⟩ := List.forall_mem_cons.mp all
    exact ih later _ (call_agrees rt call start here agrees)

include transactional in
theorem drifted_idle {record : Record} (member : record ∈ db.records) (drifted : call.Drifted rt record) :
    Idle db (call.run rt db).2 (call.run rt db).1.completed := by
  have impossible : ∀ number migrations, load call.files (call.env.shuffle Migration number) = .ok migrations →
      (∀ other ∈ db.records, Undrifted rt migrations other) → False := by
    intro number migrations loaded undrifted
    obtain ⟨migration, found, named, same⟩ := undrifted record member
    rcases drifted migrations ⟨number, loaded⟩ with absent | ⟨other, also, differs⟩
    · rw [found] at absent
      cases absent
    · rw [found, Option.some_inj] at also
      subst also
      rcases differs with name | ⟨stored, present, different⟩
      · exact name named.symm
      · exact different (same stored present)
  cases operation : call.operation with
  | up limit =>
    rcases (run_up rt call db transactional operation).1 with idle | run
    · exact idle
    · obtain ⟨number, migrations, _, loaded, _, _, undrifted⟩ := run.started
      exact (impossible number migrations loaded undrifted).elim
  | down steps =>
    rcases run_down rt call db transactional operation with idle | run
    · exact idle
    · obtain ⟨number, migrations, loaded, undrifted⟩ := run.started
      exact (impossible number migrations loaded undrifted).elim

include transactional in
theorem up_in_order {limit : Int} (raising : call.operation = .up limit) :
    (call.run rt db).1.completed = [] ∨ ∃ migrations rest, call.Loads migrations ∧ Loaded migrations ∧
      (call.run rt db).1.completed ++ rest = pendingOf db.versions migrations := by
  rcases (run_up rt call db transactional raising).1 with idle | run
  · exact .inl idle.1
  · obtain ⟨number, migrations, rest, loaded, whole, _⟩ := run.started
    exact .inr ⟨migrations, rest, ⟨number, loaded⟩,
      load_loaded (call.env.shuffled Migration number) loaded, whole⟩

include transactional in
theorem up_ascending {limit : Int} (raising : call.operation = .up limit) :
    Ascending Migration.version (call.run rt db).1.completed ∧
      ∀ migration ∈ (call.run rt db).1.completed, migration.version ∉ db.versions := by
  rcases up_in_order rt call db transactional raising with none_ | ⟨migrations, rest, _, loaded, whole⟩
  · rw [none_]
    exact ⟨List.Pairwise.nil, List.forall_mem_nil _⟩
  · have taken : (call.run rt db).1.completed.Sublist (pendingOf db.versions migrations) := by
      rw [← whole]
      exact List.sublist_append_left _ _
    refine ⟨loaded.ascending.sublist (taken.trans List.filter_sublist), ?_⟩
    intro migration member
    have pending := (List.mem_filter.mp (taken.mem member)).2
    simpa using pending

include transactional in
theorem down_in_order (steps : Int) (lowering : call.operation = .down steps) :
    ∃ rest, (call.run rt db).1.completed.map Migration.version ++ rest = (sortBy id db.versions).reverse := by
  rcases run_down rt call db transactional lowering with idle | run
  · exact ⟨_, by rw [idle.1]; rfl⟩
  · exact run.latest

theorem versions_distinct : db.versions.Nodup := by
  rw [Database.versions, Database.records]
  cases db.ledger with
  | none => exact List.nodup_nil
  | some ledger => exact ledger.primaryKey

include transactional in
theorem down_descending {steps : Int} (lowering : call.operation = .down steps) :
    Ascending Migration.version (call.run rt db).1.completed.reverse ∧
      ∀ migration ∈ (call.run rt db).1.completed, migration.version ∈ db.versions := by
  obtain ⟨rest, whole⟩ := down_in_order rt call db transactional steps lowering
  have sorted := sort_by_ascending id db.versions (by rw [List.map_id]; exact versions_distinct db)
  have reversed :
      rest.reverse ++ ((call.run rt db).1.completed.map Migration.version).reverse = sortBy id db.versions := by
    rw [← List.reverse_append, whole, List.reverse_reverse]
  constructor
  · rw [← reversed] at sorted
    have tail := sorted.sublist (List.sublist_append_right _ _)
    rw [← List.map_reverse, List.pairwise_map] at tail
    exact tail
  · intro migration member
    refine (sort_by_perm id db.versions).mem_iff.mp ?_
    rw [← reversed]
    exact List.mem_append_right _ (List.mem_reverse.mpr (List.mem_map_of_mem member))

end

theorem down_calls_reverse (rt : Runtime) {calls : List Call} (all : ∀ call ∈ calls, call.Transactional)
    (lowering : ∀ call ∈ calls, ∃ steps, call.operation = .down steps) (db : Database)
    (ascending : Ascending id db.versions) :
    ∃ reversed : List Migration,
      (runCalls rt calls db).scripts = db.scripts ++ reversed.map (fun migration => migration.script .down) ∧
      db.versions = (runCalls rt calls db).versions ++ (reversed.map Migration.version).reverse := by
  induction calls generalizing db with
  | nil => exact ⟨[], (List.append_nil _).symm, (List.append_nil _).symm⟩
  | cons call calls ih =>
    obtain ⟨here, later⟩ := List.forall_mem_cons.mp all
    obtain ⟨⟨steps, operation⟩, others⟩ := List.forall_mem_cons.mp lowering
    have lowered := down_lowered rt call db here steps operation
    obtain ⟨rest, whole⟩ := down_in_order rt call db here steps operation
    rw [sort_by_sorted id db.versions ascending] at whole
    have split : db.versions =
        rest.reverse ++ ((call.run rt db).1.completed.map Migration.version).reverse := by
      rw [← List.reverse_append, whole, List.reverse_reverse]
    have left : (call.run rt db).2.versions = rest.reverse := by
      have distinct := versions_distinct db
      rw [split] at distinct
      rw [lowered.versions, split, List.filter_append]
      have kept : rest.reverse.filter (fun version => version ∉ (call.run rt db).1.completed.map Migration.version) =
          rest.reverse := by
        rw [List.filter_eq_self]
        intro version member
        exact decide_eq_true (fun gone => (List.nodup_append.mp distinct).2.2 version member version
          (List.mem_reverse.mpr gone) rfl)
      have dropped : ((call.run rt db).1.completed.map Migration.version).reverse.filter
          (fun version => version ∉ (call.run rt db).1.completed.map Migration.version) = [] := by
        rw [List.filter_eq_nil_iff]
        intro version member absent
        exact of_decide_eq_true absent (List.mem_reverse.mp member)
      rw [kept, dropped, List.append_nil]
    have stillAscending : Ascending id (call.run rt db).2.versions := by
      rw [left]
      rw [split] at ascending
      exact ascending.sublist (List.sublist_append_left _ _)
    obtain ⟨reversed, scripts, versions⟩ := ih later others (call.run rt db).2 stillAscending
    refine ⟨(call.run rt db).1.completed ++ reversed, ?_, ?_⟩
    · rw [runCalls, scripts, lowered.scripts, List.map_append, List.append_assoc]
    · rw [runCalls, split, ← left, versions, List.map_append, List.reverse_append, List.append_assoc]

theorem up_then_down_reverses {rt : Runtime} {db : Database} (empty : db.versions = []) {raising : Call} {limit : Int}
    (transactional : raising.Transactional) (operation : raising.operation = .up limit) (unlimited : limit ≤ 0)
    (succeeded : (raising.run rt db).1.err = none) {calls : List Call} (all : ∀ call ∈ calls, call.Transactional)
    (lowering : ∀ call ∈ calls, ∃ steps, call.operation = .down steps)
    (covered : (runCalls rt calls (raising.run rt db).2).versions = []) :
    ∃ migrations reversed : List Migration, raising.Loads migrations ∧ (raising.run rt db).1.completed = migrations ∧
      (runCalls rt calls (raising.run rt db).2).scripts = db.scripts ++
        migrations.map (fun migration => migration.script .up) ++
        reversed.map (fun migration => migration.script .down) ∧
      reversed.map Migration.version = (migrations.map Migration.version).reverse := by
  have run := (run_up rt raising db transactional operation).2 succeeded
  obtain ⟨number, migrations, rest, loaded, whole, finished, _⟩ := run.started
  have everything : (raising.run rt db).1.completed = migrations := by
    rw [finished unlimited, List.append_nil, empty, pendingOf] at whole
    rw [whole, List.filter_eq_self]
    intro migration _
    exact decide_eq_true List.not_mem_nil
  have versions := run.raised.versions
  rw [empty, List.nil_append, everything] at versions
  have ascending : Ascending id (raising.run rt db).2.versions := by
    rw [versions, Ascending, List.pairwise_map]
    exact (load_loaded (raising.env.shuffled Migration number) loaded).ascending
  obtain ⟨reversed, scripts, split⟩ := down_calls_reverse rt all lowering _ ascending
  rw [covered, List.nil_append, versions] at split
  refine ⟨migrations, reversed, ⟨number, loaded⟩, everything, ?_, ?_⟩
  · rw [scripts, run.raised.scripts, everything]
  · rw [split, List.reverse_reverse]

structure CallSound (rt : Runtime) (call : Call) (db : Database) (answer : Answer) (next : Database) : Prop where
  committed : next.scripts = db.scripts ++
    answer.completed.map (fun migration => migration.script call.operation.direction)
  raised : ∀ limit, call.operation = .up limit → Ascending Migration.version answer.completed ∧
    (∀ migration ∈ answer.completed, migration.version ∉ db.versions) ∧
    (answer.completed = [] ∨ ∃ migrations rest, call.Loads migrations ∧
      answer.completed ++ rest = pendingOf db.versions migrations)
  lowered : ∀ steps, call.operation = .down steps → Ascending Migration.version answer.completed.reverse ∧
    (∀ migration ∈ answer.completed, migration.version ∈ db.versions) ∧
    ∃ rest, answer.completed.map Migration.version ++ rest = (sortBy id db.versions).reverse
  undrifted : (∃ record ∈ db.records, call.Drifted rt record) → answer.completed = [] ∧ next.scripts = db.scripts

theorem call_sound (rt : Runtime) {call : Call} (db : Database) (transactional : call.Transactional) :
    CallSound rt call db (call.run rt db).1 (call.run rt db).2 := by
  refine ⟨?_, ?_, ?_, ?_⟩
  · cases operation : call.operation with
    | up limit => exact (up_raised rt call db transactional operation).scripts
    | down steps => exact (down_lowered rt call db transactional steps operation).scripts
  · intro limit operation
    obtain ⟨ascending, pending⟩ := up_ascending rt call db transactional operation
    refine ⟨ascending, pending, ?_⟩
    rcases up_in_order rt call db transactional operation with none_ | ⟨migrations, rest, loads, _, whole⟩
    · exact .inl none_
    · exact .inr ⟨migrations, rest, loads, whole⟩
  · intro steps operation
    obtain ⟨descending, applied⟩ := down_descending rt call db transactional operation
    exact ⟨descending, applied, down_in_order rt call db transactional steps operation⟩
  · rintro ⟨record, member, drifted⟩
    obtain ⟨completed, scripts, _⟩ := drifted_idle rt call db transactional member drifted
    exact ⟨completed, scripts⟩

theorem ledger_and_schema_agree (rt : Runtime) :
    (∀ (calls : List Call) (db : Database), (∀ call ∈ calls, call.Transactional) → Agrees db →
      Agrees (runCalls rt calls db)) ∧
    (∀ (call : Call) (db : Database), call.Transactional → CallSound rt call db (call.run rt db).1 (call.run rt db).2) ∧
    (∀ (db : Database) (raising : Call) (limit : Int) (calls : List Call), db.versions = [] → raising.Transactional →
      raising.operation = .up limit → limit ≤ 0 → (raising.run rt db).1.err = none →
      (∀ call ∈ calls, call.Transactional) → (∀ call ∈ calls, ∃ steps, call.operation = .down steps) →
      (runCalls rt calls (raising.run rt db).2).versions = [] →
      ∃ migrations reversed : List Migration, raising.Loads migrations ∧ (raising.run rt db).1.completed = migrations ∧
        (runCalls rt calls (raising.run rt db).2).scripts = db.scripts ++
          migrations.map (fun migration => migration.script .up) ++
          reversed.map (fun migration => migration.script .down) ∧
        reversed.map Migration.version = (migrations.map Migration.version).reverse) := by
  refine ⟨?_, ?_, ?_⟩
  · intro calls db all agrees
    exact runs_agree rt calls all db agrees
  · intro call db transactional
    exact call_sound rt db transactional
  · intro db raising limit calls empty transactional operation unlimited succeeded all lowering covered
    exact up_then_down_reverses empty transactional operation unlimited succeeded all lowering covered

section Sample

def sampleRuntime : Runtime := { sha256Hex := id, parseTime := fun _ => .ok 0, quote := id }

def calmEnvironment : Environment where
  fails := fun _ => false
  reason := fun _ => []
  now := fun _ => ascii "2026-01-01T00:00:00Z"
  keeps := fun _ => false
  shuffle := fun _ _ items => items
  shuffled := fun _ _ items => List.Perm.refl items

def sampleFiles : List Entry :=
  [{ name := ascii "10_b.down.sql", isDir := false, contents := .ok (ascii "DROP TABLE b") },
   { name := ascii "10_b.up.sql", isDir := false, contents := .ok (ascii "CREATE TABLE b") },
   { name := ascii "9_a.down.sql", isDir := false, contents := .ok (ascii "DROP TABLE a") },
   { name := ascii "9_a.up.sql", isDir := false, contents := .ok (ascii "CREATE TABLE a") }]

def sampleCall (operation : Operation) : Call :=
  { env := calmEnvironment, migrator := { dialect := .postgres, table := [] }, files := .ok sampleFiles,
    operation := operation }

def emptyDatabase : Database := { ledger := none, temporary := none, scripts := [] }

theorem ledger_and_schema_agree_sample :
    (runCalls sampleRuntime [sampleCall (.up 0), sampleCall (.down 1), sampleCall (.down 5)] emptyDatabase).scripts.map
        Script.text = [ascii "CREATE TABLE b", ascii "CREATE TABLE a", ascii "DROP TABLE a", ascii "DROP TABLE b"] ∧
      Agrees
        (runCalls sampleRuntime [sampleCall (.up 0), sampleCall (.down 1), sampleCall (.down 5)] emptyDatabase) := by
  refine ⟨by decide +kernel, (ledger_and_schema_agree sampleRuntime).1 _ emptyDatabase ?_ ?_⟩
  · intro call member
    simp only [List.mem_cons, List.not_mem_nil, or_false] at member
    rcases member with rfl | rfl | rfl <;> exact (by decide : Dialect.postgres ≠ Dialect.mySQL)
  · intro version
    exact iff_of_false List.not_mem_nil (by rintro ⟨⟩)

end Sample

end Goforge.Migrate

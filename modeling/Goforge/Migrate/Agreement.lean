import Goforge.Migrate.Prepare

set_option autoImplicit false

namespace Goforge.Migrate

open Fallible GoString

def Migration.script (migration : Migration) (direction : Direction) : Script :=
  { version := migration.version, direction := direction, text := match direction with
      | .up => migration.up
      | .down => migration.down }

def lastScript (scripts : List Script) (version : Bytes) : Option Direction :=
  (scripts.reverse.find? (fun script => script.version = version)).map Script.direction

def Agrees (db : Database) : Prop := ∀ version, version ∈ db.versions ↔ lastScript db.scripts version = some .up

theorem last_script_append (scripts : List Script) (migrations : List Migration) (direction : Direction)
    (version : Bytes) : lastScript (scripts ++ migrations.map (fun migration => migration.script direction)) version =
      if version ∈ migrations.map Migration.version then some direction else lastScript scripts version := by
  rw [lastScript, List.reverse_append, List.find?_append, lastScript]
  split
  · rename_i member
    cases found : (migrations.map (fun migration => migration.script direction)).reverse.find?
        (fun script => script.version = version) with
    | none =>
      obtain ⟨migration, inside, rfl⟩ := List.mem_map.mp member
      have absent := List.find?_eq_none.mp found (migration.script direction)
        (List.mem_reverse.mpr (List.mem_map_of_mem inside))
      exact absurd (decide_eq_true rfl) absent
    | some script =>
      have inside := List.mem_reverse.mp (List.mem_of_find?_eq_some found)
      obtain ⟨migration, _, rfl⟩ := List.mem_map.mp inside
      rfl
  · rename_i absent
    have none_ : (migrations.map (fun migration => migration.script direction)).reverse.find?
        (fun script => script.version = version) = none := by
      rw [List.find?_eq_none]
      intro script member same
      obtain ⟨migration, inside, rfl⟩ := List.mem_map.mp (List.mem_reverse.mp member)
      exact absent (List.mem_map.mpr ⟨migration, inside, of_decide_eq_true same⟩)
    rw [none_, Option.none_or]

structure Raised (versions : List Bytes) (scripts : List Script) (db : Database) (completed : List Migration) :
    Prop where
  scripts : db.scripts = scripts ++ completed.map (fun migration => migration.script .up)
  versions : db.versions = versions ++ completed.map Migration.version

structure Lowered (versions : List Bytes) (scripts : List Script) (db : Database) (completed : List Migration) :
    Prop where
  scripts : db.scripts = scripts ++ completed.map (fun migration => migration.script .down)
  versions : db.versions = versions.filter (fun version => version ∉ completed.map Migration.version)

theorem raised_agrees {db next : Database} {completed : List Migration}
    (raised : Raised db.versions db.scripts next completed) (agrees : Agrees db) : Agrees next := by
  intro version
  rw [raised.versions, raised.scripts, last_script_append, List.mem_append, agrees version]
  split
  · rename_i member
    exact iff_of_true (.inr member) rfl
  · rename_i absent
    exact ⟨fun either => either.resolve_right absent, .inl⟩

theorem lowered_agrees {db next : Database} {completed : List Migration}
    (lowered : Lowered db.versions db.scripts next completed) (agrees : Agrees db) : Agrees next := by
  intro version
  rw [lowered.versions, lowered.scripts, last_script_append, List.mem_filter, agrees version]
  split
  · rename_i member
    refine iff_of_false (fun both => ?_) (by rintro ⟨⟩)
    exact of_decide_eq_true both.2 member
  · rename_i absent
    exact ⟨fun both => both.1, fun held => ⟨held, decide_eq_true absent⟩⟩

section

variable (rt : Runtime) (env : Environment) (migrator : Migrator)

structure Ran (db : Database) (made : List Migration) (script : Script) (versions : List Bytes) (now : Database)
    (done : List Migration) : Prop where
  same : done = made
  scripts : now.scripts = db.scripts ++ [script]
  versions : now.versions = versions

theorem run_script_on {context : Bytes} {script : Script} (db : Database) (made : List Migration) :
    Triple (On (fun now done => now = db ∧ done = made)) (env.statement context (runScript script))
      (fun _ => On (Ran db made script db.versions)) (fun _ => On (fun _ done => done = made)) := by
  refine statement_on env (fun _ _ here => here.2) ?_
  rintro now done ⟨⟩ next ⟨rfl, rfl⟩ ran
  cases ran
  exact ⟨rfl, rfl, rfl⟩

theorem execute_up_on (migration : Migration) (db : Database) (made : List Migration) :
    Triple (On (fun now done => now = db ∧ done = made)) (executeUp rt env migration)
      (fun _ => On (Ran db made (migration.script .up) (db.versions ++ [migration.version])))
      (fun _ => On (fun _ done => done = made)) := by
  refine bind_on _ (run_script_on env db made) ?_
  intro _
  refine bind_on (fun _ => Ran db made (migration.script .up) db.versions) (fun _ here => here) ?_
  intro time
  refine statement_on env (fun _ _ here => here.same) ?_
  rintro now done ⟨⟩ next ran inserted
  obtain ⟨old, new, found, added, rfl⟩ := on_ledger_records _ inserted
  refine ⟨ran.same, ran.scripts, ?_⟩
  split at added
  · cases added
  rw [← ran.versions, Database.versions, Database.versions, records_of found]
  show new.records.map Record.version = _
  rw [(insert_records new _ added).1, List.map_append]
  rfl

theorem execute_down_on (migration : Migration) (db : Database) (made : List Migration) :
    Triple (On (fun now done => now = db ∧ done = made)) (executeDown env migration)
      (fun _ => On (Ran db made (migration.script .down)
        (db.versions.filter (fun version => version ≠ migration.version))))
      (fun _ => On (fun _ done => done = made)) := by
  refine bind_on _ (run_script_on env db made) ?_
  intro _
  refine statement_on env (fun _ _ here => here.same) ?_
  rintro now done ⟨⟩ next ran deleted
  obtain ⟨old, new, found, removed, rfl⟩ := on_ledger_records _ deleted
  cases removed
  refine ⟨ran.same, ran.scripts, ?_⟩
  rw [← ran.versions, Database.versions, Database.versions, records_of found, List.filter_map]
  rfl

def pendingOf (versions : List Bytes) (migrations : List Migration) : List Migration :=
  migrations.filter (fun migration => migration.version ∉ versions)

theorem up_each_on (transactional : migrator.dialect ≠ .mySQL) {versions : List Bytes} (scripts : List Script)
    {entries : Applied} (listed : entries.map Prod.fst = versions) (limit : Int) (migrations start : List Migration) :
    Triple (On (fun db completed => Raised versions scripts db completed ∧ completed = start))
      (upEach rt env migrator entries limit migrations)
      (fun _ => On (fun db completed => Raised versions scripts db completed ∧
        ∃ rest, completed ++ rest = start ++ pendingOf versions migrations ∧ (limit ≤ 0 → rest = [])))
      (fun _ => On (fun db completed => Raised versions scripts db completed ∧
        ∃ rest, completed ++ rest = start ++ pendingOf versions migrations)) := by
  induction migrations generalizing start with
  | nil =>
    refine triple_pure ?_
    rintro s ⟨raised, same⟩
    exact ⟨raised, [], by rw [same]; rfl, fun _ => rfl⟩
  | cons migration migrations ih =>
    rw [upEach]
    split
    · rename_i known
      rw [listed] at known
      rw [pendingOf, List.filter_cons, if_neg (by simpa using known)]
      exact ih start
    · rename_i unknown
      rw [listed] at unknown
      have pending : pendingOf versions (migration :: migrations) = migration :: pendingOf versions migrations := by
        rw [pendingOf, List.filter_cons, if_pos (by simpa using unknown)]
        rfl
      rw [pending]
      have stopped : ∀ db completed, Raised versions scripts db completed ∧ completed = start →
          Raised versions scripts db completed ∧
            ∃ rest, completed ++ rest = start ++ migration :: pendingOf versions migrations := by
        rintro db completed ⟨raised, same⟩
        exact ⟨raised, _, by rw [same]⟩
      refine bind_on (fun completed db made => (Raised versions scripts db made ∧ made = start) ∧ completed = start)
        (fun s here => ⟨here, here.2⟩) ?_
      intro completed
      split
      · rename_i reached
        refine triple_pure ?_
        rintro s ⟨⟨raised, same⟩, _⟩
        exact ⟨raised, _, by rw [same], fun unlimited => absurd reached.1 (by omega)⟩
      · split
        · exact triple_fail (fun _ here => stopped _ _ here.1)
        · refine bind_on (fun _ db made => Raised versions scripts db (made ++ [migration]) ∧ made = start) ?_ ?_
          · refine transaction_on env transactional (fun _ _ here => stopped _ _ here.1) ?_
            rintro db made ⟨⟨raised, rfl⟩, _⟩
            refine triple_weaken (execute_up_on rt env migration db made) (fun _ here => here) ?_ (fun _ _ here => here)
            rintro _ s ⟨same, ran, added⟩
            refine ⟨same, ⟨?_, ?_⟩, same⟩
            · rw [ran, raised.scripts, same, List.map_append, List.append_assoc]
              rfl
            · rw [added, raised.versions, same, List.map_append, List.append_assoc]
              rfl
          · intro _
            refine bind_on (fun _ db made => Raised versions scripts db made ∧ made = start ++ [migration]) ?_ ?_
            · rintro s ⟨raised, same⟩
              exact ⟨raised, by rw [same]⟩
            · intro _
              have later := ih (start ++ [migration])
              rw [List.append_assoc, List.singleton_append] at later
              exact later

theorem down_each_on (transactional : migrator.dialect ≠ .mySQL) (versions : List Bytes) (scripts : List Script)
    (migrations : List Migration) (listed : List Bytes) :
    Triple (On (fun db completed => Lowered versions scripts db completed ∧ completed = []))
      (each (downEach env migrator migrations) listed)
      (fun _ => On (fun db completed => Lowered versions scripts db completed ∧
        ∃ rest, completed.map Migration.version ++ rest = listed))
      (fun _ => On (fun db completed => Lowered versions scripts db completed ∧
        ∃ rest, completed.map Migration.version ++ rest = listed)) := by
  have loop := triple_each (downEach env migrator migrations) listed
    (fun done _ => On (fun db completed => Lowered versions scripts db completed ∧
      completed.map Migration.version = done))
    (fun _ => On (fun db completed => Lowered versions scripts db completed ∧
      ∃ rest, completed.map Migration.version ++ rest = listed)) (by
    intro done version rest whole
    have stopped : ∀ db completed, Lowered versions scripts db completed ∧ completed.map Migration.version = done →
        Lowered versions scripts db completed ∧ ∃ rest, completed.map Migration.version ++ rest = listed := by
      rintro db completed ⟨lowered, same⟩
      exact ⟨lowered, _, by rw [same]; exact whole⟩
    rw [downEach]
    cases found : findVersion migrations version with
    | none => exact triple_fail (fun _ here => stopped _ _ here)
    | some migration =>
      have own : migration.version = version := by simpa using List.find?_some found
      simp only
      split
      · exact triple_fail (fun _ here => stopped _ _ here)
      · refine bind_on (fun _ db completed => Lowered versions scripts db (completed ++ [migration]) ∧
          completed.map Migration.version = done) ?_ ?_
        · refine transaction_on env transactional stopped ?_
          rintro db made ⟨lowered, same⟩
          refine triple_weaken (execute_down_on env migration db made) (fun _ here => here) ?_ (fun _ _ here => here)
          rintro _ s ⟨kept, ran, removed⟩
          refine ⟨kept, ⟨?_, ?_⟩, by rw [kept]; exact same⟩
          · rw [ran, lowered.scripts, kept, List.map_append, List.append_assoc]
            rfl
          · rw [removed, lowered.versions, kept, List.filter_filter]
            refine List.filter_congr ?_
            intro other _
            rw [Bool.eq_iff_iff, Bool.and_eq_true, decide_eq_true_iff, decide_eq_true_iff, decide_eq_true_iff,
              List.map_append, List.mem_append, not_or, and_comm, List.map_singleton, List.mem_singleton]
        · intro _
          rintro s ⟨lowered, same⟩
          refine ⟨lowered, ?_⟩
          show (s.completed ++ [migration]).map Migration.version = done ++ [version]
          rw [List.map_append, same, List.map_singleton, own])
  refine triple_weaken loop ?_ ?_ (fun _ _ here => here)
  · rintro s ⟨lowered, same⟩
    exact ⟨lowered, by rw [same]; rfl⟩
  · rintro _ s ⟨lowered, same⟩
    exact ⟨lowered, [], by rw [List.append_nil]; exact same⟩

def Undrifted (migrations : List Migration) (record : Record) : Prop :=
  ∃ migration, findVersion migrations record.version = some migration ∧ record.name = migration.name ∧
    ∀ stored, record.checksum = some stored → stored = checksum rt migration

theorem verified_undrifted (files : Except Bytes (List Entry)) {origin db : Database}
    {made completed migrations : List Migration}
    {entries : Applied} (kept : Kept origin made db completed) (sound : Verified rt env files migrations entries db) :
    ∀ record ∈ origin.records, Undrifted rt migrations record := by
  intro record member
  obtain ⟨now, inside, version, name, _, retained⟩ := forall_member kept.records member
  obtain ⟨migration, found, same, stored⟩ := sound.agreed now inside
  refine ⟨migration, version ▸ found, name ▸ same, ?_⟩
  intro value present
  rw [retained (by rw [present]; exact Option.some_ne_none _), present, Option.some_inj] at stored
  exact stored

structure UpRun (files : Except Bytes (List Entry)) (origin : Database) (finished : List Migration → Prop)
    (db : Database) (completed : List Migration) : Prop where
  raised : Raised origin.versions origin.scripts db completed
  started : ∃ number migrations rest, load files (env.shuffle Migration number) = .ok migrations ∧
    completed ++ rest = pendingOf origin.versions migrations ∧ finished rest ∧
    ∀ record ∈ origin.records, Undrifted rt migrations record

def Idle (origin db : Database) (completed : List Migration) : Prop :=
  completed = [] ∧ db.scripts = origin.scripts ∧ db.versions = origin.versions

theorem kept_idle {origin db : Database} {completed : List Migration} (kept : Kept origin [] db completed) :
    Idle origin db completed :=
  ⟨kept.completed, kept.scripts, retains_versions kept.records⟩

theorem up_on (transactional : migrator.dialect ≠ .mySQL) (files : Except Bytes (List Entry)) (limit : Int)
    (origin : Database) :
    Triple (On (Kept origin [])) (up rt env migrator files limit)
      (fun _ => On (UpRun rt env files origin (fun rest => limit ≤ 0 → rest = [])))
      (fun _ => On (fun db completed => Idle origin db completed ∨
        UpRun rt env files origin (fun _ => True) db completed)) := by
  refine run_lock_on env ?_ (fun db made kept => .inl (kept_idle kept)) ?_
  · refine bind_on _ (triple_weaken (verified_on rt env migrator origin [] transactional files)
      (fun _ here => here) (fun _ _ here => here) (fun _ s here => .inl (kept_idle here))) ?_
    rintro ⟨migrations, entries⟩ s ⟨kept, sound⟩
    have versions : s.db.versions = origin.versions := retains_versions kept.records
    have undrifted := verified_undrifted rt env files kept sound
    obtain ⟨number, loaded⟩ := sound.loaded
    have loop := up_each_on rt env migrator transactional origin.scripts
      (sound.listed.trans versions) limit migrations [] s
      ⟨⟨by rw [kept.scripts, kept.completed]; exact (List.append_nil _).symm,
        by rw [versions, kept.completed]; exact (List.append_nil _).symm⟩, kept.completed⟩
    show Outcome _ _ (upEach rt env migrator entries limit migrations s)
    generalize upEach rt env migrator entries limit migrations s = outcome at loop
    obtain ⟨result, t⟩ := outcome
    cases result with
    | ok _ =>
      obtain ⟨raised, rest, whole, finished⟩ := loop
      exact ⟨raised, number, migrations, rest, loaded, whole, finished, undrifted⟩
    | error failure =>
      obtain ⟨raised, rest, whole⟩ := loop
      exact .inr ⟨raised, number, migrations, rest, loaded, whole, trivial, undrifted⟩
  · rintro db made ⟨raised, number, migrations, rest, loaded, whole, _, undrifted⟩
    exact .inr ⟨raised, number, migrations, rest, loaded, whole, trivial, undrifted⟩

structure DownRun (files : Except Bytes (List Entry)) (origin db : Database) (completed : List Migration) : Prop where
  lowered : Lowered origin.versions origin.scripts db completed
  latest : ∃ rest, completed.map Migration.version ++ rest = (sortBy id origin.versions).reverse
  started : ∃ number migrations, load files (env.shuffle Migration number) = .ok migrations ∧
    ∀ record ∈ origin.records, Undrifted rt migrations record

theorem down_on (transactional : migrator.dialect ≠ .mySQL) (files : Except Bytes (List Entry)) (steps : Int)
    (origin : Database) :
    Triple (On (Kept origin [])) (down rt env migrator files steps)
      (fun _ => On (fun db completed => Idle origin db completed ∨ DownRun rt env files origin db completed))
      (fun _ => On (fun db completed => Idle origin db completed ∨ DownRun rt env files origin db completed)) := by
  refine run_lock_on env ?_ (fun db made kept => .inl (kept_idle kept)) (fun _ _ here => here)
  refine bind_on _ (triple_weaken (verified_on rt env migrator origin [] transactional files)
    (fun _ here => here) (fun _ _ here => here) (fun _ s here => .inl (kept_idle here))) ?_
  rintro ⟨migrations, entries⟩
  refine bind_on (fun listed db completed => (Kept origin [] db completed ∧
    Verified rt env files migrations entries db) ∧ listed = (sortBy id origin.versions).reverse)
    (statement_on env (fun _ _ here => .inl (kept_idle here.1)) ?_) ?_
  · intro db completed listed next here selected
    rw [selectVersions, Option.map_eq_some_iff] at selected
    obtain ⟨ledger, found, same⟩ := selected
    cases same
    refine ⟨here, ?_⟩
    have versions := retains_versions here.1.records
    rw [records_of found] at versions
    rw [versions]
    rfl
  · rintro listed s ⟨⟨kept, sound⟩, rfl⟩
    have versions : s.db.versions = origin.versions := retains_versions kept.records
    have undrifted := verified_undrifted rt env files kept sound
    obtain ⟨number, loaded⟩ := sound.loaded
    generalize count : (if steps ≤ 0 then 1 else steps.toNat) = taken
    have loop := down_each_on env migrator transactional origin.versions origin.scripts migrations
      ((sortBy id origin.versions).reverse.take taken) s
      ⟨⟨by rw [kept.scripts, kept.completed]; exact (List.append_nil _).symm,
        by rw [versions, kept.completed]; simp⟩, kept.completed⟩
    generalize each (downEach env migrator migrations) ((sortBy id origin.versions).reverse.take taken) s =
      outcome at loop ⊢
    have reached : ∀ t, On (fun db completed => Lowered origin.versions origin.scripts db completed ∧
        ∃ rest, completed.map Migration.version ++ rest = (sortBy id origin.versions).reverse.take taken) t →
        DownRun rt env files origin t.db t.completed := by
      rintro t ⟨lowered, rest, whole⟩
      refine ⟨lowered, ⟨rest ++ (sortBy id origin.versions).reverse.drop taken, ?_⟩, number, migrations,
        loaded, undrifted⟩
      rw [← List.append_assoc, whole, List.take_append_drop]
    obtain ⟨result, t⟩ := outcome
    cases result <;> exact .inr (reached t loop)

end

end Goforge.Migrate

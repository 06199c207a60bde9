import Goforge.Lib.ByteOrder

set_option autoImplicit false

namespace Goforge.Migrate

open GoString

inductive Direction where
  | up
  | down
deriving DecidableEq, Repr

structure Migration where
  version : Bytes
  name : Bytes
  up : Bytes
  down : Bytes
deriving DecidableEq, Repr

def Direction.text : Direction → Bytes
  | .up => ascii "up"
  | .down => ascii "down"

inductive Drift where
  | missing
  | name (database filesystem : Bytes)
  | checksum
  | noChecksum
deriving DecidableEq, Repr

-- The errors by the sentinel they wrap; an error from elsewhere keeps its text
-- behind a context.
inductive Failure where
  | wrapped (context err : Bytes)
  | invalidSource (detail : Bytes)
  | upgradeRequired
  | drift (version : Bytes) (kind : Drift)
  | pending (version : Bytes)
  | unlisted (version : Bytes)
  | emptyScript (version : Bytes) (direction : Direction)
  | backfill (version : Bytes) (affected : Nat)
  | unsafeTable (table : Bytes)
  | joined (first second : Failure)
deriving DecidableEq, Repr

def isNameByte (b : UInt8) : Bool :=
  within (byte 'a') (byte 'z') b || within (byte 'A') (byte 'Z') b || isDigit b || b = byte '_' || b = byte '-'

-- ^([0-9]+)_([a-zA-Z0-9_-]+)\.(up|down)\.sql$
def migrationName (file : Bytes) : Option (Bytes × Bytes × Direction) :=
  match file.takeWhile isDigit, file.dropWhile isDigit with
  | digit :: digits, under :: rest =>
    if under ≠ byte '_' ∨ rest.takeWhile isNameByte = [] then none
    else if rest.dropWhile isNameByte = ascii ".up.sql" then some (digit :: digits, rest.takeWhile isNameByte, .up)
    else if rest.dropWhile isNameByte = ascii ".down.sql" then some (digit :: digits, rest.takeWhile isNameByte, .down)
    else none
  | _, _ => none

-- An entry of the directory, and what reading it as a file gives.
structure Entry where
  name : Bytes
  isDir : Bool
  contents : Except Bytes Bytes

def Migration.withScript (migration : Migration) (direction : Direction) (contents : Bytes) : Migration :=
  match direction with
  | .up => { migration with up := contents }
  | .down => { migration with down := contents }

-- byVersion[version] = migration
def place (migration : Migration) : List Migration → List Migration
  | [] => [migration]
  | other :: rest => if other.version = migration.version then migration :: rest else other :: place migration rest

def loadEntry (byVersion : List Migration) (entry : Entry) : Except Failure (List Migration) :=
  if entry.isDir then .ok byVersion
  else
    match migrationName entry.name with
    | none => .ok byVersion
    | some (version, name, direction) =>
      let known := byVersion.find? (fun migration => migration.version = version)
      if known.any (fun migration => migration.name ≠ name) then
        .error (.invalidSource (ascii "migration version " ++ version ++ ascii " has inconsistent names"))
      else
        match entry.contents with
        | .error err => .error (.wrapped [] err)
        | .ok contents =>
          let migration := known.getD { version := version, name := name, up := [], down := [] }
          .ok (place (migration.withScript direction contents) byVersion)

def isBlank (script : Bytes) : Bool := trimSpace script = []

def incomplete (migration : Migration) : Option Failure :=
  if isBlank migration.up || isBlank migration.down then
    some (.invalidSource (ascii "migration " ++ migration.version ++
      ascii " must have both .up.sql and .down.sql files (missing or empty " ++
      (if isBlank migration.up then Direction.up else Direction.down).text ++ ascii " script)"))
  else none

-- The map is walked in an order of the runtime's own.
def load (entries : Except Bytes (List Entry)) (shuffle : List Migration → List Migration) :
    Except Failure (List Migration) :=
  match entries with
  | .error err => .error (.wrapped (ascii "read migrations") err)
  | .ok entries =>
    match entries.foldlM loadEntry [] with
    | .error failure => .error failure
    | .ok byVersion =>
      match (shuffle byVersion).findSome? incomplete with
      | some failure => .error failure
      | none => .ok (sortBy Migration.version (shuffle byVersion))

structure Loaded (migrations : List Migration) : Prop where
  ascending : Ascending Migration.version migrations
  digits : ∀ migration ∈ migrations, migration.version.all isDigit = true
  complete : ∀ migration ∈ migrations, isBlank migration.up = false ∧ isBlank migration.down = false

theorem migration_name_digits {file version name : Bytes} {direction : Direction}
    (matched : migrationName file = some (version, name, direction)) : version.all isDigit = true := by
  have all : (file.takeWhile isDigit).all isDigit = true := List.all_takeWhile
  rw [migrationName] at matched
  split at matched
  · rename_i digit digits under rest taken dropped
    rw [taken] at all
    split at matched
    · cases matched
    split at matched
    · cases matched
      exact all
    · split at matched
      · cases matched
        exact all
      · cases matched
  · cases matched

theorem place_versions (migration : Migration) (byVersion : List Migration) :
    (place migration byVersion).map Migration.version =
      if migration.version ∈ byVersion.map Migration.version then byVersion.map Migration.version
      else byVersion.map Migration.version ++ [migration.version] := by
  induction byVersion with
  | nil => rfl
  | cons other rest ih =>
    rw [place]
    by_cases same : other.version = migration.version
    · simp [same]
    · rw [if_neg same, List.map_cons, ih]
      have first : migration.version ≠ other.version := fun equal => same equal.symm
      by_cases inside : migration.version ∈ rest.map Migration.version
      · simp [inside]
      · rw [if_neg inside, if_neg]
        · rfl
        · rw [List.map_cons, List.mem_cons]
          rintro (equal | member)
          · exact first equal
          · exact inside member

theorem load_entry_keeps {p : Bytes → Prop} {byVersion : List Migration} (result : List Migration) (entry : Entry)
    (loaded : loadEntry byVersion entry = .ok result) (distinct : (byVersion.map Migration.version).Nodup)
    (holds : ∀ version ∈ byVersion.map Migration.version, p version)
    (named : ∀ version name direction, entry.isDir = false → migrationName entry.name =
      some (version, name, direction) →
      p version) :
    (result.map Migration.version).Nodup ∧ ∀ version ∈ result.map Migration.version, p version := by
  rw [loadEntry] at loaded
  split at loaded
  · cases loaded
    exact ⟨distinct, holds⟩
  · rename_i file
    cases matched : migrationName entry.name with
    | none =>
      rw [matched] at loaded
      cases loaded
      exact ⟨distinct, holds⟩
    | some parts =>
      obtain ⟨version, name, direction⟩ := parts
      simp only [matched] at loaded
      split at loaded
      · cases loaded
      cases read : entry.contents with
      | error err =>
        rw [read] at loaded
        cases loaded
      | ok contents =>
        rw [read] at loaded
        cases loaded
        have own : ∀ known : Option Migration, (∀ migration, known = some migration → migration.version = version) →
            ((known.getD { version := version, name := name, up := [], down := [] }).withScript direction
              contents).version = version := by
          intro known right
          cases known with
          | none => cases direction <;> rfl
          | some migration => cases direction <;> exact right migration rfl
        have version_ := own (byVersion.find? (fun migration => migration.version = version)) (by
          intro migration found
          simpa using List.find?_some found)
        rw [place_versions, version_]
        split
        · exact ⟨distinct, holds⟩
        · rename_i fresh
          refine ⟨List.nodup_append.mpr ⟨distinct, by simp, ?_⟩, ?_⟩
          · intro known member other single same
            rw [List.mem_singleton] at single
            rw [same, single] at member
            exact fresh member
          · intro other member
            rcases List.mem_append.mp member with inside | single
            · exact holds other inside
            · rw [List.mem_singleton.mp single]
              exact named version name direction (Bool.eq_false_iff.mpr file) matched

theorem load_entries_keep {p : Bytes → Prop} {entries : List Entry} (byVersion : List Migration)
    {result : List Migration} (loaded : entries.foldlM loadEntry byVersion = .ok result)
    (distinct : (byVersion.map Migration.version).Nodup)
    (holds : ∀ version ∈ byVersion.map Migration.version, p version)
    (named : ∀ entry ∈ entries, ∀ version name direction, entry.isDir = false →
      migrationName entry.name = some (version, name, direction) → p version) :
    (result.map Migration.version).Nodup ∧ ∀ version ∈ result.map Migration.version, p version := by
  induction entries generalizing byVersion with
  | nil =>
    cases loaded
    exact ⟨distinct, holds⟩
  | cons entry entries ih =>
    rw [List.foldlM_cons] at loaded
    cases here : loadEntry byVersion entry with
    | error failure =>
      rw [here] at loaded
      cases loaded
    | ok next =>
      rw [here] at loaded
      obtain ⟨first, others⟩ := List.forall_mem_cons.mp named
      obtain ⟨still, all⟩ := load_entry_keeps next entry here distinct holds first
      exact ih next loaded still all others

theorem load_result {entries : List Entry} {shuffle : List Migration → List Migration} {migrations : List Migration}
    (loaded : load (.ok entries) shuffle = .ok migrations) :
    ∃ byVersion, entries.foldlM loadEntry [] = .ok byVersion ∧ (shuffle byVersion).findSome? incomplete = none ∧
      migrations = sortBy Migration.version (shuffle byVersion) := by
  rw [load] at loaded
  cases folded : entries.foldlM loadEntry [] with
  | error failure =>
    simp only [folded] at loaded
    cases loaded
  | ok byVersion =>
    simp only [folded] at loaded
    cases checked : (shuffle byVersion).findSome? incomplete with
    | some failure =>
      rw [checked] at loaded
      cases loaded
    | none =>
      rw [checked] at loaded
      cases loaded
      exact ⟨byVersion, rfl, checked, rfl⟩

theorem load_loaded {entries : Except Bytes (List Entry)} {shuffle : List Migration → List Migration}
    (shuffled : ∀ migrations, (shuffle migrations).Perm migrations) {migrations : List Migration}
    (loaded : load entries shuffle = .ok migrations) : Loaded migrations := by
  cases entries with
  | error err => cases loaded
  | ok entries =>
    obtain ⟨byVersion, folded, checked, rfl⟩ := load_result loaded
    obtain ⟨distinct, digits⟩ := load_entries_keep [] folded List.nodup_nil
      (List.forall_mem_nil _) (fun _ _ _ _ _ _ matched => migration_name_digits matched)
    have perm := (sort_by_perm Migration.version (shuffle byVersion)).trans (shuffled byVersion)
    refine ⟨?_, ?_, ?_⟩
    · exact sort_by_ascending _ _ (((shuffled byVersion).map _).nodup_iff.mpr distinct)
    · intro migration member
      exact digits _ (List.mem_map_of_mem (perm.mem_iff.mp member))
    · intro migration member
      have inside := (sort_by_perm Migration.version (shuffle byVersion)).mem_iff.mp member
      have proper := List.findSome?_eq_none_iff.mp checked migration inside
      rw [incomplete] at proper
      split at proper
      · cases proper
      rename_i both
      simpa using both

end Goforge.Migrate

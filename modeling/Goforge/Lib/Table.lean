import Mathlib.Data.List.Nodup

set_option autoImplicit false

namespace Sql

inductive SqlError where
  | invalidText
  | checkViolation
  | primaryKeyViolation
  | uniqueViolation
  | noRows
deriving DecidableEq, Repr

-- A primary key, one partial unique index (rows mapped to none are outside
-- it) and the conjunction of the column and table checks.
structure Schema (ρ κ ι : Type) where
  key : ρ → κ
  index : ρ → Option ι
  check : ρ → Bool

-- Constraints hold between statements, so they are part of the value: a table
-- that breaks one cannot be built.
@[ext]
structure Table {ρ κ ι : Type} (schema : Schema ρ κ ι) where
  rows : List ρ
  keys : (rows.map schema.key).Nodup
  indexed : (rows.filterMap schema.index).Nodup
  checked : ∀ row ∈ rows, schema.check row = true

-- A SET clause that keeps the key and index columns of the rows it is for.
structure Assign {ρ κ ι : Type} (schema : Schema ρ κ ι) (pred : ρ → Bool) where
  set : ρ → ρ
  keepsKey : ∀ row, pred row = true → schema.key (set row) = schema.key row
  keepsIndex : ∀ row, pred row = true → schema.index (set row) = schema.index row

section

variable {ρ κ ι : Type} {schema : Schema ρ κ ι}

def Table.empty : Table schema := ⟨[], by simp, by simp, by simp⟩

variable {pred : ρ → Bool} {table : Table schema}

theorem assign_keys (assign : Assign schema pred) (rows : List ρ) :
    (rows.map (fun row => if pred row then assign.set row else row)).map schema.key = rows.map schema.key := by
  rw [List.map_map]
  apply List.map_congr_left
  intro row _
  by_cases hit : pred row = true <;> simp [hit, assign.keepsKey]

theorem assign_index (assign : Assign schema pred) (rows : List ρ) :
    (rows.map (fun row => if pred row then assign.set row else row)).filterMap schema.index =
      rows.filterMap schema.index := by
  rw [List.filterMap_map]
  apply List.filterMap_congr
  intro row _
  by_cases hit : pred row = true <;> simp [hit, assign.keepsIndex]

-- DELETE ... WHERE pred RETURNING *
def Table.delete (table : Table schema) (pred : ρ → Bool) : Table schema × List ρ :=
  (⟨table.rows.filter (fun row => !pred row),
    table.keys.sublist (List.Sublist.map _ List.filter_sublist),
    table.indexed.sublist (List.Sublist.filterMap _ List.filter_sublist),
    fun row member => table.checked row (List.mem_filter.mp member).1⟩,
   table.rows.filter pred)

-- UPDATE ... SET assign WHERE pred RETURNING *. The statement fails as a
-- whole when one updated row breaks a check.
def Table.update (table : Table schema) (pred : ρ → Bool) (assign : Assign schema pred) :
    Except SqlError (Table schema × List ρ) :=
  if ok : ∀ row ∈ table.rows, pred row = true → schema.check (assign.set row) = true then
    .ok (⟨table.rows.map (fun row => if pred row then assign.set row else row),
        by rw [assign_keys]; exact table.keys,
        by rw [assign_index]; exact table.indexed,
        by
          intro row member
          obtain ⟨old, present, rfl⟩ := List.mem_map.mp member
          by_cases hit : pred old = true
          · simpa only [if_pos hit] using ok old present hit
          · simpa only [if_neg hit] using table.checked old present⟩,
      (table.rows.filter pred).map assign.set)
  else .error .checkViolation

theorem filter_map_unique {entry : ι} {index : ρ → Option ι} {a b : ρ} {rows : List ρ}
    (nodup : (rows.filterMap index).Nodup) (left : a ∈ rows) (right : b ∈ rows) (leftIndex : index a = some entry)
    (rightIndex : index b = some entry) : a = b := by
  induction rows with
  | nil => simp at left
  | cons row rest ih =>
    have tail : (rest.filterMap index).Nodup :=
      nodup.sublist (List.Sublist.filterMap index (List.sublist_cons_self row rest))
    have apart : ∀ other ∈ rest, index other = some entry → index row ≠ some entry := by
      intro other member otherIndex rowIndex
      simp only [List.filterMap_cons, rowIndex, List.nodup_cons] at nodup
      exact nodup.1 (List.mem_filterMap.mpr ⟨other, member, otherIndex⟩)
    rcases List.mem_cons.mp left with rfl | leftLater
    · rcases List.mem_cons.mp right with same | rightLater
      · exact same.symm
      · exact absurd leftIndex (apart b rightLater rightIndex)
    · rcases List.mem_cons.mp right with rfl | rightLater
      · exact absurd rightIndex (apart a leftLater leftIndex)
      · exact ih tail leftLater rightLater

theorem index_unique {a b : ρ} (entry : ι) (left : a ∈ table.rows) (right : b ∈ table.rows)
    (leftIndex : schema.index a = some entry) (rightIndex : schema.index b = some entry) : a = b :=
  filter_map_unique table.indexed left right leftIndex rightIndex

theorem filter_single {row : ρ} (member : row ∈ table.rows) (hit : pred row = true)
    (only : ∀ other ∈ table.rows, pred other = true → other = row) : table.rows.filter pred = [row] := by
  have nodup : (table.rows.filter pred).Nodup := (List.Nodup.of_map schema.key table.keys).filter _
  refine List.perm_singleton.mp ((List.perm_ext_iff_of_nodup nodup (List.nodup_singleton row)).mpr ?_)
  intro other
  rw [List.mem_filter, List.mem_singleton]
  constructor
  · rintro ⟨present, otherHit⟩
    exact only other present otherHit
  · rintro rfl
    exact ⟨member, hit⟩

theorem delete_none (miss : ∀ row ∈ table.rows, pred row = false) : table.delete pred = (table, []) := by
  have kept : table.rows.filter (fun row => !pred row) = table.rows :=
    List.filter_eq_self.mpr (fun row member => by simp [miss row member])
  have gone : table.rows.filter pred = [] :=
    List.filter_eq_nil_iff.mpr (fun row member => by simp [miss row member])
  apply Prod.ext
  · exact Table.ext kept
  · exact gone

theorem update_returns {next : Table schema} {pred : ρ → Bool} (assign : Assign schema pred) {changed : List ρ}
    (done : table.update pred assign = .ok (next, changed)) : changed = (table.rows.filter pred).map assign.set := by
  unfold Table.update at done
  split at done
  · cases done
    rfl
  · cases done

theorem update_succeeds (assign : Assign schema pred)
    (ok : ∀ row ∈ table.rows, pred row = true → schema.check (assign.set row) = true) :
    ∃ next, table.update pred assign = .ok (next, (table.rows.filter pred).map assign.set) := by
  unfold Table.update
  rw [dif_pos ok]
  exact ⟨_, rfl⟩

theorem update_fixed {assign : Assign schema pred}
    (fixed : ∀ row ∈ table.rows, pred row = true → assign.set row = row) :
    table.update pred assign = .ok (table, table.rows.filter pred) := by
  have same : ∀ row ∈ table.rows, (if pred row = true then assign.set row else row) = row := by
    intro row member
    by_cases hit : pred row = true
    · rw [if_pos hit, fixed row member hit]
    · rw [if_neg hit]
  have ok : ∀ row ∈ table.rows, pred row = true → schema.check (assign.set row) = true := by
    intro row member hit
    rw [fixed row member hit]
    exact table.checked row member
  rw [Table.update, dif_pos ok]
  congr 1
  apply Prod.ext
  · apply Table.ext
    exact (List.map_congr_left same).trans (List.map_id table.rows)
  · refine (List.map_congr_left ?_).trans (List.map_id _)
    intro row member
    exact fixed row (List.mem_filter.mp member).1 (List.mem_filter.mp member).2

theorem update_none {assign : Assign schema pred} (miss : ∀ row ∈ table.rows, pred row = false) :
    table.update pred assign = .ok (table, []) := by
  rw [update_fixed (fun row member hit => by simp [miss row member] at hit)]
  rw [List.filter_eq_nil_iff.mpr (fun row member => by simp [miss row member])]

end

section

variable {ρ κ ι : Type} {schema : Schema ρ κ ι} [DecidableEq κ]

def Table.find (table : Table schema) (key : κ) : Option ρ :=
  table.rows.find? (fun row => decide (schema.key row = key))

theorem find_some_iff (table : Table schema) (key : κ) (row : ρ) :
    table.find key = some row ↔ row ∈ table.rows ∧ schema.key row = key := by
  constructor
  · intro found
    exact ⟨List.mem_of_find?_eq_some found, by simpa using List.find?_some found⟩
  · rintro ⟨member, rfl⟩
    cases found : table.find (schema.key row) with
    | none =>
      have absent := List.find?_eq_none.mp found row member
      simp at absent
    | some other =>
      have same : schema.key other = schema.key row := by simpa using List.find?_some found
      rw [List.inj_on_of_nodup_map table.keys (List.mem_of_find?_eq_some found) member same]

theorem find_none_iff (table : Table schema) (key : κ) :
    table.find key = none ↔ ∀ row ∈ table.rows, schema.key row ≠ key := by
  simp [Table.find]

theorem find_key {table : Table schema} {key : κ} {row : ρ} (found : table.find key = some row) :
    schema.key row = key :=
  ((find_some_iff table key row).mp found).2

theorem find_checked {table : Table schema} {key : κ} {row : ρ} (found : table.find key = some row) :
    schema.check row = true :=
  table.checked row ((find_some_iff table key row).mp found).1

theorem find_mem {table : Table schema} {row : ρ} (member : row ∈ table.rows) :
    table.find (schema.key row) = some row :=
  (find_some_iff table (schema.key row) row).mpr ⟨member, rfl⟩

theorem find_delete (table : Table schema) (pred : ρ → Bool) (key : κ) :
    (table.delete pred).1.find key = (table.find key).filter (fun row => !pred row) := by
  apply Option.ext
  intro row
  rw [Option.filter_eq_some_iff, find_some_iff, find_some_iff]
  simp only [Table.delete, List.mem_filter]
  tauto

theorem find_deleted (table : Table schema) (pred : ρ → Bool) (key : κ) :
    (table.delete pred).2.find? (fun row => decide (schema.key row = key)) = (table.find key).filter pred := by
  cases found : table.find key with
  | none =>
    rw [Option.filter_none, List.find?_eq_none]
    intro row member keyed
    exact (find_none_iff table key).mp found row (List.mem_filter.mp member).1 (of_decide_eq_true keyed)
  | some row =>
    obtain ⟨member, keyed⟩ := (find_some_iff table key row).mp found
    by_cases hit : pred row = true
    · rw [Option.filter_some, if_pos hit]
      cases seen : (table.delete pred).2.find? (fun row => decide (schema.key row = key)) with
      | none =>
        have absent := List.find?_eq_none.mp seen row (List.mem_filter.mpr ⟨member, hit⟩)
        simp [keyed] at absent
      | some other =>
        have otherKeyed : schema.key other = key := by simpa using List.find?_some seen
        have stored := (List.mem_filter.mp (List.mem_of_find?_eq_some seen)).1
        have otherFound := (find_some_iff table key other).mpr ⟨stored, otherKeyed⟩
        exact otherFound.symm.trans found
    · rw [Option.filter_some, if_neg hit, List.find?_eq_none]
      intro other deleted otherKeyed
      obtain ⟨stored, otherHit⟩ := List.mem_filter.mp deleted
      have otherFound := (find_some_iff table key other).mpr ⟨stored, of_decide_eq_true otherKeyed⟩
      rw [Option.some.inj (found.symm.trans otherFound)] at hit
      exact hit otherHit

theorem delete_returns (table : Table schema) (pred : ρ → Bool) (row : ρ) :
    row ∈ (table.delete pred).2 ↔ table.find (schema.key row) = some row ∧ pred row = true := by
  simp [Table.delete, find_some_iff]

theorem filter_pinned (table : Table schema) (pred : ρ → Bool) {key : κ}
    (pinned : ∀ row, pred row = true → schema.key row = key) :
    table.rows.filter pred = ((table.find key).filter pred).toList := by
  have unique : ∀ row ∈ table.rows, pred row = true → table.find key = some row := fun row member hit =>
    (find_some_iff table key row).mpr ⟨member, pinned row hit⟩
  cases found : (table.find key).filter pred with
  | none =>
    refine List.filter_eq_nil_iff.mpr ?_
    intro row member hit
    rw [unique row member hit] at found
    simp [hit] at found
  | some row =>
    obtain ⟨present, hit⟩ := Option.filter_eq_some_iff.mp found
    exact filter_single ((find_some_iff table key row).mp present).1 hit
      (fun other member otherHit => Option.some.inj ((unique other member otherHit).symm.trans present))

theorem update_ok {table : Table schema} {next : Table schema} {pred : ρ → Bool} (assign : Assign schema pred)
    {changed : List ρ} (done : table.update pred assign = .ok (next, changed)) (key : κ) :
    next.find key = (table.find key).map (fun row => if pred row then assign.set row else row) := by
  unfold Table.update at done
  split at done
  · cases done
    apply Option.ext
    intro row
    rw [find_some_iff, Option.map_eq_some_iff]
    simp only [List.mem_map]
    constructor
    · rintro ⟨⟨old, present, rfl⟩, keyed⟩
      refine ⟨old, (find_some_iff table key old).mpr ⟨present, ?_⟩, rfl⟩
      by_cases hit : pred old = true <;> simpa [hit, assign.keepsKey] using keyed
    · rintro ⟨old, found, rfl⟩
      obtain ⟨present, keyed⟩ := (find_some_iff table key old).mp found
      refine ⟨⟨old, present, rfl⟩, ?_⟩
      by_cases hit : pred old = true <;> simpa [hit, assign.keepsKey] using keyed
  · cases done

end

section

variable {ρ κ ι : Type} {schema : Schema ρ κ ι} [DecidableEq ι]

def Table.holder (table : Table schema) (entry : ι) : Option ρ :=
  table.rows.find? (fun row => decide (schema.index row = some entry))

theorem holder_some_iff (table : Table schema) {entry : ι} (row : ρ) :
    table.holder entry = some row ↔ row ∈ table.rows ∧ schema.index row = some entry := by
  constructor
  · intro found
    exact ⟨List.mem_of_find?_eq_some found, by simpa using List.find?_some found⟩
  · rintro ⟨member, indexed⟩
    cases found : table.holder entry with
    | none =>
      have absent := List.find?_eq_none.mp found row member
      simp [indexed] at absent
    | some other =>
      have same : schema.index other = some entry := by simpa using List.find?_some found
      rw [index_unique entry (List.mem_of_find?_eq_some found) member same indexed]

theorem holder_none_iff (table : Table schema) (entry : ι) :
    table.holder entry = none ↔ entry ∉ table.rows.filterMap schema.index := by
  simp [Table.holder]

variable [DecidableEq κ]

def Table.insert (table : Table schema) (row : ρ) : Except SqlError (Table schema) :=
  if checked : schema.check row = true then
    if present : schema.key row ∈ table.rows.map schema.key then .error .primaryKeyViolation
    else
      if taken : ∃ entry, schema.index row = some entry ∧ entry ∈ table.rows.filterMap schema.index then
        .error .uniqueViolation
      else
        .ok ⟨row :: table.rows, by simpa using ⟨by simpa using present, table.keys⟩,
          by
            cases entry : schema.index row with
            | none => simpa [List.filterMap_cons, entry] using table.indexed
            | some value =>
              simp only [List.filterMap_cons, entry, List.nodup_cons]
              exact ⟨fun member => taken ⟨value, entry, member⟩, table.indexed⟩,
          by
            intro other member
            rcases List.mem_cons.mp member with rfl | later
            · exact checked
            · exact table.checked other later⟩
  else .error .checkViolation

-- INSERT INTO ... SELECT over several rows; one violation fails them all.
def Table.insertAll (table : Table schema) : List ρ → Except SqlError (Table schema)
  | [] => .ok table
  | row :: rest =>
    match table.insert row with
    | .error err => .error err
    | .ok next => next.insertAll rest

-- INSERT ... ON CONFLICT (index) DO UPDATE for a row whose index entry is
-- given. Checks are tested on the proposed row before the arbiter index is
-- consulted, and only the arbiter index turns a conflict into an update.
def Table.upsert (table : Table schema) (row : ρ) (entry : ι)
    (assign : Assign schema (fun other => decide (schema.index other = some entry))) :
    Except SqlError (Table schema × List ρ) :=
  if schema.check row = true then
    match table.holder entry with
    | none => (table.insert row).map (fun next => (next, [row]))
    | some _ => table.update (fun other => decide (schema.index other = some entry)) assign
  else .error .checkViolation

theorem insert_ok {table : Table schema} (next : Table schema) (row : ρ) (done : table.insert row = .ok next) :
    next.rows = row :: table.rows ∧ table.find (schema.key row) = none ∧ schema.check row = true ∧
      ∀ entry, schema.index row = some entry → table.holder entry = none := by
  unfold Table.insert at done
  split at done
  · rename_i checked
    split at done
    · cases done
    rename_i absent
    split at done
    · cases done
    rename_i free
    cases done
    refine ⟨rfl, ?_, checked, ?_⟩
    · rw [find_none_iff]
      intro other member same
      exact absent (same ▸ List.mem_map_of_mem member)
    · intro entry indexed
      rw [holder_none_iff]
      exact fun member => free ⟨entry, indexed, member⟩
  · cases done

theorem insert_succeeds (table : Table schema) {row : ρ} (checked : schema.check row = true)
    (absent : table.find (schema.key row) = none)
    (free : ∀ entry, schema.index row = some entry → table.holder entry = none) :
    ∃ next, table.insert row = .ok next := by
  unfold Table.insert
  rw [dif_pos checked, dif_neg, dif_neg]
  · exact ⟨_, rfl⟩
  · rintro ⟨entry, indexed, taken⟩
    exact (holder_none_iff table entry).mp (free entry indexed) taken
  · intro member
    obtain ⟨other, present, same⟩ := List.mem_map.mp member
    exact (find_none_iff table (schema.key row)).mp absent other present same

theorem insert_find (table next : Table schema) (row : ρ) (done : table.insert row = .ok next) (key : κ) :
    next.find key = if schema.key row = key then some row else table.find key := by
  obtain ⟨rows, _⟩ := insert_ok next row done
  by_cases same : schema.key row = key <;> simp [Table.find, rows, same]

theorem insert_all_ok (table : Table schema) {next : Table schema} {rows : List ρ}
    (done : table.insertAll rows = .ok next) :
    (∀ row ∈ rows, table.find (schema.key row) = none) ∧
      ∀ key, next.find key = (rows.find? (fun row => decide (schema.key row = key))).or (table.find key) := by
  induction rows generalizing table with
  | nil =>
    cases done
    simp
  | cons row rest ih =>
    unfold Table.insertAll at done
    cases inserted : table.insert row with
    | error err => simp [inserted] at done
    | ok middle =>
      rw [inserted] at done
      obtain ⟨fresh, lookup⟩ := ih middle done
      have found := insert_find table middle row inserted
      have absent := (insert_ok middle row inserted).2.1
      constructor
      · intro other member
        rcases List.mem_cons.mp member with rfl | later
        · exact absent
        · have missing := fresh other later
          rw [found] at missing
          by_cases same : schema.key row = schema.key other
          · simp [same] at missing
          · simpa only [if_neg same] using missing
      · intro key
        rw [lookup key, found key]
        by_cases same : schema.key row = key
        · have none : rest.find? (fun other => decide (schema.key other = key)) = none := by
            rw [List.find?_eq_none]
            intro other later equal
            have missing := fresh other later
            rw [found, of_decide_eq_true equal, if_pos same] at missing
            cases missing
          simp [same, none]
        · simp [same]

theorem upsert_ok {table next : Table schema} {row : ρ} {entry : ι}
    {assign : Assign schema (fun other => decide (schema.index other = some entry))} {changed : List ρ}
    (done : table.upsert row entry assign = .ok (next, changed)) :
    (table.insert row = .ok next ∧ changed = [row]) ∨
      ∃ holder, table.holder entry = some holder ∧
        table.update (fun other => decide (schema.index other = some entry)) assign = .ok (next, changed) := by
  unfold Table.upsert at done
  split at done
  · cases held : table.holder entry with
    | none =>
      simp only [held] at done
      cases inserted : table.insert row with
      | error err => simp [inserted, Except.map] at done
      | ok middle =>
        simp only [inserted, Except.map, Except.ok.injEq, Prod.mk.injEq] at done
        exact .inl ⟨by rw [done.1], done.2.symm⟩
    | some holder =>
      simp only [held] at done
      exact .inr ⟨holder, rfl, done⟩
  · cases done

end

end Sql

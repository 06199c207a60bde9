import Goforge.Lib.GoMap
import Goforge.Orm.UpdateMeaning

set_option autoImplicit false

namespace Goforge.Orm

open GoString

section

variable {α V M : Type}

structure InsertBuilder (α V M : Type) where
  table : Table V M
  assignments : List (Assignment α)
  err : Option Bytes

def insert (table : Table V M) : InsertBuilder α V M := { table := table, assignments := [], err := none }

def InsertBuilder.values (builder : InsertBuilder α V M) (assignments : List (Assignment α)) : InsertBuilder α V M :=
  { builder with assignments := builder.assignments ++ assignments }

structure InsertRow (α : Type) where
  assignments : List (Assignment α)

def row (assignments : List (Assignment α)) : InsertRow α := { assignments := assignments }

structure BulkInsertBuilder (α V M : Type) where
  table : Table V M
  rows : List (InsertRow α)
  err : Option Bytes

def InsertBuilder.rows (builder : InsertBuilder α V M) (rows : List (InsertRow α)) : BulkInsertBuilder α V M :=
  { table := builder.table, rows := rows,
    err := if builder.assignments.length ≠ 0 then
        some (ascii "orm: bulk Rows cannot be combined with single-row Values")
      else builder.err }

-- The loop of InsertBuilder.Build over the values.
def writeInsertValues : List (Assignment α) → List (Arg α) → Except Bytes (List Bytes × List (Arg α))
  | [], args => .ok ([], args)
  | assignment :: rest, args =>
    if assignment.kind = .increment then .error (ascii "orm: increment is not valid in an insert")
    else do
      let (value, args) := writeAssignmentValue assignment args
      let (others, args) ← writeInsertValues rest args
      return (value :: others, args)

def InsertBuilder.build (builder : InsertBuilder α V M) : Except Bytes (Statement α) :=
  match builder.err with
  | some err => .error err
  | none => do
      builder.table.validate
      let assignments ← includedAssignments builder.table.name builder.table.identity [] builder.assignments
      let (clause, args) ←
        if assignments.length = 0 then pure (ascii " DEFAULT VALUES", [])
        else do
          let (values, args) ← writeInsertValues assignments []
          pure (ascii " (" ++ join (ascii ", ") (assignments.map (fun assignment => assignment.column.quoted)) ++
            ascii ") VALUES (" ++ join (ascii ", ") values ++ ascii ")", args)
      newCompiledStatement
        (ascii "INSERT INTO " ++ builder.table.name.quoted ++ clause ++ ascii " RETURNING " ++
          writeMappedColumns builder.table) args

def shapeRows (table : Table V M) (index : Nat) : List (InsertRow α) → Except Bytes (List (List (Assignment α)))
  | [] => .ok []
  | row :: rest =>
    match includedAssignments table.name table.identity [] row.assignments with
    | .error err => .error (ascii "orm: bulk insert row " ++ decimal index ++ ascii ": " ++ err)
    | .ok assignments =>
      if assignments.any (fun assignment => assignment.kind = .increment) then
        .error (ascii "orm: bulk insert row " ++ decimal index ++ ascii ": increment is not valid in an insert")
      else do
        let others ← shapeRows table (index + 1) rest
        return assignments :: others

def incompatibleShape (index : Nat) : Bytes :=
  ascii "orm: bulk insert row " ++ decimal index ++ ascii " has an incompatible column shape"

def byColumn (assignments : List (Assignment α)) : GoMap.Map Bytes (Assignment α) :=
  assignments.foldl (fun map assignment => map.insert assignment.column.name assignment) ∅

def reorder (index : Nat) (found : GoMap.Map Bytes (Assignment α)) :
    List Identifier → Except Bytes (List (Assignment α))
  | [] => .ok []
  | column :: rest =>
    match found.lookup column.name with
    | none => .error (incompatibleShape index)
    | some assignment => do
        let others ← reorder index found rest
        return assignment :: others

def alignRows (columns : List Identifier) (index : Nat) :
    List (List (Assignment α)) → Except Bytes (List (List (Assignment α)))
  | [] => .ok []
  | assignments :: rest =>
    if assignments.length ≠ columns.length then .error (incompatibleShape index)
    else do
      let reordered ← reorder index (byColumn assignments) columns
      let others ← alignRows columns (index + 1) rest
      return reordered :: others

def writeCells : List (Assignment α) → List (Arg α) → List Bytes × List (Arg α)
  | [], args => ([], args)
  | assignment :: rest, args =>
    let (value, args) := writeAssignmentValue assignment args
    let (others, args) := writeCells rest args
    (value :: others, args)

def writeRows : List (List (Assignment α)) → List (Arg α) → List Bytes × List (Arg α)
  | [], args => ([], args)
  | assignments :: rest, args =>
    let (cells, args) := writeCells assignments args
    let (others, args) := writeRows rest args
    ((ascii "(" ++ join (ascii ", ") cells ++ ascii ")") :: others, args)

def errNoRows : Bytes := ascii "orm: bulk insert requires at least one row"

def BulkInsertBuilder.build (builder : BulkInsertBuilder α V M) : Except Bytes (Statement α) :=
  match builder.err with
  | some err => .error err
  | none => do
      builder.table.validate
      if builder.rows.length = 0 then .error errNoRows
      else
        match ← shapeRows builder.table 0 builder.rows with
        -- There are as many as rows, so at least one.
        | [] => .error errNoRows
        | first :: rest =>
          if first.length = 0 then
            if rest.length ≠ 0 then .error (ascii "orm: multi-row insert requires at least one present column")
            else (insert builder.table).build
          else
            let columns := first.map (fun assignment => assignment.column)
            let aligned ← alignRows columns 1 rest
            let (rows, args) := writeRows (first :: aligned) []
            newCompiledStatement
              (ascii "INSERT INTO " ++ builder.table.name.quoted ++ ascii " (" ++
                join (ascii ", ") (columns.map Identifier.quoted) ++ ascii ") VALUES " ++ join (ascii ", ") rows ++
                ascii " RETURNING " ++ writeMappedColumns builder.table) args

def InsertRow.present (row : InsertRow α) : List (Assignment α) :=
  row.assignments.filter (fun assignment => assignment.kind ≠ .omitted)

def InsertRow.columns (row : InsertRow α) : List Bytes :=
  row.present.map (fun assignment => assignment.column.name)

def InsertRow.assigned (row : InsertRow α) (column : Bytes) : Option (Assignment α) :=
  row.present.find? (fun assignment => assignment.column.name = column)

def cellNumber (cells : List (List (Assignment α))) (r c : Nat) : Nat :=
  (((cells.take r).flatten ++ (cells.getD r []).take c).flatMap Assignment.bound).length + 1

def Assignment.cell (assignment : Assignment α) (number : Nat) : Bytes :=
  match assignment.kind with
  | .default => ascii "DEFAULT"
  | .currentTime => ascii "CURRENT_TIMESTAMP"
  | _ => byte '$' :: decimal number

def valuesList (cells : List (List (Assignment α))) : Bytes :=
  join (ascii ", ") (cells.mapIdx (fun r line =>
    ascii "(" ++ join (ascii ", ")
      (line.mapIdx (fun c assignment => assignment.cell (cellNumber cells r c))) ++ ascii ")"))

def insertText (table : Table V M) (columns : List Identifier) (cells : List (List (Assignment α))) : Bytes :=
  ascii "INSERT INTO " ++ table.name.quoted ++
    (if columns = [] then ascii " DEFAULT VALUES"
    else ascii " (" ++ join (ascii ", ") (columns.map Identifier.quoted) ++ ascii ") VALUES " ++ valuesList cells) ++
    ascii " RETURNING " ++ writeMappedColumns table

structure Placed (rows : List (InsertRow α)) (columns : List Identifier) (cells : List (List (Assignment α))) :
    Prop where
  lines : List.Forall₂ (fun row line => line.map some = columns.map (fun column => row.assigned column.name)) rows cells
  same : ∀ row ∈ rows, row.columns.Perm (columns.map Identifier.name)
  distinct : (columns.map Identifier.name).Nodup

structure Shaped (row : InsertRow α) (assignments : List (Assignment α)) : Prop where
  present : assignments = row.present
  distinct : row.columns.Nodup
  plain : ∀ assignment ∈ assignments, assignment.kind ≠ .increment

variable {assignments line : List (Assignment α)} {table : Table V M} {assignment : Assignment α}
  {statement : Statement α}

theorem included_shaped {table : Identifier} {identity : Option Nat} {row : InsertRow α}
    (found : includedAssignments table identity [] row.assignments = .ok assignments)
    (plain : assignments.any (fun assignment => assignment.kind = .increment) = false) : Shaped row assignments := by
  have present := included_present _ _ found
  refine ⟨present, ?_, ?_⟩
  · rw [InsertRow.columns, InsertRow.present, ← present]
    exact (included_distinct _ _ found).1
  · intro assignment member increment
    rw [List.any_eq_false] at plain
    exact plain assignment member (by simpa using increment)

theorem shape_rows_ok (index : Nat) {rows : List (InsertRow α)} (shaped : List (List (Assignment α)))
    (made : shapeRows table index rows = .ok shaped) : List.Forall₂ Shaped rows shaped := by
  induction rows generalizing index shaped with
  | nil =>
    cases made
    exact .nil
  | cons row rest ih =>
    rw [shapeRows] at made
    split at made
    · cases made
    rename_i assignments found
    split at made
    · cases made
    rename_i plain
    cases later : shapeRows table (index + 1) rest with
    | error message =>
      rw [later] at made
      cases made
    | ok others =>
      rw [later] at made
      cases made
      exact .cons (included_shaped found (by simpa using plain)) (ih _ others later)

theorem by_column_from (map : GoMap.Map Bytes (Assignment α)) {name : Bytes}
    (found : (assignments.foldl (fun map assignment => map.insert assignment.column.name assignment) map).lookup name =
      some assignment) :
    (assignment ∈ assignments ∧ assignment.column.name = name) ∨ map.lookup name = some assignment := by
  induction assignments generalizing map with
  | nil => exact .inr found
  | cons first rest ih =>
    rcases ih _ found with ⟨member, named⟩ | earlier
    · exact .inl ⟨List.mem_cons_of_mem _ member, named⟩
    · by_cases same : name = first.column.name
      · subst same
        rw [AList.lookup_insert] at earlier
        cases earlier
        exact .inl ⟨List.mem_cons_self, rfl⟩
      · rw [AList.lookup_insert_ne same] at earlier
        exact .inr earlier

theorem by_column_mem (assignments : List (Assignment α)) {name : Bytes} {assignment : Assignment α}
    (found : (byColumn assignments).lookup name = some assignment) :
    assignment ∈ assignments ∧ assignment.column.name = name := by
  rcases by_column_from ∅ found with inside | empty
  · exact inside
  · rw [AList.lookup_empty] at empty
    cases empty

variable {columns : List Identifier}

theorem reorder_ok {index : Nat} (line : List (Assignment α))
    (made : reorder index (byColumn assignments) columns = .ok line) :
    line.map (fun assignment => assignment.column.name) = columns.map Identifier.name ∧ line ⊆ assignments := by
  induction columns generalizing line with
  | nil =>
    cases made
    exact ⟨rfl, List.nil_subset _⟩
  | cons column rest ih =>
    rw [reorder] at made
    split at made
    · cases made
    rename_i assignment found
    cases later : reorder index (byColumn assignments) rest with
    | error message =>
      rw [later] at made
      cases made
    | ok others =>
      rw [later] at made
      cases made
      have inside := by_column_mem assignments found
      have rest := ih others later
      refine ⟨?_, List.cons_subset.mpr ⟨inside.1, rest.2⟩⟩
      rw [List.map_cons, List.map_cons, rest.1, inside.2]

structure Aligned (columns : List Identifier) (row : InsertRow α) (line : List (Assignment α)) : Prop where
  named : line.map (fun assignment => assignment.column.name) = columns.map Identifier.name
  perm : line.Perm row.present
  plain : ∀ assignment ∈ line, assignment.kind ≠ .increment

theorem aligned_of_subset {row : InsertRow α} (shaped : Shaped row assignments)
    (distinct : (columns.map Identifier.name).Nodup) (sized : assignments.length = columns.length)
    (named : line.map (fun assignment => assignment.column.name) = columns.map Identifier.name)
    (inside : line ⊆ assignments) : Aligned columns row line := by
  refine ⟨named, ?_, fun assignment member => shaped.plain assignment (inside member)⟩
  have lineDistinct : line.Nodup := by
    rw [← named] at distinct
    exact List.Nodup.of_map _ distinct
  have length : line.length = columns.length := by
    have counted := congrArg List.length named
    rwa [List.length_map, List.length_map] at counted
  rw [← shaped.present]
  exact (List.subperm_of_subset lineDistinct inside).perm_of_length_le (by rw [sized, length])

theorem align_rows_ok (distinct : (columns.map Identifier.name).Nodup) (index : Nat) {rows : List (InsertRow α)}
    (shaped lines : List (List (Assignment α))) (shapes : List.Forall₂ Shaped rows shaped)
    (made : alignRows columns index shaped = .ok lines) : List.Forall₂ (Aligned columns) rows lines := by
  induction shapes generalizing index lines with
  | nil =>
    cases made
    exact .nil
  | @cons row assignments rest others shaped _ ih =>
    rw [alignRows] at made
    split at made
    · cases made
    rename_i sized
    cases ordered : reorder index (byColumn assignments) columns with
    | error message =>
      rw [ordered] at made
      cases made
    | ok line =>
      cases later : alignRows columns (index + 1) others with
      | error message =>
        rw [ordered, later] at made
        cases made
      | ok more =>
        rw [ordered, later] at made
        cases made
        have found := reorder_ok line ordered
        refine .cons ?_ (ih _ more later)
        exact aligned_of_subset shaped distinct (not_not.mp sized) found.1 found.2

theorem find_by_name (distinct : (line.map (fun assignment => assignment.column.name)).Nodup)
    (member : assignment ∈ line) :
    line.find? (fun other => other.column.name = assignment.column.name) = some assignment := by
  induction line with
  | nil => cases member
  | cons first rest ih =>
    rw [List.map_cons, List.nodup_cons] at distinct
    rcases List.mem_cons.mp member with rfl | later
    · rw [List.find?_cons_of_pos (by simp)]
    · have differ : first.column.name ≠ assignment.column.name := by
        intro same
        exact distinct.1 (same ▸ List.mem_map_of_mem later)
      rw [List.find?_cons_of_neg (by simpa using differ)]
      exact ih distinct.2 later

theorem aligned_assigned {row : InsertRow α} (distinct : row.columns.Nodup) (aligned : Aligned columns row line) :
    line.map some = columns.map (fun column => row.assigned column.name) := by
  have found : ∀ assignment ∈ line, row.assigned assignment.column.name = some assignment := by
    intro assignment member
    exact find_by_name distinct (aligned.perm.mem_iff.mp member)
  calc line.map some
      = line.map (fun assignment => row.assigned assignment.column.name) :=
        List.map_congr_left (fun assignment member => (found assignment member).symm)
    _ = (line.map (fun assignment => assignment.column.name)).map row.assigned := by rw [List.map_map]; rfl
    _ = columns.map (fun column => row.assigned column.name) := by rw [aligned.named, List.map_map]; rfl

theorem related_of_mem {β γ : Type} {related : β → γ → Prop} {left : List β} {right : List γ}
    (all : List.Forall₂ related left right) {item : β} (member : item ∈ left) : ∃ other, related item other := by
  induction all with
  | nil => cases member
  | cons first _ ih =>
    rcases List.mem_cons.mp member with rfl | later
    · exact ⟨_, first⟩
    · exact ih later

theorem placed_of_aligned (columns : List Identifier) (rows : List (InsertRow α)) (cells : List (List (Assignment α)))
    (distinct : (columns.map Identifier.name).Nodup) (aligned : List.Forall₂ (Aligned columns) rows cells) :
    Placed rows columns cells := by
  have same : ∀ (row : InsertRow α) (line : List (Assignment α)), Aligned columns row line →
      row.columns.Perm (columns.map Identifier.name) := by
    intro row line aligned
    rw [← aligned.named]
    exact (aligned.perm.map _).symm
  refine ⟨?_, ?_, distinct⟩
  · refine aligned.imp ?_
    intro row line aligned
    exact aligned_assigned ((same row line aligned).nodup_iff.mpr distinct) aligned
  · intro row member
    obtain ⟨line, own⟩ := related_of_mem aligned member
    exact same row line own

variable (args : List (Arg α))

theorem write_cell (plain : assignment.kind ≠ .increment) :
    writeAssignmentValue assignment args = (assignment.cell (args.length + 1), args ++ assignment.bound) := by
  rw [writeAssignmentValue, Assignment.cell, Assignment.bound]
  cases kind : assignment.kind with
  | omitted => rfl
  | value => rfl
  | null => rfl
  | increment => exact absurd kind plain
  | _ => simp only [List.append_nil]

theorem write_cells (plain : ∀ assignment ∈ line, assignment.kind ≠ .increment) :
    writeCells line args =
      (line.mapIdx (fun c assignment =>
        assignment.cell (args.length + ((line.take c).flatMap Assignment.bound).length + 1)),
      args ++ line.flatMap Assignment.bound) := by
  induction line generalizing args with
  | nil => simp only [writeCells, List.mapIdx_nil, List.flatMap_nil, List.append_nil]
  | cons assignment rest ih =>
    have own := write_cell args (plain assignment List.mem_cons_self)
    have others := ih (args ++ assignment.bound) (fun other member => plain other (List.mem_cons_of_mem _ member))
    simp only [writeCells, own, others, List.mapIdx_cons, List.take_zero, List.flatMap_nil, List.length_nil,
      List.take_succ_cons, List.flatMap_cons, List.length_append, List.append_assoc, Nat.add_assoc]

theorem write_rows {cells : List (List (Assignment α))}
    (plain : ∀ line ∈ cells, ∀ assignment ∈ line, assignment.kind ≠ .increment) :
    writeRows cells args =
      (cells.mapIdx (fun r line =>
        ascii "(" ++ join (ascii ", ") (line.mapIdx (fun c assignment =>
          assignment.cell (args.length + cellNumber cells r c))) ++ ascii ")"),
      args ++ cells.flatten.flatMap Assignment.bound) := by
  induction cells generalizing args with
  | nil => simp only [writeRows, List.mapIdx_nil, List.flatten_nil, List.flatMap_nil, List.append_nil]
  | cons line rest ih =>
    have own := write_cells args (plain line List.mem_cons_self)
    have others := ih (args ++ line.flatMap Assignment.bound)
      (fun other member => plain other (List.mem_cons_of_mem _ member))
    simp only [writeRows, own, others, List.mapIdx_cons, cellNumber, List.take_zero, List.flatten_nil,
      List.flatMap_nil, List.length_nil, Nat.zero_add, List.getD_cons_zero, List.getD_cons_succ, List.take_succ_cons,
      List.flatten_cons, List.flatMap_append, List.length_append, List.append_assoc, Nat.add_assoc]

theorem first_aligned {row : InsertRow α} (assignments : List (Assignment α)) (shaped : Shaped row assignments) :
    Aligned (assignments.map (fun assignment => assignment.column)) row assignments := by
  refine ⟨?_, ?_, shaped.plain⟩
  · rw [List.map_map]
    rfl
  · rw [shaped.present]

theorem bulk_build_ok {builder : BulkInsertBuilder α V M} (built : builder.build = .ok statement) :
    builder.err = none ∧ builder.table.validate = .ok () ∧
      ∃ first rest, shapeRows builder.table 0 builder.rows = .ok (first :: rest) ∧
        ((first = [] ∧ rest = [] ∧ (insert builder.table).build = .ok statement) ∨
          (first ≠ [] ∧ ∃ aligned,
            alignRows (first.map (fun assignment => assignment.column)) 1 rest = .ok aligned ∧
            newCompiledStatement
              (ascii "INSERT INTO " ++ builder.table.name.quoted ++ ascii " (" ++
                join (ascii ", ") ((first.map (fun assignment => assignment.column)).map Identifier.quoted) ++
                ascii ") VALUES " ++ join (ascii ", ") (writeRows (first :: aligned) []).1 ++ ascii " RETURNING " ++
                writeMappedColumns builder.table) (writeRows (first :: aligned) []).2 = .ok statement)) := by
  rw [BulkInsertBuilder.build] at built
  cases failed : builder.err with
  | some err =>
    rw [failed] at built
    cases built
  | none =>
    cases valid : builder.table.validate with
    | error message =>
      rw [failed, valid] at built
      cases built
    | ok _ =>
      simp only [failed, valid, bind, Except.bind] at built
      split at built
      · cases built
      cases shaped : shapeRows builder.table 0 builder.rows with
      | error message =>
        rw [shaped] at built
        cases built
      | ok lines =>
        cases lines with
        | nil =>
          rw [shaped] at built
          cases built
        | cons first rest =>
          simp only [shaped] at built
          refine ⟨rfl, rfl, first, rest, rfl, ?_⟩
          split at built
          · rename_i empty
            split at built
            · cases built
            rename_i single
            exact .inl ⟨List.length_eq_zero_iff.mp empty, by simpa using single, built⟩
          · rename_i full
            cases aligned : alignRows (first.map (fun assignment => assignment.column)) 1 rest with
            | error message =>
              rw [aligned] at built
              cases built
            | ok lines =>
              rw [aligned] at built
              exact .inr ⟨fun empty => full (List.length_eq_zero_iff.mpr empty), lines, rfl, built⟩

theorem insert_nothing (built : (insert (α := α) table).build = .ok statement) :
    statement.query = insertText table [] ([[]] : List (List (Assignment α))) ∧ statement.args = [] := by
  rw [InsertBuilder.build] at built
  cases valid : table.validate with
  | error message =>
    simp only [insert, valid] at built
    cases built
  | ok _ =>
    simp only [insert, valid, includedAssignments, List.length_nil, if_true, bind, Except.bind, pure,
      Except.pure] at built
    rw [limited_ok built]
    exact ⟨rfl, rfl⟩

theorem bulk_placed {builder : BulkInsertBuilder α V M} (built : builder.build = .ok statement) :
    ∃ columns cells, Placed builder.rows columns cells ∧
      statement.args = cells.flatten.flatMap Assignment.bound ∧
      statement.query = insertText builder.table columns cells := by
  obtain ⟨_, _, first, rest, shaped, outcome⟩ := bulk_build_ok built
  have shapes := shape_rows_ok _ _ shaped
  cases rows : builder.rows with
  | nil =>
    rw [rows] at shapes
    cases shapes
  | cons row others =>
    rw [rows] at shapes
    cases shapes with
    | cons own shapes =>
      have distinct : ((first.map (fun assignment => assignment.column)).map Identifier.name).Nodup := by
        rw [(first_aligned first own).named.symm, own.present]
        exact own.distinct
      rcases outcome with ⟨rfl, rfl, single⟩ | ⟨full, aligned, reordered, compiled⟩
      · cases shapes
        obtain ⟨query, args⟩ := insert_nothing single
        exact ⟨[], [[]], placed_of_aligned [] [row] [[]] distinct (.cons (first_aligned [] own) .nil), args, query⟩
      · have lines := List.Forall₂.cons (first_aligned first own)
          (align_rows_ok distinct 1 rest aligned shapes reordered)
        have plain : ∀ line ∈ first :: aligned, ∀ assignment ∈ line, assignment.kind ≠ .increment := by
          intro line member
          obtain ⟨_, own⟩ := related_of_mem lines.flip member
          exact own.plain
        rw [write_rows _ plain] at compiled
        rw [limited_ok compiled]
        refine ⟨_, first :: aligned, placed_of_aligned _ _ _ distinct lines, rfl, ?_⟩
        rw [insertText, if_neg (by simpa using full), valuesList]
        simp only [List.length_nil, Nat.zero_add, List.append_assoc]

theorem placed_argument {cells : List (List (Assignment α))} {r c : Nat} {entries : List (Assignment α)} {value : Arg α}
    (row : cells[r]? = some entries) (cell : entries[c]? = some assignment) (binds : assignment.bound = [value]) :
    (cells.flatten.flatMap Assignment.bound)[cellNumber cells r c - 1]? = some value := by
  obtain ⟨inRows, lineAt⟩ := List.getElem?_eq_some_iff.mp row
  obtain ⟨inLine, cellAt⟩ := List.getElem?_eq_some_iff.mp cell
  have rows : cells = cells.take r ++ entries :: cells.drop (r + 1) := by
    rw [← lineAt, List.getElem_cons_drop, List.take_append_drop]
  have split : entries = entries.take c ++ assignment :: entries.drop (c + 1) := by
    rw [← cellAt, List.getElem_cons_drop, List.take_append_drop]
  have flat : cells.flatten.flatMap Assignment.bound =
      ((cells.take r).flatten ++ entries.take c).flatMap Assignment.bound ++
        value :: (entries.drop (c + 1) ++ (cells.drop (r + 1)).flatten).flatMap Assignment.bound := by
    conv_lhs => rw [rows, List.flatten_append, List.flatten_cons, split]
    simp only [List.flatMap_append, List.flatMap_cons, binds, List.append_assoc, List.cons_append, List.nil_append]
  have number : cellNumber cells r c - 1 =
      (((cells.take r).flatten ++ entries.take c).flatMap Assignment.bound).length := by
    rw [cellNumber, Nat.add_sub_cancel, List.getD_eq_getElem?_getD, row, Option.getD_some]
  rw [flat, number, List.getElem?_append_right le_rfl, Nat.sub_self, List.getElem?_cons_zero]

theorem write_insert_values (plain : ∀ assignment ∈ line, assignment.kind ≠ .increment) :
    writeInsertValues line args = .ok (writeCells line args) := by
  induction line generalizing args with
  | nil => rfl
  | cons assignment rest ih =>
    have others := ih (writeAssignmentValue assignment args).2
      (fun other member => plain other (List.mem_cons_of_mem _ member))
    simp only [writeInsertValues, if_neg (plain assignment List.mem_cons_self), others, writeCells]
    rfl

theorem insert_values_increment (increments : line.any (fun assignment => assignment.kind = .increment) = true) :
    ∃ message, writeInsertValues line args = .error message := by
  induction line generalizing args with
  | nil => cases increments
  | cons assignment rest ih =>
    rw [writeInsertValues]
    by_cases increment : assignment.kind = .increment
    · exact ⟨_, if_pos increment⟩
    · rw [List.any_cons, decide_eq_false increment, Bool.false_or] at increments
      obtain ⟨message, failed⟩ := ih (writeAssignmentValue assignment args).2 increments
      refine ⟨message, ?_⟩
      rw [if_neg increment]
      simp only [failed]
      rfl

theorem insert_built (valid : table.validate = .ok ())
    (included : includedAssignments table.name table.identity [] assignments = .ok line)
    (plain : line.any (fun assignment => assignment.kind = .increment) = false) (full : line.length ≠ 0) :
    ((insert table).values assignments).build =
      newCompiledStatement
        (ascii "INSERT INTO " ++ table.name.quoted ++
          (ascii " (" ++ join (ascii ", ") (line.map (fun assignment => assignment.column.quoted)) ++
            ascii ") VALUES (" ++ join (ascii ", ") (writeCells line []).1 ++ ascii ")") ++ ascii " RETURNING " ++
          writeMappedColumns table) (writeCells line []).2 := by
  have written := write_insert_values [] (by simpa using plain)
  simp only [InsertBuilder.build, InsertBuilder.values, insert, List.nil_append, valid, included, if_neg full, written,
    bind, Except.bind, pure, Except.pure]

theorem single_row_full (valid : table.validate = .ok ())
    (included : includedAssignments table.name table.identity [] assignments = .ok line)
    (plain : line.any (fun assignment => assignment.kind = .increment) = false) (full : line.length ≠ 0) :
    ((insert table).rows [row assignments]).build = ((insert table).values assignments).build := by
  have shaped : shapeRows table 0 [row assignments] = .ok [line] := by
    simp only [shapeRows, row, included, plain]
    rfl
  rw [insert_built valid included plain full]
  simp only [BulkInsertBuilder.build, InsertBuilder.rows, insert, List.length_nil, ne_eq, not_true_eq_false, if_false,
    valid, bind, Except.bind, List.length_singleton, Nat.one_ne_zero, shaped, if_neg full, alignRows, writeRows, join,
    List.intersperse_singleton, List.flatten_cons, List.flatten_nil, List.append_nil, List.map_map, Function.comp_def,
    show ascii ") VALUES (" = ascii ") VALUES " ++ ascii "(" from rfl, List.append_assoc]

theorem single_row_built (table : Table V M) (assignments : List (Assignment α)) (statement : Statement α) :
    ((insert table).rows [row assignments]).build = .ok statement ↔
      ((insert table).values assignments).build = .ok statement := by
  cases valid : table.validate with
  | error message => simp [BulkInsertBuilder.build, InsertBuilder.rows, InsertBuilder.build, InsertBuilder.values,
      insert, valid, bind, Except.bind]
  | ok _ =>
    cases included : includedAssignments table.name table.identity [] assignments with
    | error message => simp [BulkInsertBuilder.build, InsertBuilder.rows, InsertBuilder.build, InsertBuilder.values,
        insert, valid, included, shapeRows, row, bind, Except.bind]
    | ok line =>
      cases increments : line.any (fun assignment => assignment.kind = .increment) with
      | true =>
        have full : line ≠ [] := by
          rintro rfl
          cases increments
        obtain ⟨message, failed⟩ := insert_values_increment [] increments
        simp [BulkInsertBuilder.build, InsertBuilder.rows, InsertBuilder.build, InsertBuilder.values, insert,
          valid, included, shapeRows, row, increments, full, failed, bind, Except.bind]
      | false =>
        by_cases empty : line.length = 0
        · rw [List.length_eq_zero_iff] at empty
          subst empty
          simp [BulkInsertBuilder.build, InsertBuilder.rows, InsertBuilder.build, InsertBuilder.values, insert,
            valid, included, shapeRows, row, includedAssignments, bind, Except.bind, pure, Except.pure]
        · rw [single_row_full valid included increments empty]

theorem refused {ε β : Type} (result : Except ε β) (never : ∀ value, result ≠ .ok value) :
    ∃ err, result = .error err := by
  cases result with
  | error err => exact ⟨err, rfl⟩
  | ok value => exact absurd rfl (never value)

theorem bulk_insert_placement (builder : BulkInsertBuilder α V M) :
    (∀ statement, builder.build = .ok statement →
      ∃ columns cells, Placed builder.rows columns cells ∧
        statement.query = insertText builder.table columns cells ∧
        statement.args = cells.flatten.flatMap Assignment.bound ∧
        ∀ r c entries assignment value, cells[r]? = some entries → entries[c]? = some assignment →
          assignment.bound = [value] → statement.args[cellNumber cells r c - 1]? = some value) ∧
    (∀ first ∈ builder.rows, ∀ second ∈ builder.rows, ∀ column ∈ first.columns, column ∉ second.columns →
      ∃ message, builder.build = .error message) ∧
    (∀ row ∈ builder.rows, ¬ row.columns.Nodup → ∃ message, builder.build = .error message) ∧
    ∀ (assignments : List (Assignment α)) (statement : Statement α),
      ((insert builder.table).rows [row assignments]).build = .ok statement ↔
        ((insert builder.table).values assignments).build = .ok statement := by
  refine ⟨?_, ?_, ?_, fun assignments statement => single_row_built builder.table assignments statement⟩
  · intro statement built
    obtain ⟨columns, cells, placed, args, query⟩ := bulk_placed built
    refine ⟨columns, cells, placed, query, args, ?_⟩
    intro r c entries assignment value row cell binds
    rw [args]
    exact placed_argument row cell binds
  · intro first inFirst second inSecond column assigned absent
    refine refused _ ?_
    intro statement built
    obtain ⟨_, _, placed, _⟩ := bulk_placed built
    have same := (placed.same first inFirst).trans (placed.same second inSecond).symm
    exact absent (same.mem_iff.mp assigned)
  · intro row member repeated
    refine refused _ ?_
    intro statement built
    obtain ⟨_, _, placed, _⟩ := bulk_placed built
    exact repeated ((placed.same row member).nodup_iff.mpr placed.distinct)

end

example :
    let name : Identifier := ⟨ascii "name", .inr (by decide)⟩
    let score : Identifier := ⟨ascii "score", .inr (by decide)⟩
    let widgets : Table Nat Unit :=
      ⟨⟨ascii "widgets", .inr (by decide)⟩, ⟨[name, score], some (fun _ => .ok ())⟩, some 1⟩
    let column (column : Identifier) : Column := ⟨widgets.name, some 1, column⟩
    (((insert widgets).rows
      [row [(column score).from .omitted, (column name).set (.text (ascii "a")), (column score).from .default],
        row [(column score).set (.other 2), (column name).from (.null : Field Nat)]]).build.toOption.map
          (fun statement => (statement.query, statement.args))) =
      some (ascii "INSERT INTO \"widgets\" (\"name\", \"score\") VALUES ($1, DEFAULT), ($2, $3) " ++
        ascii "RETURNING \"widgets\".\"name\", \"widgets\".\"score\"",
        [.text (ascii "a"), .null, .other 2]) := by
  decide +kernel

end Goforge.Orm

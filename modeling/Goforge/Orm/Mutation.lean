import Goforge.Lib.Sql.Update
import Goforge.Orm.Condition

set_option autoImplicit false

namespace Goforge.Orm

open GoString Sql

inductive AssignmentKind where
  | omitted
  | value
  | null
  | default
  | currentTime
  | increment
deriving DecidableEq, Repr

structure Assignment (α : Type) where
  table : Identifier
  identity : Option Nat
  column : Identifier
  kind : AssignmentKind
  value : Arg α

inductive Field (α : Type) where
  | omitted
  | null
  | value (value : Arg α)
  | default

section

variable {α : Type}

def Column.assign (column : Column) (kind : AssignmentKind) (value : Arg α) : Assignment α :=
  { table := column.table, identity := column.identity, column := column.name, kind := kind, value := value }

def Column.set (column : Column) (value : Arg α) : Assignment α := column.assign .value value

def Column.from (column : Column) : Field α → Assignment α
  | .omitted => column.assign .omitted .null
  | .null => column.assign .null .null
  | .value value => column.assign .value value
  | .default => column.assign .default .null

def increment (column : Column) (delta : Arg α) : Assignment α := column.assign .increment delta

structure VersionGuard (α : Type) where
  predicate : Condition α
  assignment : Assignment α

-- one is V(1) for the type V of the column.
def expectVersion (one : Arg α) (column : Column) (expected : Arg α) : VersionGuard α :=
  { predicate := .compare .eq column expected, assignment := increment column one }

structure UpdateBuilder (α V M : Type) where
  table : Table V M
  assignments : List (Assignment α)
  predicates : List (Condition α)
  allRows : Bool
  staleOnZero : Bool

-- The calls that make an update builder out of another.
inductive UpdateCall (α : Type) where
  | set (assignments : List (Assignment α))
  | filter (predicates : List (Condition α))
  | optimisticVersion (guard : VersionGuard α)
  | allRows
  | staleOnZero

variable {V M : Type}

def update (table : Table V M) : UpdateBuilder α V M :=
  { table := table, assignments := [], predicates := [], allRows := false, staleOnZero := false }

def UpdateBuilder.set (builder : UpdateBuilder α V M) (assignments : List (Assignment α)) : UpdateBuilder α V M :=
  { builder with assignments := builder.assignments ++ assignments }

def UpdateBuilder.filter (builder : UpdateBuilder α V M) (predicates : List (Condition α)) : UpdateBuilder α V M :=
  { builder with predicates := builder.predicates ++ predicates }

def UpdateBuilder.optimisticVersion (builder : UpdateBuilder α V M) (guard : VersionGuard α) : UpdateBuilder α V M :=
  { builder with
    assignments := builder.assignments ++ [guard.assignment], predicates := builder.predicates ++ [guard.predicate] }

def UpdateBuilder.call (builder : UpdateBuilder α V M) : UpdateCall α → UpdateBuilder α V M
  | .set assignments => builder.set assignments
  | .filter predicates => builder.filter predicates
  | .optimisticVersion guard => builder.optimisticVersion guard
  | .allRows => { builder with allRows := true }
  | .staleOnZero => { builder with staleOnZero := true }

structure Statement (α : Type) where
  query : Bytes
  args : List (Arg α)

def postgreSQLParameterLimit : Nat := 65535

def newCompiledStatement (query : Bytes) (args : List (Arg α)) : Except Bytes (Statement α) :=
  if postgreSQLParameterLimit < args.length then
    .error (ascii "orm: statement has " ++ decimal args.length ++ ascii " parameters; PostgreSQL limit is " ++
      decimal postgreSQLParameterLimit)
  else .ok { query := query, args := args }

def includedAssignments (table : Identifier) (identity : Option Nat) (seen : List Bytes) :
    List (Assignment α) → Except Bytes (List (Assignment α))
  | [] => .ok []
  | assignment :: rest =>
    if assignment.table ≠ table ∨ assignment.identity ≠ identity ∨ identity = none then
      .error (ascii "orm: assignment belongs to a different table")
    else if assignment.kind = .omitted then includedAssignments table identity seen rest
    else if assignment.kind = .value ∧ isNilValue assignment.value then
      .error (ascii "orm: assignment value is nil; use Null or Default")
    else if assignment.column.name ∈ seen then
      .error (ascii "orm: duplicate assignment for column " ++ assignment.column.name)
    else do
      let others ← includedAssignments table identity (assignment.column.name :: seen) rest
      return assignment :: others

def writeAssignmentValue (assignment : Assignment α) (args : List (Arg α)) : Bytes × List (Arg α) :=
  match assignment.kind with
  | .null => sqlBind args .null
  | .default => (ascii "DEFAULT", args)
  | .currentTime => (ascii "CURRENT_TIMESTAMP", args)
  | .increment =>
    let (placeholder, args) := sqlBind args assignment.value
    (assignment.column.quoted ++ ascii " + " ++ placeholder, args)
  | _ => sqlBind args assignment.value

def writeAssignments : List (Assignment α) → List (Arg α) → List Bytes × List (Arg α)
  | [], args => ([], args)
  | assignment :: rest, args =>
    let (value, args) := writeAssignmentValue assignment args
    let (others, args) := writeAssignments rest args
    ((assignment.column.quoted ++ ascii " = " ++ value) :: others, args)

def errUnsafeMutation : Bytes := ascii "orm: mutation requires a predicate or AllRows"

def UpdateBuilder.build (builder : UpdateBuilder α V M) : Except Bytes (Statement α) := do
  builder.table.validate
  if builder.predicates.isEmpty && !builder.allRows then .error errUnsafeMutation
  else
    let assignments ← includedAssignments builder.table.name builder.table.identity [] builder.assignments
    if assignments.isEmpty then .error (ascii "orm: update requires at least one present assignment")
    else
      let (sets, args) := writeAssignments assignments []
      let (clause, args) ←
        writePredicates builder.table.name builder.table.identity (builder.predicates.map Condition.predicate) args
      newCompiledStatement
        (ascii "UPDATE " ++ builder.table.name.quoted ++ ascii " SET " ++ join (ascii ", ") sets ++ clause) args

def writeMappedColumns (table : Table V M) : Bytes :=
  join (ascii ", ") (table.mapper.columns.map (fun column => table.name.quoted ++ ascii "." ++ column.quoted))

def UpdateBuilder.buildReturning (builder : UpdateBuilder α V M) : Except Bytes (Statement α) := do
  let statement ← builder.build
  newCompiledStatement (statement.query ++ ascii " RETURNING " ++ writeMappedColumns builder.table) statement.args

inductive UpdateError where
  | build (message : Bytes)
  | notFound
  | stale
  | database
  | scan (message : Bytes)
deriving DecidableEq, Repr

structure Database (α V : Type) where
  driver : Driver α V
  storage : Storage V

-- One on the row of the table that its predicates can match: the result, and
-- the row afterwards.
def UpdateBuilder.one (database : Database α V) (now : V) (builder : UpdateBuilder α V M) (cells : Bytes → Option V) :
    Except UpdateError M × (Bytes → Option V) :=
  match builder.buildReturning with
  | .error message => (.error (.build message), cells)
  | .ok statement =>
    match parseUpdate (lex statement.query) with
    | none => (.error .database, cells)
    | some parsed =>
      match parsed.run database.driver.values database.storage now builder.table.name.name
          (statement.args.map database.driver.encode) cells with
      | .failed => (.error .database, cells)
      | .unmatched => (.error (if builder.staleOnZero then .stale else .notFound), cells)
      | .updated changed =>
        match builder.table.mapper.scan with
        | none => (.error .database, changed)
        | some scan =>
          match scan (parsed.returning.map (fun column =>
              column.value (rowOf builder.table.name.name changed) [])) with
          | .error message => (.error (.scan message), changed)
          | .ok model => (.ok model, changed)

end

end Goforge.Orm

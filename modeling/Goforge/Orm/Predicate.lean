import Goforge.Orm.Definition

set_option autoImplicit false

namespace Goforge.Orm

open GoString

inductive PredicateKind where
  | compare
  | isIn
  | null
  | constant
  | and
  | or
  | not
  | containsFold
deriving DecidableEq, Repr

structure Fields (α : Type) where
  table : Identifier
  identity : Option Nat
  column : Identifier
  kind : PredicateKind
  op : Bytes
  args : List (Arg α)
  truth : Bool

inductive Predicate (α : Type) where
  | mk (fields : Fields α) (children : List (Predicate α))

section

variable {α : Type}

def Predicate.fields : Predicate α → Fields α
  | .mk fields _ => fields

def Predicate.zero : Predicate α :=
  .mk { table := .zero, identity := none, column := .zero, kind := .compare, op := [], args := [], truth := false } []

-- A predicate that looks at the column, with the zero values of the other fields.
def Column.test (column : Column) (kind : PredicateKind) (op : Bytes) (args : List (Arg α)) : Predicate α :=
  .mk { table := column.table, identity := column.identity, column := column.name, kind := kind, op := op,
        args := args, truth := false } []

def Column.compare (column : Column) (operator : Bytes) (value : Arg α) : Predicate α :=
  column.test .compare operator [value]

def Column.eq (column : Column) (value : Arg α) : Predicate α := column.compare (ascii "=") value

def Column.notEq (column : Column) (value : Arg α) : Predicate α := column.compare (ascii "<>") value

def Column.lt (column : Column) (value : Arg α) : Predicate α := column.compare (ascii "<") value

def Column.lte (column : Column) (value : Arg α) : Predicate α := column.compare (ascii "<=") value

def Column.gt (column : Column) (value : Arg α) : Predicate α := column.compare (ascii ">") value

def Column.gte (column : Column) (value : Arg α) : Predicate α := column.compare (ascii ">=") value

def Column.isIn (column : Column) (values : List (Arg α)) : Predicate α :=
  if values = [] then
    .mk { table := column.table, identity := column.identity, column := .zero, kind := .constant, op := [], args := [],
          truth := false } []
  else column.test .isIn [] values

def Column.isNull (column : Column) : Predicate α := column.test .null (ascii "IS NULL") []

def Column.isNotNull (column : Column) : Predicate α := column.test .null (ascii "IS NOT NULL") []

def Predicate.like (column : Column) (pattern : Bytes) : Predicate α :=
  column.test .compare (ascii "LIKE") [.text pattern]

-- Every old string of the replacer is one byte.
def containsFoldEscaper (literal : Bytes) : Bytes :=
  literal.flatMap (fun b =>
    if b = byte '!' then ascii "!!" else if b = byte '%' then ascii "!%" else if b = byte '_' then ascii "!_" else [b])

def Predicate.containsFold (column : Column) (literal : Bytes) : Predicate α :=
  column.test .containsFold [] [.text (ascii "%" ++ containsFoldEscaper literal ++ ascii "%")]

def groupedPredicate (kind : PredicateKind) (predicates : List (Predicate α)) : Predicate α :=
  .mk { table := (predicates.head?.map (fun first => first.fields.table)).getD .zero,
        identity := predicates.head?.bind (fun first => first.fields.identity),
        column := .zero, kind := kind, op := [], args := [], truth := false } predicates

def Predicate.and (predicates : List (Predicate α)) : Predicate α := groupedPredicate .and predicates

def Predicate.or (predicates : List (Predicate α)) : Predicate α := groupedPredicate .or predicates

def Predicate.not (predicate : Predicate α) : Predicate α :=
  .mk { table := predicate.fields.table, identity := predicate.fields.identity, column := .zero, kind := .not, op := [],
        args := [], truth := false } [predicate]

-- The compiler's state is its argument list.
def sqlBind (args : List (Arg α)) (value : Arg α) : Bytes × List (Arg α) :=
  (byte '$' :: decimal (args.length + 1), args ++ [value])

def bindAll : List (Arg α) → List (Arg α) → Except Bytes (List Bytes × List (Arg α))
  | [], args => .ok ([], args)
  | value :: values, args => do
      if isNilValue value then .error (ascii "orm: IN value is nil; use an explicit null predicate")
      else
        let (placeholder, args) := sqlBind args value
        let (placeholders, args) ← bindAll values args
        return (placeholder :: placeholders, args)

-- The kinds that have no children.
def Fields.compileLeaf (fields : Fields α) (args : List (Arg α)) : Except Bytes (Bytes × List (Arg α)) :=
  let qualified := fields.table.quoted ++ ascii "." ++ fields.column.quoted
  match fields.kind with
  | .constant => .ok (if fields.truth then ascii "TRUE" else ascii "FALSE", args)
  | .containsFold =>
    match fields.args with
    | [.text pattern] =>
      let (placeholder, args) := sqlBind args (.text pattern)
      .ok (qualified ++ ascii " ILIKE " ++ placeholder ++ ascii " ESCAPE '!'", args)
    | _ => .error (ascii "orm: invalid literal contains predicate")
  | .compare =>
    match fields.args with
    | [value] =>
      if isNilValue value then .error (ascii "orm: comparison value is nil; use IsNull or IsNotNull")
      else
        let (placeholder, args) := sqlBind args value
        .ok (qualified ++ ascii " " ++ fields.op ++ ascii " " ++ placeholder, args)
    | _ => .error (ascii "orm: invalid comparison predicate")
  | .isIn => do
      let (placeholders, args) ← bindAll fields.args args
      return (qualified ++ ascii " IN (" ++ join (ascii ", ") placeholders ++ ascii ")", args)
  | .null => .ok (qualified ++ ascii " " ++ fields.op, args)
  | _ => .error (ascii "orm: invalid predicate")

def Fields.checkTable (fields : Fields α) (table : Identifier) (identity : Option Nat) : Except Bytes Unit :=
  if table.name = [] ∨ fields.table.name = [] ∨ identity = none ∨ fields.identity = none then
    .error (ascii "orm: invalid predicate")
  else if fields.table ≠ table ∨ fields.identity ≠ identity then
    .error (ascii "orm: predicate belongs to a different table")
  else .ok ()

def groupSeparator (kind : PredicateKind) : Bytes := if kind = .or then ascii " OR " else ascii " AND "

mutual

def Predicate.compile (table : Identifier) (identity : Option Nat) :
    Predicate α → List (Arg α) → Except Bytes (Bytes × List (Arg α))
  | .mk fields children, args => do
      fields.checkTable table identity
      match fields.kind with
      | .and | .or =>
        if children.isEmpty then .error (ascii "orm: predicate group must not be empty")
        else do
          let (parts, args) ← compileAll table identity children args
          return (ascii "(" ++ join (groupSeparator fields.kind) parts ++ ascii ")", args)
      | .not =>
        match children with
        | [child] => do
            let (compiled, args) ← child.compile table identity args
            return (ascii "NOT (" ++ compiled ++ ascii ")", args)
        | _ => .error (ascii "orm: NOT requires one predicate")
      | _ => fields.compileLeaf args

def compileAll (table : Identifier) (identity : Option Nat) :
    List (Predicate α) → List (Arg α) → Except Bytes (List Bytes × List (Arg α))
  | [], args => .ok ([], args)
  | predicate :: rest, args => do
      let (compiled, args) ← predicate.compile table identity args
      let (others, args) ← compileAll table identity rest args
      return (compiled :: others, args)

end

def writePredicates (table : Identifier) (identity : Option Nat) (predicates : List (Predicate α))
    (args : List (Arg α)) : Except Bytes (Bytes × List (Arg α)) :=
  if predicates.isEmpty then .ok ([], args)
  else do
    let (parts, args) ← compileAll table identity predicates args
    return (ascii " WHERE " ++ join (ascii " AND ") parts, args)

end

end Goforge.Orm

import Goforge.Lib.GoString

set_option autoImplicit false

namespace Goforge.Orm

open GoString

def identifierStart (b : UInt8) : Bool := within (byte 'a') (byte 'z') b || b = byte '_'

def identifierByte (b : UInt8) : Bool := identifierStart b || isDigit b

def identifierPattern : Bytes → Bool
  | [] => false
  | b :: rest => identifierStart b && rest.all identifierByte

-- The name is empty in the zero value only.
structure Identifier where
  name : Bytes
  valid : name = [] ∨ (name.length ≤ 63 ∧ identifierPattern name = true)
deriving DecidableEq

def Identifier.zero : Identifier := ⟨[], .inl rfl⟩

def Identifier.quoted (value : Identifier) : Bytes := dquote :: (value.name ++ [dquote])

theorem identifier_unquoted (value : Identifier) : dquote ∉ value.name := by
  have start : identifierStart dquote = false := by decide
  have later : identifierByte dquote = false := by decide
  rcases value.valid with empty | ⟨_, pattern⟩
  · rw [empty]
    exact List.not_mem_nil
  · cases shape : value.name with
    | nil => exact List.not_mem_nil
    | cons b rest =>
      rw [shape, identifierPattern, Bool.and_eq_true, List.all_eq_true] at pattern
      intro member
      rcases List.mem_cons.mp member with rfl | inside
      · rw [start] at pattern
        cases pattern.1
      · have allowed := pattern.2 _ inside
        rw [later] at allowed
        cases allowed

-- A value given to a query. Typed and untyped nil are alike, and of the others
-- only strings are looked into.
inductive Arg (α : Type) where
  | null
  | text (value : Bytes)
  | other (value : α)
deriving DecidableEq, Repr

def isNilValue {α : Type} : Arg α → Bool
  | .null => true
  | _ => false

-- The scan function reads the columns of a row in their order.
structure Mapper (V M : Type) where
  columns : List Identifier
  scan : Option (List (Option V) → Except Bytes M)

-- An identity is the address of a marker made for the table.
structure Table (V M : Type) where
  name : Identifier
  mapper : Mapper V M
  identity : Option Nat

def Table.validate {V M : Type} (table : Table V M) : Except Bytes Unit :=
  if table.name.name = [] ∨ table.mapper.columns = [] ∨ table.mapper.scan.isNone ∨ table.identity = none then
    .error (ascii "orm: invalid table definition")
  else .ok ()

structure Column where
  table : Identifier
  identity : Option Nat
  name : Identifier
deriving DecidableEq

-- The columns of the table that the name and identity stand for.
def Column.belongsTo (column : Column) (table : Identifier) (identity : Option Nat) : Prop :=
  column.table = table ∧ column.identity = identity ∧ table.name ≠ [] ∧ identity ≠ none

end Goforge.Orm

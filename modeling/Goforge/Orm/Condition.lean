import Goforge.Lib.Sql.Truth
import Goforge.Orm.Predicate

set_option autoImplicit false

namespace Goforge.Orm

open GoString Sql

-- A predicate as its constructors build it. The zero value of the Go type is
-- among them.
inductive Condition (α : Type) where
  | zero
  | compare (op : Comparison) (column : Column) (value : Arg α)
  | isIn (column : Column) (values : List (Arg α))
  | isNull (column : Column)
  | isNotNull (column : Column)
  | like (column : Column) (pattern : Bytes)
  | containsFold (column : Column) (literal : Bytes)
  | and (parts : List (Condition α))
  | or (parts : List (Condition α))
  | not (inner : Condition α)

section

variable {α : Type}

def comparePredicate (op : Comparison) (column : Column) (value : Arg α) : Predicate α :=
  match op with
  | .eq => column.eq value
  | .ne => column.notEq value
  | .lt => column.lt value
  | .le => column.lte value
  | .gt => column.gt value
  | .ge => column.gte value

mutual

def Condition.predicate : Condition α → Predicate α
  | .zero => .zero
  | .compare op column value => comparePredicate op column value
  | .isIn column values => column.isIn values
  | .isNull column => column.isNull
  | .isNotNull column => column.isNotNull
  | .like column pattern => .like column pattern
  | .containsFold column literal => .containsFold column literal
  | .and parts => .and (predicates parts)
  | .or parts => .or (predicates parts)
  | .not inner => .not inner.predicate

def predicates : List (Condition α) → List (Predicate α)
  | [] => []
  | part :: parts => part.predicate :: predicates parts

end

attribute [grind =] Condition.predicate predicates

mutual

def Condition.WellFormed (table : Identifier) (identity : Option Nat) : Condition α → Prop
  | .zero => False
  | .compare _ column value => column.belongsTo table identity ∧ isNilValue value = false
  | .isIn column values => column.belongsTo table identity ∧ ∀ value ∈ values, isNilValue value = false
  | .isNull column => column.belongsTo table identity
  | .isNotNull column => column.belongsTo table identity
  | .like column _ => column.belongsTo table identity
  | .containsFold column _ => column.belongsTo table identity
  | .and parts => parts ≠ [] ∧ AllWellFormed table identity parts
  | .or parts => parts ≠ [] ∧ AllWellFormed table identity parts
  | .not inner => inner.WellFormed table identity

def AllWellFormed (table : Identifier) (identity : Option Nat) : List (Condition α) → Prop
  | [] => True
  | part :: parts => part.WellFormed table identity ∧ AllWellFormed table identity parts

end

attribute [grind =] Condition.WellFormed AllWellFormed

mutual

def Condition.leaves : Condition α → List (Arg α)
  | .zero => []
  | .compare _ _ value => [value]
  | .isIn _ values => values
  | .isNull _ => []
  | .isNotNull _ => []
  | .like _ pattern => [.text pattern]
  | .containsFold _ literal => [.text (containsPattern literal)]
  | .and parts => allLeaves parts
  | .or parts => allLeaves parts
  | .not inner => inner.leaves

def allLeaves : List (Condition α) → List (Arg α)
  | [] => []
  | part :: parts => part.leaves ++ allLeaves parts

end

attribute [grind =] Condition.leaves allLeaves

structure Driver (α V : Type) where
  values : Values V
  encode : Arg α → Option V
  encode_null : encode .null = none
  encode_text : ∀ text, ∃ value, encode (.text text) = some value ∧ values.characters value = runes text

variable {V : Type} (driver : Driver α V) (row : Row V)

def Column.value (column : Column) : Option V := row [column.table.name, column.name.name]

mutual

def Condition.truth : Condition α → Truth
  | .zero => none
  | .compare op column value => compareTruth driver.values op (column.value row) (driver.encode value)
  | .isIn column values => inTruth driver.values (column.value row) (values.map driver.encode)
  | .isNull column => some (column.value row).isNone
  | .isNotNull column => some (column.value row).isSome
  | .like column pattern =>
    strict (likeTruth driver.values false backslash) (column.value row) (driver.encode (.text pattern))
  | .containsFold column literal =>
    (column.value row).map (fun value =>
      containsText driver.values.sameFold (runes literal) (driver.values.characters value))
  | .and parts => allOf (truths parts)
  | .or parts => anyOf (truths parts)
  | .not inner => negate inner.truth

def truths : List (Condition α) → List Truth
  | [] => []
  | part :: parts => part.truth :: truths parts

end

attribute [grind =] Condition.truth truths

end

theorem condition_induct {α : Type} {motive : Condition α → Prop} (zero : motive .zero)
    (compare : ∀ op column value, motive (.compare op column value))
    (isIn : ∀ column values, motive (.isIn column values))
    (isNull : ∀ column, motive (.isNull column)) (isNotNull : ∀ column, motive (.isNotNull column))
    (like : ∀ column pattern, motive (.like column pattern))
    (containsFold : ∀ column literal, motive (.containsFold column literal))
    (and : ∀ parts, (∀ part ∈ parts, motive part) → motive (.and parts))
    (or : ∀ parts, (∀ part ∈ parts, motive part) → motive (.or parts))
    (not : ∀ inner, motive inner → motive (.not inner)) (condition : Condition α) : motive condition :=
  @Condition.rec α motive (fun parts => ∀ part ∈ parts, motive part) zero compare isIn isNull isNotNull
    like containsFold
    and or not (List.forall_mem_nil _)
    (fun _ _ here later => List.forall_mem_cons.mpr ⟨here, later⟩) condition

end Goforge.Orm

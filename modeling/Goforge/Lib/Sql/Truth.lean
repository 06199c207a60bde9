import Goforge.Lib.Sql.Expr
import Goforge.Lib.Sql.Like

set_option autoImplicit false

namespace Sql

open GoString

-- The third truth value, unknown, is none.
abbrev Truth := Option Bool

def both : Truth → Truth → Truth
  | some false, _ => some false
  | some true, right => right
  | none, some false => some false
  | none, _ => none

def either : Truth → Truth → Truth
  | some true, _ => some true
  | some false, right => right
  | none, some true => some true
  | none, _ => none

def negate (truth : Truth) : Truth := truth.map (!·)

def allOf (truths : List Truth) : Truth := truths.foldr both (some true)

def anyOf (truths : List Truth) : Truth := truths.foldr either (some false)

theorem both_true (truth : Truth) : both truth (some true) = truth := by
  rcases truth with _ | _ | _ <;> rfl

theorem either_false (truth : Truth) : either truth (some false) = truth := by
  rcases truth with _ | _ | _ <;> rfl

theorem both_holds (left right : Truth) : both left right = some true ↔ left = some true ∧ right = some true := by
  rcases left with _ | _ | _ <;> rcases right with _ | _ | _ <;> decide

theorem all_holds (truths : List Truth) : allOf truths = some true ↔ ∀ truth ∈ truths, truth = some true := by
  induction truths with
  | nil => exact ⟨fun _ _ member => absurd member List.not_mem_nil, fun _ => rfl⟩
  | cons truth truths ih =>
    rw [allOf, List.foldr_cons, both_holds, List.forall_mem_cons]
    exact and_congr Iff.rfl ih

structure Values (V : Type) where
  compare : Comparison → V → V → Bool
  characters : V → List Nat
  sameFold : Nat → Nat → Bool

abbrev Row (V : Type) := List Bytes → Option V

section Evaluation

variable {V : Type} (values : Values V) (row : Row V) (arguments : List (Option V))

def Operand.value : Operand → Option V
  | .column path => row path
  | .parameter 0 => none
  | .parameter (number + 1) => (arguments[number]?).getD none

def strict (test : V → V → Truth) : Option V → Option V → Truth
  | some left, some right => test left right
  | _, _ => none

def likeTruth (fold : Bool) (escape : UInt8) (left right : V) : Truth :=
  (readPattern escape.toNat (values.characters right)).map (fun pattern =>
    matchPattern (if fold then values.sameFold else fun a b => a == b) pattern (values.characters left))

def compareTruth (op : Comparison) : Option V → Option V → Truth :=
  strict (fun left right => some (values.compare op left right))

def inTruth (left : Option V) (items : List (Option V)) : Truth := anyOf (items.map (compareTruth values .eq left))

def Expr.truth : Expr → Truth
  | .constant value => some value
  | .compare op left right => compareTruth values op (left.value row arguments) (right.value row arguments)
  | .like fold left right escape =>
    strict (likeTruth values fold escape) (left.value row arguments) (right.value row arguments)
  | .isIn left items =>
    inTruth values (left.value row arguments) (items.map (fun item => item.value row arguments))
  | .isNull left => some (left.value row arguments).isNone
  | .isNotNull left => some (left.value row arguments).isSome
  | .not inner => negate inner.truth
  | .and left right => both left.truth right.truth
  | .or left right => either left.truth right.truth

end Evaluation

structure Connective where
  word : Bytes
  level : Level
  combine : Expr → Expr → Expr
  op : Truth → Truth → Truth
  unit : Truth
  separator : Closed (byte ' ' :: (word ++ [byte ' '])) [.word word]
  single : ∀ tokens expr, Derives .negation tokens expr → Derives level tokens expr
  chain : ∀ tokens more left right, Derives .negation tokens left → Derives level more right →
    Derives level (tokens ++ .word word :: more) (combine left right)
  whole : ∀ tokens expr, Derives level tokens expr → Derives .disjunction tokens expr
  combined : ∀ {V : Type} (values : Values V) (row : Row V) (arguments : List (Option V)) (left right : Expr),
    (combine left right).truth values row arguments =
      op (left.truth values row arguments) (right.truth values row arguments)
  neutral : ∀ truth, op truth unit = truth

def Connective.and : Connective where
  word := ascii "AND"
  level := .conjunction
  combine := .and
  op := both
  unit := some true
  separator := by decide
  single := derives_conjunction
  chain := derives_and
  whole := fun tokens _ => derives_disjunction tokens
  combined := fun _ _ _ _ _ => rfl
  neutral := both_true

def Connective.or : Connective where
  word := ascii "OR"
  level := .disjunction
  combine := .or
  op := either
  unit := some false
  separator := by decide
  single := fun tokens expr derived => derives_disjunction tokens (derives_conjunction tokens expr derived)
  chain := fun tokens more left right first => derives_or right (derives_conjunction tokens left first)
  whole := fun _ _ derived => derived
  combined := fun _ _ _ _ _ => rfl
  neutral := either_false

end Sql

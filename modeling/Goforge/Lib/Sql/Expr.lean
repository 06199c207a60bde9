import Goforge.Lib.Sql.Token

set_option autoImplicit false

namespace Sql

open GoString

inductive Comparison where
  | eq
  | ne
  | lt
  | le
  | gt
  | ge
deriving DecidableEq, Repr

def comparisonOf (text : Bytes) : Option Comparison :=
  if text = ascii "=" then some .eq
  else if text = ascii "<>" then some .ne
  else if text = ascii "<" then some .lt
  else if text = ascii "<=" then some .le
  else if text = ascii ">" then some .gt
  else if text = ascii ">=" then some .ge
  else none

inductive Operand where
  | column (path : List Bytes)
  | parameter (number : Nat)
deriving DecidableEq, Repr

inductive Expr where
  | constant (value : Bool)
  | compare (op : Comparison) (left right : Operand)
  | like (fold : Bool) (left right : Operand) (escape : UInt8)
  | isIn (left : Operand) (items : List Operand)
  | isNull (left : Operand)
  | isNotNull (left : Operand)
  | not (inner : Expr)
  | and (left right : Expr)
  | or (left right : Expr)
deriving DecidableEq, Repr

def keyword (text : String) : List Token → Option (List Token)
  | .word found :: rest => if found = ascii text then some rest else none
  | _ => none

def punctuation (c : Char) : List Token → Option (List Token)
  | .punctuation found :: rest => if found = byte c then some rest else none
  | _ => none

def parseName : List Token → Option (Bytes × List Token)
  | .quoted name :: rest => some (name, rest)
  | _ => none

def parseOperand : List Token → Option (Operand × List Token)
  | .parameter number :: rest => some (.parameter number, rest)
  | .quoted name :: rest =>
    match (punctuation '.' rest).bind parseName with
    | some (column, rest) => some (.column [name, column], rest)
    | none => some (.column [name], rest)
  | _ => none

def parseItems : Nat → List Token → Option (List Operand × List Token)
  | 0, _ => none
  | fuel + 1, tokens => do
      let (item, rest) ← parseOperand tokens
      match punctuation ',' rest with
      | some more => do
          let (items, rest) ← parseItems fuel more
          return (item :: items, rest)
      | none => do
          let rest ← punctuation ')' rest
          return ([item], rest)

def parseEscape (tokens : List Token) : Option (UInt8 × List Token) :=
  match keyword "ESCAPE" tokens with
  | none => some (backslash, tokens)
  | some (.literal [escape] :: rest) => some (escape, rest)
  | some _ => none

def parseLike (fold : Bool) (left : Operand) (tokens : List Token) : Option (Expr × List Token) := do
  let (right, rest) ← parseOperand tokens
  let (escape, rest) ← parseEscape rest
  return (.like fold left right escape, rest)

def parseNull (left : Operand) (tokens : List Token) : Option (Expr × List Token) :=
  match keyword "NOT" tokens with
  | some rest => (keyword "NULL" rest).map (fun rest => (.isNotNull left, rest))
  | none => (keyword "NULL" tokens).map (fun rest => (.isNull left, rest))

def parseTest (left : Operand) : List Token → Option (Expr × List Token)
  | .operator text :: rest => do
      let op ← comparisonOf text
      let (right, rest) ← parseOperand rest
      return (.compare op left right, rest)
  | .word text :: rest =>
    if text = ascii "LIKE" then parseLike false left rest
    else if text = ascii "ILIKE" then parseLike true left rest
    else if text = ascii "IS" then parseNull left rest
    else if text = ascii "IN" then do
      let rest ← punctuation '(' rest
      let (items, rest) ← parseItems rest.length rest
      return (.isIn left items, rest)
    else none
  | _ => none

inductive Level where
  | primary
  | negation
  | conjunction
  | disjunction
deriving DecidableEq, Repr

def Level.rank : Level → Nat
  | .primary => 0
  | .negation => 1
  | .conjunction => 2
  | .disjunction => 3

def parseLevel : Nat → Level → List Token → Option (Expr × List Token)
  | 0, _, _ => none
  | fuel + 1, .primary, tokens =>
    match punctuation '(' tokens with
    | some inner => do
        let (expr, rest) ← parseLevel fuel .disjunction inner
        let rest ← punctuation ')' rest
        return (expr, rest)
    | none =>
      match keyword "TRUE" tokens, keyword "FALSE" tokens with
      | some rest, _ => some (.constant true, rest)
      | none, some rest => some (.constant false, rest)
      | none, none => do
          let (left, rest) ← parseOperand tokens
          parseTest left rest
  | fuel + 1, .negation, tokens =>
    match keyword "NOT" tokens with
    | some rest => do
        let (inner, rest) ← parseLevel fuel .negation rest
        return (.not inner, rest)
    | none => parseLevel fuel .primary tokens
  | fuel + 1, .conjunction, tokens => do
      let (left, rest) ← parseLevel fuel .negation tokens
      match keyword "AND" rest with
      | some more => do
          let (right, rest) ← parseLevel fuel .conjunction more
          return (.and left right, rest)
      | none => return (left, rest)
  | fuel + 1, .disjunction, tokens => do
      let (left, rest) ← parseLevel fuel .conjunction tokens
      match keyword "OR" rest with
      | some more => do
          let (right, rest) ← parseLevel fuel .disjunction more
          return (.or left right, rest)
      | none => return (left, rest)

attribute [grind =] parseLevel

def parseCondition (tokens : List Token) : Option (Expr × List Token) :=
  parseLevel (4 * tokens.length + 4) .disjunction tokens

structure Stops (level : Level) (rest : List Token) : Prop where
  escape : keyword "ESCAPE" rest = none
  conjunction : 2 ≤ level.rank → keyword "AND" rest = none
  disjunction : 3 ≤ level.rank → keyword "OR" rest = none

def Derives (level : Level) (tokens : List Token) (expr : Expr) : Prop :=
  ∀ rest fuel, Stops level rest → 4 * tokens.length + level.rank < fuel →
    parseLevel fuel level (tokens ++ rest) = some (expr, rest)

theorem stops_lower {level lower : Level} {rest : List Token} (order : lower.rank ≤ level.rank)
    (stops : Stops level rest) : Stops lower rest :=
  ⟨stops.escape, fun bound => stops.conjunction (by omega), fun bound => stops.disjunction (by omega)⟩

theorem stops_empty {level : Level} : Stops level [] := ⟨rfl, fun _ => rfl, fun _ => rfl⟩

theorem stops_punctuation {level : Level} {b : UInt8} {rest : List Token} : Stops level (.punctuation b :: rest) :=
  ⟨rfl, fun _ => rfl, fun _ => rfl⟩

theorem keyword_other {text other : String} {rest : List Token} (different : ascii other ≠ ascii text) :
    keyword text (.word (ascii other) :: rest) = none := if_neg different

theorem fuel_successor {least fuel : Nat} (enough : least < fuel) : ∃ less, fuel = less + 1 ∧ least ≤ less :=
  ⟨fuel - 1, by omega, by omega⟩

variable {tokens : List Token} {expr : Expr}

theorem derives_group (inner : Derives .disjunction tokens expr) :
    Derives .primary (.punctuation (byte '(') :: (tokens ++ [.punctuation (byte ')')])) expr := by
  intro rest fuel stops enough
  obtain ⟨less, rfl, bound⟩ := fuel_successor enough
  simp only [List.length_cons, List.length_append, List.length_nil, Level.rank] at bound
  have read := inner (.punctuation (byte ')') :: rest) less (stops_punctuation) (by simp only [Level.rank]; omega)
  have open_ : punctuation '(' (.punctuation (byte '(') :: (tokens ++ [.punctuation (byte ')')]) ++ rest) =
      some (tokens ++ .punctuation (byte ')') :: rest) := by
    rw [List.cons_append, List.append_assoc]
    rfl
  rw [parseLevel, open_]
  simp only [read]
  rfl

theorem derives_not (inner : Derives .negation tokens expr) :
    Derives .negation (.word (ascii "NOT") :: tokens) (.not expr) := by
  intro rest fuel stops enough
  obtain ⟨less, rfl, bound⟩ := fuel_successor enough
  simp only [List.length_cons, Level.rank] at bound
  have read := inner rest less stops (by simp only [Level.rank]; omega)
  rw [List.cons_append, parseLevel, show keyword "NOT" (.word (ascii "NOT") :: (tokens ++ rest)) = some (tokens ++ rest)
    from rfl]
  simp only [read]
  rfl

theorem derives_negation (inner : Derives .primary tokens expr)
    (plain : ∀ rest, keyword "NOT" (tokens ++ rest) = none) : Derives .negation tokens expr := by
  intro rest fuel stops enough
  obtain ⟨less, rfl, bound⟩ := fuel_successor enough
  rw [parseLevel, plain rest]
  exact inner rest less (stops_lower (by decide) stops) bound

theorem derives_conjunction (tokens : List Token) (expr : Expr) (inner : Derives .negation tokens expr) :
    Derives .conjunction tokens expr := by
  intro rest fuel stops enough
  obtain ⟨less, rfl, bound⟩ := fuel_successor enough
  have read := inner rest less (stops_lower (by decide) stops) bound
  rw [parseLevel, read]
  simp only [Option.bind_eq_bind, Option.bind_some, stops.conjunction (by decide)]
  rfl

theorem derives_and (tokens : List Token) {more : List Token} {left right : Expr}
    (first : Derives .negation tokens left) (second : Derives .conjunction more right) :
    Derives .conjunction (tokens ++ .word (ascii "AND") :: more) (.and left right) := by
  intro rest fuel stops enough
  obtain ⟨less, rfl, bound⟩ := fuel_successor enough
  simp only [List.length_cons, List.length_append, Level.rank] at bound
  have read := first (.word (ascii "AND") :: (more ++ rest)) less
    ⟨keyword_other (by decide), fun bound => absurd bound (by decide), fun bound => absurd bound (by decide)⟩
    (by simp only [Level.rank]; omega)
  have later := second rest less stops (by simp only [Level.rank]; omega)
  rw [List.append_assoc, List.cons_append, parseLevel, read]
  simp only [Option.bind_eq_bind, Option.bind_some, keyword, if_true, later]
  rfl

theorem derives_disjunction (tokens : List Token) (inner : Derives .conjunction tokens expr) :
    Derives .disjunction tokens expr := by
  intro rest fuel stops enough
  obtain ⟨less, rfl, bound⟩ := fuel_successor enough
  have read := inner rest less (stops_lower (by decide) stops) bound
  rw [parseLevel, read]
  simp only [Option.bind_eq_bind, Option.bind_some, stops.disjunction (by decide)]
  rfl

theorem derives_or {more : List Token} {left : Expr} (right : Expr) (first : Derives .conjunction tokens left)
    (second : Derives .disjunction more right) :
    Derives .disjunction (tokens ++ .word (ascii "OR") :: more) (.or left right) := by
  intro rest fuel stops enough
  obtain ⟨less, rfl, bound⟩ := fuel_successor enough
  simp only [List.length_cons, List.length_append, Level.rank] at bound
  have read := first (.word (ascii "OR") :: (more ++ rest)) less
    ⟨keyword_other (by decide), fun _ => keyword_other (by decide), fun bound => absurd bound (by decide)⟩
    (by simp only [Level.rank]; omega)
  have later := second rest less stops (by simp only [Level.rank]; omega)
  rw [List.append_assoc, List.cons_append, parseLevel, read]
  simp only [Option.bind_eq_bind, Option.bind_some, keyword, if_true, later]
  rfl

theorem parse_condition_derives {rest : List Token} (derived : Derives .disjunction tokens expr)
    (stops : Stops .disjunction rest) : parseCondition (tokens ++ rest) = some (expr, rest) := by
  refine derived rest _ stops ?_
  simp only [List.length_append, Level.rank]
  omega

section Leaves

def columnTokens (table column : Bytes) : List Token := [.quoted table, .punctuation (byte '.'), .quoted column]

variable (table column : Bytes)

theorem parse_column (rest : List Token) :
    parseOperand (columnTokens table column ++ rest) = some (.column [table, column], rest) := rfl

theorem derives_constant (value : Bool) :
    Derives .primary [.word (ascii (if value then "TRUE" else "FALSE"))] (.constant value) := by
  intro rest fuel stops enough
  obtain ⟨less, rfl, bound⟩ := fuel_successor enough
  cases value <;> rfl

theorem derives_test {tokens : List Token} {expr : Expr}
    (read : ∀ rest, Stops .primary rest → parseTest (.column [table, column]) (tokens ++ rest) = some (expr, rest)) :
    Derives .primary (columnTokens table column ++ tokens) expr := by
  intro rest fuel stops enough
  obtain ⟨less, rfl, bound⟩ := fuel_successor enough
  rw [List.append_assoc, parseLevel]
  have open_ : punctuation '(' (columnTokens table column ++ (tokens ++ rest)) = none := rfl
  have true_ : keyword "TRUE" (columnTokens table column ++ (tokens ++ rest)) = none := rfl
  have false_ : keyword "FALSE" (columnTokens table column ++ (tokens ++ rest)) = none := rfl
  simp only [open_, true_, false_, parse_column, Option.bind_eq_bind, Option.bind_some]
  exact read rest stops

theorem derives_compare {op : Comparison} {text : Bytes} {number : Nat} (named : comparisonOf text = some op) :
    Derives .primary (columnTokens table column ++ [.operator text, .parameter number])
      (.compare op (.column [table, column]) (.parameter number)) := by
  refine derives_test _ _ ?_
  intro rest _
  rw [List.cons_append, parseTest, named]
  rfl

theorem derives_like {number : Nat} :
    Derives .primary (columnTokens table column ++ [.word (ascii "LIKE"), .parameter number])
      (.like false (.column [table, column]) (.parameter number) backslash) := by
  refine derives_test _ _ ?_
  intro rest stops
  have read : parseEscape rest = some (backslash, rest) := by rw [parseEscape, stops.escape]
  rw [List.cons_append, parseTest, if_pos rfl, parseLike]
  simp only [List.singleton_append, parseOperand, Option.bind_eq_bind, Option.bind_some, read]
  rfl

theorem derives_ilike {number : Nat} {escape : UInt8} :
    Derives .primary
      (columnTokens table column ++
        [.word (ascii "ILIKE"), .parameter number, .word (ascii "ESCAPE"), .literal [escape]])
      (.like true (.column [table, column]) (.parameter number) escape) := by
  refine derives_test _ _ ?_
  intro rest _
  rw [List.cons_append, parseTest, if_neg (by decide), if_pos rfl]
  rfl

theorem derives_is_null :
    Derives .primary (columnTokens table column ++ [.word (ascii "IS"), .word (ascii "NULL")])
      (.isNull (.column [table, column])) := by
  refine derives_test _ _ ?_
  intro rest _
  rw [List.cons_append, parseTest, if_neg (by decide), if_neg (by decide), if_pos rfl]
  rfl

theorem derives_is_not_null :
    Derives .primary (columnTokens table column ++ [.word (ascii "IS"), .word (ascii "NOT"), .word (ascii "NULL")])
      (.isNotNull (.column [table, column])) := by
  refine derives_test _ _ ?_
  intro rest _
  rw [List.cons_append, parseTest, if_neg (by decide), if_neg (by decide), if_pos rfl]
  rfl

def itemTokens (numbers : List Nat) : List Token :=
  (numbers.map Token.parameter).intersperse (.punctuation (byte ','))

theorem item_tokens_cons (number next : Nat) (numbers : List Nat) :
    itemTokens (number :: next :: numbers) =
      .parameter number :: .punctuation (byte ',') :: itemTokens (next :: numbers) := rfl

theorem parse_items {numbers : List Nat} (present : numbers ≠ []) (rest : List Token) (fuel : Nat)
    (enough : numbers.length ≤ fuel) :
    parseItems fuel (itemTokens numbers ++ .punctuation (byte ')') :: rest) =
      some (numbers.map Operand.parameter, rest) := by
  induction numbers generalizing fuel with
  | nil => exact absurd rfl present
  | cons number numbers ih =>
    obtain ⟨less, rfl, bound⟩ := fuel_successor enough
    cases numbers with
    | nil => rfl
    | cons next numbers =>
      have later := ih (List.cons_ne_nil _ _) less bound
      rw [item_tokens_cons, List.cons_append, List.cons_append, parseItems]
      simp only [parseOperand, Option.bind_eq_bind, Option.bind_some, punctuation, if_true, later]
      rfl

theorem item_tokens_length (numbers : List Nat) : numbers.length ≤ (itemTokens numbers).length := by
  rw [itemTokens, List.length_intersperse, List.length_map]
  omega

theorem derives_in {numbers : List Nat} (present : numbers ≠ []) :
    Derives .primary
      (columnTokens table column ++
        (.word (ascii "IN") :: .punctuation (byte '(') :: (itemTokens numbers ++ [.punctuation (byte ')')])))
      (.isIn (.column [table, column]) (numbers.map Operand.parameter)) := by
  refine derives_test _ _ ?_
  intro rest _
  have bound := item_tokens_length numbers
  have read := parse_items present rest (itemTokens numbers ++ .punctuation (byte ')') :: rest).length
    (by rw [List.length_append]; omega)
  rw [List.cons_append, List.cons_append, List.append_assoc, List.singleton_append, parseTest, if_neg (by decide),
    if_neg (by decide), if_neg (by decide), if_pos rfl]
  simp only [punctuation, if_true, Option.bind_eq_bind, Option.bind_some, read]
  rfl

end Leaves

end Sql

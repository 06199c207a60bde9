import Goforge.Lib.Sql.Truth

set_option autoImplicit false

namespace Sql

open GoString

inductive SetValue where
  | parameter (number : Nat)
  | default
  | currentTimestamp
  | plus (column : Bytes) (number : Nat)
deriving DecidableEq, Repr

-- UPDATE table SET sets WHERE condition RETURNING columns
structure UpdateStatement where
  table : Bytes
  sets : List (Bytes × SetValue)
  condition : Option Expr
  returning : List Operand
deriving DecidableEq, Repr

def parseSetValue : List Token → Option (SetValue × List Token)
  | .parameter number :: rest => some (.parameter number, rest)
  | .word text :: rest =>
    if text = ascii "DEFAULT" then some (.default, rest)
    else if text = ascii "CURRENT_TIMESTAMP" then some (.currentTimestamp, rest)
    else none
  | .quoted column :: .operator op :: .parameter number :: rest =>
    if op = ascii "+" then some (.plus column number, rest) else none
  | _ => none

def parseSet : List Token → Option ((Bytes × SetValue) × List Token)
  | .quoted column :: .operator op :: rest =>
    if op = ascii "=" then (parseSetValue rest).map (fun (value, rest) => ((column, value), rest)) else none
  | _ => none

def parseList {α : Type} (item : List Token → Option (α × List Token)) : Nat → List Token → Option (List α × List Token)
  | 0, _ => none
  | fuel + 1, tokens => do
      let (first, rest) ← item tokens
      match punctuation ',' rest with
      | some more => do
          let (others, rest) ← parseList item fuel more
          return (first :: others, rest)
      | none => return ([first], rest)

def parseWhere (tokens : List Token) : Option (Option Expr × List Token) :=
  match keyword "WHERE" tokens with
  | some rest => (parseCondition rest).map (fun (expr, rest) => (some expr, rest))
  | none => some (none, tokens)

def parseReturning (tokens : List Token) : Option (List Operand × List Token) :=
  match keyword "RETURNING" tokens with
  | some rest => parseList parseOperand rest.length rest
  | none => some ([], tokens)

def parseUpdate (tokens : List Token) : Option UpdateStatement := do
  let rest ← keyword "UPDATE" tokens
  let (table, rest) ← parseName rest
  let rest ← keyword "SET" rest
  let (sets, rest) ← parseList parseSet rest.length rest
  let (condition, rest) ← parseWhere rest
  let (returning, rest) ← parseReturning rest
  if rest = [] then return { table := table, sets := sets, condition := condition, returning := returning }
  else none

-- What a table does with the values it is given. Arithmetic on a column is done
-- in the type of the column; where there is no result the statement fails.
structure Storage (V : Type) where
  defaults : Bytes → Option V
  store : Bytes → Option V → Option (Option V)
  plus : Bytes → V → V → Option V
  accepts : (Bytes → Option V) → Bool

inductive UpdateOutcome (V : Type) where
  | failed
  | unmatched
  | updated (cells : Bytes → Option V)

section Execution

variable {V : Type} (values : Values V) (storage : Storage V) (now : V)

def rowOf (table : Bytes) (cells : Bytes → Option V) : Row V
  | [column] => cells column
  | [qualifier, column] => if qualifier = table then cells column else none
  | _ => none

def SetValue.value (row : Row V) (arguments : List (Option V)) (column : Bytes) : SetValue → Option (Option V)
  | .parameter number => storage.store column ((Operand.parameter number).value row arguments)
  | .default => storage.store column (storage.defaults column)
  | .currentTimestamp => storage.store column (some now)
  | .plus source number =>
    match row [source], (Operand.parameter number).value row arguments with
    | some left, some right => (storage.plus column left right).map some
    | _, _ => storage.store column none

def UpdateStatement.assigned (statement : UpdateStatement) (arguments : List (Option V)) (cells : Bytes → Option V) :
    Option (List (Bytes × Option V)) :=
  statement.sets.mapM (fun (column, value) =>
    (value.value storage now (rowOf statement.table cells) arguments column).map (fun result => (column, result)))

def UpdateStatement.matches (statement : UpdateStatement) (arguments : List (Option V)) (cells : Bytes → Option V) :
    Bool :=
  statement.condition.all (fun expr => expr.truth values (rowOf statement.table cells) arguments = some true)

def UpdateStatement.run (table : Bytes) (statement : UpdateStatement) (arguments : List (Option V))
    (cells : Bytes → Option V) : UpdateOutcome V :=
  if statement.table ≠ table then .failed
  else if !statement.matches values arguments cells then .unmatched
  else
    match statement.assigned storage now arguments cells with
    | none => .failed
    | some assigned =>
      let changed := fun column => (assigned.lookup column).getD (cells column)
      if storage.accepts changed then .updated changed else .failed

end Execution

def SetValue.tokens : SetValue → List Token
  | .parameter number => [.parameter number]
  | .default => [.word (ascii "DEFAULT")]
  | .currentTimestamp => [.word (ascii "CURRENT_TIMESTAMP")]
  | .plus column number => [.quoted column, .operator (ascii "+"), .parameter number]

def setTokens (set : Bytes × SetValue) : List Token := .quoted set.1 :: .operator (ascii "=") :: set.2.tokens

def separated (items : List (List Token)) : List Token := (items.intersperse [.punctuation (byte ',')]).flatten

theorem separated_cons (first second : List Token) (items : List (List Token)) :
    separated (first :: second :: items) = first ++ .punctuation (byte ',') :: separated (second :: items) := rfl

theorem parse_set (set : Bytes × SetValue) (rest : List Token) :
    parseSet (setTokens set ++ rest) = some (set, rest) := by
  obtain ⟨column, value⟩ := set
  cases value <;> rfl

theorem parse_list {α β : Type} {item : List Token → Option (β × List Token)} {write : α → List Token} (read : α → β)
    (back : ∀ value rest, item (write value ++ rest) = some (read value, rest)) {values : List α}
    (present : values ≠ []) (rest : List Token) (stops : punctuation ',' rest = none) (fuel : Nat)
    (enough : values.length ≤ fuel) :
    parseList item fuel (separated (values.map write) ++ rest) = some (values.map read, rest) := by
  induction values generalizing fuel with
  | nil => exact absurd rfl present
  | cons value values ih =>
    obtain ⟨less, rfl, bound⟩ := fuel_successor enough
    cases values with
    | nil =>
      have flat : separated ([value].map write) = write value := List.append_nil _
      rw [flat, parseList, back]
      simp only [Option.bind_eq_bind, Option.bind_some, stops]
      rfl
    | cons next values =>
      have later := ih (List.cons_ne_nil _ _) less bound
      rw [List.map_cons, List.map_cons, separated_cons, List.append_assoc, parseList, back]
      rw [List.map_cons] at later
      simp only [Option.bind_eq_bind, Option.bind_some, List.cons_append, punctuation, if_true, later]
      rfl

theorem separated_length {items : List (List Token)} (proper : ∀ item ∈ items, item ≠ []) :
    items.length ≤ (separated items).length := by
  induction items with
  | nil => exact Nat.zero_le _
  | cons first items ih =>
    obtain ⟨here, later⟩ := List.forall_mem_cons.mp proper
    have size : 0 < first.length := List.length_pos_iff.mpr here
    have rest := ih later
    cases items with
    | nil =>
      rw [show separated [first] = first from List.append_nil _]
      exact size
    | cons second items =>
      rw [separated_cons, List.length_append, List.length_cons]
      simp only [List.length_cons] at rest ⊢
      omega

theorem lexes_separated (items : List (Bytes × List Token)) (lexed : ∀ item ∈ items, Lexes item.1 item.2) :
    Lexes (join (ascii ", ") (items.map Prod.fst)) (separated (items.map Prod.snd)) := by
  induction items with
  | nil => exact lexes_nil
  | cons item items ih =>
    obtain ⟨here, later⟩ := List.forall_mem_cons.mp lexed
    rw [List.map_cons, List.map_cons, join_cons]
    cases items with
    | nil =>
      rw [List.map_nil, List.map_nil, if_pos rfl, List.append_nil, show separated [item.2] =
        item.2 from List.append_nil _]
      exact here
    | cons next items =>
      have comma := lexes_closed [byte ' '] (byte ',') [.punctuation (byte ',')] here (by decide) (by decide)
      have joined := closed_append _ _ comma (ih later)
      rw [List.map_cons, List.map_cons, List.append_assoc, List.append_assoc] at joined
      rw [List.map_cons, List.map_cons, if_neg (List.cons_ne_nil _ _), separated_cons]
      exact joined

def whereTokens : Option (List Token × Expr) → List Token
  | none => []
  | some (tokens, _) => .word (ascii "WHERE") :: tokens

theorem parse_where {condition : Option (List Token × Expr)} {rest : List Token}
    (derived : ∀ tokens expr, condition = some (tokens, expr) → Derives .disjunction tokens expr)
    (stops : Stops .disjunction rest) (plain : keyword "WHERE" rest = none) :
    parseWhere (whereTokens condition ++ rest) = some (condition.map Prod.snd, rest) := by
  cases condition with
  | none => rw [whereTokens, List.nil_append, parseWhere, plain]; rfl
  | some clause =>
    obtain ⟨tokens, expr⟩ := clause
    have read := parse_condition_derives (derived tokens expr rfl) stops
    rw [whereTokens, List.cons_append, parseWhere]
    simp only [keyword, if_true, read]
    rfl

theorem parse_update (table : Bytes) {sets : List (Bytes × SetValue)} {condition : Option (List Token × Expr)}
    (columns : List (Bytes × Bytes)) (someSets : sets ≠ []) (someColumns : columns ≠ [])
    (derived : ∀ tokens expr, condition = some (tokens, expr) → Derives .disjunction tokens expr) :
    parseUpdate (.word (ascii "UPDATE") :: .quoted table :: .word (ascii "SET") ::
        (separated (sets.map setTokens) ++ (whereTokens condition ++ .word (ascii "RETURNING") ::
          separated (columns.map (fun column => columnTokens column.1 column.2))))) =
      some { table := table, sets := sets, condition := condition.map Prod.snd,
             returning := columns.map (fun column => .column [column.1, column.2]) } := by
  have sized : ∀ (items : List (List Token)) (rest : List Token), (∀ item ∈ items, item ≠ []) →
      items.length ≤ (separated items ++ rest).length := by
    intro items rest proper
    have bound := separated_length proper
    rw [List.length_append]
    omega
  have columnsRead : parseReturning (.word (ascii "RETURNING") ::
      separated (columns.map (fun column => columnTokens column.1 column.2))) =
      some (columns.map (fun column => .column [column.1, column.2]), []) := by
    have read := parse_list _ (fun column rest => parse_column column.1 column.2 rest) someColumns [] rfl
      (separated (columns.map (fun column => columnTokens column.1 column.2))).length (by
        have bound := sized (columns.map (fun column => columnTokens column.1 column.2)) [] (by
          intro item member
          obtain ⟨column, _, rfl⟩ := List.mem_map.mp member
          exact List.cons_ne_nil _ _)
        rwa [List.length_map, List.append_nil] at bound)
    rw [List.append_nil] at read
    exact read
  have commaless : ∀ rest, punctuation ',' (whereTokens condition ++ .word (ascii "RETURNING") :: rest) = none := by
    intro rest
    cases condition <;> rfl
  have setsRead := fun rest stops => parse_list id parse_set someSets rest stops
    (separated (sets.map setTokens) ++ rest).length (by
      have bound := sized (sets.map setTokens) rest (by
        intro item member
        obtain ⟨set, _, rfl⟩ := List.mem_map.mp member
        exact List.cons_ne_nil _ _)
      rwa [List.length_map] at bound)
  have start : Stops .disjunction (.word (ascii "RETURNING") ::
      separated (columns.map (fun column => columnTokens column.1 column.2))) :=
    ⟨keyword_other (by decide), fun _ => keyword_other (by decide), fun _ => keyword_other (by decide)⟩
  rw [parseUpdate]
  simp only [keyword, parseName, if_true, Option.bind_eq_bind, Option.bind_some, setsRead _ (commaless _),
    parse_where derived start (keyword_other (by decide)), columnsRead, List.map_id]
  rfl

end Sql

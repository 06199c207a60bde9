import Goforge.Orm.Condition

set_option autoImplicit false

namespace Goforge.Orm

open GoString Sql

section

variable {α V : Type} (driver : Driver α V)

def Reads (level : Level) (args leaves : List (Arg α)) (truth : Row V → Truth) (text : Bytes) : Prop :=
  ∃ tokens expr, Lexes text tokens ∧ Derives level tokens expr ∧
    parameters tokens = List.range' (args.length + 1) leaves.length ∧
    ∀ later row, expr.truth driver.values row ((args ++ leaves ++ later).map driver.encode) = truth row

theorem bound_value (args : List (Arg α)) (value : Arg α) (later : List (Arg α)) (row : Row V) :
    (Operand.parameter (args.length + 1)).value row ((args ++ [value] ++ later).map driver.encode) =
      driver.encode value := by
  simp [Operand.value]

theorem bound_values (args leaves later : List (Arg α)) (row : Row V) :
    ((List.range' (args.length + 1) leaves.length).map Operand.parameter).map
        (fun item => item.value row ((args ++ leaves ++ later).map driver.encode)) = leaves.map driver.encode := by
  induction leaves generalizing args with
  | nil => rfl
  | cons value leaves ih =>
    have next := ih (args ++ [value])
    rw [List.length_append, List.length_singleton] at next
    rw [List.length_cons, List.range'_succ, List.map_cons, List.map_cons, List.map_cons]
    have split : args ++ value :: leaves ++ later = args ++ [value] ++ leaves ++ later := by simp
    rw [split, next]
    congr 1
    rw [List.append_assoc, bound_value]

theorem placeholder_lexes (args : List (Arg α)) (value : Arg α) :
    Lexes (sqlBind args value).1 [.parameter (args.length + 1)] := lexes_parameter _

theorem qualified_lexes (table column : Identifier) :
    Lexes (table.quoted ++ ascii "." ++ column.quoted) (columnTokens table.name column.name) := by
  rw [List.append_assoc]
  refine lexes_append column.quoted (byte '.') [.punctuation (byte '.'), .quoted column.name]
    (lexes_quoted (identifier_unquoted table)) ?_ (by decide)
  exact closed_append [byte '.'] [.punctuation (byte '.')] (by decide) (lexes_quoted (identifier_unquoted column))

def placeholder (number : Nat) : Bytes := byte '$' :: decimal number

theorem placeholders_lex (numbers : List Nat) :
    Lexes (join (ascii ", ") (numbers.map placeholder)) (itemTokens numbers) := by
  induction numbers with
  | nil => exact lexes_nil
  | cons number numbers ih =>
    have first := lexes_parameter number
    rw [List.map_cons, join_cons]
    cases numbers with
    | nil =>
      rw [List.map_nil, if_pos rfl, List.append_nil]
      exact first
    | cons next numbers =>
      have comma := lexes_closed [byte ' '] (byte ',') [.punctuation (byte ',')] first (by decide) (by decide)
      have joined := closed_append _ _ comma ih
      rw [List.map_cons, List.append_assoc, List.append_assoc] at joined
      rw [List.map_cons, if_neg (List.cons_ne_nil _ _), item_tokens_cons]
      exact joined

theorem bind_all_ok (values args : List (Arg α)) (present : ∀ value ∈ values, isNilValue value = false) :
    bindAll values args =
      .ok ((List.range' (args.length + 1) values.length).map placeholder, args ++ values) := by
  induction values generalizing args with
  | nil => rw [bindAll, List.append_nil]; rfl
  | cons value values ih =>
    obtain ⟨here, later⟩ := List.forall_mem_cons.mp present
    have bound := ih (args ++ [value]) later
    rw [List.length_append, List.length_singleton] at bound
    simp only [bindAll, here, sqlBind, bound, bind, Except.bind]
    simp [pure, Except.pure, List.range'_succ, placeholder]

theorem bind_all_error {values : List (Arg α)} (args : List (Arg α))
    (absent : ¬ ∀ value ∈ values, isNilValue value = false) : ∃ err, bindAll values args = .error err := by
  induction values generalizing args with
  | nil => exact absurd (List.forall_mem_nil _) absent
  | cons value values ih =>
    rw [bindAll]
    by_cases here : isNilValue value = true
    · exact ⟨_, if_pos here⟩
    · rw [Bool.not_eq_true] at here
      obtain ⟨err, failed⟩ := ih (args ++ [value]) (fun later => absent (List.forall_mem_cons.mpr ⟨here, later⟩))
      refine ⟨err, ?_⟩
      simp only [here, sqlBind, failed, bind, Except.bind]
      rfl

theorem parameters_items (numbers : List Nat) : parameters (itemTokens numbers) = numbers := by
  induction numbers with
  | nil => rfl
  | cons number numbers ih =>
    cases numbers with
    | nil => rfl
    | cons next numbers =>
      rw [item_tokens_cons]
      show number :: parameters (itemTokens (next :: numbers)) = _
      rw [ih]

theorem parameters_column (table column : Bytes) (tokens : List Token) :
    parameters (columnTokens table column ++ tokens) = parameters tokens := by
  rw [parameters_append]
  rfl

theorem reads_test (table column : Identifier) (args leaves : List (Arg α)) {truth : Row V → Truth} (rest : Bytes)
    (tokens : List Token) {expr : Expr} (lexed : Lexes (byte ' ' :: rest) tokens)
    (derived : Derives .primary (columnTokens table.name column.name ++ tokens) expr)
    (numbered : parameters tokens = List.range' (args.length + 1) leaves.length)
    (evaluated : ∀ later row, expr.truth driver.values row ((args ++ leaves ++ later).map driver.encode) = truth row) :
    Reads driver .negation args leaves truth (table.quoted ++ ascii "." ++ column.quoted ++ byte ' ' :: rest) :=
  ⟨columnTokens table.name column.name ++ tokens, expr,
    lexes_append rest (byte ' ') tokens (qualified_lexes table column) lexed (by decide),
    derives_negation derived (fun _ => rfl), by rw [parameters_column, numbered], evaluated⟩

theorem reads_in (table column : Identifier) (args values : List (Arg α)) (present : values ≠ []) :
    Reads driver .negation args values
      (fun row => inTruth driver.values (row [table.name, column.name]) (values.map driver.encode))
      (table.quoted ++ ascii "." ++ column.quoted ++ ascii " IN (" ++
        join (ascii ", ") ((List.range' (args.length + 1) values.length).map placeholder) ++ ascii ")") := by
  have some_ : List.range' (args.length + 1) values.length ≠ [] := by
    rw [Ne, List.range'_eq_nil_iff, List.length_eq_zero_iff]
    exact present
  have lexed := placeholders_lex (List.range' (args.length + 1) values.length)
  have closing := lexes_append [] (byte ')') [.punctuation (byte ')')] lexed (by decide) (by decide)
  have inner := closed_append (ascii " IN (") [.word (ascii "IN"), .punctuation (byte '(')] (by decide) closing
  rw [List.append_assoc, List.append_assoc _ (ascii " IN (")]
  refine reads_test driver table column args values _ _ inner (derives_in _ _ some_) ?_ ?_
  · show parameters (itemTokens _ ++ [.punctuation (byte ')')]) = _
    rw [parameters_append, parameters_items]
    exact List.append_nil _
  · intro later row
    rw [Expr.truth, bound_values]
    rfl

variable {fields : Fields α}

theorem check_table_ok {table : Identifier} {identity : Option Nat}
    (belongs : fields.table = table ∧ fields.identity = identity ∧ table.name ≠ [] ∧ identity ≠ none) :
    fields.checkTable table identity = .ok () := by
  obtain ⟨rfl, rfl, named, marked⟩ := belongs
  simp [Fields.checkTable, named, marked]

theorem check_table_error {table : Identifier} {identity : Option Nat}
    (other : ¬ (fields.table = table ∧ fields.identity = identity ∧ table.name ≠ [] ∧ identity ≠ none)) :
    ∃ err, fields.checkTable table identity = .error err := by
  rw [Fields.checkTable]
  split
  · exact ⟨_, rfl⟩
  · rename_i proper
    simp only [not_or] at proper
    refine ⟨_, if_pos ?_⟩
    by_contra same
    simp only [not_or, not_not] at same
    exact other ⟨same.1, same.2, proper.1, proper.2.2.1⟩

theorem check_table_congr {first second : Fields α} (table : Identifier) (identity : Option Nat)
    (tables : first.table = second.table) (identities : first.identity = second.identity) :
    first.checkTable table identity = second.checkTable table identity := by
  rw [Fields.checkTable, Fields.checkTable, tables, identities]

def PredicateKind.isLeaf : PredicateKind → Bool
  | .and | .or | .not => false
  | _ => true

theorem compile_leaf (children : List (Predicate α)) {table : Identifier} {identity : Option Nat} (args : List (Arg α))
    (leaf : fields.kind.isLeaf = true) (checked : fields.checkTable table identity = .ok ()) :
    (Predicate.mk fields children).compile table identity args = fields.compileLeaf args := by
  obtain ⟨_, _, _, kind, _, _, _⟩ := fields
  rw [Predicate.compile.eq_def]
  dsimp only
  rw [checked]
  cases kind <;> first | rfl | cases leaf

theorem compile_unchecked (children : List (Predicate α)) {table : Identifier} {identity : Option Nat}
    (args : List (Arg α)) (err : Bytes) (failed : fields.checkTable table identity = .error err) :
    (Predicate.mk fields children).compile table identity args = .error err := by
  rw [Predicate.compile.eq_def]
  dsimp only
  rw [failed]
  rfl

structure Sound (table : Identifier) (identity : Option Nat) (condition : Condition α) : Prop where
  checked : condition.WellFormed table identity → condition.predicate.fields.checkTable table identity = .ok ()
  compiles : condition.WellFormed table identity → ∀ args, ∃ text,
    condition.predicate.compile table identity args = .ok (text, args ++ condition.leaves) ∧
      Reads driver .negation args condition.leaves (condition.truth driver) text
  fails : ¬ condition.WellFormed table identity → ∀ args, ∃ err,
    condition.predicate.compile table identity args = .error err

section Leaves

variable (table : Identifier) (identity : Option Nat)

theorem leaf_sound {condition : Condition α} (column : Column) {fields : Fields α} (proper : Prop)
    (shape : condition.predicate = .mk fields []) (leaf : fields.kind.isLeaf = true)
    (tables : fields.table = column.table) (identities : fields.identity = column.identity)
    (formed : condition.WellFormed table identity ↔ column.belongsTo table identity ∧ proper)
    (compiles : proper → ∀ args, ∃ text, fields.compileLeaf args = .ok (text, args ++ condition.leaves) ∧
      Reads driver .negation args condition.leaves (condition.truth driver) text)
    (fails : ¬ proper → ∀ args, ∃ err, fields.compileLeaf args = .error err) :
    Sound driver table identity condition := by
  have passes : column.belongsTo table identity → fields.checkTable table identity = .ok () := by
    intro belongs
    refine check_table_ok ?_
    rw [tables, identities]
    exact belongs
  constructor
  · intro well
    rw [shape]
    exact passes (formed.mp well).1
  · intro well args
    rw [shape, compile_leaf [] args leaf (passes (formed.mp well).1)]
    exact compiles (formed.mp well).2 args
  · intro ill args
    rw [shape]
    by_cases belongs : column.belongsTo table identity
    · rw [compile_leaf [] args leaf (passes belongs)]
      exact fails (fun holds => ill (formed.mpr ⟨belongs, holds⟩)) args
    · rw [Column.belongsTo, ← tables, ← identities] at belongs
      obtain ⟨err, failed⟩ := check_table_error belongs
      exact ⟨err, compile_unchecked [] args err failed⟩

theorem compare_leaf_ok {fields : Fields α} (value : Arg α) (args : List (Arg α)) (kind : fields.kind = .compare)
    (bound : fields.args = [value]) (present : isNilValue value = false) :
    fields.compileLeaf args = .ok
      (fields.table.quoted ++ ascii "." ++ fields.column.quoted ++
        byte ' ' :: (fields.op ++ byte ' ' :: (sqlBind args value).1), args ++ [value]) := by
  rw [Fields.compileLeaf]
  simp only [kind, bound, present]
  simp [sqlBind, ascii]

theorem operator_lexes (op : Bytes) {text : Bytes} {token : Token} {tokens : List Token}
    (start : Lexes (byte ' ' :: op) [token]) (lexed : Lexes text tokens) :
    Lexes (byte ' ' :: (op ++ byte ' ' :: text)) (token :: tokens) := by
  have spaced : Closed (byte ' ' :: op ++ [byte ' ']) ([token] ++ []) :=
    lexes_closed [] (byte ' ') [] start (by decide) (by decide)
  have joined := closed_append _ _ spaced lexed
  simpa using joined

theorem compare_sound (op : Comparison) (column : Column) (value : Arg α) :
    Sound driver table identity (.compare op column value) := by
  have shape : ∃ text, comparisonOf text = some op ∧ Lexes (byte ' ' :: text) [.operator text] ∧
      comparePredicate op column value = column.compare text value := by
    cases op
    · exact ⟨ascii "=", by decide, by decide, rfl⟩
    · exact ⟨ascii "<>", by decide, by decide, rfl⟩
    · exact ⟨ascii "<", by decide, by decide, rfl⟩
    · exact ⟨ascii "<=", by decide, by decide, rfl⟩
    · exact ⟨ascii ">", by decide, by decide, rfl⟩
    · exact ⟨ascii ">=", by decide, by decide, rfl⟩
  obtain ⟨text, named, lexed, same⟩ := shape
  refine leaf_sound driver table identity column (isNilValue value = false) (by rw [Condition.predicate]; exact same)
    rfl rfl rfl (by rw [Condition.WellFormed]) ?_ ?_
  · intro present args
    refine ⟨_, compare_leaf_ok value args rfl rfl present, ?_⟩
    refine reads_test driver column.table column.name args [value] _ [.operator text, .parameter (args.length + 1)]
      (operator_lexes _ lexed (placeholder_lexes args value)) (derives_compare _ _ named) rfl ?_
    intro later row
    rw [Expr.truth, bound_value, Condition.truth]
    rfl
  · intro absent args
    rw [Bool.not_eq_false] at absent
    refine ⟨ascii "orm: comparison value is nil; use IsNull or IsNotNull", ?_⟩
    simp only [Fields.compileLeaf, absent, if_true]

variable (column : Column)

theorem like_sound (pattern : Bytes) : Sound driver table identity (.like column pattern) := by
  refine leaf_sound driver table identity column True (by rw [Condition.predicate]; rfl) rfl rfl rfl
    (by rw [Condition.WellFormed, and_true]) ?_ (fun impossible => absurd trivial impossible)
  intro _ args
  refine ⟨_, compare_leaf_ok (.text pattern) args rfl rfl rfl, ?_⟩
  refine reads_test driver column.table column.name args [.text pattern] _
    [.word (ascii "LIKE"), .parameter (args.length + 1)]
    (operator_lexes (ascii "LIKE") (by decide) (placeholder_lexes args (.text pattern))) (derives_like _ _) rfl ?_
  intro later row
  rw [Expr.truth, bound_value, Condition.truth]
  rfl

theorem null_sound : Sound driver table identity (.isNull column) := by
  refine leaf_sound driver table identity column True (by rw [Condition.predicate]; rfl) rfl rfl rfl
    (by rw [Condition.WellFormed, and_true]) ?_ (fun impossible => absurd trivial impossible)
  intro _ args
  refine ⟨_, by rw [Condition.leaves, List.append_nil]; rfl, ?_⟩
  rw [List.append_assoc]
  refine reads_test driver column.table column.name args [] (ascii "IS NULL")
    [.word (ascii "IS"), .word (ascii "NULL")] (by decide) (derives_is_null _ _) rfl ?_
  intro later row
  rw [Condition.truth]
  rfl

theorem not_null_sound : Sound driver table identity (.isNotNull column) := by
  refine leaf_sound driver table identity column True (by rw [Condition.predicate]; rfl) rfl rfl rfl
    (by rw [Condition.WellFormed, and_true]) ?_ (fun impossible => absurd trivial impossible)
  intro _ args
  refine ⟨_, by rw [Condition.leaves, List.append_nil]; rfl, ?_⟩
  rw [List.append_assoc]
  refine reads_test driver column.table column.name args [] (ascii "IS NOT NULL")
    [.word (ascii "IS"), .word (ascii "NOT"), .word (ascii "NULL")] (by decide) (derives_is_not_null _ _) rfl ?_
  intro later row
  rw [Condition.truth]
  rfl

variable (literal : Bytes)

theorem escaper_bytes : containsFoldEscaper literal = literal.flatMap escapeByte := by
  rw [containsFoldEscaper]
  congr 1
  funext b
  by_cases bang : b = byte '!'
  · subst bang
    decide
  by_cases percent : b = byte '%'
  · subst percent
    decide
  by_cases line : b = byte '_'
  · subst line
    decide
  have plain : isSpecial b.toNat = false := by
    simp only [isSpecial, Bool.or_eq_false_iff, decide_eq_false_iff_not]
    exact ⟨⟨fun same => bang (UInt8.toNat_inj.mp same), fun same => percent (UInt8.toNat_inj.mp same)⟩,
      fun same => line (UInt8.toNat_inj.mp same)⟩
  rw [if_neg bang, if_neg percent, if_neg line, escapeByte, plain]
  rfl

theorem contains_fold_pattern :
    ascii "%" ++ containsFoldEscaper literal ++ ascii "%" = containsPattern literal := by
  rw [escaper_bytes, containsPattern]
  rfl

theorem contains_fold_sound : Sound driver table identity (.containsFold column literal) := by
  refine leaf_sound driver table identity column True (by rw [Condition.predicate]; rfl) rfl rfl rfl
    (by rw [Condition.WellFormed, and_true]) ?_ (fun impossible => absurd trivial impossible)
  intro _ args
  refine ⟨column.table.quoted ++ ascii "." ++ column.name.quoted ++
    byte ' ' ::
      (ascii "ILIKE" ++ byte ' ' :: ((sqlBind args (.text (containsPattern literal))).1 ++ ascii " ESCAPE '!'")),
    ?_, ?_⟩
  · simp only [Fields.compileLeaf, contains_fold_pattern, Condition.leaves]
    simp [sqlBind, ascii]
  · have placeholder := placeholder_lexes args (.text (containsPattern literal))
    have escaped : Lexes (ascii " ESCAPE '!'") [.word (ascii "ESCAPE"), .literal [byte '!']] := by decide
    refine reads_test driver column.table column.name args [.text (containsPattern literal)] _
      [.word (ascii "ILIKE"), .parameter (args.length + 1), .word (ascii "ESCAPE"), .literal [byte '!']]
      (operator_lexes (ascii "ILIKE") (by decide)
        (lexes_append _ (byte ' ') _ placeholder escaped (by decide)))
      (derives_ilike _ _) rfl ?_
    intro later row
    obtain ⟨value, encoded, characters⟩ := driver.encode_text (containsPattern literal)
    rw [Expr.truth, bound_value, Condition.truth, encoded, Operand.value,
      show row [column.table.name, column.name.name] = column.value row from rfl]
    cases column.value row with
    | none => rfl
    | some text =>
      have read := read_contains_pattern literal
      rw [strict, likeTruth, characters, show (byte '!').toNat = '!'.toNat from by decide, read, Option.map_some,
        Option.map_some, match_contains]
      rfl

theorem in_sound (values : List (Arg α)) : Sound driver table identity (.isIn column values) := by
  cases values with
  | nil =>
    refine leaf_sound driver table identity column True (by rw [Condition.predicate]; rfl) rfl rfl rfl
      (by simp [Condition.WellFormed]) ?_ (fun impossible => absurd trivial impossible)
    intro _ args
    refine ⟨ascii "FALSE", by rw [Condition.leaves, List.append_nil]; rfl, [.word (ascii "FALSE")], .constant false,
      by decide, derives_negation (derives_constant false) (fun _ => rfl), rfl, ?_⟩
    intro later row
    show some false = Condition.truth driver row (.isIn column [])
    rw [Condition.truth]
    rfl
  | cons first values =>
    refine leaf_sound driver table identity column (∀ value ∈ first :: values, isNilValue value = false)
      (by rw [Condition.predicate]; rfl) rfl rfl rfl (by rw [Condition.WellFormed]) ?_ ?_
    · intro present args
      refine ⟨_, ?_, reads_in driver column.table column.name args (first :: values) (List.cons_ne_nil _ _)⟩
      simp only [Fields.compileLeaf, bind_all_ok (first :: values) args present, bind, Except.bind, Condition.leaves]
      rfl
    · intro absent args
      obtain ⟨err, failed⟩ := bind_all_error args absent
      exact ⟨err, by simp only [Fields.compileLeaf, failed, bind, Except.bind]⟩

end Leaves

section Groups

variable (table : Identifier) (identity : Option Nat)

def Connective.text (connective : Connective) : Bytes := byte ' ' :: (connective.word ++ [byte ' '])

variable (condition : Condition α) (connective : Connective) (kind : PredicateKind)
    (parts conditions : List (Condition α)) (args leaves : List (Arg α)) (truth : Row V → Truth) (text : Bytes)

theorem reads_level (reads : Reads driver .negation args leaves truth text) :
    Reads driver connective.level args leaves truth text := by
  obtain ⟨tokens, expr, lexed, derived, numbered, evaluated⟩ := reads
  exact ⟨tokens, expr, lexed, connective.single tokens expr derived, numbered, evaluated⟩

theorem reads_chain {connective : Connective} {args leaves more : List (Arg α)} {left right : Row V → Truth}
    {text rest : Bytes} (first : Reads driver .negation args leaves left text)
    (second : Reads driver connective.level (args ++ leaves) more right rest) :
    Reads driver connective.level args (leaves ++ more) (fun row => connective.op (left row) (right row))
      (text ++ (Connective.text connective ++ rest)) := by
  obtain ⟨tokens, expr, lexed, derived, numbered, evaluated⟩ := first
  obtain ⟨others, other, relexed, rederived, renumbered, reevaluated⟩ := second
  refine ⟨tokens ++ .word connective.word :: others, connective.combine expr other, ?_,
    connective.chain _ _ _ _ derived rederived, ?_, ?_⟩
  · have closed := lexes_closed _ (byte ' ') _ lexed connective.separator (by decide)
    have joined := closed_append _ _ closed relexed
    simpa [Connective.text] using joined
  · rw [parameters_append, numbered, show parameters (.word connective.word :: others) = parameters others from rfl,
      renumbered, List.length_append, List.length_append, ← List.range'_append, Nat.one_mul, Nat.add_right_comm]
  · intro later row
    have here := evaluated (more ++ later) row
    have there := reevaluated later row
    simp only [List.append_assoc] at here there
    rw [connective.combined]
    simp only [List.append_assoc, here, there]

theorem reads_parentheses (reads : Reads driver connective.level args leaves truth text) :
    Reads driver .negation args leaves truth (ascii "(" ++ text ++ ascii ")") := by
  obtain ⟨tokens, expr, lexed, derived, numbered, evaluated⟩ := reads
  refine ⟨_, expr, ?_, derives_negation (derives_group (connective.whole tokens expr derived))
    (fun _ => rfl), ?_, evaluated⟩
  · have closing := lexes_append [] (byte ')') [.punctuation (byte ')')] lexed (by decide) (by decide)
    have inner := closed_append [byte '('] [.punctuation (byte '(')] (by decide) closing
    simpa [ascii] using inner
  · show parameters (tokens ++ [.punctuation (byte ')')]) = _
    rw [parameters_append, numbered]
    exact List.append_nil _

theorem reads_not (reads : Reads driver .negation args leaves truth text) :
    Reads driver .negation args leaves (fun row => negate (truth row)) (ascii "NOT (" ++ text ++ ascii ")") := by
  obtain ⟨tokens, expr, lexed, derived, numbered, evaluated⟩ :=
    reads_parentheses driver .or args leaves truth text (reads_level driver .or args leaves truth text reads)
  refine ⟨.word (ascii "NOT") :: tokens, .not expr, ?_, derives_not derived, numbered, ?_⟩
  · have joined := closed_append (ascii "NOT ") [.word (ascii "NOT")] (by decide) lexed
    simpa [ascii] using joined
  · intro later row
    rw [Expr.truth, evaluated]

structure Part (α V : Type) where
  text : Bytes
  leaves : List (Arg α)
  truth : Row V → Truth

def ReadsParts (args : List (Arg α)) : List (Part α V) → Prop
  | [] => True
  | part :: parts => Reads driver .negation args part.leaves part.truth part.text ∧
    ReadsParts (args ++ part.leaves) parts

theorem reads_parts (parts : List (Part α V)) (present : parts ≠ []) (reads : ReadsParts driver args parts) :
    Reads driver connective.level args (parts.flatMap Part.leaves)
      (fun row => (parts.map (fun part => part.truth row)).foldr connective.op connective.unit)
      (join (Connective.text connective) (parts.map Part.text)) := by
  induction parts generalizing args with
  | nil => exact absurd rfl present
  | cons part parts ih =>
    rw [List.map_cons, join_cons, List.flatMap_cons]
    cases parts with
    | nil =>
      simp only [List.map_cons, List.map_nil, List.flatMap_nil, List.append_nil, List.foldr_cons, List.foldr_nil,
        connective.neutral, if_true]
      exact reads_level driver connective args _ _ part.text reads.1
    | cons next parts =>
      rw [if_neg (by rw [List.map_cons]; exact List.cons_ne_nil _ _)]
      exact reads_chain _ reads.1 (ih (args ++ part.leaves) (List.cons_ne_nil _ _) reads.2)

theorem all_parts (sound : ∀ condition ∈ conditions, Sound driver table identity condition)
    (formed : AllWellFormed table identity conditions) :
    ∃ parts : List (Part α V), compileAll table identity (predicates conditions) args =
        .ok (parts.map Part.text, args ++ allLeaves conditions) ∧ ReadsParts driver args parts ∧
      parts.flatMap Part.leaves = allLeaves conditions ∧
      (∀ row, parts.map (fun part => part.truth row) = truths driver row conditions) ∧
      parts.length = conditions.length := by
  induction conditions generalizing args with
  | nil => exact ⟨[], by rw [allLeaves, List.append_nil]; rfl, trivial, rfl, fun _ => rfl, rfl⟩
  | cons condition conditions ih =>
    obtain ⟨here, later⟩ := List.forall_mem_cons.mp sound
    rw [AllWellFormed] at formed
    obtain ⟨text, compiled, reads⟩ := here.compiles formed.1 args
    obtain ⟨parts, others, more, leaves, meanings, length⟩ := ih (args ++ condition.leaves) later formed.2
    refine ⟨{ text := text, leaves := condition.leaves, truth := condition.truth driver } :: parts, ?_, ⟨reads, more⟩,
      ?_, ?_, ?_⟩
    · simp only [predicates, compileAll, compiled, bind, Except.bind, others, allLeaves, List.append_assoc]
      rfl
    · rw [List.flatMap_cons, leaves, allLeaves]
    · intro row
      rw [List.map_cons, meanings, truths]
    · rw [List.length_cons, length, List.length_cons]

theorem all_compile (sound : ∀ condition ∈ conditions, Sound driver table identity condition)
    (formed : AllWellFormed table identity conditions) (present : conditions ≠ []) :
    ∃ texts, compileAll table identity (predicates conditions) args = .ok (texts, args ++ allLeaves conditions) ∧
      Reads driver connective.level args (allLeaves conditions)
        (fun row => (truths driver row conditions).foldr connective.op connective.unit)
        (join (Connective.text connective) texts) := by
  obtain ⟨parts, compiled, reads, leaves, meanings, length⟩ :=
    all_parts driver table identity conditions args sound formed
  have some_ : parts ≠ [] := by
    rintro rfl
    exact present (List.length_eq_zero_iff.mp length.symm)
  have joined := reads_parts driver connective args parts some_ reads
  simp only [meanings, leaves] at joined
  exact ⟨_, compiled, joined⟩

theorem all_fail (sound : ∀ part ∈ parts, Sound driver table identity part)
    (ill : ¬ AllWellFormed table identity parts) :
    ∃ err, compileAll table identity (predicates parts) args = .error err := by
  induction parts generalizing args with
  | nil => exact absurd trivial ill
  | cons part parts ih =>
    obtain ⟨here, later⟩ := List.forall_mem_cons.mp sound
    rw [predicates, compileAll]
    by_cases well : part.WellFormed table identity
    · obtain ⟨text, compiled, _⟩ := here.compiles well args
      obtain ⟨err, failed⟩ := ih (args ++ part.leaves) later (fun others => ill ⟨well, others⟩)
      exact ⟨err, by simp only [compiled, bind, Except.bind, failed]⟩
    · obtain ⟨err, failed⟩ := here.fails well args
      exact ⟨err, by simp only [failed, bind, Except.bind]⟩

theorem compile_group {fields : Fields α} (children : List (Predicate α)) (args : List (Arg α))
    (group : fields.kind = .and ∨ fields.kind = .or) (present : children ≠ [])
    (checked : fields.checkTable table identity = .ok ()) :
    (Predicate.mk fields children).compile table identity args =
      (compileAll table identity children args).map (fun compiled =>
        (ascii "(" ++ join (groupSeparator fields.kind) compiled.1 ++ ascii ")", compiled.2)) := by
  have nonempty : children.isEmpty = false := by simpa using present
  obtain ⟨_, _, _, kind, _, _, _⟩ := fields
  rw [Predicate.compile.eq_def]
  dsimp only
  rw [checked]
  rcases group with rfl | rfl
  all_goals
    simp only [bind, Except.bind, nonempty]
    cases compileAll table identity children args <;> rfl

theorem compile_grouped {children : List (Predicate α)} (args : List (Arg α)) (group : kind = .and ∨ kind = .or)
    (present : children ≠ []) (checked : (groupedPredicate kind children).fields.checkTable table identity = .ok ()) :
    (groupedPredicate kind children).compile table identity args =
      (compileAll table identity children args).map (fun compiled =>
        (ascii "(" ++ join (groupSeparator kind) compiled.1 ++ ascii ")", compiled.2)) :=
  compile_group table identity children args group present checked

theorem compile_not {fields : Fields α} (child : Predicate α) (args : List (Arg α)) (kind : fields.kind = .not)
    (checked : fields.checkTable table identity = .ok ()) :
    (Predicate.mk fields [child]).compile table identity args =
      (child.compile table identity args).map (fun compiled =>
        (ascii "NOT (" ++ compiled.1 ++ ascii ")", compiled.2)) := by
  rw [Predicate.compile.eq_def]
  dsimp only
  rw [checked, kind]
  simp only [bind, Except.bind]
  cases child.compile table identity args <;> rfl

theorem group_checked (part : Condition α) (parts : List (Condition α)) :
    (groupedPredicate kind (predicates (part :: parts))).fields.checkTable table identity =
      part.predicate.fields.checkTable table identity := by
  rw [predicates]
  exact check_table_congr table identity rfl rfl

theorem group_sound (group : kind = .and ∨ kind = .or)
    (separator : groupSeparator kind = Connective.text connective) {condition : Condition α}
    (parts : List (Condition α)) (sound : ∀ part ∈ parts, Sound driver table identity part)
    (shape : condition.predicate = groupedPredicate kind (predicates parts))
    (formed : condition.WellFormed table identity ↔ parts ≠ [] ∧ AllWellFormed table identity parts)
    (leaves : condition.leaves = allLeaves parts)
    (truth : condition.truth driver = fun row => (truths driver row parts).foldr connective.op connective.unit) :
    Sound driver table identity condition := by
  have checked : condition.WellFormed table identity →
      (groupedPredicate kind (predicates parts)).fields.checkTable table identity = .ok () := by
    intro well
    obtain ⟨present, all⟩ := formed.mp well
    cases parts with
    | nil => exact absurd rfl present
    | cons part parts =>
      rw [group_checked]
      exact (sound part List.mem_cons_self).checked all.1
  constructor
  · intro well
    rw [shape]
    exact checked well
  · intro well args
    obtain ⟨present, all⟩ := formed.mp well
    obtain ⟨texts, compiled, reads⟩ := all_compile driver table identity connective parts args sound all present
    have some_ : predicates parts ≠ [] := by
      cases parts with
      | nil => exact absurd rfl present
      | cons part parts => exact List.cons_ne_nil _ _
    refine ⟨ascii "(" ++ join (Connective.text connective) texts ++ ascii ")", ?_, ?_⟩
    · rw [shape, compile_grouped table identity kind args group some_ (checked well), compiled, leaves, separator]
      rfl
    · rw [leaves, truth]
      exact reads_parentheses driver connective args _ _ _ reads
  · intro ill args
    rw [shape]
    cases parts with
    | nil =>
      exact ⟨_, compile_unchecked _ args (ascii "orm: invalid predicate") (by
        simp [Fields.checkTable, predicates, Identifier.zero])⟩
    | cons part parts =>
      have ill : ¬ AllWellFormed table identity (part :: parts) :=
        fun all => ill (formed.mpr ⟨List.cons_ne_nil _ _, all⟩)
      cases check : (groupedPredicate kind (predicates (part :: parts))).fields.checkTable table identity with
      | error err => exact ⟨err, compile_unchecked _ args err check⟩
      | ok _ =>
        obtain ⟨err, failed⟩ := all_fail driver table identity (part :: parts) args sound ill
        refine ⟨err, ?_⟩
        rw [compile_grouped table identity kind args group (by rw [predicates]; exact List.cons_ne_nil _ _) check,
          failed]
        rfl

theorem not_sound {inner : Condition α} (sound : Sound driver table identity inner) :
    Sound driver table identity (.not inner) := by
  have checked : (Condition.not inner).predicate.fields.checkTable table identity =
      inner.predicate.fields.checkTable table identity := by
    rw [Condition.predicate]
    exact check_table_congr table identity rfl rfl
  have compiled : ∀ args, inner.predicate.fields.checkTable table identity = .ok () →
      (Condition.not inner).predicate.compile table identity args =
        (inner.predicate.compile table identity args).map (fun compiled =>
          (ascii "NOT (" ++ compiled.1 ++ ascii ")", compiled.2)) := by
    intro args passes
    rw [← checked, Condition.predicate] at passes
    rw [Condition.predicate]
    exact compile_not table identity inner.predicate args rfl passes
  have formed : (Condition.not inner).WellFormed table identity ↔ inner.WellFormed table identity := by
    rw [Condition.WellFormed]
  constructor
  · intro well
    rw [checked]
    exact sound.checked (formed.mp well)
  · intro well args
    obtain ⟨text, done, reads⟩ := sound.compiles (formed.mp well) args
    refine ⟨ascii "NOT (" ++ text ++ ascii ")", ?_, ?_⟩
    · rw [compiled args (sound.checked (formed.mp well)), done, Condition.leaves]
      rfl
    · have negated := reads_not driver args _ _ text reads
      rw [Condition.leaves]
      have truth : (Condition.not inner).truth driver = fun row => negate (inner.truth driver row) := by
        funext row
        rw [Condition.truth]
      rw [truth]
      exact negated
  · intro ill args
    cases check : inner.predicate.fields.checkTable table identity with
    | error err =>
      rw [← checked] at check
      exact ⟨err, compile_unchecked _ args err check⟩
    | ok _ =>
      obtain ⟨err, failed⟩ := sound.fails (fun well => ill (formed.mpr well)) args
      exact ⟨err, by rw [compiled args check, failed]; rfl⟩

theorem condition_sound : Sound driver table identity condition := by
  induction condition using condition_induct with
  | zero =>
    refine ⟨fun well => absurd well (by rw [Condition.WellFormed]; exact not_false),
      fun well => absurd well (by rw [Condition.WellFormed]; exact not_false), fun _ args =>
      ⟨ascii "orm: invalid predicate", ?_⟩⟩
    rw [Condition.predicate]
    exact compile_unchecked _ args (ascii "orm: invalid predicate") (by simp [Fields.checkTable, Identifier.zero])
  | compare op column value => exact compare_sound driver table identity op column value
  | isIn column values => exact in_sound driver table identity column values
  | isNull column => exact null_sound driver table identity column
  | isNotNull column => exact not_null_sound driver table identity column
  | like column pattern => exact like_sound driver table identity column pattern
  | containsFold column literal => exact contains_fold_sound driver table identity column literal
  | and parts sound =>
    exact group_sound driver table identity .and .and (.inl rfl) (by decide) parts sound
      (by rw [Condition.predicate]; rfl)
      (by rw [Condition.WellFormed]) (by rw [Condition.leaves]) (by funext row; rw [Condition.truth]; rfl)
  | or parts sound =>
    exact group_sound driver table identity .or .or (.inr rfl) (by decide) parts sound
      (by rw [Condition.predicate]; rfl)
      (by rw [Condition.WellFormed]) (by rw [Condition.leaves]) (by funext row; rw [Condition.truth]; rfl)
  | not inner sound => exact not_sound driver table identity sound

theorem predicates_map : predicates parts = parts.map Condition.predicate := by
  induction parts with
  | nil => rfl
  | cons part parts ih => rw [predicates, ih, List.map_cons]

theorem all_leaves_flat : allLeaves parts = parts.flatMap Condition.leaves := by
  induction parts with
  | nil => rfl
  | cons part parts ih => rw [allLeaves, ih, List.flatMap_cons]

theorem truths_map (row : Row V) (parts : List (Condition α)) :
    truths driver row parts = parts.map (Condition.truth driver row) := by
  induction parts with
  | nil => rfl
  | cons part parts ih => rw [truths, ih, List.map_cons]

theorem all_well_formed_iff :
    AllWellFormed table identity parts ↔ ∀ part ∈ parts, part.WellFormed table identity := by
  induction parts with
  | nil => exact ⟨fun _ _ member => absurd member List.not_mem_nil, fun _ => trivial⟩
  | cons part parts ih => rw [AllWellFormed, ih, List.forall_mem_cons]

def Means (args leaves : List (Arg α)) (truth : Row V → Truth) (text : Bytes) : Prop :=
  parameters (lex text) = List.range' (args.length + 1) leaves.length ∧
    ∃ expr, parseCondition (lex text) = some (expr, []) ∧
      ∀ later row, expr.truth driver.values row ((args ++ leaves ++ later).map driver.encode) = truth row

theorem reads_means {leaves : List (Arg α)} {truth : Row V → Truth} {text : Bytes}
    (reads : Reads driver connective.level args leaves truth text) : Means driver args leaves truth text := by
  obtain ⟨tokens, expr, lexed, derived, numbered, evaluated⟩ := reads
  have parsed := parse_condition_derives (connective.whole tokens expr derived) (stops_empty)
  rw [List.append_nil] at parsed
  rw [Means, lex_lexes lexed]
  exact ⟨numbered, expr, parsed, evaluated⟩

theorem compile_outcome :
    (condition.WellFormed table identity ∧ ∃ text,
      condition.predicate.compile table identity args = .ok (text, args ++ condition.leaves) ∧
        Means driver args condition.leaves (condition.truth driver) text) ∨
    (¬ condition.WellFormed table identity ∧ ∃ err, condition.predicate.compile table identity args = .error err) := by
  have sound := condition_sound driver table identity condition
  by_cases well : condition.WellFormed table identity
  · obtain ⟨text, compiled, reads⟩ := sound.compiles well args
    exact .inl ⟨well, text, compiled, reads_means driver .and _ (reads_level driver .and _ _ _ _ reads)⟩
  · exact .inr ⟨well, sound.fails well args⟩

theorem write_some (present : conditions ≠ []) :
    writePredicates table identity (conditions.map Condition.predicate) args =
      (compileAll table identity (predicates conditions) args).map (fun compiled =>
        (ascii " WHERE " ++ join (ascii " AND ") compiled.1, compiled.2)) := by
  have nonempty : (conditions.map Condition.predicate).isEmpty = false := by simpa using present
  rw [writePredicates, nonempty, if_neg Bool.false_ne_true, predicates_map]
  cases compileAll table identity (conditions.map Condition.predicate) args <;> rfl

theorem write_reads (present : conditions ≠ [])
    (formed : ∀ condition ∈ conditions, condition.WellFormed table identity) :
    ∃ clause, writePredicates table identity (conditions.map Condition.predicate) args =
        .ok (ascii " WHERE " ++ clause, args ++ conditions.flatMap Condition.leaves) ∧
      Reads driver .conjunction args (conditions.flatMap Condition.leaves)
        (fun row => allOf (conditions.map (Condition.truth driver row))) clause := by
  have sound : ∀ condition ∈ conditions, Sound driver table identity condition :=
    fun condition _ => condition_sound driver table identity condition
  obtain ⟨texts, compiled, reads⟩ := all_compile driver table identity .and conditions args sound
    ((all_well_formed_iff table identity conditions).mpr formed) present
  simp only [truths_map, all_leaves_flat] at compiled reads
  refine ⟨join (ascii " AND ") texts, ?_, reads⟩
  rw [write_some table identity conditions args present, compiled]
  rfl

include driver in
theorem write_fails (ill : ¬ ∀ condition ∈ conditions, condition.WellFormed table identity) :
    ∃ err, writePredicates table identity (conditions.map Condition.predicate) args = .error err := by
  have present : conditions ≠ [] := by
    rintro rfl
    exact ill (List.forall_mem_nil _)
  obtain ⟨err, failed⟩ := all_fail driver table identity conditions args
    (fun condition _ => condition_sound driver table identity condition)
    (fun all => ill ((all_well_formed_iff table identity conditions).mp all))
  exact ⟨err, by rw [write_some table identity conditions args present, failed]; rfl⟩

theorem write_outcome :
    ((∀ condition ∈ conditions, condition.WellFormed table identity) ∧ ∃ text,
      writePredicates table identity (conditions.map Condition.predicate) args =
        .ok (text, args ++ conditions.flatMap Condition.leaves) ∧
        (if conditions = [] then text = []
         else ∃ clause, text = ascii " WHERE " ++ clause ∧
          Means driver args (conditions.flatMap Condition.leaves)
            (fun row => allOf (conditions.map (Condition.truth driver row))) clause)) ∨
    ((¬ ∀ condition ∈ conditions, condition.WellFormed table identity) ∧ ∃ err,
      writePredicates table identity (conditions.map Condition.predicate) args = .error err) := by
  by_cases formed : ∀ condition ∈ conditions, condition.WellFormed table identity
  · refine .inl ⟨formed, ?_⟩
    by_cases present : conditions = []
    · subst present
      exact ⟨[], by rw [List.flatMap_nil, List.append_nil]; rfl, by rw [if_pos rfl]⟩
    · obtain ⟨clause, written, reads⟩ := write_reads driver table identity conditions args present formed
      refine ⟨_, written, ?_⟩
      rw [if_neg present]
      exact ⟨clause, rfl, reads_means driver .and _ reads⟩
  · exact .inr ⟨formed, write_fails driver table identity conditions args formed⟩

-- Compiling succeeds exactly for the well-formed trees and lists; then the
-- arguments are the leaves in their order and the text means what the tree says.
theorem predicate_compilation_preserves_meaning (args : List (Arg α)) :
    (∀ condition : Condition α,
      ((∃ compiled, condition.predicate.compile table identity args = .ok compiled) ↔
        condition.WellFormed table identity) ∧
      ∀ text bound, condition.predicate.compile table identity args = .ok (text, bound) →
        bound = args ++ condition.leaves ∧ Means driver args condition.leaves (condition.truth driver) text) ∧
    (∀ conditions : List (Condition α),
      ((∃ compiled, writePredicates table identity (conditions.map Condition.predicate) args = .ok compiled) ↔
        ∀ condition ∈ conditions, condition.WellFormed table identity) ∧
      ∀ text bound, writePredicates table identity (conditions.map Condition.predicate) args = .ok (text, bound) →
        bound = args ++ conditions.flatMap Condition.leaves ∧
        (if conditions = [] then text = []
         else ∃ clause, text = ascii " WHERE " ++ clause ∧
          Means driver args (conditions.flatMap Condition.leaves)
            (fun row => allOf (conditions.map (Condition.truth driver row))) clause)) := by
  constructor
  · intro condition
    rcases compile_outcome driver table identity condition args with ⟨well, text, compiled, means⟩ | ⟨ill, err, failed⟩
    · refine ⟨⟨fun _ => well, fun _ => ⟨_, compiled⟩⟩, ?_⟩
      intro other bound found
      rw [compiled] at found
      cases found
      exact ⟨rfl, means⟩
    · rw [failed]
      refine ⟨⟨?_, fun well => absurd well ill⟩, ?_⟩
      · rintro ⟨_, found⟩
        cases found
      · intro _ _ found
        cases found
  · intro conditions
    rcases write_outcome driver table identity conditions args with ⟨all, text, written, means⟩ | ⟨ill, err, failed⟩
    · refine ⟨⟨fun _ => all, fun _ => ⟨_, written⟩⟩, ?_⟩
      intro other bound found
      rw [written] at found
      cases found
      exact ⟨rfl, means⟩
    · rw [failed]
      refine ⟨⟨?_, fun all => absurd all ill⟩, ?_⟩
      · rintro ⟨_, found⟩
        cases found
      · intro _ _ found
        cases found

end Groups

end

section Sample

def sampleDriver : Driver Nat (Nat ⊕ Bytes) where
  values :=
    { compare := fun op left right => match op with
        | .eq => decide (left = right)
        | _ => false
      characters := fun value => match value with
        | .inl _ => []
        | .inr text => runes text
      sameFold := fun a b => a == b }
  encode := fun arg => match arg with
    | .null => none
    | .text text => some (.inr text)
    | .other value => some (.inl value)
  encode_null := rfl
  encode_text := fun text => ⟨.inr text, rfl, rfl⟩

def sampleTable : Identifier := ⟨ascii "notes", .inr (by decide)⟩

def sampleColumn (name : Bytes) (valid : name = [] ∨ (name.length ≤ 63 ∧ identifierPattern name = true)) : Column :=
  { table := sampleTable, identity := some 1, name := ⟨name, valid⟩ }

def sampleCondition : Condition Nat :=
  .not (.or [.compare .eq (sampleColumn (ascii "a") (.inr (by decide))) (.other 1),
    .isIn (sampleColumn (ascii "b") (.inr (by decide))) [.other 2, .other 3]])

theorem predicate_compilation_preserves_meaning_sample :
    ∃ text, text = ascii "NOT ((\"notes\".\"a\" = $3 OR \"notes\".\"b\" IN ($4, $5)))" ∧
      Means sampleDriver [.other 8, .other 9] sampleCondition.leaves (sampleCondition.truth sampleDriver) text :=
  ⟨_, rfl, ((predicate_compilation_preserves_meaning sampleDriver sampleTable (some 1) [.other 8, .other 9]).1
    sampleCondition).2 _ _ rfl |>.2⟩

end Sample

end Goforge.Orm

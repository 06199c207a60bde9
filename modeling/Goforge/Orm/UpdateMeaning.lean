import Goforge.Orm.Meaning
import Goforge.Orm.Mutation

set_option autoImplicit false

namespace Goforge.Orm

open GoString Sql

section

variable {α V M : Type}

def Assignment.bound (assignment : Assignment α) : List (Arg α) :=
  match assignment.kind with
  | .null => [.null]
  | .default => []
  | .currentTime => []
  | _ => [assignment.value]

def Assignment.setValue (assignment : Assignment α) (number : Nat) : SetValue :=
  match assignment.kind with
  | .default => .default
  | .currentTime => .currentTimestamp
  | .increment => .plus assignment.column.name number
  | _ => .parameter number

def setList : List (Assignment α) → Nat → List (Bytes × SetValue)
  | [], _ => []
  | assignment :: rest, count =>
    (assignment.column.name, assignment.setValue (count + 1)) :: setList rest (count + assignment.bound.length)

theorem quoted_lexes (name : Identifier) : Lexes name.quoted [.quoted name.name] :=
  lexes_quoted (identifier_unquoted name)

theorem write_value (assignment : Assignment α) (args : List (Arg α)) :
    (writeAssignmentValue assignment args).2 = args ++ assignment.bound ∧
      Lexes (writeAssignmentValue assignment args).1 (assignment.setValue (args.length + 1)).tokens := by
  obtain ⟨table, identity, column, kind, value⟩ := assignment
  cases kind with
  | default =>
    have word : Lexes (ascii "DEFAULT") [.word (ascii "DEFAULT")] := by decide
    exact ⟨(List.append_nil _).symm, word⟩
  | currentTime =>
    have word : Lexes (ascii "CURRENT_TIMESTAMP") [.word (ascii "CURRENT_TIMESTAMP")] := by decide
    exact ⟨(List.append_nil _).symm, word⟩
  | increment =>
    refine ⟨rfl, ?_⟩
    have plus := lexes_closed (ascii "+ ") (byte ' ') [.operator (ascii "+")] (quoted_lexes column)
      (by decide) (by decide)
    exact closed_append _ _ plus (placeholder_lexes args value)
  | null => exact ⟨rfl, placeholder_lexes args .null⟩
  | _ => exact ⟨rfl, placeholder_lexes args value⟩

theorem write_assignments (assignments : List (Assignment α)) (args : List (Arg α)) :
    (writeAssignments assignments args).2 = args ++ assignments.flatMap Assignment.bound ∧
      ∃ items : List (Bytes × List Token), (writeAssignments assignments args).1 = items.map Prod.fst ∧
        items.map Prod.snd = (setList assignments args.length).map setTokens ∧ ∀ item ∈ items, Lexes item.1 item.2 := by
  induction assignments generalizing args with
  | nil => exact ⟨(List.append_nil _).symm, [], rfl, rfl, List.forall_mem_nil _⟩
  | cons assignment rest ih =>
    obtain ⟨bound, lexed⟩ := write_value assignment args
    obtain ⟨others, items, texts, tokens, all⟩ := ih (args ++ assignment.bound)
    rw [writeAssignments]
    simp only [bound]
    refine ⟨by rw [others, List.flatMap_cons, List.append_assoc], ?_⟩
    refine ⟨(assignment.column.quoted ++ ascii " = " ++ (writeAssignmentValue assignment args).1,
      setTokens (assignment.column.name, assignment.setValue (args.length + 1))) :: items, ?_, ?_, ?_⟩
    · rw [List.map_cons, texts]
    · rw [List.map_cons, tokens, List.length_append]
      rfl
    · refine List.forall_mem_cons.mpr ⟨?_, all⟩
      have equals := lexes_closed (ascii "= ") (byte ' ') [.operator (ascii "=")]
        (quoted_lexes assignment.column) (by decide) (by decide)
      exact closed_append _ _ equals lexed

variable (database : Database α V) (now : V)

def Assignment.result (cells : Bytes → Option V) (assignment : Assignment α) : Option (Option V) :=
  let column := assignment.column.name
  match assignment.kind with
  | .default => database.storage.store column (database.storage.defaults column)
  | .currentTime => database.storage.store column (some now)
  | .null => database.storage.store column none
  | .increment =>
    match cells column, database.driver.encode assignment.value with
    | some left, some right => (database.storage.plus column left right).map some
    | _, _ => database.storage.store column none
  | _ => database.storage.store column (database.driver.encode assignment.value)

theorem set_value_result (assignment : Assignment α) (args later : List (Arg α)) (table : Bytes)
    (cells : Bytes → Option V) :
    (assignment.setValue (args.length + 1)).value database.storage now (rowOf table cells)
        ((args ++ assignment.bound ++ later).map database.driver.encode) assignment.column.name =
      assignment.result database now cells := by
  obtain ⟨_, identity, column, kind, value⟩ := assignment
  cases kind with
  | default => rfl
  | currentTime => rfl
  | increment =>
    simp only [Assignment.setValue, Assignment.bound, Assignment.result, SetValue.value, bound_value]
    rfl
  | null =>
    simp only [Assignment.setValue, Assignment.bound, Assignment.result, SetValue.value, bound_value,
      database.driver.encode_null]
  | _ => simp only [Assignment.setValue, Assignment.bound, Assignment.result, SetValue.value, bound_value]

theorem set_list_results (assignments : List (Assignment α)) (args later : List (Arg α)) (table : Bytes)
    (cells : Bytes → Option V) :
    (setList assignments args.length).mapM (fun (column, value) =>
        (value.value database.storage now (rowOf table cells)
          ((args ++ assignments.flatMap Assignment.bound ++ later).map database.driver.encode) column).map
            (fun result => (column, result))) =
      assignments.mapM (fun assignment =>
        (assignment.result database now cells).map (fun result => (assignment.column.name, result))) := by
  induction assignments generalizing args with
  | nil => rfl
  | cons assignment rest ih =>
    have here := set_value_result database now assignment args (rest.flatMap Assignment.bound ++ later) table cells
    have there := ih (args ++ assignment.bound)
    rw [List.length_append] at there
    simp only [List.append_assoc] at here there
    rw [setList, List.mapM_cons, List.mapM_cons]
    simp only [List.flatMap_cons, List.append_assoc, here, there]

variable {assignments : List (Assignment α)}

theorem set_list_present (count : Nat) (present : assignments ≠ []) : setList assignments count ≠ [] := by
  cases assignments with
  | nil => exact absurd rfl present
  | cons assignment rest => exact List.cons_ne_nil _ _

theorem columns_lexes (table : Table V M) :
    Lexes (writeMappedColumns table)
      (separated (table.mapper.columns.map (fun column => columnTokens table.name.name column.name))) := by
  have lexed := lexes_separated
    (table.mapper.columns.map (fun column =>
      (table.name.quoted ++ ascii "." ++ column.quoted, columnTokens table.name.name column.name))) (by
    intro item member
    obtain ⟨column, _, rfl⟩ := List.mem_map.mp member
    exact qualified_lexes table.name column)
  rw [List.map_map, List.map_map] at lexed
  exact lexed

theorem write_clause (driver : Driver α V) {table : Identifier} {identity : Option Nat}
    {predicates : List (Condition α)} {args bound : List (Arg α)} {text : Bytes}
    (written : writePredicates table identity (predicates.map Condition.predicate) args = .ok (text, bound)) :
    bound = args ++ predicates.flatMap Condition.leaves ∧ Spaced text ∧
      ∃ condition : Option (List Token × Expr), Lexes text (whereTokens condition) ∧
        (∀ tokens expr, condition = some (tokens, expr) → Derives .disjunction tokens expr) ∧
        ∀ row, (condition.map Prod.snd).all (fun expr =>
            expr.truth driver.values row (bound.map driver.encode) = some true) = true ↔
          ∀ predicate ∈ predicates, predicate.truth driver row = some true := by
  by_cases formed : ∀ predicate ∈ predicates, predicate.WellFormed table identity
  · by_cases present : predicates = []
    · subst present
      cases written
      exact ⟨(List.append_nil _).symm, .inl rfl, none, lexes_nil, (fun _ _ absent => by cases absent),
        fun _ => ⟨fun _ _ member => absurd member List.not_mem_nil, fun _ => rfl⟩⟩
    · obtain ⟨clause, outcome, tokens, expr, lexed, derived, _, evaluated⟩ :=
        write_reads driver table identity predicates args present formed
      rw [outcome] at written
      cases written
      refine ⟨rfl, .inr ⟨_, rfl⟩, some (tokens, expr), ?_, ?_, ?_⟩
      · exact closed_append (ascii " WHERE ") [.word (ascii "WHERE")] (by decide) lexed
      · intro _ _ same
        cases same
        exact derives_disjunction tokens derived
      · intro row
        have truth := evaluated [] row
        rw [List.append_nil] at truth
        simp only [Option.map_some, Option.all_some, truth, decide_eq_true_eq, all_holds, List.forall_mem_map]
  · obtain ⟨err, failed⟩ := write_fails driver table identity predicates args formed
    rw [failed] at written
    cases written

theorem limited_ok {query : Bytes} {args : List (Arg α)} {statement : Statement α}
    (made : newCompiledStatement query args = .ok statement) : statement = { query := query, args := args } := by
  rw [newCompiledStatement] at made
  split at made
  · cases made
  cases made
  rfl

theorem build_ok {builder : UpdateBuilder α V M} {statement : Statement α} (built : builder.build = .ok statement) :
    ∃ assignments clause bound, builder.table.validate = .ok () ∧
      includedAssignments builder.table.name builder.table.identity [] builder.assignments = .ok assignments ∧
      assignments ≠ [] ∧
      writePredicates builder.table.name builder.table.identity (builder.predicates.map Condition.predicate)
        (writeAssignments assignments []).2 = .ok (clause, bound) ∧
      statement = { query := ascii "UPDATE " ++ builder.table.name.quoted ++ ascii " SET " ++
                      join (ascii ", ") (writeAssignments assignments []).1 ++ clause, args := bound } := by
  rw [UpdateBuilder.build] at built
  cases valid : builder.table.validate with
  | error message =>
    rw [valid] at built
    cases built
  | ok _ =>
    rw [valid] at built
    by_cases unsafe_ : (builder.predicates.isEmpty && !builder.allRows) = true
    · simp only [bind, Except.bind, unsafe_, if_true] at built
      cases built
    · simp only [bind, Except.bind, if_neg unsafe_] at built
      cases included : includedAssignments builder.table.name builder.table.identity [] builder.assignments with
      | error message =>
        rw [included] at built
        cases built
      | ok assignments =>
        simp only [included] at built
        by_cases empty : assignments.isEmpty = true
        · rw [if_pos empty] at built
          cases built
        · rw [if_neg empty] at built
          cases written : writePredicates builder.table.name builder.table.identity
              (builder.predicates.map Condition.predicate) (writeAssignments assignments []).2 with
          | error message =>
            rw [written] at built
            cases built
          | ok compiled =>
            rw [written] at built
            refine ⟨assignments, compiled.1, compiled.2, rfl, rfl, by simpa using empty, written, ?_⟩
            exact limited_ok built

theorem valid_columns {table : Table V M} (valid : table.validate = .ok ()) :
    table.mapper.columns ≠ [] ∧ ∃ scan, table.mapper.scan = some scan := by
  rw [Table.validate] at valid
  split at valid
  · cases valid
  rename_i proper
  simp only [not_or] at proper
  refine ⟨proper.2.1, Option.isSome_iff_exists.mp ?_⟩
  simpa [Option.isSome_iff_ne_none] using proper.2.2.1

theorem query_lexes (table : Identifier) {sets clause columns : Bytes}
    {setsTokens clauseTokens columnsTokens : List Token} (setsLexed : Lexes sets setsTokens)
    (clauseLexed : Lexes clause clauseTokens) (opening : Spaced clause) (columnsLexed : Lexes columns columnsTokens) :
    Lexes (ascii "UPDATE " ++ table.quoted ++ ascii " SET " ++ sets ++ clause ++ ascii " RETURNING " ++ columns)
      (.word (ascii "UPDATE") :: .quoted table.name :: .word (ascii "SET") ::
        (setsTokens ++ (clauseTokens ++ .word (ascii "RETURNING") :: columnsTokens))) := by
  have start := closed_append (ascii "UPDATE ") [.word (ascii "UPDATE")] (by decide) (quoted_lexes table)
  have set : Closed (ascii "UPDATE " ++ table.quoted ++ ascii " SET ")
      ([.word (ascii "UPDATE")] ++ [.quoted table.name] ++ [.word (ascii "SET")]) :=
    lexes_closed (ascii "SET ") (byte ' ') _ start (by decide) (by decide)
  have middle := closed_append _ _ set setsLexed
  have ending : Lexes (byte ' ' :: (ascii "RETURNING " ++ columns)) (.word (ascii "RETURNING") :: columnsTokens) :=
    closed_append (ascii " RETURNING ") [.word (ascii "RETURNING")] (by decide) columnsLexed
  have more := lexes_spaced middle clauseLexed opening
  have all := lexes_append _ (byte ' ') _ more ending (by decide)
  rw [List.append_assoc _ (ascii " RETURNING ") columns, show ascii " RETURNING " =
    byte ' ' :: ascii "RETURNING " from rfl, List.cons_append]
  simpa only [List.append_assoc, List.singleton_append, List.cons_append, List.nil_append] using all

theorem build_returning_parsed (builder : UpdateBuilder α V M) {statement : Statement α}
    (built : builder.buildReturning = .ok statement) :
    ∃ assignments parsed, builder.table.validate = .ok () ∧
      includedAssignments builder.table.name builder.table.identity [] builder.assignments = .ok assignments ∧
      parseUpdate (lex statement.query) = some parsed ∧ parsed.table = builder.table.name.name ∧
      parsed.returning = builder.table.mapper.columns.map
        (fun column => .column [builder.table.name.name, column.name]) ∧
      (∀ cells, parsed.assigned database.storage now (statement.args.map database.driver.encode) cells =
        assignments.mapM (fun assignment =>
          (assignment.result database now cells).map (fun result => (assignment.column.name, result)))) ∧
      ∀ cells, parsed.matches database.driver.values (statement.args.map database.driver.encode) cells = true ↔
        ∀ predicate ∈ builder.predicates,
          predicate.truth database.driver (rowOf builder.table.name.name cells) = some true := by
  rw [UpdateBuilder.buildReturning] at built
  cases base : builder.build with
  | error message =>
    rw [base] at built
    cases built
  | ok inner =>
    rw [base] at built
    have whole := limited_ok built
    obtain ⟨assignments, clause, bound, valid, included, present, written, rfl⟩ := build_ok base
    obtain ⟨columns, _⟩ := valid_columns valid
    obtain ⟨binds, items, texts, tokens, lexed⟩ := write_assignments assignments []
    obtain ⟨total, opening, condition, clauseLexed, derived, evaluated⟩ :=
      write_clause database.driver written
    have parsed := parse_update builder.table.name.name
      (builder.table.mapper.columns.map (fun column => (builder.table.name.name, column.name)))
      (set_list_present 0 present) (by simpa using columns) derived
    rw [List.map_map, List.map_map] at parsed
    rw [texts] at whole
    have setsLexed := lexes_separated items lexed
    rw [tokens] at setsLexed
    have read := query_lexes builder.table.name setsLexed clauseLexed opening (columns_lexes builder.table)
    refine ⟨assignments, _, valid, included, (by rw [whole, lex_lexes read]; exact parsed), rfl, rfl, ?_, ?_⟩
    · intro cells
      have results := set_list_results database now assignments [] (builder.predicates.flatMap Condition.leaves)
        builder.table.name.name cells
      rw [whole, total, binds]
      exact results
    · intro cells
      rw [whole]
      exact evaluated (rowOf builder.table.name.name cells)

structure Applied (builder : UpdateBuilder α V M) (cells changed : Bytes → Option V) : Prop where
  matched : ∀ predicate ∈ builder.predicates,
    predicate.truth database.driver (rowOf builder.table.name.name cells) = some true
  assigned : ∃ assignments,
    includedAssignments builder.table.name builder.table.identity [] builder.assignments = .ok assignments ∧
    (∀ assignment ∈ assignments,
      assignment.result database now cells = some (changed assignment.column.name)) ∧
    ∀ column, (∀ assignment ∈ assignments, assignment.column.name ≠ column) → changed column = cells column
  accepted : database.storage.accepts changed = true

theorem included_cons {table : Identifier} {identity : Option Nat} {seen : List Bytes} {assignment : Assignment α}
    {rest included : List (Assignment α)}
    (found : includedAssignments table identity seen (assignment :: rest) = .ok included) :
    (assignment.kind = .omitted ∧ includedAssignments table identity seen rest = .ok included) ∨
    (assignment.kind ≠ .omitted ∧ assignment.column.name ∉ seen ∧ ∃ others,
      includedAssignments table identity (assignment.column.name :: seen) rest = .ok others ∧
      included = assignment :: others) := by
  rw [includedAssignments] at found
  split at found
  · cases found
  split at found
  · exact .inl ⟨‹_›, found⟩
  split at found
  · cases found
  split at found
  · cases found
  cases later : includedAssignments table identity (assignment.column.name :: seen) rest with
  | error message =>
    rw [later] at found
    cases found
  | ok others =>
    rw [later] at found
    exact .inr ⟨‹_›, ‹_›, others, rfl, (Except.ok.inj found).symm⟩

theorem included_present {table : Identifier} {identity : Option Nat} (seen : List Bytes)
    {assignments : List (Assignment α)} (included : List (Assignment α))
    (found : includedAssignments table identity seen assignments = .ok included) :
    included = assignments.filter (fun assignment => assignment.kind ≠ .omitted) := by
  induction assignments generalizing seen included with
  | nil =>
    cases found
    rfl
  | cons assignment rest ih =>
    rcases included_cons found with ⟨omitted, later⟩ | ⟨present, _, others, later, rfl⟩
    · rw [List.filter_cons_of_neg (by simp [omitted])]
      exact ih seen included later
    · rw [List.filter_cons_of_pos (by simp [present]), ← ih _ others later]

theorem included_distinct {table : Identifier} {identity : Option Nat} (seen : List Bytes)
    (included : List (Assignment α)) (found : includedAssignments table identity seen assignments = .ok included) :
    (included.map (fun assignment => assignment.column.name)).Nodup ∧
      ∀ assignment ∈ included, assignment.column.name ∉ seen := by
  induction assignments generalizing seen included with
  | nil =>
    cases found
    exact ⟨List.nodup_nil, List.forall_mem_nil _⟩
  | cons assignment rest ih =>
    rcases included_cons found with ⟨_, later⟩ | ⟨_, fresh, others, later, rfl⟩
    · exact ih seen included later
    · obtain ⟨distinct, unseen⟩ := ih _ others later
      refine ⟨?_, List.forall_mem_cons.mpr ⟨fresh, ?_⟩⟩
      · rw [List.map_cons, List.nodup_cons]
        refine ⟨?_, distinct⟩
        intro member
        obtain ⟨other, inside, same⟩ := List.mem_map.mp member
        exact unseen other inside (by rw [same]; exact List.mem_cons_self)
      · intro other inside seenBefore
        exact unseen other inside (List.mem_cons_of_mem _ seenBefore)

theorem assigned_lookup {results : Assignment α → Option (Option V)} (assigned : List (Bytes × Option V))
    (distinct : (assignments.map (fun assignment => assignment.column.name)).Nodup)
    (made : assignments.mapM (fun assignment =>
      (results assignment).map (fun result => (assignment.column.name, result))) = some assigned) :
    (∀ assignment ∈ assignments, ∃ result, results assignment = some result ∧
      assigned.lookup assignment.column.name = some result) ∧
    ∀ column, (∀ assignment ∈ assignments, assignment.column.name ≠ column) → assigned.lookup column = none := by
  induction assignments generalizing assigned with
  | nil =>
    cases made
    exact ⟨List.forall_mem_nil _, fun _ _ => rfl⟩
  | cons assignment rest ih =>
    rw [List.map_cons, List.nodup_cons] at distinct
    rw [List.mapM_cons] at made
    cases here : results assignment with
    | none =>
      rw [here] at made
      cases made
    | some result =>
      cases later : rest.mapM (fun assignment =>
          (results assignment).map (fun result => (assignment.column.name, result))) with
      | none =>
        rw [here, later] at made
        cases made
      | some others =>
        rw [here, later] at made
        cases made
        obtain ⟨inside, outside⟩ := ih others distinct.2 later
        constructor
        · intro other member
          rcases List.mem_cons.mp member with rfl | further
          · exact ⟨result, here, List.lookup_cons_self⟩
          · obtain ⟨value, computed, found⟩ := inside other further
            have different : other.column.name ≠ assignment.column.name := by
              intro same
              exact distinct.1 (List.mem_map.mpr ⟨other, further, same⟩)
            refine ⟨value, computed, ?_⟩
            rw [List.lookup_cons, beq_eq_false_iff_ne.mpr different]
            exact found
        · intro column free
          obtain ⟨first, others⟩ := List.forall_mem_cons.mp free
          rw [List.lookup_cons, beq_eq_false_iff_ne.mpr (Ne.symm first)]
          exact outside column others

theorem one_cases (builder : UpdateBuilder α V M) (cells : Bytes → Option V) :
    ((∃ err, (builder.one database now cells).1 = .error err) ∧ (builder.one database now cells).2 = cells) ∨
    (Applied database now builder cells (builder.one database now cells).2 ∧
      ∃ scan, builder.table.mapper.scan = some scan ∧
        (builder.one database now cells).1 = (scan (builder.table.mapper.columns.map (fun column =>
          (builder.one database now cells).2 column.name))).mapError UpdateError.scan) := by
  rw [UpdateBuilder.one]
  cases built : builder.buildReturning with
  | error message => exact .inl ⟨⟨_, rfl⟩, rfl⟩
  | ok statement =>
    obtain ⟨assignments, parsed, valid, included, read, table, returning, results, matched⟩ :=
      build_returning_parsed database now builder built
    obtain ⟨_, scan, scanned⟩ := valid_columns valid
    simp only [read]
    cases outcome : parsed.run database.driver.values database.storage now builder.table.name.name
        (statement.args.map database.driver.encode) cells with
    | failed => exact .inl ⟨⟨_, rfl⟩, rfl⟩
    | unmatched => exact .inl ⟨⟨_, rfl⟩, rfl⟩
    | updated changed =>
      rw [UpdateStatement.run, if_neg (not_not.mpr table)] at outcome
      by_cases holds : parsed.matches database.driver.values (statement.args.map database.driver.encode) cells = true
      · rw [holds, Bool.not_true, if_neg Bool.false_ne_true, results cells] at outcome
        cases made : assignments.mapM (fun assignment =>
            (assignment.result database now cells).map (fun result => (assignment.column.name, result))) with
        | none =>
          rw [made] at outcome
          cases outcome
        | some assigned =>
          simp only [made] at outcome
          split at outcome
          · rename_i accepted
            cases outcome
            have distinct := (included_distinct [] assignments included).1
            obtain ⟨inside, outside⟩ := assigned_lookup assigned distinct made
            have returned : parsed.returning.map (fun column =>
                column.value (rowOf builder.table.name.name (fun column =>
                  (assigned.lookup column).getD (cells column))) []) =
                builder.table.mapper.columns.map (fun column =>
                  (assigned.lookup column.name).getD (cells column.name)) := by
              rw [returning, List.map_map]
              refine List.map_congr_left ?_
              intro column _
              exact if_pos rfl
            have applied : Applied database now builder cells (fun column =>
                (assigned.lookup column).getD (cells column)) := by
              refine ⟨(matched cells).mp holds, ⟨assignments, included, ?_, ?_⟩, accepted⟩
              · intro assignment member
                obtain ⟨result, computed, found⟩ := inside assignment member
                rw [computed, found]
                rfl
              · intro column free
                rw [outside column free]
                rfl
            simp only [scanned, returned]
            cases scanning : scan (builder.table.mapper.columns.map (fun column =>
                (assigned.lookup column.name).getD (cells column.name))) with
            | error message => exact .inr ⟨applied, scan, rfl, by rw [scanning]; rfl⟩
            | ok model => exact .inr ⟨applied, scan, rfl, by rw [scanning]; rfl⟩
          · cases outcome
      · rw [Bool.not_eq_true] at holds
        rw [holds, Bool.not_false, if_pos rfl] at outcome
        cases outcome

end

end Goforge.Orm

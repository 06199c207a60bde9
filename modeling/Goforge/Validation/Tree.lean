import Goforge.Validation.Rules

set_option autoImplicit false

namespace Goforge.Validation

open GoString
open GoIdentifier (Alphabet)

mutual

def Rule.faultyParts {T : Type} : Rule T → Nat
  | .absent => 1
  | .func none => 1
  | .func (some _) => 0
  | .application _ => 0
  | .invalid _ => 1
  | .each rules => if rules.isEmpty then 1 else rules.faultyParts
  | .conditional _ rules => if rules.isEmpty then 1 else rules.faultyParts

def Rules.faultyParts {T : Type} : Rules T → Nat
  | .nil => 0
  | .cons rule rest => rule.faultyParts + rest.faultyParts

end

def Rules.faults {T : Type} (rules : Rules T) : Nat := if rules.isEmpty then 1 else rules.faultyParts

mutual

def Rule.unconditional {T : Type} : Rule T → Rule T
  | .absent => .absent
  | .func call => .func call
  | .application call => .application call
  | .invalid message => .invalid message
  | .each rules => .each rules.unconditional
  | .conditional _ rules => .conditional true rules.unconditional

def Rules.unconditional {T : Type} : Rules T → Rules T
  | .nil => .nil
  | .cons rule rest => .cons rule.unconditional rest.unconditional

end

-- An issue that a function returned for an item, with the positions of the
-- items it lies in, outermost first.
structure Leaf where
  indices : List Nat
  issue : Issue

def Leaf.under (index : Nat) (leaf : Leaf) : Leaf := { leaf with indices := index :: leaf.indices }

mutual

def Rule.leaves {T : Type} : Rule T → Input T → List Leaf
  | .absent, _ => []
  | .func none, _ => []
  | .func (some call), input => (call input).map (Leaf.mk [])
  | .application call, input => (call input).map (Leaf.mk [])
  | .invalid _, _ => []
  | .each rules, input =>
    match input.value with
    | none => []
    | some items => items.zipIdx.flatMap (fun item => (rules.leaves (.present item.1)).map (Leaf.under item.2))
  | .conditional condition rules, input => if condition then rules.leaves input else []

def Rules.leaves {T : Type} : Rules T → Input T → List Leaf
  | .nil, _ => []
  | .cons rule rest, input => rule.leaves input ++ rest.leaves input

end

def Leaf.steps (leaf : Leaf) : List Bytes := leaf.indices.map decimal ++ closed leaf.issue.path

def Leaf.relative (leaf : Leaf) : Issue := { leaf.issue with path := join (ascii ".") leaf.steps }

def Leaf.violation (path : Bytes) (leaf : Leaf) : Violation :=
  ⟨join (ascii ".") (path :: leaf.steps), leaf.issue.code, leaf.issue.message⟩

def Leaf.malformed (alphabet : Alphabet) (leaf : Leaf) : Bool :=
  !validRelativePath alphabet leaf.relative.path || !validCode leaf.issue.code || !validMessage leaf.issue.message

theorem join_path {first : Bytes} {steps : List Bytes} (named : first ≠ []) (all : ∀ step ∈ steps, step ≠ []) :
    join (ascii ".") (first :: steps) = joinPath first (join (ascii ".") steps) := by
  rw [joinPath, if_neg named, join_cons]
  cases steps with
  | nil =>
    rw [if_pos rfl, if_pos (show join (ascii ".") [] = [] from rfl)]
    exact List.append_nil first
  | cons step rest =>
    have filled : join (ascii ".") (step :: rest) ≠ [] := by
      rw [join_cons]
      exact List.append_ne_nil_of_left_ne_nil (all step List.mem_cons_self) _
    rw [if_neg (List.cons_ne_nil _ _), if_neg filled, List.append_assoc]

theorem steps_named (leaf : Leaf) : ∀ step ∈ leaf.steps, step ≠ [] := by
  intro step member
  rcases List.mem_append.mp member with index | own
  · obtain ⟨n, _, rfl⟩ := List.mem_map.mp index
    exact decimal_nonempty n
  · rw [closed] at own
    split at own
    · cases own
    rw [List.mem_singleton.mp own]
    assumption

theorem relative_under (index : Nat) (leaf : Leaf) :
    (leaf.under index).relative = { leaf.relative with path := joinPath (decimal index) leaf.relative.path } := by
  rw [Leaf.relative, Leaf.relative, ← join_path (decimal_nonempty index) (steps_named leaf)]
  rfl

theorem relative_own (issue : Issue) : (Leaf.mk [] issue).relative = issue := by
  cases issue with
  | mk path code message =>
    rw [Leaf.relative, Leaf.steps, closed]
    by_cases empty : path = []
    · subst empty
      rfl
    · simp [empty, join]

theorem each_item_leaves {T : Type} {validate : Input T → Option (List Issue)} {leaves : Input T → List Leaf}
    (agree : ∀ input, validate input = some ((leaves input).map Leaf.relative)) (index : Nat) (items : List T) :
    eachItem validate index items =
      some (((items.zipIdx index).flatMap (fun item => (leaves (.present item.1)).map (Leaf.under item.2))).map
        Leaf.relative) := by
  induction items generalizing index with
  | nil => rfl
  | cons item rest ih =>
    have own : ((leaves (.present item)).map Leaf.relative).map
        (fun issue => { issue with path := joinPath (decimal index) issue.path }) =
          ((leaves (.present item)).map (Leaf.under index)).map Leaf.relative := by
      rw [List.map_map, List.map_map]
      exact List.map_congr_left (fun leaf _ => (relative_under index leaf).symm)
    simp only [eachItem, agree, ih, Option.bind_eq_bind, Option.bind_some, own, List.zipIdx_cons, List.flatMap_cons,
      List.map_append]
    rfl

theorem call_leaves {T : Type} (call : Input T → List Issue) (input : Input T) :
    ((call input).map (Leaf.mk [])).map Leaf.relative = call input := by
  rw [List.map_map]
  exact (List.map_congr_left (fun issue _ => relative_own issue)).trans (List.map_id _)

mutual

theorem Rule.validate_leaves {T : Type} : ∀ (rule : Rule T) (input : Input T), rule.faultyParts = 0 →
    rule.validate input = some ((rule.leaves input).map Leaf.relative)
  | .func (some call), input, _ => by
      rw [Rule.validate, Rule.leaves, call_leaves]
  | .application call, input, _ => by
      rw [Rule.validate, Rule.leaves, call_leaves]
  | .each rules, input, sound => by
      rw [Rule.faultyParts] at sound
      split at sound
      · cases sound
      rw [Rule.validate, Rule.leaves]
      cases input.value with
      | none => rfl
      | some items =>
        exact each_item_leaves (fun item => rules.validate_leaves item sound) 0 items
  | .conditional condition rules, input, sound => by
      rw [Rule.faultyParts] at sound
      split at sound
      · cases sound
      rw [Rule.validate, Rule.leaves]
      cases condition with
      | false => rfl
      | true => exact rules.validate_leaves input sound

theorem Rules.validate_leaves {T : Type} : ∀ (rules : Rules T) (input : Input T), rules.faultyParts = 0 →
    rules.validate input = some ((rules.leaves input).map Leaf.relative)
  | .nil, _, _ => rfl
  | .cons rule rest, input, sound => by
      have parts := Nat.add_eq_zero_iff.mp sound
      simp only [Rules.validate, rule.validate_leaves input parts.1, rest.validate_leaves input parts.2,
        Option.bind_eq_bind, Option.bind_some, Rules.leaves, List.map_append]
      rfl

end

mutual

theorem Rule.issues_count {T : Type} : ∀ (rule : Rule T), rule.isNil = false →
    rule.configurationIssues.length = rule.faultyParts
  | .func none, _ => rfl
  | .func (some _), _ => rfl
  | .application _, _ => rfl
  | .invalid _, _ => rfl
  | .each rules, _ => by
      rw [Rule.configurationIssues, Rule.faultyParts]
      split
      · rfl
      · exact rules.issues_count _
  | .conditional _ rules, _ => by
      rw [Rule.configurationIssues, Rule.faultyParts]
      split
      · rfl
      · exact rules.issues_count _

theorem Rules.issues_count {T : Type} : ∀ (rules : Rules T) (nilText : Bytes),
    (rules.configurationIssues nilText).length = rules.faultyParts
  | .nil, _ => rfl
  | .cons rule rest, nilText => by
      rw [Rules.configurationIssues, List.length_append, rest.issues_count nilText, Rules.faultyParts]
      cases absent : rule.isNil with
      | false =>
        rw [if_neg Bool.false_ne_true, rule.issues_count absent]
      | true =>
        cases rule with
        | absent => rfl
        | _ => cases absent

end

mutual

theorem Rule.issues_configuration {T : Type} : ∀ (rule : Rule T), ∀ issue ∈ rule.configurationIssues,
    issue.code = codeInvalidConfiguration
  | .absent, issue, member => by cases member
  | .func none, issue, member => by
      rw [List.mem_singleton.mp member]
      rfl
  | .func (some _), issue, member => by cases member
  | .application _, issue, member => by cases member
  | .invalid _, issue, member => by
      rw [List.mem_singleton.mp member]
      rfl
  | .each rules, issue, member => by
      rw [Rule.configurationIssues] at member
      split at member
      · rw [List.mem_singleton.mp member]
        rfl
      · exact rules.issues_configuration _ issue member
  | .conditional _ rules, issue, member => by
      rw [Rule.configurationIssues] at member
      split at member
      · rw [List.mem_singleton.mp member]
        rfl
      · exact rules.issues_configuration _ issue member

theorem Rules.issues_configuration {T : Type} : ∀ (rules : Rules T) (nilText : Bytes),
    ∀ issue ∈ rules.configurationIssues nilText, issue.code = codeInvalidConfiguration
  | .nil, _, issue, member => by cases member
  | .cons rule rest, nilText, issue, member => by
      rw [Rules.configurationIssues] at member
      rcases List.mem_append.mp member with own | later
      · split at own
        · rw [List.mem_singleton.mp own]
          rfl
        · exact rule.issues_configuration issue own
      · exact rest.issues_configuration nilText issue later

end

theorem Rule.unconditional_nil {T : Type} (rule : Rule T) : rule.unconditional.isNil = rule.isNil := by
  cases rule <;> rfl

theorem Rules.unconditional_empty {T : Type} (rules : Rules T) : rules.unconditional.isEmpty = rules.isEmpty := by
  cases rules <;> rfl

mutual

theorem Rule.issues_unconditional {T : Type} : ∀ (rule : Rule T),
    rule.unconditional.configurationIssues = rule.configurationIssues
  | .absent => rfl
  | .func _ => rfl
  | .application _ => rfl
  | .invalid _ => rfl
  | .each rules => by
      rw [Rule.unconditional, Rule.configurationIssues, Rule.configurationIssues, rules.unconditional_empty,
        rules.issues_unconditional]
  | .conditional _ rules => by
      rw [Rule.unconditional, Rule.configurationIssues, Rule.configurationIssues, rules.unconditional_empty,
        rules.issues_unconditional]

theorem Rules.issues_unconditional {T : Type} : ∀ (rules : Rules T) (nilText : Bytes),
    rules.unconditional.configurationIssues nilText = rules.configurationIssues nilText
  | .nil, _ => rfl
  | .cons rule rest, nilText => by
      rw [Rules.unconditional, Rules.configurationIssues, Rules.configurationIssues, rule.unconditional_nil,
        rule.issues_unconditional, rest.issues_unconditional nilText]

end

section

variable (alphabet : Alphabet) {T : Type}

def Rules.faultViolations (path : Bytes) : Rules T → List Violation
  | .nil => []
  | .cons rule rest =>
    (if rule.isNil then [configurationViolation path (ascii "validation rule must not be nil")]
    else appendIssues alphabet path rule.configurationIssues) ++ rest.faultViolations path

def faultReport (path : Bytes) (rules : Rules T) : List Violation :=
  if rules.isEmpty then [configurationViolation path (ascii "validation field must have at least one rule")]
  else rules.faultViolations alphabet path

theorem appended_configuration (path : Bytes) {issue : Issue} (own : issue.code = codeInvalidConfiguration) :
    (appended alphabet path issue).code = codeInvalidConfiguration := by
  rw [appended]
  split
  · rfl
  · exact own

theorem appended_leaf {path : Bytes} (named : path ≠ []) (leaf : Leaf) :
    appended alphabet path leaf.relative =
      if leaf.malformed alphabet then configurationViolation path (ascii "validation rule returned an invalid issue")
      else leaf.violation path := by
  rw [appended, Leaf.violation, join_path named (steps_named leaf)]
  rfl

theorem leaf_configuration {path : Bytes} (named : path ≠ []) (leaf : Leaf) :
    (appended alphabet path leaf.relative).code = codeInvalidConfiguration ↔
      leaf.malformed alphabet = true ∨ leaf.issue.code = codeInvalidConfiguration := by
  rw [appended_leaf alphabet named leaf]
  cases leaf.malformed alphabet with
  | true => exact iff_of_true rfl (.inl rfl)
  | false => simp [Leaf.violation]

def Rule.reported (path : Bytes) (input : Input T) (rule : Rule T) : List Violation :=
  if rule.isNil then [configurationViolation path (ascii "validation rule must not be nil")]
  else if 0 < rule.configurationIssues.length then appendIssues alphabet path rule.configurationIssues
  else appendIssues alphabet path ((rule.leaves input).map Leaf.relative)

def Rules.reported (path : Bytes) (input : Input T) : Rules T → List Violation
  | .nil => []
  | .cons rule rest => rule.reported alphabet path input ++ rest.reported path input

theorem Rule.reported_cases (path : Bytes) (input : Input T) (rule : Rule T) :
    (0 < rule.faultyParts ∧
      rule.reported alphabet path input = (if rule.isNil then
        [configurationViolation path (ascii "validation rule must not be nil")]
      else appendIssues alphabet path rule.configurationIssues)) ∨
    (rule.faultyParts = 0 ∧ rule.isNil = false ∧ rule.configurationIssues = [] ∧
      rule.reported alphabet path input = appendIssues alphabet path ((rule.leaves input).map Leaf.relative)) := by
  cases absent : rule.isNil with
  | true =>
    cases rule with
    | absent => exact .inl ⟨Nat.one_pos, rfl⟩
    | _ => cases absent
  | false =>
    have count := rule.issues_count absent
    rw [Rule.reported, absent, if_neg Bool.false_ne_true]
    by_cases faulty : 0 < rule.configurationIssues.length
    · rw [if_pos faulty]
      exact .inl ⟨by omega, rfl⟩
    · rw [if_neg faulty]
      exact .inr ⟨by omega, rfl, by simpa using faulty, rfl⟩

theorem apply_rules_reported (path : Bytes) (input : Input T) (rules : Rules T) :
    applyRules alphabet path input rules = some (rules.reported alphabet path input) := by
  match rules with
  | .nil => rfl
  | .cons rule rest =>
    have others := apply_rules_reported path input rest
    rw [applyRules, Rules.reported, Rule.reported, others]
    cases absent : rule.isNil with
    | true => rfl
    | false =>
      have count := rule.issues_count absent
      by_cases faulty : 0 < rule.configurationIssues.length
      · simp only [if_pos faulty]
        rfl
      · have called := rule.validate_leaves input (by omega)
        simp only [if_neg faulty, called]
        rfl

theorem Rules.fault_violations_count (path : Bytes) (rules : Rules T) :
    (rules.faultViolations alphabet path).length = rules.faultyParts := by
  match rules with
  | .nil => rfl
  | .cons rule rest =>
    have others := rest.fault_violations_count path
    rw [Rules.faultViolations, List.length_append, others, Rules.faultyParts]
    cases absent : rule.isNil with
    | true =>
      cases rule with
      | absent => rfl
      | _ => cases absent
    | false =>
      rw [if_neg Bool.false_ne_true, appendIssues, List.length_map, rule.issues_count absent]

theorem Rules.fault_violations_code (path : Bytes) (rules : Rules T) :
    ∀ violation ∈ rules.faultViolations alphabet path, violation.code = codeInvalidConfiguration := by
  match rules with
  | .nil =>
    intro violation member
    cases member
  | .cons rule rest =>
    intro violation member
    rcases List.mem_append.mp member with own | later
    · split at own
      · rw [List.mem_singleton.mp own]
        rfl
      · obtain ⟨issue, inside, rfl⟩ := List.mem_map.mp own
        exact appended_configuration alphabet path (rule.issues_configuration issue inside)
    · exact rest.fault_violations_code path violation later

theorem Rules.fault_violations_reported (path : Bytes) (input : Input T) (rules : Rules T) :
    (rules.faultViolations alphabet path).Sublist (rules.reported alphabet path input) := by
  match rules with
  | .nil => exact .slnil
  | .cons rule rest =>
    refine List.Sublist.append ?_ (rest.fault_violations_reported path input)
    rcases rule.reported_cases alphabet path input with ⟨_, faults⟩ | ⟨_, present, none, _⟩
    · rw [faults]
    · rw [present, if_neg Bool.false_ne_true, none]
      exact List.nil_sublist _

theorem Rules.fault_violations_unconditional (path : Bytes) (rules : Rules T) :
    rules.unconditional.faultViolations alphabet path = rules.faultViolations alphabet path := by
  match rules with
  | .nil => rfl
  | .cons rule rest =>
    rw [Rules.unconditional, Rules.faultViolations, Rules.faultViolations, rule.unconditional_nil,
      rule.issues_unconditional, rest.fault_violations_unconditional path]

theorem Rules.reported_called (path : Bytes) (input : Input T) (rules : Rules T) (sound : rules.faultyParts = 0) :
    rules.reported alphabet path input =
      (rules.leaves input).map (fun leaf => appended alphabet path leaf.relative) := by
  match rules with
  | .nil => rfl
  | .cons rule rest =>
    have parts := Nat.add_eq_zero_iff.mp sound
    rw [Rules.reported, Rules.leaves, List.map_append, rest.reported_called path input parts.2]
    rcases rule.reported_cases alphabet path input with ⟨faulty, _⟩ | ⟨_, _, _, called⟩
    · omega
    · rw [called, appendIssues, List.map_map]
      rfl

theorem Rules.reported_sound (path : Bytes) (named : path ≠ []) (input : Input T) (rules : Rules T)
    (sound : rules.faultyParts = 0) (formed : ∀ leaf ∈ rules.leaves input, leaf.malformed alphabet = false) :
    rules.reported alphabet path input = (rules.leaves input).map (Leaf.violation path) := by
  rw [rules.reported_called alphabet path input sound]
  refine List.map_congr_left ?_
  intro leaf member
  rw [appended_leaf alphabet named leaf, formed leaf member, if_neg Bool.false_ne_true]

theorem Rules.reported_configuration (path : Bytes) (named : path ≠ []) (input : Input T) (rules : Rules T) :
    (∃ violation ∈ rules.reported alphabet path input, violation.code = codeInvalidConfiguration) ↔
      0 < rules.faultyParts ∨
        ∃ leaf ∈ rules.leaves input, leaf.malformed alphabet = true ∨ leaf.issue.code = codeInvalidConfiguration := by
  by_cases faulty : 0 < rules.faultyParts
  · refine iff_of_true ?_ (.inl faulty)
    have some : 0 < (rules.faultViolations alphabet path).length := by
      rw [rules.fault_violations_count alphabet path]
      exact faulty
    obtain ⟨violation, member⟩ := List.length_pos_iff_exists_mem.mp some
    exact ⟨violation, (rules.fault_violations_reported alphabet path input).subset member,
      rules.fault_violations_code alphabet path violation member⟩
  · have sound : rules.faultyParts = 0 := by omega
    rw [rules.reported_called alphabet path input sound]
    constructor
    · rintro ⟨violation, member, code⟩
      obtain ⟨leaf, active, rfl⟩ := List.mem_map.mp member
      exact .inr ⟨leaf, active, (leaf_configuration alphabet named leaf).mp code⟩
    · rintro (impossible | ⟨leaf, active, wrong⟩)
      · exact absurd impossible faulty
      · exact ⟨_, List.mem_map_of_mem active, (leaf_configuration alphabet named leaf).mpr wrong⟩

theorem path_named {path : Bytes} (valid : validPath alphabet path = true) : path ≠ [] := by
  rintro rfl
  cases valid

theorem apply_rule_tree (path : Bytes) (valid : validPath alphabet path = true) (rules : Rules T) (input : Input T) :
    ∃ report, apply alphabet path input rules = some report ∧
      ((∃ violation ∈ report, violation.code = codeInvalidConfiguration) ↔
        0 < rules.faults ∨
          ∃ leaf ∈ rules.leaves input, leaf.malformed alphabet = true ∨ leaf.issue.code = codeInvalidConfiguration) ∧
      ((faultReport alphabet path rules).Sublist report ∧
        (faultReport alphabet path rules).length = rules.faults ∧
        (∀ violation ∈ faultReport alphabet path rules, violation.code = codeInvalidConfiguration) ∧
        ∀ other : Rules T, other.unconditional = rules.unconditional →
          faultReport alphabet path other = faultReport alphabet path rules) ∧
      (rules.faults = 0 → (∀ leaf ∈ rules.leaves input, leaf.malformed alphabet = false) →
        report = (rules.leaves input).map (Leaf.violation path)) := by
  have named := path_named alphabet valid
  have present : ¬ validPath alphabet path = false := by
    rw [valid]
    decide
  have alike : ∀ other : Rules T, other.unconditional = rules.unconditional →
      faultReport alphabet path other = faultReport alphabet path rules := by
    intro other same
    rw [faultReport, faultReport, ← other.unconditional_empty, ← rules.unconditional_empty,
      ← other.fault_violations_unconditional alphabet path, ← rules.fault_violations_unconditional alphabet path, same]
  rw [apply, if_neg present, Rules.faults]
  cases rules with
  | nil =>
    refine ⟨_, rfl, iff_of_true ⟨_, List.mem_singleton_self _, rfl⟩ (.inl Nat.one_pos),
      ⟨List.Sublist.refl _, rfl, ?_, alike⟩, fun impossible => by cases impossible⟩
    intro violation member
    rw [List.mem_singleton.mp member]
    rfl
  | cons rule rest =>
    have reported := apply_rules_reported alphabet path input (.cons rule rest)
    exact ⟨_, reported, Rules.reported_configuration alphabet path named input _,
      ⟨Rules.fault_violations_reported alphabet path input _, Rules.fault_violations_count alphabet path _,
        Rules.fault_violations_code alphabet path _, alike⟩,
      Rules.reported_sound alphabet path named input _⟩

end

theorem apply_rule_tree_names :
    let plain : Alphabet := ⟨fun _ => false, fun _ => false⟩
    let rules : Rules (List Bytes) := .cons (each (.cons (stringLength 2 3) .nil)) .nil
    let input : Input (List Bytes) := .present [ascii "go", ascii "x"]
    validPath plain (ascii "tags") = true ∧ rules.faults = 0 ∧
      ∃ report, apply plain (ascii "tags") input rules = some report ∧
        report = [⟨ascii "tags.1", ascii "string.min", ascii "must be at least 2 characters"⟩] := by
  intro plain rules input
  refine ⟨by decide +kernel, by decide +kernel, ?_⟩
  obtain ⟨report, applied, _, _, exact⟩ := apply_rule_tree plain (ascii "tags") (by decide +kernel) rules input
  exact ⟨report, applied, by rw [exact (by decide +kernel) (by decide +kernel)]; decide +kernel⟩

-- A function may return the configuration code itself, and an index may make a
-- path too long, so neither a faulty part nor an issue that is malformed by
-- itself is needed.
theorem sound_tree_reports_configuration :
    let plain : Alphabet := ⟨fun _ => false, fun _ => false⟩
    let formed (issue : Issue) : Bool :=
      validRelativePath plain issue.path && validCode issue.code && validMessage issue.message
    let own : Issue := ⟨[], codeInvalidConfiguration, ascii "is wrong"⟩
    let long : Issue := ⟨List.replicate 511 (byte 'a'), ascii "custom", ascii "is wrong"⟩
    let returning (issue : Issue) : Rules Unit := .cons (.func (some (fun _ => [issue]))) .nil
    let nested : Rules (List Unit) := .cons (each (returning long)) .nil
    (formed own = true ∧ (returning own).faults = 0 ∧
      apply plain (ascii "name") (.present ()) (returning own) =
        some [⟨ascii "name", codeInvalidConfiguration, ascii "is wrong"⟩]) ∧
    formed long = true ∧ nested.faults = 0 ∧
      apply plain (ascii "name") (.present [()]) nested =
        some [configurationViolation (ascii "name") (ascii "validation rule returned an invalid issue")] := by
  decide +kernel

end Goforge.Validation

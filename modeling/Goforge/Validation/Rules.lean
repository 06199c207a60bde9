import Goforge.Lib.GoIdentifier
import Goforge.Lib.Strconv

set_option autoImplicit false

namespace Goforge.Validation

open GoString
open GoIdentifier (Alphabet nameRune)

inductive State where
  | missing
  | null
  | empty
  | present
deriving DecidableEq, Repr

-- The zero value is missing. Only a present input holds a decoded value.
inductive Input (T : Type) where
  | missing
  | null
  | empty
  | present (value : T)

def Input.state {T : Type} : Input T → State
  | .missing => .missing
  | .null => .null
  | .empty => .empty
  | .present _ => .present

def Input.value {T : Type} : Input T → Option T
  | .present value => some value
  | _ => none

structure Issue where
  path : Bytes
  code : Bytes
  message : Bytes
deriving DecidableEq, Repr

structure Violation where
  path : Bytes
  code : Bytes
  message : Bytes
deriving DecidableEq, Repr

def codeInvalidConfiguration : Bytes := ascii "validation.configuration"

def configurationIssue (message : Bytes) : Issue := ⟨[], codeInvalidConfiguration, message⟩

def configurationViolation (path message : Bytes) : Violation := ⟨path, codeInvalidConfiguration, message⟩

def configurationReport (message : Bytes) : List Violation := [configurationViolation (ascii "$") message]

section

variable (alphabet : Alphabet)

def fieldRune (r : Nat) : Bool := nameRune alphabet r || decide (r = 45)

def validPath (path : Bytes) : Bool :=
  if path = [] ∨ path = ascii "$" ∨ 512 < path.length ∨ validUtf8 path = false ∨ trimSpace path ≠ path then false
  else (split (byte '.') path).all (fun segment => segment ≠ [] && (runes segment).all (fieldRune alphabet))

def validRelativePath (path : Bytes) : Bool := path = [] || validPath alphabet path

def lowerRune (r : Nat) : Bool := decide (97 ≤ r ∧ r ≤ 122)

def codeRune (r : Nat) : Bool := lowerRune r || decide (48 ≤ r ∧ r ≤ 57) || decide (r = 95 ∨ r = 45 ∨ r = 46)

def validCode (code : Bytes) : Bool :=
  if code = [] ∨ 128 < code.length ∨ trimSpace code ≠ code then false
  else
    (match runes code with
      | [] => true
      | first :: rest => lowerRune first && rest.all codeRune) &&
    (index (ascii "..") code).isNone && code.getLast? ≠ some (byte '.')

-- unicode.IsControl
def isControl (r : Nat) : Bool := decide (r < 0x20) || decide (0x7f ≤ r ∧ r < 0xa0)

def validMessage (message : Bytes) : Bool :=
  if trimSpace message = [] ∨ 1024 < message.length ∨ validUtf8 message = false then false
  else (runes message).all (fun r => !isControl r)

def joinPath (front back : Bytes) : Bytes :=
  if front = [] then back else if back = [] then front else front ++ ascii "." ++ back

def appended (path : Bytes) (issue : Issue) : Violation :=
  if !validRelativePath alphabet issue.path || !validCode issue.code || !validMessage issue.message then
    configurationViolation path (ascii "validation rule returned an invalid issue")
  else ⟨joinPath path issue.path, issue.code, issue.message⟩

def appendIssues (path : Bytes) (issues : List Issue) : List Violation := issues.map (appended alphabet path)

end

mutual

-- The values of the interface Rule: absent is nil, and a function may be nil
-- too. An application's own type has no configuration issues.
inductive Rule : Type → Type 1 where
  | absent {T : Type} : Rule T
  | func {T : Type} (call : Option (Input T → List Issue)) : Rule T
  | application {T : Type} (call : Input T → List Issue) : Rule T
  | invalid {T : Type} (message : Bytes) : Rule T
  | each {T : Type} (rules : Rules T) : Rule (List T)
  | conditional {T : Type} (condition : Bool) (rules : Rules T) : Rule T

inductive Rules : Type → Type 1 where
  | nil {T : Type} : Rules T
  | cons {T : Type} (rule : Rule T) (rest : Rules T) : Rules T

end

def Rule.isNil {T : Type} : Rule T → Bool
  | .absent => true
  | _ => false

def Rules.isEmpty {T : Type} : Rules T → Bool
  | .nil => true
  | .cons _ _ => false

def nilFunction : Issue := configurationIssue (ascii "validation rule function must not be nil")

mutual

def Rule.configurationIssues {T : Type} : Rule T → List Issue
  | .absent => []
  | .func none => [nilFunction]
  | .func (some _) => []
  | .application _ => []
  | .invalid message => [configurationIssue message]
  | .each rules =>
    if rules.isEmpty then [configurationIssue (ascii "list item validation must have at least one rule")]
    else rules.configurationIssues (ascii "list item validation rule must not be nil")
  | .conditional _ rules =>
    if rules.isEmpty then [configurationIssue (ascii "conditional validation must have at least one rule")]
    else rules.configurationIssues (ascii "conditional validation rule must not be nil")

-- The loop over the rules of a group; the text is reported for a nil rule.
def Rules.configurationIssues {T : Type} (nilText : Bytes) : Rules T → List Issue
  | .nil => []
  | .cons rule rest =>
    (if rule.isNil then [configurationIssue nilText] else rule.configurationIssues) ++
      rest.configurationIssues nilText

end

-- The loop of eachRule.Validate over the items from the given index on.
def eachItem {T : Type} (validate : Input T → Option (List Issue)) (index : Nat) : List T → Option (List Issue)
  | [] => some []
  | item :: rest => do
      let issues ← validate (.present item)
      let others ← eachItem validate (index + 1) rest
      return issues.map (fun issue => { issue with path := joinPath (decimal index) issue.path }) ++ others

mutual

-- There is no result when a nil rule is called, which panics.
def Rule.validate {T : Type} : Rule T → Input T → Option (List Issue)
  | .absent, _ => none
  | .func none, _ => some [nilFunction]
  | .func (some call), input => some (call input)
  | .application call, input => some (call input)
  | .invalid message, _ => some [configurationIssue message]
  | .each rules, input =>
    match input.value with
    | none => some []
    | some items => eachItem (fun item => rules.validate item) 0 items
  | .conditional condition rules, input => if !condition then some [] else rules.validate input

def Rules.validate {T : Type} : Rules T → Input T → Option (List Issue)
  | .nil, _ => some []
  | .cons rule rest, input => do
      let issues ← rule.validate input
      let others ← rest.validate input
      return issues ++ others

end

section

variable (alphabet : Alphabet) {T : Type}

-- The loop of Apply.
def applyRules (path : Bytes) (input : Input T) : Rules T → Option (List Violation)
  | .nil => some []
  | .cons rule rest => do
      let violations ←
        if rule.isNil then some [configurationViolation path (ascii "validation rule must not be nil")]
        else if 0 < rule.configurationIssues.length then some (appendIssues alphabet path rule.configurationIssues)
        else (rule.validate input).map (appendIssues alphabet path)
      let others ← applyRules path input rest
      return violations ++ others

def apply (path : Bytes) (input : Input T) (rules : Rules T) : Option (List Violation) :=
  if validPath alphabet path = false then
    some (configurationReport (ascii "validation field path must be a dot-separated field path"))
  else if rules.isEmpty then
    some [configurationViolation path (ascii "validation field must have at least one rule")]
  else applyRules alphabet path input rules

end

def each {T : Type} (rules : Rules T) : Rule (List T) := .each rules

def when {T : Type} (condition : Bool) (rules : Rules T) : Rule T := .conditional condition rules

def required {T : Type} : Rule T :=
  .func (some (fun input => if input.state = .present then [] else [⟨[], ascii "required", ascii "is required"⟩]))

def lengthRule {T : Type} (invalidText : String) (lowCode highCode lowText highText unit : String) (length : T → Nat)
    (minimum maximum : Int) : Rule T :=
  if minimum < 0 ∨ maximum < 0 ∨ maximum < minimum then .invalid (ascii invalidText)
  else .func (some (fun input =>
    match input.value with
    | none => []
    | some value =>
      if (length value : Int) < minimum then [⟨[], ascii lowCode, ascii lowText ++ Strconv.itoa minimum ++ ascii unit⟩]
      else if maximum < length value then [⟨[], ascii highCode, ascii highText ++ Strconv.itoa maximum ++ ascii unit⟩]
      else []))

def stringLength : Int → Int → Rule Bytes :=
  lengthRule "string length bounds must be non-negative and minimum must not exceed maximum"
    "string.min" "string.max" "must be at least " "must be at most " " characters" (fun value => (runes value).length)

def listSize {T : Type} : Int → Int → Rule (List T) :=
  lengthRule "list size bounds must be non-negative and minimum must not exceed maximum"
    "list.min" "list.max" "must contain at least " "must contain at most " " items" List.length

-- What a numeric type brings: whether its value is finite, the order, and the
-- text of a value in a message.
structure Number (T : Type) where
  finite : T → Bool
  less : T → T → Bool
  format : T → Bytes

def numberRange {T : Type} (number : Number T) (minimum maximum : T) : Rule T :=
  if !number.finite minimum || !number.finite maximum || number.less maximum minimum then
    .invalid (ascii "number range minimum and maximum must be finite ordered numbers")
  else .func (some (fun input =>
    match input.value with
    | none => []
    | some value =>
      if !number.finite value then [⟨[], ascii "number.finite", ascii "must be a finite number"⟩]
      else if number.less value minimum then
        [⟨[], ascii "number.min", ascii "must be at least " ++ number.format minimum⟩]
      else if number.less maximum value then
        [⟨[], ascii "number.max", ascii "must be at most " ++ number.format maximum⟩]
      else []))

def repeats {T : Type} [BEq T] (seen : List T) : List T → Bool
  | [] => false
  | item :: rest => seen.any (fun other => other == item) || repeats (item :: seen) rest

def listUnique {T : Type} [BEq T] : Rule (List T) :=
  .func (some (fun input =>
    match input.value with
    | none => []
    | some items =>
      if repeats [] items then [⟨[], ascii "list.unique", ascii "must not contain duplicate items"⟩] else []))

end Goforge.Validation

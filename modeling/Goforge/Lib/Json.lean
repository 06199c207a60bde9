import Mathlib.Init

set_option autoImplicit false

namespace Json

-- The byte scanner behind encoding/json's Valid, state by state.
inductive ScanState where
  | beginValue
  | beginValueOrEmpty
  | beginStringOrEmpty
  | beginString
  | endValue
  | endTop
  | inString
  | inStringEsc
  | inStringEscU (left : Nat)
  | neg
  | one
  | zero
  | dot
  | dotDigit
  | exp
  | expSign
  | expDigit
  | literal (rest : List Char)
deriving DecidableEq

inductive ParseState where
  | objectKey
  | objectValue
  | arrayValue
deriving DecidableEq

structure Scanner where
  state : ScanState
  parseState : List ParseState
deriving DecidableEq

def maxNestingDepth : Nat := 10000

def isSpace (c : Char) : Bool := c = ' ' || c = '\t' || c = '\r' || c = '\n'

def isDigit (c : Char) : Bool := '0' ≤ c && c ≤ '9'

def isHex (c : Char) : Bool := isDigit c || ('a' ≤ c && c ≤ 'f') || ('A' ≤ c && c ≤ 'F')

def pushParseState (stack : List ParseState) (top : ParseState) (success : ScanState) : Option Scanner :=
  if (top :: stack).length ≤ maxNestingDepth then some ⟨success, top :: stack⟩ else none

def popParseState (stack : List ParseState) : Scanner :=
  if stack = [] then ⟨.endTop, []⟩ else ⟨.endValue, stack⟩

def stateEndTop (stack : List ParseState) (c : Char) : Option Scanner :=
  if isSpace c then some ⟨.endTop, stack⟩ else none

def stateEndValue (stack : List ParseState) (c : Char) : Option Scanner :=
  match stack with
  | [] => stateEndTop [] c
  | top :: rest =>
    if isSpace c then some ⟨.endValue, top :: rest⟩
    else
      match top with
      | .objectKey => if c = ':' then some ⟨.beginValue, .objectValue :: rest⟩ else none
      | .objectValue =>
        if c = ',' then some ⟨.beginString, .objectKey :: rest⟩
        else if c = '}' then some (popParseState rest) else none
      | .arrayValue =>
        if c = ',' then some ⟨.beginValue, .arrayValue :: rest⟩
        else if c = ']' then some (popParseState rest) else none

def stateBeginValue (stack : List ParseState) (c : Char) : Option Scanner :=
  if isSpace c then some ⟨.beginValue, stack⟩
  else if c = '{' then pushParseState stack .objectKey .beginStringOrEmpty
  else if c = '[' then pushParseState stack .arrayValue .beginValueOrEmpty
  else if c = '"' then some ⟨.inString, stack⟩
  else if c = '-' then some ⟨.neg, stack⟩
  else if c = '0' then some ⟨.zero, stack⟩
  else if c = 't' then some ⟨.literal ['r', 'u', 'e'], stack⟩
  else if c = 'f' then some ⟨.literal ['a', 'l', 's', 'e'], stack⟩
  else if c = 'n' then some ⟨.literal ['u', 'l', 'l'], stack⟩
  else if isDigit c then some ⟨.one, stack⟩
  else none

def stateBeginString (stack : List ParseState) (c : Char) : Option Scanner :=
  if isSpace c then some ⟨.beginString, stack⟩
  else if c = '"' then some ⟨.inString, stack⟩
  else none

def stateZero (stack : List ParseState) (c : Char) : Option Scanner :=
  if c = '.' then some ⟨.dot, stack⟩
  else if c = 'e' ∨ c = 'E' then some ⟨.exp, stack⟩
  else stateEndValue stack c

def stateExpSign (stack : List ParseState) (c : Char) : Option Scanner :=
  if isDigit c then some ⟨.expDigit, stack⟩ else none

def step (s : Scanner) (c : Char) : Option Scanner :=
  match s.state with
  | .beginValue => stateBeginValue s.parseState c
  | .beginValueOrEmpty =>
    if isSpace c then some s
    else if c = ']' then stateEndValue s.parseState c
    else stateBeginValue s.parseState c
  | .beginStringOrEmpty =>
    if isSpace c then some s
    else if c = '}' then stateEndValue (.objectValue :: s.parseState.tail) c
    else stateBeginString s.parseState c
  | .beginString => stateBeginString s.parseState c
  | .endValue => stateEndValue s.parseState c
  | .endTop => stateEndTop s.parseState c
  | .inString =>
    if c = '"' then some ⟨.endValue, s.parseState⟩
    else if c = '\\' then some ⟨.inStringEsc, s.parseState⟩
    else if c < ' ' then none
    else some s
  | .inStringEsc =>
    if c = 'b' ∨ c = 'f' ∨ c = 'n' ∨ c = 'r' ∨ c = 't' ∨ c = '\\' ∨ c = '/' ∨ c = '"' then
      some ⟨.inString, s.parseState⟩
    else if c = 'u' then some ⟨.inStringEscU 3, s.parseState⟩
    else none
  | .inStringEscU left =>
    if isHex c then
      match left with
      | 0 => some ⟨.inString, s.parseState⟩
      | more + 1 => some ⟨.inStringEscU more, s.parseState⟩
    else none
  | .neg =>
    if c = '0' then some ⟨.zero, s.parseState⟩
    else if isDigit c then some ⟨.one, s.parseState⟩
    else none
  | .one => if isDigit c then some s else stateZero s.parseState c
  | .zero => stateZero s.parseState c
  | .dot => if isDigit c then some ⟨.dotDigit, s.parseState⟩ else none
  | .dotDigit =>
    if isDigit c then some s
    else if c = 'e' ∨ c = 'E' then some ⟨.exp, s.parseState⟩
    else stateEndValue s.parseState c
  | .exp => if c = '+' ∨ c = '-' then some ⟨.expSign, s.parseState⟩ else stateExpSign s.parseState c
  | .expSign => stateExpSign s.parseState c
  | .expDigit => if isDigit c then some s else stateEndValue s.parseState c
  | .literal [] => none
  | .literal [last] => if c = last then some ⟨.endValue, s.parseState⟩ else none
  | .literal (next :: more) => if c = next then some ⟨.literal more, s.parseState⟩ else none

def scan (s : Scanner) (text : List Char) : Option Scanner := text.foldlM step s

def eof (s : Scanner) : Bool :=
  match step s ' ' with
  | some t => decide (t.state = .endTop)
  | none => false

def valid (text : String) : Bool :=
  match scan ⟨.beginValue, []⟩ text.toList with
  | some s => eof s
  | none => false

def Finished (stack : List ParseState) (s : Scanner) : Prop :=
  ∀ c, isDigit c = false → c ≠ '.' → c ≠ 'e' → c ≠ 'E' → step s c = stateEndValue stack c

theorem scan_append (s : Scanner) (a b : List Char) : scan s (a ++ b) = (scan s a).bind (fun t => scan t b) := by
  simp [scan]

theorem scan_cons (s : Scanner) (c : Char) (rest : List Char) :
    scan s (c :: rest) = (step s c).bind (fun t => scan t rest) := by
  simp [scan]

theorem finished_end_value (stack : List ParseState) : Finished stack ⟨.endValue, stack⟩ :=
  fun _ _ _ _ _ => rfl

theorem finished_pop (stack : List ParseState) : Finished stack (popParseState stack) := by
  intro c _ _ _ _
  cases stack <;> rfl

theorem finished_zero (stack : List ParseState) : Finished stack ⟨.zero, stack⟩ := by
  intro c _ dot lower upper
  simp [step, stateZero, dot, lower, upper]

theorem finished_one (stack : List ParseState) : Finished stack ⟨.one, stack⟩ := by
  intro c digit dot lower upper
  simp [step, stateZero, digit, dot, lower, upper]

theorem finished_dot_digit (stack : List ParseState) : Finished stack ⟨.dotDigit, stack⟩ := by
  intro c digit _ lower upper
  simp [step, digit, lower, upper]

theorem finished_eof {s : Scanner} (finished : Finished [] s) : eof s = true := by
  have next := finished ' ' (by decide) (by decide) (by decide) (by decide)
  simp [eof, next, stateEndValue, stateEndTop, isSpace]

end Json

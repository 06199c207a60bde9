import Goforge.Lib.GoString

set_option autoImplicit false

namespace Sql

open GoString

inductive Token where
  | word (text : Bytes)
  | quoted (text : Bytes)
  | literal (text : Bytes)
  | parameter (number : Nat)
  | punctuation (b : UInt8)
  | operator (text : Bytes)
  | invalid (b : UInt8)
deriving DecidableEq, Repr

inductive Mode where
  | gap
  | word (text : Bytes)
  | quoted (text : Bytes)
  | quotedEnd (text : Bytes)
  | literal (text : Bytes)
  | literalEnd (text : Bytes)
  | dollar
  | parameter (number : Nat)
  | operator (text : Bytes)
deriving DecidableEq, Repr

def isWordStart (b : UInt8) : Bool := within (byte 'a') (byte 'z') b || within (byte 'A') (byte 'Z') b || b = byte '_'

def isWordByte (b : UInt8) : Bool := isWordStart b || isDigit b

def isPunctuation (b : UInt8) : Bool := b = byte '(' || b = byte ')' || b = byte ',' || b = byte '.'

def isOperator (b : UInt8) : Bool :=
  b = byte '=' || b = byte '<' || b = byte '>' || b = byte '+' || b = byte '-' || b = byte '*' || b = byte '/'

def Mode.flush : Mode → List Token
  | .gap => []
  | .word text => [.word text]
  | .quoted _ => [.invalid dquote]
  | .quotedEnd text => [.quoted text]
  | .literal _ => [.invalid squote]
  | .literalEnd text => [.literal text]
  | .dollar => [.invalid (byte '$')]
  | .parameter number => [.parameter number]
  | .operator text => [.operator text]

def Mode.extend (b : UInt8) : Mode → Option Mode
  | .gap => none
  | .word text => if isWordByte b then some (.word (text ++ [b])) else none
  | .quoted text => some (if b = dquote then .quotedEnd text else .quoted (text ++ [b]))
  | .quotedEnd text => if b = dquote then some (.quoted (text ++ [b])) else none
  | .literal text => some (if b = squote then .literalEnd text else .literal (text ++ [b]))
  | .literalEnd text => if b = squote then some (.literal (text ++ [b])) else none
  | .dollar => if isDigit b then some (.parameter (b.toNat - 48)) else none
  | .parameter number => if isDigit b then some (.parameter (number * 10 + (b.toNat - 48))) else none
  | .operator text => if isOperator b then some (.operator (text ++ [b])) else none

def start (b : UInt8) : Mode × List Token :=
  if space1 b then (.gap, [])
  else if isWordStart b then (.word [b], [])
  else if b = dquote then (.quoted [], [])
  else if b = squote then (.literal [], [])
  else if b = byte '$' then (.dollar, [])
  else if isOperator b then (.operator [b], [])
  else if isPunctuation b then (.gap, [.punctuation b])
  else (.gap, [.invalid b])

def scan (mode : Mode) : Bytes → Mode × List Token
  | [] => (mode, [])
  | b :: rest =>
    match mode.extend b with
    | some next => scan next rest
    | none => ((scan (start b).1 rest).1, mode.flush ++ (start b).2 ++ (scan (start b).1 rest).2)

def lex (text : Bytes) : List Token := (scan .gap text).2 ++ (scan .gap text).1.flush

def Mode.ready : Mode → Bool
  | .quoted _ | .literal _ => false
  | _ => true

def isDelimiter (b : UInt8) : Bool := b = byte ' ' || isPunctuation b

def Lexes (text : Bytes) (tokens : List Token) : Prop :=
  (scan .gap text).1.ready = true ∧ (scan .gap text).2 ++ (scan .gap text).1.flush = tokens

def Closed (text : Bytes) (tokens : List Token) : Prop := scan .gap text = (.gap, tokens)

instance (text : Bytes) (tokens : List Token) : Decidable (Lexes text tokens) :=
  inferInstanceAs (Decidable (_ ∧ _))

instance (text : Bytes) (tokens : List Token) : Decidable (Closed text tokens) :=
  inferInstanceAs (Decidable (_ = _))

theorem scan_append (mode : Mode) (text rest : Bytes) :
    scan mode (text ++ rest) =
      ((scan (scan mode text).1 rest).1, (scan mode text).2 ++ (scan (scan mode text).1 rest).2) := by
  induction text generalizing mode with
  | nil => rfl
  | cons b text ih =>
    rw [List.cons_append, scan, scan]
    cases mode.extend b with
    | some next => exact ih next
    | none => simp only [ih, List.append_assoc]

theorem delimiter_extends {mode : Mode} {b : UInt8} (ready : mode.ready = true) (delimiter : isDelimiter b = true) :
    mode.extend b = none := by
  have plain : isWordByte b = false ∧ isDigit b = false ∧ isOperator b = false ∧ b ≠ dquote ∧ b ≠ squote := by
    simp only [isDelimiter, isPunctuation, Bool.or_eq_true, decide_eq_true_eq] at delimiter
    rcases delimiter with rfl | (((rfl | rfl) | rfl) | rfl) <;> decide
  cases mode <;> simp_all [Mode.extend, Mode.ready]

theorem scan_delimited {mode : Mode} {b : UInt8} (rest : Bytes) (ready : mode.ready = true)
    (delimiter : isDelimiter b = true) :
    scan mode (b :: rest) = ((scan .gap (b :: rest)).1, mode.flush ++ (scan .gap (b :: rest)).2) := by
  rw [scan, scan, delimiter_extends ready delimiter, delimiter_extends rfl delimiter]
  simp only [Mode.flush, List.nil_append, List.append_assoc]

theorem lexes_nil : Lexes [] [] := ⟨rfl, rfl⟩

theorem closed_append (text : Bytes) {rest : Bytes} (tokens : List Token) {more : List Token}
    (closed : Closed text tokens) (lexed : Lexes rest more) : Lexes (text ++ rest) (tokens ++ more) := by
  rw [Lexes, scan_append, closed]
  exact ⟨lexed.1, by rw [List.append_assoc, lexed.2]⟩

variable {text : Bytes} {tokens : List Token}

theorem lexes_append (rest : Bytes) (b : UInt8) (more : List Token) (lexed : Lexes text tokens)
    (next : Lexes (b :: rest) more) (delimiter : isDelimiter b = true) :
    Lexes (text ++ b :: rest) (tokens ++ more) := by
  rw [Lexes, scan_append, scan_delimited rest lexed.1 delimiter]
  refine ⟨next.1, ?_⟩
  rw [← lexed.2, ← next.2]
  simp only [List.append_assoc]

theorem lexes_closed (rest : Bytes) (b : UInt8) (more : List Token) (lexed : Lexes text tokens)
    (next : Closed (b :: rest) more) (delimiter : isDelimiter b = true) :
    Closed (text ++ b :: rest) (tokens ++ more) := by
  rw [Closed, scan_append, scan_delimited rest lexed.1 delimiter, next, ← lexed.2, List.append_assoc]

def Spaced (part : Bytes) : Prop := part = [] ∨ ∃ rest, part = byte ' ' :: rest

theorem lexes_spaced {part : Bytes} {more : List Token} (lexed : Lexes text tokens) (next : Lexes part more)
    (spaced : Spaced part) : Lexes (text ++ part) (tokens ++ more) := by
  rcases spaced with rfl | ⟨rest, rfl⟩
  · obtain rfl : more = [] := next.2.symm
    rw [List.append_nil, List.append_nil]
    exact lexed
  · exact lexes_append rest (byte ' ') more lexed next (by decide)

theorem lex_lexes (lexed : Lexes text tokens) : lex text = tokens := lexed.2

theorem scan_quoted (text : Bytes) {name : Bytes} {rest : Bytes} (absent : dquote ∉ name) :
    scan (.quoted text) (name ++ rest) = scan (.quoted (text ++ name)) rest := by
  induction name generalizing text with
  | nil => rw [List.append_nil, List.nil_append]
  | cons b name ih =>
    simp only [List.mem_cons, not_or] at absent
    rw [List.cons_append, scan, Mode.extend, if_neg (Ne.symm absent.1)]
    simp only [ih _ absent.2, List.append_assoc, List.singleton_append]

theorem lexes_quoted {name : Bytes} (absent : dquote ∉ name) : Lexes (dquote :: (name ++ [dquote])) [.quoted name] := by
  have read : scan .gap (dquote :: (name ++ [dquote])) = (.quotedEnd name, []) := by
    rw [scan]
    simp only [Mode.extend, show start dquote = (.quoted [], []) from rfl, scan_quoted [] absent, List.nil_append]
    rfl
  rw [Lexes, read]
  exact ⟨rfl, rfl⟩

theorem scan_digits (number : Nat) {digits : Bytes} (all : ∀ b ∈ digits, isDigit b = true) :
    scan (.parameter number) digits =
      (.parameter (digits.foldl (fun value b => value * 10 + (b.toNat - 48)) number), []) := by
  induction digits generalizing number with
  | nil => rfl
  | cons b digits ih =>
    rw [scan, Mode.extend, if_pos (all b List.mem_cons_self)]
    exact ih _ (fun other member => all other (List.mem_cons_of_mem b member))

theorem lexes_parameter (number : Nat) : Lexes (byte '$' :: decimal number) [.parameter number] := by
  have all := decimal_all_digits number
  have value := decimal_value number
  have read : scan .gap (byte '$' :: decimal number) = (.parameter number, []) := by
    rw [scan]
    simp only [Mode.extend, show start (byte '$') = (.dollar, []) from rfl]
    cases digits : decimal number with
    | nil => exact absurd digits (decimal_nonempty number)
    | cons b rest =>
      rw [digits] at all value
      rw [scan, Mode.extend, if_pos (all b List.mem_cons_self)]
      simp only [scan_digits _ (fun other member => all other (List.mem_cons_of_mem b member))]
      rw [List.foldl_cons, Nat.zero_mul, Nat.zero_add] at value
      rw [value]
      rfl
  rw [Lexes, read]
  exact ⟨rfl, rfl⟩

def parameters (tokens : List Token) : List Nat :=
  tokens.filterMap (fun token => match token with
    | .parameter number => some number
    | _ => none)

theorem parameters_append (tokens more : List Token) :
    parameters (tokens ++ more) = parameters tokens ++ parameters more := List.filterMap_append

end Sql

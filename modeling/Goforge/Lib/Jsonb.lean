import Goforge.Lib.Json

set_option autoImplicit false

namespace Sql

-- A stored number, always written out in full: no exponent, no leading zero.
structure Numeric where
  negative : Bool
  whole : List (Fin 10)
  frac : List (Fin 10)
  canonical : whole = [0] ∨ ∃ lead rest, whole = lead :: rest ∧ lead ≠ 0

-- Stored jsonb values. Items and Members are the element lists of arrays and
-- objects; removing duplicate keys is the business of the input function.
mutual
inductive Jsonb where
  | null
  | bool (value : Bool)
  | number (value : Numeric)
  | string (value : String)
  | array (items : Items)
  | object (members : Members)
inductive Items where
  | nil
  | cons (value : Jsonb) (tail : Items)
inductive Members where
  | nil
  | cons (key : String) (value : Jsonb) (tail : Members)
end

def digitChar (digit : Fin 10) : Char := "0123456789".toList.getD digit.val '0'

def Numeric.text (value : Numeric) : List Char :=
  (if value.negative then ['-'] else []) ++ value.whole.map digitChar ++
    (if value.frac = [] then [] else '.' :: value.frac.map digitChar)

def controlHex (c : Char) : List Char :=
  [if c.toNat < 16 then '0' else '1', "0123456789abcdef".toList.getD (c.toNat % 16) '0']

def escapeChar (c : Char) : List Char :=
  if c = '"' then ['\\', '"']
  else if c = '\\' then ['\\', '\\']
  else if c.toNat = 8 then ['\\', 'b']
  else if c.toNat = 12 then ['\\', 'f']
  else if c = '\n' then ['\\', 'n']
  else if c = '\r' then ['\\', 'r']
  else if c = '\t' then ['\\', 't']
  else if c < ' ' then ['\\', 'u', '0', '0'] ++ controlHex c
  else [c]

def stringText (value : String) : List Char :=
  '"' :: (value.toList.flatMap escapeChar ++ ['"'])

-- One space after every colon and comma, none elsewhere.
mutual
def Jsonb.chars : Jsonb → List Char
  | .null => ['n', 'u', 'l', 'l']
  | .bool true => ['t', 'r', 'u', 'e']
  | .bool false => ['f', 'a', 'l', 's', 'e']
  | .number value => value.text
  | .string value => stringText value
  | .array .nil => ['[', ']']
  | .array (.cons value tail) => '[' :: (value.chars ++ (tail.more ++ [']']))
  | .object .nil => ['{', '}']
  | .object (.cons key value tail) =>
    '{' :: (stringText key ++ (':' :: ' ' :: (value.chars ++ (tail.more ++ ['}']))))
def Items.more : Items → List Char
  | .nil => []
  | .cons value tail => ',' :: ' ' :: (value.chars ++ tail.more)
def Members.more : Members → List Char
  | .nil => []
  | .cons key value tail => ',' :: ' ' :: (stringText key ++ (':' :: ' ' :: (value.chars ++ tail.more)))
end

def Jsonb.text (value : Jsonb) : String := String.ofList value.chars

mutual
def Jsonb.depth : Jsonb → Nat
  | .array items => items.depth + 1
  | .object members => members.depth + 1
  | _ => 0
def Items.depth : Items → Nat
  | .nil => 0
  | .cons value tail => max value.depth tail.depth
def Members.depth : Members → Nat
  | .nil => 0
  | .cons _ value tail => max value.depth tail.depth
end

open Json

variable (value : Numeric) {stack : List ParseState} (digit : Fin 10)

theorem digit_char_digit : isDigit (digitChar digit) = true := by
  revert digit
  decide

theorem digit_char_zero : digitChar digit = '0' ↔ digit = 0 := by
  revert digit
  decide

theorem digit_char_plain :
    isSpace (digitChar digit) = false ∧ digitChar digit ≠ '{' ∧ digitChar digit ≠ '[' ∧ digitChar digit ≠ '"' ∧
      digitChar digit ≠ '-' ∧ digitChar digit ≠ 't' ∧ digitChar digit ≠ 'f' ∧ digitChar digit ≠ 'n' ∧
      digitChar digit ≠ ']' := by
  revert digit
  decide

theorem digit_begins (stack : List ParseState) :
    step ⟨.beginValue, stack⟩ (digitChar digit) = some ⟨if digit = 0 then .zero else .one, stack⟩ := by
  obtain ⟨space, brace, bracket, quote, minus, t, f, n, _⟩ := digit_char_plain digit
  simp only [step, stateBeginValue, space, brace, bracket, quote, minus, t, f, n, digit_char_digit,
    digit_char_zero, Bool.false_eq_true, if_false, if_true]
  split <;> rfl

theorem digit_after_minus (stack : List ParseState) :
    step ⟨.neg, stack⟩ (digitChar digit) = some ⟨if digit = 0 then .zero else .one, stack⟩ := by
  simp only [step, digit_char_zero, digit_char_digit, if_true]
  split <;> rfl

theorem scan_more_digits {state : ScanState} (digits : List (Fin 10))
    (loop : ∀ c, isDigit c = true → step ⟨state, stack⟩ c = some ⟨state, stack⟩) :
    scan ⟨state, stack⟩ (digits.map digitChar) = some ⟨state, stack⟩ := by
  induction digits with
  | nil => rfl
  | cons digit rest ih =>
    rw [List.map_cons, scan_cons, loop _ (digit_char_digit digit)]
    exact ih

theorem scan_whole {s : Scanner}
    (begin : ∀ digit, step s (digitChar digit) = some ⟨if digit = 0 then .zero else .one, stack⟩) :
    ∃ state, (state = .zero ∨ state = .one) ∧ scan s (value.whole.map digitChar) = some ⟨state, stack⟩ := by
  rcases value.canonical with single | ⟨lead, rest, shape, nonzero⟩
  · refine ⟨.zero, .inl rfl, ?_⟩
    rw [single, List.map_cons, scan_cons, begin 0]
    rfl
  · refine ⟨.one, .inr rfl, ?_⟩
    rw [shape, List.map_cons, scan_cons, begin lead, if_neg nonzero]
    exact scan_more_digits rest (fun c digit => by simp [step, digit])

theorem scan_frac {state : ScanState} (stack : List ParseState) (ended : state = .zero ∨ state = .one) :
    ∃ t, scan ⟨state, stack⟩ (if value.frac = [] then [] else '.' :: value.frac.map digitChar) = some t ∧
      Finished stack t := by
  cases shape : value.frac with
  | nil =>
    refine ⟨⟨state, stack⟩, rfl, ?_⟩
    rcases ended with rfl | rfl
    · exact finished_zero stack
    · exact finished_one stack
  | cons first rest =>
    refine ⟨⟨.dotDigit, stack⟩, ?_, finished_dot_digit stack⟩
    have dot : step ⟨state, stack⟩ '.' = some ⟨.dot, stack⟩ := by
      rcases ended with rfl | rfl <;> rfl
    have digit : step ⟨.dot, stack⟩ (digitChar first) = some ⟨.dotDigit, stack⟩ := by
      simp [step, digit_char_digit]
    rw [if_neg (by simp), scan_cons, dot, Option.bind_some, List.map_cons, scan_cons, digit]
    exact scan_more_digits rest (fun c isdigit => by simp [step, isdigit])

theorem scan_numeric (stack : List ParseState) :
    ∃ t, scan ⟨.beginValue, stack⟩ value.text = some t ∧ Finished stack t := by
  have signed : ∃ s, scan ⟨.beginValue, stack⟩ (if value.negative then ['-'] else []) = some s ∧
      ∀ digit, step s (digitChar digit) = some ⟨if digit = 0 then .zero else .one, stack⟩ := by
    cases value.negative with
    | true => exact ⟨⟨.neg, stack⟩, rfl, fun digit => digit_after_minus digit stack⟩
    | false => exact ⟨⟨.beginValue, stack⟩, rfl, fun digit => digit_begins digit stack⟩
  obtain ⟨s, sign, begin⟩ := signed
  obtain ⟨state, ended, whole⟩ := scan_whole value begin
  obtain ⟨t, frac, finished⟩ := scan_frac value stack ended
  refine ⟨t, ?_, finished⟩
  rw [Numeric.text, scan_append, scan_append, sign, Option.bind_some, whole, Option.bind_some, frac]

theorem control_hex_is_hex (c : Char) :
    ∃ high low, controlHex c = [high, low] ∧ isHex high = true ∧ isHex low = true := by
  refine ⟨_, _, rfl, ?_, ?_⟩
  · split <;> decide
  · have bound : c.toNat % 16 < 16 := Nat.mod_lt _ (by decide)
    generalize c.toNat % 16 = n at bound
    revert n
    decide

theorem scan_escape (c : Char) (stack : List ParseState) :
    scan ⟨.inString, stack⟩ (escapeChar c) = some ⟨.inString, stack⟩ := by
  unfold escapeChar
  split
  · rfl
  split
  · rfl
  split
  · rfl
  split
  · rfl
  split
  · rfl
  split
  · rfl
  split
  · rfl
  split
  · obtain ⟨high, low, shape, highHex, lowHex⟩ := control_hex_is_hex c
    rw [shape]
    change scan ⟨.inStringEscU 1, stack⟩ [high, low] = _
    simp [scan, step, highHex, lowHex]
  · rename_i quote slash _ _ _ _ _ plain
    simp [scan, step, quote, slash, plain]

theorem scan_string_body (value : List Char) (stack : List ParseState) :
    scan ⟨.inString, stack⟩ (value.flatMap escapeChar ++ ['"']) = some ⟨.endValue, stack⟩ := by
  induction value with
  | nil => rfl
  | cons c rest ih =>
    rw [List.flatMap_cons, List.append_assoc, scan_append, scan_escape]
    exact ih

theorem scan_string {s : Scanner} (value : String) (opened : step s '"' = some ⟨.inString, stack⟩) :
    scan s (stringText value) = some ⟨.endValue, stack⟩ := by
  rw [stringText, scan_cons, opened]
  exact scan_string_body value.toList stack

theorem chars_head (value : Jsonb) :
    ∃ c rest, value.chars = c :: rest ∧ isSpace c = false ∧ c ≠ ']' := by
  cases value with
  | bool b => cases b <;> exact ⟨_, _, rfl, by decide, by decide⟩
  | number n =>
    have lead : ∃ digit rest, n.whole = digit :: rest := by
      rcases n.canonical with single | ⟨digit, rest, shape, _⟩
      · exact ⟨0, [], single⟩
      · exact ⟨digit, rest, shape⟩
    obtain ⟨digit, rest, shape⟩ := lead
    rw [Jsonb.chars, Numeric.text, shape]
    cases n.negative with
    | true => exact ⟨_, _, rfl, by decide, by decide⟩
    | false =>
      obtain ⟨space, _, _, _, _, _, _, _, bracket⟩ := digit_char_plain digit
      exact ⟨_, _, rfl, space, bracket⟩
  | array items => cases items <;> exact ⟨_, _, rfl, by decide, by decide⟩
  | object members => cases members <;> exact ⟨_, _, rfl, by decide, by decide⟩
  | _ => exact ⟨_, _, rfl, by decide, by decide⟩

theorem scan_first_item (value : Jsonb) (stack : List ParseState) :
    scan ⟨.beginValueOrEmpty, stack⟩ value.chars = scan ⟨.beginValue, stack⟩ value.chars := by
  obtain ⟨c, rest, shape, space, bracket⟩ := chars_head value
  rw [shape, scan_cons, scan_cons]
  simp [step, space, bracket]

theorem push_within (stack : List ParseState) (top : ParseState) (success : ScanState)
    (within : stack.length + 1 ≤ maxNestingDepth) :
    pushParseState stack top success = some ⟨success, top :: stack⟩ := by
  rw [pushParseState, if_pos (by simpa using within)]

mutual
theorem scan_value (value : Jsonb) (stack : List ParseState)
    (within : stack.length + value.depth ≤ maxNestingDepth) :
    ∃ t, scan ⟨.beginValue, stack⟩ value.chars = some t ∧ Finished stack t := by
  cases value with
  | null => exact ⟨⟨.endValue, stack⟩, rfl, finished_end_value stack⟩
  | bool b => cases b <;> exact ⟨⟨.endValue, stack⟩, rfl, finished_end_value stack⟩
  | number n => exact scan_numeric n stack
  | string text => exact ⟨⟨.endValue, stack⟩, scan_string text rfl, finished_end_value stack⟩
  | array items =>
    simp only [Jsonb.depth] at within
    have opened : step ⟨.beginValue, stack⟩ '[' = some ⟨.beginValueOrEmpty, .arrayValue :: stack⟩ :=
      push_within stack .arrayValue .beginValueOrEmpty (by omega)
    refine ⟨popParseState stack, ?_, finished_pop stack⟩
    cases items with
    | nil =>
      rw [Jsonb.chars, scan_cons, opened]
      rfl
    | cons first tail =>
      simp only [Items.depth] at within
      obtain ⟨t, done, finished⟩ := scan_value first (.arrayValue :: stack)
        (by simp only [List.length_cons]; omega)
      rw [Jsonb.chars, scan_cons, opened, Option.bind_some, scan_append, scan_first_item, done]
      exact scan_items finished (by omega)
  | object members =>
    simp only [Jsonb.depth] at within
    have opened : step ⟨.beginValue, stack⟩ '{' = some ⟨.beginStringOrEmpty, .objectKey :: stack⟩ :=
      push_within stack .objectKey .beginStringOrEmpty (by omega)
    refine ⟨popParseState stack, ?_, finished_pop stack⟩
    cases members with
    | nil =>
      rw [Jsonb.chars, scan_cons, opened]
      rfl
    | cons key first tail =>
      simp only [Members.depth] at within
      obtain ⟨t, done, finished⟩ := scan_value first (.objectValue :: stack)
        (by simp only [List.length_cons]; omega)
      rw [Jsonb.chars, scan_cons, opened, Option.bind_some, scan_append,
        scan_string key rfl, Option.bind_some]
      change scan ⟨.beginValue, .objectValue :: stack⟩ (first.chars ++ (tail.more ++ ['}'])) = _
      rw [scan_append, done]
      exact scan_members finished (by omega)
theorem scan_items {items : Items} {stack : List ParseState} {s : Scanner} (ready : Finished (.arrayValue :: stack) s)
    (within : stack.length + (items.depth + 1) ≤ maxNestingDepth) :
    scan s (items.more ++ [']']) = some (popParseState stack) := by
  cases items with
  | nil =>
    rw [Items.more, List.nil_append, scan_cons, ready ']' (by decide) (by decide) (by decide) (by decide)]
    rfl
  | cons value tail =>
    simp only [Items.depth] at within
    obtain ⟨t, done, finished⟩ := scan_value value (.arrayValue :: stack)
      (by simp only [List.length_cons]; omega)
    rw [Items.more, List.cons_append, scan_cons, ready ',' (by decide) (by decide) (by decide) (by decide)]
    change scan ⟨.beginValue, .arrayValue :: stack⟩ ((value.chars ++ tail.more) ++ [']']) = _
    rw [List.append_assoc, scan_append, done]
    exact scan_items finished (by omega)
theorem scan_members {members : Members} {stack : List ParseState} {s : Scanner}
    (ready : Finished (.objectValue :: stack) s) (within : stack.length + (members.depth + 1) ≤ maxNestingDepth) :
    scan s (members.more ++ ['}']) = some (popParseState stack) := by
  cases members with
  | nil =>
    rw [Members.more, List.nil_append, scan_cons, ready '}' (by decide) (by decide) (by decide) (by decide)]
    rfl
  | cons key value tail =>
    simp only [Members.depth] at within
    obtain ⟨t, done, finished⟩ := scan_value value (.objectValue :: stack)
      (by simp only [List.length_cons]; omega)
    rw [Members.more, List.cons_append, scan_cons, ready ',' (by decide) (by decide) (by decide) (by decide)]
    change scan ⟨.beginString, .objectKey :: stack⟩
      ((stringText key ++ (':' :: ' ' :: (value.chars ++ tail.more))) ++ ['}']) = _
    rw [List.append_assoc, scan_append, scan_string key rfl, Option.bind_some]
    change scan ⟨.beginValue, .objectValue :: stack⟩ ((value.chars ++ tail.more) ++ ['}']) = _
    rw [List.append_assoc, scan_append, done]
    exact scan_members finished (by omega)
end

theorem text_valid {value : Jsonb} (within : value.depth ≤ maxNestingDepth) : valid value.text = true := by
  obtain ⟨t, done, finished⟩ := scan_value value [] (by simpa using within)
  simp only [valid, Jsonb.text, String.toList_ofList, done]
  exact finished_eof finished

theorem text_nonempty (value : Jsonb) : value.text ≠ "" := by
  obtain ⟨c, rest, shape, _⟩ := chars_head value
  intro empty
  have chars := congrArg String.toList empty
  simp [Jsonb.text, shape] at chars

end Sql

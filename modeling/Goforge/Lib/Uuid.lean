import Mathlib.Data.List.Lex
import Mathlib.Order.Fin.Basic

set_option autoImplicit false

namespace Sql

abbrev HexDigit := Fin 16

structure Uuid where
  digits : List HexDigit
  size : digits.length = 32
deriving DecidableEq

def hexChar (digit : HexDigit) : Char := "0123456789abcdef".toList.getD digit.val '0'

def hexValue (c : Char) : Option HexDigit :=
  if '0' ≤ c ∧ c ≤ '9' then some (Fin.ofNat 16 (c.toNat - '0'.toNat))
  else if 'a' ≤ c ∧ c ≤ 'f' then some (Fin.ofNat 16 (c.toNat - 'a'.toNat + 10))
  else if 'A' ≤ c ∧ c ≤ 'F' then some (Fin.ofNat 16 (c.toNat - 'A'.toNat + 10))
  else none

-- Canonical output: lower case, hyphens after bytes 3, 5, 7 and 9.
def writeBytes (index : Nat) : List HexDigit → List Char
  | high :: low :: rest =>
    hexChar high :: hexChar low ::
      ((if index = 3 ∨ index = 5 ∨ index = 7 ∨ index = 9 then ['-'] else []) ++ writeBytes (index + 1) rest)
  | _ => []

def Uuid.text (id : Uuid) : String := String.ofList (writeBytes 0 id.digits)

def skipHyphen : List Char → List Char
  | '-' :: rest => rest
  | rest => rest

-- Input is more liberal than output: either case, surrounding braces, and an
-- optional hyphen after every second byte but the last.
def readBytes : Nat → Nat → List Char → Option (List HexDigit × List Char)
  | 0, _, src => some ([], src)
  | count + 1, index, high :: low :: rest =>
    match hexValue high, hexValue low with
    | some x, some y =>
      let rest := if index % 2 = 1 ∧ index < 15 then skipHyphen rest else rest
      match readBytes count (index + 1) rest with
      | some (digits, tail) => some (x :: y :: digits, tail)
      | none => none
    | _, _ => none
  | _ + 1, _, _ => none

def Uuid.ofDigits (digits : List HexDigit) : Option Uuid :=
  if size : digits.length = 32 then some ⟨digits, size⟩ else none

-- The cast $1::uuid.
def castUuid (text : String) : Option Uuid :=
  match text.toList with
  | '{' :: src =>
    match readBytes 16 0 src with
    | some (digits, ['}']) => Uuid.ofDigits digits
    | _ => none
  | src =>
    match readBytes 16 0 src with
    | some (digits, []) => Uuid.ofDigits digits
    | _ => none

theorem hex_value_char (digit : HexDigit) : hexValue (hexChar digit) = some digit := by
  revert digit
  decide

theorem hex_char_plain (digit : HexDigit) : hexChar digit ≠ '-' ∧ hexChar digit ≠ '{' := by
  revert digit
  decide

theorem skip_hyphen_bytes (index : Nat) (digits : List HexDigit) :
    skipHyphen (writeBytes index digits) = writeBytes index digits := by
  match digits with
  | [] => rfl
  | [_] => rfl
  | high :: low :: rest =>
    rw [writeBytes]
    unfold skipHyphen
    split
    · rename_i same
      exact absurd (List.cons.inj same).1 (hex_char_plain high).1
    · rfl

theorem read_write_bytes (count index : Nat) (digits : List HexDigit) (size : digits.length = 2 * count)
    (last : index + count = 16) : readBytes count index (writeBytes index digits) = some (digits, []) := by
  induction count generalizing index digits with
  | zero =>
    have empty : digits = [] := List.eq_nil_of_length_eq_zero (by omega)
    subst empty
    rfl
  | succ count ih =>
    match digits, size with
    | high :: low :: rest, size =>
      have restSize : rest.length = 2 * count := by
        simp only [List.length_cons] at size
        omega
      have recursive := ih (index + 1) rest restSize (by omega)
      have skipped : (if index % 2 = 1 ∧ index < 15 then
          skipHyphen ((if index = 3 ∨ index = 5 ∨ index = 7 ∨ index = 9 then ['-'] else []) ++
            writeBytes (index + 1) rest)
          else (if index = 3 ∨ index = 5 ∨ index = 7 ∨ index = 9 then ['-'] else []) ++
            writeBytes (index + 1) rest) = writeBytes (index + 1) rest := by
        by_cases hyphen : index = 3 ∨ index = 5 ∨ index = 7 ∨ index = 9
        · have odd : index % 2 = 1 ∧ index < 15 := by omega
          simp only [if_pos hyphen, if_pos odd, List.cons_append, List.nil_append, skipHyphen]
        · simp only [if_neg hyphen, List.nil_append, skip_hyphen_bytes, ite_self]
      simp only [writeBytes, readBytes, hex_value_char, skipped, recursive]

theorem cast_text (id : Uuid) : castUuid id.text = some id := by
  have whole := read_write_bytes 16 0 id.digits (by rw [id.size]) rfl
  have decoded : Uuid.ofDigits id.digits = some id := by
    simp only [Uuid.ofDigits, id.size, ↓reduceDIte]
  unfold castUuid Uuid.text
  rw [String.toList_ofList]
  split
  · rename_i src same
    match shape : id.digits with
    | [] => simp [shape, writeBytes] at same
    | [_] => simp [shape, writeBytes] at same
    | high :: low :: rest =>
      rw [shape, writeBytes] at same
      exact absurd (List.cons.inj same).1 (hex_char_plain high).2
  · simp only [whole, decoded]

theorem text_injective {a b : Uuid} (same : a.text = b.text) : a = b := by
  have casts := congrArg castUuid same
  simpa only [cast_text, Option.some.injEq] using casts

end Sql

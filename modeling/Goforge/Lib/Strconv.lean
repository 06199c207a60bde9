import Goforge.Lib.GoString

set_option autoImplicit false

namespace Strconv

open GoString

def digits (base : Nat) (values : List (Option Nat)) : Option Nat :=
  values.foldl (fun total value =>
    match total, value with
    | some total, some value => some (total * base + value)
    | _, _ => none) (some 0)

def octalValue (b : UInt8) : Option Nat := if within (byte '0') (byte '7') b then some (b.toNat - 48) else none

def simpleEscape (c : UInt8) : Option Nat :=
  if c = byte 'a' then some 7
  else if c = byte 'b' then some 8
  else if c = byte 'f' then some 12
  else if c = byte 'n' then some 10
  else if c = byte 'r' then some 13
  else if c = byte 't' then some 9
  else if c = byte 'v' then some 11
  else if c = backslash then some 92
  else none

-- strconv.UnquoteChar: the character, whether it is encoded as a rune, and the
-- rest of the text.
def unquoteChar (quote : UInt8) : Bytes → Option (Nat × Bool × Bytes)
  | [] => none
  | c :: rest =>
    if c = quote ∧ (quote = squote ∨ quote = dquote) then none
    else if 0x80 ≤ c then
      let (r, size) := decodeRune (c :: rest)
      some (r, true, (c :: rest).drop size)
    else if c ≠ backslash then some (c.toNat, false, rest)
    else
      match rest with
      | [] => none
      | kind :: tail =>
        match simpleEscape kind with
        | some value => some (value, false, tail)
        | none =>
          if kind = byte 'x' then
            if tail.length < 2 then none
            else (digits 16 ((tail.take 2).map hexValue)).map (fun value => (value, false, tail.drop 2))
          else if kind = byte 'u' ∨ kind = byte 'U' then
            let count := if kind = byte 'u' then 4 else 8
            if tail.length < count then none
            else
              match digits 16 ((tail.take count).map hexValue) with
              | some value => if validRune value then some (value, true, tail.drop count) else none
              | none => none
          else if within (byte '0') (byte '7') kind then
            if tail.length < 2 then none
            else
              match digits 8 ((kind :: tail.take 2).map octalValue) with
              | some value => if value ≤ 255 then some (value, false, tail.drop 2) else none
              | none => none
          else if kind = squote ∨ kind = dquote then
            if kind = quote then some (kind.toNat, false, tail) else none
          else none

def appended (value : Nat) (multibyte : Bool) : Bytes :=
  if value < 0x80 ∨ multibyte = false then [UInt8.ofNat value] else encodeRune value

-- The loop over the characters after the opening quote; the result is what was
-- unquoted and what follows the closing quote. Each character takes at least
-- one byte, so the length of the text is fuel enough.
def unquoteBody (quote : UInt8) : Nat → Bytes → Option (Bytes × Bytes)
  | 0, _ => none
  | _ + 1, [] => none
  | fuel + 1, c :: rest =>
    if c = quote then some ([], rest)
    else if c = byte '\n' then none
    else
      match unquoteChar quote (c :: rest) with
      | none => none
      | some (value, multibyte, tail) =>
        if quote = squote then
          match tail with
          | [] => none
          | last :: rem => if last = quote then some (appended value multibyte, rem) else none
        else (unquoteBody quote fuel tail).map (fun out => (appended value multibyte ++ out.1, out.2))

-- strconv.Unquote. Its path for texts without escapes gives the same result.
def unquote : Bytes → Option Bytes
  | [] => none
  | quote :: rest =>
    if quote = backquote then
      match cut quote rest with
      | some (body, []) => some (body.filter (fun b => b ≠ byte '\r'))
      | _ => none
    else if quote = dquote ∨ quote = squote then
      match unquoteBody quote rest.length rest with
      | some (out, []) => some out
      | _ => none
    else none

example : unquote (ascii "\"a\\u0062\\x63\\104\"") = some (ascii "abcD") := by decide

example : unquote (ascii "\"a\"b") = none := by decide

def lowerHex (n : Nat) : UInt8 := if n < 10 then UInt8.ofNat (48 + n) else UInt8.ofNat (87 + n)

def hex (width n : Nat) : Bytes := (List.range width).map (fun place => lowerHex (n / 16 ^ (width - 1 - place) % 16))

-- strconv.IsPrint; past Latin-1 it reads a table.
def isPrint (table : Nat → Bool) (r : Nat) : Bool :=
  if r ≤ 0xFF then (decide (0x20 ≤ r) && decide (r < 0x7F)) || (decide (0xA1 ≤ r) && decide (r ≠ 0xAD)) else table r

def escapedRune (table : Nat → Bool) (r : Nat) : Bytes :=
  if r = dquote.toNat ∨ r = backslash.toNat then [backslash, UInt8.ofNat r]
  else if isPrint table r then encodeRune r
  else if r = 7 then ascii "\\a"
  else if r = 8 then ascii "\\b"
  else if r = 12 then ascii "\\f"
  else if r = 10 then ascii "\\n"
  else if r = 13 then ascii "\\r"
  else if r = 9 then ascii "\\t"
  else if r = 11 then ascii "\\v"
  else if r < 0x20 ∨ r = 0x7F then ascii "\\x" ++ hex 2 r
  else if r < 0x10000 then ascii "\\u" ++ hex 4 r
  else ascii "\\U" ++ hex 8 r

def quoteFrom (table : Nat → Bool) (skip : Nat) : Bytes → Bytes
  | [] => []
  | b :: rest =>
    match skip with
    | left + 1 => quoteFrom table left rest
    | 0 =>
      if decodeRune (b :: rest) = (runeError, 1) then ascii "\\x" ++ hex 2 b.toNat ++ quoteFrom table 0 rest
      else escapedRune table (decodeRune (b :: rest)).1 ++ quoteFrom table ((decodeRune (b :: rest)).2 - 1) rest

-- strconv.Quote
def quote (table : Nat → Bool) (text : Bytes) : Bytes := dquote :: quoteFrom table 0 text ++ [dquote]

example : quote (fun _ => true) (ascii "a\"\n" ++ [0xFF]) = ascii "\"a\\\"\\n\\xff\"" := by decide

-- hex.EncodeToString
def hexBytes (bytes : Bytes) : Bytes := bytes.flatMap (fun b => hex 2 b.toNat)

theorem lower_hex_injective : ∀ n < 16, ∀ m < 16, lowerHex n = lowerHex m → n = m := by
  decide

theorem hex_byte_injective {a b : UInt8} (same : hex 2 a.toNat = hex 2 b.toNat) : a = b := by
  have highs : lowerHex (a.toNat / 16 % 16) = lowerHex (b.toNat / 16 % 16) := (List.cons.inj same).1
  have lows : lowerHex (a.toNat / 1 % 16) = lowerHex (b.toNat / 1 % 16) := (List.cons.inj (List.cons.inj same).2).1
  have high := lower_hex_injective _ (Nat.mod_lt _ (by decide)) _ (Nat.mod_lt _ (by decide)) highs
  have low := lower_hex_injective _ (Nat.mod_lt _ (by decide)) _ (Nat.mod_lt _ (by decide)) lows
  have small := a.toNat_lt
  have bound := b.toNat_lt
  exact UInt8.toNat_inj.mp (by omega)

theorem hex_bytes_injective (left : Bytes) : ∀ right, hexBytes left = hexBytes right → left = right := by
  induction left with
  | nil =>
    intro right same
    cases right with
    | nil => rfl
    | cons b rest => cases same
  | cons a left ih =>
    intro right same
    cases right with
    | nil => cases same
    | cons b rest =>
      obtain ⟨first, others⟩ := List.append_inj same rfl
      rw [hex_byte_injective first, ih rest others]

-- The largest int.
def maxInt : Nat := 9223372036854775807

-- strconv.Atoi
def atoi : Bytes → Option Int
  | [] => none
  | sign :: rest =>
    if sign = byte '-' then (parseUint (maxInt + 1) rest).map (fun n : Nat => -(n : Int))
    else if sign = byte '+' then (parseUint maxInt rest).map (fun n : Nat => (n : Int))
    else (parseUint maxInt (sign :: rest)).map (fun n : Nat => (n : Int))

-- strconv.Itoa
def itoa (n : Int) : Bytes := if n < 0 then byte '-' :: decimal n.natAbs else decimal n.natAbs

example : atoi (ascii "-007") = some (-7) ∧ atoi (ascii "9223372036854775808") = none := by decide

def Numeral (text : Bytes) (n : Nat) : Prop :=
  text ≠ [] ∧ (∀ b ∈ text, isDigit b = true) ∧ text.foldl (fun value b => value * 10 + (b.toNat - 48)) 0 = n

theorem numeral_decimal (n : Nat) : Numeral (decimal n) n := ⟨decimal_nonempty n, decimal_all_digits n, decimal_value n⟩

theorem parse_uint_numeral (max : Nat) {text : Bytes} (n : Nat) :
    parseUint max text = some n ↔ Numeral text n ∧ n ≤ max := by
  rw [parseUint, Numeral]
  by_cases malformed : text = [] ∨ ¬ text.all isDigit
  · rw [if_pos malformed]
    constructor
    · rintro ⟨⟩
    · rintro ⟨⟨nonempty, digits, _⟩, _⟩
      rcases malformed with empty | other
      · exact absurd empty nonempty
      · exact absurd (List.all_eq_true.mpr digits) other
  · rw [if_neg malformed]
    rw [not_or, Classical.not_not, List.all_eq_true] at malformed
    by_cases fits : text.foldl (fun value b => value * 10 + (b.toNat - 48)) 0 ≤ max
    · simp only [if_pos fits, Option.some.injEq]
      constructor
      · rintro rfl
        exact ⟨⟨malformed.1, malformed.2, rfl⟩, fits⟩
      · exact fun holds => holds.1.2.2
    · simp only [if_neg fits]
      constructor
      · rintro ⟨⟩
      · rintro ⟨⟨_, _, rfl⟩, small⟩
        exact absurd small fits

theorem digit_unsigned {b : UInt8} (digit : isDigit b = true) : b ≠ byte '-' ∧ b ≠ byte '+' := by
  rw [isDigit, within_range] at digit
  exact ⟨fun same => absurd digit (same ▸ by decide), fun same => absurd digit (same ▸ by decide)⟩

variable {text : Bytes}

theorem atoi_numeral {n : Nat} (numeral : Numeral text n) :
    atoi text = if n ≤ maxInt then some (n : Int) else none := by
  obtain ⟨nonempty, digits, value⟩ := numeral
  cases text with
  | nil => exact absurd rfl nonempty
  | cons sign rest =>
    obtain ⟨minus, plus⟩ := digit_unsigned (digits sign List.mem_cons_self)
    rw [atoi, if_neg minus, if_neg plus]
    by_cases fits : n ≤ maxInt
    · rw [(parse_uint_numeral maxInt n).mpr ⟨⟨nonempty, digits, value⟩, fits⟩, if_pos fits]
      rfl
    · rw [if_neg fits, Option.map_eq_none_iff, Option.eq_none_iff_forall_ne_some]
      intro other parsed
      obtain ⟨⟨_, _, value'⟩, small⟩ := (parse_uint_numeral maxInt other).mp parsed
      exact fits (value.symm.trans value' ▸ small)

theorem atoi_digits {n : Int} (minus : byte '-' ∉ text) (plus : byte '+' ∉ text) (parsed : atoi text = some n) :
    0 ≤ n ∧ Numeral text n.toNat ∧ n.toNat ≤ maxInt := by
  cases text with
  | nil => cases parsed
  | cons sign rest =>
    have unsigned : sign ≠ byte '-' ∧ sign ≠ byte '+' :=
      ⟨fun same => minus (same ▸ List.mem_cons_self), fun same => plus (same ▸ List.mem_cons_self)⟩
    rw [atoi, if_neg unsigned.1, if_neg unsigned.2] at parsed
    obtain ⟨value, read, rfl⟩ := Option.map_eq_some_iff.mp parsed
    exact ⟨Int.natCast_nonneg value, (parse_uint_numeral maxInt value).mp read⟩

theorem atoi_positive {n : Int} (plus : byte '+' ∉ text) (parsed : atoi text = some n) (positive : 1 ≤ n) :
    Numeral text n.toNat ∧ n.toNat ≤ maxInt := by
  cases text with
  | nil => cases parsed
  | cons sign rest =>
    rw [atoi] at parsed
    split at parsed
    · obtain ⟨value, _, rfl⟩ := Option.map_eq_some_iff.mp parsed
      omega
    · have unsigned : sign ≠ byte '+' := fun same => plus (same ▸ List.mem_cons_self)
      rw [if_neg unsigned] at parsed
      obtain ⟨value, read, rfl⟩ := Option.map_eq_some_iff.mp parsed
      exact (parse_uint_numeral maxInt value).mp read

end Strconv

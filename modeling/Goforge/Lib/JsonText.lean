import Goforge.Lib.Json
import Goforge.Lib.Strconv

set_option autoImplicit false

namespace Json

open GoString

-- The bytes json.Marshal leaves as they are in a string.
def safe (b : UInt8) : Bool :=
  within 0x20 0x7F b && !(ascii "\"\\<>&").contains b

def escapedByte (b : UInt8) : Bytes :=
  if b = dquote ∨ b = backslash then [backslash, b]
  else if b = 8 then ascii "\\b"
  else if b = 12 then ascii "\\f"
  else if b = 10 then ascii "\\n"
  else if b = 13 then ascii "\\r"
  else if b = 9 then ascii "\\t"
  else ascii "\\u" ++ Strconv.hex 4 b.toNat

def marshalFrom (skip : Nat) : Bytes → Bytes
  | [] => []
  | b :: rest =>
    match skip with
    | left + 1 => marshalFrom left rest
    | 0 =>
      if b < 0x80 then (if safe b then [b] else escapedByte b) ++ marshalFrom 0 rest
      else
        let (r, width) := decodeRune (b :: rest)
        (if (r, width) = (runeError, 1) ∨ r = 0x2028 ∨ r = 0x2029 then ascii "\\u" ++ Strconv.hex 4 r
          else encodeRune r) ++ marshalFrom (width - 1) rest

-- json.Marshal of a string.
def marshal (text : Bytes) : Bytes := dquote :: marshalFrom 0 text ++ [dquote]

def hex4 (text : Bytes) : Option Nat :=
  if text.length < 4 then none else Strconv.digits 16 ((text.take 4).map hexValue)

-- utf16.DecodeRune of a surrogate and the escape that follows it.
def surrogatePair (high : Nat) (after : Bytes) : Option Nat :=
  match after with
  | slash :: u :: more =>
    if slash = backslash ∧ u = byte 'u' then
      match hex4 more with
      | some low =>
        if 0xD800 ≤ high ∧ high < 0xDC00 ∧ 0xDC00 ≤ low ∧ low < 0xE000 then
          some ((high - 0xD800) * 0x400 + (low - 0xDC00) + 0x10000)
        else none
      | none => none
    else none
  | _ => none

def simpleEscape (e : UInt8) : Option UInt8 :=
  if e = dquote ∨ e = backslash ∨ e = byte '/' ∨ e = squote then some e
  else if e = byte 'b' then some 8
  else if e = byte 'f' then some 12
  else if e = byte 'n' then some 10
  else if e = byte 'r' then some 13
  else if e = byte 't' then some 9
  else none

-- The text between the quotes; skip counts the bytes already used.
def unquoteFrom (skip : Nat) : Bytes → Option Bytes
  | [] => some []
  | c :: rest =>
    match skip with
    | left + 1 => unquoteFrom left rest
    | 0 =>
      if c = backslash then
        match rest.head?.bind simpleEscape with
        | some b => (unquoteFrom 1 rest).map (b :: ·)
        | none =>
          if rest.head? = some (byte 'u') then
            match hex4 (rest.drop 1) with
            | none => none
            | some r =>
              if 0xD800 ≤ r ∧ r < 0xE000 then
                match surrogatePair r (rest.drop 5) with
                | some whole => (unquoteFrom 11 rest).map (encodeRune whole ++ ·)
                | none => (unquoteFrom 5 rest).map (encodeRune runeError ++ ·)
              else (unquoteFrom 5 rest).map (encodeRune r ++ ·)
          else none
      else if c = dquote ∨ c < 0x20 then none
      else if c < 0x80 then (unquoteFrom 0 rest).map (c :: ·)
      else
        let (r, width) := decodeRune (c :: rest)
        (unquoteFrom (width - 1) rest).map (encodeRune r ++ ·)

def spaceByte (b : UInt8) : Bool := b = 0x20 || b = 9 || b = 13 || b = 10

-- json.Unmarshal into a string that is empty: null leaves it so.
def unmarshalString (raw : Bytes) : Option Bytes :=
  if !valid (text raw) then none
  else
    let value := (((raw.dropWhile spaceByte).reverse).dropWhile spaceByte).reverse
    match value.head? with
    | some first =>
      if first = dquote then unquoteFrom 0 (value.drop 1).dropLast
      else if first = byte 'n' then some []
      else none
    | none => none

example : unmarshalString (ascii " \"a\\u00e9\\ud83d\\ude00\\n\" ") =
    some ([97] ++ [0xC3, 0xA9] ++ [0xF0, 0x9F, 0x98, 0x80] ++ [10]) := by
  decide +kernel

example :
    unmarshalString (marshal (ascii "<a&\"b\"\n>" ++ [0xFF])) = some (ascii "<a&\"b\"\n>" ++ [0xEF, 0xBF, 0xBD]) := by
  decide +kernel

theorem safe_range {b : UInt8} (kept : safe b = true) :
    0x20 ≤ b.toNat ∧ b.toNat ≤ 0x7F ∧ b ≠ dquote ∧ b ≠ backslash := by
  rw [safe, Bool.and_eq_true, Bool.not_eq_true'] at kept
  have range := (within_range _ _ b).mp kept.1
  refine ⟨range.1, range.2, ?_, ?_⟩
  · rintro rfl
    exact absurd kept.2 (by decide)
  · rintro rfl
    exact absurd kept.2 (by decide)

theorem marshal_safe {text : Bytes} (kept : ∀ b ∈ text, safe b = true) : marshalFrom 0 text = text := by
  induction text with
  | nil => rfl
  | cons b rest ih =>
    have here := kept b List.mem_cons_self
    have low : b < 0x80 := UInt8.lt_iff_toNat_lt.mpr (by have := (safe_range here).2.1; simp; omega)
    rw [marshalFrom]
    simp only [low, here, if_true, ih (fun c member => kept c (List.mem_cons_of_mem b member))]
    rfl

theorem unquote_safe {text : Bytes} (kept : ∀ b ∈ text, safe b = true) : unquoteFrom 0 text = some text := by
  induction text with
  | nil => rfl
  | cons b rest ih =>
    obtain ⟨least, most, quote, slash⟩ := safe_range (kept b List.mem_cons_self)
    have low : b < 0x80 := UInt8.lt_iff_toNat_lt.mpr (by simp; omega)
    have high : ¬ b < 0x20 := fun below => by have := UInt8.lt_iff_toNat_lt.mp below; simp at this; omega
    rw [unquoteFrom]
    simp only [slash, quote, low, high, or_self, if_false, if_true,
      ih (fun c member => kept c (List.mem_cons_of_mem b member)), Option.map_some]

theorem scan_safe {text : Bytes} (kept : ∀ b ∈ text, safe b = true) (stack : List ParseState) :
    scan ⟨.inString, stack⟩ (text.map latin) = some ⟨.inString, stack⟩ := by
  induction text with
  | nil => rfl
  | cons b rest ih =>
    obtain ⟨least, most, quote, slash⟩ := safe_range (kept b List.mem_cons_self)
    have different : ∀ c : Char, c.toNat < 256 → b ≠ byte c → latin b ≠ c := by
      rintro c small apart rfl
      refine apart (UInt8.toNat_inj.mp ?_)
      rw [byte, latin_code, UInt8.ofNat_toNat]
    have printable : ¬ latin b < ' ' := by
      rw [Char.lt_def, UInt32.lt_iff_toNat_lt]
      show ¬ (latin b).toNat < 32
      rw [latin_code]
      omega
    rw [List.map_cons, scan_cons, step]
    simp only [different '"' (by decide) quote, different '\\' (by decide) slash, printable, if_false, Option.bind_some,
      ih (fun c member => kept c (List.mem_cons_of_mem b member))]

theorem valid_safe {body : Bytes} (kept : ∀ b ∈ body, safe b = true) :
    valid (text (dquote :: body ++ [dquote])) = true := by
  rw [valid, text_chars, List.cons_append, List.map_cons, List.map_append, scan_cons]
  have opened : step ⟨.beginValue, []⟩ (latin dquote) = some ⟨.inString, []⟩ := by decide
  rw [opened, Option.bind_some, scan_append, scan_safe kept []]
  decide

theorem unmarshal_marshal_safe {body : Bytes} (kept : ∀ b ∈ body, safe b = true) :
    unmarshalString (marshal body) = some body := by
  rw [marshal, marshal_safe kept, unmarshalString, valid_safe kept]
  have front : (dquote :: body ++ [dquote]).dropWhile spaceByte = dquote :: body ++ [dquote] := rfl
  have back : ((dquote :: body ++ [dquote]).reverse).dropWhile spaceByte = (dquote :: body ++ [dquote]).reverse := by
    rw [List.reverse_append, List.reverse_singleton]
    rfl
  have trimmed : (((dquote :: body ++ [dquote]).dropWhile spaceByte).reverse.dropWhile spaceByte).reverse =
      dquote :: body ++ [dquote] := by
    rw [front, back, List.reverse_reverse]
  dsimp only [Bool.not_true, Bool.false_eq_true, if_false]
  rw [trimmed]
  show unquoteFrom 0 (body ++ [dquote]).dropLast = some body
  rw [List.dropLast_concat]
  exact unquote_safe kept

end Json

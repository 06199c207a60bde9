import Mathlib.Algebra.Ring.Nat
import Mathlib.Data.List.Basic

set_option autoImplicit false

namespace GoString

-- A Go string is any sequence of bytes.
abbrev Bytes := List UInt8

instance (priority := high) decidableListed (text : Bytes) (texts : List Bytes) :
    Decidable (text ∈ texts) := inferInstance

def byte (c : Char) : UInt8 := UInt8.ofNat c.toNat

def dquote : UInt8 := 0x22

def squote : UInt8 := 0x27

def backslash : UInt8 := 0x5C

def backquote : UInt8 := 0x60

def ascii (text : String) : Bytes := text.toList.map byte

def within (low high b : UInt8) : Bool := decide (low ≤ b) && decide (b ≤ high)

def continuation (b : UInt8) : Bool := within 0x80 0xBF b

def runeError : Nat := 0xFFFD

def bits (count : Nat) (b : UInt8) : Nat := b.toNat % 2 ^ count

-- The second byte of a sequence of three or four is limited further, so that
-- overlong forms, surrogates and values past 0x10FFFF are not runes.
def secondOfThree (a b : UInt8) : Bool :=
  if a = 0xE0 then within 0xA0 0xBF b else if a = 0xED then within 0x80 0x9F b else continuation b

def secondOfFour (a b : UInt8) : Bool :=
  if a = 0xF0 then within 0x90 0xBF b else if a = 0xF4 then within 0x80 0x8F b else continuation b

-- utf8.DecodeRune: the first rune and its width; RuneError and 1 where no rune
-- starts, RuneError and 0 at the end.
def decodeRune : Bytes → Nat × Nat
  | [] => (runeError, 0)
  | a :: rest =>
    if a < 0x80 then (a.toNat, 1)
    else
      match rest with
      | [] => (runeError, 1)
      | b :: rest =>
        if within 0xC2 0xDF a && continuation b then (bits 5 a * 2 ^ 6 + bits 6 b, 2)
        else
          match rest with
          | [] => (runeError, 1)
          | c :: rest =>
            if within 0xE0 0xEF a && secondOfThree a b && continuation c then
              (bits 4 a * 2 ^ 12 + bits 6 b * 2 ^ 6 + bits 6 c, 3)
            else
              match rest with
              | [] => (runeError, 1)
              | d :: _ =>
                if within 0xF0 0xF4 a && secondOfFour a b && continuation c && continuation d then
                  (bits 3 a * 2 ^ 18 + bits 6 b * 2 ^ 12 + bits 6 c * 2 ^ 6 + bits 6 d, 4)
                else (runeError, 1)

-- utf8.ValidRune
def validRune (r : Nat) : Bool := decide (r < 0xD800) || (decide (0xDFFF < r) && decide (r ≤ 0x10FFFF))

-- utf8.AppendRune onto nothing.
def encodeRune (r : Nat) : Bytes :=
  if r < 0x80 then [UInt8.ofNat r]
  else if r < 0x800 then [UInt8.ofNat (0xC0 + r / 2 ^ 6), UInt8.ofNat (0x80 + r % 2 ^ 6)]
  else if !validRune r then [0xEF, 0xBF, 0xBD]
  else if r < 0x10000 then
    [UInt8.ofNat (0xE0 + r / 2 ^ 12), UInt8.ofNat (0x80 + r / 2 ^ 6 % 2 ^ 6), UInt8.ofNat (0x80 + r % 2 ^ 6)]
  else
    [UInt8.ofNat (0xF0 + r / 2 ^ 18), UInt8.ofNat (0x80 + r / 2 ^ 12 % 2 ^ 6), UInt8.ofNat (0x80 + r / 2 ^ 6 % 2 ^ 6),
      UInt8.ofNat (0x80 + r % 2 ^ 6)]

-- The runes of a for range loop; skip counts the bytes left of the last rune.
def runesFrom (skip : Nat) : Bytes → List Nat
  | [] => []
  | b :: rest =>
    match skip with
    | left + 1 => runesFrom left rest
    | 0 => (decodeRune (b :: rest)).1 :: runesFrom ((decodeRune (b :: rest)).2 - 1) rest

def runes (text : Bytes) : List Nat := runesFrom 0 text

def validFrom (skip : Nat) : Bytes → Bool
  | [] => true
  | b :: rest =>
    match skip with
    | left + 1 => validFrom left rest
    | 0 => decide (decodeRune (b :: rest) ≠ (runeError, 1)) && validFrom ((decodeRune (b :: rest)).2 - 1) rest

-- utf8.Valid
def validUtf8 (text : Bytes) : Bool := validFrom 0 text

def toValidFrom (skip : Nat) : Bytes → Bytes
  | [] => []
  | b :: rest =>
    match skip with
    | left + 1 => b :: toValidFrom left rest
    | 0 =>
      if decodeRune (b :: rest) = (runeError, 1) then 0xEF :: 0xBF :: 0xBD :: toValidFrom 0 rest
      else b :: toValidFrom ((decodeRune (b :: rest)).2 - 1) rest

-- What encoding/json makes of a string: every invalid byte becomes U+FFFD.
def toValidUtf8 (text : Bytes) : Bytes := toValidFrom 0 text

-- The bytes of unicode.White_Space runes, by width.
def space1 (a : UInt8) : Bool := within 0x09 0x0D a || decide (a = 0x20)

def space2 (a b : UInt8) : Bool := decide (a = 0xC2) && (decide (b = 0x85) || decide (b = 0xA0))

def space3 (a b c : UInt8) : Bool :=
  (decide (a = 0xE1) && decide (b = 0x9A) && decide (c = 0x80)) ||
  (decide (a = 0xE2) && decide (b = 0x80) &&
    (within 0x80 0x8A c || decide (c = 0xA8) || decide (c = 0xA9) || decide (c = 0xAF))) ||
  (decide (a = 0xE2) && decide (b = 0x81) && decide (c = 0x9F)) ||
  (decide (a = 0xE3) && decide (b = 0x80) && decide (c = 0x80))

def trimLeft : Bytes → Bytes
  | [] => []
  | [a] => if space1 a then [] else [a]
  | [a, b] => if space1 a then trimLeft [b] else if space2 a b then [] else [a, b]
  | a :: b :: c :: rest =>
    if space1 a then trimLeft (b :: c :: rest)
    else if space2 a b then trimLeft (c :: rest)
    else if space3 a b c then trimLeft rest
    else a :: b :: c :: rest

-- The same from the other end, on the reversed bytes.
def trimRightReversed : Bytes → Bytes
  | [] => []
  | [a] => if space1 a then [] else [a]
  | [b, a] => if space1 b then trimRightReversed [a] else if space2 a b then [] else [b, a]
  | c :: b :: a :: rest =>
    if space1 c then trimRightReversed (b :: a :: rest)
    else if space2 b c then trimRightReversed (a :: rest)
    else if space3 a b c then trimRightReversed rest
    else c :: b :: a :: rest

def trimRight (text : Bytes) : Bytes := (trimRightReversed text.reverse).reverse

-- strings.TrimSpace
def trimSpace (text : Bytes) : Bytes := trimRight (trimLeft text)

-- strings.Split on a separator of one byte.
def split (separator : UInt8) : Bytes → List Bytes
  | [] => [[]]
  | b :: rest =>
    if b = separator then [] :: split separator rest
    else
      match split separator rest with
      | [] => [[b]]
      | part :: parts => (b :: part) :: parts

-- strings.Cut at the first such byte; none when there is none.
def cut (separator : UInt8) : Bytes → Option (Bytes × Bytes)
  | [] => none
  | b :: rest =>
    if b = separator then some ([], rest) else (cut separator rest).map (fun halves => (b :: halves.1, halves.2))

attribute [grind =] split cut

def cutLast (separator : UInt8) (text : Bytes) : Option (Bytes × Bytes) :=
  (cut separator text.reverse).map (fun halves => (halves.2.reverse, halves.1.reverse))

-- strings.TrimPrefix and strings.TrimSuffix
def trimPrefix (start text : Bytes) : Bytes := if start.isPrefixOf text then text.drop start.length else text

-- strings.Index; none for -1.
def index (needle : Bytes) : Bytes → Option Nat
  | [] => if needle = [] then some 0 else none
  | b :: rest => if needle.isPrefixOf (b :: rest) then some 0 else (index needle rest).map (· + 1)

-- strings.ReplaceAll for an old text that is not empty; skip counts the bytes
-- left of the last match.
def replaceFrom (old new : Bytes) (skip : Nat) : Bytes → Bytes
  | [] => []
  | b :: rest =>
    match skip with
    | left + 1 => replaceFrom old new left rest
    | 0 =>
      if old.isPrefixOf (b :: rest) then new ++ replaceFrom old new (old.length - 1) rest
      else b :: replaceFrom old new 0 rest

def replaceAll (old new text : Bytes) : Bytes := replaceFrom old new 0 text

-- strings.Join
def join (separator : Bytes) (parts : List Bytes) : Bytes := (parts.intersperse separator).flatten

def spaceWidth : Bytes → Nat
  | [] => 0
  | [a] => if space1 a then 1 else 0
  | [a, b] => if space1 a then 1 else if space2 a b then 2 else 0
  | a :: b :: c :: _ => if space1 a then 1 else if space2 a b then 2 else if space3 a b c then 3 else 0

def closed (word : Bytes) : List Bytes := if word = [] then [] else [word]

def fieldsFrom (skip : Nat) (word : Bytes) : Bytes → List Bytes
  | [] => closed word
  | b :: rest =>
    match skip with
    | left + 1 => fieldsFrom left word rest
    | 0 =>
      match spaceWidth (b :: rest) with
      | 0 => fieldsFrom 0 (word ++ [b]) rest
      | width + 1 => closed word ++ fieldsFrom width [] rest

-- strings.Fields
def fields (text : Bytes) : List Bytes := fieldsFrom 0 [] text

-- The order of Go's < on strings.
def before : Bytes → Bytes → Bool
  | [], [] => false
  | [], _ :: _ => true
  | _ :: _, [] => false
  | a :: left, b :: right => decide (a < b) || (decide (a = b) && before left right)

-- The least rune that folds to r, for the runes that fold to an ASCII letter.
def foldRune (r : Nat) : Nat :=
  if 65 ≤ r ∧ r ≤ 90 then r + 32 else if r = 0x212A then 107 else if r = 0x17F then 115 else r

-- strings.EqualFold with an ASCII literal.
def equalFold (text : Bytes) (literal : String) : Bool :=
  decide ((runes text).map foldRune = literal.toList.map (fun c => foldRune c.toNat))

-- A Go string as characters. Bytes past ASCII become characters that are in no
-- pattern over ASCII.
def latin (b : UInt8) : Char := Char.ofNat b.toNat

def text (bytes : Bytes) : String := String.ofList (bytes.map latin)

-- strings.ToLower and strings.ToUpper on ASCII letters.
def lowerByte (b : UInt8) : UInt8 := if within (byte 'A') (byte 'Z') b then b + 32 else b

def toLower (text : Bytes) : Bytes := text.map lowerByte

def toUpper (text : Bytes) : Bytes := text.map (fun b => if within (byte 'a') (byte 'z') b then b - 32 else b)

def isDigit (b : UInt8) : Bool := within (byte '0') (byte '9') b

def hexValue (b : UInt8) : Option Nat :=
  if isDigit b then some (b.toNat - 48)
  else if within (byte 'a') (byte 'f') b then some (b.toNat - 87)
  else if within (byte 'A') (byte 'F') b then some (b.toNat - 55)
  else none

def decimal (n : Nat) : Bytes := ascii (toString n)

-- strconv.ParseUint in base 10: the digits of a number up to max.
def parseUint (max : Nat) (text : Bytes) : Option Nat :=
  if text = [] ∨ ¬ text.all isDigit then none
  else
    let value := text.foldl (fun value b => value * 10 + (b.toNat - 48)) 0
    if value ≤ max then some value else none

example : runes [0xE2, 0x84, 0xAA, 0xFF, 0x41] = [0x212A, runeError, 0x41] := by decide

example : fields (ascii " a  b" ++ [0xC2, 0xA0, 0x63]) = [ascii "a", ascii "b", ascii "c"] := by decide

example : trimSpace (ascii " a b" ++ [0xC2, 0xA0, 0x0A]) = ascii "a b" := by decide

theorem to_valid_from_valid (text : Bytes) : ∀ skip, validFrom skip text = true → toValidFrom skip text = text := by
  induction text with
  | nil => exact fun _ _ => rfl
  | cons b rest ih =>
    intro skip valid
    cases skip with
    | succ left => rw [toValidFrom, ih left valid]
    | zero =>
      rw [validFrom, Bool.and_eq_true, decide_eq_true_eq] at valid
      rw [toValidFrom, if_neg valid.1, ih _ valid.2]

theorem to_valid_utf8_valid {text : Bytes} (valid : validUtf8 text = true) : toValidUtf8 text = text :=
  to_valid_from_valid text 0 valid

theorem split_nonempty (separator : UInt8) (text : Bytes) : split separator text ≠ [] := by
  induction text with
  | nil => simp [split]
  | cons b rest ih =>
    unfold split
    split
    · simp
    · split <;> simp

variable {separator b a : UInt8}

theorem split_absent (text : Bytes) (absent : separator ∉ text) : split separator text = [text] := by
  induction text with
  | nil => rfl
  | cons b rest ih =>
    have apart : b ≠ separator := fun same => absent (same ▸ List.mem_cons_self)
    rw [split, if_neg apart, ih (fun later => absent (List.mem_cons_of_mem b later))]

theorem split_parts (separator : UInt8) (text : Bytes) : ∀ part ∈ split separator text, separator ∉ part := by
  induction text with
  | nil => simp [split]
  | cons b rest ih =>
    rw [split]
    by_cases same : b = separator
    · rw [if_pos same]
      intro part member
      rcases List.mem_cons.mp member with rfl | later
      · exact List.not_mem_nil
      · exact ih part later
    · rw [if_neg same]
      cases parts : split separator rest with
      | nil => simp [Ne.symm same]
      | cons first others =>
        rw [parts] at ih
        intro part member
        rcases List.mem_cons.mp member with rfl | later
        · intro inside
          rcases List.mem_cons.mp inside with is | further
          · exact same is.symm
          · exact ih first List.mem_cons_self further
        · exact ih part (List.mem_cons_of_mem first later)

theorem split_inside (separator : UInt8) (text : Bytes) : ∀ part ∈ split separator text, ∀ b ∈ part, b ∈ text := by
  induction text with
  | nil => simp [split]
  | cons first rest ih =>
    rw [split]
    split
    · intro part member b inside
      rcases List.mem_cons.mp member with rfl | later
      · cases inside
      · exact List.mem_cons_of_mem first (ih part later b inside)
    · cases parts : split separator rest with
      | nil => simp
      | cons head others =>
        rw [parts] at ih
        intro part member b inside
        rcases List.mem_cons.mp member with rfl | later
        · rcases List.mem_cons.mp inside with rfl | further
          · exact List.mem_cons_self
          · exact List.mem_cons_of_mem first (ih head List.mem_cons_self b further)
        · exact List.mem_cons_of_mem first (ih part (List.mem_cons_of_mem head later) b inside)

theorem cut_append {left : Bytes} (right : Bytes) (absent : separator ∉ left) :
    cut separator (left ++ separator :: right) = some (left, right) := by
  induction left with
  | nil => rw [List.nil_append, cut, if_pos rfl]
  | cons b rest ih =>
    have apart : b ≠ separator := fun same => absent (same ▸ List.mem_cons_self)
    rw [List.cons_append, cut, if_neg apart, ih (fun inside => absent (List.mem_cons_of_mem b inside))]
    rfl

theorem cut_parts {text : Bytes} (left right : Bytes) (found : cut separator text = some (left, right)) :
    text = left ++ separator :: right := by
  induction text generalizing left with
  | nil => cases found
  | cons b rest ih =>
    rw [cut] at found
    split at found
    · rename_i same
      cases found
      rw [same, List.nil_append]
    · obtain ⟨⟨first, second⟩, later, same⟩ := Option.map_eq_some_iff.mp found
      cases same
      rw [ih first later, List.cons_append]

theorem cut_last_parts {text left right : Bytes} (found : cutLast separator text = some (left, right)) :
    text = left ++ separator :: right := by
  obtain ⟨⟨first, second⟩, turned, same⟩ := Option.map_eq_some_iff.mp found
  cases same
  have parts := congrArg List.reverse (cut_parts first second turned)
  simpa using parts

theorem join_cons (separator first : Bytes) (rest : List Bytes) :
    join separator (first :: rest) = first ++ (if rest = [] then [] else separator ++ join separator rest) := by
  cases rest <;> simp [join]

theorem split_append (left right : Bytes) (absent : separator ∉ left) :
    split separator (left ++ separator :: right) = left :: split separator right := by
  induction left with
  | nil => rw [List.nil_append, split, if_pos rfl]
  | cons b rest ih =>
    have apart : b ≠ separator := fun same => absent (same ▸ List.mem_cons_self)
    rw [List.cons_append, split, if_neg apart, ih (fun later => absent (List.mem_cons_of_mem b later))]

theorem split_between (separator : UInt8) (left right : Bytes) :
    split separator (left ++ separator :: right) = split separator left ++ split separator right := by
  induction left with
  | nil => simp [split]
  | cons b rest ih =>
    simp only [List.cons_append, split, ih]
    by_cases same : b = separator
    · rw [if_pos same, if_pos same, List.cons_append]
    · rw [if_neg same, if_neg same]
      cases parts : split separator rest with
      | nil => exact absurd parts (split_nonempty separator rest)
      | cons first others => rfl

theorem join_split (separator : UInt8) (text : Bytes) : join [separator] (split separator text) = text := by
  induction text with
  | nil => rfl
  | cons b rest ih =>
    rw [split]
    by_cases same : b = separator
    · rw [if_pos same, join_cons, if_neg (split_nonempty separator rest), ih, same]
      rfl
    · rw [if_neg same]
      cases parts : split separator rest with
      | nil => exact absurd parts (split_nonempty separator rest)
      | cons first others =>
        rw [parts, join_cons] at ih
        rw [join_cons, List.cons_append, ih]

theorem split_join {parts : List Bytes} (some : parts ≠ []) (absent : ∀ part ∈ parts, separator ∉ part) :
    split separator (join [separator] parts) = parts := by
  induction parts with
  | nil => exact absurd rfl some
  | cons first rest ih =>
    have apart := absent first List.mem_cons_self
    rw [join_cons]
    by_cases last : rest = []
    · rw [if_pos last, List.append_nil, split_absent first apart, last]
    · rw [if_neg last, List.singleton_append, split_append first _ apart,
        ih last (fun part member => absent part (List.mem_cons_of_mem first member))]

theorem latin_code (b : UInt8) : (latin b).toNat = b.toNat := by
  have small := b.toNat_lt
  have valid : b.toNat.isValidChar := .inl (by omega)
  rw [latin, Char.ofNat, dif_pos valid]
  rfl

theorem latin_size (low : b.toNat < 0x80) : (latin b).utf8Size = 1 := by
  rw [Char.utf8Size_eq_one_iff, UInt32.le_iff_toNat_le]
  have code := latin_code b
  change (latin b).toNat ≤ 127
  omega

theorem text_size {bytes : Bytes} (low : ∀ b ∈ bytes, b.toNat < 0x80) : (text bytes).utf8ByteSize = bytes.length := by
  induction bytes with
  | nil => rfl
  | cons b rest ih =>
    rw [text, List.map_cons, String.ofList_cons, String.utf8ByteSize_append, ← text, String.utf8ByteSize_singleton,
      latin_size (low b List.mem_cons_self), ih (fun other member => low other (List.mem_cons_of_mem b member)),
      List.length_cons, Nat.add_comm]

theorem text_chars (bytes : Bytes) : (text bytes).toList = bytes.map latin := String.toList_ofList

theorem decimal_digits (n : Nat) : decimal n = (Nat.toDigits 10 n).map byte := by
  rw [decimal, ascii, show (toString n).toList = Nat.toDigits 10 n from Nat.toList_repr]

theorem byte_digit {c : Char} (digit : c.isDigit = true) : isDigit (byte c) = true ∧ (byte c).toNat = c.toNat := by
  rw [Char.isDigit_iff_toNat] at digit
  have low : 48 ≤ c.toNat := digit.1
  have high : c.toNat ≤ 57 := digit.2
  have same : (byte c).toNat = c.toNat := by
    rw [byte, UInt8.toNat_ofNat', Nat.mod_eq_of_lt (by omega)]
  refine ⟨?_, same⟩
  simp only [isDigit, within, Bool.and_eq_true, decide_eq_true_eq, UInt8.le_iff_toNat_le, same]
  exact ⟨low, high⟩

theorem decimal_all_digits (n : Nat) : ∀ b ∈ decimal n, isDigit b = true := by
  intro b member
  rw [decimal_digits] at member
  obtain ⟨c, inside, rfl⟩ := List.mem_map.mp member
  exact (byte_digit (Nat.isDigit_of_mem_toDigits (by decide) (by decide) inside)).1

theorem decimal_value (n : Nat) : (decimal n).foldl (fun value b => value * 10 + (b.toNat - 48)) 0 = n := by
  have digits : ∀ c ∈ Nat.toDigits 10 n, c.isDigit = true :=
    fun c member => Nat.isDigit_of_mem_toDigits (by decide) (by decide) member
  have folded : ∀ (chars : List Char) (value : Nat), (∀ c ∈ chars, c.isDigit = true) →
      (chars.map byte).foldl (fun value b => value * 10 + (b.toNat - 48)) value = Nat.ofDigitChars 10 chars value := by
    intro chars
    induction chars with
    | nil => exact fun _ _ => rfl
    | cons c rest ih =>
      intro value digits
      rw [List.map_cons, List.foldl_cons, ih _ (fun other member => digits other (List.mem_cons_of_mem c member)),
        (byte_digit (digits c List.mem_cons_self)).2, Nat.ofDigitChars_cons, Nat.mul_comm]
      rfl
  rw [decimal_digits, folded _ 0 digits, Nat.ofDigitChars_toDigits (by decide) (by decide)]

theorem decimal_nonempty (n : Nat) : decimal n ≠ [] := by
  rw [decimal_digits]
  simp [Nat.toDigits_ne_nil]

theorem ascii_lower (low : b.toNat < 0x80) : b < 0x80 := UInt8.lt_iff_toNat_lt.mpr low

theorem ascii_continues (a : UInt8) (low : b.toNat < 0x80) :
    continuation b = false ∧ secondOfThree a b = false ∧ secondOfFour a b = false := by
  have outside : ∀ least most : UInt8, 0x80 ≤ least.toNat → within least most b = false := by
    intro least most bound
    rw [within, Bool.and_eq_false_iff, decide_eq_false_iff_not, UInt8.le_iff_toNat_le]
    exact .inl (by omega)
  refine ⟨outside _ _ (by decide), ?_, ?_⟩
  · rw [secondOfThree]
    split
    · exact outside _ _ (by decide)
    · split <;> exact outside _ _ (by decide)
  · rw [secondOfFour]
    split
    · exact outside _ _ (by decide)
    · split <;> exact outside _ _ (by decide)

theorem decode_ascii (rest : Bytes) (low : b.toNat < 0x80) : decodeRune (b :: rest) = (b.toNat, 1) := by
  rw [decodeRune.eq_def]
  exact if_pos (ascii_lower low)

theorem decode_before_ascii (a : UInt8) (text : Bytes) (rest : Bytes) (low : b.toNat < 0x80) :
    decodeRune (a :: (text ++ b :: rest)) = decodeRune (a :: text) := by
  obtain ⟨continues, second, fourth⟩ := ascii_continues a low
  rcases text with _ | ⟨c, _ | ⟨d, _ | ⟨e, text⟩⟩⟩
  · rcases rest with _ | ⟨_, _ | ⟨_, rest⟩⟩ <;> simp [decodeRune, continues, second, fourth]
  · rcases rest with _ | ⟨_, rest⟩ <;> simp [decodeRune, continues]
  · simp [decodeRune, continues]
  · simp [decodeRune]

theorem decode_width (a : UInt8) (text : Bytes) : (decodeRune (a :: text)).2 ≤ text.length + 1 := by
  rw [decodeRune.eq_def]
  dsimp only
  repeat' split
  all_goals simp only [List.length_cons]; omega

theorem runes_from_append (skip : Nat) {text : Bytes} (rest : Bytes) (low : b.toNat < 0x80)
    (inside : skip ≤ text.length) :
    runesFrom skip (text ++ b :: rest) = runesFrom skip text ++ b.toNat :: runes rest := by
  induction text generalizing skip with
  | nil =>
    obtain rfl : skip = 0 := Nat.le_zero.mp inside
    rw [List.nil_append, runesFrom.eq_def]
    simp only [decode_ascii rest low]
    rfl
  | cons a text ih =>
    rw [List.cons_append]
    cases skip with
    | succ left => exact ih left (Nat.le_of_succ_le_succ inside)
    | zero =>
      have width := decode_width a text
      rw [runesFrom.eq_def, runesFrom.eq_def 0 (a :: text)]
      simp only [decode_before_ascii a text rest low]
      rw [ih _ (by omega), List.cons_append]

theorem runes_append_ascii (text : Bytes) (rest : Bytes) (low : b.toNat < 0x80) :
    runes (text ++ b :: rest) = runes text ++ b.toNat :: runes rest :=
  runes_from_append 0 rest low (Nat.zero_le _)

theorem runes_ascii (rest : Bytes) (low : b.toNat < 0x80) : runes (b :: rest) = b.toNat :: runes rest :=
  runes_append_ascii [] rest low

theorem ascii_byte_rune {text : Bytes} (low : b.toNat < 0x80) (member : b ∈ text) : b.toNat ∈ runes text := by
  obtain ⟨front, back, rfl⟩ := List.append_of_mem member
  rw [runes_append_ascii front back low]
  exact List.mem_append_right _ List.mem_cons_self

theorem encode_rune_byte {r : Nat} (member : b ∈ encodeRune r) : b.toNat = r ∨ 0x80 ≤ b.toNat := by
  have wide : ∀ n, 0x80 ≤ n → n < 256 → 0x80 ≤ (UInt8.ofNat n).toNat := by
    intro n low high
    rw [UInt8.toNat_ofNat']
    omega
  rw [encodeRune] at member
  split at member
  · left
    rw [List.mem_singleton.mp member, UInt8.toNat_ofNat']
    omega
  · right
    split at member
    · simp only [List.mem_cons, List.not_mem_nil, or_false] at member
      rcases member with rfl | rfl <;> exact wide _ (by omega) (by omega)
    · split at member
      · simp only [List.mem_cons, List.not_mem_nil, or_false] at member
        rcases member with rfl | rfl | rfl <;> decide
      · rename_i _ _ invalid
        have bound : r ≤ 0x10FFFF := by
          simp [validRune] at invalid
          omega
        split at member
        · simp only [List.mem_cons, List.not_mem_nil, or_false] at member
          rcases member with rfl | rfl | rfl <;> exact wide _ (by omega) (by omega)
        · simp only [List.mem_cons, List.not_mem_nil, or_false] at member
          rcases member with rfl | rfl | rfl | rfl <;> exact wide _ (by omega) (by omega)

theorem replace_single (old : UInt8) (new text : Bytes) :
    replaceAll [old] new text = text.flatMap (fun b => if b = old then new else [b]) := by
  rw [replaceAll]
  induction text with
  | nil => rfl
  | cons b rest ih =>
    rw [replaceFrom, List.flatMap_cons]
    by_cases same : b = old
    · subst same
      rw [if_pos (by simp [List.isPrefixOf]), if_pos rfl]
      exact congrArg (new ++ ·) ih
    · rw [if_neg (by simpa [List.isPrefixOf] using Ne.symm same), if_neg same, ih]
      rfl

theorem within_range (low high b : UInt8) : within low high b = true ↔ low.toNat ≤ b.toNat ∧ b.toNat ≤ high.toNat := by
  simp only [within, Bool.and_eq_true, decide_eq_true_eq, UInt8.le_iff_toNat_le]

theorem second_of_three_range (second : secondOfThree a b = true) :
    0x80 ≤ b.toNat ∧ b.toNat ≤ 0xBF ∧ (a.toNat = 0xE0 → 0xA0 ≤ b.toNat) := by
  rw [secondOfThree] at second
  split at second
  · have range := (within_range _ _ _).mp second
    simp at range
    omega
  · rename_i other
    have different : a.toNat ≠ 0xE0 := fun same => other (UInt8.toNat_inj.mp same)
    split at second
    · have range := (within_range _ _ _).mp second
      simp at range
      omega
    · have range := (within_range _ _ _).mp second
      simp at range
      omega

theorem second_of_four_range (second : secondOfFour a b = true) :
    0x80 ≤ b.toNat ∧ b.toNat ≤ 0xBF ∧ (a.toNat = 0xF0 → 0x90 ≤ b.toNat) := by
  rw [secondOfFour] at second
  split at second
  · have range := (within_range _ _ _).mp second
    simp at range
    omega
  · rename_i other
    have different : a.toNat ≠ 0xF0 := fun same => other (UInt8.toNat_inj.mp same)
    split at second
    · have range := (within_range _ _ _).mp second
      simp at range
      omega
    · have range := (within_range _ _ _).mp second
      simp at range
      omega

theorem decode_large (text : Bytes) (high : ¬ a < 0x80) : 0x80 ≤ (decodeRune (a :: text)).1 := by
  have runeErrorLarge : 0x80 ≤ runeError := by decide
  rw [decodeRune.eq_def]
  dsimp only
  rw [if_neg high]
  rcases text with _ | ⟨b, text⟩
  · exact runeErrorLarge
  dsimp only
  split
  · rename_i two
    rw [Bool.and_eq_true, within_range] at two
    have range := two.1
    simp at range
    show 0x80 ≤ a.toNat % 2 ^ 5 * 2 ^ 6 + b.toNat % 2 ^ 6
    omega
  rcases text with _ | ⟨c, text⟩
  · exact runeErrorLarge
  dsimp only
  split
  · rename_i three
    rw [Bool.and_eq_true, Bool.and_eq_true, within_range] at three
    have range := three.1.1
    have second := second_of_three_range three.1.2
    simp at range
    show 0x80 ≤ a.toNat % 2 ^ 4 * 2 ^ 12 + b.toNat % 2 ^ 6 * 2 ^ 6 + c.toNat % 2 ^ 6
    omega
  rcases text with _ | ⟨d, text⟩
  · exact runeErrorLarge
  dsimp only
  split
  · rename_i four
    rw [Bool.and_eq_true, Bool.and_eq_true, Bool.and_eq_true, within_range] at four
    have range := four.1.1.1
    have second := second_of_four_range four.1.1.2
    simp at range
    show 0x80 ≤ a.toNat % 2 ^ 3 * 2 ^ 18 + b.toNat % 2 ^ 6 * 2 ^ 12 + c.toNat % 2 ^ 6 * 2 ^ 6 + d.toNat % 2 ^ 6
    omega
  · exact runeErrorLarge

theorem decode_small {text : Bytes} (small : (decodeRune (a :: text)).1 < 0x80) :
    (decodeRune (a :: text)).1 = a.toNat := by
  by_cases low : a < 0x80
  · rw [decode_ascii text (UInt8.lt_iff_toNat_lt.mp low)]
  · have large := decode_large text low
    omega

theorem small_rune_byte (skip : Nat) {text : Bytes} {r : Nat} (member : r ∈ runesFrom skip text) (small : r < 0x80) :
    ∃ b ∈ text, b.toNat = r := by
  induction text generalizing skip with
  | nil => exact absurd member List.not_mem_nil
  | cons a text ih =>
    cases skip with
    | succ left =>
      obtain ⟨b, inside, same⟩ := ih left member
      exact ⟨b, List.mem_cons_of_mem a inside, same⟩
    | zero =>
      rcases List.mem_cons.mp member with rfl | later
      · exact ⟨a, List.mem_cons_self, (decode_small small).symm⟩
      · obtain ⟨b, inside, same⟩ := ih _ later
        exact ⟨b, List.mem_cons_of_mem a inside, same⟩

theorem small_runes_bytes {text : Bytes} (small : ∀ r ∈ runes text, r < 0x80) : ∀ b ∈ text, b.toNat < 0x80 := by
  induction text with
  | nil => exact fun b member => absurd member List.not_mem_nil
  | cons a rest ih =>
    have low : a.toNat < 0x80 := by
      by_contra high
      have first := small (decodeRune (a :: rest)).1 List.mem_cons_self
      have large := decode_large rest (fun less => high (UInt8.lt_iff_toNat_lt.mp less))
      omega
    rw [runes_ascii rest low] at small
    intro b member
    rcases List.mem_cons.mp member with rfl | inside
    · exact low
    · exact ih (fun r found => small r (List.mem_cons_of_mem _ found)) b inside

def solid (b : UInt8) : Bool := within 0x21 0x7F b

theorem solid_range (kept : solid b = true) : 0x20 < b.toNat ∧ b.toNat < 0x80 := by
  simp only [solid, within, Bool.and_eq_true, decide_eq_true_eq, UInt8.le_iff_toNat_le, UInt8.reduceToNat] at kept
  omega

theorem space1_range (space : space1 a = true) : a.toNat ≤ 0x20 := by
  simp only [space1, within, Bool.and_eq_true, Bool.or_eq_true, decide_eq_true_eq, UInt8.le_iff_toNat_le,
    ← UInt8.toNat_inj, UInt8.reduceToNat] at space
  omega

theorem space2_range (space : space2 a b = true) : 0x80 ≤ a.toNat ∧ 0x80 ≤ b.toNat := by
  simp only [space2, Bool.and_eq_true, Bool.or_eq_true, decide_eq_true_eq, ← UInt8.toNat_inj,
    UInt8.reduceToNat] at space
  omega

theorem space3_range {c : UInt8} (space : space3 a b c = true) : 0x80 ≤ a.toNat ∧ 0x80 ≤ b.toNat ∧ 0x80 ≤ c.toNat := by
  simp only [space3, within, Bool.and_eq_true, Bool.or_eq_true, decide_eq_true_eq, UInt8.le_iff_toNat_le,
    ← UInt8.toNat_inj, UInt8.reduceToNat] at space
  omega

theorem trim_left_keeps {text : Bytes} (kept : solid b = true) (member : b ∈ text) : b ∈ trimLeft text := by
  have range := solid_range kept
  fun_induction trimLeft text <;> grind [→ space1_range, → space2_range, → space3_range]

theorem trim_right_keeps {text : Bytes} (kept : solid b = true) (member : b ∈ text) : b ∈ trimRightReversed text := by
  have range := solid_range kept
  fun_induction trimRightReversed text <;> grind [→ space1_range, → space2_range, → space3_range]

theorem trim_keeps {text : Bytes} (kept : solid b = true) (member : b ∈ text) : b ∈ trimSpace text := by
  unfold trimSpace trimRight
  rw [List.mem_reverse]
  exact trim_right_keeps kept (List.mem_reverse.mpr (trim_left_keeps kept member))

end GoString

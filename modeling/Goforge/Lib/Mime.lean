import Goforge.Lib.Base64

set_option autoImplicit false

namespace Mime

open GoString

def upperHex (n : Nat) : UInt8 := if n < 10 then UInt8.ofNat (48 + n) else UInt8.ofNat (55 + n)

def qPlain (b : UInt8) : Bool :=
  within (byte '!') (byte '~') b && decide (b ≠ byte '=') && decide (b ≠ byte '?') && decide (b ≠ byte '_')

def qByte (b : UInt8) : Bytes :=
  if b = byte ' ' then [byte '_']
  else if qPlain b then [b]
  else [byte '=', upperHex (b.toNat / 16), upperHex (b.toNat % 16)]

def openWord (charset : Bytes) (encoding : UInt8) : Bytes := ascii "=?" ++ charset ++ [byte '?', encoding, byte '?']

def closeWord : Bytes := ascii "?="

def splitWord (charset : Bytes) (encoding : UInt8) : Bytes := closeWord ++ ascii " " ++ openWord charset encoding

def maxContentLen : Nat := 63

-- The loop of WordEncoder.qEncode. A rune is not split between words: skip
-- counts its bytes that are left.
def qEncodeFrom (charset : Bytes) (skip currentLen : Nat) : Bytes → Bytes
  | [] => []
  | b :: rest =>
    match skip with
    | left + 1 => qByte b ++ qEncodeFrom charset left currentLen rest
    | 0 =>
      let plain := qPlain b || decide (b = byte ' ')
      let runeLen := if plain then 1 else (decodeRune (b :: rest)).2
      let encLen := if plain then 1 else 3 * runeLen
      if maxContentLen < currentLen + encLen then
        splitWord charset (byte 'q') ++ qByte b ++ qEncodeFrom charset (runeLen - 1) encLen rest
      else qByte b ++ qEncodeFrom charset (runeLen - 1) (currentLen + encLen) rest

def needsEncoding (text : Bytes) : Bool :=
  (runes text).any (fun r => decide ((r < 0x20 ∨ 0x7E < r) ∧ r ≠ 9))

-- mime.QEncoding.Encode for a charset that is UTF-8.
def qEncode (charset text : Bytes) : Bytes :=
  if needsEncoding text then openWord charset (byte 'q') ++ qEncodeFrom charset 0 0 text ++ closeWord else text

def encodePadded (bytes : Bytes) : Bytes :=
  Base64.encodeStd bytes ++ List.replicate ((3 - bytes.length % 3) % 3) (byte '=')

def maxBase64Len : Nat := 45

-- The loop of WordEncoder.bEncode with the bytes of the word being filled.
def bEncodeFrom (charset : Bytes) (skip : Nat) (word : Bytes) : Bytes → Bytes
  | [] => encodePadded word
  | b :: rest =>
    match skip with
    | left + 1 => bEncodeFrom charset left (word ++ [b]) rest
    | 0 =>
      let runeLen := (decodeRune (b :: rest)).2
      if maxBase64Len < word.length + runeLen then
        encodePadded word ++ splitWord charset (byte 'b') ++ bEncodeFrom charset (runeLen - 1) [b] rest
      else bEncodeFrom charset (runeLen - 1) (word ++ [b]) rest

def bContent (charset text : Bytes) : Bytes :=
  if (text.length + 2) / 3 * 4 ≤ maxContentLen then encodePadded text else bEncodeFrom charset 0 [] text

-- mime.BEncoding.Encode for a charset that is UTF-8.
def bEncode (charset text : Bytes) : Bytes :=
  if needsEncoding text then openWord charset (byte 'b') ++ bContent charset text ++ closeWord else text

def readHexByte (high low : UInt8) : Option UInt8 := do
  let first ← hexValue high
  let second ← hexValue low
  return UInt8.ofNat (first * 16 + second)

def qText (c : UInt8) : Bool :=
  within (byte ' ') (byte '~') c || decide (c = byte '\n' ∨ c = byte '\r' ∨ c = byte '\t')

def qDecode : Bytes → Option Bytes
  | [] => some []
  | c :: rest =>
    if c = byte '_' then (qDecode rest).map (fun more => byte ' ' :: more)
    else if c = byte '=' then
      match rest with
      | high :: low :: rest =>
        match readHexByte high low with
        | none => none
        | some b => (qDecode rest).map (fun more => b :: more)
      | _ => none
    else if qText c then (qDecode rest).map (fun more => c :: more)
    else none

-- base64.StdEncoding, with padding.
def decodePadded (text : Bytes) : Option Bytes :=
  let kept := text.filter (fun c => !(decide (c = 0x0A) || decide (c = 0x0D)))
  let body :=
    if kept.drop (kept.length - 2) = ascii "==" then kept.take (kept.length - 2)
    else if kept.getLast? = some (byte '=') then kept.dropLast
    else kept
  if kept.length % 4 ≠ 0 then none
  else do
    let values ← body.mapM Base64.stdValue
    Base64.looseOctets values

def decodeContent (encoding : UInt8) (text : Bytes) : Option Bytes :=
  if encoding = byte 'B' ∨ encoding = byte 'b' then decodePadded text
  else if encoding = byte 'Q' ∨ encoding = byte 'q' then qDecode text
  else none

-- The charsets known without a CharsetReader.
def convert (charset content : Bytes) : Option Bytes :=
  if equalFold charset "utf-8" then some content
  else if equalFold charset "iso-8859-1" then some (content.flatMap (fun c => encodeRune c.toNat))
  else if equalFold charset "us-ascii" then
    some (content.flatMap (fun c => if c < 0x80 then [c] else encodeRune runeError))
  else none

def hasNonWhitespace (text : Bytes) : Bool :=
  text.any (fun c => !decide (c = byte ' ' ∨ c = byte '\t' ∨ c = byte '\n' ∨ c = byte '\r'))

-- An encoded-word at the start of a text, after its opening: the charset, the
-- encoding, the content and what follows.
def readWord (text : Bytes) : Option (Bytes × UInt8 × Bytes × Bytes) :=
  match cut (byte '?') text with
  | none => none
  | some (charset, after) =>
    if after.length < 4 then none
    else
      match after with
      | encoding :: mark :: body =>
        if mark ≠ byte '?' then none
        else (index (ascii "?=") body).map (fun stop => (charset, encoding, body.take stop, body.drop (stop + 2)))
      | _ => none

-- The loop of WordDecoder.DecodeHeader. Every turn takes bytes off the header,
-- so its length is fuel enough.
def decodeWords : Nat → Bool → Bytes → Option Bytes
  | 0, _, _ => none
  | fuel + 1, betweenWords, header =>
    match index (ascii "=?") header with
    | none => some header
    | some start =>
      match readWord (header.drop (start + 2)) with
      | none => some header
      | some (charset, encoding, text, after) =>
        match decodeContent encoding text with
        | none =>
          (decodeWords fuel false (header.drop (start + 2))).map (fun more => header.take (start + 2) ++ more)
        | some content =>
          let front :=
            if 0 < start ∧ (betweenWords = false ∨ hasNonWhitespace (header.take start)) then header.take start
            else []
          match convert charset content with
          | none => none
          | some out => (decodeWords fuel true after).map (fun more => front ++ out ++ more)

-- mime.WordDecoder.DecodeHeader
def decodeHeader (header : Bytes) : Option Bytes := decodeWords (header.length + 1) false header

theorem q_byte_plain : ∀ n < 256, ∀ c ∈ qByte (UInt8.ofNat n), c ≠ byte '?' ∧ 0x20 < c.toNat ∧ c.toNat < 0x7F := by
  have spelled : ∀ n < 256, (qByte (UInt8.ofNat n)).all
      (fun c => decide (c ≠ byte '?' ∧ 0x20 < c.toNat ∧ c.toNat < 0x7F)) = true := by
    decide +kernel
  intro n small c held
  exact of_decide_eq_true (List.all_eq_true.mp (spelled n small) c held)

theorem q_byte_spelled (b : UInt8) : ∀ c ∈ qByte b, c ≠ byte '?' ∧ 0x20 < c.toNat ∧ c.toNat < 0x7F := by
  have all := q_byte_plain b.toNat b.toNat_lt
  rwa [UInt8.ofNat_toNat] at all

theorem q_byte_shape : ∀ n < 256, qByte (UInt8.ofNat n) = [byte '_'] ∧ UInt8.ofNat n = byte ' ' ∨
    (∃ high low, qByte (UInt8.ofNat n) = [byte '=', high, low] ∧ readHexByte high low = some (UInt8.ofNat n)) ∨
    qByte (UInt8.ofNat n) = [UInt8.ofNat n] ∧ UInt8.ofNat n ≠ byte '_' ∧ UInt8.ofNat n ≠ byte '=' ∧
      qText (UInt8.ofNat n) = true := by
  have spelled : ∀ n < 256, qByte (UInt8.ofNat n) = [byte '_'] ∧ UInt8.ofNat n = byte ' ' ∨
      (qByte (UInt8.ofNat n) = [byte '=', upperHex (n / 16), upperHex (n % 16)] ∧
        readHexByte (upperHex (n / 16)) (upperHex (n % 16)) = some (UInt8.ofNat n)) ∨
      qByte (UInt8.ofNat n) = [UInt8.ofNat n] ∧ UInt8.ofNat n ≠ byte '_' ∧ UInt8.ofNat n ≠ byte '=' ∧
        qText (UInt8.ofNat n) = true := by
    decide +kernel
  intro n small
  rcases spelled n small with space | ⟨escaped, read⟩ | plain
  · exact .inl space
  · exact .inr (.inl ⟨_, _, escaped, read⟩)
  · exact .inr (.inr plain)

theorem q_decode_byte (b : UInt8) (rest : Bytes) :
    qDecode (qByte b ++ rest) = (qDecode rest).map (fun more => b :: more) := by
  have shape := q_byte_shape b.toNat b.toNat_lt
  rw [UInt8.ofNat_toNat] at shape
  rcases shape with ⟨spelled, rfl⟩ | ⟨high, low, spelled, read⟩ | ⟨spelled, underscore, equals, allowed⟩
  · rw [spelled, List.singleton_append, qDecode.eq_def]
    exact if_pos rfl
  · rw [spelled]
    simp only [List.cons_append, List.nil_append]
    rw [qDecode, if_neg (by decide), if_pos rfl, read]
  · rw [spelled, List.singleton_append, qDecode.eq_def]
    simp only [if_neg underscore, if_neg equals, if_pos allowed]

theorem q_decode_bytes (text : Bytes) : qDecode (text.flatMap qByte) = some text := by
  induction text with
  | nil => rfl
  | cons b rest ih =>
    rw [List.flatMap_cons, q_decode_byte, ih]
    rfl

theorem q_words (charset : Bytes) (text : Bytes) : ∀ skip currentLen, ∃ (first : Bytes) (rest : List Bytes),
    text = first ++ rest.flatten ∧
    qEncodeFrom charset skip currentLen text =
      first.flatMap qByte ++ rest.flatMap (fun word => splitWord charset (byte 'q') ++ word.flatMap qByte) := by
  induction text with
  | nil => exact fun _ _ => ⟨[], [], rfl, rfl⟩
  | cons b tail ih =>
    intro skip currentLen
    have grown : ∀ skip currentLen, ∃ (first : Bytes) (rest : List Bytes), b :: tail = first ++ rest.flatten ∧
        qByte b ++ qEncodeFrom charset skip currentLen tail =
          first.flatMap qByte ++ rest.flatMap (fun word => splitWord charset (byte 'q') ++ word.flatMap qByte) := by
      intro skip currentLen
      obtain ⟨first, rest, parts, encoded⟩ := ih skip currentLen
      refine ⟨b :: first, rest, by rw [parts, List.cons_append], ?_⟩
      rw [encoded, List.flatMap_cons, List.append_assoc]
    have begun : ∀ skip currentLen, ∃ (first : Bytes) (rest : List Bytes), b :: tail = first ++ rest.flatten ∧
        splitWord charset (byte 'q') ++ qByte b ++ qEncodeFrom charset skip currentLen tail =
          first.flatMap qByte ++ rest.flatMap (fun word => splitWord charset (byte 'q') ++ word.flatMap qByte) := by
      intro skip currentLen
      obtain ⟨first, rest, parts, encoded⟩ := grown skip currentLen
      refine ⟨[], first :: rest, by rw [parts, List.flatten_cons, List.nil_append], ?_⟩
      rw [List.append_assoc, encoded, List.flatMap_nil, List.nil_append, List.flatMap_cons, List.append_assoc]
    cases skip with
    | succ left => exact grown left currentLen
    | zero =>
      simp only [qEncodeFrom]
      split
      · split
        · exact begun _ _
        · exact grown _ _
      · split
        · exact begun _ _
        · exact grown _ _

def word (charset content : Bytes) : Bytes := openWord charset (byte 'q') ++ content.flatMap qByte ++ closeWord

theorem index_here {needle : Bytes} (text : Bytes) (filled : needle ≠ []) : index needle (needle ++ text) = some 0 := by
  cases needle with
  | nil => exact absurd rfl filled
  | cons first rest =>
    rw [List.cons_append, index, if_pos]
    rw [List.isPrefixOf_iff_prefix, ← List.cons_append]
    exact List.prefix_append _ _

theorem index_skips {first : UInt8} (needle : Bytes) {front : Bytes} (text : Bytes) (absent : first ∉ front) :
    index (first :: needle) (front ++ text) = (index (first :: needle) text).map (· + front.length) := by
  induction front with
  | nil => simp
  | cons b rest ih =>
    have differ : first ≠ b := fun same => absent (same ▸ List.mem_cons_self)
    have later := ih (fun inside => absent (List.mem_cons_of_mem b inside))
    rw [List.cons_append, index, if_neg (by simp [List.isPrefixOf, differ]), later, Option.map_map]
    congr 1

theorem spelled_content (content : Bytes) : byte '?' ∉ content.flatMap qByte := by
  intro inside
  obtain ⟨b, _, member⟩ := List.mem_flatMap.mp inside
  exact (q_byte_spelled b _ member).1 rfl

variable {charset : Bytes}

theorem read_word (content tail : Bytes) (plain : byte '?' ∉ charset) :
    readWord (charset ++ byte '?' :: byte 'q' :: byte '?' :: (content.flatMap qByte ++ closeWord ++ tail)) =
      some (charset, byte 'q', content.flatMap qByte, tail) := by
  have stop : index closeWord (content.flatMap qByte ++ (closeWord ++ tail)) = some (content.flatMap qByte).length := by
    have found := index_skips [byte '='] (closeWord ++ tail) (spelled_content content)
    rw [show byte '?' :: [byte '='] = closeWord from rfl, index_here tail (by decide)] at found
    simpa using found
  rw [readWord, cut_append _ plain]
  simp only [List.length_cons, List.length_append, List.append_assoc]
  have closing : closeWord.length = 2 := rfl
  rw [if_neg (by omega), if_neg (by simp), show ascii "?=" = closeWord from rfl, stop, Option.map_some,
    List.take_left, ← List.drop_drop, List.drop_left]
  rfl

theorem decode_word (content tail gap : Bytes) (between : Bool) (fuel : Nat) (plain : byte '?' ∉ charset)
    (unicode : equalFold charset "utf-8" = true) (gapped : gap = [] ∨ gap = ascii " " ∧ between = true) :
    decodeWords (fuel + 1) between (gap ++ (word charset content ++ tail)) =
      (decodeWords fuel true tail).map (fun more => content ++ more) := by
  have opened : word charset content ++ tail = ascii "=?" ++
      (charset ++ byte '?' :: byte 'q' :: byte '?' :: (content.flatMap qByte ++ closeWord ++ tail)) := by
    simp [word, openWord]
  have start : index (ascii "=?") (gap ++ (word charset content ++ tail)) = some gap.length := by
    have absent : byte '=' ∉ gap := by
      rcases gapped with rfl | ⟨rfl, _⟩ <;> decide
    have found := index_skips [byte '?'] (word charset content ++ tail) absent
    rw [opened, show byte '=' :: [byte '?'] = ascii "=?" from rfl, index_here _ (by decide)] at found
    rw [opened]
    simpa using found
  have rest : (gap ++ (word charset content ++ tail)).drop (gap.length + 2) =
      charset ++ byte '?' :: byte 'q' :: byte '?' :: (content.flatMap qByte ++ closeWord ++ tail) := by
    rw [← List.drop_drop, List.drop_left, opened]
    rfl
  have front : (if 0 < gap.length ∧ (between = false ∨ hasNonWhitespace ((gap ++ (word charset content ++ tail)).take
      gap.length)) then (gap ++ (word charset content ++ tail)).take gap.length else []) = [] := by
    rw [List.take_left]
    rcases gapped with rfl | ⟨rfl, rfl⟩ <;> rfl
  have read : decodeContent (byte 'q') (content.flatMap qByte) = some content := q_decode_bytes content
  rw [decodeWords, start]
  simp only [rest, read_word content tail plain, read, front, convert, unicode, if_true, List.nil_append]

theorem decode_rest (plain : byte '?' ∉ charset) (unicode : equalFold charset "utf-8" = true) (words : List Bytes) :
    ∀ fuel, words.length < fuel →
      decodeWords fuel true (words.flatMap (fun content => ascii " " ++ word charset content)) =
      some words.flatten := by
  induction words with
  | nil =>
    intro fuel enough
    cases fuel with
    | zero => cases enough
    | succ fuel => rfl
  | cons content rest ih =>
    intro fuel enough
    cases fuel with
    | zero => cases enough
    | succ fuel =>
      rw [List.flatMap_cons, List.append_assoc,
        decode_word content _ (ascii " ") true fuel plain unicode (.inr ⟨rfl, rfl⟩),
        ih fuel (Nat.lt_of_succ_lt_succ enough)]
      rfl

theorem q_encoded (charset : Bytes) {text : Bytes} (needed : needsEncoding text = true) :
    ∃ (first : Bytes) (rest : List Bytes),
    text = first ++ rest.flatten ∧
      qEncode charset text =
        word charset first ++ rest.flatMap (fun content => ascii " " ++ word charset content) := by
  obtain ⟨first, rest, parts, encoded⟩ := q_words charset text 0 0
  refine ⟨first, rest, parts, ?_⟩
  have shifted : ∀ rest : List Bytes,
      rest.flatMap (fun word => splitWord charset (byte 'q') ++ word.flatMap qByte) ++ closeWord =
        closeWord ++ rest.flatMap (fun content => ascii " " ++ word charset content) := by
    intro rest
    induction rest with
    | nil => simp
    | cons content others ih =>
      rw [List.flatMap_cons, List.append_assoc, ih, List.flatMap_cons]
      simp only [splitWord, word, List.append_assoc]
  rw [qEncode, if_pos needed, encoded, List.append_assoc, List.append_assoc, shifted rest]
  simp only [word, List.append_assoc]

theorem decode_q_encode {text : Bytes} (plain : byte '?' ∉ charset) (unicode : equalFold charset "utf-8" = true)
    (needed : needsEncoding text = true) : decodeHeader (qEncode charset text) = some text := by
  obtain ⟨first, rest, parts, encoded⟩ := q_encoded charset needed
  have long : ∀ rest : List Bytes,
      rest.length ≤ (rest.flatMap (fun content => ascii " " ++ word charset content)).length := by
    intro rest
    induction rest with
    | nil => exact Nat.le_refl 0
    | cons content others ih =>
      rw [List.flatMap_cons, List.length_append, List.length_append, List.length_cons]
      have one : (ascii " ").length = 1 := rfl
      omega
  have enough : rest.length < (qEncode charset text).length := by
    rw [encoded, List.length_append]
    have closing : closeWord.length = 2 := rfl
    have others := long rest
    rw [word, List.length_append]
    omega
  have step := decode_word first (rest.flatMap (fun content => ascii " " ++ word charset content)) [] false
    (qEncode charset text).length plain unicode (.inl rfl)
  rw [List.nil_append, ← encoded, decode_rest plain unicode rest _ enough] at step
  rw [decodeHeader, step, parts]
  rfl

-- An encoded-word that can be decoded stands in the text, and the decoder does not
-- stop before it, at an opening without charset, encoding and close.
def holdsWord : Bytes → Bool
  | [] => false
  | b :: rest =>
    if (ascii "=?").isPrefixOf (b :: rest) then
      match readWord (rest.drop 1) with
      | none => false
      | some (_, encoding, text, _) => (decodeContent encoding text).isSome || holdsWord rest
    else holdsWord rest

theorem holds_word_found (header : Bytes) : holdsWord header =
    match index (ascii "=?") header with
    | none => false
    | some start =>
      match readWord (header.drop (start + 2)) with
      | none => false
      | some (_, encoding, text, _) => (decodeContent encoding text).isSome || holdsWord (header.drop (start + 2)) := by
  induction header with
  | nil => rfl
  | cons b rest ih =>
    rw [holdsWord, index]
    split
    case isTrue opened =>
      obtain ⟨tail, shape⟩ := List.isPrefixOf_iff_prefix.mp opened
      obtain ⟨_, rfl⟩ := List.cons.inj shape
      rfl
    case isFalse =>
      rw [ih]
      cases index (ascii "=?") rest <;> rfl

theorem index_bound {needle text : Bytes} : ∀ {start}, index needle text = some start →
    start + needle.length ≤ text.length := by
  induction text with
  | nil =>
    intro start found
    rw [index] at found
    split at found
    case isTrue empty =>
      cases found
      rw [empty]
      exact Nat.le_refl 0
    case isFalse => cases found
  | cons b rest ih =>
    intro start found
    rw [index] at found
    split at found
    case isTrue here =>
      cases found
      have short := (List.isPrefixOf_iff_prefix.mp here).length_le
      omega
    case isFalse =>
      obtain ⟨place, later, rfl⟩ := Option.map_eq_some_iff.mp found
      have bound := ih later
      rw [List.length_cons]
      omega

theorem read_word_length {text charset body after : Bytes} {encoding : UInt8}
    (read : readWord text = some (charset, encoding, body, after)) : body.length + after.length + 5 ≤ text.length := by
  rw [readWord] at read
  split at read
  · cases read
  rename_i charset' behind halves
  have whole := congrArg List.length (cut_parts _ _ halves)
  rw [List.length_append, List.length_cons] at whole
  split at read
  · cases read
  split at read
  · rename_i first mark content
    split at read
    · cases read
    obtain ⟨stop, closed, same⟩ := Option.map_eq_some_iff.mp read
    cases same
    have bound := index_bound closed
    rw [show (ascii "?=").length = 2 from rfl] at bound
    rw [List.length_cons, List.length_cons] at whole
    rw [List.length_take, List.length_drop]
    omega
  · cases read

theorem q_decode_length (text : Bytes) : ∀ out, qDecode text = some out → out.length ≤ text.length := by
  fun_induction qDecode text <;> grind [Option.map_eq_some_iff]

theorem loose_octets_length (values : List Nat) : ∀ bytes, Base64.looseOctets values = some bytes →
    bytes.length ≤ values.length := by
  fun_induction Base64.looseOctets values <;> grind [Option.map_eq_some_iff]

theorem mapM_length {α β : Type} {read : α → Option β} {items : List α} : ∀ {values}, items.mapM read = some values →
    values.length = items.length := by
  induction items with
  | nil =>
    intro values all
    cases all
    rfl
  | cons item rest ih =>
    intro values all
    rw [List.mapM_cons] at all
    obtain ⟨value, _, later⟩ := Option.bind_eq_some_iff.mp all
    obtain ⟨more, others, shape⟩ := Option.bind_eq_some_iff.mp later
    cases shape
    rw [List.length_cons, List.length_cons, ih others]

theorem decode_padded_length {text out : Bytes} (decoded : decodePadded text = some out) :
    out.length ≤ text.length := by
  rw [decodePadded] at decoded
  have kept := List.length_filter_le (fun c => !(decide (c = 0x0A) || decide (c = 0x0D))) text
  generalize text.filter (fun c => !(decide (c = 0x0A) || decide (c = 0x0D))) = wanted at decoded kept
  split at decoded
  · cases decoded
  obtain ⟨values, read, octets⟩ := Option.bind_eq_some_iff.mp decoded
  have count := mapM_length read
  have short := loose_octets_length values out octets
  grind

theorem decode_content_length {encoding : UInt8} {text out : Bytes} (decoded : decodeContent encoding text = some out) :
    out.length ≤ text.length := by
  rw [decodeContent] at decoded
  split at decoded
  · exact decode_padded_length decoded
  · split at decoded
    · exact q_decode_length text out decoded
    · cases decoded

-- A byte that becomes more than one is no ASCII.
theorem spread_length {spread : UInt8 → Bytes} (each : ∀ c, (spread c).length = 1 ∨ ∃ b ∈ spread c, 0x80 ≤ b.toNat)
    {content : Bytes} (small : ∀ b ∈ content.flatMap spread, b.toNat < 0x80) :
    (content.flatMap spread).length = content.length := by
  induction content with
  | nil => rfl
  | cons c rest ih =>
    rw [List.flatMap_cons] at small ⊢
    have later := ih (fun b member => small b (List.mem_append_right _ member))
    rcases each c with one | ⟨b, member, large⟩
    · rw [List.length_append, one, later, List.length_cons, Nat.add_comm]
    · have bound := small b (List.mem_append_left _ member)
      omega

theorem convert_length {charset content out : Bytes} (converted : convert charset content = some out)
    (small : ∀ b ∈ out, b.toNat < 0x80) : out.length = content.length := by
  rw [convert] at converted
  split at converted
  · cases converted
    rfl
  split at converted
  · cases converted
    refine spread_length (fun c => ?_) small
    have every : ∀ n < 256, (encodeRune n).length = 1 ∨ ∃ b ∈ encodeRune n, 0x80 ≤ b.toNat := by decide +kernel
    exact every c.toNat c.toNat_lt
  split at converted
  · cases converted
    refine spread_length (fun c => ?_) small
    split
    · exact .inl rfl
    · exact .inr ⟨0xEF, by decide, by decide⟩
  · cases converted

theorem decode_words_length {fuel : Nat} : ∀ between header out, decodeWords fuel between header = some out →
    (∀ b ∈ out, b.toNat < 0x80) → out.length ≤ header.length ∧
    (holdsWord header = true → out.length < header.length) := by
  induction fuel with
  | zero =>
    intro between header out decoded
    cases decoded
  | succ fuel ih =>
    intro between header out decoded small
    rw [holds_word_found]
    rw [decodeWords] at decoded
    cases found : index (ascii "=?") header with
    | none =>
      rw [found] at decoded
      cases decoded
      exact ⟨Nat.le_refl _, fun impossible => absurd impossible Bool.false_ne_true⟩
    | some start =>
      have bound := index_bound found
      rw [show (ascii "=?").length = 2 from rfl] at bound
      rw [found] at decoded
      dsimp only at decoded ⊢
      cases read : readWord (header.drop (start + 2)) with
      | none =>
        rw [read] at decoded
        cases decoded
        exact ⟨Nat.le_refl _, fun impossible => absurd impossible Bool.false_ne_true⟩
      | some parts =>
        obtain ⟨charset, encoding, text, after⟩ := parts
        have long := read_word_length read
        rw [List.length_drop] at long
        rw [read] at decoded
        dsimp only at decoded ⊢
        cases content : decodeContent encoding text with
        | none =>
          rw [content] at decoded
          obtain ⟨more, later, rfl⟩ := Option.map_eq_some_iff.mp decoded
          obtain ⟨short, shorter⟩ := ih _ _ _ later (fun b member => small b (List.mem_append_right _ member))
          rw [List.length_append, List.length_take]
          rw [List.length_drop] at short shorter
          refine ⟨by omega, fun held => ?_⟩
          have strict := shorter held
          omega
        | some plain =>
          rw [content] at decoded
          dsimp only at decoded
          split at decoded
          · cases decoded
          rename_i result converted
          obtain ⟨more, later, rfl⟩ := Option.map_eq_some_iff.mp decoded
          have short := (ih _ _ _ later (fun b member => small b (List.mem_append_right _ member))).1
          have same := convert_length converted (fun b member =>
            small b (List.mem_append_left _ (List.mem_append_right _ member)))
          have fewer := decode_content_length content
          have front : ∀ keep : Prop, ∀ [Decidable keep], (if keep then header.take start else []).length ≤ start := by
            intro keep _
            split
            · exact List.length_take_le _ _
            · exact Nat.zero_le _
          have less := front (0 < start ∧ (between = false ∨ hasNonWhitespace (header.take start) = true))
          rw [List.length_append, List.length_append]
          exact ⟨by omega, fun _ => by omega⟩

theorem decode_plain {fuel : Nat} : ∀ between header, header.length < fuel → holdsWord header = false →
    decodeWords fuel between header = some header := by
  induction fuel with
  | zero =>
    intro between header enough
    cases enough
  | succ fuel ih =>
    intro between header enough unheld
    rw [holds_word_found] at unheld
    rw [decodeWords]
    cases found : index (ascii "=?") header with
    | none => rfl
    | some start =>
      have bound := index_bound found
      rw [show (ascii "=?").length = 2 from rfl] at bound
      rw [found] at unheld
      dsimp only at unheld ⊢
      cases read : readWord (header.drop (start + 2)) with
      | none => rfl
      | some parts =>
        obtain ⟨charset, encoding, text, after⟩ := parts
        rw [read] at unheld
        dsimp only at unheld ⊢
        rw [Bool.or_eq_false_iff, Option.isSome_eq_false_iff, Option.isNone_iff_eq_none] at unheld
        rw [unheld.1, ih false _ (by rw [List.length_drop]; omega) unheld.2, Option.map_some, List.take_append_drop]

-- What the decoder leaves as it is, of a header in ASCII.
theorem decode_header_self {header : Bytes} (small : ∀ b ∈ header, b.toNat < 0x80) :
    decodeHeader header = some header ↔ holdsWord header = false := by
  refine ⟨fun same => ?_, decode_plain false header (Nat.lt_succ_self _)⟩
  rw [Bool.eq_false_iff]
  intro held
  exact absurd ((decode_words_length _ _ _ same small).2 held) (Nat.lt_irrefl _)

end Mime

import Goforge.Lib.GoString

set_option autoImplicit false

namespace Base64

open GoString

-- base64.RawURLEncoding.Strict(): the URL alphabet without padding.
def digit (n : Nat) : UInt8 :=
  if n < 26 then UInt8.ofNat (65 + n)
  else if n < 52 then UInt8.ofNat (71 + n)
  else if n < 62 then UInt8.ofNat (n - 4)
  else if n = 62 then byte '-' else byte '_'

def value (c : UInt8) : Option Nat :=
  if within (byte 'A') (byte 'Z') c then some (c.toNat - 65)
  else if within (byte 'a') (byte 'z') c then some (c.toNat - 71)
  else if within (byte '0') (byte '9') c then some (c.toNat + 4)
  else if c = byte '-' then some 62
  else if c = byte '_' then some 63
  else none

def sextets : Bytes → List Nat
  | [] => []
  | [a] => [a.toNat / 4, a.toNat % 4 * 16]
  | [a, b] => [a.toNat / 4, a.toNat % 4 * 16 + b.toNat / 16, b.toNat % 16 * 4]
  | a :: b :: c :: rest =>
    a.toNat / 4 :: (a.toNat % 4 * 16 + b.toNat / 16) :: (b.toNat % 16 * 4 + c.toNat / 64) :: c.toNat % 64 ::
      sextets rest

def encode (bytes : Bytes) : Bytes := (sextets bytes).map digit

-- Strict decoding refuses trailing bits that are not zero.
def octets : List Nat → Option Bytes
  | [] => some []
  | [_] => none
  | [a, b] => if b % 16 = 0 then some [UInt8.ofNat (a * 4 + b / 16)] else none
  | [a, b, c] =>
    if c % 4 = 0 then some [UInt8.ofNat (a * 4 + b / 16), UInt8.ofNat (b % 16 * 16 + c / 4)] else none
  | a :: b :: c :: d :: rest =>
    (octets rest).map (fun more => UInt8.ofNat (a * 4 + b / 16) :: UInt8.ofNat (b % 16 * 16 + c / 4) ::
      UInt8.ofNat (c % 4 * 64 + d) :: more)

-- Carriage returns and newlines are skipped wherever they stand.
def decode (text : Bytes) : Option Bytes := do
  let values ← (text.filter (fun c => !(decide (c = 0x0A) || decide (c = 0x0D)))).mapM value
  octets values

theorem value_digit : ∀ n < 64, value (digit n) = some n := by
  decide

theorem digit_value {c : UInt8} {n : Nat} (found : value c = some n) : n < 64 ∧ digit n = c := by
  have all : ∀ m < 256, (value (UInt8.ofNat m)).all (fun n => decide (n < 64 ∧ digit n = UInt8.ofNat m)) = true := by
    decide +kernel
  have here := all c.toNat c.toNat_lt
  rw [UInt8.ofNat_toNat, found] at here
  exact of_decide_eq_true here

theorem digit_plain : ∀ n < 64, digit n ≠ byte '.' ∧ digit n ≠ 0x0A ∧ digit n ≠ 0x0D := by
  decide

theorem byte_of_nat (a : UInt8) {n : Nat} (same : n = a.toNat) : UInt8.ofNat n = a := by
  rw [same, UInt8.ofNat_toNat]

variable (bytes : Bytes)

theorem sextets_small : ∀ v ∈ sextets bytes, v < 64 := by
  induction bytes using sextets.induct with
  | case1 => nofun
  | case2 a =>
    have bound := a.toNat_lt
    simp only [sextets, List.mem_cons, List.not_mem_nil, or_false, forall_eq_or_imp, forall_eq]
    omega
  | case3 a b =>
    have bound := a.toNat_lt
    have small := b.toNat_lt
    simp only [sextets, List.mem_cons, List.not_mem_nil, or_false, forall_eq_or_imp, forall_eq]
    omega
  | case4 a b c rest ih =>
    have first := a.toNat_lt
    have second := b.toNat_lt
    have third := c.toNat_lt
    simp only [sextets, List.mem_cons, forall_eq_or_imp]
    exact ⟨by omega, by omega, by omega, by omega, ih⟩

theorem octets_sextets : octets (sextets bytes) = some bytes := by
  induction bytes using sextets.induct with
  | case1 => rfl
  | case2 a =>
    rw [sextets, octets, if_pos (by omega), byte_of_nat a (by omega)]
  | case3 a b =>
    rw [sextets, octets, if_pos (by omega), byte_of_nat a (by have := b.toNat_lt; omega),
      byte_of_nat b (by have := b.toNat_lt; omega)]
  | case4 a b c rest ih =>
    have second := b.toNat_lt
    have third := c.toNat_lt
    rw [sextets, octets, ih, Option.map_some, byte_of_nat a (by omega), byte_of_nat b (by omega),
      byte_of_nat c (by omega)]

theorem sextets_octets (values : List Nat) :
    ∀ bytes, (∀ v ∈ values, v < 64) → octets values = some bytes → sextets bytes = values := by
  have back : ∀ n < 256, (UInt8.ofNat n).toNat = n := fun n small => UInt8.toNat_ofNat_of_lt' small
  induction values using octets.induct with
  | case1 =>
    rintro bytes small ⟨⟩
    rfl
  | case2 => nofun
  | case3 a b clean =>
    intro bytes small run
    simp only [List.mem_cons, List.not_mem_nil, or_false, forall_eq_or_imp, forall_eq] at small
    rw [octets, if_pos clean] at run
    cases run
    rw [sextets, back _ (by omega)]
    simp only [List.cons.injEq, and_true]
    omega
  | case4 a b dirty =>
    intro bytes small run
    rw [octets, if_neg dirty] at run
    cases run
  | case5 a b c clean =>
    intro bytes small run
    simp only [List.mem_cons, List.not_mem_nil, or_false, forall_eq_or_imp, forall_eq] at small
    rw [octets, if_pos clean] at run
    cases run
    rw [sextets, back _ (by omega), back _ (by omega)]
    simp only [List.cons.injEq, and_true]
    omega
  | case6 a b c dirty =>
    intro bytes small run
    rw [octets, if_neg dirty] at run
    cases run
  | case7 a b c d rest ih =>
    intro bytes small run
    simp only [List.mem_cons, forall_eq_or_imp] at small
    obtain ⟨more, others, rfl⟩ := Option.map_eq_some_iff.mp run
    rw [sextets, ih more small.2.2.2.2 others, back _ (by omega), back _ (by omega), back _ (by omega)]
    simp only [List.cons.injEq, and_true]
    omega

theorem mapM_back {spell : Nat → UInt8} {read : UInt8 → Option Nat} {values : List Nat}
    (back : ∀ v ∈ values, read (spell v) = some v) : (values.map spell).mapM read = some values := by
  induction values with
  | nil => rfl
  | cons v rest ih =>
    rw [List.map_cons, List.mapM_cons, back v List.mem_cons_self,
      ih (fun later member => back later (List.mem_cons_of_mem v member))]
    rfl

theorem values_digits {values : List Nat} (small : ∀ v ∈ values, v < 64) :
    (values.map digit).mapM value = some values :=
  mapM_back (fun v member => value_digit v (small v member))

theorem digits_values {text : Bytes} : ∀ values, text.mapM value = some values →
    (∀ v ∈ values, v < 64) ∧ values.map digit = text := by
  induction text with
  | nil =>
    rintro values ⟨⟩
    exact ⟨nofun, rfl⟩
  | cons c rest ih =>
    intro values run
    rw [List.mapM_cons] at run
    obtain ⟨v, first, run⟩ := Option.bind_eq_some_iff.mp run
    obtain ⟨others, later, returned⟩ := Option.bind_eq_some_iff.mp run
    cases returned
    obtain ⟨small, same⟩ := ih others later
    obtain ⟨bound, here⟩ := digit_value first
    refine ⟨?_, by rw [List.map_cons, here, same]⟩
    rintro w (_ | ⟨_, member⟩)
    · exact bound
    · exact small w member

theorem encode_digits : ∀ c ∈ encode bytes, ∃ n < 64, c = digit n := by
  intro c member
  obtain ⟨n, inside, rfl⟩ := List.mem_map.mp member
  exact ⟨n, sextets_small bytes n inside, rfl⟩

theorem encode_kept :
    (encode bytes).filter (fun c => !(decide (c = 0x0A) || decide (c = 0x0D))) = encode bytes := by
  refine List.filter_eq_self.mpr (fun c member => ?_)
  obtain ⟨n, small, rfl⟩ := encode_digits bytes c member
  simp [(digit_plain n small).2.1, (digit_plain n small).2.2]

theorem decode_encode : decode (encode bytes) = some bytes := by
  rw [decode, encode_kept, encode, values_digits (sextets_small bytes)]
  exact octets_sextets bytes

theorem decode_some {text bytes : Bytes} (run : decode text = some bytes) :
    text.filter (fun c => !(decide (c = 0x0A) || decide (c = 0x0D))) = encode bytes := by
  rw [decode] at run
  obtain ⟨values, read, run⟩ := Option.bind_eq_some_iff.mp run
  obtain ⟨small, same⟩ := digits_values values read
  rw [encode, sextets_octets values bytes small run, same]

theorem encode_length : (encode bytes).length = (bytes.length * 4 + 2) / 3 := by
  rw [encode, List.length_map]
  induction bytes using sextets.induct with
  | case1 => rfl
  | case2 => simp [sextets]
  | case3 => simp [sextets]
  | case4 a b c rest ih =>
    simp only [sextets, List.length_cons, ih]
    omega

theorem decode_canonical {text bytes : Bytes} (length : text.length = (bytes.length * 4 + 2) / 3) :
    decode text = some bytes ↔ text = encode bytes := by
  constructor
  · intro run
    have kept := decode_some run
    rw [← kept]
    refine (List.filter_sublist.eq_of_length ?_).symm
    rw [kept, encode_length, length]
  · rintro rfl
    exact decode_encode bytes

-- base64.RawStdEncoding: its alphabet differs in the last two digits, and the
-- bits left over at the end are ignored.
def stdDigit (n : Nat) : UInt8 := if n = 62 then byte '+' else if n = 63 then byte '/' else digit n

def stdValue (c : UInt8) : Option Nat :=
  if c = byte '+' then some 62
  else if c = byte '/' then some 63
  else if c = byte '-' ∨ c = byte '_' then none
  else value c

def encodeStd (bytes : Bytes) : Bytes := (sextets bytes).map stdDigit

def looseOctets : List Nat → Option Bytes
  | [] => some []
  | [_] => none
  | [a, b] => some [UInt8.ofNat (a * 4 + b / 16)]
  | [a, b, c] => some [UInt8.ofNat (a * 4 + b / 16), UInt8.ofNat (b % 16 * 16 + c / 4)]
  | a :: b :: c :: d :: rest =>
    (looseOctets rest).map (fun more => UInt8.ofNat (a * 4 + b / 16) :: UInt8.ofNat (b % 16 * 16 + c / 4) ::
      UInt8.ofNat (c % 4 * 64 + d) :: more)

def decodeStd (text : Bytes) : Option Bytes := do
  let values ← (text.filter (fun c => !(decide (c = 0x0A) || decide (c = 0x0D)))).mapM stdValue
  looseOctets values

theorem loose_octets {values : List Nat} : ∀ bytes, octets values = some bytes → looseOctets values = some bytes := by
  induction values using octets.induct with
  | case1 => exact fun _ read => read
  | case2 => nofun
  | case3 a b clean =>
    intro bytes read
    rwa [octets, if_pos clean] at read
  | case4 a b dirty =>
    intro bytes read
    rw [octets, if_neg dirty] at read
    cases read
  | case5 a b c clean =>
    intro bytes read
    rwa [octets, if_pos clean] at read
  | case6 a b c dirty =>
    intro bytes read
    rw [octets, if_neg dirty] at read
    cases read
  | case7 a b c d rest ih =>
    intro bytes read
    rw [octets] at read
    obtain ⟨more, later, rfl⟩ := Option.map_eq_some_iff.mp read
    rw [looseOctets, ih more later]
    rfl

theorem std_value_digit : ∀ n < 64, stdValue (stdDigit n) = some n := by
  decide

theorem std_digit_plain : ∀ n < 64, stdDigit n ≠ byte '$' ∧ stdDigit n ≠ 0x0A ∧ stdDigit n ≠ 0x0D := by
  decide

theorem encode_std_plain : ∀ c ∈ encodeStd bytes, c ≠ byte '$' ∧ c ≠ 0x0A ∧ c ≠ 0x0D := by
  intro c member
  obtain ⟨n, inside, rfl⟩ := List.mem_map.mp member
  exact std_digit_plain n (sextets_small bytes n inside)

theorem decode_std_encode_std : decodeStd (encodeStd bytes) = some bytes := by
  have kept : (encodeStd bytes).filter (fun c => !(decide (c = 0x0A) || decide (c = 0x0D))) = encodeStd bytes := by
    refine List.filter_eq_self.mpr (fun c member => ?_)
    obtain ⟨_, newline, carriage⟩ := encode_std_plain bytes c member
    simp [newline, carriage]
  rw [decodeStd, kept, encodeStd, mapM_back (fun v member => std_value_digit v (sextets_small bytes v member))]
  exact loose_octets bytes (octets_sextets bytes)

end Base64

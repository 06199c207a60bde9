import Mathlib.Algebra.Ring.Int.Defs
import Goforge.Lib.Base64
import Goforge.Lib.Strconv

set_option autoImplicit false

namespace Goforge.Password

open GoString

def defaultIterations : Int := 600000

def saltBytes : Nat := 16

def keyBytes : Nat := 32

def maximumPassword : Nat := 4096

def maximumIterations : Int := 10000000

def errInvalidHash : Bytes := ascii "invalid password hash"

-- pbkdf2.Key with SHA-256, on the password, the salt, the iterations and the
-- length of the key.
abbrev Derive := Bytes → Bytes → Int → Nat → Except Bytes Bytes

structure Hasher where
  configured : Int

def Hasher.iterations (hasher : Hasher) : Int :=
  if hasher.configured ≤ 0 then defaultIterations else hasher.configured

-- What rand.Read fills.
structure Salt where
  bytes : Bytes
  sized : bytes.length = saltBytes

structure Parsed where
  iterations : Int
  salt : Bytes
  expected : Bytes
deriving DecidableEq

def parse (encoded : Bytes) : Except Bytes Parsed :=
  match split (byte '$') encoded with
  | [opening, framework, scheme, iterations, salt, expected] =>
    if opening ≠ [] ∨ framework ≠ ascii "goforge" ∨ scheme ≠ ascii "pbkdf2-sha256" then .error errInvalidHash
    else
      match Strconv.atoi iterations with
      | none => .error errInvalidHash
      | some iterations =>
        if iterations < 1 ∨ maximumIterations < iterations then .error errInvalidHash
        else
          match Base64.decodeStd salt with
          | none => .error errInvalidHash
          | some salt =>
            if salt.length < saltBytes then .error errInvalidHash
            else
              match Base64.decodeStd expected with
              | none => .error errInvalidHash
              | some expected =>
                if expected.length ≠ keyBytes then .error errInvalidHash
                else .ok ⟨iterations, salt, expected⟩
  | _ => .error errInvalidHash

structure Outcome where
  matched : Bool
  err : Option Bytes
  work : List Int
deriving DecidableEq

section

variable (derive : Derive)

def Hasher.hash (hasher : Hasher) (random : Except Bytes Salt) (plain : Bytes) : Except Bytes Bytes :=
  if plain = [] then .error (ascii "password cannot be empty")
  else if maximumPassword < plain.length then
    .error (ascii "password exceeds " ++ decimal maximumPassword ++ ascii " bytes")
  else if maximumIterations < hasher.iterations then
    .error (ascii "password iterations exceed " ++ Strconv.itoa maximumIterations)
  else
    match random with
    | .error err => .error (ascii "generate password salt: " ++ err)
    | .ok salt =>
      match derive plain salt.bytes hasher.iterations keyBytes with
      | .error err => .error (ascii "derive password hash: " ++ err)
      | .ok derived =>
        .ok (ascii "$goforge$pbkdf2-sha256$" ++ Strconv.itoa hasher.iterations ++ ascii "$" ++
          Base64.encodeStd salt.bytes ++ ascii "$" ++ Base64.encodeStd derived)

def Hasher.verify (_ : Hasher) (encoded plain : Bytes) : Outcome :=
  match parse encoded with
  | .error err => ⟨false, some err, []⟩
  | .ok parsed =>
    if maximumPassword < plain.length then ⟨false, none, []⟩
    else
      match derive plain parsed.salt parsed.iterations parsed.expected.length with
      | .error err => ⟨false, some (ascii "derive password hash: " ++ err), [parsed.iterations]⟩
      | .ok actual => ⟨actual = parsed.expected, none, [parsed.iterations]⟩

def Hasher.capped (hasher : Hasher) : Int :=
  if maximumIterations < hasher.iterations then maximumIterations else hasher.iterations

def Hasher.dummyVerify (hasher : Hasher) (_ : Bytes) : List Int := [hasher.capped]

def Hasher.verifyCurrent (hasher : Hasher) (encoded plain : Bytes) : Outcome :=
  match parse encoded with
  | .error err => ⟨false, some err, hasher.dummyVerify plain⟩
  | .ok parsed =>
    if maximumPassword < plain.length then ⟨false, none, hasher.dummyVerify plain⟩
    else
      match derive plain parsed.salt parsed.iterations parsed.expected.length with
      | .error err => ⟨false, some (ascii "derive password hash: " ++ err), [parsed.iterations]⟩
      | .ok actual =>
        let matched := decide (actual = parsed.expected)
        let remaining := hasher.capped - parsed.iterations
        if !matched ∧ 0 < remaining then
          match derive plain (List.replicate saltBytes 0) remaining keyBytes with
          | .error err =>
            ⟨false, some (ascii "pad password verification: " ++ err), [parsed.iterations, remaining]⟩
          | .ok _ => ⟨matched, none, [parsed.iterations, remaining]⟩
        else ⟨matched, none, [parsed.iterations]⟩

def Hasher.needsRehash (hasher : Hasher) (encoded : Bytes) : Bool :=
  match parse encoded with
  | .error _ => true
  | .ok parsed => parsed.iterations < hasher.iterations

def NeverFails : Prop :=
  ∀ plain salt iterations length, ∃ key, derive plain salt iterations length = .ok key ∧ key.length = length

theorem iterations_positive (hasher : Hasher) : 1 ≤ hasher.iterations := by
  rw [Hasher.iterations]
  split
  · decide
  · omega

theorem failed_work (never : NeverFails derive) (hasher : Hasher) (encoded : Bytes) {plain : Bytes}
    (failed : (hasher.verifyCurrent derive encoded plain).matched = false)
    (older : ∀ parsed, parse encoded = .ok parsed → parsed.iterations ≤ hasher.capped) :
    (hasher.verifyCurrent derive encoded plain).work.sum = hasher.capped := by
  rw [Hasher.verifyCurrent] at failed ⊢
  cases stored : parse encoded with
  | error err => simp [Hasher.dummyVerify]
  | ok parsed =>
    have bound := older parsed stored
    obtain ⟨actual, derived, _⟩ := never plain parsed.salt parsed.iterations parsed.expected.length
    obtain ⟨padding, padded, _⟩ := never plain (List.replicate saltBytes 0) (hasher.capped - parsed.iterations) keyBytes
    simp only [stored, derived, padded] at failed ⊢
    split
    · simp [Hasher.dummyVerify]
    rename_i short
    rw [if_neg short] at failed
    split at failed
    · rename_i pads
      rw [if_pos pads, List.sum_cons, List.sum_singleton]
      omega
    · rename_i done
      rw [if_neg done, List.sum_singleton]
      have wrong : decide (actual = parsed.expected) = false := failed
      rw [wrong] at done
      simp only [Bool.not_false, true_and] at done
      omega

theorem parse_hash {iterations : Int} {salt derived : Bytes} (positive : 1 ≤ iterations)
    (small : iterations ≤ maximumIterations) (salted : salt.length = saltBytes) (sized : derived.length = keyBytes) :
    parse (ascii "$goforge$pbkdf2-sha256$" ++ Strconv.itoa iterations ++ ascii "$" ++ Base64.encodeStd salt ++
      ascii "$" ++ Base64.encodeStd derived) = .ok ⟨iterations, salt, derived⟩ := by
  have numeral : Strconv.itoa iterations = decimal iterations.natAbs := if_neg (by omega)
  have count : Strconv.atoi (decimal iterations.natAbs) = some iterations := by
    rw [Strconv.atoi_numeral (Strconv.numeral_decimal iterations.natAbs)]
    simp only [maximumIterations] at small
    rw [if_pos (by simp only [Strconv.maxInt]; omega)]
    congr 1
    omega
  have parts : split (byte '$') (ascii "$goforge$pbkdf2-sha256$" ++ Strconv.itoa iterations ++ ascii "$" ++
      Base64.encodeStd salt ++ ascii "$" ++ Base64.encodeStd derived) =
        [[], ascii "goforge", ascii "pbkdf2-sha256", decimal iterations.natAbs, Base64.encodeStd salt,
          Base64.encodeStd derived] := by
    rw [numeral, ← split_join (List.cons_ne_nil _ _) ?_]
    · congr 1
      simp [join, ascii]
    · intro part member
      simp only [List.mem_cons, List.not_mem_nil, or_false] at member
      rcases member with rfl | rfl | rfl | rfl | rfl | rfl
      · decide
      · decide
      · decide
      · intro inside
        exact absurd (decimal_all_digits _ _ inside) (by decide)
      · exact fun inside => (Base64.encode_std_plain _ _ inside).1 rfl
      · exact fun inside => (Base64.encode_std_plain _ _ inside).1 rfl
  rw [parse, parts]
  simp only [ne_eq, not_true_eq_false, or_self, if_false, count, Base64.decode_std_encode_std, salted, sized,
    lt_irrefl]
  rw [if_neg (by omega)]

theorem hash_parsed (never : NeverFails derive) {hasher : Hasher} (random : Except Bytes Salt) {plain encoded : Bytes}
    (made : hasher.hash derive random plain = .ok encoded) :
    ∃ salt derived, random = .ok salt ∧ derive plain salt.bytes hasher.iterations keyBytes = .ok derived ∧
      plain.length ≤ maximumPassword ∧ derived.length = keyBytes ∧
      parse encoded = .ok ⟨hasher.iterations, salt.bytes, derived⟩ := by
  unfold Hasher.hash at made
  split at made
  · cases made
  split at made
  · cases made
  rename_i short
  split at made
  · cases made
  rename_i small
  cases random with
  | error err => cases made
  | ok salt =>
    obtain ⟨derived, given, sized⟩ := never plain salt.bytes hasher.iterations keyBytes
    simp only [given] at made
    cases made
    exact ⟨salt, derived, rfl, given, by omega, sized,
      parse_hash (iterations_positive hasher) (by omega) salt.sized sized⟩

theorem verify_hash (hasher : Hasher) {encoded other salt derived actual : Bytes} {iterations : Int}
    (never : NeverFails derive) (sized : derived.length = keyBytes)
    (stored : parse encoded = .ok ⟨iterations, salt, derived⟩) (short : other.length ≤ maximumPassword)
    (given : derive other salt iterations keyBytes = .ok actual) :
    ((hasher.verify derive encoded other).matched = decide (actual = derived) ∧
      (hasher.verify derive encoded other).err = none) ∧
      (hasher.verifyCurrent derive encoded other).matched = decide (actual = derived) ∧
      (hasher.verifyCurrent derive encoded other).err = none := by
  have allowed : ¬ maximumPassword < other.length := by omega
  obtain ⟨padding, padded, _⟩ := never other (List.replicate saltBytes 0) (hasher.capped - iterations) keyBytes
  simp only [Hasher.verify, Hasher.verifyCurrent, stored, if_neg allowed, sized, given, padded]
  refine ⟨⟨trivial, trivial⟩, ?_⟩
  split <;> exact ⟨rfl, rfl⟩

theorem oversize_fails {hasher : Hasher} {encoded other : Bytes} {parsed : Parsed} (stored : parse encoded = .ok parsed)
    (long : maximumPassword < other.length) :
    (hasher.verify derive encoded other).matched = false ∧
    (hasher.verifyCurrent derive encoded other).matched = false := by
  simp only [Hasher.verify, Hasher.verifyCurrent, stored, if_pos long, and_self]

theorem capped_min (hasher : Hasher) : hasher.capped = min hasher.iterations maximumIterations := by
  rw [Hasher.capped]
  split <;> omega

theorem failed_logins_cost_alike (never : NeverFails derive) (hasher : Hasher) :
    (∀ encoded plain, (hasher.verifyCurrent derive encoded plain).matched = false →
      (∀ parsed, parse encoded = .ok parsed → parsed.iterations ≤ min hasher.iterations maximumIterations) →
      (hasher.verifyCurrent derive encoded plain).work.sum = min hasher.iterations maximumIterations) ∧
    (∀ plain, (hasher.dummyVerify plain).sum = min hasher.iterations maximumIterations) ∧
    ∀ random plain encoded, hasher.hash derive random plain = .ok encoded →
      ((hasher.verify derive encoded plain).matched = true ∧ (hasher.verify derive encoded plain).err = none) ∧
      ((hasher.verifyCurrent derive encoded plain).matched = true ∧
        (hasher.verifyCurrent derive encoded plain).err = none) ∧
      hasher.needsRehash encoded = false ∧
      ∀ other, other ≠ plain →
        ((hasher.verify derive encoded other).matched = false ∧
          (hasher.verifyCurrent derive encoded other).matched = false) ∨
        ∃ salt key, random = .ok salt ∧ derive plain salt.bytes hasher.iterations keyBytes = .ok key ∧
          derive other salt.bytes hasher.iterations keyBytes = .ok key := by
  rw [← capped_min hasher]
  refine ⟨failed_work derive never hasher, fun plain => by simp [Hasher.dummyVerify], ?_⟩
  intro random plain encoded made
  obtain ⟨salt, derived, drawn, given, short, sized, stored⟩ := hash_parsed derive never random made
  have own := verify_hash derive hasher never sized stored short given
  rw [decide_eq_true rfl] at own
  refine ⟨own.1, own.2, ?_, ?_⟩
  · rw [Hasher.needsRehash, stored]
    exact decide_eq_false (Int.lt_irrefl _)
  · intro other _
    by_cases long : maximumPassword < other.length
    · exact .inl (oversize_fails derive stored long)
    · obtain ⟨actual, found, _⟩ := never other salt.bytes hasher.iterations keyBytes
      have compared := verify_hash derive hasher never sized stored
        (by omega) found
      by_cases collide : actual = derived
      · exact .inr ⟨salt, derived, drawn, given, collide ▸ found⟩
      · rw [decide_eq_false collide] at compared
        exact .inl ⟨compared.1.1, compared.2.1⟩

end

def paddedKey : Derive := fun plain _ _ length => .ok ((plain ++ List.replicate length 0).take length)

theorem padded_key_never_fails : NeverFails paddedKey := by
  intro plain salt iterations length
  refine ⟨_, rfl, ?_⟩
  rw [List.length_take, List.length_append, List.length_replicate]
  omega

theorem failed_logins_cost_alike_padded :
    let hasher : Hasher := ⟨10⟩
    let salt : Salt := ⟨List.replicate saltBytes 7, by decide⟩
    ∃ encoded, hasher.hash paddedKey (.ok salt) (ascii "secret") = .ok encoded ∧
      (hasher.verify paddedKey encoded (ascii "secret")).matched = true ∧
      (hasher.verifyCurrent paddedKey encoded (ascii "guess")).matched = false ∧
      (hasher.verifyCurrent paddedKey (ascii "$goforge$") (ascii "guess")).work.sum = 10 := by
  intro hasher salt
  obtain ⟨cost, _, round⟩ := failed_logins_cost_alike paddedKey padded_key_never_fails hasher
  refine ⟨_, rfl, (round (.ok salt) (ascii "secret") _ rfl).1.1, by decide +kernel, ?_⟩
  exact cost (ascii "$goforge$") (ascii "guess") (by decide +kernel) (fun parsed stored => by cases stored)

end Goforge.Password

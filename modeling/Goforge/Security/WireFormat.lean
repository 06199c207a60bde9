import Goforge.Security.Token

set_option autoImplicit false

namespace Goforge.Token

open GoString

theorem decode_canonical_some {encoded : Bytes} {length : Nat} (decoded : Bytes) :
    decodeCanonical encoded length = some decoded ↔ encoded = Base64.encode decoded ∧ decoded.length = length := by
  rw [decodeCanonical]
  constructor
  · intro run
    split at run
    · cases run
    rename_i found _
    obtain ⟨⟨sized, same⟩, ⟨⟩⟩ := Option.ite_none_right_eq_some.mp run
    exact ⟨same.symm, sized⟩
  · rintro ⟨rfl, sized⟩
    rw [Base64.decode_encode]
    exact if_pos ⟨sized, rfl⟩

theorem encode_no_dot (bytes : Bytes) : byte '.' ∉ Base64.encode bytes := by
  intro member
  obtain ⟨n, small, same⟩ := Base64.encode_digits bytes _ member
  exact (Base64.digit_plain n small).1 same.symm

section

variable (sum256 : Bytes → Bytes)

def presentedText (selector secret : Bytes) : Bytes := Base64.encode selector ++ [byte '.'] ++ Base64.encode secret

theorem presented_split {selector secret : Bytes} (selectorSized : selector.length = selectorBytes)
    (secretSized : secret.length = secretBytes) :
    (presentedText selector secret).length = presentedLength ∧
      (presentedText selector secret)[selectorLength]? = some (byte '.') ∧
      (presentedText selector secret).count (byte '.') = 1 ∧
      (presentedText selector secret).take selectorLength = Base64.encode selector ∧
      (presentedText selector secret).drop (selectorLength + 1) = Base64.encode secret := by
  have left : (Base64.encode selector).length = selectorLength := by
    rw [Base64.encode_length, selectorSized]
    rfl
  have right : (Base64.encode secret).length = secretLength := by
    rw [Base64.encode_length, secretSized]
    rfl
  have front : (Base64.encode selector ++ [byte '.']).length = selectorLength + 1 := by
    rw [List.length_append, left, List.length_singleton]
  refine ⟨?_, ?_, ?_, ?_, ?_⟩
  · rw [presentedText, List.length_append, front, right]
    rfl
  · rw [presentedText, List.append_assoc, List.getElem?_append_right (Nat.le_of_eq left), left, Nat.sub_self]
    rfl
  · rw [presentedText, List.count_append, List.count_append, List.count_eq_zero.mpr (encode_no_dot selector),
      List.count_eq_zero.mpr (encode_no_dot secret)]
    rfl
  · rw [presentedText, List.append_assoc, List.take_left' left]
  · rw [presentedText, List.drop_left' front]

theorem parse_some_iff (presented : Bytes) (parsed : Parsed) :
    parse sum256 presented = some parsed ↔ ∃ selector secret : Bytes, selector.length = selectorBytes ∧
      secret.length = secretBytes ∧ presented = presentedText selector secret ∧
      parsed = ⟨Base64.encode selector, sum256 secret, true⟩ := by
  constructor
  · intro run
    rw [parse] at run
    split at run
    · cases run
    rename_i shape
    simp only [not_or, ne_eq, not_not] at shape
    obtain ⟨length, dot, _⟩ := shape
    dsimp only at run
    split at run
    · rename_i selector secret first second
      cases run
      obtain ⟨left, selectorSized⟩ := (decode_canonical_some _).mp first
      obtain ⟨right, secretSized⟩ := (decode_canonical_some _).mp second
      refine ⟨selector, secret, selectorSized, secretSized, ?_, by rw [left]⟩
      obtain ⟨inside, here⟩ := List.getElem?_eq_some_iff.mp dot
      rw [presentedText, ← left, ← right, ← here, List.append_assoc, List.singleton_append,
        ← List.drop_eq_getElem_cons inside, List.take_append_drop]
    · cases run
  · rintro ⟨selector, secret, selectorSized, secretSized, rfl, rfl⟩
    obtain ⟨length, dot, single, left, right⟩ := presented_split selectorSized secretSized
    rw [parse, if_neg (by simp only [length, dot, single, ne_eq, not_true_eq_false, or_self, not_false_eq_true])]
    dsimp only
    rw [left, right, (decode_canonical_some selector).mpr ⟨rfl, selectorSized⟩,
      (decode_canonical_some secret).mpr ⟨rfl, secretSized⟩]

def zeroParsed : Parsed := ⟨[], List.replicate digestBytes 0, false⟩

-- The values of the type that a program outside of the package can have: only
-- the selector is its own to set.
inductive Obtained : Parsed → Prop where
  | zero : Obtained zeroParsed
  | parsed (presented : Bytes) (parsed : Parsed) (run : parse sum256 presented = some parsed) : Obtained parsed
  | renamed (candidate : Parsed) (selector : Bytes) (obtained : Obtained candidate) :
      Obtained { candidate with selector := selector }

def FromParse (candidate : Parsed) : Prop :=
  ∃ presented parsed, parse sum256 presented = some parsed ∧ candidate = { parsed with selector := candidate.selector }

theorem obtained_valid {candidate : Parsed} (obtained : Obtained sum256 candidate) :
    candidate.valid = true ↔ FromParse sum256 candidate := by
  constructor
  · intro valid
    induction obtained with
    | zero => cases valid
    | parsed presented parsed run => exact ⟨presented, parsed, run, rfl⟩
    | renamed candidate selector _ ih =>
      obtain ⟨presented, parsed, run, same⟩ := ih valid
      refine ⟨presented, parsed, run, ?_⟩
      rw [same]
  · rintro ⟨presented, parsed, run, same⟩
    obtain ⟨_, _, _, _, _, rfl⟩ := (parse_some_iff sum256 presented parsed).mp run
    rw [same]

theorem expected_full {stored : Bytes} (sized : stored.length = digestBytes) : expected stored = stored := by
  rw [expected, List.take_left' sized]

theorem match_digest_iff (stored : Bytes) (candidate : Parsed) :
    matchDigest stored candidate = true ↔
      candidate.valid = true ∧ stored = candidate.digest ∧ stored.length = digestBytes := by
  simp only [matchDigest, Bool.and_eq_true, decide_eq_true_eq]
  constructor
  · rintro ⟨sized, valid, same⟩
    exact ⟨valid, (expected_full sized).symm.trans same, sized⟩
  · rintro ⟨valid, same, sized⟩
    exact ⟨sized, valid, (expected_full sized).trans same⟩

theorem wire_format :
    (∀ material : Bytes, material.length = selectorBytes + secretBytes →
      parse sum256 (issue sum256 material).presented =
        some ⟨(issue sum256 material).selector, (issue sum256 material).digest, true⟩) ∧
    (∀ presented : Bytes, (∃ parsed, parse sum256 presented = some parsed) ↔
      ∃ material : Bytes, material.length = selectorBytes + secretBytes ∧ presented =
      (issue sum256 material).presented) ∧
    (∀ (stored : Bytes) (candidate : Parsed), Obtained sum256 candidate →
      (matchDigest stored candidate = true ↔
        FromParse sum256 candidate ∧ stored = candidate.digest ∧ stored.length = digestBytes)) := by
  have accepted : ∀ material : Bytes, material.length = selectorBytes + secretBytes →
      parse sum256 (issue sum256 material).presented =
        some ⟨(issue sum256 material).selector, (issue sum256 material).digest, true⟩ := by
    intro material sized
    refine (parse_some_iff sum256 _ _).mpr ⟨material.take selectorBytes, material.drop selectorBytes, ?_, ?_, rfl, rfl⟩
    · rw [List.length_take, sized]
      rfl
    · rw [List.length_drop, sized]
      rfl
  refine ⟨accepted, ?_, ?_⟩
  · intro presented
    constructor
    · rintro ⟨parsed, run⟩
      obtain ⟨selector, secret, selectorSized, secretSized, rfl, _⟩ := (parse_some_iff sum256 presented parsed).mp run
      refine ⟨selector ++ secret, by rw [List.length_append, selectorSized, secretSized], ?_⟩
      rw [issue, List.take_left' selectorSized, List.drop_left' selectorSized]
      rfl
    · rintro ⟨material, sized, rfl⟩
      exact ⟨_, accepted material sized⟩
  · intro stored candidate obtained
    rw [match_digest_iff, obtained_valid sum256 obtained]

end

end Goforge.Token

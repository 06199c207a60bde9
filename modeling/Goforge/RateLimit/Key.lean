import Goforge.Lib.Strconv

set_option autoImplicit false

namespace Goforge.RateLimit

open GoString

def written (parts : List Bytes) : Bytes := parts.flatMap (fun part => part ++ [0])

def key (sum256 : Bytes → Bytes) (parts : List Bytes) : Bytes := Strconv.hexBytes (sum256 (written parts))

def pieces (parts : List Bytes) : List Bytes := parts.flatMap (split 0)

theorem split_written (parts : List Bytes) : split 0 (written parts) = pieces parts ++ [[]] := by
  induction parts with
  | nil => rfl
  | cons part rest ih =>
    rw [written, List.flatMap_cons, List.append_assoc, List.singleton_append, split_between, ← written, ih,
      ← List.append_assoc]
    rfl

theorem written_same_iff (a b : List Bytes) : written a = written b ↔ pieces a = pieces b := by
  constructor
  · intro same
    have split := congrArg (split 0) same
    rw [split_written, split_written] at split
    exact List.append_cancel_right split
  · intro same
    have joined := congrArg (fun list => join [0] (list ++ [[]])) same
    simp only [← split_written, join_split] at joined
    exact joined

theorem pieces_plain {parts : List Bytes} (plain : ∀ part ∈ parts, 0 ∉ part) : pieces parts = parts := by
  induction parts with
  | nil => rfl
  | cons part rest ih =>
    rw [pieces, List.flatMap_cons, split_absent part (plain part List.mem_cons_self), ← pieces,
      ih (fun later member => plain later (List.mem_cons_of_mem part member)), List.singleton_append]

section

variable (sum256 : Bytes → Bytes) (a b : List Bytes)
  (free : sum256 (written a) = sum256 (written b) → written a = written b)

include free

theorem key_same_iff : key sum256 a = key sum256 b ↔ pieces a = pieces b := by
  rw [← written_same_iff]
  constructor
  · exact fun same => free (Strconv.hex_bytes_injective _ _ same)
  · exact fun same => by rw [key, key, same]

-- Two lists have keys of their own unless they differ only in where a part ends
-- and where it holds a zero byte.
theorem key_unambiguous_iff :
    ((key sum256 a = key sum256 b ↔ a = b) ↔ a = b ∨ pieces a ≠ pieces b) ∧
      ((∀ part ∈ a ++ b, 0 ∉ part) → (key sum256 a = key sum256 b ↔ a = b)) := by
  have equal : a = b → key sum256 a = key sum256 b := fun same => by rw [same]
  rw [key_same_iff sum256 a b free] at equal ⊢
  refine ⟨⟨?_, ?_⟩, ?_⟩
  · intro exact
    rcases Decidable.em (pieces a = pieces b) with same | apart
    · exact .inl (exact.mp same)
    · exact .inr apart
  · rintro (same | apart)
    · exact iff_of_true (equal same) same
    · exact iff_of_false apart (fun same => apart (equal same))
  · intro plain
    rw [pieces_plain (fun part member => plain part (List.mem_append_left b member)),
      pieces_plain (fun part member => plain part (List.mem_append_right a member))]

end

theorem key_unambiguous_iff_sample :
    ((key id [ascii "auth", ascii "x"] = key id [ascii "auth", ascii "y"] ↔
        [ascii "auth", ascii "x"] = [ascii "auth", ascii "y"]) ↔
      [ascii "auth", ascii "x"] = [ascii "auth", ascii "y"] ∨
        pieces [ascii "auth", ascii "x"] ≠ pieces [ascii "auth", ascii "y"]) ∧
      ((∀ part ∈ [ascii "auth", ascii "x"] ++ [ascii "auth", ascii "y"], 0 ∉ part) →
        (key id [ascii "auth", ascii "x"] = key id [ascii "auth", ascii "y"] ↔
          [ascii "auth", ascii "x"] = [ascii "auth", ascii "y"])) :=
  key_unambiguous_iff id _ _ (fun same => same)

theorem zero_byte_moves_a_part :
    [ascii "auth", ascii "a", ascii "b"] ≠ [ascii "auth", ascii "a" ++ [0] ++ ascii "b"] ∧
      ∀ sum256 : Bytes → Bytes,
        key sum256 [ascii "auth", ascii "a", ascii "b"] = key sum256 [ascii "auth", ascii "a" ++ [0] ++ ascii "b"] :=
  ⟨by decide, fun sum256 => congrArg (fun text => Strconv.hexBytes (sum256 text)) (by decide)⟩

end Goforge.RateLimit

import Goforge.Orm.Meaning

set_option autoImplicit false

namespace Goforge.Orm

open GoString Sql

variable {α : Type}

theorem contains_fold_literal (fold : Nat → Nat) (fixes : ∀ c, isSpecial c = true → fold c = c)
    (reflects : ∀ c, isSpecial (fold c) = true → isSpecial c = true) (column : Column) (literal : Bytes)
    (args : List (Arg α)) (searched : Bytes) :
    ∃ pattern,
      (Predicate.containsFold column literal : Predicate α).fields.compileLeaf args =
        .ok (column.table.quoted ++ ascii "." ++ column.name.quoted ++ ascii " ILIKE " ++
          (byte '$' :: decimal (args.length + 1)) ++ ascii " ESCAPE '!'", args ++ [.text pattern]) ∧
      (readPattern '!'.toNat (runes pattern)).isSome = true ∧
      foldedLike fold '!'.toNat (runes pattern) (runes searched) =
        some (decide ((runes literal).map fold <:+: (runes searched).map fold)) := by
  refine ⟨containsPattern literal, ?_, ?_, folded_contains_pattern fold fixes reflects literal (runes searched)⟩
  · rw [← contains_fold_pattern]
    rfl
  · rw [read_contains_pattern]
    rfl

def lowerLetter (c : Nat) : Nat := if 65 ≤ c ∧ c ≤ 90 then c + 32 else c

theorem is_special_iff (c : Nat) : isSpecial c = true ↔ c = 33 ∨ c = 37 ∨ c = 95 := by
  simp only [isSpecial, Bool.or_eq_true, decide_eq_true_eq, or_assoc]
  rfl

theorem lower_letter_fixes (c : Nat) (special : isSpecial c = true) : lowerLetter c = c := by
  rw [is_special_iff] at special
  exact if_neg (by omega)

theorem lower_letter_reflects (c : Nat) (special : isSpecial (lowerLetter c) = true) : isSpecial c = true := by
  rw [is_special_iff] at special ⊢
  rw [lowerLetter] at special
  split at special <;> omega

theorem contains_fold_literal_sample : ∃ pattern : Bytes,
    foldedLike lowerLetter '!'.toNat (runes pattern) (runes (ascii "SAVE 50%_!")) = some true ∧
      foldedLike lowerLetter '!'.toNat (runes pattern) (runes (ascii "SAVE 50xy!")) = some false := by
  obtain ⟨pattern, compiled, _, found⟩ := contains_fold_literal (α := Unit) lowerLetter lower_letter_fixes
    lower_letter_reflects ⟨.zero, none, .zero⟩ (ascii "save 50%_!") [] (ascii "SAVE 50%_!")
  obtain ⟨other, again, _, missed⟩ := contains_fold_literal (α := Unit) lowerLetter lower_letter_fixes
    lower_letter_reflects ⟨.zero, none, .zero⟩ (ascii "save 50%_!") [] (ascii "SAVE 50xy!")
  have same : other = pattern := by
    have equal := again.symm.trans compiled
    simpa using equal
  subst same
  exact ⟨other, found.trans (by decide), missed.trans (by decide)⟩

end Goforge.Orm

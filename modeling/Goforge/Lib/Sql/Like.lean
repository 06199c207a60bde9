import Goforge.Lib.GoString
import Mathlib.Data.List.Infix

set_option autoImplicit false

namespace Sql

open GoString

inductive Wildcard where
  | any
  | one
  | exactly (character : Nat)
deriving DecidableEq, Repr

-- A pattern may not end with its escape character.
def readPattern (escape : Nat) : List Nat → Option (List Wildcard)
  | [] => some []
  | c :: rest =>
    if c = escape then
      match rest with
      | [] => none
      | quoted :: rest => (readPattern escape rest).map (.exactly quoted :: ·)
    else
      (readPattern escape rest).map
        ((if c = '%'.toNat then Wildcard.any else if c = '_'.toNat then .one else .exactly c) :: ·)

def matchPattern (same : Nat → Nat → Bool) : List Wildcard → List Nat → Bool
  | [], text => text.isEmpty
  | .any :: pattern, text => text.tails.any (matchPattern same pattern)
  | .one :: _, [] => false
  | .one :: pattern, _ :: text => matchPattern same pattern text
  | .exactly _ :: _, [] => false
  | .exactly wanted :: pattern, c :: text => same wanted c && matchPattern same pattern text

def containsText (same : Nat → Nat → Bool) (literal text : List Nat) : Bool :=
  text.tails.any (fun rest => decide (literal.length ≤ rest.length) && (literal.zip rest).all (fun (a, b) => same a b))

variable (same : Nat → Nat → Bool) (literal rest text : List Nat)

theorem match_everything : matchPattern same [.any] text = true := by
  rw [matchPattern, List.any_eq_true]
  exact ⟨[], (List.mem_tails _ _).mpr List.nil_suffix, rfl⟩

theorem match_literal :
    matchPattern same (literal.map Wildcard.exactly ++ [.any]) text =
      (decide (literal.length ≤ text.length) && (literal.zip text).all (fun (a, b) => same a b)) := by
  induction literal generalizing text with
  | nil => simpa using match_everything same text
  | cons wanted literal ih =>
    cases text with
    | nil => simp [matchPattern]
    | cons c text =>
      rw [List.map_cons, List.cons_append, matchPattern, ih text]
      simp only [List.length_cons, Nat.add_le_add_iff_right, List.zip_cons_cons, List.all_cons]
      rw [Bool.and_left_comm]

theorem match_contains :
    matchPattern same (.any :: (literal.map Wildcard.exactly ++ [.any])) text = containsText same literal text := by
  rw [matchPattern, containsText]
  congr 1
  funext rest
  exact match_literal same literal rest

def isSpecial (c : Nat) : Bool := c = '!'.toNat || c = '%'.toNat || c = '_'.toNat

def escapeByte (b : UInt8) : Bytes := if isSpecial b.toNat then [byte '!', b] else [b]

def escapeRune (c : Nat) : List Nat := if isSpecial c then ['!'.toNat, c] else [c]

theorem special_ascii {c : Nat} (special : isSpecial c = true) : c < 0x80 := by
  simp only [isSpecial, Bool.or_eq_true, decide_eq_true_eq] at special
  rcases special with (rfl | rfl) | rfl <;> decide

theorem escape_plain {text : Bytes} (plain : ∀ b ∈ text, isSpecial b.toNat = false) :
    (runes text).flatMap escapeRune = runes text := by
  have same : ∀ c ∈ runes text, escapeRune c = [c] := by
    intro c member
    rw [escapeRune, if_neg]
    intro special
    obtain ⟨b, inside, rfl⟩ := small_rune_byte 0 member (special_ascii special)
    rw [plain b inside] at special
    cases special
  rw [List.flatMap_congr same, List.flatMap_singleton']

theorem runes_escape_after (plain text : Bytes) (free : ∀ b ∈ plain, isSpecial b.toNat = false) :
    runes (plain ++ text.flatMap escapeByte) = (runes (plain ++ text)).flatMap escapeRune := by
  induction text generalizing plain with
  | nil => rw [List.flatMap_nil, List.append_nil, escape_plain free]
  | cons b text ih =>
    rw [List.flatMap_cons]
    by_cases special : isSpecial b.toNat = true
    · have low := special_ascii special
      have later := ih [] (List.forall_mem_nil _)
      rw [List.nil_append, List.nil_append] at later
      rw [escapeByte, if_pos special, List.cons_append, List.singleton_append, runes_append_ascii _ _ (by decide),
        runes_ascii _ low, runes_append_ascii plain text low, later, List.flatMap_append, List.flatMap_cons,
        escape_plain free, escapeRune, if_pos special]
      rfl
    · rw [escapeByte, if_neg special, ← List.append_assoc, ih (plain ++ [b]), List.append_assoc,
        List.singleton_append]
      intro other member
      rcases List.mem_append.mp member with inside | last
      · exact free other inside
      · rw [List.mem_singleton.mp last]
        exact Bool.eq_false_iff.mpr special

theorem runes_escape (text : Bytes) : runes (text.flatMap escapeByte) = (runes text).flatMap escapeRune :=
  runes_escape_after [] text (List.forall_mem_nil _)

theorem read_other {escape c : Nat} (other : c ≠ escape) :
    readPattern escape (c :: rest) =
      (readPattern escape rest).map
        ((if c = '%'.toNat then Wildcard.any else if c = '_'.toNat then .one else .exactly c) :: ·) := by
  rw [readPattern.eq_def]
  exact if_neg other

theorem read_escaped :
    readPattern '!'.toNat (literal.flatMap escapeRune ++ rest) =
      (readPattern '!'.toNat rest).map (literal.map Wildcard.exactly ++ ·) := by
  induction literal with
  | nil => rw [List.flatMap_nil, List.nil_append, List.map_nil]; exact Option.map_id'.symm
  | cons c literal ih =>
    rw [List.flatMap_cons, List.append_assoc, List.map_cons]
    by_cases special : isSpecial c = true
    · rw [escapeRune, if_pos special, List.cons_append, List.singleton_append, readPattern, if_pos rfl, ih,
        Option.map_map]
      rfl
    · have plain : c ≠ '!'.toNat ∧ c ≠ '%'.toNat ∧ c ≠ '_'.toNat := by
        simpa [isSpecial, and_assoc] using special
      rw [escapeRune, if_neg special, List.singleton_append, read_other _ plain.1, ih, Option.map_map,
        if_neg plain.2.1, if_neg plain.2.2]
      rfl

def containsPattern (literal : Bytes) : Bytes := byte '%' :: (literal.flatMap escapeByte ++ [byte '%'])

theorem read_between :
    readPattern '!'.toNat ('%'.toNat :: (literal.flatMap escapeRune ++ ['%'.toNat])) =
      some (.any :: (literal.map Wildcard.exactly ++ [.any])) := by
  rw [read_other _ (by decide), read_escaped]
  rfl

theorem read_contains_pattern (literal : Bytes) :
    readPattern '!'.toNat (runes (containsPattern literal)) =
      some (.any :: ((runes literal).map Wildcard.exactly ++ [.any])) := by
  rw [containsPattern, runes_ascii _ (by decide), runes_append_ascii _ _ (by decide), runes_escape]
  exact read_between (runes literal)

def foldedLike (fold : Nat → Nat) (escape : Nat) (pattern text : List Nat) : Option Bool :=
  (readPattern escape (pattern.map fold)).map (fun wildcards =>
    matchPattern (fun a b => a == b) wildcards (text.map fold))

theorem zip_same_start :
    (decide (literal.length ≤ rest.length) && (literal.zip rest).all (fun (a, b) => a == b)) = true ↔
    literal <+: rest := by
  induction literal generalizing rest with
  | nil => simp
  | cons a literal ih =>
    cases rest with
    | nil => simp
    | cons b rest =>
      rw [List.cons_prefix_cons, ← ih rest]
      simp only [List.length_cons, Nat.add_le_add_iff_right, List.zip_cons_cons, List.all_cons, Bool.and_eq_true,
        beq_iff_eq]
      tauto

theorem contains_infix : containsText (fun a b => a == b) literal text = true ↔ literal <:+: text := by
  rw [containsText, List.any_eq_true, List.infix_iff_prefix_suffix]
  simp only [zip_same_start, List.mem_tails]
  exact ⟨fun ⟨rest, ends, starts⟩ => ⟨rest, starts, ends⟩, fun ⟨rest, starts, ends⟩ => ⟨rest, ends, starts⟩⟩

section

variable (fold : Nat → Nat) (fixes : ∀ c, isSpecial c = true → fold c = c)
  (reflects : ∀ c, isSpecial (fold c) = true → isSpecial c = true)

include fixes reflects

theorem escape_fold (c : Nat) : (escapeRune c).map fold = escapeRune (fold c) := by
  by_cases special : isSpecial c = true
  · rw [fixes c special, escapeRune, if_pos special, List.map_cons, List.map_singleton, fixes c special,
      fixes '!'.toNat (by decide)]
  · rw [escapeRune, if_neg special, escapeRune, if_neg (fun folded => special (reflects c folded)), List.map_singleton]

theorem folded_contains_pattern (literal : Bytes) (text : List Nat) :
    foldedLike fold '!'.toNat (runes (containsPattern literal)) text =
      some (decide ((runes literal).map fold <:+: text.map fold)) := by
  have folded : (runes (containsPattern literal)).map fold =
      '%'.toNat :: (((runes literal).map fold).flatMap escapeRune ++ ['%'.toNat]) := by
    rw [containsPattern, runes_ascii _ (by decide), runes_append_ascii _ _ (by decide), runes_escape, List.map_cons,
      List.map_append, List.map_flatMap, List.flatMap_map]
    simp only [escape_fold fold fixes reflects]
    rw [show (byte '%').toNat = '%'.toNat by decide, fixes '%'.toNat (by decide), List.map_cons,
      fixes '%'.toNat (by decide)]
    rfl
  have found : containsText (fun a b => a == b) ((runes literal).map fold) (text.map fold) =
      decide ((runes literal).map fold <:+: text.map fold) := by
    rw [Bool.eq_iff_iff, contains_infix, decide_eq_true_eq]
  rw [foldedLike, folded, read_between, Option.map_some, match_contains, found]

end

end Sql

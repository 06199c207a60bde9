import Mathlib.Init

set_option autoImplicit false

namespace Text

-- Anchored matching by derivatives: the expression is what may still follow.
inductive Regex where
  | never
  | done
  | oneOf (ranges : List (Char × Char))
  | seq (first second : Regex)
  | alt (left right : Regex)
  | star (body : Regex)
deriving DecidableEq, Repr

def inRanges (c : Char) : List (Char × Char) → Bool
  | [] => false
  | (low, high) :: rest => (decide (low ≤ c) && decide (c ≤ high)) || inRanges c rest

def Regex.nullable : Regex → Bool
  | .never => false
  | .done => true
  | .oneOf _ => false
  | .seq first second => first.nullable && second.nullable
  | .alt left right => left.nullable || right.nullable
  | .star _ => true

def Regex.seqOf : Regex → Regex → Regex
  | .never, _ => .never
  | .done, second => second
  | first, second => .seq first second

def Regex.altOf : Regex → Regex → Regex
  | .never, right => right
  | left, .never => left
  | left, right => if left = right then left else .alt left right

def Regex.deriv (c : Char) : Regex → Regex
  | .never => .never
  | .done => .never
  | .oneOf ranges => if inRanges c ranges then .done else .never
  | .seq first second =>
    if first.nullable then Regex.altOf (Regex.seqOf (first.deriv c) second) (second.deriv c)
    else Regex.seqOf (first.deriv c) second
  | .alt left right => Regex.altOf (left.deriv c) (right.deriv c)
  | .star body => Regex.seqOf (body.deriv c) (.star body)

def Regex.accepts (pattern : Regex) (text : String) : Bool :=
  (text.toList.foldl (fun rest c => rest.deriv c) pattern).nullable

def Regex.char (c : Char) : Regex := .oneOf [(c, c)]

def Regex.repeated (pattern : Regex) : Nat → Regex
  | 0 => .done
  | count + 1 => .seq pattern (pattern.repeated count)

def Regex.avoids (c : Char) : Regex → Bool
  | .never => true
  | .done => true
  | .oneOf ranges => !inRanges c ranges
  | .seq first second => first.avoids c && second.avoids c
  | .alt left right => left.avoids c && right.avoids c
  | .star body => body.avoids c

variable {c : Char}

theorem deriv_avoided {pattern : Regex} (avoids : pattern.avoids c = true) : pattern.deriv c = .never := by
  induction pattern with
  | never => rfl
  | done => rfl
  | oneOf ranges =>
    have outside : inRanges c ranges = false := by simpa [Regex.avoids] using avoids
    simp [Regex.deriv, outside]
  | seq first second firstIh secondIh =>
    rw [Regex.avoids, Bool.and_eq_true] at avoids
    simp [Regex.deriv, firstIh avoids.1, secondIh avoids.2, Regex.seqOf, Regex.altOf]
  | alt left right leftIh rightIh =>
    rw [Regex.avoids, Bool.and_eq_true] at avoids
    simp [Regex.deriv, leftIh avoids.1, rightIh avoids.2, Regex.altOf]
  | star body ih => simp [Regex.deriv, ih avoids, Regex.seqOf]

theorem seq_of_avoids {first second : Regex} (left : first.avoids c = true) (right : second.avoids c = true) :
    (Regex.seqOf first second).avoids c = true := by
  unfold Regex.seqOf
  split
  · rfl
  · exact right
  · rw [Regex.avoids, left, right, Bool.and_self]

theorem alt_of_avoids {first second : Regex} (left : first.avoids c = true) (right : second.avoids c = true) :
    (Regex.altOf first second).avoids c = true := by
  unfold Regex.altOf
  split
  · exact right
  · exact left
  · split
    · exact left
    · rw [Regex.avoids, left, right, Bool.and_self]

theorem avoids_deriv (d : Char) {pattern : Regex} (avoids : pattern.avoids c = true) :
    (pattern.deriv d).avoids c = true := by
  induction pattern with
  | never => rfl
  | done => rfl
  | oneOf ranges =>
    unfold Regex.deriv
    split <;> rfl
  | seq first second firstIh secondIh =>
    rw [Regex.avoids, Bool.and_eq_true] at avoids
    have head := seq_of_avoids (firstIh avoids.1) avoids.2
    unfold Regex.deriv
    split
    · exact alt_of_avoids head (secondIh avoids.2)
    · exact head
  | alt left right leftIh rightIh =>
    rw [Regex.avoids, Bool.and_eq_true] at avoids
    exact alt_of_avoids (leftIh avoids.1) (rightIh avoids.2)
  | star body ih => exact seq_of_avoids (ih avoids) avoids

theorem never_accepts (text : List Char) : (text.foldl (fun rest c => rest.deriv c) Regex.never).nullable = false := by
  induction text with
  | nil => rfl
  | cons c rest ih => exact ih

theorem accepts_avoids (c : Char) (pattern : Regex) (text : String) (accepted : pattern.accepts text = true)
    (avoids : pattern.avoids c = true) : c ∉ text.toList := by
  unfold Regex.accepts at accepted
  generalize text.toList = chars at accepted
  induction chars generalizing pattern with
  | nil => exact List.not_mem_nil
  | cons first rest ih =>
    rw [List.foldl_cons] at accepted
    intro member
    rcases List.mem_cons.mp member with rfl | later
    · rw [deriv_avoided avoids, never_accepts] at accepted
      cases accepted
    · exact ih (pattern.deriv first) (avoids_deriv first avoids) accepted later

theorem repeated_accepts {ranges : List (Char × Char)} {text : String} (count : Nat)
    (length : text.toList.length = count) (all : ∀ c ∈ text.toList, inRanges c ranges = true) :
    (Regex.repeated (.oneOf ranges) count).accepts text = true := by
  unfold Regex.accepts
  generalize text.toList = chars at length all
  induction chars generalizing count with
  | nil =>
    cases length
    rfl
  | cons c rest ih =>
    cases length
    have step :
        (Regex.repeated (.oneOf ranges) (rest.length + 1)).deriv c = Regex.repeated (.oneOf ranges) rest.length := by
      simp [Regex.repeated, Regex.deriv, Regex.nullable, all c List.mem_cons_self, Regex.seqOf]
    rw [List.foldl_cons, List.length_cons, step]
    exact ih rest.length rfl (fun other member => all other (List.mem_cons_of_mem c member))

end Text

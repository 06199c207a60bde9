import Mathlib.Data.Set.Defs
import Mathlib.Order.Lattice

set_option autoImplicit false

namespace Search

def lastTrue {ε : Type} (probe : Int → Except ε Bool) : Nat → Int → Int → Int → Except ε Int
  | 0, _, _, best => .ok best
  | fuel + 1, low, high, best =>
    if low ≤ high then
      let middle := low + (high - low) / 2
      match probe middle with
      | .error err => .error err
      | .ok true => lastTrue probe fuel (middle + 1) high middle
      | .ok false => lastTrue probe fuel low (middle - 1) best
    else .ok best

structure Decides {ε : Type} (probe : Int → Except ε Bool) (holds : Int → Prop) (low high : Int) : Prop where
  accepts : ∀ index, low ≤ index → index ≤ high → holds index → probe index = .ok true
  rejects : ∀ index, low ≤ index → index ≤ high → ¬ holds index → probe index = .ok false
  closed : ∀ before index, low ≤ before → before ≤ index → index ≤ high → holds index → holds before

theorem decides_within {ε : Type} {probe : Int → Except ε Bool} {holds : Int → Prop} {low high : Int} (low' high' : Int)
    (decides : Decides probe holds low high) (left : low ≤ low') (right : high' ≤ high) :
    Decides probe holds low' high' := by
  refine ⟨?_, ?_, ?_⟩
  · intro index least most
    exact decides.accepts index (by omega) (by omega)
  · intro index least most
    exact decides.rejects index (by omega) (by omega)
  · intro before index least ordered most
    exact decides.closed before index (by omega) ordered (by omega)

theorem last_true_spec {ε : Type} {probe : Int → Except ε Bool} {holds : Int → Prop} (fuel : Nat) (low high : Int)
    (decides : Decides probe holds low high) (enough : high - low < fuel) (range : low ≤ high + 1) :
    ∃ last, lastTrue probe fuel low high (low - 1) = .ok last ∧ low - 1 ≤ last ∧ last ≤ high ∧
      (low ≤ last → holds last) ∧ ∀ index, last < index → index ≤ high → ¬ holds index := by
  induction fuel generalizing low high with
  | zero => exact ⟨low - 1, rfl, by omega, by omega, by omega, by omega⟩
  | succ fuel ih =>
    unfold lastTrue
    by_cases active : low ≤ high
    · rw [if_pos active]
      have middleLow : low ≤ low + (high - low) / 2 := by omega
      have middleHigh : low + (high - low) / 2 ≤ high := by omega
      generalize middleEq : low + (high - low) / 2 = middle at *
      dsimp only
      by_cases found : holds middle
      · rw [decides.accepts middle middleLow middleHigh found]
        have narrowed := decides_within (middle + 1) high decides (by omega) (by omega)
        obtain ⟨last, done, least, most, here, beyond⟩ := ih (middle + 1) high narrowed (by omega) (by omega)
        rw [show middle + 1 - 1 = middle by omega] at done
        refine ⟨last, done, by omega, most, ?_, beyond⟩
        intro _
        by_cases moved : middle + 1 ≤ last
        · exact here moved
        · rw [show last = middle by omega]
          exact found
      · rw [decides.rejects middle middleLow middleHigh found]
        have narrowed := decides_within low (middle - 1) decides (by omega) (by omega)
        obtain ⟨last, done, least, most, here, beyond⟩ := ih low (middle - 1) narrowed (by omega) (by omega)
        refine ⟨last, done, least, by omega, here, ?_⟩
        intro index after within
        by_cases left : index ≤ middle - 1
        · exact beyond index after left
        · intro holdsIndex
          exact found (decides.closed middle index middleLow (by omega) within holdsIndex)
    · rw [if_neg active]
      exact ⟨low - 1, rfl, by omega, by omega, by omega, by omega⟩

structure NextIn {α : Type} [LinearOrder α] (members : Set α) (absent : α) (next : α → α) : Prop where
  isMember : ∀ t m, m ∈ members → t < m → next t ∈ members
  later : ∀ t m, m ∈ members → t < m → t < next t
  least : ∀ t m, m ∈ members → t < m → next t ≤ m
  missing : ∀ t, (∀ m ∈ members, m ≤ t) → next t = absent

end Search

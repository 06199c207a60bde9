import Goforge.Lib.Search
import Goforge.Schedule.Definition

set_option autoImplicit false

namespace Goforge.Schedule

open GoTime Search

def nextAfter (definition : Definition) (after : Int) : Except Err Int :=
  let next := definition.next after
  if isZero next || decide (next ≤ after) || decide (next ≠ truncateMinute next) then
    .error (.message ("schedule/postgres: " ++ definition.name ++ " returned an invalid next occurrence"))
  else .ok next

def probe (next : Int → Int) (lower finish : Int) (index : Int) : Except Err Bool :=
  let candidate := lower + index * minute
  let occurrence := next (candidate - nanosecond)
  if isZero occurrence then .ok false
  else if occurrence < candidate ∨ occurrence ≠ truncateMinute occurrence then
    .error (.message "next occurrence is not a monotone whole UTC minute")
  else .ok (decide (occurrence ≤ finish))

def finalOccurrence (next : Int → Int) (start finish candidate : Int) : Except Err (Option Int) :=
  let occurrence := next (candidate - nanosecond)
  if isZero occurrence || decide (occurrence < start) || decide (finish < occurrence) ||
      decide (occurrence < candidate) || decide (occurrence ≠ truncateMinute occurrence) then
    .error (.message "next occurrence failed final inclusive-window validation")
  else .ok (some occurrence)

def ceilMinute (t : Int) : Int := if truncateMinute t < t then truncateMinute t + minute else truncateMinute t

def searchMinutes (next : Int → Int) (start finish lower upper : Int) : Except Err (Option Int) :=
  let minutes := (sub upper lower).tdiv minute
  match lastTrue (probe next lower finish) (minutes.toNat + 1) 0 minutes (-1) with
  | .error err => .error err
  | .ok best => if best < 0 then .ok none else finalOccurrence next start finish (lower + best * minute)

def latestOccurrence (next : Int → Int) (start finish : Int) : Except Err (Option Int) :=
  if isZero start || isZero finish || decide (finish < start) then .error (.message "invalid occurrence search")
  else if truncateMinute finish < ceilMinute start then .ok none
  else searchMinutes next start finish (ceilMinute start) (truncateMinute finish)

theorem next_member {members : Set Int} (next : Int → Int) (successor : NextIn members zeroTime next) {t : Int}
    (found : isZero (next t) = false) : next t ∈ members ∧ t < next t := by
  by_cases later : ∃ m ∈ members, t < m
  · obtain ⟨m, member, after⟩ := later
    exact ⟨successor.isMember t m member after, successor.later t m member after⟩
  · have absent : next t = zeroTime := successor.missing t (by
      intro m member
      by_contra after
      exact later ⟨m, member, by omega⟩)
    rw [absent] at found
    exact absurd found (by decide)

theorem next_found {members : Set Int} (next : Int → Int) (successor : NextIn members zeroTime next) {t m : Int}
    (real : zeroTime ≤ t) (member : m ∈ members) (after : t < m) : isZero (next t) = false := by
  have later := successor.later t m member after
  rw [isZero, decide_eq_false_iff_not]
  omega

theorem next_after_ok {members : Set Int} {definition : Definition} (whole : ∀ m ∈ members, truncateMinute m = m)
    (successor : NextIn members zeroTime definition.next) {t m : Int} (real : zeroTime ≤ t) (member : m ∈ members)
    (after : t < m) : nextAfter definition t = .ok (definition.next t) := by
  have found := next_found definition.next successor real member after
  have inside := whole _ (successor.isMember t m member after)
  have later := successor.later t m member after
  have ordered : decide (definition.next t ≤ t) = false := decide_eq_false (by omega)
  rw [nextAfter]
  simp only [found, ordered, inside, ne_eq, not_true_eq_false, decide_false, Bool.or_self, Bool.false_eq_true, if_false]

def IsLatest (members : Set Int) (start finish occurrence : Int) : Prop :=
  occurrence ∈ members ∧ start ≤ occurrence ∧ occurrence ≤ finish ∧ ∀ m ∈ members, m ≤ finish → m ≤ occurrence

section

variable (members : Set Int) (next : Int → Int) (lower finish : Int)

def Reaches (index : Int) : Prop := ∃ m ∈ members, lower + index * minute ≤ m ∧ m ≤ finish

theorem probe_decides (whole : ∀ m ∈ members, truncateMinute m = m) (successor : NextIn members zeroTime next)
    (real : zeroTime < lower) (high : Int) :
    Decides (probe next lower finish) (Reaches members lower finish) 0 high := by
  have candidateReal : ∀ index, 0 ≤ index → zeroTime ≤ lower + index * minute - nanosecond := by
    intro index least
    have nonneg : 0 ≤ index * minute := Int.mul_nonneg least (by decide)
    unfold nanosecond
    omega
  refine ⟨?_, ?_, ?_⟩
  · rintro index least _ ⟨m, member, after, before⟩
    have beyond : lower + index * minute - nanosecond < m := by
      unfold nanosecond
      omega
    have found := next_found next successor (candidateReal index least) member beyond
    have inside := whole _ (successor.isMember _ m member beyond)
    have later := successor.later _ m member beyond
    have first := successor.least _ m member beyond
    rw [probe]
    simp only [found, Bool.false_eq_true, if_false]
    rw [if_neg, decide_eq_true (by omega)]
    unfold nanosecond at later ⊢
    rintro (early | broken)
    · omega
    · exact broken inside.symm
  · intro index least _ unreachable
    rw [probe]
    cases found : isZero (next (lower + index * minute - nanosecond)) with
    | true => rfl
    | false =>
      obtain ⟨member, later⟩ := next_member next successor found
      have inside := whole _ member
      have late : ¬ next (lower + index * minute - nanosecond) ≤ finish := by
        intro before
        refine unreachable ⟨_, member, ?_, before⟩
        unfold nanosecond at later ⊢
        omega
      simp only [Bool.false_eq_true, if_false]
      rw [if_neg, decide_eq_false late]
      unfold nanosecond at later ⊢
      rintro (early | broken)
      · omega
      · exact broken inside.symm
  · rintro before index _ ordered _ ⟨m, member, after, within⟩
    have scaled : before * minute ≤ index * minute := Int.mul_le_mul_of_nonneg_right ordered (by decide)
    exact ⟨m, member, by omega, within⟩

end

theorem ceil_minute_spec (t : Int) : t ≤ ceilMinute t ∧ truncateMinute (ceilMinute t) = ceilMinute t ∧
    ∀ m, truncateMinute m = m → t ≤ m → ceilMinute t ≤ m := by
  unfold ceilMinute
  split
  · rename_i partly
    refine ⟨?_, ?_, ?_⟩
    · simp only [truncateMinute, minute] at *
      omega
    · simp only [truncateMinute, minute] at *
      omega
    · intro m whole after
      simp only [truncateMinute, minute] at *
      omega
  · rename_i exactly
    refine ⟨?_, ?_, ?_⟩
    · omega
    · simp only [truncateMinute, minute] at *
      omega
    · intro m whole after
      simp only [truncateMinute, minute] at *
      omega

theorem truncate_minute_spec (t : Int) : truncateMinute t ≤ t ∧ truncateMinute (truncateMinute t) = truncateMinute t ∧
    ∀ m, truncateMinute m = m → m ≤ t → m ≤ truncateMinute t := by
  refine ⟨?_, ?_, ?_⟩
  · simp only [truncateMinute, minute]
    omega
  · simp only [truncateMinute, minute]
    omega
  · intro m whole before
    simp only [truncateMinute, minute] at *
    omega

theorem minutes_between {lower upper : Int} (low : truncateMinute lower = lower) (high : truncateMinute upper = upper)
    (ordered : lower ≤ upper) (near : upper - lower ≤ maxDuration) :
    0 ≤ (sub upper lower).tdiv minute ∧ lower + (sub upper lower).tdiv minute * minute = upper := by
  have exactly : sub upper lower = upper - lower := by
    unfold sub minDuration
    omega
  rw [exactly, Int.tdiv_eq_ediv_of_nonneg (by omega)]
  simp only [truncateMinute, minute] at *
  omega

theorem final_occurrence_ok {members : Set Int} (next : Int → Int) (whole : ∀ m ∈ members, truncateMinute m = m)
    (successor : NextIn members zeroTime next) (start : Int) {finish candidate m : Int} (real : zeroTime < candidate)
    (within : start ≤ candidate) (member : m ∈ members) (after : candidate ≤ m) (before : m ≤ finish) :
    finalOccurrence next start finish candidate = .ok (some (next (candidate - nanosecond))) ∧
      next (candidate - nanosecond) ∈ members ∧ candidate ≤ next (candidate - nanosecond) ∧
      next (candidate - nanosecond) ≤ finish := by
  have beyond : candidate - nanosecond < m := by
    unfold nanosecond
    omega
  have found := next_found next successor (by unfold nanosecond; omega) member beyond
  have inside := successor.isMember _ m member beyond
  have later := successor.later _ m member beyond
  have first := successor.least _ m member beyond
  unfold finalOccurrence
  generalize next (candidate - nanosecond) = occurrence at *
  unfold nanosecond at later
  refine ⟨?_, inside, by omega, by omega⟩
  have fits : (isZero occurrence || decide (occurrence < start) || decide (finish < occurrence) ||
      decide (occurrence < candidate) || decide (occurrence ≠ truncateMinute occurrence)) = false := by
    have wholeMinute := whole occurrence inside
    rw [found, decide_eq_false (by omega : ¬ occurrence < start), decide_eq_false (by omega : ¬ finish < occurrence),
      decide_eq_false (by omega : ¬ occurrence < candidate),
      decide_eq_false (by omega : ¬ occurrence ≠ truncateMinute occurrence)]
    rfl
  simp only [fits, Bool.false_eq_true, if_false]

theorem latest_occurrence_spec {members : Set Int} {next : Int → Int} (whole : ∀ m ∈ members, truncateMinute m = m)
    (successor : NextIn members zeroTime next) {start finish : Int} (real : zeroTime < start) (ordered : start ≤ finish)
    (near : finish - start ≤ maxDuration) :
    (∃ occurrence, latestOccurrence next start finish = .ok (some occurrence) ∧
      IsLatest members start finish occurrence) ∨
    (latestOccurrence next start finish = .ok none ∧ ∀ m ∈ members, start ≤ m → ¬ m ≤ finish) := by
  obtain ⟨lowerAfter, lowerWhole, lowerFirst⟩ := ceil_minute_spec start
  obtain ⟨upperBefore, upperWhole, upperLast⟩ := truncate_minute_spec finish
  have valid : (isZero start || isZero finish || decide (finish < start)) = false := by
    simp only [isZero, Bool.or_eq_false_iff, decide_eq_false_iff_not]
    omega
  rw [latestOccurrence, valid]
  simp only [Bool.false_eq_true, if_false]
  generalize ceilMinute start = lower at *
  generalize truncateMinute finish = upper at *
  by_cases empty : upper < lower
  · right
    refine ⟨if_pos empty, ?_⟩
    intro m member after before
    have first := lowerFirst m (whole m member) after
    have last := upperLast m (whole m member) before
    omega
  · rw [if_neg empty, searchMinutes]
    obtain ⟨count, reaches⟩ := minutes_between lowerWhole upperWhole (by omega) (by omega)
    generalize (sub upper lower).tdiv minute = minutes at *
    have decides := probe_decides members next lower finish whole successor (by omega) minutes
    obtain ⟨last, done, least, most, here, beyond⟩ := last_true_spec (minutes.toNat + 1) 0 minutes decides
      (by omega) (by omega)
    rw [Int.zero_sub] at done
    rw [done]
    by_cases missing : last < 0
    · right
      refine ⟨if_pos missing, ?_⟩
      intro m member after before
      have first := lowerFirst m (whole m member) after
      exact beyond 0 missing count ⟨m, member, by omega, before⟩
    · left
      obtain ⟨m, member, after, before⟩ := here (by omega)
      have offset : 0 ≤ last * minute := Int.mul_nonneg (by omega) (by decide)
      obtain ⟨final, inside, atLeast, atMost⟩ := final_occurrence_ok next whole successor start
        (by omega) (by omega) member after before
      refine ⟨_, (if_neg missing).trans final, inside, by omega, atMost, ?_⟩
      intro other otherMember otherBefore
      by_contra later
      have otherWhole := whole other otherMember
      have otherLast := upperLast other otherWhole otherBefore
      have step : lower + (last + 1) * minute ≤ other := by
        simp only [truncateMinute, minute] at *
        omega
      have inRange : last + 1 ≤ minutes := by
        simp only [minute] at *
        omega
      exact beyond (last + 1) (by omega) inRange ⟨other, otherMember, step, otherBefore⟩

theorem latest_occurrence_within {next : Int → Int} {start finish occurrence : Int}
    (done : latestOccurrence next start finish = .ok (some occurrence)) : start ≤ occurrence ∧ occurrence ≤ finish := by
  unfold latestOccurrence at done
  split at done
  · cases done
  split at done
  · cases done
  simp only [searchMinutes] at done
  split at done
  · cases done
  split at done
  · cases done
  simp only [finalOccurrence] at done
  split at done
  · cases done
  rename_i accepted
  cases done
  simp only [Bool.or_eq_true, decide_eq_true_eq, not_or] at accepted
  omega

end Goforge.Schedule

import Mathlib.Algebra.Group.Int.Defs
import Mathlib.Data.List.Induction
import Mathlib.Order.Bounds.Basic
import Goforge.Lib.GoString
import Goforge.RateLimit.Memory

set_option autoImplicit false

namespace Goforge.RateLimit

open GoMap GoString GoTime

-- The sum is an int64 and wraps.
def retryAfterSeconds (duration : Int) : Int :=
  let seconds := ((duration + second - 1).bmod (2 ^ 64)).tdiv second
  if seconds < 1 then 1 else seconds

inductive LimitErr where
  | keyRequired
  | consume (err : ContextErr)
  | http (status : Nat) (message : String)
deriving DecidableEq, Repr

def statusTooManyRequests : Nat := 429

def Limiter.take (limiter : Limiter) (store : MemoryStore) (ctxErr : Option ContextErr) (key : Bytes) (now : Int) :
    Except LimitErr Decision × MemoryStore :=
  if trimSpace key = [] then (.error .keyRequired, store)
  else
    match store.take ctxErr (text key) limiter.policy now with
    | (.error err, next) => (.error (.consume err), next)
    | (.ok decision, next) => (.ok decision, next)

structure Enforced where
  err : Option LimitErr
  retryAfter : Option String
deriving DecidableEq, Repr

def Limiter.enforce (limiter : Limiter) (store : MemoryStore) (ctxErr : Option ContextErr) (key : Bytes) (now : Int) :
    Enforced × MemoryStore :=
  match limiter.take store ctxErr key now with
  | (.error err, next) => (⟨some err, none⟩, next)
  | (.ok decision, next) =>
    if decision.allowed then (⟨none, none⟩, next)
    else
      (⟨some (.http statusTooManyRequests "too many requests"),
        some (toString (retryAfterSeconds decision.retryAfter))⟩, next)

-- What calls of any callers have made of a new store, and the last reading of
-- their clock. The window of a policy is a Duration, so an int64.
inductive History (capacity : Int) : MemoryStore → Int → Prop where
  | new (clock : Int) : History capacity (newMemoryStore capacity) clock
  | take (store : MemoryStore) (clock now : Int) (limiter : Limiter) (ctxErr : Option ContextErr) (key : String)
      (earlier : History capacity store clock) (later : clock ≤ now) (ranged : limiter.policy.window ≤ maxDuration) :
      History capacity (store.take ctxErr key limiter.policy now).2 now
  | reset (store : MemoryStore) (clock : Int) (ctxErr : Option ContextErr) (key : String)
      (earlier : History capacity store clock) : History capacity (store.reset ctxErr key).2 clock

def EndsWithin (store : MemoryStore) (clock : Int) : Prop :=
  ∀ key entry, store.entries.lookup key = some entry → entry.resetAt ≤ clock + maxDuration

-- When the wait of a denied key is over: at the end of its own window, or of the
-- first window of the store for a key that is not in it.
def WaitEnds (store : MemoryStore) (key : String) (now ends : Int) : Prop :=
  match store.entries.lookup key with
  | some entry => entry.resetAt = ends
  | none => IsLeast { t | now < t ∧ ∃ entry ∈ store.entries.entries, entry.2.resetAt = t } ends

variable {store : MemoryStore} {clock now : Int} {key : String} {limiter : Limiter}

theorem put_ends (key : String) {entry : MemoryEntry} (ends : EndsWithin store clock)
    (within : entry.resetAt ≤ clock + maxDuration) : EndsWithin (store.put key entry) clock := by
  intro other found present
  by_cases same : other = key
  · subst same
    rw [put_lookup] at present
    cases present
    exact within
  · rw [put_lookup_other store entry same] at present
    exact ends other found present

theorem sweep_ends (now : Int) (ends : EndsWithin store clock) : EndsWithin (store.sweep now) clock := by
  intro key entry found
  rw [sweep_lookup, Option.filter_eq_some_iff] at found
  exact ends key entry found.1

theorem take_ends {next : MemoryStore} {policy : Policy} {decision : Decision}
    (step : TakeStep store key policy now decision next) (short : policy.window ≤ maxDuration)
    (ends : EndsWithin store now) : EndsWithin next now := by
  have within : (⟨1, now + policy.window⟩ : MemoryEntry).resetAt ≤ now + maxDuration := Int.add_le_add_left short now
  cases step with
  | exhausted => exact ends
  | counted entry found _ _ => exact put_ends key ends (ends key entry found)
  | refused => exact sweep_ends now ends
  | sweptIn => exact put_ends key (sweep_ends now ends) within
  | _ => exact put_ends key ends within

structure Recorded (capacity : Int) (store : MemoryStore) (clock : Int) : Prop where
  bounded : Bounded store
  capacity : store.capacity = (newMemoryStore capacity).capacity
  ends : EndsWithin store clock

theorem Recorded.later {capacity : Int} (recorded : Recorded capacity store clock) (later : clock ≤ now) :
    Recorded capacity store now :=
  ⟨recorded.bounded, recorded.capacity, fun key entry found =>
    Int.le_trans (recorded.ends key entry found) (Int.add_le_add_right later maxDuration)⟩

theorem history_recorded {capacity : Int} (history : History capacity store clock) : Recorded capacity store clock := by
  induction history with
  | new clock =>
    refine ⟨?_, rfl, (by rintro _ _ ⟨⟩)⟩
    show (0 : Int) ≤ if capacity ≤ 0 then defaultCapacity else capacity
    unfold defaultCapacity
    split <;> omega
  | take store clock now limiter ctxErr key _ later ranged ih =>
    have known := ih.later later
    cases ctxErr with
    | some err => exact known
    | none =>
      obtain ⟨decision, _, step⟩ := take_step _ key limiter.policy now _ rfl
      exact ⟨take_bounded step ih.bounded,
        (take_capacity step).trans ih.capacity, take_ends step ranged known.ends⟩
  | reset store clock ctxErr key _ ih =>
    cases ctxErr with
    | some err => exact ih
    | none =>
      have smaller := size_erase store.entries key
      refine ⟨Int.le_trans (by exact_mod_cast smaller) ih.bounded, ih.capacity, ?_⟩
      intro other entry found
      refine ih.ends other entry ?_
      by_cases same : other = key
      · rw [same] at found
        cases (AList.lookup_erase key store.entries).symm.trans found
      · exact (AList.lookup_erase_ne same).symm.trans found

theorem sub_within {t u : Int} (low : 0 ≤ t - u) (high : t - u ≤ maxDuration) : GoTime.sub t u = t - u := by
  unfold GoTime.sub minDuration maxDuration at *
  omega

theorem seconds_cover {duration : Int} (fits : duration + (second - 1) ≤ maxDuration) (positive : 0 < duration) :
    duration ≤ retryAfterSeconds duration * second := by
  unfold maxDuration second at fits
  have same : (duration + second - 1).bmod (2 ^ 64) = duration + second - 1 :=
    Int.bmod_eq_of_le_mul_two (by unfold second; omega) (by unfold second; omega)
  unfold retryAfterSeconds
  simp only [same]
  rw [Int.tdiv_eq_ediv_of_nonneg (by unfold second; omega)]
  unfold second
  split <;> omega

theorem seconds_wrap {duration : Int} (wraps : maxDuration < duration + (second - 1))
    (ranged : duration ≤ maxDuration) : retryAfterSeconds duration = 1 := by
  unfold maxDuration second at wraps
  unfold maxDuration at ranged
  have same : (duration + second - 1).bmod (2 ^ 64) = duration + second - 1 - 2 ^ 64 := by
    rw [← Int.sub_bmod_right, Int.bmod_eq_of_le_mul_two (by unfold second; omega) (by unfold second; omega)]
    rfl
  have rest : 0 ≤ (2 ^ 64 + 1 - duration - second).tdiv second := Int.tdiv_nonneg (by unfold second; omega) (by decide)
  have negative : duration + second - 1 - 2 ^ 64 = -(2 ^ 64 + 1 - duration - second) := by omega
  unfold retryAfterSeconds
  simp only [same]
  rw [negative, Int.neg_tdiv, if_pos (by omega)]

-- From the first entry on, the loop's variable is the least reset time so far.
theorem earliest_least (entries : List MemoryEntry) (present : entries ≠ [])
    (set : ∀ entry ∈ entries, entry.resetAt ≠ zeroTime) :
    IsLeast { t | ∃ entry ∈ entries, entry.resetAt = t } (earliest entries) := by
  induction entries using List.reverseRecOn with
  | nil => exact absurd rfl present
  | append_singleton front last ih =>
    have ending := set last (List.mem_append_right front (List.mem_singleton_self last))
    rw [earliest, List.foldl_append, List.foldl_cons, List.foldl_nil, ← earliest]
    by_cases alone : front = []
    · subst alone
      rw [if_pos (.inl rfl)]
      exact ⟨⟨last, by simp, rfl⟩, by simp [lowerBounds]⟩
    · obtain ⟨⟨entry, member, same⟩, least⟩ := ih alone (fun entry member => set entry (List.mem_append_left _ member))
      have unset : ¬ isZero (earliest front) = true := by
        rw [← same]
        exact fun zero => set entry (List.mem_append_left _ member) (of_decide_eq_true zero)
      split
      case isTrue better =>
        refine ⟨⟨last, by simp, rfl⟩, ?_⟩
        rintro t ⟨other, inside, rfl⟩
        rcases List.mem_append.mp inside with earlier | here
        · have bound := least ⟨other, earlier, rfl⟩
          have less := better.resolve_left unset
          omega
        · rw [List.mem_singleton.mp here]
      case isFalse kept =>
        refine ⟨⟨entry, List.mem_append_left _ member, same⟩, ?_⟩
        rintro t ⟨other, inside, rfl⟩
        rcases List.mem_append.mp inside with earlier | here
        · exact least ⟨other, earlier, rfl⟩
        · rw [List.mem_singleton.mp here]
          exact Int.not_lt.mp (fun less => kept (.inr less))

theorem swept_admits (policy : Policy) (bounded : Bounded store) (unseen : store.entries.lookup key = none)
    (ended : ∃ entry ∈ store.entries.entries, entry.2.resetAt ≤ now) :
    (store.take none key policy now).1 = .ok allow := by
  obtain ⟨entry, member, past⟩ := ended
  have fewer : size (store.sweep now).entries < size store.entries :=
    List.length_filter_lt_length_iff_exists.mpr
      ⟨entry, member, by simpa [MemoryEntry.unexpired] using past⟩
  have room : (store.sweep now).full = false := by
    refine decide_eq_false ?_
    unfold Bounded at bounded
    show ¬ store.capacity ≤ _
    omega
  unfold MemoryStore.take
  simp only [unseen]
  split
  · rw [if_neg (Bool.eq_false_iff.mp room)]
  · rfl

theorem denied_waits {capacity : Int} (recorded : Recorded capacity store now) (modern : zeroTime ≤ now)
    {decision : Decision} {next : MemoryStore} (taken : store.take none key limiter.policy now = (.ok decision, next))
    (denied : decision.allowed = false) :
    ∃ ends, WaitEnds store key now ends ∧ decision.retryAfter = ends - now ∧ now < ends ∧ ends ≤ now + maxDuration ∧
      ∀ later, ends ≤ later → (next.take none key limiter.policy later).1 = .ok allow := by
  obtain ⟨_, ⟨⟩, step⟩ := take_step next key limiter.policy now _ taken
  cases step with
  | exhausted entry found live spent =>
    have within := recorded.ends key entry found
    refine ⟨entry.resetAt, by rw [WaitEnds, found], sub_within (by omega) (by omega), live, within, ?_⟩
    intro later after
    unfold MemoryStore.take
    simp only [found]
    rw [if_pos after]
  | refused retryAfter unseen full still =>
    have live : ∀ entry ∈ (store.sweep now).entries.entries, now < entry.2.resetAt := fun entry member =>
      of_decide_eq_true (List.mem_filter.mp member).2
    have filled : (store.sweep now).entries.entries ≠ [] := by
      intro empty
      have most := of_decide_eq_true still
      rw [size, empty] at most
      have positive := recorded.capacity
      unfold newMemoryStore defaultCapacity MemoryStore.sweep at *
      simp only [List.length_nil] at most positive
      split at positive <;> omega
    -- No window that is left ends at the zero time, so the loop's variable is set.
    obtain ⟨⟨_, kept, at_⟩, least⟩ := earliest_least
      ((store.sweep now).entries.entries.map (fun entry => entry.2)) (by simpa using filled) (by
        intro entry member
        obtain ⟨stored, held, rfl⟩ := List.mem_map.mp member
        have after := live stored held
        omega)
    obtain ⟨entry, held, rfl⟩ := List.mem_map.mp kept
    have after := live entry held
    have within := sweep_ends now recorded.ends entry.1 entry.2 ((lookup_mem _ _ _).mpr held)
    refine ⟨entry.2.resetAt, ?_, ?_, after, within, ?_⟩
    · rw [WaitEnds, unseen]
      refine ⟨⟨after, entry, (List.mem_filter.mp held).1, rfl⟩, ?_⟩
      rintro t ⟨ahead, other, inside, rfl⟩
      rw [at_]
      exact least ⟨other.2, List.mem_map_of_mem (List.mem_filter.mpr ⟨inside, decide_eq_true ahead⟩), rfl⟩
    · unfold MemoryStore.take at taken
      simp only [unseen, full, still, if_true] at taken
      have same := congrArg Decision.retryAfter (Except.ok.inj (congrArg Prod.fst taken))
      simp only [deny] at same
      rw [← at_, if_neg (fun zero => by have := of_decide_eq_true zero; omega)] at same
      exact same.symm.trans (sub_within (by omega) (by omega))
    · intro later past
      exact swept_admits limiter.policy (sweep_bounded now recorded.bounded) (sweep_unseen now unseen)
        ⟨entry, held, past⟩
  | _ => cases denied

theorem enforce_denied {next : MemoryStore} {ctxErr : Option ContextErr} {key : Bytes} {now : Int}
    {err : Option LimitErr} {header : String}
    (denied : limiter.enforce store ctxErr key now = (⟨err, some header⟩, next)) :
    ∃ decision, limiter.take store ctxErr key now = (.ok decision, next) ∧ decision.allowed = false ∧
      header = toString (retryAfterSeconds decision.retryAfter) := by
  unfold Limiter.enforce at denied
  split at denied
  · cases denied
  rename_i decision after taken
  split at denied
  · cases denied
  rename_i allowed
  cases denied
  exact ⟨decision, taken, Bool.eq_false_iff.mpr allowed, rfl⟩

theorem limiter_take_ok {next : MemoryStore} {ctxErr : Option ContextErr} {key : Bytes} {now : Int}
    {decision : Decision} (taken : limiter.take store ctxErr key now = (.ok decision, next)) :
    trimSpace key ≠ [] ∧ store.take none (text key) limiter.policy now = (.ok decision, next) := by
  unfold Limiter.take at taken
  split at taken
  · cases taken
  rename_i solid
  split at taken
  · cases taken
  rename_i stored
  cases taken
  cases ctxErr with
  | some err => cases stored
  | none => exact ⟨solid, stored⟩

theorem limiter_takes {store : MemoryStore} {key : Bytes} {now : Int} (solid : trimSpace key ≠ []) {decision : Decision}
    (taken : (store.take none (text key) limiter.policy now).1 = .ok decision) :
    (limiter.take store none key now).1 = .ok decision := by
  unfold Limiter.take
  rw [if_neg solid]
  split
  · rename_i stored
    rw [stored] at taken
    cases taken
  · rename_i stored
    rw [stored] at taken
    exact congrArg _ (Except.ok.inj taken)

-- The wait that the header names is enough exactly if rounding the time until its
-- end up to seconds stays within an int64.
theorem retry_after_honest_iff (capacity : Int) (store next : MemoryStore) (clock now : Int)
    (history : History capacity store clock) (later : clock ≤ now) (modern : zeroTime ≤ now) (limiter : Limiter)
    (ctxErr : Option ContextErr) (key : Bytes) (err : Option LimitErr) (header : String)
    (denied : limiter.enforce store ctxErr key now = (⟨err, some header⟩, next)) :
    ∃ decision seconds ends, limiter.take store ctxErr key now = (.ok decision, next) ∧ decision.allowed = false ∧
      header = toString seconds ∧ WaitEnds store (text key) now ends ∧
      ((decision.retryAfter ≤ seconds * second ∧
          (limiter.take next none key (now + seconds * second)).1 = .ok allow) ↔
        ends - now + (second - 1) ≤ maxDuration) := by
  obtain ⟨decision, taken, refused, named⟩ := enforce_denied denied
  obtain ⟨solid, stored⟩ := limiter_take_ok taken
  obtain ⟨ends, waits, same, ahead, within, admits⟩ := denied_waits ((history_recorded history).later later) modern
    stored refused
  refine ⟨decision, retryAfterSeconds decision.retryAfter, ends, taken, refused, named, waits, ?_⟩
  rw [same]
  constructor
  · intro honest
    apply Int.not_lt.mp
    intro wraps
    have enough := honest.1
    rw [seconds_wrap wraps (by omega)] at enough
    unfold maxDuration second at *
    omega
  · intro fits
    have covers := seconds_cover fits (by omega)
    exact ⟨covers, limiter_takes solid (admits _ (by omega))⟩

def brief : Limiter := ⟨⟨1, 1500 * millisecond⟩, by decide, by decide⟩

theorem retry_after_honest_iff_full :
    let store := ((newMemoryStore 1).take none "k" brief.policy 0).2
    let next := (brief.enforce store none (ascii "other") 0).2
    ∃ decision seconds, brief.take store none (ascii "other") 0 = (.ok decision, next) ∧ "2" = toString seconds ∧
      WaitEnds store (text (ascii "other")) 0 (1500 * millisecond) ∧ decision.retryAfter ≤ seconds * second ∧
      (brief.take next none (ascii "other") (0 + seconds * second)).1 = .ok allow := by
  intro store next
  have history : History 1 store 0 := .take _ 0 0 brief none "k" (.new 0) (Int.le_refl 0) (by decide)
  obtain ⟨decision, seconds, ends, taken, refused, named, waits, honest⟩ := retry_after_honest_iff 1 store next 0 0
    history (Int.le_refl 0) (by decide) brief none (ascii "other") _ "2" rfl
  have single : ∀ t, (0 < t ∧ ∃ entry ∈ store.entries.entries, entry.2.resetAt = t) → t = 1500 * millisecond := by
    rintro _ ⟨_, entry, member, rfl⟩
    rw [List.mem_singleton.mp member]
    rfl
  obtain rfl : ends = 1500 * millisecond := single ends waits.1
  exact ⟨decision, seconds, taken, named, waits, honest.mpr (by decide)⟩

def longest : Limiter := ⟨⟨1, maxDuration⟩, by decide, by decide⟩

theorem longest_window_wraps :
    let store := ((newMemoryStore 1).take none "k" longest.policy 0).2
    (longest.enforce store none (ascii "k") 0).1 =
        ⟨some (.http statusTooManyRequests "too many requests"), some (toString (1 : Int))⟩ ∧
      (longest.take store none (ascii "k") 0).1 = .ok (deny maxDuration) ∧
      (longest.take store none (ascii "k") (1 * second)).1 = .ok (deny (maxDuration - second)) := by
  refine ⟨by rfl, by rfl, by rfl⟩

end Goforge.RateLimit

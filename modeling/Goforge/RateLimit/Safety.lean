import Goforge.Lib.Machine
import Goforge.RateLimit.Memory

set_option autoImplicit false

namespace Goforge.RateLimit

open GoMap Machine

-- One call with what it returned. The mutex of the store makes calls atomic, so
-- a list of events is an interleaving of the callers.
inductive Event where
  | take (key : String) (now : Int) (ctxErr : Option ContextErr) (result : Except ContextErr Decision)
  | reset (key : String) (ctxErr : Option ContextErr) (result : Except ContextErr Unit)

def Event.key : Event → String
  | .take key _ _ _ => key
  | .reset key _ _ => key

def Event.resets (key : String) : Event → Bool
  | .reset other none _ => decide (other = key)
  | _ => false

def Event.admits (key : String) (resetAt : Int) : Event → Bool
  | .take other now _ (.ok decision) => decide (other = key ∧ now < resetAt) && decision.allowed
  | _ => false

def admitted (key : String) (resetAt : Int) (events : List Event) : Nat :=
  events.countP (Event.admits key resetAt)

theorem admitted_cons (key : String) (resetAt : Int) (event : Event) (rest : List Event) :
    admitted key resetAt (event :: rest) = (event.admits key resetAt).toNat + admitted key resetAt rest := by
  unfold admitted
  rw [List.countP_cons]
  cases event.admits key resetAt <;> exact Nat.add_comm _ _

-- The clock is the last reading a Take was given.
structure Running where
  store : MemoryStore
  clock : Int

def memory (capacity : Int) (policies : String → Limiter) : System Running Event where
  start s := s.store = newMemoryStore capacity
  step s event t :=
    match event with
    | .take key now ctxErr result =>
      s.clock ≤ now ∧ t.clock = now ∧ s.store.take ctxErr key (policies key).policy now = (result, t.store)
    | .reset key ctxErr result => t.clock = s.clock ∧ s.store.reset ctxErr key = (result, t.store)

section

variable {capacity : Int} {policies : String → Limiter}

theorem take_canceled {store : MemoryStore} {next : MemoryStore} {err : ContextErr} {key : String} {policy : Policy}
    {now : Int} (result : Except ContextErr Decision) (taken : store.take (some err) key policy now = (result, next)) :
    result = .error err ∧ next = store := by
  cases taken
  exact ⟨rfl, rfl⟩

inductive EventStep (policies : String → Limiter) (s : Running) : Event → Running → Prop where
  | idle (event : Event) (now : Int) (later : s.clock ≤ now) (silent : ∀ key resetAt, event.admits key resetAt = false)
      (failed : ∀ key reading decision, event ≠ .take key reading none (.ok decision)) :
      EventStep policies s event ⟨s.store, now⟩
  | took (key : String) (now : Int) (decision : Decision) (next : MemoryStore) (later : s.clock ≤ now)
      (step : TakeStep s.store key (policies key).policy now decision next) :
      EventStep policies s (.take key now none (.ok decision)) ⟨next, now⟩
  | erased (key : String) :
      EventStep policies s (.reset key none (.ok ())) ⟨{ s.store with entries := s.store.entries.erase key }, s.clock⟩

variable {s t : Running} {event : Event} {resetAt : Int}

theorem event_step (step : (memory capacity policies).step s event t) : EventStep policies s event t := by
  obtain ⟨next, clock⟩ := t
  cases event with
  | take key now ctxErr result =>
    obtain ⟨later, rfl, taken⟩ := step
    cases ctxErr with
    | some err =>
      obtain ⟨rfl, rfl⟩ := take_canceled result taken
      exact .idle _ clock later (fun _ _ => rfl) (by rintro _ _ _ ⟨⟩)
    | none =>
      obtain ⟨decision, rfl, done⟩ := take_step next key _ clock result taken
      exact .took key clock decision next later done
  | reset key ctxErr result =>
    obtain ⟨rfl, erased⟩ := step
    cases ctxErr with
    | some err =>
      cases erased
      exact .idle _ s.clock (Int.le_refl _) (fun _ _ => rfl) (by rintro _ _ _ ⟨⟩)
    | none =>
      cases erased
      exact .erased key

theorem event_clock (step : EventStep policies s event t) : s.clock ≤ t.clock := by
  cases step with
  | idle _ now later _ _ => exact later
  | took _ _ _ _ later _ => exact later
  | erased => exact Int.le_refl _

theorem event_bounded (step : EventStep policies s event t) (bounded : Bounded s.store) : Bounded t.store := by
  cases step with
  | idle => exact bounded
  | took key now decision next _ taken => exact take_bounded taken bounded
  | erased key =>
    have smaller := size_erase s.store.entries key
    unfold Bounded at *
    simp only
    omega

theorem event_capacity (step : EventStep policies s event t) : t.store.capacity = s.store.capacity := by
  cases step with
  | idle => rfl
  | took key now decision next _ taken => exact take_capacity taken
  | erased => rfl

theorem event_other {key : String} {entry : MemoryEntry} (step : EventStep policies s event t) (apart : event.key ≠ key)
    (found : s.store.entries.lookup key = some entry) (live : t.clock < entry.resetAt) :
    t.store.entries.lookup key = some entry := by
  cases step with
  | idle => exact found
  | took other now decision next _ taken =>
    exact take_other taken (Ne.symm apart) found live
  | erased other => exact (AList.lookup_erase_ne (Ne.symm apart)).trans found

def Window (key : String) (resetAt count : Int) (s : Running) : Prop :=
  resetAt ≤ s.clock ∨ s.store.entries.lookup key = some ⟨count, resetAt⟩

theorem window_over (key : String) (step : EventStep policies s event t) (ended : resetAt ≤ t.clock) :
    event.admits key resetAt = false := by
  cases step with
  | idle _ now _ silent _ => exact silent key resetAt
  | took other now decision _ _ _ =>
    have passed : ¬ (other = key ∧ now < resetAt) := fun both => absurd both.2 (Int.not_lt.mpr ended)
    simp only [Event.admits, decide_eq_false passed, Bool.false_and]
  | erased => rfl

theorem window_step {key : String} {count : Int} (step : EventStep policies s event t) (kept : event.resets key = false)
    (window : Window key resetAt count s) (within : count ≤ (policies key).policy.limit) :
    Window key resetAt (count + (event.admits key resetAt).toNat) t ∧
      count + (event.admits key resetAt).toNat ≤ (policies key).policy.limit := by
  by_cases ended : resetAt ≤ t.clock
  · rw [window_over key step ended]
    exact ⟨.inl ended, by simpa using within⟩
  have live : t.clock < resetAt := Int.not_le.mp ended
  have found : s.store.entries.lookup key = some ⟨count, resetAt⟩ := by
    cases window with
    | inl past => exact absurd (Int.le_trans past (event_clock step)) ended
    | inr found => exact found
  cases step with
  | idle _ now _ silent _ =>
    rw [silent key resetAt]
    exact ⟨.inr (by simpa using found), by simpa using within⟩
  | erased other =>
    have apart : other ≠ key := of_decide_eq_false kept
    exact ⟨.inr (by simpa [Event.admits, AList.lookup_erase_ne (Ne.symm apart)] using found),
      by simpa [Event.admits] using within⟩
  | took other now decision next _ taken =>
    by_cases same : other = key
    · subst same
      have known : ∀ entry, s.store.entries.lookup other = some entry → entry = ⟨count, resetAt⟩ :=
        fun entry here => Option.some.inj (here.symm.trans found)
      cases taken with
      | restart entry here expired =>
        rw [known entry here] at expired
        exact absurd expired ended
      | exhausted entry here _ _ =>
        exact ⟨.inr (by simpa [Event.admits, deny] using found), by simpa [Event.admits, deny] using within⟩
      | counted entry here _ left =>
        obtain rfl := known entry here
        have one : (Event.take other now none (.ok allow)).admits other resetAt = true := by
          simp only [Event.admits, allow, true_and, decide_eq_true live, Bool.and_self]
        rw [one]
        exact ⟨.inr (put_lookup s.store other _), left⟩
      | refused _ unseen _ _ => rw [found] at unseen; cases unseen
      | sweptIn unseen _ _ => rw [found] at unseen; cases unseen
      | entered unseen _ => rw [found] at unseen; cases unseen
    · have silent : (Event.take other now none (.ok decision)).admits key resetAt = false := by
        simp only [Event.admits, same, false_and, decide_false, Bool.false_and]
      rw [silent]
      have stays := take_other taken (Ne.symm same) found live
      exact ⟨.inr (by simpa using stays), by simpa using within⟩

theorem window_run {key : String} (count : Int) {events : List Event} (run : Run (memory capacity policies) s events t)
    (kept : ∀ event ∈ events, event.resets key = false) (window : Window key resetAt count s)
    (within : count ≤ (policies key).policy.limit) :
    count + admitted key resetAt events ≤ (policies key).policy.limit := by
  induction run generalizing count with
  | nil => simpa [admitted] using within
  | cons s m t event rest first _ ih =>
    obtain ⟨next, below⟩ := window_step (event_step first) (kept event List.mem_cons_self) window within
    have total := ih _ (fun event member => kept event (List.mem_cons_of_mem _ member)) next below
    rw [admitted_cons]
    omega

theorem window_opens {key : String} {start : Int} {decision : Decision} {m : Running}
    (step : EventStep policies s (.take key start none (.ok decision)) m) (allowed : decision.allowed = true)
    (closed : ∀ entry, s.store.entries.lookup key = some entry → entry.resetAt ≤ start) :
    Window key (start + (policies key).policy.window) 1 m := by
  cases step with
  | idle _ _ _ _ failed => exact absurd rfl (failed key start decision)
  | took _ _ _ next _ taken =>
    cases taken with
    | exhausted => cases allowed
    | counted entry found live _ => exact absurd (closed entry found) (Int.not_le.mpr live)
    | refused => cases allowed
    | sweptIn => exact .inr (put_lookup _ key _)
    | _ => exact .inr (put_lookup s.store key _)

theorem new_capacity_pos (capacity : Int) : 0 < (newMemoryStore capacity).capacity := by
  simp only [newMemoryStore, defaultCapacity]
  split <;> omega

theorem reach_bounded (reached : Reach (memory capacity policies) s) :
    Bounded s.store ∧ s.store.capacity = (newMemoryStore capacity).capacity := by
  refine reach_invariant (fun s => Bounded s.store ∧ s.store.capacity = (newMemoryStore capacity).capacity)
    ?_ ?_ reached
  · intro s initial
    rw [show s.store = newMemoryStore capacity from initial]
    exact ⟨Int.le_of_lt (new_capacity_pos capacity), rfl⟩
  · intro s event t ⟨bounded, same⟩ step
    have done := event_step step
    exact ⟨event_bounded done bounded, (event_capacity done).trans same⟩

end

theorem memory_store_safety (capacity : Int) (policies : String → Limiter) (s : Running)
    (reached : Reach (memory capacity policies) s) :
    (∀ key start decision m events t,
      (∀ entry, s.store.entries.lookup key = some entry → entry.resetAt ≤ start) →
      (memory capacity policies).step s (.take key start none (.ok decision)) m → decision.allowed = true →
      Run (memory capacity policies) m events t → (∀ event ∈ events, event.resets key = false) →
      1 + (admitted key (start + (policies key).policy.window) events : Int) ≤ (policies key).policy.limit) ∧
    (∀ event t key entry, (memory capacity policies).step s event t → event.key ≠ key →
      s.store.entries.lookup key = some entry → t.clock < entry.resetAt →
      t.store.entries.lookup key = some entry) ∧
    (size s.store.entries : Int) ≤ (newMemoryStore capacity).capacity ∧
    (∀ key now decision t, s.store.entries.lookup key = none →
      (memory capacity policies).step s (.take key now none (.ok decision)) t →
      (decision.allowed = false ↔ (s.store.active now : Int) = (newMemoryStore capacity).capacity)) := by
  obtain ⟨bounded, same⟩ := reach_bounded reached
  refine ⟨?_, ?_, same ▸ bounded, ?_⟩
  · intro key start decision m events t closed opening allowed run kept
    have window := window_opens (event_step opening) allowed closed
    exact window_run 1 run kept window (Int.not_lt.mp (policies key).limitPositive)
  · intro event t key entry step apart found live
    exact event_other (event_step step) apart found live
  · intro key now decision t unseen step
    have fewer := active_le s.store now
    have within : (size s.store.entries : Int) ≤ s.store.capacity := bounded
    obtain ⟨_, ⟨⟩, taken⟩ := take_step t.store key _ now _ step.2.2
    rw [take_unseen taken unseen, ← same]
    omega

def oneAttempt : Limiter := ⟨⟨1, 1⟩, Int.lt_irrefl 1, Int.not_le.mpr Int.zero_lt_one⟩

theorem memory_store_safety_sprayed :
    Reach (memory 1 (fun _ => oneAttempt)) ⟨(newMemoryStore 1).fresh "a" oneAttempt.policy 0, 0⟩ ∧
      (((newMemoryStore 1).fresh "a" oneAttempt.policy 0).take none "b" oneAttempt.policy 0).1 = .ok (deny 1) ∧
      ((newMemoryStore 1).fresh "a" oneAttempt.policy 0).active 0 = (newMemoryStore 1).capacity := by
  have reached : Reach (memory 1 (fun _ => oneAttempt)) ⟨(newMemoryStore 1).fresh "a" oneAttempt.policy 0, 0⟩ :=
    Reach.next (⟨newMemoryStore 1, 0⟩ : Running) _ (.take "a" 0 none (.ok allow))
      (.start _ (rfl : _ = newMemoryStore 1))
      ⟨Int.le_refl 0, rfl, rfl⟩
  have denied : (((newMemoryStore 1).fresh "a" oneAttempt.policy 0).take none "b" oneAttempt.policy 0).1 =
      .ok (deny 1) := by rfl
  refine ⟨reached, denied, ?_⟩
  have safe := memory_store_safety 1 (fun _ => oneAttempt) _ reached
  exact (safe.2.2.2 "b" 0 (deny 1) ⟨_, 0⟩ rfl ⟨Int.le_refl 0, rfl, Prod.ext denied rfl⟩).mp rfl

end Goforge.RateLimit

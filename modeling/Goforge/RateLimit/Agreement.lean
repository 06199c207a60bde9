import Goforge.Lib.Machine
import Goforge.RateLimit.Postgres

set_option autoImplicit false

namespace Goforge.RateLimit

open GoMap GoTime Machine Postgres Sql

-- One attempt of a fixed-window limiter on the open window of its key, and the
-- window it leaves. Both stores refine this.
def attempt (policy : Policy) (now : Int) : Option MemoryEntry → Decision × MemoryEntry
  | none => (allow, ⟨1, now + policy.window⟩)
  | some entry =>
    if policy.limit ≤ entry.count then (deny (sub entry.resetAt now), entry)
    else (allow, { entry with count := entry.count + 1 })

def openEntry (store : MemoryStore) (now : Int) (key : String) : Option MemoryEntry :=
  (store.entries.lookup key).filter (MemoryEntry.unexpired now)

-- PostgreSQL counts one attempt past the limit.
def Postgres.Counter.entry (limit : Int) (row : Counter) : MemoryEntry := ⟨min row.attempts limit, row.resetAt⟩

def openCounter (table : Counters) (limit now : Int) (key : String) : Option MemoryEntry :=
  ((table.find key).filter (fun row => !row.expired now)).map (Counter.entry limit)

theorem option_filter_later {α : Type} (value : Option α) {early late : α → Bool}
    (narrows : ∀ a, late a = true → early a = true) : (value.filter early).filter late = value.filter late := by
  rw [Option.filter_filter]
  congr 1
  funext a
  cases kept : late a with
  | false => exact Bool.and_false _
  | true => rw [narrows a kept, Bool.and_self]

variable {now : Int} {store : MemoryStore} {key : String} {policy : Policy}

theorem open_put (store : MemoryStore) (key other : String) {entry : MemoryEntry} (live : now < entry.resetAt) :
    openEntry (store.put key entry) now other = if key = other then some entry else openEntry store now other := by
  unfold openEntry
  by_cases same : key = other
  · subst same
    rw [if_pos rfl, put_lookup]
    exact Option.filter_some_pos (decide_eq_true live)
  · rw [if_neg same, put_lookup_other store entry (Ne.symm same)]

theorem open_sweep (store : MemoryStore) (now : Int) (key : String) :
    openEntry (store.sweep now) now key = openEntry store now key := by
  unfold openEntry
  rw [sweep_lookup]
  exact option_filter_later _ (fun _ kept => kept)

theorem open_live {entry : MemoryEntry} (found : store.entries.lookup key = some entry) (live : now < entry.resetAt) :
    openEntry store now key = some entry := by
  rw [openEntry, found]
  exact Option.filter_some_pos (decide_eq_true live)

theorem open_expired {entry : MemoryEntry} (found : store.entries.lookup key = some entry)
    (expired : entry.resetAt ≤ now) : openEntry store now key = none := by
  rw [openEntry, found]
  exact Option.filter_some_neg (by simpa [MemoryEntry.unexpired] using expired)

theorem open_unseen (now : Int) (unseen : store.entries.lookup key = none) : openEntry store now key = none := by
  rw [openEntry, unseen]
  rfl

theorem memory_refines {next : MemoryStore} {decision : Decision} (step : TakeStep store key policy now decision next)
    (positive : 0 < policy.window) (room : (store.active now : Int) < store.capacity) :
    decision = (attempt policy now (openEntry store now key)).1 ∧ ∀ other, openEntry next now other =
      if key = other then some (attempt policy now (openEntry store now key)).2 else openEntry store now other := by
  have later : now < now + policy.window := by omega
  cases step with
  | restart entry found expired =>
    rw [open_expired found expired]
    exact ⟨rfl, fun other => open_put store key other later⟩
  | exhausted entry found live spent =>
    have opened := open_live found live
    simp only [opened, attempt, if_pos spent, true_and]
    intro other
    by_cases same : key = other
    · rw [if_pos same, ← same, opened]
    · rw [if_neg same]
  | counted entry found live left =>
    simp only [open_live found live, attempt, if_neg (Int.not_le.mpr left), true_and]
    exact fun other => open_put store key other live
  | refused _ _ _ still => exact absurd (of_decide_eq_true still) (Int.not_le.mpr room)
  | sweptIn unseen _ _ =>
    rw [open_unseen now unseen]
    refine ⟨rfl, fun other => (open_put _ key other later).trans ?_⟩
    rw [open_sweep]
    rfl
  | entered unseen _ =>
    rw [open_unseen now unseen]
    exact ⟨rfl, fun other => open_put store key other later⟩

theorem open_pruned (table : Counters) (limit : Int) {prunedAt : Int} (pruneLimit : Nat) (key : String)
    (earlier : prunedAt ≤ now) :
    openCounter (prune table prunedAt pruneLimit) limit now key = openCounter table limit now key := by
  obtain ⟨removed, found, old⟩ := prune_find table prunedAt pruneLimit key
  unfold openCounter
  rw [found, option_filter_later]
  intro row live
  have later : ¬ row.resetAt ≤ now := by simpa [Counter.expired] using live
  simp only [Bool.not_eq_true']
  by_contra gone
  exact later (Int.le_trans (old row (by simpa using gone)) earlier)

def Near (table : Counters) (window now : Int) (key : String) : Prop :=
  ∀ row, table.find key = some row → row.resetAt ≤ now + window

theorem pruned_near {table : Counters} {window : Int} {prunedAt : Int} (pruneLimit : Nat)
    (near : Near table window now key) : Near (prune table prunedAt pruneLimit) window now key := by
  obtain ⟨removed, found, _⟩ := prune_find table prunedAt pruneLimit key
  intro row here
  rw [found, Option.filter_eq_some_iff] at here
  exact near row here.1

theorem first_refines {row : Counter} {now : Nat} (accepted : Accepted policy) (one : row.attempts = 1)
    (resets : row.resetAt = now + policy.window) :
    decision policy row now = .ok allow ∧ row.entry policy.limit = ⟨1, now + policy.window⟩ := by
  have least := accepted.least
  have ahead : isZero row.resetAt = false := resets ▸ reading_not_zero now _ (Int.le_of_lt accepted.positive)
  have epoch : isZero (now : Int) = false := by simpa using reading_not_zero now 0 (Int.le_refl 0)
  have valid : ¬ (row.attempts < 1 ∨ row.attempts > policy.limit + 1 ∨ isZero row.resetAt ∨ isZero (now : Int)) := by
    simp only [ahead, epoch, Bool.false_eq_true, or_false]
    omega
  refine ⟨?_, ?_⟩
  · rw [decision, if_neg valid, if_pos (by omega)]
  · rw [Counter.entry, one, resets, Int.min_eq_left least]

theorem live_refines {row : Counter} {now : Nat} (accepted : Accepted policy) (checked : 1 ≤ row.attempts)
    (live : now < row.resetAt) (near : row.resetAt ≤ now + policy.window) :
    decision policy (consumed now (milliseconds policy.window) policy.limit row) now =
        .ok (attempt policy now (some (row.entry policy.limit))).1 ∧
      (consumed now (milliseconds policy.window) policy.limit row).entry policy.limit =
        (attempt policy now (some (row.entry policy.limit))).2 := by
  have least := accepted.least
  have changed : consumed now (milliseconds policy.window) policy.limit row =
      ⟨row.key, min (row.attempts + 1) (policy.limit + 1), row.resetAt, now⟩ := by
    simp only [consumed, if_neg (Int.not_le.mpr live)]
  have ahead : isZero row.resetAt = false := by
    have shifted := reading_not_zero now (row.resetAt - now) (by omega)
    rwa [show (now : Int) + (row.resetAt - now) = row.resetAt by omega] at shifted
  have epoch : isZero (now : Int) = false := by simpa using reading_not_zero now 0 (Int.le_refl 0)
  rw [changed]
  have valid : ¬ (min (row.attempts + 1) (policy.limit + 1) < 1 ∨
      min (row.attempts + 1) (policy.limit + 1) > policy.limit + 1 ∨ isZero row.resetAt ∨ isZero (now : Int)) := by
    simp only [ahead, epoch, Bool.false_eq_true, or_false]
    omega
  by_cases spent : policy.limit ≤ row.attempts
  · have full : policy.limit ≤ (row.entry policy.limit).count := by simp only [Counter.entry]; omega
    have wait : ¬ sub row.resetAt now < 0 := by unfold sub minDuration maxDuration; omega
    have bound : ¬ sub row.resetAt now > policy.window + second := by unfold sub minDuration maxDuration second; omega
    simp only [attempt, if_pos full, decision, if_neg valid]
    rw [if_neg (by omega), if_neg wait, if_neg bound]
    refine ⟨rfl, ?_⟩
    simp only [Counter.entry, MemoryEntry.mk.injEq, and_true]
    omega
  · have left : ¬ policy.limit ≤ (row.entry policy.limit).count := by simp only [Counter.entry]; omega
    simp only [attempt, if_neg left, decision, if_neg valid]
    rw [if_pos (by omega)]
    refine ⟨rfl, ?_⟩
    simp only [Counter.entry, MemoryEntry.mk.injEq, and_true]
    omega

structure Consumed (policy : Policy) (now : Nat) (opened : Option MemoryEntry) (row : Counter) : Prop where
  decided : decision policy row now = .ok (attempt policy now opened).1
  counted : row.entry policy.limit = (attempt policy now opened).2
  live : now < row.resetAt
  near : row.resetAt ≤ now + policy.window

theorem consumed_refines {old : Option Counter} (key : String) {now : Nat} (accepted : Accepted policy)
    (checked : ∀ row, old = some row → 1 ≤ row.attempts)
    (near : ∀ row, old = some row → row.resetAt ≤ now + policy.window) :
    Consumed policy now ((old.filter (fun row => !row.expired now)).map (Counter.entry policy.limit))
      (consumedRow old key now (milliseconds policy.window) policy.limit) := by
  have positive := accepted.positive
  have restart : ∀ row : Counter, row.attempts = 1 → row.resetAt = now + policy.window →
      Consumed policy now none row := by
    intro row one resets
    obtain ⟨decided, counted⟩ := first_refines accepted one resets
    exact ⟨decided, counted, by omega, by omega⟩
  cases old with
  | none => exact restart _ rfl (by rw [consumedRow, accepted.whole])
  | some row =>
    by_cases expired : row.resetAt ≤ now
    · have closed : (some row).filter (fun row => !row.expired now) = none :=
        Option.filter_some_neg (by simpa [Counter.expired] using expired)
      rw [closed]
      exact restart _ (by simp only [consumedRow, consumed, if_pos expired])
        (by simp only [consumedRow, consumed, if_pos expired, accepted.whole])
    · have live : (now : Int) < row.resetAt := Int.not_le.mp expired
      have opened : (some row).filter (fun row => !row.expired now) = some row :=
        Option.filter_some_pos (by simpa [Counter.expired] using live)
      rw [opened]
      obtain ⟨decided, counted⟩ := live_refines accepted (checked row rfl) live (near row rfl)
      refine ⟨decided, counted, ?_, ?_⟩
      · simpa only [consumedRow, consumed, if_neg expired] using live
      · simpa only [consumedRow, consumed, if_neg expired] using near row rfl

theorem postgres_refines (pruneLimit : Nat) {table : Counters} {prunedAt now : Nat} (valid : validateKey key = none)
    (accepted : validatePolicy policy = none) (earlier : prunedAt ≤ now) (micro : timestamptz now = now)
    (near : Near table policy.window now key) :
    ∃ next, take pruneLimit table none key policy prunedAt now =
        (.ok (attempt policy now (openCounter table policy.limit now key)).1, next) ∧
      openCounter next policy.limit now key =
        some (attempt policy now (openCounter table policy.limit now key)).2 ∧
      (∀ other limit, key ≠ other → openCounter next limit now other = openCounter table limit now other) ∧
      Near next policy.window now key ∧
      ∀ other window, key ≠ other → Near table window now other → Near next window now other := by
  have within := valid_policy accepted
  have pruneTime : timestamptz prunedAt ≤ now := by
    unfold timestamptz
    omega
  obtain ⟨next, returned, found⟩ := consume_returns (prune table (timestamptz prunedAt) pruneLimit) now
    (milliseconds policy.window) valid within.least within.most
  have attempts : ∀ row, (prune table (timestamptz prunedAt) pruneLimit).find key = some row → 1 ≤ row.attempts := by
    intro row here
    have checked := find_checked here
    simp only [limits, Bool.and_eq_true, decide_eq_true_eq] at checked
    exact checked.2.1
  have done := consumed_refines key within attempts (pruned_near pruneLimit near)
  rw [show Option.map _ _ = openCounter (prune table (timestamptz prunedAt) pruneLimit) policy.limit now key from rfl,
    open_pruned table policy.limit pruneLimit key pruneTime] at done
  refine ⟨next, ?_, ?_, ?_, ?_, ?_⟩
  · simp only [take, valid, accepted, micro, returned, done.decided]
  · rw [openCounter, found key, if_pos rfl, Option.filter_some_pos (by simpa [Counter.expired] using done.live),
      Option.map_some, done.counted]
  · intro other limit apart
    rw [← open_pruned table limit pruneLimit other pruneTime, openCounter, found other, if_neg apart]
    rfl
  · intro row here
    rw [found key, if_pos rfl] at here
    exact Option.some.inj here ▸ done.near
  · intro other window apart nearOther row here
    rw [found other, if_neg apart] at here
    exact pruned_near pruneLimit nearOther row here

inductive Call where
  | take (key : String) (ctxErr : Option ContextErr) (prunedAt now : Nat)
  | reset (key : String) (ctxErr : Option ContextErr)

structure Both where
  memory : MemoryStore
  table : Counters
  clock : Nat

abbrev Policies := String → { policy : Policy // validatePolicy policy = none }

def both (capacity : Int) (pruneLimit : Nat) (policies : Policies) : System Both Call where
  start s := s.memory = newMemoryStore capacity ∧ s.table = Table.empty
  step s call t :=
    match call with
    | .take key ctxErr prunedAt now =>
      t = ⟨(s.memory.take ctxErr key (policies key).1 now).2,
        (Postgres.take pruneLimit s.table ctxErr key (policies key).1 prunedAt now).2, now⟩
    | .reset key ctxErr => t = ⟨(s.memory.reset ctxErr key).2, (Postgres.reset s.table ctxErr key).2, s.clock⟩

-- The clock does not go back and counts microseconds, the database reads it
-- once before and once at the reading the memory store gets, the PostgreSQL
-- store accepts the key, and fewer windows are open than the memory store holds.
def Comparable (s : Both) : Call → Prop
  | .take key _ prunedAt now => validateKey key = none ∧ s.clock ≤ prunedAt ∧ prunedAt ≤ now ∧ 1000 ∣ now ∧
      (s.memory.active now : Int) < s.memory.capacity
  | .reset key _ => validateKey key = none

structure Related (policies : Policies) (s : Both) : Prop where
  same : ∀ key, openEntry s.memory s.clock key = openCounter s.table (policies key).1.limit s.clock key
  near : ∀ key, Near s.table (policies key).1.window s.clock key

variable {policies : Policies} {s : Both}

theorem related_later {now : Nat} (later : s.clock ≤ now) (related : Related policies s) :
    Related policies { s with clock := now } := by
  constructor
  · intro key
    have entries : openEntry s.memory now key =
        (openEntry s.memory s.clock key).filter (MemoryEntry.unexpired now) := by
      unfold openEntry
      refine (option_filter_later _ ?_).symm
      intro entry live
      have ahead : (now : Int) < entry.resetAt := of_decide_eq_true live
      exact decide_eq_true (by omega)
    have counters : openCounter s.table (policies key).1.limit now key =
        (openCounter s.table (policies key).1.limit s.clock key).filter (MemoryEntry.unexpired now) := by
      unfold openCounter
      rw [Option.filter_map, ← option_filter_later (s.table.find key)]
      · congr 2
        funext row
        have ahead : (!row.expired now) = true ↔ (now : Int) < row.resetAt := by simp [Counter.expired]
        rw [Bool.eq_iff_iff, ahead]
        exact decide_eq_true_iff.symm
      · intro row live
        have ahead : ¬ row.resetAt ≤ (now : Int) := by simpa [Counter.expired] using live
        simp only [Counter.expired, Bool.not_eq_true', decide_eq_false_iff_not]
        omega
    exact entries.trans ((congrArg _ (related.same key)).trans counters.symm)
  · intro key row found
    have near := related.near key row found
    simp only
    omega

theorem take_agrees (pruneLimit : Nat) {ctxErr : Option ContextErr} {prunedAt now : Nat}
    (ok : Comparable s (.take key ctxErr prunedAt now)) (related : Related policies s) :
    (Postgres.take pruneLimit s.table ctxErr key (policies key).1 prunedAt now).1 =
        (s.memory.take ctxErr key (policies key).1 now).1.mapError .context ∧
      Related policies ⟨(s.memory.take ctxErr key (policies key).1 now).2,
        (Postgres.take pruneLimit s.table ctxErr key (policies key).1 prunedAt now).2, now⟩ := by
  obtain ⟨valid, earlier, order, micro, room⟩ := ok
  have current := related_later (Nat.le_trans earlier order) related
  have accepted := (policies key).2
  cases ctxErr with
  | some err =>
    simp only [Postgres.take, valid, accepted]
    exact ⟨rfl, current⟩
  | none =>
    have exactClock : timestamptz now = now := by
      unfold timestamptz
      omega
    rcases taken : s.memory.take none key (policies key).1 now with ⟨reply, store⟩
    obtain ⟨decision, rfl, step⟩ := take_step store key (policies key).1 now reply taken
    obtain ⟨decided, entries⟩ := memory_refines step (valid_policy accepted).positive room
    obtain ⟨next, result, counter, others, near, nearOthers⟩ := postgres_refines pruneLimit
       valid accepted order exactClock (current.near key)
    have opened : openEntry s.memory now key = openCounter s.table (policies key).1.limit now key :=
      current.same key
    rw [opened] at decided entries
    refine ⟨?_, ?_, ?_⟩
    · rw [result, decided]
      rfl
    · intro other
      rw [result]
      by_cases same : key = other
      · subst same
        exact (entries key).trans ((if_pos rfl).trans counter.symm)
      · refine (entries other).trans ((if_neg same).trans ?_)
        exact (current.same other).trans (others other _ same).symm
    · intro other
      rw [result]
      by_cases same : key = other
      · exact same ▸ near
      · exact nearOthers other _ same (current.near other)

theorem reset_agrees (ctxErr : Option ContextErr) (valid : validateKey key = none) (related : Related policies s) :
    (Postgres.reset s.table ctxErr key).1 = (s.memory.reset ctxErr key).1.mapError .context ∧
      Related policies ⟨(s.memory.reset ctxErr key).2, (Postgres.reset s.table ctxErr key).2, s.clock⟩ := by
  simp only [Postgres.reset, valid]
  cases ctxErr with
  | some err => exact ⟨rfl, related⟩
  | none =>
    have found : ∀ other, (s.table.delete (fun row => decide (row.key = key))).1.find other =
        if key = other then none else s.table.find other := by
      intro other
      rw [find_delete]
      cases here : s.table.find other with
      | none => simp
      | some row =>
        have keyed : row.key = other := find_key here
        by_cases same : key = other <;> simp [keyed, same, Ne.symm]
    refine ⟨rfl, ?_, ?_⟩
    · intro other
      have old := related.same other
      simp only [openEntry, openCounter, MemoryStore.reset, found] at old ⊢
      by_cases same : key = other
      · subst same
        rw [if_pos rfl, AList.lookup_erase]
        rfl
      · rw [if_neg same, AList.lookup_erase_ne (Ne.symm same)]
        exact old
    · intro other row here
      rw [found] at here
      obtain ⟨_, kept⟩ := Option.ite_none_left_eq_some.mp here
      exact related.near other row kept

theorem reach_related {capacity : Int} {pruneLimit : Nat}
    (reached : Reach ((both capacity pruneLimit policies).guard Comparable) s) : Related policies s := by
  refine reach_invariant (Related policies) ?_ ?_ reached
  · rintro ⟨memory, table, clock⟩ ⟨rfl, rfl⟩
    exact ⟨fun _ => rfl, (by rintro _ _ ⟨⟩)⟩
  · intro s call t related ⟨ok, step⟩
    cases call with
    | take key ctxErr prunedAt now =>
      obtain rfl := step
      exact (take_agrees pruneLimit ok related).2
    | reset key ctxErr =>
      obtain rfl := step
      exact (reset_agrees ctxErr ok related).2

theorem limiters_agree (capacity : Int) (pruneLimit : Nat) (policies : Policies) (s : Both)
    (reached : Reach ((both capacity pruneLimit policies).guard Comparable) s) :
    (∀ key ctxErr prunedAt now, Comparable s (.take key ctxErr prunedAt now) →
      (Postgres.take pruneLimit s.table ctxErr key (policies key).1 prunedAt now).1 =
        (s.memory.take ctxErr key (policies key).1 now).1.mapError .context ∧
      (Postgres.take pruneLimit s.table ctxErr key (policies key).1 prunedAt now).1 ≠ .error .counterState ∧
      (Postgres.take pruneLimit s.table ctxErr key (policies key).1 prunedAt now).1 ≠ .error .resetTime) ∧
    ∀ key ctxErr, Comparable s (.reset key ctxErr) →
      (Postgres.reset s.table ctxErr key).1 = (s.memory.reset ctxErr key).1.mapError .context := by
  have related := reach_related reached
  constructor
  · intro key ctxErr prunedAt now ok
    have same := (take_agrees pruneLimit ok related).1
    rw [same]
    cases (s.memory.take ctxErr key (policies key).1 now).1 <;> exact ⟨rfl, (by rintro ⟨⟩), (by rintro ⟨⟩)⟩
  · intro key ctxErr ok
    exact (reset_agrees ctxErr ok related).1

def oneEachMillisecond : Policy := ⟨1, millisecond⟩

theorem each_millisecond_accepted : validatePolicy oneEachMillisecond = none := rfl

def sampleKey : String := String.ofList (List.replicate 64 'a')

theorem sample_key_valid : validateKey sampleKey = none := by decide +kernel

def sampleTake (s : Both) (now : Nat) : Both :=
  ⟨(s.memory.take none sampleKey oneEachMillisecond now).2,
    (Postgres.take 1 s.table none sampleKey oneEachMillisecond now now).2, now⟩

theorem limiters_agree_exhausted :
    Comparable (sampleTake ⟨newMemoryStore 2, Table.empty, 0⟩ 1000) (.take sampleKey none 2000 2000) ∧
      (Postgres.take 1 (sampleTake ⟨newMemoryStore 2, Table.empty, 0⟩ 1000).table none sampleKey oneEachMillisecond
        2000 2000).1 = .ok (deny 999000) := by
  have reached : Reach ((both 2 1 (fun _ => ⟨oneEachMillisecond, each_millisecond_accepted⟩)).guard Comparable)
      (sampleTake ⟨newMemoryStore 2, Table.empty, 0⟩ 1000) := by
    refine .next (⟨newMemoryStore 2, Table.empty, 0⟩ : Both) _ (.take sampleKey none 1000 1000)
      (.start _ ⟨rfl, rfl⟩) ⟨?_, ?_⟩
    · exact ⟨sample_key_valid, Nat.zero_le _, Nat.le_refl _, by decide, by decide +kernel⟩
    · rfl
  have ok : Comparable (sampleTake ⟨newMemoryStore 2, Table.empty, 0⟩ 1000) (.take sampleKey none 2000 2000) :=
    ⟨sample_key_valid, by decide, Nat.le_refl _, by decide, by decide +kernel⟩
  refine ⟨ok, ((limiters_agree 2 1 _ _ reached).1 sampleKey none 2000 2000 ok).1.trans ?_⟩
  have spent : ((sampleTake ⟨newMemoryStore 2, Table.empty, 0⟩ 1000).memory.take none sampleKey oneEachMillisecond
      2000).1 = .ok (deny 999000) := by decide +kernel
  exact congrArg (Except.mapError Err.context) spent

theorem plain_key_disagrees :
    validatePolicy oneEachMillisecond = none ∧ ((newMemoryStore 2).active 0 : Int) < (newMemoryStore 2).capacity ∧
      ((newMemoryStore 2).take none "a" oneEachMillisecond 0).1 = .ok allow ∧
      (Postgres.take 1 Table.empty none "a" oneEachMillisecond 0 0).1 = .error .key := by
  refine ⟨rfl, by decide +kernel, rfl, ?_⟩
  decide +kernel

end Goforge.RateLimit

import Goforge.Lib.GoMap
import Goforge.Lib.GoTime

set_option autoImplicit false

namespace Goforge.RateLimit

open GoMap

structure Policy where
  limit : Int
  window : Int
deriving DecidableEq, Repr

structure Decision where
  allowed : Bool
  retryAfter : Int
deriving DecidableEq, Repr

inductive ContextErr where
  | canceled
  | deadlineExceeded
deriving DecidableEq, Repr

structure Limiter where
  policy : Policy
  limitPositive : ¬ policy.limit < 1
  windowPositive : ¬ policy.window ≤ 0

def allow : Decision := ⟨true, 0⟩

def deny (retryAfter : Int) : Decision := ⟨false, retryAfter⟩

structure MemoryEntry where
  count : Int
  resetAt : Int
deriving DecidableEq, Repr

structure MemoryStore where
  entries : Map String MemoryEntry
  capacity : Int

def defaultCapacity : Int := 10000

def newMemoryStore (capacity : Int) : MemoryStore :=
  ⟨∅, if capacity ≤ 0 then defaultCapacity else capacity⟩

def MemoryEntry.unexpired (now : Int) (entry : MemoryEntry) : Bool := decide (now < entry.resetAt)

def MemoryStore.put (store : MemoryStore) (key : String) (entry : MemoryEntry) : MemoryStore :=
  { store with entries := store.entries.insert key entry }

-- The map after the loop that deletes expired entries.
def MemoryStore.sweep (store : MemoryStore) (now : Int) : MemoryStore :=
  { store with entries := keep store.entries (MemoryEntry.unexpired now) }

-- The same loop's earliest variable. Go leaves the order of a loop over a map
-- open; the result depends on it only if some resetAt is the zero time.
def earliest (entries : List MemoryEntry) : Int :=
  entries.foldl (fun earliest entry =>
    if GoTime.isZero earliest ∨ entry.resetAt < earliest then entry.resetAt else earliest) GoTime.zeroTime

def MemoryStore.full (store : MemoryStore) : Bool := decide (store.capacity ≤ size store.entries)

def MemoryStore.fresh (store : MemoryStore) (key : String) (policy : Policy) (now : Int) : MemoryStore :=
  store.put key ⟨1, now + policy.window⟩

def MemoryStore.take (store : MemoryStore) (ctxErr : Option ContextErr) (key : String) (policy : Policy)
    (now : Int) : Except ContextErr Decision × MemoryStore :=
  match ctxErr with
  | some err => (.error err, store)
  | none =>
    match store.entries.lookup key with
    | some entry =>
      if entry.resetAt ≤ now then (.ok allow, store.fresh key policy now)
      else if policy.limit ≤ entry.count then (.ok (deny (GoTime.sub entry.resetAt now)), store)
      else (.ok allow, store.put key { entry with count := entry.count + 1 })
    | none =>
      if store.full then
        let swept := store.sweep now
        if swept.full then
          let first := earliest (swept.entries.entries.map (fun entry => entry.2))
          (.ok (deny (if GoTime.isZero first then policy.window else GoTime.sub first now)), swept)
        else (.ok allow, swept.fresh key policy now)
      else (.ok allow, store.fresh key policy now)

def MemoryStore.reset (store : MemoryStore) (ctxErr : Option ContextErr) (key : String) :
    Except ContextErr Unit × MemoryStore :=
  match ctxErr with
  | some err => (.error err, store)
  | none => (.ok (), { store with entries := store.entries.erase key })

inductive TakeStep (store : MemoryStore) (key : String) (policy : Policy) (now : Int) :
    Decision → MemoryStore → Prop where
  | restart (entry : MemoryEntry) (found : store.entries.lookup key = some entry) (expired : entry.resetAt ≤ now) :
      TakeStep store key policy now allow (store.fresh key policy now)
  | exhausted (entry : MemoryEntry) (found : store.entries.lookup key = some entry) (live : now < entry.resetAt)
      (spent : policy.limit ≤ entry.count) :
      TakeStep store key policy now (deny (GoTime.sub entry.resetAt now)) store
  | counted (entry : MemoryEntry) (found : store.entries.lookup key = some entry) (live : now < entry.resetAt)
      (left : entry.count < policy.limit) :
      TakeStep store key policy now allow (store.put key { entry with count := entry.count + 1 })
  | refused (retryAfter : Int) (unseen : store.entries.lookup key = none) (full : store.full = true)
      (still : (store.sweep now).full = true) :
      TakeStep store key policy now (deny retryAfter) (store.sweep now)
  | sweptIn (unseen : store.entries.lookup key = none) (full : store.full = true)
      (room : (store.sweep now).full = false) :
      TakeStep store key policy now allow ((store.sweep now).fresh key policy now)
  | entered (unseen : store.entries.lookup key = none) (room : store.full = false) :
      TakeStep store key policy now allow (store.fresh key policy now)

variable {store : MemoryStore} {key : String}

theorem take_step (next : MemoryStore) (key : String) (policy : Policy) (now : Int)
    (result : Except ContextErr Decision) (taken : store.take none key policy now = (result, next)) :
    ∃ decision, result = .ok decision ∧ TakeStep store key policy now decision next := by
  unfold MemoryStore.take at taken
  simp only at taken
  split at taken
  · rename_i entry found
    split at taken
    · rename_i expired
      cases taken
      exact ⟨_, rfl, .restart entry found expired⟩
    · rename_i live
      split at taken
      · rename_i spent
        cases taken
        exact ⟨_, rfl, .exhausted entry found (by omega) spent⟩
      · rename_i left
        cases taken
        exact ⟨_, rfl, .counted entry found (by omega) (by omega)⟩
  · rename_i unseen
    split at taken
    · rename_i full
      split at taken
      · rename_i still
        cases taken
        exact ⟨_, rfl, .refused _ unseen full still⟩
      · rename_i room
        cases taken
        exact ⟨_, rfl, .sweptIn unseen full (Bool.eq_false_iff.mpr room)⟩
    · rename_i room
      cases taken
      exact ⟨_, rfl, .entered unseen (Bool.eq_false_iff.mpr room)⟩

theorem put_lookup (store : MemoryStore) (key : String) (entry : MemoryEntry) :
    (store.put key entry).entries.lookup key = some entry := AList.lookup_insert _

theorem put_lookup_other (store : MemoryStore) {other : String} (entry : MemoryEntry) (apart : other ≠ key) :
    (store.put key entry).entries.lookup other = store.entries.lookup other := AList.lookup_insert_ne apart

theorem sweep_lookup (store : MemoryStore) (key : String) (now : Int) :
    (store.sweep now).entries.lookup key = (store.entries.lookup key).filter (MemoryEntry.unexpired now) :=
  lookup_keep

theorem sweep_keeps {now : Int} {entry : MemoryEntry} (found : store.entries.lookup key = some entry)
    (live : now < entry.resetAt) : (store.sweep now).entries.lookup key = some entry := by
  rw [sweep_lookup, found]
  exact Option.filter_some_pos (decide_eq_true live)

theorem sweep_unseen (now : Int) (unseen : store.entries.lookup key = none) :
    (store.sweep now).entries.lookup key = none := by
  rw [sweep_lookup, unseen]
  rfl

def Bounded (store : MemoryStore) : Prop := (size store.entries : Int) ≤ store.capacity

theorem fresh_bounded (policy : Policy) (now : Int) (unseen : store.entries.lookup key = none)
    (room : store.full = false) : Bounded (store.fresh key policy now) := by
  have counted := size_insert_new ⟨1, now + policy.window⟩ unseen
  have below := of_decide_eq_false room
  unfold Bounded MemoryStore.fresh MemoryStore.put
  simp only
  omega

theorem put_bounded {old : MemoryEntry} {entry : MemoryEntry} (found : store.entries.lookup key = some old)
    (bounded : Bounded store) : Bounded (store.put key entry) := by
  have counted := size_insert_old entry found
  unfold Bounded MemoryStore.put at *
  simp only
  omega

theorem sweep_bounded (now : Int) (bounded : Bounded store) : Bounded (store.sweep now) := by
  have smaller := size_keep store.entries (MemoryEntry.unexpired now)
  unfold Bounded MemoryStore.sweep at *
  simp only
  omega

theorem take_bounded {next : MemoryStore} {key : String} {policy : Policy} {now : Int} {decision : Decision}
    (step : TakeStep store key policy now decision next) (bounded : Bounded store) : Bounded next := by
  cases step with
  | restart entry found _ => exact put_bounded found bounded
  | exhausted => exact bounded
  | counted entry found _ _ => exact put_bounded found bounded
  | refused => exact sweep_bounded now bounded
  | sweptIn unseen _ room => exact fresh_bounded policy now (sweep_unseen now unseen) room
  | entered unseen room => exact fresh_bounded policy now unseen room

theorem take_capacity {next : MemoryStore} {key : String} {policy : Policy} {now : Int} {decision : Decision}
    (step : TakeStep store key policy now decision next) : next.capacity = store.capacity := by
  cases step <;> rfl

theorem take_other {next : MemoryStore} {key other : String} {policy : Policy} {now : Int} {decision : Decision}
    {entry : MemoryEntry} (step : TakeStep store key policy now decision next) (apart : other ≠ key)
    (found : store.entries.lookup other = some entry) (live : now < entry.resetAt) :
    next.entries.lookup other = some entry := by
  cases step with
  | exhausted => exact found
  | refused => exact sweep_keeps found live
  | sweptIn => exact (put_lookup_other _ _ apart).trans (sweep_keeps found live)
  | _ => exact (put_lookup_other store _ apart).trans found

def MemoryStore.active (store : MemoryStore) (now : Int) : Nat := size (store.sweep now).entries

theorem active_le (store : MemoryStore) (now : Int) : store.active now ≤ size store.entries := size_keep _ _

theorem take_unseen {next : MemoryStore} {policy : Policy} {now : Int} {decision : Decision}
    (step : TakeStep store key policy now decision next) (unseen : store.entries.lookup key = none) :
    decision.allowed = false ↔ store.capacity ≤ (store.active now : Int) := by
  have fewer := active_le store now
  cases step with
  | restart entry found _ => rw [found] at unseen; cases unseen
  | exhausted entry found _ _ => rw [found] at unseen; cases unseen
  | counted entry found _ _ => rw [found] at unseen; cases unseen
  | refused _ _ _ still => exact ⟨fun _ => of_decide_eq_true still, fun _ => rfl⟩
  | sweptIn _ _ room =>
    have below := of_decide_eq_false room
    exact ⟨(by rintro ⟨⟩), fun ended => absurd ended below⟩
  | entered _ room =>
    have below := of_decide_eq_false room
    exact ⟨(by rintro ⟨⟩), fun ended => absurd (Int.le_trans ended (by omega)) below⟩

end Goforge.RateLimit

import Goforge.Lib.Machine

set_option autoImplicit false

namespace Goforge.Job

open Machine

def observerQueueCapacity : Nat := 256

structure ObservedEvent (κ ε : Type) where
  ctx : κ
  event : ε
deriving DecidableEq, Repr

-- The channels made so far stand with the emitter: whether each is closed. The
-- idle channel is given by its position.
structure EventEmitter (α : Type) where
  pending : List α
  running : Bool
  idle : Nat
  dropped : UInt64
  channels : List Bool

-- What an observer that is nil leaves out is the emitter itself.
def newEventEmitter {ω : Type} (α : Type) (observer : Option ω) : Option (EventEmitter α) :=
  observer.map (fun _ => { pending := [], running := false, idle := 0, dropped := 0, channels := [true] })

inductive Emitted where
  | dropped
  | queued
  | starts
deriving DecidableEq, Repr

inductive Drained (α : Type) where
  | finished
  | panics
  | next (item : α)

section

variable {α : Type}

def EventEmitter.closed (emitter : EventEmitter α) (channel : Nat) : Bool := emitter.channels.getD channel false

-- The part of emit that holds the mutex. A drainer is started after it.
def EventEmitter.emit (emitter : EventEmitter α) (item : α) : EventEmitter α × Emitted :=
  if emitter.pending.length ≥ observerQueueCapacity then ({ emitter with dropped := emitter.dropped + 1 }, .dropped)
  else if emitter.running then ({ emitter with pending := emitter.pending ++ [item] }, .queued)
  else
    ({ emitter with
        pending := emitter.pending ++ [item]
        running := true
        idle := emitter.channels.length
        channels := emitter.channels ++ [false] }, .starts)

-- The part of one round of drain that holds the mutex. Closing a closed channel
-- panics.
def EventEmitter.drain (emitter : EventEmitter α) : EventEmitter α × Drained α :=
  match emitter.pending with
  | [] =>
    if emitter.closed emitter.idle then ({ emitter with running := false }, .panics)
    else ({ emitter with running := false, channels := emitter.channels.set emitter.idle true }, .finished)
  | next :: rest => ({ emitter with pending := rest }, .next next)

end

structure Emission (κ ε : Type) where
  serial : Nat
  observed : ObservedEvent κ ε
deriving DecidableEq, Repr

inductive Drainer (α : Type) where
  | checking
  | observing (item : α)

def Drainer.inDelivery {α : Type} : Drainer α → List α
  | .checking => []
  | .observing item => [item]

-- A call of flush that waits: the channel it has read and, for the statements
-- below, what was emitted before it began.
structure Flush (α : Type) where
  idle : Nat
  earlier : List α

-- The emitter with the goroutines around it. The lists of emitted, delivered and
-- lost events record what happened; the code keeps none of them.
structure Observation (κ ε : Type) where
  emitter : EventEmitter (Emission κ ε)
  starting : Nat
  drainers : List (Drainer (Emission κ ε))
  flushes : Nat → Option (Flush (Emission κ ε))
  emitted : List (Emission κ ε)
  delivered : List (Emission κ ε)
  lost : List (Emission κ ε)
  crashed : Bool

inductive ObserverLabel (κ ε : Type) where
  | emits (ctx : Option κ) (event : ε)
  | starts
  | drains (drainer : Nat)
  -- Observe comes back, or panics and is recovered.
  | observes (drainer : Nat)
  | flushes (call : Nat)
  | returns (call : Nat) (flushed : Bool)

section

variable {κ ε : Type}

def Observation.inDelivery (o : Observation κ ε) : List (Emission κ ε) := o.drainers.flatMap Drainer.inDelivery

def Observation.emission (background : κ) (o : Observation κ ε) (ctx : Option κ) (event : ε) : Emission κ ε :=
  { serial := o.emitted.length, observed := { ctx := ctx.getD background, event := event } }

def Observation.afterEmit (o : Observation κ ε) (item : Emission κ ε) : Observation κ ε :=
  let outcome := o.emitter.emit item
  { o with
    emitter := outcome.1
    starting := if outcome.2 = .starts then o.starting + 1 else o.starting
    emitted := o.emitted ++ [item]
    lost := if outcome.2 = .dropped then o.lost ++ [item] else o.lost }

def Observation.afterDrain (o : Observation κ ε) (drainer : Nat) : Observation κ ε :=
  match o.emitter.drain with
  | (emitter, .finished) => { o with emitter := emitter, drainers := o.drainers.eraseIdx drainer }
  | (emitter, .panics) => { o with emitter := emitter, drainers := o.drainers.eraseIdx drainer, crashed := true }
  | (emitter, .next item) => { o with emitter := emitter, drainers := o.drainers.set drainer (.observing item) }

def Observation.setFlush (o : Observation κ ε) (call : Nat) (flush : Option (Flush (Emission κ ε))) : Observation κ ε :=
  { o with flushes := fun other => if other = call then flush else o.flushes other }

def observerStep (background : κ) (o : Observation κ ε) : ObserverLabel κ ε → Observation κ ε → Prop
  | .emits ctx event, p => p = o.afterEmit (o.emission background ctx event)
  | .starts, p => 0 < o.starting ∧ p = { o with starting := o.starting - 1, drainers := o.drainers ++ [.checking] }
  | .drains drainer, p => o.drainers[drainer]? = some .checking ∧ p = o.afterDrain drainer
  | .observes drainer, p => ∃ item, o.drainers[drainer]? = some (.observing item) ∧
      p = { o with drainers := o.drainers.set drainer .checking, delivered := o.delivered ++ [item] }
  | .flushes call, p =>
    o.flushes call = none ∧ p = o.setFlush call (some { idle := o.emitter.idle, earlier := o.emitted })
  -- The select takes the channel once it is closed; the context may be done at any time.
  | .returns call flushed, p =>
    ∃ flush, o.flushes call = some flush ∧ (flushed = true → o.emitter.closed flush.idle = true) ∧
      p = o.setFlush call none

def observerQueue (background : κ) : System (Observation κ ε) (ObserverLabel κ ε) where
  start o := ∃ (ω : Type) (observer : ω) (emitter : EventEmitter (Emission κ ε)),
    newEventEmitter (Emission κ ε) (some observer) = some emitter ∧
      o = { emitter := emitter, starting := 0, drainers := [], flushes := fun _ => none, emitted := [], delivered := [],
            lost := [], crashed := false }
  step := observerStep background

-- There is one drainer, about to start, between two events or in one of them;
-- or there is none.
inductive Draining {α : Type} (running closed : Bool) (pending : List α) (starting : Nat)
    (drainers : List (Drainer α)) : Prop where
  | idle (stopped : running = false) (none : starting = 0) (rest : drainers = []) (empty : pending = [])
      (shut : closed = true)
  | starting (runs : running = true) (one : starting = 1) (rest : drainers = []) (opened : closed = false)
  | drains (drainer : Drainer α) (runs : running = true) (none : starting = 0) (only : drainers = [drainer])
      (opened : closed = false)

structure Accounts {α : Type} (held emitted lost : List α) : Prop where
  ordered : held.Sublist emitted
  counted : emitted.length = held.length + lost.length
  complete : ∀ item ∈ emitted, item ∈ held ∨ item ∈ lost

def Observation.held (o : Observation κ ε) : List (Emission κ ε) := o.delivered ++ (o.inDelivery ++ o.emitter.pending)

structure Observing (o : Observation κ ε) : Prop where
  draining : Draining o.emitter.running (o.emitter.closed o.emitter.idle) o.emitter.pending o.starting o.drainers
  bounded : o.emitter.pending.length ≤ observerQueueCapacity
  made : o.emitter.idle < o.emitter.channels.length
  accounts : Accounts o.held o.emitted o.lost
  counter : o.emitter.dropped = UInt64.ofNat o.lost.length
  numbered : o.emitted.map Emission.serial = List.range o.emitted.length
  intact : o.crashed = false
  flushed : ∀ call flush, o.flushes call = some flush → flush.idle < o.emitter.channels.length ∧
    (∀ item ∈ flush.earlier, item ∈ o.emitted) ∧
    (o.emitter.closed flush.idle = true → ∀ item ∈ flush.earlier, item ∈ o.delivered ∨ item ∈ o.lost) ∧
    (o.emitter.closed flush.idle = false → flush.idle = o.emitter.idle)

theorem accounts_queued {α : Type} {held emitted lost : List α} (item : α) (accounts : Accounts held emitted lost) :
    Accounts (held ++ [item]) (emitted ++ [item]) lost := by
  refine ⟨accounts.ordered.append (List.Sublist.refl _), ?_, ?_⟩
  · rw [List.length_append, List.length_append, accounts.counted, List.length_singleton]
    omega
  · intro other member
    rw [List.mem_append]
    rcases List.mem_append.mp member with earlier | last
    · exact (accounts.complete other earlier).imp_left .inl
    · exact .inl (.inr last)

theorem accounts_lost {α : Type} {held emitted lost : List α} (item : α) (accounts : Accounts held emitted lost) :
    Accounts held (emitted ++ [item]) (lost ++ [item]) := by
  refine ⟨accounts.ordered.trans (List.sublist_append_left _ _), ?_, ?_⟩
  · rw [List.length_append, List.length_append, accounts.counted, List.length_singleton]
    omega
  · intro other member
    rw [List.mem_append]
    rcases List.mem_append.mp member with earlier | last
    · exact (accounts.complete other earlier).imp_right .inl
    · exact .inr (.inr last)

theorem emit_cases (emitter : EventEmitter (Emission κ ε)) (item : Emission κ ε) :
    (observerQueueCapacity ≤ emitter.pending.length ∧
      emitter.emit item = ({ emitter with dropped := emitter.dropped + 1 }, .dropped)) ∨
    (emitter.pending.length < observerQueueCapacity ∧ emitter.running = true ∧
      emitter.emit item = ({ emitter with pending := emitter.pending ++ [item] }, .queued)) ∨
    (emitter.pending.length < observerQueueCapacity ∧ emitter.running = false ∧
      emitter.emit item =
        ({ emitter with
            pending := emitter.pending ++ [item]
            running := true
            idle := emitter.channels.length
            channels := emitter.channels ++ [false] }, .starts)) := by
  rw [EventEmitter.emit]
  split
  · rename_i full
    exact .inl ⟨full, rfl⟩
  · rename_i room
    split
    · rename_i runs
      exact .inr (.inl ⟨Nat.lt_of_not_ge room, runs, rfl⟩)
    · rename_i rests
      exact .inr (.inr ⟨Nat.lt_of_not_ge room, Bool.not_eq_true _ ▸ rests, rfl⟩)

variable {item : Emission κ ε} {o : Observation κ ε}

theorem in_delivery_none (drainers : o.drainers = []) : o.inDelivery = [] := by
  rw [Observation.inDelivery, drainers]
  rfl

theorem in_delivery_one {drainer : Drainer (Emission κ ε)} (drainers : o.drainers = [drainer]) :
    o.inDelivery = drainer.inDelivery := by
  rw [Observation.inDelivery, drainers, List.flatMap_singleton]

theorem settled_events (holds : Observing o) (quiet : o.inDelivery = []) (empty : o.emitter.pending = [])
    {item : Emission κ ε} (member : item ∈ o.emitted) : item ∈ o.delivered ∨ item ∈ o.lost := by
  have known := holds.accounts.complete item member
  rw [Observation.held, quiet, empty, List.append_nil, List.append_nil] at known
  exact known

theorem closed_extended {emitter : EventEmitter (Emission κ ε)} {channel : Nat}
    (made : channel < emitter.channels.length) :
    (emitter.channels ++ [false]).getD channel false = emitter.closed channel := by
  rw [EventEmitter.closed, List.getD_eq_getElem?_getD, List.getElem?_append_left made, List.getD_eq_getElem?_getD]

theorem closed_set {emitter : EventEmitter (Emission κ ε)} {channel : Nat} (other : Nat)
    (made : channel < emitter.channels.length) :
    (emitter.channels.set channel true).getD other false = (decide (other = channel) || emitter.closed other) := by
  rw [EventEmitter.closed, List.getD_eq_getElem?_getD, List.getD_eq_getElem?_getD, List.getElem?_set]
  by_cases same : channel = other
  · subst same
    simp [made]
  · simp [same, Ne.symm same]

theorem serials_extended {emitted : List (Emission κ ε)} (serial : item.serial = emitted.length)
    (numbered : emitted.map Emission.serial = List.range emitted.length) :
    (emitted ++ [item]).map Emission.serial = List.range (emitted ++ [item]).length := by
  rw [List.map_append, numbered, List.map_singleton, serial, List.length_append, List.length_singleton, List.range_succ]

theorem emit_dropped (holds : Observing o) (serial : item.serial = o.emitted.length)
    (outcome : o.emitter.emit item = ({ o.emitter with dropped := o.emitter.dropped + 1 }, .dropped)) :
    Observing (o.afterEmit item) := by
  have after : o.afterEmit item =
      { o with
        emitter := { o.emitter with dropped := o.emitter.dropped + 1 }
        emitted := o.emitted ++ [item]
        lost := o.lost ++ [item] } := by
    simp only [Observation.afterEmit, outcome, reduceCtorEq, if_false, if_true]
  rw [after]
  refine
    { holds with
      accounts := accounts_lost item holds.accounts, counter := ?_, numbered := serials_extended serial holds.numbered,
      flushed := ?_ }
  · show o.emitter.dropped + 1 = _
    rw [holds.counter, List.length_append, List.length_singleton, UInt64.ofNat_add]
    rfl
  · intro call flush waiting
    obtain ⟨made, before, settled, current⟩ := holds.flushed call flush waiting
    refine ⟨made, fun other member => List.mem_append_left _ (before other member), ?_, current⟩
    intro closed other member
    exact (settled closed other member).imp_right (List.mem_append_left _)

theorem held_queued (item : Emission κ ε) (holds : Observing o) :
    Accounts (o.delivered ++ (o.inDelivery ++ (o.emitter.pending ++ [item]))) (o.emitted ++ [item]) o.lost := by
  have accounts := accounts_queued item holds.accounts
  rw [Observation.held, List.append_assoc, List.append_assoc] at accounts
  exact accounts

theorem emit_queued (holds : Observing o) (serial : item.serial = o.emitted.length)
    (room : o.emitter.pending.length < observerQueueCapacity) (runs : o.emitter.running = true)
    (outcome : o.emitter.emit item = ({ o.emitter with pending := o.emitter.pending ++ [item] }, .queued)) :
    Observing (o.afterEmit item) := by
  have after : o.afterEmit item =
      { o with
        emitter := { o.emitter with pending := o.emitter.pending ++ [item] }
        emitted := o.emitted ++ [item] } := by
    simp only [Observation.afterEmit, outcome, reduceCtorEq, if_false]
  rw [after]
  refine
    { holds with
      draining := ?_, bounded := ?_, accounts := held_queued item holds,
      numbered := serials_extended serial holds.numbered, flushed := ?_ }
  · cases holds.draining with
    | idle stopped _ _ _ _ => cases runs.symm.trans stopped
    | starting running starting drainers opened => exact .starting running starting drainers opened
    | drains drainer running starting drainers opened => exact .drains drainer running starting drainers opened
  · show (o.emitter.pending ++ [item]).length ≤ _
    rw [List.length_append, List.length_singleton]
    exact room
  · intro call flush waiting
    obtain ⟨made, before, settled, current⟩ := holds.flushed call flush waiting
    exact ⟨made, fun other member => List.mem_append_left _ (before other member), settled, current⟩

theorem emit_starts (holds : Observing o) (serial : item.serial = o.emitted.length)
    (room : o.emitter.pending.length < observerQueueCapacity) (rests : o.emitter.running = false)
    (outcome : o.emitter.emit item =
      ({ o.emitter with
          pending := o.emitter.pending ++ [item]
          running := true
          idle := o.emitter.channels.length
          channels := o.emitter.channels ++ [false] }, .starts)) : Observing (o.afterEmit item) := by
  have after : o.afterEmit item =
      { o with
        emitter :=
          { o.emitter with
            pending := o.emitter.pending ++ [item]
            running := true
            idle := o.emitter.channels.length
            channels := o.emitter.channels ++ [false] }
        starting := o.starting + 1
        emitted := o.emitted ++ [item] } := by
    simp only [Observation.afterEmit, outcome, reduceCtorEq, if_false, if_true]
  rw [after]
  obtain ⟨starting, drainers, closed⟩ : o.starting = 0 ∧ o.drainers = [] ∧ o.emitter.closed o.emitter.idle = true := by
    cases holds.draining with
    | idle _ starting drainers _ closed => exact ⟨starting, drainers, closed⟩
    | starting running _ _ _ => cases rests.symm.trans running
    | drains _ running _ _ _ => cases rests.symm.trans running
  refine
    { holds with
      draining := .starting rfl ?_ drainers ?_, bounded := ?_, made := ?_, accounts := held_queued item holds,
      numbered := serials_extended serial holds.numbered, flushed := ?_ }
  · show o.starting + 1 = 1
    rw [starting]
  · show (o.emitter.channels ++ [false]).getD o.emitter.channels.length false = false
    simp
  · show (o.emitter.pending ++ [item]).length ≤ _
    rw [List.length_append, List.length_singleton]
    exact room
  · show o.emitter.channels.length < (o.emitter.channels ++ [false]).length
    simp
  · intro call flush waiting
    obtain ⟨made, before, settled, current⟩ := holds.flushed call flush waiting
    have same := closed_extended made
    refine ⟨?_, fun other member => List.mem_append_left _ (before other member), ?_, ?_⟩
    · show flush.idle < (o.emitter.channels ++ [false]).length
      rw [List.length_append]
      exact Nat.lt_add_right _ made
    · intro done other member
      exact settled (same.symm.trans done) other member
    · intro opened
      have old := current (same.symm.trans opened)
      rw [← old, ← same] at closed
      cases closed.symm.trans opened

theorem observing_emit (holds : Observing o) (serial : item.serial = o.emitted.length) :
    Observing (o.afterEmit item) := by
  rcases emit_cases o.emitter item with ⟨_, outcome⟩ | ⟨room, runs, outcome⟩ | ⟨room, rests, outcome⟩
  · exact emit_dropped holds serial outcome
  · exact emit_queued holds serial room runs outcome
  · exact emit_starts holds serial room rests outcome

variable {position : Nat} {background : κ}

theorem draining_only (holds : Observing o) {drainer : Drainer (Emission κ ε)}
    (found : o.drainers[position]? = some drainer) :
    position = 0 ∧ o.drainers = [drainer] ∧ o.emitter.running = true ∧ o.starting = 0 ∧
      o.emitter.closed o.emitter.idle = false := by
  cases holds.draining with
  | idle _ _ drainers _ _ =>
    rw [drainers] at found
    cases found
  | starting _ _ drainers _ =>
    rw [drainers] at found
    cases found
  | drains other running starting drainers opened =>
    rw [drainers, List.getElem?_singleton] at found
    split at found
    · rename_i first
      cases found
      exact ⟨first, drainers, running, starting, opened⟩
    · cases found

theorem drain_finishes (holds : Observing o) (found : o.drainers[position]? = some .checking)
    (empty : o.emitter.pending = []) : Observing (o.afterDrain position) := by
  obtain ⟨rfl, drainers, running, starting, opened⟩ := draining_only holds found
  have quiet : o.inDelivery = [] := in_delivery_one drainers
  have after : o.afterDrain 0 =
      { o with
        emitter := { o.emitter with running := false, channels := o.emitter.channels.set o.emitter.idle true }
        drainers := [] } := by
    simp only [Observation.afterDrain, EventEmitter.drain, empty, opened, drainers, List.eraseIdx_zero, List.tail_cons,
      Bool.false_eq_true, if_false]
  have closes : ∀ channel, (o.emitter.channels.set o.emitter.idle true).getD channel false =
      (decide (channel = o.emitter.idle) || o.emitter.closed channel) :=
    fun channel => closed_set channel holds.made
  rw [after]
  refine { holds with draining := .idle rfl starting rfl empty ?_, made := ?_, accounts := ?_, flushed := ?_ }
  · show (o.emitter.channels.set o.emitter.idle true).getD o.emitter.idle false = true
    rw [closes, decide_eq_true rfl, Bool.true_or]
  · show o.emitter.idle < (o.emitter.channels.set o.emitter.idle true).length
    rw [List.length_set]
    exact holds.made
  · have accounts := holds.accounts
    rw [Observation.held, quiet] at accounts
    exact accounts
  · intro call flush waiting
    obtain ⟨made, before, settled, current⟩ := holds.flushed call flush waiting
    refine ⟨?_, before, ?_, ?_⟩
    · show flush.idle < (o.emitter.channels.set o.emitter.idle true).length
      rw [List.length_set]
      exact made
    · intro _ item member
      exact settled_events holds quiet empty (before item member)
    · intro still
      have left := (closes flush.idle).symm.trans still
      rw [Bool.or_eq_false_iff] at left
      exact current left.2

theorem drain_takes {rest : List (Emission κ ε)} (holds : Observing o)
    (found : o.drainers[position]? = some .checking) (waiting : o.emitter.pending = item :: rest) :
    Observing (o.afterDrain position) := by
  obtain ⟨rfl, drainers, running, starting, opened⟩ := draining_only holds found
  have after : o.afterDrain 0 =
      { o with emitter := { o.emitter with pending := rest }, drainers := [.observing item] } := by
    simp only [Observation.afterDrain, EventEmitter.drain, waiting, drainers, List.set_cons_zero]
  rw [after]
  refine { holds with draining := .drains (.observing item) running starting rfl opened, bounded := ?_, accounts := ?_ }
  · have bounded := holds.bounded
    rw [waiting, List.length_cons] at bounded
    exact Nat.le_of_succ_le bounded
  · have accounts := holds.accounts
    rw [Observation.held, in_delivery_one drainers, waiting] at accounts
    exact accounts

theorem observing_drain (holds : Observing o) (found : o.drainers[position]? = some .checking) :
    Observing (o.afterDrain position) := by
  cases waiting : o.emitter.pending with
  | nil => exact drain_finishes holds found waiting
  | cons item rest => exact drain_takes holds found waiting

theorem observing_delivered (holds : Observing o) (found : o.drainers[position]? = some (.observing item)) :
    Observing { o with drainers := o.drainers.set position .checking, delivered := o.delivered ++ [item] } := by
  obtain ⟨rfl, drainers, running, starting, opened⟩ := draining_only holds found
  rw [drainers, List.set_cons_zero]
  refine { holds with draining := .drains .checking running starting rfl opened, accounts := ?_, flushed := ?_ }
  · have accounts := holds.accounts
    rw [Observation.held, in_delivery_one drainers] at accounts
    show Accounts ((o.delivered ++ [item]) ++ ([] ++ o.emitter.pending)) o.emitted o.lost
    rw [List.append_assoc]
    exact accounts
  · intro call flush waiting
    obtain ⟨made, before, settled, current⟩ := holds.flushed call flush waiting
    refine ⟨made, before, ?_, current⟩
    intro closed other member
    exact (settled closed other member).imp_left (List.mem_append_left _)

theorem observing_start (holds : Observing o) (waits : 0 < o.starting) :
    Observing { o with starting := o.starting - 1, drainers := o.drainers ++ [.checking] } := by
  cases holds.draining with
  | idle _ starting _ _ _ =>
    rw [starting] at waits
    cases waits
  | drains _ _ starting _ _ =>
    rw [starting] at waits
    cases waits
  | starting running starting drainers opened =>
    rw [starting, drainers]
    refine { holds with draining := .drains .checking running rfl rfl opened, accounts := ?_ }
    have accounts := holds.accounts
    rw [Observation.held, in_delivery_none drainers] at accounts
    exact accounts

theorem observing_flush (call : Nat) (holds : Observing o) :
    Observing (o.setFlush call (some { idle := o.emitter.idle, earlier := o.emitted })) := by
  refine { holds with accounts := holds.accounts, flushed := ?_ }
  intro other flush waiting
  by_cases same : other = call
  · simp only [Observation.setFlush, if_pos same, Option.some.injEq] at waiting
    subst waiting
    refine ⟨holds.made, fun _ member => member, ?_, fun _ => rfl⟩
    -- A closed channel belongs to an emitter at rest.
    intro closed item member
    cases holds.draining with
    | idle _ _ drainers empty _ => exact settled_events holds (in_delivery_none drainers) empty member
    | starting _ _ _ opened => cases opened.symm.trans closed
    | drains _ _ _ _ opened => cases opened.symm.trans closed
  · simp only [Observation.setFlush, if_neg same] at waiting
    exact holds.flushed other flush waiting

theorem observing_return (call : Nat) (holds : Observing o) : Observing (o.setFlush call none) := by
  refine { holds with accounts := holds.accounts, flushed := ?_ }
  intro other flush waiting
  by_cases same : other = call
  · simp only [Observation.setFlush, if_pos same, reduceCtorEq] at waiting
  · simp only [Observation.setFlush, if_neg same] at waiting
    exact holds.flushed other flush waiting

theorem observing_step {p : Observation κ ε} {label : ObserverLabel κ ε} (holds : Observing o)
    (step : observerStep background o label p) : Observing p := by
  cases label with
  | emits ctx event =>
    rw [observerStep] at step
    rw [step]
    exact observing_emit holds rfl
  | starts =>
    obtain ⟨waits, rfl⟩ := step
    exact observing_start holds waits
  | drains position =>
    obtain ⟨found, rfl⟩ := step
    exact observing_drain holds found
  | observes position =>
    obtain ⟨item, found, rfl⟩ := step
    exact observing_delivered holds found
  | flushes call =>
    obtain ⟨_, rfl⟩ := step
    exact observing_flush call holds
  | returns call flushed =>
    obtain ⟨flush, _, _, rfl⟩ := step
    exact observing_return call holds

theorem reach_observer {p : Observation κ ε} (label : ObserverLabel κ ε)
    (reached : Reach (observerQueue background) o) (step : observerStep background o label p) :
    Reach (observerQueue background) p := .next o p label reached step

theorem observing_start_state (o : Observation κ ε) (initial : (observerQueue background).start o) : Observing o := by
  obtain ⟨ω, observer, emitter, made, rfl⟩ := initial
  cases made
  exact
    { draining := .idle rfl rfl rfl rfl rfl, bounded := Nat.zero_le _, made := Nat.one_pos,
      accounts := ⟨List.Sublist.refl _, rfl, by rintro item ⟨⟩⟩, counter := rfl, numbered := rfl, intact := rfl,
      flushed := by rintro call flush ⟨⟩ }

theorem reached_observing (reached : Reach (observerQueue background) o) : Observing o :=
  reach_invariant Observing (observing_start_state)
    (fun _ _ _ holds step => observing_step holds step) reached

def Observation.drainerCount (o : Observation κ ε) : Nat := o.starting + o.drainers.length

theorem draining_count (holds : Observing o) : o.drainerCount = if o.emitter.running then 1 else 0 := by
  rw [Observation.drainerCount]
  cases holds.draining with
  | idle stopped starting drainers _ _ => simp [stopped, starting, drainers]
  | starting running starting drainers _ => simp [running, starting, drainers]
  | drains drainer running starting drainers _ => simp [running, starting, drainers]

theorem draining_idle (holds : Observing o) :
    (o.emitter.closed o.emitter.idle = false ↔ o.emitter.running = true) ∧
      (o.emitter.running = false → o.emitter.pending = []) := by
  cases holds.draining with
  | idle stopped _ _ empty closed => simp [stopped, empty, closed]
  | starting running _ _ opened => simp [running, opened]
  | drains _ running _ _ opened => simp [running, opened]

theorem observer_queue_accounts (background : κ) (o : Observation κ ε) (reached : Reach (observerQueue background) o) :
    o.emitter.pending.length ≤ observerQueueCapacity ∧
    o.drainerCount ≤ 1 ∧ (o.drainerCount = 1 ↔ o.emitter.running = true) ∧
    (o.emitter.closed o.emitter.idle = false ↔ o.emitter.running = true) ∧
    (o.emitter.running = false → o.emitter.pending = []) ∧
    o.delivered.Sublist o.emitted ∧
    o.emitted.map Emission.serial = List.range o.emitted.length ∧
    o.emitted.length = o.delivered.length + o.inDelivery.length + o.emitter.pending.length + o.lost.length ∧
    o.emitter.dropped = UInt64.ofNat o.lost.length ∧
    o.crashed = false ∧
    ∀ call flush p, o.flushes call = some flush → observerStep background o (.returns call true) p →
      ∀ item ∈ flush.earlier, item ∈ o.delivered ∨ item ∈ o.lost := by
  have holds := reached_observing reached
  have count := draining_count holds
  obtain ⟨opened, empty⟩ := draining_idle holds
  refine ⟨holds.bounded, ?_, ?_, opened, empty, ?_, holds.numbered, ?_, holds.counter, holds.intact, ?_⟩
  · rw [count]
    split
    · exact Nat.le_refl 1
    · exact Nat.zero_le 1
  · rw [count]
    split
    · rename_i runs
      exact iff_of_true rfl runs
    · rename_i rests
      exact iff_of_false Nat.zero_ne_one rests
  · exact (List.sublist_append_left _ _).trans holds.accounts.ordered
  · have counted := holds.accounts.counted
    rw [Observation.held, List.length_append, List.length_append] at counted
    omega
  · rintro call flush p waiting ⟨flush', waiting', closed, _⟩ item member
    cases waiting.symm.trans waiting'
    obtain ⟨_, _, settled, _⟩ := holds.flushed call flush waiting
    exact settled (closed rfl) item member

theorem observer_queue_accounts_sample : ∃ o : Observation Unit Nat, Reach (observerQueue ()) o ∧
    o.delivered.map (fun item => item.observed.event) = [7] ∧ (∃ p, observerStep () o (.returns 0 true) p) ∧
    o.emitter.pending.length ≤ observerQueueCapacity := by
  have first : Reach (observerQueue () : System (Observation Unit Nat) (ObserverLabel Unit Nat)) _ :=
    .start _ ⟨Unit, (), _, rfl, rfl⟩
  have emitted := reach_observer (.emits none 7) first rfl
  have started := reach_observer .starts emitted ⟨Nat.one_pos, rfl⟩
  have taken := reach_observer (.drains 0) started ⟨rfl, rfl⟩
  have delivered := reach_observer (.observes 0) taken ⟨_, rfl, rfl⟩
  have waiting := reach_observer (.flushes 0) delivered ⟨rfl, rfl⟩
  have finished := reach_observer (.drains 0) waiting ⟨rfl, rfl⟩
  exact ⟨_, finished, rfl, ⟨_, _, rfl, fun _ => rfl, rfl⟩, (observer_queue_accounts () _ finished).1⟩

end

end Goforge.Job

import Goforge.Lib.Machine
import Goforge.Schedule.Atomicity

set_option autoImplicit false

namespace Goforge.Schedule

open GoTime Sql Machine

-- Many Materialize calls of one definition at once, one statement a step, at
-- READ COMMITTED.

structure Commit where
  occurrence : Int
  now : Nat
deriving DecidableEq, Repr

-- The owner holds the lock on the definition's row, or has inserted the row and
-- not committed yet. The log is newest first.
structure Shared where
  committed : Table schedulesSchema
  owner : Option Nat
  log : List Commit

-- Where a transaction is between two statements. A view is what the owner sees:
-- the committed table with its own writes.
inductive Phase where
  | idle
  | locking
  | inspecting
  | initializing
  | inserting (row : ScheduleRow)
  | relocking (view : Option (Table schedulesSchema))
  | locked (stored : ScheduleRow) (view : Table schedulesSchema)
  | dispatching (stored : ScheduleRow) (now : Nat) (nextRunAt occurrence : Int) (view : Table schedulesSchema)
  | advancing (stored : ScheduleRow) (now : Nat) (nextRunAt : Int) (occurrence : Option Int) (jobID : Option String)
      (outcome : Outcome) (record : Option Commit) (view : Table schedulesSchema)
  | finishing (view : Option (Table schedulesSchema)) (record : Option Commit)
  | failed

-- The environment chooses the clock readings, what the callback returns and
-- writes through the transaction, and when a transaction is cut off.
inductive Action where
  | begin
  | lock
  | inspect
  | initialClock (now : Nat)
  | insert
  | evaluate (now : Nat)
  | call (answer : Dispatched) (view : Table schedulesSchema)
  | update
  | commit
  | abort

def Shared.heldByOther (s : Shared) (tid : Nat) : Bool := s.owner.any (fun owner => decide (owner ≠ tid))

def Shared.release (s : Shared) (tid : Nat) : Shared := { s with owner := if s.owner = some tid then none else s.owner }

-- FOR UPDATE SKIP LOCKED
def Shared.lockable (s : Shared) (tid : Nat) (name : String) : Option ScheduleRow :=
  if s.heldByOther tid then none else s.committed.find name

def evaluateLocked (definition : Definition) (stored : ScheduleRow) (view : Table schedulesSchema) (now : Nat) :
    Phase :=
  match stored.matches definition with
  | some _ => .failed
  | none =>
    match evaluate definition stored now with
    | .error _ => .failed
    | .ok .notDue => .finishing (some view) none
    | .ok (.skip nextRunAt) => .advancing stored now nextRunAt none none .misfireSkipped none view
    | .ok (.dispatch nextRunAt occurrence) => .dispatching stored now nextRunAt occurrence view

def returned (stored : ScheduleRow) (now : Nat) (nextRunAt occurrence : Int) (answer : Dispatched)
    (view : Table schedulesSchema) : Phase :=
  match answer with
  | .panicked => .failed
  | .returned (.error _) => .failed
  | .returned (.ok result) =>
    if badJobID result.id then .failed
    else .advancing stored now nextRunAt (if isZero occurrence then none else some occurrence) (some result.id)
      (outcomeOf result) (some ⟨occurrence, now⟩) view

def updated (stored : ScheduleRow) (now : Nat) (nextRunAt : Int) (occurrence : Option Int) (jobID : Option String)
    (outcome : Outcome) (record : Option Commit) (view : Table schedulesSchema) : Phase :=
  match advanceRow stored nextRunAt now occurrence jobID outcome view with
  | .ok (next, 1) => .finishing (some next) record
  | _ => .failed

-- ON CONFLICT (name) DO NOTHING waits for a concurrent insert of the name to
-- commit or roll back; a committed row is left alone at once.
def inserted (definition : Definition) (tid : Nat) (s : Shared) (row : ScheduleRow) : Option (Shared × Phase) :=
  match s.committed.find definition.name with
  | some _ => some (s, .relocking none)
  | none =>
    if s.heldByOther tid then none
    else
      match insertRow row s.committed with
      | .error _ => some (s, .failed)
      | .ok view => some ({ s with owner := some tid }, .relocking (some view))

def locking (definition : Definition) (tid : Nat) (s : Shared) (skipped : Phase) : Shared × Phase :=
  match s.lockable tid definition.name with
  | none => (s, skipped)
  | some stored => ({ s with owner := some tid }, .locked stored s.committed)

-- A transaction sees the row it inserted itself.
def relocked (definition : Definition) (view : Table schedulesSchema) : Phase :=
  match view.find definition.name with
  | none => .finishing (some view) none
  | some stored => .locked stored view

def Phase.busy : Phase → Bool
  | .idle => false
  | _ => true

-- One statement of one transaction; none where the action is not its next one
-- or has to wait.
def act (definition : Definition) (tid : Nat) (s : Shared) (phase : Phase) : Action → Option (Shared × Phase)
  | .begin => if phase.busy = false ∧ validateDefinition definition = none then some (s, .locking) else none
  | .lock =>
    match phase with
    | .locking => some (locking definition tid s .inspecting)
    | .relocking none => some (locking definition tid s (.finishing none none))
    | .relocking (some view) => some (s, relocked definition view)
    | _ => none
  | .inspect =>
    match phase with
    | .inspecting =>
      some (s, if (s.committed.find definition.name).isSome then .finishing none none else .initializing)
    | _ => none
  | .initialClock now =>
    match phase with
    | .initializing =>
      match initialCursor definition now with
      | .error _ => some (s, .failed)
      | .ok cursor => some (s, .inserting (initialRow definition cursor now))
    | _ => none
  | .insert =>
    match phase with
    | .inserting row => inserted definition tid s row
    | _ => none
  | .evaluate now =>
    match phase with
    | .locked stored view => some (s, evaluateLocked definition stored view now)
    | _ => none
  | .call answer view =>
    match phase with
    | .dispatching stored now nextRunAt occurrence _ => some (s, returned stored now nextRunAt occurrence answer view)
    | _ => none
  | .update =>
    match phase with
    | .advancing stored now nextRunAt occurrence jobID outcome record view =>
      some (s, updated stored now nextRunAt occurrence jobID outcome record view)
    | _ => none
  | .commit =>
    match phase with
    | .finishing view record =>
      some ({ s.release tid with committed := view.getD s.committed, log := record.toList ++ s.log }, .idle)
    | _ => none
  | .abort => if phase.busy then some (s.release tid, .idle) else none

structure Schedulers where
  shared : Shared
  phase : Nat → Phase

def Schedulers.set (s : Schedulers) (tid : Nat) (next : Shared × Phase) : Schedulers :=
  ⟨next.1, fun other => if other = tid then next.2 else s.phase other⟩

-- Any number of schedulers, each running one call after another, over whatever
-- the table holds at the start.
def schedulers (definition : Definition) : System Schedulers (Nat × Action) where
  start s := s.shared.owner = none ∧ s.shared.log = [] ∧ ∀ tid, s.phase tid = .idle
  step s label s' := ∃ next, act definition label.1 s.shared (s.phase label.1) label.2 = some next ∧
    s' = s.set label.1 next

section

variable (definition : Definition) (tid : Nat)

def acts : Shared × Phase → List Action → Option (Shared × Phase)
  | now, [] => some now
  | now, action :: rest =>
    match act definition tid now.1 now.2 action with
    | none => none
    | some next => acts next rest

theorem acts_append (now : Shared × Phase) {middle last : Shared × Phase} {front back : List Action}
    (early : acts definition tid now front = some middle) (late : acts definition tid middle back = some last) :
    acts definition tid now (front ++ back) = some last := by
  induction front generalizing now with
  | nil =>
    cases early
    exact late
  | cons action rest ih =>
    rw [List.cons_append, acts]
    rw [acts] at early
    cases done : act definition tid now.1 now.2 action with
    | none =>
      rw [done] at early
      cases early
    | some next =>
      rw [done] at early
      exact ih next early

theorem acts_run (s : Schedulers) (last : Shared × Phase) (actions : List Action)
    (done : acts definition tid (s.shared, s.phase tid) actions = some last) :
    Run (schedulers definition) s (actions.map (fun action => (tid, action))) (s.set tid last) := by
  induction actions generalizing s with
  | nil =>
    cases done
    have same : s.set tid (s.shared, s.phase tid) = s := by
      have phases : (fun other => if other = tid then s.phase tid else s.phase other) = s.phase := by
        funext other
        split
        · rename_i own
          rw [own]
        · rfl
      simp only [Schedulers.set, phases]
    rw [same]
    exact .nil s
  | cons action rest ih =>
    rw [acts] at done
    cases moved : act definition tid s.shared (s.phase tid) action with
    | none =>
      rw [moved] at done
      cases done
    | some next =>
      rw [moved] at done
      have here : ((s.set tid next).shared, (s.set tid next).phase tid) = next := by
        simp only [Schedulers.set, if_pos]
      have later := ih (s.set tid next) (by rw [here]; exact done)
      have twice : (s.set tid next).set tid last = s.set tid last := by
        have phases : (fun other => if other = tid then last.2 else (s.set tid next).phase other) =
            fun other => if other = tid then last.2 else s.phase other := by
          funext other
          by_cases own : other = tid
          · rw [if_pos own, if_pos own]
          · simp only [Schedulers.set, if_neg own]
        rw [Schedulers.set, phases]
        rfl
      rw [twice] at later
      exact .cons s (s.set tid next) _ (tid, action) _ ⟨next, moved, rfl⟩ later

variable {session : Session} {callback : Callback} {db : Full} {s : Shared}

theorem free_held (free : s.owner = none) : s.heldByOther tid = false := by
  rw [Shared.heldByOther, free, Option.any_none]

theorem load_acts {stored : ScheduleRow} {view : Full} (valid : validateDefinition definition = none)
    (free : s.owner = none) (same : s.committed = db.schedules)
    (loaded : loadRow session definition db = .ok (some stored, view)) :
    ∃ actions, acts definition tid (s, .idle) actions =
      some ({ s with owner := some tid }, .locked stored view.schedules) := by
  have held := free_held tid free
  have here := (load_find loaded).2.2 stored rfl
  rcases load_cases loaded with ⟨rfl, row, found, only⟩ | ⟨cursor, fresh, only⟩
  · refine ⟨[.begin, .lock], ?_⟩
    simp only [acts, act, Phase.busy, valid, and_self, if_true, locking, Shared.lockable, held,
      Bool.false_eq_true, if_false, same, here]
  · have absent : s.committed.find definition.name = none := by rw [same, fresh.absent]
    have created : insertRow (initialRow definition cursor session.initialNow) s.committed = .ok view.schedules := by
      rw [same]
      exact insert_row_fresh fresh.inserted
    refine ⟨[.begin, .lock, .inspect, .initialClock session.initialNow, .insert, .lock], ?_⟩
    simp only [acts, act, Phase.busy, valid, and_self, if_true, locking, Shared.lockable, held,
      Bool.false_eq_true, if_false, absent, Option.isSome_none, fresh.computed, inserted, created, relocked, here]

theorem committed_acts (next : Table schedulesSchema) (record : Option Commit) :
    acts definition tid ({ s with owner := some tid }, .finishing (some next) record) [.commit] =
      some (⟨next, none, record.toList ++ s.log⟩, .idle) := by
  simp only [acts, act, Shared.release, if_true, Option.getD_some]

-- A call that nobody disturbs is one transaction of the machine: it commits the
-- same table and logs the occurrence its callback was given.
theorem completes_acts {result : Result} {after : Full} {occurrences : List Int}
    (valid : validateDefinition definition = none) (free : s.owner = none) (same : s.committed = db.schedules)
    (unlocked : ∀ stage, session.skipped stage = false)
    (completes : Completes session definition callback db result after occurrences) :
    ∃ actions, acts definition tid (s, .idle) actions =
      some (⟨after.schedules, none, occurrences.map (fun t => ⟨t, session.now⟩) ++ s.log⟩, .idle) := by
  cases completes with
  | contended _ loaded => exact absurd loaded (load_uncontended unlocked)
  | notDue stored _ decides =>
    obtain ⟨front, early⟩ := load_acts definition tid valid free same decides.loaded
    refine ⟨front ++ ([.evaluate session.now] ++ [.commit]), acts_append definition _ _ early
      (acts_append definition _ _ ?_ (committed_acts definition tid after.schedules none))⟩
    simp only [acts, act, evaluateLocked, decides.agrees, decides.evaluated]
  | skipped stored view _ nextRunAt decides advanced =>
    obtain ⟨front, early⟩ := load_acts definition tid valid free same decides.loaded
    obtain ⟨moved, done, rfl⟩ := advance_cases advanced
    refine ⟨front ++ ([.evaluate session.now, .update] ++ [.commit]), acts_append definition _ _ early
      (acts_append definition _ _ ?_ (committed_acts definition tid moved none))⟩
    simp only [acts, act, evaluateLocked, decides.agrees, decides.evaluated, updated, done]
  | dispatched stored view _ nextRunAt occurrence answer decides succeeded good advanced =>
    obtain ⟨front, early⟩ := load_acts definition tid valid free same decides.loaded
    obtain ⟨moved, done, rfl⟩ := advance_cases advanced
    refine ⟨front ++ ([.evaluate session.now, .call (callback occurrence view).1 (callback occurrence view).2.schedules,
        .update] ++ [.commit]), acts_append definition _ _ early
      (acts_append definition _ _ ?_ (committed_acts definition tid moved (some ⟨occurrence, session.now⟩)))⟩
    simp only [acts, act, evaluateLocked, decides.agrees, decides.evaluated, returned, succeeded, good,
      Bool.false_eq_true, if_false, updated, done]

variable (session callback db) in
theorem materialize_runs {state : Schedulers} {result : Result} (free : state.shared.owner = none)
    (idle : state.phase tid = .idle) (same : state.shared.committed = db.schedules)
    (unlocked : ∀ stage, session.skipped stage = false)
    (done : (materialize session definition (some callback) db).1 = .ok result) :
    ∃ actions : List Action, Run (schedulers definition) state (actions.map (fun action => (tid, action)))
      (state.set tid (⟨(materialize session definition (some callback) db).2.schedules, none,
        (dispatches session definition callback db).map (fun t => ⟨t, session.now⟩) ++ state.shared.log⟩, .idle)) := by
  rcases materialize_cases session definition callback db with ⟨other, ⟨valid, _⟩, _, completes⟩ | ⟨broken, _, _⟩
  · obtain ⟨actions, run⟩ := completes_acts definition tid valid free same
      unlocked completes
    exact ⟨actions, acts_run definition tid state _ actions (by rw [idle]; exact run)⟩
  · exact absurd done (broken result)

end

theorem materialize_runs_first :
    let session := quietSession 90000000000 90000000001
    let state : Schedulers := ⟨⟨Full.empty.schedules, none, []⟩, fun _ => .idle⟩
    ∃ actions : List Action, Run (schedulers sampleDefinition) state (actions.map (fun action => (0, action)))
      (state.set 0 (⟨(materialize session sampleDefinition (some (sampleCallback Job.sampleId)) Full.empty).2.schedules,
        none, (dispatches session sampleDefinition (sampleCallback Job.sampleId) Full.empty).map (⟨·, session.now⟩)⟩,
          .idle)) := by
  intro session state
  have done : (materialize session sampleDefinition (some (sampleCallback Job.sampleId)) Full.empty).1 =
      .ok ⟨"tick.v1", .enqueued, minute, Job.sampleId.text⟩ := by decide +kernel
  have run := materialize_runs sampleDefinition 0 session (sampleCallback Job.sampleId) Full.empty
    (show state.shared.owner = none from rfl) rfl rfl (fun _ => rfl) done
  rwa [List.append_nil] at run

end Goforge.Schedule

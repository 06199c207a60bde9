import Goforge.Database.Transaction
import Goforge.Schedule.Occurrence

set_option autoImplicit false

namespace Goforge.Schedule

open GoTime Sql Database

instance : Errors Err := ⟨.wrap, .join⟩

inductive Stage where
  | lock
  | inspect
  | initialClock
  | insert
  | relock
  | clock
  | advance
  | affected
deriving DecidableEq

-- Everything around one call that it does not decide itself: cancellation of
-- its context, lost connections, row locks held by other schedulers, and the two
-- readings of the database clock.
structure Session where
  cancelled : Option Err
  faults : Faults Err
  fault : Stage → Option Err
  skipped : Stage → Bool
  initialNow : Nat
  now : Nat

inductive Dispatched where
  | returned (result : Except Err Job.DispatchResult)
  | panicked
deriving DecidableEq

-- A materialize callback runs inside the transaction, on its view.
abbrev Callback := Int → Full → Dispatched × Full

-- SELECT ... FOR UPDATE SKIP LOCKED
def lock (session : Session) (stage : Stage) (definition : Definition) (db : Full) : Except Err (Option ScheduleRow) :=
  match session.fault stage with
  | some err => .error (.wrap ("schedule/postgres: find " ++ definition.name) err)
  | none => .ok (if session.skipped stage then none else db.schedules.find definition.name)

def rowExists (session : Session) (definition : Definition) (db : Full) : Except Err Bool :=
  match session.fault .inspect with
  | some err => .error (.wrap ("schedule/postgres: inspect contention for " ++ definition.name) err)
  | none => .ok (db.schedules.find definition.name).isSome

def databaseClock (session : Session) (stage : Stage) (reading : Nat) : Except Err Nat :=
  match session.fault stage with
  | some err => .error (.wrap "schedule/postgres: read database clock" err)
  | none => .ok reading

-- The current minute when it matches, the next occurrence otherwise.
def initialCursor (definition : Definition) (now : Nat) : Except Err Int :=
  let currentMinute := truncateMinute now
  let cursor := definition.next (currentMinute - nanosecond)
  if isZero cursor || decide (cursor ≠ truncateMinute cursor) || decide (cursor < currentMinute) then
    .error (.message ("schedule/postgres: " ++ definition.name ++ " returned an invalid initialization occurrence"))
  else if cursor = currentMinute then .ok cursor
  else nextAfter definition now

def initialRow (definition : Definition) (cursor : Int) (now : Nat) : ScheduleRow where
  name := definition.name
  fingerprint := definition.fingerprint
  expression := definition.expression
  timeZone := definition.timeZone
  jobName := definition.jobName
  queue := definition.queue
  misfireGraceMs := milliseconds definition.misfireGrace
  overlapPolicy := overlapPolicy
  nextRunAt := cursor
  lastEvaluatedAt := none
  lastCursorAt := none
  lastOccurrenceAt := none
  lastJobID := none
  lastOutcome := none
  createdAt := now
  updatedAt := now

-- ON CONFLICT (name) DO NOTHING
def insertRow (row : ScheduleRow) (schedules : Table schedulesSchema) : Except SqlError (Table schedulesSchema) :=
  match schedules.insert row with
  | .ok inserted => .ok inserted
  | .error .primaryKeyViolation => .ok schedules
  | .error cause => .error cause

def initializeSchedule (session : Session) (definition : Definition) (db : Full) : Except Err Full :=
  match databaseClock session .initialClock session.initialNow with
  | .error err => .error err
  | .ok now =>
    match initialCursor definition now with
    | .error err => .error err
    | .ok cursor =>
      match session.fault .insert with
      | some err => .error (.wrap ("schedule/postgres: initialize " ++ definition.name) err)
      | none =>
        match insertRow (initialRow definition cursor now) db.schedules with
        | .error cause => .error (.wrap ("schedule/postgres: initialize " ++ definition.name) (.database cause))
        | .ok schedules => .ok { db with schedules := schedules }

-- The row to evaluate and the view it was read from; no row means contention.
def loadRow (session : Session) (definition : Definition) (db : Full) : Except Err (Option ScheduleRow × Full) :=
  match lock session .lock definition db with
  | .error err => .error err
  | .ok (some stored) => .ok (some stored, db)
  | .ok none =>
    match rowExists session definition db with
    | .error err => .error err
    | .ok true => .ok (none, db)
    | .ok false =>
      match initializeSchedule session definition db with
      | .error err => .error err
      | .ok initialized =>
        match lock session .relock definition initialized with
        | .error err => .error err
        | .ok stored => .ok (stored, initialized)

inductive Decision where
  | notDue
  | skip (nextRunAt : Int)
  | dispatch (nextRunAt occurrence : Int)
deriving DecidableEq, Repr

def windowStart (definition : Definition) (stored : ScheduleRow) (now : Nat) : Int :=
  if now - definition.misfireGrace < stored.nextRunAt then stored.nextRunAt else now - definition.misfireGrace

def evaluate (definition : Definition) (stored : ScheduleRow) (now : Nat) : Except Err Decision :=
  if now < stored.nextRunAt then .ok .notDue
  else
    match nextAfter definition now with
    | .error err => .error err
    | .ok nextRunAt =>
      match latestOccurrence definition.next (windowStart definition stored now) now with
      | .error err => .error (.wrap ("schedule/postgres: select occurrence for " ++ definition.name) err)
      | .ok none => .ok (.skip nextRunAt)
      | .ok (some occurrence) => .ok (.dispatch nextRunAt occurrence)

-- The compare-and-set on the cursor that was read.
def advances (stored row : ScheduleRow) : Bool :=
  decide (row.name = stored.name ∧ row.fingerprint = stored.fingerprint ∧ row.nextRunAt = stored.nextRunAt)

def advancedRow (stored : ScheduleRow) (nextRunAt : Int) (now : Nat) (occurrence : Option Int) (jobID : Option String)
    (outcome : Outcome) (row : ScheduleRow) : ScheduleRow :=
  { row with
    nextRunAt := nextRunAt
    lastEvaluatedAt := some now
    lastCursorAt := some stored.nextRunAt
    lastOccurrenceAt := occurrence
    lastJobID := jobID
    lastOutcome := some outcome
    updatedAt := now }

def advanceRow (stored : ScheduleRow) (nextRunAt : Int) (now : Nat) (occurrence : Option Int) (jobID : Option String)
    (outcome : Outcome) (schedules : Table schedulesSchema) : Except SqlError (Table schedulesSchema × Nat) :=
  if jobID.all Job.textParam then
    match schedules.update (advances stored)
        ⟨advancedRow stored nextRunAt now occurrence jobID outcome, fun _ _ => rfl, fun _ _ => rfl⟩ with
    | .error cause => .error cause
    | .ok (updated, changed) => .ok (updated, changed.length)
  else .error .invalidText

def advance (session : Session) (stored : ScheduleRow) (nextRunAt : Int) (now : Nat) (occurrence : Option Int)
    (jobID : Option String) (outcome : Outcome) (db : Full) : Except Err Full :=
  match session.fault .advance with
  | some err => .error (.wrap ("schedule/postgres: advance " ++ stored.name) err)
  | none =>
    match advanceRow stored nextRunAt now occurrence jobID outcome db.schedules with
    | .error cause => .error (.wrap ("schedule/postgres: advance " ++ stored.name) (.database cause))
    | .ok (schedules, affected) =>
      match session.fault .affected with
      | some err => .error (.wrap ("schedule/postgres: confirm advance " ++ stored.name) err)
      | none =>
        if affected ≠ 1 then
          .error (.message
            ("schedule/postgres: advance " ++ stored.name ++ " affected " ++ toString affected ++ " rows"))
        else .ok { db with schedules := schedules }

structure Work where
  exit : Exit Err Result
  db : Full
  dispatched : List Int

def Work.failed (err : Err) (db : Full) : Work := ⟨.failed err, db, []⟩

def Work.decided (definition : Definition) (outcome : Outcome) (db : Full) : Work :=
  ⟨.done ⟨definition.name, outcome, zeroTime, ""⟩, db, []⟩

def outcomeOf (result : Job.DispatchResult) : Outcome := if result.enqueued then .enqueued else .overlapSuppressed

def badJobID (id : String) : Bool := id == "" || decide (1024 < id.utf8ByteSize)

def dispatchOccurrence (session : Session) (definition : Definition) (callback : Callback) (stored : ScheduleRow)
    (now : Nat) (nextRunAt occurrence : Int) (db : Full) : Work :=
  let called := callback occurrence db
  match called.1 with
  | .panicked => ⟨.panicked, called.2, [occurrence]⟩
  | .returned (.error err) =>
    ⟨.failed (.wrap ("schedule/postgres: dispatch " ++ definition.name ++ " at " ++ rfc3339 occurrence) err),
      called.2, [occurrence]⟩
  | .returned (.ok result) =>
    if badJobID result.id then
      ⟨.failed (.message ("schedule/postgres: dispatch " ++ definition.name ++ " returned an invalid job id")),
        called.2, [occurrence]⟩
    else
      match advance session stored nextRunAt now (if isZero occurrence then none else some occurrence)
          (some result.id) (outcomeOf result) called.2 with
      | .error err => ⟨.failed err, called.2, [occurrence]⟩
      | .ok next => ⟨.done ⟨definition.name, outcomeOf result, occurrence, result.id⟩, next, [occurrence]⟩

def evaluateStored (session : Session) (definition : Definition) (callback : Callback) (stored : ScheduleRow)
    (db : Full) : Work :=
  match stored.matches definition with
  | some err => .failed err db
  | none =>
    match databaseClock session .clock session.now with
    | .error err => .failed err db
    | .ok now =>
      match evaluate definition stored now with
      | .error err => .failed err db
      | .ok .notDue => .decided definition .notDue db
      | .ok (.skip nextRunAt) =>
        match advance session stored nextRunAt now none none .misfireSkipped db with
        | .error err => .failed err db
        | .ok next => .decided definition .misfireSkipped next
      | .ok (.dispatch nextRunAt occurrence) =>
        dispatchOccurrence session definition callback stored now nextRunAt occurrence db

def materializeBody (session : Session) (definition : Definition) (callback : Callback) (db : Full) : Work :=
  match loadRow session definition db with
  | .error err => .failed err db
  | .ok (none, view) => .decided definition .contended view
  | .ok (some stored, view) => evaluateStored session definition callback stored view

def bodyOf (session : Session) (definition : Definition) (callback : Callback) (db : Full) : Exit Err Result × Full :=
  ((materializeBody session definition callback db).exit, (materializeBody session definition callback db).db)

def materialize (session : Session) (definition : Definition) (callback : Option Callback) (db : Full) :
    Answer Err Result × Full :=
  match validateDefinition definition with
  | some err => (.error err, db)
  | none =>
    match callback with
    | none => (.error (.message "schedule/postgres: materialize callback is required"), db)
    | some callback =>
      match session.cancelled with
      | some err => (.error err, db)
      | none => transaction session.faults (bodyOf session definition callback) db

def dispatches (session : Session) (definition : Definition) (callback : Callback) (db : Full) : List Int :=
  match validateDefinition definition, session.cancelled, session.faults.begin with
  | none, none, none => (materializeBody session definition callback db).dispatched
  | _, _, _ => []

end Goforge.Schedule

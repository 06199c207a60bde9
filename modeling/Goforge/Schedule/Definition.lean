import Goforge.Job.Store

set_option autoImplicit false

namespace Goforge.Schedule

open GoTime Sql Text

def overlapPolicy : String := "forbid"

-- ^[0-9a-f]{64}$
def fingerprintPattern : Regex := Regex.repeated (.oneOf [('0', '9'), ('a', 'f')]) 64

inductive Outcome where
  | notDue
  | enqueued
  | overlapSuppressed
  | misfireSkipped
  | contended
deriving DecidableEq, Repr

inductive Err where
  | message (text : String)
  | definitionConflict (name stored code : String)
  | database (cause : SqlError)
  | job (cause : Job.Err)
  | wrap (context : String) (cause : Err)
  | join (first second : Err)
deriving DecidableEq, Repr

structure Policy where
  queue : String
  maxAttempts : Int
  timeout : Int
  backoff : List Int

-- next is the cron expression's strict successor, the zero time where there is
-- no later occurrence.
structure Definition where
  name : String
  expression : String
  timeZone : String
  misfireGrace : Int
  jobName : String
  policy : Policy
  fingerprint : String
  next : Int → Int

def Definition.queue (definition : Definition) : String := definition.policy.queue

-- A zero scheduledAt means that no occurrence was selected.
structure Result where
  name : String
  outcome : Outcome
  scheduledAt : Int
  jobID : String
deriving DecidableEq, Repr

structure ScheduleRow where
  name : String
  fingerprint : String
  expression : String
  timeZone : String
  jobName : String
  queue : String
  misfireGraceMs : Int
  overlapPolicy : String
  nextRunAt : Int
  lastEvaluatedAt : Option Int
  lastCursorAt : Option Int
  lastOccurrenceAt : Option Int
  lastJobID : Option String
  lastOutcome : Option Outcome
  createdAt : Int
  updatedAt : Int
deriving DecidableEq

-- The columns of the last decision are null together, or as the outcome says.
def ScheduleRow.outcomeCheck (row : ScheduleRow) : Bool :=
  match row.lastOutcome with
  | none => row.lastEvaluatedAt.isNone && row.lastCursorAt.isNone && row.lastOccurrenceAt.isNone && row.lastJobID.isNone
  | some .misfireSkipped =>
    row.lastEvaluatedAt.isSome && row.lastCursorAt.isSome && row.lastOccurrenceAt.isNone && row.lastJobID.isNone
  | some .enqueued =>
    row.lastEvaluatedAt.isSome && row.lastCursorAt.isSome && row.lastOccurrenceAt.isSome && row.lastJobID.isSome
  | some .overlapSuppressed =>
    row.lastEvaluatedAt.isSome && row.lastCursorAt.isSome && row.lastOccurrenceAt.isSome && row.lastJobID.isSome
  | some _ => false

def ScheduleRow.check (row : ScheduleRow) : Bool :=
  Job.validName row.name && fingerprintPattern.accepts row.fingerprint &&
  Job.textOk 1 256 row.expression && Job.textOk 1 128 row.timeZone &&
  Job.validName row.jobName && Job.validQueue row.queue &&
  decide (60000 ≤ row.misfireGraceMs ∧ row.misfireGraceMs ≤ 31536000000) &&
  decide (row.overlapPolicy = "forbid") && Job.optionalTextOk 1 1024 row.lastJobID &&
  decide (row.createdAt ≤ row.updatedAt) && row.outcomeCheck

def schedulesSchema : Schema ScheduleRow String Unit where
  key row := row.name
  index _ := none
  check := ScheduleRow.check

structure Full where
  queue : Job.Db
  schedules : Table schedulesSchema

def validateDefinition (definition : Definition) : Option Err :=
  if definition.name.utf8ByteSize == 0 || !Job.validName definition.name then
    some (.message "schedule/postgres: valid definition is required")
  else if definition.expression.utf8ByteSize == 0 || decide (256 < definition.expression.utf8ByteSize) ||
      definition.timeZone.utf8ByteSize == 0 || decide (128 < definition.timeZone.utf8ByteSize) ||
      definition.jobName.utf8ByteSize == 0 || !Job.validName definition.jobName ||
      definition.queue.utf8ByteSize == 0 || !Job.validQueue definition.queue ||
      !fingerprintPattern.accepts definition.fingerprint ||
      decide (definition.misfireGrace < minute) || decide (365 * day < definition.misfireGrace) ||
      decide (definition.misfireGrace % minute ≠ 0) then
    some (.message ("schedule/postgres: invalid durable definition " ++ definition.name))
  else none

def ScheduleRow.misfireGrace (stored : ScheduleRow) : Int := stored.misfireGraceMs * millisecond

def ScheduleRow.matches (stored : ScheduleRow) (definition : Definition) : Option Err :=
  if stored.fingerprint ≠ definition.fingerprint ∨ stored.expression ≠ definition.expression ∨
      stored.timeZone ≠ definition.timeZone ∨ stored.jobName ≠ definition.jobName ∨
      stored.queue ≠ definition.queue ∨ stored.misfireGrace ≠ definition.misfireGrace ∨
      stored.overlapPolicy ≠ Schedule.overlapPolicy then
    some (.definitionConflict definition.name stored.fingerprint definition.fingerprint)
  else none

end Goforge.Schedule

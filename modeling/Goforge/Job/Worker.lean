import Goforge.Job.Errors
import Goforge.Job.Queue

set_option autoImplicit false

namespace Goforge.Job.Worker

open GoTime Machine

structure Config where
  leaseDuration : Int
  cancellationTimeout : Int
  maxErrorBytes : Nat

-- A registered handler, as far as process calls it before it runs: whether it
-- decodes a payload. What it does later is an event.
structure RegisteredHandler where
  decodes : String → Bool

-- Registry.lookup
abbrev Registry := String → Option RegisteredHandler

def defaultBackoff : List Int := [second, 5 * second, 30 * second]

def retryDelay (backoff : List Int) (attempt : Int) : Int :=
  let backoff := if backoff.length = 0 then defaultBackoff else backoff
  let index := if attempt - 1 < 0 then 0 else attempt - 1
  let index := if (backoff.length : Int) ≤ index then (backoff.length : Int) - 1 else index
  backoff.getD index.toNat 0

-- Cutting bytes until the text is valid again keeps the characters that fit.
def fitting : Nat → List Char → List Char
  | _, [] => []
  | limit, c :: rest => if c.utf8Size ≤ limit then c :: fitting (limit - c.utf8Size) rest else []

def truncateUTF8 (value : String) (limit : Nat) : String :=
  if value.utf8ByteSize ≤ limit then value else String.ofList (fitting limit value.toList)

example : truncateUTF8 "aéé" 4 = "aé" := by decide

inductive ContextErr where
  | canceled
  | deadlineExceeded
deriving DecidableEq, Repr

inductive ProcessErr where
  | store (operation : String) (cause : Err)
  | handlerCancellationTimeout (after : Int)
deriving DecidableEq

-- Where process is: before the lookup, in the select, waiting for Heartbeat,
-- between receiving the result and reading handlerContext.Err, waiting for the
-- store call that ends the delivery, in awaitCancellation, or returned.
inductive Phase where
  | starting
  | selecting
  | beating
  | taken (result : Option HandlerErr)
  | settling (call : Call)
  | cancelling
  | exited (err : Option ProcessErr)

-- What happened so far, newest first: the answer of a heartbeat; the receipt of
-- the handler's result, with handlerContext.Err and whether the deadline had
-- passed by then; a call that settles the delivery, with handlerContext.Err.
inductive Record where
  | heartbeat (lease : Lease) (duration : Int) (answer : Owned)
  | took (result : Option HandlerErr) (ended : Option ContextErr) (late : Bool)
  | issued (call : Call) (ended : Option ContextErr)
deriving DecidableEq

-- The handler has sent what it returned on the result channel. The channel
-- handlerDone is nil exactly when timedOut is set; cancellationDone is nil
-- (none), or the channel of a timer that has fired or not.
structure State where
  phase : Phase
  running : Bool
  returned : Option (Option HandlerErr)
  passed : Bool
  ended : Option ContextErr
  baseDone : Bool
  ticked : Bool
  timedOut : Bool
  cancellationDone : Option Bool
  log : List Record

def State.start : State := ⟨.starting, false, none, false, none, false, false, false, none, []⟩

-- What goes on around the loop. A context keeps the first reason it ended for;
-- its deadline passes before its timer ends it, and the end of the base context
-- reaches it a moment later. panicError is not exported: only recover makes one.
inductive Around where
  | handlerReturns (result : Option HandlerErr)
  | handlerPanics
  | deadlinePasses
  | deadlineFires
  | shutdown
  | shutdownReaches
  | tick
  | cancellationFires

inductive Event where
  | around (event : Around)
  | start
  | takeResult
  | takeTick
  | takeHandlerDone
  | takeCancellationDone
  | takeBaseDone
  | complete
  | answer (owned : Owned)

def State.around (s : State) : Around → Option State
  | .handlerReturns result =>
    if s.running ∧ s.returned = none ∧ result.any HandlerErr.asPanic = false then
      some { s with returned := some result }
    else none
  | .handlerPanics =>
    if s.running ∧ s.returned = none then some { s with returned := some (some .panicError) } else none
  | .deadlinePasses => if s.running then some { s with passed := true } else none
  | .deadlineFires => if s.passed then some { s with ended := s.ended.or (some .deadlineExceeded) } else none
  | .shutdown => some { s with baseDone := true }
  | .shutdownReaches =>
    if s.running ∧ s.baseDone then some { s with ended := s.ended.or (some .canceled) } else none
  | .tick => if s.running then some { s with ticked := true } else none
  | .cancellationFires =>
    if s.cancellationDone.isSome then some { s with cancellationDone := some true } else none

def wrapStore (operation : String) : Option Err → Option ProcessErr
  | none => none
  | some cause => some (.store operation cause)

def operation : Call → String
  | .release _ => "release unknown job"
  | .ack _ => "acknowledge"
  | .retry _ => "schedule retry"
  | .fail _ => "fail terminal job"
  | _ => "heartbeat"

def State.issue (s : State) (call : Call) : State :=
  { s with phase := .settling call, log := .issued call s.ended :: s.log }

def State.exit (s : State) (err : Option ProcessErr) : State := { s with phase := .exited err }

def State.cancel (s : State) : State := { s with ended := s.ended.or (some .canceled) }

section

variable (config : Config) (delivery : Delivery)

def fail (kind message : String) : Call := .fail ⟨delivery.lease, kind, truncateUTF8 message config.maxErrorBytes⟩

def complete (handlerErr : Option HandlerErr) : Call :=
  match handlerErr with
  | none => .ack delivery.lease
  | some err =>
    let classified := classifyError err
    let kind := if err.isDeadlineExceeded then "timeout" else classified.kind
    let message := if err.isDeadlineExceeded then "handler deadline exceeded" else classified.message
    let message := truncateUTF8 message config.maxErrorBytes
    if classified.permanent || decide (delivery.maxAttempts ≤ delivery.attempt) then fail config delivery kind message
    else
      .retry ⟨delivery.lease, classified.delay.getD (retryDelay delivery.backoff delivery.attempt), kind, message⟩

-- A result that was received after the deadline ended the context is a timeout.
def State.handlerErr (s : State) (result : Option HandlerErr) : Option HandlerErr :=
  if s.timedOut || decide (s.ended = some .deadlineExceeded) then some .deadlineExceeded else result

def State.begin (registry : Registry) (s : State) : State :=
  match registry delivery.name with
  | none => s.issue (.release delivery.lease)
  | some handler =>
    if handler.decodes delivery.payload then { s with phase := .selecting, running := true }
    else s.issue (fail config delivery "malformed_payload" "job payload could not be decoded")

def State.beaten (s : State) (answer : Owned) : State :=
  let s := { s with log := .heartbeat delivery.lease config.leaseDuration answer :: s.log }
  match answer with
  | (_, some err) => s.cancel.exit (wrapStore "heartbeat" (some err))
  | (false, none) => { s.cancel with phase := .cancelling, cancellationDone := some false }
  | (true, none) => { s with phase := .selecting }

def State.handlerEnded (s : State) : ContextErr → State
  | .deadlineExceeded => { s with timedOut := true, cancellationDone := some false }
  | .canceled => s.exit none

-- One step of process; none where the event cannot happen in the state. Of the
-- ready cases select takes any.
def step (registry : Registry) (s : State) : Event → Option State
  | .around event => s.around event
  | .start =>
    match s.phase with
    | .starting => some (s.begin config delivery registry)
    | _ => none
  | .takeResult =>
    match s.phase, s.returned with
    | .selecting, some result =>
      some { s with phase := .taken result, log := .took result s.ended s.passed :: s.log }
    | .cancelling, some _ => some (s.exit none)
    | _, _ => none
  | .takeTick =>
    match s.phase, s.ticked with
    | .selecting, true => some { s with phase := .beating, ticked := false }
    | _, _ => none
  | .takeHandlerDone =>
    match s.phase, s.timedOut, s.ended with
    | .selecting, false, some err => some (s.handlerEnded err)
    | _, _, _ => none
  | .takeCancellationDone =>
    match s.phase, s.cancellationDone with
    | .selecting, some true | .cancelling, some true =>
      some (s.exit (some (.handlerCancellationTimeout config.cancellationTimeout)))
    | _, _ => none
  | .takeBaseDone =>
    match s.phase, s.baseDone with
    | .selecting, true | .cancelling, true => some (s.exit none)
    | _, _ => none
  | .complete =>
    match s.phase with
    | .taken result => some (s.issue (complete config delivery (s.handlerErr result)))
    | _ => none
  | .answer answer =>
    match s.phase with
    | .beating => some (s.beaten config delivery answer)
    | .settling call => some (s.exit (wrapStore (operation call) answer.2))
    | _ => none

def process (registry : Registry) : System State Event where
  start s := s = State.start
  step s event s' := step config delivery registry s event = some s'

end

end Goforge.Job.Worker

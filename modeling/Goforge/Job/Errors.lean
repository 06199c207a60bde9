import Goforge.Job.Store

set_option autoImplicit false

namespace Goforge.Job

open GoTime

-- An error value as errors.Is and errors.As search it: the types they look for
-- and the errors below a wrapping one. No text of a handler's error is read.
-- The delay of a retryAfterError passed the checks of RetryAfter.
inductive HandlerErr where
  | other
  | deadlineExceeded
  | panicError
  | permanentError (cause : HandlerErr)
  | retryAfterError (cause : HandlerErr) (delay : { delay : Int // badBackoff delay = false })
  | wrapped (cause : HandlerErr)
  | joined (first second : HandlerErr)
deriving DecidableEq

namespace HandlerErr

def permanent : Option HandlerErr → Option HandlerErr
  | none => none
  | some cause => some (.permanentError cause)

def retryAfter (err : Option HandlerErr) (delay : Int) : Option HandlerErr :=
  match err with
  | none => none
  | some cause =>
    if bad : badBackoff delay then some (.permanentError (.wrapped cause))
    else some (.retryAfterError cause ⟨delay, Bool.eq_false_iff.mpr bad⟩)

def asPanic : HandlerErr → Bool
  | .panicError => true
  | .other | .deadlineExceeded => false
  | .permanentError cause | .retryAfterError cause _ | .wrapped cause => cause.asPanic
  | .joined first second => first.asPanic || second.asPanic

def asPermanent : HandlerErr → Bool
  | .permanentError _ => true
  | .other | .deadlineExceeded | .panicError => false
  | .retryAfterError cause _ | .wrapped cause => cause.asPermanent
  | .joined first second => first.asPermanent || second.asPermanent

def asRetryAfter : HandlerErr → Option Int
  | .retryAfterError _ delay => some delay
  | .other | .deadlineExceeded | .panicError => none
  | .permanentError cause | .wrapped cause => cause.asRetryAfter
  | .joined first second => first.asRetryAfter.or second.asRetryAfter

def isDeadlineExceeded : HandlerErr → Bool
  | .deadlineExceeded => true
  | .other | .panicError => false
  | .permanentError cause | .retryAfterError cause _ | .wrapped cause => cause.isDeadlineExceeded
  | .joined first second => first.isDeadlineExceeded || second.isDeadlineExceeded

end HandlerErr

structure Classified where
  kind : String
  message : String
  delay : Option Int
  permanent : Bool

def classifyError (err : HandlerErr) : Classified :=
  if err.asPanic then ⟨"panic", "handler panicked", none, false⟩
  else if err.asPermanent then ⟨"permanent", "handler reported a permanent failure", none, true⟩
  else
    match err.asRetryAfter with
    | some delay => ⟨"error", "handler requested a retry", some delay, false⟩
    | none => ⟨"error", "handler returned an error", none, false⟩

theorem classify_permanent {err : HandlerErr} (calm : err.asPanic = false) :
    (classifyError err).permanent = err.asPermanent := by
  unfold classifyError
  rw [if_neg (by rw [calm]; exact Bool.false_ne_true)]
  cases marked : err.asPermanent with
  | true => rw [if_pos rfl]
  | false =>
    rw [if_neg Bool.false_ne_true]
    cases err.asRetryAfter <;> rfl

end Goforge.Job

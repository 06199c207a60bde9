import Goforge.Lib.GoTime
import Goforge.Lib.Jsonb
import Goforge.Lib.Regex
import Goforge.Lib.Table
import Goforge.Lib.Uuid

set_option autoImplicit false

namespace Goforge.Job

open GoTime Sql Text

def defaultMaxPayloadBytes : Nat := 256 * 1024
def defaultMaxErrorBytes : Nat := 8 * 1024
def maxNameBytes : Nat := 128
def maxQueueBytes : Nat := 64
def maxDedupKeyBytes : Nat := 256

def lowerLetter : Regex := .oneOf [('a', 'z')]
def nameChar : Regex := .oneOf [('a', 'z'), ('0', '9'), ('.', '.'), ('_', '_'), ('-', '-')]
def digit : Regex := .oneOf [('0', '9')]

-- ^[a-z][a-z0-9._-]*$
def queuePattern : Regex := .seq lowerLetter (.star nameChar)

-- ^[a-z][a-z0-9._-]*\.v[1-9][0-9]*$
def jobNamePattern : Regex :=
  .seq lowerLetter (.seq (.star nameChar)
    (.seq (.char '.') (.seq (.char 'v') (.seq (.oneOf [('1', '9')]) (.star digit)))))

def validQueue (queue : String) : Bool :=
  decide (queue.utf8ByteSize ≤ maxQueueBytes) && queuePattern.accepts queue

def validName (name : String) : Bool :=
  decide (name.utf8ByteSize ≤ maxNameBytes) && jobNamePattern.accepts name

-- Go errors: a formatted message, an error of the database driver, or a
-- message that wraps another error with %w.
inductive Err where
  | message (text : String)
  | database (cause : SqlError)
  | wrap (context : String) (cause : Err)
deriving DecidableEq, Repr

structure DispatchResult where
  id : String
  enqueued : Bool
deriving DecidableEq, Repr

structure EnqueueRequest where
  id : String
  queue : String
  name : String
  payload : String
  priority : Int
  delay : Int
  atTime : Option Int
  maxAttempts : Int
  timeout : Int
  backoff : List Int
  dedupKey : String
deriving DecidableEq

structure ClaimRequest where
  queues : List String
  names : List String
  limit : Int
  workerID : String
  leaseDuration : Int
deriving DecidableEq

structure Lease where
  jobID : String
  workerID : String
  generation : Int
deriving DecidableEq, Repr

structure Delivery where
  id : String
  queue : String
  name : String
  payload : String
  priority : Int
  attempt : Int
  maxAttempts : Int
  timeout : Int
  backoff : List Int
  dedupKey : String
  availableAt : Int
  leasedAt : Int
  leaseExpires : Int
  lease : Lease
deriving DecidableEq, Repr

structure RetryRequest where
  lease : Lease
  delay : Int
  errorKind : String
  error : String
deriving DecidableEq

structure FailureRequest where
  lease : Lease
  kind : String
  error : String
deriving DecidableEq

structure FailedJob where
  id : String
  queue : String
  name : String
  attempts : Int
  failureKind : String
deriving DecidableEq, Repr

-- The queue-wide limits of a store. WithLimits accepts positive limits only.
structure Store where
  maxPayload : Nat
  maxError : Nat
  payloadPositive : 0 < maxPayload
  errorPositive : 0 < maxError

def defaultStore : Store := ⟨defaultMaxPayloadBytes, defaultMaxErrorBytes, by decide, by decide⟩

def withLimits (maxPayloadBytes maxErrorBytes : Int) : Except Err Store :=
  if positive : 1 ≤ maxPayloadBytes ∧ 1 ≤ maxErrorBytes then
    .ok ⟨maxPayloadBytes.toNat, maxErrorBytes.toNat, by omega, by omega⟩
  else .error (.message "job/postgres: limits must be positive")

end Goforge.Job

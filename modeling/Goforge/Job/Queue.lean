import Goforge.Job.Store
import Goforge.Lib.Machine

set_option autoImplicit false

namespace Goforge.Job

open GoTime Sql Machine

-- Everything workers, dispatchers and operators ask of the store. The locked
-- ids of the two scanning calls are the rows other transactions hold locks on.
inductive Call where
  | enqueue (request : EnqueueRequest)
  | claim (request : ClaimRequest) (locked : List Uuid)
  | heartbeat (lease : Lease) (duration : Int)
  | ack (lease : Lease)
  | retry (request : RetryRequest)
  | release (lease : Lease)
  | fail (request : FailureRequest)
  | failExhausted (queues names : List String) (limit : Int) (locked : List Uuid)
  | retryFailed (id : String)
  | forgetFailed (id : String)
deriving DecidableEq

inductive Reply where
  | dispatched (result : Except Err DispatchResult)
  | claimed (result : Except Err (List Delivery))
  | owned (result : Owned)
  | exhausted (result : Except Err (List FailedJob))
deriving DecidableEq

def exec (pg : Server) (store : Store) (now : Nat) (db : Db) : Call → Reply × Db
  | .enqueue request => let r := enqueue pg store now request db; (.dispatched r.1, r.2)
  | .claim request locked => let r := claim store now request locked db; (.claimed r.1, r.2)
  | .heartbeat lease duration => let r := heartbeat now lease duration db; (.owned r.1, r.2)
  | .ack lease => let r := ack now lease db; (.owned r.1, r.2)
  | .retry request => let r := retry store now request db; (.owned r.1, r.2)
  | .release lease => let r := release now lease db; (.owned r.1, r.2)
  | .fail request => let r := fail store now request db; (.owned r.1, r.2)
  | .failExhausted queues names limit locked =>
    let r := failExhausted now queues names limit locked db; (.exhausted r.1, r.2)
  | .retryFailed id => let r := retryFailed now id db; (.owned r.1, r.2)
  | .forgetFailed id => let r := forgetFailed id db; (.owned r.1, r.2)

def Call.lease : Call → Option Lease
  | .heartbeat lease _ => some lease
  | .ack lease => some lease
  | .retry request => some request.lease
  | .release lease => some lease
  | .fail request => some request.lease
  | _ => none

def Call.target : Call → Option Uuid
  | .retryFailed id => castUuid id
  | .forgetFailed id => castUuid id
  | call => call.lease.bind (fun lease => castUuid lease.jobID)

structure Entry where
  before : Db
  now : Nat
  call : Call
  reply : Reply
  after : Db

structure World where
  db : Db
  clock : Nat
  history : List Entry

structure Step where
  now : Nat
  call : Call

def World.entry (pg : Server) (store : Store) (w : World) (step : Step) : Entry :=
  let r := exec pg store step.now w.db step.call
  ⟨w.db, step.now, step.call, r.1, r.2⟩

def World.next (pg : Server) (store : Store) (w : World) (step : Step) : World :=
  let e := w.entry pg store step
  ⟨e.after, step.now, e :: w.history⟩

def World.start : World := ⟨Db.empty, 0, []⟩

-- Any interleaving of calls, each statement one step, under a database clock
-- that does not run backwards.
def queue (pg : Server) (store : Store) : System World Step where
  start w := w = World.start
  step w step w' := w.clock ≤ step.now ∧ w' = w.next pg store step

def World.after (pg : Server) (store : Store) (w : World) : List Step → World
  | [] => w
  | step :: rest => (w.next pg store step).after pg store rest

def World.follows (pg : Server) (store : Store) (ok : World → Step → Bool) (w : World) : List Step → Bool
  | [] => true
  | step :: rest =>
    decide (w.clock ≤ step.now) && ok w step && (w.next pg store step).follows pg store ok rest

theorem follows_run {pg : Server} {store : Store} {ok : World → Step → Bool} (w : World) {steps : List Step}
    (follows : w.follows pg store ok steps = true) :
    Run ((queue pg store).guard (fun w step => ok w step = true)) w steps (w.after pg store steps) := by
  induction steps generalizing w with
  | nil => exact .nil w
  | cons step rest ih =>
    simp only [World.follows, Bool.and_eq_true, decide_eq_true_eq] at follows
    obtain ⟨⟨ordered, allowed⟩, later⟩ := follows
    exact .cons w (w.next pg store step) _ step rest ⟨allowed, ordered, rfl⟩ (ih _ later)

theorem follows_reach (pg : Server) (store : Store) (ok : World → Step → Bool) {steps : List Step}
    (follows : World.start.follows pg store ok steps = true) :
    Reach ((queue pg store).guard (fun w step => ok w step = true)) (World.start.after pg store steps) :=
  reach_run (.start _ rfl) (follows_run World.start follows)

def sampleServer : Server where
  jsonb text :=
    if text = "\x7b\x7d" then some (.object .nil)
    else if text = "\x7b\"a\":1\x7d" then
      some (.object (.cons "a" (.number ⟨false, [1], [], .inr ⟨1, [], rfl, by decide⟩⟩) .nil))
    else none
  keepsNesting := by
    intro text value _ read
    split at read
    · cases read
      decide
    · split at read
      · cases read
        decide
      · cases read

def hexDigit (n : Nat) : HexDigit := ⟨n % 16, Nat.mod_lt n (by decide)⟩

def sampleId : Uuid :=
  ⟨[1, 1, 1, 1, 1, 1, 1, 1, 1, 1, 1, 1, 4, 1, 1, 1, 8, 1, 1, 1, 1, 1, 1, 1, 1, 1, 1, 1, 1, 1, 1, 1].map hexDigit, rfl⟩

def secondId : Uuid :=
  ⟨[2, 2, 2, 2, 2, 2, 2, 2, 2, 2, 2, 2, 4, 2, 2, 2, 8, 2, 2, 2, 2, 2, 2, 2, 2, 2, 2, 2, 2, 2, 2, 2].map hexDigit, rfl⟩

def sampleRequest : EnqueueRequest where
  id := sampleId.text
  queue := "default"
  name := "mail.send.v1"
  payload := "\x7b\x7d"
  priority := 0
  delay := 0
  atTime := none
  maxAttempts := 1
  timeout := minute
  backoff := [second]
  dedupKey := ""

def sampleClaim : ClaimRequest := ⟨["default"], ["mail.send.v1"], 10, "worker-a", second⟩

end Goforge.Job

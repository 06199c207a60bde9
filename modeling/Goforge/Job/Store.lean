import Goforge.Job.Schema
import Mathlib.Data.List.Sort

set_option autoImplicit false

namespace Goforge.Job

open GoTime Sql

-- The jsonb input function is the server's own. What the store relies on is
-- that a value nests no deeper than the text it was read from.
structure Server where
  jsonb : String → Option Jsonb
  keepsNesting : ∀ text value, Json.valid text = true → jsonb text = some value →
    value.depth ≤ Json.maxNestingDepth

-- Text parameters with a NUL are refused before the statement runs.
def textParam (value : String) : Bool := !value.toList.contains '\x00'

def durationsToMilliseconds (values : List Int) : List Int := values.map milliseconds

def millisecondsToDurations (values : List Int) : List Int := values.map (fun value => value * millisecond)

def safeFailureMessage (kind message : String) : String :=
  if kind = "panic" then "handler panicked"
  else if kind = "permanent" then "handler reported a permanent failure"
  else if kind = "timeout" then "handler deadline exceeded"
  else if kind = "malformed_payload" then "job payload could not be decoded"
  else if kind = "lease_exhausted" then "lease expired after final attempt"
  else if kind = "error" then
    if message = "handler requested a retry" then message else "handler returned an error"
  else "job attempt failed"

-- The allowed messages are ASCII, so cutting bytes is cutting characters.
def boundedSafeFailureMessage (store : Store) (kind message : String) : String :=
  let message := safeFailureMessage kind message
  if store.maxError < message.utf8ByteSize then String.ofList (message.toList.take store.maxError) else message

def badBackoff (delay : Int) : Bool :=
  decide (delay < 0 ∨ 30 * day < delay ∨ (0 < delay ∧ delay < millisecond))

def badPolicy (request : EnqueueRequest) : Bool :=
  decide (request.maxAttempts < 1 ∨ 1000 < request.maxAttempts ∨
    request.timeout < millisecond ∨ 24 * hour < request.timeout ∨
    request.backoff.length = 0 ∨ 1000 < request.backoff.length ∨
    request.delay < 0 ∨ 365 * day < request.delay ∨ (0 < request.delay ∧ request.delay < millisecond) ∨
    request.atTime.any isZero = true ∨ (request.atTime.isSome = true ∧ request.delay ≠ 0) ∨
    request.priority < -32768 ∨ 32767 < request.priority)

def enqueueInvalid (store : Store) (request : EnqueueRequest) : Option String :=
  if request.name.utf8ByteSize == 0 || !validName request.name ||
      request.queue.utf8ByteSize == 0 || !validQueue request.queue then
    some "enqueue: invalid name or queue"
  else if request.payload.utf8ByteSize == 0 || decide (store.maxPayload < request.payload.utf8ByteSize) ||
      !Json.valid request.payload then
    some "enqueue: invalid or oversized payload"
  else if maxDedupKeyBytes < request.dedupKey.utf8ByteSize then some "enqueue: oversized deduplication key"
  else if badPolicy request then some "enqueue: invalid execution policy"
  else if request.backoff.any badBackoff then some "enqueue: invalid backoff"
  else none

def enqueueRow (now : Nat) (request : EnqueueRequest) (id : Uuid) (payload : Jsonb) : JobRow where
  id := id
  queue := request.queue
  name := request.name
  payload := payload
  priority := request.priority
  maxAttempts := request.maxAttempts
  timeoutMs := milliseconds request.timeout
  backoffMs := durationsToMilliseconds request.backoff
  dedupKey := if request.dedupKey = "" then none else some request.dedupKey
  createdAt := now
  availableAt :=
    match request.atTime with
    | some t => timestamptz t
    | none => now + interval (milliseconds request.delay)
  attempts := 0
  leaseOwner := none
  leaseGeneration := 0
  leasedAt := none
  leaseExpiresAt := none
  lastErrorKind := none
  lastError := none
  updatedAt := now

-- DO UPDATE SET dedup_key = EXCLUDED.dedup_key
def setDedupKey (queue name key : String) :
    Assign jobsSchema (fun row => decide (jobsSchema.index row = some (queue, name, key))) where
  set row := { row with dedupKey := some key }
  keepsKey _ _ := rfl
  keepsIndex row hit := by
    cases keyed : row.dedupKey with
    | none => simp [jobsSchema, keyed] at hit
    | some old =>
      have entry : row.queue = queue ∧ row.name = name ∧ old = key := by simpa [jobsSchema, keyed] using hit
      simp [jobsSchema, keyed, entry.2.2]

def enqueue (pg : Server) (store : Store) (now : Nat) (request : EnqueueRequest) (db : Db) :
    Except Err DispatchResult × Db :=
  match enqueueInvalid store request with
  | some text => (.error (.message text), db)
  | none =>
    let context := if request.dedupKey = "" then "enqueue" else "enqueue deduplicated"
    match castUuid request.id, pg.jsonb request.payload with
    | some id, some payload =>
      let row := enqueueRow now request id payload
      if request.dedupKey = "" then
        match db.jobs.insert row with
        | .error cause => (.error (.wrap context (.database cause)), db)
        | .ok jobs => (.ok ⟨id.text, true⟩, { db with jobs := jobs })
      else
        match db.jobs.upsert row (request.queue, request.name, request.dedupKey)
            (setDedupKey request.queue request.name request.dedupKey) with
        | .error cause => (.error (.wrap context (.database cause)), db)
        | .ok (_, []) => (.error (.wrap context (.database .noRows)), db)
        | .ok (jobs, returned :: _) =>
          (.ok ⟨returned.id.text, decide (returned.id.text = request.id)⟩, { db with jobs := jobs })
    | _, _ => (.error (.wrap context (.database .invalidText)), db)

def claimInvalid (request : ClaimRequest) : Option String :=
  if request.queues.isEmpty || request.names.isEmpty || decide (request.limit < 1) ||
      decide (10000 < request.limit) || request.workerID == "" || decide (request.leaseDuration < millisecond) then
    some "claim: invalid request"
  else if 128 < request.workerID.utf8ByteSize then some "claim: invalid worker id"
  else if request.queues.any (fun queue => !validQueue queue) then some "claim: invalid queue"
  else if request.names.any (fun name => !validName name) then some "claim: invalid name"
  else none

def claimable (now : Nat) (request : ClaimRequest) (row : JobRow) : Bool :=
  decide (row.queue ∈ request.queues ∧ row.name ∈ request.names ∧ row.availableAt ≤ now ∧
    row.attempts < row.maxAttempts)

-- ORDER BY priority DESC, available_at, id
def claimBefore (a b : JobRow) : Prop :=
  b.priority < a.priority ∨ (a.priority = b.priority ∧
    (a.availableAt < b.availableAt ∨ (a.availableAt = b.availableAt ∧ a.id.digits ≤ b.id.digits)))

instance : DecidableRel claimBefore := fun a b => by
  unfold claimBefore
  infer_instance

-- FOR UPDATE SKIP LOCKED: the rows other transactions have locked are passed
-- over before LIMIT counts.
def claimCandidates (now : Nat) (request : ClaimRequest) (locked : List Uuid) (rows : List JobRow) : List Uuid :=
  (((rows.filter (fun row => claimable now request row && decide (row.id ∉ locked))).insertionSort claimBefore).take
    request.limit.toNat).map (fun row => row.id)

def leasedRow (now : Nat) (request : ClaimRequest) (row : JobRow) : JobRow :=
  { row with
    attempts := row.attempts + 1
    leaseOwner := some request.workerID
    leaseGeneration := row.leaseGeneration + 1
    leasedAt := some now
    leaseExpiresAt := some (now + interval (milliseconds request.leaseDuration))
    availableAt := now + interval (milliseconds request.leaseDuration)
    updatedAt := now }

def claimStatement (now : Nat) (request : ClaimRequest) (locked : List Uuid) (db : Db) :
    Except SqlError (Table jobsSchema × List JobRow) :=
  if textParam request.workerID then
    db.jobs.update (fun row => decide (row.id ∈ claimCandidates now request locked db.jobs.rows))
      ⟨leasedRow now request, fun _ _ => rfl, fun _ _ => rfl⟩
  else .error .invalidText

def validateLease (lease : Lease) : Option String :=
  if lease.jobID = "" ∨ lease.workerID = "" ∨ 128 < lease.workerID.utf8ByteSize ∨ lease.generation < 1 then
    some "job/postgres: invalid lease"
  else none

def badDelivery (store : Store) (delivery : Delivery) : Bool :=
  delivery.queue.utf8ByteSize == 0 || !validQueue delivery.queue ||
  delivery.name.utf8ByteSize == 0 || !validName delivery.name ||
  delivery.payload.utf8ByteSize == 0 || decide (store.maxPayload < delivery.payload.utf8ByteSize) ||
  !Json.valid delivery.payload ||
  decide (maxDedupKeyBytes < delivery.dedupKey.utf8ByteSize) || decide (delivery.attempt < 1) ||
  decide (delivery.maxAttempts < 1) || decide (1000 < delivery.maxAttempts) ||
  decide (delivery.maxAttempts < delivery.attempt) ||
  decide (delivery.timeout < millisecond) || decide (24 * hour < delivery.timeout) ||
  delivery.backoff.length == 0 || decide (1000 < delivery.backoff.length) ||
  isZero delivery.availableAt || isZero delivery.leasedAt || isZero delivery.leaseExpires ||
  decide (delivery.leaseExpires ≤ delivery.leasedAt)

def validateDelivery (store : Store) (delivery : Delivery) : Option String :=
  if badDelivery store delivery then some "invalid durable delivery"
  else if delivery.backoff.any (fun delay => decide (delay < 0 ∨ 30 * day < delay)) then
    some "invalid durable backoff"
  else validateLease delivery.lease

-- One row of the RETURNING clause, scanned into a delivery. The claim has just
-- set the lease columns; a null one would scan as the zero time.
def scanDelivery (workerID : String) (row : JobRow) : Delivery where
  id := row.id.text
  queue := row.queue
  name := row.name
  payload := row.payload.text
  priority := row.priority
  attempt := row.attempts
  maxAttempts := row.maxAttempts
  timeout := row.timeoutMs * millisecond
  backoff := millisecondsToDurations row.backoffMs
  dedupKey := row.dedupKey.getD ""
  availableAt := row.availableAt
  leasedAt := row.leasedAt.getD zeroTime
  leaseExpires := row.leaseExpiresAt.getD zeroTime
  lease := ⟨row.id.text, workerID, row.leaseGeneration⟩

def scanClaim (store : Store) (workerID : String) (row : JobRow) : Except Err Delivery :=
  match validateDelivery store (scanDelivery workerID row) with
  | some text => .error (.wrap "scan claim" (.message text))
  | none => .ok (scanDelivery workerID row)

def scanDeliveries (store : Store) (workerID : String) (rows : List JobRow) : Except Err (List Delivery) :=
  rows.mapM (scanClaim store workerID)

-- The statement has committed before the first row is scanned.
def claim (store : Store) (now : Nat) (request : ClaimRequest) (locked : List Uuid) (db : Db) :
    Except Err (List Delivery) × Db :=
  match claimInvalid request with
  | some text => (.error (.message text), db)
  | none =>
    match claimStatement now request locked db with
    | .error cause => (.error (.wrap "claim" (.database cause)), db)
    | .ok (jobs, rows) => (scanDeliveries store request.workerID rows, { db with jobs := jobs })

def owns (now : Nat) (lease : Lease) (id : Uuid) (row : JobRow) : Bool :=
  decide (row.id = id ∧ row.leaseOwner = some lease.workerID ∧ row.leaseGeneration = lease.generation) &&
  row.leaseExpiresAt.any (fun expires => decide ((now : Int) < expires))

abbrev Owned := Bool × Option Err

def execFenced (lease : Lease) (texts : List String) (db : Db)
    (statement : Uuid → Except SqlError (Table jobsSchema × List JobRow)) : Owned × Db :=
  match castUuid lease.jobID with
  | none => ((false, some (.database .invalidText)), db)
  | some id =>
    if (lease.workerID :: texts).all textParam then
      match statement id with
      | .error cause => ((false, some (.database cause)), db)
      | .ok (jobs, changed) => ((decide (changed.length = 1), none), { db with jobs := jobs })
    else ((false, some (.database .invalidText)), db)

def extendedRow (now : Nat) (duration : Int) (row : JobRow) : JobRow :=
  { row with
    leaseExpiresAt := some (now + interval (milliseconds duration))
    availableAt := now + interval (milliseconds duration)
    updatedAt := now }

def heartbeat (now : Nat) (lease : Lease) (duration : Int) (db : Db) : Owned × Db :=
  if validateLease lease ≠ none ∨ duration < millisecond then
    ((false, some (.message "heartbeat: invalid lease or duration")), db)
  else
    execFenced lease [] db (fun id =>
      db.jobs.update (owns now lease id) ⟨extendedRow now duration, fun _ _ => rfl, fun _ _ => rfl⟩)

def ack (now : Nat) (lease : Lease) (db : Db) : Owned × Db :=
  match validateLease lease with
  | some text => ((false, some (.message text)), db)
  | none => execFenced lease [] db (fun id => .ok (db.jobs.delete (owns now lease id)))

def retriedRow (now : Nat) (delay : Int) (kind message : String) (row : JobRow) : JobRow :=
  { row with
    availableAt := now + interval (milliseconds delay)
    leaseOwner := none
    leasedAt := none
    leaseExpiresAt := none
    lastErrorKind := some kind
    lastError := some message
    updatedAt := now }

def retry (store : Store) (now : Nat) (request : RetryRequest) (db : Db) : Owned × Db :=
  if validateLease request.lease ≠ none ∨ request.delay < 0 ∨ 64 < request.errorKind.utf8ByteSize ∨
      store.maxError < request.error.utf8ByteSize then
    ((false, some (.message "retry: invalid request")), db)
  else
    let safeMessage := boundedSafeFailureMessage store request.errorKind request.error
    execFenced request.lease [request.errorKind, safeMessage] db (fun id =>
      db.jobs.update (owns now request.lease id)
        ⟨retriedRow now request.delay request.errorKind safeMessage, fun _ _ => rfl, fun _ _ => rfl⟩)

def releasedRow (now : Nat) (row : JobRow) : JobRow :=
  { row with
    availableAt := now
    leaseOwner := none
    leasedAt := none
    leaseExpiresAt := none
    updatedAt := now }

def release (now : Nat) (lease : Lease) (db : Db) : Owned × Db :=
  match validateLease lease with
  | some text => ((false, some (.message text)), db)
  | none =>
    execFenced lease [] db (fun id =>
      db.jobs.update (owns now lease id) ⟨releasedRow now, fun _ _ => rfl, fun _ _ => rfl⟩)

def failedRow (now : Nat) (kind message : String) (row : JobRow) : FailedRow where
  toBody := row.toBody
  attempts := row.attempts
  failureKind := kind
  failureMessage := message
  failedAt := now

-- WITH removed AS (DELETE ... RETURNING *) INSERT ... SELECT ... FROM removed
def moveToFailed (now : Nat) (kind message : String) (pred : JobRow → Bool) (db : Db) :
    Except SqlError (Db × List JobRow) :=
  let removed := db.jobs.delete pred
  match db.failed.insertAll (removed.2.map (failedRow now kind message)) with
  | .error cause => .error cause
  | .ok failed => .ok (⟨removed.1, failed⟩, removed.2)

def fail (store : Store) (now : Nat) (request : FailureRequest) (db : Db) : Owned × Db :=
  if validateLease request.lease ≠ none ∨ request.kind.utf8ByteSize = 0 ∨ 64 < request.kind.utf8ByteSize ∨
      store.maxError < request.error.utf8ByteSize then
    ((false, some (.message "fail: invalid request")), db)
  else
    let safeMessage := boundedSafeFailureMessage store request.kind request.error
    match castUuid request.lease.jobID with
    | none => ((false, some (.wrap "fail" (.database .invalidText))), db)
    | some id =>
      if [request.lease.workerID, request.kind, safeMessage].all textParam then
        match moveToFailed now request.kind safeMessage (owns now request.lease id) db with
        | .error cause => ((false, some (.wrap "fail" (.database cause))), db)
        | .ok (next, removed) => ((!removed.isEmpty, none), next)
      else ((false, some (.wrap "fail" (.database .invalidText))), db)

def exhausted (now : Nat) (queues names : List String) (row : JobRow) : Bool :=
  decide (row.queue ∈ queues ∧ row.name ∈ names ∧ row.leaseOwner ≠ none ∧ row.availableAt ≤ now ∧
    row.maxAttempts ≤ row.attempts)

-- ORDER BY available_at, id
def exhaustedBefore (a b : JobRow) : Prop :=
  a.availableAt < b.availableAt ∨ (a.availableAt = b.availableAt ∧ a.id.digits ≤ b.id.digits)

instance : DecidableRel exhaustedBefore := fun a b => by
  unfold exhaustedBefore
  infer_instance

def exhaustedCandidates (now : Nat) (queues names : List String) (limit : Int) (locked : List Uuid)
    (rows : List JobRow) : List Uuid :=
  (((rows.filter (fun row => exhausted now queues names row && decide (row.id ∉ locked))).insertionSort
    exhaustedBefore).take limit.toNat).map (fun row => row.id)

def failExhausted (now : Nat) (queues names : List String) (limit : Int) (locked : List Uuid) (db : Db) :
    Except Err (List FailedJob) × Db :=
  if queues.isEmpty || names.isEmpty || decide (limit < 1) || decide (10000 < limit) then
    (.error (.message "fail exhausted: invalid request"), db)
  else if queues.all textParam && names.all textParam then
    match moveToFailed now "lease_exhausted" "lease expired after final attempt"
        (fun row => decide (row.id ∈ exhaustedCandidates now queues names limit locked db.jobs.rows)) db with
    | .error cause => (.error (.wrap "fail exhausted" (.database cause)), db)
    | .ok (next, removed) =>
      (.ok (removed.map (fun row => ⟨row.id.text, row.queue, row.name, row.attempts, "lease_exhausted"⟩)), next)
  else (.error (.wrap "fail exhausted" (.database .invalidText)), db)

def restoredRow (now : Nat) (row : FailedRow) : JobRow where
  toBody := row.toBody
  availableAt := now
  attempts := 0
  leaseOwner := none
  leaseGeneration := 0
  leasedAt := none
  leaseExpiresAt := none
  lastErrorKind := none
  lastError := none
  updatedAt := now

def retryFailed (now : Nat) (id : String) (db : Db) : Owned × Db :=
  match castUuid id with
  | none => ((false, some (.wrap "job/postgres: retry failed" (.database .invalidText))), db)
  | some id =>
    let removed := db.failed.delete (fun row => decide (row.id = id))
    match db.jobs.insertAll (removed.2.map (restoredRow now)) with
    | .error cause => ((false, some (.wrap "job/postgres: retry failed" (.database cause))), db)
    | .ok jobs => ((!removed.2.isEmpty, none), ⟨jobs, removed.1⟩)

def forgetFailed (id : String) (db : Db) : Owned × Db :=
  match castUuid id with
  | none => ((false, some (.wrap "job/postgres: forget failed" (.database .invalidText))), db)
  | some id =>
    let removed := db.failed.delete (fun row => decide (row.id = id))
    ((decide (removed.2.length = 1), none), { db with failed := removed.1 })

end Goforge.Job

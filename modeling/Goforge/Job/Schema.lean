import Goforge.Job.Types

set_option autoImplicit false

namespace Goforge.Job

open GoTime Sql Text

structure Body where
  id : Uuid
  queue : String
  name : String
  payload : Jsonb
  priority : Int
  maxAttempts : Int
  timeoutMs : Int
  backoffMs : List Int
  dedupKey : Option String
  createdAt : Int

structure JobRow extends Body where
  availableAt : Int
  attempts : Int
  leaseOwner : Option String
  leaseGeneration : Int
  leasedAt : Option Int
  leaseExpiresAt : Option Int
  lastErrorKind : Option String
  lastError : Option String
  updatedAt : Int

structure FailedRow extends Body where
  attempts : Int
  failureKind : String
  failureMessage : String
  failedAt : Int

-- The server's text type holds no NUL.
def textOk (least most : Nat) (value : String) : Bool :=
  decide (least ≤ value.utf8ByteSize) && decide (value.utf8ByteSize ≤ most) && !value.toList.contains '\x00'

def optionalTextOk (least most : Nat) : Option String → Bool
  | none => true
  | some value => textOk least most value

def Body.check (body : Body) : Bool :=
  validQueue body.queue && validName body.name &&
  decide (body.payload.text.utf8ByteSize ≤ 262144) &&
  decide (-32768 ≤ body.priority ∧ body.priority ≤ 32767) &&
  decide (1 ≤ body.maxAttempts ∧ body.maxAttempts ≤ 1000) &&
  decide (1 ≤ body.timeoutMs ∧ body.timeoutMs ≤ 86400000) &&
  decide (1 ≤ body.backoffMs.length ∧ body.backoffMs.length ≤ 1000) &&
  body.backoffMs.all (fun ms => decide (0 ≤ ms ∧ ms ≤ 2592000000)) &&
  optionalTextOk 1 256 body.dedupKey

-- Lease columns are all null or all set.
def JobRow.leaseCheck (row : JobRow) : Bool :=
  optionalTextOk 1 128 row.leaseOwner &&
  row.leaseOwner.isSome == row.leasedAt.isSome && row.leaseOwner.isSome == row.leaseExpiresAt.isSome

def JobRow.errorCheck (row : JobRow) : Bool :=
  optionalTextOk 0 64 row.lastErrorKind && optionalTextOk 0 8192 row.lastError

def JobRow.check (row : JobRow) : Bool :=
  row.toBody.check && decide (0 ≤ row.attempts) && decide (0 ≤ row.leaseGeneration) &&
  row.leaseCheck && row.errorCheck

def FailedRow.check (row : FailedRow) : Bool :=
  row.toBody.check && decide (0 ≤ row.attempts) &&
  textOk 1 64 row.failureKind && textOk 0 8192 row.failureMessage

structure JobRow.Sound (row : JobRow) : Prop where
  queue : validQueue row.queue = true
  name : validName row.name = true
  payload : row.payload.text.utf8ByteSize ≤ 262144
  maxAttempts : 1 ≤ row.maxAttempts ∧ row.maxAttempts ≤ 1000
  timeout : 1 ≤ row.timeoutMs ∧ row.timeoutMs ≤ 86400000
  backoffSize : 1 ≤ row.backoffMs.length ∧ row.backoffMs.length ≤ 1000
  backoff : ∀ ms ∈ row.backoffMs, 0 ≤ ms ∧ ms ≤ 2592000000
  dedupKey : optionalTextOk 1 256 row.dedupKey = true
  attempts : 0 ≤ row.attempts
  generation : 0 ≤ row.leaseGeneration

theorem check_sound {row : JobRow} (checked : row.check = true) : row.Sound := by
  simp only [JobRow.check, Body.check, Bool.and_eq_true, decide_eq_true_eq, List.all_eq_true] at checked
  obtain ⟨⟨⟨⟨⟨⟨⟨⟨⟨⟨⟨⟨queue, name⟩, payload⟩, _⟩, maxAttempts⟩, timeout⟩, size⟩, backoff⟩, key⟩, attempts⟩,
    generation⟩, _⟩, _⟩ := checked
  exact ⟨queue, name, payload, maxAttempts, timeout, size, backoff, key, attempts, generation⟩

-- goforge_jobs_active_dedup_idx covers the rows whose dedup_key is not null.
def jobsSchema : Schema JobRow Uuid (String × String × String) where
  key row := row.id
  index row := row.dedupKey.map (fun key => (row.queue, row.name, key))
  check := JobRow.check

def failedSchema : Schema FailedRow Uuid Unit where
  key row := row.id
  index _ := none
  check := FailedRow.check

structure Db where
  jobs : Table jobsSchema
  failed : Table failedSchema

def Db.empty : Db := ⟨Table.empty, Table.empty⟩

end Goforge.Job

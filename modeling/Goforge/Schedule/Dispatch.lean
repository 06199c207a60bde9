import Goforge.Job.Effects
import Goforge.Schedule.Materialize

set_option autoImplicit false

namespace Goforge.Schedule

open GoTime Sql Search

structure Occurrence where
  schedule : String
  scheduledAt : Int
  timeZone : String
deriving DecidableEq, Repr

def Definition.occurrence (definition : Definition) (t : Int) : Except Err Occurrence :=
  if isZero t || decide (t ≠ truncateMinute t) then
    .error (.message "schedule: occurrence must be a non-zero whole minute")
  else .ok ⟨definition.name, t, definition.timeZone⟩

inductive Built (P : Type) where
  | payload (value : P)
  | failed (err : Err)
  | panicked

-- The application's part of a definition: a payload factory, and the JSON
-- encoding of the payload type.
structure Factory (P : Type) where
  build : Occurrence → Built P
  marshal : P → Except Err String

structure Dispatcher where
  server : Job.Server
  store : Job.Store
  maxPayloadBytes : Nat
  positive : 0 < maxPayloadBytes

-- Cancellation before and after the factory runs, the generated id, a lost
-- connection during the insert, and the clock the insert reads.
structure Attempt where
  before : Option Err
  after : Option Err
  newID : Except Err Uuid
  fault : Option Err
  now : Nat

def dedupKey (name : String) : String := "goforge:schedule:" ++ name

def payloadTooLarge (jobName : String) (size limit : Nat) : Err :=
  .message ("job: payload too large: " ++ jobName ++ " is " ++ toString size ++ " bytes; limit is " ++
    toString limit)

def Definition.request (definition : Definition) (id : Uuid) (payload : String) : Job.EnqueueRequest where
  id := id.text
  queue := definition.queue
  name := definition.jobName
  payload := payload
  priority := 0
  delay := 0
  atTime := none
  maxAttempts := definition.policy.maxAttempts
  timeout := definition.policy.timeout
  backoff := definition.policy.backoff
  dedupKey := dedupKey definition.name

def Definition.prepare {P : Type} (definition : Definition) (dispatcher : Dispatcher) (factory : Factory P)
    (attempt : Attempt) (payload : P) : Except Err Job.EnqueueRequest :=
  if definition.jobName = "" then .error (.message "job: valid definition is required")
  else if Job.maxDedupKeyBytes < (dedupKey definition.name).utf8ByteSize then
    .error (.message "job: deduplication key must be between 1 and 256 bytes")
  else
    match factory.marshal payload with
    | .error err => .error (.wrap ("job: encode " ++ definition.jobName) err)
    | .ok encoded =>
      if dispatcher.maxPayloadBytes < encoded.utf8ByteSize then
        .error (payloadTooLarge definition.jobName encoded.utf8ByteSize dispatcher.maxPayloadBytes)
      else
        match attempt.newID with
        | .error err => .error (.wrap "job: generate id" err)
        | .ok id => .ok (definition.request id encoded)

def Definition.dispatch {P : Type} (definition : Definition) (dispatcher : Dispatcher) (factory : Factory P)
    (attempt : Attempt) (payload : P) (db : Full) : Except Err Job.DispatchResult × Full :=
  match definition.prepare dispatcher factory attempt payload with
  | .error err => (.error err, db)
  | .ok request =>
    let context := "job: dispatch " ++ definition.jobName
    match attempt.fault with
    | some err => (.error (.wrap context (.wrap "enqueue deduplicated" err)), db)
    | none =>
      match Job.enqueue dispatcher.server dispatcher.store attempt.now request db.queue with
      | (.error err, _) => (.error (.wrap context (.job err)), db)
      | (.ok result, queue) => (.ok result, { db with queue := queue })

-- The callback RunOnce hands to the store, around the definition's own
-- materialize.
def Definition.materialize {P : Type} (definition : Definition) (dispatcher : Dispatcher) (factory : Factory P)
    (attempt : Attempt) : Callback := fun scheduledAt db =>
  match definition.occurrence scheduledAt with
  | .error err => (.returned (.error err), db)
  | .ok occurrence =>
    match attempt.before with
    | some err => (.returned (.error err), db)
    | none =>
      match factory.build occurrence with
      | .panicked => (.panicked, db)
      | .failed err => (.returned (.error (.wrap ("schedule: build payload for " ++ definition.name) err)), db)
      | .payload payload =>
        match attempt.after with
        | some err => (.returned (.error err), db)
        | none =>
          let dispatched := definition.dispatch dispatcher factory attempt payload db
          (.returned dispatched.1, dispatched.2)

-- One definition, every minute, with everything around it working, for runs on
-- fixed inputs.
def sampleDefinition : Definition where
  name := "tick.v1"
  expression := "* * * * *"
  timeZone := "UTC"
  misfireGrace := 15 * minute
  jobName := "mail.v1"
  policy := ⟨"default", 3, minute, [second]⟩
  fingerprint := String.ofList (List.replicate 64 'a')
  next t := truncateMinute t + minute

def everyMinute : Set Int := { m | truncateMinute m = m }

theorem sample_successor : NextIn everyMinute zeroTime sampleDefinition.next := by
  refine ⟨?_, ?_, ?_, ?_⟩
  · intro t m member after
    simp only [everyMinute, Set.mem_ofPred_eq, sampleDefinition, truncateMinute, minute] at *
    omega
  · intro t m member after
    simp only [sampleDefinition, truncateMinute, minute]
    omega
  · intro t m member after
    simp only [everyMinute, Set.mem_ofPred_eq, sampleDefinition, truncateMinute, minute] at *
    omega
  · intro t none
    have member : truncateMinute t + minute ∈ everyMinute := by
      simp only [everyMinute, Set.mem_ofPred_eq, truncateMinute, minute]
      omega
    have beyond := none _ member
    simp only [truncateMinute, minute] at beyond
    omega

def quietSession (initialNow now : Nat) : Session :=
  ⟨none, ⟨none, none, none⟩, fun _ => none, fun _ => false, initialNow, now⟩

def Full.empty : Full := ⟨Job.Db.empty, Table.empty⟩

def sampleDispatcher : Dispatcher :=
  ⟨Job.sampleServer, Job.defaultStore, Job.defaultMaxPayloadBytes, Job.defaultStore.payloadPositive⟩

def sampleFactory : Factory Unit := ⟨fun _ => .payload (), fun _ => .ok "\x7b\x7d"⟩

def sampleAttempt (id : Uuid) : Attempt := ⟨none, none, .ok id, none, 0⟩

def sampleCallback (id : Uuid) : Callback :=
  sampleDefinition.materialize sampleDispatcher sampleFactory (sampleAttempt id)

section

variable {P : Type} (definition : Definition) (dispatcher : Dispatcher) (factory : Factory P) (attempt : Attempt)

theorem prepare_ok {payload : P} {request : Job.EnqueueRequest}
    (done : definition.prepare dispatcher factory attempt payload = .ok request) :
    ∃ id encoded, attempt.newID = .ok id ∧ request = definition.request id encoded := by
  unfold Definition.prepare at done
  split at done
  · cases done
  split at done
  · cases done
  split at done
  · cases done
  rename_i encoded _
  split at done
  · cases done
  split at done
  · cases done
  rename_i id generated
  exact ⟨id, encoded, generated, (Except.ok.inj done).symm⟩

inductive Enqueues (db : Full) : Job.DispatchResult → Full → Prop where
  | inserted (id : Uuid) (encoded : String) (payload : Jsonb) (jobs : Table Job.jobsSchema)
      (generated : attempt.newID = .ok id)
      (stored : db.queue.jobs.insert (Job.enqueueRow attempt.now (definition.request id encoded) id payload) =
        .ok jobs) :
      Enqueues db ⟨id.text, true⟩ { db with queue := { db.queue with jobs := jobs } }
  | held (id : Uuid) (holder : Job.JobRow) (generated : attempt.newID = .ok id)
      (taken : db.queue.jobs.holder (definition.queue, definition.jobName, dedupKey definition.name) = some holder) :
      Enqueues db ⟨holder.id.text, decide (holder.id.text = id.text)⟩ db

theorem dispatch_ok {payload : P} {db : Full} {result : Job.DispatchResult}
    (done : (definition.dispatch dispatcher factory attempt payload db).1 = .ok result) :
    Enqueues definition attempt db result (definition.dispatch dispatcher factory attempt payload db).2 := by
  unfold Definition.dispatch at done ⊢
  cases prepared : definition.prepare dispatcher factory attempt payload with
  | error err =>
    rw [prepared] at done
    cases done
  | ok request =>
    obtain ⟨id, encoded, generated, rfl⟩ := prepare_ok definition dispatcher factory attempt prepared
    rw [prepared] at done
    cases broken : attempt.fault with
    | some err =>
      rw [broken] at done
      cases done
    | none =>
      rw [broken] at done
      rcases Job.enqueue_cases dispatcher.server dispatcher.store attempt.now (definition.request id encoded) db.queue
        with ⟨err, failed⟩ | ⟨cast, payload, jobs, _, casts, _, stored, answer⟩ | ⟨holder, _, taken, answer⟩
      · simp only [failed] at done
        cases done
      · have same : cast = id := Option.some.inj (casts.symm.trans (cast_text id))
        subst same
        simp only [answer] at done ⊢
        cases done
        have whole : decide ((definition.request cast encoded).dedupKey = "" ∨
            cast.text = (definition.request cast encoded).id) = true := decide_eq_true (.inr rfl)
        rw [whole]
        exact .inserted cast encoded payload jobs generated stored
      · simp only [answer] at done ⊢
        cases done
        exact .held id holder generated taken

theorem callback_reaches {t : Int} {db : Full} {result : Job.DispatchResult}
    (done : (definition.materialize dispatcher factory attempt t db).1 = .returned (.ok result)) :
    ∃ payload, definition.occurrence t = .ok ⟨definition.name, t, definition.timeZone⟩ ∧ attempt.before = none ∧
      factory.build ⟨definition.name, t, definition.timeZone⟩ = .payload payload ∧ attempt.after = none ∧
      (definition.dispatch dispatcher factory attempt payload db).1 = .ok result ∧
      (definition.materialize dispatcher factory attempt t db).2 =
        (definition.dispatch dispatcher factory attempt payload db).2 := by
  unfold Definition.materialize at done ⊢
  cases named : definition.occurrence t with
  | error err =>
    rw [named] at done
    cases done
  | ok occurrence =>
    have shape : occurrence = ⟨definition.name, t, definition.timeZone⟩ := by
      unfold Definition.occurrence at named
      split at named
      · cases named
      · exact (Except.ok.inj named).symm
    subst shape
    rw [named] at done
    cases before : attempt.before with
    | some err =>
      rw [before] at done
      cases done
    | none =>
      rw [before] at done
      cases built : factory.build ⟨definition.name, t, definition.timeZone⟩ with
      | payload payload =>
        cases after : attempt.after with
        | some err =>
          simp only [built, after] at done
          cases done
        | none =>
          simp only [built, after, Dispatched.returned.injEq] at done
          exact ⟨payload, rfl, rfl, rfl, rfl, done, by simp only [built]⟩
      | _ =>
        simp only [built] at done
        cases done

theorem callback_ok {t : Int} {db : Full} {result : Job.DispatchResult}
    (done : (definition.materialize dispatcher factory attempt t db).1 = .returned (.ok result)) :
    Enqueues definition attempt db result (definition.materialize dispatcher factory attempt t db).2 := by
  obtain ⟨payload, _, _, _, _, dispatched, view⟩ := callback_reaches definition dispatcher factory attempt done
  rw [view]
  exact dispatch_ok definition dispatcher factory attempt dispatched

theorem dispatch_keeps {payload : P} (db : Full) :
    (definition.dispatch dispatcher factory attempt payload db).2.schedules = db.schedules := by
  unfold Definition.dispatch
  split
  · rfl
  split
  · rfl
  · split <;> rfl

def KeepsSchedules (callback : Callback) : Prop := ∀ t db, (callback t db).2.schedules = db.schedules

theorem callback_keeps : KeepsSchedules (definition.materialize dispatcher factory attempt) := by
  intro t db
  unfold Definition.materialize
  split
  · rfl
  split
  · rfl
  split
  · rfl
  · rfl
  · split
    · rfl
    · exact dispatch_keeps definition dispatcher factory attempt db

inductive Breaks (t : Int) (db : Full) : Prop where
  | occurrence (err : Err) (refused : definition.occurrence t = .error err)
  | cancelled (err : Err) (ended : attempt.before = some err ∨ attempt.after = some err)
  | factory (err : Err) (failed : factory.build ⟨definition.name, t, definition.timeZone⟩ = .failed err)
  | panicked (unwound : factory.build ⟨definition.name, t, definition.timeZone⟩ = .panicked)
  | prepare (payload : P) (err : Err)
      (built : factory.build ⟨definition.name, t, definition.timeZone⟩ = .payload payload)
      (refused : definition.prepare dispatcher factory attempt payload = .error err)
  | connection (err : Err) (lost : attempt.fault = some err)
  | enqueue (payload : P) (request : Job.EnqueueRequest) (err : Job.Err)
      (built : factory.build ⟨definition.name, t, definition.timeZone⟩ = .payload payload)
      (prepared : definition.prepare dispatcher factory attempt payload = .ok request)
      (refused : (Job.enqueue dispatcher.server dispatcher.store attempt.now request db.queue).1 = .error err)

theorem callback_breaks {t : Int} {db : Full} (result : Job.DispatchResult)
    (breaks : Breaks definition dispatcher factory attempt t db) :
    (definition.materialize dispatcher factory attempt t db).1 ≠ .returned (.ok result) := by
  intro answered
  obtain ⟨payload, named, before, built, after, done, _⟩ :=
    callback_reaches definition dispatcher factory attempt answered
  unfold Definition.dispatch at done
  cases breaks with
  | occurrence err refused => exact absurd (refused.symm.trans named) (fun same => nomatch same)
  | cancelled err ended =>
    rcases ended with early | late
    · exact absurd (early.symm.trans before) (Option.some_ne_none _)
    · exact absurd (late.symm.trans after) (Option.some_ne_none _)
  | factory err failed => exact absurd (failed.symm.trans built) (fun same => nomatch same)
  | panicked unwound => exact absurd (unwound.symm.trans built) (fun same => nomatch same)
  | prepare other err otherBuilt refused =>
    cases otherBuilt.symm.trans built
    rw [refused] at done
    cases done
  | connection err lost =>
    rw [lost] at done
    cases prepared : definition.prepare dispatcher factory attempt payload <;> rw [prepared] at done <;> cases done
  | enqueue other request err otherBuilt prepared refused =>
    cases otherBuilt.symm.trans built
    rw [prepared] at done
    cases lost : attempt.fault with
    | some broken =>
      rw [lost] at done
      cases done
    | none =>
      rw [lost] at done
      cases answer : Job.enqueue dispatcher.server dispatcher.store attempt.now request db.queue with
      | mk reply queue =>
        rw [answer] at refused
        cases refused
        simp only [answer] at done
        cases done

end

end Goforge.Schedule

import Goforge.Schedule.Dispatch
import Goforge.Schedule.Statements

set_option autoImplicit false

namespace Goforge.Schedule

open GoTime Sql Database

section

variable (session : Session) (definition : Definition) (callback : Callback) (db : Full)

structure Decides (stored : ScheduleRow) (view : Full) (decision : Decision) : Prop where
  loaded : loadRow session definition db = .ok (some stored, view)
  agrees : stored.matches definition = none
  clocked : session.fault .clock = none
  evaluated : evaluate definition stored session.now = .ok decision

def recorded (stored : ScheduleRow) (nextRunAt occurrence : Int) (result : Job.DispatchResult) (view : Full) :
    Except Err Full :=
  advance session stored nextRunAt session.now (if isZero occurrence then none else some occurrence)
    (some result.id) (outcomeOf result) view

inductive FailurePoint : Prop where
  | invalid (err : Err) (refused : validateDefinition definition = some err)
  | cancelled (err : Err) (ended : session.cancelled = some err)
  | begin (err : Err) (refused : session.faults.begin = some err)
  | load (err : Err) (broken : loadRow session definition db = .error err)
  | mismatch (stored : ScheduleRow) (view : Full) (err : Err)
      (loaded : loadRow session definition db = .ok (some stored, view))
        (differs : stored.matches definition = some err)
  | clock (stored : ScheduleRow) (view : Full) (err : Err)
      (loaded : loadRow session definition db = .ok (some stored, view)) (broken : session.fault .clock = some err)
  | search (stored : ScheduleRow) (view : Full) (err : Err)
      (loaded : loadRow session definition db = .ok (some stored, view))
      (broken : evaluate definition stored session.now = .error err)
  | skip (stored : ScheduleRow) (view : Full) (nextRunAt : Int) (err : Err)
      (decides : Decides session definition db stored view (.skip nextRunAt))
      (broken : advance session stored nextRunAt session.now none none .misfireSkipped view = .error err)
  | panicked (stored : ScheduleRow) (view : Full) (nextRunAt occurrence : Int)
      (decides : Decides session definition db stored view (.dispatch nextRunAt occurrence))
      (unwound : (callback occurrence view).1 = .panicked)
  | returned (stored : ScheduleRow) (view : Full) (nextRunAt occurrence : Int) (err : Err)
      (decides : Decides session definition db stored view (.dispatch nextRunAt occurrence))
      (failed : (callback occurrence view).1 = .returned (.error err))
  | invalidID (stored : ScheduleRow) (view : Full) (nextRunAt occurrence : Int) (result : Job.DispatchResult)
      (decides : Decides session definition db stored view (.dispatch nextRunAt occurrence))
      (succeeded : (callback occurrence view).1 = .returned (.ok result)) (bad : badJobID result.id = true)
  | advance (stored : ScheduleRow) (view : Full) (nextRunAt occurrence : Int) (result : Job.DispatchResult) (err : Err)
      (decides : Decides session definition db stored view (.dispatch nextRunAt occurrence))
      (succeeded : (callback occurrence view).1 = .returned (.ok result))
      (broken : recorded session stored nextRunAt occurrence result (callback occurrence view).2 = .error err)
  | commit (err : Err) (refused : session.faults.commit = some err)

inductive Completes : Result → Full → List Int → Prop where
  | contended (view : Full) (loaded : loadRow session definition db = .ok (none, view)) :
      Completes ⟨definition.name, .contended, zeroTime, ""⟩ view []
  | notDue (stored : ScheduleRow) (view : Full) (decides : Decides session definition db stored view .notDue) :
      Completes ⟨definition.name, .notDue, zeroTime, ""⟩ view []
  | skipped (stored : ScheduleRow) (view next : Full) (nextRunAt : Int)
      (decides : Decides session definition db stored view (.skip nextRunAt))
      (advanced : advance session stored nextRunAt session.now none none .misfireSkipped view = .ok next) :
      Completes ⟨definition.name, .misfireSkipped, zeroTime, ""⟩ next []
  | dispatched (stored : ScheduleRow) (view next : Full) (nextRunAt occurrence : Int) (result : Job.DispatchResult)
      (decides : Decides session definition db stored view (.dispatch nextRunAt occurrence))
      (succeeded : (callback occurrence view).1 = .returned (.ok result)) (good : badJobID result.id = false)
      (advanced : recorded session stored nextRunAt occurrence result (callback occurrence view).2 = .ok next) :
      Completes ⟨definition.name, outcomeOf result, occurrence, result.id⟩ next [occurrence]

def Ends (work : Work) : Prop :=
  match work.exit with
  | .done result => Completes session definition callback db result work.db work.dispatched
  | _ => FailurePoint session definition callback db

structure Settles (work : Work) : Prop where
  ends : Ends session definition callback db work
  calls : ∀ occurrence ∈ work.dispatched, ∃ stored view nextRunAt,
    Decides session definition db stored view (.dispatch nextRunAt occurrence)

variable {session definition db} {stored : ScheduleRow} {view : Full}

theorem dispatch_settles {nextRunAt occurrence : Int}
    (decides : Decides session definition db stored view (.dispatch nextRunAt occurrence)) :
    Settles session definition callback db
      (dispatchOccurrence session definition callback stored session.now nextRunAt occurrence view) := by
  have calls : ∀ other ∈ [occurrence], ∃ stored view nextRunAt,
      Decides session definition db stored view (.dispatch nextRunAt other) := by
    intro other called
    rw [List.mem_singleton.mp called]
    exact ⟨stored, view, nextRunAt, decides⟩
  rw [dispatchOccurrence]
  cases called : (callback occurrence view).1 with
  | panicked => exact ⟨.panicked stored view nextRunAt occurrence decides called, calls⟩
  | returned answer =>
    cases answer with
    | error err => exact ⟨.returned stored view nextRunAt occurrence err decides called, calls⟩
    | ok result =>
      cases bad : badJobID result.id with
      | true =>
        simp only [bad, if_true]
        exact ⟨.invalidID stored view nextRunAt occurrence result decides called bad, calls⟩
      | false =>
        simp only [bad, Bool.false_eq_true, if_false]
        cases advanced : recorded session stored nextRunAt occurrence result (callback occurrence view).2 with
        | error err =>
          simp only [recorded] at advanced
          simp only [advanced]
          exact ⟨.advance stored view nextRunAt occurrence result err decides called advanced, calls⟩
        | ok next =>
          simp only [recorded] at advanced
          simp only [advanced]
          exact ⟨.dispatched stored view next nextRunAt occurrence result decides called bad advanced, calls⟩

variable {decision : Decision}

theorem decided_settles (decides : Decides session definition db stored view decision) :
    Settles session definition callback db (evaluateStored session definition callback stored view) := by
  have reading : databaseClock session .clock session.now = .ok session.now := by rw [databaseClock, decides.clocked]
  rw [evaluateStored, decides.agrees, reading]
  simp only [decides.evaluated]
  cases decision with
  | notDue => exact ⟨.notDue stored view decides, fun _ none => nomatch none⟩
  | skip nextRunAt =>
    cases advanced : advance session stored nextRunAt session.now none none .misfireSkipped view with
    | error err =>
      simp only [advanced]
      exact ⟨.skip stored view nextRunAt err decides advanced, fun _ none => nomatch none⟩
    | ok next =>
      simp only [advanced]
      exact ⟨.skipped stored view next nextRunAt decides advanced, fun _ none => nomatch none⟩
  | dispatch nextRunAt occurrence =>
    exact dispatch_settles callback decides

theorem body_decided (decides : Decides session definition db stored view decision) :
    materializeBody session definition callback db =
      match decision with
      | .notDue => .decided definition .notDue view
      | .skip nextRunAt =>
        match advance session stored nextRunAt session.now none none .misfireSkipped view with
        | .error err => .failed err view
        | .ok next => .decided definition .misfireSkipped next
      | .dispatch nextRunAt occurrence =>
        dispatchOccurrence session definition callback stored session.now nextRunAt occurrence view := by
  have reading : databaseClock session .clock session.now = .ok session.now := by rw [databaseClock, decides.clocked]
  rw [materializeBody, decides.loaded]
  simp only [evaluateStored, decides.agrees, reading, decides.evaluated]
  cases decision <;> rfl

theorem stored_settles (loaded : loadRow session definition db = .ok (some stored, view)) :
    Settles session definition callback db (evaluateStored session definition callback stored view) := by
  cases agrees : stored.matches definition with
  | some err =>
    rw [evaluateStored, agrees]
    exact ⟨.mismatch stored view err loaded agrees, fun _ none => nomatch none⟩
  | none =>
    cases clocked : session.fault .clock with
    | some err =>
      rw [evaluateStored, agrees, databaseClock, clocked]
      exact ⟨.clock stored view err loaded clocked, fun _ none => nomatch none⟩
    | none =>
      cases evaluated : evaluate definition stored session.now with
      | error err =>
        rw [evaluateStored, agrees, databaseClock, clocked]
        simp only [evaluated]
        exact ⟨.search stored view err loaded evaluated, fun _ none => nomatch none⟩
      | ok decision => exact decided_settles callback ⟨loaded, agrees, clocked, evaluated⟩

variable (session definition db) in
theorem body_settles : Settles session definition callback db (materializeBody session definition callback db) := by
  cases loading : loadRow session definition db with
  | error err =>
    rw [materializeBody, loading]
    exact ⟨.load err loading, fun _ none => nomatch none⟩
  | ok pair =>
    obtain ⟨found, view⟩ := pair
    cases found with
    | none =>
      rw [materializeBody, loading]
      exact ⟨.contended view loading, fun _ none => nomatch none⟩
    | some stored =>
      rw [materializeBody, loading]
      exact stored_settles callback loading

theorem body_not_done {result : Result} (stops : FailurePoint session definition callback db)
    (valid : validateDefinition definition = none) (live : session.cancelled = none)
    (begun : session.faults.begin = none) (committed : session.faults.commit = none) :
    (materializeBody session definition callback db).exit ≠ .done result := by
  cases stops with
  | invalid err refused => exact absurd (refused.symm.trans valid) (Option.some_ne_none _)
  | cancelled err ended => exact absurd (ended.symm.trans live) (Option.some_ne_none _)
  | begin err refused => exact absurd (refused.symm.trans begun) (Option.some_ne_none _)
  | commit err refused => exact absurd (refused.symm.trans committed) (Option.some_ne_none _)
  | load err broken =>
    rw [materializeBody, broken]
    exact fun exit => nomatch exit
  | mismatch stored view err loaded differs =>
    rw [materializeBody, loaded]
    simp only [evaluateStored, differs]
    exact fun exit => nomatch exit
  | clock stored view err loaded broken =>
    rw [materializeBody, loaded]
    simp only [evaluateStored, databaseClock, broken]
    cases stored.matches definition <;> exact fun exit => nomatch exit
  | search stored view err loaded broken =>
    rw [materializeBody, loaded]
    simp only [evaluateStored, databaseClock]
    cases stored.matches definition with
    | some differs => exact fun exit => nomatch exit
    | none =>
      cases session.fault .clock with
      | some unread => exact fun exit => nomatch exit
      | none =>
        simp only [broken]
        exact fun exit => nomatch exit
  | skip stored view nextRunAt err decides broken =>
    rw [body_decided callback decides]
    simp only [broken]
    exact fun exit => nomatch exit
  | panicked stored view nextRunAt occurrence decides unwound =>
    rw [body_decided callback decides]
    simp only [dispatchOccurrence, unwound]
    exact fun exit => nomatch exit
  | returned stored view nextRunAt occurrence err decides failed =>
    rw [body_decided callback decides]
    simp only [dispatchOccurrence, failed]
    exact fun exit => nomatch exit
  | invalidID stored view nextRunAt occurrence answer decides succeeded bad =>
    rw [body_decided callback decides]
    simp only [dispatchOccurrence, succeeded, bad, if_true]
    exact fun exit => nomatch exit
  | advance stored view nextRunAt occurrence answer err decides succeeded broken =>
    rw [body_decided callback decides]
    simp only [recorded] at broken
    simp only [dispatchOccurrence, succeeded, broken]
    cases badJobID answer.id <;> exact fun exit => nomatch exit

theorem materialize_run (valid : validateDefinition definition = none) (live : session.cancelled = none) :
    materialize session definition (some callback) db =
      transaction session.faults (bodyOf session definition callback) db := by
  rw [materialize, valid, live]

variable (session definition db) in
theorem materialize_cases :
    (∃ result, (validateDefinition definition = none ∧ session.cancelled = none ∧ session.faults.begin = none ∧
        session.faults.commit = none) ∧
      (materialize session definition (some callback) db).1 = .ok result ∧
      Completes session definition callback db result (materialize session definition (some callback) db).2
        (dispatches session definition callback db)) ∨
    ((∀ result, (materialize session definition (some callback) db).1 ≠ .ok result) ∧
      (materialize session definition (some callback) db).2 = db ∧ FailurePoint session definition callback db) := by
  cases valid : validateDefinition definition with
  | some err =>
    rw [materialize, valid]
    exact .inr ⟨(fun _ answer => nomatch answer), rfl, .invalid err valid⟩
  | none =>
    cases live : session.cancelled with
    | some err =>
      rw [materialize, valid, live]
      exact .inr ⟨(fun _ answer => nomatch answer), rfl, .cancelled err live⟩
    | none =>
      rw [materialize_run callback valid live]
      have ends := (body_settles session definition callback db).ends
      rcases transaction_cases session.faults (bodyOf session definition callback) db with
        ⟨result, begun, committed, exit, done⟩ | ⟨broken, same⟩
      · have ended : (materializeBody session definition callback db).exit = .done result := exit
        rw [Ends, ended] at ends
        refine .inl ⟨result, ⟨rfl, rfl, begun, committed⟩, congrArg Prod.fst done, ?_⟩
        rw [done, dispatches, valid, live, begun]
        exact ends
      · refine .inr ⟨broken, same, ?_⟩
        cases begun : session.faults.begin with
        | some err => exact .begin err begun
        | none =>
          cases committed : session.faults.commit with
          | some err => exact .commit err committed
          | none =>
            cases exit : (materializeBody session definition callback db).exit with
            | done result =>
              refine absurd ?_ (broken result)
              simp only [transaction, begun, bodyOf, exit, committed]
            | _ =>
              rw [Ends, exit] at ends
              exact ends

end

structure Recorded (definition : Definition) (result : Result) (nextRunAt : Int) (now : Nat) (row : ScheduleRow)
    (after : Full) : Prop where
  found : after.schedules.find definition.name = some row
  cursor : row.nextRunAt = nextRunAt
  evaluated : row.lastEvaluatedAt = some (now : Int)
  occurrence : row.lastOccurrenceAt = some result.scheduledAt
  jobID : row.lastJobID = some result.jobID
  outcome : row.lastOutcome = some result.outcome

def Result.dispatched (result : Result) : Bool :=
  decide (result.outcome = .enqueued ∨ result.outcome = .overlapSuppressed)

theorem recorded_row {session : Session} {definition : Definition} {stored : ScheduleRow} {nextRunAt occurrence : Int}
    {result : Job.DispatchResult} {view after : Full} (named : stored.name = definition.name)
    (advanced : recorded session stored nextRunAt occurrence result view = .ok after) :
    ∃ row, Recorded definition ⟨definition.name, outcomeOf result, occurrence, result.id⟩ nextRunAt session.now
      row after := by
  obtain ⟨old, _, _, _, lookup⟩ := advance_ok advanced
  have found := lookup definition.name
  rw [if_pos named.symm] at found
  refine ⟨_, found, rfl, rfl, ?_, rfl, rfl⟩
  have checked := find_checked found
  simp only [schedulesSchema, ScheduleRow.check, Bool.and_eq_true] at checked
  have present := checked.2
  simp only [advancedRow, ScheduleRow.outcomeCheck] at present ⊢
  cases zero : isZero occurrence with
  | false => rfl
  | true =>
    rw [zero] at present
    cases enqueued : result.enqueued <;> simp [outcomeOf, enqueued] at present

theorem loaded_name {session : Session} {definition : Definition} {db view : Full} {stored : ScheduleRow}
    (loaded : loadRow session definition db = .ok (some stored, view)) :
    stored.name = definition.name ∧ view.queue = db.queue := by
  rcases load_cases loaded with ⟨same, row, found, only⟩ | ⟨cursor, fresh, only⟩
  · rw [only stored rfl, same]
    exact ⟨find_key found, rfl⟩
  · rw [only stored rfl]
    exact ⟨rfl, fresh.queue⟩

structure Together (session : Session) (definition : Definition) (callback : Callback) (db after : Full)
    (result : Result) : Prop where
  visible : ∃ stored view nextRunAt row answer,
    Decides session definition db stored view (.dispatch nextRunAt result.scheduledAt) ∧ view.queue = db.queue ∧
    (callback result.scheduledAt view).1 = .returned (.ok answer) ∧ answer.id = result.jobID ∧
    outcomeOf answer = result.outcome ∧ after.queue = (callback result.scheduledAt view).2.queue ∧
    Recorded definition result nextRunAt session.now row after

theorem completes_together {session : Session} {definition : Definition} {callback : Callback} {db after : Full}
    {result : Result} {occurrences : List Int}
    (completes : Completes session definition callback db result after occurrences)
    (dispatched : result.dispatched = true) : Together session definition callback db after result := by
  cases completes with
  | dispatched stored view _ nextRunAt occurrence answer decides succeeded _ advanced =>
    obtain ⟨named, queue⟩ := loaded_name decides.loaded
    obtain ⟨row, record⟩ := recorded_row named advanced
    obtain ⟨_, _, _, kept, _⟩ := advance_ok advanced
    exact ⟨stored, view, nextRunAt, row, answer, decides, queue, succeeded, rfl, rfl, kept, record⟩
  | _ => exact absurd dispatched Bool.false_ne_true

def Inserted (before after : Job.Db) (jobID : String) : Prop :=
  ∃ id row, id.text = jobID ∧ before.jobs.find id = none ∧ after.jobs.find id = some row

def AlreadyHeld (before after : Job.Db) (jobID : String) : Prop :=
  after = before ∧ ∃ id row, id.text = jobID ∧ before.jobs.find id = some row

theorem together_job {P : Type} {session : Session} {definition : Definition} {dispatcher : Dispatcher}
    {factory : Factory P} {attempt : Attempt} {db after : Full} {result : Result}
    (together : Together session definition (definition.materialize dispatcher factory attempt) db after result) :
    (result.outcome = .enqueued ∧ Inserted db.queue after.queue result.jobID) ∨
      AlreadyHeld db.queue after.queue result.jobID := by
  obtain ⟨_, view, _, _, answer, _, queue, succeeded, jobID, outcome, kept, _⟩ := together.visible
  have enqueues := callback_ok definition dispatcher factory attempt succeeded
  generalize (definition.materialize dispatcher factory attempt result.scheduledAt view).2 = called at enqueues kept
  rw [kept, ← jobID, ← outcome, ← queue]
  cases enqueues with
  | inserted id encoded payload jobs generated stored =>
    obtain ⟨_, absent, _⟩ := insert_ok _ _ stored
    exact .inl ⟨rfl, id, _, rfl, absent, (insert_find _ _ _ stored id).trans (if_pos rfl)⟩
  | held id holder generated taken =>
    exact .inr ⟨rfl, holder.id, holder, rfl,
      find_mem ((holder_some_iff view.queue.jobs holder).mp taken).1⟩

theorem materialize_all_or_nothing {P : Type} (session : Session) (definition : Definition) (callback : Callback)
    (db : Full) (dispatcher : Dispatcher) (factory : Factory P) (attempt : Attempt) :
    (FailurePoint session definition callback db ↔
      ∀ result, (materialize session definition (some callback) db).1 ≠ .ok result) ∧
    (FailurePoint session definition callback db → (materialize session definition (some callback) db).2 = db) ∧
    (∀ stored view err, loadRow session definition db = .ok (some stored, view) →
      stored.matches definition = some err → dispatches session definition callback db = []) ∧
    (∀ stored view nextRunAt occurrence, Decides session definition db stored view (.dispatch nextRunAt occurrence) →
      Breaks definition dispatcher factory attempt occurrence view →
      FailurePoint session definition (definition.materialize dispatcher factory attempt) db) ∧
    (∀ result, (materialize session definition (some callback) db).1 = .ok result → result.dispatched = true →
      Together session definition callback db (materialize session definition (some callback) db).2 result) ∧
    (∀ result after, Together session definition (definition.materialize dispatcher factory attempt) db after result →
      (result.outcome = .enqueued ∧ Inserted db.queue after.queue result.jobID) ∨
        AlreadyHeld db.queue after.queue result.jobID) := by
  have excludes : ∀ result, FailurePoint session definition callback db →
      (materialize session definition (some callback) db).1 ≠ .ok result := by
    intro result stops done
    rcases materialize_cases session definition callback db with
      ⟨_, ⟨valid, live, begun, committed⟩, _, _⟩ | ⟨broken, _, _⟩
    · rw [materialize_run callback valid live] at done
      rcases transaction_cases session.faults (bodyOf session definition callback) db with
        ⟨other, _, _, exit, _⟩ | ⟨never, _⟩
      · exact body_not_done callback stops valid live begun committed exit
      · exact never result done
    · exact broken result done
  refine ⟨⟨fun stops result => excludes result stops, ?_⟩, ?_, ?_, ?_, ?_, ?_⟩
  · intro broken
    rcases materialize_cases session definition callback db with ⟨result, _, done, _⟩ | ⟨_, _, stops⟩
    · exact absurd done (broken result)
    · exact stops
  · intro stops
    rcases materialize_cases session definition callback db with ⟨result, _, done, _⟩ | ⟨_, same, _⟩
    · exact absurd done (excludes result stops)
    · exact same
  · intro stored view err loaded differs
    have body : (materializeBody session definition callback db).dispatched = [] := by
      rw [materializeBody, loaded]
      simp only [evaluateStored, differs]
      rfl
    unfold dispatches
    split
    · exact body
    · rfl
  · intro stored view nextRunAt occurrence decides breaks
    cases called : (definition.materialize dispatcher factory attempt occurrence view).1 with
    | panicked => exact .panicked stored view nextRunAt occurrence decides called
    | returned answer =>
      cases answer with
      | error err => exact .returned stored view nextRunAt occurrence err decides called
      | ok result =>
        exact absurd called (callback_breaks definition dispatcher factory attempt result breaks)
  · intro result done dispatched
    rcases materialize_cases session definition callback db with ⟨other, _, answer, completes⟩ | ⟨broken, _, _⟩
    · cases answer.symm.trans done
      exact completes_together completes dispatched
    · exact absurd done (broken result)
  · intro result after together
    exact together_job together

theorem materialize_all_or_nothing_sample :
    let answer := materialize (quietSession 90000000000 90000000001) sampleDefinition
      (some (sampleCallback Job.sampleId)) Full.empty
    let lost := { quietSession 90000000000 90000000001 with faults := ⟨none, some (.message "connection lost"), none⟩ }
    answer.1 = .ok ⟨"tick.v1", .enqueued, minute, Job.sampleId.text⟩ ∧
    Together (quietSession 90000000000 90000000001) sampleDefinition (sampleCallback Job.sampleId) Full.empty answer.2
      ⟨"tick.v1", .enqueued, minute, Job.sampleId.text⟩ ∧
    (materialize lost sampleDefinition (some (sampleCallback Job.sampleId)) Full.empty).2 = Full.empty := by
  intro answer lost
  have done : answer.1 = .ok ⟨"tick.v1", .enqueued, minute, Job.sampleId.text⟩ := by decide +kernel
  have whole := materialize_all_or_nothing (quietSession 90000000000 90000000001) sampleDefinition
    (sampleCallback Job.sampleId) Full.empty
    sampleDispatcher sampleFactory (sampleAttempt Job.sampleId)
  have failing := materialize_all_or_nothing lost sampleDefinition
    (sampleCallback Job.sampleId) Full.empty sampleDispatcher sampleFactory
    (sampleAttempt Job.sampleId)
  exact ⟨done, whole.2.2.2.2.1 _ done (by decide), failing.2.1 (.commit _ rfl)⟩

end Goforge.Schedule

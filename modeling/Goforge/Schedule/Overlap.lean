import Goforge.Job.Cell
import Goforge.Lib.Machine
import Goforge.Schedule.Atomicity

set_option autoImplicit false

namespace Goforge.Schedule

open GoTime Sql Machine

-- The tables, the ids that were ever enqueued, and the schedule each job was
-- dispatched by.
structure Active where
  db : Full
  entered : Uuid → Bool
  origin : Uuid → Option String

inductive Event where
  | call (now : Nat) (call : Job.Call)
  | poll (session : Session) (definition : Definition) (attempt : Attempt) (callback : Callback)

def Active.start : Active := ⟨Full.empty, fun _ => false, fun _ => none⟩

def Active.call (pg : Job.Server) (store : Job.Store) (w : Active) (now : Nat) (call : Job.Call) : Active :=
  let done := Job.exec pg store now w.db.queue call
  ⟨{ w.db with queue := done.2 }, fun id => w.entered id || Job.enters id call done.1, w.origin⟩

def dispatchedBetween (before after : Full) (id : Uuid) : Bool :=
  (before.queue.jobs.find id).isNone && (after.queue.jobs.find id).isSome

def Active.poll (w : Active) (session : Session) (definition : Definition) (callback : Callback) : Active :=
  let after := (materialize session definition (some callback) w.db).2
  ⟨after, fun id => w.entered id || dispatchedBetween w.db after id,
    fun id => if dispatchedBetween w.db after id then some definition.name else w.origin id⟩

def Active.fresh (w : Active) : Job.Call → Prop
  | .enqueue request => ∃ id, request.id = id.text ∧ w.entered id = false
  | _ => True

-- Calls of dispatchers, workers and operators, interleaved with the commits of
-- any number of schedulers, over any definitions and payload factories.
def active (pg : Job.Server) (store : Job.Store) : System Active Event where
  start w := w = Active.start
  step
    | w, .call now call, w' => w.fresh call ∧ w' = w.call pg store now call
    | w, .poll session definition attempt callback, w' =>
      (∃ (P : Type) (dispatcher : Dispatcher) (factory : Factory P),
        callback = definition.materialize dispatcher factory attempt) ∧
      (∀ id, attempt.newID = .ok id → w.entered id = false) ∧ w' = w.poll session definition callback

structure Keyed (row : ScheduleRow) (body : Job.Body) : Prop where
  queue : body.queue = row.queue
  name : body.name = row.jobName
  key : body.dedupKey = some (dedupKey row.name)

structure Owned (w : Active) (id : Uuid) (row : ScheduleRow) : Prop where
  entered : w.entered id = true
  job : ∀ job, w.db.queue.jobs.find id = some job → Keyed row job.toBody
  failed : ∀ job, w.db.queue.failed.find id = some job → Keyed row job.toBody

structure Pinned (w : Active) : Prop where
  jobs : ∀ id row, w.db.queue.jobs.find id = some row → w.entered id = true
  failed : ∀ id row, w.db.queue.failed.find id = some row → w.entered id = true
  owned : ∀ id name, w.origin id = some name → ∃ row, w.db.schedules.find name = some row ∧ Owned w id row

theorem start_pinned : Pinned Active.start :=
  ⟨(fun _ _ found => nomatch found), (fun _ _ found => nomatch found), (fun _ _ found => nomatch found)⟩

variable {w : Active}

theorem enters_fresh {call : Job.Call} {reply : Job.Reply} {id : Uuid} (fresh : w.fresh call)
    (entering : Job.enters id call reply = true) : w.entered id = false := by
  unfold Job.enters at entering
  split at entering
  · rename_i request result
    obtain ⟨asked, same, free⟩ := fresh
    have cast := (of_decide_eq_true entering).1
    rw [same, cast_text] at cast
    rw [← Option.some.inj cast]
    exact free
  · cases entering

theorem call_pinned (pg : Job.Server) (store : Job.Store) (now : Nat) {call : Job.Call} (pinned : Pinned w)
    (fresh : w.fresh call) : Pinned (w.call pg store now call) := by
  have effect := fun id => Job.exec_cell pg store now id w.db.queue call
  have known : ∀ id, (∀ row : Job.JobRow, ((w.call pg store now call).db.queue.cell id).job = some row →
        (w.call pg store now call).entered id = true) ∧
      ∀ row : Job.FailedRow, ((w.call pg store now call).db.queue.cell id).failed = some row →
        (w.call pg store now call).entered id = true := by
    intro id
    refine Job.cell_bodies (effect id) (fun _ => (w.call pg store now call).entered id = true) ?_ ?_ ?_
    · intro request payload _ entering _ _
      exact Bool.or_eq_true_iff.mpr (.inr entering)
    · intro row found
      exact Bool.or_eq_true_iff.mpr (.inl (pinned.jobs id row found))
    · intro row found
      exact Bool.or_eq_true_iff.mpr (.inl (pinned.failed id row found))
  refine ⟨fun id row found => (known id).1 row found, fun id row found => (known id).2 row found, ?_⟩
  intro id name origin
  obtain ⟨row, found, owned⟩ := pinned.owned id name origin
  have bodies := Job.cell_bodies (effect id) (Keyed row) (by
    intro request payload _ entering _ _
    have free := enters_fresh fresh entering
    rw [owned.entered] at free
    cases free) owned.job owned.failed
  exact ⟨row, found, Bool.or_eq_true_iff.mpr (.inl owned.entered), bodies.1, bodies.2⟩

theorem matches_columns {stored : ScheduleRow} {definition : Definition} (agrees : stored.matches definition = none) :
    stored.queue = definition.queue ∧ stored.jobName = definition.jobName := by
  unfold ScheduleRow.matches at agrees
  split at agrees
  · cases agrees
  rename_i same
  simp only [not_or, not_not] at same
  exact ⟨same.2.2.2.2.1, same.2.2.2.1⟩

theorem dedup_key_nonempty (name : String) : dedupKey name ≠ "" := by
  intro empty
  have chars : (dedupKey name).toList = "".toList := congrArg String.toList empty
  unfold dedupKey at chars
  rw [String.toList_append] at chars
  exact absurd (List.append_eq_nil_iff.mp chars).1 (by decide +kernel)

theorem request_key (definition : Definition) (id : Uuid) (encoded : String) (payload : Jsonb) (now : Nat) :
    (Job.enqueueRow now (definition.request id encoded) id payload).dedupKey = some (dedupKey definition.name) := by
  simp only [Job.enqueueRow, Definition.request, dedup_key_nonempty, if_false]

structure SameTarget (before after : ScheduleRow) : Prop where
  name : after.name = before.name
  queue : after.queue = before.queue
  jobName : after.jobName = before.jobName

theorem keyed_target {row row' : ScheduleRow} {body : Job.Body} (target : SameTarget row row')
    (keyed : Keyed row body) : Keyed row' body :=
  ⟨keyed.queue.trans target.queue.symm, keyed.name.trans target.jobName.symm, by rw [target.name]; exact keyed.key⟩

section

variable {P : Type} {session : Session} {definition : Definition} {dispatcher : Dispatcher} {factory : Factory P}
  {attempt : Attempt} {db after : Full}

theorem loaded_target {found : Option ScheduleRow} {view : Full}
    (loaded : loadRow session definition db = .ok (found, view))
    {name : String} {row : ScheduleRow} (present : db.schedules.find name = some row) :
    view.schedules.find name = some row := by
  obtain ⟨elsewhere, kept | ⟨_, absent, _⟩, _⟩ := load_find loaded
  · by_cases own : name = definition.name
    · rw [own, kept, ← own, present]
    · rw [elsewhere name own, present]
  · by_cases own : name = definition.name
    · rw [own, absent] at present
      cases present
    · rw [elsewhere name own, present]

theorem advanced_target {stored : ScheduleRow} {view called : Full} {nextRunAt : Int} {occurrence : Option Int}
    {jobID : Option String} {outcome : Outcome} (loaded : loadRow session definition db = .ok (some stored, view))
    (same : called.schedules = view.schedules)
    (advanced : advance session stored nextRunAt session.now occurrence jobID outcome called = .ok after) :
    (∃ row, after.schedules.find definition.name = some row ∧ SameTarget stored row) ∧
    ∀ name row, db.schedules.find name = some row → ∃ row', after.schedules.find name = some row' ∧
    SameTarget row row' := by
  have named := (loaded_name loaded).1
  have here := (load_find loaded).2.2 stored rfl
  obtain ⟨old, found, _, _, lookup⟩ := advance_ok advanced
  rw [named, same, here] at found
  cases found
  rw [named] at lookup
  refine ⟨⟨_, (lookup definition.name).trans (if_pos rfl), rfl, rfl, rfl⟩, ?_⟩
  intro name row present
  have seen := loaded_target loaded present
  by_cases own : name = definition.name
  · subst own
    cases here.symm.trans seen
    exact ⟨_, (lookup definition.name).trans (if_pos rfl), rfl, rfl, rfl⟩
  · refine ⟨row, ?_, rfl, rfl, rfl⟩
    rw [lookup name, if_neg own, same, seen]

theorem completes_target {callback : Callback} (keeps : KeepsSchedules callback) {result : Result}
    {occurrences : List Int}
    (completes : Completes session definition callback db result after occurrences) (name : String) (row : ScheduleRow)
    (present : db.schedules.find name = some row) :
    ∃ row', after.schedules.find name = some row' ∧ SameTarget row row' := by
  cases completes with
  | contended _ loaded => exact ⟨row, loaded_target loaded present, rfl, rfl, rfl⟩
  | notDue stored _ decides =>
    exact ⟨row, loaded_target decides.loaded present, rfl, rfl, rfl⟩
  | skipped stored view _ nextRunAt decides advanced =>
    exact (advanced_target decides.loaded rfl advanced).2
      name row present
  | dispatched stored view _ nextRunAt occurrence answer decides _ _ advanced =>
    exact (advanced_target decides.loaded
      (keeps occurrence view) advanced).2 name row present

theorem completes_queue {result : Result} {occurrences : List Int}
    (completes : Completes session definition (definition.materialize dispatcher factory attempt) db result after
      occurrences) :
    after.queue = db.queue ∨
    ∃ id encoded payload jobs row, attempt.newID = .ok id ∧
      db.queue.jobs.insert (Job.enqueueRow attempt.now (definition.request id encoded) id payload) = .ok jobs ∧
      after.queue = { db.queue with jobs := jobs } ∧ after.schedules.find definition.name = some row ∧
      Keyed row (Job.enqueueRow attempt.now (definition.request id encoded) id payload).toBody := by
  cases completes with
  | contended _ loaded =>
    rcases load_cases loaded with ⟨rfl, _⟩ | ⟨_, fresh, _⟩
    · exact .inl rfl
    · exact .inl fresh.queue
  | notDue stored _ decides => exact .inl (loaded_name decides.loaded).2
  | skipped stored view _ nextRunAt decides advanced =>
    obtain ⟨_, _, _, queue, _⟩ := advance_ok advanced
    exact .inl (queue.trans (loaded_name decides.loaded).2)
  | dispatched stored view _ nextRunAt occurrence answer decides succeeded _ advanced =>
    obtain ⟨named, same⟩ := loaded_name decides.loaded
    obtain ⟨_, _, _, queue, _⟩ := advance_ok advanced
    obtain ⟨⟨row, found, target⟩, _⟩ := advanced_target
      decides.loaded (callback_keeps definition dispatcher factory attempt occurrence view) advanced
    have enqueues := callback_ok definition dispatcher factory attempt succeeded
    rw [queue]
    generalize (definition.materialize dispatcher factory attempt occurrence view).2 = called at enqueues
    cases enqueues with
    | held => exact .inl same
    | inserted id encoded payload jobs generated stored' =>
      rw [same] at stored'
      refine .inr ⟨id, encoded, payload, jobs, row, generated, stored', by rw [same], found, ?_⟩
      obtain ⟨ownQueue, ownJob⟩ := matches_columns decides.agrees
      refine ⟨(target.queue.trans ownQueue).symm, (target.jobName.trans ownJob).symm, ?_⟩
      rw [target.name, named]
      exact request_key definition id encoded payload attempt.now

end

theorem dispatched_same {before after : Full} (same : after.queue = before.queue) (id : Uuid) :
    dispatchedBetween before after id = false := by
  rw [dispatchedBetween, same]
  cases before.queue.jobs.find id <;> rfl

theorem poll_kept {session : Session} {definition : Definition} {callback : Callback} (pinned : Pinned w)
    (queue : (materialize session definition (some callback) w.db).2.queue = w.db.queue)
    (targets : ∀ name row, w.db.schedules.find name = some row →
      ∃ row', (materialize session definition (some callback) w.db).2.schedules.find name = some row' ∧
      SameTarget row row') :
    Pinned (w.poll session definition callback) := by
  have nothing := dispatched_same queue
  refine ⟨?_, ?_, ?_⟩
  · intro id row found
    simp only [Active.poll, queue] at found
    simp only [Active.poll, pinned.jobs id row found, Bool.true_or]
  · intro id row found
    simp only [Active.poll, queue] at found
    simp only [Active.poll, pinned.failed id row found, Bool.true_or]
  · intro id name origin
    simp only [Active.poll, nothing, Bool.false_eq_true, if_false] at origin
    obtain ⟨row, found, owned⟩ := pinned.owned id name origin
    obtain ⟨row', found', target⟩ := targets name row found
    refine ⟨row', found', ?_, ?_, ?_⟩
    · simp only [Active.poll, owned.entered, Bool.true_or]
    · intro job present
      simp only [Active.poll, queue] at present
      exact keyed_target target (owned.job job present)
    · intro job present
      simp only [Active.poll, queue] at present
      exact keyed_target target (owned.failed job present)

theorem poll_inserted {session : Session} {definition : Definition} {callback : Callback} (pinned : Pinned w)
    {job : Job.JobRow} {jobs : Table Job.jobsSchema} {row : ScheduleRow} (free : w.entered job.id = false)
    (stored : w.db.queue.jobs.insert job = .ok jobs)
    (queue : (materialize session definition (some callback) w.db).2.queue = { w.db.queue with jobs := jobs })
    (found : (materialize session definition (some callback) w.db).2.schedules.find definition.name = some row)
    (keyed : Keyed row job.toBody) (targets : ∀ name row, w.db.schedules.find name = some row →
      ∃ row', (materialize session definition (some callback) w.db).2.schedules.find name = some row' ∧
      SameTarget row row') :
    Pinned (w.poll session definition callback) := by
  have absent : w.db.queue.jobs.find job.id = none := (insert_ok _ _ stored).2.1
  have lookup : ∀ id, (materialize session definition (some callback) w.db).2.queue.jobs.find id =
      if job.id = id then some job else w.db.queue.jobs.find id := by
    intro id
    rw [queue]
    exact insert_find _ _ _ stored id
  have failed :
      (materialize session definition (some callback) w.db).2.queue.failed = w.db.queue.failed := by rw [queue]
  have dispatched : ∀ id, dispatchedBetween w.db (materialize session definition (some callback) w.db).2 id =
      decide (job.id = id) := by
    intro id
    rw [dispatchedBetween, lookup]
    by_cases own : job.id = id
    · rw [if_pos own, ← own, absent, decide_eq_true rfl]
      rfl
    · rw [if_neg own, decide_eq_false own]
      cases w.db.queue.jobs.find id <;> rfl
  refine ⟨?_, ?_, ?_⟩
  · intro id other present
    simp only [Active.poll, dispatched, Bool.or_eq_true, decide_eq_true_eq]
    by_cases own : job.id = id
    · exact .inr own
    · simp only [Active.poll, lookup, if_neg own] at present
      exact .inl (pinned.jobs id other present)
  · intro id other present
    simp only [Active.poll, failed] at present
    simp only [Active.poll, pinned.failed id other present, Bool.true_or]
  · intro id name origin
    simp only [Active.poll, dispatched, decide_eq_true_eq] at origin
    by_cases own : job.id = id
    · rw [if_pos own] at origin
      cases origin
      subst own
      refine ⟨row, found, ?_, ?_, ?_⟩
      · simp only [Active.poll, dispatched, decide_true, Bool.or_true]
      · intro other present
        simp only [Active.poll, lookup, if_pos] at present
        cases present
        exact keyed
      · intro other present
        simp only [Active.poll, failed] at present
        rw [pinned.failed job.id other present] at free
        cases free
    · rw [if_neg own] at origin
      obtain ⟨old, oldFound, owned⟩ := pinned.owned id name origin
      obtain ⟨row', found', target⟩ := targets name old oldFound
      refine ⟨row', found', ?_, ?_, ?_⟩
      · simp only [Active.poll, owned.entered, Bool.true_or]
      · intro other present
        simp only [Active.poll, lookup, if_neg own] at present
        exact keyed_target target (owned.job other present)
      · intro other present
        simp only [Active.poll, failed] at present
        exact keyed_target target (owned.failed other present)

theorem poll_pinned {P : Type} (session : Session) (definition : Definition) (dispatcher : Dispatcher)
    (factory : Factory P) {attempt : Attempt} (pinned : Pinned w)
    (fresh : ∀ id, attempt.newID = .ok id → w.entered id = false) :
    Pinned (w.poll session definition (definition.materialize dispatcher factory attempt)) := by
  rcases materialize_cases session definition (definition.materialize dispatcher factory attempt) w.db with
    ⟨result, _, _, completes⟩ | ⟨_, same, _⟩
  · have targets := completes_target (callback_keeps definition dispatcher factory attempt) completes
    rcases completes_queue completes with
      queue | ⟨id, encoded, payload, jobs, row, generated, stored, queue, found, keyed⟩
    · exact poll_kept pinned queue targets
    · exact poll_inserted pinned (fresh id generated) stored queue found keyed targets
  · refine poll_kept pinned (by rw [same]) ?_
    intro name row found
    exact ⟨row, by rw [same]; exact found, rfl, rfl, rfl⟩

theorem reach_pinned {pg : Job.Server} {store : Job.Store} (reached : Reach (active pg store) w) : Pinned w := by
  refine reach_invariant Pinned ?_ ?_ reached
  · intro start initial
    rw [initial]
    exact start_pinned
  · intro before event after pinned step
    cases event with
    | call now call =>
      obtain ⟨fresh, rfl⟩ := step
      exact call_pinned pg store now pinned fresh
    | poll session definition attempt callback =>
      obtain ⟨⟨P, dispatcher, factory, rfl⟩, fresh, rfl⟩ := step
      exact poll_pinned session definition dispatcher factory pinned fresh

structure Reports (request : Job.EnqueueRequest) (before after : Job.Db) (result : Job.DispatchResult) : Prop where
  inserted : result.enqueued = true ↔ ∃ row, after.jobs.rows = row :: before.jobs.rows
  held : result.enqueued = false → ∃ holder, holder ∈ before.jobs.rows ∧
    Job.jobsSchema.index holder = some (request.queue, request.name, request.dedupKey) ∧ result.id = holder.id.text ∧
    after = before

theorem enqueue_reports {pg : Job.Server} {store : Job.Store} (pinned : Pinned w) {now : Nat}
    {request : Job.EnqueueRequest} {id : Uuid} (canonical : request.id = id.text) (free : w.entered id = false)
    {result : Job.DispatchResult} (done : (Job.enqueue pg store now request w.db.queue).1 = .ok result) :
    Reports request w.db.queue (Job.enqueue pg store now request w.db.queue).2 result := by
  rcases Job.enqueue_cases pg store now request w.db.queue with
    ⟨err, failed⟩ | ⟨cast, payload, jobs, _, casts, _, stored, answer⟩ | ⟨holder, _, taken, answer⟩
  · rw [failed] at done
    cases done
  · rw [canonical, cast_text] at casts
    cases casts
    rw [answer] at done ⊢
    cases done
    have enqueued : decide (request.dedupKey = "" ∨ id.text = request.id) = true := decide_eq_true (.inr canonical.symm)
    refine ⟨⟨fun _ => ⟨_, (insert_ok _ _ stored).1⟩, fun _ => enqueued⟩, ?_⟩
    intro suppressed
    rw [enqueued] at suppressed
    cases suppressed
  · obtain ⟨member, indexed⟩ := (holder_some_iff w.db.queue.jobs holder).mp taken
    have apart : holder.id.text ≠ request.id := by
      intro same
      have own := text_injective (same.trans canonical)
      rw [← own, pinned.jobs holder.id holder (find_mem member)] at free
      cases free
    rw [answer] at done ⊢
    cases done
    refine ⟨⟨?_, ?_⟩, fun _ => ⟨holder, member, indexed, rfl, rfl⟩⟩
    · intro reported
      exact absurd (of_decide_eq_true reported) apart
    · rintro ⟨row, longer⟩
      have size := congrArg List.length longer
      rw [List.length_cons] at size
      exact absurd size (Nat.ne_of_lt (Nat.lt_succ_self _))

theorem deduplication_and_overlap (pg : Job.Server) (store : Job.Store) (w : Active)
    (reached : Reach (active pg store) w) :
    (∀ a ∈ w.db.queue.jobs.rows, ∀ b ∈ w.db.queue.jobs.rows, ∀ key, key ≠ "" → a.dedupKey = some key →
      b.dedupKey = some key → a.queue = b.queue → a.name = b.name → a = b) ∧
    (∀ now request id result, request.id = id.text → w.entered id = false → request.dedupKey ≠ "" →
      (Job.enqueue pg store now request w.db.queue).1 = .ok result →
      Reports request w.db.queue (Job.enqueue pg store now request w.db.queue).2 result) ∧
    ∀ name, ∀ a ∈ w.db.queue.jobs.rows, ∀ b ∈ w.db.queue.jobs.rows, w.origin a.id = some name →
      w.origin b.id = some name → a = b := by
  have pinned := reach_pinned reached
  refine ⟨?_, ?_, ?_⟩
  · intro a left b right key _ leftKey rightKey queue name
    refine index_unique (a.queue, a.name, key) left right ?_ ?_
    · simp only [Job.jobsSchema, leftKey, Option.map_some]
    · simp only [Job.jobsSchema, rightKey, Option.map_some, queue, name]
  · intro now request id result canonical free _ done
    exact enqueue_reports pinned canonical free done
  · intro name a left b right leftOrigin rightOrigin
    obtain ⟨row, found, leftOwned⟩ := pinned.owned a.id name leftOrigin
    obtain ⟨other, otherFound, rightOwned⟩ := pinned.owned b.id name rightOrigin
    cases found.symm.trans otherFound
    have leftKeyed := leftOwned.job a (find_mem left)
    have rightKeyed := rightOwned.job b (find_mem right)
    refine index_unique (row.queue, row.jobName, dedupKey row.name) left right ?_ ?_
    · simp only [Job.jobsSchema, leftKeyed.key, leftKeyed.queue, leftKeyed.name, Option.map_some]
    · simp only [Job.jobsSchema, rightKeyed.key, rightKeyed.queue, rightKeyed.name, Option.map_some]

theorem deduplication_and_overlap_sample :
    let w := Active.start.poll (quietSession 90000000000 90000000001) sampleDefinition (sampleCallback Job.sampleId)
    let request := sampleDefinition.request Job.secondId "\x7b\x7d"
    w.origin Job.sampleId = some "tick.v1" ∧
    Reports request w.db.queue (Job.enqueue Job.sampleServer Job.defaultStore 0 request w.db.queue).2
      ⟨Job.sampleId.text, false⟩ := by
  intro w request
  have reached : Reach (active Job.sampleServer Job.defaultStore) w :=
    .next Active.start w (.poll (quietSession 90000000000 90000000001) sampleDefinition (sampleAttempt Job.sampleId)
      (sampleCallback Job.sampleId)) (.start _ rfl) ⟨⟨Unit, sampleDispatcher, sampleFactory, rfl⟩, fun _ _ => rfl, rfl⟩
  obtain ⟨origin, free, done⟩ : w.origin Job.sampleId = some "tick.v1" ∧ w.entered Job.secondId = false ∧
      (Job.enqueue Job.sampleServer Job.defaultStore 0 request w.db.queue).1 = .ok ⟨Job.sampleId.text, false⟩ := by
    decide +kernel
  exact ⟨origin,
    (deduplication_and_overlap Job.sampleServer Job.defaultStore w reached).2.1 0 request Job.secondId _ rfl
    free (dedup_key_nonempty _) done⟩

end Goforge.Schedule

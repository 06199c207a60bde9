import Goforge.Job.Effects

set_option autoImplicit false

namespace Goforge.Job

open GoTime Sql

structure Cell where
  job : Option JobRow
  failed : Option FailedRow

def Db.cell (db : Db) (id : Uuid) : Cell := ⟨db.jobs.find id, db.failed.find id⟩

def Reply.isOwned : Reply → Bool
  | .owned result => result.1
  | _ => false

def Reply.deliveries (id : Uuid) : Reply → List Delivery
  | .claimed (.ok deliveries) => deliveries.filter (fun delivery => decide (delivery.id = id.text))
  | _ => []

def Reply.leases (id : Uuid) (reply : Reply) : List Lease :=
  (reply.deliveries id).map (fun delivery => delivery.lease)

def enters (id : Uuid) : Call → Reply → Bool
  | .enqueue request, .dispatched (.ok result) => decide (castUuid request.id = some id ∧ result.id = id.text)
  | _, _ => false

structure Quiet (id : Uuid) (cell : Cell) (call : Call) (reply : Reply) : Prop where
  owned : call.target = some id → reply.isOwned = false
  delivered : reply.deliveries id = []
  entered : enters id call reply = true → cell.job.isSome = true

inductive CellStep (pg : Server) (store : Store) (now : Nat) (id : Uuid) : Call → Reply → Cell → Cell → Prop where
  | idle (call : Call) (reply : Reply) (cell : Cell) (quiet : Quiet id cell call reply) :
      CellStep pg store now id call reply cell cell
  | inserted (request : EnqueueRequest) (payload : Jsonb) (enqueued : Bool) (failed : Option FailedRow)
      (accepted : enqueueInvalid store request = none) (requested : castUuid request.id = some id)
      (stored : pg.jsonb request.payload = some payload) :
      CellStep pg store now id (.enqueue request) (.dispatched (.ok ⟨id.text, enqueued⟩)) ⟨none, failed⟩
        ⟨some (enqueueRow now request id payload), failed⟩
  | leased (request : ClaimRequest) (locked : List Uuid) (result : Except Err (List Delivery)) (row : JobRow)
      (failed : Option FailedRow) (accepted : claimInvalid request = none)
      (due : claimable now request row = true)
      (returned : ∀ deliveries, result = .ok deliveries →
        validateDelivery store (scanDelivery request.workerID (leasedRow now request row)) = none ∧
        (Reply.claimed result).deliveries id = [scanDelivery request.workerID (leasedRow now request row)]) :
      CellStep pg store now id (.claim request locked) (.claimed result) ⟨some row, failed⟩
        ⟨some (leasedRow now request row), failed⟩
  | extended (lease : Lease) (duration : Int) (row : JobRow) (failed : Option FailedRow)
      (presented : castUuid lease.jobID = some id) (hit : owns now lease id row = true)
      (least : millisecond ≤ duration) :
      CellStep pg store now id (.heartbeat lease duration) (.owned (true, none)) ⟨some row, failed⟩
        ⟨some (extendedRow now duration row), failed⟩
  | acked (lease : Lease) (row : JobRow) (failed : Option FailedRow)
      (presented : castUuid lease.jobID = some id) (hit : owns now lease id row = true) :
      CellStep pg store now id (.ack lease) (.owned (true, none)) ⟨some row, failed⟩ ⟨none, failed⟩
  | retried (request : RetryRequest) (row : JobRow) (failed : Option FailedRow)
      (presented : castUuid request.lease.jobID = some id) (hit : owns now request.lease id row = true) :
      CellStep pg store now id (.retry request) (.owned (true, none)) ⟨some row, failed⟩
        ⟨some (retriedRow now request.delay request.errorKind
          (boundedSafeFailureMessage store request.errorKind request.error) row), failed⟩
  | released (lease : Lease) (row : JobRow) (failed : Option FailedRow)
      (presented : castUuid lease.jobID = some id) (hit : owns now lease id row = true) :
      CellStep pg store now id (.release lease) (.owned (true, none)) ⟨some row, failed⟩
        ⟨some (releasedRow now row), failed⟩
  | failed (request : FailureRequest) (row : JobRow)
      (presented : castUuid request.lease.jobID = some id) (hit : owns now request.lease id row = true) :
      CellStep pg store now id (.fail request) (.owned (true, none)) ⟨some row, none⟩
        ⟨none, some (failedRow now request.kind (boundedSafeFailureMessage store request.kind request.error) row)⟩
  | exhausted (queues names : List String) (limit : Int) (locked : List Uuid) (reply : Reply) (row : JobRow)
      (due : Job.exhausted now queues names row = true) (moved : ∃ jobs, reply = .exhausted (.ok jobs)) :
      CellStep pg store now id (.failExhausted queues names limit locked) reply ⟨some row, none⟩
        ⟨none, some (failedRow now "lease_exhausted" "lease expired after final attempt" row)⟩
  | restored (text : String) (row : FailedRow) (named : castUuid text = some id) :
      CellStep pg store now id (.retryFailed text) (.owned (true, none)) ⟨none, some row⟩
        ⟨some (restoredRow now row), none⟩
  | forgotten (text : String) (row : FailedRow) (job : Option JobRow) (named : castUuid text = some id) :
      CellStep pg store now id (.forgetFailed text) (.owned (true, none)) ⟨job, some row⟩ ⟨job, none⟩

section

variable (pg : Server) (store : Store) (now : Nat) (id : Uuid) (db : Db)

abbrev ExecCell (call : Call) : Prop :=
  CellStep pg store now id call (exec pg store now db call).1 (db.cell id) ((exec pg store now db call).2.cell id)

variable {pg store now id db} {call : Call}

theorem quiet_owned {result : Owned} {cell : Cell} (notEnqueue : ∀ request, call ≠ .enqueue request)
    (silent : call.target = some id → result.1 = false) : Quiet id cell call (.owned result) where
  owned := silent
  delivered := rfl
  entered := by
    cases call with
    | enqueue request => exact absurd rfl (notEnqueue request)
    | _ => exact nofun

variable {lease : Lease}

theorem fenced_cell (result : JobRow → Option JobRow) {outcome : Owned × Db}
    (notEnqueue : ∀ request, call ≠ .enqueue request) (target : call.target = castUuid lease.jobID)
    (cases : (outcome.1.1 = false ∧ outcome.2 = db) ∨
      ∃ id row jobs, castUuid lease.jobID = some id ∧ db.jobs.find id = some row ∧ owns now lease id row = true ∧
        outcome = ((true, none), { db with jobs := jobs }) ∧
        ∀ other, jobs.find other = if other = id then result row else db.jobs.find other)
    (effect : ∀ row, castUuid lease.jobID = some id → owns now lease id row = true →
      CellStep pg store now id call (.owned (true, none)) ⟨some row, db.failed.find id⟩
        ⟨result row, db.failed.find id⟩) :
    CellStep pg store now id call (.owned outcome.1) (db.cell id) (outcome.2.cell id) := by
  rcases cases with ⟨silent, same⟩ | ⟨owner, row, jobs, cast, found, hit, rfl, lookup⟩
  · rw [same]
    exact .idle _ _ _ (quiet_owned notEnqueue (fun _ => silent))
  · by_cases here : id = owner
    · subst here
      simpa only [Db.cell, found, lookup, if_pos] using effect row cast hit
    · have kept : ({ db with jobs := jobs } : Db).cell id = db.cell id := by
        simp only [Db.cell, lookup, if_neg here]
      rw [kept]
      refine .idle _ _ _ (quiet_owned notEnqueue ?_)
      intro same
      rw [target, cast] at same
      exact absurd (Option.some.inj same).symm here

theorem enqueue_cell (request : EnqueueRequest) : ExecCell pg store now id db (.enqueue request) := by
  have quiet : ∀ reply cell, (enters id (.enqueue request) (.dispatched reply) = true → cell.job.isSome = true) →
      Quiet id cell (.enqueue request) (.dispatched reply) := fun reply cell entered => ⟨fun _ => rfl, rfl, entered⟩
  dsimp only [ExecCell, exec]
  rcases enqueue_cases pg store now request db with
    ⟨err, done⟩ | ⟨fresh, payload, jobs, accepted, requested, stored, inserted, done⟩ | ⟨holder, _, held, done⟩
  · rw [done]
    exact .idle _ _ _ (quiet _ _ nofun)
  · rw [done]
    have absent : db.jobs.find fresh = none := (insert_ok _ _ inserted).2.1
    have lookup := insert_find _ _ _ inserted
    by_cases here : fresh = id
    · subst here
      have after : jobs.find fresh = some (enqueueRow now request fresh payload) := by
        rw [lookup fresh]
        exact if_pos rfl
      simp only [Db.cell, absent, after]
      exact .inserted request payload _ _ accepted requested stored
    · have kept : ({ db with jobs := jobs } : Db).cell id = db.cell id := by
        simp only [Db.cell, lookup id]
        rw [if_neg]
        exact here
      rw [kept]
      refine .idle _ _ _ (quiet _ _ ?_)
      intro entered
      have asked := (of_decide_eq_true entered).1
      exact absurd (Option.some.inj (requested.symm.trans asked)) here
  · rw [done]
    refine .idle _ _ _ (quiet _ _ ?_)
    intro entered
    have same : holder.id = id := text_injective (of_decide_eq_true entered).2
    have member := ((holder_some_iff _ _).mp held).1
    have found : db.jobs.find holder.id = some holder := find_mem member
    rw [Db.cell, ← same, found]
    rfl

theorem batch_deliveries (id : Uuid) {request : ClaimRequest} {locked : List Uuid} {jobs : Table jobsSchema}
    {rows : List JobRow} (done : claimStatement now request locked db = .ok (jobs, rows)) :
    (rows.map (scanDelivery request.workerID)).filter (fun delivery => decide (delivery.id = id.text)) =
      (((db.jobs.find id).filter
        (fun row => decide (row.id ∈ claimCandidates now request locked db.jobs.rows))).toList).map
        (fun row => scanDelivery request.workerID (leasedRow now request row)) := by
  have pinned := filter_pinned db.jobs (fun row => decide (row.id.text = id.text) &&
      decide (row.id ∈ claimCandidates now request locked db.jobs.rows)) (by
    intro row hit
    rw [Bool.and_eq_true, decide_eq_true_eq] at hit
    exact text_injective hit.1)
  rw [(claim_statement_ok done).1, List.map_map, List.filter_map, List.filter_filter]
  refine (congrArg (List.map _) pinned).trans ?_
  cases found : db.jobs.find id with
  | none => rfl
  | some row =>
    have key : row.id = id := find_key found
    simp only [Option.filter_some, key, decide_true, Bool.true_and]
    rfl

theorem claim_cell (request : ClaimRequest) (locked : List Uuid) :
    ExecCell pg store now id db (.claim request locked) := by
  have quiet : ∀ result cell, (Reply.claimed result).deliveries id = [] →
      Quiet id cell (.claim request locked) (.claimed result) := fun result cell silent =>
    ⟨fun _ => rfl, silent, nofun⟩
  dsimp only [ExecCell, exec]
  rcases claim_cases store now request locked db with ⟨err, done⟩ | ⟨jobs, rows, accepted, statement, done⟩
  · rw [done]
    exact .idle _ _ _ (quiet _ _ rfl)
  · rw [done]
    have batch := batch_deliveries id statement
    have lookup := (claim_statement_ok statement).2 id
    have scanned : ∀ deliveries, scanDeliveries store request.workerID rows = .ok deliveries →
        (Reply.claimed (.ok deliveries)).deliveries id =
          (rows.map (scanDelivery request.workerID)).filter (fun delivery => decide (delivery.id = id.text)) := by
      intro deliveries ok
      rw [(scan_deliveries_ok deliveries ok).1]
      rfl
    have silent : (rows.map (scanDelivery request.workerID)).filter
          (fun delivery => decide (delivery.id = id.text)) = [] →
        (Reply.claimed (scanDeliveries store request.workerID rows)).deliveries id = [] := by
      intro none
      cases result : scanDeliveries store request.workerID rows with
      | error err => rfl
      | ok deliveries => exact (scanned deliveries result).trans none
    cases found : db.jobs.find id with
    | none =>
      rw [found] at batch lookup
      simp only [Db.cell, found, lookup, Option.map_none]
      exact .idle _ _ _ (quiet _ _ (silent batch))
    | some row =>
      have key : row.id = id := find_key found
      rw [found] at batch lookup
      by_cases taken : row.id ∈ claimCandidates now request locked db.jobs.rows
      · rw [Option.map_some, if_pos taken] at lookup
        rw [Option.filter_some, if_pos (decide_eq_true taken)] at batch
        simp only [Db.cell, found, lookup]
        obtain ⟨other, member, same, due, _⟩ := candidate_claimable taken
        have sameRow : other = row :=
          Option.some.inj ((find_mem member).symm.trans ((congrArg _ (same.trans key)).trans found))
        refine .leased request locked _ row _ accepted (sameRow ▸ due) ?_
        intro deliveries ok
        rw [ok]
        refine ⟨(scan_deliveries_ok deliveries ok).2 (leasedRow now request row) ?_,
          (scanned deliveries ok).trans batch⟩
        rw [(claim_statement_ok statement).1]
        exact List.mem_map_of_mem
          (List.mem_filter.mpr ⟨((find_some_iff db.jobs id row).mp found).1, decide_eq_true taken⟩)
      · rw [Option.map_some, if_neg taken] at lookup
        rw [Option.filter_some, if_neg (by simpa using taken)] at batch
        simp only [Db.cell, found, lookup]
        exact .idle _ _ _ (quiet _ _ (silent batch))

theorem exhausted_candidate {queues names : List String} {limit : Int} {locked : List Uuid} {rows : List JobRow}
    {target : Uuid} (member : target ∈ exhaustedCandidates now queues names limit locked rows) :
    ∃ row ∈ rows, row.id = target ∧ Job.exhausted now queues names row = true := by
  obtain ⟨row, taken, rfl⟩ := List.mem_map.mp member
  have sorted := List.mem_of_mem_take taken
  rw [List.mem_insertionSort, List.mem_filter, Bool.and_eq_true] at sorted
  exact ⟨row, sorted.1, rfl, sorted.2.1⟩

theorem fail_exhausted_cell (queues names : List String) (limit : Int) (locked : List Uuid) :
    ExecCell pg store now id db (.failExhausted queues names limit locked) := by
  have quiet : ∀ result cell, Quiet id cell (.failExhausted queues names limit locked) (.exhausted result) :=
    fun result cell => ⟨fun _ => rfl, rfl, nofun⟩
  dsimp only [ExecCell, exec, failExhausted]
  split
  · exact .idle _ _ _ (quiet _ _)
  · split
    · split
      · exact .idle _ _ _ (quiet _ _)
      · rename_i next removed done
        rcases move_cases done id with ⟨row, found, hit, absent, gone, arrived⟩ | ⟨_, jobs, failed⟩
        · simp only [Db.cell, found, absent, gone, arrived]
          obtain ⟨other, member, same, due⟩ := exhausted_candidate (of_decide_eq_true hit)
          have key : row.id = id := find_key found
          have sameRow : other = row :=
            Option.some.inj ((find_mem member).symm.trans ((congrArg _ (same.trans key)).trans found))
          exact .exhausted queues names limit locked _ row (sameRow ▸ due) ⟨_, rfl⟩
        · simp only [Db.cell, jobs, failed]
          exact .idle _ _ _ (quiet _ _)
    · exact .idle _ _ _ (quiet _ _)

theorem heartbeat_cell (duration : Int) : ExecCell pg store now id db (.heartbeat lease duration) := by
  dsimp only [ExecCell, exec, heartbeat]
  split
  · exact .idle _ _ _ (quiet_owned (by rintro _ ⟨⟩) (fun _ => rfl))
  · rename_i valid
    refine fenced_cell (fun row => some (extendedRow now duration row)) (by rintro _ ⟨⟩) rfl
      (exec_fenced_cases [] (fun id => update_fences db)) ?_
    intro row presented hit
    exact .extended lease duration row _ presented hit (by omega)

theorem ack_cell : ExecCell pg store now id db (.ack lease) := by
  dsimp only [ExecCell, exec, ack]
  split
  · exact .idle _ _ _ (quiet_owned (by rintro _ ⟨⟩) (fun _ => rfl))
  · refine fenced_cell (fun _ => none) (by rintro _ ⟨⟩) rfl
      (exec_fenced_cases [] (fun id => delete_fences now lease db id)) ?_
    intro row presented hit
    exact .acked lease row _ presented hit

theorem retry_cell (request : RetryRequest) : ExecCell pg store now id db (.retry request) := by
  dsimp only [ExecCell, exec, retry]
  split
  · exact .idle _ _ _ (quiet_owned (by rintro _ ⟨⟩) (fun _ => rfl))
  · refine fenced_cell (fun row => some (retriedRow now request.delay request.errorKind
      (boundedSafeFailureMessage store request.errorKind request.error) row)) (by rintro _ ⟨⟩) rfl
      (exec_fenced_cases _ (fun id => update_fences db)) ?_
    intro row presented hit
    exact .retried request row _ presented hit

theorem release_cell : ExecCell pg store now id db (.release lease) := by
  dsimp only [ExecCell, exec, release]
  split
  · exact .idle _ _ _ (quiet_owned (by rintro _ ⟨⟩) (fun _ => rfl))
  · refine fenced_cell (fun row => some (releasedRow now row)) (by rintro _ ⟨⟩) rfl
      (exec_fenced_cases [] (fun id => update_fences db)) ?_
    intro row presented hit
    exact .released lease row _ presented hit

theorem named_cell {result : Owned} {next : Db} {owner : Uuid} (notEnqueue : ∀ request, call ≠ .enqueue request)
    (target : call.target = some owner) (jobs : ∀ other, other ≠ owner → next.jobs.find other = db.jobs.find other)
    (failed : ∀ other, other ≠ owner → next.failed.find other = db.failed.find other)
    (effect : CellStep pg store now owner call (.owned result) (db.cell owner) (next.cell owner)) :
    CellStep pg store now id call (.owned result) (db.cell id) (next.cell id) := by
  by_cases here : id = owner
  · subst here
    exact effect
  · have kept : next.cell id = db.cell id := by
      simp only [Db.cell, jobs id here, failed id here]
    rw [kept]
    refine .idle _ _ _ (quiet_owned notEnqueue ?_)
    intro same
    rw [target] at same
    exact absurd (Option.some.inj same).symm here

theorem fail_cell (request : FailureRequest) : ExecCell pg store now id db (.fail request) := by
  dsimp only [ExecCell, exec]
  rcases fail_cases store now request db with
    ⟨silent, same⟩ | ⟨owner, row, cast, found, hit, absent, answered, jobs, failed⟩
  · rw [same]
    exact .idle _ _ _ (quiet_owned (by rintro _ ⟨⟩) (fun _ => silent))
  · refine named_cell (by rintro _ ⟨⟩) cast ?_ ?_ ?_
    · intro other apart
      rw [jobs other, if_neg apart]
    · intro other apart
      rw [failed other, if_neg apart]
    · simp only [Db.cell, found, absent, jobs owner, failed owner, if_pos, answered]
      exact .failed request row cast hit

theorem retry_failed_cell (text : String) : ExecCell pg store now id db (.retryFailed text) := by
  dsimp only [ExecCell, exec]
  rcases retry_failed_cases now text db with
    ⟨silent, same⟩ | ⟨owner, row, cast, found, absent, answered, jobs, failed⟩
  · rw [same]
    exact .idle _ _ _ (quiet_owned (by rintro _ ⟨⟩) (fun _ => silent))
  · refine named_cell (by rintro _ ⟨⟩) cast ?_ ?_ ?_
    · intro other apart
      rw [jobs other, if_neg apart]
    · intro other apart
      rw [failed other, if_neg apart]
    · simp only [Db.cell, found, absent, jobs owner, failed owner, if_pos, answered]
      exact .restored text row cast

theorem forget_failed_cell (text : String) : ExecCell pg store now id db (.forgetFailed text) := by
  dsimp only [ExecCell, exec]
  rcases forget_failed_cases text db with
    ⟨silent, same⟩ | ⟨owner, row, cast, found, answered, jobs, failed⟩
  · rw [same]
    exact .idle _ _ _ (quiet_owned (by rintro _ ⟨⟩) (fun _ => silent))
  · refine named_cell (by rintro _ ⟨⟩) cast ?_ ?_ ?_
    · intro other _
      rw [jobs]
    · intro other apart
      rw [failed other, if_neg apart]
    · simp only [Db.cell, found, jobs, failed owner, if_pos, answered]
      exact .forgotten text row _ cast

theorem exec_cell (pg : Server) (store : Store) (now : Nat) (id : Uuid) (db : Db) (call : Call) :
    ExecCell pg store now id db call := by
  cases call with
  | enqueue request => exact enqueue_cell request
  | claim request locked => exact claim_cell request locked
  | heartbeat lease duration => exact heartbeat_cell duration
  | ack lease => exact ack_cell
  | retry request => exact retry_cell request
  | release lease => exact release_cell
  | fail request => exact fail_cell request
  | failExhausted queues names limit locked => exact fail_exhausted_cell queues names limit locked
  | retryFailed text => exact retry_failed_cell text
  | forgetFailed text => exact forget_failed_cell text

theorem fenced_exec (pg : Server) (store : Store) (now : Nat) (db : Db) (presents : call.lease = some lease) :
    ((exec pg store now db call).1.isOwned = false ∧ (exec pg store now db call).2 = db) ∨
    ∃ owner row, castUuid lease.jobID = some owner ∧ db.jobs.find owner = some row ∧
      owns now lease owner row = true := by
  have fenced : ∀ texts statement (result : JobRow → Option JobRow),
      (∀ id, Fences now lease db id result (statement id)) →
      ((execFenced lease texts db statement).1.1 = false ∧ (execFenced lease texts db statement).2 = db) ∨
      ∃ owner row, castUuid lease.jobID = some owner ∧ db.jobs.find owner = some row ∧
        owns now lease owner row = true := by
    intro texts statement result fences
    rcases exec_fenced_cases texts fences with
      silent | ⟨owner, row, _, cast, found, hit, _⟩
    · exact .inl silent
    · exact .inr ⟨owner, row, cast, found, hit⟩
  cases call with
  | heartbeat given duration =>
    cases presents
    dsimp only [exec, heartbeat]
    split
    · exact .inl ⟨rfl, rfl⟩
    · exact fenced _ _ (fun row => some (extendedRow now duration row)) (fun id => update_fences db)
  | ack given =>
    cases presents
    dsimp only [exec, ack]
    split
    · exact .inl ⟨rfl, rfl⟩
    · exact fenced _ _ _ (fun id => delete_fences now _ db id)
  | retry request =>
    cases presents
    dsimp only [exec, retry]
    split
    · exact .inl ⟨rfl, rfl⟩
    exact fenced _ _ (fun row => some (retriedRow now request.delay request.errorKind
      (boundedSafeFailureMessage store request.errorKind request.error) row)) (fun id => update_fences db)
  | release given =>
    cases presents
    dsimp only [exec, release]
    split
    · exact .inl ⟨rfl, rfl⟩
    · exact fenced _ _ (fun row => some (releasedRow now row)) (fun id => update_fences db)
  | fail request =>
    cases presents
    rcases fail_cases store now request db with silent | ⟨owner, row, cast, found, hit, _⟩
    · exact .inl silent
    · exact .inr ⟨owner, row, cast, found, hit⟩
  | _ => cases presents

end

theorem delivered_cell {pg : Server} {store : Store} {now : Nat} {id : Uuid} {call : Call} {reply : Reply}
    {before after : Cell} (effect : CellStep pg store now id call reply before after) {delivery : Delivery}
    (member : delivery ∈ reply.deliveries id) :
    ∃ request locked row, call = .claim request locked ∧ claimable now request row = true ∧
      before.job = some row ∧ after.job = some (leasedRow now request row) ∧
      delivery = scanDelivery request.workerID (leasedRow now request row) := by
  cases effect with
  | idle _ _ _ quiet =>
    rw [quiet.delivered] at member
    cases member
  | leased request locked result row failed accepted due returned =>
    cases result with
    | error err => cases member
    | ok deliveries =>
      rw [(returned deliveries rfl).2, List.mem_singleton] at member
      exact ⟨request, locked, row, rfl, due, rfl, rfl, member⟩
  | inserted => cases member
  | extended => cases member
  | acked => cases member
  | retried => cases member
  | released => cases member
  | failed => cases member
  | exhausted _ _ _ _ _ _ _ moved =>
    obtain ⟨jobs, rfl⟩ := moved
    cases member
  | _ => cases member

theorem world_cell (pg : Server) (store : Store) {w w' : World} {step : Step} (taken : (queue pg store).step w step w')
    (id : Uuid) :
    CellStep pg store step.now id step.call (w.entry pg store step).reply (w.db.cell id) (w'.db.cell id) := by
  rw [taken.2]
  exact exec_cell pg store step.now id w.db step.call

theorem cell_bodies {pg : Server} {store : Store} {now : Nat} {id : Uuid} {call : Call} {reply : Reply}
    {before after : Cell} (effect : CellStep pg store now id call reply before after) (prop : Body → Prop)
    (enqueued : ∀ request payload, call = .enqueue request → enters id call reply = true →
      enqueueInvalid store request = none → pg.jsonb request.payload = some payload →
      prop (enqueueRow now request id payload).toBody) (jobs : ∀ row, before.job = some row → prop row.toBody)
    (failed : ∀ row, before.failed = some row → prop row.toBody) :
    (∀ row, after.job = some row → prop row.toBody) ∧ ∀ row, after.failed = some row → prop row.toBody := by
  have job : ∀ new : JobRow, prop new.toBody → ∀ row, some new = some row → prop row.toBody := by
    intro new holds row found
    cases found
    exact holds
  have stale : ∀ new : FailedRow, prop new.toBody → ∀ row, some new = some row → prop row.toBody := by
    intro new holds row found
    cases found
    exact holds
  cases effect with
  | idle => exact ⟨jobs, failed⟩
  | inserted request payload answered old accepted requested stored =>
    exact ⟨job _ (enqueued request payload rfl (by simp [enters, requested]) accepted stored), failed⟩
  | leased request locked result row => exact ⟨job _ (jobs row rfl), failed⟩
  | extended lease duration row => exact ⟨job _ (jobs row rfl), failed⟩
  | retried request row => exact ⟨job _ (jobs row rfl), failed⟩
  | released lease row => exact ⟨job _ (jobs row rfl), failed⟩
  | acked lease row => exact ⟨(fun _ gone => nomatch gone), failed⟩
  | failed request row => exact ⟨(fun _ gone => nomatch gone), stale _ (jobs row rfl)⟩
  | exhausted queues names limit locked reply row => exact ⟨(fun _ gone => nomatch gone), stale _ (jobs row rfl)⟩
  | restored text row => exact ⟨job _ (failed row rfl), fun _ gone => nomatch gone⟩
  | forgotten text row held => exact ⟨jobs, fun _ gone => nomatch gone⟩

end Goforge.Job

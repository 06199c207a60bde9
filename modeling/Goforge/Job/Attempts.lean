import Goforge.Job.Delivery
import Goforge.Job.Fencing

set_option autoImplicit false

namespace Goforge.Job

open GoTime Sql Machine

-- serial is the number of the Claim in the run: two claims may hand out leases
-- that are equal as values.
structure Grant where
  serial : Nat
  worker : String
  generation : Int
  expires : Int

def Grant.isFor (grant : Grant) (lease : Lease) : Bool :=
  decide (grant.worker = lease.workerID ∧ grant.generation = lease.generation)

-- Grants are given by the claims that lease the row, extended by owned
-- heartbeats and handed back by the owned calls that end an attempt. Nothing
-- takes a grant away from a holder that has gone silent.
def grantsAfter (id : Uuid) (serial now : Nat) (call : Call) (reply : Reply) (before after : Cell)
    (held : List Grant) : List Grant :=
  match call with
  | .claim request _ =>
    match before.job, after.job with
    | some old, some new =>
      if old.leaseGeneration < new.leaseGeneration then
        ⟨serial, request.workerID, new.leaseGeneration, now + interval (milliseconds request.leaseDuration)⟩ :: held
      else held
    | _, _ => held
  | .heartbeat lease duration =>
    if decide (castUuid lease.jobID = some id) && reply.isOwned then
      held.map (fun grant =>
        if grant.isFor lease then { grant with expires := now + interval (milliseconds duration) } else grant)
    else held
  | call =>
    match call.lease with
    | some lease =>
      if decide (castUuid lease.jobID = some id) && reply.isOwned then held.filter (fun grant => !grant.isFor lease)
      else held
    | none => held

def grants (id : Uuid) : List Entry → List Grant
  | [] => []
  | entry :: rest =>
    grantsAfter id rest.length entry.now entry.call entry.reply (entry.before.cell id) (entry.after.cell id)
      (grants id rest)

-- The id is not restored or enqueued again while a grant is left that its holder
-- never handed back.
def keepsLeases (id : Uuid) : List Entry → Bool
  | [] => true
  | entry :: rest => (!restarts id entry.before entry.call || (grants id rest).isEmpty) && keepsLeases id rest

structure Exclusive (clock : Nat) (cell : Cell) (held : List Grant) : Prop where
  shape : ∀ row, cell.job = some row → row.leaseOwner ≠ none → row.leaseExpiresAt = some row.availableAt
  live : ∀ grant ∈ held, (clock : Int) < grant.expires → ∃ row, cell.job = some row ∧
    row.leaseOwner = some grant.worker ∧ row.leaseGeneration = grant.generation ∧
    row.leaseExpiresAt = some grant.expires

variable {call : Call} {reply : Reply} {pg : Server} {store : Store}

theorem quiet_grants {id : Uuid} (serial now : Nat) {cell : Cell} (held : List Grant)
    (quiet : Quiet id cell call reply) : grantsAfter id serial now call reply cell cell held = held := by
  have silent : ∀ lease : Lease, call.target = castUuid lease.jobID →
      (decide (castUuid lease.jobID = some id) && reply.isOwned) = false := by
    intro lease target
    by_cases named : castUuid lease.jobID = some id
    · rw [quiet.owned (target.trans named), Bool.and_false]
    · rw [decide_eq_false named, Bool.false_and]
  unfold grantsAfter
  cases call with
  | claim request locked =>
    cases job : cell.job with
    | none => rfl
    | some row => simp
  | heartbeat lease duration => simp [silent lease rfl]
  | ack lease => simp [Call.lease, silent lease rfl]
  | retry request => simp [Call.lease, silent request.lease rfl]
  | release lease => simp [Call.lease, silent lease rfl]
  | fail request => simp [Call.lease, silent request.lease rfl]
  | _ => rfl

section

variable {clock now : Nat} {id : Uuid} {before after : Cell} {held : List Grant}

theorem grant_expired (exclusive : Exclusive clock before held) (ordered : clock ≤ now)
    (free : ∀ row, before.job = some row → row.leaseOwner ≠ none → row.availableAt ≤ now) {grant : Grant}
    (member : grant ∈ held) : ¬ (now : Int) < grant.expires := by
  intro unexpired
  obtain ⟨row, found, owner, _, expiry⟩ := exclusive.live grant member (by omega)
  have leased : row.leaseOwner ≠ none := by
    rw [owner]
    exact Option.some_ne_none _
  have due := free row found leased
  have same := Option.some.inj (expiry.symm.trans (exclusive.shape row found leased))
  omega

theorem fenced_grant (exclusive : Exclusive clock before held) (ordered : clock ≤ now) {lease : Lease} {row : JobRow}
    (found : before.job = some row) (hit : owns now lease id row = true) {grant : Grant} (member : grant ∈ held)
    (unexpired : (now : Int) < grant.expires) : grant.isFor lease = true := by
  obtain ⟨other, otherFound, owner, generation, _⟩ := exclusive.live grant member (by omega)
  have same : other = row := Option.some.inj (otherFound.symm.trans found)
  subst same
  obtain ⟨leaseOwner, leaseGeneration, _⟩ := owns_leased hit
  have worker : grant.worker = lease.workerID := Option.some.inj (owner.symm.trans leaseOwner)
  simp [Grant.isFor, worker, ← generation, leaseGeneration]

theorem exclusive_dropped (exclusive : Exclusive clock before held) (ordered : clock ≤ now) {lease : Lease}
    {row : JobRow} (found : before.job = some row) (hit : owns now lease id row = true)
    (free : ∀ row, after.job = some row → row.leaseOwner = none) :
    Exclusive now after (held.filter (fun grant => !grant.isFor lease)) := by
  constructor
  · intro row left leased
    exact absurd (free row left) leased
  · intro grant member unexpired
    obtain ⟨present, other⟩ := List.mem_filter.mp member
    rw [fenced_grant exclusive ordered found hit present unexpired] at other
    cases other

theorem exclusive_free (exclusive : Exclusive clock before held) (ordered : clock ≤ now)
    (due : ∀ row, before.job = some row → row.leaseOwner ≠ none → row.availableAt ≤ now)
    (free : ∀ row, after.job = some row → row.leaseOwner = none) : Exclusive now after held := by
  constructor
  · intro row found leased
    exact absurd (free row found) leased
  · intro grant member unexpired
    exact absurd unexpired (grant_expired exclusive ordered due member)

theorem exclusive_leased (exclusive : Exclusive clock before held) (ordered : clock ≤ now)
    (due : ∀ row, before.job = some row → row.leaseOwner ≠ none → row.availableAt ≤ now) (request : ClaimRequest)
    (row : JobRow) (leased : after.job = some (leasedRow now request row)) (serial : Nat) :
    Exclusive now after
      (⟨serial, request.workerID, row.leaseGeneration + 1, now + interval (milliseconds request.leaseDuration)⟩ ::
        held) := by
  constructor
  · intro other found _
    obtain rfl := Option.some.inj (leased.symm.trans found)
    rfl
  · intro grant member unexpired
    rcases List.mem_cons.mp member with rfl | older
    · exact ⟨_, leased, rfl, rfl, rfl⟩
    · exact absurd unexpired (grant_expired exclusive ordered due older)

theorem exclusive_extended (exclusive : Exclusive clock before held) (ordered : clock ≤ now) {lease : Lease}
    (duration : Int) {row : JobRow} (found : before.job = some row) (hit : owns now lease id row = true)
    (extended : after.job = some (extendedRow now duration row)) :
    Exclusive now after (held.map (fun grant =>
      if grant.isFor lease then { grant with expires := now + interval (milliseconds duration) } else grant)) := by
  constructor
  · intro other otherFound _
    obtain rfl := Option.some.inj (extended.symm.trans otherFound)
    rfl
  · intro grant member unexpired
    obtain ⟨old, present, rfl⟩ := List.mem_map.mp member
    by_cases mine : old.isFor lease = true
    · rw [if_pos mine]
      obtain ⟨worker, generation⟩ := of_decide_eq_true mine
      obtain ⟨owner, leaseGeneration, _⟩ := owns_leased hit
      refine ⟨_, extended, ?_, ?_, rfl⟩
      · rw [worker]
        exact owner
      · rw [generation]
        exact leaseGeneration
    · rw [if_neg mine] at unexpired
      exact absurd (fenced_grant exclusive ordered found hit present unexpired) mine

theorem cell_exclusive (effect : CellStep pg store now id call reply before after) (ordered : clock ≤ now)
    (exclusive : Exclusive clock before held) (serial : Nat) :
    Exclusive now after (grantsAfter id serial now call reply before after held) := by
  have nobody : ∀ (failed : Option FailedRow) (row : JobRow), (Cell.mk none failed).job = some row →
      row.leaseOwner ≠ none → row.availableAt ≤ now := fun _ _ found => nomatch found
  cases effect with
  | idle _ _ _ quiet =>
    rw [quiet_grants serial now held quiet]
    exact ⟨exclusive.shape, fun grant member unexpired => exclusive.live grant member (by omega)⟩
  | inserted request payload enqueued failed accepted requested stored =>
    exact exclusive_free exclusive ordered (nobody failed)
      (fun row found => (Option.some.inj found) ▸ rfl)
  | leased request locked result row failed accepted due returned =>
    have newer : row.leaseGeneration < (leasedRow now request row).leaseGeneration := by
      change row.leaseGeneration < row.leaseGeneration + 1
      omega
    simp only [grantsAfter, if_pos newer]
    refine exclusive_leased exclusive ordered ?_ request row rfl serial
    intro other found _
    cases found
    exact (of_decide_eq_true due).2.2.1
  | extended lease duration row failed presented hit least =>
    have owned : (decide (castUuid lease.jobID = some id) && (Reply.owned (true, none)).isOwned) = true := by
      simp [presented, Reply.isOwned]
    simp only [grantsAfter, if_pos owned]
    exact exclusive_extended exclusive ordered duration rfl hit rfl
  | acked | retried | released | failed =>
    rename_i presented hit
    simp only [grantsAfter, Call.lease, presented, Reply.isOwned, decide_true, Bool.and_self, if_true]
    exact exclusive_dropped exclusive ordered rfl hit (by rintro _ ⟨⟩ <;> rfl)
  | exhausted queues names limit locked reply row due moved =>
    refine exclusive_free exclusive ordered ?_ (fun _ found => nomatch found)
    intro other found _
    cases found
    exact (of_decide_eq_true due).2.2.2.1
  | restored text row named =>
    exact exclusive_free exclusive ordered (nobody (some row))
      (fun row found => (Option.some.inj found) ▸ rfl)
  | forgotten text row job named =>
    exact ⟨exclusive.shape, fun grant member unexpired => exclusive.live grant member (by omega)⟩

end

theorem reach_exclusive {w : World} (reached : Reach (queue pg store) w) (id : Uuid) :
    Exclusive w.clock (w.db.cell id) (grants id w.history) := by
  refine reach_invariant (fun w => Exclusive w.clock (w.db.cell id) (grants id w.history)) ?_ ?_ reached
  · rintro w rfl
    exact ⟨(fun _ found => nomatch found), List.forall_mem_nil _⟩
  · rintro w step w' exclusive ⟨ordered, rfl⟩
    exact cell_exclusive (exec_cell pg store step.now id w.db step.call) ordered exclusive w.history.length

structure Distinct (cell : Cell) (held : List Grant) : Prop where
  newest : ∀ row, cell.job = some row → ∀ grant ∈ held, grant.generation ≤ row.leaseGeneration
  apart : ∀ first ∈ held, ∀ second ∈ held, first.generation = second.generation → first.serial = second.serial

theorem distinct_kept {before after : Cell} {held left : List Grant} (distinct : Distinct before held)
    (inside : ∀ grant ∈ left, ∃ old ∈ held, old.serial = grant.serial ∧ old.generation = grant.generation)
    (same : ∀ row, after.job = some row → ∃ old, before.job = some old ∧ old.leaseGeneration = row.leaseGeneration) :
    Distinct after left := by
  constructor
  · intro row found grant member
    obtain ⟨old, present, _, generation⟩ := inside grant member
    obtain ⟨was, wasFound, kept⟩ := same row found
    rw [← generation, ← kept]
    exact distinct.newest was wasFound old present
  · intro first firstHeld second secondHeld equal
    obtain ⟨old, present, serial, generation⟩ := inside first firstHeld
    obtain ⟨old', present', serial', generation'⟩ := inside second secondHeld
    rw [← serial, ← serial']
    exact distinct.apart old present old' present' (by rw [generation, generation', equal])

theorem grants_inside {id : Uuid} {serial now : Nat} {before after : Cell} {held : List Grant}
    (other : ∀ request locked, call ≠ .claim request locked) :
    ∀ grant ∈ grantsAfter id serial now call reply before after held,
      ∃ old ∈ held, old.serial = grant.serial ∧ old.generation = grant.generation := by
  have own : ∀ grant ∈ held, ∃ old ∈ held, old.serial = grant.serial ∧ old.generation = grant.generation :=
    fun grant member => ⟨grant, member, rfl, rfl⟩
  intro grant member
  unfold grantsAfter at member
  cases call with
  | claim request locked => exact absurd rfl (other request locked)
  | heartbeat lease duration =>
    dsimp only at member
    split at member
    · obtain ⟨old, present, rfl⟩ := List.mem_map.mp member
      refine ⟨old, present, ?_⟩
      split <;> exact ⟨rfl, rfl⟩
    · exact own grant member
  | _ =>
    dsimp only [Call.lease] at member
    first
    | exact own grant member
    | split at member
      · exact own grant (List.mem_filter.mp member).1
      · exact own grant member

theorem cell_distinct {now : Nat} {id : Uuid} {db : Db} {after : Cell} {held : List Grant}
    (effect : CellStep pg store now id call reply (db.cell id) after)
    (kept : restarts id db call = true → held = []) (distinct : Distinct (db.cell id) held) (serial : Nat) :
    Distinct after (grantsAfter id serial now call reply (db.cell id) after held) := by
  generalize before : db.cell id = cell at effect distinct
  have cellJob : db.jobs.find id = cell.job := congrArg Cell.job before
  have cellFailed : db.failed.find id = cell.failed := congrArg Cell.failed before
  have none : ∀ cell, Distinct cell [] := fun cell =>
    ⟨fun _ _ _ member => absurd member List.not_mem_nil, List.forall_mem_nil _⟩
  cases effect with
  | idle _ _ _ quiet =>
    rw [quiet_grants serial now held quiet]
    exact distinct
  | inserted request payload enqueued failed accepted requested stored =>
    rw [kept (by simp [restarts, requested, cellJob])]
    exact none _
  | leased request locked result row failed accepted due returned =>
    have newer : row.leaseGeneration < (leasedRow now request row).leaseGeneration := by
      change row.leaseGeneration < row.leaseGeneration + 1
      omega
    have older : ∀ grant ∈ held, grant.generation < (leasedRow now request row).leaseGeneration :=
      fun grant member => lt_of_le_of_lt (distinct.newest row rfl grant member) newer
    simp only [grantsAfter, if_pos newer]
    constructor
    · intro other found grant member
      cases found
      rcases List.mem_cons.mp member with rfl | present
      · exact le_refl _
      · exact le_of_lt (older grant present)
    · intro first firstHeld second secondHeld equal
      rcases List.mem_cons.mp firstHeld with rfl | present <;>
        rcases List.mem_cons.mp secondHeld with rfl | present'
      · rfl
      · exact absurd equal (ne_of_gt (older second present'))
      · exact absurd equal (ne_of_lt (older first present))
      · exact distinct.apart first present second present' equal
  | restored text row named =>
    rw [kept (by simp [restarts, named, cellFailed])]
    exact none _
  | extended | retried | released =>
    refine distinct_kept distinct (grants_inside (by rintro _ _ ⟨⟩)) ?_
    intro row found
    cases found
    exact ⟨_, rfl, rfl⟩
  | acked | failed | exhausted =>
    refine distinct_kept distinct (grants_inside (by rintro _ _ ⟨⟩)) ?_
    rintro row ⟨⟩
  | forgotten text row job named =>
    exact distinct_kept distinct (grants_inside (by rintro _ _ ⟨⟩)) (fun row found => ⟨row, found, rfl⟩)

theorem reach_distinct {w : World} (reached : Reach (queue pg store) w) (id : Uuid) :
    keepsLeases id w.history = true → Distinct (w.db.cell id) (grants id w.history) := by
  refine reach_invariant (fun w =>
    keepsLeases id w.history = true → Distinct (w.db.cell id) (grants id w.history)) ?_ ?_ reached
  · rintro w rfl _
    exact ⟨fun _ _ _ member => absurd member List.not_mem_nil, List.forall_mem_nil _⟩
  · rintro w step w' earlier ⟨_, rfl⟩ keeps
    obtain ⟨kept, rest⟩ := Bool.and_eq_true_iff.mp keeps
    have empty : restarts id w.db step.call = true → grants id w.history = [] := by
      intro starts
      simpa [World.entry, starts] using kept
    exact cell_distinct (exec_cell pg store step.now id w.db step.call) empty (earlier rest) w.history.length

def begins (before after : Cell) : Bool := before.job.isNone && after.job.isSome

def deliveredSince (id : Uuid) : List Entry → List Int
  | [] => []
  | entry :: rest =>
    if begins (entry.before.cell id) (entry.after.cell id) then []
    else (entry.reply.deliveries id).map (fun delivery => delivery.attempt) ++ deliveredSince id rest

def countdown : Nat → List Int
  | 0 => []
  | count + 1 => (count + 1 : Nat) :: countdown count

structure Counted (cell : Cell) (delivered : List Int) : Prop where
  attempts : ∀ row, cell.job = some row → delivered = countdown row.attempts.toNat
  bound : ∀ row, cell.job = some row → 0 ≤ row.attempts ∧ row.attempts ≤ row.maxAttempts

section

variable {before after : Cell} {delivered : List Int}

theorem counted_gone (left : after.job = none) : Counted after delivered := by
  constructor
  · intro row found
    rw [left] at found
    cases found
  · intro row found
    rw [left] at found
    cases found

theorem counted_fresh {row : JobRow} (is : after.job = some row) (attempts : row.attempts = 0)
    (most : 1 ≤ row.maxAttempts) : Counted after [] := by
  constructor
  · intro other found
    rw [Option.some.inj (found.symm.trans is), attempts]
    rfl
  · intro other found
    rw [Option.some.inj (found.symm.trans is)]
    omega

theorem counted_stays (counted : Counted before delivered) {row row' : JobRow} (was : before.job = some row)
    (is : after.job = some row') (attempts : row'.attempts = row.attempts) (most : row'.maxAttempts = row.maxAttempts) :
    Counted after delivered := by
  constructor
  · intro other found
    rw [Option.some.inj (found.symm.trans is), attempts]
    exact counted.attempts row was
  · intro other found
    rw [Option.some.inj (found.symm.trans is), attempts, most]
    exact counted.bound row was

theorem counted_leased (counted : Counted before delivered) {row : JobRow} (row' : JobRow) (was : before.job = some row)
    (is : after.job = some row') (attempts : row'.attempts = row.attempts + 1)
    (most : row'.maxAttempts = row.maxAttempts) (left : row.attempts < row.maxAttempts) :
    Counted after (row'.attempts :: delivered) := by
  have bound := counted.bound row was
  constructor
  · intro other found
    obtain ⟨count, same⟩ := Int.eq_ofNat_of_zero_le bound.1
    have earlier := counted.attempts row was
    rw [same, Int.toNat_natCast] at earlier
    rw [Option.some.inj (found.symm.trans is), attempts, same, earlier]
    rfl
  · intro other found
    rw [Option.some.inj (found.symm.trans is), attempts, most]
    omega

end

theorem cell_counted {now : Nat} {id : Uuid} {before after : Cell} {delivered : List Int}
    (effect : CellStep pg store now id call reply before after)
    (honest : ∀ err, reply = .claimed (.error err) → after = before) (counted : Counted before delivered)
    (checked : ∀ row, after.job = some row → row.Sound) :
    Counted after (if begins before after then []
      else (reply.deliveries id).map (fun delivery => delivery.attempt) ++ delivered) := by
  have fresh : ∀ row, before.job = none → after.job = some row → row.attempts = 0 →
      Counted after (if begins before after then []
        else (reply.deliveries id).map (fun delivery => delivery.attempt) ++ delivered) := by
    intro row was is attempts
    have new : begins before after = true := by simp [begins, was, is]
    rw [if_pos new]
    exact counted_fresh is attempts (checked row is).maxAttempts.1
  have stay : ∀ row row', before.job = some row → after.job = some row' → row'.attempts = row.attempts →
      row'.maxAttempts = row.maxAttempts → reply.deliveries id = [] →
      Counted after (if begins before after then []
        else (reply.deliveries id).map (fun delivery => delivery.attempt) ++ delivered) := by
    intro row row' was is attempts most silent
    have old : begins before after = false := by simp [begins, was]
    simp only [old, silent, Bool.false_eq_true, if_false, List.map_nil, List.nil_append]
    exact counted_stays counted was is attempts most
  cases effect with
  | idle _ _ _ quiet =>
    cases job : before.job with
    | none => exact counted_gone job
    | some row => exact stay row row job job rfl rfl quiet.delivered
  | inserted request payload enqueued failed accepted requested stored => exact fresh _ rfl rfl rfl
  | leased request locked result row failed accepted due returned =>
    cases result with
    | error err =>
      have same := congrArg Cell.job (honest err rfl)
      have attempts := congrArg JobRow.attempts (Option.some.inj same)
      change row.attempts + 1 = row.attempts at attempts
      omega
    | ok deliveries =>
      have old : begins ⟨some row, failed⟩ ⟨some (leasedRow now request row), failed⟩ = false := rfl
      simp only [old, (returned deliveries rfl).2, Bool.false_eq_true, if_false, List.map_cons, List.map_nil,
        List.cons_append, List.nil_append]
      exact counted_leased counted (leasedRow now request row) rfl rfl rfl rfl
        (of_decide_eq_true due).2.2.2
  | extended | retried | released => exact stay _ _ rfl rfl rfl rfl rfl
  | restored text row named => exact fresh _ rfl rfl rfl
  | forgotten text row job named =>
    cases job with
    | none => exact counted_gone rfl
    | some queued => exact stay queued queued rfl rfl rfl rfl rfl
  | _ => exact counted_gone rfl

theorem reach_counted {w : World} (reached : Reach (queue pg store) w)
    (fits : w.history.all (storedFits pg store) = true) (id : Uuid) :
    Counted (w.db.cell id) (deliveredSince id w.history) := by
  induction reached with
  | start w initial =>
    subst initial
    exact ⟨(fun _ found => nomatch found), (fun _ found => nomatch found)⟩
  | next w w' step previous taken ih =>
    obtain ⟨_, rfl⟩ := taken
    have earlier := (Bool.and_eq_true_iff.mp (List.all_cons.symm.trans fits)).2
    refine cell_counted (exec_cell pg store step.now id w.db step.call) ?_ (ih earlier) ?_
    · intro err refused
      obtain ⟨now, call⟩ := step
      cases call with
      | claim request locked =>
        have unchanged := claim_error_unchanged previous (reach_fits previous earlier) (Reply.claimed.inj refused)
        exact congrArg (fun db => Db.cell db id) unchanged
      | _ => cases refused
    · intro row found
      exact check_sound (find_checked found)

theorem selected_length (db : Db) (ids : List Uuid) :
    (db.jobs.rows.filter (fun row => decide (row.id ∈ ids))).length ≤ ids.length := by
  rw [← List.length_map (fun row : JobRow => row.id)]
  refine (List.subperm_of_subset (db.jobs.keys.sublist (List.filter_sublist.map _)) ?_).length_le
  intro id member
  obtain ⟨row, kept, rfl⟩ := List.mem_map.mp member
  exact of_decide_eq_true (List.mem_filter.mp kept).2

theorem claim_returns {now : Nat} {request : ClaimRequest} {locked : List Uuid} {db : Db} {deliveries : List Delivery}
    (answered : (claim store now request locked db).1 = .ok deliveries) :
    deliveries.length ≤ request.limit.toNat ∧ ∀ delivery ∈ deliveries, ∃ row ∈ db.jobs.rows,
      delivery = scanDelivery request.workerID (leasedRow now request row) ∧ row.availableAt ≤ now ∧
      delivery.queue ∈ request.queues ∧ delivery.name ∈ request.names := by
  rcases claim_cases store now request locked db with ⟨err, done⟩ | ⟨jobs, rows, _, statement, done⟩
  · rw [done] at answered
    cases answered
  · rw [done] at answered
    rw [(scan_deliveries_ok deliveries answered).1]
    constructor
    · rw [List.length_map, (claim_statement_ok statement).1, List.length_map]
      exact (selected_length db _).trans (candidates_limit now request locked db.jobs.rows)
    · intro delivery member
      obtain ⟨row, returned, rfl⟩ := List.mem_map.mp member
      obtain ⟨old, present, rfl, due⟩ := statement_row statement returned
      obtain ⟨queue, name, available, _⟩ := of_decide_eq_true due
      exact ⟨old, present, rfl, available, queue, name⟩

theorem delivered_grant {serial now : Nat} {id : Uuid} {before after : Cell} {held : List Grant}
    (effect : CellStep pg store now id call reply before after) {delivery : Delivery}
    (member : delivery ∈ reply.deliveries id) :
    ⟨serial, delivery.lease.workerID, delivery.lease.generation, delivery.leaseExpires⟩ ∈
      grantsAfter id serial now call reply before after held := by
  obtain ⟨request, locked, row, rfl, _, was, is, rfl⟩ := delivered_cell effect member
  have newer : row.leaseGeneration < (leasedRow now request row).leaseGeneration := by
    change row.leaseGeneration < row.leaseGeneration + 1
    omega
  simp only [grantsAfter, was, is, if_pos newer]
  exact List.mem_cons_self

-- Attempts are delivered in order while every stored payload fits. In every run the
-- live grants of a job are one lease, and while no id starts again with a grant left
-- they are one grant; claims return due rows they were asked for.
theorem attempts_in_order_and_leases_exclusive (pg : Server) (store : Store) (w : World)
    (reached : Reach (queue pg store) w) :
    (w.history.all (storedFits pg store) = true → ∀ id row, w.db.jobs.find id = some row →
      deliveredSince id w.history = countdown row.attempts.toNat ∧ 0 ≤ row.attempts ∧
      row.attempts ≤ row.maxAttempts) ∧
    (∀ id, ∀ first ∈ grants id w.history, ∀ second ∈ grants id w.history,
      (w.clock : Int) < first.expires → (w.clock : Int) < second.expires →
      (first.worker = second.worker ∧ first.generation = second.generation ∧ first.expires = second.expires) ∧
      (keepsLeases id w.history = true → first = second)) ∧
    (∀ step w' id, (queue pg store).step w step w' → ∀ delivery ∈ (w.entry pg store step).reply.deliveries id,
      ⟨w.history.length, delivery.lease.workerID, delivery.lease.generation, delivery.leaseExpires⟩ ∈
        grants id w'.history) ∧
    (∀ now request locked deliveries,
      (exec pg store now w.db (.claim request locked)).1 = .claimed (.ok deliveries) →
      deliveries.length ≤ request.limit.toNat ∧ ∀ delivery ∈ deliveries, ∃ row ∈ w.db.jobs.rows,
        delivery = scanDelivery request.workerID (leasedRow now request row) ∧ row.availableAt ≤ now ∧
        delivery.queue ∈ request.queues ∧ delivery.name ∈ request.names) := by
  refine ⟨?_, ?_, ?_, ?_⟩
  · intro fits id row found
    have counted := reach_counted reached fits id
    exact ⟨counted.attempts row found, counted.bound row found⟩
  · intro id first firstHeld second secondHeld firstLive secondLive
    have exclusive := reach_exclusive reached id
    obtain ⟨row, found, owner, generation, expiry⟩ := exclusive.live first firstHeld firstLive
    obtain ⟨row', found', owner', generation', expiry'⟩ := exclusive.live second secondHeld secondLive
    have same : row = row' := Option.some.inj (found.symm.trans found')
    subst same
    have worker := Option.some.inj (owner.symm.trans owner')
    have number := generation.symm.trans generation'
    have expires := Option.some.inj (expiry.symm.trans expiry')
    refine ⟨⟨worker, number, expires⟩, fun kept => ?_⟩
    have serial := (reach_distinct reached id kept).apart first firstHeld second secondHeld number
    cases first
    cases second
    simp_all
  · rintro step w' id ⟨_, rfl⟩ delivery member
    exact delivered_grant (exec_cell pg store step.now id w.db step.call) member
  · intro now request locked deliveries answered
    exact claim_returns (Reply.claimed.inj answered)

def sampleExtended : World :=
  World.start.after sampleServer defaultStore
    [⟨1000, .enqueue { sampleRequest with maxAttempts := 2 }⟩, ⟨2000, .claim sampleClaim []⟩,
      ⟨1000002000, .claim sampleClaim []⟩, ⟨1500002000, .heartbeat ⟨sampleId.text, "worker-a", 2⟩ second⟩]

theorem attempts_in_order_and_leases_exclusive_sample :
    (∃ row, sampleExtended.db.jobs.find sampleId = some row ∧
      deliveredSince sampleId sampleExtended.history = countdown row.attempts.toNat ∧
      0 ≤ row.attempts ∧ row.attempts ≤ row.maxAttempts) ∧
    (grants sampleId sampleExtended.history).map Grant.serial = [2, 1] ∧
    ∀ first ∈ grants sampleId sampleExtended.history, ∀ second ∈ grants sampleId sampleExtended.history,
      (sampleExtended.clock : Int) < first.expires → (sampleExtended.clock : Int) < second.expires →
      first = second := by
  have stored : (sampleExtended.db.jobs.find sampleId).isSome = true := by decide +kernel
  obtain ⟨row, found⟩ := Option.isSome_iff_exists.mp stored
  have holds := attempts_in_order_and_leases_exclusive sampleServer defaultStore sampleExtended
    (reach_guard (follows_reach sampleServer defaultStore (fun _ _ => true) (by decide +kernel)))
  refine ⟨⟨row, found, holds.1 (by decide +kernel) sampleId row found⟩, by decide +kernel, ?_⟩
  intro first firstHeld second secondHeld firstLive secondLive
  exact (holds.2.1 sampleId first firstHeld second secondHeld firstLive secondLive).2 (by decide +kernel)

-- A batch that fails takes an attempt it does not deliver; and a restored job's lease
-- is the value an earlier holder still has, so a heartbeat extends both grants.
theorem failed_batch_skips_attempt :
    (let w := World.start.after sampleServer sevenByteStore
      [⟨1000, .enqueue { sampleRequest with maxAttempts := 2 }⟩,
        ⟨2000, .enqueue { sampleRequest with id := secondId.text, name := "report.v1", payload := "\x7b\"a\":1\x7d" }⟩,
        ⟨3000, .claim { sampleClaim with names := ["mail.send.v1", "report.v1"] } []⟩,
        ⟨1000003000, .claim sampleClaim []⟩]
    Reach (queue sampleServer sevenByteStore) w ∧ deliveredSince sampleId w.history = [2] ∧ countdown 2 = [2, 1]) ∧
    let w := World.start.after sampleServer defaultStore
      [⟨1000, .enqueue sampleRequest⟩, ⟨2000, .claim sampleClaim []⟩,
        ⟨1000002000, .failExhausted ["default"] ["mail.send.v1"] 10 []⟩, ⟨1000003000, .retryFailed sampleId.text⟩,
        ⟨1000004000, .claim sampleClaim []⟩, ⟨1000005000, .heartbeat sampleLease second⟩]
    Reach (queue sampleServer defaultStore) w ∧
      ((grants sampleId w.history).filter (fun grant => decide ((w.clock : Int) < grant.expires))).map Grant.serial =
        [4, 1] := by
  refine ⟨⟨?_, by decide +kernel, rfl⟩, ?_, by decide +kernel⟩
  · exact reach_guard (follows_reach sampleServer sevenByteStore (fun _ _ => true) (by decide +kernel))
  · exact reach_guard (follows_reach sampleServer defaultStore (fun _ _ => true) (by decide +kernel))

end Goforge.Job

import Goforge.Job.Cell

set_option autoImplicit false

namespace Goforge.Job

open GoTime Sql Machine

-- failed is the row under the same id in the failed table: its primary key
-- would refuse the job.
def Progresses (failed : Option FailedRow) (row : JobRow) : Prop :=
  row.attempts < row.maxAttempts ∨
    (row.leaseOwner ≠ none ∧ row.leaseExpiresAt = some row.availableAt ∧ failed = none)

def AllProgress (db : Db) : Prop := ∀ row ∈ db.jobs.rows, Progresses (db.failed.find row.id) row

def Call.givesBack : Call → Option Lease
  | .retry request => some request.lease
  | .release lease => some lease
  | _ => none

-- No job is given back on its last attempt, and no Claim takes the last attempt
-- of a job whose id the failed table holds too.
structure SparesLast (entry : Entry) : Prop where
  gives : ∀ lease id row, entry.call.givesBack = some lease → castUuid lease.jobID = some id →
    entry.before.jobs.find id = some row → entry.reply.isOwned = true → row.attempts < row.maxAttempts
  takes : ∀ request locked id row taken, entry.call = .claim request locked →
    entry.before.jobs.find id = some row → entry.after.jobs.find id = some taken →
    row.attempts < row.maxAttempts → taken.maxAttempts ≤ taken.attempts → entry.before.failed.find id = none

variable {now : Nat} {id : Uuid} {row : JobRow} {pg : Server} {store : Store} {w : World}

theorem owns_leased {lease : Lease} (hit : owns now lease id row = true) :
    row.leaseOwner = some lease.workerID ∧ row.leaseGeneration = lease.generation ∧
      ∃ expires, row.leaseExpiresAt = some expires ∧ (now : Int) < expires := by
  simp only [owns, Bool.and_eq_true, decide_eq_true_eq] at hit
  obtain ⟨⟨_, owner, generation⟩, unexpired⟩ := hit
  cases expiry : row.leaseExpiresAt with
  | none => simp [expiry] at unexpired
  | some expires => exact ⟨owner, generation, expires, rfl, by simpa [expiry] using unexpired⟩

theorem cell_progress {call : Call} {reply : Reply} {before after : Cell}
    (effect : CellStep pg store now id call reply before after)
    (checked : ∀ row, after.job = some row → row.check = true)
    (spares : ∀ lease row, call.givesBack = some lease → castUuid lease.jobID = some id → before.job = some row →
      reply.isOwned = true → row.attempts < row.maxAttempts)
    (takes : ∀ request locked row taken, call = .claim request locked → before.job = some row →
      after.job = some taken → row.attempts < row.maxAttempts → taken.maxAttempts ≤ taken.attempts →
      before.failed = none)
    (holds : ∀ row, before.job = some row → Progresses before.failed row)
    (found : after.job = some row) : Progresses after.failed row := by
  cases effect with
  | idle => exact holds row found
  | inserted request payload enqueued failed accepted requested stored =>
    have least := (check_sound (checked row found)).maxAttempts.1
    cases found
    change 1 ≤ request.maxAttempts at least
    left
    change 0 < request.maxAttempts
    omega
  | leased request locked result old failed accepted due returned =>
    cases found
    by_cases spent : old.maxAttempts ≤ old.attempts + 1
    · exact .inr ⟨nofun, rfl, takes request locked old _ rfl rfl rfl (of_decide_eq_true due).2.2.2 spent⟩
    · exact .inl (by change old.attempts + 1 < old.maxAttempts; omega)
  | extended lease duration old failed presented hit least =>
    cases found
    rcases holds old rfl with left | ⟨owned, _, absent⟩
    · exact .inl left
    · exact .inr ⟨owned, rfl, absent⟩
  | retried request old failed presented hit =>
    cases found
    exact .inl (spares request.lease old rfl presented rfl rfl)
  | released lease old failed presented hit =>
    cases found
    exact .inl (spares lease old rfl presented rfl rfl)
  | restored text old named =>
    have least := (check_sound (checked row found)).maxAttempts.1
    cases found
    change 1 ≤ old.maxAttempts at least
    left
    change 0 < old.maxAttempts
    omega
  | forgotten text old job named =>
    rcases holds row found with left | ⟨_, _, absent⟩
    · exact .inl left
    · cases absent
  | _ => cases found

theorem cell_gave_back {call : Call} {reply : Reply} {before after : Cell}
    (effect : CellStep pg store now id call reply before after) {lease : Lease} (gives : call.givesBack = some lease)
    (presented : castUuid lease.jobID = some id) (found : before.job = some row) (owned : reply.isOwned = true) :
    ∃ left, after.job = some left ∧ left.leaseOwner = none ∧ left.attempts = row.attempts ∧
      left.maxAttempts = row.maxAttempts := by
  have target : call.target = some id := by
    cases call with
    | retry request =>
      cases gives
      exact presented
    | release given =>
      cases gives
      exact presented
    | _ => cases gives
  cases effect with
  | idle _ _ _ quiet =>
    rw [quiet.owned target] at owned
    cases owned
  | retried request old failed asked hit =>
    cases found
    exact ⟨_, rfl, rfl, rfl, rfl⟩
  | released given old failed asked hit =>
    cases found
    exact ⟨_, rfl, rfl, rfl, rfl⟩
  | _ => cases gives

theorem claim_keeps_failed {call : Call} {reply : Reply} {before after : Cell}
    (effect : CellStep pg store now id call reply before after) {request : ClaimRequest} {locked : List Uuid}
    (claims : call = .claim request locked) : before.failed = after.failed := by
  cases effect with
  | idle => rfl
  | leased => rfl
  | _ => cases claims

theorem step_progress {step : Step} (spares : SparesLast (w.entry pg store step)) (holds : AllProgress w.db) :
    AllProgress (w.next pg store step).db := by
  intro row member
  have effect := exec_cell pg store step.now row.id w.db step.call
  refine cell_progress effect ?_ ?_ ?_ ?_ (find_mem member)
  · intro other found
    exact find_checked found
  · intro lease other gives presented found owned
    exact spares.gives lease row.id other gives presented found owned
  · intro request locked old taken claims before after left spent
    exact spares.takes request locked row.id old taken claims before after left spent
  · intro other found
    obtain ⟨present, key⟩ := (find_some_iff w.db.jobs row.id other).mp found
    rw [← key]
    exact holds other present

theorem step_stuck {step : Step} (holds : AllProgress (w.next pg store step).db) :
    SparesLast (w.entry pg store step) := by
  constructor
  · intro lease id row gives presented found owned
    obtain ⟨left, after, free, attempts, most⟩ := cell_gave_back
      (exec_cell pg store step.now id w.db step.call) gives presented found owned
    have member := ((find_some_iff (w.next pg store step).db.jobs id left).mp after).1
    rcases holds left member with spare | ⟨leased, _⟩
    · omega
    · exact absurd free leased
  · intro request locked id row taken claims found after left spent
    obtain ⟨member, rfl⟩ := (find_some_iff (w.next pg store step).db.jobs id taken).mp after
    have effect := exec_cell pg store step.now taken.id w.db step.call
    rcases holds taken member with spare | ⟨_, _, absent⟩
    · omega
    · exact (claim_keeps_failed effect claims).trans absent

theorem history_progress (reached : Reach (queue pg store) w) :
    ((∀ entry ∈ w.history, SparesLast entry) → AllProgress w.db ∧ ∀ entry ∈ w.history, AllProgress entry.after) ∧
    ((∀ entry ∈ w.history, AllProgress entry.after) → ∀ entry ∈ w.history, SparesLast entry) := by
  refine reach_invariant (fun w =>
    ((∀ entry ∈ w.history, SparesLast entry) → AllProgress w.db ∧ ∀ entry ∈ w.history, AllProgress entry.after) ∧
    ((∀ entry ∈ w.history, AllProgress entry.after) → ∀ entry ∈ w.history, SparesLast entry)) ?_ ?_ reached
  · rintro w rfl
    exact ⟨fun _ => ⟨List.forall_mem_nil _, List.forall_mem_nil _⟩,
      fun _ _ member => absurd member List.not_mem_nil⟩
  · rintro w step w' ⟨forward, backward⟩ ⟨_, rfl⟩
    constructor
    · intro spares
      obtain ⟨now, earlier⟩ := forward (fun entry member => spares entry (List.mem_cons_of_mem _ member))
      have next := step_progress (spares _ List.mem_cons_self) now
      refine ⟨next, ?_⟩
      intro entry member
      rcases List.mem_cons.mp member with rfl | older
      · exact next
      · exact earlier entry older
    · intro holds entry member
      rcases List.mem_cons.mp member with rfl | older
      · exact step_stuck (holds _ List.mem_cons_self)
      · exact backward (fun entry member => holds entry (List.mem_cons_of_mem _ member)) entry older

theorem names_sendable (checked : row.check = true) : textParam row.queue = true ∧ textParam row.name = true := by
  have queue := (check_sound checked).queue
  have name := (check_sound checked).name
  rw [validQueue, Bool.and_eq_true] at queue
  rw [validName, Bool.and_eq_true] at name
  have queueClean := Text.accepts_avoids '\x00' queuePattern row.queue queue.2 (by decide)
  have nameClean := Text.accepts_avoids '\x00' jobNamePattern row.name name.2 (by decide)
  simp [textParam, queueClean, nameClean]

def claimFor (row : JobRow) : ClaimRequest := ⟨[row.queue], [row.name], 1, "worker", second⟩

theorem claim_for_valid (sound : row.Sound) : claimInvalid (claimFor row) = none := by
  have short : "worker".utf8ByteSize ≤ 128 := by decide
  simp [claimFor, claimInvalid, sound.queue, sound.name, second, millisecond, short]

theorem claim_for_takes {db : Db} (member : row ∈ db.jobs.rows) (due : row.availableAt ≤ now)
    (left : row.attempts < row.maxAttempts) :
    ∃ jobs rows, claimStatement now (claimFor row) (lockOthers db row.id) db = .ok (jobs, rows) ∧
      leasedRow now (claimFor row) row ∈ rows ∧ jobs.find row.id = some (leasedRow now (claimFor row) row) := by
  have valid := claim_for_valid (check_sound (db.jobs.checked row member))
  have claimableRow : claimable now (claimFor row) row = true := by simp [claimFor, claimable, due, left]
  have alone := claim_candidates_alone member (le_refl _) claimableRow
  have clean : textParam "worker" = true := by decide
  obtain ⟨jobs, rows, done⟩ := claim_statement_succeeds now (lockOthers db row.id) db valid clean
  obtain ⟨returned, lookup⟩ := claim_statement_ok done
  refine ⟨jobs, rows, done, ?_, ?_⟩
  · rw [returned, alone]
    exact List.mem_map_of_mem (List.mem_filter.mpr ⟨member, by simp⟩)
  · rw [lookup row.id, show db.jobs.find row.id = some row from find_mem member, alone, Option.map_some,
      if_pos List.mem_cons_self]

def presentsHandedOut (w : World) (step : Step) : Bool :=
  match step.call.lease with
  | none => true
  | some lease => w.history.any (fun entry =>
    match entry.reply with
    | .claimed (.ok deliveries) => deliveries.any (fun delivery => decide (delivery.lease = lease))
    | _ => false)

theorem exhausted_moves (pg : Server) (store : Store) {db : Db} (member : row ∈ db.jobs.rows)
    (absent : db.failed.find row.id = none) (due : exhausted now [row.queue] [row.name] row = true) :
    (exec pg store now db (.failExhausted [row.queue] [row.name] 1 (lockOthers db row.id))).2.cell row.id =
      ⟨none, some (failedRow now "lease_exhausted" "lease expired after final attempt" row)⟩ := by
  have only : db.jobs.rows.filter (fun other => decide (other.id ∈ [row.id])) = [row] := by
    refine filter_single member (by simp) ?_
    intro other present hit
    have same : other.id = row.id := by simpa using hit
    exact List.inj_on_of_nodup_map db.jobs.keys present member same
  have checked : (failedRow now "lease_exhausted" "lease expired after final attempt" row).check = true := by
    have stored : row.check = true := db.jobs.checked row member
    simp only [JobRow.check, Bool.and_eq_true] at stored
    have texts : textOk 1 64 "lease_exhausted" = true ∧ textOk 0 8192 "lease expired after final attempt" = true := by
      decide +kernel
    simp [FailedRow.check, failedRow, stored.1.1.1.1, of_decide_eq_true stored.1.1.1.2, texts.1, texts.2]
  obtain ⟨failed, inserted⟩ := insert_succeeds db.failed
    checked absent (by rintro entry ⟨⟩)
  have moved : moveToFailed now "lease_exhausted" "lease expired after final attempt"
      (fun other => decide (other.id ∈ [row.id])) db =
      .ok (⟨(db.jobs.delete (fun other => decide (other.id ∈ [row.id]))).1, failed⟩, [row]) := by
    unfold moveToFailed
    have removed : (db.jobs.delete (fun other => decide (other.id ∈ [row.id]))).2 = [row] := only
    simp only [removed, List.map_cons, List.map_nil, Table.insertAll, inserted]
  have gone : (exec pg store now db (.failExhausted [row.queue] [row.name] 1 (lockOthers db row.id))).2 =
      ⟨(db.jobs.delete (fun other => decide (other.id ∈ [row.id]))).1, failed⟩ := by
    obtain ⟨queue, name⟩ := names_sendable (db.jobs.checked row member)
    have sendable : ([row.queue].all textParam && [row.name].all textParam) = true := by simp [queue, name]
    dsimp only [exec, failExhausted]
    rw [if_neg (by simp), if_pos sendable, exhausted_candidates_alone member (by decide) due, moved]
  rw [gone]
  rcases move_cases moved row.id with ⟨other, found, _, _, left, arrived⟩ | ⟨missed, _⟩
  · have same : other = row := Option.some.inj (found.symm.trans (find_mem member))
    rw [Db.cell, left, arrived, same]
  · have hit := missed row (find_mem member)
    simp at hit

theorem stuck_cell {call : Call} {reply : Reply} {before after : Cell}
    (effect : CellStep pg store now id call reply before after) (found : before.job = some row)
    (spent : row.maxAttempts ≤ row.attempts) (stuck : row.leaseOwner = none ∨ before.failed ≠ none)
    (scans : (∃ request locked, call = .claim request locked) ∨
      ∃ queues names limit locked, call = .failExhausted queues names limit locked) : after = before := by
  cases effect with
  | idle => rfl
  | leased request locked result old failed accepted due returned =>
    cases found
    have left := (of_decide_eq_true due).2.2.2
    omega
  | exhausted queues names limit locked reply old due moved =>
    cases found
    rcases stuck with free | absent
    · exact absurd free (of_decide_eq_true due).2.2.1
    · exact absurd rfl absent
  | _ => rcases scans with ⟨_, _, ⟨⟩⟩ | ⟨_, _, _, _, ⟨⟩⟩

-- The states of a run all progress exactly when it spares last attempts; a row that
-- progresses is taken or moved once it is due, and no scan changes one that is stuck.
theorem no_stranded_job_iff (pg : Server) (store : Store) (w : World) (reached : Reach (queue pg store) w) :
    ((∀ entry ∈ w.history, AllProgress entry.after) ↔ ∀ entry ∈ w.history, SparesLast entry) ∧
    (∀ row ∈ w.db.jobs.rows, Progresses (w.db.failed.find row.id) row → ∀ now : Nat, row.availableAt ≤ now →
      (row.attempts < row.maxAttempts → ∃ request locked,
        (exec pg store now w.db (.claim request locked)).2.jobs.find row.id = some (leasedRow now request row)) ∧
      (row.maxAttempts ≤ row.attempts → ∃ queues names limit locked,
        (exec pg store now w.db (.failExhausted queues names limit locked)).2.cell row.id =
          ⟨none, some (failedRow now "lease_exhausted" "lease expired after final attempt" row)⟩)) ∧
    ∀ row ∈ w.db.jobs.rows, row.maxAttempts ≤ row.attempts →
      (row.leaseOwner = none ∨ w.db.failed.find row.id ≠ none) → ∀ now : Nat,
      (∀ request locked, (exec pg store now w.db (.claim request locked)).2.cell row.id = w.db.cell row.id) ∧
      ∀ queues names limit locked,
        (exec pg store now w.db (.failExhausted queues names limit locked)).2.cell row.id = w.db.cell row.id := by
  obtain ⟨forward, backward⟩ := history_progress reached
  refine ⟨⟨backward, fun spares => (forward spares).2⟩, ?_, ?_⟩
  rotate_left
  · intro row member spent stuck now
    have found : (w.db.cell row.id).job = some row := find_mem member
    exact ⟨fun request locked => stuck_cell (exec_cell pg store now row.id w.db _) found spent stuck (.inl ⟨_, _, rfl⟩),
      fun queues names limit locked =>
        stuck_cell (exec_cell pg store now row.id w.db _) found spent stuck (.inr ⟨_, _, _, _, rfl⟩)⟩
  intro row member progresses now due
  constructor
  · intro left
    obtain ⟨jobs, rows, done, _, found⟩ := claim_for_takes member due left
    have valid := claim_for_valid (check_sound (w.db.jobs.checked row member))
    refine ⟨claimFor row, lockOthers w.db row.id, ?_⟩
    simp only [exec, claim, valid, done]
    exact found
  · intro spent
    refine ⟨[row.queue], [row.name], 1, lockOthers w.db row.id, ?_⟩
    rcases progresses with left | ⟨leased, _, absent⟩
    · omega
    · exact exhausted_moves pg store member absent (by simp [exhausted, due, spent, leased])

def sampleReleased : World :=
  World.start.after sampleServer defaultStore
    [⟨1000, .enqueue { sampleRequest with maxAttempts := 2 }⟩, ⟨2000, .claim sampleClaim []⟩,
      ⟨3000, .release ⟨sampleId.text, "worker-a", 1⟩⟩]

theorem no_stranded_job_iff_sample :
    ((∀ entry ∈ sampleReleased.history, AllProgress entry.after) ↔ ∀ entry ∈ sampleReleased.history,
      SparesLast entry) :=
  (no_stranded_job_iff sampleServer defaultStore sampleReleased
    (reach_guard (follows_reach sampleServer defaultStore (fun _ _ => true) (by decide +kernel)))).1

theorem released_last_attempt_is_stranded :
    let w := World.start.after sampleServer defaultStore
      [⟨1000, .enqueue sampleRequest⟩, ⟨2000, .claim sampleClaim []⟩, ⟨3000, .release ⟨sampleId.text, "worker-a", 1⟩⟩]
    Reach ((queue sampleServer defaultStore).guard (fun w step => presentsHandedOut w step = true)) w ∧
      ∃ row ∈ w.db.jobs.rows, ¬ Progresses (w.db.failed.find row.id) row ∧
      (∀ now request, claimable now request row = false) ∧
        ∀ now queues names, exhausted now queues names row = false := by
  refine ⟨follows_reach sampleServer defaultStore presentsHandedOut (by decide +kernel), ?_⟩
  generalize left : World.after sampleServer defaultStore World.start _ = w
  have shape : w.db.jobs.rows.map (fun row => (row.attempts, row.maxAttempts, row.leaseOwner)) = [(1, 1, none)] := by
    rw [← left]
    decide +kernel
  obtain ⟨row, rest, rows, columns, _⟩ := List.map_eq_cons_iff.mp shape
  obtain ⟨attempts, most, owner⟩ : row.attempts = 1 ∧ row.maxAttempts = 1 ∧ row.leaseOwner = none := by
    simpa using columns
  refine ⟨row, by rw [rows]; exact List.mem_cons_self, ?_, ?_, ?_⟩
  · rintro (spare | ⟨leased, _⟩)
    · omega
    · exact leased owner
  · intro now request
    simp [claimable, attempts, most]
  · intro now queues names
    simp [exhausted, owner]

end Goforge.Job

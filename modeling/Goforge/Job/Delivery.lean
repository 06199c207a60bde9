import Goforge.Job.Progress

set_option autoImplicit false

namespace Goforge.Job

open GoTime Sql Machine

theorem valid_queue_nonempty {queue : String} (valid : validQueue queue = true) : queue.utf8ByteSize ≠ 0 := by
  intro empty
  rw [String.utf8ByteSize_eq_zero_iff] at empty
  subst empty
  exact absurd valid (by decide)

theorem valid_name_nonempty {name : String} (valid : validName name = true) : name.utf8ByteSize ≠ 0 := by
  intro empty
  rw [String.utf8ByteSize_eq_zero_iff] at empty
  subst empty
  exact absurd valid (by decide)

theorem uuid_text_nonempty (id : Uuid) : id.text ≠ "" := by
  intro empty
  have cast := cast_text id
  rw [empty, show castUuid "" = none by decide] at cast
  cases cast

variable {request : ClaimRequest} {now : Nat} {row : JobRow} {pg : Server} {store : Store} {w : World}

theorem claim_valid (valid : claimInvalid request = none) :
    request.workerID ≠ "" ∧ request.workerID.utf8ByteSize ≤ 128 ∧ millisecond ≤ request.leaseDuration := by
  unfold claimInvalid at valid
  split at valid
  · cases valid
  rename_i plain
  split at valid
  · cases valid
  rename_i short
  simp only [Bool.or_eq_true, not_or, decide_eq_true_eq, beq_iff_eq] at plain
  exact ⟨plain.1.2, by omega, by omega⟩

theorem bad_delivery_iff (store : Store) (sound : row.Sound) (nested : row.payload.depth ≤ Json.maxNestingDepth)
    (valid : claimInvalid request = none) (due : claimable now request row = true) :
    badDelivery store (scanDelivery request.workerID (leasedRow now request row)) = true ↔
      store.maxPayload < row.payload.text.utf8ByteSize := by
  obtain ⟨_, _, duration⟩ := claim_valid valid
  have lasting := interval_pos (milliseconds_pos duration)
  have expires := reading_not_zero now (interval (milliseconds request.leaseDuration)) (by omega)
  have leased := reading_not_zero now 0 (by omega)
  rw [Int.add_zero] at leased
  have left : row.attempts < row.maxAttempts := (of_decide_eq_true due).2.2.2
  have text : row.payload.text.utf8ByteSize ≠ 0 := by
    rw [ne_eq, String.utf8ByteSize_eq_zero_iff]
    exact text_nonempty row.payload
  have key : (row.dedupKey.getD "").utf8ByteSize ≤ maxDedupKeyBytes := by
    have bounded := sound.dedupKey
    cases keyed : row.dedupKey with
    | none => decide
    | some value =>
      simp only [keyed, optionalTextOk, textOk, Bool.and_eq_true, decide_eq_true_eq] at bounded
      exact bounded.1.2
  have attempts := sound.attempts
  have most := sound.maxAttempts
  have timeout := sound.timeout
  have size := sound.backoffSize
  simp only [badDelivery, Bool.or_eq_true, decide_eq_true_eq, beq_iff_eq]
  simp only [scanDelivery, leasedRow, millisecondsToDurations, List.length_map, sound.queue, sound.name,
    text_valid nested, expires, leased, Option.getD_some, Bool.not_true, Bool.false_eq_true, or_false,
    valid_queue_nonempty sound.queue, valid_name_nonempty sound.name, text, false_or, hour,
    millisecond]
  omega

theorem delivery_valid_iff (store : Store) (sound : row.Sound) (nested : row.payload.depth ≤ Json.maxNestingDepth)
    (valid : claimInvalid request = none) (due : claimable now request row = true) :
    validateDelivery store (scanDelivery request.workerID (leasedRow now request row)) = none ↔
      row.payload.text.utf8ByteSize ≤ store.maxPayload := by
  have bad := bad_delivery_iff store sound nested valid due
  obtain ⟨named, short, _⟩ := claim_valid valid
  have delays : (scanDelivery request.workerID (leasedRow now request row)).backoff.any
      (fun delay => decide (delay < 0 ∨ 30 * day < delay)) = false := by
    simp only [scanDelivery, leasedRow, millisecondsToDurations, List.any_map, List.any_eq_false, Function.comp_apply,
      decide_eq_true_eq]
    simp only [millisecond, day, hour]
    intro ms member
    have range := sound.backoff ms member
    omega
  have lease : validateLease (scanDelivery request.workerID (leasedRow now request row)).lease = none := by
    have generation := sound.generation
    unfold validateLease
    rw [if_neg]
    rintro (empty | empty | long | small)
    · exact uuid_text_nonempty row.id empty
    · exact named empty
    · exact absurd short (by simpa [scanDelivery] using long)
    · change row.leaseGeneration + 1 < 1 at small
      omega
  unfold validateDelivery
  rw [delays, lease]
  by_cases fits : row.payload.text.utf8ByteSize ≤ store.maxPayload
  · have fine : ¬ badDelivery store (scanDelivery request.workerID (leasedRow now request row)) = true := by
      rw [bad]
      omega
    simp [fine, fits]
  · have oversized := bad.mpr (by omega)
    simp [oversized, fits]

def BodiesHold (prop : Body → Prop) (db : Db) : Prop :=
  (∀ row ∈ db.jobs.rows, prop row.toBody) ∧ ∀ row ∈ db.failed.rows, prop row.toBody

theorem step_bodies {step : Step} {prop : Body → Prop} (enqueued : ∀ request id payload, step.call = .enqueue request →
      enters id step.call (w.entry pg store step).reply = true → enqueueInvalid store request = none →
      pg.jsonb request.payload = some payload → prop (enqueueRow step.now request id payload).toBody)
    (holds : BodiesHold prop w.db) : BodiesHold prop (w.next pg store step).db := by
  have seen : ∀ id, (∀ row, ((w.next pg store step).db.cell id).job = some row → prop row.toBody) ∧
      ∀ row, ((w.next pg store step).db.cell id).failed = some row → prop row.toBody := by
    intro id
    refine cell_bodies (exec_cell pg store step.now id w.db step.call) prop ?_ ?_ ?_
    · intro request payload called entering accepted stored
      exact enqueued request id payload called entering accepted stored
    · intro row found
      exact holds.1 row ((find_some_iff w.db.jobs id row).mp found).1
    · intro row found
      exact holds.2 row ((find_some_iff w.db.failed id row).mp found).1
  constructor
  · intro row member
    exact (seen row.id).1 row (find_mem member)
  · intro row member
    exact (seen row.id).2 row (find_mem member)

theorem start_bodies {prop : Body → Prop} : BodiesHold prop World.start.db :=
  ⟨List.forall_mem_nil _, List.forall_mem_nil _⟩

theorem accepted_json {request : EnqueueRequest} (accepted : enqueueInvalid store request = none) :
    Json.valid request.payload = true := by
  unfold enqueueInvalid at accepted
  split at accepted
  · cases accepted
  split at accepted
  · cases accepted
  rename_i fine
  simp only [Bool.or_eq_true, not_or, Bool.not_eq_true'] at fine
  simpa using fine.2

theorem reach_nested (reached : Reach (queue pg store) w) :
    BodiesHold (fun body => body.payload.depth ≤ Json.maxNestingDepth) w.db := by
  refine reach_invariant
    (fun w => BodiesHold (fun body => body.payload.depth ≤ Json.maxNestingDepth) w.db) ?_ ?_ reached
  · rintro w rfl
    exact start_bodies
  · rintro w step w' holds ⟨_, rfl⟩
    refine step_bodies ?_ holds
    intro request id payload _ _ accepted stored
    exact pg.keepsNesting request.payload payload (accepted_json accepted) stored

def storedFits (pg : Server) (store : Store) (entry : Entry) : Bool :=
  match entry.call with
  | .enqueue request =>
    match castUuid request.id, pg.jsonb request.payload with
    | some id, some payload =>
      !enters id entry.call entry.reply || decide (payload.text.utf8ByteSize ≤ store.maxPayload)
    | _, _ => true
  | _ => true

theorem stored_fits {entry : Entry} (fits : storedFits pg store entry = true) {request : EnqueueRequest} {id : Uuid}
    {payload : Jsonb} (called : entry.call = .enqueue request) (entering : enters id entry.call entry.reply = true)
    (stored : pg.jsonb request.payload = some payload) : payload.text.utf8ByteSize ≤ store.maxPayload := by
  have requested : castUuid request.id = some id := by
    rw [called] at entering
    unfold enters at entering
    split at entering
    · rename_i asked _ same _
      cases same
      exact (of_decide_eq_true entering).1
    · cases entering
  simp only [storedFits, called, requested, stored] at fits
  rw [called] at entering
  simpa [entering] using fits

theorem reach_fits (reached : Reach (queue pg store) w) (fits : w.history.all (storedFits pg store) = true) :
    BodiesHold (fun body => body.payload.text.utf8ByteSize ≤ store.maxPayload) w.db := by
  refine reach_invariant (fun w => w.history.all (storedFits pg store) = true →
    BodiesHold (fun body => body.payload.text.utf8ByteSize ≤ store.maxPayload) w.db) ?_ ?_ reached fits
  · rintro w rfl _
    exact start_bodies
  · rintro w step w' holds ⟨_, rfl⟩ fits
    obtain ⟨newest, earlier⟩ := Bool.and_eq_true_iff.mp (List.all_cons.symm.trans fits)
    refine step_bodies ?_ (holds earlier)
    intro request id payload called entering _ stored
    exact stored_fits newest called entering stored

theorem claimed_row_valid_iff (reached : Reach (queue pg store) w) {locked : List Uuid} {jobs : Table jobsSchema}
    {rows : List JobRow} (valid : claimInvalid request = none)
    (done : claimStatement now request locked w.db = .ok (jobs, rows)) (member : row ∈ rows) :
    validateDelivery store (scanDelivery request.workerID row) = none ↔
      row.payload.text.utf8ByteSize ≤ store.maxPayload := by
  obtain ⟨old, present, rfl, due⟩ := statement_row done member
  exact delivery_valid_iff store (check_sound (w.db.jobs.checked old present))
    ((reach_nested reached).1 old present) valid due

theorem claim_error_unchanged (reached : Reach (queue pg store) w)
    (fits : BodiesHold (fun body => body.payload.text.utf8ByteSize ≤ store.maxPayload) w.db) {locked : List Uuid}
    {err : Err} (refused : (claim store now request locked w.db).1 = .error err) :
    (claim store now request locked w.db).2 = w.db := by
  rcases claim_cases store now request locked w.db with ⟨_, done⟩ | ⟨jobs, rows, valid, statement, done⟩
  · rw [done]
  · have scanned : scanDeliveries store request.workerID rows = .ok (rows.map (scanDelivery request.workerID)) := by
      apply scan_deliveries_valid
      intro row member
      rw [claimed_row_valid_iff reached valid statement member]
      obtain ⟨old, present, rfl, _⟩ := statement_row statement member
      exact fits.1 old present
    rw [done, scanned] at refused
    cases refused

-- For every request that enqueue stores: each later claim of the row delivers
-- it exactly when the text form of the stored payload is within the store's
-- limit. And a run whose stored payloads all are never commits leases it then
-- fails to return.
theorem stored_job_deliverable_iff (pg : Server) (store : Store) :
    (∀ (w₀ w₁ : World) (enqueuedAt : Nat) (request : EnqueueRequest) (id : Uuid) (payload : Jsonb),
      Reach (queue pg store) w₀ → (queue pg store).step w₀ ⟨enqueuedAt, .enqueue request⟩ w₁ →
      w₀.db.jobs.find id = none → w₁.db.jobs.find id = some (enqueueRow enqueuedAt request id payload) →
      ((∀ (steps : List Step) (w : World) (now : Nat) (claimed : ClaimRequest) (locked : List Uuid)
          (jobs : Table jobsSchema) (rows : List JobRow) (row : JobRow), Run (queue pg store) w₁ steps w →
          w.clock ≤ now →
          claimInvalid claimed = none → claimStatement now claimed locked w.db = .ok (jobs, rows) → row ∈ rows →
          row.toBody = (enqueueRow enqueuedAt request id payload).toBody →
          validateDelivery store (scanDelivery claimed.workerID row) = none) ↔
        payload.text.utf8ByteSize ≤ store.maxPayload)) ∧
    (∀ w, Reach (queue pg store) w → w.history.all (storedFits pg store) = true →
      ∀ now request locked err, (exec pg store now w.db (.claim request locked)).1 = .claimed (.error err) →
        (exec pg store now w.db (.claim request locked)).2 = w.db) := by
  constructor
  · intro w₀ w₁ enqueuedAt request id payload reached enqueued _ stored
    have reached₁ : Reach (queue pg store) w₁ := .next w₀ w₁ _ reached enqueued
    constructor
    · intro delivers
      obtain ⟨member, _⟩ := (find_some_iff w₁.db.jobs id _).mp stored
      have sound := check_sound (w₁.db.jobs.checked _ member)
      have left : (0 : Int) < request.maxAttempts := sound.maxAttempts.1
      have due : (enqueueRow enqueuedAt request id payload).availableAt ≤
          (max w₁.clock (enqueueRow enqueuedAt request id payload).availableAt.toNat : Nat) := by omega
      obtain ⟨jobs, rows, done, taken, _⟩ := claim_for_takes member due left
      have checked := delivers [] w₁ _ _ _ jobs rows _ (.nil w₁) (by omega) (claim_for_valid sound) done taken rfl
      rw [claimed_row_valid_iff reached₁ (claim_for_valid sound) done taken] at checked
      exact checked
    · intro fits steps w now claimed locked jobs rows row run _ valid done member same
      rw [claimed_row_valid_iff (reach_run reached₁ run) valid done
        member, show row.payload = payload from congrArg Body.payload same]
      exact fits
  · intro w reached fits now request locked err refused
    exact claim_error_unchanged reached (reach_fits reached fits) (by simpa [exec] using refused)

theorem stored_job_deliverable_iff_sample :
    let w := World.start.after sampleServer defaultStore [⟨1000, .enqueue sampleRequest⟩]
    w.history.all (storedFits sampleServer defaultStore) = true ∧
    ((∀ (steps : List Step) (w' : World) (now : Nat) (claimed : ClaimRequest) (locked : List Uuid)
        (jobs : Table jobsSchema) (rows : List JobRow) (row : JobRow),
        Run (queue sampleServer defaultStore) w steps w' →
        w'.clock ≤ now → claimInvalid claimed = none → claimStatement now claimed locked w'.db = .ok (jobs, rows) →
        row ∈ rows → row.toBody = (enqueueRow 1000 sampleRequest sampleId (.object .nil)).toBody →
        validateDelivery defaultStore (scanDelivery claimed.workerID row) = none) ↔
      (Jsonb.object .nil).text.utf8ByteSize ≤ defaultStore.maxPayload) ∧
    ∀ now request locked err, (exec sampleServer defaultStore now w.db (.claim request locked)).1 =
    .claimed (.error err) →
      (exec sampleServer defaultStore now w.db (.claim request locked)).2 = w.db := by
  have fits : (World.start.after sampleServer defaultStore [⟨1000, .enqueue sampleRequest⟩]).history.all
      (storedFits sampleServer defaultStore) = true := by decide +kernel
  obtain ⟨each, batch⟩ := stored_job_deliverable_iff sampleServer defaultStore
  refine ⟨fits, ?_, ?_⟩
  · exact each World.start _ 1000 sampleRequest sampleId (.object .nil) (.start _ rfl) ⟨Nat.zero_le _, rfl⟩ rfl rfl
  · exact batch _ (reach_guard (follows_reach sampleServer defaultStore (fun _ _ => true) (by decide +kernel))) fits

def sevenByteStore : Store := ⟨7, 8192, by decide, by decide⟩

theorem rendered_payload_exceeds_limit :
    let request := { sampleRequest with payload := "\x7b\"a\":1\x7d" }
    let w := World.start.after sampleServer sevenByteStore [⟨1000, .enqueue request⟩]
    let claimed := exec sampleServer sevenByteStore 2000 w.db (.claim sampleClaim [])
    withLimits 7 8192 = .ok sevenByteStore ∧
      (exec sampleServer sevenByteStore 1000 Db.empty (.enqueue request)).1 = .dispatched (.ok ⟨sampleId.text, true⟩) ∧
      claimed.1 = .claimed (.error (.wrap "scan claim" (.message "invalid durable delivery"))) ∧
      (claimed.2.jobs.find sampleId).map (fun row => (row.attempts, row.leaseOwner)) = some (1, some "worker-a") := by
  refine ⟨rfl, ?_, ?_, ?_⟩ <;> decide +kernel

end Goforge.Job

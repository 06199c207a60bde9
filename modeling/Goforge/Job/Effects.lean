import Goforge.Job.Queue

set_option autoImplicit false

namespace Goforge.Job

open GoTime Sql

-- What each call can do, stated once: later modules cite these inversions and
-- never unfold a store operation again.

variable {row : JobRow} {jobs : Table jobsSchema} {store : Store} {workerID : String} {rows : List JobRow} {now : Nat}
  {request : ClaimRequest} {locked : List Uuid} {id : Uuid} {db : Db} {pred : JobRow → Bool}

theorem set_dedup_key_fixed {queue name key : String}
    (hit : decide (jobsSchema.index row = some (queue, name, key)) = true) :
    (setDedupKey queue name key).set row = row := by
  cases keyed : row.dedupKey with
  | none => simp [jobsSchema, keyed] at hit
  | some old =>
    have same : old = key := by
      have entry : row.queue = queue ∧ row.name = name ∧ old = key := by simpa [jobsSchema, keyed] using hit
      exact entry.2.2
    simp only [setDedupKey, ← same, ← keyed]

theorem upsert_conflict {next : Table jobsSchema} {queue name key : String} {holder returned : JobRow}
    {rest : List JobRow} (held : jobs.holder (queue, name, key) = some holder)
    (done : jobs.update (fun row => decide (jobsSchema.index row = some (queue, name, key)))
      (setDedupKey queue name key) = .ok (next, returned :: rest)) : next = jobs ∧ returned = holder := by
  rw [update_fixed (fun row _ hit => set_dedup_key_fixed hit)] at done
  have pair := Except.ok.inj done
  have rows : jobs.rows.filter (fun row => decide (jobsSchema.index row = some (queue, name, key))) =
      returned :: rest := congrArg Prod.snd pair
  have member : returned ∈ jobs.rows.filter (fun row => decide (jobsSchema.index row = some (queue, name, key))) := by
    rw [rows]
    exact List.mem_cons_self
  obtain ⟨present, hit⟩ := List.mem_filter.mp member
  obtain ⟨holderPresent, holderIndex⟩ := (holder_some_iff jobs holder).mp held
  exact ⟨(congrArg Prod.fst pair).symm,
    index_unique (queue, name, key) present holderPresent (of_decide_eq_true hit) holderIndex⟩

theorem enqueue_cases (pg : Server) (store : Store) (now : Nat) (request : EnqueueRequest) (db : Db) :
    (∃ err, enqueue pg store now request db = (.error err, db)) ∨
    (∃ id payload jobs, enqueueInvalid store request = none ∧ castUuid request.id = some id ∧
      pg.jsonb request.payload = some payload ∧ db.jobs.insert (enqueueRow now request id payload) = .ok jobs ∧
      enqueue pg store now request db =
        (.ok ⟨id.text, decide (request.dedupKey = "" ∨ id.text = request.id)⟩, { db with jobs := jobs })) ∨
    (∃ holder, request.dedupKey ≠ "" ∧
      db.jobs.holder (request.queue, request.name, request.dedupKey) = some holder ∧
      enqueue pg store now request db = (.ok ⟨holder.id.text, decide (holder.id.text = request.id)⟩, db)) := by
  unfold enqueue
  cases invalid : enqueueInvalid store request with
  | some text => exact .inl ⟨_, rfl⟩
  | none =>
    cases requested : castUuid request.id with
    | none => exact .inl ⟨_, rfl⟩
    | some id =>
      cases stored : pg.jsonb request.payload with
      | none => exact .inl ⟨_, rfl⟩
      | some payload =>
        by_cases keyless : request.dedupKey = ""
        · cases inserted : db.jobs.insert (enqueueRow now request id payload) with
          | error cause =>
            refine .inl ⟨.wrap "enqueue" (.database cause), ?_⟩
            simp only [if_pos keyless, inserted]
          | ok jobs =>
            refine .inr (.inl ⟨id, payload, jobs, rfl, rfl, rfl, inserted, ?_⟩)
            simp [keyless, inserted]
        · simp only [if_neg keyless]
          cases done : db.jobs.upsert (enqueueRow now request id payload)
              (request.queue, request.name, request.dedupKey)
              (setDedupKey request.queue request.name request.dedupKey) with
          | error cause => exact .inl ⟨_, rfl⟩
          | ok result =>
            obtain ⟨jobs, changed⟩ := result
            cases changed with
            | nil => exact .inl ⟨_, rfl⟩
            | cons returned rest =>
              rcases upsert_ok done with ⟨inserted, shape⟩ | ⟨holder, held, updated⟩
              · refine .inr (.inl ⟨id, payload, jobs, trivial, rfl, rfl, inserted, ?_⟩)
                rw [(List.cons.inj shape).1]
                simp [keyless, enqueueRow]
              · obtain ⟨same, returnedEq⟩ := upsert_conflict held updated
                exact .inr (.inr ⟨holder, keyless, held, by rw [same, returnedEq]⟩)

theorem scan_claim_ok {delivery : Delivery} (scanned : scanClaim store workerID row = .ok delivery) :
    delivery = scanDelivery workerID row ∧ validateDelivery store (scanDelivery workerID row) = none := by
  unfold scanClaim at scanned
  split at scanned
  · cases scanned
  rename_i checked
  exact ⟨(Except.ok.inj scanned).symm, checked⟩

theorem scan_deliveries_ok (deliveries : List Delivery)
    (scanned : scanDeliveries store workerID rows = .ok deliveries) : deliveries = rows.map (scanDelivery workerID) ∧
      ∀ row ∈ rows, validateDelivery store (scanDelivery workerID row) = none := by
  unfold scanDeliveries at scanned
  induction rows generalizing deliveries with
  | nil =>
    cases scanned
    exact ⟨rfl, by simp⟩
  | cons row rest ih =>
    rw [List.mapM_cons] at scanned
    cases first : scanClaim store workerID row with
    | error err =>
      rw [first] at scanned
      cases scanned
    | ok delivery =>
      cases later : rest.mapM (scanClaim store workerID) with
      | error err =>
        rw [first, later] at scanned
        cases scanned
      | ok tail =>
        rw [first, later] at scanned
        cases scanned
        obtain ⟨same, checked⟩ := scan_claim_ok first
        obtain ⟨shape, valid⟩ := ih tail later
        refine ⟨by rw [List.map_cons, shape, same], ?_⟩
        intro other member
        rcases List.mem_cons.mp member with rfl | inRest
        · exact checked
        · exact valid other inRest

theorem scan_deliveries_valid (valid : ∀ row ∈ rows, validateDelivery store (scanDelivery workerID row) = none) :
    scanDeliveries store workerID rows = .ok (rows.map (scanDelivery workerID)) := by
  unfold scanDeliveries
  induction rows with
  | nil => rfl
  | cons row rest ih =>
    have first : scanClaim store workerID row = .ok (scanDelivery workerID row) := by
      unfold scanClaim
      rw [valid row List.mem_cons_self]
    rw [List.mapM_cons, first, ih (fun other member => valid other (List.mem_cons_of_mem row member))]
    rfl

theorem claim_cases (store : Store) (now : Nat) (request : ClaimRequest) (locked : List Uuid) (db : Db) :
    (∃ err, claim store now request locked db = (.error err, db)) ∨
    (∃ jobs rows, claimInvalid request = none ∧ claimStatement now request locked db = .ok (jobs, rows) ∧
      claim store now request locked db =
        (scanDeliveries store request.workerID rows, { db with jobs := jobs })) := by
  unfold claim
  split
  · exact .inl ⟨_, rfl⟩
  rename_i valid
  split
  · exact .inl ⟨_, rfl⟩
  rename_i jobs rows done
  exact .inr ⟨jobs, rows, valid, done, rfl⟩

theorem candidate_claimable (member : id ∈ claimCandidates now request locked rows) :
    ∃ row ∈ rows, row.id = id ∧ claimable now request row = true ∧ id ∉ locked := by
  obtain ⟨row, taken, rfl⟩ := List.mem_map.mp member
  have sorted := List.mem_of_mem_take taken
  rw [List.mem_insertionSort, List.mem_filter, Bool.and_eq_true, decide_eq_true_eq] at sorted
  exact ⟨row, sorted.1, rfl, sorted.2.1, sorted.2.2⟩

theorem candidates_limit (now : Nat) (request : ClaimRequest) (locked : List Uuid) (rows : List JobRow) :
    (claimCandidates now request locked rows).length ≤ request.limit.toNat := by
  rw [claimCandidates, List.length_map]
  exact List.length_take_le _ _

theorem claim_statement_ok (done : claimStatement now request locked db = .ok (jobs, rows)) :
    rows = (db.jobs.rows.filter (fun row => decide (row.id ∈ claimCandidates now request locked db.jobs.rows))).map
        (leasedRow now request) ∧
      ∀ id, jobs.find id = (db.jobs.find id).map (fun row =>
        if row.id ∈ claimCandidates now request locked db.jobs.rows then leasedRow now request row else row) := by
  unfold claimStatement at done
  split at done
  · refine ⟨update_returns _ done, ?_⟩
    intro id
    rw [update_ok _ done id]
    simp
  · cases done

theorem statement_row (done : claimStatement now request locked db = .ok (jobs, rows)) (member : row ∈ rows) :
    ∃ old ∈ db.jobs.rows, row = leasedRow now request old ∧ claimable now request old = true := by
  rw [(claim_statement_ok done).1] at member
  obtain ⟨old, chosen, rfl⟩ := List.mem_map.mp member
  obtain ⟨present, candidate⟩ := List.mem_filter.mp chosen
  obtain ⟨other, otherPresent, same, due, _⟩ := candidate_claimable (of_decide_eq_true candidate)
  have key : other = old := List.inj_on_of_nodup_map db.jobs.keys otherPresent present same
  exact ⟨old, present, rfl, key ▸ due⟩

theorem leased_check (now : Nat) (valid : claimInvalid request = none) (clean : textParam request.workerID = true)
    (checked : row.check = true) : (leasedRow now request row).check = true := by
  have owner : textOk 1 128 request.workerID = true := by
    unfold claimInvalid at valid
    split at valid
    · cases valid
    rename_i plain
    split at valid
    · cases valid
    rename_i short
    have named : request.workerID.utf8ByteSize ≠ 0 := by
      intro empty
      rw [String.utf8ByteSize_eq_zero_iff] at empty
      simp [empty] at plain
    have clean : request.workerID.toList.contains '\x00' = false := by simpa [textParam] using clean
    simp only [textOk, clean, Bool.not_false, Bool.and_true, Bool.and_eq_true, decide_eq_true_eq]
    omega
  simp only [JobRow.check, Bool.and_eq_true, decide_eq_true_eq] at checked ⊢
  obtain ⟨⟨⟨⟨body, attempts⟩, generation⟩, _⟩, errors⟩ := checked
  refine ⟨⟨⟨⟨body, ?_⟩, ?_⟩, ?_⟩, errors⟩
  · change 0 ≤ row.attempts + 1
    omega
  · change 0 ≤ row.leaseGeneration + 1
    omega
  · simp [JobRow.leaseCheck, leasedRow, optionalTextOk, owner]

theorem claim_statement_succeeds (now : Nat) (locked : List Uuid) (db : Db) (valid : claimInvalid request = none)
    (clean : textParam request.workerID = true) :
    ∃ jobs rows, claimStatement now request locked db = .ok (jobs, rows) := by
  unfold claimStatement
  rw [if_pos clean, Table.update, dif_pos]
  · exact ⟨_, _, rfl⟩
  · intro row member _
    exact leased_check now valid clean (db.jobs.checked row member)

def lockOthers (db : Db) (id : Uuid) : List Uuid :=
  (db.jobs.rows.map (fun row => row.id)).filter (fun other => decide (other ≠ id))

theorem unlocked_alone (member : row ∈ db.jobs.rows) (hit : pred row = true) :
    db.jobs.rows.filter (fun other => pred other && decide (other.id ∉ lockOthers db row.id)) = [row] := by
  refine filter_single member ?_ ?_
  · simp [hit, lockOthers]
  · intro other present free
    rw [Bool.and_eq_true, decide_eq_true_eq] at free
    have same : other.id = row.id := by
      by_contra apart
      exact free.2 (List.mem_filter.mpr ⟨List.mem_map_of_mem present, decide_eq_true apart⟩)
    exact List.inj_on_of_nodup_map db.jobs.keys present member same

theorem claim_candidates_alone (member : row ∈ db.jobs.rows) (some : 1 ≤ request.limit)
    (due : claimable now request row = true) :
    claimCandidates now request (lockOthers db row.id) db.jobs.rows = [row.id] := by
  have room : 1 ≤ request.limit.toNat := by omega
  rw [claimCandidates, unlocked_alone member due, List.insertionSort_cons, List.insertionSort_nil,
    List.orderedInsert_nil, List.take_of_length_le room]
  rfl

theorem exhausted_candidates_alone {queues names : List String} {limit : Int} (member : row ∈ db.jobs.rows)
    (some : 1 ≤ limit) (due : exhausted now queues names row = true) :
    exhaustedCandidates now queues names limit (lockOthers db row.id) db.jobs.rows = [row.id] := by
  have room : 1 ≤ limit.toNat := by omega
  rw [exhaustedCandidates, unlocked_alone member due, List.insertionSort_cons, List.insertionSort_nil,
    List.orderedInsert_nil, List.take_of_length_le room]
  rfl

theorem fence_cases (now : Nat) (lease : Lease) (id : Uuid) (db : Db) :
    (∃ row, db.jobs.find id = some row ∧ owns now lease id row = true ∧
      db.jobs.rows.filter (owns now lease id) = [row]) ∨
    (∀ row ∈ db.jobs.rows, owns now lease id row = false) := by
  have pinned : ∀ row, owns now lease id row = true → jobsSchema.key row = id := by
    intro row hit
    simp only [owns, Bool.and_eq_true, decide_eq_true_eq] at hit
    exact hit.1.1
  have filtered := filter_pinned db.jobs (owns now lease id) pinned
  cases found : (db.jobs.find id).filter (owns now lease id) with
  | some row =>
    obtain ⟨present, hit⟩ := Option.filter_eq_some_iff.mp found
    exact .inl ⟨row, present, hit, by rw [filtered, found]; rfl⟩
  | none =>
    right
    intro row member
    rw [found] at filtered
    simpa using List.filter_eq_nil_iff.mp filtered row member

def Fences (now : Nat) (lease : Lease) (db : Db) (id : Uuid) (result : JobRow → Option JobRow)
    (outcome : Except SqlError (Table jobsSchema × List JobRow)) : Prop :=
  (∃ cause, outcome = .error cause) ∨ outcome = .ok (db.jobs, []) ∨
  ∃ row jobs changed, db.jobs.find id = some row ∧ owns now lease id row = true ∧ outcome = .ok (jobs, [changed]) ∧
    ∀ other, jobs.find other = if other = id then result row else db.jobs.find other

theorem owns_elsewhere (now : Nat) (lease : Lease) {other : Uuid} (different : other ≠ id)
    (found : db.jobs.find other = some row) : owns now lease id row = false := by
  have key : row.id = other := find_key found
  simp only [owns, key, different, false_and, decide_false, Bool.false_and]

theorem update_fences {lease : Lease} (db : Db) {assign : Assign jobsSchema (owns now lease id)} :
    Fences now lease db id (fun row => some (assign.set row)) (db.jobs.update (owns now lease id) assign) := by
  rcases fence_cases now lease id db with ⟨row, found, hit, single⟩ | miss
  · cases done : db.jobs.update (owns now lease id) assign with
    | error cause => exact .inl ⟨cause, rfl⟩
    | ok result =>
      obtain ⟨jobs, changed⟩ := result
      have returned : changed = [assign.set row] := by
        rw [update_returns _ done, single, List.map_cons, List.map_nil]
      refine .inr (.inr ⟨row, jobs, assign.set row, found, hit, by rw [returned], ?_⟩)
      intro other
      rw [update_ok _ done other]
      by_cases here : other = id
      · subst here
        simp [found, hit]
      · rw [if_neg here]
        cases elsewhere : db.jobs.find other with
        | none => rfl
        | some stranger => simp [owns_elsewhere now lease here elsewhere]
  · exact .inr (.inl (update_none miss))

theorem delete_fences (now : Nat) (lease : Lease) (db : Db) (id : Uuid) :
    Fences now lease db id (fun _ => none) (.ok (db.jobs.delete (owns now lease id))) := by
  rcases fence_cases now lease id db with ⟨row, found, hit, single⟩ | miss
  · refine .inr (.inr ⟨row, (db.jobs.delete (owns now lease id)).1, row, found, hit, ?_, ?_⟩)
    · rw [← single]
      rfl
    · intro other
      rw [find_delete]
      by_cases here : other = id
      · subst here
        simp [found, hit]
      · rw [if_neg here]
        cases elsewhere : db.jobs.find other with
        | none => rfl
        | some stranger => simp [owns_elsewhere now lease here elsewhere]
  · exact .inr (.inl (by rw [delete_none miss]))

theorem exec_fenced_cases {lease : Lease} (texts : List String)
    {statement : Uuid → Except SqlError (Table jobsSchema × List JobRow)} {result : JobRow → Option JobRow}
    (fences : ∀ id, Fences now lease db id result (statement id)) :
    ((execFenced lease texts db statement).1.1 = false ∧ (execFenced lease texts db statement).2 = db) ∨
    ∃ id row jobs, castUuid lease.jobID = some id ∧ db.jobs.find id = some row ∧ owns now lease id row = true ∧
      execFenced lease texts db statement = ((true, none), { db with jobs := jobs }) ∧
      ∀ other, jobs.find other = if other = id then result row else db.jobs.find other := by
  unfold execFenced
  cases cast : castUuid lease.jobID with
  | none => exact .inl ⟨rfl, rfl⟩
  | some id =>
    dsimp only
    split
    · rcases fences id with ⟨cause, failed⟩ | missed | ⟨row, jobs, changed, found, hit, done, lookup⟩
      · rw [failed]
        exact .inl ⟨rfl, rfl⟩
      · rw [missed]
        exact .inl ⟨rfl, rfl⟩
      · rw [done]
        exact .inr ⟨id, row, jobs, rfl, found, hit, rfl, lookup⟩
    · exact .inl ⟨rfl, rfl⟩

theorem move_cases {kind message : String} {next : Db} {removed : List JobRow}
    (done : moveToFailed now kind message pred db = .ok (next, removed)) (id : Uuid) :
    (∃ row, db.jobs.find id = some row ∧ pred row = true ∧ db.failed.find id = none ∧
      next.jobs.find id = none ∧ next.failed.find id = some (failedRow now kind message row)) ∨
    ((∀ row, db.jobs.find id = some row → pred row = false) ∧
      next.jobs.find id = db.jobs.find id ∧ next.failed.find id = db.failed.find id) := by
  unfold moveToFailed at done
  dsimp only at done
  cases inserted : db.failed.insertAll ((db.jobs.delete pred).2.map (failedRow now kind message)) with
  | error cause =>
    rw [inserted] at done
    cases done
  | ok failed =>
    rw [inserted] at done
    cases done
    obtain ⟨fresh, lookup⟩ := insert_all_ok _ inserted
    have kept := find_delete db.jobs pred id
    have moved : failed.find id =
        (((db.jobs.find id).filter pred).map (failedRow now kind message)).or (db.failed.find id) := by
      rw [lookup id, List.find?_map, ← find_deleted]
      rfl
    cases found : db.jobs.find id with
    | none =>
      right
      rw [found] at kept moved
      exact ⟨by simp, kept, moved⟩
    | some row =>
      rw [found] at kept moved
      by_cases hit : pred row = true
      · left
        rw [Option.filter_some, if_pos hit] at moved
        rw [Option.filter_some, if_neg (by simp [hit])] at kept
        have member : row ∈ (db.jobs.delete pred).2 :=
          (delete_returns db.jobs pred row).mpr ⟨by rw [find_key found]; exact found, hit⟩
        have absent := fresh (failedRow now kind message row) (List.mem_map_of_mem member)
        refine ⟨row, rfl, hit, ?_, kept, moved⟩
        rw [← find_key found]
        exact absent
      · right
        rw [Option.filter_some, if_neg hit] at moved
        rw [Option.filter_some, if_pos (by simp [hit])] at kept
        exact ⟨by simpa using hit, kept, moved⟩

theorem move_nothing {now : Nat} {kind message : String} (miss : ∀ row ∈ db.jobs.rows, pred row = false) :
    moveToFailed now kind message pred db = .ok (db, []) := by
  unfold moveToFailed
  rw [delete_none miss]
  rfl

theorem fail_cases (store : Store) (now : Nat) (request : FailureRequest) (db : Db) :
    ((fail store now request db).1.1 = false ∧ (fail store now request db).2 = db) ∨
    ∃ id row, castUuid request.lease.jobID = some id ∧ db.jobs.find id = some row ∧
      owns now request.lease id row = true ∧ db.failed.find id = none ∧
      (fail store now request db).1 = (true, none) ∧
      (∀ other, (fail store now request db).2.jobs.find other = if other = id then none else db.jobs.find other) ∧
      (∀ other, (fail store now request db).2.failed.find other =
        if other = id then some (failedRow now request.kind
          (boundedSafeFailureMessage store request.kind request.error) row) else db.failed.find other) := by
  unfold fail
  split
  · exact .inl ⟨rfl, rfl⟩
  cases cast : castUuid request.lease.jobID with
  | none => exact .inl ⟨rfl, rfl⟩
  | some id =>
    dsimp only
    split
    · rcases fence_cases now request.lease id db with ⟨row, found, hit, single⟩ | miss
      · cases done : moveToFailed now request.kind (boundedSafeFailureMessage store request.kind request.error)
            (owns now request.lease id) db with
        | error cause => exact .inl ⟨rfl, rfl⟩
        | ok result =>
          obtain ⟨next, removed⟩ := result
          have moved := move_cases done
          have returned : removed = [row] := by
            unfold moveToFailed at done
            dsimp only at done
            split at done
            · cases done
            cases done
            exact single
          have others : ∀ target, target ≠ id → next.jobs.find target = db.jobs.find target ∧
              next.failed.find target = db.failed.find target := by
            intro target apart
            rcases moved target with ⟨stranger, strange, owned, _⟩ | ⟨_, stays⟩
            · rw [owns_elsewhere now request.lease apart strange] at owned
              cases owned
            · exact stays
          rcases moved id with ⟨other, otherFound, _, absent, gone, arrived⟩ | ⟨kept, _⟩
          · obtain rfl : other = row := Option.some.inj (otherFound.symm.trans found)
            refine .inr ⟨id, other, rfl, found, hit, absent, by rw [returned]; rfl, ?_, ?_⟩
            · intro target
              by_cases same : target = id
              · rw [if_pos same, same]
                exact gone
              · rw [if_neg same]
                exact (others target same).1
            · intro target
              by_cases same : target = id
              · rw [if_pos same, same]
                exact arrived
              · rw [if_neg same]
                exact (others target same).2
          · rw [kept row found] at hit
            cases hit
      · rw [move_nothing miss]
        exact .inl ⟨rfl, rfl⟩
    · exact .inl ⟨rfl, rfl⟩

theorem delete_failed (db : Db) (id : Uuid) :
    (db.failed.find id = none ∧ db.failed.delete (fun row => decide (row.id = id)) = (db.failed, [])) ∨
    ∃ row, db.failed.find id = some row ∧ (db.failed.delete (fun row => decide (row.id = id))).2 = [row] ∧
      ∀ other, (db.failed.delete (fun row => decide (row.id = id))).1.find other =
        if other = id then none else db.failed.find other := by
  cases found : db.failed.find id with
  | none =>
    have absent := (find_none_iff db.failed id).mp found
    exact .inl ⟨rfl, delete_none (fun row member => decide_eq_false (absent row member))⟩
  | some row =>
    refine .inr ⟨row, rfl, ?_, ?_⟩
    · have key : row.id = id := find_key found
      refine (filter_pinned db.failed (fun row => decide (row.id = id)) (fun _ hit => of_decide_eq_true hit)).trans ?_
      simp [found, key]
    · intro other
      rw [find_delete]
      cases present : db.failed.find other with
      | none => simp
      | some stored =>
        have key : stored.id = other := find_key present
        by_cases same : other = id <;> simp [key, same]

theorem retry_failed_cases (now : Nat) (text : String) (db : Db) :
    ((retryFailed now text db).1.1 = false ∧ (retryFailed now text db).2 = db) ∨
    ∃ id row, castUuid text = some id ∧ db.failed.find id = some row ∧ db.jobs.find id = none ∧
      (retryFailed now text db).1 = (true, none) ∧
      (∀ other, (retryFailed now text db).2.jobs.find other =
        if other = id then some (restoredRow now row) else db.jobs.find other) ∧
      (∀ other, (retryFailed now text db).2.failed.find other =
        if other = id then none else db.failed.find other) := by
  unfold retryFailed
  cases cast : castUuid text with
  | none => exact .inl ⟨rfl, rfl⟩
  | some id =>
    dsimp only
    rcases delete_failed db id with ⟨_, nothing⟩ | ⟨row, found, removed, kept⟩
    · rw [nothing]
      exact .inl ⟨rfl, rfl⟩
    · rw [removed]
      have key : row.id = id := find_key found
      cases inserted : db.jobs.insertAll ([row].map (restoredRow now)) with
      | error cause => exact .inl ⟨rfl, rfl⟩
      | ok jobs =>
        obtain ⟨fresh, lookup⟩ := insert_all_ok _ inserted
        have absent := fresh (restoredRow now row) (by simp)
        change db.jobs.find row.id = none at absent
        rw [key] at absent
        refine .inr ⟨id, row, rfl, found, absent, rfl, ?_, kept⟩
        intro other
        rw [lookup other]
        by_cases same : other = id
        · simp [same, jobsSchema, restoredRow, key]
        · have apart : id ≠ other := fun equal => same equal.symm
          simp [same, jobsSchema, restoredRow, key, apart]

theorem forget_failed_cases (text : String) (db : Db) :
    ((forgetFailed text db).1.1 = false ∧ (forgetFailed text db).2 = db) ∨
    ∃ id row, castUuid text = some id ∧ db.failed.find id = some row ∧
      (forgetFailed text db).1 = (true, none) ∧ (forgetFailed text db).2.jobs = db.jobs ∧
      (∀ other, (forgetFailed text db).2.failed.find other =
        if other = id then none else db.failed.find other) := by
  unfold forgetFailed
  cases cast : castUuid text with
  | none => exact .inl ⟨rfl, rfl⟩
  | some id =>
    dsimp only
    rcases delete_failed db id with ⟨_, nothing⟩ | ⟨row, found, removed, kept⟩
    · rw [nothing]
      exact .inl ⟨rfl, rfl⟩
    · rw [removed]
      exact .inr ⟨id, row, rfl, found, rfl, rfl, kept⟩

end Goforge.Job

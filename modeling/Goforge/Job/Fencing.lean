import Goforge.Job.Cell

set_option autoImplicit false

namespace Goforge.Job

open GoTime Sql Machine

-- The calls that put a row under this id with generation 0: an operator's
-- restore of the failed job, and an enqueue that takes the id again.
def restarts (id : Uuid) (db : Db) : Call → Bool
  | .retryFailed text => decide (castUuid text = some id) && (db.failed.find id).isSome
  | .enqueue request => decide (castUuid request.id = some id) && (db.jobs.find id).isNone
  | _ => false

def Superseded (pg : Server) (store : Store) (ok : World → Step → Prop) (id : Uuid) (old new : Lease) (w : World) :
    Prop :=
  ∃ (w₀ w₁ w₂ w₃ : World) (first second : Step) (between later : List Step),
    Reach (queue pg store) w₀ ∧ (queue pg store).step w₀ first w₁ ∧
    old ∈ (w₀.entry pg store first).reply.leases id ∧ Run ((queue pg store).guard ok) w₁ between w₂ ∧
    ((queue pg store).guard ok).step w₂ second w₃ ∧ new ∈ (w₂.entry pg store second).reply.leases id ∧
    Run ((queue pg store).guard ok) w₃ later w

def GenerationFrom (id : Uuid) (bound : Int) (w : World) : Prop :=
  ∀ row, w.db.jobs.find id = some row → bound ≤ row.leaseGeneration

variable {pg : Server} {store : Store} {id : Uuid} {bound : Int} {w w' : World}

theorem cell_generation {now : Nat} {db : Db} {call : Call} {reply : Reply} {after : Cell}
    (step : CellStep pg store now id call reply (db.cell id) after) (kept : restarts id db call = false)
    (floor : ∀ row, (db.cell id).job = some row → bound ≤ row.leaseGeneration) {row : JobRow}
    (found : after.job = some row) : bound ≤ row.leaseGeneration := by
  generalize before : db.cell id = cell at step floor
  have cellJob : db.jobs.find id = cell.job := congrArg Cell.job before
  have cellFailed : db.failed.find id = cell.failed := congrArg Cell.failed before
  cases step with
  | idle => exact floor row found
  | inserted request payload enqueued failed accepted requested stored =>
    simp [restarts, requested, cellJob] at kept
  | leased request locked result old failed accepted due returned =>
    cases found
    have least := floor old rfl
    change bound ≤ old.leaseGeneration + 1
    omega
  | extended lease duration old failed presented hit least =>
    cases found
    exact floor old rfl
  | retried request old failed presented hit =>
    cases found
    exact floor old rfl
  | released lease old failed presented hit =>
    cases found
    exact floor old rfl
  | restored text old named => simp [restarts, named, cellFailed] at kept
  | forgotten text old job named => exact floor row found
  | _ => cases found

theorem step_generation {step : Step}
    (taken : ((queue pg store).guard (fun w step => restarts id w.db step.call = false)).step w step w')
    (floor : GenerationFrom id bound w) : GenerationFrom id bound w' := by
  intro row found
  exact cell_generation (world_cell pg store taken.2 id) taken.1 floor found

theorem run_generation {steps : List Step}
    (run : Run ((queue pg store).guard (fun w step => restarts id w.db step.call = false)) w steps w')
    (floor : GenerationFrom id bound w) : GenerationFrom id bound w' :=
  run_invariant (fun _ _ _ floor taken => step_generation taken floor) run floor

theorem handed_generation {step : Step} {lease : Lease} (taken : (queue pg store).step w step w')
    (handed : lease ∈ (w.entry pg store step).reply.leases id) :
    lease.jobID = id.text ∧ GenerationFrom id lease.generation w' ∧
      ∃ row, w.db.jobs.find id = some row ∧ lease.generation = row.leaseGeneration + 1 := by
  have effect := world_cell pg store taken id
  obtain ⟨delivery, member, rfl⟩ := List.mem_map.mp handed
  obtain ⟨request, _, row, _, _, before, after, rfl⟩ := delivered_cell effect member
  have key : row.id = id := find_key before
  refine ⟨congrArg Uuid.text key, ?_, row, before, rfl⟩
  intro stored found
  rw [Option.some.inj (found.symm.trans after)]
  exact le_refl _

theorem stale_lease_refused (pg : Server) (store : Store) (now : Nat) {lease : Lease} (named : lease.jobID = id.text)
    (stale : lease.generation < bound) (floor : GenerationFrom id bound w) {call : Call}
    (presents : call.lease = some lease) :
    (exec pg store now w.db call).1.isOwned = false ∧ (exec pg store now w.db call).2 = w.db := by
  rcases fenced_exec pg store now w.db presents with silent | ⟨owner, row, cast, found, hit⟩
  · exact silent
  · rw [named, cast_text] at cast
    cases cast
    have least := floor row found
    simp only [owns, Bool.and_eq_true, decide_eq_true_eq] at hit
    omega

-- As long as the job is not restored from the failed table and its id is not
-- enqueued again, a claim supersedes every earlier lease for good.
theorem superseded_lease_is_fenced (pg : Server) (store : Store) (id : Uuid) (old new : Lease) (w : World)
    (superseded : Superseded pg store (fun w step => restarts id w.db step.call = false) id old new w) :
    old.generation < new.generation ∧ old ≠ new ∧
      ∀ (now : Nat) (call : Call), call.lease = some old →
        (exec pg store now w.db call).1.isOwned = false ∧ (exec pg store now w.db call).2 = w.db := by
  obtain ⟨w₀, w₁, w₂, w₃, first, second, between, later, _, claimed, handedOld, run, again, handedNew, rest⟩ :=
    superseded
  obtain ⟨named, floorOld, _⟩ := handed_generation claimed handedOld
  obtain ⟨_, floorNew, row, found, next⟩ := handed_generation again.2 handedNew
  have kept : old.generation ≤ row.leaseGeneration := run_generation run floorOld row found
  have larger : old.generation < new.generation := by omega
  refine ⟨larger, ?_, ?_⟩
  · rintro rfl
    omega
  · intro now call presents
    exact stale_lease_refused pg store now named larger
      (run_generation rest floorNew) presents

def sampleLease : Lease := ⟨sampleId.text, "worker-a", 1⟩

theorem superseded_lease_is_fenced_sample :
    let w := World.start.after sampleServer defaultStore
      [⟨1000, .enqueue { sampleRequest with maxAttempts := 2 }⟩, ⟨2000, .claim sampleClaim []⟩,
        ⟨1000002000, .claim sampleClaim []⟩]
    sampleLease ≠ { sampleLease with generation := 2 } ∧
      (exec sampleServer defaultStore 1000003000 w.db (.ack sampleLease)).1.isOwned = false := by
  have fenced := superseded_lease_is_fenced sampleServer defaultStore sampleId sampleLease
    { sampleLease with generation := 2 } _
    ⟨World.start.after sampleServer defaultStore [⟨1000, .enqueue { sampleRequest with maxAttempts := 2 }⟩], _, _, _,
      ⟨2000, .claim sampleClaim []⟩, ⟨1000002000, .claim sampleClaim []⟩, [], [],
      reach_guard (follows_reach sampleServer defaultStore (fun _ _ => true) (by decide +kernel)),
      ⟨by decide +kernel, rfl⟩, by decide +kernel, .nil _, ⟨by decide +kernel, by decide +kernel, rfl⟩,
      by decide +kernel, .nil _⟩
  exact ⟨fenced.2.1, (fenced.2.2 1000003000 (.ack sampleLease) rfl).1⟩

theorem restored_job_reissues_lease :
    let w := World.start.after sampleServer defaultStore
      [⟨1000, .enqueue sampleRequest⟩, ⟨2000, .claim sampleClaim []⟩,
        ⟨1000002000, .failExhausted ["default"] ["mail.send.v1"] 10 []⟩, ⟨1000003000, .retryFailed sampleId.text⟩,
        ⟨1000004000, .claim sampleClaim []⟩]
    Superseded sampleServer defaultStore (fun _ _ => True) sampleId sampleLease sampleLease w ∧
      (exec sampleServer defaultStore 1000005000 w.db (.ack sampleLease)).1.isOwned = true ∧
      (w.db.jobs.find sampleId).isSome = true ∧
      ((exec sampleServer defaultStore 1000005000 w.db (.ack sampleLease)).2.jobs.find sampleId).isSome = false := by
  refine ⟨⟨World.start.after sampleServer defaultStore [⟨1000, .enqueue sampleRequest⟩], _,
      World.start.after sampleServer defaultStore
        [⟨1000, .enqueue sampleRequest⟩, ⟨2000, .claim sampleClaim []⟩,
          ⟨1000002000, .failExhausted ["default"] ["mail.send.v1"] 10 []⟩, ⟨1000003000, .retryFailed sampleId.text⟩],
      _, ⟨2000, .claim sampleClaim []⟩, ⟨1000004000, .claim sampleClaim []⟩,
      [⟨1000002000, .failExhausted ["default"] ["mail.send.v1"] 10 []⟩, ⟨1000003000, .retryFailed sampleId.text⟩], [],
      reach_guard (follows_reach sampleServer defaultStore (fun _ _ => true) (by decide +kernel)),
      ⟨by decide +kernel, rfl⟩, by decide +kernel, ?_, ⟨trivial, by decide +kernel, rfl⟩, by decide +kernel, .nil _⟩,
    by decide +kernel, by decide +kernel, by decide +kernel⟩
  exact .cons _ _ _ _ _ ⟨trivial, by decide +kernel, rfl⟩ (.cons _ _ _ _ _ ⟨trivial, by decide +kernel, rfl⟩ (.nil _))

end Goforge.Job

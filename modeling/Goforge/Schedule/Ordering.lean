import Goforge.Schedule.Schedulers

set_option autoImplicit false

namespace Goforge.Schedule

open GoTime Sql Search Machine

def Above (log : List Commit) (t : Int) : Prop := ∀ commit ∈ log, commit.occurrence < t

structure Picked (members : Set Int) (definition : Definition) (commit : Commit) : Prop where
  member : commit.occurrence ∈ members
  due : commit.occurrence ≤ commit.now
  grace : commit.now - definition.misfireGrace ≤ commit.occurrence

section

variable (members : Set Int) (definition : Definition)

-- Only the owner's phase says anything about the committed state: the cursor it
-- read is the latest one, and nothing committed since.
def PhaseOk (s : Shared) (tid : Nat) : Phase → Prop
  | .relocking (some _) => s.owner = some tid ∧ s.log = []
  | .locked stored view => s.owner = some tid ∧ view.find definition.name = some stored ∧ Above s.log stored.nextRunAt
  | .dispatching stored now nextRunAt occurrence _ =>
    s.owner = some tid ∧ stored.name = definition.name ∧ Above s.log stored.nextRunAt ∧ stored.nextRunAt ≤ occurrence ∧
      (now : Int) < nextRunAt ∧ Picked members definition ⟨occurrence, now⟩
  | .advancing stored now nextRunAt _ _ _ record _ =>
    s.owner = some tid ∧ stored.name = definition.name ∧ Above s.log stored.nextRunAt ∧
      stored.nextRunAt ≤ now ∧ (now : Int) < nextRunAt ∧
      ∀ commit ∈ record, stored.nextRunAt ≤ commit.occurrence ∧ commit.now = now ∧ Picked members definition commit
  | .finishing (some view) record =>
    s.owner = some tid ∧ (view.find definition.name = none → s.log = []) ∧
      (∀ row, view.find definition.name = some row → Above (record.toList ++ s.log) row.nextRunAt) ∧
      ∀ commit ∈ record, (view.find definition.name).isSome ∧ Above s.log commit.occurrence ∧
        Picked members definition commit
  | .finishing none record => record = none
  | _ => True

structure LogOk (s : Shared) : Prop where
  sorted : s.log.Pairwise (fun later earlier => earlier.occurrence < later.occurrence)
  picked : ∀ commit ∈ s.log, Picked members definition commit
  cursor : ∀ row, s.committed.find definition.name = some row → Above s.log row.nextRunAt
  present : s.committed.find definition.name = none → s.log = []

structure Ordered (s : Schedulers) : Prop where
  log : LogOk members definition s.shared
  phase : ∀ tid, PhaseOk members definition s.shared tid (s.phase tid)
  valid : ∀ tid, (s.phase tid).busy = true → validateDefinition definition = none

structure Kept (s : Shared) (tid : Nat) (s' : Shared) (phase : Phase) : Prop where
  log : LogOk members definition s'
  own : PhaseOk members definition s' tid phase
  others : ∀ other, other ≠ tid → s.owner = some other → s'.owner = some other ∧ s'.log = s.log

variable {members definition} {s : Shared} {tid : Nat} {phase : Phase}

theorem phase_transfer {s' : Shared} (keeps : s.owner = some tid → s'.owner = some tid ∧ s'.log = s.log)
    (ok : PhaseOk members definition s tid phase) : PhaseOk members definition s' tid phase := by
  unfold PhaseOk at ok ⊢
  split at ok
  case h_6 => exact ok
  case h_7 => trivial
  -- The other phases hold the lock, so nothing they speak of has changed.
  all_goals exact ⟨(keeps ok.1).1, (keeps ok.1).2 ▸ ok.2⟩

theorem kept_same (log : LogOk members definition s)
    (own : PhaseOk members definition s tid phase) : Kept members definition s tid s phase :=
  ⟨log, own, fun _ _ held => ⟨held, rfl⟩⟩

theorem not_held_by_other {other : Nat} (free : s.heldByOther tid = false) (different : other ≠ tid) :
    s.owner ≠ some other := by
  intro held
  simp only [Shared.heldByOther, held, Option.any_some, decide_eq_false_iff_not, not_not] at free
  exact different free

theorem kept_acquired (log : LogOk members definition s)
    (free : s.heldByOther tid = false) (own : PhaseOk members definition { s with owner := some tid } tid phase) :
    Kept members definition s tid { s with owner := some tid } phase :=
  ⟨⟨log.sorted, log.picked, log.cursor, log.present⟩, own,
    fun _ different held => absurd held (not_held_by_other free different)⟩

theorem release_others {other : Nat} (different : other ≠ tid) (held : s.owner = some other) :
    (s.release tid).owner = some other := by
  have elsewhere : s.owner ≠ some tid := by
    rw [held]
    exact fun same => different (Option.some.inj same)
  rw [Shared.release, if_neg elsewhere, held]

theorem kept_released (log : LogOk members definition s) :
    Kept members definition s tid (s.release tid) .idle :=
  ⟨⟨log.sorted, log.picked, log.cursor, log.present⟩, trivial,
    fun _ different held => ⟨release_others different held, rfl⟩⟩

theorem locking_kept {skipped : Phase} (log : LogOk members definition s)
    (idle : PhaseOk members definition s tid skipped) :
    Kept members definition s tid (locking definition tid s skipped).1 (locking definition tid s skipped).2 := by
  unfold locking Shared.lockable
  cases held : s.heldByOther tid with
  | true => exact kept_same log idle
  | false =>
    cases found : s.committed.find definition.name with
    | none => exact kept_same log idle
    | some stored => exact kept_acquired log held ⟨rfl, found, log.cursor stored found⟩

theorem inserted_kept {row : ScheduleRow} {next : Shared × Phase} (log : LogOk members definition s)
    (done : inserted definition tid s row = some next) :
    Kept members definition s tid next.1 next.2 := by
  unfold inserted at done
  split at done
  · cases done
    exact kept_same log trivial
  · rename_i absent
    split at done
    · cases done
    rename_i free
    split at done
    · cases done
      exact kept_same log trivial
    · cases done
      exact kept_acquired log (Bool.eq_false_iff.mpr free) ⟨rfl, log.present absent⟩

theorem evaluated_ok (now : Nat) {stored : ScheduleRow} {view : Table schedulesSchema}
    (whole : ∀ m ∈ members, truncateMinute m = m) (successor : NextIn members zeroTime definition.next)
    (valid : validateDefinition definition = none) (ok : PhaseOk members definition s tid (.locked stored view)) :
    PhaseOk members definition s tid (evaluateLocked definition stored view now) := by
  obtain ⟨owned, found, above⟩ := ok
  have named : stored.name = definition.name := find_key found
  unfold evaluateLocked
  split
  · trivial
  · cases evaluated : evaluate definition stored now with
    | error err => trivial
    | ok decision =>
      have facts := evaluate_ok evaluated
      cases decision with
      | notDue =>
        refine ⟨owned, fun absent => absurd (found.symm.trans absent) (Option.some_ne_none _), ?_, ?_⟩
        · intro row present
          cases found.symm.trans present
          exact above
        · intro commit member
          cases member
      | skip nextRunAt =>
        obtain ⟨due, computed, _⟩ := facts
        refine ⟨owned, named, above, due, next_after_later computed, ?_⟩
        intro commit member
        cases member
      | dispatch nextRunAt occurrence =>
        obtain ⟨due, computed, searched⟩ := facts
        have window := window_start_max definition stored now
        rcases window_searched whole successor valid due with
          ⟨picked, here, member, inside, before, _⟩ | ⟨nowhere, _⟩
        · cases Option.some.inj (Except.ok.inj (here.symm.trans searched))
          have grace : (now : Int) - definition.misfireGrace ≤ occurrence := by omega
          exact ⟨owned, named, above, by omega, next_after_later computed, member, before, grace⟩
        · rw [nowhere] at searched
          cases searched

theorem returned_ok {now : Nat} {stored : ScheduleRow} {nextRunAt occurrence : Int}
    (answer : Dispatched) {before : Table schedulesSchema} (view : Table schedulesSchema)
    (ok : PhaseOk members definition s tid (.dispatching stored now nextRunAt occurrence before)) :
    PhaseOk members definition s tid (returned stored now nextRunAt occurrence answer view) := by
  obtain ⟨owned, named, above, later, moved, picked⟩ := ok
  have due : occurrence ≤ now := picked.due
  unfold returned
  split
  · trivial
  · trivial
  · split
    · trivial
    · refine ⟨owned, named, above, by omega, moved, ?_⟩
      intro commit member
      cases member
      exact ⟨later, rfl, picked⟩

theorem updated_ok {now : Nat} {stored : ScheduleRow} {nextRunAt : Int} {occurrence : Option Int}
    {jobID : Option String} {outcome : Outcome} {record : Option Commit} {view : Table schedulesSchema}
    (ok : PhaseOk members definition s tid (.advancing stored now nextRunAt occurrence jobID outcome record view)) :
    PhaseOk members definition s tid (updated stored now nextRunAt occurrence jobID outcome record view) := by
  obtain ⟨owned, named, above, due, moved, recorded⟩ := ok
  unfold updated
  split
  · rename_i next done
    obtain ⟨old, _, _, lookup⟩ := advance_row_ok done
    have found := lookup definition.name
    rw [if_pos named.symm] at found
    refine ⟨owned, fun absent => absurd (found.symm.trans absent) (Option.some_ne_none _), ?_, ?_⟩
    · intro row present
      cases found.symm.trans present
      intro commit member
      rcases List.mem_append.mp member with fresh | logged
      · obtain ⟨_, reading, picked⟩ := recorded commit (Option.mem_toList.mp fresh)
        have before := picked.due
        rw [reading] at before
        exact Int.lt_of_le_of_lt before moved
      · exact Int.lt_of_lt_of_le (above commit logged) (by simp only [advancedRow]; omega)
    · intro commit member
      obtain ⟨later, _, picked⟩ := recorded commit member
      refine ⟨Option.isSome_iff_exists.mpr ⟨_, found⟩, ?_, picked⟩
      intro other logged
      exact Int.lt_of_lt_of_le (above other logged) later
  · trivial

theorem commit_kept {view : Option (Table schedulesSchema)} {record : Option Commit} (log : LogOk members definition s)
    (ok : PhaseOk members definition s tid (.finishing view record)) :
    Kept members definition s tid
      { s.release tid with committed := view.getD s.committed, log := record.toList ++ s.log } .idle := by
  cases view with
  | none =>
    cases (ok : record = none)
    exact kept_released log
  | some view =>
    obtain ⟨owned, kept, cursor, fresh⟩ := ok
    refine ⟨⟨?_, ?_, cursor, ?_⟩, trivial, ?_⟩
    · cases record with
      | none => exact log.sorted
      | some commit => exact List.pairwise_cons.mpr ⟨(fresh commit rfl).2.1, log.sorted⟩
    · intro commit member
      rcases List.mem_append.mp member with new | logged
      · exact (fresh commit (Option.mem_toList.mp new)).2.2
      · exact log.picked commit logged
    · intro absent
      cases record with
      | none => exact kept absent
      | some commit =>
        have present := (fresh commit rfl).1
        rw [Option.isSome_iff_ne_none] at present
        exact absurd absent present
    · intro other different held
      rw [owned] at held
      exact absurd (Option.some.inj held).symm different

theorem relocked_ok {view : Table schedulesSchema} (ok : PhaseOk members definition s tid (.relocking (some view))) :
    PhaseOk members definition s tid (relocked definition view) := by
  obtain ⟨owned, empty⟩ := ok
  have nothing : ∀ t, Above s.log t := by
    intro t commit member
    rw [empty] at member
    cases member
  unfold relocked
  split
  · refine ⟨owned, fun _ => empty, fun row _ => nothing row.nextRunAt, ?_⟩
    intro commit member
    cases member
  · rename_i stored found
    exact ⟨owned, found, nothing stored.nextRunAt⟩

theorem act_kept {action : Action} {next : Shared × Phase}
    (whole : ∀ m ∈ members, truncateMinute m = m) (successor : NextIn members zeroTime definition.next)
    (log : LogOk members definition s) (ok : PhaseOk members definition s tid phase)
    (valid : phase.busy = true → validateDefinition definition = none)
    (done : act definition tid s phase action = some next) :
    Kept members definition s tid next.1 next.2 ∧ validateDefinition definition = none := by
  have same : ∀ after, PhaseOk members definition s tid after → some (s, after) = some next →
      Kept members definition s tid next.1 next.2 := by
    intro after own eq
    cases eq
    exact kept_same log own
  cases action with
  | begin =>
    simp only [act] at done
    split at done
    · rename_i accepted
      exact ⟨same .locking trivial done, accepted.2⟩
    · cases done
  | lock =>
    simp only [act] at done
    split at done
    · cases done
      exact ⟨locking_kept log trivial, valid rfl⟩
    · cases done
      exact ⟨locking_kept log rfl, valid rfl⟩
    · rename_i view
      exact ⟨same _ (relocked_ok ok) done, valid rfl⟩
    · cases done
  | inspect =>
    simp only [act] at done
    split at done
    · refine ⟨same _ ?_ done, valid rfl⟩
      split
      · exact rfl
      · trivial
    · cases done
  | initialClock now =>
    simp only [act] at done
    split at done
    · split at done
      · exact ⟨same .failed trivial done, valid rfl⟩
      · exact ⟨same (.inserting _) trivial done, valid rfl⟩
    · cases done
  | insert =>
    simp only [act] at done
    split at done
    · exact ⟨inserted_kept log done, valid rfl⟩
    · cases done
  | evaluate now =>
    simp only [act] at done
    split at done
    · rename_i stored view
      exact ⟨same _ (evaluated_ok now whole successor (valid rfl) ok) done, valid rfl⟩
    · cases done
  | call answer view =>
    simp only [act] at done
    split at done
    · exact ⟨same _ (returned_ok answer view ok) done, valid rfl⟩
    · cases done
  | update =>
    simp only [act] at done
    split at done
    · exact ⟨same _ (updated_ok ok) done, valid rfl⟩
    · cases done
  | commit =>
    simp only [act] at done
    split at done
    · cases done
      exact ⟨commit_kept log ok, valid rfl⟩
    · cases done
  | abort =>
    simp only [act] at done
    split at done
    · rename_i busy
      cases done
      exact ⟨kept_released log, valid busy⟩
    · cases done

theorem step_ordered (whole : ∀ m ∈ members, truncateMinute m = m) (successor : NextIn members zeroTime definition.next)
    {s s' : Schedulers} {label : Nat × Action} (ordered : Ordered members definition s)
    (step : (schedulers definition).step s label s') : Ordered members definition s' := by
  obtain ⟨next, done, rfl⟩ := step
  obtain ⟨kept, accepted⟩ := act_kept whole successor ordered.log (ordered.phase label.1)
    (ordered.valid label.1) done
  refine ⟨kept.log, ?_, fun _ _ => accepted⟩
  intro tid
  by_cases own : tid = label.1
  · subst own
    simp only [Schedulers.set, if_pos]
    exact kept.own
  · simp only [Schedulers.set, if_neg own]
    exact phase_transfer (kept.others tid own) (ordered.phase tid)

theorem start_ordered {s : Schedulers} (initial : (schedulers definition).start s) : Ordered members definition s := by
  obtain ⟨_, empty, idle⟩ := initial
  refine ⟨⟨?_, ?_, ?_, fun _ => empty⟩, ?_, ?_⟩
  · rw [empty]
    exact .nil
  · intro commit member
    rw [empty] at member
    cases member
  · intro row _ commit member
    rw [empty] at member
    cases member
  · intro tid
    rw [idle tid]
    trivial
  · intro tid busy
    rw [idle tid] at busy
    cases busy

end

theorem no_duplicate_occurrence (members : Set Int) (definition : Definition)
    (whole : ∀ m ∈ members, truncateMinute m = m) (successor : NextIn members zeroTime definition.next) (s : Schedulers)
    (reached : Reach (schedulers definition) s) :
    s.shared.log.Pairwise (fun later earlier => earlier.occurrence < later.occurrence) ∧
    (∀ commit ∈ s.shared.log, commit.occurrence ∈ members ∧ commit.occurrence ≤ commit.now ∧
      commit.now - definition.misfireGrace ≤ commit.occurrence) ∧
    ∀ commit ∈ s.shared.log, ∃ row, s.shared.committed.find definition.name = some row ∧
      commit.occurrence < row.nextRunAt := by
  have ordered := reach_invariant (Ordered members definition) (fun _ => start_ordered)
    (fun _ _ _ => step_ordered whole successor) reached
  refine ⟨ordered.log.sorted, ?_, ?_⟩
  · intro commit logged
    have picked := ordered.log.picked commit logged
    exact ⟨picked.member, picked.due, picked.grace⟩
  · intro commit logged
    cases found : s.shared.committed.find definition.name with
    | none =>
      rw [ordered.log.present found] at logged
      cases logged
    | some row => exact ⟨row, rfl, ordered.log.cursor row found commit logged⟩

inductive Move where
  | act (action : Action)
  | answer (result : Job.DispatchResult)

def Move.action (phase : Phase) : Move → Action
  | .act action => action
  | .answer result =>
    match phase with
    | .dispatching _ _ _ _ view => .call (.returned (.ok result)) view
    | _ => .abort

def Schedulers.follow (definition : Definition) (s : Schedulers) : List (Nat × Move) → Option Schedulers
  | [] => some s
  | (tid, move) :: rest =>
    match Schedule.act definition tid s.shared (s.phase tid) (move.action (s.phase tid)) with
    | none => none
    | some next => (s.set tid next).follow definition rest

theorem follow_reach (definition : Definition) (s last : Schedulers) (moves : List (Nat × Move))
    (reached : Reach (schedulers definition) s) (done : s.follow definition moves = some last) :
    Reach (schedulers definition) last := by
  induction moves generalizing s with
  | nil =>
    cases done
    exact reached
  | cons label rest ih =>
    obtain ⟨tid, move⟩ := label
    rw [Schedulers.follow] at done
    split at done
    · cases done
    rename_i next moved
    exact ih _ (.next s _ (tid, move.action (s.phase tid)) reached ⟨next, moved, rfl⟩) done

def Schedulers.start : Schedulers := ⟨⟨Table.empty, none, []⟩, fun _ => .idle⟩

def sampleRace : List (Nat × Move) :=
  [(0, .act .begin), (1, .act .begin), (0, .act .lock), (1, .act .lock), (0, .act .inspect), (1, .act .inspect),
   (0, .act (.initialClock 90000000000)), (1, .act (.initialClock 61000000000)), (0, .act .insert), (0, .act .lock),
   (0, .act (.evaluate 90000000000)), (0, .answer ⟨"a", true⟩), (0, .act .update), (0, .act .commit),
   (1, .act .insert), (1, .act .lock), (1, .act (.evaluate 50000000000)), (1, .act .commit),
   (1, .act .begin), (1, .act .lock), (1, .act (.evaluate 400000000000)), (1, .answer ⟨"a", false⟩), (1, .act .update),
   (1, .act .commit)]

theorem no_duplicate_occurrence_sample :
    ∃ s, Reach (schedulers sampleDefinition) s ∧
      s.shared.log = [⟨6 * minute, 400000000000⟩, ⟨minute, 90000000000⟩] ∧
      s.shared.log.Pairwise (fun later earlier => earlier.occurrence < later.occurrence) := by
  have followed : (Schedulers.start.follow sampleDefinition sampleRace).map (fun s => s.shared.log) =
      some [⟨6 * minute, 400000000000⟩, ⟨minute, 90000000000⟩] := by decide +kernel
  obtain ⟨s, done, log⟩ := Option.map_eq_some_iff.mp followed
  have reached := follow_reach sampleDefinition Schedulers.start s sampleRace (.start _ ⟨rfl, rfl, fun _ => rfl⟩) done
  exact ⟨s, reached, log,
    (no_duplicate_occurrence everyMinute sampleDefinition (fun _ member => member) sample_successor s reached).1⟩

end Goforge.Schedule

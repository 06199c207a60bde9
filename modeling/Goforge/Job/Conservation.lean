import Goforge.Job.Cell

set_option autoImplicit false

namespace Goforge.Job

open Sql Machine

inductive Place where
  | queued
  | failed
  | acknowledged
  | forgotten
deriving DecidableEq

inductive LifeStep : Option Place → Option Place → Prop where
  | stay (life : Option Place) : LifeStep life life
  | enter : LifeStep none (some .queued)
  | acknowledge : LifeStep (some .queued) (some .acknowledged)
  | fail : LifeStep (some .queued) (some .failed)
  | restore : LifeStep (some .failed) (some .queued)
  | forget : LifeStep (some .failed) (some .forgotten)

def acknowledges (id : Uuid) : Call → Reply → Bool
  | .ack lease, reply => decide (castUuid lease.jobID = some id) && reply.isOwned
  | _, _ => false

def forgets (id : Uuid) : Call → Reply → Bool
  | .forgetFailed text, reply => decide (castUuid text = some id) && reply.isOwned
  | _, _ => false

def World.entered (w : World) (id : Uuid) : Bool := w.history.any (fun entry => enters id entry.call entry.reply)

def World.holds (w : World) (id : Uuid) : Place → Bool
  | .queued => (w.db.jobs.find id).isSome
  | .failed => (w.db.failed.find id).isSome
  | .acknowledged => w.history.any (fun entry => acknowledges id entry.call entry.reply)
  | .forgotten => w.history.any (fun entry => forgets id entry.call entry.reply)

def freshIds (w : World) (step : Step) : Bool :=
  match step.call with
  | .enqueue request =>
    match castUuid request.id with
    | some id => !w.entered id
    | none => true
  | _ => true

structure LivesAt (w : World) (id : Uuid) (life : Option Place) : Prop where
  entered : w.entered id = life.isSome
  places : ∀ place, w.holds id place = decide (life = some place)

theorem lives_next (pg : Server) (store : Store) (w : World) (step : Step) (id : Uuid) (life : Option Place)
    (reply : Reply) (cell : Cell) (replied : (w.entry pg store step).reply = reply)
    (left : (w.next pg store step).db.cell id = cell)
    (entered : (enters id step.call reply || w.entered id) = life.isSome)
    (queued : cell.job.isSome = decide (life = some .queued))
    (failed : cell.failed.isSome = decide (life = some .failed))
    (acknowledged : (acknowledges id step.call reply || w.holds id .acknowledged) = decide (life = some .acknowledged))
    (forgotten : (forgets id step.call reply || w.holds id .forgotten) = decide (life = some .forgotten)) :
    LivesAt (w.next pg store step) id life := by
  subst replied left
  refine ⟨entered, ?_⟩
  intro place
  cases place with
  | queued => exact queued
  | failed => exact failed
  | acknowledged => exact acknowledged
  | forgotten => exact forgotten

variable {id : Uuid} {call : Call} {reply : Reply} {w : World} {life : Option Place} {row : JobRow} {pg : Server}
  {store : Store}

theorem quiet_places {cell : Cell} (quiet : Quiet id cell call reply) :
    acknowledges id call reply = false ∧ forgets id call reply = false := by
  constructor
  · cases call with
    | ack lease =>
      by_cases named : castUuid lease.jobID = some id
      · simp [acknowledges, quiet.owned named]
      · simp [acknowledges, named]
    | _ => rfl
  · cases call with
    | forgetFailed text =>
      by_cases named : castUuid text = some id
      · simp [forgets, quiet.owned named]
      · simp [forgets, named]
    | _ => rfl

theorem fresh_absent {step : Step} (id : Uuid) (reply : Reply) (fresh : freshIds w step = true)
    (entering : enters id step.call reply = true) : w.entered id = false := by
  unfold enters at entering
  split at entering
  · rename_i request result called
    simpa [freshIds, called, (of_decide_eq_true entering).1] using fresh
  · cases entering

theorem lives_queued (lives : LivesAt w id life) (found : w.db.jobs.find id = some row) : life = some .queued := by
  have held := lives.places .queued
  simpa [World.holds, found] using held.symm

theorem lives_failed (lives : LivesAt w id life) {row : FailedRow} (found : w.db.failed.find id = some row) :
    life = some .failed := by
  have held := lives.places .failed
  simpa [World.holds, found] using held.symm

theorem life_step {w' : World} {step : Step}
    (taken : ((queue pg store).guard (fun w step => freshIds w step = true)).step w step w')
    (lives : LivesAt w id life) : ∃ life', LifeStep life life' ∧ LivesAt w' id life' := by
  obtain ⟨fresh, ordered, rfl⟩ := taken
  have effect := world_cell pg store ⟨ordered, rfl⟩ id
  have queued : (w.db.cell id).job.isSome = decide (life = some .queued) := lives.places .queued
  have failed : (w.db.cell id).failed.isSome = decide (life = some .failed) := lives.places .failed
  have next := lives_next pg store w step id
  have absent := fun entering => fresh_absent id (w.entry pg store step).reply fresh entering
  obtain ⟨now, call⟩ := step
  generalize before : w.db.cell id = cell at effect queued failed
  generalize replied : (w.entry pg store ⟨now, call⟩).reply = reply at effect next absent
  generalize after : (w.next pg store ⟨now, call⟩).db.cell id = cell' at effect next
  have inQueue : ∀ row, cell.job = some row → life = some .queued := fun row found =>
    lives_queued lives ((congrArg Cell.job before).trans found)
  have inFailed : ∀ row, cell.failed = some row → life = some .failed := fun row found =>
    lives_failed lives ((congrArg Cell.failed before).trans found)
  have known := lives.entered
  have acknowledged := lives.places .acknowledged
  have forgotten := lives.places .forgotten
  have stillKnown : ∀ place, life = some place → (enters id call reply || w.entered id) = true := by
    rintro place rfl
    rw [known]
    exact Bool.or_true _
  have stay : ∀ row row', cell.job = some row → cell'.job = some row' → cell'.failed = cell.failed →
      acknowledges id call reply = false → forgets id call reply = false →
      ∃ life', LifeStep life life' ∧ LivesAt (w.next pg store ⟨now, call⟩) id life' := by
    intro row row' was is kept noAck noForget
    have here := inQueue row was
    subst here
    refine ⟨_, .stay _, next _ _ _ rfl rfl (stillKnown _ rfl) ?_ ?_ ?_ ?_⟩
    · rw [is]
      rfl
    · rw [kept]
      exact failed
    · rw [noAck]
      exact acknowledged
    · rw [noForget]
      exact forgotten
  cases effect with
  | idle _ _ _ quiet =>
    obtain ⟨noAck, noForget⟩ := quiet_places quiet
    have noEnter : enters id call reply = false := by
      by_contra entering
      have unknown := absent (by simpa using entering)
      have present := quiet.entered (by simpa using entering)
      rw [queued, decide_eq_true_eq] at present
      rw [present, unknown] at known
      cases known
    refine ⟨life, .stay _, next _ _ _ rfl rfl ?_ queued failed ?_ ?_⟩
    · rw [noEnter]
      exact known
    · rw [noAck]
      exact acknowledged
    · rw [noForget]
      exact forgotten
  | inserted request payload enqueued stale accepted requested stored =>
    have entering : enters id (.enqueue request) (.dispatched (.ok ⟨id.text, enqueued⟩)) = true := by
      simp [enters, requested]
    rw [absent entering] at known
    have nowhere : life = none := by simpa using known.symm
    subst nowhere
    refine ⟨_, .enter, next _ _ _ rfl rfl ?_ rfl failed acknowledged forgotten⟩
    rw [entering]
    rfl
  | leased request locked result row stale accepted due returned => exact stay row _ rfl rfl rfl rfl rfl
  | extended lease duration row stale presented hit least => exact stay row _ rfl rfl rfl rfl rfl
  | retried request row stale presented hit => exact stay row _ rfl rfl rfl rfl rfl
  | released lease row stale presented hit => exact stay row _ rfl rfl rfl rfl rfl
  | acked lease row stale presented hit =>
    have here := inQueue row rfl
    subst here
    refine ⟨_, .acknowledge, next _ _ _ rfl rfl (stillKnown _ rfl) rfl failed ?_ forgotten⟩
    simp [acknowledges, presented, Reply.isOwned]
  | failed request row presented hit =>
    have here := inQueue row rfl
    subst here
    exact ⟨_, .fail, next _ _ _ rfl rfl (stillKnown _ rfl) rfl rfl acknowledged forgotten⟩
  | exhausted queues names limit locked reply row due moved =>
    have here := inQueue row rfl
    subst here
    exact ⟨_, .fail, next _ _ _ rfl rfl (stillKnown _ rfl) rfl rfl acknowledged forgotten⟩
  | restored text row named =>
    have here := inFailed row rfl
    subst here
    exact ⟨_, .restore, next _ _ _ rfl rfl (stillKnown _ rfl) rfl rfl acknowledged forgotten⟩
  | forgotten text row job named =>
    have here := inFailed row rfl
    subst here
    refine ⟨_, .forget, next _ _ _ rfl rfl (stillKnown _ rfl) queued rfl acknowledged ?_⟩
    simp [forgets, named, Reply.isOwned]

theorem start_lives (id : Uuid) : LivesAt World.start id none :=
  ⟨rfl, fun place => by cases place <;> rfl⟩

theorem reach_lives (id : Uuid) (reached : Reach ((queue pg store).guard (fun w step => freshIds w step = true)) w) :
    ∃ life, LivesAt w id life := by
  refine reach_invariant (fun w => ∃ life, LivesAt w id life) ?_ ?_ reached
  · rintro w rfl
    exact ⟨none, start_lives id⟩
  · rintro w step w' ⟨life, lives⟩ taken
    obtain ⟨life', _, next⟩ := life_step taken lives
    exact ⟨life', next⟩

structure RowsKept (id : Uuid) (call : Call) (reply : Reply) (before after : Cell) : Prop where
  jobLeaves : ∀ row, before.job = some row → after.job = none → acknowledges id call reply = true ∨
    ∃ moved, after.failed = some moved ∧ moved.toBody = row.toBody
  failedLeaves : ∀ row, before.failed = some row → after.failed = none → forgets id call reply = true ∨
    ∃ moved, after.job = some moved ∧ moved.toBody = row.toBody
  jobStays : ∀ row row', before.job = some row → after.job = some row' → row'.toBody = row.toBody
  failedStays : ∀ row row', before.failed = some row → after.failed = some row' → row' = row

theorem rows_kept_in_place (id : Uuid) {call : Call} {reply : Reply} {row' : JobRow} (failed : Option FailedRow)
    (same : row'.toBody = row.toBody) : RowsKept id call reply ⟨some row, failed⟩ ⟨some row', failed⟩ where
  jobLeaves := by
    intro _ _ gone
    cases gone
  failedLeaves := fun old was gone => absurd (was.symm.trans gone) (Option.some_ne_none old)
  jobStays := by
    intro old new was is
    rw [← Option.some.inj was, ← Option.some.inj is, same]
  failedStays := fun old new was is => Option.some.inj (is.symm.trans was)

theorem rows_kept_jobs {before after : Option JobRow} (failed : Option FailedRow)
    (one : before = none ∨ (after = none ∧ acknowledges id call reply = true)) :
    RowsKept id call reply ⟨before, failed⟩ ⟨after, failed⟩ := by
  refine ⟨?_, fun old was gone => absurd (was.symm.trans gone) (Option.some_ne_none old), ?_,
    fun old new was is => Option.some.inj (is.symm.trans was)⟩
  · intro row was _
    rcases one with rfl | ⟨_, acknowledged⟩
    · cases was
    · exact .inl acknowledged
  · intro row row' was is
    rcases one with rfl | ⟨rfl, _⟩
    · cases was
    · cases is

theorem rows_kept_moved (id : Uuid) {call : Call} {reply : Reply} {moved : FailedRow}
    (same : moved.toBody = row.toBody) : RowsKept id call reply ⟨some row, none⟩ ⟨none, some moved⟩ := by
  refine ⟨?_, fun _ was => absurd was.symm (Option.some_ne_none _), fun _ _ _ is => absurd is.symm
    (Option.some_ne_none _),
    fun _ _ was => absurd was.symm (Option.some_ne_none _)⟩
  intro old was _
  rw [← Option.some.inj was]
  exact .inr ⟨moved, rfl, same⟩

theorem cell_rows_kept {now : Nat} {before after : Cell} (effect : CellStep pg store now id call reply before after) :
    RowsKept id call reply before after := by
  cases effect with
  | idle =>
    exact ⟨fun row was gone => absurd (was.symm.trans gone) (Option.some_ne_none row),
      fun row was gone => absurd (was.symm.trans gone) (Option.some_ne_none row),
      fun row row' was is => by rw [Option.some.inj (is.symm.trans was)],
      fun row row' was is => Option.some.inj (is.symm.trans was)⟩
  | inserted request payload enqueued failed accepted requested stored =>
    exact rows_kept_jobs failed (.inl rfl)
  | leased request locked result row failed accepted due returned => exact rows_kept_in_place id failed rfl
  | extended lease duration row failed presented hit least => exact rows_kept_in_place id failed rfl
  | retried request row failed presented hit => exact rows_kept_in_place id failed rfl
  | released lease row failed presented hit => exact rows_kept_in_place id failed rfl
  | acked lease row failed presented hit =>
    exact rows_kept_jobs failed (.inr ⟨rfl, by simp [acknowledges, presented, Reply.isOwned]⟩)
  | restored text row named =>
    refine ⟨fun _ was => absurd was.symm (Option.some_ne_none _), ?_,
      fun _ _ was => absurd was.symm (Option.some_ne_none _), fun _ _ _ is => absurd is.symm (Option.some_ne_none _)⟩
    intro old was _
    rw [← Option.some.inj was]
    exact .inr ⟨_, rfl, rfl⟩
  | forgotten text row job named =>
    refine ⟨fun row was gone => absurd (was.symm.trans gone) (Option.some_ne_none row), fun _ _ _ => .inl ?_,
      fun row row' was is => by rw [Option.some.inj (is.symm.trans was)],
      fun _ _ _ is => absurd is.symm (Option.some_ne_none _)⟩
    simp [forgets, named, Reply.isOwned]
  | _ => exact rows_kept_moved id rfl

theorem restored_check (now : Nat) {row : FailedRow} (checked : row.check = true) :
    (restoredRow now row).check = true := by
  simp only [FailedRow.check, Bool.and_eq_true] at checked
  simp [JobRow.check, restoredRow, checked.1.1.1, JobRow.leaseCheck, JobRow.errorCheck, optionalTextOk]

theorem retry_failed_conflict (now : Nat) {text : String} {db : Db} {row : FailedRow} {key : String} {holder : JobRow}
    (named : castUuid text = some id) (found : db.failed.find id = some row) (absent : db.jobs.find id = none)
    (keyed : row.dedupKey = some key) (held : db.jobs.holder (row.queue, row.name, key) = some holder) :
    retryFailed now text db =
      ((false, some (.wrap "job/postgres: retry failed" (.database .uniqueViolation))), db) := by
  have removed : (db.failed.delete (fun row => decide (row.id = id))).2 = [row] := by
    rcases delete_failed db id with ⟨missing, _⟩ | ⟨other, present, removed, _⟩
    · cases found.symm.trans missing
    · rw [removed, Option.some.inj (found.symm.trans present)]
  have same : row.id = id := find_key found
  have refused : db.jobs.insert (restoredRow now row) = .error .uniqueViolation := by
    unfold Table.insert
    rw [dif_pos, dif_neg, dif_pos]
    · refine ⟨(row.queue, row.name, key), by simp [jobsSchema, restoredRow, keyed], ?_⟩
      by_contra missing
      rw [← holder_none_iff, held] at missing
      cases missing
    · intro member
      obtain ⟨other, present, otherKey⟩ := List.mem_map.mp member
      exact (find_none_iff db.jobs id).mp absent other present (otherKey.trans same)
    · exact restored_check now (find_checked found)
  simp only [retryFailed, named, removed, List.map_cons, List.map_nil, Table.insertAll, refused]

end Goforge.Job

import Goforge.Lib.Machine
import Goforge.Schedule.Atomicity
import Mathlib.Order.Bounds.Defs

set_option autoImplicit false

namespace Goforge.Schedule

open GoTime Sql Search Machine Database

-- Explicit code-owned definitions; a second registration of a name is refused.
structure Registry where
  definitions : List Definition
  distinct : (definitions.map Definition.name).Nodup

variable {registry : Registry}

theorem registered_unique {a b : Definition} (left : a ∈ registry.definitions) (right : b ∈ registry.definitions)
    (same : a.name = b.name) : a = b :=
  List.inj_on_of_nodup_map registry.distinct left right same

-- The committed tables, with the clock reading under which each schedule was
-- first observed.
structure Polls where
  db : Full
  firstSeen : String → Option Nat

structure Poll where
  session : Session
  definition : Definition
  callback : Callback

def Polls.start : Polls := ⟨Full.empty, fun _ => none⟩

def Polls.next (w : Polls) (poll : Poll) : Polls :=
  let db := (materialize poll.session poll.definition (some poll.callback) w.db).2
  ⟨db, fun name =>
    if name = poll.definition.name ∧ w.db.schedules.find name = none ∧ (db.schedules.find name).isSome then
      some poll.session.initialNow
    else w.firstSeen name⟩

-- Calls of any schedulers with one registry, committed one after the other,
-- under any clock readings and failures; the queue changes in between as it
-- likes.
def polls (registry : Registry) : System Polls (Poll ⊕ Job.Db) where
  start w := w = Polls.start
  step
    | w, .inl poll, w' => poll.definition ∈ registry.definitions ∧ KeepsSchedules poll.callback ∧ w' = w.next poll
    | w, .inr queue, w' => w' = { w with db := { w.db with queue := queue } }

structure Observed (definition : Definition) (first : Nat) (row : ScheduleRow) : Prop where
  valid : validateDefinition definition = none
  agrees : row.matches definition = none
  created : row.createdAt = first
  cursor : truncateMinute first ≤ row.nextRunAt

theorem initial_observed {definition : Definition} {now : Nat} {cursor : Int}
    (valid : validateDefinition definition = none) (done : initialCursor definition now = .ok cursor) :
    Observed definition now (initialRow definition cursor now) := by
  obtain ⟨least, most, whole⟩ := valid_grace valid
  have grace : milliseconds definition.misfireGrace * millisecond = definition.misfireGrace := by
    unfold milliseconds millisecond at *
    unfold minute at least whole
    rw [Int.tdiv_eq_ediv_of_nonneg (by omega)]
    omega
  refine ⟨valid, ?_, rfl, initial_cursor_ok done⟩
  simp only [ScheduleRow.matches, ScheduleRow.misfireGrace, initialRow, grace, ne_eq, not_true_eq_false,
    or_self, if_false]

theorem advanced_observed {definition : Definition} {first : Nat} (now : Nat) {stored : ScheduleRow} {nextRunAt : Int}
    (occurrence : Option Int) (jobID : Option String) (outcome : Outcome) (observed : Observed definition first stored)
    (later : stored.nextRunAt ≤ nextRunAt) :
    Observed definition first (advancedRow stored nextRunAt now occurrence jobID outcome stored) :=
  ⟨observed.valid, observed.agrees, observed.created, Int.le_trans observed.cursor later⟩

section

variable {session : Session} {definition : Definition} {db : Full} {first : Nat}
  (valid : validateDefinition definition = none)
  (known : ∀ row, db.schedules.find definition.name = some row → Observed definition first row)
  (fresh : db.schedules.find definition.name = none → first = session.initialNow)

include valid known fresh

theorem loaded_observed {found : Option ScheduleRow} {view : Full}
    (loaded : loadRow session definition db = .ok (found, view)) (row : ScheduleRow)
    (present : view.schedules.find definition.name = some row) : Observed definition first row := by
  obtain ⟨_, kept | ⟨cursor, absent, computed, created⟩, _⟩ := load_find loaded
  · exact known row (kept.symm.trans present)
  · rw [fresh absent, Option.some.inj (present.symm.trans created)]
    exact initial_observed valid computed

theorem advance_observed {stored : ScheduleRow} {view called after : Full} {nextRunAt : Int} {occurrence : Option Int}
    {jobID : Option String} {outcome : Outcome} (loaded : loadRow session definition db = .ok (some stored, view))
    (same : called.schedules = view.schedules) (later : stored.nextRunAt ≤ nextRunAt)
    (advanced : advance session stored nextRunAt session.now occurrence jobID outcome called = .ok after) :
    (∀ name, name ≠ definition.name → after.schedules.find name = db.schedules.find name) ∧
    ∀ row, after.schedules.find definition.name = some row → Observed definition first row := by
  obtain ⟨elsewhere, _, here⟩ := load_find loaded
  have named := (loaded_name loaded).1
  obtain ⟨old, found, _, _, lookup⟩ := advance_ok advanced
  rw [named, same] at found
  rw [named] at lookup
  have oldIs : old = stored := Option.some.inj (found.symm.trans (here stored rfl))
  refine ⟨?_, ?_⟩
  · intro name different
    rw [lookup name, if_neg different, same, elsewhere name different]
  · intro row present
    rw [lookup, if_pos rfl] at present
    rw [← Option.some.inj present, oldIs]
    exact advanced_observed session.now occurrence jobID outcome
      (loaded_observed valid known fresh loaded stored (here stored rfl)) later

theorem completes_observed {callback : Callback} {result : Result} {after : Full} {occurrences : List Int}
    (keeps : KeepsSchedules callback) (completes : Completes session definition callback db result after occurrences) :
    (∀ name, name ≠ definition.name → after.schedules.find name = db.schedules.find name) ∧
    ∀ row, after.schedules.find definition.name = some row → Observed definition first row := by
  cases completes with
  | contended _ loaded =>
    exact ⟨(load_find loaded).1, loaded_observed valid known fresh loaded⟩
  | notDue stored _ decides =>
    exact ⟨(load_find decides.loaded).1,
      loaded_observed valid known fresh decides.loaded⟩
  | skipped stored view _ nextRunAt decides advanced =>
    obtain ⟨due, computed, _⟩ := evaluate_ok decides.evaluated
    have later := next_after_later computed
    exact advance_observed valid known fresh decides.loaded rfl (by omega) advanced
  | dispatched stored view _ nextRunAt occurrence answer decides _ _ advanced =>
    obtain ⟨due, computed, _⟩ := evaluate_ok decides.evaluated
    have later := next_after_later computed
    exact advance_observed valid known fresh decides.loaded (keeps occurrence view) (by omega) advanced

end

def AllObserved (registry : Registry) (w : Polls) : Prop :=
  ∀ name row, w.db.schedules.find name = some row →
    ∃ definition ∈ registry.definitions, definition.name = name ∧
      ∃ first, w.firstSeen name = some first ∧ Observed definition first row

theorem known_first {registry : Registry} {w : Polls} {definition : Definition} (now : Nat)
    (observed : AllObserved registry w) (registered : definition ∈ registry.definitions) :
    ∃ first, (w.db.schedules.find definition.name = none → first = now) ∧
      (∀ row, w.db.schedules.find definition.name = some row → w.firstSeen definition.name = some first) ∧
      ∀ row, w.db.schedules.find definition.name = some row → Observed definition first row := by
  cases found : w.db.schedules.find definition.name with
  | none => exact ⟨now, fun _ => rfl, (fun _ absent => nomatch absent), (fun _ absent => nomatch absent)⟩
  | some row =>
    obtain ⟨owner, member, named, first, seen, holds⟩ := observed definition.name row found
    cases registered_unique member registered named
    refine ⟨first, (fun absent => nomatch absent), fun _ _ => seen, ?_⟩
    intro other same
    cases same
    exact holds

theorem poll_observed {w : Polls} {poll : Poll} (observed : AllObserved registry w)
    (registered : poll.definition ∈ registry.definitions) (keeps : KeepsSchedules poll.callback) :
    AllObserved registry (w.next poll) := by
  rcases materialize_cases poll.session poll.definition poll.callback w.db with
    ⟨result, ⟨valid, _⟩, _, completes⟩ | ⟨_, same, _⟩
  · obtain ⟨first, fresh, seen, known⟩ := known_first poll.session.initialNow observed registered
    obtain ⟨elsewhere, here⟩ := completes_observed valid known fresh keeps completes
    intro name row found
    by_cases own : name = poll.definition.name
    · subst own
      refine ⟨poll.definition, registered, rfl, first, ?_, here row found⟩
      have present := Option.isSome_iff_exists.mpr ⟨row, found⟩
      cases before : w.db.schedules.find poll.definition.name with
      | none => exact (if_pos ⟨rfl, before, present⟩).trans (congrArg some (fresh before).symm)
      | some old =>
        refine (if_neg ?_).trans (seen old before)
        exact fun created => absurd (before.symm.trans created.2.1) (Option.some_ne_none _)
    · obtain ⟨definition, member, named, first, seen, holds⟩ := observed name row
        ((elsewhere name own).symm.trans found)
      exact ⟨definition, member, named, first, (if_neg (fun created => own created.1)).trans seen, holds⟩
  · intro name row found
    have before : w.db.schedules.find name = some row := by
      rw [← same]
      exact found
    obtain ⟨definition, member, named, first, seen, holds⟩ := observed name row before
    exact ⟨definition, member, named, first,
      (if_neg (fun created => absurd (before.symm.trans created.2.1) (Option.some_ne_none _))).trans seen, holds⟩

theorem reach_observed {w : Polls} (reached : Reach (polls registry) w) : AllObserved registry w := by
  refine reach_invariant (AllObserved registry) ?_ ?_ reached
  · intro start initial name row found
    rw [initial] at found
    cases found
  · intro before label after observed step
    cases label with
    | inl poll =>
      obtain ⟨registered, keeps, rfl⟩ := step
      exact poll_observed observed registered keeps
    | inr queue =>
      cases step
      exact observed

structure Undisturbed (session : Session) : Prop where
  live : session.cancelled = none
  begun : session.faults.begin = none
  committed : session.faults.commit = none
  answered : ∀ stage, session.fault stage = none
  unlocked : ∀ stage, session.skipped stage = false

def Succeeds (callback : Callback) (occurrence : Int) (view : Full) : Prop :=
  ∃ answer, (callback occurrence view).1 = .returned (.ok answer) ∧ badJobID answer.id = false ∧
    Job.textParam answer.id = true

structure Moved (members : Set Int) (definition : Definition) (now : Nat) (outcome : Outcome) (row : ScheduleRow)
    (after : Full) : Prop where
  found : after.schedules.find definition.name = some row
  cursor : IsLeast { m | m ∈ members ∧ (now : Int) < m } row.nextRunAt
  outcome : row.lastOutcome = some outcome

inductive Coalesces (members : Set Int) (session : Session) (definition : Definition) (callback : Callback) (db : Full)
    (start : Int) : Prop where
  | dispatched (occurrence : Int) (answer : Job.DispatchResult) (row : ScheduleRow)
      (latest : IsLatest members start session.now occurrence)
      (done : (materialize session definition (some callback) db).1 =
        .ok ⟨definition.name, outcomeOf answer, occurrence, answer.id⟩)
      (called : dispatches session definition callback db = [occurrence])
      (moved : Moved members definition session.now (outcomeOf answer) row
        (materialize session definition (some callback) db).2)
  | skipped (row : ScheduleRow) (empty : ∀ m ∈ members, start ≤ m → ¬ m ≤ (session.now : Int))
      (done : (materialize session definition (some callback) db).1 =
        .ok ⟨definition.name, .misfireSkipped, zeroTime, ""⟩)
      (called : dispatches session definition callback db = [])
      (moved : Moved members definition session.now .misfireSkipped row
        (materialize session definition (some callback) db).2)

theorem load_undisturbed {session : Session} {definition : Definition} {db : Full} {stored : ScheduleRow}
    (quiet : Undisturbed session) (found : db.schedules.find definition.name = some stored) :
    loadRow session definition db = .ok (some stored, db) := by
  have locked : lock session .lock definition db = .ok (some stored) := by
    simp only [lock, quiet.answered, quiet.unlocked, found, Bool.false_eq_true, if_false]
  rw [loadRow, locked]

section

variable {members : Set Int} {definition : Definition} {stored : ScheduleRow} {now : Nat}

theorem evaluate_due (whole : ∀ m ∈ members, truncateMinute m = m) (successor : NextIn members zeroTime definition.next)
    (valid : validateDefinition definition = none) (due : stored.nextRunAt ≤ now) {m : Int} (member : m ∈ members)
    (after : (now : Int) < m) :
    (∃ occurrence, evaluate definition stored now = .ok (.dispatch (definition.next now) occurrence) ∧
      IsLatest members (windowStart definition stored now) now occurrence) ∨
    (evaluate definition stored now = .ok (.skip (definition.next now)) ∧
      ∀ m ∈ members, windowStart definition stored now ≤ m → ¬ m ≤ (now : Int)) := by
  have computed := next_after_ok whole successor (by unfold zeroTime second; omega) member after
  rcases window_searched whole successor valid due with
    ⟨occurrence, searched, latest⟩ | ⟨searched, empty⟩
  · refine .inl ⟨occurrence, ?_, latest⟩
    rw [evaluate, if_neg (by omega), computed, searched]
  · refine .inr ⟨?_, empty⟩
    rw [evaluate, if_neg (by omega), computed, searched]

theorem next_least (successor : NextIn members zeroTime definition.next) {m : Int} (member : m ∈ members)
    (after : (now : Int) < m) : IsLeast { m | m ∈ members ∧ (now : Int) < m } (definition.next now) :=
  ⟨⟨successor.isMember now m member after, successor.later now m member after⟩,
    fun other inside => successor.least now other inside.1 inside.2⟩

theorem advanced_check {nextRunAt : Int} {occurrence : Option Int} {jobID : Option String} {outcome : Outcome}
    (checked : stored.check = true) (created : stored.createdAt ≤ now) (text : Job.optionalTextOk 1 1024 jobID = true)
    (columns : (advancedRow stored nextRunAt now occurrence jobID outcome stored).outcomeCheck = true) :
    (advancedRow stored nextRunAt now occurrence jobID outcome stored).check = true := by
  simp only [ScheduleRow.check, Bool.and_eq_true, decide_eq_true_eq] at checked ⊢
  obtain ⟨⟨⟨front, _⟩, _⟩, _⟩ := checked
  exact ⟨⟨⟨front, text⟩, created⟩, columns⟩

theorem job_id_text {id : String} (good : badJobID id = false) (clean : Job.textParam id = true) :
    Job.optionalTextOk 1 1024 (some id) = true := by
  simp only [badJobID, Bool.or_eq_false_iff, beq_eq_false_iff_ne, decide_eq_false_iff_not] at good
  have size : id.utf8ByteSize ≠ 0 := fun empty => good.1 (String.utf8ByteSize_eq_zero_iff.mp empty)
  simp only [Job.optionalTextOk, Job.textOk, Bool.and_eq_true, decide_eq_true_eq]
  exact ⟨⟨by omega, by omega⟩, clean⟩

end

section

variable {session : Session} {definition : Definition} {callback : Callback} {db : Full}

theorem materialize_done (quiet : Undisturbed session) (valid : validateDefinition definition = none) {work : Work}
    {result : Result} (body : materializeBody session definition callback db = work) (exit : work.exit = .done result) :
    materialize session definition (some callback) db = (.ok result, work.db) ∧
      dispatches session definition callback db = work.dispatched := by
  refine ⟨?_, ?_⟩
  · rw [materialize_run callback valid quiet.live]
    simp only [transaction, quiet.begun, bodyOf, body, exit, quiet.committed]
  · rw [dispatches, valid, quiet.live, quiet.begun, body]

theorem dispatch_given {stored : ScheduleRow} {now : Nat} {nextRunAt occurrence : Int} :
    (dispatchOccurrence session definition callback stored now nextRunAt occurrence db).dispatched = [occurrence] := by
  simp only [dispatchOccurrence]
  split
  · rfl
  · rfl
  · split
    · rfl
    · split <;> rfl

theorem coalesces {members : Set Int} {stored : ScheduleRow} (whole : ∀ m ∈ members, truncateMinute m = m)
    (successor : NextIn members zeroTime definition.next) (quiet : Undisturbed session)
    (valid : validateDefinition definition = none) (found : db.schedules.find definition.name = some stored)
    (agrees : stored.matches definition = none) (due : stored.nextRunAt ≤ session.now)
    (created : stored.createdAt ≤ session.now) (keeps : KeepsSchedules callback)
    (succeeds : ∀ occurrence ∈ dispatches session definition callback db, Succeeds callback occurrence db) {m : Int}
    (member : m ∈ members) (after : (session.now : Int) < m) :
    Coalesces members session definition callback db (windowStart definition stored session.now) := by
  have named : stored.name = definition.name := find_key found
  have checked : stored.check = true := find_checked found
  have least := next_least successor member after
  have own : advances stored stored = true := advances_iff.mpr ⟨rfl, rfl, rfl⟩
  rcases evaluate_due whole successor valid due member after with
    ⟨occurrence, evaluated, latest⟩ | ⟨evaluated, empty⟩
  · have decides : Decides session definition db stored db (.dispatch (definition.next session.now) occurrence) :=
      ⟨load_undisturbed quiet found, agrees, quiet.answered .clock, evaluated⟩
    have real : isZero occurrence = false := by
      have started := window_start_real stored session.now valid
      have inside := latest.2.1
      rw [isZero, decide_eq_false_iff_not]
      omega
    have body := body_decided callback decides
    have given : dispatches session definition callback db = [occurrence] := by
      rw [dispatches, valid, quiet.live, quiet.begun, body]
      exact dispatch_given
    obtain ⟨answer, returned, good, clean⟩ := succeeds occurrence (by rw [given]; exact List.mem_singleton.mpr rfl)
    have columns : (advancedRow stored (definition.next session.now) session.now (some occurrence) (some answer.id)
        (outcomeOf answer) stored).outcomeCheck = true := by
      cases enqueued : answer.enqueued <;> simp [ScheduleRow.outcomeCheck, advancedRow, outcomeOf, enqueued]
    have present : (callback occurrence db).2.schedules.find stored.name = some stored := by
      rw [keeps occurrence db, named, found]
    obtain ⟨next, advanced⟩ := advance_succeeds (definition.next session.now) session.now (some occurrence)
      (some answer.id) (outcomeOf answer) (quiet.answered .advance) (quiet.answered .affected) clean present own
      (advanced_check checked created (job_id_text good clean) columns)
    obtain ⟨old, oldFound, _, _, lookup⟩ := advance_ok advanced
    have row := lookup definition.name
    rw [if_pos named.symm] at row
    simp only [dispatchOccurrence, returned, good, real, advanced, Bool.false_eq_true, if_false] at body
    obtain ⟨done, _⟩ := materialize_done quiet valid body rfl
    refine .dispatched occurrence answer (advancedRow stored (definition.next session.now) session.now (some occurrence)
      (some answer.id) (outcomeOf answer) old) latest (congrArg Prod.fst done) given ⟨?_, least, rfl⟩
    rw [done]
    exact row
  · have decides : Decides session definition db stored db (.skip (definition.next session.now)) :=
      ⟨load_undisturbed quiet found, agrees, quiet.answered .clock, evaluated⟩
    have body := body_decided callback decides
    obtain ⟨next, advanced⟩ := advance_succeeds (definition.next session.now) session.now none none
      .misfireSkipped (quiet.answered .advance) (quiet.answered .affected) rfl (named.symm ▸ found) own
        (advanced_check checked created rfl rfl)
    obtain ⟨old, oldFound, _, _, lookup⟩ := advance_ok advanced
    have row := lookup definition.name
    rw [if_pos named.symm] at row
    simp only [advanced] at body
    obtain ⟨done, given⟩ := materialize_done quiet valid body rfl
    refine .skipped (advancedRow stored (definition.next session.now) session.now none none .misfireSkipped old) empty
      (congrArg Prod.fst done) given ⟨?_, least, rfl⟩
    rw [done]
    exact row

theorem dispatches_observed {first : Nat}
    (known : ∀ row, db.schedules.find definition.name = some row → Observed definition first row)
    (fresh : db.schedules.find definition.name = none → first = session.initialNow) {occurrence : Int}
    (given : occurrence ∈ dispatches session definition callback db) : truncateMinute first ≤ occurrence := by
  unfold dispatches at given
  split at given
  · rename_i valid _ _
    obtain ⟨stored, view, nextRunAt, decides⟩ :=
      (body_settles session definition callback db).calls occurrence given
    have here := (load_find decides.loaded).2.2 stored rfl
    have observed := loaded_observed valid known fresh decides.loaded stored here
    have searched := (evaluate_ok decides.evaluated).2.2
    have inside := (latest_occurrence_within searched).1
    have window := window_start_max definition stored session.now
    have cursor := observed.cursor
    omega
  · cases given

end

def Polls.observedAt (w : Polls) (session : Session) (definition : Definition) : Nat :=
  match w.db.schedules.find definition.name with
  | none => session.initialNow
  | some _ => (w.firstSeen definition.name).getD session.initialNow

theorem misfire_coalescing (registry : Registry) (w : Polls) (reached : Reach (polls registry) w) (session : Session)
    (definition : Definition) (registered : definition ∈ registry.definitions) (callback : Callback)
    (keeps : KeepsSchedules callback) :
    (∀ (members : Set Int) (stored : ScheduleRow), (∀ m ∈ members, truncateMinute m = m) →
      NextIn members zeroTime definition.next → w.db.schedules.find definition.name = some stored →
      stored.nextRunAt ≤ session.now → stored.createdAt ≤ session.now → (∃ m ∈ members, (session.now : Int) < m) →
      Undisturbed session →
      (∀ occurrence ∈ dispatches session definition callback w.db, Succeeds callback occurrence w.db) →
      Coalesces members session definition callback w.db
        (max stored.nextRunAt (session.now - definition.misfireGrace))) ∧
    ∀ occurrence ∈ dispatches session definition callback w.db,
      truncateMinute (w.observedAt session definition) ≤ occurrence := by
  obtain ⟨first, fresh, seen, known⟩ := known_first session.initialNow
    (reach_observed reached) registered
  refine ⟨?_, ?_⟩
  · rintro members stored whole successor found due created ⟨m, member, after⟩ quiet succeeds
    have observed := known stored found
    rw [← window_start_max]
    exact coalesces whole successor quiet observed.valid found
      observed.agrees due created keeps succeeds member after
  · intro occurrence given
    have same : w.observedAt session definition = first := by
      unfold Polls.observedAt
      cases found : w.db.schedules.find definition.name with
      | none => exact (fresh found).symm
      | some row => simp only [seen row found, Option.getD_some]
    rw [same]
    exact dispatches_observed known fresh given

def sampleRegistry : Registry := ⟨[sampleDefinition], by decide⟩

theorem quiet_undisturbed {initialNow now : Nat} : Undisturbed (quietSession initialNow now) :=
  ⟨rfl, rfl, rfl, fun _ => rfl, fun _ => rfl⟩

def samplePoll (initialNow now : Nat) : Poll :=
  ⟨quietSession initialNow now, sampleDefinition, sampleCallback Job.sampleId⟩

theorem sample_reach (initialNow now : Nat) :
    Reach (polls sampleRegistry) (Polls.start.next (samplePoll initialNow now)) :=
  .next Polls.start _ (.inl (samplePoll initialNow now)) (.start _ rfl)
    ⟨List.mem_singleton.mpr rfl, callback_keeps _ _ _ _, rfl⟩

theorem misfire_coalescing_sample :
    let w := Polls.start.next (samplePoll 90000000000 90000000001)
    let callback := sampleCallback Job.secondId
    dispatches (quietSession 0 400000000000) sampleDefinition callback w.db = [6 * minute] ∧
    Coalesces everyMinute (quietSession 0 400000000000) sampleDefinition callback w.db
      (max (2 * minute) (400000000000 - 15 * minute)) := by
  intro w callback
  obtain ⟨given, found, answered⟩ :
    dispatches (quietSession 0 400000000000) sampleDefinition callback w.db = [6 * minute] ∧
      w.db.schedules.find "tick.v1" = some (advancedRow (initialRow sampleDefinition minute 90000000000) (2 * minute)
        90000000001 (some minute) (some Job.sampleId.text) .enqueued (initialRow sampleDefinition minute 90000000000)) ∧
      (callback (6 * minute) w.db).1 = .returned (.ok ⟨Job.sampleId.text, false⟩) := by decide +kernel
  refine ⟨given, (misfire_coalescing sampleRegistry w (sample_reach _ _) (quietSession 0 400000000000) sampleDefinition
    (List.mem_singleton.mpr rfl) callback (callback_keeps _ _ _ _)).1 everyMinute _ (fun _ member => member)
    sample_successor found (by decide) (by decide) ⟨7 * minute, rfl, by decide⟩ (quiet_undisturbed) ?_⟩
  intro occurrence member
  rw [given, List.mem_singleton] at member
  subst member
  exact ⟨⟨Job.sampleId.text, false⟩, answered, by decide +kernel, by decide +kernel⟩

theorem backward_clock_blocks_advance :
    let w := Polls.start.next (samplePoll 90000000000 59000000000)
    let session := quietSession 0 70000000000
    let callback := sampleCallback Job.secondId
    Reach (polls sampleRegistry) w ∧ Undisturbed session ∧ Succeeds callback minute w.db ∧
    w.db.schedules.find "tick.v1" = some (initialRow sampleDefinition minute 90000000000) ∧
    minute ≤ (session.now : Int) ∧ dispatches session sampleDefinition callback w.db = [minute] ∧
    (materialize session sampleDefinition (some callback) w.db).1 =
      .error (.wrap "schedule/postgres: advance tick.v1" (.database .checkViolation)) ∧
    ¬ Coalesces everyMinute session sampleDefinition callback w.db minute := by
  intro w session callback
  obtain ⟨found, given, broken, answered⟩ :
      w.db.schedules.find "tick.v1" = some (initialRow sampleDefinition minute 90000000000) ∧
      dispatches session sampleDefinition callback w.db = [minute] ∧
      (materialize session sampleDefinition (some callback) w.db).1 =
        .error (.wrap "schedule/postgres: advance tick.v1" (.database .checkViolation)) ∧
      (callback minute w.db).1 = .returned (.ok ⟨Job.secondId.text, true⟩) := by decide +kernel
  refine ⟨sample_reach _ _, quiet_undisturbed,
    ⟨⟨Job.secondId.text, true⟩, answered, by decide +kernel, by decide +kernel⟩, found, by decide, given, broken, ?_⟩
  intro holds
  cases holds with
  | dispatched occurrence answer row latest done =>
    rw [broken] at done
    cases done
  | skipped row empty done =>
    rw [broken] at done
    cases done

end Goforge.Schedule

import Goforge.Schedule.Materialize

set_option autoImplicit false

namespace Goforge.Schedule

open GoTime Sql Search

theorem next_after_later {definition : Definition} {t nextRunAt : Int} (done : nextAfter definition t = .ok nextRunAt) :
    t < nextRunAt := by
  simp only [nextAfter] at done
  split at done
  · cases done
  rename_i accepted
  cases done
  simp only [Bool.or_eq_true, decide_eq_true_eq, not_or] at accepted
  omega

theorem initial_cursor_ok {definition : Definition} {now : Nat} {cursor : Int}
    (done : initialCursor definition now = .ok cursor) : truncateMinute now ≤ cursor := by
  simp only [initialCursor] at done
  split at done
  · cases done
  split at done
  · rename_i current
    cases done
    exact Int.le_of_eq current.symm
  · have below := (truncate_minute_spec now).1
    have later := next_after_later done
    omega

theorem evaluate_ok {definition : Definition} {stored : ScheduleRow} {now : Nat} {decision : Decision}
    (done : evaluate definition stored now = .ok decision) :
    match decision with
    | .notDue => (now : Int) < stored.nextRunAt
    | .skip nextRunAt => stored.nextRunAt ≤ now ∧ nextAfter definition now = .ok nextRunAt ∧
        latestOccurrence definition.next (windowStart definition stored now) now = .ok none
    | .dispatch nextRunAt occurrence => stored.nextRunAt ≤ now ∧ nextAfter definition now = .ok nextRunAt ∧
        latestOccurrence definition.next (windowStart definition stored now) now = .ok (some occurrence) := by
  unfold evaluate at done
  split at done
  · cases done
    assumption
  · rename_i due
    split at done
    · cases done
    rename_i nextRunAt computed
    split at done
    · cases done
    · rename_i searched
      cases done
      exact ⟨by omega, computed, searched⟩
    · rename_i occurrence searched
      cases done
      exact ⟨by omega, computed, searched⟩

theorem valid_grace {definition : Definition} (valid : validateDefinition definition = none) :
    minute ≤ definition.misfireGrace ∧ definition.misfireGrace ≤ 365 * day ∧ definition.misfireGrace % minute = 0 := by
  unfold validateDefinition at valid
  split at valid
  · cases valid
  split at valid
  · cases valid
  rename_i accepted
  simp only [Bool.or_eq_true, decide_eq_true_eq, not_or] at accepted
  omega

theorem window_start_max (definition : Definition) (stored : ScheduleRow) (now : Nat) :
    windowStart definition stored now = max stored.nextRunAt (now - definition.misfireGrace) := by
  unfold windowStart
  split <;> omega

theorem window_start_real {definition : Definition} (stored : ScheduleRow) (now : Nat)
    (valid : validateDefinition definition = none) : zeroTime < windowStart definition stored now := by
  obtain ⟨_, most, _⟩ := valid_grace valid
  have window := window_start_max definition stored now
  simp only [zeroTime, second, day, hour] at *
  omega

theorem window_searched {members : Set Int} {definition : Definition} {stored : ScheduleRow} {now : Nat}
    (whole : ∀ m ∈ members, truncateMinute m = m) (successor : NextIn members zeroTime definition.next)
    (valid : validateDefinition definition = none) (due : stored.nextRunAt ≤ now) :
    (∃ occurrence, latestOccurrence definition.next (windowStart definition stored now) now = .ok (some occurrence) ∧
      IsLatest members (windowStart definition stored now) now occurrence) ∨
    (latestOccurrence definition.next (windowStart definition stored now) now = .ok none ∧
      ∀ m ∈ members, windowStart definition stored now ≤ m → ¬ m ≤ (now : Int)) := by
  obtain ⟨least, most, _⟩ := valid_grace valid
  have window := window_start_max definition stored now
  have near : (now : Int) - windowStart definition stored now ≤ maxDuration := by
    simp only [maxDuration, day, hour] at *
    omega
  have inside : windowStart definition stored now ≤ now := by
    simp only [minute] at least
    omega
  exact latest_occurrence_spec whole successor (window_start_real stored now valid) inside near

section

variable {stored : ScheduleRow} {nextRunAt : Int} {now : Nat} {occurrence : Option Int} {jobID : Option String}
  {outcome : Outcome} {schedules : Table schedulesSchema}

theorem advances_iff {row : ScheduleRow} : advances stored row = true ↔
    row.name = stored.name ∧ row.fingerprint = stored.fingerprint ∧ row.nextRunAt = stored.nextRunAt := by
  rw [advances, decide_eq_true_eq]

theorem advances_filter : schedules.rows.filter (advances stored) =
    ((schedules.find stored.name).filter (advances stored)).toList :=
  filter_pinned schedules (advances stored) (fun _ hit => (advances_iff.mp hit).1)

theorem advance_row_ok {updated : Table schedulesSchema}
    (done : advanceRow stored nextRunAt now occurrence jobID outcome schedules = .ok (updated, 1)) :
    ∃ row, schedules.find stored.name = some row ∧ advances stored row = true ∧
      ∀ name, updated.find name = if name = stored.name then
        some (advancedRow stored nextRunAt now occurrence jobID outcome row) else schedules.find name := by
  unfold advanceRow at done
  split at done
  · split at done
    · cases done
    · rename_i table changed moved
      obtain ⟨rfl, single⟩ := Prod.mk.inj (Except.ok.inj done)
      have returned := update_returns _ moved
      rw [advances_filter] at returned
      cases hit : (schedules.find stored.name).filter (advances stored) with
      | none =>
        rw [returned, hit] at single
        exact absurd single Nat.zero_ne_one
      | some row =>
        obtain ⟨found, advanced⟩ := Option.filter_eq_some_iff.mp hit
        refine ⟨row, found, advanced, ?_⟩
        intro name
        rw [update_ok _ moved name]
        by_cases here : name = stored.name
        · rw [if_pos here, here, found, Option.map_some, if_pos advanced]
        · rw [if_neg here]
          cases elsewhere : schedules.find name with
          | none => rfl
          | some other =>
            have key : other.name = name := find_key elsewhere
            have missed : advances stored other = false := by
              rw [Bool.eq_false_iff, ne_eq, advances_iff]
              exact fun same => here (key.symm.trans same.1)
            rw [Option.map_some, missed]
            rfl
  · cases done

theorem advance_row_succeeds {row : ScheduleRow} (clean : jobID.all Job.textParam = true)
    (found : schedules.find stored.name = some row) (hit : advances stored row = true)
    (checked : (advancedRow stored nextRunAt now occurrence jobID outcome row).check = true) :
    ∃ updated, advanceRow stored nextRunAt now occurrence jobID outcome schedules = .ok (updated, 1) := by
  have selected : schedules.rows.filter (advances stored) = [row] := by
    rw [advances_filter, found, Option.filter_some, if_pos hit, Option.toList_some]
  have allowed : ∀ other ∈ schedules.rows, advances stored other = true →
      schedulesSchema.check (advancedRow stored nextRunAt now occurrence jobID outcome other) = true := by
    intro other member otherHit
    have listed := List.mem_filter.mpr ⟨member, otherHit⟩
    rw [selected, List.mem_singleton] at listed
    rw [listed]
    exact checked
  rw [advanceRow, if_pos clean]
  simp only [Table.update, dif_pos allowed, selected, List.map_cons, List.map_nil, List.length_cons, List.length_nil,
    Nat.zero_add]
  exact ⟨_, rfl⟩

variable {session : Session} {db next : Full}

theorem advance_cases (done : advance session stored nextRunAt now occurrence jobID outcome db = .ok next) :
    ∃ updated, advanceRow stored nextRunAt now occurrence jobID outcome db.schedules = .ok (updated, 1) ∧
      next = { db with schedules := updated } := by
  unfold advance at done
  split at done
  · cases done
  split at done
  · cases done
  rename_i updated affected moved
  split at done
  · cases done
  split at done
  · cases done
  rename_i single
  cases done
  exact ⟨updated, by rw [moved, Decidable.not_not.mp single], rfl⟩

theorem advance_ok (done : advance session stored nextRunAt now occurrence jobID outcome db = .ok next) :
    ∃ row, db.schedules.find stored.name = some row ∧ advances stored row = true ∧ next.queue = db.queue ∧
      ∀ name, next.schedules.find name = if name = stored.name then
        some (advancedRow stored nextRunAt now occurrence jobID outcome row) else db.schedules.find name := by
  obtain ⟨updated, moved, rfl⟩ := advance_cases done
  obtain ⟨row, found, hit, lookup⟩ := advance_row_ok moved
  exact ⟨row, found, hit, rfl, lookup⟩

variable (nextRunAt now occurrence jobID outcome) in
theorem advance_succeeds {row : ScheduleRow} (reachable : session.fault .advance = none)
    (confirmed : session.fault .affected = none) (clean : jobID.all Job.textParam = true)
    (found : db.schedules.find stored.name = some row) (hit : advances stored row = true)
    (checked : (advancedRow stored nextRunAt now occurrence jobID outcome row).check = true) :
    ∃ next, advance session stored nextRunAt now occurrence jobID outcome db = .ok next := by
  obtain ⟨updated, moved⟩ := advance_row_succeeds clean found hit checked
  rw [advance, reachable, moved, confirmed]
  exact ⟨_, rfl⟩

end

section

variable (session : Session) (definition : Definition) (db : Full)

structure Initialized (cursor : Int) (view : Full) : Prop where
  absent : db.schedules.find definition.name = none
  computed : initialCursor definition session.initialNow = .ok cursor
  queue : view.queue = db.queue
  inserted : db.schedules.insert (initialRow definition cursor session.initialNow) = .ok view.schedules

variable {session definition db}

theorem insert_row_fresh {row : ScheduleRow} {schedules inserted : Table schedulesSchema}
    (done : schedules.insert row = .ok inserted) : insertRow row schedules = .ok inserted := by
  unfold insertRow
  rw [done]

theorem insert_row_ok {row : ScheduleRow} {schedules inserted : Table schedulesSchema}
    (absent : schedules.find row.name = none) (done : insertRow row schedules = .ok inserted) :
    schedules.insert row = .ok inserted := by
  unfold insertRow at done
  split at done
  · rename_i table fresh
    cases done
    exact fresh
  · rename_i taken
    unfold Table.insert at taken
    split at taken
    · split at taken
      · rename_i present
        obtain ⟨other, member, same⟩ := List.mem_map.mp present
        exact absurd same ((find_none_iff schedules row.name).mp absent other member)
      · split at taken <;> cases taken
    · cases taken
  · cases done

theorem initialize_ok {view : Full} (absent : db.schedules.find definition.name = none)
    (done : initializeSchedule session definition db = .ok view) :
    ∃ cursor, Initialized session definition db cursor view := by
  unfold initializeSchedule databaseClock at done
  split at done
  · cases done
  rename_i now clocked
  have reading : now = session.initialNow := by
    split at clocked
    · cases clocked
    · exact (Except.ok.inj clocked).symm
  subst reading
  split at done
  · cases done
  rename_i cursor computed
  split at done
  · cases done
  split at done
  · cases done
  rename_i schedules inserted
  cases done
  have fresh := insert_row_ok absent inserted
  exact ⟨cursor, absent, computed, rfl, fresh⟩

theorem lock_ok {stage : Stage} {found : Option ScheduleRow} (done : lock session stage definition db = .ok found) :
    found = if session.skipped stage then none else db.schedules.find definition.name := by
  unfold lock at done
  split at done
  · cases done
  · exact (Except.ok.inj done).symm

theorem load_cases {found : Option ScheduleRow} {view : Full}
    (done : loadRow session definition db = .ok (found, view)) :
    (view = db ∧ ∃ stored, db.schedules.find definition.name = some stored ∧ ∀ row, found = some row → row = stored) ∨
    (∃ cursor, Initialized session definition db cursor view ∧
      ∀ row, found = some row → row = initialRow definition cursor session.initialNow) := by
  unfold loadRow at done
  split at done
  · cases done
  · rename_i stored locked
    cases done
    have present := lock_ok locked
    split at present
    · cases present
    · exact .inl ⟨rfl, stored, present.symm, fun row same => (Option.some.inj same).symm⟩
  · unfold rowExists at done
    split at done
    · cases done
    · rename_i known
      split at known
      · cases known
      cases done
      obtain ⟨stored, present⟩ := Option.isSome_iff_exists.mp (Except.ok.inj known)
      exact .inl ⟨rfl, stored, present, by rintro row ⟨⟩⟩
    · rename_i unknown
      split at unknown
      · cases unknown
      have absent := Option.not_isSome_iff_eq_none.mp (Bool.eq_false_iff.mp (Except.ok.inj unknown))
      split at done
      · cases done
      rename_i initialized created
      obtain ⟨cursor, fresh⟩ := initialize_ok absent created
      split at done
      · cases done
      rename_i relocked again
      cases done
      refine .inr ⟨cursor, fresh, ?_⟩
      intro row same
      have here := lock_ok again
      rw [insert_find _ _ _ fresh.inserted] at here
      split at here
      · rw [here] at same
        cases same
      · have key : schedulesSchema.key (initialRow definition cursor session.initialNow) = definition.name := rfl
        rw [if_pos key] at here
        exact (Option.some.inj (here.symm.trans same)).symm

theorem load_find {found : Option ScheduleRow} {view : Full}
    (done : loadRow session definition db = .ok (found, view)) :
    (∀ name, name ≠ definition.name → view.schedules.find name = db.schedules.find name) ∧
    (view.schedules.find definition.name = db.schedules.find definition.name ∨
      ∃ cursor, db.schedules.find definition.name = none ∧ initialCursor definition session.initialNow = .ok cursor ∧
        view.schedules.find definition.name = some (initialRow definition cursor session.initialNow)) ∧
    ∀ row, found = some row → view.schedules.find definition.name = some row := by
  rcases load_cases done with ⟨rfl, stored, present, only⟩ | ⟨cursor, fresh, only⟩
  · refine ⟨fun _ _ => rfl, .inl rfl, ?_⟩
    intro row same
    rw [only row same, present]
  · have lookup := insert_find _ _ _ fresh.inserted
    have here : view.schedules.find definition.name = some (initialRow definition cursor session.initialNow) :=
      (lookup definition.name).trans (if_pos rfl)
    refine ⟨?_, .inr ⟨cursor, fresh.absent, fresh.computed, here⟩, ?_⟩
    · intro name different
      exact (lookup name).trans (if_neg (fun same => different same.symm))
    · intro row same
      rw [only row same, here]

theorem load_uncontended {view : Full} (unlocked : ∀ stage, session.skipped stage = false) :
    loadRow session definition db ≠ .ok (none, view) := by
  intro done
  unfold loadRow at done
  split at done
  · cases done
  · cases done
  · rename_i missing
    have absent := lock_ok missing
    rw [unlocked, if_neg Bool.false_ne_true] at absent
    have unknown : rowExists session definition db ≠ .ok true := by
      unfold rowExists
      rw [← absent]
      split <;> exact fun same => nomatch same
    split at done
    · cases done
    · exact absurd ‹_› unknown
    · split at done
      · cases done
      · rename_i initialized created
        obtain ⟨cursor, fresh⟩ := initialize_ok absent.symm created
        split at done
        · cases done
        rename_i relocked again
        obtain ⟨rfl, rfl⟩ := Prod.mk.inj (Except.ok.inj done)
        have gone := lock_ok again
        rw [unlocked, if_neg Bool.false_ne_true, insert_find _ _ _ fresh.inserted] at gone
        have key : schedulesSchema.key (initialRow definition cursor session.initialNow) = definition.name := rfl
        rw [if_pos key] at gone
        cases gone

end

end Goforge.Schedule

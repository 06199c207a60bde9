import Goforge.Orm.UpdateMeaning
import Mathlib.Algebra.Order.Ring.Rat

set_option autoImplicit false

namespace Goforge.Orm

open GoString Sql

section

variable {α V M : Type}

def UpdateBuilder.calls (builder : UpdateBuilder α V M) (calls : List (UpdateCall α)) : UpdateBuilder α V M :=
  calls.foldl UpdateBuilder.call builder

structure GuardedUpdate (α : Type) (one : Arg α) (version : Column) where
  calls : List (UpdateCall α)
  expected : Arg α
  guarded : .optimisticVersion (expectVersion one version expected) ∈ calls

variable {one : Arg α} {version : Column}

def GuardedUpdate.builder (guarded : GuardedUpdate α one version) (table : Table V M) : UpdateBuilder α V M :=
  (update table).calls guarded.calls

structure UpdateEvent (α V : Type) (one : Arg α) (version : Column) where
  update : GuardedUpdate α one version
  before : Bytes → Option V
  succeeded : Bool
  after : Bytes → Option V

-- Building a statement reads no row and each statement is atomic, so the order
-- in which the statements run is all there is to an interleaving.
def runUpdates (database : Database α V) (table : Table V M) :
    List (GuardedUpdate α one version × V) → (Bytes → Option V) → List (UpdateEvent α V one version)
  | [], _ => []
  | (guarded, now) :: rest, cells =>
    let outcome := (guarded.builder table).one database now cells
    { update := guarded, before := cells, succeeded := outcome.1.isOk, after := outcome.2 } ::
      runUpdates database table rest outcome.2

theorem call_keeps (builder : UpdateBuilder α V M) (call : UpdateCall α) :
    builder.table = (builder.call call).table ∧ (∀ item ∈ builder.assignments, item ∈ (builder.call call).assignments) ∧
      ∀ item ∈ builder.predicates, item ∈ (builder.call call).predicates := by
  cases call with
  | set assignments => exact ⟨rfl, fun _ member => List.mem_append_left _ member, fun _ member => member⟩
  | filter predicates => exact ⟨rfl, fun _ member => member, fun _ member => List.mem_append_left _ member⟩
  | optimisticVersion guard =>
    exact ⟨rfl, fun _ member => List.mem_append_left _ member, fun _ member => List.mem_append_left _ member⟩
  | _ => exact ⟨rfl, fun _ member => member, fun _ member => member⟩

theorem calls_keep (builder : UpdateBuilder α V M) (calls : List (UpdateCall α)) :
    builder.table = (builder.calls calls).table ∧
    (∀ item ∈ builder.assignments, item ∈ (builder.calls calls).assignments) ∧
      ∀ item ∈ builder.predicates, item ∈ (builder.calls calls).predicates := by
  induction calls generalizing builder with
  | nil => exact ⟨rfl, fun _ member => member, fun _ member => member⟩
  | cons call calls ih =>
    obtain ⟨table, assignments, predicates⟩ := call_keeps builder call
    obtain ⟨later, others, further⟩ := ih (builder.call call)
    exact ⟨table.trans later, fun item member => others item (assignments item member),
      fun item member => further item (predicates item member)⟩

theorem guard_reaches {guard : VersionGuard α} {calls : List (UpdateCall α)} (builder : UpdateBuilder α V M)
    (member : .optimisticVersion guard ∈ calls) :
    guard.assignment ∈ (builder.calls calls).assignments ∧ guard.predicate ∈ (builder.calls calls).predicates := by
  induction calls generalizing builder with
  | nil => exact absurd member List.not_mem_nil
  | cons call calls ih =>
    rcases List.mem_cons.mp member with rfl | later
    · obtain ⟨_, assignments, predicates⟩ := calls_keep (builder.optimisticVersion guard) calls
      exact ⟨assignments _ (List.mem_append_right _ List.mem_cons_self),
        predicates _ (List.mem_append_right _ List.mem_cons_self)⟩
    · exact ih (builder.call call) later

structure Versions (database : Database α V) (one : Arg α) where
  amount : V → Option ℚ
  unit : V
  encoded : database.driver.encode one = some unit
  equal : ∀ stored given number, amount stored = some number →
    (database.driver.values.compare .eq stored given = true ↔ amount given = some number)

variable (database : Database α V) (table : Table V M) (versions : Versions database one)

def Versions.at (column : Bytes) (cells : Bytes → Option V) : Option ℚ := (cells column).bind versions.amount

def ExactAt (column : Bytes) (cells : Bytes → Option V) : Prop :=
  ∀ stored raised, cells column = some stored → database.storage.plus column stored versions.unit = some raised →
    ∃ number, versions.amount stored = some number ∧ versions.amount raised = some (number + 1)

-- One scans the row the statement leaves only after the statement took effect.
def ReadsBack (before after : Bytes → Option V) : Prop :=
  after ≠ before → ∀ scan, table.mapper.scan = some scan →
    ∃ model, scan (table.mapper.columns.map (fun column => after column.name)) = .ok model

structure StepFits (event : UpdateEvent α V one version) : Prop where
  exact_ : ExactAt database versions version.name.name event.before
  read : ReadsBack table event.before event.after

variable (guarded : GuardedUpdate α one version)

theorem guarded_table : (guarded.builder table).table = table :=
  (calls_keep (update table) guarded.calls).1.symm

variable (now : V) (updates : List (GuardedUpdate α one version × V)) (cells : Bytes → Option V)

theorem failed_update_keeps (readable : ReadsBack table cells ((guarded.builder table).one database now cells).2)
    (failed : ((guarded.builder table).one database now cells).1.isOk = false) :
    ((guarded.builder table).one database now cells).2 = cells := by
  rcases one_cases database now (guarded.builder table) cells with ⟨_, same⟩ | ⟨applied, scan, scanned, result⟩
  · exact same
  · rw [guarded_table] at scanned result
    by_contra changed
    obtain ⟨model, read⟩ := readable changed scan scanned
    rw [read] at result
    rw [result] at failed
    cases failed

theorem version_matched {version : Column} {expected : Arg α} {name : Bytes} (cells : Bytes → Option V)
    (holds : (Condition.compare .eq version expected).truth database.driver (rowOf name cells) = some true) :
    ∃ stored given, cells version.name.name = some stored ∧ database.driver.encode expected = some given ∧
      database.driver.values.compare .eq stored given = true := by
  rw [Condition.truth, compareTruth, Column.value, rowOf] at holds
  by_cases named : version.table.name = name
  · rw [if_pos named] at holds
    cases read : cells version.name.name with
    | none =>
      rw [read] at holds
      cases holds
    | some stored =>
      cases encoded : database.driver.encode expected with
      | none =>
        rw [read, encoded] at holds
        cases holds
      | some given =>
        rw [read, encoded, strict, Option.some_inj] at holds
        exact ⟨stored, given, rfl, rfl, holds⟩
  · rw [if_neg named] at holds
    cases holds

theorem version_raised {version : Column} {one : Arg α} {unit stored : V} (cells : Bytes → Option V)
    {changed : Option V} (encoded : database.driver.encode one = some unit)
    (read : cells version.name.name = some stored)
    (result : (increment version one).result database now cells = some changed) :
    ∃ raised, database.storage.plus version.name.name stored unit = some raised ∧ changed = some raised := by
  simp only [Assignment.result, increment, Column.assign, read, encoded, Option.map_eq_some_iff] at result
  obtain ⟨raised, added, rfl⟩ := result
  exact ⟨raised, added, rfl⟩

theorem successful_update_raises (exact_ : ExactAt database versions version.name.name cells)
    (succeeded : ((guarded.builder table).one database now cells).1.isOk = true) :
    ∃ number, versions.at database version.name.name cells = some number ∧
      (database.driver.encode guarded.expected).bind versions.amount = some number ∧
      versions.at database version.name.name ((guarded.builder table).one database now cells).2 =
      some (number + 1) := by
  rcases one_cases database now (guarded.builder table) cells with ⟨⟨err, failed⟩, _⟩ | ⟨applied, _⟩
  · rw [failed] at succeeded
    cases succeeded
  · obtain ⟨increments, compares⟩ := guard_reaches (update table) guarded.guarded
    have matched := applied.matched _ compares
    obtain ⟨assignments, included, results, _⟩ := applied.assigned
    have kept := included_present [] assignments included
    have result := results _ (kept ▸ List.mem_filter.mpr ⟨increments, rfl⟩)
    rw [guarded_table] at matched
    obtain ⟨stored, given, read, encoded, same⟩ := version_matched database cells matched
    obtain ⟨raised, added, changed⟩ := version_raised database now cells versions.encoded
      read result
    obtain ⟨number, before, after⟩ := exact_ stored raised read added
    refine ⟨number, ?_, ?_, ?_⟩
    · rw [Versions.at, read]
      exact before
    · rw [encoded]
      exact (versions.equal stored given number before).mp same
    · rw [Versions.at,
        show ((guarded.builder table).one database now cells).2 version.name.name = some raised from changed]
      exact after

def UpdateEvent.expected (event : UpdateEvent α V one version) : Option ℚ :=
  (database.driver.encode event.update.expected).bind versions.amount

structure Stepwise (event : UpdateEvent α V one version) : Prop where
  raised : event.succeeded = true → ∃ number,
    versions.at database version.name.name event.before = some number ∧ event.expected database versions = some number ∧
      versions.at database version.name.name event.after = some (number + 1)
  kept : event.succeeded = false → event.after = event.before

theorem run_stepwise
    (fits : ∀ event ∈ runUpdates database table updates cells, StepFits database table versions event) :
    ∀ event ∈ runUpdates database table updates cells, Stepwise database versions event := by
  induction updates generalizing cells with
  | nil => exact List.forall_mem_nil _
  | cons first rest ih =>
    obtain ⟨guarded, now⟩ := first
    rw [runUpdates] at fits ⊢
    obtain ⟨here, later⟩ := List.forall_mem_cons.mp fits
    refine List.forall_mem_cons.mpr ⟨⟨?_, ?_⟩, ih _ later⟩
    · exact successful_update_raises database table versions guarded now cells here.exact_
    · exact failed_update_keeps database table guarded now cells here.read

theorem later_expects_more
    (stepwise : ∀ event ∈ runUpdates database table updates cells, Stepwise database versions event) (number : ℚ)
    (start : versions.at database version.name.name cells = some number) :
    ∀ event ∈ runUpdates database table updates cells, event.succeeded = true →
      ∃ expected, event.expected database versions = some expected ∧ number ≤ expected := by
  induction updates generalizing cells number with
  | nil => exact List.forall_mem_nil _
  | cons first rest ih =>
    obtain ⟨guarded, now⟩ := first
    rw [runUpdates] at stepwise ⊢
    obtain ⟨here, later⟩ := List.forall_mem_cons.mp stepwise
    intro event member succeeded
    rcases List.mem_cons.mp member with rfl | further
    · obtain ⟨current, before, expected, _⟩ := here.raised succeeded
      rw [show versions.at database version.name.name cells = some current from before, Option.some_inj] at start
      exact ⟨current, expected, start.ge⟩
    · cases outcome : ((guarded.builder table).one database now cells).1.isOk with
      | true =>
        obtain ⟨current, before, _, after⟩ := here.raised outcome
        rw [show versions.at database version.name.name cells = some current from before, Option.some_inj] at start
        obtain ⟨expected, found, bound⟩ := ih _ later (current + 1) after event further succeeded
        exact ⟨expected, found, by rw [← start]; exact le_trans (le_add_of_nonneg_right zero_le_one) bound⟩
      | false =>
        have same : ((guarded.builder table).one database now cells).2 = cells := here.kept outcome
        exact ih _ later number (by rw [same]; exact start) event further succeeded

theorem one_success_per_version
    (stepwise : ∀ event ∈ runUpdates database table updates cells, Stepwise database versions event) :
    (runUpdates database table updates cells).Pairwise (fun first second =>
      first.succeeded = true → second.succeeded = true →
        first.expected database versions ≠ second.expected database versions) := by
  induction updates generalizing cells with
  | nil => exact List.Pairwise.nil
  | cons first rest ih =>
    obtain ⟨guarded, now⟩ := first
    rw [runUpdates] at stepwise ⊢
    obtain ⟨here, later⟩ := List.forall_mem_cons.mp stepwise
    refine List.Pairwise.cons ?_ (ih _ later)
    intro second member succeeded again same
    obtain ⟨current, _, expected, after⟩ := here.raised succeeded
    obtain ⟨other, found, bound⟩ := later_expects_more database table versions rest _ later (current + 1) after second
      member again
    rw [expected, found, Option.some_inj] at same
    rw [← same] at bound
    exact absurd bound (not_le.mpr (lt_add_of_pos_right current zero_lt_one))

theorem sees_previous
    (stepwise : ∀ event ∈ runUpdates database table updates cells, Stepwise database versions event)
    (middle after : List (UpdateEvent α V one version)) (second : UpdateEvent α V one version)
    (shape : runUpdates database table updates cells = middle ++ second :: after)
    (failed : ∀ event ∈ middle, event.succeeded = false) : second.before = cells := by
  induction updates generalizing cells middle with
  | nil =>
    rw [runUpdates] at shape
    exact absurd shape.symm (List.append_ne_nil_of_right_ne_nil _ (List.cons_ne_nil _ _))
  | cons first rest ih =>
    obtain ⟨guarded, now⟩ := first
    rw [runUpdates] at stepwise shape
    obtain ⟨here, later⟩ := List.forall_mem_cons.mp stepwise
    cases middle with
    | nil =>
      rw [List.nil_append, List.cons.injEq] at shape
      rw [← shape.1]
    | cons event middle =>
      rw [List.cons_append, List.cons.injEq] at shape
      obtain ⟨failedHere, failedLater⟩ := List.forall_mem_cons.mp failed
      rw [← shape.1] at failedHere
      have same := here.kept failedHere
      rw [ih _ later middle shape.2 failedLater]
      exact same

theorem successes_chain
    (stepwise : ∀ event ∈ runUpdates database table updates cells, Stepwise database versions event)
    (before middle after : List (UpdateEvent α V one version)) (first second : UpdateEvent α V one version)
    (shape : runUpdates database table updates cells = before ++ first :: (middle ++ second :: after))
    (failed : ∀ event ∈ middle, event.succeeded = false) : second.before = first.after := by
  induction updates generalizing cells before with
  | nil =>
    rw [runUpdates] at shape
    exact absurd shape.symm (List.append_ne_nil_of_right_ne_nil _ (List.cons_ne_nil _ _))
  | cons head rest ih =>
    obtain ⟨guarded, now⟩ := head
    rw [runUpdates] at stepwise shape
    obtain ⟨_, later⟩ := List.forall_mem_cons.mp stepwise
    cases before with
    | nil =>
      rw [List.nil_append, List.cons.injEq] at shape
      rw [← shape.1]
      exact sees_previous database table versions rest _ later middle after second shape.2 failed
    | cons event before =>
      rw [List.cons_append, List.cons.injEq] at shape
      exact ih _ later before shape.2

-- While adding one to the version is exact and the mapper reads the rows that are
-- left, every run of guarded updates on the row is a chain of successes with failures
-- that change nothing in between.
theorem optimistic_versions_prevent_lost_updates (updates : List (GuardedUpdate α one version × V))
    (cells : Bytes → Option V)
    (fits : ∀ event ∈ runUpdates database table updates cells, StepFits database table versions event) :
    (∀ event ∈ runUpdates database table updates cells, Stepwise database versions event) ∧
    (runUpdates database table updates cells).Pairwise (fun first second =>
      first.succeeded = true → second.succeeded = true →
        first.expected database versions ≠ second.expected database versions) ∧
    ∀ before middle after first second,
      runUpdates database table updates cells = before ++ first :: (middle ++ second :: after) →
      first.succeeded = true → second.succeeded = true → (∀ event ∈ middle, event.succeeded = false) →
      second.before = first.after := by
  have stepwise := run_stepwise database table versions updates cells fits
  refine ⟨stepwise, one_success_per_version database table versions updates cells stepwise, ?_⟩
  intro before middle after first second shape _ _ failed
  exact successes_chain database table versions updates cells stepwise before middle after first second shape failed

end

section Sample

def numberDatabase (plus : Nat → Nat → Nat) : Database Nat (Nat ⊕ Bytes) where
  driver := sampleDriver
  storage :=
    { defaults := fun _ => none
      store := fun _ value => some value
      plus := fun _ left right => match left, right with
        | .inl a, .inl b => some (.inl (plus a b))
        | _, _ => none
      accepts := fun _ => true }

def doublePlus (left right : Nat) : Nat :=
  if left + right ≤ 2 ^ 53 ∨ (left + right) % 2 = 0 then left + right
  else if (left + right) % 4 = 1 then left + right - 1
  else left + right + 1

def versionColumn : Column := sampleColumn (ascii "version") (.inr (by decide))

def versionedTable : Table (Nat ⊕ Bytes) Unit :=
  { name := sampleTable, mapper := { columns := [versionColumn.name], scan := some (fun _ => .ok ()) },
    identity := some 1 }

def titleUpdate (expected title : Nat) : GuardedUpdate Nat (.other 1) versionColumn where
  calls := [.set [(sampleColumn (ascii "title") (.inr (by decide))).set (.other title)],
    .optimisticVersion (expectVersion (.other 1) versionColumn (.other expected))]
  expected := .other expected
  guarded := List.mem_cons_of_mem _ List.mem_cons_self

def versionedRow (number : Nat) : Bytes → Option (Nat ⊕ Bytes) :=
  fun column => if column = ascii "version" then some (.inl number) else none

def wholeVersions : Versions (numberDatabase (· + ·)) (.other 1) where
  amount := fun value => match value with
    | .inl number => some number
    | .inr _ => none
  unit := .inl 1
  encoded := rfl
  equal := by
    intro stored given number known
    cases stored with
    | inr text => cases known
    | inl left =>
      cases known
      cases given with
      | inr text => exact ⟨fun same => (by cases same), fun same => (by cases same)⟩
      | inl right =>
        show decide ((Sum.inl left : Nat ⊕ Bytes) = Sum.inl right) = true ↔ some (right : ℚ) = some (left : ℚ)
        rw [decide_eq_true_eq, Sum.inl.injEq, Option.some_inj, Nat.cast_inj, eq_comm]

theorem whole_exact {column : Bytes} {cells : Bytes → Option (Nat ⊕ Bytes)} :
    ExactAt (numberDatabase (· + ·)) wholeVersions column cells := by
  intro stored raised _ added
  cases stored with
  | inr text => cases added
  | inl number =>
    cases added
    exact ⟨number, rfl, congrArg some (Nat.cast_succ number)⟩

theorem optimistic_versions_prevent_lost_updates_sample :
    (runUpdates (numberDatabase (· + ·)) versionedTable [(titleUpdate 4 7, .inl 0), (titleUpdate 4 8, .inl 0)]
      (versionedRow 4)).map UpdateEvent.succeeded = [true, false] ∧
    ∀ event ∈ runUpdates (numberDatabase (· + ·)) versionedTable [(titleUpdate 4 7, .inl 0), (titleUpdate 4 8, .inl 0)]
      (versionedRow 4), Stepwise (numberDatabase (· + ·)) wholeVersions event :=
  ⟨by decide,
    (optimistic_versions_prevent_lost_updates (numberDatabase (· + ·)) versionedTable wholeVersions
      [(titleUpdate 4 7, .inl 0), (titleUpdate 4 8, .inl 0)] (versionedRow 4)
      (fun _ _ => ⟨whole_exact, fun _ _ found => by cases found; exact ⟨(), rfl⟩⟩)).1⟩

theorem double_version_stands_still :
    (runUpdates (numberDatabase doublePlus) versionedTable
      [(titleUpdate (2 ^ 53) 7, .inl 0), (titleUpdate (2 ^ 53) 8, .inl 0)] (versionedRow (2 ^ 53))).map
        (fun event => (event.succeeded, event.after (ascii "version"))) =
      [(true, some (.inl (2 ^ 53))), (true, some (.inl (2 ^ 53)))] := by
  decide

end Sample

end Goforge.Orm

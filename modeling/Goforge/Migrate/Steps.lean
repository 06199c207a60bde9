import Goforge.Migrate.Migrator
import Mathlib.Data.List.Forall2

set_option autoImplicit false

namespace Goforge.Migrate

open Fallible GoString

def On (p : Database → List Migration → Prop) (s : Session) : Prop := p s.db s.completed

section Rules

variable {α : Type} (env : Environment)

theorem statement_on {context : Bytes} {sql : Sql α} {p : Database → List Migration → Prop}
    {after : α → Database → List Migration → Prop} {broken : Failure → Session → Prop}
    (refused : ∀ reason s, On p s → broken (.wrapped context reason) s)
    (answered : ∀ db completed answer next, p db completed → sql db = some (answer, next) →
      after answer next completed) :
    Triple (On p) (env.statement context sql) (fun answer => On (after answer)) broken := by
  intro s here
  rw [Environment.statement]
  by_cases failing : env.fails s.clock = true
  · rw [if_pos failing]
    exact refused _ _ here
  · rw [if_neg failing]
    cases result : sql s.db with
    | none => exact refused _ _ here
    | some pair => exact answered s.db s.completed pair.1 pair.2 here result

theorem silent_on {context : Bytes} {p : Database → List Migration → Prop} {broken : Failure → Session → Prop}
    (refused : ∀ reason s, On p s → broken (.wrapped context reason) s) :
    Triple (On p) (env.statement context noEffect) (fun _ => On p) broken := by
  refine statement_on env refused ?_
  intro db completed answer next here same
  cases same
  exact here

theorem fail_on {failure : Failure} (p : Database → List Migration → Prop) {after : α → Session → Prop} :
    Triple (On p) (fail failure : Step α) after (fun _ => On p) :=
  triple_fail (fun _ here => here)

theorem or_fail_on {outcome : Except Failure α} {p : Database → List Migration → Prop}
    {broken : Failure → Session → Prop} (refused : ∀ failure s, On p s → broken failure s) :
    Triple (On p) (orFail outcome) (fun a => On (fun db completed => p db completed ∧ outcome = .ok a)) broken := by
  cases outcome with
  | ok a => exact triple_pure (fun _ here => ⟨here, rfl⟩)
  | error failure => exact triple_fail (fun s here => refused failure s here)

theorem bind_on {β : Type} {action : Step α} {next : α → Step β} {p : Database → List Migration → Prop}
    (between : α → Database → List Migration → Prop) {after : β → Session → Prop} {broken : Failure → Session → Prop}
    (first : Triple (On p) action (fun a => On (between a)) broken)
    (second : ∀ a, Triple (On (between a)) (next a) after broken) : Triple (On p) (action >>= next) after broken :=
  triple_bind next after first second

abbrev Preserves (p : Database → List Migration → Prop) (broken : Failure → Session → Prop) (action : Step α) : Prop :=
  Triple (On p) action (fun _ => On p) broken

theorem preserves_bind {β : Type} {p : Database → List Migration → Prop} {broken : Failure → Session → Prop}
    {after : β → Session → Prop} {action : Step α} {next : α → Step β} (first : Preserves p broken action)
    (second : ∀ a, Triple (On p) (next a) after broken) : Triple (On p) (action >>= next) after broken :=
  bind_on (fun _ => p) first second

theorem transaction_on {dialect : Dialect} (transactional : dialect ≠ .mySQL) {work : Step α}
    {p broken : Database → List Migration → Prop} {after : α → Database → List Migration → Prop}
    (stopped : ∀ db made, p db made → broken db made)
    (worked : ∀ db completed, p db completed →
      Triple (On (fun now made => now = db ∧ made = completed)) work
        (fun a => On (fun now made => made = completed ∧ after a now made))
        (fun _ => On (fun _ made => made = completed))) :
    Triple (On p) (inTransaction env dialect work) (fun a => On (after a)) (fun _ => On broken) := by
  refine bind_on (fun _ => p) (silent_on env (fun _ _ here => stopped _ _ here)) ?_
  intro _ s here
  have reached := worked s.db s.completed here s ⟨rfl, rfl⟩
  have rolledBack : ∀ kept : Database, ∀ clock,
      (if dialect = .mySQL ∧ env.keeps clock = true then kept else s.db) = s.db :=
    fun kept clock => if_neg (fun mysql => transactional mysql.1)
  cases outcome : work s with
  | mk result t =>
    rw [outcome] at reached
    cases result with
    | ok a =>
      obtain ⟨same, done⟩ := reached
      simp only [outcome, rolledBack]
      by_cases failing : env.fails t.clock = true
      · rw [if_pos failing]
        show broken s.db t.completed
        rw [same]
        exact stopped _ _ here
      · rw [if_neg failing]
        exact done
    | error failure =>
      simp only [outcome, rolledBack]
      show broken s.db t.completed
      rw [show t.completed = s.completed from reached]
      exact stopped _ _ here

theorem run_lock_on {dialect : Dialect} {work : Step α} {p after broken : Database → List Migration → Prop}
    (worked : Triple (On p) work (fun _ => On after) (fun _ => On broken))
    (unstarted : ∀ db made, p db made → broken db made) (unlocked : ∀ db made, after db made → broken db made) :
    Triple (On p) (withRunLock env dialect work) (fun _ => On after) (fun _ => On broken) := by
  have excused : ∀ context, Triple (On p) (env.statement context noEffect) (fun _ => On p) (fun _ => On broken) :=
    fun _ => silent_on env (fun _ _ here => unstarted _ _ here)
  rw [withRunLock]
  split
  · exact worked
  refine bind_on (fun _ => p) (excused _) ?_
  intro _
  refine bind_on (fun _ => p) (excused _) ?_
  intro _ s here
  have reached := worked s here
  cases outcome : work s with
  | mk result t =>
    rw [outcome] at reached
    simp only [outcome]
    split <;> cases result
    · exact reached
    · exact unlocked t.db t.completed reached
    · exact reached
    · exact reached

end Rules

section Retained

def Record.Retained (old new : Record) : Prop :=
  new.version = old.version ∧ new.name = old.name ∧ new.appliedAt = old.appliedAt ∧
    (old.checksum ≠ none → new.checksum = old.checksum)

theorem retained_refl (record : Record) : record.Retained record := ⟨rfl, rfl, rfl, fun _ => rfl⟩

theorem retained_trans {old between new : Record} (first : old.Retained between) (second : between.Retained new) :
    old.Retained new := by
  obtain ⟨version, name, appliedAt, checksum⟩ := first
  refine ⟨second.1.trans version, second.2.1.trans name, second.2.2.1.trans appliedAt, ?_⟩
  intro present
  have same := checksum present
  exact (second.2.2.2 (same ▸ present)).trans same

theorem retained_fill (record : Record) (version checksum : Bytes) :
    record.Retained (record.fill (lacksChecksum version) checksum) := by
  rw [Record.fill]
  split
  · rename_i chosen
    refine ⟨rfl, rfl, rfl, ?_⟩
    intro present
    rw [lacksChecksum, Bool.and_eq_true, Option.isNone_iff_eq_none] at chosen
    exact absurd chosen.2 present
  · exact retained_refl record

def Retains (old new : List Record) : Prop := List.Forall₂ Record.Retained old new

theorem retains_refl {records : List Record} : Retains records records :=
  List.forall₂_same.mpr (fun record _ => retained_refl record)

theorem retains_fill {old records : List Record} {version checksum : Bytes} (retained : Retains old records) :
    Retains old (records.map (fun record => record.fill (lacksChecksum version) checksum)) := by
  rw [Retains, List.forall₂_map_right_iff]
  exact retained.imp (fun before record here => retained_trans here (retained_fill record version checksum))

theorem retains_versions {old new : List Record} (retained : Retains old new) :
    new.map Record.version = old.map Record.version := by
  induction retained with
  | nil => rfl
  | cons here _ ih => rw [List.map_cons, List.map_cons, ih, here.1]

theorem retains_trans {old between : List Record} (new : List Record) (first : Retains old between)
    (second : Retains between new) : Retains old new := by
  induction first generalizing new with
  | nil =>
    cases second
    exact List.Forall₂.nil
  | cons here _ ih =>
    cases second with
    | cons there later => exact List.Forall₂.cons (retained_trans here there) (ih _ later)

theorem forall_member {A B : Type} {related : A → B → Prop} {items : List A} {others : List B}
    (all : List.Forall₂ related items others) {item : A} (member : item ∈ items) :
    ∃ other ∈ others, related item other := by
  induction all with
  | nil => exact absurd member List.not_mem_nil
  | cons here _ ih =>
    rcases List.mem_cons.mp member with rfl | later
    · exact ⟨_, List.mem_cons_self, here⟩
    · obtain ⟨other, inside, holds⟩ := ih later
      exact ⟨other, List.mem_cons_of_mem _ inside, holds⟩

theorem records_of {db : Database} {ledger : Ledger} (found : db.ledger = some ledger) :
    db.records = ledger.records := by
  rw [Database.records, found]
  rfl

theorem on_ledger_records (change : Ledger → Option Ledger) {db next : Database}
    (changed : onLedger change db = some ((), next)) :
    ∃ old new, db.ledger = some old ∧ change old = some new ∧ next = { db with ledger := some new } := by
  rw [onLedger, Option.map_eq_some_iff] at changed
  obtain ⟨new, bound, same⟩ := changed
  obtain ⟨old, found, applied⟩ := Option.bind_eq_some_iff.mp bound
  cases same
  exact ⟨old, new, found, applied, rfl⟩

theorem set_checksum_records {ledger changed : Ledger} {chosen : Record → Bool} {checksum : Bytes}
    (updated : ledger.setChecksum chosen checksum = some changed) :
    changed.records = ledger.records.map (fun record => record.fill chosen checksum) ∧ changed.column =
    ledger.column := by
  rw [Ledger.setChecksum] at updated
  split at updated
  · cases updated
    exact ⟨rfl, rfl⟩
  · cases updated

end Retained

end Goforge.Migrate

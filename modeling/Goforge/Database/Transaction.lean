import Mathlib.Init

set_option autoImplicit false

namespace Goforge.Database

-- Wrapping with %w and errors.Join, for whatever error type the caller has.
class Errors (ε : Type) where
  wrap : String → ε → ε
  join : ε → ε → ε

-- How the callback of a transaction ends.
inductive Exit (ε ρ : Type) where
  | done (result : ρ)
  | failed (err : ε)
  | panicked

inductive Answer (ε ρ : Type) where
  | ok (result : ρ)
  | error (err : ε)
  | panic
deriving DecidableEq, Repr

-- What the connection makes of begin, commit and rollback.
structure Faults (ε : Type) where
  begin : Option ε
  commit : Option ε
  rollback : Option ε

section

variable {δ ε ρ : Type} [Errors ε]

def rolledBack (faults : Faults ε) (err : ε) : ε :=
  match faults.rollback with
  | none => err
  | some cause => Errors.join err (Errors.wrap "rollback transaction" cause)

-- The callback works on its own view of the database; the view replaces the
-- database when the commit succeeds and is dropped otherwise.
def transaction (faults : Faults ε) (work : δ → Exit ε ρ × δ) (db : δ) : Answer ε ρ × δ :=
  match faults.begin with
  | some err => (.error (Errors.wrap "begin transaction" err), db)
  | none =>
    let worked := work db
    match worked.1 with
    | .panicked => (.panic, db)
    | .failed err => (.error (rolledBack faults err), db)
    | .done result =>
      match faults.commit with
      | some err => (.error (rolledBack faults (Errors.wrap "commit transaction" err)), db)
      | none => (.ok result, worked.2)

theorem transaction_cases (faults : Faults ε) (work : δ → Exit ε ρ × δ) (db : δ) :
    (∃ result, faults.begin = none ∧ faults.commit = none ∧ (work db).1 = .done result ∧
      transaction faults work db = (.ok result, (work db).2)) ∨
    ((∀ result, (transaction faults work db).1 ≠ .ok result) ∧ (transaction faults work db).2 = db) := by
  cases begun : faults.begin with
  | some err =>
    right
    simp [transaction, begun]
  | none =>
    cases exit : (work db).1 with
    | done result =>
      cases committed : faults.commit with
      | some err =>
        right
        simp [transaction, begun, exit, committed]
      | none =>
        left
        refine ⟨result, rfl, rfl, rfl, ?_⟩
        simp [transaction, begun, exit, committed]
    | _ =>
      right
      simp [transaction, begun, exit]

end

end Goforge.Database

import Mathlib.Init

set_option autoImplicit false

-- A computation that may fail; what it did to the state until then stays.
def Fallible (ε σ α : Type) := σ → Except ε α × σ

namespace Fallible

variable {ε ε' σ α β : Type}

instance : Monad (Fallible ε σ) where
  pure a := fun s => (.ok a, s)
  bind action next := fun s =>
    match action s with
    | (.ok a, t) => next a t
    | (.error err, t) => (.error err, t)

def fail (err : ε) : Fallible ε σ α := fun s => (.error err, s)

theorem bind_ok (action : Fallible ε σ α) (next : α → Fallible ε σ β) (s t : σ) (a : α) (came : action s = (.ok a, t)) :
    (action >>= next) s = next a t := by
  show (match action s with
    | (.ok a, t) => next a t
    | (.error err, t) => (.error err, t)) = next a t
  rw [came]

variable {action : Fallible ε σ α}

theorem bind_error (next : α → Fallible ε σ β) {s t : σ} {err : ε} (failed : action s = (.error err, t)) :
    (action >>= next) s = (.error err, t) := by
  show (match action s with
    | (.ok a, t) => next a t
    | (.error err, t) => (.error err, t)) = (.error err, t)
  rw [failed]

def Outcome (after : α → σ → Prop) (broken : ε → σ → Prop) : Except ε α × σ → Prop
  | (.ok a, s) => after a s
  | (.error err, s) => broken err s

def Triple (before : σ → Prop) (action : Fallible ε σ α) (after : α → σ → Prop) (broken : ε → σ → Prop) : Prop :=
  ∀ s, before s → Outcome after broken (action s)

variable {before before' : σ → Prop} {after after' : α → σ → Prop} {broken broken' : ε → σ → Prop}

theorem triple_pure {a : α} (holds : ∀ s, before s → after a s) :
    Triple before (pure a : Fallible ε σ α) after broken :=
  fun s here => holds s here

theorem triple_fail {err : ε} (holds : ∀ s, before s → broken err s) :
    Triple before (fail err : Fallible ε σ α) after broken :=
  fun s here => holds s here

theorem triple_bind (next : α → Fallible ε σ β) {between : α → σ → Prop} (after : β → σ → Prop)
    (first : Triple before action between broken) (second : ∀ a, Triple (between a) (next a) after broken) :
    Triple before (action >>= next) after broken := by
  intro s here
  have reached := first s here
  show Outcome after broken (match action s with
    | (.ok a, t) => next a t
    | (.error err, t) => (.error err, t))
  generalize action s = outcome at reached
  obtain ⟨result, t⟩ := outcome
  cases result with
  | ok a => exact second a t reached
  | error err => exact reached

theorem triple_weaken {action : Fallible ε σ α} (triple : Triple before action after broken)
    (stronger : ∀ s, before' s → before s) (weaker : ∀ a s, after a s → after' a s)
    (excused : ∀ err s, broken err s → broken' err s) : Triple before' action after' broken' := by
  intro s here
  have reached := triple s (stronger s here)
  generalize action s = outcome at reached ⊢
  obtain ⟨result, t⟩ := outcome
  cases result with
  | ok a => exact weaker a t reached
  | error err => exact excused err t reached

theorem triple_and (first : Triple before action after broken) (second : Triple before' action after' broken') :
    Triple (fun s => before s ∧ before' s) action (fun a s => after a s ∧ after' a s)
      (fun err s => broken err s ∧ broken' err s) := by
  intro s here
  have one := first s here.1
  have other := second s here.2
  generalize action s = outcome at one other ⊢
  obtain ⟨result, t⟩ := outcome
  cases result <;> exact ⟨one, other⟩

theorem triple_given {given : Prop} (triple : given → Triple before action after broken) :
    Triple (fun s => given ∧ before s) action after broken :=
  fun s here => triple here.1 s here.2

def each (f : α → Fallible ε σ Unit) : List α → Fallible ε σ Unit
  | [] => pure ()
  | a :: rest => do
      f a
      each f rest

theorem triple_each (f : α → Fallible ε σ Unit) (items : List α) (inv : List α → List α → σ → Prop)
    (broken : ε → σ → Prop)
    (step : ∀ done item rest, done ++ item :: rest = items →
      Triple (inv done (item :: rest)) (f item) (fun _ => inv (done ++ [item]) rest) broken) :
    Triple (inv [] items) (each f items) (fun _ => inv items []) broken := by
  have loop : ∀ rest done, done ++ rest = items →
      Triple (inv done rest) (each f rest) (fun _ => inv items []) broken := by
    intro rest
    induction rest with
    | nil =>
      intro done whole
      rw [List.append_nil] at whole
      subst whole
      exact triple_pure (fun _ here => here)
    | cons item rest ih =>
      intro done whole
      refine triple_bind (fun _ => each f rest) _ (step done item rest whole) ?_
      intro _
      exact ih (done ++ [item]) (by rw [List.append_assoc]; exact whole)
  exact loop items [] rfl

end Fallible

import Mathlib.Init

set_option autoImplicit false

namespace Machine

-- A labelled transition system. Labels carry everything the environment
-- chooses, so a list of labels is one interleaving of its parties.
structure System (σ α : Type) where
  start : σ → Prop
  step : σ → α → σ → Prop

-- The same system, keeping only the steps that satisfy a side condition on
-- the label and on the state before the step.
def System.guard {σ α : Type} (sys : System σ α) (ok : σ → α → Prop) : System σ α where
  start := sys.start
  step s a t := ok s a ∧ sys.step s a t

inductive Run {σ α : Type} (sys : System σ α) : σ → List α → σ → Prop where
  | nil (s : σ) : Run sys s [] s
  | cons (s t u : σ) (a : α) (rest : List α) (first : sys.step s a t) (later : Run sys t rest u) :
      Run sys s (a :: rest) u

inductive Reach {σ α : Type} (sys : System σ α) : σ → Prop where
  | start (s : σ) (initial : sys.start s) : Reach sys s
  | next (s t : σ) (a : α) (previous : Reach sys s) (step : sys.step s a t) : Reach sys t

section

variable {σ α : Type} {sys : System σ α}

variable {s t : σ} {acts : List α}

theorem run_invariant {inv : σ → Prop} (keep : ∀ s a t, inv s → sys.step s a t → inv t) (run : Run sys s acts t)
    (holds : inv s) : inv t := by
  induction run with
  | nil => exact holds
  | cons s m t a rest first _ ih => exact ih (keep s a m holds first)

theorem reach_invariant (inv : σ → Prop) (base : ∀ s, sys.start s → inv s)
    (keep : ∀ s a t, inv s → sys.step s a t → inv t) {s : σ} (reached : Reach sys s) : inv s := by
  induction reached with
  | start s initial => exact base s initial
  | next s t a _ step ih => exact keep s a t ih step

theorem reach_run (reached : Reach sys s) (run : Run sys s acts t) : Reach sys t :=
  run_invariant (fun s a t previous step => .next s t a previous step) run reached

theorem run_append {u : σ} {later : List α} (run : Run sys s acts t) (rest : Run sys t later u) :
    Run sys s (acts ++ later) u := by
  induction run with
  | nil => exact rest
  | cons s m t a acts first _ ih => exact .cons s m u a (acts ++ later) first (ih rest)

theorem reach_guard {ok : σ → α → Prop} (reached : Reach (sys.guard ok) s) : Reach sys s := by
  induction reached with
  | start s initial => exact .start s initial
  | next s t a _ step ih => exact .next s t a ih step.2

theorem run_guard {ok : α → Prop} (allowed : ∀ a ∈ acts, ok a) (run : Run sys s acts t) :
    Run (sys.guard (fun _ a => ok a)) s acts t := by
  induction run with
  | nil s => exact .nil s
  | cons s m t a rest first _ ih =>
    exact .cons s m t a rest ⟨allowed a List.mem_cons_self, first⟩
      (ih (fun later member => allowed later (List.mem_cons_of_mem a member)))

theorem replay_run {next : σ → α → Option σ} (sound : ∀ s a t, next s a = some t → sys.step s a t) (s : σ)
    (replayed : acts.foldlM next s = some t) : Run sys s acts t := by
  induction acts generalizing s with
  | nil =>
    obtain rfl : s = t := Option.some.inj replayed
    exact .nil s
  | cons a rest ih =>
    rw [List.foldlM_cons, Option.bind_eq_bind, Option.bind_eq_some_iff] at replayed
    obtain ⟨middle, first, later⟩ := replayed
    exact .cons s middle t a rest (sound s a middle first) (ih middle later)

end

end Machine

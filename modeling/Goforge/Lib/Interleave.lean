import Mathlib.Logic.Nontrivial.Basic
import Goforge.Lib.Machine

set_option autoImplicit false

namespace Interleave

open Machine

-- A program over the questions it asks its environment: clocks, random
-- sources, calls to a shared store. Between two questions other programs run.
inductive Prog {ι : Type} (ρ : ι → Type) (α : Type) : Type where
  | ret (value : α)
  | ask (question : ι) (next : ρ question → Prog ρ α)

section

variable {ι : Type} {ρ : ι → Type} {α β : Type}

def Prog.bind : Prog ρ α → (α → Prog ρ β) → Prog ρ β
  | .ret value, rest => rest value
  | .ask question next, rest => .ask question (fun reply => (next reply).bind rest)

instance : Monad (Prog ρ) where
  pure := .ret
  bind := Prog.bind

def Prog.query (question : ι) : Prog ρ (ρ question) := .ask question .ret

-- The same program where its questions are some of many.
def Prog.embed {κ : Type} {π : κ → Type} (into : ι → κ) (back : ∀ question, π (into question) → ρ question) :
    Prog ρ α → Prog π α
  | .ret value => .ret value
  | .ask question next => .ask (into question) (fun reply => (next (back question reply)).embed into back)

end

-- How the shared state answers the questions of a party, and how it changes on
-- its own.
structure World (σ κ ι : Type) (ρ : ι → Type) where
  start : σ → Prop
  answers : σ → κ → (question : ι) → ρ question → σ → Prop
  drifts : σ → σ → Prop

-- Every party runs one program at a time; one that has returned is idle and
-- keeps its result as its local state.
structure Config (σ κ : Type) {ι : Type} (ρ : ι → Type) (α : Type) where
  world : σ
  progs : κ → Prog ρ α

inductive Label (κ μ : Type) where
  | begins (party : κ) (method : μ)
  | asks (party : κ)
  | drifts

def Config.set {σ κ ι α : Type} {ρ : ι → Type} [DecidableEq κ] (c : Config σ κ ρ α) (party : κ) (prog : Prog ρ α)
    (world : σ) : Config σ κ ρ α :=
  ⟨world, fun other => if other = party then prog else c.progs other⟩

-- Any number of parties call methods on their local states, in any order.
def interleaved {σ κ ι α μ : Type} {ρ : ι → Type} [DecidableEq κ] (w : World σ κ ι ρ) (program : μ → α → Prog ρ α)
    (first : κ → α) : System (Config σ κ ρ α) (Label κ μ) where
  start c := w.start c.world ∧ c.progs = fun party => .ret (first party)
  step c label d :=
    match label with
    | .begins party method => ∃ value, c.progs party = .ret value ∧ d = c.set party (program method value) c.world
    | .asks party => ∃ question next reply world, c.progs party = .ask question next ∧
        w.answers c.world party question reply world ∧ d = c.set party (next reply) world
    | .drifts => ∃ world, w.drifts c.world world ∧ d = ⟨world, c.progs⟩

inductive Runs {σ κ ι α : Type} {ρ : ι → Type} (w : World σ κ ι ρ) (party : κ) : Prog ρ α → σ → α → σ → Prop where
  | ret (value : α) (s : σ) : Runs w party (.ret value) s value s
  | ask (question : ι) (next : ρ question → Prog ρ α) (s : σ) (reply : ρ question) (t : σ) (value : α) (u : σ)
      (answered : w.answers s party question reply t) (later : Runs w party (next reply) t value u) :
      Runs w party (.ask question next) s value u

section

variable {σ κ ι α β : Type} {ρ : ι → Type} {w : World σ κ ι ρ}

theorem runs_ret {party : κ} {value result : α} {s t : σ} (run : Runs w party (.ret value) s result t) :
    result = value ∧ t = s := by
  cases run
  exact ⟨rfl, rfl⟩

theorem runs_query {party : κ} {question : ι} {next : ρ question → Prog ρ α} {s u : σ} {result : α}
    (run : Runs w party (Prog.query question >>= next) s result u) :
    ∃ reply t, w.answers s party question reply t ∧ Runs w party (next reply) t result u := by
  cases run with
  | ask _ _ _ reply t _ _ answered later => exact ⟨reply, t, answered, later⟩

theorem runs_bind {party : κ} {prog : Prog ρ α} {next : α → Prog ρ β} (s : σ) {u : σ} {result : β}
    (run : Runs w party (prog >>= next) s result u) :
    ∃ value t, Runs w party prog s value t ∧ Runs w party (next value) t result u := by
  induction prog generalizing s with
  | ret value => exact ⟨value, s, .ret value s, run⟩
  | ask question rest ih =>
    cases run with
    | ask _ _ _ reply t _ _ answered later =>
      obtain ⟨value, middle, first, second⟩ := ih reply t later
      exact ⟨value, middle, .ask question rest s reply t value middle answered first, second⟩

def execute (answer : σ → κ → (question : ι) → ρ question × σ) (party : κ) : Prog ρ α → σ → α × σ
  | .ret value, s => (value, s)
  | .ask question next, s =>
    execute answer party (next (answer s party question).1) (answer s party question).2

theorem execute_runs {answer : σ → κ → (question : ι) → ρ question × σ} {party : κ}
    (allowed : ∀ s question, w.answers s party question (answer s party question).1 (answer s party question).2)
    (prog : Prog ρ α) (s : σ) :
    Runs w party prog s (execute answer party prog s).1 (execute answer party prog s).2 := by
  induction prog generalizing s with
  | ret value => exact .ret value s
  | ask question next ih => exact .ask question next s _ _ _ _ (allowed s question) (ih _ _)

end

-- What a party may count on while others run, besides an invariant of the
-- shared state.
structure Rules (σ κ : Type) where
  inv : σ → Prop
  rely : κ → σ → σ → Prop
  refl : ∀ party s, rely party s s
  trans : ∀ party s t u, rely party s t → rely party t u → rely party s u

section

variable {σ κ ι α β μ : Type} {ρ : ι → Type} (w : World σ κ ι ρ) (rules : Rules σ κ)

-- Every answer the program can get keeps the invariant and what the others
-- count on, and its result satisfies the postcondition.
def Valid (party : κ) (post : σ → α → Prop) : Prog ρ α → σ → Prop
  | .ret value, s => post s value
  | .ask question next, s => ∀ later, rules.rely party s later → rules.inv later →
      ∀ reply t, w.answers later party question reply t →
        rules.inv t ∧ (∀ other, other ≠ party → rules.rely other later t) ∧ Valid party post (next reply) t

def Stable (party : κ) (post : σ → α → Prop) : Prop :=
  ∀ s t value, post s value → rules.rely party s t → post t value

variable {w rules}

variable {prog : Prog ρ α} {post : σ → α → Prop}

theorem valid_stable {party : κ} (stable : Stable rules party post) {s t : σ} (valid : Valid w rules party post prog s)
    (others : rules.rely party s t) : Valid w rules party post prog t := by
  cases prog with
  | ret value => exact stable s t value valid others
  | ask question next =>
    intro later further holds
    exact valid later (rules.trans party s t later others further) holds

theorem valid_bind {party : κ} {post : σ → β → Prop} {next : α → Prog ρ β} (s : σ)
    (valid : Valid w rules party (fun t value => Valid w rules party post (next value) t) prog s) :
    Valid w rules party post (prog >>= next) s := by
  induction prog generalizing s with
  | ret value => exact valid
  | ask question rest ih =>
    intro later others holds reply t answered
    obtain ⟨kept, guaranteed, further⟩ := valid later others holds reply t answered
    exact ⟨kept, guaranteed, ih reply t further⟩

theorem valid_query {party : κ} {post : σ → β → Prop} {question : ι} {next : ρ question → Prog ρ β} {s : σ}
    (valid : ∀ later, rules.rely party s later → rules.inv later → ∀ reply t,
      w.answers later party question reply t →
        rules.inv t ∧ (∀ other, other ≠ party → rules.rely other later t) ∧ Valid w rules party post (next reply) t) :
    Valid w rules party post (Prog.query question >>= next) s := valid

theorem valid_mono {party : κ} {weaker : σ → α → Prop} (implies : ∀ s value, post s value → weaker s value) (s : σ)
    (valid : Valid w rules party post prog s) : Valid w rules party weaker prog s := by
  induction prog generalizing s with
  | ret value => exact implies s value valid
  | ask question rest ih =>
    intro later others holds reply t answered
    obtain ⟨kept, guaranteed, further⟩ := valid later others holds reply t answered
    exact ⟨kept, guaranteed, ih reply t further⟩

theorem valid_embed {γ : Type} {π : γ → Type} {into : γ → ι} {back : ∀ question, ρ (into question) → π question}
    {party : κ} (stable : Stable rules party post) (prog : Prog π α) (s : σ)
    (quiet : ∀ question s reply t, rules.inv s → w.answers s party (into question) reply t →
      rules.inv t ∧ ∀ other, rules.rely other s t) (holds : ∀ value, post s value) :
    Valid w rules party post (prog.embed into back) s := by
  induction prog generalizing s with
  | ret value => exact holds value
  | ask question next ih =>
    intro later others inv reply t answered
    obtain ⟨kept, relied⟩ := quiet question later reply t inv answered
    refine ⟨kept, fun other _ => relied other, ih (back question reply) t ?_⟩
    exact fun value => stable later t value (stable s later value (holds value) others) (relied party)

theorem valid_except {ε : Type} {party : κ} {post : σ → Except ε β → Prop} {prog : ExceptT ε (Prog ρ) α}
    {next : α → ExceptT ε (Prog ρ) β} {s : σ} (valid : Valid w rules party (fun t result =>
      (∀ err, result = .error err → post t (.error err)) ∧
      ∀ value, result = .ok value → Valid w rules party post (next value).run t) prog.run s) :
    Valid w rules party post (prog >>= next).run s := by
  refine valid_bind s (valid_mono ?_ s valid)
  rintro t (err | value) ⟨failed, further⟩
  · exact failed err rfl
  · exact further value rfl

variable (w rules)

variable (c : Config σ κ ρ α) {party : κ}

-- The rules hold for a set of methods: each keeps them from any local state
-- that satisfies the invariant of an idle party.
structure Sound (program : μ → α → Prog ρ α) (first : κ → α) (idle : κ → σ → α → Prop) : Prop where
  starts : ∀ s, w.start s → rules.inv s ∧ ∀ party, idle party s (first party)
  drifts : ∀ s t, rules.inv s → w.drifts s t → rules.inv t ∧ ∀ party, rules.rely party s t
  stable : ∀ party, Stable rules party (idle party)
  methods : ∀ party s value method, rules.inv s → idle party s value →
    Valid w rules party (idle party) (program method value) s

variable {w rules} [DecidableEq κ] {program : μ → α → Prog ρ α} {first : κ → α} {idle : κ → σ → α → Prop}

structure Kept (w : World σ κ ι ρ) (rules : Rules σ κ) (idle : κ → σ → α → Prop) (c : Config σ κ ρ α) : Prop where
  inv : rules.inv c.world
  valid : ∀ party, Valid w rules party (idle party) (c.progs party) c.world

theorem set_same (party : κ) (prog : Prog ρ α) (world : σ) :
    (c.set party prog world).progs party = prog := if_pos rfl

theorem set_other {other : κ} {prog : Prog ρ α} {world : σ} (apart : other ≠ party) :
    (c.set party prog world).progs other = c.progs other := if_neg apart

theorem kept_step (sound : Sound w rules program first idle) {c d : Config σ κ ρ α} {label : Label κ μ}
    (kept : Kept w rules idle c) (step : (interleaved w program first).step c label d) :
    Kept w rules idle d ∧ ∀ party, (∀ method, label ≠ .begins party method) → label ≠ .asks party →
      d.progs party = c.progs party ∧ rules.rely party c.world d.world := by
  cases label with
  | begins party method =>
    obtain ⟨value, returned, rfl⟩ := step
    have here := kept.valid party
    rw [returned] at here
    refine ⟨⟨kept.inv, ?_⟩, ?_⟩
    · intro other
      by_cases same : other = party
      · subst same
        rw [set_same]
        exact sound.methods other c.world value method kept.inv here
      · rw [set_other c same]
        exact kept.valid other
    · intro other apart _
      have other' : other ≠ party := fun same => apart method (same ▸ rfl)
      exact ⟨set_other c other', rules.refl other _⟩
  | asks party =>
    obtain ⟨question, next, reply, world, asked, answered, rfl⟩ := step
    have valid := kept.valid party
    rw [asked] at valid
    obtain ⟨inv, others, further⟩ := valid c.world (rules.refl party _) kept.inv reply world answered
    refine ⟨⟨inv, ?_⟩, ?_⟩
    · intro other
      by_cases same : other = party
      · subst same
        rw [set_same]
        exact further
      · rw [set_other c same]
        exact valid_stable (sound.stable other) (kept.valid other) (others other same)
    · intro other _ apart
      have other' : other ≠ party := fun same => apart (same ▸ rfl)
      exact ⟨set_other c other', others other other'⟩
  | drifts =>
    obtain ⟨world, drifted, rfl⟩ := step
    obtain ⟨inv, others⟩ := sound.drifts c.world world kept.inv drifted
    refine ⟨⟨inv, ?_⟩, fun party _ _ => ⟨rfl, others party⟩⟩
    intro party
    exact valid_stable (sound.stable party) (kept.valid party) (others party)

theorem reach_kept (sound : Sound w rules program first idle) (c : Config σ κ ρ α)
    (reached : Reach (interleaved w program first) c) : Kept w rules idle c := by
  refine reach_invariant (Kept w rules idle) ?_ ?_ reached
  · rintro ⟨world, progs⟩ ⟨initial, rfl⟩
    obtain ⟨inv, locals⟩ := sound.starts world initial
    exact ⟨inv, locals⟩
  · intro c label d kept step
    exact (kept_step sound kept step).1

theorem run_relied [Nontrivial κ] (sound : Sound w rules program first idle) {holds : σ → σ → Prop}
    (refl : ∀ s, holds s s) (trans : ∀ s t u, holds s t → holds t u → holds s u)
    (relied : ∀ party s t, rules.rely party s t → holds s t) (c d : Config σ κ ρ α) (labels : List (Label κ μ))
    (kept : Kept w rules idle c) (run : Run (interleaved w program first) c labels d) :
    Kept w rules idle d ∧ holds c.world d.world := by
  induction run with
  | nil => exact ⟨kept, refl _⟩
  | cons c m d label rest step _ ih =>
    obtain ⟨next, others⟩ := kept_step sound kept step
    obtain ⟨last, later⟩ := ih next
    refine ⟨last, trans _ _ _ ?_ later⟩
    cases label with
    | begins party method =>
      obtain ⟨other, apart⟩ := exists_ne party
      refine relied other _ _ (others other ?_ (by rintro ⟨⟩)).2
      rintro _ ⟨⟩
      exact apart rfl
    | asks party =>
      obtain ⟨other, apart⟩ := exists_ne party
      refine relied other _ _ (others other (by rintro _ ⟨⟩) ?_).2
      rintro ⟨⟩
      exact apart rfl
    | drifts =>
      obtain ⟨party, _⟩ := exists_pair_ne κ
      exact relied party _ _ (others party (by rintro _ ⟨⟩) (by rintro ⟨⟩)).2

theorem run_valid (sound : Sound w rules program first idle) (post : σ → α → Prop)
    (stable : Stable rules party post) {c d : Config σ κ ρ α} {labels : List (Label κ μ)}
    (kept : Kept w rules idle c) (run : Run (interleaved w program first) c labels d)
    (busy : ∀ method, .begins party method ∉ labels) (valid : Valid w rules party post (c.progs party) c.world) :
    Valid w rules party post (d.progs party) d.world := by
  induction run with
  | nil => exact valid
  | cons c m d label rest step _ ih =>
    obtain ⟨next, others⟩ := kept_step sound kept step
    have later : ∀ method, .begins party method ∉ rest := fun method member =>
      busy method (List.mem_cons_of_mem _ member)
    refine ih next later ?_
    by_cases own : label = .asks party
    · subst own
      obtain ⟨question, rest, reply, world, asked, answered, rfl⟩ := step
      rw [asked] at valid
      rw [set_same]
      exact (valid c.world (rules.refl party _) kept.inv reply world answered).2.2
    · obtain ⟨same, relied⟩ := others party (fun method equal => busy method (equal ▸ List.mem_cons_self)) own
      rw [same]
      exact valid_stable stable valid relied

def play (answer : σ → κ → (question : ι) → ρ question × σ) (program : μ → α → Prog ρ α) :
    List (κ × μ) → Config σ κ ρ α → Config σ κ ρ α
  | [], c => c
  | (party, method) :: rest, c =>
    match c.progs party with
    | .ask _ _ => c
    | .ret value =>
      let result := execute answer party (program method value) c.world
      play answer program rest (c.set party (.ret result.1) result.2)

theorem set_set (party : κ) (first second : Prog ρ α) (world later : σ) :
    (c.set party first world).set party second later = c.set party second later := by
  unfold Config.set
  congr 1
  funext other
  by_cases same : other = party <;> simp [same]

variable {answer : σ → κ → (question : ι) → ρ question × σ}

theorem execute_run
    (allowed : ∀ s question, w.answers s party question (answer s party question).1 (answer s party question).2)
    (c : Config σ κ ρ α) (prog : Prog ρ α) (world : σ) :
    ∃ labels, (∀ method, .begins party method ∉ labels) ∧
      Run (interleaved w program first) (c.set party prog world) labels
        (c.set party (.ret (execute answer party prog world).1) (execute answer party prog world).2) := by
  induction prog generalizing world with
  | ret value => exact ⟨[], by simp, .nil _⟩
  | ask question next ih =>
    obtain ⟨labels, busy, run⟩ := ih (answer world party question).1 (answer world party question).2
    refine ⟨.asks party :: labels, by simpa using busy, .cons _ _ _ _ _ ?_ run⟩
    refine ⟨question, next, _, _, set_same c party _ world, allowed world question, ?_⟩
    rw [set_set]

theorem call_run
    (allowed : ∀ s question, w.answers s party question (answer s party question).1 (answer s party question).2)
    {c : Config σ κ ρ α} (method : μ) {value : α} (idle : c.progs party = .ret value) :
    ∃ labels, (∀ other, .begins party other ∉ labels) ∧
      Run (interleaved w program first) c (.begins party method :: labels)
        (play answer program [(party, method)] c) := by
  obtain ⟨labels, busy, run⟩ := @execute_run σ κ ι α μ ρ w party _ program first answer allowed c
    (program method value) c.world
  refine ⟨labels, busy, .cons _ _ _ _ _ ⟨value, idle, rfl⟩ ?_⟩
  unfold play
  rw [idle]
  exact run

theorem play_run
    (allowed : ∀ s party question, w.answers s party question (answer s party question).1 (answer s party question).2)
    (moves : List (κ × μ)) (c : Config σ κ ρ α) :
    ∃ labels, Run (interleaved w program first) c labels (play answer program moves c) := by
  induction moves generalizing c with
  | nil => exact ⟨[], .nil c⟩
  | cons move rest ih =>
    obtain ⟨party, method⟩ := move
    cases idle : c.progs party with
    | ask question next =>
      unfold play
      rw [idle]
      exact ⟨[], .nil c⟩
    | ret value =>
      obtain ⟨labels, _, run⟩ := @call_run σ κ ι α μ ρ w party _ program first answer
        (fun s question => allowed s party question) c method value idle
      obtain ⟨later, rerun⟩ := ih (play answer program [(party, method)] c)
      refine ⟨.begins party method :: labels ++ later, run_append run ?_⟩
      have unfolded : play answer program ((party, method) :: rest) c =
          play answer program rest (play answer program [(party, method)] c) := by
        simp only [play, idle]
      rw [unfolded]
      exact rerun

theorem play_reached
    (allowed : ∀ s party question, w.answers s party question (answer s party question).1 (answer s party question).2)
    {s : σ} (initial : w.start s) (moves : List (κ × μ)) :
    Reach (interleaved w program first) (play answer program moves ⟨s, fun party => .ret (first party)⟩) := by
  obtain ⟨labels, run⟩ := @play_run σ κ ι α μ ρ w _ program first answer allowed moves
    ⟨s, fun party => .ret (first party)⟩
  exact reach_run (.start _ ⟨initial, rfl⟩) run

end

end Interleave

import Goforge.Lib.ByteOrder
import Mathlib.Data.List.Chain
import Mathlib.Data.List.Perm.Subperm
import Mathlib.Logic.Relation

set_option autoImplicit false

namespace Goforge.Cli

open GoString Relation

structure ParsedModel where
  file : Bytes
  name : Bytes
  fields : List (Option Bytes)

-- The targets one model adds: not itself, and each once.
def newTargets (own : Bytes) (seen : List Bytes) : List (Option Bytes) → List Bytes
  | [] => []
  | none :: rest => newTargets own seen rest
  | some target :: rest =>
    if target ≠ own ∧ target ∉ seen then target :: newTargets own (target :: seen) rest else newTargets own seen rest

def edges (models : List ParsedModel) : Bytes → List Bytes :=
  models.foldl (fun edges model name =>
    if name = model.name then sortBy id (edges name ++ newTargets name [] model.fields) else edges name) (fun _ => [])

def files (models : List ParsedModel) : Bytes → Bytes :=
  models.foldl (fun files model name => if name = model.name then model.file else files name) (fun _ => [])

inductive Mark where
  | unseen
  | active
  | done
deriving DecidableEq

structure Search where
  state : Bytes → Mark
  stack : List Bytes

-- How a search ends early: with a cycle and the file it was found from, by an
-- index past the stack, or because the fuel is used up.
inductive Stop where
  | cycle (file : Bytes) (chain : List Bytes)
  | panics
  | exhausted

def Search.mark (s : Search) (name : Bytes) (mark : Mark) : Bytes → Mark :=
  fun other => if other = name then mark else s.state other

section

variable (models : List ParsedModel)

-- One target of a name; visit is the function itself.
def follow (visit : Bytes → Search → Except Stop Search) (name : Bytes) (s : Search) (target : Bytes) :
    Except Stop Search :=
  match s.state target with
  | .unseen => visit target s
  | .active =>
    if target ∈ s.stack then .error (.cycle (files models name) (s.stack.dropWhile (· ≠ target) ++ [target]))
    else .error .panics
  | .done => .ok s

def visit : Nat → Bytes → Search → Except Stop Search
  | 0, _, _ => .error .exhausted
  | fuel + 1, name, s => do
    let s ← (edges models name).foldlM (follow models (visit fuel) name) ⟨s.mark name .active, s.stack ++ [name]⟩
    return ⟨s.mark name .done, s.stack.dropLast⟩

def names : List Bytes := models.flatMap (fun model => model.name :: model.fields.filterMap id)

def visitRoot (s : Search) (model : ParsedModel) : Except Stop Search :=
  if s.state model.name = .unseen then visit models ((names models).length + 1) model.name s else .ok s

def rejectReferenceCycles : Option Stop :=
  match models.foldlM (visitRoot models) ⟨fun _ => .unseen, []⟩ with
  | .ok _ => none
  | .error stop => some stop

def Refers (name target : Bytes) : Prop :=
  ∃ model ∈ models, model.name = name ∧ some target ∈ model.fields ∧ target ≠ name

def Closed (chain : List Bytes) : Prop :=
  chain.IsChain (Refers models) ∧ ∃ target middle, chain = target :: (middle ++ [target])

end

theorem mem_new_targets (own target : Bytes) (fields : List (Option Bytes)) : ∀ seen,
    target ∈ newTargets own seen fields ↔ some target ∈ fields ∧ target ≠ own ∧ target ∉ seen := by
  induction fields with
  | nil => simp [newTargets]
  | cons field rest ih =>
    intro seen
    cases field with
    | none => simp [newTargets, ih]
    | some first =>
      rw [newTargets]
      split
      · rw [List.mem_cons, ih]
        by_cases same : target = first
        · subst same
          simp_all
        · simp [same]
      · rw [ih]
        by_cases same : target = first
        · subst same
          simp_all
        · simp [same]

theorem mem_edges (models : List ParsedModel) (name target : Bytes) :
    target ∈ edges models name ↔ Refers models name target := by
  have collected : ∀ start : Bytes → List Bytes, target ∈ models.foldl (fun edges model name =>
      if name = model.name then sortBy id (edges name ++ newTargets name [] model.fields) else edges name) start name ↔
      target ∈ start name ∨ Refers models name target := by
    induction models with
    | nil => simp [Refers]
    | cons model rest ih =>
      intro start
      rw [List.foldl_cons, ih]
      by_cases same : name = model.name
      · simp [Refers, same, (sort_by_perm id _).mem_iff, mem_new_targets, or_assoc]
      · simp [Refers, same, Ne.symm same]
  rw [edges, collected]
  simp

theorem refers_known {models : List ParsedModel} {name target : Bytes} (refers : Refers models name target) :
    target ∈ names models := by
  obtain ⟨model, member, _, field, _⟩ := refers
  refine List.mem_flatMap.mpr ⟨model, member, List.mem_cons_of_mem _ ?_⟩
  exact List.mem_filterMap.mpr ⟨some target, field, rfl⟩

section

variable (models : List ParsedModel)

structure Sound (s : Search) : Prop where
  path : s.stack.IsChain (Refers models)
  active : ∀ name, s.state name = .active ↔ name ∈ s.stack
  distinct : s.stack.Nodup
  known : ∀ name ∈ s.stack, name ∈ names models
  ended : ∀ name, s.state name = .done → Acc (fun target name => Refers models name target) name

structure Keeps (s t : Search) : Prop where
  stack : t.stack = s.stack
  done : ∀ name, s.state name = .done → t.state name = .done

def Meets (post : Search → Prop) : Except Stop Search → Prop
  | .ok t => post t
  | .error stop => ∃ file chain, stop = .cycle file chain ∧ Closed models chain

variable {models}

theorem meets_bind {post after : Search → Prop} {result : Except Stop Search} {next : Search → Except Stop Search}
    (first : Meets models post result) (then_ : ∀ t, post t → Meets models after (next t)) :
    Meets models after (result >>= next) := by
  cases result with
  | error stop => exact first
  | ok t => exact then_ t first

theorem meets_mono {post weaker : Search → Prop} {result : Except Stop Search} (meets : Meets models post result)
    (implies : ∀ t, post t → weaker t) : Meets models weaker result := by
  cases result with
  | error stop => exact meets
  | ok t => exact implies t meets

variable {name : Bytes}

theorem active_closed {s : Search} {target : Bytes} (sound : Sound models s) (last : s.stack.getLast? = some name)
    (refers : Refers models name target) (inside : target ∈ s.stack) :
    Closed models (s.stack.dropWhile (· ≠ target) ++ [target]) := by
  obtain ⟨front, middle, parts, absent⟩ := List.eq_append_cons_of_mem inside
  have dropped : s.stack.dropWhile (· ≠ target) = target :: middle := by
    rw [parts, List.dropWhile_append_of_pos]
    · simp
    · rintro b member
      simpa using ne_of_mem_of_not_mem member absent
  have whole : (s.stack ++ [target]).IsChain (Refers models) := by
    refine List.isChain_append.mpr ⟨sound.path, by simp, ?_⟩
    simpa [last] using refers
  refine ⟨whole.suffix ?_, target, middle, by rw [dropped]; rfl⟩
  exact ⟨front, by rw [dropped, parts]; simp⟩

def Visits (models : List ParsedModel) (fuel : Nat) : Prop :=
  ∀ name s, Sound models s → s.state name = .unseen → name ∈ names models →
  (∀ last ∈ s.stack.getLast?, Refers models last name) → (names models).length < fuel + s.stack.length →
  Meets models (fun t => Sound models t ∧ Keeps s t ∧ t.state name = .done) (visit models fuel name s)

theorem follow_targets {fuel : Nat} (visits : Visits models fuel) {targets : List Bytes}
    (refers : ∀ target ∈ targets, Refers models name target) : ∀ s, Sound models s → s.stack.getLast? = some name →
      (names models).length < fuel + s.stack.length →
      Meets models (fun t => Sound models t ∧ Keeps s t ∧ ∀ target ∈ targets, t.state target = .done)
        (targets.foldlM (follow models (visit models fuel) name) s) := by
  induction targets with
  | nil => exact fun s sound _ _ => ⟨sound, ⟨rfl, fun _ done => done⟩, List.forall_mem_nil _⟩
  | cons target rest ih =>
    intro s sound last enough
    obtain ⟨here, others⟩ := List.forall_mem_cons.mp refers
    have first : Meets models (fun t => Sound models t ∧ Keeps s t ∧ t.state target = .done)
        (follow models (visit models fuel) name s target) := by
      rw [follow]
      split
      · rename_i unseen
        exact visits target s sound unseen (refers_known here) (by simpa [last] using here) enough
      · rename_i active
        rw [if_pos ((sound.active target).mp active)]
        exact ⟨_, _, rfl, active_closed sound last here ((sound.active target).mp active)⟩
      · rename_i done
        exact ⟨sound, ⟨rfl, fun _ done => done⟩, done⟩
    rw [List.foldlM_cons]
    refine meets_bind first (fun t found => ?_)
    obtain ⟨sound', keeps, done⟩ := found
    refine meets_mono (ih others t sound' (keeps.stack ▸ last) (keeps.stack ▸ enough)) (fun u further => ?_)
    obtain ⟨sound'', keeps', all⟩ := further
    exact ⟨sound'', ⟨keeps'.stack.trans keeps.stack, fun name old => keeps'.done name (keeps.done name old)⟩,
      List.forall_mem_cons.mpr ⟨keeps'.done target done, all⟩⟩

theorem visit_meets {fuel : Nat} : Visits models fuel := by
  induction fuel with
  | zero =>
    intro name s sound _ _ _ enough
    have bound := (List.Nodup.subperm sound.distinct sound.known).length_le
    omega
  | succ fuel ih =>
    intro name s sound unseen known refers enough
    have new : name ∉ s.stack := fun inside => by simp [(sound.active name).mpr inside] at unseen
    have entered : Sound models ⟨s.mark name .active, s.stack ++ [name]⟩ := by
      refine ⟨List.isChain_append.mpr ⟨sound.path, by simp, by simpa using refers⟩, ?_, ?_, ?_, ?_⟩
      · intro other
        by_cases same : other = name
        · simp [Search.mark, same]
        · simp [Search.mark, same, sound.active other]
      · exact List.nodup_append.mpr ⟨sound.distinct, by simp, by
          rintro _ member _ single rfl
          exact new (List.mem_singleton.mp single ▸ member)⟩
      · exact fun other member => (List.mem_append.mp member).elim (sound.known other)
          (fun single => List.mem_singleton.mp single ▸ known)
      · intro other done
        by_cases same : other = name
        · simp [Search.mark, same] at done
        · exact sound.ended other (by simpa [Search.mark, same] using done)
    rw [visit]
    refine meets_bind (follow_targets ih (fun target => (mem_edges models name target).mp) _ entered (by simp)
      (by rw [List.length_append, List.length_singleton]; omega)) ?_
    rintro t ⟨sound', keeps, all⟩
    have stack : t.stack = s.stack ++ [name] := keeps.stack
    have still : t.stack.dropLast = s.stack := by rw [stack, List.dropLast_concat]
    refine ⟨⟨?_, ?_, ?_, ?_, ?_⟩, ⟨still, ?_⟩, ?_⟩
    · exact still ▸ sound.path
    · intro other
      rw [still]
      by_cases same : other = name
      · simp [Search.mark, same, new]
      · simp [Search.mark, same, sound'.active other, stack]
    · exact still ▸ sound.distinct
    · exact still ▸ sound.known
    · intro other done
      by_cases same : other = name
      · subst same
        exact ⟨_, fun target refers => sound'.ended target (all target ((mem_edges models other target).mpr refers))⟩
      · exact sound'.ended other (by simpa [Search.mark, same] using done)
    · intro other done
      by_cases same : other = name
      · simp [Search.mark, same]
      · simpa [Search.mark, same] using keeps.done other (by simpa [Search.mark, same] using done)
    · simp [Search.mark]

theorem roots_meet {roots : List ParsedModel} (members : ∀ model ∈ roots, model ∈ models) : ∀ s, Sound models s →
    s.stack = [] → Meets models (fun t => Sound models t ∧ (∀ name, s.state name = .done → t.state name = .done) ∧
      ∀ model ∈ roots, t.state model.name = .done) (roots.foldlM (visitRoot models) s) := by
  induction roots with
  | nil => exact fun s sound _ => ⟨sound, fun _ done => done, List.forall_mem_nil _⟩
  | cons model rest ih =>
    intro s sound empty
    obtain ⟨here, others⟩ := List.forall_mem_cons.mp members
    have first : Meets models (fun t => Sound models t ∧ Keeps s t ∧ t.state model.name = .done)
        (visitRoot models s model) := by
      rw [visitRoot]
      split
      · rename_i unseen
        refine visit_meets model.name s sound unseen ?_ (by simp [empty]) (by rw [empty, List.length_nil]; omega)
        exact List.mem_flatMap.mpr ⟨model, here, List.mem_cons_self⟩
      · rename_i seen
        cases mark : s.state model.name with
        | unseen => exact absurd mark seen
        | active => exact absurd ((sound.active _).mp mark) (by simp [empty])
        | done => exact ⟨sound, ⟨rfl, fun _ done => done⟩, mark⟩
    rw [List.foldlM_cons]
    refine meets_bind first (fun t found => ?_)
    obtain ⟨sound', keeps, done⟩ := found
    refine meets_mono (ih others t sound' (keeps.stack.trans empty)) (fun u further => ?_)
    obtain ⟨sound'', kept, all⟩ := further
    exact ⟨sound'', fun name old => kept name (keeps.done name old), List.forall_mem_cons.mpr ⟨kept _ done, all⟩⟩

theorem chain_trans {R : Bytes → Bytes → Prop} (first : Bytes) {last : Bytes} {middle : List Bytes}
    (chain : (first :: (middle ++ [last])).IsChain R) : TransGen R first last := by
  induction middle generalizing first with
  | nil => exact .single (List.isChain_cons_cons.mp chain).1
  | cons next middle ih =>
    obtain ⟨here, rest⟩ := List.isChain_cons_cons.mp chain
    exact .head here (ih next rest)

theorem ended_acyclic (ended : Acc (fun target name => Refers models name target) name) :
    ¬ TransGen (Refers models) name name := by
  induction ended with
  | intro name _ ih =>
    intro cycle
    obtain ⟨next, refers, back⟩ := TransGen.head'_iff.mp cycle
    exact ih next refers (TransGen.tail' back refers)

end

theorem reference_cycles_exact (models : List ParsedModel) :
    (rejectReferenceCycles models = none ↔ ∀ name, ¬ TransGen (Refers models) name name) ∧
      (∀ stop, rejectReferenceCycles models = some stop → ∃ file chain, stop = .cycle file chain ∧
        Closed models chain) ∧
      ∀ others : List ParsedModel, others.Perm models →
        (rejectReferenceCycles others = none ↔ rejectReferenceCycles models = none) := by
  have verdict : ∀ models, (rejectReferenceCycles models = none ∧ ∀ name, ¬ TransGen (Refers models) name name) ∨
      ∃ file chain, rejectReferenceCycles models = some (.cycle file chain) ∧ Closed models chain := by
    intro models
    have start : Sound models ⟨fun _ => .unseen, []⟩ := ⟨by simp, by simp, by simp, by simp, by simp⟩
    have met := roots_meet (fun _ member => member) _ start rfl
    rw [rejectReferenceCycles]
    cases result : models.foldlM (visitRoot models) ⟨fun _ => .unseen, []⟩ with
    | error stop =>
      obtain ⟨file, chain, rfl, closed⟩ := result ▸ met
      exact .inr ⟨file, chain, rfl, closed⟩
    | ok t =>
      obtain ⟨sound, _, all⟩ : Sound models t ∧ _ ∧ ∀ model ∈ models, t.state model.name = .done := result ▸ met
      refine .inl ⟨rfl, fun name cycle => ?_⟩
      obtain ⟨_, ⟨model, member, rfl, _⟩, _⟩ := TransGen.head'_iff.mp cycle
      exact ended_acyclic (sound.ended _ (all model member)) cycle
  have exact_ : ∀ models, rejectReferenceCycles models = none ↔ ∀ name, ¬ TransGen (Refers models) name name := by
    intro models
    rcases verdict models with ⟨none, acyclic⟩ | ⟨file, chain, found, linked, target, middle, rfl⟩
    · exact iff_of_true none acyclic
    · exact iff_of_false (by simp [found]) (fun acyclic => acyclic target (chain_trans target linked))
  refine ⟨exact_ models, ?_, ?_⟩
  · intro stop rejected
    rcases verdict models with ⟨none, _⟩ | ⟨file, chain, found, closed⟩
    · cases none.symm.trans rejected
    · cases found.symm.trans rejected
      exact ⟨file, chain, rfl, closed⟩
  · intro others perm
    have same : Refers others = Refers models := by
      funext name target
      simp only [Refers, perm.mem_iff]
    rw [exact_ others, exact_ models, same]

end Goforge.Cli

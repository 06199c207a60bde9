import Mathlib.Init

set_option autoImplicit false

namespace Names

-- Names from a random source: those drawn, by whom, and those that something
-- was ever stored under.
structure Pool (ν κ : Type) where
  drawn : List ν
  owner : ν → Option κ
  stored : List ν

section

variable {ν κ : Type}

def Pool.empty : Pool ν κ := ⟨[], fun _ => none, []⟩

def Pool.draw [DecidableEq ν] (pool : Pool ν κ) (party : κ) (name : ν) : Pool ν κ :=
  { pool with
    drawn := name :: pool.drawn
    owner := fun other => if other = name then some party else pool.owner other }

def Pool.store (pool : Pool ν κ) (names : List ν) : Pool ν κ := { pool with stored := names ++ pool.stored }

structure Pool.Sound (pool : Pool ν κ) : Prop where
  known : ∀ name ∈ pool.stored, name ∈ pool.drawn
  owned : ∀ name party, pool.owner name = some party → name ∈ pool.drawn

structure Pool.Kept (party : κ) (before after : Pool ν κ) : Prop where
  stored : ∀ name ∈ before.stored, name ∈ after.stored
  mine : ∀ name, before.owner name = some party →
    after.owner name = some party ∧ (name ∈ after.stored → name ∈ before.stored)

def Pool.Reserved (pool : Pool ν κ) (party : κ) (name : ν) : Prop :=
  name ∉ pool.stored ∧ pool.owner name = some party

theorem kept_refl (party : κ) (pool : Pool ν κ) : Pool.Kept party pool pool :=
  ⟨fun _ member => member, fun _ owned => ⟨owned, fun member => member⟩⟩

theorem kept_trans {party : κ} {a b c : Pool ν κ} (first : Pool.Kept party a b) (second : Pool.Kept party b c) :
    Pool.Kept party a c where
  stored name member := second.stored name (first.stored name member)
  mine name owned := by
    obtain ⟨there, old⟩ := first.mine name owned
    obtain ⟨further, older⟩ := second.mine name there
    exact ⟨further, fun member => old (older member)⟩

variable {name : ν} {pool : Pool ν κ}

theorem reserved_kept {party : κ} {before after : Pool ν κ} (reserved : before.Reserved party name)
    (kept : Pool.Kept party before after) : after.Reserved party name := by
  obtain ⟨free, owned⟩ := reserved
  obtain ⟨still, old⟩ := kept.mine name owned
  exact ⟨fun member => free (old member), still⟩

theorem draw_sound [DecidableEq ν] (party : κ) (name : ν) (sound : pool.Sound) :
    (pool.draw party name).Sound where
  known other stored := List.mem_cons_of_mem _ (sound.known other stored)
  owned other someone owned := by
    simp only [Pool.draw] at owned
    split at owned
    · rename_i same
      exact same ▸ List.mem_cons_self
    · exact List.mem_cons_of_mem _ (sound.owned other someone owned)

theorem draw_kept [DecidableEq ν] (party other : κ) (sound : pool.Sound) (fresh : name ∉ pool.drawn) :
    Pool.Kept other pool (pool.draw party name) where
  stored _ member := member
  mine held owned := by
    have different : held ≠ name := fun same => fresh (same ▸ sound.owned held other owned)
    exact ⟨(if_neg different).trans owned, fun member => member⟩

theorem draw_reserved [DecidableEq ν] (party : κ) (sound : pool.Sound) (fresh : name ∉ pool.drawn) :
    (pool.draw party name).Reserved party name :=
  ⟨fun stored => fresh (sound.known name stored), if_pos rfl⟩

theorem store_sound (party : κ) {names : List ν} (sound : pool.Sound)
    (reserved : ∀ name ∈ names, pool.Reserved party name) : (pool.store names).Sound where
  known name member := by
    rcases List.mem_append.mp member with new | old
    · exact sound.owned name party (reserved name new).2
    · exact sound.known name old
  owned := sound.owned

theorem store_kept (party : κ) {other : κ} {names : List ν} (reserved : ∀ name ∈ names, pool.Reserved party name)
    (apart : other ≠ party ∨ names = []) :
    Pool.Kept other pool (pool.store names) where
  stored name member := List.mem_append_right _ member
  mine name owned := by
    refine ⟨owned, fun member => ?_⟩
    rcases List.mem_append.mp member with new | old
    · rcases apart with apart | none
      · exact absurd (Option.some.inj (owned.symm.trans (reserved name new).2)) apart
      · rw [none] at new
        cases new
    · exact old

end

end Names

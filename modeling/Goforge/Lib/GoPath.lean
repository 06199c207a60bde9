import Mathlib.Data.List.Induction
import Goforge.Lib.GoString

set_option autoImplicit false

namespace GoPath

open GoString

def slash : UInt8 := byte '/'

def dot : Bytes := ascii "."

def dotdot : Bytes := ascii ".."

-- The elements kept so far, the last one first. A .. element takes back the one
-- before it, unless there is none or that is itself a .. element.
def push (rooted : Bool) (kept : List Bytes) (element : Bytes) : List Bytes :=
  if element = [] ∨ element = dot then kept
  else if element = dotdot then
    match kept with
    | last :: rest => if last = dotdot then element :: kept else rest
    | [] => if rooted then [] else [element]
  else element :: kept

-- path.Clean
def clean (path : Bytes) : Bytes :=
  let rooted := path.head? == some slash
  let elements := join [slash] ((split slash path).foldl (push rooted) []).reverse
  if rooted then slash :: elements else if elements = [] then dot else elements

-- path.Clean that keeps a trailing slash.
def cleanPath (path : Bytes) : Bytes :=
  if path.getLast? = some slash ∧ (clean path).getLast? ≠ some slash then clean path ++ [slash] else clean path

def level (depth : Nat) (element : Bytes) : Nat :=
  if element = [] ∨ element = dot then depth else if element = dotdot then depth - 1 else depth + 1

def Ordinary (element : Bytes) : Prop := element ≠ [] ∧ element ≠ dot ∧ element ≠ dotdot

def KeptFirst (elements : List Bytes) (element : Bytes) : Prop :=
  ∃ earlier later, elements = earlier ++ element :: later ∧ earlier.foldl level 0 = 0 ∧ Ordinary element ∧
    ∀ part, part <+: later → 0 < part.foldl level 1

def keep (elements : List Bytes) : List Bytes := elements.foldl (push true) []

theorem push_ordinary (kept : List Bytes) {element : Bytes} (ordinary : Ordinary element) :
    push true kept element = element :: kept := by
  rw [push.eq_def, if_neg (by simp [ordinary.1, ordinary.2.1]), if_neg ordinary.2.2]

theorem level_ordinary (depth : Nat) {element : Bytes} (ordinary : Ordinary element) :
    level depth element = depth + 1 := by
  rw [level, if_neg (by simp [ordinary.1, ordinary.2.1]), if_neg ordinary.2.2]

theorem clean_rooted (rest : Bytes) :
    clean (slash :: rest) = slash :: join [slash] (keep (split slash (slash :: rest))).reverse := rfl

theorem push_kept {kept : List Bytes} (element : Bytes) (ordinary : ∀ other ∈ kept, Ordinary other) :
    (push true kept element).length = level kept.length element ∧ ∀ other ∈ push true kept element, Ordinary other := by
  by_cases skipped : element = [] ∨ element = dot
  · rw [push.eq_def, level, if_pos skipped, if_pos skipped]
    exact ⟨rfl, ordinary⟩
  · by_cases back : element = dotdot
    · rw [push.eq_def, level, if_neg skipped, if_neg skipped, if_pos back, if_pos back]
      cases kept with
      | nil => exact ⟨rfl, ordinary⟩
      | cons last rest =>
        have below : last ≠ dotdot := (ordinary last List.mem_cons_self).2.2
        simp only [if_neg below]
        exact ⟨rfl, fun other member => ordinary other (List.mem_cons_of_mem last member)⟩
    · simp only [not_or] at skipped
      have plain : Ordinary element := ⟨skipped.1, skipped.2, back⟩
      rw [push_ordinary kept plain, level_ordinary _ plain]
      refine ⟨rfl, ?_⟩
      intro other member
      rcases List.mem_cons.mp member with rfl | earlier
      · exact plain
      · exact ordinary other earlier

theorem keep_kept (elements : List Bytes) :
    (keep elements).length = elements.foldl level 0 ∧ ∀ other ∈ keep elements, Ordinary other := by
  induction elements using List.reverseRecOn with
  | nil => exact ⟨rfl, fun _ member => nomatch member⟩
  | append_singleton earlier element ih =>
    have next := push_kept element ih.2
    rw [ih.1] at next
    simpa only [keep, List.foldl_append, List.foldl_cons, List.foldl_nil] using next

theorem kept_first_append (earlier : List Bytes) (last element : Bytes) :
    KeptFirst (earlier ++ [last]) element ↔
      KeptFirst earlier element ∧ 0 < (earlier ++ [last]).foldl level 0 ∨
        earlier.foldl level 0 = 0 ∧ Ordinary last ∧ element = last := by
  have whole : ∀ first later : List Bytes, first.foldl level 0 = 0 → Ordinary element →
      (first ++ element :: later).foldl level 0 = later.foldl level 1 := by
    intro first later root ordinary
    rw [List.foldl_append, root, List.foldl_cons, level_ordinary 0 ordinary]
  constructor
  · rintro ⟨first, later, same, root, ordinary, below⟩
    rcases List.eq_nil_or_concat later with rfl | ⟨between, final, rfl⟩
    · obtain ⟨rfl, rfl⟩ := List.append_inj' same rfl |>.imp id (fun h => (List.cons.inj h).1)
      exact .inr ⟨root, ordinary, rfl⟩
    · rw [List.concat_eq_append] at same below
      rw [← List.cons_append, ← List.append_assoc] at same
      obtain ⟨rfl, one⟩ := List.append_inj' same rfl
      obtain rfl := (List.cons.inj one).1
      refine .inl ⟨⟨first, between, rfl, root, ordinary, ?_⟩, ?_⟩
      · exact fun part leading => below part (leading.trans (List.prefix_append _ _))
      · rw [List.append_assoc, List.cons_append, whole first _ root ordinary]
        exact below _ (List.prefix_refl _)
  · rintro (⟨⟨first, between, rfl, root, ordinary, below⟩, deeper⟩ | ⟨root, ordinary, rfl⟩)
    · refine ⟨first, between ++ [last], by simp, root, ordinary, ?_⟩
      intro part leading
      rw [List.append_assoc, List.cons_append, whole first _ root ordinary] at deeper
      rcases List.prefix_concat_iff.mp leading with rfl | shorter
      · exact deeper
      · exact below part shorter
    · refine ⟨earlier, [], rfl, root, ordinary, ?_⟩
      intro part leading
      rw [List.prefix_nil.mp leading]
      exact Nat.one_pos

theorem keep_first (elements : List Bytes) (element : Bytes) :
    (keep elements).getLast? = some element ↔ KeptFirst elements element := by
  induction elements using List.reverseRecOn with
  | nil =>
    refine iff_of_false (fun none => nomatch none) ?_
    rintro ⟨earlier, later, same, _⟩
    simp at same
  | append_singleton earlier last ih =>
    rw [kept_first_append, ← ih]
    have known := keep_kept earlier
    have pushed : keep (earlier ++ [last]) = push true (keep earlier) last := by
      simp only [keep, List.foldl_append, List.foldl_cons, List.foldl_nil]
    have deeper := (push_kept last known.2).1
    rw [List.foldl_append, List.foldl_cons, List.foldl_nil, ← known.1, ← deeper, pushed]
    by_cases skipped : last = [] ∨ last = dot
    · have same : push true (keep earlier) last = keep earlier := by rw [push.eq_def, if_pos skipped]
      rw [same]
      constructor
      · intro first
        exact .inl ⟨first, List.length_pos_of_mem (List.mem_of_getLast? first)⟩
      · rintro (⟨first, _⟩ | ⟨_, ordinary, _⟩)
        · exact first
        · exact absurd skipped (not_or.mpr ⟨ordinary.1, ordinary.2.1⟩)
    · by_cases back : last = dotdot
      · rw [push.eq_def, if_neg skipped, if_pos back]
        cases kept : keep earlier with
        | nil => simp [Ordinary, back]
        | cons final rest =>
          have below : final ≠ dotdot := (known.2 final (kept ▸ List.mem_cons_self)).2.2
          simp only [if_neg below]
          cases rest <;> simp [Ordinary, back]
      · simp only [not_or] at skipped
        have plain : Ordinary last := ⟨skipped.1, skipped.2, back⟩
        rw [push_ordinary _ plain]
        cases kept : keep earlier with
        | nil => simp [plain, eq_comm]
        | cons other others => simp

example : clean (ascii "a/./b/../../../c//d/") = ascii "../c/d" := by decide

example : clean (ascii "/../a") = ascii "/a" := by decide

end GoPath

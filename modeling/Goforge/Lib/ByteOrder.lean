import Goforge.Lib.GoString

set_option autoImplicit false

-- The order of Go's < on strings, and sorting by it.
namespace GoString

theorem before_irrefl (text : Bytes) : before text text = false := by
  induction text with
  | nil => rfl
  | cons b rest ih => simp [before, ih]

theorem before_trans {first : Bytes} (second third : Bytes) (left : before first second = true)
    (right : before second third = true) : before first third = true := by
  induction first generalizing second third with
  | nil =>
    cases second with
    | nil => cases left
    | cons b second =>
      cases third with
      | nil => cases right
      | cons c third => rfl
  | cons a first ih =>
    cases second with
    | nil => cases left
    | cons b second =>
      cases third with
      | nil => cases right
      | cons c third =>
        simp only [before, Bool.or_eq_true, Bool.and_eq_true, decide_eq_true_eq] at left right ⊢
        rcases left with less | ⟨rfl, left⟩
        · rcases right with more | ⟨rfl, _⟩
          · exact .inl (UInt8.lt_trans less more)
          · exact .inl less
        · rcases right with more | ⟨rfl, right⟩
          · exact .inl more
          · exact .inr ⟨rfl, ih second third left right⟩

theorem before_total {first : Bytes} (second : Bytes) (different : first ≠ second)
    (notBefore : before first second = false) : before second first = true := by
  induction first generalizing second with
  | nil =>
    cases second with
    | nil => exact absurd rfl different
    | cons b second => cases notBefore
  | cons a first ih =>
    cases second with
    | nil => rfl
    | cons b second =>
      simp only [before, Bool.or_eq_false_iff, Bool.and_eq_false_iff, decide_eq_false_iff_not] at notBefore
      simp only [before, Bool.or_eq_true, Bool.and_eq_true, decide_eq_true_eq]
      by_cases same : a = b
      · subst same
        rcases notBefore.2 with impossible | later
        · exact absurd rfl impossible
        · exact .inr ⟨rfl, ih second (fun equal => different (by rw [equal])) later⟩
      · refine .inl ?_
        rcases UInt8.lt_or_lt_of_ne same with less | more
        · exact absurd less notBefore.1
        · exact more

section

variable {A : Type} (key : A → Bytes)

def insertBy (item : A) : List A → List A
  | [] => [item]
  | first :: rest => if before (key first) (key item) then first :: insertBy item rest else item :: first :: rest

def sortBy (items : List A) : List A := items.foldr (insertBy key) []

def Ascending (items : List A) : Prop := items.Pairwise (fun left right => before (key left) (key right) = true)

theorem insert_by_perm (item : A) (items : List A) : (insertBy key item items).Perm (item :: items) := by
  induction items with
  | nil => exact List.Perm.refl _
  | cons first rest ih =>
    rw [insertBy]
    split
    · exact (ih.cons first).trans (List.Perm.swap item first rest)
    · exact List.Perm.refl _

theorem sort_by_perm (items : List A) : (sortBy key items).Perm items := by
  induction items with
  | nil => exact List.Perm.refl _
  | cons item items ih => exact (insert_by_perm key item _).trans (ih.cons item)

theorem insert_by_ascending {item : A} {items : List A} (fresh : ∀ other ∈ items, key other ≠ key item)
    (ascending : Ascending key items) : Ascending key (insertBy key item items) := by
  induction items with
  | nil => exact List.pairwise_singleton _ _
  | cons first rest ih =>
    obtain ⟨here, later⟩ := List.forall_mem_cons.mp fresh
    obtain ⟨least, sorted⟩ := List.pairwise_cons.mp ascending
    rw [insertBy]
    split
    · rename_i smaller
      refine List.pairwise_cons.mpr ⟨?_, ih later sorted⟩
      intro other member
      rcases List.mem_cons.mp ((insert_by_perm key item rest).mem_iff.mp member) with rfl | inside
      · exact smaller
      · exact least other inside
    · rename_i larger
      have first_ : before (key item) (key first) = true :=
        before_total _ here (Bool.eq_false_iff.mpr larger)
      refine List.pairwise_cons.mpr ⟨?_, ascending⟩
      intro other member
      rcases List.mem_cons.mp member with rfl | inside
      · exact first_
      · exact before_trans _ _ first_ (least other inside)

theorem sort_by_ascending (items : List A) (distinct : (items.map key).Nodup) : Ascending key (sortBy key items) := by
  induction items with
  | nil => exact List.Pairwise.nil
  | cons item items ih =>
    rw [List.map_cons, List.nodup_cons] at distinct
    refine insert_by_ascending _ ?_ (ih distinct.2)
    intro other member same
    have inside := (sort_by_perm key items).mem_iff.mp member
    exact distinct.1 (same ▸ List.mem_map_of_mem inside)

theorem insert_by_least {item : A} {items : List A}
    (least : ∀ other ∈ items, before (key item) (key other) = true) : insertBy key item items = item :: items := by
  cases items with
  | nil => rfl
  | cons first rest =>
    rw [insertBy, if_neg]
    intro smaller
    have cycle := before_trans _ _ (least first List.mem_cons_self) smaller
    rw [before_irrefl] at cycle
    cases cycle

theorem sort_by_sorted (items : List A) (ascending : Ascending key items) : sortBy key items = items := by
  induction items with
  | nil => rfl
  | cons item items ih =>
    obtain ⟨least, sorted⟩ := List.pairwise_cons.mp ascending
    show insertBy key item (sortBy key items) = item :: items
    rw [ih sorted]
    exact insert_by_least key least

end

end GoString

import Mathlib.Data.List.Sort

set_option autoImplicit false

namespace Goforge.Resource

structure Scope where
  actorID : Int
  allRecords : Bool
deriving DecidableEq, Repr

inductive Access where
  | policy (scope : Scope)
  | owner (userID : Int)

inductive ListErr (ε : Type) where
  | invalidScope
  | query (err : ε)
  | association (err : ε)
  | unavailable
  | nonDescending
deriving DecidableEq, Repr

def maximumPageSize : Nat := 100

structure Model (ρ : Type) where
  id : ρ → Int
  userID : ρ → Int

section

variable {ρ ε : Type}

-- id BIGSERIAL PRIMARY KEY
structure Table (model : Model ρ) where
  rows : List ρ
  distinct : (rows.map model.id).Nodup
  positive : ∀ row ∈ rows, 0 < model.id row

-- LoadX fills the association of each item, or fails.
structure Relationship (ε : Type) (model : Model ρ) where
  load : List ρ → Except ε (List ρ)
  loaded : ρ → Bool
  keeps : ∀ items filled, load items = .ok filled →
    filled.map (fun item => (model.id item, model.userID item)) =
    items.map (fun item => (model.id item, model.userID item))

structure Round (ε : Type) (model : Model ρ) where
  table : Table model
  failure : Option ε
  relationships : List (Relationship ε model)

variable {model : Model ρ}

def Access.predicate (model : Model ρ) : Access → Except (ListErr ε) (ρ → Bool)
  | .owner userID => .ok (fun row => decide (model.userID row = userID))
  | .policy scope =>
    if scope.actorID < 1 then .error .invalidScope
    else if scope.allRecords then .ok (fun _ => true)
    else .ok (fun row => decide (model.userID row = scope.actorID))

def loadEach : List (Relationship ε model) → List ρ → Except (ListErr ε) (List ρ)
  | [], items => .ok items
  | relationship :: rest, items =>
    match relationship.load items with
    | .error err => .error (.association err)
    | .ok items => if items.all relationship.loaded then loadEach rest items else .error .unavailable

def loadRelationships (relationships : List (Relationship ε model)) (items : List ρ) : Except (ListErr ε) (List ρ) :=
  if items.isEmpty then .ok items else loadEach relationships items

-- WHERE ... ORDER BY id DESC LIMIT 100; zero stands for no bound.
def batch (table : Table model) (within : ρ → Bool) (beforeID : Int) : List ρ :=
  ((table.rows.filter (fun row => within row && (decide (beforeID = 0) || decide (model.id row < beforeID)))).mergeSort
    (fun a b => decide (model.id b ≤ model.id a))).take maximumPageSize

-- The loop of List, with the number of batch queries.
def listFrom (rounds : Nat → Round ε model) (within : ρ → Bool) :
    Nat → Nat → Int → List ρ → Option (Except (ListErr ε) (List ρ) × Nat)
  | 0, _, _, _ => none
  | fuel + 1, asked, beforeID, items =>
    match (rounds asked).failure with
    | some err => some (.error (.query err), asked + 1)
    | none =>
      match loadRelationships (rounds asked).relationships (batch (rounds asked).table within beforeID) with
      | .error err => some (.error err, asked + 1)
      | .ok loaded =>
        if loaded.length < maximumPageSize then some (.ok (items ++ loaded), asked + 1)
        else
          let nextID := (loaded.getLast?.map model.id).getD 0
          if nextID < 1 ∨ beforeID ≠ 0 ∧ beforeID ≤ nextID then some (.error .nonDescending, asked + 1)
          else listFrom rounds within fuel (asked + 1) nextID (items ++ loaded)

def list (rounds : Nat → Round ε model) (access : Access) (fuel : Nat) : Option (Except (ListErr ε) (List ρ) × Nat) :=
  match access.predicate model with
  | .error err => some (.error err, 0)
  | .ok within => listFrom rounds within fuel 0 0 []

def Descending (model : Model ρ) (rows : List ρ) : Prop := (rows.map model.id).Pairwise (· > ·)

def Model.row (model : Model ρ) (item : ρ) : Int × Int := (model.id item, model.userID item)

theorem load_each_keeps {relationships : List (Relationship ε model)} (items : List ρ) {filled : List ρ}
    (loaded : loadEach relationships items = .ok filled) : filled.map model.row = items.map model.row := by
  induction relationships generalizing items with
  | nil =>
    cases loaded
    rfl
  | cons relationship rest ih =>
    rw [loadEach] at loaded
    split at loaded
    · cases loaded
    rename_i middle first
    split at loaded
    · exact (ih middle loaded).trans (relationship.keeps items middle first)
    · cases loaded

variable {items : List ρ}

theorem load_keeps {relationships : List (Relationship ε model)} {filled : List ρ}
    (loaded : loadRelationships relationships items = .ok filled) : filled.map model.row = items.map model.row := by
  unfold loadRelationships at loaded
  split at loaded
  · cases loaded
    rfl
  · exact load_each_keeps items loaded

theorem batch_sorted (table : Table model) (within : ρ → Bool) (beforeID : Int) :
    ∃ rest, Descending model (batch table within beforeID ++ rest) ∧
      (∀ row, row ∈ batch table within beforeID ++ rest ↔
        row ∈ table.rows ∧ within row = true ∧ (beforeID = 0 ∨ model.id row < beforeID)) ∧
      (batch table within beforeID).length ≤ maximumPageSize ∧
      (rest ≠ [] → (batch table within beforeID).length = maximumPageSize) := by
  generalize all_ : (table.rows.filter
    (fun row => within row && (decide (beforeID = 0) || decide (model.id row < beforeID)))).mergeSort
      (fun a b => decide (model.id b ≤ model.id a)) = all
  have shown : batch table within beforeID = all.take maximumPageSize := by rw [batch, all_]
  rw [shown]
  refine ⟨all.drop maximumPageSize, ?_, ?_, List.length_take_le _ _, ?_⟩
  · rw [List.take_append_drop, Descending, List.pairwise_map]
    have ordered : all.Pairwise (fun a b => decide (model.id b ≤ model.id a) = true) := by
      rw [← all_]
      refine List.pairwise_mergeSort (fun a b c first second => ?_) (fun a b => ?_) _
      · exact decide_eq_true (Int.le_trans (of_decide_eq_true second) (of_decide_eq_true first))
      · simpa using Int.le_total (model.id b) (model.id a)
    have distinct : (all.map model.id).Nodup := by
      rw [← all_]
      exact ((List.mergeSort_perm _ _).map _).nodup_iff.mpr (table.distinct.sublist (List.filter_sublist.map _))
    refine (ordered.and (List.pairwise_map.mp distinct)).imp (fun both => ?_)
    exact Int.lt_iff_le_and_ne.mpr ⟨of_decide_eq_true both.1, Ne.symm both.2⟩
  · intro row
    rw [List.take_append_drop, ← all_, List.mem_mergeSort]
    simp
  · intro more
    have longer := List.length_pos_of_ne_nil more
    rw [List.length_drop] at longer
    rw [List.length_take]
    omega

theorem descending_last {rows : List ρ} {last : ρ} (sorted : Descending model rows) (ends : rows.getLast? = some last) :
    ∀ row ∈ rows, model.id last ≤ model.id row := by
  obtain ⟨front, rfl⟩ := List.getLast?_eq_some_iff.mp ends
  rw [Descending, List.map_append, List.pairwise_append] at sorted
  intro row member
  rcases List.mem_append.mp member with inside | same
  · exact Int.le_of_lt (sorted.2.2 _ (List.mem_map_of_mem inside) _ List.mem_cons_self)
  · rw [List.mem_singleton.mp same]

variable (rounds : Nat → Round ε model) (within : ρ → Bool)

def Throughout (asked : Nat) (key : Int) : Prop :=
  ∀ k < asked, ∃ row ∈ (rounds k).table.rows, within row = true ∧ model.id row = key

def Read (asked : Nat) (item : ρ) : Prop :=
  ∃ k < asked, ∃ row ∈ (rounds k).table.rows, within row = true ∧ model.row row = model.row item

structure Progress (asked : Nat) (beforeID : Int) (items : List ρ) : Prop where
  start : beforeID = 0 → asked = 0 ∧ items = []
  descending : Descending model items
  above : ∀ item ∈ items, beforeID ≤ model.id item
  read : ∀ item ∈ items, Read rounds within asked item
  complete : ∀ key, beforeID ≠ 0 → beforeID ≤ key → Throughout rounds within asked key → key ∈ items.map model.id
  count : items.length = maximumPageSize * asked

variable {rounds within}

theorem progress_extends {asked : Nat} {beforeID : Int} {loaded : List ρ}
    (progress : Progress rounds within asked beforeID items)
    (filled : loadRelationships (rounds asked).relationships
      (batch (rounds asked).table within beforeID) = .ok loaded) :
    Descending model (items ++ loaded) ∧ (∀ item ∈ items ++ loaded, Read rounds within (asked + 1) item) ∧
      loaded.length ≤ maximumPageSize ∧
      ∀ key, Throughout rounds within (asked + 1) key → key ∈ (items ++ loaded).map model.id ∨
        loaded.length = maximumPageSize ∧ ∀ item ∈ loaded, key < model.id item := by
  obtain ⟨rest, sorted, selected, short, full⟩ := batch_sorted (rounds asked).table within beforeID
  generalize batch (rounds asked).table within beforeID = page at *
  have same := load_keeps filled
  have ids : loaded.map model.id = page.map model.id := by
    have firsts := congrArg (List.map Prod.fst) same
    rwa [List.map_map, List.map_map] at firsts
  have size : loaded.length = page.length := by simpa using congrArg List.length ids
  have found : ∀ item ∈ loaded, ∃ row ∈ page, model.row row = model.row item := fun item member =>
    List.mem_map.mp (same ▸ List.mem_map_of_mem member)
  rw [Descending, List.map_append, List.pairwise_append] at sorted
  refine ⟨?_, ?_, size ▸ short, ?_⟩
  · rw [Descending, List.map_append, List.pairwise_append, ids]
    refine ⟨progress.descending, sorted.1, ?_⟩
    intro first inItems second inPage
    obtain ⟨item, member, rfl⟩ := List.mem_map.mp inItems
    obtain ⟨row, paged, rfl⟩ := List.mem_map.mp inPage
    rcases ((selected row).mp (List.mem_append_left _ paged)).2.2 with zero | below
    · rw [(progress.start zero).2] at member
      cases member
    · exact Int.lt_of_lt_of_le below (progress.above item member)
  · intro item member
    rcases List.mem_append.mp member with before | now
    · obtain ⟨k, earlier, row, rest⟩ := progress.read item before
      exact ⟨k, Nat.lt_succ_of_lt earlier, row, rest⟩
    · obtain ⟨row, paged, same⟩ := found item now
      obtain ⟨present, inScope, _⟩ := (selected row).mp (List.mem_append_left _ paged)
      exact ⟨asked, Nat.lt_succ_self _, row, present, inScope, same⟩
  · intro key throughout
    obtain ⟨row, present, inScope, rfl⟩ := throughout asked (Nat.lt_succ_self _)
    rw [List.map_append, List.mem_append, ids]
    by_cases returned : beforeID ≠ 0 ∧ beforeID ≤ model.id row
    · exact .inl
        (.inl (progress.complete _ returned.1 returned.2 (fun k less => throughout k (Nat.lt_succ_of_lt less))))
    · have chosen : row ∈ page ++ rest := (selected row).mpr ⟨present, inScope, by omega⟩
      rcases List.mem_append.mp chosen with paged | left
      · exact .inl (.inr (List.mem_map_of_mem paged))
      · refine .inr ⟨size.trans (full (List.ne_nil_of_mem left)), fun item member => ?_⟩
        have further := sorted.2.2 (model.id item) (ids ▸ List.mem_map_of_mem member) _ (List.mem_map_of_mem left)
        exact further

variable (rounds within)

structure Listed (items : List ρ) (asked : Nat) : Prop where
  descending : Descending model items
  read : ∀ item ∈ items, Read rounds within asked item
  complete : ∀ key, Throughout rounds within asked key → key ∈ items.map model.id
  few : asked ≤ items.length / maximumPageSize + 1

variable {rounds within}

theorem list_from_step {asked : Nat} {beforeID : Int} (progress : Progress rounds within asked beforeID items) :
    (∃ result, (∀ fuel, listFrom rounds within (fuel + 1) asked beforeID items = some (result, asked + 1)) ∧
      ∀ all, result = .ok all → Listed rounds within all (asked + 1)) ∨
    ∃ nextID more, (∀ fuel, listFrom rounds within (fuel + 1) asked beforeID items =
        listFrom rounds within fuel (asked + 1) nextID more) ∧
      Progress rounds within (asked + 1) nextID more ∧ 0 < nextID ∧ (beforeID ≠ 0 → nextID < beforeID) := by
  cases failure : (rounds asked).failure with
  | some err => exact .inl ⟨.error (.query err), fun fuel => by rw [listFrom, failure], by rintro _ ⟨⟩⟩
  | none =>
    cases filled : loadRelationships (rounds asked).relationships (batch (rounds asked).table within beforeID) with
    | error err => exact .inl ⟨.error err, fun fuel => by simp only [listFrom, failure, filled], by rintro _ ⟨⟩⟩
    | ok loaded =>
      obtain ⟨sorted, read, short, complete⟩ := progress_extends progress filled
      have count := progress.count
      by_cases partial_ : loaded.length < maximumPageSize
      · refine .inl ⟨.ok (items ++ loaded), fun fuel => ?_, ?_⟩
        · simp only [listFrom, failure, filled, if_pos partial_]
        · rintro _ ⟨⟩
          refine ⟨sorted, read, fun key throughout => ?_, ?_⟩
          · rcases complete key throughout with returned | ⟨full, _⟩
            · exact returned
            · omega
          · rw [List.length_append, count, Nat.mul_add_div (by decide)]
            exact Nat.succ_le_succ (Nat.le_add_right _ _)
      · have full : loaded.length = maximumPageSize := by omega
        have filledUp : loaded ≠ [] := fun none => by simp [none, maximumPageSize] at full
        obtain ⟨last, ends⟩ : ∃ last, loaded.getLast? = some last := ⟨_, List.getLast?_eq_some_getLast filledUp⟩
        have lowest := descending_last sorted (by rw [List.getLast?_append, ends]; rfl)
        by_cases bad : model.id last < 1 ∨ beforeID ≠ 0 ∧ beforeID ≤ model.id last
        · refine .inl ⟨.error .nonDescending, fun fuel => ?_, by rintro _ ⟨⟩⟩
          simp only [listFrom, failure, filled, if_neg partial_, ends, Option.map_some, Option.getD_some, if_pos bad]
        · refine .inr ⟨model.id last, items ++ loaded, fun fuel => ?_, ?_, by omega, by omega⟩
          · simp only [listFrom, failure, filled, if_neg partial_, ends, Option.map_some, Option.getD_some, if_neg bad]
          · refine ⟨by omega, sorted, lowest, read, fun key _ low throughout => ?_, ?_⟩
            · rcases complete key throughout with returned | ⟨_, below⟩
              · exact returned
              · exact absurd (below last (List.mem_of_getLast? ends)) (Int.not_lt.mpr low)
            · rw [List.length_append, count, full, Nat.mul_succ]

theorem list_from_ends (asked : Nat) (beforeID : Int) (items : List ρ) {fuel : Nat}
    (progress : Progress rounds within asked beforeID items) (bounded : 0 < beforeID) (enough : beforeID.toNat ≤ fuel) :
    ∃ result last, (∀ more, listFrom rounds within (fuel + more) asked beforeID items = some (result, last)) ∧
      ∀ all, result = .ok all → Listed rounds within all last := by
  induction fuel generalizing asked beforeID items with
  | zero => omega
  | succ fuel ih =>
    rcases list_from_step progress with ⟨result, ends, listed⟩ | ⟨nextID, rest, goes, later, low, sinks⟩
    · exact ⟨result, asked + 1, fun more => by rw [Nat.add_right_comm, ends], listed⟩
    · obtain ⟨result, last, ends, listed⟩ := ih (asked + 1) nextID rest later low (by have := sinks (by omega); omega)
      exact ⟨result, last, fun more => by rw [Nat.add_right_comm, goes, ends], listed⟩

-- The rows that the access is for.
def Access.InScope (model : Model ρ) : Access → ρ → Prop
  | .owner userID, row => model.userID row = userID
  | .policy scope, row => scope.allRecords = true ∨ model.userID row = scope.actorID

theorem predicate_exact {access : Access} {admits : ρ → Bool} (allowed : access.predicate (ε := ε) model = .ok admits)
    (row : ρ) : admits row = true ↔ access.InScope model row := by
  cases access with
  | owner userID =>
    cases allowed
    exact decide_eq_true_iff
  | policy scope =>
    rw [Access.predicate] at allowed
    split at allowed
    · cases allowed
    split at allowed
    case isTrue all =>
      cases allowed
      exact iff_of_true rfl (.inl all)
    case isFalse own =>
      cases allowed
      exact decide_eq_true_iff.trans (or_iff_right own).symm

theorem in_scope_owner {access : Access} {a b : ρ} (same : model.userID a = model.userID b)
    (inside : access.InScope model a) : access.InScope model b := by
  cases access with
  | owner userID => exact same.symm.trans inside
  | policy scope => exact inside.imp_right same.symm.trans

theorem listed_in_scope {access : Access} {admits : ρ → Bool} (allowed : access.predicate (ε := ε) model = .ok admits)
    (items : List ρ) (asked : Nat) (listed : Listed rounds admits items asked) :
    ∀ item ∈ items, access.InScope model item := by
  intro item member
  obtain ⟨_, _, row, _, inside, same⟩ := listed.read item member
  exact in_scope_owner (congrArg Prod.snd same) ((predicate_exact allowed row).mp inside)

-- List ends whatever the rounds meet, and what it returns has every row of the
-- scope that was there throughout, each id once and in order.
theorem keyset_listing (rounds : Nat → Round ε model) (access : Access) :
    ∃ enough result asked, (∀ more, list rounds access (enough + more) = some (result, asked)) ∧
      ∀ items, result = .ok items → (items.map model.id).Nodup ∧ (∀ item ∈ items, access.InScope model item) ∧
        ∃ admits, (∀ row, admits row = true ↔ access.InScope model row) ∧ Listed rounds admits items asked := by
  cases allowed : access.predicate (ε := ε) model with
  | error err => exact ⟨0, .error err, 0, fun more => by rw [list, allowed], by rintro _ ⟨⟩⟩
  | ok admits =>
    have start : Progress rounds admits 0 0 [] :=
      ⟨fun _ => ⟨rfl, rfl⟩, .nil, by rintro _ ⟨⟩, by rintro _ ⟨⟩, fun _ zero => absurd rfl zero, rfl⟩
    have shown : ∀ items asked, Listed rounds admits items asked → (items.map model.id).Nodup ∧
        (∀ item ∈ items, access.InScope model item) ∧
          ∃ admits, (∀ row, admits row = true ↔ access.InScope model row) ∧ Listed rounds admits items asked :=
      fun items asked listed => ⟨listed.descending.imp (fun less => Int.ne_of_gt less),
        listed_in_scope allowed items asked listed, admits, predicate_exact allowed, listed⟩
    rcases list_from_step start with ⟨result, ends, listed⟩ | ⟨nextID, rest, goes, later, low, _⟩
    · refine ⟨1, result, 1, fun more => ?_, fun items ok => shown items 1 (listed items ok)⟩
      rw [list, allowed, Nat.add_comm]
      exact ends more
    · obtain ⟨result, last, ends, listed⟩ := list_from_ends 1 nextID rest later low (Nat.le_refl _)
      refine ⟨nextID.toNat + 1, result, last, fun more => ?_, fun items ok => shown items last (listed items ok)⟩
      rw [list, allowed, Nat.add_right_comm]
      exact (goes _).trans (ends more)

end

-- An id, its owner and whether the association is filled.
def sampleModel : Model (Int × Int × Bool) := ⟨fun row => row.1, fun row => row.2.1⟩

def sampleRelationship : Relationship Unit sampleModel where
  load := fun items => .ok (items.map (fun row => (row.1, row.2.1, true)))
  loaded := fun row => row.2.2
  keeps := by
    intro items filled loaded
    cases loaded
    rw [List.map_map]
    rfl

def sampleRounds (asked : Nat) : Round Unit sampleModel :=
  ⟨⟨[(3 + asked, 7, false), (2, 8, false), (1, 7, false)], by simp [sampleModel]; omega, by simp [sampleModel]; omega⟩,
    none, [sampleRelationship]⟩

theorem keyset_listing_owned : list sampleRounds (.policy ⟨7, false⟩) 1 = some (.ok [(3, 7, true), (1, 7, true)], 1) ∧
    ∃ admits, (∀ row, admits row = true ↔ (Access.policy ⟨7, false⟩).InScope sampleModel row) ∧
      Listed sampleRounds admits [(3, 7, true), (1, 7, true)] 1 := by
  have run :
      ∀ fuel, list sampleRounds (.policy ⟨7, false⟩) (fuel + 1) = some (.ok [(3, 7, true), (1, 7, true)], 1) := by
    have page : batch (sampleRounds 0).table (fun row => decide (sampleModel.userID row = 7)) 0 =
        [(3, 7, false), (1, 7, false)] := by
      rw [batch, List.mergeSort_of_pairwise (by decide)]
      rfl
    intro fuel
    rw [list, show (Access.policy ⟨7, false⟩).predicate sampleModel =
      Except.ok (fun row => decide (sampleModel.userID row = 7)) from rfl]
    dsimp only
    rw [listFrom, page]
    rfl
  obtain ⟨enough, result, asked, ends, listed⟩ := keyset_listing sampleRounds (.policy ⟨7, false⟩)
  have here := ends 1
  rw [run] at here
  cases here
  exact ⟨run 0, (listed _ rfl).2.2⟩

end Goforge.Resource

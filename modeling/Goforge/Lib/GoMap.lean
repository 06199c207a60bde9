import Mathlib.Data.List.AList

set_option autoImplicit false

namespace GoMap

abbrev Map (κ α : Type) := AList (fun _ : κ => α)

section

variable {κ α : Type}

def size (map : Map κ α) : Nat := map.entries.length

def keep (map : Map κ α) (wanted : α → Bool) : Map κ α :=
  ⟨map.entries.filter (fun entry => wanted entry.2), map.nodupKeys.sublist List.filter_sublist⟩

theorem size_keep (map : Map κ α) (wanted : α → Bool) : size (keep map wanted) ≤ size map := List.length_filter_le _ _

variable [DecidableEq κ]

theorem lookup_mem (map : Map κ α) (key : κ) (value : α) :
    map.lookup key = some value ↔ Sigma.mk key value ∈ map.entries := AList.mem_lookup_iff

theorem lookup_keep {map : Map κ α} {wanted : α → Bool} {key : κ} :
    (keep map wanted).lookup key = (map.lookup key).filter wanted := by
  apply Option.ext
  intro value
  rw [lookup_mem, Option.filter_eq_some_iff, lookup_mem]
  exact List.mem_filter

theorem size_insert_new {map : Map κ α} {key : κ} (value : α) (absent : map.lookup key = none) :
    size (map.insert key value) = size map + 1 := by
  unfold size
  rw [AList.entries_insert_of_notMem (AList.lookup_eq_none.mp absent), List.length_cons]

theorem size_erase (map : Map κ α) (key : κ) : size (map.erase key) ≤ size map :=
  (List.kerase_sublist key map.entries).length_le

theorem size_insert_old {map : Map κ α} {key : κ} {old : α} (value : α) (present : map.lookup key = some old) :
    size (map.insert key value) = size map := by
  have member : key ∈ map.keys := AList.lookup_isSome.mp (by rw [present]; rfl)
  have keys : size (map.insert key value) = (map.insert key value).keys.length := (List.length_map _).symm
  have before : size map = map.keys.length := (List.length_map _).symm
  have positive := List.length_pos_of_mem member
  rw [keys, before, AList.keys_insert, List.length_cons, List.length_erase_of_mem member]
  omega

end

end GoMap

import Goforge.Schedule.CronNormalize
import Mathlib.Data.List.Forall2

set_option autoImplicit false

namespace Goforge.Schedule

open GoString Strconv

variable {field : CronField} {item : Item} {n fuel : Nat} {text : Bytes} {parts : List Bytes} {items : List Item}

theorem stride_positive (formed : item.WellFormed field) : 1 ≤ item.stride := by
  rw [Item.stride]
  cases step : item.step with
  | none => exact Nat.le_refl 1
  | some n => exact (formed.step n step).1

theorem read_highest (bounded : n ≤ field.maximum) : field.read n ≤ field.highest := by
  rw [CronField.read, CronField.highest]
  by_cases week : field = .dayOfWeek
  · subst week
    rw [CronField.maximum] at bounded
    rw [if_pos rfl]
    split
    · exact Nat.zero_le 6
    · rename_i other
      have : n ≠ 7 := fun seven => other ⟨rfl, seven⟩
      omega
  · rw [if_neg week, if_neg (fun both => week both.1)]
    exact bounded

theorem minimum_read (bounded : field.minimum ≤ n) : field.minimum ≤ field.read n := by
  rw [CronField.read]
  split
  · rename_i sunday
    rw [sunday.1]
    exact Nat.le_refl 0
  · exact bounded

theorem denotes_bounds (formed : item.WellFormed field) (denotes : item.denotes field n) :
    field.minimum ≤ n ∧ n ≤ field.highest := by
  obtain ⟨count, last, rfl⟩ := denotes
  have first : field.minimum ≤ item.first field := by
    obtain ⟨base, step⟩ := item
    cases base with
    | star => exact Nat.le_refl _
    | value m => exact (formed.written m (by simp [Base.written])).1
    | range low high => exact (formed.written low (by simp [Base.written])).1
  have highest := last_le_maximum item formed.written
  exact ⟨minimum_read (by omega), read_highest (by omega)⟩

structure Item.Settled (field : CronField) (item : Item) : Prop where
  formed : item.WellFormed field
  contained : ¬ item.expands field
  inBounds : item.inBounds field

theorem settled_value (small : n ≤ 6) : (Item.mk (.value n) none).Settled .dayOfWeek := by
  have written : ∀ m ∈ (Base.value n).written, 0 ≤ m ∧ m ≤ 6 := by
    intro m member
    cases List.mem_singleton.mp member
    exact ⟨Nat.zero_le n, small⟩
  refine ⟨⟨fun m member => ⟨(written m member).1, Nat.le_succ_of_le (written m member).2⟩, Nat.le_refl n,
    by rintro _ ⟨⟩⟩,
    ?_, written⟩
  rintro ⟨_, _, seven⟩
  have same : n = 7 := seven
  omega

theorem unexpanded_settled (formed : item.WellFormed field) (contained : ¬ item.expands field) :
    item.Settled field := by
  refine ⟨formed, contained, fun n member => ⟨(formed.written n member).1, ?_⟩⟩
  rw [CronField.highest]
  split
  · rename_i week
    subst week
    have ordered := formed.ordered
    have high := last_le_maximum item formed.written
    obtain ⟨base, step⟩ := item
    have below : base ≠ .star → (Item.mk base step).last .dayOfWeek ≠ 7 := fun star seven =>
      contained ⟨rfl, star, seven⟩
    rw [CronField.maximum] at high
    cases base with
    | star => cases member
    | value m =>
      cases List.mem_singleton.mp member
      have apart := below (by rintro ⟨⟩)
      cases step with
      | none =>
        have last : (Item.mk (.value n) none).last .dayOfWeek = n := rfl
        omega
      | some step => exact absurd rfl apart
    | range low top =>
      have apart := below (by rintro ⟨⟩)
      have first : (Item.mk (.range low top) step).first .dayOfWeek = low := rfl
      have last : (Item.mk (.range low top) step).last .dayOfWeek = top := rfl
      rcases List.mem_cons.mp member with same | later
      · omega
      · have same := List.mem_singleton.mp later
        omega
  · exact (formed.written n member).2

theorem canonical_settled (formed : item.WellFormed field) : ∀ other ∈ item.canonical field, other.Settled field := by
  intro other member
  rw [Item.canonical] at member
  split at member
  · rename_i expands
    obtain ⟨rfl, _, last⟩ := expands
    have ordered := formed.ordered
    obtain ⟨n, listed, rfl⟩ := List.mem_map.mp member
    obtain ⟨count, fewer, rfl⟩ := List.mem_range'.mp listed
    refine settled_value (read_highest ?_)
    have covered : item.stride * count ≤ 7 - item.first .dayOfWeek :=
      Nat.le_trans (Nat.mul_le_mul_left _ (Nat.le_of_lt_succ fewer)) (Nat.mul_div_le _ _)
    rw [CronField.maximum]
    omega
  · rename_i contained
    cases List.mem_singleton.mp member
    exact unexpanded_settled formed contained

theorem canonical_same (settled : item.Settled field) : item.canonical field = [item] :=
  if_neg settled.contained

theorem canonical_nonempty (field : CronField) (item : Item) : item.canonical field ≠ [] := by
  rw [Item.canonical]
  split <;> simp

theorem value_denotes (field : CronField) (m n : Nat) :
    (Item.mk (.value m) none).denotes field n ↔ n = field.read m := by
  constructor
  · rintro ⟨count, bounded, rfl⟩
    change m + count * 1 ≤ m at bounded
    obtain rfl : count = 0 := by omega
    exact congrArg field.read (Nat.add_eq_left.mpr (Nat.zero_mul _))
  · rintro rfl
    exact ⟨0, by rw [Nat.zero_mul]; exact Nat.le_refl m, by rw [Nat.zero_mul]; rfl⟩

theorem canonical_denotes (formed : item.WellFormed field) (n : Nat) :
    Denotes field (item.canonical field) n ↔ item.denotes field n := by
  rw [Item.canonical, Denotes]
  split
  · rename_i expands
    obtain ⟨rfl, _, last⟩ := expands
    have ordered := formed.ordered
    have positive := stride_positive formed
    have readTwice : ∀ m, CronField.dayOfWeek.read (CronField.dayOfWeek.read m) = CronField.dayOfWeek.read m := by
      intro m
      simp only [CronField.read]
      split <;> simp_all
    rw [Item.denotes, last]
    constructor
    · rintro ⟨other, member, denotes⟩
      obtain ⟨m, listed, rfl⟩ := List.mem_map.mp member
      obtain ⟨count, fewer, rfl⟩ := List.mem_range'.mp listed
      refine ⟨count, ?_, ?_⟩
      · have covered : item.stride * count ≤ 7 - item.first .dayOfWeek :=
          Nat.le_trans (Nat.mul_le_mul_left _ (Nat.le_of_lt_succ fewer)) (Nat.mul_div_le _ _)
        rw [Nat.mul_comm]
        omega
      · rw [(value_denotes _ _ n).mp denotes, readTwice, Nat.mul_comm]
    · rintro ⟨count, bounded, rfl⟩
      refine ⟨_,
        List.mem_map.mpr ⟨item.first .dayOfWeek + item.stride * count, List.mem_range'.mpr ⟨count, ?_, rfl⟩, rfl⟩, ?_⟩
      · rw [Nat.lt_succ_iff, Nat.le_div_iff_mul_le positive]
        omega
      · rw [value_denotes, readTwice, Nat.mul_comm]
  · simp

theorem normalize_item_canonical (enough : 8 ≤ fuel) (reads : ItemText field text item)
    (fits : ¬ item.overflows field) :
    normalizeItem fuel field text = some (.ok ((item.canonical field).map Item.text)) := by
  obtain ⟨expanded, contained⟩ := normalize_item_reads fuel reads
  by_cases expands : item.expands field
  · have formed := item_well_formed reads
    have ordered := formed.ordered
    have last : item.last field = 7 := expands.2.2
    have within : item.first field = 7 ∨ item.first field + item.stride ≤ maxInt := by
      by_cases sunday : item.first field = 7
      · exact .inl sunday
      · exact .inr (Nat.not_lt.mp (fun large => fits ⟨expands, sunday, large⟩))
    rw [expanded expands, weekdays_counts (item.first field) (stride_positive formed) (by omega)
      within (by omega), Item.canonical, if_pos expands]
    simp only [Option.map_some, List.map_map]
    congr 3
    funext n
    rw [expands.1]
    exact itoa_natural _
  · rw [contained expands, Item.canonical, if_neg expands]
    rfl

theorem normalize_item_ends (enough : 16 ≤ fuel) (reads : ItemText field text item) :
    ∃ out, normalizeItem fuel field text = some (.ok out) := by
  by_cases overflows : item.overflows field
  · obtain ⟨expands, sunday, large⟩ := overflows
    have formed := item_well_formed reads
    have ordered := formed.ordered
    have last : item.last field = 7 := expands.2.2
    have fits : item.stride ≤ maxInt := by
      rw [Item.stride]
      cases step : item.step with
      | none => decide
      | some n => exact (formed.step n step).2
    unfold maxInt at fits large
    obtain ⟨values, ends⟩ := weekdays_ends 6 fuel (item.first field) item.stride (by omega) (by omega) (by omega)
      (by omega) (by omega) (by omega)
    exact ⟨_, by rw [(normalize_item_reads fuel reads).1 expands, ends]; rfl⟩
  · exact ⟨_, normalize_item_canonical (by omega) reads overflows⟩

theorem normalize_items_canonical (enough : 8 ≤ fuel) (reads : List.Forall₂ (ItemText field) parts items)
    (fits : ∀ item ∈ items, ¬ item.overflows field) :
    normalizeItems fuel field parts = some (.ok ((items.flatMap (Item.canonical field)).map Item.text)) := by
  induction reads with
  | nil => rfl
  | @cons part item parts items first rest ih =>
    rw [normalizeItems, normalize_item_canonical enough first (fits item List.mem_cons_self),
      ih (fun other member => fits other (List.mem_cons_of_mem item member)), List.flatMap_cons, List.map_append]
    rfl

theorem normalize_items_rejects (enough : 16 ≤ fuel) (plus : ∀ part ∈ parts, byte '+' ∉ part)
    (outside : ¬ ∃ items, List.Forall₂ (ItemText field) parts items) :
    ∃ err, normalizeItems fuel field parts = some (.error err) := by
  induction parts with
  | nil => exact absurd ⟨[], .nil⟩ outside
  | cons part rest ih =>
    rw [normalizeItems]
    rcases normalize_item_inv fuel field (plus part List.mem_cons_self) with ⟨err, rejected⟩ | ⟨item, reads⟩
    · rw [rejected]
      exact ⟨err, rfl⟩
    · obtain ⟨out, accepted⟩ := normalize_item_ends enough reads
      have later : ¬ ∃ items, List.Forall₂ (ItemText field) rest items :=
        fun ⟨items, others⟩ => outside ⟨item :: items, .cons reads others⟩
      obtain ⟨err, rejected⟩ := ih (fun other member => plus other (List.mem_cons_of_mem part member)) later
      rw [accepted, rejected]
      exact ⟨err, rfl⟩

def plainCron (b : UInt8) : Bool := isDigit b || decide (b = byte '*') || decide (b = byte '/') || decide (b = byte '-')

theorem plain_absent (plain : ∀ b ∈ text, plainCron b = true) (b : UInt8) (other : plainCron b = false) :
    b ∉ text := fun member => Bool.noConfusion (other.symm.trans (plain b member))

theorem decimal_plain (n : Nat) : ∀ b ∈ decimal n, plainCron b = true := by
  intro b member
  simp [plainCron, decimal_all_digits n b member]

theorem itoa_plain (n : Int) : ∀ b ∈ itoa n, plainCron b = true := by
  rw [itoa]
  split
  · intro b member
    rcases List.mem_cons.mp member with rfl | digit
    · decide
    · exact decimal_plain _ b digit
  · exact decimal_plain _

theorem item_text_plain (item : Item) : ∀ b ∈ item.text, plainCron b = true := by
  obtain ⟨base, step⟩ := item
  have plainBase : ∀ b ∈ base.text, plainCron b = true := by
    cases base with
    | star =>
      intro b member
      cases List.mem_singleton.mp member
      decide
    | value n => exact decimal_plain n
    | range low high =>
      intro b member
      rcases List.mem_append.mp member with inside | inside
      · exact decimal_plain low b inside
      · rcases List.mem_cons.mp inside with rfl | later
        · decide
        · exact decimal_plain high b later
  cases step with
  | none => exact plainBase
  | some step =>
    intro b member
    rcases List.mem_append.mp member with inside | inside
    · exact plainBase b inside
    · rcases List.mem_cons.mp inside with rfl | later
      · decide
      · exact decimal_plain step b later

theorem normalize_item_parts {out : List Bytes} (reads : ItemText field text item)
    (accepted : normalizeItem fuel field text = some (.ok out)) :
    out ≠ [] ∧ ∀ part ∈ out, ∀ b ∈ part, plainCron b = true := by
  obtain ⟨expanded, contained⟩ := normalize_item_reads fuel reads
  have formed := item_well_formed reads
  by_cases expands : item.expands field
  · rw [expanded expands] at accepted
    obtain ⟨values, counted, same⟩ := Option.map_eq_some_iff.mp accepted
    cases same
    refine ⟨?_, ?_⟩
    · have ordered := formed.ordered
      have last : item.last field = 7 := expands.2.2
      rw [Ne, List.map_eq_nil_iff]
      rintro rfl
      cases fuel with
      | zero => cases counted
      | succ fuel =>
        rw [weekdays, if_pos (by omega)] at counted
        split at counted
        · cases counted
        obtain ⟨_, _, empty⟩ := Option.map_eq_some_iff.mp counted
        cases empty
    · intro part member
      obtain ⟨n, _, rfl⟩ := List.mem_map.mp member
      exact itoa_plain n
  · rw [contained expands] at accepted
    cases accepted
    refine ⟨by simp, ?_⟩
    intro part member
    cases List.mem_singleton.mp member
    exact item_text_plain item

theorem overflow_negative {out : List Bytes} (reads : ItemText field text item) (overflows : item.overflows field)
    (accepted : normalizeItem fuel field text = some (.ok out)) : ∃ part ∈ out, part.head? = some (byte '-') := by
  obtain ⟨expands, sunday, large⟩ := overflows
  have formed := item_well_formed reads
  have ordered := formed.ordered
  have last : item.last field = 7 := expands.2.2
  have fits : item.stride ≤ maxInt := by
    rw [Item.stride]
    cases step : item.step with
    | none => decide
    | some n => exact (formed.step n step).2
  unfold maxInt at fits large
  have next :
      ((item.first field : Int) + item.stride).bmod (2 ^ 64) = (item.first field : Int) + item.stride - 2 ^ 64 := by
    rw [← Int.sub_bmod_right, Int.bmod_eq_of_le_mul_two (by omega) (by omega)]
    rfl
  rw [(normalize_item_reads fuel reads).1 expands] at accepted
  obtain ⟨values, counted, same⟩ := Option.map_eq_some_iff.mp accepted
  cases same
  rcases fuel with _ | _ | fuel
  · cases counted
  · rw [weekdays, if_pos (by omega), if_neg (by omega), weekdays] at counted
    cases counted
  · rw [weekdays, if_pos (by omega), if_neg (by omega), next, weekdays, if_pos (by omega), if_neg (by omega)] at counted
    obtain ⟨middle, second, rfl⟩ := Option.map_eq_some_iff.mp counted
    obtain ⟨rest, _, rfl⟩ := Option.map_eq_some_iff.mp second
    refine ⟨_, List.mem_cons_of_mem _ List.mem_cons_self, ?_⟩
    rw [itoa, if_pos (by omega)]
    rfl

theorem normalize_items_parts (outs : List Bytes) (reads : List.Forall₂ (ItemText field) parts items)
    (accepted : normalizeItems fuel field parts = some (.ok outs)) :
    (∀ out ∈ outs, ∀ b ∈ out, plainCron b = true) ∧ (parts ≠ [] → outs ≠ []) ∧
      ((∃ item ∈ items, item.overflows field) → ∃ out ∈ outs, out.head? = some (byte '-')) := by
  induction reads generalizing outs with
  | nil =>
    cases accepted
    exact ⟨by rintro _ ⟨⟩, id, by rintro ⟨_, ⟨⟩, _⟩⟩
  | @cons part item parts items first rest ih =>
    rw [normalizeItems] at accepted
    split at accepted
    · cases accepted
    · cases accepted
    · rename_i out result
      obtain ⟨later, others, same⟩ := Option.map_eq_some_iff.mp accepted
      cases later with
      | error err => cases same
      | ok later =>
        cases same
        obtain ⟨nonempty, plain⟩ := normalize_item_parts first result
        obtain ⟨others, _, negative⟩ := ih later others
        refine ⟨?_, fun _ => List.append_ne_nil_of_left_ne_nil nonempty later, ?_⟩
        · intro text member
          rcases List.mem_append.mp member with inside | inside
          · exact plain text inside
          · exact others text inside
        · rintro ⟨other, member, overflows⟩
          rcases List.mem_cons.mp member with rfl | further
          · obtain ⟨text, inside, dash⟩ := overflow_negative first overflows result
            exact ⟨text, List.mem_append_left _ inside, dash⟩
          · obtain ⟨text, inside, dash⟩ := negative ⟨other, further, overflows⟩
            exact ⟨text, List.mem_append_right _ inside, dash⟩

def Exact (fuel : Nat) (field : CronField) (text : Bytes) : Prop :=
  ∃ result, normalizeCronField fuel field text = some result ∧
    ((∃ out, result = .ok out) ↔ ∃ items, Reads field text items) ∧
    ∀ out, result = .ok out → ∃ outItems, Reads field out outItems ∧
      (∀ items, Reads field text items → ∀ n, Denotes field items n ↔ Denotes field outItems n) ∧
      (∀ item ∈ outItems, item.inBounds field) ∧
      (∀ n, Denotes field outItems n → field.minimum ≤ n ∧ n ≤ field.highest) ∧
      normalizeCronField fuel field out = some (.ok out)

def Overflows (field : CronField) (text : Bytes) : Prop :=
  ∃ items, Reads field text items ∧ ∃ item ∈ items, item.overflows field

theorem related_left {α β : Type} {relation : α → β → Prop} {left : List α} {right : List β}
    (related : List.Forall₂ relation left right) : ∀ a ∈ left, ∃ b ∈ right, relation a b := by
  induction related with
  | nil => rintro _ ⟨⟩
  | cons first _ ih =>
    intro a member
    rcases List.mem_cons.mp member with rfl | later
    · exact ⟨_, List.mem_cons_self, first⟩
    · obtain ⟨b, inside, holds⟩ := ih a later
      exact ⟨b, List.mem_cons_of_mem _ inside, holds⟩

theorem items_well_formed {field : CronField} {text : Bytes} {items : List Item} (reads : Reads field text items) :
    ∀ item ∈ items, item.WellFormed field := by
  intro item member
  obtain ⟨part, _, read⟩ := related_left reads.flip item member
  exact item_well_formed read

theorem settled_reads (settled : ∀ item ∈ items, item.Settled field) (some : items ≠ []) :
    Reads field (join [byte ','] (items.map Item.text)) items := by
  rw [Reads, split_join]
  · rw [List.forall₂_map_left_iff, List.forall₂_same]
    exact fun item member => text_reads (settled item member).formed
  · simpa using some
  · intro part member
    obtain ⟨item, inside, rfl⟩ := List.mem_map.mp member
    exact plain_absent (item_text_plain item) (byte ',') (by decide)

theorem normalize_field_canonical (fuel : Nat) {items : List Item} (enough : 8 ≤ fuel) (reads : Reads field text items)
    (fits : ∀ item ∈ items, ¬ item.overflows field) :
    normalizeCronField fuel field text =
      some (.ok (join [byte ','] ((items.flatMap (Item.canonical field)).map Item.text))) := by
  rw [normalizeCronField, normalize_items_canonical enough reads fits]
  rfl

theorem accepted_exact (enough : 8 ≤ fuel) (reads : Reads field text items)
    (fits : ∀ item ∈ items, ¬ item.overflows field) : Exact fuel field text := by
  have formed := items_well_formed reads
  have settled : ∀ item ∈ items.flatMap (Item.canonical field), item.Settled field := by
    intro other member
    obtain ⟨item, inside, listed⟩ := List.mem_flatMap.mp member
    exact canonical_settled (formed item inside) other listed
  have nonempty : items.flatMap (Item.canonical field) ≠ [] := by
    have some : items ≠ [] := by
      rintro rfl
      exact split_nonempty (byte ',') text (List.forall₂_nil_right_iff.mp reads)
    obtain ⟨item, rest, rfl⟩ := List.exists_cons_of_ne_nil some
    rw [List.flatMap_cons]
    exact List.append_ne_nil_of_left_ne_nil (canonical_nonempty field item) _
  refine ⟨_, normalize_field_canonical fuel enough reads fits, iff_of_true ⟨_, rfl⟩ ⟨items, reads⟩, ?_⟩
  rintro out ⟨⟩
  refine ⟨_, settled_reads settled nonempty, ?_, fun item member => (settled item member).inBounds, ?_, ?_⟩
  · intro others again n
    rw [reads_unique items again reads]
    constructor
    · rintro ⟨item, member, denotes⟩
      obtain ⟨other, listed, same⟩ := (canonical_denotes (formed item member) n).mpr denotes
      exact ⟨other, List.mem_flatMap.mpr ⟨item, member, listed⟩, same⟩
    · rintro ⟨other, member, denotes⟩
      obtain ⟨item, inside, listed⟩ := List.mem_flatMap.mp member
      exact ⟨item, inside, (canonical_denotes (formed item inside) n).mp ⟨other, listed, denotes⟩⟩
  · rintro n ⟨item, member, denotes⟩
    exact denotes_bounds (settled item member).formed denotes
  · rw [normalize_field_canonical fuel enough (settled_reads settled nonempty)
      (fun item member overflows => (settled item member).contained overflows.1)]
    have same : (items.flatMap (Item.canonical field)).flatMap (Item.canonical field) =
        items.flatMap (Item.canonical field) := by
      have alone : ∀ others : List Item, (∀ item ∈ others, item.Settled field) →
          others.flatMap (Item.canonical field) = others := by
        intro others fixed
        induction others with
        | nil => rfl
        | cons item rest ih =>
          rw [List.flatMap_cons, canonical_same (fixed item List.mem_cons_self),
            ih (fun other member => fixed other (List.mem_cons_of_mem item member))]
          rfl
      exact alone _ settled
    rw [same]

theorem allowed_plus (allowed : field.allowed text = true) : ∀ part ∈ split (byte ',') text, byte '+' ∉ part := by
  intro part member inside
  have whole := split_inside (byte ',') text part member (byte '+') inside
  rw [CronField.allowed, Bool.and_eq_true, List.all_eq_true] at allowed
  have plus := allowed.2 _ whole
  split at plus <;> exact absurd plus (by decide)

theorem normalize_cron_field_exact_iff (field : CronField) (text : Bytes) (allowed : field.allowed text = true)
    (fuel : Nat) (enough : 16 ≤ fuel) : Exact fuel field text ↔ ¬ Overflows field text := by
  constructor
  · rintro ⟨result, normalized, accepts, canonical⟩ ⟨items, reads, overflowing⟩
    obtain ⟨out, rfl⟩ := accepts.mpr ⟨items, reads⟩
    rw [normalizeCronField] at normalized
    obtain ⟨listed, each, same⟩ := Option.map_eq_some_iff.mp normalized
    cases listed with
    | error err => cases same
    | ok outs =>
      cases same
      obtain ⟨plain, some, negative⟩ := normalize_items_parts outs reads each
      have commas := fun part member => plain_absent (plain part member) (byte ',') (by decide)
      obtain ⟨bad, member, dash⟩ := negative overflowing
      obtain ⟨outItems, again, _⟩ := canonical _ rfl
      rw [Reads, split_join (some (split_nonempty _ text)) commas] at again
      obtain ⟨item, _, reads'⟩ := related_left again bad member
      exact (item_text reads').2.1 dash
  · intro fits
    by_cases grammar : ∃ items, Reads field text items
    · obtain ⟨items, reads⟩ := grammar
      exact accepted_exact (by omega) reads (fun item member overflows => fits ⟨items, reads, item, member, overflows⟩)
    · obtain ⟨err, rejected⟩ := normalize_items_rejects enough (allowed_plus allowed) grammar
      refine ⟨.error err, by rw [normalizeCronField, rejected]; rfl, iff_of_false (by rintro ⟨_, ⟨⟩⟩) grammar, ?_⟩
      rintro _ ⟨⟩

theorem normalize_cron_field_exact_iff_sample : Exact 16 .dayOfWeek (ascii "FRI-7/2") := by
  refine (normalize_cron_field_exact_iff .dayOfWeek _ (by decide) 16 (by decide)).mpr ?_
  have atoms : Atom .dayOfWeek (ascii "FRI") 5 ∧ Atom .dayOfWeek (ascii "7") 7 :=
    ⟨.inr (by decide), .inl ⟨⟨by decide, by decide +kernel, by decide⟩, by decide, by decide⟩⟩
  have item : ItemText .dayOfWeek (ascii "FRI-7/2") ⟨.range 5 7, some 2⟩ :=
    .stepped (ascii "FRI-7") (ascii "2") _ 2 (.range _ _ 5 7 atoms.1 atoms.2 (by decide))
      ⟨by decide, by decide +kernel, by decide⟩ (by decide) (by decide)
  rintro ⟨items, reads, other, member, overflows⟩
  rw [reads_unique [_] reads (.cons item .nil)] at member
  cases List.mem_singleton.mp member
  exact absurd overflows.2.2 (by decide)

theorem weekday_step_overflows : CronField.dayOfWeek.allowed (ascii "1-7/9223372036854775807") = true ∧
    normalizeCronField 16 .dayOfWeek (ascii "1-7/9223372036854775807") =
      some (.ok (ascii "1,-9223372036854775808,-1")) ∧
    normalizeCronField 16 .dayOfWeek (ascii "1,-9223372036854775808,-1") = some (.error (.outside [] 0 7)) := by
  decide +kernel

end Goforge.Schedule

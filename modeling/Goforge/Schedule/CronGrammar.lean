import Goforge.Schedule.Cron

set_option autoImplicit false

namespace Goforge.Schedule

open GoString Strconv

inductive Base where
  | star
  | value (n : Nat)
  | range (low high : Nat)
deriving DecidableEq, Repr

structure Item where
  base : Base
  step : Option Nat
deriving DecidableEq, Repr

def Atom (field : CronField) (text : Bytes) (n : Nat) : Prop :=
  (Numeral text n ∧ field.minimum ≤ n ∧ n ≤ field.maximum) ∨ (toLower text, n) ∈ field.names

inductive BaseText (field : CronField) : Bytes → Base → Prop where
  | star : BaseText field [byte '*'] .star
  | value (text : Bytes) (n : Nat) (atom : Atom field text n) : BaseText field text (.value n)
  | range (left right : Bytes) (low high : Nat) (first : Atom field left low) (second : Atom field right high)
      (ordered : low ≤ high) : BaseText field (left ++ byte '-' :: right) (.range low high)

inductive ItemText (field : CronField) : Bytes → Item → Prop where
  | plain (text : Bytes) (base : Base) (reads : BaseText field text base) : ItemText field text ⟨base, none⟩
  | stepped (text digits : Bytes) (base : Base) (step : Nat) (reads : BaseText field text base)
      (numeral : Numeral digits step) (positive : 1 ≤ step) (fits : step ≤ maxInt) :
      ItemText field (text ++ byte '/' :: digits) ⟨base, some step⟩

def Reads (field : CronField) (text : Bytes) (items : List Item) : Prop :=
  List.Forall₂ (ItemText field) (split (byte ',') text) items

def Item.first (field : CronField) (item : Item) : Nat :=
  match item.base with
  | .star => field.minimum
  | .value n => n
  | .range low _ => low

def Item.last (field : CronField) (item : Item) : Nat :=
  match item.base with
  | .star => field.maximum
  | .value n => if item.step = none then n else field.maximum
  | .range _ high => high

def Item.stride (item : Item) : Nat := item.step.getD 1

def CronField.read (field : CronField) (n : Nat) : Nat := if field = .dayOfWeek ∧ n = 7 then 0 else n

def Item.denotes (field : CronField) (item : Item) (n : Nat) : Prop :=
  ∃ count, item.first field + count * item.stride ≤ item.last field ∧
    n = field.read (item.first field + count * item.stride)

def Denotes (field : CronField) (items : List Item) (n : Nat) : Prop := ∃ item ∈ items, item.denotes field n

def CronField.highest (field : CronField) : Nat := if field = .dayOfWeek then 6 else field.maximum

def Base.written : Base → List Nat
  | .star => []
  | .value n => [n]
  | .range low high => [low, high]

def Item.inBounds (field : CronField) (item : Item) : Prop :=
  ∀ n ∈ item.base.written, field.minimum ≤ n ∧ n ≤ field.highest

def Item.expands (field : CronField) (item : Item) : Prop :=
  field = .dayOfWeek ∧ item.base ≠ .star ∧ item.last field = 7

instance (field : CronField) (item : Item) : Decidable (item.expands field) :=
  inferInstanceAs (Decidable (_ ∧ _ ∧ _))

def Item.canonical (field : CronField) (item : Item) : List Item :=
  if item.expands field then
    (List.range' (item.first field) ((7 - item.first field) / item.stride + 1) item.stride).map
      (fun n => ⟨.value (field.read n), none⟩)
  else [item]

def Item.overflows (field : CronField) (item : Item) : Prop :=
  item.expands field ∧ item.first field ≠ 7 ∧ maxInt < item.first field + item.stride

def Base.text : Base → Bytes
  | .star => [byte '*']
  | .value n => decimal n
  | .range low high => decimal low ++ byte '-' :: decimal high

def Item.text (item : Item) : Bytes :=
  match item.step with
  | none => item.base.text
  | some step => item.base.text ++ byte '/' :: decimal step

structure Item.WellFormed (field : CronField) (item : Item) : Prop where
  written : ∀ n ∈ item.base.written, field.minimum ≤ n ∧ n ≤ field.maximum
  ordered : item.first field ≤ item.last field
  step : ∀ step, item.step = some step → 1 ≤ step ∧ step ≤ maxInt

def alphanumeric (b : UInt8) : Bool := within (byte 'A') (byte 'Z') b || within (byte 'a') (byte 'z') b || isDigit b

theorem alphanumeric_absent {text : Bytes} (all : ∀ b ∈ text, alphanumeric b = true) (b : UInt8)
    (other : alphanumeric b = false) : b ∉ text := fun member => Bool.noConfusion (other.symm.trans (all b member))

variable {field : CronField} {n : Nat} {item : Item}

theorem names_lower {name : Bytes} (member : (name, n) ∈ field.names) :
    name ≠ [] ∧ (∀ b ∈ name, within (byte 'a') (byte 'z') b = true) ∧ field.minimum ≤ n ∧ n ≤ field.maximum := by
  have all : ∀ field : CronField, ∀ entry ∈ field.names, entry.1 ≠ [] ∧
      (∀ b ∈ entry.1, within (byte 'a') (byte 'z') b = true) ∧ field.minimum ≤ entry.2 ∧ entry.2 ≤ field.maximum := by
    intro field
    cases field <;> decide +kernel
  exact all field (name, n) member

theorem lower_letter {b : UInt8} (letter : within (byte 'a') (byte 'z') (lowerByte b) = true) :
    alphanumeric b = true := by
  rw [lowerByte] at letter
  rw [alphanumeric]
  split at letter
  · rename_i upper
    simp [upper]
  · simp [letter]

theorem digit_alphanumeric {b : UInt8} (digit : isDigit b = true) : alphanumeric b = true := by
  rw [alphanumeric, digit, Bool.or_true]

theorem atom_text {text : Bytes} {n : Nat} (atom : Atom field text n) :
    text ≠ [] ∧ ∀ b ∈ text, alphanumeric b = true := by
  rcases atom with ⟨⟨nonempty, digits, _⟩, _⟩ | named
  · exact ⟨nonempty, fun b member => digit_alphanumeric (digits b member)⟩
  · obtain ⟨nonempty, letters, _⟩ := names_lower named
    refine ⟨fun empty => nonempty (by rw [empty]; rfl), fun b member => lower_letter (letters _ ?_)⟩
    exact List.mem_map_of_mem member

theorem atom_bounds {text : Bytes} {n : Nat} (atom : Atom field text n) : field.minimum ≤ n ∧ n ≤ field.maximum := by
  rcases atom with ⟨_, bounds⟩ | named
  · exact bounds
  · exact (names_lower named).2.2

theorem base_text {text : Bytes} {base : Base} (reads : BaseText field text base) :
    text ≠ [] ∧ text.head? ≠ some (byte '-') ∧ byte '/' ∉ text ∧ byte ',' ∉ text := by
  cases reads with
  | star => decide
  | value _ n atom =>
    obtain ⟨nonempty, all⟩ := atom_text atom
    have absent := alphanumeric_absent all
    exact ⟨nonempty, fun dash => absent (byte '-') (by decide) (List.mem_of_mem_head? dash),
      absent (byte '/') (by decide), absent (byte ',') (by decide)⟩
  | range left right low high first second _ =>
    obtain ⟨nonempty, all⟩ := atom_text first
    have before := alphanumeric_absent all
    have behind := alphanumeric_absent (atom_text second).2
    have absent : ∀ b, alphanumeric b = false → b ≠ byte '-' → b ∉ left ++ byte '-' :: right := by
      intro b other apart
      rw [List.mem_append, List.mem_cons]
      rintro (inside | same | inside)
      · exact before b other inside
      · exact apart same
      · exact behind b other inside
    refine ⟨by simp, ?_, absent (byte '/') (by decide) (by decide), absent (byte ',') (by decide) (by decide)⟩
    intro dash
    rw [List.head?_append_of_ne_nil left nonempty] at dash
    exact before (byte '-') (by decide) (List.mem_of_mem_head? dash)

theorem numeral_text {text : Bytes} (numeral : Numeral text n) : ∀ b ∈ text, alphanumeric b = true :=
  fun b member => digit_alphanumeric (numeral.2.1 b member)

theorem item_text {text : Bytes} (reads : ItemText field text item) :
    text ≠ [] ∧ text.head? ≠ some (byte '-') ∧ byte ',' ∉ text := by
  cases reads with
  | plain _ base reads =>
    obtain ⟨nonempty, dash, _, comma⟩ := base_text reads
    exact ⟨nonempty, dash, comma⟩
  | stepped left digits base step reads numeral _ _ =>
    obtain ⟨nonempty, dash, _, comma⟩ := base_text reads
    refine ⟨by simp, by rwa [List.head?_append_of_ne_nil left nonempty], ?_⟩
    rw [List.mem_append, List.mem_cons]
    rintro (inside | same | inside)
    · exact comma inside
    · exact absurd same (by decide)
    · exact alphanumeric_absent (numeral_text numeral) (byte ',') (by decide) inside

theorem minimum_le_maximum (field : CronField) : field.minimum ≤ field.maximum := by cases field <;> decide

theorem base_well_formed (text : Bytes) (base : Base) (reads : BaseText field text base) :
    (∀ n ∈ base.written, field.minimum ≤ n ∧ n ≤ field.maximum) ∧ ∀ step, (Item.mk base step).first field ≤
      (Item.mk base step).last field := by
  cases reads with
  | star => exact ⟨by rintro _ ⟨⟩, fun _ => minimum_le_maximum field⟩
  | value _ n atom =>
    have bounds := atom_bounds atom
    refine ⟨?_, ?_⟩
    · intro other member
      cases List.mem_singleton.mp member
      exact bounds
    · intro step
      rw [Item.first, Item.last]
      dsimp only
      split
      · exact Nat.le_refl n
      · exact bounds.2
  | range left right low high first second ordered =>
    refine ⟨?_, fun _ => ordered⟩
    intro n member
    rcases List.mem_cons.mp member with rfl | later
    · exact atom_bounds first
    · cases List.mem_singleton.mp later
      exact atom_bounds second

theorem last_le_maximum (item : Item) (written : ∀ n ∈ item.base.written, field.minimum ≤ n ∧ n ≤ field.maximum) :
    item.last field ≤ field.maximum := by
  obtain ⟨base, step⟩ := item
  cases base with
  | star => exact Nat.le_refl _
  | value n =>
    rw [Item.last]
    dsimp only
    split
    · exact (written n (by simp [Base.written])).2
    · exact Nat.le_refl _
  | range low high => exact (written high (by simp [Base.written])).2

theorem item_well_formed {text : Bytes} (reads : ItemText field text item) : item.WellFormed field := by
  cases reads with
  | plain _ base reads =>
    obtain ⟨written, ordered⟩ := base_well_formed text base reads
    exact ⟨written, ordered none, by rintro _ ⟨⟩⟩
  | stepped left digits base step reads _ positive fits =>
    obtain ⟨written, ordered⟩ := base_well_formed left base reads
    refine ⟨written, ordered (some step), ?_⟩
    rintro _ ⟨⟩
    exact ⟨positive, fits⟩

theorem decimal_atom (low : field.minimum ≤ n) (high : n ≤ field.maximum) :
    Atom field (decimal n) n := .inl ⟨numeral_decimal n, low, high⟩

theorem text_reads (formed : item.WellFormed field) : ItemText field item.text item := by
  obtain ⟨base, step⟩ := item
  have reads : BaseText field base.text base := by
    cases base with
    | star => exact .star
    | value n =>
      obtain ⟨low, high⟩ := formed.written n (by simp [Base.written])
      exact .value _ n (decimal_atom low high)
    | range low high =>
      obtain ⟨first, second⟩ := formed.written low (by simp [Base.written])
      obtain ⟨third, fourth⟩ := formed.written high (by simp [Base.written])
      exact .range _ _ low high (decimal_atom first second) (decimal_atom third fourth) formed.ordered
  cases step with
  | none => exact .plain _ base reads
  | some step =>
    obtain ⟨positive, fits⟩ := formed.step step rfl
    exact .stepped _ _ base step reads (numeral_decimal step) positive fits

end Goforge.Schedule

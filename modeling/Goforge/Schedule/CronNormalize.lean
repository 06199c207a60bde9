import Mathlib.Algebra.Group.Int.Defs
import Goforge.Schedule.CronGrammar

set_option autoImplicit false

namespace Goforge.Schedule

open GoString Strconv

theorem itoa_natural (n : Nat) : itoa n = decimal n := by
  rw [itoa, if_neg (by omega), Int.natAbs_natCast]

variable {field : CronField} {n : Nat} {text : Bytes}

theorem lookup_named {name : Bytes} (member : (name, n) ∈ field.names) : field.names.lookup name = some n := by
  have all : ∀ field : CronField, ∀ entry ∈ field.names, field.names.lookup entry.1 = some entry.2 := by
    intro field
    cases field <;> decide
  exact all field (name, n) member

theorem lookup_member {names : List (Bytes × Nat)} {name : Bytes} (found : names.lookup name = some n) :
    (name, n) ∈ names := by
  obtain ⟨before, behind, rfl, _⟩ := List.lookup_eq_some_iff.mp found
  simp

theorem numeral_unnamed (field : CronField) (numeral : Numeral text n) : field.names.lookup (toLower text) = none := by
  cases found : field.names.lookup (toLower text) with
  | none => rfl
  | some m =>
    obtain ⟨_, letters, _⟩ := names_lower (lookup_member found)
    obtain ⟨nonempty, digits, _⟩ := numeral
    obtain ⟨b, rest, rfl⟩ := List.exists_cons_of_ne_nil nonempty
    have digit := digits b List.mem_cons_self
    have letter := letters (lowerByte b) (List.mem_map_of_mem List.mem_cons_self)
    rw [isDigit, within_range] at digit
    rw [lowerByte, if_neg, within_range] at letter
    · exact absurd (Nat.le_trans letter.1 digit.2) (by decide)
    · rw [within_range]
      exact fun upper => absurd (Nat.le_trans upper.1 digit.2) (by decide)

theorem maximum_fits (field : CronField) : field.maximum ≤ maxInt := by cases field <;> decide

theorem cron_atom_reads {field : CronField} {text : Bytes} {n : Nat} (atom : Atom field text n) :
    cronAtom field text = .ok (n : Int) := by
  rw [cronAtom]
  rcases atom with ⟨numeral, low, high⟩ | named
  · rw [numeral_unnamed field numeral, atoi_numeral numeral, if_pos (Nat.le_trans high (maximum_fits field))]
    exact if_neg (by omega)
  · rw [lookup_named named]

theorem cron_atom_inv {value : Int} (minus : byte '-' ∉ text) (plus : byte '+' ∉ text)
    (accepted : cronAtom field text = .ok value) : ∃ n : Nat, value = n ∧ Atom field text n := by
  rw [cronAtom] at accepted
  split at accepted
  · rename_i n named
    cases accepted
    exact ⟨n, rfl, .inr (lookup_member named)⟩
  · split at accepted
    · cases accepted
    · rename_i read
      split at accepted
      · cases accepted
      rename_i bounds
      cases accepted
      obtain ⟨nonneg, numeral, _⟩ := atoi_digits minus plus read
      exact ⟨value.toNat, by omega, .inl ⟨numeral, by omega, by omega⟩⟩

theorem atom_unique {m : Nat} (atom : Atom field text n) (again : Atom field text m) : n = m := by
  have same := (cron_atom_reads atom).symm.trans (cron_atom_reads again)
  exact Int.ofNat.inj (Except.ok.inj same)

theorem range_split {field : CronField} {left right : Bytes} {low high : Nat} (first : Atom field left low)
    (second : Atom field right high) : split (byte '-') (left ++ byte '-' :: right) = [left, right] := by
  have before := alphanumeric_absent (atom_text first).2
  have behind := alphanumeric_absent (atom_text second).2
  rw [split_append left right (before (byte '-') (by decide)), split_absent right (behind (byte '-') (by decide))]

theorem base_unique {base other : Base} (reads : BaseText field text base) (again : BaseText field text other) :
    base = other := by
  have lone : ∀ text n, Atom field text n → byte '-' ∉ text ∧ byte '*' ∉ text := fun text n atom =>
    ⟨alphanumeric_absent (atom_text atom).2 _ (by decide),
      alphanumeric_absent (atom_text atom).2 _ (by decide)⟩
  cases reads with
  | star =>
    generalize starred : [byte '*'] = text at again
    cases again with
    | star => rfl
    | value _ n atom => exact absurd (starred ▸ List.mem_cons_self) (lone text n atom).2
    | range left right low high _ _ _ =>
      have dash : byte '-' ∈ [byte '*'] := starred ▸ by simp
      exact absurd dash (by decide)
  | value _ n atom =>
    cases again with
    | star => exact absurd List.mem_cons_self (lone _ n atom).2
    | value _ m atom' => rw [atom_unique atom atom']
    | range left right low high _ _ _ => exact absurd (by simp) (lone _ n atom).1
  | range left right low high first second _ =>
    generalize joined : left ++ byte '-' :: right = text at again
    cases again with
    | star =>
      have dash : byte '-' ∈ [byte '*'] := joined ▸ by simp
      exact absurd dash (by decide)
    | value _ m atom => exact absurd (joined ▸ by simp) (lone text m atom).1
    | range left' right' low' high' first' second' _ =>
      have halves := range_split first second
      rw [joined, range_split first' second'] at halves
      obtain ⟨rfl, tail⟩ := List.cons.inj halves
      obtain ⟨rfl, _⟩ := List.cons.inj tail
      rw [atom_unique first first', atom_unique second second']

theorem item_unique {item other : Item} (reads : ItemText field text item) (again : ItemText field text other) :
    item = other := by
  cases reads with
  | plain _ base reads =>
    cases again with
    | plain _ base' reads' => rw [base_unique reads reads']
    | stepped left digits _ _ _ _ _ _ => exact absurd (by simp) (base_text reads).2.2.1
  | stepped left digits base step reads numeral _ _ =>
    generalize joined : left ++ byte '/' :: digits = text at again
    cases again with
    | plain _ base' reads' => exact absurd (joined ▸ by simp) (base_text reads').2.2.1
    | stepped left' digits' base' step' reads' numeral' _ _ =>
      have apart := fun digits step (numeral : Numeral digits step) =>
        alphanumeric_absent (numeral_text numeral) (byte '/') (by decide)
      have halves := split_append left digits (base_text reads).2.2.1
      rw [joined, split_append left' digits' (base_text reads').2.2.1,
        split_absent digits (apart digits step numeral), split_absent digits' (apart digits' step' numeral')] at halves
      obtain ⟨rfl, tail⟩ := List.cons.inj halves
      obtain ⟨rfl, _⟩ := List.cons.inj tail
      rw [base_unique reads reads', ← numeral.2.2, ← numeral'.2.2]

theorem reads_unique {items : List Item} (others : List Item) (reads : Reads field text items)
    (again : Reads field text others) : items = others := by
  rw [Reads] at reads again
  generalize split (byte ',') text = parts at reads again
  induction reads generalizing others with
  | nil =>
    cases again
    rfl
  | cons head _ ih =>
    cases again with
    | cons head' tail' => rw [item_unique head head', ih _ tail']

theorem cron_range_reads {field : CronField} {text : Bytes} {base : Base} (step : Option Nat) (star : base ≠ .star)
    (reads : BaseText field text base) :
    text ≠ [byte '*'] ∧ cronRange field step.isSome text =
      .ok (((Item.mk base step).first field : Int), ((Item.mk base step).last field : Int)) := by
  cases reads with
  | star => exact absurd rfl star
  | value _ n atom =>
    have absent := alphanumeric_absent (atom_text atom).2
    refine ⟨fun same => absent (byte '*') (by decide) (same ▸ List.mem_cons_self), ?_⟩
    rw [cronRange, split_absent text (absent (byte '-') (by decide))]
    simp only [cron_atom_reads atom]
    cases step <;> rfl
  | range left right low high first second ordered =>
    refine ⟨?_, ?_⟩
    · intro same
      have dash : byte '-' ∈ [byte '*'] := same ▸ by simp
      exact absurd dash (by decide)
    · rw [cronRange, range_split first second]
      simp only [cron_atom_reads first, cron_atom_reads second]
      rw [if_neg (by omega)]
      rfl

theorem stepped_text (base : Base) (step : Option Nat) : (Item.mk base step).text =
    base.text ++ (if step.isSome = true then byte '/' :: itoa (Item.mk base step).stride else []) := by
  cases step with
  | none => exact (List.append_nil base.text).symm
  | some n =>
    rw [Option.isSome_some, if_pos rfl, itoa_natural]
    rfl

theorem range_text {base : Base} (step : Option Nat) (star : base ≠ .star) (reads : BaseText field text base) :
    itoa ((Item.mk base step).first field) ++ (if (split (byte '-') text).length = 2 then
      byte '-' :: itoa ((Item.mk base step).last field) else []) = base.text := by
  cases reads with
  | star => exact absurd rfl star
  | value _ n atom =>
    have absent := alphanumeric_absent (atom_text atom).2
    rw [split_absent text (absent (byte '-') (by decide)), if_neg (by simp), List.append_nil, itoa_natural]
    rfl
  | range left right low high first second _ =>
    rw [range_split first second, if_pos (by rfl), itoa_natural, itoa_natural]
    rfl

theorem normalize_base_reads (fuel : Nat) {text : Bytes} {base : Base} (step : Option Nat)
    (reads : BaseText field text base) :
    ((Item.mk base step).expands field → normalizeBase fuel field step.isSome (Item.mk base step).stride text =
      (weekdays fuel ((Item.mk base step).first field) 7 (Item.mk base step).stride).map
      (fun values => .ok (values.map itoa))) ∧
    (¬ (Item.mk base step).expands field →
      normalizeBase fuel field step.isSome (Item.mk base step).stride text =
      some (.ok [(Item.mk base step).text])) := by
  by_cases star : base = .star
  · subst star
    cases reads
    refine ⟨fun expands => absurd rfl expands.2.1, fun _ => ?_⟩
    rw [normalizeBase, if_pos rfl, stepped_text]
    rfl
  · obtain ⟨apart, range⟩ := cron_range_reads step star reads
    rw [normalizeBase, if_neg apart, range]
    dsimp only
    obtain ⟨written, ordered⟩ := base_well_formed text base reads
    have high := last_le_maximum ⟨base, step⟩ written
    have low := ordered step
    refine ⟨?_, ?_⟩
    · rintro ⟨rfl, _, last⟩
      rw [last, if_pos ⟨rfl, .inr rfl⟩]
      rfl
    · intro contained
      rw [if_neg, range_text step star reads, stepped_text]
      rintro ⟨sunday, reaches⟩
      have week : field = .dayOfWeek := of_decide_eq_true sunday
      refine contained ⟨week, star, ?_⟩
      subst week
      rw [CronField.maximum] at high
      omega

theorem normalize_item_reads (fuel : Nat) {item : Item} (reads : ItemText field text item) :
    (item.expands field → normalizeItem fuel field text =
      (weekdays fuel (item.first field) 7 item.stride).map (fun values => .ok (values.map itoa))) ∧
    (¬ item.expands field → normalizeItem fuel field text = some (.ok [item.text])) := by
  rw [normalizeItem, if_neg (item_text reads).1]
  cases reads with
  | plain _ base reads =>
    obtain ⟨nonempty, _, slash, _⟩ := base_text reads
    rw [split_absent text slash]
    have normalized := normalize_base_reads fuel none reads
    simpa [cronStep, nonempty, Item.stride] using normalized
  | stepped left digits base step reads numeral positive fits =>
    obtain ⟨nonempty, _, slash, _⟩ := base_text reads
    have rest := alphanumeric_absent (numeral_text numeral) (byte '/') (by decide)
    have normalized := normalize_base_reads fuel (some step) reads
    have parsed : cronStep [left, digits] = .ok (step : Int) := by
      rw [cronStep, atoi_numeral numeral, if_pos fits]
      exact if_neg (by omega)
    rw [split_append left digits slash, split_absent digits rest]
    simpa [parsed, nonempty, Item.stride] using normalized

theorem cron_range_inv {stepped : Bool} {ends : Int × Int} (plus : byte '+' ∉ text)
    (accepted : cronRange field stepped text = .ok ends) : ∃ base, BaseText field text base := by
  have joined := join_split (byte '-') text
  have parts := split_parts (byte '-') text
  rw [cronRange] at accepted
  split at accepted
  · rename_i value whole
    rw [whole] at joined parts
    have same : value = text := (List.append_nil value).symm.trans joined
    split at accepted
    · cases accepted
    rename_i start atom
    obtain ⟨n, _, reads⟩ := cron_atom_inv (parts value List.mem_cons_self) (same ▸ plus) atom
    exact ⟨.value n, same ▸ .value value n reads⟩
  · rename_i low high halves
    rw [halves] at joined parts
    have same : low ++ byte '-' :: high = text := by simpa [join] using joined
    have unsigned : byte '+' ∉ low ∧ byte '+' ∉ high := by
      rw [← same] at plus
      exact ⟨fun inside => plus (by simp [inside]), fun inside => plus (by simp [inside])⟩
    split at accepted
    · cases accepted
    rename_i start first
    split at accepted
    · cases accepted
    rename_i last second
    split at accepted
    · cases accepted
    rename_i ordered
    obtain ⟨m, rfl, left⟩ := cron_atom_inv (parts low (by simp)) unsigned.1 first
    obtain ⟨n, rfl, right⟩ := cron_atom_inv (parts high (by simp)) unsigned.2 second
    exact ⟨.range m n, same ▸ .range low high m n left right (by omega)⟩
  · cases accepted

theorem normalize_base_inv (fuel : Nat) (field : CronField) (stepped : Bool) (step : Int) (text : Bytes)
    (plus : byte '+' ∉ text) :
    (∃ err, normalizeBase fuel field stepped step text = some (.error err)) ∨ ∃ base, BaseText field text base := by
  rw [normalizeBase]
  split
  · rename_i star
    exact .inr ⟨.star, star ▸ .star⟩
  · split
    · rename_i err _
      exact .inl ⟨err, rfl⟩
    · rename_i start last range
      exact .inr (cron_range_inv plus range)

theorem cron_step_inv {digits : Bytes} {step : Int} (plus : byte '+' ∉ digits)
    (accepted : cronStep [text, digits] = .ok step) : ∃ n, Numeral digits n ∧ 1 ≤ n ∧ n ≤ maxInt := by
  rw [cronStep] at accepted
  split at accepted
  · cases accepted
  rename_i parsed read
  split at accepted
  · cases accepted
  rename_i positive
  obtain ⟨numeral, fits⟩ := atoi_positive plus read (by omega)
  exact ⟨parsed.toNat, numeral, by omega, fits⟩

theorem normalize_item_inv (fuel : Nat) (field : CronField) (plus : byte '+' ∉ text) :
    (∃ err, normalizeItem fuel field text = some (.error err)) ∨ ∃ item, ItemText field text item := by
  have joined := join_split (byte '/') text
  rw [normalizeItem]
  split
  · exact .inl ⟨_, rfl⟩
  dsimp only
  split
  · exact .inl ⟨_, rfl⟩
  rename_i few
  split
  · rename_i err _
    exact .inl ⟨err, rfl⟩
  · rename_i step accepted
    match parts : split (byte '/') text with
    | [] => exact absurd parts (split_nonempty _ text)
    | [base] =>
      rw [parts] at joined
      have same : base = text := (List.append_nil base).symm.trans joined
      rcases normalize_base_inv fuel field false step text plus with rejected | ⟨read, reads⟩
      · exact .inl (same.symm ▸ rejected)
      · exact .inr ⟨_, .plain text read reads⟩
    | [base, digits] =>
      rw [parts] at joined accepted
      have same : base ++ byte '/' :: digits = text := by simpa [join] using joined
      rw [← same] at plus
      rcases normalize_base_inv fuel field true step base (fun inside => plus (by simp [inside])) with
        rejected | ⟨read, reads⟩
      · exact .inl rejected
      · obtain ⟨n, numeral, positive, fits⟩ := cron_step_inv (fun inside => plus (by simp [inside])) accepted
        exact .inr ⟨⟨read, some n⟩, same ▸ ItemText.stepped base digits read n reads numeral positive fits⟩
    | _ :: _ :: _ :: _ =>
      rw [parts] at few
      simp at few

theorem weekdays_counts {fuel : Nat} (current : Nat) {step : Nat} (positive : 1 ≤ step) (small : current ≤ 7)
    (fits : current = 7 ∨ current + step ≤ maxInt) (enough : 8 ≤ fuel + current) :
    weekdays fuel current 7 step =
      some ((List.range' current ((7 - current) / step + 1) step).map
        (fun n => ((CronField.dayOfWeek.read n : Nat) : Int))) := by
  induction fuel generalizing current with
  | zero => omega
  | succ fuel ih =>
    rw [weekdays, if_pos (by omega)]
    by_cases sunday : current = 7
    · subst sunday
      rw [if_pos (by rfl), Nat.sub_self, Nat.zero_div]
      rfl
    · rw [if_neg (by omega)]
      have next : ((current : Int) + step).bmod (2 ^ 64) = ((current + step : Nat) : Int) := by
        unfold maxInt at fits
        rw [Int.bmod_eq_of_le_mul_two (by omega) (by omega)]
        omega
      have read : CronField.dayOfWeek.read current = current := if_neg (fun holds => sunday holds.2)
      rw [next, List.range'_succ, List.map_cons, read]
      by_cases more : current + step ≤ 7
      · unfold maxInt at fits
        rw [ih (current + step) more (.inr (by unfold maxInt; omega)) (by omega)]
        have counted : (7 - current) / step = (7 - (current + step)) / step + 1 := by
          rw [Nat.div_eq_sub_div positive (by omega), Nat.sub_add_eq]
        rw [counted]
        rfl
      · have last : (7 - current) / step = 0 := Nat.div_eq_of_lt (by omega)
        obtain ⟨rest, rfl⟩ : ∃ rest, fuel = rest + 1 := ⟨fuel - 1, by omega⟩
        rw [weekdays, if_neg (by omega), last]
        rfl

theorem weekdays_ends (bound : Nat) (fuel : Nat) (current step : Int) (low : -6 ≤ current) (high : current ≤ bound)
    (small : bound ≤ 6) (large : 2 ^ 63 - 6 ≤ step) (fits : step < 2 ^ 63) (enough : 2 * bound + 4 ≤ fuel) :
    ∃ values, weekdays fuel current 7 step = some values := by
  induction bound generalizing fuel current with
  | zero =>
    obtain ⟨rest, rfl⟩ : ∃ rest, fuel = rest + 2 := ⟨fuel - 2, by omega⟩
    have next : (current + step).bmod (2 ^ 64) = current + step := Int.bmod_eq_of_le_mul_two (by omega) (by omega)
    rw [weekdays, if_pos (by omega), if_neg (by omega), next, weekdays, if_neg (by omega)]
    exact ⟨_, rfl⟩
  | succ bound ih =>
    obtain ⟨rest, rfl⟩ : ∃ rest, fuel = rest + 2 := ⟨fuel - 2, by omega⟩
    rw [weekdays, if_pos (by omega), if_neg (by omega)]
    by_cases inside : current + step < 2 ^ 63
    · have next : (current + step).bmod (2 ^ 64) = current + step := Int.bmod_eq_of_le_mul_two (by omega) (by omega)
      rw [next, weekdays, if_neg (by omega)]
      exact ⟨_, rfl⟩
    · have next : (current + step).bmod (2 ^ 64) = current + step - 2 ^ 64 := by
        rw [← Int.sub_bmod_right, Int.bmod_eq_of_le_mul_two (by omega) (by omega)]
        rfl
      have again : (current + step - 2 ^ 64 + step).bmod (2 ^ 64) = current + step - 2 ^ 64 + step :=
        Int.bmod_eq_of_le_mul_two (by omega) (by omega)
      rw [next, weekdays, if_pos (by omega), if_neg (by omega), again]
      obtain ⟨values, later⟩ := ih rest (current + step - 2 ^ 64 + step) (by omega) (by omega) (by omega) (by omega)
      exact ⟨_, by rw [later]; rfl⟩

end Goforge.Schedule

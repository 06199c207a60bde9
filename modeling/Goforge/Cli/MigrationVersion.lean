import Mathlib.Algebra.Ring.Int.Defs
import Goforge.Lib.Strconv
import Goforge.Migrate.Source

set_option autoImplicit false

namespace Goforge.Cli

open GoString Strconv Goforge.Migrate

-- A clock reading in UTC with a year of four digits.
structure Reading where
  year : Fin 10000
  month : Fin 13
  day : Fin 32
  hour : Fin 24
  minute : Fin 60
  second : Fin 60

def pad (width n : Nat) : Bytes := List.replicate (width - (decimal n).length) (byte '0') ++ decimal n

-- Format("20060102150405")
def Reading.stamp (reading : Reading) : Bytes :=
  pad 4 reading.year ++ pad 2 reading.month ++ pad 2 reading.day ++ pad 2 reading.hour ++ pad 2 reading.minute ++
    pad 2 reading.second

-- Sprintf("%014d")
def version14 (n : Int) : Bytes := if n < 0 then byte '-' :: pad 13 n.natAbs else pad 14 n.natAbs

inductive VersionErr where
  | timestamp
  | invalid (version source : Bytes)
  | scan (err : Bytes)
  | exhausted
deriving DecidableEq

def consider (source : Bytes) (maximum : Int) (version : Bytes) : Except VersionErr Int :=
  match atoi version with
  | none => .error (.invalid version source)
  | some value => .ok (if value > maximum then value else maximum)

def considerEntry (maximum : Int) (entry : Entry) : Except VersionErr Int :=
  if entry.isDir then .ok maximum
  else
    match cut (byte '_') entry.name with
    | none => .ok maximum
    | some (version, ending) =>
      if ¬ (ascii ".up.sql").isSuffixOf ending ∧ ¬ (ascii ".down.sql").isSuffixOf ending then .ok maximum
      else consider (ascii "database/migrations/" ++ entry.name) maximum version

-- What os.ReadDir gives for the directory of the migrations.
inductive DirErr where
  | notExist
  | other (err : Bytes)

def listed : Except DirErr (List Entry) → Except VersionErr (List Entry)
  | .ok entries => .ok entries
  | .error .notExist => .ok []
  | .error (.other err) => .error (.scan err)

def nextMigrationVersion (reading : Reading) (resources : List Bytes) (directory : Except DirErr (List Entry)) :
    Except VersionErr Bytes :=
  match atoi reading.stamp with
  | none => .error .timestamp
  | some candidate => do
      let maximum ← resources.foldlM (consider (ascii "resource metadata")) (candidate - 1)
      let entries ← listed directory
      let maximum ← entries.foldlM considerEntry maximum
      if maximum ≥ candidate then
        if maximum = maxInt then .error .exhausted else .ok (version14 (maximum + 1))
      else .ok (version14 candidate)

def number (text : Bytes) : Nat := text.foldl (fun value b => value * 10 + (b.toNat - 48)) 0

theorem digit_range {b : UInt8} (digit : isDigit b = true) : 48 ≤ b.toNat ∧ b.toNat ≤ 57 :=
  (within_range _ _ b).mp digit

theorem number_from (text : Bytes) (start : Nat) :
    text.foldl (fun value b => value * 10 + (b.toNat - 48)) start = start * 10 ^ text.length + number text := by
  induction text generalizing start with
  | nil => simp [number]
  | cons b rest ih =>
    rw [number, List.foldl_cons, List.foldl_cons, ih, ih (0 * 10 + _), List.length_cons, Nat.pow_succ,
      Nat.zero_mul, Nat.zero_add, Nat.add_mul, Nat.mul_assoc, Nat.mul_comm 10, Nat.add_assoc]

theorem number_cons (b : UInt8) (rest : Bytes) :
    number (b :: rest) = (b.toNat - 48) * 10 ^ rest.length + number rest := by
  rw [number, List.foldl_cons, number_from, Nat.zero_mul, Nat.zero_add]

theorem number_lt {text : Bytes} (digits : ∀ b ∈ text, isDigit b = true) : number text < 10 ^ text.length := by
  induction text with
  | nil => decide
  | cons b rest ih =>
    obtain ⟨digit, others⟩ := List.forall_mem_cons.mp digits
    have small := digit_range digit
    have later := ih others
    rw [number_cons, List.length_cons, Nat.pow_succ]
    have scaled : (b.toNat - 48) * 10 ^ rest.length ≤ 9 * 10 ^ rest.length := Nat.mul_le_mul_right _ (by omega)
    omega

theorem leading_digit {a b n x y : Nat} (less : a < b) (small : x < n) : a * n + x < b * n + y := by
  have scaled : (a + 1) * n ≤ b * n := Nat.mul_le_mul_right n less
  rw [Nat.add_mul, Nat.one_mul] at scaled
  omega

theorem before_numbers (left right : Bytes) (length : left.length = right.length)
    (digits : ∀ b ∈ left, isDigit b = true) (digits' : ∀ b ∈ right, isDigit b = true) :
    before left right = true ↔ number left < number right := by
  induction left generalizing right with
  | nil =>
    cases List.length_eq_zero_iff.mp length.symm
    decide
  | cons a left ih =>
    cases right with
    | nil => cases length
    | cons b right =>
      obtain ⟨digit, others⟩ := List.forall_mem_cons.mp digits
      obtain ⟨digit', others'⟩ := List.forall_mem_cons.mp digits'
      have small := digit_range digit
      have small' := digit_range digit'
      have same : left.length = right.length := Nat.succ.inj length
      have here := ih right same others others'
      have low := number_lt others
      have low' := number_lt others'
      rw [before, number_cons, number_cons, same]
      rw [same] at low
      simp only [Bool.or_eq_true, Bool.and_eq_true, decide_eq_true_eq, UInt8.lt_iff_toNat_lt, here]
      rcases Nat.lt_trichotomy a.toNat b.toNat with less | equal | more
      · exact iff_of_true (.inl less) (leading_digit (by omega) low)
      · cases UInt8.toNat_inj.mp equal
        simp
      · have greater := leading_digit (y := number left) (show b.toNat - 48 < a.toNat - 48 by omega) low'
        refine iff_of_false ?_ (by omega)
        rintro (less | ⟨rfl, _⟩) <;> omega

theorem before_longer (left front : Bytes) (b : UInt8) (more : Bytes) (length : left.length = front.length) :
    before left (front ++ b :: more) = true ↔ before front left = false := by
  induction left generalizing front with
  | nil =>
    cases List.length_eq_zero_iff.mp length.symm
    exact iff_of_true rfl rfl
  | cons a left ih =>
    cases front with
    | nil => cases length
    | cons c front =>
      have here := ih front (Nat.succ.inj length)
      rw [List.cons_append, before, before]
      rcases Nat.lt_trichotomy a.toNat c.toNat with less | equal | more
      · simp [UInt8.lt_iff_toNat_lt, less, Nat.lt_asymm less, ← UInt8.toNat_inj, Nat.ne_of_gt less]
      · cases UInt8.toNat_inj.mp equal
        simp [here]
      · simp [UInt8.lt_iff_toNat_lt, more, Nat.lt_asymm more, ← UInt8.toNat_inj, Nat.ne_of_gt more]

theorem before_shorter {front : Bytes} (more right : Bytes) (length : front.length = right.length)
    (earlier : before front right = true) : before (front ++ more) right = true := by
  induction front generalizing right with
  | nil =>
    cases List.length_eq_zero_iff.mp length.symm
    cases earlier
  | cons a front ih =>
    cases right with
    | nil => cases length
    | cons b right =>
      rw [before, Bool.or_eq_true, Bool.and_eq_true] at earlier
      rw [List.cons_append, before, Bool.or_eq_true, Bool.and_eq_true]
      exact earlier.imp_right (And.imp_right (ih right (Nat.succ.inj length)))

theorem number_append (front back : Bytes) :
    number (front ++ back) = number front * 10 ^ back.length + number back := by
  rw [number, List.foldl_append, ← number, number_from]

-- A version of digits sorts before a larger one exactly if it is still no larger
-- when it is filled up with zeros to the other's length.
theorem version_order {left right : Bytes} (digits : ∀ b ∈ left, isDigit b = true)
    (digits' : ∀ b ∈ right, isDigit b = true) (less : number left < number right) :
    before left right = true ↔ number left * 10 ^ (right.length - left.length) ≤ number right := by
  rcases Nat.lt_trichotomy left.length right.length with shorter | equal | longer
  · obtain ⟨b, more, rest⟩ := List.exists_cons_of_ne_nil (List.ne_nil_of_length_pos
      (show 0 < (right.drop left.length).length by rw [List.length_drop]; omega))
    have front : left.length = (right.take left.length).length := by rw [List.length_take]; omega
    have order := before_longer left (right.take left.length) b more front
    rw [← rest, List.take_append_drop, ← Bool.not_eq_true, before_numbers _ _ front.symm
      (fun b member => digits' b (List.mem_of_mem_take member)) digits, Nat.not_lt] at order
    have whole := number_append (right.take left.length) (right.drop left.length)
    have low : number (right.drop left.length) < 10 ^ (right.drop left.length).length :=
      number_lt (fun b member => digits' b (List.mem_of_mem_drop member))
    rw [List.take_append_drop, List.length_drop] at whole
    rw [List.length_drop] at low
    rw [order, whole]
    constructor
    · exact fun least => Nat.le_trans (Nat.mul_le_mul_right _ least) (Nat.le_add_right _ _)
    · intro filled
      apply Nat.not_lt.mp
      intro more
      have above := leading_digit (y := 0) more low
      omega
  · rw [equal, Nat.sub_self, Nat.pow_zero, Nat.mul_one]
    exact iff_of_true ((before_numbers left right equal digits digits').mpr less) (Nat.le_of_lt less)
  · rw [Nat.sub_eq_zero_of_le (Nat.le_of_lt longer), Nat.pow_zero, Nat.mul_one]
    refine iff_of_true ?_ (Nat.le_of_lt less)
    rw [← List.take_append_drop right.length left] at less ⊢
    have front : (left.take right.length).length = right.length := by rw [List.length_take]; omega
    refine before_shorter _ _ front ((before_numbers _ _ front ?_ digits').mpr ?_)
    · exact fun b member => digits b (List.mem_of_mem_take member)
    · refine Nat.lt_of_le_of_lt ?_ less
      rw [number_append]
      exact Nat.le_trans (Nat.le_mul_of_pos_right _ (Nat.pow_pos (by decide))) (Nat.le_add_right _ _)

theorem pad_numeral (width n : Nat) : Numeral (pad width n) n := by
  obtain ⟨nonempty, digits, value⟩ := numeral_decimal n
  refine ⟨by simp [pad, nonempty], ?_, ?_⟩
  · intro b member
    rcases List.mem_append.mp member with zero | digit
    · exact (List.eq_of_mem_replicate zero) ▸ by decide
    · exact digits b digit
  · have zeros :
        ∀ count, (List.replicate count (byte '0')).foldl (fun value b => value * 10 + (b.toNat - 48)) 0 = 0 := by
      intro count
      induction count with
      | zero => rfl
      | succ count ih => exact ih
    rw [pad, List.foldl_append, zeros, value]

variable {version : Bytes} {maximum : Int} {entries : List Entry}

-- The version in the name of a file, whether or not the migrator takes the name.
def recordedVersion (entry : Entry) : Option Bytes :=
  if entry.isDir then none
  else
    match GoString.cut (byte '_') entry.name with
    | none => none
    | some (version, ending) =>
      if (ascii ".up.sql").isSuffixOf ending ∨ (ascii ".down.sql").isSuffixOf ending then some version else none

def beyond (n value : Int) : Int := max n (value + 1)

-- The number of the clock's stamp, or one more than the largest recorded version.
def nextNumber (reading : Reading) (resources : List Bytes) (entries : List Entry) : Int :=
  (resources.filterMap atoi ++ entries.filterMap (fun entry => (recordedVersion entry).bind atoi)).foldl beyond
    (number reading.stamp)

def width (n : Int) : Nat := max 14 (decimal n.natAbs).length

theorem consider_beyond {source : Bytes} {next : Int} (considered : consider source maximum version = .ok next) :
    ∃ value, atoi version = some value ∧ next + 1 = beyond (maximum + 1) value := by
  rw [consider] at considered
  split at considered
  · cases considered
  rename_i value parsed
  cases considered
  exact ⟨value, parsed, by unfold beyond; split <;> omega⟩

theorem consider_entry_recorded (maximum : Int) (entry : Entry) :
    considerEntry maximum entry =
      match recordedVersion entry with
      | none => .ok maximum
      | some version => consider (ascii "database/migrations/" ++ entry.name) maximum version := by
  rw [considerEntry, recordedVersion]
  split
  · rfl
  cases GoString.cut (byte '_') entry.name with
  | none => rfl
  | some halves =>
    dsimp only
    by_cases named : (ascii ".up.sql").isSuffixOf halves.2 = true ∨ (ascii ".down.sql").isSuffixOf halves.2 = true
    · rw [if_neg (by rwa [not_and_or, not_not, not_not]), if_pos named]
    · rw [if_pos (not_or.mp named), if_neg named]

-- Both loops: a step leaves the maximum or takes a version into account.
theorem fold_beyond {α : Type} {step : Int → α → Except VersionErr Int} (recorded : α → Option Bytes)
    (each : ∀ maximum item next, step maximum item = .ok next → next = maximum ∧ recorded item = none ∨
      ∃ version value, recorded item = some version ∧ atoi version = some value ∧ next + 1 = beyond (maximum + 1) value)
    {items : List α} {last : Int} (run : items.foldlM step maximum = .ok last) :
    last + 1 = (items.filterMap (fun item => (recorded item).bind atoi)).foldl beyond (maximum + 1) ∧
      ∀ item ∈ items, ∀ version, recorded item = some version → (atoi version).isSome = true := by
  induction items generalizing maximum with
  | nil =>
    cases run
    exact ⟨rfl, List.forall_mem_nil _⟩
  | cons item rest ih =>
    rw [List.foldlM_cons] at run
    cases first : step maximum item with
    | error err => cases first ▸ run
    | ok next =>
      rw [first] at run
      obtain ⟨later, others⟩ := ih run
      rcases each maximum item next first with ⟨rfl, none⟩ | ⟨version, value, found, parsed, grown⟩
      · refine ⟨by rw [List.filterMap_cons, none]; exact later, List.forall_mem_cons.mpr ⟨?_, others⟩⟩
        intro version found
        cases none.symm.trans found
      · refine ⟨?_, List.forall_mem_cons.mpr ⟨?_, others⟩⟩
        · rw [List.filterMap_cons, found, Option.bind_some, parsed, List.foldl_cons, ← grown]
          exact later
        · intro other same
          cases found.symm.trans same
          rw [parsed]
          rfl

theorem beyond_all (values : List Int) (n : Int) :
    n ≤ values.foldl beyond n ∧ ∀ value ∈ values, value < values.foldl beyond n := by
  induction values generalizing n with
  | nil => exact ⟨Int.le_refl n, List.forall_mem_nil _⟩
  | cons value rest ih =>
    obtain ⟨more, others⟩ := ih (beyond n value)
    rw [List.foldl_cons]
    have bounds : n ≤ beyond n value ∧ value < beyond n value := by
      unfold beyond
      omega
    exact ⟨Int.le_trans bounds.1 more, List.forall_mem_cons.mpr ⟨Int.lt_of_lt_of_le bounds.2 more, others⟩⟩

theorem migration_name_cut {file name : Bytes} {direction : Direction}
    (matched : migrationName file = some (version, name, direction)) :
    ∃ ending, cut (byte '_') file = some (version, ending) ∧
      ((ascii ".up.sql").isSuffixOf ending = true ∨ (ascii ".down.sql").isSuffixOf ending = true) := by
  have digits := migration_name_digits matched
  have absent : byte '_' ∉ version := fun member => absurd (List.all_eq_true.mp digits _ member) (by decide)
  rw [migrationName] at matched
  split at matched
  · rename_i digit digits under rest taken dropped
    have whole : file = (digit :: digits) ++ under :: rest := by
      rw [← taken, ← dropped, List.takeWhile_append_dropWhile]
    split at matched
    · cases matched
    rename_i proper
    rw [not_or, Classical.not_not] at proper
    have ends : ∀ tail, rest.dropWhile isNameByte = tail → tail.isSuffixOf rest = true := by
      rintro _ rfl
      exact List.isSuffixOf_iff_suffix.mpr (List.dropWhile_suffix _)
    rw [whole, proper.1]
    split at matched
    · rename_i up
      cases matched
      exact ⟨rest, cut_append rest absent, .inl (ends _ up)⟩
    · split at matched
      · rename_i down
        cases matched
        exact ⟨rest, cut_append rest absent, .inr (ends _ down)⟩
      · cases matched
  · cases matched

def Provides (version : Bytes) (entry : Entry) : Prop :=
  entry.isDir = false ∧ ∃ name direction, migrationName entry.name = some (version, name, direction)

theorem provides_recorded {entry : Entry} (provides : Provides version entry) :
    recordedVersion entry = some version := by
  obtain ⟨file, name, direction, matched⟩ := provides
  obtain ⟨ending, found, ends⟩ := migration_name_cut matched
  rw [recordedVersion, file, found]
  exact if_pos ends

theorem loaded_provided {shuffle : List Migration → List Migration}
    (shuffled : ∀ migrations, (shuffle migrations).Perm migrations) {migrations : List Migration}
    (loaded : load (.ok entries) shuffle = .ok migrations) :
    ∀ migration ∈ migrations, ∃ entry ∈ entries, Provides migration.version entry := by
  obtain ⟨byVersion, folded, _, rfl⟩ := load_result loaded
  obtain ⟨_, provided⟩ := load_entries_keep (p := fun version => ∃ entry ∈ entries, Provides version entry) [] folded
    List.nodup_nil (List.forall_mem_nil _)
    (fun entry member version name direction file matched => ⟨entry, member, file, name, direction, matched⟩)
  intro migration member
  have perm := (sort_by_perm Migration.version (shuffle byVersion)).trans (shuffled byVersion)
  exact provided _ (List.mem_map_of_mem (perm.mem_iff.mp member))

theorem stamp_digits (reading : Reading) : ∀ b ∈ reading.stamp, isDigit b = true := by
  intro b member
  simp only [Reading.stamp, List.mem_append] at member
  rcases member with
    ((((inside | inside) | inside) | inside) | inside) | inside <;> exact (pad_numeral _ _).2.1 b inside

theorem next_version_number {reading : Reading} {resources : List Bytes}
    (returned : nextMigrationVersion reading resources (.ok entries) = .ok version) :
    0 ≤ nextNumber reading resources entries ∧ version = pad 14 (nextNumber reading resources entries).natAbs ∧
      ∀ entry ∈ entries, ∀ other, recordedVersion entry = some other →
        ∃ value, atoi other = some value ∧ value < nextNumber reading resources entries := by
  rw [nextMigrationVersion] at returned
  split at returned
  · cases returned
  rename_i candidate parsed
  have stamped : ∀ b, isDigit b = false → b ∉ reading.stamp :=
    fun b other member => absurd (stamp_digits reading b member) (by simp [other])
  obtain ⟨positive, ⟨_, _, value⟩, _⟩ := atoi_digits (stamped _ (by decide)) (stamped _ (by decide)) parsed
  have started : (number reading.stamp : Int) = candidate := by rw [number, value]; omega
  cases first_ : resources.foldlM (consider (ascii "resource metadata")) (candidate - 1) with
  | error err => cases first_ ▸ returned
  | ok first =>
    rw [first_] at returned
    cases scanned : entries.foldlM considerEntry first with
    | error err =>
      simp only [listed, bind, Except.bind, scanned] at returned
      cases returned
    | ok maximum =>
      simp only [listed, bind, Except.bind, scanned] at returned
      obtain ⟨metadata, _⟩ := fold_beyond some (by
        intro maximum version next ok
        obtain ⟨value, parsed, grown⟩ := consider_beyond ok
        exact .inr ⟨version, value, rfl, parsed, grown⟩) first_
      obtain ⟨files, known⟩ := fold_beyond recordedVersion (by
        intro maximum entry next ok
        rw [consider_entry_recorded] at ok
        cases found : recordedVersion entry with
        | none =>
          rw [found] at ok
          cases ok
          exact .inl ⟨rfl, rfl⟩
        | some version =>
          rw [found] at ok
          obtain ⟨value, parsed, grown⟩ := consider_beyond ok
          exact .inr ⟨version, value, rfl, parsed, grown⟩) scanned
      have same : nextNumber reading resources entries = maximum + 1 := by
        rw [nextNumber, List.foldl_append, started, files, metadata, Int.sub_add_cancel]
        rfl
      obtain ⟨least, above⟩ := beyond_all (resources.filterMap atoi ++
        entries.filterMap (fun entry => (recordedVersion entry).bind atoi)) (number reading.stamp)
      rw [← nextNumber] at least above
      refine ⟨by omega, ?_, ?_⟩
      · split at returned
        · split at returned
          · cases returned
          · cases returned
            rw [version14, if_neg (by omega), same]
        · cases returned
          rw [version14, if_neg (by omega), show nextNumber reading resources entries = candidate by omega]
      · intro entry member other found
        obtain ⟨value, parsed⟩ := Option.isSome_iff_exists.mp (known entry member other found)
        refine ⟨value, parsed, above value (List.mem_append_right _ (List.mem_filterMap.mpr ⟨entry, member, ?_⟩))⟩
        rw [found]
        exact parsed

theorem pad_length (least n : Nat) : (pad least n).length = max least (decimal n).length := by
  rw [pad, List.length_append, List.length_replicate]
  omega

-- The version is the number at hand, and it sorts last exactly if no migration's
-- version, filled up with zeros to its width, is larger.
theorem next_version_last_iff {reading : Reading} {resources : List Bytes}
    (returned : nextMigrationVersion reading resources (.ok entries) = .ok version)
    {shuffle : List Migration → List Migration} (shuffled : ∀ migrations, (shuffle migrations).Perm migrations)
    {migrations : List Migration} (loaded : load (.ok entries) shuffle = .ok migrations) :
    version = version14 (nextNumber reading resources entries) ∧
      ((∀ migration ∈ migrations, before migration.version version = true) ↔
        ∀ migration ∈ migrations, (number migration.version : Int) *
          10 ^ (width (nextNumber reading resources entries) - migration.version.length) ≤
            nextNumber reading resources entries) := by
  obtain ⟨positive, rfl, above⟩ := next_version_number returned
  generalize nextNumber reading resources entries = n at positive above ⊢
  refine ⟨by rw [version14, if_neg (by omega)], forall₂_congr (fun migration member => ?_)⟩
  obtain ⟨entry, inside, provides⟩ := loaded_provided shuffled loaded migration member
  obtain ⟨value, parsed, less⟩ := above entry inside _ (provides_recorded provides)
  obtain ⟨_, name, direction, matched⟩ := provides
  have plain : ∀ b, isDigit b = false → b ∉ migration.version := fun b odd inside =>
    absurd (List.all_eq_true.mp (migration_name_digits matched) b inside) (by simp [odd])
  obtain ⟨least, ⟨_, digits, same⟩, _⟩ := atoi_digits (plain _ (by decide)) (plain _ (by decide)) parsed
  obtain ⟨_, digits', whole⟩ := pad_numeral 14 n.natAbs
  have order := version_order digits digits' (by rw [number, same, number, whole]; omega)
  rw [order, pad_length, ← width, show number (pad 14 n.natAbs) = n.natAbs from whole, ← Int.ofNat_le, Int.natCast_mul,
    Int.natCast_pow, Int.natAbs_of_nonneg positive]
  rfl

def firstOfJuly : Reading := ⟨2026, 7, 1, 12, 0, 0⟩

def fileOf (name : String) : Entry := ⟨ascii name, false, .ok (ascii "SELECT 1")⟩

theorem next_version_last_iff_stamps : ∃ migrations,
    load (.ok [fileOf "20990101000000_a.up.sql", fileOf "20990101000000_a.down.sql"]) id = .ok migrations ∧
    nextMigrationVersion firstOfJuly [] (.ok [fileOf "20990101000000_a.up.sql", fileOf "20990101000000_a.down.sql"]) =
      .ok (ascii "20990101000001") ∧
    ∀ migration ∈ migrations, before migration.version (ascii "20990101000001") = true := by
  have returned : nextMigrationVersion firstOfJuly []
      (.ok [fileOf "20990101000000_a.up.sql", fileOf "20990101000000_a.down.sql"]) = .ok (ascii "20990101000001") := by
    decide +kernel
  refine ⟨_, rfl, returned, ?_⟩
  refine (next_version_last_iff returned (fun _ => List.Perm.refl _) rfl).2.mpr ?_
  decide +kernel

theorem short_version_last : ∃ migrations,
    load (.ok [fileOf "9_init.up.sql", fileOf "9_init.down.sql"]) id = .ok migrations ∧
    nextMigrationVersion firstOfJuly [] (.ok [fileOf "9_init.up.sql", fileOf "9_init.down.sql"]) =
      .ok (ascii "20260701120000") ∧
    ∃ migration ∈ migrations, before (ascii "20260701120000") migration.version = true :=
  ⟨_, rfl, by decide +kernel, by decide +kernel⟩

end Goforge.Cli

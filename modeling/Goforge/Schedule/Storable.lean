import Goforge.Job.Delivery
import Goforge.Schedule.CronExact
import Goforge.Schedule.Define
import Goforge.Schedule.Materialize

set_option autoImplicit false

namespace Goforge.Schedule

open GoString GoTime GoZone Sql Strconv Text

def listWidth (widths : List Nat) : Nat := widths.sum + (widths.length - 1)

def Base.width : Base → Nat
  | .star => 1
  | .value n => (decimal n).length
  | .range low high => (decimal low).length + 1 + (decimal high).length

def Item.width (field : CronField) (item : Item) : Nat :=
  if item.expands field then listWidth (List.replicate ((7 - item.first field) / item.stride + 1) 1)
  else
    item.base.width +
      match item.step with
      | none => 0
      | some step => 1 + (decimal step).length

def ReadsExpression (value : Bytes) (readings : List (List Item)) : Prop :=
  (fields value).length = 5 ∧
    List.Forall₂ (fun entry items => Reads entry.1 entry.2 items) (CronField.all.zip (fields value)) readings

def expressionWidth (readings : List (List Item)) : Nat :=
  listWidth (List.zipWith (fun field items => listWidth (items.map (Item.width field))) CronField.all readings)

-- The cron library takes digits for a number: no item of an expression it
-- parses begins with a dash.
def Unsigned {S : Type} (library : CronLibrary S Location) : Prop :=
  ∀ canonical spec, library.parse canonical = .ok (some spec) → ∀ field ∈ split (byte ' ') canonical,
    ∀ item ∈ split (byte ',') field, item.head? ≠ some (byte '-')

theorem join_length (separator : UInt8) (parts : List Bytes) :
    (join [separator] parts).length = listWidth (parts.map List.length) := by
  induction parts with
  | nil => rfl
  | cons first rest ih =>
    rw [join_cons, List.length_append]
    cases rest with
    | nil => simp [listWidth]
    | cons next others =>
      rw [if_neg (List.cons_ne_nil _ _), List.length_append, ih]
      simp only [listWidth, List.map_cons, List.sum_cons, List.length_cons, List.length_nil]
      omega

theorem list_width_flat_map {α β : Type} {items : List α} {parts : α → List β} (width : β → Nat)
    (nonempty : ∀ item ∈ items, parts item ≠ []) :
    listWidth ((items.flatMap parts).map width) =
    listWidth (items.map (fun item => listWidth ((parts item).map width))) := by
  induction items with
  | nil => rfl
  | cons item rest ih =>
    have some := nonempty item List.mem_cons_self
    have later := ih (fun other member => nonempty other (List.mem_cons_of_mem item member))
    have positive := List.length_pos_of_ne_nil some
    simp only [listWidth, List.flatMap_cons, List.map_append, List.map_cons, List.sum_append, List.sum_cons,
      List.length_append, List.length_map, List.length_cons] at later ⊢
    cases rest with
    | nil => simp
    | cons next others =>
      have further := List.length_pos_of_ne_nil (nonempty next (by simp))
      simp only [List.flatMap_cons, List.length_append, List.length_cons] at later ⊢
      omega

theorem item_text_length (item : Item) : item.text.length =
    item.base.width + match item.step with
      | none => 0
      | some step => 1 + (decimal step).length := by
  obtain ⟨base, step⟩ := item
  have based : base.text.length = base.width := by
    cases base with
    | star => rfl
    | value n => rfl
    | range low high =>
      rw [Base.text, Base.width, List.length_append, List.length_cons]
      omega
  cases step with
  | none => exact based
  | some step =>
    rw [Item.text, List.length_append, List.length_cons, based]
    dsimp only
    omega

theorem canonical_width {field : CronField} {item : Item} (formed : item.WellFormed field) :
    listWidth ((item.canonical field).map (fun part => part.text.length)) = item.width field := by
  rw [Item.width]
  split
  · rename_i expands
    have single : ∀ n ≤ 6, (decimal n).length = 1 := by decide
    have settled := canonical_settled formed
    congr 1
    rw [Item.canonical, if_pos expands] at settled ⊢
    rw [List.eq_replicate_iff]
    refine ⟨by rw [List.length_map, List.length_map, List.length_range'], ?_⟩
    intro width member
    obtain ⟨part, inside, rfl⟩ := List.mem_map.mp member
    obtain ⟨n, _, rfl⟩ := List.mem_map.mp inside
    have bounds := (settled _ inside).inBounds (field.read n) (by simp [Base.written])
    rw [expands.1, CronField.highest, if_pos rfl] at bounds
    rw [expands.1]
    exact single _ bounds.2
  · rename_i contained
    rw [Item.canonical, if_neg contained]
    simp [listWidth, item_text_length]

theorem join_bytes {separator : UInt8} {parts : List Bytes} {b : UInt8} (member : b ∈ join [separator] parts) :
    b = separator ∨ ∃ part ∈ parts, b ∈ part := by
  induction parts with
  | nil => cases member
  | cons first rest ih =>
    rw [join_cons] at member
    rcases List.mem_append.mp member with inside | later
    · exact .inr ⟨first, List.mem_cons_self, inside⟩
    · split at later
      · cases later
      · rcases List.mem_cons.mp later with same | further
        · exact .inl same
        · rcases ih further with same | ⟨part, listed, inside⟩
          · exact .inl same
          · exact .inr ⟨part, List.mem_cons_of_mem first listed, inside⟩

structure NormalizedField (field : CronField) (value out : Bytes) : Prop where
  reads : ∃ items, Reads field value items
  bytes : ∀ b ∈ out, plainCron b = true ∨ b = byte ','
  width : (∀ item ∈ split (byte ',') out, item.head? ≠ some (byte '-')) → ∀ items, Reads field value items →
    out.length = listWidth (items.map (Item.width field))

theorem normalized_field {fuel : Nat} (enough : 16 ≤ fuel) {field : CronField} {value out : Bytes}
    (allowed : field.allowed value = true) (normalized : normalizeCronField fuel field value = some (.ok out)) :
    NormalizedField field value out := by
  have unfolded := normalized
  rw [normalizeCronField] at unfolded
  obtain ⟨listed, each, same⟩ := Option.map_eq_some_iff.mp unfolded
  cases listed with
  | error err => cases same
  | ok outs =>
    cases same
    have grammar : ∃ items, Reads field value items := by
      apply Classical.byContradiction
      intro outside
      obtain ⟨err, rejected⟩ := normalize_items_rejects enough (allowed_plus allowed) outside
      cases each.symm.trans rejected
    obtain ⟨items, reads⟩ := grammar
    obtain ⟨plain, some, negative⟩ := normalize_items_parts outs reads each
    refine ⟨⟨items, reads⟩, ?_, ?_⟩
    · intro b member
      rcases join_bytes member with comma | ⟨part, inside, byte⟩
      · exact .inr comma
      · exact .inl (plain part inside b byte)
    · intro unsigned others again
      have commas := fun part member => plain_absent (plain part member) (byte ',') (by decide)
      rw [split_join (some (split_nonempty _ value)) commas] at unsigned
      rw [reads_unique items again reads]
      have fits : ∀ item ∈ items, ¬ item.overflows field := by
        intro item member overflows
        obtain ⟨part, inside, dash⟩ := negative ⟨item, member, overflows⟩
        exact unsigned part inside dash
      have canonical := normalize_field_canonical fuel (by omega) reads fits
      rw [normalized] at canonical
      rw [Except.ok.inj (Option.some.inj canonical), join_length, List.map_map]
      refine (list_width_flat_map (fun part => part.text.length) (fun item _ => canonical_nonempty field item)).trans ?_
      congr 1
      exact List.map_congr_left (fun item member => canonical_width (items_well_formed reads item member))

theorem normalize_fields_inv {fuel : Nat} (index : Nat) {entries : List (CronField × Bytes)} (outs : List Bytes)
    (normalized : normalizeFields fuel index entries = some (.ok outs)) :
    List.Forall₂ (fun entry out => entry.1.allowed entry.2 = true ∧
      normalizeCronField fuel entry.1 entry.2 = some (.ok out)) entries outs := by
  induction entries generalizing index outs with
  | nil =>
    cases normalized
    exact .nil
  | cons entry rest ih =>
    obtain ⟨field, value⟩ := entry
    rw [normalizeFields] at normalized
    split at normalized
    · cases normalized
    rename_i allowed
    split at normalized
    · cases normalized
    · cases normalized
    · rename_i out first
      obtain ⟨later, others, same⟩ := Option.map_eq_some_iff.mp normalized
      cases later with
      | error err => cases same
      | ok later =>
        cases same
        exact .cons ⟨by simpa using allowed, first⟩ (ih (index + 1) later others)

theorem fields_read {entries : List (CronField × Bytes)} {outs : List Bytes}
    (normalized : List.Forall₂ (fun entry out => NormalizedField entry.1 entry.2 out) entries outs) :
    ∃ readings, List.Forall₂ (fun entry items => Reads entry.1 entry.2 items) entries readings := by
  induction normalized with
  | nil => exact ⟨[], .nil⟩
  | cons first _ ih =>
    obtain ⟨items, read⟩ := first.reads
    obtain ⟨readings, others⟩ := ih
    exact ⟨items :: readings, .cons read others⟩

theorem plain_low {b : UInt8} (plain : plainCron b = true) : 0 < b.toNat ∧ b.toNat < 0x80 := by
  simp only [plainCron, Bool.or_eq_true, decide_eq_true_eq] at plain
  rcases plain with ((digit | rfl) | rfl) | rfl
  · rw [isDigit, within_range] at digit
    exact ⟨Nat.lt_of_lt_of_le (by decide) digit.1, Nat.lt_of_le_of_lt digit.2 (by decide)⟩
  · decide
  · decide
  · decide

theorem fields_width {entries : List (CronField × Bytes)} {outs : List Bytes} (readings : List (List Item))
    (normalized : List.Forall₂ (fun entry out => NormalizedField entry.1 entry.2 out) entries outs)
    (unsigned : ∀ out ∈ outs, ∀ item ∈ split (byte ',') out, item.head? ≠ some (byte '-'))
    (reads : List.Forall₂ (fun entry items => Reads entry.1 entry.2 items) entries readings) :
    outs.map List.length =
      List.zipWith (fun field items => listWidth (items.map (Item.width field))) (entries.map Prod.fst) readings := by
  induction normalized generalizing readings with
  | nil =>
    cases reads
    rfl
  | @cons entry out entries outs first _ ih =>
    cases reads with
    | @cons _ items _ readings read others =>
      rw [List.map_cons, List.map_cons, List.zipWith_cons_cons,
        first.width (unsigned out List.mem_cons_self) items read,
        ih readings (fun other member => unsigned other (List.mem_cons_of_mem out member)) others]

section

variable {S : Type} (library : CronLibrary S Location)

structure Canonical (value canonical : Bytes) : Prop where
  nonempty : canonical ≠ []
  printable : ∀ b ∈ canonical, 0 < b.toNat ∧ b.toNat < 0x80
  width : ∃ readings, ReadsExpression value readings ∧ canonical.length = expressionWidth readings
  same : ∀ readings, ReadsExpression value readings → canonical.length = expressionWidth readings

theorem parse_cron_canonical (unsigned : Unsigned library) {fuel : Nat} (enough : 16 ≤ fuel) {value : Bytes}
    {location : Option Location} (expression : CronExpression S Location)
    (accepted : parseCron library fuel value location = some (.ok expression)) :
    Canonical value expression.canonical := by
  rw [parseCron] at accepted
  split at accepted
  · cases accepted
  rename_i five
  have count : (fields value).length = 5 := not_not.mp five
  split at accepted
  · cases accepted
  split at accepted
  · cases accepted
  · cases accepted
  · rename_i outs normalized
    dsimp only at accepted
    split at accepted
    · cases accepted
    · cases accepted
    · rename_i spec parsed
      split at accepted
      · cases accepted
      cases accepted
      dsimp only
      have each := (normalize_fields_inv 0 outs normalized).imp
        (fun entry out holds => normalized_field enough holds.1 holds.2)
      have entries : (CronField.all.zip (fields value)).length = 5 := by
        rw [List.length_zip, count]
        rfl
      have nonempty : outs ≠ [] := by
        rintro rfl
        rw [List.forall₂_nil_right_iff.mp each] at entries
        cases entries
      have bytes : ∀ out ∈ outs, ∀ b ∈ out, plainCron b = true ∨ b = byte ',' := by
        intro out member
        obtain ⟨entry, _, holds⟩ := related_left each.flip out member
        exact holds.bytes
      have spaces : ∀ out ∈ outs, byte ' ' ∉ out := by
        intro out member space
        rcases bytes out member _ space with plain | comma
        · exact absurd plain (by decide)
        · exact absurd comma (by decide)
      have clean := unsigned _ spec parsed
      rw [split_join nonempty spaces] at clean
      have same : ∀ readings, ReadsExpression value readings →
          (join [byte ' '] outs).length = expressionWidth readings := by
        intro readings reads
        have widths := fields_width readings each clean reads.2
        rw [List.map_fst_zip (by rw [count]; decide)] at widths
        rw [join_length, widths, expressionWidth]
      refine ⟨?_, ?_, ?_, same⟩
      · intro empty
        have length := join_length (byte ' ') outs
        rw [empty, listWidth, List.length_map, ← each.length_eq, entries] at length
        simp at length
      · intro b member
        rcases join_bytes member with rfl | ⟨out, inside, byte⟩
        · decide
        · rcases bytes out inside b byte with plain | rfl
          · exact plain_low plain
          · decide
      · obtain ⟨readings, reads⟩ := fields_read each
        exact ⟨readings, ⟨count, reads⟩, same readings ⟨count, reads⟩⟩

end

structure Plain (bytes : Bytes) : Prop where
  nonempty : bytes ≠ []
  printable : ∀ b ∈ bytes, 0 < b.toNat ∧ b.toNat < 0x80

theorem plain_size {bytes : Bytes} (plain : Plain bytes) : (text bytes).utf8ByteSize = bytes.length :=
  text_size (fun b member => (plain.printable b member).2)

theorem plain_text_ok {bytes : Bytes} (plain : Plain bytes) (most : Nat) :
    Job.textOk 1 most (text bytes) = decide (bytes.length ≤ most) := by
  have some := List.length_pos_of_ne_nil plain.nonempty
  have clean : (text bytes).toList.contains '\x00' = false := by
    rw [text_chars]
    simp only [List.contains_eq_mem, decide_eq_false_iff_not, List.mem_map]
    rintro ⟨b, member, null⟩
    have code := latin_code b
    rw [null] at code
    have positive := (plain.printable b member).1
    exact absurd code (by simp; omega)
  rw [Job.textOk, plain_size plain, clean, decide_eq_true (show 1 ≤ bytes.length from some)]
  simp

theorem accepted_plain {pattern : Regex} {bytes : Bytes} (accepted : pattern.accepts (text bytes) = true)
    (empty : pattern.nullable = false)
    (avoids : ∀ n, n < 256 → (n = 0 ∨ 0x80 ≤ n) → pattern.avoids (Char.ofNat n) = true) : Plain bytes := by
  refine ⟨?_, ?_⟩
  · rintro rfl
    exact Bool.noConfusion (empty.symm.trans accepted)
  · intro b member
    have inside : latin b ∈ (text bytes).toList := by
      rw [text_chars]
      exact List.mem_map_of_mem member
    have small := b.toNat_lt
    apply Classical.byContradiction
    intro outside
    exact accepts_avoids (latin b) pattern (text bytes) accepted (avoids b.toNat small (by omega)) inside

structure SettingsOk (settings : DefinitionSettings) : Prop where
  zone : Plain settings.timeZone
  zoneSize : settings.timeZone.length ≤ 128
  grace : minute ≤ settings.misfireGrace ∧ settings.misfireGrace ≤ 365 * day ∧ settings.misfireGrace % minute = 0

theorem default_settings_ok : SettingsOk defaultSettings :=
  ⟨⟨by decide, by decide +kernel⟩, by decide, by decide⟩

section

variable {S : Type} (services : Services S)

theorem load_time_zone_ok (name : Bytes) (location : Option Location)
    (loaded : loadTimeZone services name = .ok location) : Plain name ∧ name.length ≤ 128 := by
  rw [loadTimeZone] at loaded
  split at loaded
  · cases loaded
  split at loaded
  · rename_i utc
    subst utc
    exact ⟨⟨by decide, by decide +kernel⟩, by decide⟩
  · split at loaded
    · cases loaded
    · rename_i valid
      rw [not_or, Nat.not_lt, Bool.not_eq_false] at valid
      exact ⟨accepted_plain valid.2 rfl (by decide +kernel), valid.1⟩

theorem apply_options_ok (options : List ScheduleOption) (settings result : DefinitionSettings)
    (ok : SettingsOk settings) (applied : applyOptions services settings options = .ok result) : SettingsOk result := by
  induction options generalizing settings with
  | nil =>
    cases applied
    exact ok
  | cons option rest ih =>
    rw [applyOptions] at applied
    split at applied
    · cases applied
    rename_i changed step
    refine ih changed ?_ applied
    cases option with
    | unset => cases step
    | timeZone name =>
      rw [applyOption] at step
      split at step
      · cases step
      rename_i location loaded
      cases step
      obtain ⟨plain, size⟩ := load_time_zone_ok services name location loaded
      exact ⟨plain, size, ok.grace⟩
    | misfireGrace grace =>
      rw [applyOption] at step
      split at step
      · cases step
      rename_i bounds
      cases step
      exact ⟨ok.zone, ok.zoneSize, by dsimp only; omega⟩

theorem lower_hex_range {n : Nat} (small : n < 16) : inRanges (latin (lowerHex n)) [('0', '9'), ('a', 'f')] = true := by
  have all : ∀ n, n < 16 → inRanges (latin (lowerHex n)) [('0', '9'), ('a', 'f')] = true := by decide
  exact all n small

theorem fingerprint_accepted {data : Bytes} (length : data.length = 32) :
    fingerprintPattern.accepts (text (hexEncode data)) = true := by
  have size : (hexEncode data).length = 64 := by
    rw [hexEncode, List.length_flatMap]
    simp [length]
  refine repeated_accepts 64 (by rw [text_chars, List.length_map, size]) ?_
  intro c member
  rw [text_chars] at member
  obtain ⟨b, inside, rfl⟩ := List.mem_map.mp member
  obtain ⟨x, _, either⟩ := List.mem_flatMap.mp inside
  have small := x.toNat_lt
  simp only [List.mem_cons, List.not_mem_nil, or_false] at either
  rcases either with rfl | rfl <;> exact lower_hex_range (by omega)

theorem define_inv {fuel : Nat} {name expression : Bytes} {target : Target} {factory : PayloadFactory}
    {options : List ScheduleOption} {definition : Definition}
    (accepted : define services fuel name expression target factory options = some (.ok definition)) :
    name.length ≤ 128 ∧ Job.jobNamePattern.accepts (text name) = true ∧ target.name ≠ "" ∧
      ∃ settings parsed data, SettingsOk settings ∧
        parseCron services.cron fuel expression settings.location = some (.ok parsed) ∧ data.length = 32 ∧
        definition =
          { name := text name
            expression := text parsed.canonical
            timeZone := text settings.timeZone
            misfireGrace := settings.misfireGrace
            jobName := target.name
            policy := target.policy
            fingerprint := text (hexEncode data)
            next := fun t => (parsed.next services.cron ⟨t, none⟩).instant } := by
  rw [define] at accepted
  split at accepted
  · cases accepted
  rename_i valid
  simp only [not_or, Nat.not_lt, Bool.not_eq_false] at valid
  split at accepted
  · cases accepted
  rename_i named
  split at accepted
  · cases accepted
  split at accepted
  · cases accepted
  split at accepted
  · cases accepted
  rename_i settings applied
  split at accepted
  · cases accepted
  · cases accepted
  · rename_i parsed read
    rw [definitionFingerprint] at accepted
    cases encoded : services.marshal _ with
    | error err =>
      rw [encoded] at accepted
      cases accepted
    | ok data =>
      rw [encoded] at accepted
      cases accepted
      exact ⟨valid.2.2.1, valid.2.2.2, named, settings, parsed, services.sha256 data,
        apply_options_ok services options defaultSettings settings default_settings_ok applied, read,
        services.digest data, rfl⟩

end

structure Sound (definition : Definition) : Prop where
  name : Job.validName definition.name = true
  jobName : Job.validName definition.jobName = true
  queue : Job.validQueue definition.queue = true
  timeZone : Job.textOk 1 128 definition.timeZone = true
  fingerprint : fingerprintPattern.accepts definition.fingerprint = true
  grace : minute ≤ definition.misfireGrace ∧ definition.misfireGrace ≤ 365 * day ∧ definition.misfireGrace % minute = 0

theorem sound_validates {definition : Definition} (sound : Sound definition) {bytes : Bytes} (plain : Plain bytes)
    (written : definition.expression = text bytes) : validateDefinition definition = none ↔ bytes.length ≤ 256 := by
  have named := Job.valid_name_nonempty sound.name
  have jobNamed := Job.valid_name_nonempty sound.jobName
  have queued := Job.valid_queue_nonempty sound.queue
  have zone := sound.timeZone
  have grace := sound.grace
  have some := List.length_pos_of_ne_nil plain.nonempty
  have size := plain_size plain
  rw [← written] at size
  rw [Job.textOk, Bool.and_eq_true, Bool.and_eq_true, decide_eq_true_eq, decide_eq_true_eq] at zone
  rw [validateDefinition, if_neg (by simp [named, sound.name])]
  constructor
  · intro valid
    apply Nat.not_lt.mp
    intro long
    rw [if_pos (by simp [size, long])] at valid
    cases valid
  · intro short
    rw [if_neg]
    have wide : ¬ 256 < bytes.length := Nat.not_lt.mpr short
    have zoned : definition.timeZone.utf8ByteSize ≠ 0 ∧ ¬ 128 < definition.timeZone.utf8ByteSize := by omega
    have minutes : ¬ definition.misfireGrace < minute ∧ ¬ 365 * day < definition.misfireGrace := by omega
    simp [sound.jobName, sound.queue, sound.fingerprint, size, jobNamed, queued, plain.nonempty, wide, zoned, minutes,
      grace.2.2]

theorem sound_row {definition : Definition} (sound : Sound definition) (cursor : Int) (now : Nat) {bytes : Bytes}
    (plain : Plain bytes) (written : definition.expression = text bytes) :
    (initialRow definition cursor now).check = true ↔ bytes.length ≤ 256 := by
  have grace : 60000 ≤ milliseconds definition.misfireGrace ∧ milliseconds definition.misfireGrace ≤ 31536000000 := by
    have bounds := sound.grace
    unfold milliseconds millisecond
    unfold minute day hour at bounds
    rw [Int.tdiv_eq_ediv_of_nonneg (by omega)]
    omega
  rw [ScheduleRow.check]
  simp [initialRow, sound.name, sound.jobName, sound.queue, sound.timeZone, sound.fingerprint, grace, overlapPolicy,
    Job.optionalTextOk, ScheduleRow.outcomeCheck, written, plain_text_ok plain]

section

variable {S : Type} (services : Services S)

theorem define_sound {fuel : Nat} (enough : 16 ≤ fuel) (unsigned : Unsigned services.cron) {name expression : Bytes}
    {target : Target} {factory : PayloadFactory} {options : List ScheduleOption} {definition : Definition}
    (accepted : define services fuel name expression target factory options = some (.ok definition)) :
    Sound definition ∧ ∃ canonical, Plain canonical ∧ definition.expression = text canonical ∧
      Canonical expression canonical := by
  obtain ⟨short, pattern, named, settings, parsed, data, ok, read, digest, rfl⟩ :=
    define_inv services accepted
  have plainName := accepted_plain pattern rfl (by decide +kernel)
  have validName : Job.validName (text name) = true := by
    rw [Job.validName, pattern, plain_size plainName, Bool.and_true, decide_eq_true_eq]
    exact short
  have canonical := parse_cron_canonical services.cron unsigned enough parsed read
  obtain ⟨job, queue⟩ := target.defined.resolve_left named
  refine ⟨⟨validName, job, queue, ?_, fingerprint_accepted digest, ok.grace⟩, parsed.canonical,
    ⟨canonical.nonempty, canonical.printable⟩, rfl, canonical⟩
  exact (plain_text_ok ok.zone 128).trans (decide_eq_true ok.zoneSize)

def Storable (definition : Definition) : Prop :=
  validateDefinition definition = none ∧ ∀ cursor now, (initialRow definition cursor now).check = true ∧
    ∀ schedules, ∃ inserted, insertRow (initialRow definition cursor now) schedules = .ok inserted

theorem define_storable_iff (fuel : Nat) (enough : 16 ≤ fuel) (unsigned : Unsigned services.cron)
    (name expression : Bytes)
    (target : Target) (factory : PayloadFactory) (options : List ScheduleOption) (definition : Definition)
    (accepted : define services fuel name expression target factory options = some (.ok definition)) :
    Storable definition ↔ ∃ readings, ReadsExpression expression readings ∧ expressionWidth readings ≤ 256 := by
  obtain ⟨sound, bytes, plain, written, canonical⟩ :=
    define_sound services enough unsigned accepted
  have validates := sound_validates sound plain written
  have row := fun cursor now => sound_row sound cursor now plain written
  constructor
  · rintro ⟨valid, _⟩
    obtain ⟨readings, reads, width⟩ := canonical.width
    exact ⟨readings, reads, width ▸ validates.mp valid⟩
  · rintro ⟨readings, reads, short⟩
    rw [← canonical.same readings reads] at short
    refine ⟨validates.mpr short, fun cursor now => ⟨(row cursor now).mpr short, fun schedules => ?_⟩⟩
    have checked : schedulesSchema.check (initialRow definition cursor now) = true := (row cursor now).mpr short
    delta insertRow
    cases result : schedules.insert (initialRow definition cursor now) with
    | ok inserted => exact ⟨inserted, rfl⟩
    | error cause =>
      have primary : cause = .primaryKeyViolation := by
        rw [Table.insert, dif_pos checked] at result
        split at result
        · cases result
          rfl
        · split at result
          · rename_i taken
            obtain ⟨_, ⟨⟩, _⟩ := taken
          · cases result
      rw [primary]
      exact ⟨schedules, rfl⟩

end

def unsignedLibrary : CronLibrary Unit Location where
  parse canonical :=
    if (split (byte ' ') canonical).all (fun field =>
      (split (byte ',') field).all (fun item => item.head? ≠ some (byte '-'))) then .ok (some ())
    else .error (ascii "failed to parse int")
  next := minuteLibrary.next

theorem unsigned_library : Unsigned unsignedLibrary := by
  intro canonical spec parsed field inside item member
  simp only [unsignedLibrary] at parsed
  split at parsed
  · rename_i strict
    have fieldStrict := List.all_eq_true.mp strict field inside
    simpa using List.all_eq_true.mp fieldStrict item member
  · cases parsed

def plainServices : Services Unit :=
  ⟨unsignedLibrary, fun _ => .error [], fun _ => .ok [], fun _ => List.replicate 32 0, fun _ => rfl⟩

def plainTarget : Target := ⟨"tests.payload.v1", ⟨"default", 3, 30 * second, [second]⟩, .inr (by decide +kernel)⟩

def plainFactory : PayloadFactory := ⟨true, dynamicPayloadStrategy, [], none⟩

def plainDefine (expression : Bytes) : Option (Except DefineErr Definition) :=
  define plainServices 16 (ascii "tests.cron.v1") expression plainTarget plainFactory []

theorem accepted_definition (result : Option (Except DefineErr Definition))
    (holds : result.map (fun outcome => outcome.toBool) = some true) :
    ∃ definition, result = some (.ok definition) := by
  match result with
  | some (.ok definition) => exact ⟨definition, rfl⟩
  | some (.error err) => cases holds
  | none => cases holds

theorem define_storable_iff_sample : ∃ definition, plainDefine (ascii "* * * * *") = some (.ok definition) ∧
    Storable definition := by
  obtain ⟨definition, accepted⟩ := accepted_definition (plainDefine (ascii "* * * * *")) (by decide +kernel)
  refine ⟨definition, accepted, ?_⟩
  refine (define_storable_iff plainServices 16 (by decide) unsigned_library _ _ _ _ _ definition accepted).mpr ?_
  have five : fields (ascii "* * * * *") = List.replicate 5 (ascii "*") := by decide +kernel
  have star : ∀ field, Reads field (ascii "*") [⟨.star, none⟩] := fun field => .cons (.plain _ _ .star) .nil
  refine ⟨List.replicate 5 [⟨.star, none⟩], ⟨by rw [five]; rfl, ?_⟩, by decide⟩
  rw [five]
  exact .cons (star _) (.cons (star _) (.cons (star _) (.cons (star _) (.cons (star _) .nil))))

def longExpression : Bytes := join [byte ','] (List.replicate 129 (ascii "0")) ++ ascii " * * * *"

theorem long_expression_rejected : ∃ definition, plainDefine longExpression = some (.ok definition) ∧
    validateDefinition definition =
      some (.message ("schedule/postgres: invalid durable definition " ++ definition.name)) ∧
    (initialRow definition 0 0).check = false := by
  obtain ⟨definition, accepted⟩ := accepted_definition (plainDefine longExpression) (by decide +kernel)
  have refused : (plainDefine longExpression).map (fun result => result.toOption.map (fun definition =>
      (validateDefinition definition, (initialRow definition 0 0).check))) =
      some (some (some (.message "schedule/postgres: invalid durable definition tests.cron.v1"), false)) := by
    decide +kernel
  have named : (plainDefine longExpression).map (fun result => result.toOption.map Definition.name) =
      some (some "tests.cron.v1") := by decide +kernel
  rw [accepted] at refused named
  have name : definition.name = "tests.cron.v1" := Option.some.inj (Option.some.inj named)
  have both := Option.some.inj (Option.some.inj refused)
  exact ⟨definition, accepted, by rw [name]; exact congrArg Prod.fst both, congrArg Prod.snd both⟩

-- The options of a dispatch that the store takes.
structure DispatchOptions (request : Job.EnqueueRequest) : Prop where
  delay : 0 ≤ request.delay ∧ request.delay ≤ 365 * day ∧ (request.delay = 0 ∨ millisecond ≤ request.delay)
  atTime : request.atTime.any isZero = false ∧ (request.atTime = none ∨ request.delay = 0)
  priority : -32768 ≤ request.priority ∧ request.priority ≤ 32767

theorem job_define_bounds {name queue : Bytes} {maxAttempts timeout : Int} {backoff : List Int} {target : Target}
    (made : jobDefine name queue maxAttempts timeout backoff = .ok target) :
    (Job.validName target.name = true ∧ Job.validQueue target.policy.queue = true) ∧
      (1 ≤ target.policy.maxAttempts ∧ target.policy.maxAttempts ≤ 1000) ∧
      (millisecond ≤ target.policy.timeout ∧ target.policy.timeout ≤ day) ∧
      (target.policy.backoff ≠ [] ∧ target.policy.backoff.length ≤ 1000) ∧
      ∀ delay ∈ target.policy.backoff, Job.badBackoff delay = false := by
  have filled : (if backoff = [] then [second, 5 * second, 30 * second] else backoff) ≠ [] := by split <;> simp_all
  simp only [jobDefine] at made
  by_cases named : Job.validName (text (trimSpace name)) = true
  · by_cases queued : Job.validQueue (text (if queue = [] then ascii "default" else queue)) = true
    · rw [dif_pos named, dif_pos queued] at made
      generalize (if maxAttempts = 0 then 3 else maxAttempts) = maxAttempts at made
      generalize (if timeout = 0 then 30 * second else timeout) = timeout at made
      generalize (if backoff = [] then [second, 5 * second, 30 * second] else backoff) = backoff at made filled
      split at made
      · cases made
      split at made
      · cases made
      split at made
      · cases made
      rename_i attempts times entries
      split at made
      · cases made
      rename_i fine
      cases made
      dsimp only
      refine ⟨⟨named, queued⟩, by omega, by omega, ⟨filled, by omega⟩, fun delay member => ?_⟩
      have kept := List.findSome?_eq_none_iff.mp fine delay member
      rw [Job.badBackoff, decide_eq_false_iff_not]
      grind [backoffErr]
    · rw [dif_pos named, dif_neg queued] at made
      cases made
  · rw [dif_neg named] at made
    cases made

theorem defined_job_accepted_iff {name queue : Bytes} {maxAttempts timeout : Int} {backoff : List Int} {target : Target}
    (made : jobDefine name queue maxAttempts timeout backoff = .ok target) (store : Job.Store)
    (request : Job.EnqueueRequest) (named : request.name = target.name)
    (policy : Policy.mk request.queue request.maxAttempts request.timeout request.backoff = target.policy) :
    Job.enqueueInvalid store request = none ↔
      (request.payload ≠ "" ∧ request.payload.utf8ByteSize ≤ store.maxPayload ∧ Json.valid request.payload = true) ∧
      request.dedupKey.utf8ByteSize ≤ Job.maxDedupKeyBytes ∧ DispatchOptions request := by
  obtain ⟨names, attempts, time, entries, delays⟩ := job_define_bounds made
  rw [← policy] at names attempts time entries delays
  rw [← named] at names
  have texts := And.intro (Job.valid_name_nonempty names.1) (Job.valid_queue_nonempty names.2)
  have backoffs : request.backoff.any Job.badBackoff = false := List.any_eq_false.mpr (by simpa using delays)
  have policyBad : Job.badPolicy request = false ↔ DispatchOptions request := by
    rw [Job.badPolicy, decide_eq_false_iff_not]
    have full := List.length_pos_iff.mpr entries.1
    refine ⟨fun fine => ⟨by omega, ⟨?_, ?_⟩, by omega⟩, fun fine => ?_⟩
    · grind
    · cases given : request.atTime <;> grind
    · have := fine.delay
      have := fine.atTime
      have := fine.priority
      cases given : request.atTime <;> grind [hour, day]
  rw [Job.enqueueInvalid, ← policyBad]
  simp only [names, texts, backoffs, beq_iff_eq, String.utf8ByteSize_eq_zero_iff, Bool.or_eq_true, decide_eq_true_eq]
  grind

theorem defined_job_accepted_iff_defaults :
    Job.enqueueInvalid Job.defaultStore ⟨"", "default", "mail.v1", "\x7b\x7d", 0, 0, none, 3, 30 * second,
      [second, 5 * second, 30 * second], ""⟩ = none := by
  have made : jobDefine (ascii "mail.v1") [] 0 0 [] = .ok ⟨"mail.v1", ⟨"default", 3, 30 * second,
      [second, 5 * second, 30 * second]⟩, .inr ⟨by decide, by decide⟩⟩ := rfl
  refine (defined_job_accepted_iff made Job.defaultStore _ rfl rfl).mpr
    ⟨⟨by decide, by decide, by decide⟩, by decide, ?_⟩
  exact ⟨by decide, ⟨rfl, .inl rfl⟩, by decide⟩

end Goforge.Schedule

import Goforge.Lib.GoTime
import Goforge.Lib.Strconv

set_option autoImplicit false

namespace Goforge.Schedule

open GoString GoTime Strconv

def monthNames : List (Bytes × Nat) :=
  [(ascii "jan", 1), (ascii "feb", 2), (ascii "mar", 3), (ascii "apr", 4), (ascii "may", 5), (ascii "jun", 6),
   (ascii "jul", 7), (ascii "aug", 8), (ascii "sep", 9), (ascii "oct", 10), (ascii "nov", 11), (ascii "dec", 12)]

def weekdayNames : List (Bytes × Nat) :=
  [(ascii "sun", 0), (ascii "mon", 1), (ascii "tue", 2), (ascii "wed", 3), (ascii "thu", 4), (ascii "fri", 5),
   (ascii "sat", 6)]

inductive CronField where
  | minute
  | hour
  | dayOfMonth
  | month
  | dayOfWeek
deriving DecidableEq, Repr

def CronField.all : List CronField := [.minute, .hour, .dayOfMonth, .month, .dayOfWeek]

def CronField.minimum : CronField → Nat
  | .minute => 0
  | .hour => 0
  | .dayOfMonth => 1
  | .month => 1
  | .dayOfWeek => 0

def CronField.maximum : CronField → Nat
  | .minute => 59
  | .hour => 23
  | .dayOfMonth => 31
  | .month => 12
  | .dayOfWeek => 7

def CronField.names : CronField → List (Bytes × Nat)
  | .month => monthNames
  | .dayOfWeek => weekdayNames
  | _ => []

def CronField.sundaySeven (field : CronField) : Bool := decide (field = .dayOfWeek)

-- [0-9*/,-]
def numericCron (b : UInt8) : Bool :=
  isDigit b || decide (b = byte '*') || decide (b = byte '/') || decide (b = byte ',') || decide (b = byte '-')

-- [A-Za-z0-9*/,-]
def namedCron (b : UInt8) : Bool := within (byte 'A') (byte 'Z') b || within (byte 'a') (byte 'z') b || numericCron b

def CronField.allowed (field : CronField) (text : Bytes) : Bool :=
  decide (text ≠ []) && text.all (if field.names = [] then numericCron else namedCron)

inductive FieldErr where
  | emptyItem
  | invalidStep (part : Bytes)
  | stepNotPositive
  | invalidRange (base : Bytes)
  | outside (value : Bytes) (minimum maximum : Nat)
  | startExceedsEnd
deriving DecidableEq, Repr

def cronAtom (field : CronField) (value : Bytes) : Except FieldErr Int :=
  match field.names.lookup (toLower value) with
  | some named => .ok named
  | none =>
    match atoi value with
    | none => .error (.outside value field.minimum field.maximum)
    | some parsed =>
      if parsed < field.minimum ∨ parsed > field.maximum then
        .error (.outside value field.minimum field.maximum)
      else .ok parsed

def cronStep (stepParts : List Bytes) : Except FieldErr Int :=
  match stepParts with
  | [_, digits] =>
    match atoi digits with
    | none => .error .stepNotPositive
    | some parsed => if parsed < 1 then .error .stepNotPositive else .ok parsed
  | _ => .ok 1

def cronRange (field : CronField) (stepped : Bool) (base : Bytes) : Except FieldErr (Int × Int) :=
  match split (byte '-') base with
  | [value] =>
    match cronAtom field value with
    | .error err => .error err
    | .ok start => .ok (start, if stepped then (field.maximum : Int) else start)
  | [low, high] =>
    match cronAtom field low with
    | .error err => .error err
    | .ok start =>
      match cronAtom field high with
      | .error err => .error err
      | .ok last => if start > last then .error .startExceedsEnd else .ok (start, last)
  | _ => .error (.invalidRange base)

-- The loop over the weekdays of an item that reaches 7. The sum of two ints
-- wraps around.
def weekdays (fuel : Nat) (current last step : Int) : Option (List Int) :=
  match fuel with
  | 0 => none
  | fuel + 1 =>
    if current ≤ last then
      if current = 7 then some [0]
      else (weekdays fuel ((current + step).bmod (2 ^ 64)) last step).map (fun later => current :: later)
    else some []

-- An item after its step has been read. Without enough fuel for the loop there
-- is no result.
def normalizeBase (fuel : Nat) (field : CronField) (stepped : Bool) (step : Int) (base : Bytes) :
    Option (Except FieldErr (List Bytes)) :=
  let stepText := if stepped then byte '/' :: itoa step else []
  if base = [byte '*'] then some (.ok [byte '*' :: stepText])
  else
    match cronRange field stepped base with
    | .error err => some (.error err)
    | .ok (start, last) =>
      if field.sundaySeven = true ∧ (start = 7 ∨ last = 7) then
        (weekdays fuel start last step).map (fun values => .ok (values.map itoa))
      else
        let rangeText := if (split (byte '-') base).length = 2 then byte '-' :: itoa last else []
        some (.ok [itoa start ++ rangeText ++ stepText])

def normalizeItem (fuel : Nat) (field : CronField) (part : Bytes) : Option (Except FieldErr (List Bytes)) :=
  if part = [] then some (.error .emptyItem)
  else
    let stepParts := split (byte '/') part
    let base := stepParts.headD []
    if 2 < stepParts.length ∨ base = [] then some (.error (.invalidStep part))
    else
      match cronStep stepParts with
      | .error err => some (.error err)
      | .ok step => normalizeBase fuel field (decide (stepParts.length = 2)) step base

def normalizeItems (fuel : Nat) (field : CronField) : List Bytes → Option (Except FieldErr (List Bytes))
  | [] => some (.ok [])
  | part :: rest =>
    match normalizeItem fuel field part with
    | none => none
    | some (.error err) => some (.error err)
    | some (.ok items) => (normalizeItems fuel field rest).map (fun later => later.map (items ++ ·))

def normalizeCronField (fuel : Nat) (field : CronField) (value : Bytes) : Option (Except FieldErr Bytes) :=
  (normalizeItems fuel field (split (byte ',') value)).map (fun items => items.map (join [byte ',']))

example : normalizeCronField 8 .dayOfWeek (ascii "FRI-7/2,mon") = some (.ok (ascii "5,0,1")) := by decide +kernel

inductive CronErr where
  | fieldCount
  | descriptor
  | invalidField (index : Nat)
  | field (index : Nat) (err : FieldErr)
  | parser (err : Bytes)
  | notStandard
  | noOccurrence
deriving DecidableEq, Repr

-- A time.Time: the instant and the location it is shown in, none for UTC.
structure Moment (L : Type) where
  instant : Int
  location : Option L
deriving DecidableEq

def Moment.isZero {L : Type} (t : Moment L) : Bool := GoTime.isZero t.instant

def Moment.utc {L : Type} (t : Moment L) : Moment L := { t with location := none }

def Moment.zero {L : Type} : Moment L := ⟨zeroTime, none⟩

-- The cron library: its parser, none for a schedule that is not a SpecSchedule,
-- and SpecSchedule.Next with the Location that was set.
structure CronLibrary (S L : Type) where
  parse : Bytes → Except Bytes (Option S)
  next : S → Option L → Moment L → Moment L

structure CronExpression (S L : Type) where
  canonical : Bytes
  schedule : Option S
  location : Option L

section

variable {S L : Type} (library : CronLibrary S L)

def normalizeFields (fuel index : Nat) : List (CronField × Bytes) → Option (Except CronErr (List Bytes))
  | [] => some (.ok [])
  | (field, text) :: rest =>
    if field.allowed text = false then some (.error (.invalidField index))
    else
      match normalizeCronField fuel field text with
      | none => none
      | some (.error err) => some (.error (.field index err))
      | some (.ok normalized) =>
        (normalizeFields fuel (index + 1) rest).map (fun later => later.map (normalized :: ·))

-- time.Date(2000, time.January, 1, 0, 0, 0, 0, time.UTC)
def epoch2000 : Int := 946684800 * second

-- No rune past ASCII has a letter of CRON_TZ as its upper case.
def parseCron (fuel : Nat) (value : Bytes) (location : Option L) : Option (Except CronErr (CronExpression S L)) :=
  if (fields value).length ≠ 5 then some (.error .fieldCount)
  else if [byte '@'].isPrefixOf (trimSpace value) ∨ (index (ascii "CRON_TZ") (toUpper value)).isSome then
    some (.error .descriptor)
  else
    match normalizeFields fuel 0 (CronField.all.zip (fields value)) with
    | none => none
    | some (.error err) => some (.error err)
    | some (.ok normalized) =>
      let canonical := join [byte ' '] normalized
      match library.parse canonical with
      | .error err => some (.error (.parser err))
      | .ok none => some (.error .notStandard)
      | .ok (some spec) =>
        if (library.next spec location ⟨epoch2000, none⟩).isZero then some (.error .noOccurrence)
        else some (.ok ⟨canonical, some spec, location⟩)

end

end Goforge.Schedule

import Mathlib.Init

set_option autoImplicit false

namespace GoTime

-- Instants (Int) count nanoseconds from the Unix epoch, durations (Int) count
-- nanoseconds. Both are unbounded; conversions that saturate or truncate say
-- so. A reading of the database clock is a Nat of nanoseconds: the server reads
-- the system clock, which is never before the Unix epoch.

def nanosecond : Int := 1
def millisecond : Int := 1000000
def second : Int := 1000000000
def minute : Int := 60000000000
def hour : Int := 3600000000000
def day : Int := 24 * hour

-- time.Time{}: midnight of January 1 of year 1, in UTC.
def zeroTime : Int := -62135596800 * second

def isZero (t : Int) : Bool := decide (t = zeroTime)

-- Duration.Milliseconds rounds towards zero.
def milliseconds (d : Int) : Int := d.tdiv millisecond

-- ms * interval '1 millisecond', as an amount of nanoseconds.
def interval (ms : Int) : Int := ms * millisecond

-- timestamptz keeps microseconds.
def timestamptz (t : Int) : Int := t / 1000 * 1000

-- Time.Truncate rounds down to a multiple of d since the zero time; for the
-- minute those are the multiples since the Unix epoch.
def truncateMinute (t : Int) : Int := t / minute * minute

-- Time.Sub saturates at the ends of the int64 range of a duration.
def maxDuration : Int := 9223372036854775807
def minDuration : Int := -9223372036854775808

def sub (t u : Int) : Int := max minDuration (min maxDuration (t - u))

def padded (width : Nat) (value : Int) : String :=
  let digits := toString value.natAbs
  (if value < 0 then "-" else "") ++ String.ofList (List.replicate (width - digits.length) '0') ++ digits

-- The year, month and day of a number of days since the Unix epoch, counted in
-- 400-year eras that begin on March 1.
def civil (days : Int) : Int × Int × Int :=
  let shifted := days + 719468
  let dayOfEra := shifted % 146097
  let yearOfEra := (dayOfEra - dayOfEra / 1460 + dayOfEra / 36524 - dayOfEra / 146096) / 365
  let dayOfYear := dayOfEra - (365 * yearOfEra + yearOfEra / 4 - yearOfEra / 100)
  let shiftedMonth := (5 * dayOfYear + 2) / 153
  let month := if shiftedMonth < 10 then shiftedMonth + 3 else shiftedMonth - 9
  let year := yearOfEra + shifted / 146097 * 400
  (if month ≤ 2 then year + 1 else year, month, dayOfYear - (153 * shiftedMonth + 2) / 5 + 1)

-- Format(time.RFC3339) of an instant in UTC.
def rfc3339 (t : Int) : String :=
  let (year, month, dayOfMonth) := civil (t / day)
  let seconds := t % day / second
  padded 4 year ++ "-" ++ padded 2 month ++ "-" ++ padded 2 dayOfMonth ++ "T" ++
    padded 2 (seconds / 3600) ++ ":" ++ padded 2 (seconds / 60 % 60) ++ ":" ++ padded 2 (seconds % 60) ++ "Z"

example : rfc3339 (1709210096 * second) = "2024-02-29T12:34:56Z" := by decide +kernel

-- The days from the Unix epoch to January 1 of a year.
def daysBefore (year : Int) : Int :=
  365 * (year - 1) + (year - 1) / 4 - (year - 1) / 100 + (year - 1) / 400 - 719162

-- The year of a day: the mean length of a year gives it up to one.
def yearOf (days : Int) : Int :=
  let near := (days + 719162) * 400 / 146097 + 1
  if days < daysBefore near then near - 1 else if daysBefore (near + 1) ≤ days then near + 1 else near

example : yearOf (-1) = 1969 ∧ yearOf 0 = 1970 ∧ yearOf (daysBefore 2000) = 2000 := by decide

theorem year_length (year : Int) : daysBefore year + 365 ≤ daysBefore (year + 1) := by
  unfold daysBefore
  omega

theorem days_before_le (year later : Int) (ordered : year ≤ later) :
    daysBefore year + 365 * (later - year) ≤ daysBefore later := by
  obtain ⟨count, rfl⟩ := Int.le.dest ordered
  clear ordered
  induction count with
  | zero => simp
  | succ count ih =>
    have longer := year_length (year + count)
    rw [Int.natCast_succ, ← Int.add_assoc]
    omega

theorem year_spec (days : Int) : daysBefore (yearOf days) ≤ days ∧ days < daysBefore (yearOf days + 1) := by
  unfold yearOf
  dsimp only
  have estimate : (days + 719162) * 400 / 146097 * 146097 ≤ (days + 719162) * 400 ∧
      (days + 719162) * 400 < (days + 719162) * 400 / 146097 * 146097 + 146097 := by omega
  generalize (days + 719162) * 400 / 146097 = before at estimate
  split
  · rename_i early
    refine ⟨?_, by rwa [Int.add_sub_cancel]⟩
    unfold daysBefore at *
    omega
  · split
    · rename_i late
      refine ⟨late, ?_⟩
      unfold daysBefore at *
      omega
    · exact ⟨by omega, by omega⟩

theorem year_of_le (days later : Int) (ordered : days ≤ later) : yearOf days ≤ yearOf later := by
  have first := year_spec days
  have second := year_spec later
  apply Int.not_lt.mp
  intro back
  have apart := days_before_le (yearOf later + 1) (yearOf days) (by omega)
  omega

theorem year_of_days_before (year : Int) : yearOf (daysBefore year) = year := by
  have spec := year_spec (daysBefore year)
  rcases Int.lt_trichotomy (yearOf (daysBefore year)) year with early | same | late
  · have apart := days_before_le (yearOf (daysBefore year) + 1) year (by omega)
    omega
  · exact same
  · have apart := days_before_le year (yearOf (daysBefore year)) (by omega)
    omega

theorem milliseconds_pos {d : Int} (least : millisecond ≤ d) : 1 ≤ milliseconds d := by
  unfold milliseconds millisecond at *
  rw [Int.tdiv_eq_ediv_of_nonneg (by omega)]
  omega

theorem interval_pos {ms : Int} (positive : 1 ≤ ms) : 0 < interval ms := by
  unfold interval millisecond
  omega

theorem reading_not_zero (now : Nat) (after : Int) (nonneg : 0 ≤ after) :
    isZero ((now : Int) + after) = false := by
  unfold isZero zeroTime second
  simp only [decide_eq_false_iff_not]
  omega

end GoTime

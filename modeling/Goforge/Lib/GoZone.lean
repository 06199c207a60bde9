import Goforge.Lib.GoTime

set_option autoImplicit false

namespace GoZone

open GoTime

-- The offset from UTC and the seconds it is in effect for.
structure Zone where
  offset : Int
  start : Int
  stop : Int

-- A time.Location: what lookup returns for a number of seconds since the Unix
-- epoch. No offset is as much as two days.
structure Location where
  lookup : Int → Zone
  bounded : ∀ t, -172800 < (lookup t).offset ∧ (lookup t).offset < 172800

def utc : Location := ⟨fun _ => ⟨0, -9223372036854775808, 9223372036854775807⟩, fun _ => ⟨by decide, by decide⟩⟩

-- Time.In and Time.Year
def Location.year (location : Location) (t : Int) : Int :=
  yearOf ((t / second + (location.lookup (t / second)).offset) / 86400)

-- time.Date(year, time.January, 1, 0, 0, 0, 0, location): the offset at that
-- many seconds in UTC, or the one at the instant it leads to.
def Location.newYear (location : Location) (year : Int) : Int :=
  let unix := daysBefore year * 86400
  let zone := location.lookup unix
  if zone.offset = 0 then unix * second
  else if unix - zone.offset < zone.start ∨ zone.stop ≤ unix - zone.offset then
    (unix - (location.lookup (unix - zone.offset)).offset) * second
  else (unix - zone.offset) * second

-- A search of five years that begins at start, in local year year, and the one from
-- time.Date(year+5, January, 1) leave no local year out: start is no earlier year, or
-- that new year is not begun before time.Date has it.
def Location.Continues (location : Location) (year start : Int) : Prop :=
  year ≤ location.year start ∨ ∀ t, t < location.newYear (year + 5) → location.year t < year + 5

theorem new_year_near (location : Location) (year : Int) :
    ∃ offset, -172800 < offset ∧ offset < 172800 ∧ location.newYear year =
    (daysBefore year * 86400 - offset) * second := by
  rw [Location.newYear]
  split
  · exact ⟨0, by decide, by decide, by rw [Int.sub_zero]⟩
  · split
    · obtain ⟨low, high⟩ := location.bounded
        (daysBefore year * 86400 - (location.lookup (daysBefore year * 86400)).offset)
      exact ⟨_, low, high, rfl⟩
    · obtain ⟨low, high⟩ := location.bounded (daysBefore year * 86400)
      exact ⟨_, low, high, rfl⟩

theorem year_before {location : Location} {year t : Int} (before : t < location.newYear year) :
    location.year t ≤ year := by
  obtain ⟨offset, low, high, near⟩ := new_year_near location year
  obtain ⟨low', high'⟩ := location.bounded (t / second)
  have spec := (year_spec ((t / second + (location.lookup (t / second)).offset) / 86400)).1
  rw [← Location.year] at spec
  apply Int.not_lt.mp
  intro later
  have apart := days_before_le year (location.year t) (by omega)
  rw [near] at before
  unfold second at *
  omega

theorem year_after (location : Location) (year t : Int) (after : location.newYear year - second < t) :
    year - 1 ≤ location.year t := by
  obtain ⟨offset, low, high, near⟩ := new_year_near location year
  obtain ⟨low', high'⟩ := location.bounded (t / second)
  have spec := (year_spec ((t / second + (location.lookup (t / second)).offset) / 86400)).2
  rw [← Location.year] at spec
  apply Int.not_lt.mp
  intro early
  have apart := days_before_le (location.year t + 1) year (by omega)
  rw [near] at after
  unfold second at *
  omega

theorem years_apart (location : Location) (s t : Int) (apart : location.year s + 2 ≤ location.year t) : s < t := by
  obtain ⟨low, high⟩ := location.bounded (s / second)
  obtain ⟨low', high'⟩ := location.bounded (t / second)
  have first := (year_spec ((s / second + (location.lookup (s / second)).offset) / 86400)).2
  have last := (year_spec ((t / second + (location.lookup (t / second)).offset) / 86400)).1
  rw [← Location.year] at first last
  have between := days_before_le (location.year s + 1) (location.year t) (by omega)
  have longer := year_length (location.year s + 1)
  have ordered := days_before_le (location.year s + 1 + 1) (location.year t) (by omega)
  unfold second at *
  omega

theorem utc_year_le (s t : Int) (ordered : s ≤ t) : utc.year s ≤ utc.year t := by
  refine year_of_le _ _ ?_
  change (s / second + 0) / 86400 ≤ (t / second + 0) / 86400
  unfold second
  omega

theorem utc_new_year (year : Int) : utc.year (utc.newYear year) = year := by
  have days : (utc.newYear year / second + 0) / 86400 = daysBefore year := by
    change (daysBefore year * 86400 * second / second + 0) / 86400 = daysBefore year
    unfold second
    omega
  exact (congrArg yearOf days).trans (year_of_days_before year)

end GoZone

import Goforge.Lib.GoZone
import Goforge.Schedule.Cron
import Mathlib.Data.Int.LeastGreatest
import Mathlib.Order.Bounds.Basic

set_option autoImplicit false

namespace Goforge.Schedule

open GoString GoTime GoZone

def zoneOf (location : Option Location) : Location := location.getD utc

section

variable {S : Type} (library : CronLibrary S Location)

-- The loop over every fifth year, from one second before each new year.
def probeYears (spec : S) (location : Option Location) (after : Moment Location) : Nat → Int → Moment Location
  | 0, _ => .zero
  | count + 1, year =>
    let next := library.next spec location ⟨(zoneOf location).newYear year - second, location⟩
    if next.isZero = false ∧ after.instant < next.instant then next.utc
    else probeYears spec location after count (year + 5)

-- The years up to local.Year()+400 are 80 probes.
def CronExpression.next (expression : CronExpression S Location) (after : Moment Location) : Moment Location :=
  match expression.schedule with
  | none => .zero
  | some spec =>
    let next := library.next spec expression.location after
    if next.isZero = false then next.utc
    else probeYears library spec expression.location after 80 ((zoneOf expression.location).year after.instant + 5)

end

def firstSecond (t : Int) : Int := (t / second + 1) * second

def Upcoming (members : Set Int) (t : Int) : Set Int := { m | m ∈ members ∧ t < m }

def InReach (zone : Location) (members : Set Int) (t : Int) : Set Int :=
  { m | m ∈ members ∧ t < m ∧ zone.year m ≤ zone.year (firstSecond t) + 5 }

structure Searches (zone : Location) (members : Set Int) (next : Moment Location → Moment Location) : Prop where
  least : ∀ t, (InReach zone members t.instant).Nonempty → IsLeast (InReach zone members t.instant) (next t).instant
  absent : ∀ t, ¬ (InReach zone members t.instant).Nonempty → (next t).instant = zeroTime

theorem first_second_after (t : Int) : t < firstSecond t := by
  unfold firstSecond second
  omega

theorem first_second_probe (location : Location) (year : Int) :
    firstSecond (location.newYear year - second) = location.newYear year := by
  obtain ⟨offset, _, _, near⟩ := new_year_near location year
  rw [near]
  unfold firstSecond second
  omega

theorem upcoming_least {members : Set Int} {t m : Int} (upcoming : m ∈ Upcoming members t) :
    ∃ x, IsLeast (Upcoming members t) x := by
  obtain ⟨x, member, least⟩ := Int.exists_least_of_bdd (P := (· ∈ Upcoming members t))
    ⟨t, fun x member => Int.le_of_lt member.2⟩ ⟨m, upcoming⟩
  exact ⟨x, member, fun y => least y⟩

-- What the chained searches from t rest on: the next match can be told from no match
-- and lies in no local year that a later match falls back from, and no search begins
-- in an earlier local year than it is meant for.
structure Steady (zone : Location) (members : Set Int) (t : Int) : Prop where
  nonzero : ¬ IsLeast (Upcoming members t) zeroTime
  forward : ∀ x, IsLeast (Upcoming members t) x → ∀ m ∈ members, x ≤ m → zone.year x ≤ zone.year m
  begun : zone.Continues (zone.year t) (firstSecond t)
  probed : ∀ k : Nat, 1 ≤ k → k ≤ 80 → zone.Continues (zone.year t + 5 * k) (zone.newYear (zone.year t + 5 * k))

theorem Steady.of_ordered {zone : Location} {members : Set Int} {t : Int}
    (nonzero : ¬ IsLeast (Upcoming members t) zeroTime) (ordered : ∀ s u, s ≤ u → zone.year s ≤ zone.year u)
    (dated : ∀ year, zone.year (zone.newYear year) = year) : Steady zone members t where
  nonzero := nonzero
  forward := fun x _ m _ later => ordered x m later
  begun := .inl (ordered t _ (Int.le_of_lt (first_second_after t)))
  probed := fun _ _ _ => .inl (dated _).ge

theorem continues_next {zone : Location} {year start x : Int} (continues : zone.Continues year start)
    (close : year - 1 ≤ zone.year start) (past : zone.year start + 5 < zone.year x) : zone.newYear (year + 5) ≤ x := by
  apply Int.not_lt.mp
  intro early
  cases continues with
  | inl reached =>
    have bound := year_before early
    omega
  | inr unbegun =>
    have bound := unbegun x early
    omega

section

variable {zone : Location} {members : Set Int} {search : Moment Location → Moment Location}
  (searches : Searches zone members search)

include searches

theorem search_upcoming (t : Moment Location) (found : (search t).isZero = false) :
    (search t).instant ∈ InReach zone members t.instant := by
  by_cases some : (InReach zone members t.instant).Nonempty
  · exact (searches.least t some).1
  · rw [Moment.isZero, searches.absent t some] at found
    exact absurd found (by decide)

variable {u x : Int} (steady : Steady zone members u) (least : IsLeast (Upcoming members u) x)

include steady least

-- Both kinds of search, from u itself and from a probe: t lies before the next match
-- x after u, and nothing after t is at or before u.
theorem search_found (t : Moment Location) (ahead : t.instant < x) (behind : ∀ m, t.instant < m → u < m)
    (found : (search t).isZero = false) : (search t).instant = x := by
  have reached := search_upcoming searches t found
  have late : x ≤ (search t).instant := least.2 ⟨reached.1, behind _ reached.2.1⟩
  have years := steady.forward x least _ reached.1 late
  have near : x ∈ InReach zone members t.instant := ⟨least.1.1, ahead, years.trans reached.2.2⟩
  exact Int.le_antisymm ((searches.least t ⟨x, near⟩).2 near) late

theorem search_failed (t : Moment Location) (ahead : t.instant < x) (behind : ∀ m, t.instant < m → u < m)
    (failed : (search t).isZero = true) : zone.year (firstSecond t.instant) + 5 < zone.year x := by
  have absent : (search t).instant = zeroTime := of_decide_eq_true failed
  apply Int.not_le.mp
  intro near
  have reach : x ∈ InReach zone members t.instant := ⟨least.1.1, ahead, near⟩
  have first := searches.least t ⟨x, reach⟩
  rw [absent] at first
  have same : x = zeroTime := Int.le_antisymm (least.2 ⟨first.1.1, behind _ first.1.2.1⟩) (first.2 reach)
  exact steady.nonzero (same ▸ least)

end

section

variable {S : Type} (library : CronLibrary S Location) (spec : S) (location : Option Location) {members : Set Int}
  (searches : Searches (zoneOf location) members (library.next spec location))

include searches

theorem probe_years_upcoming (after : Moment Location) (count : Nat) (year : Int)
    (found : (probeYears library spec location after count year).isZero = false) :
    (probeYears library spec location after count year).instant ∈ Upcoming members after.instant := by
  induction count generalizing year with
  | zero => exact absurd found (by simp [probeYears, Moment.isZero, Moment.zero, GoTime.isZero])
  | succ count ih =>
    rw [probeYears] at found ⊢
    split
    case isTrue probed => exact ⟨(search_upcoming searches _ probed.1).1, probed.2⟩
    case isFalse failed =>
      rw [if_neg failed] at found
      exact ih _ found

variable {x : Int} {after : Moment Location} (steady : Steady (zoneOf location) members after.instant)
  (least : IsLeast (Upcoming members after.instant) x)

include steady least

theorem probe_years_successor (count : Nat) (year : Int) (ahead : (zoneOf location).year after.instant + 5 ≤ year)
    (beyond : (zoneOf location).newYear year ≤ x)
    (continues : ∀ k < count, (zoneOf location).Continues (year + 5 * k) ((zoneOf location).newYear (year + 5 * k))) :
    ((probeYears library spec location after count year).isZero = false →
      (probeYears library spec location after count year).instant = x ∧
        (probeYears library spec location after count year).location = none) ∧
    ((probeYears library spec location after count year).isZero = true →
      year + 5 * count - 1 ≤ (zoneOf location).year x) := by
  have probed : (zoneOf location).newYear year - second < x := by
    unfold second
    omega
  induction count generalizing year with
  | zero =>
    refine ⟨?_, ?_⟩
    · intro found
      exact absurd found (by simp [probeYears, Moment.isZero, Moment.zero, GoTime.isZero])
    · intro _
      have reached := year_after (zoneOf location) year x probed
      omega
  | succ count ih =>
    rw [probeYears]
    have behind : ∀ m, (zoneOf location).newYear year - second < m → after.instant < m := by
      intro m later
      have reached := year_after (zoneOf location) year m later
      exact years_apart (zoneOf location) _ _ (by omega)
    generalize moment : (⟨(zoneOf location).newYear year - second, location⟩ : Moment Location) = probe
    have instant : probe.instant = (zoneOf location).newYear year - second := moment ▸ rfl
    rw [← instant] at probed behind
    cases result : (library.next spec location probe).isZero with
    | false =>
      have found := search_found searches steady least probe probed behind result
      rw [if_pos ⟨rfl, found.symm ▸ least.1.2⟩]
      exact ⟨fun _ => ⟨found, rfl⟩, fun failed => absurd (failed.symm.trans result) (by decide)⟩
    | true =>
      have years := search_failed searches steady least probe probed behind result
      rw [instant, first_second_probe] at years
      rw [if_neg (by simp)]
      have first := continues 0 (Nat.succ_pos count)
      rw [Int.natCast_zero, Int.mul_zero, Int.add_zero] at first
      have close := year_after (zoneOf location) year _ (Int.sub_lt_self _ (by decide))
      have next := continues_next first close years
      obtain ⟨found, failed⟩ := ih (year + 5) (by omega) next (by
        intro k below
        have step := continues (k + 1) (by omega)
        rwa [show year + 5 * ((k + 1 : Nat) : Int) = year + 5 + 5 * k by omega] at step) (by
        unfold second
        omega)
      refine ⟨found, fun none => ?_⟩
      have reached := failed none
      omega

theorem next_successor (expression : CronExpression S Location) (parsed : expression.schedule = some spec)
    (located : expression.location = location) :
    ((expression.next library after).isZero = false →
      (expression.next library after).instant = x ∧ (expression.next library after).location = none) ∧
    ((expression.next library after).isZero = true →
      (zoneOf location).year after.instant + 400 < (zoneOf location).year x) := by
  rw [CronExpression.next, parsed, located]
  dsimp only
  cases result : (library.next spec location after).isZero with
  | false =>
    rw [if_pos rfl]
    have found := search_found searches steady least after least.1.2 (fun _ later => later) result
    exact ⟨fun _ => ⟨found, rfl⟩, fun failed => absurd (failed.symm.trans result) (by decide)⟩
  | true =>
    rw [if_neg (by decide)]
    have years := search_failed searches steady least after least.1.2 (fun _ later => later) result
    have close : (zoneOf location).year after.instant - 1 ≤ (zoneOf location).year (firstSecond after.instant) := by
      apply Int.not_lt.mp
      intro back
      have apart := years_apart (zoneOf location) (firstSecond after.instant) after.instant (by omega)
      have later := first_second_after after.instant
      omega
    obtain ⟨found, failed⟩ := probe_years_successor library spec location searches steady least 80 _
      (Int.le_refl _) (continues_next steady.begun close years) (by
        intro k below
        have step := steady.probed (k + 1) (by omega) (by omega)
        rwa [show (zoneOf location).year after.instant + 5 * ((k + 1 : Nat) : Int) =
          (zoneOf location).year after.instant + 5 + 5 * k by omega] at step)
    refine ⟨found, fun none => ?_⟩
    have reached := failed none
    omega

omit steady least in
theorem next_upcoming (expression : CronExpression S Location) (parsed : expression.schedule = some spec)
    (located : expression.location = location) (found : (expression.next library after).isZero = false) :
    (expression.next library after).instant ∈ Upcoming members after.instant := by
  rw [CronExpression.next, parsed, located] at found ⊢
  dsimp only at found ⊢
  split
  case isTrue searched =>
    have reached := search_upcoming searches after searched
    exact ⟨reached.1, reached.2.1⟩
  case isFalse failed =>
    rw [if_neg failed] at found
    exact probe_years_upcoming library spec location searches after _ _ found

end

structure Successive {S : Type} (library : CronLibrary S Location) (expression : CronExpression S Location)
    (members : Set Int) (years : Int → Int) (ok : Moment Location → Prop) : Prop where
  found : ∀ t, ok t → (∃ m ∈ Upcoming members t.instant, years m ≤ years t.instant + 400) →
    (expression.next library t).isZero = false
  least : ∀ t, ok t → (expression.next library t).isZero = false →
    IsLeast (Upcoming members t.instant) (expression.next library t).instant ∧
    (expression.next library t).location = none
  increasing : ∀ t, ok t → (expression.next library t).isZero = false → t.instant < (expression.next library t).instant
  monotone : ∀ t u, ok t → ok u → t.instant ≤ u.instant → (expression.next library t).isZero = false →
    (expression.next library u).isZero = false → (expression.next library t).instant ≤
    (expression.next library u).instant
  complete : ∀ t m, ok t → m ∈ members → t.instant < m → (expression.next library t).isZero = false →
    (expression.next library t).instant ≤ m

def wholeMinutes : Set Int := { m | truncateMinute m = m }

def minuteLibrary : CronLibrary Unit Location :=
  ⟨fun _ => .ok (some ()), fun _ _ t => ⟨truncateMinute t.instant + minute, t.location⟩⟩

def minuteExpression : CronExpression Unit Location := ⟨ascii "* * * * *", some (), none⟩

theorem minute_accepted : parseCron minuteLibrary 16 (ascii "* * * * *") none = some (.ok minuteExpression) := by
  have five : (fields (ascii "* * * * *")).length = 5 := by decide +kernel
  have plain : ¬ ([byte '@'].isPrefixOf (trimSpace (ascii "* * * * *")) ∨
      (index (ascii "CRON_TZ") (toUpper (ascii "* * * * *"))).isSome) := by decide +kernel
  have stars : normalizeFields 16 0 (CronField.all.zip (fields (ascii "* * * * *"))) =
      some (.ok (List.replicate 5 (ascii "*"))) := by decide +kernel
  rw [parseCron, if_neg (not_not.mpr five), if_neg plain, stars]
  rfl

theorem minute_searches (spec : Unit) : Searches (zoneOf none) wholeMinutes (minuteLibrary.next spec none) := by
  have reaches : ∀ t : Int, IsLeast (InReach (zoneOf none) wholeMinutes t) (truncateMinute t + minute) := by
    intro t
    refine ⟨⟨?_, ?_, ?_⟩, ?_⟩
    · change truncateMinute (truncateMinute t + minute) = truncateMinute t + minute
      unfold truncateMinute minute
      omega
    · unfold truncateMinute minute
      omega
    · -- The days differ by one at most, so the years do.
      have spec := year_spec ((firstSecond t / second + 0) / 86400)
      have longer := year_length (yearOf ((firstSecond t / second + 0) / 86400) + 1)
      have ordered := year_of_le ((((truncateMinute t + minute) / second) + 0) / 86400)
        (daysBefore (yearOf ((firstSecond t / second + 0) / 86400) + 1)) (by
          unfold truncateMinute minute firstSecond second at *
          omega)
      rw [year_of_days_before] at ordered
      change yearOf ((((truncateMinute t + minute) / second) + 0) / 86400) ≤
        yearOf ((firstSecond t / second + 0) / 86400) + 5
      omega
    · rintro m ⟨whole, later, _⟩
      change truncateMinute m = m at whole
      unfold truncateMinute minute at *
      omega
  exact ⟨fun t _ => reaches t.instant, fun t none => absurd ⟨_, (reaches t.instant).1⟩ none⟩

end Goforge.Schedule

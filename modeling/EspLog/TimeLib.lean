import EspLog.Support.Calendar
import Mathlib.Tactic.IntervalCases

/-! The Time library: splitting a second count into calendar fields, and the software
clock that follows `millis()`. -/

namespace EspLog.TimeLib
open Calendar

structure TmElements where
  second : Nat
  minute : Nat
  hour : Nat
  wday : Nat
  day : Nat
  month : Nat
  year : Nat
  deriving DecidableEq

/-- The macro `LEAP_YEAR`; the year is counted from 1970. -/
def LEAP_YEAR (year : Nat) : Prop :=
  1970 + year > 0 ∧ (1970 + year) % 4 = 0 ∧ ((1970 + year) % 100 ≠ 0 ∨ (1970 + year) % 400 = 0)

instance (year : Nat) : Decidable (LEAP_YEAR year) := inferInstanceAs (Decidable (_ ∧ _ ∧ _))

def monthDays : List Nat := [31, 28, 31, 30, 31, 30, 31, 31, 30, 31, 30, 31]

/-- The year loop of `breakTime`, from the days before `year`. A 32-bit time stays below
year 137, so the 8-bit loop variable never overflows. -/
def yearLoop (time : Nat) : Nat → Nat → Nat → Nat × Nat
  | 0, year, days => (year, days)
  | fuel + 1, year, days =>
    let length := if LEAP_YEAR year then 366 else 365
    if days + length ≤ time then yearLoop time fuel (year + 1) (days + length) else (year, days)

/-- The month loop of `breakTime`, over the days left in the year. -/
def monthLoop (year : Nat) : Nat → Nat → Nat → Nat × Nat
  | 0, month, time => (month, time)
  | fuel + 1, month, time =>
    let monthLength := if month = 1 then (if LEAP_YEAR year then 29 else 28) else monthDays.getD month 0
    if time ≥ monthLength then monthLoop year fuel (month + 1) (time - monthLength) else (month, time)

def breakTime (timeInput : UInt32) : TmElements :=
  let minutes := timeInput.toNat / 60
  let hours := minutes / 60
  let time := hours / 24
  let (year, days) := yearLoop time (time / 365 + 1) 0 0
  let (month, day) := monthLoop year 12 0 (time - days)
  { second := timeInput.toNat % 60
    minute := minutes % 60
    hour := hours % 24
    wday := (time + 4) % 7 + 1
    day := day + 1
    month := month + 1
    year := year }

def second (t : UInt32) : Nat := (breakTime t).second
def minute (t : UInt32) : Nat := (breakTime t).minute
def hour (t : UInt32) : Nat := (breakTime t).hour
def day (t : UInt32) : Nat := (breakTime t).day
def month (t : UInt32) : Nat := (breakTime t).month
def year (t : UInt32) : Nat := 1970 + (breakTime t).year

section Dates

def date (t : UInt32) : Day := dayOf (t.toNat / 86400)

theorem LEAP_YEAR_iff (year : Nat) : LEAP_YEAR year ↔ Leap (1970 + year) := by
  unfold LEAP_YEAR Leap
  omega

theorem yearLoop_length (year : Nat) : (if LEAP_YEAR year then 366 else 365) = yearLength (1970 + year) := by
  simp only [LEAP_YEAR_iff, yearLength]

theorem yearLoop_spec (time fuel year : Nat) (reached : yearStart year ≤ time)
    (enough : time < yearStart year + 365 * fuel) :
    ∃ last, yearLoop time fuel year (yearStart year) = (last, yearStart last) ∧
      yearStart last ≤ time ∧ time < yearStart (last + 1) := by
  induction fuel generalizing year with
  | zero => omega
  | succ fuel ih =>
    have long : 365 ≤ yearLength (1970 + year) := by
      unfold yearLength
      split <;> omega
    simp only [yearLoop, yearLoop_length]
    by_cases more : yearStart year + yearLength (1970 + year) ≤ time
    · rw [if_pos more]
      exact ih (year + 1) more (by rw [yearStart]; omega)
    · rw [if_neg more]
      exact ⟨year, rfl, reached, by rw [yearStart]; omega⟩

theorem monthLoop_length (year month : Nat) (bound : month < 12) :
    (if month = 1 then (if LEAP_YEAR year then 29 else 28) else monthDays.getD month 0) =
      monthLength (1970 + year) month := by
  simp only [LEAP_YEAR_iff]
  interval_cases month <;> rfl

theorem monthLoop_spec (year inYear fuel month : Nat) (rest : month + fuel = 12)
    (reached : monthStart (1970 + year) month ≤ inYear) (within : inYear < yearLength (1970 + year)) :
    ∃ d : Day, d.year = 1970 + year ∧ d.inYear = inYear ∧
      monthLoop year fuel month (inYear - monthStart (1970 + year) month) = (d.month, d.day) := by
  induction fuel generalizing month with
  | zero =>
    have last : month = 12 := by omega
    rw [last, monthStart_twelve] at reached
    omega
  | succ fuel ih =>
    have bound : month < 12 := by omega
    simp only [monthLoop, monthLoop_length year month bound]
    by_cases more : inYear - monthStart (1970 + year) month ≥ monthLength (1970 + year) month
    · rw [if_pos more]
      have next := ih (month + 1) (by omega) (by rw [monthStart]; omega)
      rwa [monthStart, Nat.sub_add_eq] at next
    · rw [if_neg more]
      exact ⟨⟨1970 + year, month, inYear - monthStart (1970 + year) month, bound, by omega⟩, rfl,
        by simp only [Day.inYear]; omega, rfl⟩

/-- `breakTime` finds the day of the calendar. -/
theorem breakTime_date (t : UInt32) : (breakTime t).year + 1970 = (date t).year ∧
    (breakTime t).month = (date t).month + 1 ∧ (breakTime t).day = (date t).day + 1 := by
  have days : t.toNat / 60 / 60 / 24 = t.toNat / 86400 := by omega
  have enough : t.toNat / 86400 < yearStart 0 + 365 * (t.toNat / 86400 / 365 + 1) := by
    rw [yearStart]
    omega
  obtain ⟨year, found, lower, upper⟩ := yearLoop_spec (t.toNat / 86400) _ 0 (Nat.zero_le _) enough
  rw [yearStart] at upper
  obtain ⟨d, dYear, dInYear, located⟩ := monthLoop_spec year (t.toNat / 86400 - yearStart year) 12 0 rfl
    (Nat.zero_le _) (by omega)
  have number : d.number = t.toNat / 86400 := by
    rw [Day.number, dInYear, dYear, Nat.add_sub_cancel_left]
    omega
  have same : d = date t := by
    rw [eq_dayOf d (by omega), number, date]
  rw [yearStart] at found
  rw [monthStart, Nat.sub_zero] at located
  simp only [breakTime, days, found, located, ← same]
  exact ⟨by omega, trivial, trivial⟩

theorem year_eq (t : UInt32) : year t = (date t).year := by
  rw [← (breakTime_date t).1, year, Nat.add_comm]

theorem month_eq (t : UInt32) : month t = (date t).month + 1 := (breakTime_date t).2.1

theorem day_eq (t : UInt32) : day t = (date t).day + 1 := (breakTime_date t).2.2

theorem minute_eq (t : UInt32) : minute t = t.toNat / 60 % 60 := rfl

theorem hour_eq (t : UInt32) : hour t = t.toNat / 60 / 60 % 24 := rfl

end Dates

section Clock

/-- The static variables behind `now()`; the sync provider is set before the first call. -/
structure Clock where
  sysTime : UInt32
  prevMillis : UInt32
  nextSyncTime : UInt32
  syncInterval : UInt32

/-- The loop of `now()`, one second for every 1000 ms. -/
def catchUp (millis : UInt32) : Nat → Clock → Clock
  | 0, clock => clock
  | fuel + 1, clock =>
    if millis - clock.prevMillis ≥ 1000 then
      catchUp millis fuel { clock with sysTime := clock.sysTime + 1, prevMillis := clock.prevMillis + 1000 }
    else clock

def setTime (t millis : UInt32) (clock : Clock) : Clock :=
  { clock with sysTime := t, nextSyncTime := t + clock.syncInterval, prevMillis := millis }

/-- `now()` at one reading of `millis()`; `unixTime` is what the provider would answer, zero for no answer. -/
def now (millis unixTime : UInt32) (clock : Clock) : Clock :=
  let current := catchUp millis ((millis - clock.prevMillis).toNat / 1000) clock
  if current.nextSyncTime ≤ current.sysTime then
    if unixTime ≠ 0 then setTime unixTime millis current
    else { current with nextSyncTime := current.sysTime + current.syncInterval }
  else current

theorem catchUp_spec (millis : UInt32) (fuel : Nat) (clock : Clock)
    (enough : (millis - clock.prevMillis).toNat < 1000 * (fuel + 1)) :
    catchUp millis fuel clock = { clock with
      sysTime := clock.sysTime + UInt32.ofNat ((millis - clock.prevMillis).toNat / 1000)
      prevMillis := clock.prevMillis + UInt32.ofNat ((millis - clock.prevMillis).toNat / 1000 * 1000) } := by
  induction fuel generalizing clock with
  | zero =>
    have none : (millis - clock.prevMillis).toNat / 1000 = 0 := by omega
    rw [none]
    cases clock
    simp [catchUp]
  | succ fuel ih =>
    rw [catchUp]
    by_cases due : millis - clock.prevMillis ≥ 1000
    · have least : 1000 ≤ (millis - clock.prevMillis).toNat := by
        simpa only [ge_iff_le, UInt32.le_iff_toNat_le, UInt32.reduceToNat] using due
      have left : (millis - (clock.prevMillis + 1000)).toNat = (millis - clock.prevMillis).toNat - 1000 := by
        have regroup : millis - (clock.prevMillis + 1000) = millis - clock.prevMillis - 1000 := by grind
        rw [regroup, UInt32.toNat_sub_of_le _ _ due]
        rfl
      have count : (millis - clock.prevMillis).toNat / 1000 =
          ((millis - clock.prevMillis).toNat - 1000) / 1000 + 1 := by omega
      rw [if_pos due, ih _ (by dsimp only; rw [left]; omega), count]
      dsimp only
      rw [left]
      have seconds (n : Nat) : clock.sysTime + UInt32.ofNat (n + 1) = clock.sysTime + 1 + UInt32.ofNat n := by
        rw [UInt32.ofNat_add, UInt32.add_assoc, UInt32.add_comm (UInt32.ofNat n)]
        rfl
      have millis (n : Nat) : clock.prevMillis + UInt32.ofNat ((n + 1) * 1000) =
          clock.prevMillis + 1000 + UInt32.ofNat (n * 1000) := by
        rw [Nat.add_mul, UInt32.ofNat_add, UInt32.add_assoc, UInt32.add_comm (UInt32.ofNat (n * 1000))]
        rfl
      rw [seconds, millis]
    · have none : (millis - clock.prevMillis).toNat / 1000 = 0 := by
        have small : (millis - clock.prevMillis).toNat < 1000 := by
          simpa only [ge_iff_le, UInt32.le_iff_toNat_le, UInt32.reduceToNat, Nat.not_le] using due
        omega
      rw [if_neg due, none]
      cases clock
      simp

end Clock
end EspLog.TimeLib

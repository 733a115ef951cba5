import Mathlib.Algebra.Order.Ring.Nat
import Mathlib.Tactic.Common

/-! The Gregorian calendar from 1970 on: days with months and days of the month counted
from zero, the following day, and the day count that locates every day. -/

namespace EspLog.Calendar

def Leap (year : Nat) : Prop := year % 4 = 0 ∧ (year % 100 ≠ 0 ∨ year % 400 = 0)

instance (year : Nat) : Decidable (Leap year) := inferInstanceAs (Decidable (_ ∧ _))

def yearLength (year : Nat) : Nat := if Leap year then 366 else 365

def monthLength (year month : Nat) : Nat :=
  match month with
  | 1 => if Leap year then 29 else 28
  | 3 | 5 | 8 | 10 => 30
  | _ => 31

structure Day where
  year : Nat
  month : Nat
  day : Nat
  month_lt : month < 12
  day_lt : day < monthLength year month

theorem monthLength_pos (year month : Nat) : 0 < monthLength year month := by
  unfold monthLength
  repeat' split
  all_goals omega

theorem monthLength_le (year month : Nat) : monthLength year month ≤ 31 := by
  unfold monthLength
  repeat' split
  all_goals omega

@[ext] theorem Day.ext {first second : Day} (years : first.year = second.year)
    (months : first.month = second.month) (days : first.day = second.day) : first = second := by
  cases first
  cases second
  simp_all

def Day.next (d : Day) : Day :=
  if inMonth : d.day + 1 < monthLength d.year d.month then ⟨d.year, d.month, d.day + 1, d.month_lt, inMonth⟩
  else if inYear : d.month + 1 < 12 then ⟨d.year, d.month + 1, 0, inYear, monthLength_pos _ _⟩
  else ⟨d.year + 1, 0, 0, by omega, monthLength_pos _ _⟩

theorem Day.next_cases (d : Day) :
    (d.day + 1 < monthLength d.year d.month ∧ d.next.year = d.year ∧ d.next.month = d.month ∧
      d.next.day = d.day + 1) ∨
    (d.day + 1 = monthLength d.year d.month ∧ d.month + 1 < 12 ∧ d.next.year = d.year ∧
      d.next.month = d.month + 1 ∧ d.next.day = 0) ∨
    (d.day + 1 = monthLength d.year d.month ∧ d.month = 11 ∧ d.next.year = d.year + 1 ∧
      d.next.month = 0 ∧ d.next.day = 0) := by
  have day := d.day_lt
  have month := d.month_lt
  by_cases inMonth : d.day + 1 < monthLength d.year d.month
  · exact .inl ⟨inMonth, by simp [Day.next, inMonth]⟩
  have last : d.day + 1 = monthLength d.year d.month := by omega
  by_cases inYear : d.month + 1 < 12
  · exact .inr (.inl ⟨last, inYear, by simp [Day.next, inMonth, inYear]⟩)
  · exact .inr (.inr ⟨last, by omega, by simp [Day.next, inMonth, inYear]⟩)

theorem Day.next_ne (d : Day) : ¬(d.next.month = d.month ∧ d.next.day = d.day) := by
  rcases d.next_cases with ⟨_, _, month, day⟩ | ⟨_, _, _, month, _⟩ | ⟨_, december, _, month, _⟩ <;> omega

def epoch : Day := ⟨1970, 0, 0, by decide, by decide⟩

/-- The day `n` days after 1 January 1970. -/
def dayOf (n : Nat) : Day := Nat.repeat Day.next n epoch

theorem dayOf_succ (n : Nat) : dayOf (n + 1) = (dayOf n).next := rfl

section Counting

/-- Days from 1970 to the start of the year `1970 + years`. -/
def yearStart : Nat → Nat
  | 0 => 0
  | years + 1 => yearStart years + yearLength (1970 + years)

def monthStart (year : Nat) : Nat → Nat
  | 0 => 0
  | month + 1 => monthStart year month + monthLength year month

theorem monthStart_twelve (year : Nat) : monthStart year 12 = yearLength year := by
  unfold yearLength
  by_cases leap : Leap year
  · simp [monthStart, monthLength, leap]
  · simp [monthStart, monthLength, leap]

theorem monthStart_mono (year : Nat) {first second : Nat} (le : first ≤ second) :
    monthStart year first ≤ monthStart year second := by
  induction second, le using Nat.le_induction with
  | base => exact le_rfl
  | succ second _ ih => exact ih.trans (Nat.le_add_right _ _)

theorem yearStart_mono {first second : Nat} (le : first ≤ second) : yearStart first ≤ yearStart second := by
  induction second, le using Nat.le_induction with
  | base => exact le_rfl
  | succ second _ ih => exact ih.trans (Nat.le_add_right _ _)

def Day.inYear (d : Day) : Nat := monthStart d.year d.month + d.day

theorem Day.inYear_lt (d : Day) : d.inYear < yearLength d.year := by
  have month := monthStart_mono d.year d.month_lt
  rw [monthStart_twelve, monthStart] at month
  have day := d.day_lt
  unfold inYear
  omega

def Day.number (d : Day) : Nat := yearStart (d.year - 1970) + d.inYear

theorem Day.number_next (d : Day) (since : 1970 ≤ d.year) : d.next.number = d.number + 1 := by
  rcases d.next_cases with ⟨_, year, month, day⟩ | ⟨last, _, year, month, day⟩ | ⟨last, december, year, month, day⟩
  · simp only [Day.number, Day.inYear, year, month, day]
    omega
  · simp only [Day.number, Day.inYear, year, month, day, monthStart]
    omega
  · have whole := monthStart_twelve d.year
    rw [monthStart, ← december] at whole
    have years : d.year + 1 - 1970 = (d.year - 1970) + 1 := by omega
    have back : 1970 + (d.year - 1970) = d.year := by omega
    have first : monthStart (d.year + 1) 0 = 0 := rfl
    simp only [Day.number, Day.inYear, year, month, day, years, yearStart, back, first]
    omega

theorem dayOf_since (n : Nat) : 1970 ≤ (dayOf n).year := by
  induction n with
  | zero => exact le_rfl
  | succ n ih =>
    rw [dayOf_succ]
    rcases (dayOf n).next_cases with ⟨_, year, _⟩ | ⟨_, _, year, _⟩ | ⟨_, _, year, _⟩ <;> omega

@[simp] theorem number_dayOf (n : Nat) : (dayOf n).number = n := by
  induction n with
  | zero => rfl
  | succ n ih => rw [dayOf_succ, Day.number_next _ (dayOf_since n), ih]

/-- A monotone sequence of starting points cuts the numbers into disjoint intervals. -/
theorem interval_unique (start : Nat → Nat) (mono : ∀ a b, a ≤ b → start a ≤ start b) (first second n : Nat)
    (lower : start first ≤ n) (upper : n < start (first + 1))
    (lower' : start second ≤ n) (upper' : n < start (second + 1)) : first = second := by
  rcases Nat.lt_trichotomy first second with less | same | more
  · have := mono (first + 1) second less
    omega
  · exact same
  · have := mono (second + 1) first more
    omega

theorem Day.yearStart_le (d : Day) : yearStart (d.year - 1970) ≤ d.number := Nat.le_add_right _ _

theorem Day.lt_yearStart (d : Day) (since : 1970 ≤ d.year) : d.number < yearStart (d.year - 1970 + 1) := by
  have inYear := d.inYear_lt
  have back : 1970 + (d.year - 1970) = d.year := by omega
  rw [yearStart, back, Day.number]
  omega

theorem Day.monthStart_le (d : Day) : monthStart d.year d.month ≤ d.inYear := Nat.le_add_right _ _

theorem Day.lt_monthStart (d : Day) : d.inYear < monthStart d.year (d.month + 1) :=
  Nat.add_lt_add_left d.day_lt _

theorem Day.number_injective (first second : Day) (since : 1970 ≤ first.year) (since' : 1970 ≤ second.year)
    (same : first.number = second.number) : first = second := by
  have lowerYear := second.yearStart_le
  have upperYear := second.lt_yearStart since'
  rw [← same] at lowerYear upperYear
  have years : first.year - 1970 = second.year - 1970 :=
    interval_unique yearStart (fun _ _ le => yearStart_mono le) (first.year - 1970)
      (second.year - 1970) first.number
      first.yearStart_le (first.lt_yearStart since) lowerYear upperYear
  have year : first.year = second.year := by omega
  have inYear : first.inYear = second.inYear := by
    unfold Day.number at same
    rw [years] at same
    omega
  have lower := second.monthStart_le
  have upper := second.lt_monthStart
  rw [← inYear, ← year] at lower upper
  have month : first.month = second.month :=
    interval_unique (monthStart first.year) (fun _ _ le => monthStart_mono first.year le) first.month second.month
      first.inYear first.monthStart_le first.lt_monthStart lower upper
  refine Day.ext year month ?_
  unfold Day.inYear at inYear
  rw [year, month] at inYear
  omega

theorem eq_dayOf (d : Day) (since : 1970 ≤ d.year) : d = dayOf d.number :=
  d.number_injective (dayOf d.number) since (dayOf_since d.number) (number_dayOf d.number).symm

end Counting

end EspLog.Calendar

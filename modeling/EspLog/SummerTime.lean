import EspLog.Restart

/-! The summer time. The closed formula of `summertime_EU` finds the last Sundays of March and October
that the calendar of `breakTime` has, up to the year 2099. -/

namespace EspLog.SummerTime
open Calendar Sketch Functions Effects Loop TimeLib

section Sundays

def lastDay (year month : Nat) : Nat := yearStart (year - 1970) + monthStart year month + 30

def lastSunday (year month : Nat) : Nat := lastDay year month - (lastDay year month + 4) % 7

theorem wday_eq (t : UInt32) : (breakTime t).wday = (t.toNat / 86400 + 4) % 7 + 1 := by
  have days : t.toNat / 60 / 60 / 24 = t.toNat / 86400 := by omega
  rw [← days]
  rfl

theorem number_date (t : UInt32) : (date t).number = t.toNat / 86400 := number_dayOf _

theorem date_since (t : UInt32) : 1970 ≤ (date t).year := dayOf_since _

theorem march_formula (y : Nat) (lower : 1970 ≤ y) (upper : y < 2100) :
    (lastDay y 2 + 4) % 7 = (5 * y / 4 + 4) % 7 := by
  have years : ∀ years < 130, (lastDay (1970 + years) 2 + 4) % 7 = (5 * (1970 + years) / 4 + 4) % 7 := by decide
  have since : 1970 + (y - 1970) = y := by omega
  rw [← since]
  exact years _ (by omega)

theorem october_formula (y : Nat) (lower : 1970 ≤ y) (upper : y < 2100) :
    (lastDay y 9 + 4) % 7 = (5 * y / 4 + 1) % 7 := by
  have years : ∀ years < 130, (lastDay (1970 + years) 9 + 4) % 7 = (5 * (1970 + years) / 4 + 1) % 7 := by decide
  have since : 1970 + (y - 1970) = y := by omega
  rw [← since]
  exact years _ (by omega)

end Sundays

section Switches

/-- Two o'clock on the last Sunday of a month, by the fields and the weekday of `breakTime`. -/
structure Switch (y m : Nat) (c : UInt32) : Prop where
  year : year c = y
  month : month c = m
  sunday : (breakTime c).wday = 1
  last : ∀ other, TimeLib.year other = y → TimeLib.month other = m → (breakTime other).wday = 1 → day other ≤ day c
  time : hour c = 2 ∧ minute c = 0 ∧ second c = 0

theorem number_in_month (t : UInt32) (y m : Nat) (inYear : year t = y) (inMonth : month t = m + 1)
    (long : monthLength y m = 31) :
    t.toNat / 86400 + 30 = lastDay y m + (date t).day ∧ (date t).day ≤ 30 ∧ day t = (date t).day + 1 := by
  rw [year_eq] at inYear
  rw [month_eq] at inMonth
  have number := number_date t
  have bound := (date t).day_lt
  have sameMonth : (date t).month = m := by omega
  rw [inYear, sameMonth, long] at bound
  rw [Day.number, Day.inYear, inYear, sameMonth] at number
  refine ⟨?_, by omega, day_eq t⟩
  unfold lastDay
  omega

theorem switch_exists (y m : Nat) (lower : 1970 ≤ y) (month : m < 12) (long : monthLength y m = 31)
    (bounded : lastDay y m < 47482) :
    ∃ c : UInt32, c.toNat = 86400 * lastSunday y m + 7200 ∧ Switch y (m + 1) c := by
  have behind : 30 ≤ lastDay y m := Nat.le_add_left _ _
  have fits : 86400 * lastSunday y m + 7200 < 2 ^ 32 := by
    unfold lastSunday
    omega
  have value : (UInt32.ofNat (86400 * lastSunday y m + 7200)).toNat = 86400 * lastSunday y m + 7200 := by
    rw [UInt32.toNat_ofNat', Nat.mod_eq_of_lt fits]
  generalize UInt32.ofNat (86400 * lastSunday y m + 7200) = c at value
  have days : c.toNat / 86400 = lastSunday y m := by omega
  let sunday : Day := ⟨y, m, 30 - (lastDay y m + 4) % 7, month, by omega⟩
  have number : sunday.number = c.toNat / 86400 := by
    have same : sunday.number = yearStart (y - 1970) + (monthStart y m + (30 - (lastDay y m + 4) % 7)) := rfl
    rw [same, days, lastSunday]
    unfold lastDay
    omega
  have same : date c = sunday := by
    rw [date, ← number]
    exact (eq_dayOf sunday lower).symm
  have yearly : year c = y := by rw [year_eq, same]
  have monthly : TimeLib.month c = m + 1 := by rw [month_eq, same]
  refine ⟨c, value, yearly, monthly, ?_, ?_, ?_⟩
  · rw [wday_eq, days, lastSunday]
    omega
  · intro other inYear inMonth itsSunday
    obtain ⟨position, _, its⟩ := number_in_month other y m inYear inMonth long
    obtain ⟨here, _, mine⟩ := number_in_month c y m yearly monthly long
    rw [wday_eq] at itsSunday
    rw [its, mine]
    rw [days, lastSunday] at here
    omega
  · have second : TimeLib.second c = c.toNat % 60 := rfl
    rw [hour_eq, minute_eq, second]
    omega

theorem switch_unique (y m : Nat) (long : monthLength y m = 31) (first second : UInt32)
    (one : Switch y (m + 1) first) (other : Switch y (m + 1) second) : first = second := by
  have forth := one.last second other.year other.month other.sunday
  have back := other.last first one.year one.month one.sunday
  obtain ⟨here, _, mine⟩ := number_in_month first y m one.year one.month long
  obtain ⟨there, _, its⟩ := number_in_month second y m other.year other.month long
  have time := one.time
  have itsTime := other.time
  have seconds (t : UInt32) : TimeLib.second t = t.toNat % 60 := rfl
  rw [hour_eq, minute_eq, seconds] at time itsTime
  apply UInt32.toNat.inj
  omega

end Switches

section Rule
variable (c : UInt32)

theorem number_in_year :
    c.toNat / 86400 = yearStart (year c - 1970) + monthStart (year c) (date c).month + (date c).day ∧
    (date c).day < monthLength (year c) (date c).month := by
  have number := number_date c
  have bound := (date c).day_lt
  rw [Day.number, Day.inYear, ← year_eq] at number
  rw [← year_eq] at bound
  exact ⟨by omega, bound⟩

/-- Before March and after October neither switch is near, and between them both are behind or ahead. -/
theorem summertime_days (upper : year c < 2100) :
    summertime_EU (year c) (month c) (day c) (hour c) 1 = true ↔
      86400 * lastSunday (year c) 2 + 7200 ≤ c.toNat ∧ c.toNat < 86400 * lastSunday (year c) 9 + 7200 := by
  have lower : 1970 ≤ year c := by
    rw [year_eq]
    exact date_since c
  have march := march_formula (year c) lower upper
  have october := october_formula (year c) lower upper
  obtain ⟨number, bound⟩ := number_in_year c
  have within := (date c).month_lt
  have hours := hour_eq c
  have starts (first second : Nat) (le : first ≤ second) := monthStart_mono (year c) le
  have third : monthStart (year c) 3 = monthStart (year c) 2 + 31 := rfl
  have tenth : monthStart (year c) 10 = monthStart (year c) 9 + 31 := rfl
  have nine := starts 3 9 (by omega)
  have following : monthStart (year c) ((date c).month + 1) =
      monthStart (year c) (date c).month + monthLength (year c) (date c).month := rfl
  rw [month_eq, day_eq, summertime_EU]
  unfold lastSunday
  unfold lastDay at march october ⊢
  by_cases early : (date c).month < 2
  · have before := starts ((date c).month + 1) 2 early
    rw [if_pos (by omega)]
    exact iff_of_false Bool.false_ne_true (by omega)
  by_cases late : 9 < (date c).month
  · have after := starts 10 (date c).month late
    rw [if_pos (by omega)]
    exact iff_of_false Bool.false_ne_true (by omega)
  rw [if_neg (by omega)]
  by_cases between : 2 < (date c).month ∧ (date c).month < 9
  · have after := starts 3 (date c).month between.1
    have before := starts ((date c).month + 1) 9 between.2
    rw [if_pos (by omega)]
    exact iff_of_true rfl (by omega)
  rw [if_neg (by omega), decide_eq_true_iff]
  obtain spring | autumn : (date c).month = 2 ∨ (date c).month = 9 := by omega
  · rw [spring] at number bound ⊢
    have long : monthLength (year c) 2 = 31 := rfl
    omega
  · rw [autumn] at number bound ⊢
    have long : monthLength (year c) 9 = 31 := rfl
    omega

theorem year_lt (domain : c.toNat < 4102444800) : year c < 2100 := by
  have number := (number_in_year c).1
  by_contra late
  have start := yearStart_mono (show 130 ≤ year c - 1970 by omega)
  have centuries : yearStart 130 = 47482 := by decide +kernel
  omega

/-- Up to the year 2099 the sketch keeps the summer time of the EU rule, and its clock the local time. -/
theorem summertime_eu (domain : c.toNat < 4102444800) :
    (∃ spring, Switch (year c) 3 spring) ∧ (∃ autumn, Switch (year c) 10 autumn) ∧
    ∀ spring autumn, Switch (year c) 3 spring → Switch (year c) 10 autumn →
      (summertime_EU (year c) (month c) (day c) (hour c) 1 = true ↔ spring ≤ c ∧ c < autumn) ∧
      (∀ s, (Setup.setupNtp c s).t = if spring ≤ c ∧ c < autumn then c + 3600 else c) ∧
      ∀ io s, (everyMinute c io s).t = if spring ≤ c ∧ c < autumn then c + 3600 else c := by
  have upper := year_lt c domain
  have lower : 1970 ≤ year c := by
    rw [year_eq]
    exact date_since c
  have next := yearStart_mono (show year c - 1970 + 1 ≤ 130 by omega)
  have centuries : yearStart 130 = 47482 := by decide +kernel
  have length (m : Nat) (inYear : m < 12) (long : monthLength (year c) m = 31) : lastDay (year c) m < 47482 := by
    have whole := monthStart_mono (year c) (show m + 1 ≤ 12 from inYear)
    have back : 1970 + (year c - 1970) = year c := by omega
    rw [monthStart, long, monthStart_twelve] at whole
    rw [yearStart, back] at next
    unfold lastDay
    omega
  obtain ⟨spring, springTime, isSpring⟩ :=
    switch_exists (year c) 2 lower (by decide) rfl (length 2 (by decide) rfl)
  obtain ⟨autumn, autumnTime, isAutumn⟩ :=
    switch_exists (year c) 9 lower (by decide) rfl (length 9 (by decide) rfl)
  refine ⟨⟨spring, isSpring⟩, ⟨autumn, isAutumn⟩, ?_⟩
  intro first second one other
  rw [switch_unique (year c) 2 rfl first spring one isSpring,
    switch_unique (year c) 9 rfl second autumn other isAutumn]
  have rule : summertime_EU (year c) (month c) (day c) (hour c) 1 = true ↔ spring ≤ c ∧ c < autumn := by
    rw [summertime_days c upper, UInt32.le_iff_toNat_le, UInt32.lt_iff_toNat_lt, springTime, autumnTime]
  have shifted : localClock c = if spring ≤ c ∧ c < autumn then c + 3600 else c := if_congr rule rfl rfl
  rw [← shifted]
  refine ⟨rule, fun s => ?_, fun io s => ?_⟩
  · rw [Restart.setupNtp_eq]
  · by_cases tick : minute c % 5 = 0
    · by_cases midnight : Midnight (localClock c)
      · rw [everyMinute_newDay c io s tick midnight]
      · rw [everyMinute_sameDay c io s tick midnight]
    · rw [everyMinute_idle c io s tick]

/-- At noon on 1 July 2019. -/
theorem summertime_in_july :
    (∃ spring, Switch (year 1561978800) 3 spring) ∧ (∃ autumn, Switch (year 1561978800) 10 autumn) ∧
    ∀ spring autumn, Switch (year 1561978800) 3 spring → Switch (year 1561978800) 10 autumn →
      (summertime_EU (year 1561978800) (month 1561978800) (day 1561978800) (hour 1561978800) 1 = true ↔
        spring ≤ 1561978800 ∧ 1561978800 < autumn) ∧
      (∀ s, (Setup.setupNtp 1561978800 s).t = if spring ≤ 1561978800 ∧ 1561978800 < autumn then 1561978800 + 3600
        else 1561978800) ∧
      ∀ io s, (everyMinute 1561978800 io s).t =
        if spring ≤ 1561978800 ∧ 1561978800 < autumn then 1561978800 + 3600 else 1561978800 :=
  summertime_eu 1561978800 (by decide)

end Rule
end EspLog.SummerTime

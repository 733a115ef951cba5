import EspLog.Storage

/-! The day that the last five minutes of a day are credited to: it is the date of the last
tick at 23:55, and that tick comes right before the one at midnight. -/

namespace EspLog.Yesterday
open CText Sketch Functions Websites WebServer Effects Loop Setup TimeLib Calendar

section LocalTime

/-- When `summertime_EU` says yes, with the hours and days compared as it does. -/
def Summer (year month day hour : Nat) : Prop :=
  (3 < month ∧ month < 10) ∨
  (month = 3 ∧ 2 + 24 * (31 - (5 * year / 4 + 4) % 7) ≤ hour + 24 * day) ∨
  (month = 10 ∧ hour + 24 * day < 2 + 24 * (31 - (5 * year / 4 + 1) % 7))

theorem summertime_EU_iff (year month day hour : Nat) :
    summertime_EU year month day hour 1 = true ↔ Summer year month day hour := by
  unfold summertime_EU Summer
  by_cases winter : month < 3 ∨ month > 10
  · rw [if_pos winter]
    simp only [Bool.false_eq_true, false_iff]
    omega
  · rw [if_neg winter]
    by_cases summer : month > 3 ∧ month < 10
    · rw [if_pos summer]
      simp only [true_iff]
      omega
    · rw [if_neg summer]
      simp only [decide_eq_true_eq]
      omega

def SummerAt (c : UInt32) : Prop :=
  Summer (date c).year ((date c).month + 1) ((date c).day + 1) (c.toNat / 60 / 60 % 24)

theorem summerAt_iff (c : UInt32) : summertime_EU (year c) (month c) (day c) (hour c) 1 = true ↔ SummerAt c := by
  rw [summertime_EU_iff, year_eq, month_eq, day_eq, hour_eq, SummerAt]

theorem summerAt_fits (c : UInt32) (summer : SummerAt c) : c.toNat + 3600 < 2 ^ 32 := by
  have bound := c.toNat_lt
  by_contra beyond
  have last : c.toNat / 86400 = (4294944000 : UInt32).toNat / 86400 := by
    have evaluated : (4294944000 : UInt32).toNat / 86400 = 49710 := rfl
    rw [evaluated]
    omega
  have same : date c = date 4294944000 := by rw [date, date, last]
  have february : (date c).month + 1 = 2 := by
    rw [same, ← month_eq]
    decide
  unfold SummerAt Summer at summer
  omega

theorem localClock_summer (c : UInt32) (summer : SummerAt c) : (localClock c).toNat = c.toNat + 3600 := by
  have fits := summerAt_fits c summer
  rw [localClock, if_pos ((summerAt_iff c).mpr summer), UInt32.toNat_add]
  have hour : (3600 : UInt32).toNat = 3600 := rfl
  omega

theorem localClock_winter (c : UInt32) (winter : ¬SummerAt c) : localClock c = c :=
  if_neg fun summer => winter ((summerAt_iff c).mp summer)

theorem midnight_iff (t : UInt32) : Midnight t ↔ t.toNat % 86400 < 60 := by
  rw [Midnight, hour_eq, minute_eq]
  omega

theorem evening_iff (t : UInt32) : Evening t ↔ 86100 ≤ t.toNat % 86400 ∧ t.toNat % 86400 < 86160 := by
  rw [Evening, hour_eq, minute_eq]
  omega

theorem date_next (t later : UInt32) (one : later.toNat / 86400 = t.toNat / 86400 + 1) :
    (date t).next = date later := by
  rw [date, date, one, dayOf_succ]

/-- Within five minutes summer time only changes at two o'clock. -/
theorem summerAt_next (c later : UInt32) (five : later.toNat = c.toNat + 300) : (SummerAt c ↔ SummerAt later) ∨
    later.toNat / 86400 = c.toNat / 86400 ∧ later.toNat / 60 / 60 % 24 = 2 ∧ c.toNat / 60 / 60 % 24 = 1 := by
  by_cases sameDay : later.toNat / 86400 = c.toNat / 86400
  · have same : date later = date c := by rw [date, date, sameDay]
    by_cases hours : later.toNat / 60 / 60 % 24 = c.toNat / 60 / 60 % 24
    · exact .inl (by rw [SummerAt, SummerAt, same, hours])
    have next : later.toNat / 60 / 60 % 24 = c.toNat / 60 / 60 % 24 + 1 := by omega
    by_cases two : later.toNat / 60 / 60 % 24 = 2
    · exact .inr ⟨sameDay, two, by omega⟩
    · have bound : later.toNat / 60 / 60 % 24 < 24 := Nat.mod_lt _ (by decide)
      refine .inl ?_
      unfold SummerAt Summer
      rw [same, next]
      rw [next] at two bound
      omega
  · have next := date_next c later (by omega)
    have hours : c.toNat / 60 / 60 % 24 = 23 := by omega
    have later_hours : later.toNat / 60 / 60 % 24 = 0 := by omega
    have lower := (date c).day_lt
    refine .inl ?_
    unfold SummerAt
    rw [hours, later_hours, ← next]
    unfold Summer
    rcases (date c).next_cases with ⟨_, year, month, day⟩ | ⟨last, _, year, month, day⟩
        | ⟨last, december, year, month, day⟩
    · rw [year, month, day]
      omega
    · have october : (date c).month = 9 → (date c).day + 1 = 31 := by
        intro here
        rw [here] at last
        exact last
      have march : (date c).month = 2 → (date c).day + 1 = 31 := by
        intro here
        rw [here] at last
        exact last
      rw [year, month, day]
      omega
    · omega

theorem summerAt_before_midnight (c later : UInt32) (five : later.toNat = c.toNat + 300)
    (midnight : Midnight (localClock later)) : SummerAt c ↔ SummerAt later := by
  rw [midnight_iff] at midnight
  rcases summerAt_next c later five with same | ⟨_, two, _⟩
  · exact same
  · by_cases summer : SummerAt later
    · rw [localClock_summer later summer] at midnight
      omega
    · rw [localClock_winter later summer] at midnight
      omega

/-- A midnight tick that comes five minutes after another finds that one at 23:55 of the day before. -/
theorem evening_before_midnight (c later : UInt32) (five : later.toNat = c.toNat + 300)
    (midnight : Midnight (localClock later)) :
    Evening (localClock c) ∧ (date (localClock c)).next = date (localClock later) := by
  have same := summerAt_before_midnight c later five midnight
  have clocks : (localClock later).toNat = (localClock c).toNat + 300 := by
    by_cases summer : SummerAt c
    · rw [localClock_summer c summer, localClock_summer later (same.mp summer)]
      omega
    · rw [localClock_winter c summer, localClock_winter later (fun winter => summer (same.mpr winter)), five]
  rw [midnight_iff] at midnight
  constructor
  · rw [evening_iff]
    omega
  · exact date_next _ _ (by omega)

end LocalTime

section Keeps
variable (s : Globals)

theorem deleteRAM_yesterday : (deleteRAM s).yesterday = s.yesterday := by
  simp only [deleteRAM, Globals.setValue, Globals.setPrint]

theorem setupArguments_yesterday (tmp : UInt32) (args rest : Arguments) :
    (setupArguments tmp args rest s).sketch.yesterday = s.yesterday := by
  have keep (s : Globals) : s.yesterday = s.yesterday := rfl
  have join {first second third : Globals} (before : second.yesterday = first.yesterday)
      (after : third.yesterday = second.yesterday) : third.yesterday = first.yesterday := after.trans before
  apply setupArguments_rule (fun before after => after.yesterday = before.yesterday) keep join (fun _ _ => rfl)
  intro entry _ _ s
  apply setupArgument_rule (fun before after => after.yesterday = before.yesterday) keep join
  · exact fun before after stores => stores.yesterday
  · exact fun _ _ => rfl
  · intro _ s
    simp only [clearTable, deleteRAM_yesterday, deleteEEPROM_eq, write2logfile]

theorem handleRequest_yesterday (isFile : Str → Bool) (tmp : UInt32) (request : Request) :
    (handleRequest isFile tmp request s).sketch.yesterday = s.yesterday := by
  apply handleRequest_rule (fun before after => after.yesterday = before.yesterday)
  · exact fun before after files => files.yesterday
  · exact fun args _ s => setupArguments_yesterday s tmp args args

theorem everyMinute_yesterday (c : UInt32) (io : Readings) : (everyMinute c io s).yesterday =
    if minute c % 5 = 0 ∧ Evening (localClock c) then dateOf (localClock c) else s.yesterday := by
  by_cases tick : minute c % 5 = 0
  · by_cases midnight : Midnight (localClock c)
    · have noEvening : ¬(minute c % 5 = 0 ∧ Evening (localClock c)) := by
        intro found
        obtain ⟨_, evening⟩ := found
        rw [midnight_iff] at midnight
        rw [evening_iff] at evening
        omega
      rw [everyMinute_newDay c io s tick midnight, if_neg noEvening]
    · rw [everyMinute_sameDay c io s tick midnight]
      by_cases evening : Evening (localClock c)
      · rw [if_pos evening, if_pos ⟨tick, evening⟩]
      · rw [if_neg evening, if_neg fun both => evening both.2]
  · rw [everyMinute_idle c io s tick, if_neg fun both => tick both.1]

end Keeps
section History

/-- The device beside its last ticks since it started: the date of the one at 23:55, and the clock of the latest. -/
structure History where
  sketch : Globals
  evening : Option Date
  tick : Option UInt32

def follow (history : History) (event : Event) : History :=
  match event with
  | .pulse => { history with sketch := step history.sketch .pulse }
  | .minute c io =>
    if minute c % 5 = 0 then
      { sketch := step history.sketch (.minute c io)
        evening := if Evening (localClock c) then some (dateOf (localClock c)) else history.evening
        tick := some c }
    else { history with sketch := step history.sketch (.minute c io) }
  | .request isFile tmp request boot =>
    if (handleRequest isFile tmp request history.sketch).restart = true then
      ⟨step history.sketch (.request isFile tmp request boot), none, none⟩
    else { history with sketch := step history.sketch (.request isFile tmp request boot) }
  | .restart boot => ⟨step history.sketch (.restart boot), none, none⟩

theorem follow_sketch (history : History) (event : Event) :
    (follow history event).sketch = step history.sketch event := by
  cases event with
  | pulse => rfl
  | restart boot => rfl
  | minute c io =>
    unfold follow
    dsimp only
    split <;> rfl
  | request isFile tmp request boot =>
    unfold follow
    dsimp only
    split <;> rfl

theorem follow_tick (history : History) (c : UInt32) (io : Readings) (tick : minute c % 5 = 0) :
    (follow history (.minute c io)).tick = some c := by
  simp only [follow, if_pos tick]

theorem follow_pulse (history : History) :
    follow history .pulse = { history with sketch := interruptRoutineFalling history.sketch } := rfl

theorem follow_minute (history : History) (c : UInt32) (io : Readings) (tick : minute c % 5 = 0) :
    follow history (.minute c io) = ⟨everyMinute c io history.sketch,
      if Evening (localClock c) then some (dateOf (localClock c)) else history.evening, some c⟩ :=
  if_pos tick

theorem follow_idle (history : History) (c : UInt32) (io : Readings) (idle : minute c % 5 ≠ 0) :
    follow history (.minute c io) = { history with sketch := everyMinute c io history.sketch } :=
  if_neg idle

/-- A date has this month and day, whatever its year. -/
def SameDay (d : Day) (date : Date) : Prop := d.month = date.month ∧ d.day = date.day

/-- The midnight tick credits the day before today. -/
def RightDay (history : History) : Event → Prop
  | .minute c _ => minute c % 5 = 0 → Midnight (localClock c) →
    ∃ before : Day, before.next = date (localClock c) ∧ SameDay before history.sketch.yesterday
  | _ => True

def SecondOfJanuary (t : UInt32) : Prop := (date t).month = 0 ∧ (date t).day = 1

/-- The last tick at 23:55 since the start was on the day before; or there was none, and today
is 2 January. -/
def EveningSeen (history : History) : Event → Prop
  | .minute c _ => minute c % 5 = 0 → Midnight (localClock c) →
    (∃ evening, history.evening = some evening ∧ ∃ before : Day, before.next = date (localClock c) ∧
    SameDay before evening) ∨
    (history.evening = none ∧ SecondOfJanuary (localClock c))
  | _ => True

/-- Every tick but the first comes five minutes after another. -/
def Consecutive (history : History) : Event → Prop
  | .minute c _ => minute c % 5 = 0 → ∀ last, history.tick = some last → c.toNat = last.toNat + 300
  | _ => True

/-- A midnight tick is not the first one since the start, or today is 2 January. -/
def NotFirst (history : History) : Event → Prop
  | .minute c _ =>
    minute c % 5 = 0 → Midnight (localClock c) → history.tick ≠ none ∨ SecondOfJanuary (localClock c)
  | _ => True

/-- The invariant: `yesterday` is the date of the last tick at 23:55. -/
structure Good (history : History) : Prop where
  yesterday : history.sketch.yesterday = history.evening.getD {}
  fresh : history.tick = none → history.evening = none
  latest : ∀ c, history.tick = some c → Evening (localClock c) → history.evening = some (dateOf (localClock c))

theorem good_started (boot : Boot) (flash : ByteMemory.Memory) (spiOk : Bool) (files : Spiffs.Files) :
    Good ⟨Setup.setup boot (powerOn flash spiOk files), none, none⟩ where
  yesterday := Restart.setup_yesterday boot _
  fresh _ := rfl
  latest c none := by cases none

theorem follow_good (history : History) (event : Event) (good : Good history) : Good (follow history event) := by
  cases event with
  | pulse => exact ⟨good.yesterday, good.fresh, good.latest⟩
  | restart boot => exact good_started boot _ _ _
  | request isFile tmp request boot =>
    have kept := handleRequest_yesterday history.sketch isFile tmp request
    by_cases restarts : (handleRequest isFile tmp request history.sketch).restart = true
    · have outcome : follow history (.request isFile tmp request boot) =
          ⟨step history.sketch (.request isFile tmp request boot), none, none⟩ := if_pos restarts
      have started : step history.sketch (.request isFile tmp request boot) =
          Setup.setup boot (handleRequest isFile tmp request history.sketch).sketch.restart := if_pos restarts
      rw [outcome, started]
      exact good_started boot _ _ _
    · have outcome : follow history (.request isFile tmp request boot) =
          { history with sketch := step history.sketch (.request isFile tmp request boot) } := if_neg restarts
      have continued : step history.sketch (.request isFile tmp request boot) =
          (handleRequest isFile tmp request history.sketch).sketch := if_neg restarts
      rw [outcome, continued]
      exact ⟨kept.trans good.yesterday, good.fresh, good.latest⟩
  | minute c io =>
    have date := everyMinute_yesterday history.sketch c io
    by_cases tick : minute c % 5 = 0
    · rw [follow_minute history c io tick]
      by_cases evening : Evening (localClock c)
      · rw [if_pos ⟨tick, evening⟩] at date
        rw [if_pos evening]
        refine ⟨date, fun none => ?_, fun latest same _ => ?_⟩
        · cases none
        · cases same
          rfl
      · rw [if_neg fun both => evening both.2] at date
        rw [if_neg evening]
        refine ⟨date.trans good.yesterday, fun none => ?_, fun latest same now => ?_⟩
        · cases none
        · cases same
          exact absurd now evening
    · rw [if_neg fun both => tick both.1] at date
      rw [follow_idle history c io tick]
      exact ⟨date.trans good.yesterday, good.fresh, good.latest⟩

theorem first_of_january (t : UInt32) :
    (∃ before : Day, before.next = date t ∧ SameDay before {}) ↔ SecondOfJanuary t := by
  constructor
  · intro found
    obtain ⟨before, next, month, day⟩ := found
    have monthZero : before.month = 0 := month
    have dayZero : before.day = 0 := day
    have length : monthLength before.year before.month = 31 := by rw [monthZero]; rfl
    rw [SecondOfJanuary, ← next]
    rcases before.next_cases with ⟨_, _, month, day⟩ | ⟨last, _⟩ | ⟨last, _⟩
    · omega
    · omega
    · omega
  · intro both
    obtain ⟨month, day⟩ := both
    refine ⟨⟨(date t).year, 0, 0, by decide, monthLength_pos _ _⟩, ?_, rfl, rfl⟩
    rcases Day.next_cases ⟨(date t).year, 0, 0, by decide, monthLength_pos _ _⟩ with
      ⟨_, year, month', day'⟩ | ⟨last, _⟩ | ⟨last, _⟩
    · exact Day.ext year (month'.trans month.symm) (day'.trans day.symm)
    · cases last
    · cases last

theorem rightDay_iff_eveningSeen (history : History) (event : Event) (good : Good history) :
    RightDay history event ↔ EveningSeen history event := by
  cases event with
  | minute c io =>
    apply imp_congr Iff.rfl
    apply imp_congr Iff.rfl
    rw [good.yesterday]
    cases seen : history.evening with
    | none => simpa using first_of_january (localClock c)
    | some evening => simp
  | _ => exact Iff.rfl

theorem rightDay_iff_notFirst (history : History) (event : Event) (good : Good history)
    (consecutive : Consecutive history event) : RightDay history event ↔ NotFirst history event := by
  cases event with
  | minute c io =>
    apply imp_congr_right
    intro tick
    apply imp_congr_right
    intro midnight
    cases seen : history.tick with
    | none =>
      rw [good.yesterday, good.fresh seen]
      simpa using first_of_january (localClock c)
    | some last =>
      obtain ⟨evening, next⟩ := evening_before_midnight last c (consecutive tick last seen) midnight
      refine iff_of_true ⟨date (localClock last), next, ?_⟩ (.inl (by simp))
      rw [good.yesterday, good.latest last seen evening]
      exact ⟨(dateOf_month _).symm, (dateOf_day _).symm⟩
  | _ => exact Iff.rfl

/-- The day that midnight credits is right exactly when the last tick at 23:55 since the start
was on the day before. When no tick is left out, that is exactly when midnight is not the first
tick since the start; the zero that `yesterday` starts with stands for 1 January. -/
theorem rightDay_iff (boot : Boot) (flash : ByteMemory.Memory) (spiOk : Bool) (files : Spiffs.Files)
    (events : List Event) :
    (Runs.Along follow RightDay ⟨Setup.setup boot (powerOn flash spiOk files), none, none⟩ events ↔
      Runs.Along follow EveningSeen ⟨Setup.setup boot (powerOn flash spiOk files), none, none⟩ events) ∧
    (Runs.Along follow Consecutive ⟨Setup.setup boot (powerOn flash spiOk files), none, none⟩ events →
      (Runs.Along follow RightDay ⟨Setup.setup boot (powerOn flash spiOk files), none, none⟩ events ↔
        Runs.Along follow NotFirst ⟨Setup.setup boot (powerOn flash spiOk files), none, none⟩ events)) := by
  have start := good_started boot flash spiOk files
  constructor
  · have every (history : History) : Runs.Along follow (fun _ _ => True) history events :=
      Runs.Along.of_forall (fun _ _ => trivial) events history
    exact Runs.along_iff_along (fun history event good _ => follow_good history event good)
      (fun history event good _ => rightDay_iff_eveningSeen history event good) events _ start (every _)
  · exact Runs.along_iff_along (fun history event good _ => follow_good history event good) rightDay_iff_notFirst
      events _ start

/-- Started at 23:50 on 28 February 2019, the device credits the midnight of 1 March rightly. -/
theorem midnight_credits_february :
    Runs.Along follow RightDay
      ⟨Setup.setup ⟨1551397800, fun _ _ => 1551397800, ⟨3300, -60, 0⟩⟩ (powerOn (fun _ => 0xFF) true []),
        none, none⟩
      [.minute 1551398100 ⟨3300, -60, 0⟩, .minute 1551398400 ⟨3300, -60, 0⟩] := by
  have tick : minute 1551398100 % 5 = 0 := by decide
  have early : ¬Midnight (localClock 1551398100) := by decide
  refine ((rightDay_iff _ _ _ _ _).2 ?_).mpr ?_
  · refine ⟨fun _ last none => ?_, fun _ last some => ?_, trivial⟩
    · cases none
    · rw [follow_tick _ _ _ tick] at some
      cases some
      rfl
  · refine ⟨fun _ midnight => absurd midnight early, fun _ _ => .inl ?_, trivial⟩
    rw [follow_tick _ _ _ tick]
    exact Option.some_ne_none _

/-- Started at 23:57 on 28 February 2019, the device credits the midnight of 1 March to 1 January. -/
theorem first_midnight_credits_january :
    ¬Runs.Along follow RightDay
      ⟨Setup.setup ⟨1551398220, fun _ _ => 1551398220, ⟨3300, -60, 0⟩⟩ (powerOn (fun _ => 0xFF) true []),
        none, none⟩
      [.minute 1551398400 ⟨3300, -60, 0⟩] := by
  intro right
  have tick : minute 1551398400 % 5 = 0 := by decide
  have midnight : Midnight (localClock 1551398400) := by decide
  have seen := (rightDay_iff_eveningSeen _ _ (good_started _ _ _ _)).mp right.1 tick midnight
  have march : (date (localClock 1551398400)).month = 2 := by
    rw [← dateOf_month]
    decide
  rcases seen with ⟨_, none, _⟩ | ⟨_, second⟩
  · cases none
  · have january := second.1
    omega

end History
end EspLog.Yesterday

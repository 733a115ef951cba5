import EspLog.Outputs
import EspLog.YearYield
import EspLog.DailyTable

/-! The day yield and the month yield beside the table. Both are kept twice, as a running
total and as counts of the table, and a start, a tick and a midnight set the two separately. -/

namespace EspLog.Yields
open CText Eeprom ExactFloat Sketch Functions Websites WebServer Setup Effects Restart Loop Outputs
  TimeLib Calendar
open Yesterday YearYield DailyTable ByteMemory

section Dates

def stamp (d : Day) : Date := ⟨d.day, d.month, d.year⟩

theorem dateOf_eq (t : UInt32) : dateOf t = stamp (date t) := by
  have month := dateOf_month t
  have day := dateOf_day t
  have year : (dateOf t).year = (date t).year := year_eq t
  rw [stamp, ← month, ← day, ← year]

/-- `evening` is the date of the day before the one of `t`. -/
def Eve (evening : Date) (t : UInt32) : Prop := ∃ before : Day, before.next = date t ∧ evening = stamp before

/-- No local midnight was left out, and a midnight has its tick at 23:55 on the day before. -/
def Processed (history : History) : Event → Prop
  | .minute c _ => minute c % 5 = 0 →
    if Midnight (localClock c) then ∃ evening, history.evening = some evening ∧ Eve evening (localClock c)
    else dateOf (localClock c) = history.sketch.today
  | _ => True

/-- The sketch has a real date, and the last tick at 23:55 was today or on the day before. -/
structure Recent (today : Date) (evening : Option Date) : Prop where
  real : ∃ d : Day, today = stamp d
  seen : ∀ date, evening = some date → ∃ d : Day, date = stamp d ∧ (today = stamp d ∨ today = stamp d.next)

structure Dated (history : History) : Prop extends Good history where
  recent : Recent history.sketch.today history.evening

theorem dated_started (boot : Boot) (flash : Memory) (spiOk : Bool) (files : Spiffs.Files) :
    Dated ⟨Setup.setup boot (powerOn flash spiOk files), none, none⟩ where
  toGood := good_started boot flash spiOk files
  recent := ⟨⟨date (localClock boot.clock), (setup_today boot _).trans (dateOf_eq _)⟩, fun _ none => by cases none⟩

theorem deleteRAM_today (s : Globals) : (deleteRAM s).today = s.today := by
  simp only [deleteRAM, Globals.setValue, Globals.setPrint]

theorem setupArguments_today (tmp : UInt32) (args rest : Arguments) (s : Globals) :
    (setupArguments tmp args rest s).sketch.today = s.today := by
  have join {first second third : Globals} (before : second.today = first.today)
      (after : third.today = second.today) : third.today = first.today := after.trans before
  apply setupArguments_rule (fun before after => after.today = before.today) (fun _ => rfl) join (fun _ _ => rfl)
  intro entry _ _ s
  apply setupArgument_rule (fun before after => after.today = before.today) (fun _ => rfl) join
  · exact fun before after stores => stores.today
  · exact fun _ _ => rfl
  · intro _ s
    simp only [clearTable, deleteRAM_today, deleteEEPROM_eq, write2logfile]

theorem handleRequest_today (isFile : Str → Bool) (tmp : UInt32) (request : Request) (s : Globals) :
    (handleRequest isFile tmp request s).sketch.today = s.today := by
  apply handleRequest_rule (fun before after => after.today = before.today)
  · exact fun before after files => files.today
  · exact fun args _ s => setupArguments_today tmp args args s

theorem dated_follow (history : History) (event : Event) (dated : Dated history)
    (processed : Processed history event) :
    Dated (follow history event) := by
  have good := follow_good history event dated.toGood
  cases event with
  | pulse => exact ⟨good, dated.recent⟩
  | restart boot => exact dated_started boot _ _ _
  | request isFile tmp request boot =>
    have kept := handleRequest_today isFile tmp request history.sketch
    by_cases restarts : (handleRequest isFile tmp request history.sketch).restart = true
    · have outcome : follow history (.request isFile tmp request boot) =
          ⟨step history.sketch (.request isFile tmp request boot), none, none⟩ := if_pos restarts
      rw [outcome, step_request, if_pos restarts]
      exact dated_started boot _ _ _
    · have outcome : follow history (.request isFile tmp request boot) =
          { history with sketch := step history.sketch (.request isFile tmp request boot) } := if_neg restarts
      refine ⟨good, ?_⟩
      rw [outcome, step_request, if_neg restarts]
      exact kept ▸ dated.recent
  | minute c io =>
    have today := everyMinute_today c io history.sketch
    by_cases tick : minute c % 5 = 0
    · refine ⟨good, ?_⟩
      have now := processed tick
      rw [follow_minute history c io tick]
      rw [if_pos tick, dateOf_eq] at today
      dsimp only
      rw [today]
      refine ⟨⟨_, rfl⟩, fun last same => ?_⟩
      by_cases evening : Evening (localClock c)
      · rw [if_pos evening] at same
        cases same
        exact ⟨date (localClock c), dateOf_eq _, .inl rfl⟩
      · rw [if_neg evening] at same
        by_cases midnight : Midnight (localClock c)
        · rw [if_pos midnight] at now
          obtain ⟨eve, found, before, next, stamped⟩ := now
          rw [found] at same
          cases same
          exact ⟨before, stamped, .inr (by rw [next])⟩
        · rw [if_neg midnight, dateOf_eq] at now
          obtain ⟨d, stamped, either⟩ := dated.recent.seen last same
          exact ⟨d, stamped, now ▸ either⟩
    · refine ⟨good, ?_⟩
      rw [if_neg tick] at today
      rw [follow_idle history c io tick]
      dsimp only
      rw [today]
      exact dated.recent

theorem stamp_injective (first second : Day) (same : stamp first = stamp second) : first = second := by
  simp only [stamp, Date.mk.injEq] at same
  exact Day.ext same.2.2 same.2.1 same.1

/-- A midnight credits the day before, and until then the sketch's date was that day, or the
midnight was processed already. -/
theorem midnight_eve (history : History) (c : UInt32) (io : Readings) (dated : Dated history)
    (processed : Processed history (.minute c io)) (tick : minute c % 5 = 0) (midnight : Midnight (localClock c)) :
    ∃ before : Day, before.next = date (localClock c) ∧ history.sketch.yesterday = stamp before ∧
      (history.sketch.today = stamp before ∨ history.sketch.today = stamp before.next) := by
  have now := processed tick
  rw [if_pos midnight] at now
  obtain ⟨evening, found, before, next, stamped⟩ := now
  obtain ⟨d, same, either⟩ := dated.recent.seen evening found
  have day : before = d := stamp_injective _ _ (stamped.symm.trans same)
  refine ⟨before, next, ?_, day ▸ either⟩
  rw [dated.yesterday, found, Option.getD_some, stamped]

end Dates

section Booking
variable (s : Globals)

theorem energyOf_exact (positive : s.impulseProKwh > 0) :
    energyOf s.counter s.impulseProKwh = single (energyWh s) := by
  rw [energyOf, toFloat32_eq_single, energyWh, if_pos positive]

theorem energyWh_le : energyWh s ≤ (s.counter * 1000).toNat := by
  unfold energyWh
  split
  · rw [UInt32.toNat_div]
    exact Nat.div_le_self _ _
  · exact Nat.zero_le _

theorem bookedTable_here (m d : Nat) (fits : (s.tagesCounter m d).toNat + energyWh s < 2 ^ 24) :
    (bookedTable m d s m d).toNat = (s.tagesCounter m d).toNat + energyWh s := by
  unfold bookedTable
  by_cases positive : s.impulseProKwh > 0
  · rw [if_pos positive]
    rw [if_pos ⟨rfl, rfl⟩, energyOf_exact s positive, toFloat32_eq_single, single_add _ _ fits,
      toUInt32_single _ fits, UInt32.toNat_ofNat', Nat.mod_eq_of_lt (by omega)]
  · have none : energyWh s = 0 := by rw [energyWh, if_neg positive]
    rw [if_neg positive, none, Nat.add_zero]

theorem first_pulse_small (s : Globals) (idle : s.counter = 0) : energyWh (interruptRoutineFalling s) ≤ 1000 := by
  have energy := energyWh_le (interruptRoutineFalling s)
  rw [interrupt_counter, idle, zero_add] at energy
  exact energy

theorem toFloat32_injective (first second : UInt32) (small : first.toNat < 2 ^ 24) (small' : second.toNat < 2 ^ 24)
    (same : first.toFloat32 = second.toFloat32) : first = second :=
  UInt32.toNat.inj (single_injective _ _ small small' same)

end Booking

section Day

/-- The day yield is today's count of the table. -/
def DayAgrees (history : History) : Prop :=
  (history.sketch.ausgabe 0).value =
    (history.sketch.tagesCounter history.sketch.today.month history.sketch.today.day).toFloat32

/-- A tick with its midnight and its evening processed, whose day stays exact in a float. -/
def DayAdmitted (history : History) (event : Event) : Prop :=
  match event with
  | .pulse => True
  | .minute c io => Processed history (.minute c io) ∧ (minute c % 5 = 0 →
    (history.sketch.tagesCounter (dateOf (localClock c)).month (dateOf (localClock c)).day).toNat +
      energyWh history.sketch < 2 ^ 24)
  | _ => False

/-- A midnight inside a month finds nothing in the count of the new day. -/
def NextDayEmpty (history : History) : Event → Prop
  | .minute c _ => minute c % 5 = 0 → Midnight (localClock c) → (dateOf (localClock c)).day ≠ 0 →
    history.sketch.tagesCounter (dateOf (localClock c)).month (dateOf (localClock c)).day = 0
  | _ => True

/-- The last day that the clock names while the table is read holds today's count; none counts as zero. -/
def NamesToday (boot : Boot) (memory : Memory) : Prop :=
  (((cells.filter fun cell => Named boot.now cell).getLast?).map (word memory)).getD 0 =
    word memory ((dateOf (localClock boot.clock)).month, (dateOf (localClock boot.clock)).day)

theorem dayAgrees_started (boot : Boot) (flash : Memory) (spiOk : Bool) (files : Spiffs.Files)
    (small : ∀ cell ∈ cells, (word flash cell).toNat < 2 ^ 24) :
    DayAgrees ⟨Setup.setup boot (powerOn flash spiOk files), none, none⟩ ↔ NamesToday boot flash := by
  have month := dateOf_month_lt (localClock boot.clock)
  have day := dateOf_day_lt (localClock boot.clock)
  have here := (mem_cells ((dateOf (localClock boot.clock)).month, (dateOf (localClock boot.clock)).day)).mpr
    ⟨month, day⟩
  have zero : (powerOn flash spiOk files).ausgabe 0 = {} := rfl
  have none : (0 : Float32) = (0 : UInt32).toFloat32 := by decide
  rw [DayAgrees, setup_day, setup_today, setup_table _ _ _ _ month day, zero, NamesToday]
  cases found : (cells.filter fun cell => Named boot.now cell).getLast? with
  | none =>
    rw [Option.map_none, Option.map_none, Option.getD_none, Option.getD_none, none]
    exact ⟨toFloat32_injective _ _ (by decide) (small _ here), fun same => congrArg UInt32.toFloat32 same⟩
  | some cell =>
    have member := (List.mem_filter.mp (List.mem_of_getLast? found)).1
    exact ⟨toFloat32_injective _ _ (small _ member) (small _ here), fun same => congrArg UInt32.toFloat32 same⟩

theorem dayAgrees_follow (history : History) (event : Event) (dated : Dated history)
    (admitted : DayAdmitted history event) (held : DayAgrees history) :
    DayAgrees (follow history event) ↔ NextDayEmpty history event := by
  cases event with
  | pulse => exact iff_of_true held trivial
  | restart boot => exact admitted.elim
  | request isFile tmp request boot => exact admitted.elim
  | minute c io =>
    obtain ⟨processed, fits⟩ := admitted
    unfold DayAgrees at held ⊢
    rw [follow_sketch, step, everyMinute_today, everyMinute_table]
    by_cases tick : minute c % 5 = 0
    · rw [if_pos tick, if_pos tick]
      by_cases midnight : Midnight (localClock c)
      · obtain ⟨before, next, credited, _⟩ := midnight_eve history c io dated processed tick midnight
        have none : (0 : Float32) = (0 : UInt32).toFloat32 := by decide
        rw [everyMinute_midnight_day c io _ tick midnight, if_pos midnight, none]
        by_cases first : (dateOf (localClock c)).day = 0
        · have cleared : rolledTable c history.sketch (dateOf (localClock c)).month
              (dateOf (localClock c)).day = 0 := by
            unfold rolledTable
            rw [if_pos first, if_pos ⟨rfl, by omega⟩]
          exact iff_of_true (congrArg UInt32.toFloat32 cleared.symm) fun _ _ later => absurd first later
        · have kept : rolledTable c history.sketch (dateOf (localClock c)).month (dateOf (localClock c)).day =
              history.sketch.tagesCounter (dateOf (localClock c)).month (dateOf (localClock c)).day := by
            unfold rolledTable
            rw [if_neg first]
            apply bookedTable_elsewhere
            rw [credited, dateOf_eq, ← next]
            exact before.next_ne
          have exact := fits tick
          rw [kept]
          constructor
          · intro same _ _ _
            exact (toFloat32_injective _ _ (by decide) (by omega) same).symm
          · intro empty
            rw [empty tick midnight first]
      · have date : dateOf (localClock c) = history.sketch.today := by
          have now := processed tick
          rwa [if_neg midnight] at now
        refine iff_of_true ?_ fun _ now => absurd now midnight
        have exact := fits tick
        rw [date] at exact
        rw [everyMinute_sameDay_total c io _ 0 (.inl rfl) tick midnight, if_neg midnight, date,
          creditedTotal_exact _ 0 _ held exact, toFloat32_eq_single, bookedTable_here _ _ _ exact]
    · refine iff_of_true ?_ fun now => absurd now tick
      rw [everyMinute_idle_value c io _ 0 (by decide) tick, if_neg tick, if_neg tick, held]

/-- The day yield agrees with the table along a run of ticks exactly when the start takes it from
today's count, and each midnight inside a month finds no count for the new day. -/
theorem dayYield_agrees_iff (boot : Boot) (flash : Memory) (spiOk : Bool) (files : Spiffs.Files)
    (events : List Event) (small : ∀ cell ∈ cells, (word flash cell).toNat < 2 ^ 24)
    (admitted : Runs.Along follow DayAdmitted ⟨Setup.setup boot (powerOn flash spiOk files), none, none⟩ events) :
    Runs.Throughout follow DayAgrees ⟨Setup.setup boot (powerOn flash spiOk files), none, none⟩ events ↔
      NamesToday boot flash ∧
      Runs.Along follow NextDayEmpty ⟨Setup.setup boot (powerOn flash spiOk files), none, none⟩ events := by
  have started := dated_started boot flash spiOk files
  have initial := dayAgrees_started boot flash spiOk files small
  have keeps (history : History) (event : Event) (dated : Dated history) (admitted : DayAdmitted history event) :
      Dated (follow history event) := by
    apply dated_follow history event dated
    cases event with
    | minute c io => exact admitted.1
    | _ => trivial
  have run (agrees : DayAgrees ⟨Setup.setup boot (powerOn flash spiOk files), none, none⟩) :=
    Runs.throughout_iff_along keeps dayAgrees_follow events _ started agrees admitted
  constructor
  · intro through
    have agrees : DayAgrees ⟨Setup.setup boot (powerOn flash spiOk files), none, none⟩ := through.start
    exact ⟨initial.mp agrees, (run agrees).mp through⟩
  · intro both
    obtain ⟨names, along⟩ := both
    exact (run (initial.mpr names)).mpr along

/-- Wherever the CET clock and the local clock have the same date at the start, the start takes
the day yield from today's count. -/
theorem namesToday_of_same_date (boot : Boot) (memory : Memory)
    (same : date boot.clock = date (localClock boot.clock))
    (kept : ∀ j i, month (boot.now j i) = month boot.clock ∧ day (boot.now j i) = day boot.clock) :
    NamesToday boot memory := by
  rw [NamesToday, named_cell boot.now boot.clock kept, dateOf_month, dateOf_day, dateOf_month, dateOf_day, same]
  rfl

theorem namesToday_steady (c : UInt32) (memory : Memory) (same : date c = date (localClock c)) :
    NamesToday (steady c) memory := namesToday_of_same_date (steady c) memory same fun _ _ => ⟨rfl, rfl⟩

theorem processed_evening (s : Globals) (c next : UInt32) (io io' : Readings) (tick : minute c % 5 = 0)
    (evening : Evening (localClock c)) (midnight : Midnight (localClock next))
    (follows : (localClock next).toNat / 86400 = (localClock c).toNat / 86400 + 1)
    (today : s.today = dateOf (localClock c)) :
    follow ⟨interruptRoutineFalling s, none, none⟩ (.minute c io) =
      ⟨everyMinute c io (interruptRoutineFalling s), some (dateOf (localClock c)), some c⟩ ∧
    Processed ⟨interruptRoutineFalling s, none, none⟩ (.minute c io) ∧
    Processed ⟨everyMinute c io (interruptRoutineFalling s), some (dateOf (localClock c)), some c⟩
      (.minute next io') := by
  have early : ¬Midnight (localClock c) := fun midnight => absurd (evening.1.symm.trans midnight.1) (by decide)
  have now : (interruptRoutineFalling s).today = dateOf (localClock c) := (interrupt_today s).trans today
  refine ⟨?_, fun _ => ?_, fun _ => ?_⟩
  · rw [follow_minute _ _ _ tick, if_pos evening]
  · rw [if_neg early]
    exact now.symm
  · rw [if_pos midnight]
    exact ⟨_, rfl, date (localClock c), date_next _ _ follows, dateOf_eq (localClock c)⟩

theorem evening_table (s : Globals) (c : UInt32) (io : Readings) (tick : minute c % 5 = 0)
    (evening : Evening (localClock c)) :
    (everyMinute c io (interruptRoutineFalling s)).tagesCounter =
      bookedTable (dateOf (localClock c)).month (dateOf (localClock c)).day (interruptRoutineFalling s) := by
  have early : ¬Midnight (localClock c) := fun midnight => absurd (evening.1.symm.trans midnight.1) (by decide)
  rw [everyMinute_table, if_pos tick, if_neg early]

/-- Two days of a table without counts. -/
structure TwoDays (s : Globals) (c next : UInt32) : Prop where
  differ : ¬((dateOf (localClock next)).month = (dateOf (localClock c)).month ∧
    (dateOf (localClock next)).day = (dateOf (localClock c)).day)
  empty : s.tagesCounter (dateOf (localClock c)).month (dateOf (localClock c)).day = 0
  later : s.tagesCounter (dateOf (localClock next)).month (dateOf (localClock next)).day = 0

theorem TwoDays.next {s : Globals} {c next : UInt32} (days : TwoDays s c next) (io : Readings)
    (tick : minute c % 5 = 0) (evening : Evening (localClock c)) :
    (everyMinute c io (interruptRoutineFalling s)).tagesCounter (dateOf (localClock next)).month
      (dateOf (localClock next)).day = 0 := by
  rw [evening_table s c io tick evening, bookedTable_elsewhere _ _ _ _ _ days.differ, interrupt_table, days.later]

theorem dayAdmitted_evening (s : Globals) (c next : UInt32) (io io' : Readings) (tick : minute c % 5 = 0)
    (evening : Evening (localClock c)) (midnight : Midnight (localClock next))
    (follows : (localClock next).toNat / 86400 = (localClock c).toNat / 86400 + 1)
    (today : s.today = dateOf (localClock c)) (idle : s.counter = 0) (days : TwoDays s c next) :
    Runs.Along follow DayAdmitted ⟨s, none, none⟩ [.pulse, .minute c io, .minute next io'] ∧
      Runs.Along follow NextDayEmpty ⟨s, none, none⟩ [.pulse, .minute c io, .minute next io'] := by
  have early : ¬Midnight (localClock c) := fun midnight => absurd (evening.1.symm.trans midnight.1) (by decide)
  obtain ⟨after, first, second⟩ := processed_evening s c next io io' tick evening midnight follows today
  have small := first_pulse_small s idle
  have counter := everyMinute_counter c io (interruptRoutineFalling s) tick
  have free := days.next io tick evening
  simp only [Runs.Along, follow_pulse, after]
  refine ⟨⟨trivial, ⟨first, fun _ => ?_⟩, ⟨second, fun _ => ?_⟩, trivial⟩,
    ⟨trivial, fun _ now => absurd now early, fun _ _ _ => free, trivial⟩⟩
  · dsimp only
    rw [interrupt_table, days.empty]
    exact (Nat.add_le_add_left small _).trans_lt (by decide)
  · dsimp only
    rw [free, energyWh_of_idle _ counter]
    decide

/-- A pulse on the evening of 1 January 2019, its tick, and the midnight of 2 January. -/
theorem dayYield_agrees_in_2019 : Runs.Throughout follow DayAgrees
    ⟨Setup.setup (steady 1546386600) (powerOn (fun _ => 0) true []), none, none⟩
    [.pulse, .minute 1546386900 ⟨3300, -60, 0⟩, .minute 1546387200 ⟨3300, -60, 0⟩] := by
  have tick : minute 1546386900 % 5 = 0 := by decide
  have evening : Evening (localClock 1546386900) := by decide
  have midnight : Midnight (localClock 1546387200) := by decide
  have next : (localClock 1546387200).toNat / 86400 = (localClock 1546386900).toNat / 86400 + 1 := by decide
  have today : dateOf (localClock 1546386900) = dateOf (localClock 1546386600) := by decide
  have winter : localClock 1546386600 = 1546386600 := by decide
  have blank (cell : Nat × Nat) : word (fun _ => 0) cell = 0 := rfl
  have empty (t : UInt32) : (Setup.setup (steady 1546386600) (powerOn (fun _ => 0) true [])).tagesCounter
      (dateOf (localClock t)).month (dateOf (localClock t)).day = 0 :=
    setup_table (steady 1546386600) (powerOn (fun _ => 0) true []) _ _ (dateOf_month_lt _) (dateOf_day_lt _)
  have days : TwoDays (Setup.setup (steady 1546386600) (powerOn (fun _ => 0) true [])) 1546386900 1546387200 :=
    ⟨by decide, empty _, empty _⟩
  obtain ⟨admitted, free⟩ := dayAdmitted_evening _ _ _ ⟨3300, -60, 0⟩ ⟨3300, -60, 0⟩ tick evening midnight next
    ((setup_today (steady 1546386600) _).trans today.symm) (setup_counter (steady 1546386600) _) days
  apply (dayYield_agrees_iff (steady 1546386600) (fun _ => 0) true [] _ ?_ admitted).mpr
  · exact ⟨namesToday_steady _ _ (congrArg date winter.symm), free⟩
  · intro cell _
    rw [blank]
    decide

/-- A flash that holds 5 Wh for the first of July. -/
def firstOfJuly : Memory := write32 (fun _ => 0) (eeAddress 6 0) 5

/-- Started at 0:30 in the night to 2 July 2019, summer time, the device shows the yield of 1 July. -/
theorem yesterday_shown_in_july : ¬Runs.Throughout follow DayAgrees
    ⟨Setup.setup (steady 1562023800) (powerOn firstOfJuly true []), none, none⟩ [] := by
  intro agrees
  have first : dateOf 1562023800 = ⟨0, 6, 2019⟩ := by decide
  have second : dateOf (localClock 1562023800) = ⟨1, 6, 2019⟩ := by decide
  have small : ∀ cell ∈ cells, (word firstOfJuly cell).toNat < 2 ^ 24 := by
    intro cell member
    rw [firstOfJuly, word_stored 6 0 5 (by decide) cell ((mem_cells cell).mp member).2]
    split <;> decide
  have names := (dayAgrees_started (steady 1562023800) firstOfJuly true [] small).mp agrees
  have named (c : UInt32) := named_cell (steady c).now c fun _ _ => ⟨rfl, rfl⟩
  rw [NamesToday, named, first, steady, second] at names
  revert names
  decide

end Day

section Month
open Finset

def rowSum (table : Nat → Nat → UInt32) (m : Nat) : Nat := ∑ d ∈ range 31, (table m d).toNat

theorem count_le_rowSum (table : Nat → Nat → UInt32) (m d : Nat) (day : d < 31) :
    (table m d).toNat ≤ rowSum table m :=
  single_le_sum (f := fun d => (table m d).toNat) (fun _ _ => Nat.zero_le _) (mem_range.mpr day)

theorem rowSum_booked (s : Globals) (m d : Nat) (day : d < 31)
    (fits : rowSum s.tagesCounter m + energyWh s < 2 ^ 24) :
    rowSum (bookedTable m d s) m = rowSum s.tagesCounter m + energyWh s := by
  have count := count_le_rowSum s.tagesCounter m d day
  have each (i : Nat) : (bookedTable m d s m i).toNat = (s.tagesCounter m i).toNat + if i = d then energyWh s
      else 0 := by
    by_cases here : i = d
    · rw [if_pos here, here, bookedTable_here s m d (by omega)]
    · rw [if_neg here, Nat.add_zero, bookedTable_elsewhere m d s m i fun same => here same.2]
  calc rowSum (bookedTable m d s) m
      = ∑ i ∈ range 31, ((s.tagesCounter m i).toNat + if i = d then energyWh s else 0) :=
        sum_congr rfl fun i _ => each i
    _ = rowSum s.tagesCounter m + energyWh s := by
        rw [sum_add_distrib, sum_ite_eq', if_pos (mem_range.mpr day), rowSum]

/-- The month yield is the sum of this month's counts. -/
def MonthAgrees (s : Globals) : Prop := (s.ausgabe 1).value = single (rowSum s.tagesCounter s.today.month)

def MonthFits (s : Globals) : Prop := rowSum s.tagesCounter s.today.month < 2 ^ 24

/-- A tick with its midnight and its evening processed, and sums that stay exact in a float. -/
def MonthAdmitted (history : History) (event : Event) : Prop :=
  match event with
  | .pulse => True
  | .minute c io => Processed history (.minute c io) ∧ (minute c % 5 = 0 →
    rowSum history.sketch.tagesCounter history.sketch.today.month + energyWh history.sketch < 2 ^ 24)
  | .request isFile tmp request boot =>
    (handleRequest isFile tmp request history.sketch).restart = true →
      MonthFits (step history.sketch (.request isFile tmp request boot))
  | .restart boot => MonthFits (step history.sketch (.restart boot))

theorem monthAgrees_started (boot : Boot) (flash : Memory) (spiOk : Bool) (files : Spiffs.Files)
    (fits : MonthFits (Setup.setup boot (powerOn flash spiOk files))) :
    MonthAgrees (Setup.setup boot (powerOn flash spiOk files)) := by
  have month := dateOf_month_lt (localClock boot.clock)
  have zero : ((powerOn flash spiOk files).ausgabe 1).value = single 0 := by
    have none : (0 : Float32) = single 0 := by decide
    exact none
  have row : ((cells.filter fun cell => cell.1 = (dateOf (localClock boot.clock)).month).map fun cell =>
      (word flash cell).toNat).sum =
      rowSum (Setup.setup boot (powerOn flash spiOk files)).tagesCounter
        (dateOf (localClock boot.clock)).month := by
    have sum (count : Nat → Nat) : ((List.range 31).map count).sum = ∑ d ∈ range 31, count d := rfl
    have same (d : Nat) (inMonth : d ∈ range 31) :=
      setup_table boot (powerOn flash spiOk files) _ d month (mem_range.mp inMonth)
    rw [cells_month _ month, List.map_map, sum, rowSum]
    exact sum_congr rfl fun d inMonth => congrArg UInt32.toNat (same d inMonth).symm
  have memory : (powerOn flash spiOk files).eeprom.flash = flash := rfl
  rw [MonthFits, setup_today] at fits
  rw [MonthAgrees, setup_today, setup_month, memory, zero, Runs.run, foldl_single _ _ _ _ (by omega), row,
    Nat.zero_add]

theorem monthAgrees_minute (history : History) (c : UInt32) (io : Readings) (dated : Dated history)
    (admitted : MonthAdmitted history (.minute c io)) (held : MonthAgrees history.sketch) :
    MonthAgrees (everyMinute c io history.sketch) := by
  obtain ⟨processed, fits⟩ := admitted
  unfold MonthAgrees at held ⊢
  rw [everyMinute_today, everyMinute_table]
  by_cases tick : minute c % 5 = 0
  · have exact := fits tick
    rw [if_pos tick, if_pos tick]
    by_cases midnight : Midnight (localClock c)
    · obtain ⟨before, next, credited, either⟩ := midnight_eve history c io dated processed tick midnight
      rw [everyMinute_midnight_month c io _ tick midnight, if_pos midnight]
      by_cases first : (dateOf (localClock c)).day = 0
      · have none : (0 : Float32) = single 0 := by decide
        have cleared : rowSum (rolledTable c history.sketch) (dateOf (localClock c)).month = 0 := by
          apply sum_eq_zero
          intro d inMonth
          have inRow : d ≤ anzahlTage := Nat.le_of_lt_succ (mem_range.mp inMonth)
          unfold rolledTable
          rw [if_pos first, if_pos ⟨rfl, inRow⟩]
          rfl
        rw [if_pos first, cleared, none]
      · -- the credited day, the sketch's date and the new day are all in one month
        have inside : before.next.day ≠ 0 := by rwa [dateOf_day, ← next] at first
        have month : before.next.month = before.month := by
          rcases before.next_cases with ⟨_, _, same, _⟩ | ⟨_, _, _, _, day⟩ | ⟨_, _, _, _, day⟩
          · exact same
          · exact absurd day inside
          · exact absurd day inside
        have today : history.sketch.today.month = before.month := by
          rcases either with same | same
          · rw [same, stamp]
          · rw [same, stamp, month]
        have now : (dateOf (localClock c)).month = before.month := by rw [dateOf_month, ← next, month]
        have rolled : rolledTable c history.sketch = bookedTable before.month before.day history.sketch := by
          unfold rolledTable
          rw [if_neg first, credited]
          rfl
        rw [today] at held exact
        rw [if_neg first, now, rolled, creditedTotal_exact _ 1 _ held exact,
          rowSum_booked _ _ _ (before.day_lt.trans_le (Calendar.monthLength_le _ _)) exact]
    · have date : dateOf (localClock c) = history.sketch.today := by
        have now := processed tick
        rwa [if_neg midnight] at now
      rw [everyMinute_sameDay_total c io _ 1 (.inr (.inl rfl)) tick midnight, if_neg midnight,
        creditedTotal_exact _ 1 _ held exact, ← date]
      rw [← date] at exact
      rw [rowSum_booked _ _ _ (dateOf_day_lt (localClock c)) exact]
  · rw [everyMinute_idle_value c io _ 1 (by decide) tick, if_neg tick, if_neg tick, held]

theorem deleteRAM_table (s : Globals) : (deleteRAM s).tagesCounter = fun _ _ => 0 := by
  simp only [deleteRAM, Globals.setValue, Globals.setPrint]

theorem deleteRAM_month (s : Globals) : ((deleteRAM s).ausgabe 1).value = 0 := by
  unfold deleteRAM
  dsimp only
  rw [setPrint_value, setValue_of_ne _ _ _ _ (by decide), setPrint_value, setValue_self]

/-- A request changes the month yield and the table only together, when it clears both. -/
theorem monthAgrees_request (isFile : Str → Bool) (tmp : UInt32) (request : Request) (s : Globals)
    (held : MonthAgrees s) : MonthAgrees (handleRequest isFile tmp request s).sketch := by
  have unchanged (before after : Globals) (yield : after.ausgabe 1 = before.ausgabe 1)
      (table : after.tagesCounter = before.tagesCounter) (today : after.today = before.today)
      (agrees : MonthAgrees before) : MonthAgrees after := by
    rwa [MonthAgrees, yield, table, today]
  have cleared (s : Globals) : MonthAgrees (clearTable s) := by
    have none : (0 : Float32) = single 0 := by decide
    have zero (m : Nat) : rowSum (fun _ _ => 0) m = 0 := sum_eq_zero fun _ _ => rfl
    rw [MonthAgrees, clearTable, deleteRAM_table, deleteRAM_month, zero, none]
  revert held
  apply handleRequest_rule (fun before after => MonthAgrees before → MonthAgrees after)
  · exact fun before after files => unchanged _ _ (congrFun files.ausgabe 1) files.table files.today
  · intro args _ s
    apply setupArguments_rule (fun before after => MonthAgrees before → MonthAgrees after)
    · exact fun _ => id
    · exact fun first second held => second (first held)
    · exact fun _ _ => id
    · intro entry _ _ s
      apply setupArgument_rule (fun before after => MonthAgrees before → MonthAgrees after)
      · exact fun _ => id
      · exact fun first second held => second (first held)
      · exact fun before after stores => unchanged _ _ (stores.outputs 1 (by decide)) stores.table stores.today
      · exact fun _ _ => id
      · exact fun _ s _ => cleared s

theorem monthAgrees_follow (history : History) (event : Event) (dated : Dated history)
    (admitted : MonthAdmitted history event) (held : MonthAgrees history.sketch) :
    MonthAgrees (follow history event).sketch := by
  rw [follow_sketch]
  cases event with
  | pulse => exact held
  | minute c io => exact monthAgrees_minute history c io dated admitted held
  | restart boot => exact monthAgrees_started boot _ _ _ admitted
  | request isFile tmp request boot =>
    rw [step_request]
    split
    · rename_i restarts
      have fits := admitted restarts
      rw [step_request, if_pos restarts] at fits
      exact monthAgrees_started boot _ _ _ fits
    · exact monthAgrees_request isFile tmp request history.sketch held

/-- The month yield is the sum of this month's counts, at the start and after every event. -/
theorem monthYield_agrees (boot : Boot) (flash : Memory) (spiOk : Bool) (files : Spiffs.Files)
    (events : List Event) (fits : MonthFits (Setup.setup boot (powerOn flash spiOk files)))
    (admitted : Runs.Along follow MonthAdmitted ⟨Setup.setup boot (powerOn flash spiOk files), none, none⟩
      events) :
    Runs.Throughout follow (fun history => MonthAgrees history.sketch)
      ⟨Setup.setup boot (powerOn flash spiOk files), none, none⟩ events := by
  have keeps (history : History) (event : Event) (sound : Dated history ∧ MonthAgrees history.sketch)
      (admitted : MonthAdmitted history event) :
      Dated (follow history event) ∧ MonthAgrees (follow history event).sketch := by
    refine ⟨dated_follow history event sound.1 ?_, monthAgrees_follow history event sound.1 admitted sound.2⟩
    cases event with
    | minute c io => exact admitted.1
    | _ => trivial
  have start := dated_started boot flash spiOk files
  exact (Runs.throughout_of_invariant keeps events _ ⟨start, monthAgrees_started boot flash spiOk files fits⟩
    admitted).mono
    fun _ sound => sound.2

theorem monthAdmitted_evening (s : Globals) (c next : UInt32) (io io' : Readings) (tick : minute c % 5 = 0)
    (evening : Evening (localClock c)) (midnight : Midnight (localClock next))
    (follows : (localClock next).toNat / 86400 = (localClock c).toNat / 86400 + 1)
    (today : s.today = dateOf (localClock c)) (idle : s.counter = 0)
    (empty : rowSum s.tagesCounter (dateOf (localClock c)).month = 0) :
    Runs.Along follow MonthAdmitted ⟨s, none, none⟩ [.pulse, .minute c io, .minute next io'] := by
  have day := dateOf_day_lt (localClock c)
  have fits : rowSum (interruptRoutineFalling s).tagesCounter (dateOf (localClock c)).month +
      energyWh (interruptRoutineFalling s) < 2 ^ 24 := by
    rw [interrupt_table, empty, Nat.zero_add]
    exact (first_pulse_small s idle).trans_lt (by decide)
  have now : (interruptRoutineFalling s).today = dateOf (localClock c) := (interrupt_today s).trans today
  have later := everyMinute_today c io (interruptRoutineFalling s)
  have counter := everyMinute_counter c io (interruptRoutineFalling s) tick
  obtain ⟨after, first, second⟩ := processed_evening s c next io io' tick evening midnight follows today
  rw [if_pos tick] at later
  simp only [Runs.Along, follow_pulse, after]
  refine ⟨trivial, ⟨first, fun _ => ?_⟩, ⟨second, fun _ => ?_⟩, trivial⟩
  · dsimp only
    rwa [now]
  · have sum := rowSum_booked (interruptRoutineFalling s) _ _ day fits
    have none := energyWh_of_idle _ counter
    dsimp only
    rw [later, evening_table s c io tick evening, none, sum, Nat.add_zero]
    exact fits

/-- A pulse on the evening of 28 February 2019, its tick, and the midnight of 1 March. -/
theorem monthYield_agrees_in_march : Runs.Throughout follow (fun history => MonthAgrees history.sketch)
    ⟨Setup.setup (steady 1551397800) (powerOn (fun _ => 0) true []), none, none⟩
    [.pulse, .minute 1551398100 ⟨3300, -60, 0⟩, .minute 1551398400 ⟨3300, -60, 0⟩] := by
  have tick : minute 1551398100 % 5 = 0 := by decide
  have evening : Evening (localClock 1551398100) := by decide
  have midnight : Midnight (localClock 1551398400) := by decide
  have next : (localClock 1551398400).toNat / 86400 = (localClock 1551398100).toNat / 86400 + 1 := by decide
  have today : dateOf (localClock 1551398100) = dateOf (localClock 1551397800) := by decide
  have month := dateOf_month_lt (localClock 1551398100)
  have sum : rowSum (Setup.setup (steady 1551397800) (powerOn (fun _ => 0) true [])).tagesCounter
      (dateOf (localClock 1551398100)).month = 0 := by
    apply sum_eq_zero
    intro d inMonth
    rw [setup_table (steady 1551397800) (powerOn (fun _ => 0) true []) _ d month (mem_range.mp inMonth)]
    rfl
  have stands : (Setup.setup (steady 1551397800) (powerOn (fun _ => 0) true [])).today =
      dateOf (localClock 1551398100) :=
    (setup_today (steady 1551397800) _).trans today.symm
  apply monthYield_agrees (steady 1551397800) (fun _ => 0) true [] _ ?_ ?_
  · rw [MonthFits, stands, sum]
    decide
  · exact monthAdmitted_evening _ _ _ _ _ tick evening midnight next stands
      (setup_counter (steady 1551397800) _) sum

end Month
end EspLog.Yields

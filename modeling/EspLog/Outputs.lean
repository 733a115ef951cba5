import EspLog.Restart

/-! The outputs of the sketch: what a tick and a start leave in the running totals. The day
and the month yield of a start are folded out of the table in the order in which it is read. -/

namespace EspLog.Outputs
open CText Eeprom ExactFloat Sketch Functions Setup ByteMemory Effects Restart Loop TimeLib

section Ticks
variable (c : UInt32) (io : Readings) (s : Globals)

theorem everyMinute_today : (everyMinute c io s).today =
    if minute c % 5 = 0 then dateOf (localClock c) else s.today := by
  by_cases tick : minute c % 5 = 0
  · rw [if_pos tick]
    by_cases midnight : Midnight (localClock c)
    · rw [everyMinute_newDay c io s tick midnight]
    · rw [everyMinute_sameDay c io s tick midnight]
  · rw [everyMinute_idle c io s tick, if_neg tick]

theorem everyMinute_table : (everyMinute c io s).tagesCounter =
    if minute c % 5 = 0 then
      if Midnight (localClock c) then rolledTable c s
      else bookedTable (dateOf (localClock c)).month (dateOf (localClock c)).day s
    else s.tagesCounter := by
  by_cases tick : minute c % 5 = 0
  · rw [if_pos tick]
    by_cases midnight : Midnight (localClock c)
    · rw [everyMinute_newDay c io s tick midnight, if_pos midnight]
    · rw [everyMinute_sameDay c io s tick midnight, if_neg midnight]
  · rw [everyMinute_idle c io s tick, if_neg tick]

/-- The state in which a tick comes to its branches: one minute more, at the local time. -/
def entered : Globals :=
  { (s.setValue 9 ((s.ausgabe 9).value + 1)).setPrint 9
      (dtostrf (toDouble ((s.setValue 9 ((s.ausgabe 9).value + 1)).ausgabe 9).value) 2 0) with
    sommerzeit := summertime_EU (year c) (month c) (day c) (hour c) 1
    t := localClock c
    today := dateOf (localClock c) }

theorem entered_output (i : Nat) (ne : i ≠ 9) : (entered c s).ausgabe i = s.ausgabe i := by
  unfold entered
  dsimp only
  rw [setPrint_of_ne _ _ _ _ ne, setValue_of_ne _ _ _ _ ne]

theorem everyMinute_entered (tick : minute c % 5 = 0) : everyMinute c io s =
    ((if Midnight (localClock c) then newDay c io (entered c s) else sameDay c io (entered c s)).setPrint 7
      (dtostrf (io.vcc.toFloat / 1000) 2 2)).setPrint 8 (dtostrf (Float.ofInt io.rssi.toInt) 2 0) := by
  have today (t : UInt32) : ({ year := year t, month := month t - 1, day := day t - 1 } : Date) = dateOf t := rfl
  simp only [everyMinute, if_pos tick, localTime_eq, fiveMinutes, today]
  rfl

theorem everyMinute_output (i : Nat) (ne : i ≠ 7 ∧ i ≠ 8) (tick : minute c % 5 = 0) :
    (everyMinute c io s).ausgabe i = (if Midnight (localClock c) then newDay c io (entered c s)
      else sameDay c io (entered c s)).ausgabe i := by
  rw [everyMinute_entered c io s tick, setPrint_of_ne _ _ _ _ ne.2, setPrint_of_ne _ _ _ _ ne.1]

theorem everyMinute_sameDay_slots (tick : minute c % 5 = 0) (still : ¬Midnight (localClock c)) :
    (everyMinute c io s).fuenfMinutenZaehler =
      Function.update s.fuenfMinutenZaehler (hour c * 12 + minute c / 5) (powerOf s.counter).toUInt32 := by
  have booked : (sameDay c io (entered c s)).fuenfMinutenZaehler =
      (measured (entered c s).today.month (entered c s).today.day c io (entered c s)).fuenfMinutenZaehler := by
    unfold sameDay
    dsimp only
    split <;> rw [FuenfMinutenTimer_eq]
  have printed (s : Globals) (i : Nat) (p : Str) : (s.setPrint i p).fuenfMinutenZaehler =
    s.fuenfMinutenZaehler := rfl
  rw [everyMinute_entered c io s tick, if_neg still, printed, printed, booked, measured_slots]
  rfl

theorem everyMinute_midnight_slots (tick : minute c % 5 = 0) (midnight : Midnight (localClock c)) (i : Nat)
    (inside : i < 288) :
    (everyMinute c io s).fuenfMinutenZaehler i = 0 := by
  have reset : (resetDay (bookYesterday c io (entered c s))).fuenfMinutenZaehler i = 0 := if_pos inside
  have rolled : (rolledDay c io (entered c s)).fuenfMinutenZaehler i = 0 := by
    unfold rolledDay
    split <;> exact reset
  rw [everyMinute_entered c io s tick, if_pos midnight, newDay_eq]
  split <;> exact rolled

/-- The day that a tick books on. -/
def booked : Date := if Midnight (localClock c) then s.yesterday else dateOf (localClock c)

theorem sameDay_output : (sameDay c io s).ausgabe = (measured s.today.month s.today.day c io s).ausgabe := by
  unfold sameDay
  dsimp only
  split <;> rw [FuenfMinutenTimer_eq]

theorem bookYesterday_output :
    (bookYesterday c io s).ausgabe = (measured s.yesterday.month s.yesterday.day c io s).ausgabe := by
  rw [bookYesterday_eq]

theorem newDay_output (i : Nat) (yield : i ≠ 1 ∧ i ≠ 2) :
    (newDay c io s).ausgabe i = (resetDay (bookYesterday c io s)).ausgabe i := by
  have rolled : (rolledDay c io s).ausgabe i = (resetDay (bookYesterday c io s)).ausgabe i := by
    unfold rolledDay
    split
    · exact setValue_of_ne _ _ _ _ yield.1
    · rfl
  rw [newDay_eq]
  split
  · exact (setValue_of_ne _ _ _ _ yield.2).trans rolled
  · exact rolled

theorem creditedTotal_entered (i : Nat) (ne : i ≠ 9) : creditedTotal (entered c s) i = creditedTotal s i := by
  simp only [creditedTotal, entered_output c s i ne]
  rfl

theorem bookYesterday_total (i : Nat) (total : isTotal i) :
    ((bookYesterday c io (entered c s)).ausgabe i).value = creditedTotal s i := by
  have ne : i ≠ 9 := by rcases total with rfl | rfl | rfl | rfl <;> decide
  rw [bookYesterday_output, ← creditedTotal_entered c s i ne]
  exact measured_total _ _ _ _ _ i total

variable (tick : minute c % 5 = 0) (midnight : Midnight (localClock c))
include tick midnight

theorem everyMinute_midnight_day : ((everyMinute c io s).ausgabe 0).value = 0 := by
  rw [everyMinute_output c io s 0 (by decide) tick, if_pos midnight, newDay_output _ _ _ 0 (by decide)]
  unfold resetDay
  dsimp only
  rw [setValue_of_ne _ _ _ _ (by decide), setValue_self]

theorem everyMinute_midnight_month : ((everyMinute c io s).ausgabe 1).value =
    if (dateOf (localClock c)).day = 0 then 0 else creditedTotal s 1 := by
  have reset : ((resetDay (bookYesterday c io (entered c s))).ausgabe 1).value = creditedTotal s 1 := by
    rw [resetDay_value _ 1 (by decide) (by decide)]
    exact bookYesterday_total c io s 1 (.inr (.inl rfl))
  have rolled : ((rolledDay c io (entered c s)).ausgabe 1).value =
      if (dateOf (localClock c)).day = 0 then 0 else creditedTotal s 1 := by
    have today : (entered c s).today.day = (dateOf (localClock c)).day := rfl
    rw [rolledDay, today]
    split
    · exact setValue_self _ _ _
    · exact reset
  rw [everyMinute_output c io s 1 (by decide) tick, if_pos midnight, newDay_eq]
  split
  · exact (congrArg ValueStore.value (setValue_of_ne _ _ _ _ (by decide))).trans rolled
  · exact rolled

theorem everyMinute_midnight_meter : ((everyMinute c io s).ausgabe 10).value = creditedTotal s 10 := by
  rw [everyMinute_output c io s 10 (by decide) tick, if_pos midnight, newDay_output _ _ _ 10 (by decide),
    resetDay_value _ 10 (by decide) (by decide)]
  exact bookYesterday_total c io s 10 (.inr (.inr (.inr rfl)))

end Ticks

section Start
variable (boot : Boot) (s : Globals)

/-- The cells of the table, in the order in which a start reads them. -/
def cells : List (Nat × Nat) :=
  (List.range (anzahlMonate + 1)).flatMap fun j => (List.range (anzahlTage + 1)).map fun i => (j, i)

def restoreCell (now : Nat → Nat → UInt32) (s : Globals) (cell : Nat × Nat) : Globals :=
  restoreDay now cell.1 s cell.2

theorem restoreTable_cells (now : Nat → Nat → UInt32) :
    restoreTable now s = Runs.run (restoreCell now) s cells := by
  unfold restoreTable cells Runs.run
  rw [List.foldl_flatMap]
  simp only [List.foldl_map]
  rfl

theorem mem_cells (cell : Nat × Nat) : cell ∈ cells ↔ cell.1 < 12 ∧ cell.2 < 31 := by
  simp only [cells, List.mem_flatMap, List.mem_map, List.mem_range]
  constructor
  · intro found
    obtain ⟨j, month, i, day, rfl⟩ := found
    exact ⟨month, day⟩
  · intro both
    obtain ⟨month, day⟩ := both
    exact ⟨cell.1, month, cell.2, day, rfl⟩

theorem cells_month (m : Nat) (month : m < 12) :
    cells.filter (fun cell => cell.1 = m) = (List.range 31).map fun d => (m, d) := by
  revert m
  decide

theorem restoreSettings_value (floatTmp : Float32) (i : Nat) : ((restoreSettings floatTmp s).1.ausgabe i).value =
    if i = 10 then (restoreSettings floatTmp s).1.offset * 1000 else (s.ausgabe i).value := by
  simp only [restoreSettings, restoreZaehlerkonstante, restoreVerguetung, restoreGeneratorleistung,
    restoreZaehleroffset, restoreSimulation, restoreFhemPort, restoreFhemHost, restoreLog, write2logfile,
    restoreHostBytes_eq]
  rw [setPrint_value]
  by_cases meter : i = 10
  · rw [if_pos meter, meter, setValue_self]
    rfl
  · rw [if_neg meter, setValue_of_ne _ _ _ _ meter]

theorem settled_value (i : Nat) : ((settled boot s).1.ausgabe i).value =
    if i = 10 then (settled boot s).1.offset * 1000
      else ((restoreTable boot.now (begun boot s)).ausgabe i).value :=
  restoreSettings_value _ _ i

theorem setup_value (i : Nat) (ne : i ≠ 3) :
    ((setup boot s).ausgabe i).value = ((settled boot s).1.ausgabe i).value :=
  restoreTexts_keeps (fun after => (after.ausgabe i).value = ((settled boot s).1.ausgabe i).value)
    (fun s j p _ same => (setPrint_value s j p i).trans same)
    (fun s v same => (congrArg ValueStore.value (setValue_of_ne s 3 v i ne)).trans same)
    (fun _ _ same => same) (settled boot s).2 (settled boot s).1 rfl

theorem setup_yield (i : Nat) (yield : i < 3) :
    ((setup boot s).ausgabe i).value = ((restoreTable boot.now (begun boot s)).ausgabe i).value := by
  rw [setup_value boot s i (by omega), settled_value, if_neg (by omega)]

theorem begun_value (i : Nat) : ((begun boot s).ausgabe i).value = (s.ausgabe i).value := by
  have ntp := congrArg Globals.ausgabe (setupNtp_eq s boot.clock)
  have names : ((setupStructAusgabe boot.io (setupNtp boot.clock s)).ausgabe i).value =
      ((setupNtp boot.clock s).ausgabe i).value := by
    simp only [setupStructAusgabe, realNames, List.zipIdx_cons, List.zipIdx_nil, List.foldl_cons, List.foldl_nil,
      setPrint_value, setName_value]
  exact names.trans (congrArg (fun ausgabe : Nat → ValueStore => (ausgabe i).value) ntp)

theorem begun_today : (begun boot s).today = dateOf (localClock boot.clock) := by
  have ntp := congrArg Globals.today (setupNtp_eq s boot.clock)
  have names := (setupStructAusgabe_filled (setupNtp boot.clock s) boot.io).today
  have opened (s : Globals) (e : EEPROMClass) (logtext : Str) :
    (write2logfile logtext { s with eeprom := e }).today = s.today := rfl
  rw [begun, opened, names]
  exact ntp

theorem setup_today : (setup boot s).today = dateOf (localClock boot.clock) := by
  have table := (restoreTable_filled boot.now (begun boot s)).today
  calc (setup boot s).today = (settled boot s).1.today := (setup_printed boot s).today
    _ = (restoreTable boot.now (begun boot s)).today := (restoreSettings_frame _ _).2.2.1
    _ = (begun boot s).today := table
    _ = dateOf (localClock boot.clock) := begun_today boot s

/-- The meter reading that a start makes of the stored offset. -/
def restoredReading (memory : Memory) : Float32 :=
  (if floatAt memory adresseEepromOF > 0 then floatAt memory adresseEepromOF else 0) * 1000

theorem setup_meter : ((setup boot s).ausgabe 10).value = restoredReading s.eeprom.flash := by
  have offset := (restoreSettings_spec (Float32.ofBits boot.io.tmp) _ s.eeprom (restored_eeprom boot s)).offset
  have same : (settled boot s).1.offset = _ := offset
  rw [setup_value boot s 10 (by decide), settled_value, if_pos rfl, same]
  rfl

theorem setup_counter : (setup boot s).counter = s.counter := by
  have ntp := congrArg Globals.counter (setupNtp_eq s boot.clock)
  have names := (setupStructAusgabe_filled (setupNtp boot.clock s) boot.io).counter
  have table := (restoreTable_filled boot.now (begun boot s)).counter
  have opened (s : Globals) (e : EEPROMClass) (logtext : Str) :
      (write2logfile logtext { s with eeprom := e }).counter = s.counter := rfl
  calc (setup boot s).counter = (settled boot s).1.counter := (setup_printed boot s).counter
    _ = (restoreTable boot.now (begun boot s)).counter := (restoreSettings_frame _ _).2.2.2.2
    _ = (begun boot s).counter := table
    _ = (setupStructAusgabe boot.io (setupNtp boot.clock s)).counter := opened _ _ _
    _ = (setupNtp boot.clock s).counter := names
    _ = s.counter := ntp

/-- A start whose clock stands while it reads the table. -/
def steady (c : UInt32) : Boot := ⟨c, fun _ _ => c, ⟨3300, -60, 0⟩⟩

/-- The clock names this cell while the start reads it. -/
def Named (now : Nat → Nat → UInt32) (cell : Nat × Nat) : Prop :=
  cell.1 = month (now cell.1 cell.2) - 1 ∧ cell.2 = day (now cell.1 cell.2) - 1

instance (now : Nat → Nat → UInt32) (cell : Nat × Nat) : Decidable (Named now cell) :=
  inferInstanceAs (Decidable (_ ∧ _))

theorem named_cell (now : Nat → Nat → UInt32) (c : UInt32)
    (kept : ∀ j i, month (now j i) = month c ∧ day (now j i) = day c) :
    cells.filter (fun cell => Named now cell) = [((dateOf c).month, (dateOf c).day)] := by
  have named (cell : Nat × Nat) : Named now cell ↔ cell.1 = (dateOf c).month ∧ cell.2 = (dateOf c).day := by
    rw [Named, (kept cell.1 cell.2).1, (kept cell.1 cell.2).2]
    rfl
  have split : cells.filter (fun cell => Named now cell) =
      (cells.filter fun cell => cell.1 = (dateOf c).month).filter fun cell => cell.2 = (dateOf c).day := by
    rw [List.filter_filter]
    exact List.filter_congr fun cell _ => by simp [named, Bool.and_comm]
  have one (m d : Nat) (day : d < 31) : ((List.range 31).map fun d => (m, d)).filter (fun cell => cell.2 = d) =
      [(m, d)] := by
    have days : ∀ d < 31, (List.range 31).filter (fun i => i = d) = [d] := by decide
    rw [List.filter_map]
    exact congrArg (List.map fun d => (m, d)) (days d day)
  rw [split, cells_month _ (dateOf_month_lt c)]
  exact one _ _ (dateOf_day_lt c)

/-- The stored count of a day. -/
def word (memory : Memory) (cell : Nat × Nat) : UInt32 := read32 memory (eeAddress cell.1 cell.2)

theorem word_stored (m d : Nat) (n : UInt32) (day : d < 31) (cell : Nat × Nat) (inMonth : cell.2 < 31) :
    word (write32 (fun _ => 0) (eeAddress m d) n) cell = if cell = (m, d) then n else 0 := by
  by_cases here : cell = (m, d)
  · rw [if_pos here, here, word, read32_write32]
  · have apart : ¬(cell.1 = m ∧ cell.2 = d) := fun same => here (Prod.ext same.1 same.2)
    rw [if_neg here, word, read32_write32_disjoint _ _ _ _ (eeAddress_disjoint _ _ _ _ inMonth day apart)]
    rfl

/-- While the table is read, the EEPROM is open over the flash and the date stands. -/
def Reading (memory : Memory) (today : Date) (s : Globals) : Prop :=
  s.today = today ∧ ∀ cell ∈ cells, ∀ old, s.eeprom.get (eeAddress cell.1 cell.2) old = word memory cell

theorem reading_begun : Reading s.eeprom.flash (dateOf (localClock boot.clock)) (begun boot s) := by
  refine ⟨begun_today boot s, fun cell member old => ?_⟩
  obtain ⟨month, day⟩ := (mem_cells cell).mp member
  have inside : ¬eeAddress cell.1 cell.2 + 4 > (s.eeprom.begin opened).size := by
    have := eeAddress_lt cell.1 cell.2 month day
    rw [begin_size, opened]
    omega
  rw [begun_eeprom, EEPROMClass.get, if_neg inside, begin_data, word]

theorem reading_restoreCell (now : Nat → Nat → UInt32) (memory : Memory) (today : Date) (s : Globals)
    (cell : Nat × Nat) (reading : Reading memory today s) : Reading memory today (restoreCell now s cell) := by
  have filled : Filled s (restoreCell now s cell) := restoreDay_filled now cell.1 s cell.2
  unfold Filled at filled
  rw [filled]
  exact reading

section Cell
variable (now : Nat → Nat → UInt32) (memory : Memory) (today : Date) (cell : Nat × Nat) (member : cell ∈ cells)
  (reading : Reading memory today s)
include member reading

theorem restoreCell_day : ((restoreCell now s cell).ausgabe 0).value =
    if Named now cell then (word memory cell).toFloat32 else (s.ausgabe 0).value := by
  simp only [restoreCell, restoreDay, reading.2 cell member]
  rw [setValue_of_ne _ _ _ _ (by decide)]
  by_cases named : Named now cell
  · have test : cell.1 = month (now cell.1 cell.2) - 1 ∧ cell.2 = day (now cell.1 cell.2) - 1 := named
    rw [if_pos named]
    simp only [if_pos test]
    split
    · rw [setValue_of_ne _ _ _ _ (by decide), setValue_self]
    · rw [setValue_self]
  · have test : ¬(cell.1 = month (now cell.1 cell.2) - 1 ∧ cell.2 = day (now cell.1 cell.2) - 1) := named
    rw [if_neg named]
    simp only [if_neg test]
    split
    · rw [setValue_of_ne _ _ _ _ (by decide)]
    · rfl

theorem restoreCell_month : ((restoreCell now s cell).ausgabe 1).value =
    if cell.1 = today.month then (s.ausgabe 1).value + (word memory cell).toFloat32 else (s.ausgabe 1).value := by
  have day (s : Globals) (v : Float32) : (s.setValue 0 v).ausgabe 1 = s.ausgabe 1 :=
    setValue_of_ne _ _ _ _ (by decide)
  have date (s : Globals) (v : Float32) : (s.setValue 0 v).today = s.today := rfl
  simp only [restoreCell, restoreDay, reading.2 cell member]
  rw [setValue_of_ne _ _ _ _ (by decide)]
  split <;>
  simp only [date, reading.1] <;>
  split <;>
  simp only [setValue_self, day]

theorem restoreCell_year : ((restoreCell now s cell).ausgabe 2).value =
    (s.ausgabe 2).value + (word memory cell).toFloat32 := by
  have lower (s : Globals) (i : Nat) (v : Float32) (other : i < 2) : (s.setValue i v).ausgabe 2 = s.ausgabe 2 :=
    setValue_of_ne _ _ _ _ (by omega)
  simp only [restoreCell, restoreDay, reading.2 cell member, setValue_self]
  split <;>
  split <;>
  simp only [lower _ 0 _ (by decide), lower _ 1 _ (by decide)]

end Cell

theorem setup_day : ((setup boot s).ausgabe 0).value =
    (((cells.filter fun cell => Named boot.now cell).getLast?).map fun cell =>
      (word s.eeprom.flash cell).toFloat32).getD (s.ausgabe 0).value := by
  rw [setup_yield boot s 0 (by decide), restoreTable_cells, ← begun_value boot s 0, ← Runs.run_overwrites]
  exact Runs.run_tracks (restoreCell boot.now) (fun s => (s.ausgabe 0).value) _
    (Reading s.eeprom.flash (dateOf (localClock boot.clock)))
    (fun s cell => reading_restoreCell boot.now _ _ s cell) cells
    (fun s cell member reading => restoreCell_day s boot.now _ _ cell member reading) _ (reading_begun boot s)

theorem setup_month : ((setup boot s).ausgabe 1).value =
    Runs.run (fun v cell => if cell.1 = (dateOf (localClock boot.clock)).month then
      v + (word s.eeprom.flash cell).toFloat32 else v) (s.ausgabe 1).value cells := by
  rw [setup_yield boot s 1 (by decide), restoreTable_cells, ← begun_value boot s 1]
  exact Runs.run_tracks (restoreCell boot.now) (fun s => (s.ausgabe 1).value) _
    (Reading s.eeprom.flash (dateOf (localClock boot.clock)))
    (fun s cell => reading_restoreCell boot.now _ _ s cell) cells
    (fun s cell member reading => restoreCell_month s boot.now _ _ cell member reading) _ (reading_begun boot s)

theorem setup_year : ((setup boot s).ausgabe 2).value =
    Runs.run (fun v cell => v + (word s.eeprom.flash cell).toFloat32) (s.ausgabe 2).value cells := by
  rw [setup_yield boot s 2 (by decide), restoreTable_cells, ← begun_value boot s 2]
  exact Runs.run_tracks (restoreCell boot.now) (fun s => (s.ausgabe 2).value) _
    (Reading s.eeprom.flash (dateOf (localClock boot.clock)))
    (fun s cell => reading_restoreCell boot.now _ _ s cell) cells
    (fun s cell member reading => restoreCell_year s boot.now _ _ cell member reading) _ (reading_begun boot s)

end Start
end EspLog.Outputs

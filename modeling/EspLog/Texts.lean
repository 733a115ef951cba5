import EspLog.Outputs

/-! The printed texts of the outputs. A call of the five-minute function prints each output it sets
right after setting it, and whatever resets a value later leaves the text as it is. -/

namespace EspLog.Texts
open CText Eeprom ExactFloat Sketch Functions Setup Websites WebServer Effects Restart Loop Outputs TimeLib

section Call
variable (m d : Nat) (c : UInt32) (io : Readings) (s : Globals)

theorem text_after_print (i : Nat) (format : Float32 → Str) (before after : List Statement) (print : Statement)
    (prints : ∀ frame, ((exec m d c io frame print).sketch.ausgabe i).printValue =
      format ((exec m d c io frame print).sketch.ausgabe i).value)
    (quiet : ∀ statement ∈ after, touches i statement = false) (frame : Frame) :
    ((Runs.run (exec m d c io) frame (before ++ print :: after)).sketch.ausgabe i).printValue =
      format ((Runs.run (exec m d c io) frame (before ++ print :: after)).sketch.ausgabe i).value := by
  have last := Runs.run_keeps (exec m d c io) (fun frame => frame.sketch.ausgabe i) after
    (fun frame statement member => exec_output m d c io i frame statement (quiet statement member))
  rw [Runs.run_append, Runs.run_cons, last]
  exact prints _

def kiloText (v : Float32) : Str := dtostrf (toDouble (v / 1000)) 2 2

def wattText (v : Float32) : Str := dtostrf (toDouble v) 2 0

theorem measured_total_text (i : Nat) (total : isTotal i) : ((measured m d c io s).ausgabe i).printValue =
    if s.impulseProKwh > 0 then kiloText ((measured m d c io s).ausgabe i).value
      else (s.ausgabe i).printValue := by
  unfold measured statements
  by_cases positive : s.impulseProKwh > 0
  · simp only [if_pos positive]
    have cut (n : Nat) : (energyStatements ++ powerStatements).dropLast =
        (energyStatements ++ powerStatements).dropLast.take n ++
        (energyStatements ++ powerStatements).dropLast.drop n :=
      (List.take_append_drop n _).symm
    have shows (j : Nat) (v : Float32) (s : Globals) (held : (s.ausgabe j).value = v) :
        ((s.setPrint j (kiloText v)).ausgabe j).printValue =
        kiloText ((s.setPrint j (kiloText v)).ausgabe j).value := by
      rw [setPrint_self, setPrint_value, held]
    rcases total with rfl | rfl | rfl | rfl
    · rw [cut 3]
      exact text_after_print m d c io 0 kiloText [.energie, .tabelle, .ertrag 0] _ (.ertragText 0)
        (fun _ => shows _ _ _ rfl) (by decide) _
    · rw [cut 5]
      exact text_after_print m d c io 1 kiloText [.energie, .tabelle, .ertrag 0, .ertragText 0, .ertrag 1] _
        (.ertragText 1)
        (fun _ => shows _ _ _ rfl) (by decide) _
    · rw [cut 7]
      exact text_after_print m d c io 2 kiloText [.energie, .tabelle, .ertrag 0, .ertragText 0, .ertrag 1,
        .ertragText 1, .ertrag 2] _ (.ertragText 2) (fun _ => shows _ _ _ rfl) (by decide) _
    · rw [cut 11]
      exact text_after_print m d c io 10 kiloText [.energie, .tabelle, .ertrag 0, .ertragText 0, .ertrag 1,
        .ertragText 1, .ertrag 2, .ertragText 2, .spezifisch, .spezifischText, .zaehlerstand] _ .zaehlerstandText
        (fun _ => shows _ _ _ rfl) (by decide) _
  · simp only [if_neg positive]
    apply Runs.run_keeps (exec m d c io) (fun frame => (frame.sketch.ausgabe i).printValue) _ _ { sketch := s }
    intro frame statement member
    apply congrArg ValueStore.printValue
    apply exec_output
    rcases total with rfl | rfl | rfl | rfl <;>
    revert statement <;>
    decide

/-- An output after a value has been set and printed. -/
def shown (v : Float32) (p : Str) (store : ValueStore) : ValueStore := { store with value := v }.print p

@[simp] theorem shown_value (v : Float32) (p : Str) (store : ValueStore) : (shown v p store).value = v := rfl

@[simp] theorem shown_name (v : Float32) (p : Str) (store : ValueStore) :
    (shown v p store).realName = ValueStore.overrun p store.realName := rfl

@[simp] theorem shown_print (v : Float32) (p : Str) (store : ValueStore) : (shown v p store).printValue = p := rfl

theorem measured_power :
    (measured m d c io s).ausgabe 6 = shown (powerOf s.counter) (wattText (powerOf s.counter)) (s.ausgabe 6) ∧
    (measured m d c io s).ausgabe 5 = if powerOf s.counter > (s.ausgabe 5).value then
      shown (powerOf s.counter) (wattText (powerOf s.counter)) (s.ausgabe 5) else s.ausgabe 5 := by
  obtain ⟨frame, counter, _, maximum, last, same⟩ := measured_split m d c io s
  have cut : powerStatements.dropLast = [.leistung, .leistungText, .slot] ++ [.maximum, .reset] := rfl
  have shows (s : Globals) (i : Nat) (v : Float32) :
      ((s.setValue i v).setPrint i (wattText v)).ausgabe i = shown v (wattText v) (s.ausgabe i) := by
    rw [setPrint_store, shown]
    simp [Globals.setValue]
  rw [same, cut, Runs.run_append, ← counter, ← maximum, ← last]
  generalize measured_frame : Runs.run (exec m d c io) frame [.leistung, .leistungText, .slot] = next
  have power : next.sketch.ausgabe 6 =
      shown (powerOf frame.sketch.counter) (wattText (powerOf frame.sketch.counter)) (frame.sketch.ausgabe 6) := by
    rw [← measured_frame, ← shows]
    simp [Runs.run, exec, wattText]
  have value : (next.sketch.ausgabe 6).value = powerOf frame.sketch.counter := by rw [power, shown_value]
  have before : next.sketch.ausgabe 5 = frame.sketch.ausgabe 5 := by
    rw [← measured_frame]
    exact Runs.run_keeps (exec m d c io) (fun frame => frame.sketch.ausgabe 5) _
      (fun frame statement member => exec_output m d c io 5 frame statement (by revert statement; decide)) _
  rw [Runs.run_cons, Runs.run_cons, Runs.run_nil]
  simp only [exec, value, before]
  split
  · refine ⟨?_, ?_⟩
    · exact (setPrint_of_ne _ _ _ _ (by decide)).trans ((setValue_of_ne _ _ _ _ (by decide)).trans power)
    · rw [← before]
      exact shows _ _ _
  · exact ⟨power, before⟩

end Call

section Tick
variable (c : UInt32) (io : Readings) (s : Globals)

/-- The outputs that a midnight sets to zero, without printing them. -/
def Resets (i : Nat) : Prop := Midnight (localClock c) ∧
  (i = 0 ∨ i = 5 ∨ i = 1 ∧ (dateOf (localClock c)).day = 0 ∨ i = 2 ∧ (dateOf (localClock c)).month = 0)

instance (i : Nat) : Decidable (Resets c i) := inferInstanceAs (Decidable (_ ∧ _))

/-- A midnight prints nothing after its call. -/
theorem newDay_text (i : Nat) : ((newDay c io s).ausgabe i).printValue =
    ((measured s.yesterday.month s.yesterday.day c io s).ausgabe i).printValue := by
  have reset : ((resetDay (bookYesterday c io s)).ausgabe i).printValue =
      ((bookYesterday c io s).ausgabe i).printValue := by
    unfold resetDay
    dsimp only
    rw [setValue_print, setValue_print]
  have rolled : ((rolledDay c io s).ausgabe i).printValue = ((bookYesterday c io s).ausgabe i).printValue := by
    unfold rolledDay newMonth
    split
    · exact (setValue_print _ _ _ _).trans reset
    · exact reset
  rw [newDay_eq, ← bookYesterday_output]
  split
  · exact (setValue_print _ _ _ _).trans rolled
  · exact rolled

theorem everyMinute_offset : (everyMinute c io s).offset = s.offset := by
  by_cases tick : minute c % 5 = 0
  · by_cases midnight : Midnight (localClock c)
    · rw [everyMinute_newDay c io s tick midnight]
    · rw [everyMinute_sameDay c io s tick midnight]
  · rw [everyMinute_idle c io s tick]

theorem idle_output (i : Nat) (ne : i ≠ 9) (idle : minute c % 5 ≠ 0) :
    (everyMinute c io s).ausgabe i = s.ausgabe i := by
  simp only [everyMinute, if_neg idle, localTime_eq]
  rw [setPrint_of_ne _ _ _ _ ne, setValue_of_ne _ _ _ _ ne]

variable (tick : minute c % 5 = 0)
include tick

theorem tick_text (i : Nat) (ne : i ≠ 7 ∧ i ≠ 8) : ((everyMinute c io s).ausgabe i).printValue =
    ((measured (booked c s).month (booked c s).day c io (entered c s)).ausgabe i).printValue := by
  rw [everyMinute_output c io s i ne tick]
  by_cases midnight : Midnight (localClock c)
  · rw [if_pos midnight, booked, if_pos midnight]
    exact newDay_text c io (entered c s) i
  · rw [if_neg midnight, booked, if_neg midnight, sameDay_output]
    rfl

theorem tick_total_text (i : Nat) (total : isTotal i) : ((everyMinute c io s).ausgabe i).printValue =
    if s.impulseProKwh > 0 then kiloText (creditedTotal s i) else (s.ausgabe i).printValue := by
  have ne : (i ≠ 7 ∧ i ≠ 8) ∧ i ≠ 9 := by rcases total with rfl | rfl | rfl | rfl <;> decide
  have value := measured_total (booked c s).month (booked c s).day c io (entered c s) i total
  have credited : _ = creditedTotal s i := value.trans (creditedTotal_entered c s i ne.2)
  rw [tick_text c io s tick i ne.1, measured_total_text _ _ _ _ _ i total, credited, entered_output c s i ne.2]
  rfl

theorem tick_power :
    (everyMinute c io s).ausgabe 6 = shown (powerOf s.counter) (wattText (powerOf s.counter)) (s.ausgabe 6) := by
  have power := (measured_power (booked c s).month (booked c s).day c io (entered c s)).1
  have counter : (entered c s).counter = s.counter := rfl
  rw [counter, entered_output c s 6 (by decide)] at power
  rw [everyMinute_output c io s 6 (by decide) tick, ← power]
  by_cases midnight : Midnight (localClock c)
  · rw [if_pos midnight, booked, if_pos midnight, newDay_output _ _ _ 6 (by decide),
      resetDay_value _ 6 (by decide) (by decide), bookYesterday_output]
    rfl
  · rw [if_neg midnight, booked, if_neg midnight, sameDay_output]
    rfl

/-- The day's maximum: its text follows the power, and midnight resets the value alone. -/
theorem tick_maximum :
    ((everyMinute c io s).ausgabe 5).value = (if Resets c 5 then 0 else
      if powerOf s.counter > (s.ausgabe 5).value then powerOf s.counter else (s.ausgabe 5).value) ∧
    ((everyMinute c io s).ausgabe 5).printValue =
      if powerOf s.counter > (s.ausgabe 5).value then wattText (powerOf s.counter)
        else (s.ausgabe 5).printValue := by
  have maximum := (measured_power (booked c s).month (booked c s).day c io (entered c s)).2
  have counter : (entered c s).counter = s.counter := rfl
  rw [counter, entered_output c s 5 (by decide)] at maximum
  have text := tick_text c io s tick 5 (by decide)
  rw [maximum] at text
  refine ⟨?_, text.trans ?_⟩
  · rw [everyMinute_output c io s 5 (by decide) tick]
    by_cases midnight : Midnight (localClock c)
    · rw [if_pos midnight, newDay_output _ _ _ 5 (by decide), if_pos ⟨midnight, .inr (.inl rfl)⟩]
      exact setValue_self _ _ _
    · have day : booked c s = (entered c s).today := if_neg midnight
      rw [day] at maximum
      rw [if_neg midnight, if_neg fun resets => midnight resets.1, sameDay_output, maximum]
      split <;> rfl
  · split <;> rfl

end Tick

section Start
variable (boot : Boot) (s : Globals)

/-- A yield as a start prints it: it divides in double precision. -/
def yieldText (v : Float32) : Str := dtostrf (toDouble v / 1000) 2 2

theorem restoreTexts_text (floatTmp : Float32) :
    ((restoreTexts floatTmp s).ausgabe 0).printValue = yieldText (s.ausgabe 0).value ∧
    ((restoreTexts floatTmp s).ausgabe 1).printValue =
      (if (s.ausgabe 1).value > 0 then yieldText (s.ausgabe 1).value else dtostrf 0 2 0) ∧
    ((restoreTexts floatTmp s).ausgabe 2).printValue =
      (if (s.ausgabe 2).value > 0 then yieldText (s.ausgabe 2).value else dtostrf 0 2 0) := by
  have logged (logtext : Str) (s : Globals) : (write2logfile logtext s).ausgabe = s.ausgabe := rfl
  by_cases month : (s.ausgabe 1).value > 0 <;>
  by_cases year : (s.ausgabe 2).value > 0
  all_goals
    simp only [restoreTexts, logged, setPrint_value, month, year, if_true, if_false]
    refine ⟨?_, ?_, ?_⟩ <;>
    simp (disch := decide) only [setPrint_of_ne, setValue_of_ne, setPrint_self, logged, yieldText]

theorem restoreSettings_text (floatTmp : Float32) (i : Nat) :
    ((restoreSettings floatTmp s).1.ausgabe i).printValue =
    if i = 10 then dtostrf (toDouble (restoreSettings floatTmp s).1.offset) 2 2 else (s.ausgabe i).printValue := by
  simp only [restoreSettings, restoreZaehlerkonstante, restoreVerguetung, restoreGeneratorleistung,
    restoreZaehleroffset, restoreSimulation, restoreFhemPort, restoreFhemHost, restoreLog, write2logfile,
    restoreHostBytes_eq]
  by_cases meter : i = 10
  · rw [if_pos meter, meter, setPrint_self]
    rfl
  · rw [if_neg meter, setPrint_of_ne _ _ _ _ meter, setValue_of_ne _ _ _ _ meter]

theorem restoreTable_text (now : Nat → Nat → UInt32) (i : Nat) :
    ((restoreTable now s).ausgabe i).printValue = (s.ausgabe i).printValue := by
  rw [restoreTable_cells]
  apply Runs.run_keeps (restoreCell now) (fun s => (s.ausgabe i).printValue)
  intro s cell _
  simp only [restoreCell, restoreDay, setValue_print]
  split <;>
  split <;>
  simp only [setValue_print]

theorem begun_text (i : Nat) (five : i = 5 ∨ i = 6) : ((begun boot s).ausgabe i).printValue = dtostrf 0 2 0 := by
  rcases five with rfl | rfl <;>
  simp (disch := decide) only [begun, write2logfile, setupStructAusgabe, List.foldl_cons, List.foldl_nil,
    setPrint_of_ne, setPrint_self]

theorem setup_output : (setup boot s).ausgabe = (restoreTexts (settled boot s).2 (settled boot s).1).ausgabe := by
  have last : setup boot s =
      write2logfile (text "ESPLog gestartet") (restoreTexts (settled boot s).2 (settled boot s).1) := rfl
  rw [last]
  rfl

theorem restoreTexts_other (floatTmp : Float32) (i : Nat) (other : 3 < i) :
    (restoreTexts floatTmp s).ausgabe i = s.ausgabe i :=
  restoreTexts_keeps (fun after => after.ausgabe i = s.ausgabe i)
    (fun s j p small same => (setPrint_of_ne s j p i (by omega)).trans same)
    (fun s v same => (setValue_of_ne s 3 v i (by omega)).trans same) (fun _ _ same => same) floatTmp s rfl

theorem setup_day_text : ((setup boot s).ausgabe 0).printValue = yieldText ((setup boot s).ausgabe 0).value := by
  rw [setup_value boot s 0 (by decide), setup_output, (restoreTexts_text _ _).1]

theorem setup_yield_text (i : Nat) (yield : i = 1 ∨ i = 2) : ((setup boot s).ausgabe i).printValue =
    if ((setup boot s).ausgabe i).value > 0 then yieldText ((setup boot s).ausgabe i).value
      else dtostrf 0 2 0 := by
  rcases yield with rfl | rfl
  · rw [setup_value boot s 1 (by decide), setup_output, (restoreTexts_text _ _).2.1]
  · rw [setup_value boot s 2 (by decide), setup_output, (restoreTexts_text _ _).2.2]

/-- The offset that a start makes of the flash. -/
def restoredOffset (memory : ByteMemory.Memory) : Float32 :=
  if floatAt memory adresseEepromOF > 0 then floatAt memory adresseEepromOF else 0

theorem setup_meter_text :
    ((setup boot s).ausgabe 10).printValue = dtostrf (toDouble (restoredOffset s.eeprom.flash)) 2 2 := by
  have offset : (settled boot s).1.offset = restoredOffset s.eeprom.flash :=
    (restoreSettings_spec _ _ s.eeprom (restored_eeprom boot s)).offset
  rw [setup_output, restoreTexts_other _ _ 10 (by decide), settled, restoreSettings_text, if_pos rfl, ← offset]
  rfl

theorem setup_power (i : Nat) (power : i = 5 ∨ i = 6) :
    ((setup boot s).ausgabe i).value = (s.ausgabe i).value ∧ ((setup boot s).ausgabe i).printValue =
      dtostrf 0 2 0 := by
  have ne : i ≠ 10 ∧ 3 < i := by omega
  have text : ((setup boot s).ausgabe i).printValue = dtostrf 0 2 0 := by
    rw [setup_output, restoreTexts_other _ _ i ne.2, settled, restoreSettings_text, if_neg ne.1, restoreTable_text]
    exact begun_text boot s i power
  have kept : ((restoreTable boot.now (begun boot s)).ausgabe i).value = ((begun boot s).ausgabe i).value := by
    rw [restoreTable_cells]
    apply Runs.run_keeps (restoreCell boot.now) (fun s => (s.ausgabe i).value)
    intro s cell _
    have other (s : Globals) (j : Nat) (v : Float32) (small : j < 3) : (s.setValue j v).ausgabe i = s.ausgabe i :=
      setValue_of_ne s j v i (by omega)
    simp only [restoreCell, restoreDay, other _ 2 _ (by decide)]
    split <;>
    split <;>
    simp only [other _ 1 _ (by decide), other _ 0 _ (by decide)]
  refine ⟨?_, text⟩
  rw [setup_value boot s i (by omega), settled_value, if_neg ne.1, kept, begun_value]

end Start

section Request
variable (s : Globals)

theorem settings_outputs (first : Str) :
    ∀ action ∈ [setGenerator, setCouterconst, setCompensation, setIp first, setPort], ∀ value s,
    (action value s).ausgabe = s.ausgabe ∧ (action value s).offset = s.offset := by
  have address {Field : Type} (field : Globals → Field) (s : Globals)
      (keeps : ∀ state token, field (setHostByte state token).1 = field state.1) :
      field ((strtok 46 (toCharArray first 20)).foldl setHostByte (s, 0)).1 = field s :=
    Runs.run_keeps setHostByte (fun state => field state.1) (strtok 46 (toCharArray first 20))
      (fun state token _ => keeps state token) (s, 0)
  simp only [List.forall_mem_cons, List.not_mem_nil, false_imp_iff, implies_true, and_true]
  refine ⟨fun value s => ?_, fun value s => ?_, fun value s => ?_, fun value s => ?_, fun value s => ?_⟩
  · unfold setGenerator
    split <;> exact ⟨rfl, rfl⟩
  · unfold setCouterconst
    split <;> exact ⟨rfl, rfl⟩
  · unfold setCompensation
    split <;> exact ⟨rfl, rfl⟩
  · unfold setIp
    split
    · exact ⟨address Globals.ausgabe s fun _ _ => rfl, address Globals.offset s fun _ _ => rfl⟩
    · exact ⟨rfl, rfl⟩
  · unfold setPort
    split <;> exact ⟨rfl, rfl⟩

theorem setOffset_meter (value : Str) (differs : ¬(toFloat value == s.offset) = true) :
    (setOffset value s).ausgabe 10 = shown ((s.ausgabe 10).value + toFloat value * 1000)
      (dtostrf (toDouble ((s.ausgabe 10).value + toFloat value * 1000)) 2 2) (s.ausgabe 10) ∧
    (setOffset value s).offset = toFloat value := by
  have changes : (!(toFloat value == s.offset)) = true := by simpa using differs
  unfold setOffset
  rw [if_pos changes]
  simp [Globals.setValue, Globals.setPrint, putEepromValue, write2logfile, shown]

theorem setOffset_same (value : Str) (same : (toFloat value == s.offset) = true) : setOffset value s = s :=
  if_neg (by rw [same]; decide)

theorem deleteRAM_output (i : Nat) :
    (deleteRAM s).ausgabe i = if i < 3 then shown 0 (dtostrf 0 2 2) (s.ausgabe i) else s.ausgabe i := by
  by_cases small : i < 3
  · rw [if_pos small]
    obtain rfl | rfl | rfl : i = 0 ∨ i = 1 ∨ i = 2 := by omega
    all_goals simp [deleteRAM, Globals.setValue, Globals.setPrint, shown]
  · have ne (j : Nat) (below : j < 3) : i ≠ j := by omega
    rw [if_neg small]
    simp [deleteRAM, Globals.setValue, Globals.setPrint, ne]

theorem clearTable_output (i : Nat) :
    (clearTable s).ausgabe i = if i < 3 then shown 0 (dtostrf 0 2 2) (s.ausgabe i) else s.ausgabe i := by
  rw [clearTable, deleteRAM_output, deleteEEPROM_eq]
  rfl

theorem clearTable_offset : (clearTable s).offset = s.offset := by
  have kept (s : Globals) : (deleteRAM s).offset = s.offset := by
    simp only [deleteRAM, Globals.setValue, Globals.setPrint]
  rw [clearTable, kept, deleteEEPROM_eq]
  rfl

end Request
end EspLog.Texts

import EspLog.Loop

/-! What each operation of the sketch changes. Every operation equals an explicit update of
the state it starts from, so that later proofs name the fields and never its statements. -/

namespace EspLog.Effects
open CText Eeprom ExactFloat Sketch Functions TimeLib Loop

section Clock

/-- German local time of a CET clock. -/
def localClock (c : UInt32) : UInt32 :=
  if summertime_EU (year c) (month c) (day c) (hour c) 1 then c + 3600 else c

theorem localTime_eq (c : UInt32) (s : Globals) : localTime c s = { s with
    sommerzeit := summertime_EU (year c) (month c) (day c) (hour c) 1, t := localClock c } := by
  unfold localTime localClock
  split <;> simp_all

def dateOf (t : UInt32) : Date := { year := year t, month := month t - 1, day := day t - 1 }

def Midnight (t : UInt32) : Prop := hour t = 0 ∧ minute t = 0

instance (t : UInt32) : Decidable (Midnight t) := inferInstanceAs (Decidable (_ ∧ _))

/-- The last tick of a day. -/
def Evening (t : UInt32) : Prop := hour t = 23 ∧ minute t = 55

instance (t : UInt32) : Decidable (Evening t) := inferInstanceAs (Decidable (_ ∧ _))

/-- The tick that takes the branch for a new year: any midnight of January. -/
def JanuaryMidnight (c : UInt32) : Prop :=
  minute c % 5 = 0 ∧ Midnight (localClock c) ∧ (dateOf (localClock c)).month = 0

instance (c : UInt32) : Decidable (JanuaryMidnight c) := inferInstanceAs (Decidable (_ ∧ _))

/-- The one midnight that begins a year. -/
def NewYear (c : UInt32) : Prop := JanuaryMidnight c ∧ (dateOf (localClock c)).day = 0

instance (c : UInt32) : Decidable (NewYear c) := inferInstanceAs (Decidable (_ ∧ _))

theorem dateOf_month (t : UInt32) : (dateOf t).month = (date t).month := by
  simp only [dateOf, month_eq, Nat.add_sub_cancel]

theorem dateOf_day (t : UInt32) : (dateOf t).day = (date t).day := by
  simp only [dateOf, day_eq, Nat.add_sub_cancel]

theorem dateOf_month_lt (t : UInt32) : (dateOf t).month < 12 := by
  rw [dateOf_month]
  exact (date t).month_lt

theorem dateOf_day_lt (t : UInt32) : (dateOf t).day < 31 := by
  rw [dateOf_day]
  exact (date t).day_lt.trans_le (Calendar.monthLength_le _ _)

end Clock

section Pulse

@[simp] theorem interrupt_counter (s : Globals) : (interruptRoutineFalling s).counter = s.counter + 1 := rfl

@[simp] theorem interrupt_table (s : Globals) : (interruptRoutineFalling s).tagesCounter = s.tagesCounter := rfl

@[simp] theorem interrupt_today (s : Globals) : (interruptRoutineFalling s).today = s.today := rfl

@[simp] theorem interrupt_rate (s : Globals) : (interruptRoutineFalling s).impulseProKwh = s.impulseProKwh := rfl

@[simp] theorem interrupt_output (s : Globals) : (interruptRoutineFalling s).ausgabe = s.ausgabe := rfl

end Pulse

section Saving

theorem eeAddress_lt (j i : Nat) (month : j < 12) (day : i < 31) : eeAddress j i + 4 ≤ 1488 := by
  unfold eeAddress
  omega

theorem eeAddress_disjoint (j i j' i' : Nat) (day : i < 31) (day' : i' < 31) (ne : ¬(j = j' ∧ i = i')) :
    eeAddress j i + 4 ≤ eeAddress j' i' ∨ eeAddress j' i' + 4 ≤ eeAddress j i := by
  unfold eeAddress
  omega

/-- The EEPROM after `putEeprom`. -/
def savedDay (tmp : UInt32) (m d : Nat) (word : UInt32) (e : EEPROMClass) : EEPROMClass :=
  if e.get (eeAddress m d) tmp ≠ word then (e.put (eeAddress m d) word).commit else e

theorem putEeprom_eq (tmp : UInt32) (m d : Nat) (s : Globals) :
    putEeprom tmp m d s = { s with eeprom := savedDay tmp m d (s.tagesCounter m d) s.eeprom } := by
  unfold putEeprom savedDay
  split <;> simp_all

variable {e : EEPROMClass}

theorem savedDay_settled (settled : Settled e) (tmp : UInt32) (m d : Nat) (word : UInt32) :
    Settled (savedDay tmp m d word e) := by
  unfold savedDay
  split
  · exact (settled.put _ _).commit
  · exact settled

/-- Whether or not the store is skipped, the buffer then holds the value. -/
theorem savedDay_data (settled : Settled e) (tmp : UInt32) (m d : Nat) (word : UInt32) (month : m < 12)
    (day : d < 31) : (savedDay tmp m d word e).data = ByteMemory.write32 e.data (eeAddress m d) word := by
  have fits : eeAddress m d + 4 ≤ opened := (eeAddress_lt m d month day).trans (by decide)
  unfold savedDay
  rw [settled.get _ _ fits]
  split
  · rw [commit_data, settled.put_data _ _ fits]
  · rename_i same
    rw [← not_not.mp same, ByteMemory.write32_read32]

theorem savedDay_closed (closed : e.size = 0) (tmp : UInt32) (m d : Nat) (word : UInt32) :
    savedDay tmp m d word e = e := by
  unfold savedDay
  rw [put_closed closed, commit_closed closed, ite_self]

end Saving

section FiveMinutes
variable (m d : Nat) (c : UInt32) (io : Readings) (s : Globals)

/-- The table after the energy of the counter has been booked on a day. -/
def bookedTable : Nat → Nat → UInt32 :=
  if s.impulseProKwh > 0 then fun j i => if j = m ∧ i = d then
    ((s.tagesCounter j i).toFloat32 + energyOf s.counter s.impulseProKwh).toUInt32 else s.tagesCounter j i
  else s.tagesCounter

def measured : Globals :=
  (Runs.run (exec m d c io) { sketch := s } (statements s.impulseProKwh).dropLast).sketch

theorem FuenfMinutenTimer_measured : FuenfMinutenTimer m d c io s =
    putEeprom io.tmp (measured m d c io s).today.month (measured m d c io s).today.day (measured m d c io s) := by
  have last : statements s.impulseProKwh = (statements s.impulseProKwh).dropLast ++ [.sichern] := by
    unfold statements
    split <;> rfl
  unfold FuenfMinutenTimer measured
  conv_lhs => rw [last, Runs.run_append]
  rfl

/-- All but the counter, the table, the outputs and the day's samples stays as it was. -/
def Kept (before after : Globals) : Prop :=
  after = { before with
    counter := after.counter, tagesCounter := after.tagesCounter, ausgabe := after.ausgabe
    fuenfMinutenZaehler := after.fuenfMinutenZaehler }

theorem exec_kept (frame : Frame) (statement : Statement) (ne : statement ≠ .sichern) :
    Kept frame.sketch (exec m d c io frame statement).sketch := by
  cases statement with
  | sichern => exact absurd rfl ne
  | maximum =>
    simp only [exec]
    split <;> rfl
  | _ => rfl

theorem foldl_kept (list : List Statement) (unsaved : .sichern ∉ list) (frame : Frame) :
    Kept frame.sketch (Runs.run (exec m d c io) frame list).sketch := by
  induction list generalizing frame with
  | nil => rfl
  | cons statement rest ih =>
    have head := exec_kept m d c io frame statement (fun same => unsaved (same ▸ List.mem_cons_self))
    have tail := ih (fun member => unsaved (List.mem_cons_of_mem _ member)) (exec m d c io frame statement)
    unfold Kept at *
    rw [Runs.run_cons, tail, head]

theorem measured_kept : Kept s (measured m d c io s) := by
  apply foldl_kept m d c io _ _ { sketch := s }
  unfold statements
  split <;> decide

/-- One spec of the whole call: the fields it sets, and everything else as before. -/
theorem FuenfMinutenTimer_eq : FuenfMinutenTimer m d c io s = { s with
    eeprom := savedDay io.tmp s.today.month s.today.day
      ((measured m d c io s).tagesCounter s.today.month s.today.day) s.eeprom
    tagesCounter := (measured m d c io s).tagesCounter
    ausgabe := (measured m d c io s).ausgabe
    fuenfMinutenZaehler := (measured m d c io s).fuenfMinutenZaehler
    counter := (measured m d c io s).counter } := by
  have kept := measured_kept m d c io s
  unfold Kept at kept
  rw [FuenfMinutenTimer_measured, putEeprom_eq]
  rw [kept]

theorem exec_table (frame : Frame) (statement : Statement) (ne : statement ≠ .tabelle)
    (unsaved : statement ≠ .sichern) :
    (exec m d c io frame statement).sketch.tagesCounter = frame.sketch.tagesCounter := by
  cases statement with
  | tabelle => exact absurd rfl ne
  | sichern => exact absurd rfl unsaved
  | maximum =>
    simp only [exec]
    split <;> rfl
  | _ => rfl

theorem exec_counter (frame : Frame) (statement : Statement) (ne : statement ≠ .reset)
    (unsaved : statement ≠ .sichern) :
    (exec m d c io frame statement).sketch.counter = frame.sketch.counter := by
  cases statement with
  | reset => exact absurd rfl ne
  | sichern => exact absurd rfl unsaved
  | maximum =>
    simp only [exec]
    split <;> rfl
  | _ => rfl

theorem exec_tmp (frame : Frame) (statement : Statement) (ne : statement ≠ .energie) :
    (exec m d c io frame statement).tmp = frame.tmp := by
  cases statement with
  | energie => exact absurd rfl ne
  | maximum =>
    simp only [exec]
    split <;> rfl
  | _ => rfl

/-- The statements that set the value of output `i`. -/
def setsValue (i : Nat) : Statement → Bool
  | .ertrag j => i == j
  | .spezifisch => i == 3
  | .zaehlerstand => i == 10
  | .leistung => i == 6
  | .maximum => i == 5
  | _ => false

theorem exec_value (i : Nat) (frame : Frame) (statement : Statement) (other : setsValue i statement = false)
    (unsaved : statement ≠ .sichern) :
    ((exec m d c io frame statement).sketch.ausgabe i).value = (frame.sketch.ausgabe i).value := by
  cases statement with
  | sichern => exact absurd rfl unsaved
  | maximum =>
    have ne : i ≠ 5 := by simpa [setsValue] using other
    simp only [exec]
    split
    · rw [setPrint_value, setValue_of_ne _ _ _ _ ne]
    · rfl
  | ertragText j => exact setPrint_value _ _ _ _
  | spezifischText => exact setPrint_value _ _ _ _
  | zaehlerstandText => exact setPrint_value _ _ _ _
  | leistungText => exact setPrint_value _ _ _ _
  | ertrag j =>
    have ne : i ≠ j := by simpa [setsValue] using other
    exact congrArg ValueStore.value (setValue_of_ne _ _ _ _ ne)
  | spezifisch =>
    have ne : i ≠ 3 := by simpa [setsValue] using other
    exact congrArg ValueStore.value (setValue_of_ne _ _ _ _ ne)
  | zaehlerstand =>
    have ne : i ≠ 10 := by simpa [setsValue] using other
    exact congrArg ValueStore.value (setValue_of_ne _ _ _ _ ne)
  | leistung =>
    have ne : i ≠ 6 := by simpa [setsValue] using other
    exact congrArg ValueStore.value (setValue_of_ne _ _ _ _ ne)
  | _ => rfl

/-- The statements that set the value or the text of output `i`. -/
def touches (i : Nat) : Statement → Bool
  | .ertrag j | .ertragText j => i == j
  | .spezifisch | .spezifischText => i == 3
  | .zaehlerstand | .zaehlerstandText => i == 10
  | .leistung | .leistungText => i == 6
  | .maximum => i == 5
  | _ => false

theorem exec_output (i : Nat) (frame : Frame) (statement : Statement) (other : touches i statement = false) :
    (exec m d c io frame statement).sketch.ausgabe i = frame.sketch.ausgabe i := by
  cases statement with
  | sichern => simp only [exec, putEeprom_eq]
  | maximum =>
    have ne : i ≠ 5 := by simpa [touches] using other
    simp only [exec]
    split
    · rw [setPrint_of_ne _ _ _ _ ne, setValue_of_ne _ _ _ _ ne]
    · rfl
  | ertrag j => exact setValue_of_ne _ _ _ _ (by simpa [touches] using other)
  | ertragText j => exact setPrint_of_ne _ _ _ _ (by simpa [touches] using other)
  | spezifisch => exact setValue_of_ne _ _ _ _ (by simpa [touches] using other)
  | spezifischText => exact setPrint_of_ne _ _ _ _ (by simpa [touches] using other)
  | zaehlerstand => exact setValue_of_ne _ _ _ _ (by simpa [touches] using other)
  | zaehlerstandText => exact setPrint_of_ne _ _ _ _ (by simpa [touches] using other)
  | leistung => exact setValue_of_ne _ _ _ _ (by simpa [touches] using other)
  | leistungText => exact setPrint_of_ne _ _ _ _ (by simpa [touches] using other)
  | _ => rfl

theorem exec_slots (frame : Frame) (statement : Statement) (ne : statement ≠ .slot) :
    (exec m d c io frame statement).sketch.fuenfMinutenZaehler = frame.sketch.fuenfMinutenZaehler := by
  cases statement with
  | slot => exact absurd rfl ne
  | sichern => simp only [exec, putEeprom_eq]
  | maximum =>
    simp only [exec]
    split <;> rfl
  | _ => rfl

theorem measured_split : ∃ frame : Frame, frame.sketch.counter = s.counter ∧
    frame.sketch.fuenfMinutenZaehler = s.fuenfMinutenZaehler ∧ frame.sketch.ausgabe 5 = s.ausgabe 5 ∧
    frame.sketch.ausgabe 6 = s.ausgabe 6 ∧
    measured m d c io s = (Runs.run (exec m d c io) frame powerStatements.dropLast).sketch := by
  refine ⟨Runs.run (exec m d c io) { sketch := s } (if s.impulseProKwh > 0 then energyStatements else []), ?_, ?_,
    ?_, ?_, ?_⟩
  · apply Runs.run_keeps (exec m d c io) (fun frame => frame.sketch.counter) _ _ { sketch := s }
    intro frame statement member
    apply exec_counter <;>
    rintro rfl <;>
    split at member <;>
    revert member <;>
    decide
  · apply Runs.run_keeps (exec m d c io) (fun frame => frame.sketch.fuenfMinutenZaehler) _ _ { sketch := s }
    intro frame statement member
    apply exec_slots
    intro same
    subst same
    split at member <;>
    revert member <;>
    decide
  · apply Runs.run_keeps (exec m d c io) (fun frame => frame.sketch.ausgabe 5) _ _ { sketch := s }
    intro frame statement member
    apply exec_output
    split at member <;>
    revert statement <;>
    decide
  · apply Runs.run_keeps (exec m d c io) (fun frame => frame.sketch.ausgabe 6) _ _ { sketch := s }
    intro frame statement member
    apply exec_output
    split at member <;>
    revert statement <;>
    decide
  · rw [← Runs.run_append]
    unfold measured statements
    split <;> rfl

theorem measured_slots : (measured m d c io s).fuenfMinutenZaehler =
    Function.update s.fuenfMinutenZaehler (hour c * 12 + minute c / 5) (powerOf s.counter).toUInt32 := by
  obtain ⟨frame, counter, slots, _, _, same⟩ := measured_split m d c io s
  have last := Runs.run_keeps (exec m d c io) (fun frame => frame.sketch.fuenfMinutenZaehler) [.maximum, .reset]
    (fun frame statement member => exec_slots m d c io frame statement (by rintro rfl; revert member; decide))
  have power : ((exec m d c io (exec m d c io frame .leistung) .leistungText).sketch.ausgabe 6).value =
      powerOf s.counter := by
    rw [← counter]
    exact (setPrint_value _ _ _ _).trans (setValue_self _ _ _)
  have cut : powerStatements.dropLast = [.leistung, .leistungText, .slot] ++ [.maximum, .reset] := rfl
  rw [same, cut, Runs.run_append, last, ← slots, ← power]
  rfl

theorem measured_counter : (measured m d c io s).counter = 0 := by
  have before : (statements s.impulseProKwh).dropLast =
      ((statements s.impulseProKwh).dropLast).dropLast ++ [.reset] := by
    unfold statements
    split <;> rfl
  unfold measured
  rw [before, Runs.run_append]
  rfl

theorem measured_table : (measured m d c io s).tagesCounter = bookedTable m d s := by
  unfold measured bookedTable statements
  by_cases positive : s.impulseProKwh > 0
  · simp only [if_pos positive]
    have split : (energyStatements ++ powerStatements).dropLast = .energie :: .tabelle ::
      (energyStatements ++ powerStatements).dropLast.drop 2 := rfl
    rw [split, Runs.run_cons, Runs.run_cons]
    apply Runs.run_keeps (exec m d c io) (fun frame => frame.sketch.tagesCounter)
    intro frame statement member
    exact exec_table m d c io frame statement (by rintro rfl; revert member; decide)
      (by rintro rfl; revert member; decide)
  · simp only [if_neg positive]
    apply Runs.run_keeps (exec m d c io) (fun frame => frame.sketch.tagesCounter) _ _ { sketch := s }
    intro frame statement member
    exact exec_table m d c io frame statement (by rintro rfl; revert member; decide)
      (by rintro rfl; revert member; decide)

/-- The energy statements set `tmp` first, and each running total adds it once. -/
theorem value_after_booking (i : Nat) (before after : List Statement) (add : Statement)
    (adds : ∀ frame, ((exec m d c io frame add).sketch.ausgabe i).value =
      (frame.sketch.ausgabe i).value + frame.tmp)
    (quietBefore : ∀ statement ∈ before, setsValue i statement = false ∧ statement ≠ .sichern ∧
      statement ≠ .energie)
    (quietAfter : ∀ statement ∈ after, setsValue i statement = false ∧ statement ≠ .sichern) :
    ((Runs.run (exec m d c io) { sketch := s } (.energie :: before ++ add :: after)).sketch.ausgabe i).value =
      (s.ausgabe i).value + energyOf s.counter s.impulseProKwh := by
  rw [Runs.run_append, Runs.run_cons, Runs.run_cons]
  have last := Runs.run_keeps (exec m d c io) (fun frame => (frame.sketch.ausgabe i).value) after
    (fun frame statement member => exec_value m d c io i frame statement (quietAfter statement member).1
      (quietAfter statement member).2)
  have value := Runs.run_keeps (exec m d c io) (fun frame => (frame.sketch.ausgabe i).value) before
    (fun frame statement member => exec_value m d c io i frame statement (quietBefore statement member).1
      (quietBefore statement member).2.1)
  have tmp := Runs.run_keeps (exec m d c io) Frame.tmp before
    (fun frame statement member => exec_tmp m d c io frame statement (quietBefore statement member).2.2)
  rw [last, adds, value, tmp]
  rfl

def isTotal (i : Nat) : Prop := i = 0 ∨ i = 1 ∨ i = 2 ∨ i = 10

theorem measured_total (i : Nat) (total : isTotal i) : ((measured m d c io s).ausgabe i).value =
    if s.impulseProKwh > 0 then (s.ausgabe i).value + energyOf s.counter s.impulseProKwh
      else (s.ausgabe i).value := by
  unfold measured statements
  by_cases positive : s.impulseProKwh > 0
  · simp only [if_pos positive]
    have cut (n : Nat) : (energyStatements ++ powerStatements).dropLast =
        (energyStatements ++ powerStatements).dropLast.take n ++
        (energyStatements ++ powerStatements).dropLast.drop n :=
      (List.take_append_drop n _).symm
    rcases total with rfl | rfl | rfl | rfl
    · rw [cut 2]
      exact value_after_booking m d c io s 0 [.tabelle] _ (.ertrag 0) (fun _ => setValue_self _ _ _) (by decide)
        (by decide)
    · rw [cut 4]
      exact value_after_booking m d c io s 1 [.tabelle, .ertrag 0, .ertragText 0] _ (.ertrag 1)
        (fun _ => setValue_self _ _ _) (by decide) (by decide)
    · rw [cut 6]
      exact value_after_booking m d c io s 2 [.tabelle, .ertrag 0, .ertragText 0, .ertrag 1, .ertragText 1] _
        (.ertrag 2)
        (fun _ => setValue_self _ _ _) (by decide) (by decide)
    · rw [cut 10]
      exact value_after_booking m d c io s 10 [.tabelle, .ertrag 0, .ertragText 0, .ertrag 1, .ertragText 1,
        .ertrag 2, .ertragText 2, .spezifisch, .spezifischText] _ .zaehlerstand (fun _ => setValue_self _ _ _)
        (by decide) (by decide)
  · simp only [if_neg positive]
    apply Runs.run_keeps (exec m d c io) (fun frame => (frame.sketch.ausgabe i).value) _ _ { sketch := s }
    intro frame statement member
    rcases total with rfl | rfl | rfl | rfl <;>
    exact exec_value m d c io _ frame statement (by revert statement; decide)
      (by rintro rfl; revert member; decide)

end FiveMinutes

section Minute
variable (c : UInt32) (io : Readings) (s : Globals)

/-- The EEPROM once the credited day is saved beside today. -/
def creditedEeprom : EEPROMClass :=
  let today := dateOf (localClock c)
  let table := bookedTable s.yesterday.month s.yesterday.day s
  savedDay io.tmp s.yesterday.month s.yesterday.day (table s.yesterday.month s.yesterday.day)
    (savedDay io.tmp today.month today.day (table today.month today.day) s.eeprom)

/-- The EEPROM after `deleteEEPROM`. -/
def erased (e : EEPROMClass) : EEPROMClass := ((List.range tableSize).foldl (fun e j => e.put j 0) e).commit.close

theorem deleteEEPROM_eq : deleteEEPROM s = { s with eeprom := erased s.eeprom } := rfl

/-- The table after a midnight tick. -/
def rolledTable : Nat → Nat → UInt32 :=
  let today := dateOf (localClock c)
  let table := bookedTable s.yesterday.month s.yesterday.day s
  if today.day = 0 then fun j i => if j = today.month ∧ i ≤ anzahlTage then 0 else table j i else table

theorem everyMinute_idle (idle : minute c % 5 ≠ 0) : everyMinute c io s = { s with
    sommerzeit := summertime_EU (year c) (month c) (day c) (hour c) 1, t := localClock c
    ausgabe := (everyMinute c io s).ausgabe } := by
  simp only [everyMinute, if_neg idle, localTime_eq]
  rfl

theorem everyMinute_sameDay (tick : minute c % 5 = 0) (still : ¬Midnight (localClock c)) :
    everyMinute c io s = { s with
      sommerzeit := summertime_EU (year c) (month c) (day c) (hour c) 1
      t := localClock c
      today := dateOf (localClock c)
      yesterday := if Evening (localClock c) then dateOf (localClock c) else s.yesterday
      eeprom := savedDay io.tmp (dateOf (localClock c)).month (dateOf (localClock c)).day
        (bookedTable (dateOf (localClock c)).month (dateOf (localClock c)).day s
          (dateOf (localClock c)).month (dateOf (localClock c)).day) s.eeprom
      tagesCounter := bookedTable (dateOf (localClock c)).month (dateOf (localClock c)).day s
      ausgabe := (everyMinute c io s).ausgabe
      fuenfMinutenZaehler := (everyMinute c io s).fuenfMinutenZaehler
      counter := 0 } := by
  have noMidnight : ¬(hour (localClock c) = 0 ∧ minute (localClock c) = 0) := still
  by_cases evening : Evening (localClock c)
  · have last : hour (localClock c) = 23 ∧ minute (localClock c) = 55 := evening
    simp only [everyMinute, if_pos tick, localTime_eq, fiveMinutes, if_neg noMidnight, sameDay,
      FuenfMinutenTimer_eq, measured_table, measured_counter, Globals.setPrint, Globals.setValue, if_pos last,
      if_pos evening]
    rfl
  · have notLast : ¬(hour (localClock c) = 23 ∧ minute (localClock c) = 55) := evening
    simp only [everyMinute, if_pos tick, localTime_eq, fiveMinutes, if_neg noMidnight, sameDay,
      FuenfMinutenTimer_eq, measured_table, measured_counter, Globals.setPrint, Globals.setValue, if_neg notLast,
      if_neg evening]
    rfl

theorem everyMinute_newDay (tick : minute c % 5 = 0) (midnight : Midnight (localClock c)) :
    everyMinute c io s = { s with
      sommerzeit := summertime_EU (year c) (month c) (day c) (hour c) 1
      t := localClock c
      today := dateOf (localClock c)
      eeprom := if (dateOf (localClock c)).month = 0 then erased (creditedEeprom c io s) else creditedEeprom c io s
      spiffs := if (dateOf (localClock c)).month = 0 then
        Spiffs.rewrite backupPath (backupText io.tmp (creditedEeprom c io s)) s.spiffs else s.spiffs
      tagesCounter := rolledTable c s
      ausgabe := (everyMinute c io s).ausgabe
      fuenfMinutenZaehler := (everyMinute c io s).fuenfMinutenZaehler
      counter := 0 } := by
  have isMidnight : hour (localClock c) = 0 ∧ minute (localClock c) = 0 := midnight
  have today (t : UInt32) : ({ year := year t, month := month t - 1, day := day t - 1 } : Date) = dateOf t := rfl
  by_cases first : (dateOf (localClock c)).day = 0 <;> by_cases january : (dateOf (localClock c)).month = 0
  all_goals
    simp only [everyMinute, if_pos tick, localTime_eq, fiveMinutes, if_pos isMidnight, newDay,
      FuenfMinutenTimer_eq, measured_table, measured_counter, putEeprom_eq, bookYesterday, resetDay, newMonth,
      newYear, deleteEEPROM_eq, backup2file, bookedTable, Globals.setPrint, Globals.setValue, today, first, january,
      rolledTable, creditedEeprom, if_true, if_false]

theorem everyMinute_counter (tick : minute c % 5 = 0) : (everyMinute c io s).counter = 0 := by
  by_cases midnight : Midnight (localClock c)
  · rw [everyMinute_newDay c io s tick midnight]
  · rw [everyMinute_sameDay c io s tick midnight]

theorem everyMinute_rate : (everyMinute c io s).impulseProKwh = s.impulseProKwh := by
  by_cases tick : minute c % 5 = 0
  · by_cases midnight : Midnight (localClock c)
    · rw [everyMinute_newDay c io s tick midnight]
    · rw [everyMinute_sameDay c io s tick midnight]
  · rw [everyMinute_idle c io s tick]

/-- A running total after a call that finds `s`. -/
def creditedTotal (i : Nat) : Float32 :=
  if s.impulseProKwh > 0 then (s.ausgabe i).value + energyOf s.counter s.impulseProKwh else (s.ausgabe i).value

theorem everyMinute_idle_value (i : Nat) (ne : i ≠ 9) (idle : minute c % 5 ≠ 0) :
    ((everyMinute c io s).ausgabe i).value = (s.ausgabe i).value := by
  simp only [everyMinute, if_neg idle, localTime_eq]
  rw [setPrint_value, setValue_of_ne _ _ _ _ ne]

theorem everyMinute_sameDay_total (i : Nat) (total : isTotal i) (tick : minute c % 5 = 0)
    (still : ¬Midnight (localClock c)) : ((everyMinute c io s).ausgabe i).value = creditedTotal s i := by
  have ne : i ≠ 9 := by rcases total with rfl | rfl | rfl | rfl <;> decide
  have noMidnight : ¬(hour (localClock c) = 0 ∧ minute (localClock c) = 0) := still
  have uptime (v : Float32) : ((s.setValue 9 v).ausgabe i).value = (s.ausgabe i).value := by
    rw [setValue_of_ne _ _ _ _ ne]
  simp only [everyMinute, if_pos tick, localTime_eq, fiveMinutes, if_neg noMidnight, sameDay]
  rw [setPrint_value, setPrint_value]
  split <;>
  simp only [FuenfMinutenTimer_eq, measured_total _ _ _ _ _ i total, setPrint_value, uptime] <;>
  rfl

theorem bookYesterday_eq : bookYesterday c io s = { s with
    eeprom := (bookYesterday c io s).eeprom
    tagesCounter := (bookYesterday c io s).tagesCounter
    ausgabe := (measured s.yesterday.month s.yesterday.day c io s).ausgabe
    fuenfMinutenZaehler := (bookYesterday c io s).fuenfMinutenZaehler
    counter := (bookYesterday c io s).counter } := by
  simp only [bookYesterday, putEeprom_eq, FuenfMinutenTimer_eq]

theorem resetDay_value (i : Nat) (day : i ≠ 0) (maximum : i ≠ 5) : (resetDay s).ausgabe i = s.ausgabe i := by
  unfold resetDay
  dsimp only
  rw [setValue_of_ne _ _ _ _ maximum, setValue_of_ne _ _ _ _ day]

theorem resetDay_today : (resetDay s).today = s.today := by
  simp only [resetDay, Globals.setValue]

theorem newMonth_today : (newMonth s).today = s.today := by
  simp only [newMonth, Globals.setValue]

/-- A midnight tick up to the test for a new year. -/
def rolledDay : Globals :=
  if s.today.day = 0 then newMonth (resetDay (bookYesterday c io s)) else resetDay (bookYesterday c io s)

theorem newDay_eq : newDay c io s =
    if s.today.month = 0 then newYear io.tmp (rolledDay c io s) else rolledDay c io s := by
  have booked : (bookYesterday c io s).today = s.today := by rw [bookYesterday_eq]
  have reset : (resetDay (bookYesterday c io s)).today = s.today := (resetDay_today _).trans booked
  have today : (rolledDay c io s).today = s.today := by
    unfold rolledDay
    split
    · exact (newMonth_today _).trans reset
    · exact reset
  unfold newDay
  dsimp only
  rw [reset]
  change (if (rolledDay c io s).today.month = 0 then newYear io.tmp (rolledDay c io s) else rolledDay c io s) = _
  rw [today]

theorem newMonth_year : ((newMonth s).ausgabe 2).value = (s.ausgabe 2).value :=
  congrArg ValueStore.value (setValue_of_ne _ _ _ _ (by decide))

theorem newYear_year (tmp : UInt32) : ((newYear tmp s).ausgabe 2).value = 0 := setValue_self _ _ _

theorem rolledDay_year : ((rolledDay c io s).ausgabe 2).value = creditedTotal s 2 := by
  have booked : ((resetDay (bookYesterday c io s)).ausgabe 2).value = creditedTotal s 2 := by
    rw [resetDay_value _ 2 (by decide) (by decide), bookYesterday_eq]
    exact measured_total _ _ _ _ _ 2 (.inr (.inr (.inl rfl)))
  unfold rolledDay
  split
  · rw [newMonth_year, booked]
  · exact booked

theorem everyMinute_newDay_year (tick : minute c % 5 = 0) (midnight : Midnight (localClock c)) :
    ((everyMinute c io s).ausgabe 2).value =
      if (dateOf (localClock c)).month = 0 then 0 else creditedTotal s 2 := by
  have isMidnight : hour (localClock c) = 0 ∧ minute (localClock c) = 0 := midnight
  have today (t : UInt32) : ({ year := year t, month := month t - 1, day := day t - 1 } : Date) = dateOf t := rfl
  have uptime (v : Float32) : ((s.setValue 9 v).ausgabe 2).value = (s.ausgabe 2).value := by
    rw [setValue_of_ne _ _ _ _ (by decide)]
  simp only [everyMinute, if_pos tick, localTime_eq, fiveMinutes, if_pos isMidnight, newDay_eq, today]
  rw [setPrint_value, setPrint_value]
  by_cases january : (dateOf (localClock c)).month = 0
  · rw [if_pos january, if_pos january, newYear_year]
  · rw [if_neg january, if_neg january, rolledDay_year]
    simp only [creditedTotal, setPrint_value, uptime]
    rfl

end Minute
end EspLog.Effects

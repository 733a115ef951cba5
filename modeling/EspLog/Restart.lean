import EspLog.Effects

/-! What a start restores: the table word by word and each setting from its address, all
read from the flash and independent of what the RAM held before. -/

namespace EspLog.Restart
open CText Eeprom ExactFloat Sketch Functions Setup ByteMemory Effects

section Table
variable (now : Nat → Nat → UInt32) (j : Nat)

/-- What `restoreDay` leaves alone while it fills the table and the yields. -/
def Filled (before after : Globals) : Prop :=
  after = { before with tagesCounter := after.tagesCounter, ausgabe := after.ausgabe }

theorem restoreDay_filled (s : Globals) (i : Nat) : Filled s (restoreDay now j s i) := by
  simp only [Filled, restoreDay]
  split <;> split <;> rfl

theorem Filled.trans {first second third : Globals} (before : Filled first second) (after : Filled second third) :
    Filled first third := by
  unfold Filled at *
  rw [after, before]

section Fields
variable {before after : Globals} (filled : Filled before after)
include filled

theorem Filled.eeprom : after.eeprom = before.eeprom := by
  rw [filled]

theorem Filled.spiffs : after.spiffs = before.spiffs := by
  rw [filled]

theorem Filled.today : after.today = before.today := by
  rw [filled]

theorem Filled.yesterday : after.yesterday = before.yesterday := by
  rw [filled]

theorem Filled.counter : after.counter = before.counter := by
  rw [filled]

end Fields

theorem filled_run {Event : Type} (step : Globals → Event → Globals) (fills : ∀ s event, Filled s (step s event))
    (events : List Event) (s : Globals) : Filled s (events.foldl step s) := by
  induction events generalizing s with
  | nil => rfl
  | cons event later ih => exact (fills s event).trans (ih _)

theorem restoreTable_filled (s : Globals) : Filled s (restoreTable now s) :=
  filled_run _ (fun s j => filled_run _ (restoreDay_filled now j) _ s) _ s

theorem restoreDay_table (s : Globals) (i m d : Nat) : (restoreDay now j s i).tagesCounter m d =
    if m = j ∧ d = i then s.eeprom.get (eeAddress j i) (s.tagesCounter j i) else s.tagesCounter m d := by
  simp only [restoreDay]
  split <;> split <;> rfl

theorem restoreDays_table (s : Globals) (n m d : Nat) :
    ((List.range n).foldl (restoreDay now j) s).tagesCounter m d =
      if m = j ∧ d < n then s.eeprom.get (eeAddress j d) (s.tagesCounter j d) else s.tagesCounter m d := by
  induction n generalizing m d with
  | zero => simp
  | succ n ih =>
    have filled := filled_run _ (restoreDay_filled now j) (List.range n) s
    have eeprom := filled.eeprom
    have earlier : ((List.range n).foldl (restoreDay now j) s).tagesCounter j n = s.tagesCounter j n := by
      simpa using ih j n
    rw [List.range_succ, List.foldl_append, List.foldl_cons, List.foldl_nil, restoreDay_table, eeprom,
      earlier, ih m d]
    by_cases last : m = j ∧ d = n
    · obtain ⟨month, day⟩ := last
      subst month day
      simp
    · have range : (m = j ∧ d < n + 1) ↔ (m = j ∧ d < n) := by omega
      rw [if_neg last, if_congr range rfl rfl]

theorem restoreMonths_table (s : Globals) (n m d : Nat) (day : d < 31) :
    ((List.range n).foldl (restoreMonth now) s).tagesCounter m d =
      if m < n then s.eeprom.get (eeAddress m d) (s.tagesCounter m d) else s.tagesCounter m d := by
  induction n generalizing m with
  | zero => simp
  | succ n ih =>
    have filled := filled_run _ (fun s j => filled_run _ (restoreDay_filled now j) (List.range (anzahlTage + 1)) s)
      (List.range n) s
    have eeprom := filled.eeprom
    rw [List.range_succ, List.foldl_append, List.foldl_cons, List.foldl_nil, restoreMonth, restoreDays_table]
    have earlier : ((List.range n).foldl (restoreMonth now) s).tagesCounter n d = s.tagesCounter n d := by
      simpa using ih n
    have whole : d < anzahlTage + 1 := day
    rw [ih m, earlier]
    by_cases last : m = n
    · subst last
      rw [if_pos ⟨rfl, whole⟩, if_pos (Nat.lt_succ_self m)]
      exact congrArg (fun e : EEPROMClass => e.get _ _) eeprom
    · by_cases before : m < n
      · have within : m < n + 1 := by omega
        simp [last, before, within]
      · have beyond : ¬m < n + 1 := by omega
        simp [last, before, beyond]

theorem restoreTable_table (s : Globals) (m d : Nat) (month : m < 12) (day : d < 31) :
    (restoreTable now s).tagesCounter m d = s.eeprom.get (eeAddress m d) (s.tagesCounter m d) := by
  rw [restoreTable, restoreMonths_table now s _ m d day, if_pos (show m < anzahlMonate + 1 from month)]

end Table

section Settings

def floatAt (memory : Memory) (address : Nat) : Float32 := Float32.ofBits (read32 memory address)

theorem storedFloat_begin (e : EEPROMClass) (address : Nat) (floatTmp : Float32) (fits : address + 4 ≤ opened) :
    storedFloat (e.begin opened) address floatTmp = floatAt e.flash address := by
  have inside : ¬address + 4 > (e.begin opened).size := by rw [begin_size]; omega
  simp only [storedFloat, EEPROMClass.get, if_neg inside, begin_data, floatAt]

/-- The settings that a start makes of the flash. -/
structure Restored (memory : Memory) (s : Globals) : Prop where
  impulseProKwh : s.impulseProKwh = if floatAt memory adresseEepromZK > 0
    then (floatAt memory adresseEepromZK).toUInt32 else 1000
  compensation : s.compensation = if floatAt memory adresseEepromCO > 0 then floatAt memory adresseEepromCO else 0
  generatorLeistung : s.generatorLeistung =
    if floatAt memory adresseEepromGL > 0 then (floatAt memory adresseEepromGL).toUInt32 else 0
  offset : s.offset = if floatAt memory adresseEepromOF > 0 then floatAt memory adresseEepromOF else 0
  fhemPort : s.fhemPort = if floatAt memory adresseEepromFhemPort > 0 ∧ floatAt memory
    adresseEepromFhemPort < 65535 then
    truncate (floatAt memory adresseEepromFhemPort) else 8383
  fhemHost : ∀ i, i < 4 → s.fhemHost i = memory (adresseEepromFhemHost + i * 2)

theorem restoreHostBytes_eq (s : Globals) : (List.range 4).foldl restoreHostByte s = { s with
    fhemHost := fun i => if i < 4 then s.eeprom.read (adresseEepromFhemHost + i * 2) else s.fhemHost i } := by
  have four : List.range 4 = [0, 1, 2, 3] := rfl
  simp only [four, List.foldl_cons, List.foldl_nil, restoreHostByte]
  congr 1
  funext i
  by_cases inside : i < 4
  · rw [if_pos inside]
    obtain rfl | rfl | rfl | rfl : i = 0 ∨ i = 1 ∨ i = 2 ∨ i = 3 := by omega
    all_goals simp
  · have ne (k : Nat) (small : k < 4) : i ≠ k := by omega
    simp [inside, Function.update_of_ne, ne]

theorem restoreSettings_spec (floatTmp : Float32) (s : Globals) (e : EEPROMClass)
    (begun : s.eeprom = e.begin opened) :
    Restored e.flash (restoreSettings floatTmp s).1 := by
  have zk := storedFloat_begin e adresseEepromZK
  have co := storedFloat_begin e adresseEepromCO
  have gl := storedFloat_begin e adresseEepromGL
  have off := storedFloat_begin e adresseEepromOF
  have port := storedFloat_begin e adresseEepromFhemPort
  constructor
  all_goals
    simp only [restoreSettings, restoreZaehlerkonstante, restoreVerguetung, restoreGeneratorleistung,
      restoreZaehleroffset, restoreSimulation, restoreFhemPort, restoreFhemHost, restoreLog, write2logfile,
      Globals.setValue, Globals.setPrint, begun, restoreHostBytes_eq]
  · rw [zk _ (by decide)]
  · rw [co _ (by decide)]
  · rw [gl _ (by decide)]
  · rw [off _ (by decide)]
  · rw [port _ (by decide)]
  · intro i small
    have inside : ¬adresseEepromFhemHost + i * 2 ≥ (e.begin opened).size := by
      rw [begin_size, adresseEepromFhemHost, opened]
      omega
    rw [if_pos small, EEPROMClass.read, if_neg inside, begin_data]

theorem restoreSettings_frame (floatTmp : Float32) (s : Globals) :
    (restoreSettings floatTmp s).1.eeprom = s.eeprom ∧ (restoreSettings floatTmp s).1.tagesCounter =
      s.tagesCounter ∧
      (restoreSettings floatTmp s).1.today = s.today ∧ (restoreSettings floatTmp s).1.yesterday = s.yesterday ∧
      (restoreSettings floatTmp s).1.counter = s.counter := by
  simp only [restoreSettings, restoreZaehlerkonstante, restoreVerguetung, restoreGeneratorleistung,
    restoreZaehleroffset, restoreSimulation, restoreFhemPort, restoreFhemHost, restoreLog, write2logfile,
    Globals.setValue, Globals.setPrint, restoreHostBytes_eq, and_self]

/-- Only outputs and files differ. -/
def Printed (before after : Globals) : Prop :=
  after = { before with ausgabe := after.ausgabe, spiffs := after.spiffs }

theorem Printed.print {before after : Globals} (printed : Printed before after) (i : Nat) (p : Str) :
    Printed before (after.setPrint i p) := by
  unfold Printed at *
  rw [printed]
  rfl

theorem Printed.value {before after : Globals} (printed : Printed before after) (i : Nat) (v : Float32) :
    Printed before (after.setValue i v) := by
  unfold Printed at *
  rw [printed]
  rfl

theorem Printed.log {before after : Globals} (printed : Printed before after) (logtext : Str) :
    Printed before (write2logfile logtext after) := by
  unfold Printed at *
  rw [printed]
  rfl

theorem Printed.restored {memory : Memory} {before after : Globals} (printed : Printed before after)
    (restored : Restored memory before) : Restored memory after := by
  rw [printed]
  exact ⟨restored.1, restored.2, restored.3, restored.4, restored.5, restored.6⟩

theorem Printed.eeprom {before after : Globals} (printed : Printed before after) :
    after.eeprom = before.eeprom := by
  rw [printed]

theorem Printed.yesterday {before after : Globals} (printed : Printed before after) :
    after.yesterday = before.yesterday := by
  rw [printed]

theorem Printed.today {before after : Globals} (printed : Printed before after) : after.today = before.today := by
  rw [printed]

theorem Printed.counter {before after : Globals} (printed : Printed before after) :
    after.counter = before.counter := by
  rw [printed]

theorem Printed.table {before after : Globals} (printed : Printed before after) :
    after.tagesCounter = before.tagesCounter := by
  rw [printed]

theorem keeps_ite {good : Globals → Prop} {first second : Globals} (condition : Prop) [Decidable condition]
    (left : good first) (right : good second) : good (if condition then first else second) := by
  split
  · exact left
  · exact right

theorem restoreTexts_keeps (good : Globals → Prop) (print : ∀ s i p, i < 4 → good s → good (s.setPrint i p))
    (value : ∀ s v, good s → good (s.setValue 3 v)) (log : ∀ s logtext, good s → good (write2logfile logtext s))
    (floatTmp : Float32) (s : Globals) (start : good s) : good (restoreTexts floatTmp s) := by
  unfold restoreTexts
  have month (yield : Str) (s : Globals) (before : good s) : good
      (if (s.ausgabe 1).value > 0 then s.setPrint 1 yield else s.setPrint 1 (dtostrf 0 2 0)) :=
    keeps_ite _ (print s 1 yield (by decide) before) (print s 1 _ (by decide) before)
  have year (yield : Str) (specific : Globals → Float32) (s : Globals) (before : good s) : good
      (if (s.ausgabe 2).value > 0 then
        let s := s.setPrint 2 yield
        let s := s.setValue 3 (specific s)
        s.setPrint 3 (dtostrf (toDouble (s.ausgabe 3).value) 2 2)
      else s.setPrint 2 (dtostrf 0 2 0)) :=
    keeps_ite _ (print _ 3 _ (by decide) (value _ _ (print s 2 yield (by decide) before)))
      (print s 2 _ (by decide) before)
  exact year _ (fun s => toSingle (toDouble (s.ausgabe 2).value / (s.generatorLeistung.toFloat / 1))) _
    (month _ _ (log _ _ (print _ 0 _ (by decide) (print s 3 _ (by decide) start))))

theorem restoreTexts_printed (floatTmp : Float32) (s : Globals) : Printed s (restoreTexts floatTmp s) :=
  restoreTexts_keeps (Printed s) (fun _ i p _ printed => printed.print i p) (fun _ v printed => printed.value 3 v)
    (fun _ logtext printed => printed.log logtext) floatTmp s rfl

end Settings

section Setup
variable (boot : Boot) (s : Globals)

theorem setupNtp_eq (c : UInt32) : setupNtp c s = { s with
    spiffs := (setupNtp c s).spiffs
    sommerzeit := (setupNtp c s).sommerzeit
    t := localClock c
    today := dateOf (localClock c) } := by
  simp only [setupNtp, localTime_eq, write2logfile]
  rfl

theorem setPrint_filled (i : Nat) (p : Str) : Filled s (s.setPrint i p) := rfl

theorem setName_filled (i : Nat) (p : Str) : Filled s (s.setName i p) := rfl

theorem setupStructAusgabe_filled (io : Readings) : Filled s (setupStructAusgabe io s) := by
  have names := filled_run (fun (s : Globals) (output : String × Nat) => s.setName output.2 (text output.1))
    (fun s output => setName_filled s output.2 _) realNames.zipIdx s
  have zeros := filled_run (fun (s : Globals) (i : Nat) => s.setPrint i (dtostrf 0 2 0))
    (fun s i => setPrint_filled s i _) [3, 4, 5, 6, 9, 10]
    (realNames.zipIdx.foldl (fun s output => s.setName output.2 (text output.1)) s)
  exact ((names.trans zeros).trans (setPrint_filled _ 7 _)).trans (setPrint_filled _ 8 _)

/-- The state in which `setup` starts to restore the table. -/
def begun : Globals :=
  write2logfile (text "Restore Data from EEPROM ...")
    { setupStructAusgabe boot.io (setupNtp boot.clock s) with
      eeprom := (setupStructAusgabe boot.io (setupNtp boot.clock s)).eeprom.begin opened }

/-- The state in which `setup` has restored the table and the settings. -/
def settled : Globals × Float32 :=
  restoreSettings (Float32.ofBits boot.io.tmp) (restoreTable boot.now (begun boot s))

theorem setup_printed : Printed (settled boot s).1 (setup boot s) :=
  (restoreTexts_printed (settled boot s).2 (settled boot s).1).log _

theorem begun_eeprom : (begun boot s).eeprom = s.eeprom.begin opened := by
  have ntp := congrArg Globals.eeprom (setupNtp_eq s boot.clock)
  have names := (setupStructAusgabe_filled (setupNtp boot.clock s) boot.io).eeprom
  exact congrArg (fun e : EEPROMClass => e.begin opened) (names.trans ntp)

theorem restored_eeprom : (restoreTable boot.now (begun boot s)).eeprom = s.eeprom.begin opened := by
  exact (restoreTable_filled boot.now (begun boot s)).eeprom.trans (begun_eeprom boot s)

theorem setup_eeprom : (setup boot s).eeprom = s.eeprom.begin opened :=
  calc (setup boot s).eeprom = (settled boot s).1.eeprom := (setup_printed boot s).eeprom
    _ = (restoreTable boot.now (begun boot s)).eeprom := (restoreSettings_frame _ _).1
    _ = s.eeprom.begin opened := restored_eeprom boot s

theorem setup_restored : Restored s.eeprom.flash (setup boot s) :=
  (setup_printed boot s).restored (restoreSettings_spec _ _ s.eeprom (restored_eeprom boot s))

theorem setup_table (m d : Nat) (month : m < 12) (day : d < 31) :
    (setup boot s).tagesCounter m d = read32 s.eeprom.flash (eeAddress m d) := by
  have inside : ¬eeAddress m d + 4 > (s.eeprom.begin opened).size := by
    have := eeAddress_lt m d month day
    rw [begin_size, opened]
    omega
  have kept : (setup boot s).tagesCounter = (restoreTable boot.now (begun boot s)).tagesCounter :=
    calc (setup boot s).tagesCounter = (settled boot s).1.tagesCounter := (setup_printed boot s).table
      _ = (restoreTable boot.now (begun boot s)).tagesCounter := (restoreSettings_frame _ _).2.1
  rw [kept, restoreTable_table _ _ m d month day, begun_eeprom, EEPROMClass.get, if_neg inside, begin_data]

/-- A start leaves the date at which it finds `yesterday`, and a restart finds none. -/
theorem setup_yesterday : (setup boot s).yesterday = s.yesterday := by
  have ntp := congrArg Globals.yesterday (setupNtp_eq s boot.clock)
  have names := (setupStructAusgabe_filled (setupNtp boot.clock s) boot.io).yesterday
  have table := (restoreTable_filled boot.now (begun boot s)).yesterday
  have opened (s : Globals) (e : EEPROMClass) (logtext : Str) :
      (write2logfile logtext { s with eeprom := e }).yesterday = s.yesterday := rfl
  calc (setup boot s).yesterday = (settled boot s).1.yesterday := (setup_printed boot s).yesterday
    _ = (restoreTable boot.now (begun boot s)).yesterday := (restoreSettings_frame _ _).2.2.2.1
    _ = (begun boot s).yesterday := table
    _ = (setupStructAusgabe boot.io (setupNtp boot.clock s)).yesterday := opened _ _ _
    _ = (setupNtp boot.clock s).yesterday := names
    _ = s.yesterday := ntp

end Setup
end EspLog.Restart

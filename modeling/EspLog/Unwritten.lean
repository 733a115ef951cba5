import EspLog.Totals

/-! Storage that was never written. An erased flash reads 0xFF everywhere; as a float that is no number, so
that the test of a restored setting fails and its default is taken. The table is read without such a test. -/

namespace EspLog.Unwritten
open CText Eeprom ExactFloat Rounding Sketch Functions Setup ByteMemory Effects Restart Outputs Totals TimeLib

section Words
variable (memory : Memory)

/-- The word still reads as erased. -/
def NeverWritten (address : Nat) : Prop := read32 memory address = 0xFFFFFFFF

instance (address : Nat) : Decidable (NeverWritten memory address) := inferInstanceAs (Decidable (_ = _))

/-- The day has no count yet. -/
def NoCount (cell : Nat × Nat) : Prop := NeverWritten memory (eeAddress cell.1 cell.2)

instance (cell : Nat × Nat) : Decidable (NoCount memory cell) := inferInstanceAs (Decidable (NeverWritten _ _))

/-- The count of a day, where a day without one counts as empty. -/
def count (cell : Nat × Nat) : UInt32 := if NoCount memory cell then 0 else word memory cell

def written : List (Nat × Nat) := cells.filter fun cell => ¬NoCount memory cell

/-- The counts of some days, added up as a start adds them. -/
def total (days : List (Nat × Nat)) : Float32 := Runs.run (fun v cell => v + (word memory cell).toFloat32) 0 days

theorem total_filter (chosen : Nat × Nat → Prop) [DecidablePred chosen] (days : List (Nat × Nat)) :
    Runs.run (fun v cell => if chosen cell then v + (word memory cell).toFloat32 else v) 0 days =
      total memory (days.filter fun cell => chosen cell) := by
  unfold total Runs.run
  rw [List.foldl_filter]
  simp only [decide_eq_true_eq]

theorem total_spoiled (days : List (Nat × Nat)) (cell : Nat × Nat) (member : cell ∈ days)
    (none : NoCount memory cell) :
    ∃ n, 2 ^ 32 ≤ n ∧ Holds (total memory days) n := by
  -- from the day on, no rounding takes the sum below 2^32 again
  have grows (days : List (Nat × Nat)) (v : Float32) (n : ℕ) (held : Holds v n) (bounded : n ≤ 2 ^ 57)
      (spoiled : 2 ^ 32 ≤ n ∨ ∃ cell ∈ days, NoCount memory cell) :
      ∃ n, 2 ^ 32 ≤ n ∧ Holds (Runs.run (fun v cell => v + (word memory cell).toFloat32) v days) n := by
    induction days generalizing v n with
    | nil => exact ⟨n, spoiled.resolve_right (by simp), held⟩
    | cons first rest ih =>
      have next := add_bounded n (word memory first).toNat bounded (word memory first).toNat_lt
      have sum := held.add (holds_toFloat32 (word memory first)) (next.trans_lt (by decide))
      have floor : roundEven 24 (2 ^ 32) = 2 ^ 32 := by decide +kernel
      have above (m : ℕ) (enough : 2 ^ 32 ≤ m) : 2 ^ 32 ≤ roundEven 24 m :=
        floor.symm.trans_le (roundEven_mono 24 (by decide) _ _ enough)
      apply ih _ _ sum next
      rcases spoiled with already | ⟨cell, member, none⟩
      · exact .inl (above _ (Nat.le_add_right_of_le already))
      · rcases List.mem_cons.mp member with here | later
        · have erased : word memory first = 0xFFFFFFFF := here ▸ none
          have rounds : roundEven 24 (word memory first).toNat = 2 ^ 32 := by
            rw [erased]
            decide +kernel
          exact .inl (above _ (rounds ▸ Nat.le_add_left _ _))
        · exact .inr ⟨cell, later, none⟩
  exact grows days 0 0 holds_zero (Nat.zero_le _) (.inr ⟨cell, member, none⟩)

theorem count_of_written (cell : Nat × Nat) (stored : ¬NoCount memory cell) :
    count memory cell = word memory cell :=
  if_neg stored

theorem written_all (all : ∀ cell ∈ cells, ¬NoCount memory cell) : written memory = cells :=
  List.filter_eq_self.mpr fun cell member => decide_eq_true (all cell member)

end Words

section Start
variable (boot : Boot) (flash : Memory) (spiOk : Bool) (files : Spiffs.Files)

/-- Each setting that was never written has its default. -/
structure Defaulted (s : Globals) : Prop where
  impulseProKwh : NeverWritten flash adresseEepromZK → s.impulseProKwh = 1000
  compensation : NeverWritten flash adresseEepromCO → s.compensation = 0
  generatorLeistung : NeverWritten flash adresseEepromGL → s.generatorLeistung = 0
  offset : NeverWritten flash adresseEepromOF → s.offset = 0
  interval : NeverWritten flash adresseEepromSM → s.interval = 0
  fhemPort : NeverWritten flash adresseEepromFhemPort → s.fhemPort = 8383

/-- A day that was never written has no count and adds to no yield, as a setting that was never written has its
default. -/
structure TakenForEmpty (s : Globals) : Prop where
  table : ∀ cell ∈ cells, s.tagesCounter cell.1 cell.2 = count flash cell
  day : (s.ausgabe 0).value =
    ((((cells.filter fun cell => Named boot.now cell).getLast?).map (count flash)).getD 0).toFloat32
  month : (s.ausgabe 1).value =
    total flash ((written flash).filter fun cell => cell.1 = (dateOf (localClock boot.clock)).month)
  year : (s.ausgabe 2).value = total flash (written flash)
  settings : Defaulted flash s

theorem floatAt_erased (address : Nat) (never : NeverWritten flash address) : ¬floatAt flash address > 0 := by
  unfold floatAt
  rw [show read32 flash address = 0xFFFFFFFF from never]
  decide

theorem setup_interval (s : Globals) : (setup boot s).interval =
    if floatAt s.eeprom.flash adresseEepromSM > 0 then (floatAt s.eeprom.flash adresseEepromSM).toUInt32
      else 0 := by
  have printed := congrArg Globals.interval (setup_printed boot s)
  have opens := restored_eeprom boot s
  have stored := storedFloat_begin s.eeprom adresseEepromSM
  refine printed.trans ?_
  unfold settled
  generalize restoreTable boot.now (begun boot s) = restored at opens
  simp only [restoreSettings, restoreZaehlerkonstante, restoreVerguetung, restoreGeneratorleistung,
    restoreZaehleroffset, restoreSimulation, restoreFhemPort, restoreFhemHost, restoreLog, write2logfile,
    Globals.setValue, Globals.setPrint, opens, restoreHostBytes_eq]
  rw [stored _ (by decide)]

theorem setup_defaulted (s : Globals) : Defaulted s.eeprom.flash (setup boot s) := by
  have restored := setup_restored boot s
  have erased (address : Nat) := floatAt_erased s.eeprom.flash address
  constructor
  · exact fun never => restored.impulseProKwh.trans (if_neg (erased _ never))
  · exact fun never => restored.compensation.trans (if_neg (erased _ never))
  · exact fun never => restored.generatorLeistung.trans (if_neg (erased _ never))
  · exact fun never => restored.offset.trans (if_neg (erased _ never))
  · exact fun never => (setup_interval boot s).trans (if_neg (erased _ never))
  · exact fun never => restored.fhemPort.trans (if_neg fun both => erased _ never both.1)

theorem setup_cells (cell : Nat × Nat) (member : cell ∈ cells) :
    (setup boot (powerOn flash spiOk files)).tagesCounter cell.1 cell.2 = word flash cell := by
  obtain ⟨month, day⟩ := (mem_cells cell).mp member
  exact setup_table boot (powerOn flash spiOk files) cell.1 cell.2 month day

/-- A start from power on takes what was never written for empty exactly when each day has been written. -/
theorem taken_for_empty_iff : TakenForEmpty boot flash (setup boot (powerOn flash spiOk files)) ↔
    ∀ cell ∈ cells, ¬NoCount flash cell := by
  constructor
  · intro empty cell member never
    have same := (empty.table cell member).symm.trans (setup_cells boot flash spiOk files cell member)
    have erased : word flash cell = 0xFFFFFFFF := never
    rw [count, if_pos never, erased] at same
    exact absurd same (by decide)
  · intro all
    have whole := written_all flash all
    have zero : (powerOn flash spiOk files).ausgabe = fun _ => {} := rfl
    constructor
    · intro cell member
      rw [count_of_written flash cell (all cell member)]
      exact setup_cells boot flash spiOk files cell member
    · rw [setup_day, zero]
      cases found : (cells.filter fun cell => Named boot.now cell).getLast? with
      | none => rfl
      | some cell =>
        have member := (List.mem_filter.mp (List.mem_of_getLast? found)).1
        exact congrArg UInt32.toFloat32 (count_of_written flash cell (all cell member)).symm
    · rw [setup_month, zero, whole]
      exact total_filter flash _ cells
    · rw [setup_year, zero, whole]
      rfl
    · exact setup_defaulted boot (powerOn flash spiOk files)

/-- A single day that was never written leaves the year yield above 2^32 Wh, and the yield of its month too. -/
theorem yields_spoiled (cell : Nat × Nat) (member : cell ∈ cells) (none : NoCount flash cell) :
    (∃ n, 2 ^ 32 ≤ n ∧ Holds ((setup boot (powerOn flash spiOk files)).ausgabe 2).value n) ∧
    (cell.1 = (dateOf (localClock boot.clock)).month →
      ∃ n, 2 ^ 32 ≤ n ∧ Holds ((setup boot (powerOn flash spiOk files)).ausgabe 1).value n) := by
  rw [setup_year, setup_month]
  refine ⟨total_spoiled flash cells cell member none, fun here => ?_⟩
  rw [show ((powerOn flash spiOk files).ausgabe 1).value = 0 from rfl, total_filter]
  exact total_spoiled flash _ cell (List.mem_filter.mpr ⟨member, decide_eq_true here⟩) none

/-- The first start over an erased flash counts 4294967295 Wh for every day. -/
theorem erased_flash_counts : ¬TakenForEmpty (steady 1546300800) (fun _ => 0xFF)
    (setup (steady 1546300800) (powerOn (fun _ => 0xFF) true [])) := by
  intro empty
  have member : (0, 0) ∈ cells := (mem_cells (0, 0)).mpr ⟨by decide, by decide⟩
  have restored := setup_cells (steady 1546300800) (fun _ => 0xFF) true [] (0, 0) member
  have none : count (fun _ => 0xFF) (0, 0) = 0 := by decide
  have erased : word (fun _ => 0xFF) (0, 0) = 0xFFFFFFFF := by decide
  have same := (empty.table (0, 0) member).symm.trans restored
  rw [none, erased] at same
  exact absurd same (by decide)

end Start
end EspLog.Unwritten

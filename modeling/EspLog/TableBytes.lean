import EspLog.DailyTable
import EspLog.Meter

/-! The table's bytes. A store of one day changes its four bytes alone, so the flash is the table that the
stores describe; the deletion writes a word at every byte of the table, and the last words reach past its end. -/

namespace EspLog.TableBytes
open Eeprom ExactFloat Sketch Functions Effects Restart Storage ByteMemory

section Saves

/-- A call of `putEeprom`, with the table that it finds in the RAM. -/
structure Save where
  table : Nat → Nat → UInt32
  tmp : UInt32
  month : Fin (anzahlMonate + 1)
  day : Fin (anzahlTage + 1)

def save (s : Globals) (call : Save) : Globals :=
  putEeprom call.tmp call.month call.day { s with tagesCounter := call.table }

/-- The call stores this day. -/
def Save.Stores (m d : Nat) (call : Save) : Prop := m = call.month ∧ d = call.day

instance (m d : Nat) (call : Save) : Decidable (call.Stores m d) := inferInstanceAs (Decidable (_ ∧ _))

/-- The day's count at the last call that stored it, and the initial one where none did. -/
def lastSaved (initial : Nat → Nat → UInt32) (calls : List Save) (m d : Nat) : UInt32 :=
  (((calls.filter fun call => call.Stores m d).getLast?).map fun call => call.table m d).getD (initial m d)

theorem save_settled (s : Globals) (call : Save) (settled : Settled s.eeprom) : Settled (save s call).eeprom := by
  rw [save, putEeprom_eq]
  exact savedDay_settled settled _ _ _ _

theorem save_data (s : Globals) (call : Save) (settled : Settled s.eeprom) :
    (save s call).eeprom.data =
      write32 s.eeprom.data (eeAddress call.month call.day) (call.table call.month call.day) := by
  rw [save, putEeprom_eq]
  exact savedDay_data settled _ _ _ _ call.month.isLt call.day.isLt

theorem save_word (s : Globals) (call : Save) (settled : Settled s.eeprom) (m d : Nat) (day : d < 31) :
    read32 (save s call).eeprom.data (eeAddress m d) =
      if call.Stores m d then call.table m d else read32 s.eeprom.data (eeAddress m d) := by
  rw [save_data s call settled]
  by_cases here : call.Stores m d
  · rw [if_pos here, here.1, here.2, read32_write32]
  · rw [if_neg here, read32_write32_disjoint _ _ _ _ (eeAddress_disjoint m d _ _ day call.day.isLt here)]

theorem save_behind (s : Globals) (call : Save) (settled : Settled s.eeprom) (i : Nat) (behind : tableSize ≤ i) :
    (save s call).eeprom.data i = s.eeprom.data i := by
  have fits := eeAddress_lt call.month call.day call.month.isLt call.day.isLt
  rw [save_data s call settled, write32_outside]
  unfold tableSize at behind
  omega

theorem run_settled (s : Globals) (calls : List Save) (settled : Settled s.eeprom) :
    Settled (Runs.run save s calls).eeprom :=
  List.foldlRecOn calls save settled fun s settled call _ => save_settled s call settled

/-- After any calls of `putEeprom` a start restores each day as it was last stored, and the bytes behind the table
are as they were. -/
theorem table_restored (s : Globals) (settled : Settled s.eeprom) (calls : List Save) (boot : Setup.Boot) :
    (∀ m d, m ≤ anzahlMonate → d ≤ anzahlTage →
      (Setup.setup boot (Runs.run save s calls).restart).tagesCounter m d =
      lastSaved (fun m d => read32 s.eeprom.data (eeAddress m d)) calls m d) ∧
    ∀ i, tableSize ≤ i → i < opened → (Runs.run save s calls).eeprom.data i = s.eeprom.data i ∧
      (Runs.run save s calls).eeprom.flash i = s.eeprom.flash i := by
  have after := run_settled s calls settled
  constructor
  · intro m d month day
    have inYear : m < 12 := Nat.lt_succ_of_le month
    have inMonth : d < 31 := Nat.lt_succ_of_le day
    have fits := eeAddress_lt m d inYear inMonth
    have flash : (Runs.run save s calls).restart.eeprom.flash = (Runs.run save s calls).eeprom.flash := rfl
    rw [setup_table boot _ m d inYear inMonth, flash, after.read32_flash _ (fits.trans (by decide)), lastSaved,
      ← Runs.run_overwrites]
    exact Runs.run_tracks save (fun s => read32 s.eeprom.data (eeAddress m d)) _ (fun s => Settled s.eeprom)
      (fun s call settled => save_settled s call settled) calls
      (fun s call _ settled => save_word s call settled m d inMonth) s settled
  · intro i behind inside
    have data : (Runs.run save s calls).eeprom.data i = s.eeprom.data i := by
      have same := Runs.run_tracks save (fun s => s.eeprom.data i) (fun byte _ => byte) (fun s => Settled s.eeprom)
        (fun s call settled => save_settled s call settled) calls
        (fun s call _ settled => save_behind s call settled i behind) s settled
      have still : Runs.run (fun (byte : UInt8) (_ : Save) => byte) (s.eeprom.data i) calls = s.eeprom.data i :=
        Runs.run_keeps _ id calls (fun _ _ _ => rfl) _
      exact same.trans still
    exact ⟨data, by rw [after.same i inside, settled.same i inside, data]⟩

/-- Two days of April over an erased flash, the first of them stored twice. -/
theorem table_restored_in_april :
    (∀ m d, m ≤ anzahlMonate → d ≤ anzahlTage →
      (Setup.setup ⟨0, fun _ _ => 0, ⟨0, 0, 0⟩⟩
        (Runs.run save (blank 0xFF) [⟨fun _ _ => 7, 0, 3, 0⟩, ⟨fun _ _ => 8, 0, 3, 1⟩,
          ⟨fun _ _ => 9, 0, 3, 0⟩]).restart).tagesCounter m d =
      lastSaved (fun m d => read32 (blank 0xFF).eeprom.data (eeAddress m d))
        [⟨fun _ _ => 7, 0, 3, 0⟩, ⟨fun _ _ => 8, 0, 3, 1⟩, ⟨fun _ _ => 9, 0, 3, 0⟩] m d) ∧
    ∀ i, tableSize ≤ i → i < opened → (Runs.run save (blank 0xFF)
      [⟨fun _ _ => 7, 0, 3, 0⟩, ⟨fun _ _ => 8, 0, 3, 1⟩, ⟨fun _ _ => 9, 0, 3, 0⟩]).eeprom.data i =
        (blank 0xFF).eeprom.data i ∧
      (Runs.run save (blank 0xFF) [⟨fun _ _ => 7, 0, 3, 0⟩, ⟨fun _ _ => 8, 0, 3, 1⟩,
        ⟨fun _ _ => 9, 0, 3, 0⟩]).eeprom.flash i =
        (blank 0xFF).eeprom.flash i :=
  table_restored (blank 0xFF) (begin_settled rfl) _ _

end Saves

section Deletion

/-- The zeros of the deletion: from the first word on they reach three bytes past the last address. -/
theorem zeros_data (e : EEPROMClass) (size : e.size = opened) (n : Nat) (fits : n + 3 ≤ opened) :
    ((List.range n).foldl (fun e j => e.put j 0) e).size = opened ∧
      ((List.range n).foldl (fun e j => e.put j 0) e).spiOk = e.spiOk ∧
      (0 < n → ((List.range n).foldl (fun e j => e.put j 0) e).dirty = true) ∧
      ∀ i, ((List.range n).foldl (fun e j => e.put j 0) e).data i = if 0 < n ∧ i < n + 3 then 0 else e.data i := by
  induction n with
  | zero => exact ⟨size, rfl, fun none => absurd none (lt_irrefl 0), fun i => by simp⟩
  | succ n ih =>
    obtain ⟨sized, driver, _, data⟩ := ih (by omega)
    rw [List.range_succ, List.foldl_append, List.foldl_cons, List.foldl_nil]
    generalize (List.range n).foldl (fun e j => e.put j 0) e = before at sized driver data
    have inside : ¬n + 4 > before.size := by
      rw [sized]
      omega
    simp only [EEPROMClass.put, if_neg inside]
    refine ⟨sized, driver, fun _ => trivial, fun i => ?_⟩
    have zero (k : Nat) : byteOf 0 k = 0 := by simp [byteOf]
    rw [write32, data, zero]
    by_cases here : n ≤ i ∧ i < n + 4
    · rw [if_pos here, if_pos (by omega)]
    · rw [if_neg here]
      exact if_congr (by omega) rfl rfl

theorem deleteEEPROM_flash (s : Globals) (size : s.eeprom.size = opened) (driver : s.eeprom.spiOk = true) (i : Nat)
    (inside : i < opened) : (deleteEEPROM s).eeprom.flash i = if i < tableSize + 3 then 0
      else s.eeprom.data i := by
  have fits : tableSize + 3 ≤ opened ∧ 0 < tableSize := by decide
  have eeprom : (deleteEEPROM s).eeprom = erased s.eeprom := by simp only [deleteEEPROM_eq]
  rw [eeprom, erased]
  generalize tableSize = n at fits
  obtain ⟨sized, works, dirty, data⟩ := zeros_data s.eeprom size n fits.1
  have marked : Open ((List.range n).foldl (fun e j => e.put j 0) s.eeprom) :=
    ⟨sized, works.trans driver, fun clean => absurd clean (by rw [dirty fits.2]; decide)⟩
  rw [Meter.close_flash _ marked i inside, data]
  exact if_congr (by omega) rfl rfl

/-- The table is zero in the flash, and the settings are what the buffer held. -/
def Cleared (before after : Globals) : Prop :=
  ∀ i, i < opened → after.eeprom.flash i = if i < tableSize then 0 else before.eeprom.data i

theorem cleared_iff (s : Globals) (size : s.eeprom.size = opened) (driver : s.eeprom.spiOk = true) :
    Cleared s (deleteEEPROM s) ↔ ∀ i, tableSize ≤ i → i < tableSize + 3 → s.eeprom.data i = 0 := by
  constructor
  · intro cleared i behind near
    have inside : i < opened := near.trans (by decide)
    have flash := cleared i inside
    rw [deleteEEPROM_flash s size driver i inside, if_pos near, if_neg (by omega)] at flash
    exact flash.symm
  · intro zeros i inside
    rw [deleteEEPROM_flash s size driver i inside]
    by_cases table : i < tableSize
    · rw [if_pos table, if_pos (by omega)]
    · rw [if_neg table]
      split
      · exact (zeros i (by omega) (by assumption)).symm
      · rfl

/-- A device with a yield of 0x07070707 Wh on every day, and of 512 pulses per kWh: the float of a power of two
ends in three zero bytes. -/
def powerOfTwo : Globals :=
  let flash := write32 (fun i => if i < tableSize then 7 else 68) adresseEepromZK (single 512).toBits
  { blank 0 with eeprom := (powerOn flash true []).eeprom.begin opened }

/-- It loses the yields and no setting. -/
theorem powerOfTwo_cleared : Cleared powerOfTwo (deleteEEPROM powerOfTwo) := by
  apply (cleared_iff powerOfTwo rfl rfl).mpr
  intro i behind near
  obtain rfl | rfl | rfl : i = 1488 ∨ i = 1489 ∨ i = 1490 := by
    have size : tableSize = 1488 := rfl
    omega
  all_goals decide

/-- A device whose flash holds the standard of 1000 pulses per kWh as a stored setting. -/
def stored : Globals :=
  { blank 0 with
    eeprom := (powerOn (write32 (fun _ => 0) adresseEepromZK (single 1000).toBits) true []).eeprom.begin opened }

/-- The deletion turns it into 512. -/
theorem constant_cut : ¬Cleared stored (deleteEEPROM stored) := by
  intro cleared
  have byte := cleared 1490 (by decide)
  rw [deleteEEPROM_flash stored rfl rfl 1490 (by decide)] at byte
  exact absurd byte (by decide)

end Deletion
end EspLog.TableBytes

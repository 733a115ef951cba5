import EspLog.Outputs
import EspLog.YearYield
import EspLog.Yesterday

/-! The meter reading across restarts. Every tick adds to the reading in the RAM, and a start
makes it anew of the stored offset, which no tick changes. -/

namespace EspLog.Meter
open Eeprom ExactFloat Sketch Functions Effects Restart Storage Loop Outputs YearYield TimeLib ByteMemory

section Offset

/-- The bytes behind the table stay as they were. -/
def SettingsKept (before after : EEPROMClass) : Prop := ∀ i, 1491 ≤ i → i < opened → after.flash i = before.flash i

theorem SettingsKept.trans {first second third : EEPROMClass} (before : SettingsKept first second)
    (after : SettingsKept second third) : SettingsKept first third := by
  intro i behind inside
  rw [after i behind inside, before i behind inside]

theorem settingsKept_savedDay (e : EEPROMClass) (sound : Sound e) (tmp : UInt32) (m d : Nat) (word : UInt32)
    (month : m < 12) (day : d < 31) : SettingsKept e (savedDay tmp m d word e) := by
  intro i behind inside
  have fits := eeAddress_lt m d month day
  rcases sound.state with settled | closed
  · rw [(savedDay_settled settled tmp m d word).same i inside, savedDay_data settled tmp m d word month day,
      write32_outside _ _ _ _ (by omega), settled.same i inside]
  · rw [savedDay_closed closed]

theorem zeros_behind (list : List Nat) (table : ∀ j ∈ list, j < tableSize) (e : EEPROMClass) (isOpen : Open e)
    (i : Nat) (behind : 1491 ≤ i) : Open (list.foldl (fun e j => e.put j 0) e) ∧
      (list.foldl (fun e j => e.put j 0) e).data i = e.data i := by
  induction list generalizing e with
  | nil => exact ⟨isOpen, rfl⟩
  | cons j rest ih =>
    have below := table j List.mem_cons_self
    unfold tableSize at below
    obtain ⟨later, same⟩ := ih (fun j member => table j (List.mem_cons_of_mem _ member)) _ (isOpen.put j 0)
    refine ⟨later, same.trans ?_⟩
    rw [isOpen.put_data j 0 (by unfold opened; omega), write32_outside _ _ _ _ (by omega)]

theorem close_flash (e : EEPROMClass) (isOpen : Open e) (i : Nat) (inside : i < opened) :
    e.commit.close.flash i = e.data i := by
  have committed := isOpen.commit
  have nonempty : ¬e.commit.size = 0 := by
    rw [committed.size]
    decide
  rw [EEPROMClass.close, if_neg nonempty]
  dsimp only
  rw [committed.toOpen.commit.same i inside, commit_data, commit_data]

theorem settingsKept_erased (e : EEPROMClass) (sound : Sound e) : SettingsKept e (erased e) := by
  intro i behind inside
  rcases sound.state with settled | closed
  · obtain ⟨isOpen, same⟩ := zeros_behind (List.range tableSize) (fun j member => List.mem_range.mp member) e
      settled.toOpen i behind
    rw [erased, close_flash _ isOpen i inside, same, settled.same i inside]
  · rw [erased_closed e closed]

theorem settingsKept_everyMinute (c : UInt32) (io : Readings) (s : Globals) (sound : Sound s.eeprom)
    (month : s.yesterday.month < 12) (day : s.yesterday.day < 31) :
    SettingsKept s.eeprom (everyMinute c io s).eeprom := by
  have todayMonth := dateOf_month_lt (localClock c)
  have todayDay := dateOf_day_lt (localClock c)
  by_cases tick : minute c % 5 = 0
  · by_cases midnight : Midnight (localClock c)
    · have first := settingsKept_savedDay s.eeprom sound io.tmp _ _
        (bookedTable s.yesterday.month s.yesterday.day s (dateOf (localClock c)).month (dateOf (localClock c)).day)
        todayMonth todayDay
      have credited : SettingsKept s.eeprom (creditedEeprom c io s) :=
        first.trans (settingsKept_savedDay _ ((kept_savedDay _ _ _ _ _).sound sound) io.tmp _ _ _ month day)
      rw [everyMinute_newDay c io s tick midnight]
      dsimp only
      split
      · exact credited.trans (settingsKept_erased _ ((kept_credited s c io).sound sound))
      · exact credited
    · rw [everyMinute_sameDay c io s tick midnight]
      exact settingsKept_savedDay s.eeprom sound io.tmp _ _ _ todayMonth todayDay
  · rw [everyMinute_idle c io s tick]
    exact fun _ _ _ => rfl

theorem SettingsKept.reading {before after : EEPROMClass} (kept : SettingsKept before after) :
    restoredReading after.flash = restoredReading before.flash := by
  have same : floatAt after.flash adresseEepromOF = floatAt before.flash adresseEepromOF := by
    rw [floatAt, floatAt, read32_congr _ _ _ fun i small => kept _ (by unfold adresseEepromOF; omega)
      (by unfold adresseEepromOF opened; omega)]
  rw [restoredReading, restoredReading, same]

end Offset

section Restarts

/-- The meter reading in Wh, as the number that the float stands for. -/
def reading (s : Globals) : ℚ := amount (s.ausgabe 10).value

/-- The device beside the Wh that its ticks have credited since it started. -/
def sinceStart (state : Globals × Nat) (event : Event) : Globals × Nat :=
  match event with
  | .restart boot => (step state.1 (.restart boot), 0)
  | event => (step state.1 event, state.2 + creditedBy state.1 event)

/-- A pulse, a restart, or a minute whose addition to the reading is exact. -/
def Exact (state : Globals × Nat) : Event → Prop
  | .minute c _ => minute c % 5 = 0 → amount (creditedTotal state.1 10) = reading state.1 + energyWh state.1
  | .request _ _ _ _ => False
  | _ => True

/-- A restart does not lower the reading. -/
def NotBackwards (state : Globals × Nat) : Event → Prop
  | .restart boot => reading state.1 ≤ reading (step state.1 (.restart boot))
  | _ => True

/-- Nothing was credited between the start and a restart. -/
def NothingCredited (state : Globals × Nat) : Event → Prop
  | .restart _ => state.2 = 0
  | _ => True

/-- The reading is what a start would make of the flash, and all that was credited since. -/
structure Metered (state : Globals × Nat) : Prop where
  sound : Sound state.1.eeprom
  month : state.1.yesterday.month < 12
  day : state.1.yesterday.day < 31
  reading : Meter.reading state.1 = amount (restoredReading state.1.eeprom.flash) + state.2

theorem metered_started (boot : Setup.Boot) (flash : Memory) (files : Spiffs.Files) :
    Metered (Setup.setup boot (powerOn flash true files), 0) := by
  have eeprom := setup_eeprom boot (powerOn flash true files)
  have settled : Settled (Setup.setup boot (powerOn flash true files)).eeprom := eeprom ▸ begin_settled rfl
  have yesterday := setup_yesterday boot (powerOn flash true files)
  constructor
  · exact ⟨settled.driver, .inl settled⟩
  · rw [yesterday]
    exact Nat.zero_lt_succ _
  · rw [yesterday]
    exact Nat.zero_lt_succ _
  · rw [Meter.reading, setup_meter, eeprom, Nat.cast_zero, add_zero]
    rfl

theorem everyMinute_reading (c : UInt32) (io : Readings) (s : Globals) : ((everyMinute c io s).ausgabe 10).value =
    if minute c % 5 = 0 then creditedTotal s 10 else (s.ausgabe 10).value := by
  by_cases tick : minute c % 5 = 0
  · rw [if_pos tick]
    by_cases midnight : Midnight (localClock c)
    · exact everyMinute_midnight_meter c io s tick midnight
    · exact everyMinute_sameDay_total c io s 10 (.inr (.inr (.inr rfl))) tick midnight
  · rw [if_neg tick]
    exact everyMinute_idle_value c io s 10 (by decide) tick

theorem metered_step (state : Globals × Nat) (event : Event) (metered : Metered state)
    (admitted : Exact state event) : Metered (sinceStart state event) := by
  obtain ⟨sound, month, day, held⟩ := metered
  cases event with
  | request isFile tmp request boot => exact admitted.elim
  | pulse => exact ⟨sound, month, day, held⟩
  | restart boot =>
    have flash : state.1.restart = powerOn state.1.eeprom.flash true state.1.spiffs := by
      rw [Globals.restart, sound.driver]
    rw [sinceStart, step, flash]
    exact metered_started boot _ _
  | minute c io =>
    have date := Yesterday.everyMinute_yesterday state.1 c io
    have value := everyMinute_reading c io state.1
    have kept := (settingsKept_everyMinute c io state.1 sound month day).reading
    refine ⟨everyMinute_sound state.1 c io sound, ?_, ?_, ?_⟩
    · change (everyMinute c io state.1).yesterday.month < 12
      rw [date]
      split
      · exact dateOf_month_lt _
      · exact month
    · change (everyMinute c io state.1).yesterday.day < 31
      rw [date]
      split
      · exact dateOf_day_lt _
      · exact day
    · simp only [sinceStart, step, creditedBy]
      rw [kept, reading, value]
      by_cases tick : minute c % 5 = 0
      · rw [if_pos tick, if_pos tick, admitted tick, held, Nat.cast_add, add_assoc]
      · rw [if_neg tick, if_neg tick, Nat.add_zero]
        exact held

theorem notBackwards_iff (state : Globals × Nat) (event : Event) (metered : Metered state) :
    NotBackwards state event ↔ NothingCredited state event := by
  cases event with
  | restart boot =>
    have restored : reading (step state.1 (.restart boot)) = amount (restoredReading state.1.eeprom.flash) :=
      congrArg amount (setup_meter boot state.1.restart)
    rw [NotBackwards, NothingCredited, restored, metered.reading]
    constructor
    · intro order
      have none : (state.2 : ℚ) ≤ 0 := by linarith
      exact_mod_cast le_antisymm none (Nat.cast_nonneg _)
    · intro none
      rw [none, Nat.cast_zero, add_zero]
  | _ => exact Iff.rfl

/-- Over a run of ticks and restarts the reading never runs backwards exactly when nothing was
credited between any start and the restart that ends it. -/
theorem reading_monotone_iff (boot : Setup.Boot) (flash : Memory) (files : Spiffs.Files) (events : List Event)
    (exactly : Runs.Along sinceStart Exact (Setup.setup boot (powerOn flash true files), 0) events) :
    Runs.Along sinceStart NotBackwards (Setup.setup boot (powerOn flash true files), 0) events ↔
      Runs.Along sinceStart NothingCredited (Setup.setup boot (powerOn flash true files), 0) events :=
  Runs.along_iff_along metered_step (fun state event metered _ => notBackwards_iff state event metered) events _
    (metered_started boot flash files) exactly

/-- No setting was ever stored. -/
def Unset (memory : Memory) : Prop := ∀ i, 1488 ≤ i → i < opened → memory i = 0

theorem Unset.word {memory : Memory} (unset : Unset memory) (address : Nat) (behind : 1488 ≤ address)
    (inside : address + 4 ≤ opened) : floatAt memory address = floatAt (fun _ => 0) address := by
  rw [floatAt, floatAt, read32_congr _ (fun _ => 0) address fun i small => unset _ (by omega) (by omega)]

theorem Unset.rate {memory : Memory} (unset : Unset memory) (boot : Setup.Boot) (files : Spiffs.Files) :
    (Setup.setup boot (powerOn memory true files)).impulseProKwh = 1000 := by
  have restored := (setup_restored boot (powerOn memory true files)).impulseProKwh
  have same : floatAt memory adresseEepromZK = floatAt (fun _ => 0) adresseEepromZK :=
    unset.word adresseEepromZK (by decide) (by decide)
  have flash : (powerOn memory true files).eeprom.flash = memory := rfl
  rw [restored, flash, same]
  decide

theorem Unset.reading {memory : Memory} (unset : Unset memory) (boot : Setup.Boot) (files : Spiffs.Files) :
    ((Setup.setup boot (powerOn memory true files)).ausgabe 10).value = single 0 := by
  have same : floatAt memory adresseEepromOF = floatAt (fun _ => 0) adresseEepromOF :=
    unset.word adresseEepromOF (by decide) (by decide)
  have flash : (powerOn memory true files).eeprom.flash = memory := rfl
  rw [setup_meter, flash, restoredReading, same]
  decide

theorem unset_everyMinute (c : UInt32) (io : Readings) (s : Globals) (settled : Settled s.eeprom)
    (tick : minute c % 5 = 0) (still : ¬Midnight (localClock c)) (unset : Unset s.eeprom.flash) :
    Unset (everyMinute c io s).eeprom.flash := by
  intro i behind inside
  have month := dateOf_month_lt (localClock c)
  have day := dateOf_day_lt (localClock c)
  have table := eeAddress_lt _ _ month day
  rw [everyMinute_sameDay c io s tick still]
  dsimp only
  rw [(savedDay_settled settled _ _ _ _).same i inside, savedDay_data settled _ _ _ _ month day,
    write32_outside _ _ _ _ (by omega), ← settled.same i inside, unset i behind inside]

theorem first_pulse (s : Globals) (rate : s.impulseProKwh = 1000) (idle : s.counter = 0)
    (value : (s.ausgabe 10).value = single 0) (c : UInt32) (io : Readings) (n : Nat) :
    energyWh (step s .pulse) = 1 ∧ Exact (sinceStart (s, n) .pulse) (.minute c io) := by
  have counted : (interruptRoutineFalling s).counter = 1 := by
    rw [interrupt_counter, idle, zero_add]
  have energy : energyWh (interruptRoutineFalling s) = 1 := by
    rw [energyWh, counted, interrupt_rate, rate]
    decide
  refine ⟨energy, fun _ => ?_⟩
  have held : ((interruptRoutineFalling s).ausgabe 10).value = single 0 := by
    rw [interrupt_output, value]
  have exactly : amount (single (0 + 1)) = amount (single 0) + (1 : Nat) := by decide +kernel
  change amount (creditedTotal (interruptRoutineFalling s) 10) =
    amount ((interruptRoutineFalling s).ausgabe 10).value +
    energyWh (interruptRoutineFalling s)
  rw [creditedTotal_exact _ 10 0 held (by rw [energy]; decide), held, energy, exactly]

theorem exact_idle (s : Globals) (idle : s.counter = 0) (value : (s.ausgabe 10).value = single 0) (c : UInt32)
    (io : Readings) (n : Nat) : Exact (s, n) (.minute c io) := by
  intro _
  have energy := energyWh_of_idle s idle
  change amount (creditedTotal s 10) = amount (s.ausgabe 10).value + energyWh s
  rw [creditedTotal_exact s 10 0 value (by rw [energy]; decide), value, energy, Nat.cast_zero, add_zero, add_zero]

/-- A tick without a pulse and then a restart; afterwards a pulse and its tick. -/
theorem reading_kept_by_idle_restart : Runs.Along sinceStart NotBackwards
    (Setup.setup (steady 1546329600) (powerOn (fun _ => 0) true []), 0)
    [.minute 1546329900 ⟨3300, -60, 0⟩, .restart (steady 1546330000), .pulse,
      .minute 1546330200 ⟨3300, -60, 0⟩] := by
  have blank : Unset (fun _ => 0) := fun _ _ _ => rfl
  have value := blank.reading (steady 1546329600) []
  have idle : (Setup.setup (steady 1546329600) (powerOn (fun _ => 0) true [])).counter = 0 := setup_counter _ _
  have eeprom := setup_eeprom (steady 1546329600) (powerOn (fun _ => 0) true [])
  have settled : Settled (Setup.setup (steady 1546329600) (powerOn (fun _ => 0) true [])).eeprom :=
    eeprom ▸ begin_settled rfl
  have flash : Unset (Setup.setup (steady 1546329600) (powerOn (fun _ => 0) true [])).eeprom.flash := by
    rw [eeprom]
    exact blank
  apply (reading_monotone_iff (steady 1546329600) (fun _ => 0) [] _ ?_).mpr
  · generalize Setup.setup (steady 1546329600) (powerOn (fun _ => 0) true []) = s at idle
    refine ⟨trivial, ?_, trivial, trivial, trivial⟩
    change 0 + creditedBy s (.minute 1546329900 ⟨3300, -60, 0⟩) = 0
    rw [creditedBy, energyWh_of_idle s idle, ite_self]
  · generalize Setup.setup (steady 1546329600) (powerOn (fun _ => 0) true []) = s at value idle settled flash
    have later : Unset (everyMinute 1546329900 ⟨3300, -60, 0⟩ s).eeprom.flash :=
      unset_everyMinute 1546329900 _ s settled (by decide) (by decide) flash
    have sound := everyMinute_sound s 1546329900 ⟨3300, -60, 0⟩ ⟨settled.driver, .inl settled⟩
    refine ⟨exact_idle s idle value _ _ 0, trivial, trivial, ?_, trivial⟩
    have again : (everyMinute 1546329900 ⟨3300, -60, 0⟩ s).restart =
        powerOn (everyMinute 1546329900 ⟨3300, -60, 0⟩ s).eeprom.flash true
          (everyMinute 1546329900 ⟨3300, -60, 0⟩ s).spiffs := by
      rw [Globals.restart, sound.driver]
    have restarted : sinceStart (sinceStart (s, 0) (.minute 1546329900 ⟨3300, -60, 0⟩))
        (.restart (steady 1546330000)) =
        (Setup.setup (steady 1546330000) (powerOn (everyMinute 1546329900 ⟨3300, -60, 0⟩ s).eeprom.flash true
          (everyMinute 1546329900 ⟨3300, -60, 0⟩ s).spiffs), 0) := by
      simp only [sinceStart, step]
      rw [again]
    rw [restarted]
    exact (first_pulse _ (later.rate _ _) (setup_counter _ _) (later.reading _ _) _ _ 0).2

theorem nothingCredited_iff (s : Globals) (n : Nat) (c : UInt32) (io : Readings) (boot : Setup.Boot)
    (tick : minute c % 5 = 0) :
    NothingCredited (sinceStart (sinceStart (s, n) .pulse) (.minute c io)) (.restart boot) ↔
      n + energyWh (step s .pulse) = 0 := by
  simp only [NothingCredited, sinceStart, creditedBy, if_pos tick, Nat.add_zero]

/-- A pulse and its tick, then a restart: the reading falls from 1 Wh to 0. -/
theorem reading_lost_by_restart : ¬Runs.Along sinceStart NotBackwards
    (Setup.setup (steady 1546329600) (powerOn (fun _ => 0) true []), 0)
    [.pulse, .minute 1546329900 ⟨3300, -60, 0⟩, .restart (steady 1546330000)] := by
  intro both
  obtain ⟨_, _, backwards, _⟩ := both
  have blank : Unset (fun _ => 0) := fun _ _ _ => rfl
  obtain ⟨energy, exactly⟩ :=
    first_pulse _ (blank.rate (steady 1546329600) []) (setup_counter _ _) (blank.reading _ [])
    1546329900 ⟨3300, -60, 0⟩ 0
  have tick : minute 1546329900 % 5 = 0 := by decide
  have metered := metered_step _ _
    (metered_step _ .pulse (metered_started (steady 1546329600) (fun _ => 0) []) trivial) exactly
  have none := (notBackwards_iff _ _ metered).mp backwards
  rw [nothingCredited_iff _ _ _ _ _ tick, energy] at none
  exact absurd none (by decide)

end Restarts
end EspLog.Meter

import EspLog.Yesterday

/-! The daily table in the RAM and in the flash: every tick stores the cells it books, and the
first midnight of a month clears a row in the RAM alone. -/

namespace EspLog.DailyTable
open Eeprom Sketch Functions Effects Loop TimeLib ByteMemory

section Cells

/-- The stored words are the cells of the table. -/
def Mirrors (data : Memory) (table : Nat → Nat → UInt32) : Prop :=
  ∀ m d, m < 12 → d < 31 → read32 data (eeAddress m d) = table m d

theorem mirrors_savedDay {e : EEPROMClass} (settled : Settled e) (tmp : UInt32) (m d : Nat) (month : m < 12)
    (day : d < 31) (before after : Nat → Nat → UInt32) (mirrors : Mirrors e.data before)
    (elsewhere : ∀ j i, ¬(j = m ∧ i = d) → after j i = before j i) :
    Mirrors (savedDay tmp m d (after m d) e).data after := by
  intro j i inYear inMonth
  rw [savedDay_data settled tmp m d _ month day]
  by_cases here : j = m ∧ i = d
  · rw [here.1, here.2, read32_write32]
  · rw [read32_write32_disjoint _ _ _ _ (eeAddress_disjoint j i m d inMonth day here), mirrors j i inYear inMonth,
      elsewhere j i here]

theorem bookedTable_elsewhere (m d : Nat) (s : Globals) (j i : Nat) (other : ¬(j = m ∧ i = d)) :
    bookedTable m d s j i = s.tagesCounter j i := by
  unfold bookedTable
  split
  · exact if_neg other
  · rfl

theorem mirrors_credited (c : UInt32) (io : Readings) (s : Globals) (settled : Settled s.eeprom)
    (month : s.yesterday.month < 12) (day : s.yesterday.day < 31)
    (mirrors : Mirrors s.eeprom.data s.tagesCounter) :
    Mirrors (creditedEeprom c io s).data (bookedTable s.yesterday.month s.yesterday.day s) := by
  have todayMonth := dateOf_month_lt (localClock c)
  have todayDay := dateOf_day_lt (localClock c)
  have first := mirrors_savedDay settled io.tmp _ _ todayMonth todayDay s.tagesCounter
    (fun j i => if j = (dateOf (localClock c)).month ∧ i = (dateOf (localClock c)).day then
      bookedTable s.yesterday.month s.yesterday.day s j i else s.tagesCounter j i) mirrors
    (fun j i other => if_neg other)
  rw [if_pos ⟨rfl, rfl⟩] at first
  apply mirrors_savedDay (savedDay_settled settled _ _ _ _) io.tmp _ _ month day _ _ first
  intro j i other
  split
  · rfl
  · exact bookedTable_elsewhere _ _ s j i other

theorem mirrors_cleared (data : Memory) (table : Nat → Nat → UInt32) (m : Nat) (month : m < 12)
    (mirrors : Mirrors data table) :
    Mirrors data (fun j i => if j = m ∧ i ≤ anzahlTage then 0 else table j i) ↔ ∀ d, d < 31 → table m d = 0 := by
  constructor
  · intro cleared d day
    have inRow : m = m ∧ d ≤ anzahlTage := ⟨rfl, Nat.le_of_lt_succ day⟩
    rw [← mirrors m d month day, cleared m d month day]
    exact if_pos inRow
  · intro empty j i inYear inMonth
    rw [mirrors j i inYear inMonth]
    by_cases inRow : j = m ∧ i ≤ anzahlTage
    · exact (inRow.1 ▸ empty i inMonth).trans (if_pos inRow).symm
    · exact (if_neg inRow).symm

end Cells

section Ticks

/-- The flash holds the table of the RAM, and a restart gives it back. -/
structure Transparent (s : Globals) : Prop where
  committed : Mirrors s.eeprom.flash s.tagesCounter
  restored : ∀ boot m d, m < 12 → d < 31 → (Setup.setup boot s.restart).tagesCounter m d = s.tagesCounter m d

/-- The buffer is open and committed, and `yesterday` names a day. -/
structure Running (s : Globals) : Prop where
  settled : Settled s.eeprom
  month : s.yesterday.month < 12
  day : s.yesterday.day < 31

/-- The pulses and ticks of a run without `deleteEEPROM`. -/
def Ticks : Event → Prop
  | .pulse => True
  | .minute c _ => ¬JanuaryMidnight c
  | _ => False

/-- The first midnight of a month finds the row of that month empty, once the last five minutes
are credited. -/
def RowEmpty (s : Globals) : Event → Prop
  | .minute c _ => minute c % 5 = 0 → Midnight (localClock c) → (dateOf (localClock c)).day = 0 →
    ∀ d, d < 31 → bookedTable s.yesterday.month s.yesterday.day s (dateOf (localClock c)).month d = 0
  | _ => True

theorem mirrors_flash {e : EEPROMClass} (settled : Settled e) (table : Nat → Nat → UInt32) :
    Mirrors e.flash table ↔ Mirrors e.data table := by
  have same (m d : Nat) (month : m < 12) (day : d < 31) :
      read32 e.flash (eeAddress m d) = read32 e.data (eeAddress m d) :=
    settled.read32_flash _ ((eeAddress_lt m d month day).trans (by decide))
  constructor
  · intro mirrors m d month day
    rw [← same m d month day, mirrors m d month day]
  · intro mirrors m d month day
    rw [same m d month day, mirrors m d month day]

theorem transparent_iff (s : Globals) (running : Running s) :
    Transparent s ↔ Mirrors s.eeprom.data s.tagesCounter := by
  constructor
  · intro transparent
    exact (mirrors_flash running.settled _).mp transparent.committed
  · intro mirrors
    have committed := (mirrors_flash running.settled _).mpr mirrors
    refine ⟨committed, fun boot m d month day => ?_⟩
    exact (Restart.setup_table boot s.restart m d month day).trans (committed m d month day)

theorem step_running (s : Globals) (event : Event) (running : Running s) (ticks : Ticks event) :
    Running (step s event) := by
  cases event with
  | pulse => exact ⟨running.settled, running.month, running.day⟩
  | restart boot => exact ticks.elim
  | request isFile tmp request boot => exact ticks.elim
  | minute c io =>
    have date := Yesterday.everyMinute_yesterday s c io
    refine ⟨(Storage.kept_everyMinute s c io ticks).settled running.settled, ?_, ?_⟩
    · change (everyMinute c io s).yesterday.month < 12
      rw [date]
      split
      · exact dateOf_month_lt _
      · exact running.month
    · change (everyMinute c io s).yesterday.day < 31
      rw [date]
      split
      · exact dateOf_day_lt _
      · exact running.day

/-- One tick keeps the two tables equal unless it clears a row that is not empty. -/
theorem step_transparent_iff (s : Globals) (event : Event) (running : Running s) (ticks : Ticks event)
    (transparent : Transparent s) : Transparent (step s event) ↔ RowEmpty s event := by
  rw [transparent_iff _ (step_running s event running ticks)]
  have mirrors := (transparent_iff s running).mp transparent
  cases event with
  | pulse => exact iff_of_true mirrors trivial
  | restart boot => exact ticks.elim
  | request isFile tmp request boot => exact ticks.elim
  | minute c io =>
    change Mirrors (everyMinute c io s).eeprom.data (everyMinute c io s).tagesCounter ↔ _
    by_cases tick : minute c % 5 = 0
    · by_cases midnight : Midnight (localClock c)
      · have later : ¬(dateOf (localClock c)).month = 0 := fun january => ticks ⟨tick, midnight, january⟩
        have credited := mirrors_credited c io s running.settled running.month running.day mirrors
        rw [everyMinute_newDay c io s tick midnight, if_neg later]
        simp only [rolledTable]
        by_cases first : (dateOf (localClock c)).day = 0
        · rw [if_pos first]
          rw [mirrors_cleared _ _ _ (dateOf_month_lt _) credited]
          simp only [RowEmpty, tick, midnight, first, true_imp_iff]
        · rw [if_neg first]
          exact iff_of_true credited fun _ _ now => absurd now first
      · have today := mirrors_savedDay running.settled io.tmp _ _ (dateOf_month_lt (localClock c))
          (dateOf_day_lt (localClock c)) s.tagesCounter _ mirrors
          (bookedTable_elsewhere (dateOf (localClock c)).month (dateOf (localClock c)).day s)
        rw [everyMinute_sameDay c io s tick midnight]
        exact iff_of_true today fun _ now => absurd now midnight
    · rw [everyMinute_idle c io s tick]
      exact iff_of_true mirrors fun now => absurd now tick

theorem setup_running (boot : Setup.Boot) (flash : Memory) (files : Spiffs.Files) :
    Running (Setup.setup boot (powerOn flash true files)) := by
  have yesterday := Restart.setup_yesterday boot (powerOn flash true files)
  constructor
  · rw [Restart.setup_eeprom]
    exact begin_settled rfl
  · rw [yesterday]
    exact Nat.zero_lt_succ _
  · rw [yesterday]
    exact Nat.zero_lt_succ _

/-- The flash mirrors the table along a run of ticks exactly when every first midnight of a month
finds its row empty. -/
theorem dailyTable_transparent_iff (boot : Setup.Boot) (flash : Memory) (files : Spiffs.Files)
    (events : List Event) (ticks : ∀ event ∈ events, Ticks event) :
    Runs.Throughout step Transparent (Setup.setup boot (powerOn flash true files)) events ↔
      Runs.Along step RowEmpty (Setup.setup boot (powerOn flash true files)) events := by
  have eeprom := Restart.setup_eeprom boot (powerOn flash true files)
  have running := setup_running boot flash files
  have initial : Transparent (Setup.setup boot (powerOn flash true files)) := by
    rw [transparent_iff _ running]
    intro m d month day
    rw [eeprom, Restart.setup_table boot _ m d month day]
    rfl
  exact Runs.throughout_iff_along step_running step_transparent_iff events _ running initial
    (Runs.Along.of_mem ticks)

/-- A flash that holds 7 Wh for the sixth of the last February. -/
def lastFebruary : Memory := write32 (fun _ => 0) (eeAddress 1 5) 7

/-- April begins in an empty row, with a pulse on the evening before. -/
theorem dailyTable_transparent_in_april :
    Runs.Throughout step Transparent
      (Setup.setup ⟨1554072600, fun _ _ => 1554072600, ⟨3300, -60, 0⟩⟩ (powerOn lastFebruary true []))
      [.pulse, .minute 1554072900 ⟨3300, -60, 0⟩, .minute 1554073200 ⟨3300, -60, 0⟩] := by
  have evening : minute 1554072900 % 5 = 0 ∧ Evening (localClock 1554072900) := by decide
  have early : ¬Midnight (localClock 1554072900) := by decide
  have march : (dateOf (localClock 1554072900)).month = 2 := by decide
  have april : (dateOf (localClock 1554073200)).month = 3 := by decide
  apply (dailyTable_transparent_iff _ lastFebruary [] _ ?_).mpr
  · refine ⟨trivial, fun _ midnight => absurd midnight early, fun _ _ _ d day => ?_, trivial⟩
    -- the credited day is in March, and nothing was ever stored for April
    have credited (s : Globals) : (everyMinute 1554072900 ⟨3300, -60, 0⟩ s).yesterday.month = 2 := by
      rw [Yesterday.everyMinute_yesterday, if_pos evening, march]
    have kept (s : Globals) : (everyMinute 1554072900 ⟨3300, -60, 0⟩ s).tagesCounter 3 d = s.tagesCounter 3 d := by
      rw [everyMinute_sameDay _ _ s evening.1 early]
      exact bookedTable_elsewhere _ _ s 3 d fun same => absurd (same.1.trans march) (by decide)
    have stored : read32 lastFebruary (eeAddress 3 d) = 0 := by
      rw [lastFebruary, read32_write32_disjoint _ _ _ _ (eeAddress_disjoint 3 d 1 5 day (by decide) (by omega))]
      rfl
    rw [april]
    simp only [step]
    rw [bookedTable_elsewhere _ _ _ 3 d fun same => absurd (same.1.trans (credited _)) (by decide), kept,
      interrupt_table, Restart.setup_table _ _ 3 d (by decide) day]
    exact stored
  · intro event member
    simp only [List.mem_cons, List.not_mem_nil, or_false] at member
    rcases member with rfl | rfl | rfl
    · trivial
    · exact fun january => early january.2.1
    · exact fun january => absurd (april.symm.trans january.2.2) (by decide)

/-- The midnight of 1 February 2019 clears last year's February in the RAM, and a restart brings it back. -/
theorem february_reappears :
    ¬Runs.Throughout step Transparent
      (Setup.setup ⟨1548978600, fun _ _ => 1548978600, ⟨3300, -60, 0⟩⟩ (powerOn lastFebruary true []))
      [.minute 1548979200 ⟨3300, -60, 0⟩] := by
  intro through
  have tick : minute 1548979200 % 5 = 0 := by decide
  have midnight : Midnight (localClock 1548979200) := by decide
  have date : (dateOf (localClock 1548979200)).month = 1 ∧ (dateOf (localClock 1548979200)).day = 0 := by decide
  have running := setup_running ⟨1548978600, fun _ _ => 1548978600, ⟨3300, -60, 0⟩⟩ lastFebruary []
  have ticks : Ticks (.minute 1548979200 ⟨3300, -60, 0⟩) :=
    fun january => absurd (date.1.symm.trans january.2.2) (by decide)
  have empty := (step_transparent_iff _ _ running ticks through.1).mp through.2 tick midnight date.2 5 (by decide)
  have yesterday := Restart.setup_yesterday ⟨1548978600, fun _ _ => 1548978600, ⟨3300, -60, 0⟩⟩
    (powerOn lastFebruary true [])
  rw [date.1, yesterday, bookedTable_elsewhere _ _ _ 1 5 (by decide),
    Restart.setup_table _ _ 1 5 (by decide) (by decide)] at empty
  revert empty
  decide

end Ticks
end EspLog.DailyTable

import EspLog.Files

/-! The yearly archive: what the midnight branch writes and erases, and how long the file
of the closed year survives. -/

namespace EspLog.Archive
open CText Eeprom Sketch Functions Websites WebServer Effects Loop Spiffs ByteMemory TimeLib

section Text

def archiveLine (words : Nat → Nat → UInt32) (j : Nat) : Str :=
  decimal (j + 1) ++ text "," ++
    (List.range 31).flatMap (fun i => decimal (words j i).toNat ++ (if i < 30 then text "," else [])) ++ lineEnd

def archiveText (words : Nat → Nat → UInt32) : Str := (List.range 12).flatMap (archiveLine words)

section Reading
variable {e : EEPROMClass} {words : Nat → Nat → UInt32} {held : UInt32 → Prop}
  (reads : ∀ j i old, j < 12 → i < 31 → held old → e.get (eeAddress j i) old = words j i ∧ held (words j i))
include reads

theorem backupDays_spec (j n : Nat) (month : j < 12) (days : n ≤ 31) (written : UInt32 × Str)
    (start : held written.1) :
    held ((List.range n).foldl (backupDay e j) written).1 ∧
      ((List.range n).foldl (backupDay e j) written).2 = written.2 ++ (List.range n).flatMap (fun i =>
        decimal (words j i).toNat ++ (if i < 30 then text "," else [])) := by
  induction n with
  | zero => exact ⟨start, by simp⟩
  | succ n ih =>
    obtain ⟨holds, so_far⟩ := ih (by omega)
    obtain ⟨read, next⟩ := reads j n _ month days holds
    rw [List.range_succ, List.foldl_append, List.foldl_cons, List.foldl_nil, List.flatMap_append,
      ← List.append_assoc, ← so_far]
    refine ⟨?_, ?_⟩
    · simpa only [backupDay, read] using next
    · simp only [backupDay, read, List.flatMap_cons, List.flatMap_nil, List.append_nil, List.append_assoc]
      rfl

theorem backupMonths_spec (n : Nat) (months : n ≤ 12) (written : UInt32 × Str) (start : held written.1) :
    held ((List.range n).foldl (backupMonth e) written).1 ∧
      ((List.range n).foldl (backupMonth e) written).2 =
        written.2 ++ (List.range n).flatMap (archiveLine words) := by
  induction n with
  | zero => exact ⟨start, by simp⟩
  | succ n ih =>
    obtain ⟨holds, so_far⟩ := ih (by omega)
    obtain ⟨next, line⟩ := backupDays_spec reads n 31 months le_rfl
      (((List.range n).foldl (backupMonth e) written).1,
        ((List.range n).foldl (backupMonth e) written).2 ++ decimal (n + 1) ++ text ",") holds
    have added : (backupMonth e ((List.range n).foldl (backupMonth e) written) n).2 =
        ((List.range n).foldl (backupMonth e) written).2 ++ archiveLine words n := by
      refine (congrArg (· ++ lineEnd) line).trans ?_
      simp only [archiveLine, List.append_assoc]
    rw [List.range_succ, List.foldl_append, List.foldl_cons, List.foldl_nil, List.flatMap_append,
      ← List.append_assoc, ← so_far]
    exact ⟨next, by rw [added, List.flatMap_cons, List.flatMap_nil, List.append_nil]⟩

end Reading

theorem archiveText_congr {first second : Nat → Nat → UInt32}
    (same : ∀ j i, j < 12 → i < 31 → first j i = second j i) : archiveText first = archiveText second := by
  have line (j : Nat) (month : j < 12) : archiveLine first j = archiveLine second j := by
    have days : ∀ i ∈ List.range 31, decimal (first j i).toNat ++ (if i < 30 then text "," else []) =
        decimal (second j i).toNat ++ (if i < 30 then text "," else []) := by
      intro i day
      rw [same j i month (List.mem_range.mp day)]
    rw [archiveLine, archiveLine, List.flatMap_congr days]
  exact List.flatMap_congr fun j month => line j (List.mem_range.mp month)

theorem backupText_open {e : EEPROMClass} (isOpen : Open e) (tmp : UInt32) :
    backupText tmp e = archiveText fun j i => read32 e.data (eeAddress j i) := by
  have reads (j i : Nat) (old : UInt32) (month : j < 12) (day : i < 31) (_ : True) :
      e.get (eeAddress j i) old = read32 e.data (eeAddress j i) ∧ True :=
    ⟨isOpen.get _ _ ((eeAddress_lt j i month day).trans (by decide)), trivial⟩
  exact (backupMonths_spec reads 12 le_rfl (tmp, []) trivial).2.trans (List.nil_append _)

theorem backupText_closed {e : EEPROMClass} (closed : e.size = 0) (tmp : UInt32) :
    backupText tmp e = archiveText fun _ _ => tmp := by
  have reads (j i : Nat) (old : UInt32) (_ : j < 12) (_ : i < 31) (same : old = tmp) :
      e.get (eeAddress j i) old = tmp ∧ tmp = tmp :=
    ⟨(get_closed closed _ old).trans same, rfl⟩
  exact (backupMonths_spec reads 12 le_rfl (tmp, []) rfl).2.trans (List.nil_append _)

end Text

section Midnight
variable (c : UInt32) (io : Readings) (s : Globals)

def dayBytes (d : Date) (i : Nat) : Prop := eeAddress d.month d.day ≤ i ∧ i < eeAddress d.month d.day + 4

/-- A midnight tick that only books: the archive stays, and so does every byte of the
EEPROM but those of the credited day and of today. -/
structure OnlyBooks (today : Date) (before after : Globals) : Prop where
  archive : content backupPath after.spiffs = content backupPath before.spiffs
  size : after.eeprom.size = before.eeprom.size
  buffer : ∀ i, ¬dayBytes today i → ¬dayBytes before.yesterday i → after.eeprom.data i = before.eeprom.data i
  committed : Settled before.eeprom → ∀ i, i < opened → ¬dayBytes today i → ¬dayBytes before.yesterday i →
    after.eeprom.flash i = before.eeprom.flash i

theorem savedDay_size (e : EEPROMClass) (tmp : UInt32) (m d : Nat) (word : UInt32) :
    (savedDay tmp m d word e).size = e.size := by
  unfold savedDay
  split
  · rw [commit_size]
    unfold EEPROMClass.put
    split <;> rfl
  · rfl

theorem savedDay_outside (e : EEPROMClass) (tmp : UInt32) (d : Date) (word : UInt32) (i : Nat)
    (outside : ¬dayBytes d i) :
    (savedDay tmp d.month d.day word e).data i = e.data i := by
  unfold savedDay
  split
  · rw [commit_data]
    unfold EEPROMClass.put
    split
    · rfl
    · unfold dayBytes at outside
      exact write32_outside _ _ _ _ (by omega)
  · rfl

theorem credited_outside (i : Nat) (today : ¬dayBytes (dateOf (localClock c)) i)
    (yesterday : ¬dayBytes s.yesterday i) :
    (creditedEeprom c io s).data i = s.eeprom.data i :=
  (savedDay_outside _ _ _ _ _ yesterday).trans (savedDay_outside _ _ _ _ _ today)

theorem onlyBooks_of_other_month (tick : minute c % 5 = 0) (midnight : Midnight (localClock c))
    (later : (dateOf (localClock c)).month ≠ 0) : OnlyBooks (dateOf (localClock c)) s (everyMinute c io s) := by
  have eeprom : (everyMinute c io s).eeprom = creditedEeprom c io s := by
    rw [everyMinute_newDay c io s tick midnight, if_neg later]
  constructor
  · rw [everyMinute_newDay c io s tick midnight]
    simp only [if_neg later]
  · rw [eeprom]
    exact (savedDay_size _ _ _ _ _).trans (savedDay_size _ _ _ _ _)
  · intro i today yesterday
    rw [eeprom, credited_outside c io s i today yesterday]
  · intro settled i inside today yesterday
    have after := (Storage.kept_credited s c io).settled settled
    rw [eeprom, after.same i inside, credited_outside c io s i today yesterday, settled.same i inside]

end Midnight

section Run

/-- The requests that the user makes of the archive itself: a backup, an upload under its
name, or its deletion. -/
def TouchesArchive (request : Request) : Prop :=
  (∃ args, setupArgs request = some args ∧ Storage.given "backup" args) ∨
  (∃ args, spiffsArgs request = some args ∧ Files.deletes backupPath args) ∨
  (Uploads request ∧ ∃ parts, request.body = .form parts ∧ (Files.deletes backupPath request.query ∨
    ∃ filename chunks complete, .file filename chunks complete ∈ parts ∧
      uploadPath (partName request.query filename) = backupPath))

/-- The events that leave the archive alone. -/
def Spares : Event → Prop
  | .minute c _ => ¬JanuaryMidnight c
  | .request _ _ request _ => ¬TouchesArchive request
  | _ => True

theorem backupPath_ne : backupPath ≠ logPath := by decide

theorem everyMinute_archive (c : UInt32) (io : Readings) (s : Globals) (other : ¬JanuaryMidnight c) :
    (everyMinute c io s).spiffs = s.spiffs := by
  by_cases tick : minute c % 5 = 0
  · by_cases midnight : Midnight (localClock c)
    · rw [everyMinute_newDay c io s tick midnight]
      exact if_neg fun january => other ⟨tick, midnight, january⟩
    · rw [everyMinute_sameDay c io s tick midnight]
  · rw [everyMinute_idle c io s tick]

theorem step_archive (s : Globals) (event : Event) (spares : Spares event) :
    content backupPath (step s event).spiffs = content backupPath s.spiffs := by
  cases event with
  | pulse => rfl
  | minute c io => exact congrArg (content backupPath) (everyMinute_archive c io s spares)
  | restart boot => exact (Files.logOnly_setup s.restart boot).other _ backupPath_ne
  | request isFile tmp request boot =>
    have spared : ¬TouchesArchive request := spares
    obtain ⟨outcome, same, effect⟩ := handleRequest_outcome isFile tmp request s
    rw [step_request, same]
    have after : content backupPath outcome.sketch.spiffs = content backupPath s.spiffs := by
      cases effect with
      | setup args called =>
        have unsaved : ¬Storage.given "backup" args := fun saved => spared (.inl ⟨args, called, saved⟩)
        exact (Files.logOnly_setupArguments tmp args args s unsaved).other _ backupPath_ne
      | spiffs args called other =>
        have kept : ¬Files.deletes backupPath args := fun deleted => spared (.inr (.inl ⟨args, called, deleted⟩))
        exact Files.handleSpiffs_content s args _ backupPath_ne kept
      | upload parts uploads body other =>
        apply Files.parseForm_content _ _ backupPath_ne
        · exact fun deleted => spared (.inr (.inr ⟨uploads, parts, body, .inl deleted⟩))
        · intro filename chunks complete member same
          exact spared (.inr (.inr ⟨uploads, parts, body, .inr ⟨filename, chunks, complete, member, same⟩⟩))
      | json other => exact (Files.logOnly_write2logfile _ s).other _ backupPath_ne
      | nothing other => rfl
    split
    · exact ((Files.logOnly_setup outcome.sketch.restart boot).other _ backupPath_ne).trans after
    · exact after

/-- The year's words in the flash when the midnight tick of New Year has booked. -/
def closedYear (c : UInt32) (io : Readings) (s : Globals) : Nat → Nat → UInt32 :=
  fun m d => read32 (creditedEeprom c io s).flash (eeAddress m d)

theorem newYear_archive (c : UInt32) (io : Readings) (s : Globals) (settled : Settled s.eeprom)
    (january : JanuaryMidnight c) :
    content backupPath (everyMinute c io s).spiffs = some (archiveText (closedYear c io s)) := by
  have credited := (Storage.kept_credited s c io).settled settled
  have stored : archiveText (fun j i => read32 (creditedEeprom c io s).data (eeAddress j i)) =
      archiveText (closedYear c io s) :=
    archiveText_congr fun j i month day =>
      (credited.read32_flash _ ((eeAddress_lt j i month day).trans (by decide))).symm
  rw [everyMinute_newDay c io s january.1 january.2.1]
  simp only [if_pos january.2.2, content_rewrite, backupText_open credited.toOpen, stored]

theorem newYear_closed (c : UInt32) (io : Readings) (s : Globals) (closed : s.eeprom.size = 0)
    (january : JanuaryMidnight c) :
    content backupPath (everyMinute c io s).spiffs = some (archiveText fun _ _ => io.tmp) := by
  have credited := (Storage.kept_credited s c io).closed closed
  rw [everyMinute_newDay c io s january.1 january.2.1]
  simp only [if_pos january.2.2, content_rewrite, credited, backupText_closed closed]

theorem zeros_ne_ones : archiveText (fun _ _ => 0) ≠ archiveText (fun _ _ => 1) := by decide +kernel

/-- Whatever `tmp` holds, the archive is right exactly over an open EEPROM. -/
theorem newYear_archive_iff (c : UInt32) (s : Globals) (sound : Storage.Sound s.eeprom)
    (january : JanuaryMidnight c) :
    (∀ io, content backupPath (everyMinute c io s).spiffs = some (archiveText (closedYear c io s))) ↔
      Settled s.eeprom := by
  rcases sound.state with settled | closed
  · exact iff_of_true (fun io => newYear_archive c io s settled january) settled
  refine iff_of_false ?_ (Storage.not_settled_of_closed closed)
  intro right
  have unbooked (io : Readings) : closedYear c io s = fun m d => read32 s.eeprom.flash (eeAddress m d) := by
    unfold closedYear
    rw [(Storage.kept_credited s c io).closed closed]
  have held (tmp : UInt32) : archiveText (fun _ _ => tmp) =
      archiveText fun m d => read32 s.eeprom.flash (eeAddress m d) := by
    have archived := right ⟨0, 0, tmp⟩
    rw [newYear_closed c ⟨0, 0, tmp⟩ s closed january, unbooked] at archived
    exact Option.some.inj archived
  exact zeros_ne_ones ((held 0).trans (held 1).symm)

/-- The state of a device after a run from its last start. -/
def reached (boot : Setup.Boot) (flash : Memory) (files : Spiffs.Files) (events : List Event) : Globals :=
  Runs.run step (Setup.setup boot (powerOn flash true files)) events

/-- A midnight after New Year only books exactly when it is not a midnight of January. And the archive of a closed
year is right exactly when New Year finds the EEPROM open, and then stays as long as no other midnight of January
passes and the user does not ask for the file. -/
theorem archive_kept_iff (c : UInt32) (tick : minute c % 5 = 0) (midnight : Midnight (localClock c)) :
    (¬NewYear c →
      ((∀ io s, OnlyBooks (dateOf (localClock c)) s (everyMinute c io s)) ↔ (dateOf (localClock c)).month ≠ 0)) ∧
    (NewYear c → ∀ boot flash files before,
      (∀ io events,
        Runs.Along step (fun _ event => Spares event) (everyMinute c io (reached boot flash files before)) events →
        Runs.Throughout step (fun later => content backupPath later.spiffs =
            some (archiveText (closedYear c io (reached boot flash files before))))
          (everyMinute c io (reached boot flash files before)) events) ↔
        Runs.run Storage.stillOpen True before) := by
  constructor
  · intro _
    constructor
    · intro books january
      have created := newYear_archive c ⟨0, 0, 0⟩ (Storage.blank 0) (begin_settled rfl) ⟨tick, midnight, january⟩
      have absent := (books ⟨0, 0, 0⟩ (Storage.blank 0)).archive
      rw [created] at absent
      exact absurd absent (by simp [content, Storage.blank, powerOn])
    · intro later io s
      exact onlyBooks_of_other_month c io s tick midnight later
  · intro newYear boot flash files before
    have sound : Storage.Sound (reached boot flash files before).eeprom :=
      Storage.run_sound boot flash files before
    rw [← Storage.open_iff boot flash files before]
    change _ ↔ Settled (reached boot flash files before).eeprom
    rw [← newYear_archive_iff c _ sound newYear.1]
    constructor
    · intro through io
      exact (through io [] trivial).start
    · intro right io events spares
      refine Runs.throughout_of_invariant ?_ events _ (right io) spares
      intro state event kept spared
      exact (step_archive state event spared).trans kept

def lastEvening : List Event := [.pulse, .minute 1546297200 ⟨3300, -60, 0⟩, .pulse]

theorem lastEvening_open : Runs.run Storage.stillOpen True lastEvening := by
  have evening : ¬JanuaryMidnight 1546297200 := by decide
  exact ⟨trivial, evening⟩

/-- The end of 2018 on a new device. -/
def december : Globals :=
  reached ⟨1546293600, fun _ _ => 1546293600, ⟨3300, -60, 0⟩⟩ (fun _ => 0) [] lastEvening

/-- New Year 2019, the first of February, and a restart in between. -/
theorem archive_kept_in_2019 :
    (∀ io s, OnlyBooks (dateOf (localClock 1548979200)) s (everyMinute 1548979200 io s)) ∧
    Runs.Throughout step (fun later => content backupPath later.spiffs =
        some (archiveText (closedYear 1546300800 ⟨3300, -60, 0⟩ december)))
      (everyMinute 1546300800 ⟨3300, -60, 0⟩ december)
      [.pulse, .restart ⟨1546300900, fun _ _ => 1546300900, ⟨3300, -60, 0⟩⟩,
        .minute 1548979200 ⟨3300, -60, 0⟩] := by
  have february : ¬JanuaryMidnight 1548979200 := by decide
  constructor
  · have later := archive_kept_iff 1548979200 (by decide) (by decide)
    exact (later.1 fun new => february new.1).mpr (by decide)
  · have newYear := archive_kept_iff 1546300800 (by decide) (by decide)
    exact (newYear.2 ⟨by decide, by decide⟩ _ _ _ lastEvening).mpr lastEvening_open ⟨3300, -60, 0⟩ _
      ⟨trivial, trivial, february, trivial⟩

/-- The midnight of 2 January 2019 replaces the archive that New Year wrote. -/
theorem archive_lost_on_second_january :
    ¬Runs.Throughout step (fun later => content backupPath later.spiffs = some (archiveText (closedYear 1546300800
        ⟨3300, -60, 0⟩ (Storage.blank 0)))) (everyMinute 1546300800 ⟨3300, -60, 0⟩ (Storage.blank 0))
      [.minute 1546387200 ⟨3300, -60, 7⟩] := by
  intro through
  have newYear : JanuaryMidnight 1546300800 := by decide
  have second : JanuaryMidnight 1546387200 := by decide
  have closed : (everyMinute 1546300800 ⟨3300, -60, 0⟩ (Storage.blank 0)).eeprom.size = 0 := by
    rw [Storage.everyMinute_erases _ _ _ newYear, Storage.erased_size]
  generalize everyMinute 1546300800 ⟨3300, -60, 0⟩ (Storage.blank 0) = s at closed through
  have after := newYear_closed 1546387200 ⟨3300, -60, 7⟩ s closed second
  have lost : some (archiveText fun _ _ => 7) =
      some (archiveText (closedYear 1546300800 ⟨3300, -60, 0⟩ (Storage.blank 0))) :=
    after.symm.trans through.2
  revert lost
  decide

end Run
end EspLog.Archive

import EspLog.Restart

/-! Which operations leave the EEPROM open. Everything but `deleteEEPROM` keeps an open and
committed buffer; `deleteEEPROM` closes it, and a closed buffer ignores all that follows. -/

namespace EspLog.Storage
open CText Eeprom Sketch Functions Websites WebServer Effects Loop TimeLib

section Kept

/-- A step of the EEPROM that keeps an open buffer open and does nothing to a closed one. -/
structure Kept (before after : EEPROMClass) : Prop where
  settled : Settled before → Settled after
  closed : before.size = 0 → after = before

theorem Kept.refl (e : EEPROMClass) : Kept e e := ⟨id, fun _ => rfl⟩

theorem Kept.trans {first second third : EEPROMClass} (before : Kept first second) (after : Kept second third) :
    Kept first third where
  settled start := after.settled (before.settled start)
  closed start := by
    have same := before.closed start
    rw [after.closed (by rw [same]; exact start), same]

theorem kept_put (e : EEPROMClass) (address : Nat) (word : UInt32) : Kept e (e.put address word).commit where
  settled start := (start.put address word).commit
  closed start := by rw [put_closed start, commit_closed start]

theorem kept_savedDay (e : EEPROMClass) (tmp : UInt32) (m d : Nat) (word : UInt32) :
    Kept e (savedDay tmp m d word e) where
  settled start := savedDay_settled start tmp m d word
  closed start := savedDay_closed start tmp m d word

theorem close_size (e : EEPROMClass) : e.close.size = 0 := by
  unfold EEPROMClass.close
  split
  · assumption
  · rfl

theorem erased_size (e : EEPROMClass) : (erased e).size = 0 := close_size _

theorem erased_closed (e : EEPROMClass) (closed : e.size = 0) : erased e = e := by
  have untouched (list : List Nat) : list.foldl (fun e j => e.put j 0) e = e := by
    induction list with
    | nil => rfl
    | cons j rest ih => rw [List.foldl_cons, put_closed closed, ih]
  rw [erased, untouched (List.range tableSize), commit_closed closed, close_closed closed]

theorem put_spiOk (e : EEPROMClass) (address : Nat) (word : UInt32) : (e.put address word).spiOk = e.spiOk := by
  unfold EEPROMClass.put
  split <;> rfl

theorem close_spiOk (e : EEPROMClass) : e.close.spiOk = e.spiOk := by
  unfold EEPROMClass.close
  split
  · rfl
  · exact commit_spiOk

theorem erased_spiOk (e : EEPROMClass) : (erased e).spiOk = e.spiOk := by
  have puts (list : List Nat) : (list.foldl (fun e j => e.put j 0) e).spiOk = e.spiOk :=
    Runs.run_keeps (fun (e : EEPROMClass) j => e.put j 0) EEPROMClass.spiOk list (fun e j _ => put_spiOk e j 0) e
  rw [erased, close_spiOk, commit_spiOk, puts (List.range tableSize)]

/-- The buffer is open and committed, or it is closed. -/
structure Sound (e : EEPROMClass) : Prop where
  driver : e.spiOk = true
  state : Settled e ∨ e.size = 0

theorem Kept.sound {before after : EEPROMClass} (kept : Kept before after) (sound : Sound before) :
    Sound after := by
  rcases sound.state with settled | closed
  · exact ⟨(kept.settled settled).driver, .inl (kept.settled settled)⟩
  · rw [kept.closed closed]
    exact sound

theorem Kept.settled_iff {before after : EEPROMClass} (kept : Kept before after) (sound : Sound before) :
    Settled after ↔ Settled before := by
  rcases sound.state with settled | closed
  · exact iff_of_true (kept.settled settled) settled
  · rw [kept.closed closed]

theorem Sound.erased {e : EEPROMClass} (sound : Sound e) : Sound (erased e) :=
  ⟨(erased_spiOk e).trans sound.driver, .inr (erased_size e)⟩

theorem not_settled_of_closed {e : EEPROMClass} (closed : e.size = 0) : ¬Settled e := by
  intro settled
  have size := settled.size
  rw [closed] at size
  exact absurd size (by decide)

end Kept

/-- A device with no files and an open EEPROM, whose flash holds one byte throughout. -/
def blank (byte : UInt8) : Globals :=
  { powerOn (fun _ => byte) true [] with eeprom := (powerOn (fun _ => byte) true []).eeprom.begin opened }

section SetupPage
variable (value : Str) (s : Globals)

theorem kept_putEepromValue (address : Nat) (x : Float32) : Kept s.eeprom (putEepromValue address x s).eeprom :=
  kept_put _ _ _

theorem setHostBytes_open (tokens : List Str) (state : Globals × Nat) (isOpen : Open state.1.eeprom) :
    Open (tokens.foldl setHostByte state).1.eeprom := by
  induction tokens generalizing state with
  | nil => exact isOpen
  | cons token rest ih => exact ih _ (isOpen.write _ _)

theorem setHostBytes_closed (tokens : List Str) (state : Globals × Nat) (closed : state.1.eeprom.size = 0) :
    (tokens.foldl setHostByte state).1.eeprom = state.1.eeprom := by
  induction tokens generalizing state with
  | nil => rfl
  | cons token rest ih =>
    have same : (setHostByte state token).1.eeprom = state.1.eeprom := write_closed closed _ _
    rw [List.foldl_cons, ih _ (by rw [same]; exact closed), same]

theorem setIp_eeprom (first : Str) (changes : value ≠ fhemIp s) : (setIp first value s).eeprom =
    ((strtok 46 (toCharArray first 20)).foldl setHostByte (s, 0)).1.eeprom.commit := by
  unfold setIp
  rw [if_pos changes]
  rfl

theorem kept_stores (before after : Globals) (stores : StoresSetting before after) :
    Kept before.eeprom after.eeprom := by
  rcases stores.stored with ⟨address, word, same⟩ | ⟨tokens, same⟩
  · rw [same]
    exact kept_put _ _ _
  · rw [same]
    constructor
    · intro settled
      exact (setHostBytes_open tokens (before, 0) settled.toOpen).commit
    · intro closed
      rw [setHostBytes_closed tokens (before, 0) closed, commit_closed closed]

theorem kept_setting (after : Globals) (either : after = s ∨ StoresSetting s after) :
    Kept s.eeprom after.eeprom := by
  rcases either with same | stores
  · rw [same]
    exact .refl _
  · exact kept_stores _ _ stores

theorem kept_setupArgument (tmp : UInt32) (args : Arguments) (name : Str) (ne : name ≠ text "clrrom") :
    Kept s.eeprom (setupArgument tmp args name s).eeprom :=
  setupArgument_rule (fun before after => Kept before.eeprom after.eeprom) (fun s => .refl s.eeprom) Kept.trans
    kept_stores tmp args name (fun _ s => .refl s.eeprom) (fun same => absurd same ne) s

theorem setupArgument_clrrom (tmp : UInt32) (args : Arguments) :
    setupArgument tmp args (text "clrrom") s = clearTable s := by
  unfold setupArgument
  simp (disch := decide) only [whenNamed_same, whenNamed_other]

theorem deleteRAM_eeprom : (deleteRAM s).eeprom = s.eeprom := by
  simp only [deleteRAM, Globals.setValue, Globals.setPrint]

theorem clearTable_eeprom : (clearTable s).eeprom = erased s.eeprom := by
  simp only [clearTable, deleteRAM_eeprom, deleteEEPROM_eq, write2logfile]

theorem setupArgument_sound (tmp : UInt32) (args : Arguments) (name : Str) (sound : Sound s.eeprom) :
    Sound (setupArgument tmp args name s).eeprom := by
  by_cases clears : name = text "clrrom"
  · rw [clears, setupArgument_clrrom, clearTable_eeprom]
    exact sound.erased
  · exact (kept_setupArgument s tmp args name clears).sound sound

theorem setupArgument_closed (tmp : UInt32) (args : Arguments) (name : Str) (closed : s.eeprom.size = 0) :
    (setupArgument tmp args name s).eeprom = s.eeprom := by
  by_cases clears : name = text "clrrom"
  · rw [clears, setupArgument_clrrom, clearTable_eeprom, erased_closed _ closed]
  · exact (kept_setupArgument s tmp args name clears).closed closed

def given (name : String) (args : Arguments) : Prop := ∃ value, (text name, value) ∈ args ∧ value ≠ []

theorem given_cons (name : String) (entry : Str × Str) (rest : Arguments) :
    given name (entry :: rest) ↔ (entry.1 = text name ∧ entry.2 ≠ []) ∨ given name rest := by
  rcases entry with ⟨first, value⟩
  constructor
  · intro both
    obtain ⟨found, member, filled⟩ := both
    rcases List.mem_cons.mp member with same | later
    · cases same
      exact .inl ⟨rfl, filled⟩
    · exact .inr ⟨found, later, filled⟩
  · rintro (⟨rfl, filled⟩ | ⟨found, later, filled⟩)
    · exact ⟨value, List.mem_cons_self, filled⟩
    · exact ⟨found, List.mem_cons_of_mem _ later, filled⟩

theorem setupArguments_restart (tmp : UInt32) (args rest : Arguments) (s : Globals) :
    (setupArguments tmp args rest s).restart = true ↔ given "restart" rest := by
  induction rest generalizing s with
  | nil => simp [setupArguments, given]
  | cons entry rest ih =>
    rw [given_cons]
    unfold setupArguments
    split
    · rename_i filled
      split
      · rename_i named
        exact iff_of_true rfl (.inl ⟨named, filled⟩)
      · rename_i named
        rw [ih]
        simp [named]
    · rename_i empty
      rw [ih]
      simp [empty]

theorem not_given_of_stays (tmp : UInt32) (args : Arguments) (s : Globals)
    (stays : ¬(handleSetup tmp args s).restart = true) : ¬given "restart" args :=
  fun restarts => stays ((setupArguments_restart tmp args args s).mpr restarts)

/-- What holds behind a change of files, and behind a setup page without a restart, holds behind every request that
does not restart the device. -/
theorem handleRequest_stays (holds : Globals → Prop) (isFile : Str → Bool) (tmp : UInt32) (request : Request)
    (s : Globals) (stays : ¬(handleRequest isFile tmp request s).restart = true)
    (files : ∀ after, FilesOnly s after → holds after)
    (setup : ∀ args, setupArgs request = some args → ¬given "restart" args → holds (handleSetup tmp args s).sketch) :
    holds (handleRequest isFile tmp request s).sketch := by
  obtain ⟨outcome, same, effect⟩ := handleRequest_outcome isFile tmp request s
  rw [same] at stays ⊢
  cases effect with
  | setup args called => exact setup args called (not_given_of_stays tmp args s stays)
  | spiffs args called other => exact files _ (filesOnly_handleSpiffs args s)
  | upload parts uploads body other => exact files _ (filesOnly_parseForm true request.query parts [] s)
  | json other => exact files _ rfl
  | nothing other => exact files _ rfl

theorem setupArguments_sound (tmp : UInt32) (args rest : Arguments) (s : Globals) :
    Sound s.eeprom → Sound (setupArguments tmp args rest s).sketch.eeprom := by
  apply setupArguments_rule (fun before after => Sound before.eeprom → Sound after.eeprom)
  · exact fun _ => id
  · exact fun first second sound => second (first sound)
  · exact fun _ _ => id
  · exact fun entry _ _ s => setupArgument_sound s tmp args entry.1

theorem setupArguments_closed (tmp : UInt32) (args rest : Arguments) (s : Globals) :
    s.eeprom.size = 0 → (setupArguments tmp args rest s).sketch.eeprom = s.eeprom := by
  apply setupArguments_rule (fun before after => before.eeprom.size = 0 → after.eeprom = before.eeprom)
  · exact fun _ _ => rfl
  · exact fun first second closed => (second (by rw [first closed]; exact closed)).trans (first closed)
  · exact fun _ _ _ => rfl
  · exact fun entry _ _ s => setupArgument_closed s tmp args entry.1

theorem setupArguments_kept (tmp : UInt32) (args rest : Arguments) (s : Globals) (unclear : ¬given "clrrom" rest) :
    Kept s.eeprom (setupArguments tmp args rest s).sketch.eeprom := by
  apply setupArguments_rule (fun before after => Kept before.eeprom after.eeprom)
  · exact fun s => .refl s.eeprom
  · exact Kept.trans
  · exact fun _ s => .refl s.eeprom
  · intro entry member filled s
    exact kept_setupArgument s tmp args entry.1 fun named => unclear ⟨entry.2, named ▸ member, filled⟩

theorem setupArguments_cleared (tmp : UInt32) (args rest : Arguments) (s : Globals) (clear : given "clrrom" rest)
    (stays : ¬given "restart" rest) : (setupArguments tmp args rest s).sketch.eeprom.size = 0 := by
  induction rest generalizing s with
  | nil => obtain ⟨_, member, _⟩ := clear; cases member
  | cons entry rest ih =>
    rw [given_cons, not_or] at stays
    unfold setupArguments
    split
    · rename_i filled
      have here : ¬entry.1 = text "restart" := fun named => stays.1 ⟨named, filled⟩
      rw [if_neg here]
      by_cases named : entry.1 = text "clrrom"
      · have closed : (setupArgument tmp args entry.1 s).eeprom.size = 0 := by
          rw [named, setupArgument_clrrom, clearTable_eeprom, erased_size]
        rw [setupArguments_closed tmp args rest _ closed, closed]
      · exact ih _ (((given_cons _ _ _).mp clear).resolve_left fun first => named first.1) stays.2
    · rename_i empty
      exact ih _ (((given_cons _ _ _).mp clear).resolve_left fun first => empty first.2) stays.2

end SetupPage

section Steps
variable (s : Globals)

theorem kept_credited (c : UInt32) (io : Readings) : Kept s.eeprom (creditedEeprom c io s) :=
  (kept_savedDay s.eeprom _ _ _ _).trans (kept_savedDay _ _ _ _ _)

theorem kept_everyMinute (c : UInt32) (io : Readings) (other : ¬JanuaryMidnight c) :
    Kept s.eeprom (everyMinute c io s).eeprom := by
  by_cases tick : minute c % 5 = 0
  · by_cases midnight : Midnight (localClock c)
    · have later : ¬(dateOf (localClock c)).month = 0 := fun january => other ⟨tick, midnight, january⟩
      rw [everyMinute_newDay c io s tick midnight, if_neg later]
      exact kept_credited s c io
    · rw [everyMinute_sameDay c io s tick midnight]
      exact kept_savedDay _ _ _ _ _
  · rw [everyMinute_idle c io s tick]
    exact .refl _

theorem everyMinute_erases (c : UInt32) (io : Readings) (january : JanuaryMidnight c) :
    (everyMinute c io s).eeprom = erased (creditedEeprom c io s) := by
  rw [everyMinute_newDay c io s january.1 january.2.1, if_pos january.2.2]

theorem everyMinute_sound (c : UInt32) (io : Readings) (sound : Sound s.eeprom) :
    Sound (everyMinute c io s).eeprom := by
  by_cases january : JanuaryMidnight c
  · rw [everyMinute_erases s c io january]
    exact ((kept_credited s c io).sound sound).erased
  · exact (kept_everyMinute s c io january).sound sound

theorem restarted_settled (boot : Setup.Boot) (driver : s.eeprom.spiOk = true) :
    Settled (Setup.setup boot s.restart).eeprom := by
  rw [Restart.setup_eeprom]
  exact begin_settled driver

/-- The events that end with a closed EEPROM. -/
def Erases : Event → Prop
  | .minute c _ => JanuaryMidnight c
  | .request _ _ request _ => ∃ args, setupArgs request = some args ∧ given "clrrom" args ∧ ¬given "restart" args
  | _ => False

theorem step_sound (event : Event) (sound : Sound s.eeprom) : Sound (step s event).eeprom := by
  cases event with
  | pulse => exact sound
  | minute c io => exact everyMinute_sound s c io sound
  | restart boot =>
    have settled := restarted_settled s boot sound.driver
    exact ⟨settled.driver, .inl settled⟩
  | request isFile tmp request boot =>
    obtain ⟨outcome, same, effect⟩ := handleRequest_outcome isFile tmp request s
    rw [step_request, same]
    have after : Sound outcome.sketch.eeprom := by
      cases effect with
      | setup args called => exact setupArguments_sound tmp args args s sound
      | spiffs args called other => exact (filesOnly_handleSpiffs args s).eeprom.symm ▸ sound
      | upload parts uploads body other => exact (filesOnly_parseForm true _ parts [] s).eeprom.symm ▸ sound
      | json other => exact sound
      | nothing other => exact sound
    split
    · have settled := restarted_settled outcome.sketch boot after.driver
      exact ⟨settled.driver, .inl settled⟩
    · exact after

/-- A request clears the table, or restarts the device. -/
def Clears (request : Request) : Prop := ∃ args, setupArgs request = some args ∧ given "clrrom" args

def Restarts (request : Request) : Prop := ∃ args, setupArgs request = some args ∧ given "restart" args

/-- What a request does to the EEPROM: the start behind it opens it again, a cleared table closes it. -/
structure Stores (request : Request) (before after : EEPROMClass) : Prop where
  restarted : Sound before → Restarts request → Settled after
  cleared : ¬Restarts request → Clears request → after.size = 0
  kept : ¬Restarts request → ¬Clears request → Kept before after

theorem step_stores (isFile : Str → Bool) (tmp : UInt32) (request : Request) (boot : Setup.Boot) :
    Stores request s.eeprom (step s (.request isFile tmp request boot)).eeprom := by
  have stays (other : setupArgs request = none) (after : Globals) (same : after.eeprom = s.eeprom) :
      Stores request s.eeprom after.eeprom := by
    have silent (name : String) : ¬∃ args, setupArgs request = some args ∧ given name args := by simp [other]
    rw [same]
    exact ⟨fun _ restarts => absurd restarts (silent _), fun _ clears => absurd clears (silent _),
      fun _ _ => .refl _⟩
  obtain ⟨outcome, same, effect⟩ := handleRequest_outcome isFile tmp request s
  rw [step_request, same]
  cases effect with
  | setup args called =>
    have only (name : String) : (∃ args, setupArgs request = some args ∧ given name args) ↔ given name args := by
      simp [called]
    have restart := setupArguments_restart tmp args args s
    unfold handleSetup
    constructor
    · intro sound restarts
      rw [if_pos (restart.mpr ((only _).mp restarts))]
      exact restarted_settled _ boot (setupArguments_sound tmp args args s sound).driver
    · intro stays clears
      rw [if_neg fun set => stays ((only _).mpr (restart.mp set))]
      exact setupArguments_cleared tmp args args s ((only _).mp clears) fun set => stays ((only _).mpr set)
    · intro stays unclear
      rw [if_neg fun set => stays ((only _).mpr (restart.mp set))]
      exact setupArguments_kept tmp args args s fun set => unclear ((only _).mpr set)
  | spiffs args called other => exact stays other _ (filesOnly_handleSpiffs args s).eeprom
  | upload parts uploads body other => exact stays other _ (filesOnly_parseForm true _ parts [] s).eeprom
  | json other => exact stays other _ rfl
  | nothing other => exact stays other _ rfl

/-- Whether the EEPROM is open behind an event. -/
def stillOpen (isOpen : Prop) : Event → Prop
  | .pulse => isOpen
  | .minute c _ => isOpen ∧ ¬JanuaryMidnight c
  | .request _ _ request _ => Restarts request ∨ isOpen ∧ ¬Clears request
  | .restart _ => True

theorem step_open_iff (event : Event) (sound : Sound s.eeprom) :
    Settled (step s event).eeprom ↔ stillOpen (Settled s.eeprom) event := by
  cases event with
  | pulse => exact Iff.rfl
  | restart boot => exact iff_of_true (restarted_settled s boot sound.driver) trivial
  | minute c io =>
    change Settled (everyMinute c io s).eeprom ↔ Settled s.eeprom ∧ ¬JanuaryMidnight c
    by_cases january : JanuaryMidnight c
    · refine iff_of_false (not_settled_of_closed ?_) (fun both => both.2 january)
      rw [everyMinute_erases s c io january, erased_size]
    · have kept := kept_everyMinute s c io january
      rw [kept.settled_iff sound, and_iff_left january]
  | request isFile tmp request boot =>
    have stores := step_stores s isFile tmp request boot
    rw [stillOpen]
    by_cases restarts : Restarts request
    · exact iff_of_true (stores.restarted sound restarts) (.inl restarts)
    rw [or_iff_right restarts]
    by_cases clears : Clears request
    · exact iff_of_false (not_settled_of_closed (stores.cleared restarts clears)) (fun both => both.2 clears)
    · rw [(stores.kept restarts clears).settled_iff sound, and_iff_left clears]

theorem stillOpen_iff (event : Event) : stillOpen True event ↔ ¬Erases event := by
  cases event with
  | pulse => exact iff_of_true trivial id
  | restart boot => exact iff_of_true trivial id
  | minute c io => exact and_iff_right trivial
  | request isFile tmp request boot =>
    have both : Erases (.request isFile tmp request boot) ↔ Clears request ∧ ¬Restarts request := by
      simp only [Erases, Clears, Restarts]
      cases setupArgs request with
      | none => simp
      | some args => simp
    rw [both, stillOpen, true_and, not_and_or, not_not, or_comm]

theorem step_settled_iff (event : Event) (settled : Settled s.eeprom) :
    Settled (step s event).eeprom ↔ ¬Erases event := by
  have isOpen : Settled s.eeprom ↔ True := iff_of_true settled trivial
  rw [step_open_iff s event ⟨settled.driver, .inl settled⟩, propext isOpen, stillOpen_iff]

theorem started_settled (boot : Setup.Boot) (flash : ByteMemory.Memory) (files : Spiffs.Files) :
    Settled (Setup.setup boot (powerOn flash true files)).eeprom := by
  rw [Restart.setup_eeprom]
  exact begin_settled rfl

/-- A run leaves the EEPROM open exactly when its events do. -/
theorem open_iff (boot : Setup.Boot) (flash : ByteMemory.Memory) (files : Spiffs.Files) (events : List Event) :
    Settled (Runs.run step (Setup.setup boot (powerOn flash true files)) events).eeprom ↔
      Runs.run stillOpen True events := by
  have start := started_settled boot flash files
  have tracks := Runs.run_tracks step (fun s => Settled s.eeprom) stillOpen (fun s => Sound s.eeprom)
    (fun s event => step_sound s event) events (fun s event _ sound => propext (step_open_iff s event sound)) _
    ⟨start.driver, .inl start⟩
  rw [tracks, propext (iff_of_true start trivial)]

theorem run_sound (boot : Setup.Boot) (flash : ByteMemory.Memory) (files : Spiffs.Files) (events : List Event) :
    Sound (Runs.run step (Setup.setup boot (powerOn flash true files)) events).eeprom := by
  have start := started_settled boot flash files
  exact (Runs.throughout_of_invariant (fun s event sound _ => step_sound s event sound) events _
    ⟨start.driver, .inl start⟩ (Runs.Along.of_forall (fun _ _ => trivial) events _)).last

end Steps

section Usable

/-- A word is read back at its address, at once and after a restart. -/
def ReadsBack (address : Nat) (word : UInt32) (s : Globals) : Prop :=
  (∀ old, s.eeprom.get address old = word) ∧
    ∀ boot old, (Setup.setup boot s.restart).eeprom.get address old = word

def ByteReadsBack (address : Nat) (value : UInt8) (s : Globals) : Prop :=
  s.eeprom.read address = value ∧ ∀ boot, (Setup.setup boot s.restart).eeprom.read address = value

/-- Every kind of store takes effect. -/
structure Usable (s : Globals) : Prop where
  day : ∀ tmp m d, m < 12 → d < 31 → ReadsBack (eeAddress m d) (s.tagesCounter m d) (putEeprom tmp m d s)
  value : ∀ address x, address + 4 ≤ opened → ReadsBack address x.toBits (putEepromValue address x s)
  host : ∀ first value, value ≠ fhemIp s → ∀ i token, i < 4 → (strtok 46 (toCharArray first 20))[i]? = some token →
    ByteReadsBack (adresseEepromFhemHost + i * 2) (octet token) (setIp first value s)

theorem settled_readsBack (s : Globals) (settled : Settled s.eeprom) (address : Nat) (word : UInt32)
    (fits : address + 4 ≤ opened) (holds : ByteMemory.read32 s.eeprom.data address = word) :
    ReadsBack address word s := by
  constructor
  · intro old
    rw [settled.get address old fits, holds]
  · intro boot old
    have again := restarted_settled s boot settled.driver
    rw [again.get address old fits, Restart.setup_eeprom, begin_data]
    exact (settled.read32_flash address fits).trans holds

theorem settled_byteReadsBack (s : Globals) (settled : Settled s.eeprom) (address : Nat) (value : UInt8)
    (fits : address < opened) (holds : s.eeprom.data address = value) : ByteReadsBack address value s := by
  constructor
  · rw [settled.read address fits, holds]
  · intro boot
    have again := restarted_settled s boot settled.driver
    rw [again.read address fits, Restart.setup_eeprom, begin_data]
    exact (settled.same address fits).trans holds

/-- What token `i` makes of an octet: its number, or the old octet where there is no such token. -/
def next (tokens : List Str) (i : Nat) (old : UInt8) : UInt8 := ((tokens[i]?).map octet).getD old

theorem setHostBytes_elsewhere (tokens : List Str) (state : Globals × Nat) (a : Nat)
    (elsewhere : ∀ i, i < tokens.length → a ≠ adresseEepromFhemHost + (state.2 + i) * 2) :
    (tokens.foldl setHostByte state).1.eeprom.data a = state.1.eeprom.data a := by
  induction tokens generalizing state with
  | nil => rfl
  | cons token rest ih =>
    have here := elsewhere 0 (by simp)
    have first : (setHostByte state token).1.eeprom.data a = state.1.eeprom.data a := by
      unfold setHostByte EEPROMClass.write
      dsimp only
      split
      · rfl
      · split
        · exact Function.update_of_ne (by simpa using here) _ _
        · rfl
    rw [List.foldl_cons, ih _, first]
    intro i inside
    have later := elsewhere (i + 1) (by simpa using inside)
    have index : (setHostByte state token).2 = state.2 + 1 := rfl
    rw [index]
    omega

theorem setHostBytes_data (tokens : List Str) (state : Globals × Nat) (i : Nat) :
    (tokens.foldl setHostByte state).1.eeprom.data (adresseEepromFhemHost + (state.2 + i) * 2) =
      if adresseEepromFhemHost + (state.2 + i) * 2 < state.1.eeprom.size then
        next tokens i (state.1.eeprom.data (adresseEepromFhemHost + (state.2 + i) * 2))
      else state.1.eeprom.data (adresseEepromFhemHost + (state.2 + i) * 2) := by
  induction tokens generalizing state i with
  | nil => exact (ite_self _).symm
  | cons first rest ih =>
    have index : (setHostByte state first).2 = state.2 + 1 := rfl
    have written := write_apply state.1.eeprom (adresseEepromFhemHost + state.2 * 2) (octet first)
    have size : (setHostByte state first).1.eeprom.size = state.1.eeprom.size := write_size _ _ _
    rw [List.foldl_cons]
    cases i with
    | zero =>
      rw [setHostBytes_elsewhere rest (setHostByte state first) _ (by
        intro k _
        rw [index]
        omega)]
      refine (written _).trans ?_
      simp only [Nat.add_zero, and_true]
      rfl
    | succ i =>
      have shift : state.2 + (i + 1) = state.2 + 1 + i := by omega
      have kept : (setHostByte state first).1.eeprom.data (adresseEepromFhemHost + (state.2 + 1 + i) * 2) =
          state.1.eeprom.data (adresseEepromFhemHost + (state.2 + 1 + i) * 2) :=
        (written _).trans (if_neg (by omega))
      have later := ih (setHostByte state first) i
      rw [index, size, kept] at later
      rw [shift]
      exact later

theorem setHostBytes_written (tokens : List Str) (s : Globals) (isOpen : Open s.eeprom) (i : Nat)
    (token : Str) (present : tokens[i]? = some token) (fits : adresseEepromFhemHost + i * 2 < opened) :
    (tokens.foldl setHostByte (s, 0)).1.eeprom.data (adresseEepromFhemHost + i * 2) = octet token := by
  have data := setHostBytes_data tokens (s, 0) i
  rw [Nat.zero_add, isOpen.size, if_pos fits, next, present] at data
  exact data

theorem usable_of_settled (s : Globals) (settled : Settled s.eeprom) : Usable s where
  day tmp m d month day := by
    have fits : eeAddress m d + 4 ≤ opened := (eeAddress_lt m d month day).trans (by decide)
    rw [putEeprom_eq]
    apply settled_readsBack _ (savedDay_settled settled tmp m d _) _ _ fits
    simp only [savedDay_data settled tmp m d _ month day, ByteMemory.read32_write32]
  value address x fits := by
    apply settled_readsBack _ ((kept_putEepromValue s address x).settled settled) _ _ fits
    simp only [putEepromValue, commit_data, settled.put_data address _ fits, ByteMemory.read32_write32]
  host first value changes i token small present := by
    have fits : adresseEepromFhemHost + i * 2 < opened := by
      unfold adresseEepromFhemHost opened
      omega
    apply settled_byteReadsBack _ ((kept_setting s _ (setIp_stores value s first)).settled settled) _ _ fits
    rw [setIp_eeprom value s first changes, commit_data]
    exact setHostBytes_written _ s settled.toOpen i token present fits

theorem not_usable_of_closed (s : Globals) (closed : s.eeprom.size = 0) : ¬Usable s := by
  intro usable
  have stored := (usable.value 0 0 (by decide)).1
  have ignored : (putEepromValue 0 0 s).eeprom = s.eeprom := (kept_putEepromValue s 0 0).closed closed
  rw [ignored] at stored
  have zero := stored 0
  have one := stored 1
  rw [get_closed closed] at zero one
  exact absurd (zero.trans one.symm) (by decide)

theorem usable_iff (s : Globals) (sound : Sound s.eeprom) : Usable s ↔ Settled s.eeprom := by
  rcases sound.state with settled | closed
  · exact iff_of_true (usable_of_settled s settled) settled
  · exact iff_of_false (not_usable_of_closed s closed) (not_settled_of_closed closed)

/-- Storage stays usable along a run exactly when no event of the run erases the table. -/
theorem storage_usable_iff (boot : Setup.Boot) (flash : ByteMemory.Memory) (files : Spiffs.Files)
    (events : List Event) :
    Runs.Throughout step Usable (Setup.setup boot (powerOn flash true files)) events ↔
      Runs.Along step (fun _ event => ¬Erases event) (Setup.setup boot (powerOn flash true files)) events := by
  have start := started_settled boot flash files
  have keeps (s : Globals) (event : Event) (sound : Sound s.eeprom) (_ : True) : Sound (step s event).eeprom :=
    step_sound s event sound
  refine Runs.throughout_iff_along keeps ?_ events _ ⟨start.driver, .inl start⟩ (usable_of_settled _ start)
    (Runs.Along.of_forall (fun _ _ => trivial) events _)
  intro s event sound _ usable
  rw [usable_iff _ (step_sound s event sound)]
  exact step_settled_iff s event ((usable_iff s sound).mp usable)

/-- Started on New Year's Day 2019 in the morning, the device loses its storage at the next midnight. -/
theorem storage_lost_on_second_january :
    ¬Runs.Throughout step Usable
      (Setup.setup ⟨1546329600, fun _ _ => 1546329600, ⟨3300, -60, 0⟩⟩ (powerOn (fun _ => 0xFF) true []))
      [.minute 1546387200 ⟨3300, -60, 0⟩] := by
  intro through
  have january : JanuaryMidnight 1546387200 := by decide
  refine not_usable_of_closed _ ?_ through.2
  exact (congrArg EEPROMClass.size (everyMinute_erases _ _ _ january)).trans (erased_size _)

end Usable
end EspLog.Storage

import EspLog.Buffer
import EspLog.Printing

/-! When the names behind the printed values stand. A step prints no output twice, and a text that fits leaves the
name behind it as it was. -/

namespace EspLog.Names
open CText ExactFloat Sketch Functions Setup Websites WebServer Effects Restart Loop Outputs Texts TimeLib
  Buffer Printing

section Store

/-- Neither the text nor the name has changed. -/
def Silent (before after : ValueStore) : Prop :=
  after.printValue = before.printValue ∧ after.realName = before.realName

/-- At most one text has been printed. -/
def Once (before after : ValueStore) : Prop :=
  Silent before after ∨ (∃ x width places, after.printValue = dtostrf x width places) ∧
    after.realName = ValueStore.overrun after.printValue before.realName

variable {first second third : ValueStore}

theorem silent_of_eq (same : second = first) : Silent first second := by
  rw [same]
  exact ⟨rfl, rfl⟩

theorem Silent.trans (before : Silent first second) (after : Silent second third) : Silent first third :=
  ⟨after.1.trans before.1, after.2.trans before.2⟩

theorem Silent.once (before : Silent first second) (after : Once second third) : Once first third := by
  rcases after with silent | ⟨number, printed⟩
  · exact .inl (before.trans silent)
  · rw [before.2] at printed
    exact .inr ⟨number, printed⟩

theorem Once.silent (before : Once first second) (after : Silent second third) : Once first third := by
  rcases before with silent | ⟨number, printed⟩
  · exact .inl (silent.trans after)
  · rw [← after.1] at number printed
    exact .inr ⟨number, after.2.trans printed⟩

theorem Once.kept (once : Once first second) (fits : second.printValue.length ≤ 14) :
    second.realName = first.realName := by
  rcases once with silent | ⟨-, printed⟩
  · exact silent.2
  · rw [printed, ValueStore.overrun, if_pos (by omega)]

/-- A lost name does not come back. -/
theorem Once.lost (once : Once first second) (lost : Numeral first.realName) : Numeral second.realName := by
  rcases once with silent | ⟨⟨x, width, places, number⟩, printed⟩
  · exact silent.2 ▸ lost
  · rw [printed, number]
    rcases overrun_dtostrf x width places first.realName with kept | damaged
    · exact kept.symm ▸ lost
    · exact damaged

theorem once_store (x : Float) (width places : ℕ) (store : ValueStore) :
    Once store (store.print (dtostrf x width places)) :=
  .inr ⟨⟨x, width, places, rfl⟩, rfl⟩

theorem once_shown (v : Float32) (x : Float) (width places : ℕ) (store : ValueStore) :
    Once store (shown v (dtostrf x width places) store) :=
  once_store x width places { store with value := v }

end Store

section Call
variable (m d : ℕ) (c : UInt32) (io : Readings) (s : Globals) (i : ℕ)

theorem silent_value (j : ℕ) (v : Float32) : Silent (s.ausgabe i) ((s.setValue j v).ausgabe i) :=
  ⟨setValue_print s j v i, setValue_name s j v i⟩

theorem once_print (j : ℕ) (x : Float) (width places : ℕ) :
    Once (s.ausgabe i) ((s.setPrint j (dtostrf x width places)).ausgabe i) := by
  by_cases same : i = j
  · subst same
    rw [setPrint_store]
    exact once_store x width places _
  · exact .inl (silent_of_eq (setPrint_of_ne s j _ i same))

/-- The statements that print output `i`. -/
def prints : Statement → Bool
  | .ertragText j => i == j
  | .spezifischText => i == 3
  | .zaehlerstandText => i == 10
  | .leistungText => i == 6
  | .maximum => i == 5
  | _ => false

theorem exec_silent (frame : Frame) (statement : Statement) (other : prints i statement = false) :
    Silent (frame.sketch.ausgabe i) ((exec m d c io frame statement).sketch.ausgabe i) := by
  cases statement with
  | ertrag j => exact silent_value _ i j _
  | spezifisch => exact silent_value _ i 3 _
  | zaehlerstand => exact silent_value _ i 10 _
  | leistung => exact silent_value _ i 6 _
  | _ => exact silent_of_eq (exec_output m d c io i frame _ other)

theorem exec_once (frame : Frame) (statement : Statement) :
    Once (frame.sketch.ausgabe i) ((exec m d c io frame statement).sketch.ausgabe i) := by
  cases statement with
  | ertragText j => exact once_print _ i j _ _ _
  | spezifischText => exact once_print _ i 3 _ _ _
  | zaehlerstandText => exact once_print _ i 10 _ _ _
  | leistungText => exact once_print _ i 6 _ _ _
  | maximum =>
    simp only [exec]
    split
    · exact (silent_value _ i 5 _).once (once_print _ i 5 _ _ _)
    · exact .inl ⟨rfl, rfl⟩
  | _ => exact .inl (exec_silent m d c io i frame _ rfl)

theorem run_once (statements : List Statement) (frame : Frame) (single : statements.countP (prints i) ≤ 1) :
    Once (frame.sketch.ausgabe i) ((Runs.run (exec m d c io) frame statements).sketch.ausgabe i) := by
  have silent (statements : List Statement) (frame : Frame) (none : statements.countP (prints i) = 0) :
      Silent (frame.sketch.ausgabe i) ((Runs.run (exec m d c io) frame statements).sketch.ausgabe i) := by
    induction statements generalizing frame with
    | nil => exact ⟨rfl, rfl⟩
    | cons statement later ih =>
      have others := List.countP_eq_zero.mp none
      have here : prints i statement = false := by simpa using others statement List.mem_cons_self
      have rest : later.countP (prints i) = 0 :=
        List.countP_eq_zero.mpr fun other member => others other (List.mem_cons_of_mem _ member)
      exact (exec_silent m d c io i frame statement here).trans (ih _ rest)
  induction statements generalizing frame with
  | nil => exact .inl ⟨rfl, rfl⟩
  | cons statement later ih =>
    rw [Runs.run_cons]
    by_cases here : prints i statement = true
    · rw [List.countP_cons_of_pos here] at single
      exact (exec_once m d c io i frame statement).silent (silent later _ (by omega))
    · rw [List.countP_cons_of_neg here] at single
      exact (exec_silent m d c io i frame statement (by simpa using here)).once (ih _ single)

theorem once_timer (known : i < 11) : Once (s.ausgabe i) ((FuenfMinutenTimer m d c io s).ausgabe i) := by
  apply run_once m d c io i (statements s.impulseProKwh) { sketch := s }
  unfold statements
  split
  · revert i
    decide
  · revert i
    decide

theorem once_bookYesterday (known : i < 11) : Once (s.ausgabe i) ((bookYesterday c io s).ausgabe i) := by
  have timer := once_timer s.yesterday.month s.yesterday.day c io s i known
  have stored (tmp : UInt32) (m d : ℕ) (s : Globals) : (putEeprom tmp m d s).ausgabe = s.ausgabe := by
    rw [putEeprom_eq]
  rw [bookYesterday, stored]
  exact timer

end Call

section Tick
variable (c : UInt32) (io : Readings) (s : Globals)

/-- The sketch as a tick reports it: at midnight the day that ends. -/
def reported : Globals :=
  let s := s.setValue 9 ((s.ausgabe 9).value + 1)
  let s := s.setPrint 9 (dtostrf (toDouble (s.ausgabe 9).value) 2 0)
  let s := localTime c s
  let s := { s with today := { year := year s.t, month := month s.t - 1, day := day s.t - 1 } }
  if hour s.t = 0 ∧ minute s.t = 0 then bookYesterday c io s
    else FuenfMinutenTimer s.today.month s.today.day c io s

/-- The rest of the tick, behind the messages. -/
def afterReport : Globals :=
  let s := if Midnight (localClock c) then closeDay io.tmp s
    else if Evening (localClock c) then { s with yesterday := s.today } else s
  let s := s.setPrint 7 (dtostrf (io.vcc.toFloat / 1000) 2 2)
  s.setPrint 8 (dtostrf (Float.ofInt io.rssi.toInt) 2 0)

theorem everyMinute_reported (tick : minute c % 5 = 0) :
    everyMinute c io s = afterReport c io (reported c io s) := by
  have clock (s : Globals) : fiveMinutes c io (localTime c s) = afterReport c io
      (let s := localTime c s
        let s := { s with today := { year := year s.t, month := month s.t - 1, day := day s.t - 1 } }
        if hour s.t = 0 ∧ minute s.t = 0 then bookYesterday c io s
        else FuenfMinutenTimer s.today.month s.today.day c io s) := by
    rw [localTime_eq]
    simp only [fiveMinutes, afterReport, Midnight, Evening]
    by_cases midnight : hour (localClock c) = 0 ∧ minute (localClock c) = 0
    · rw [if_pos midnight, if_pos midnight, if_pos midnight]
      rfl
    · rw [if_neg midnight, if_neg midnight, if_neg midnight]
      rw [sameDay, FuenfMinutenTimer_eq]
  rw [everyMinute, if_pos tick, clock]
  rfl

theorem readable_reported {s : Globals} (readable : Readable s) : Readable (reported c io s) := by
  have booked (s : Globals) (before : Readable s) : Readable (if hour s.t = 0 ∧ minute s.t = 0 then
      bookYesterday c io s else FuenfMinutenTimer s.today.month s.today.day c io s) :=
    keeps_ite _ (readable_bookYesterday c io before) (readable_timer c io _ _ before)
  have clock (s : Globals) : (localTime c s).ausgabe = s.ausgabe := by rw [localTime_eq]
  have uptime := ((readable.value 9 ((s.ausgabe 9).value + 1)).print 9
    (toDouble ((s.setValue 9 ((s.ausgabe 9).value + 1)).ausgabe 9).value) 2 0).frame (clock _)
  exact booked _ (uptime.frame rfl)

theorem once_reported (i : ℕ) (known : i < 11) (ne : i ≠ 9) :
    Once (s.ausgabe i) ((reported c io s).ausgabe i) := by
  have clock (s : Globals) : (localTime c s).ausgabe = s.ausgabe := by rw [localTime_eq]
  have uptime (v : Float32) (p : Str) : ((s.setValue 9 v).setPrint 9 p).ausgabe i = s.ausgabe i :=
    (setPrint_of_ne _ _ _ _ ne).trans (setValue_of_ne _ _ _ _ ne)
  have booked (s : Globals) : Once (s.ausgabe i) ((if hour s.t = 0 ∧ minute s.t = 0 then bookYesterday c io s
      else FuenfMinutenTimer s.today.month s.today.day c io s).ausgabe i) := by
    split
    · exact once_bookYesterday c io s i known
    · exact once_timer s.today.month s.today.day c io s i known
  rw [reported, ← uptime ((s.ausgabe 9).value + 1) (dtostrf (toDouble ((s.ausgabe 9).value + 1)) 2 0)]
  refine Silent.once ?_ (booked _)
  dsimp only
  rw [clock, setValue_self]
  exact ⟨rfl, rfl⟩

theorem silent_closeDay (tmp : UInt32) (i : ℕ) : Silent (s.ausgabe i) ((closeDay tmp s).ausgabe i) := by
  have reset : Silent (s.ausgabe i) ((resetDay s).ausgabe i) := by
    unfold resetDay
    exact (silent_value _ i 0 0).trans (silent_value _ i 5 0)
  have month (s : Globals) : Silent (s.ausgabe i) ((if s.today.day = 0 then newMonth s else s).ausgabe i) := by
    split
    · exact silent_value _ i 1 0
    · exact ⟨rfl, rfl⟩
  have year (s : Globals) : Silent (s.ausgabe i) ((if s.today.month = 0 then newYear tmp s else s).ausgabe i) := by
    split
    · have erased : (deleteEEPROM (backup2file tmp s)).ausgabe = s.ausgabe := by
        unfold deleteEEPROM backup2file
        rfl
      exact (silent_of_eq (congrFun erased i)).trans (silent_value _ i 2 0)
    · exact ⟨rfl, rfl⟩
  exact (reset.trans (month _)).trans (year _)

theorem silent_afterReport (i : ℕ) (ne : i ≠ 7 ∧ i ≠ 8) :
    Silent (s.ausgabe i) ((afterReport c io s).ausgabe i) := by
  unfold afterReport
  dsimp only
  rw [setPrint_of_ne _ _ _ _ ne.2, setPrint_of_ne _ _ _ _ ne.1]
  split
  · exact silent_closeDay s io.tmp i
  · split <;> exact ⟨rfl, rfl⟩

end Tick

section System

/-- The names behind the texts that follow running values stand. -/
def Named (s : Globals) : Prop := ∀ i ∈ printed, (s.ausgabe i).realName = realName i

theorem printed_known : ∀ i ∈ printed, i < 11 ∧ i ≠ 9 ∧ i ≠ 7 ∧ i ≠ 8 := by decide

theorem Named.frame {before after : Globals} (named : Named before) (same : after.ausgabe = before.ausgabe) :
    Named after := by
  intro i member
  rw [same]
  exact named i member

theorem named_reported (c : UInt32) (io : Readings) (s : Globals) (tick : minute c % 5 = 0) (named : Named s)
    (fits : Fits (everyMinute c io s)) : Named (reported c io s) := by
  intro i member
  obtain ⟨known, uptime, rest⟩ := printed_known i member
  have after := silent_afterReport c io (reported c io s) i rest
  rw [← everyMinute_reported c io s tick] at after
  have fit := fits i member
  rw [after.1] at fit
  exact ((once_reported c io s i known uptime).kept fit).trans (named i member)

theorem named_minute (c : UInt32) (io : Readings) (s : Globals) (named : Named s)
    (fits : Fits (everyMinute c io s)) :
    Named (everyMinute c io s) := by
  intro i member
  obtain ⟨-, uptime, rest⟩ := printed_known i member
  by_cases tick : minute c % 5 = 0
  · have before := named_reported c io s tick named fits i member
    rw [everyMinute_reported c io s tick]
    exact (silent_afterReport c io (reported c io s) i rest).2.trans before
  · rw [idle_output c io s i uptime tick]
    exact named i member

theorem named_setOffset (value : Str) (s : Globals) (named : Named s) (fits : Fits (setOffset value s)) :
    Named (setOffset value s) := by
  intro i member
  have once : Once (s.ausgabe i) ((setOffset value s).ausgabe i) := by
    by_cases same : (toFloat value == s.offset) = true
    · rw [setOffset_same s value same]
      exact .inl ⟨rfl, rfl⟩
    · by_cases meter : i = 10
      · rw [meter, (setOffset_meter s value same).1]
        exact once_shown _ _ 2 2 _
      · rcases setOffset_stores value s with unchanged | stores
        · rw [unchanged]
          exact .inl ⟨rfl, rfl⟩
        · exact .inl (silent_of_eq (stores.outputs i meter))
  exact (once.kept (fits i member)).trans (named i member)

theorem named_clearTable (s : Globals) (named : Named s) : Named (clearTable s) := by
  intro i member
  rw [clearTable_output]
  split
  · have short : (dtostrf 0 2 2).length ≤ 14 := by decide
    exact ((once_shown 0 0 2 2 (s.ausgabe i)).kept short).trans (named i member)
  · exact named i member

theorem named_setupArgument (tmp : UInt32) (args : Arguments) (s : Globals) (entry : Str × Str) (named : Named s)
    (fits : Fits (setupArgument tmp args entry.1 s)) : Named (setupArgument tmp args entry.1 s) := by
  by_cases offset : entry.1 = text "offset"
  · have one := Settings.setupArgument_set tmp args .offset s
    rw [Settings.Setting.name, Settings.Setting.set] at one
    rw [offset, one] at fits ⊢
    exact named_setOffset _ s named fits
  · apply setupArgument_parts (fun before after => Named before → Named after) (fun _ => id)
      (fun first second before => second (first before)) tmp args entry.1 _ _ _ _ s named
    · exact fun action member value s before => before.frame (settings_outputs _ action member value s).1
    · exact fun now => absurd now offset
    · exact fun _ s before => before.frame rfl
    · exact fun _ s before => named_clearTable s before

/-- By induction over the arguments: each of them meets a state whose texts fit. -/
theorem named_arguments (tmp : UInt32) (args entries : Arguments) (s : Globals) (named : Named s)
    (through : Runs.Throughout (fun s (entry : Str × Str) => setupArgument tmp args entry.1 s) Fits s entries) :
    Named (Runs.run (fun s (entry : Str × Str) => setupArgument tmp args entry.1 s) s entries) := by
  induction entries generalizing s with
  | nil => exact named
  | cons entry later ih =>
    obtain ⟨-, after⟩ := through
    exact ih _ (named_setupArgument tmp args s entry named after.start) after

theorem named_request (isFile : Str → Bool) (tmp : UInt32) (request : Request) (s : Globals) (named : Named s)
    (stays : ¬(handleRequest isFile tmp request s).restart = true)
    (between : ∀ args, setupArgs request = some args →
      Runs.Throughout (fun s (entry : Str × Str) => setupArgument tmp args entry.1 s) Fits s (served args)) :
    Named (handleRequest isFile tmp request s).sketch := by
  apply Storage.handleRequest_stays Named isFile tmp request s stays
  · exact fun after only => named.frame only.ausgabe
  · intro args called going
    have through := between args called
    rw [served_of_stays args going] at through
    rw [Settings.handleSetup_run tmp args s going]
    exact named_arguments tmp args _ s named through

theorem begun_name (boot : Boot) (s : Globals) : Named (begun boot s) := by
  have zero : (dtostrf 0 2 0).length < 15 := by decide
  have logged (logtext : Str) (e : Eeprom.EEPROMClass) (s : Globals) :
      (write2logfile logtext { s with eeprom := e }).ausgabe = s.ausgabe := rfl
  have short (name : Str) : ValueStore.overrun (dtostrf 0 2 0) name = name := if_pos zero
  intro i member
  rw [begun, logged]
  simp only [printed, List.mem_cons, List.not_mem_nil, or_false] at member
  rcases member with rfl | rfl | rfl | rfl | rfl | rfl
  all_goals
    simp (disch := decide) only [setupStructAusgabe, realNames, List.zipIdx_cons, List.zipIdx_nil, List.foldl_cons,
      List.foldl_nil, setPrint_of_ne, setPrint_store, ValueStore.print, short, setName_of_ne, setName_self]
    rfl

theorem silent_restoreTable (now : ℕ → ℕ → UInt32) (s : Globals) (i : ℕ) :
    Silent (s.ausgabe i) ((restoreTable now s).ausgabe i) := by
  rw [restoreTable_cells]
  generalize cells = cells
  induction cells generalizing s with
  | nil => exact ⟨rfl, rfl⟩
  | cons cell later ih =>
    refine Silent.trans ?_ (ih _)
    have read (table : ℕ → ℕ → UInt32) : Silent (s.ausgabe i) ({ s with tagesCounter := table }.ausgabe i) :=
      ⟨rfl, rfl⟩
    have chosen (after : Globals) (j : ℕ) (v : Float32) (here : Prop) [Decidable here]
        (silent : Silent (s.ausgabe i) (after.ausgabe i)) :
        Silent (s.ausgabe i) ((if here then after.setValue j v else after).ausgabe i) := by
      split
      · exact silent.trans (silent_value after i j v)
      · exact silent
    unfold restoreCell restoreDay
    exact (chosen _ 1 _ _ (chosen _ 0 _ _ (read _))).trans (silent_value _ i 2 _)

theorem restoreSettings_output (floatTmp : Float32) (s : Globals) (i : ℕ) :
    Once (s.ausgabe i) ((restoreSettings floatTmp s).1.ausgabe i) ∧
      (i ≠ 10 → (restoreSettings floatTmp s).1.ausgabe i = s.ausgabe i) := by
  have offset (s : Globals) (v : Float32) (x : Float) :
      Once (s.ausgabe i) (((s.setValue 10 v).setPrint 10 (dtostrf x 2 2)).ausgabe i) :=
    (silent_value s i 10 v).once (once_print _ i 10 x 2 2)
  simp only [restoreSettings, restoreZaehlerkonstante, restoreVerguetung, restoreGeneratorleistung,
    restoreZaehleroffset, restoreSimulation, restoreFhemPort, restoreFhemHost, restoreLog, write2logfile,
    restoreHostBytes_eq]
  refine ⟨offset _ _ _, fun other => ?_⟩
  rw [setPrint_of_ne _ _ _ _ other, setValue_of_ne _ _ _ _ other]

theorem once_restoreTexts (floatTmp : Float32) (s : Globals) (i : ℕ) (yield : i < 3) :
    Once (s.ausgabe i) ((restoreTexts floatTmp s).ausgabe i) := by
  have logged (logtext : Str) (s : Globals) : (write2logfile logtext s).ausgabe = s.ausgabe := rfl
  obtain rfl | rfl | rfl : i = 0 ∨ i = 1 ∨ i = 2 := by omega
  all_goals
    by_cases month : (s.ausgabe 1).value > 0 <;>
    by_cases year : (s.ausgabe 2).value > 0
  all_goals
    simp only [restoreTexts, logged, setPrint_value, month, year, if_true, if_false]
    simp (disch := decide) only [setPrint_of_ne, setValue_of_ne, setPrint_store, logged]
    exact once_store _ _ _ _

theorem named_setup (boot : Boot) (s : Globals) (fits : Fits (setup boot s)) : Named (setup boot s) := by
  intro i member
  have table := (silent_restoreTable boot.now (begun boot s) i).2.trans (begun_name boot s i member)
  have settings := restoreSettings_output (Float32.ofBits boot.io.tmp) (restoreTable boot.now (begun boot s)) i
  have fit := fits i member
  rw [setup_output] at fit ⊢
  by_cases yield : i < 3
  · have settled : (Restart.settled boot s).1.ausgabe i = _ := settings.2 (by omega)
    rw [(once_restoreTexts _ _ i yield).kept fit, settled]
    exact table
  · by_cases specific : i = 3
    · subst specific
      exact absurd member (by decide)
    · rw [restoreTexts_other _ _ i (by omega)] at fit ⊢
      exact (settings.1.kept fit).trans table

theorem named_step (s : Globals) (event : Event) (named : Named s) (fits : Fits (step s event) ∧ Between s event) :
    Named (step s event) := by
  obtain ⟨after, between⟩ := fits
  cases event with
  | pulse => exact named.frame rfl
  | minute c io => exact named_minute c io s named after
  | restart boot => exact named_setup boot _ after
  | request isFile tmp request boot =>
    rw [step_request] at after ⊢
    by_cases restarts : (handleRequest isFile tmp request s).restart = true
    · rw [if_pos restarts] at after ⊢
      exact named_setup boot _ after
    · rw [if_neg restarts]
      exact named_request isFile tmp request s named restarts between

/-- In a run whose texts fit all names stand. -/
theorem named_run (boot : Boot) (flash : ByteMemory.Memory) (spiOk : Bool) (files : Spiffs.Files)
    (events : List Event) (fits : Runs.Throughout step Fits (setup boot (powerOn flash spiOk files)) events)
    (between : Runs.Along step Between (setup boot (powerOn flash spiOk files)) events) :
    Named (Runs.run step (setup boot (powerOn flash spiOk files)) events) := by
  have start := named_setup boot (powerOn flash spiOk files) fits.start
  rw [Runs.throughout_iff] at fits
  exact (Runs.throughout_of_invariant named_step events _ start (fits.2.and between)).last

end System

end EspLog.Names

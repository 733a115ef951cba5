import EspLog.Loop
import EspLog.Restart
import EspLog.Texts

/-! What the outputs can read: between quotes, no printed value ever needs an escape, and a name that a long value
has run into shows no letter. -/

namespace EspLog.Printing
open CText Sketch Functions Setup Websites WebServer Loop

section Legible

/-- A text that needs no escape between the quotes of a message. -/
def Legible (s : Str) : Prop := ∀ b ∈ s, 32 ≤ b ∧ b ≠ 34 ∧ b ≠ 92

instance (s : Str) : Decidable (Legible s) := inferInstanceAs (Decidable (∀ b ∈ s, _))

theorem legible_append {a b : Str} (first : Legible a) (second : Legible b) : Legible (a ++ b) := by
  intro c member
  rcases List.mem_append.mp member with left | right
  · exact first c left
  · exact second c right

/-- Digits, points, signs and blanks. -/
def Numeral (s : Str) : Prop := ∀ b ∈ s, 32 ≤ b ∧ b < 58 ∧ b ≠ 34

instance (s : Str) : Decidable (Numeral s) := inferInstanceAs (Decidable (∀ b ∈ s, _))

theorem Numeral.legible {s : Str} (numeral : Numeral s) : Legible s := by
  intro b member
  obtain ⟨printed, low, quote⟩ := numeral b member
  refine ⟨printed, quote, ?_⟩
  rintro rfl
  exact absurd low (by decide)

theorem numeral_append {a b : Str} (first : Numeral a) (second : Numeral b) : Numeral (a ++ b) := by
  intro c member
  rcases List.mem_append.mp member with left | right
  · exact first c left
  · exact second c right

theorem numeral_digit (b : UInt8) (digit : isDigit b = true) : 32 ≤ b ∧ b < 58 ∧ b ≠ 34 := by
  simp only [isDigit, Bool.and_eq_true, decide_eq_true_eq, UInt8.le_iff_toNat_le] at digit
  have low : 48 ≤ b.toNat := digit.1
  have high : b.toNat ≤ 57 := digit.2
  refine ⟨UInt8.le_iff_toNat_le.mpr (Nat.le_trans (by decide) low), ?_, ?_⟩
  · exact UInt8.lt_iff_toNat_lt.mpr (Nat.lt_of_le_of_lt high (by decide))
  · rintro rfl
    exact absurd low (by decide)

theorem numeral_decimal (n : Nat) : Numeral (decimal n) :=
  fun b member => numeral_digit b (decimal_digits n b member)

theorem legible_decimal (n : Nat) : Legible (decimal n) := (numeral_decimal n).legible

theorem numeral_padLeft (width : Nat) (fill : UInt8) (s : Str) (plain : Numeral [fill]) (rest : Numeral s) :
    Numeral (padLeft width fill s) := by
  apply numeral_append _ rest
  intro b member
  rw [(List.mem_replicate.mp member).2]
  exact plain fill List.mem_cons_self

theorem numeral_fixedPoint (number places : Nat) : Numeral (fixedPoint number places) := by
  unfold fixedPoint
  split
  · exact numeral_decimal number
  · apply numeral_append (numeral_decimal _)
    intro b member
    rcases List.mem_cons.mp member with rfl | digits
    · decide
    · exact numeral_padLeft places 48 _ (by decide +kernel) (numeral_decimal _) b digits

theorem dtostrf_numeral (x : Float) (width places : Nat) :
    dtostrf x width places = text "nan" ∨ dtostrf x width places = text "inf" ∨
      Numeral (dtostrf x width places) := by
  have blank : Numeral [32] := by decide +kernel
  unfold dtostrf
  split
  · exact .inl rfl
  · exact .inr (.inl rfl)
  · exact .inr (.inr (numeral_padLeft _ _ _ blank (numeral_fixedPoint _ _)))
  · exact .inr (.inr (numeral_padLeft _ _ _ blank (numeral_fixedPoint _ _)))
  · refine .inr (.inr (numeral_padLeft _ _ _ blank ?_))
    intro b member
    rcases List.mem_cons.mp member with rfl | digits
    · decide
    · exact numeral_fixedPoint _ _ b digits

theorem legible_dtostrf (x : Float) (width places : Nat) : Legible (dtostrf x width places) := by
  rcases dtostrf_numeral x width places with letters | letters | numeral
  · rw [letters]
    decide +kernel
  · rw [letters]
    decide +kernel
  · exact numeral.legible

/-- What a text leaves in the name when it runs on into it is no letter. -/
theorem overrun_dtostrf (x : Float) (width places : Nat) (name : Str) :
    ValueStore.overrun (dtostrf x width places) name = name ∨
      Numeral (ValueStore.overrun (dtostrf x width places) name) := by
  unfold ValueStore.overrun
  split
  · exact .inl rfl
  · rename_i long
    right
    rcases dtostrf_numeral x width places with letters | letters | numeral
    · rw [letters] at long
      exact absurd (by decide +kernel) long
    · rw [letters] at long
      exact absurd (by decide +kernel) long
    · exact fun b member => numeral b (List.mem_of_mem_drop member)

end Legible

section Readable

/-- The name that `setup` gives an output. -/
def realName (i : Nat) : Str := text (realNames.getD i "")

/-- A printed value is legible, and the name behind it is its own or what a text left there. -/
structure Spelled (i : Nat) (store : ValueStore) : Prop where
  legible : Legible store.printValue
  named : store.realName = realName i ∨ Numeral store.realName

def Readable (s : Globals) : Prop := ∀ i, Spelled i (s.ausgabe i)

variable {s : Globals}

theorem Readable.print (readable : Readable s) (i : Nat) (x : Float) (width places : Nat) :
    Readable (s.setPrint i (dtostrf x width places)) := by
  intro j
  by_cases same : j = i
  · subst same
    rw [setPrint_store, ValueStore.print]
    refine ⟨legible_dtostrf x width places, ?_⟩
    rcases overrun_dtostrf x width places (s.ausgabe j).realName with kept | damaged
    · exact kept.symm ▸ (readable j).named
    · exact .inr damaged
  · rw [setPrint_of_ne _ _ _ _ same]
    exact readable j

theorem Readable.value (readable : Readable s) (i : Nat) (v : Float32) : Readable (s.setValue i v) := by
  intro j
  refine ⟨?_, ?_⟩
  · rw [setValue_print]
    exact (readable j).legible
  · rw [setValue_name]
    exact (readable j).named

theorem Readable.name (readable : Readable s) (i : Nat) : Readable (s.setName i (realName i)) := by
  intro j
  refine ⟨?_, ?_⟩
  · rw [setName_print]
    exact (readable j).legible
  · by_cases same : j = i
    · subst same
      exact .inl (setName_self _ _ _)
    · rw [setName_of_ne _ _ _ _ same]
      exact (readable j).named

theorem Readable.frame {after : Globals} (readable : Readable s) (same : after.ausgabe = s.ausgabe) :
    Readable after := by
  intro i
  rw [same]
  exact readable i

theorem Readable.log (readable : Readable s) (logtext : Str) : Readable (write2logfile logtext s) :=
  readable.frame rfl

end Readable

section Steps
variable (c : UInt32) (io : Readings) {s : Globals}

theorem readable_putEeprom (readable : Readable s) (tmp : UInt32) (m d : Nat) :
    Readable (putEeprom tmp m d s) := by
  unfold putEeprom
  exact Restart.keeps_ite _ (readable.frame rfl) readable

theorem readable_exec (m d : Nat) (frame : Frame) (statement : Statement) (readable : Readable frame.sketch) :
    Readable (exec m d c io frame statement).sketch := by
  cases statement with
  | energie => exact readable
  | tabelle => exact readable.frame rfl
  | ertrag i => exact readable.value _ _
  | ertragText i => exact readable.print _ _ _ _
  | spezifisch => exact readable.value _ _
  | spezifischText => exact readable.print _ _ _ _
  | zaehlerstand => exact readable.value _ _
  | zaehlerstandText => exact readable.print _ _ _ _
  | leistung => exact readable.value _ _
  | leistungText => exact readable.print _ _ _ _
  | slot => exact readable.frame rfl
  | maximum =>
    simp only [exec]
    split
    · exact (readable.value _ _).print _ _ _ _
    · exact readable
  | reset => exact readable.frame rfl
  | sichern => exact readable_putEeprom readable _ _ _

theorem readable_timer (m d : Nat) (readable : Readable s) : Readable (FuenfMinutenTimer m d c io s) := by
  have all (statements : List Statement) (frame : Frame) (before : Readable frame.sketch) :
      Readable (Runs.run (exec m d c io) frame statements).sketch := by
    induction statements generalizing frame with
    | nil => exact before
    | cons statement later ih => exact ih _ (readable_exec c io m d frame statement before)
  exact all _ _ readable

theorem readable_bookYesterday (readable : Readable s) : Readable (bookYesterday c io s) :=
  readable_putEeprom (readable_timer c io _ _ readable) _ _ _

/-- The rest of the midnight, behind the messages. -/
def closeDay (tmp : UInt32) (s : Globals) : Globals :=
  let s := resetDay s
  let s := if s.today.day = 0 then newMonth s else s
  if s.today.month = 0 then newYear tmp s else s

theorem newDay_eq (s : Globals) : newDay c io s = closeDay io.tmp (bookYesterday c io s) := rfl

theorem readable_closeDay (tmp : UInt32) (readable : Readable s) : Readable (closeDay tmp s) := by
  have month (s : Globals) (before : Readable s) : Readable (if s.today.day = 0 then newMonth s else s) :=
    Restart.keeps_ite _ ((before.frame rfl).value 1 0) before
  have year (s : Globals) (before : Readable s) : Readable (if s.today.month = 0 then newYear tmp s else s) := by
    have erased : (deleteEEPROM (backup2file tmp s)).ausgabe = s.ausgabe := by
      unfold deleteEEPROM backup2file
      rfl
    have cleared := (before.frame erased).value 2 0
    exact Restart.keeps_ite _ cleared before
  have reset : Readable (resetDay s) := ((readable.frame rfl).value 0 0).value 5 0
  exact year _ (month _ reset)

theorem readable_minute (readable : Readable s) : Readable (everyMinute c io s) := by
  have uptime := ((readable.value 9 ((s.ausgabe 9).value + 1)).print 9
    (ExactFloat.toDouble ((s.setValue 9 ((s.ausgabe 9).value + 1)).ausgabe 9).value) 2 0)
  have clock (s : Globals) : (localTime c s).ausgabe = s.ausgabe := by rw [Effects.localTime_eq]
  have ticked := uptime.frame (clock _)
  have newDay (s : Globals) (before : Readable s) : Readable (newDay c io s) := by
    rw [newDay_eq]
    exact readable_closeDay _ (readable_bookYesterday c io before)
  have sameDay (s : Globals) (before : Readable s) : Readable (sameDay c io s) := by
    have timed := readable_timer c io s.today.month s.today.day before
    exact Restart.keeps_ite _ (timed.frame rfl) timed
  have fiveMinutes (s : Globals) (before : Readable s) : Readable (fiveMinutes c io s) := by
    unfold fiveMinutes
    refine ((Restart.keeps_ite _ ?_ ?_ : Readable _).print _ _ _ _).print _ _ _ _
    · exact newDay _ (before.frame rfl)
    · exact sameDay _ (before.frame rfl)
  exact Restart.keeps_ite _ (fiveMinutes _ ticked) ticked

end Steps

section System
variable {s : Globals}

theorem readable_restoreTexts (floatTmp : Float32) (readable : Readable s) :
    Readable (restoreTexts floatTmp s) := by
  have month (s : Globals) (before : Readable s) : Readable
      (if (s.ausgabe 1).value > 0 then s.setPrint 1 (dtostrf (ExactFloat.toDouble (s.ausgabe 1).value / 1000) 2 2)
        else s.setPrint 1 (dtostrf 0 2 0)) :=
    Restart.keeps_ite _ (before.print _ _ _ _) (before.print _ _ _ _)
  have specific (s : Globals) (before : Readable s) (v : Float32) : Readable
      ((s.setValue 3 v).setPrint 3 (dtostrf (ExactFloat.toDouble ((s.setValue 3 v).ausgabe 3).value) 2 2)) :=
    (before.value 3 v).print _ _ _ _
  have day (s : Globals) (before : Readable s) (x : Float) : Readable (write2logfile
      (text "Tagesertrag (printValue) wiederhergestellt: " ++
      ((s.setPrint 0 (dtostrf x 2 2)).ausgabe 0).printValue)
      (s.setPrint 0 (dtostrf x 2 2))) := (before.print 0 x 2 2).frame rfl
  unfold restoreTexts
  exact Restart.keeps_ite _ (specific _ ((month _ (day _ (readable.print _ _ _ _) _)).print _ _ _ _) _)
    ((month _ (day _ (readable.print _ _ _ _) _)).print _ _ _ _)

theorem readable_powerOn (flash : ByteMemory.Memory) (spiOk : Bool) (files : Spiffs.Files) :
    Readable (powerOn flash spiOk files) := by
  intro i
  have zero : Legible (text "0") := by decide +kernel
  exact ⟨zero, .inr fun b member => nomatch member⟩

theorem readable_names (names : List (String × Nat)) (own : ∀ output ∈ names, text output.1 = realName output.2)
    (readable : Readable s) : Readable (names.foldl (fun s output => s.setName output.2 (text output.1)) s) := by
  induction names generalizing s with
  | nil => exact readable
  | cons output later ih =>
    rw [List.foldl_cons, own output List.mem_cons_self]
    exact ih (fun other member => own other (List.mem_cons_of_mem _ member)) (readable.name output.2)

theorem readable_setupStructAusgabe (io : Readings) (readable : Readable s) :
    Readable (setupStructAusgabe io s) := by
  have zeros (indices : List Nat) (s : Globals) (before : Readable s) :
      Readable (indices.foldl (fun s i => s.setPrint i (dtostrf 0 2 0)) s) := by
    induction indices generalizing s with
    | nil => exact before
    | cons i later ih => exact ih _ (before.print i 0 2 0)
  have named := readable_names realNames.zipIdx (by decide +kernel) readable
  exact ((zeros _ _ named).print _ _ _ _).print _ _ _ _

theorem readable_restoreTable (now : Nat → Nat → UInt32) (readable : Readable s) :
    Readable (restoreTable now s) := by
  rw [Outputs.restoreTable_cells]
  generalize Outputs.cells = cells
  induction cells generalizing s with
  | nil => exact readable
  | cons cell later ih =>
    apply ih
    unfold Outputs.restoreCell restoreDay
    have read (table : Nat → Nat → UInt32) : Readable { s with tagesCounter := table } := readable.frame rfl
    have day (s : Globals) (v : Float32) (here : Prop) [Decidable here] (before : Readable s) :
        Readable (if here then s.setValue 0 v else s) := Restart.keeps_ite _ (before.value 0 v) before
    have month (s : Globals) (v : Float32) (here : Prop) [Decidable here] (before : Readable s) :
        Readable (if here then s.setValue 1 v else s) := Restart.keeps_ite _ (before.value 1 v) before
    exact (month _ _ _ (day _ _ _ (read _))).value 2 _

theorem readable_restoreSettings (floatTmp : Float32) (readable : Readable s) :
    Readable (restoreSettings floatTmp s).1 := by
  have offset (s : Globals) (v : Float32) (x : Float) (before : Readable s) :
      Readable ((s.setValue 10 v).setPrint 10 (dtostrf x 2 2)) := (before.value 10 v).print 10 x 2 2
  simp only [restoreSettings, restoreZaehlerkonstante, restoreVerguetung, restoreGeneratorleistung,
    restoreZaehleroffset, restoreSimulation, restoreFhemPort, restoreFhemHost, restoreLog,
    Restart.restoreHostBytes_eq]
  exact (offset _ _ _ (readable.frame rfl)).frame rfl

theorem readable_setup (boot : Boot) (readable : Readable s) : Readable (setup boot s) := by
  have clock : Readable (setupNtp boot.clock s) := by
    apply readable.frame
    rw [Restart.setupNtp_eq]
  have begun : Readable (Restart.begun boot s) := (readable_setupStructAusgabe boot.io clock).frame rfl
  have settled : Readable (Restart.settled boot s).1 :=
    readable_restoreSettings _ (readable_restoreTable boot.now begun)
  exact (readable_restoreTexts (Restart.settled boot s).2 settled).log _

theorem readable_deleteRAM (readable : Readable s) : Readable (deleteRAM s) := by
  have cleared (s : Globals) (i : Nat) (before : Readable s) :
      Readable ((s.setValue i 0).setPrint i (dtostrf 0 2 2)) :=
    (before.value i 0).print i 0 2 2
  exact (cleared _ 2 (cleared _ 1 (cleared _ 0 (readable.frame rfl)))).frame rfl

theorem readable_setOffset (value : Str) (readable : Readable s) : Readable (setOffset value s) := by
  have stored (s : Globals) (v : Float32) (before : Readable s) :
      Readable ((s.setValue 10 v).setPrint 10
      (dtostrf (ExactFloat.toDouble ((s.setValue 10 v).ausgabe 10).value) 2 2)) :=
    (before.value 10 v).print _ _ _ _
  unfold setOffset
  exact Restart.keeps_ite _ (stored _ _ (readable.frame rfl)) readable

theorem readable_setupArgument (tmp : UInt32) (args : Arguments) (name : Str) (readable : Readable s) :
    Readable (setupArgument tmp args name s) := by
  apply setupArgument_parts (fun before after => Readable before → Readable after) (fun _ => id)
    (fun first second before => second (first before)) tmp args name _ _ _ _ s readable
  · intro action member value s before
    exact before.frame (Texts.settings_outputs _ action member value s).1
  · intro _ s before
    exact readable_setOffset _ before
  · intro _ s before
    exact before.frame rfl
  · intro _ s before
    have erased : Readable (deleteEEPROM (write2logfile (text "Tageswerte im Flash geloescht") s)) := by
      apply before.frame
      unfold deleteEEPROM write2logfile
      rfl
    exact readable_deleteRAM erased

theorem readable_request (isFile : Str → Bool) (tmp : UInt32) (request : Request) (readable : Readable s) :
    Readable (handleRequest isFile tmp request s).sketch := by
  apply handleRequest_rule (fun before after => Readable before → Readable after) _ isFile tmp request _ s readable
  · intro before after files printed
    exact printed.frame files.ausgabe
  · intro args _ s before
    apply setupArguments_rule (fun before after => Readable before → Readable after) (fun _ => id)
      (fun first second before => second (first before)) (fun _ _ before => before.frame rfl) tmp args args
      _ s before
    intro entry _ _ s before
    exact readable_setupArgument tmp args entry.1 before

theorem readable_step (event : Event) (readable : Readable s) : Readable (step s event) := by
  cases event with
  | pulse => exact readable.frame rfl
  | minute c io => exact readable_minute c io readable
  | restart boot => exact readable_setup boot (readable_powerOn _ _ _)
  | request isFile tmp request boot =>
    rw [step_request]
    split
    · exact readable_setup boot (readable_powerOn _ _ _)
    · exact readable_request isFile tmp request readable

theorem readable_run (boot : Boot) (flash : ByteMemory.Memory) (spiOk : Bool) (files : Spiffs.Files)
    (events : List Event) :
    Readable (Runs.run step (setup boot (powerOn flash spiOk files)) events) := by
  have start := readable_setup boot (readable_powerOn flash spiOk files)
  generalize setup boot (powerOn flash spiOk files) = s at start
  induction events generalizing s with
  | nil => exact start
  | cons event later ih => exact ih _ (readable_step event start)

end System

end EspLog.Printing

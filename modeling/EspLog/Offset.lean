import EspLog.Meter
import EspLog.Settings
import EspLog.Texts

/-! The meter's offset on the setup page. A new offset is added to the reading, in which the old one stays. -/

namespace EspLog.Offset
open CText ExactFloat Sketch Setup Websites WebServer Effects Restart Loop Outputs YearYield Texts TimeLib
open Storage (given given_cons)
open Meter (reading everyMinute_reading)

section Submission
variable (tmp : UInt32) (args : Arguments) (s : Globals)

def meter (s : Globals) : Float32 × Float32 := ((s.ausgabe 10).value, s.offset)

/-- What one submission makes of them. -/
def submit (x : Float32) (m : Float32 × Float32) : Float32 × Float32 :=
  if (x == m.2) = true then m else (m.1 + x * 1000, x)

def submitted (args : Arguments) : Float32 := toFloat (arg (text "offset") args)

theorem setOffset_submit (value : Str) : meter (setOffset value s) = submit (toFloat value) (meter s) := by
  unfold submit
  by_cases same : (toFloat value == s.offset) = true
  · rw [setOffset_same s value same]
    exact (if_pos same).symm
  · obtain ⟨output, offset⟩ := setOffset_meter s value same
    refine Eq.trans ?_ (if_neg same).symm
    rw [meter, output, offset]
    rfl

theorem submit_twice (x : Float32) (m : Float32 × Float32) (number : (x == x) = true) :
    submit x (submit x m) = submit x m := by
  by_cases same : (x == m.2) = true
  · have kept : submit x m = m := if_pos same
    rw [kept, kept]
  · have changed : submit x m = (m.1 + x * 1000, x) := if_neg same
    rw [changed]
    exact if_pos number

theorem setupArgument_meter (name : Str) : meter (setupArgument tmp args name s) =
    if name = text "offset" then submit (submitted args) (meter s) else meter s := by
  by_cases named : name = text "offset"
  · have one := Settings.setupArgument_set tmp args .offset s
    rw [Settings.Setting.name, Settings.Setting.set] at one
    rw [if_pos named, named, one]
    exact setOffset_submit s _
  · rw [if_neg named]
    apply setupArgument_parts (fun before after => meter after = meter before) (fun _ => rfl)
      (fun first second => second.trans first) tmp args name
    · intro action member value s
      have same := settings_outputs _ action member value s
      rw [meter, same.1, same.2]
      rfl
    · exact fun offset => absurd offset named
    · exact fun _ s => rfl
    · intro _ s
      rw [meter, clearTable_output, clearTable_offset]
      rfl

/-- What the arguments that are left make of the meter. -/
def submitEach (x : Float32) (m : Float32 × Float32) (entry : Str × Str) : Float32 × Float32 :=
  if entry.1 = text "offset" then submit x m else m

theorem run_unnamed (list : Arguments) (m : Float32 × Float32) (x : Float32)
    (none : ∀ entry ∈ list, entry.1 ≠ text "offset") :
    Runs.run (submitEach x) m list = m :=
  Runs.run_keeps (submitEach x) id list (fun _ entry member => if_neg (none entry member)) m

theorem run_named (list : Arguments) (m : Float32 × Float32) (x : Float32) (number : (x == x) = true)
    (named : ∃ entry ∈ list, entry.1 = text "offset") : Runs.run (submitEach x) m list = submit x m := by
  have once := Runs.run_once (fun entry : Str × Str => entry.1 = text "offset") (submit x)
    (fun m => submit_twice x m number) list m
  exact once.trans (if_pos named)

theorem handleSetup_meter (stays : ¬given "restart" args) :
    (¬given "offset" args → meter (handleSetup tmp args s).sketch = meter s) ∧
      (given "offset" args → (submitted args == submitted args) = true →
        meter (handleSetup tmp args s).sketch = submit (submitted args) (meter s)) := by
  have run := Runs.run_tracks (fun s (entry : Str × Str) => setupArgument tmp args entry.1 s) meter
    (submitEach (submitted args))
    (fun _ => True) (fun _ _ _ => trivial) (args.filter fun entry => entry.2 ≠ [])
    (fun state entry _ _ => setupArgument_meter tmp args state entry.1) s trivial
  rw [← Settings.handleSetup_run tmp args s stays] at run
  constructor
  · intro none
    refine run.trans (run_unnamed _ _ _ fun entry member named => none ⟨entry.2, ?_⟩)
    obtain ⟨listed, filled⟩ := List.mem_filter.mp member
    rw [← named]
    exact ⟨listed, by simpa using filled⟩
  · intro found number
    obtain ⟨value, member, filled⟩ := found
    exact run.trans (run_named _ _ _ number ⟨_, List.mem_filter.mpr ⟨member, by simpa using filled⟩, rfl⟩)

end Submission

section Runs

/-- The reading is the offset in force and all that was credited since the start. -/
def Replaced (state : Globals × Nat) : Prop := reading state.1 = 1000 * amount state.1.offset + state.2

/-- A request submits this offset, and does not end in a restart. -/
def Submits (request : Request) (args : Arguments) : Prop := setupArgs request = some args ∧ given "offset" args

/-- An event other than a restart, with the sum that it stores exact. -/
def ExactSum (state : Globals × Nat) : Event → Prop
  | .pulse => True
  | .minute c _ => minute c % 5 = 0 → amount (creditedTotal state.1 10) = reading state.1 + energyWh state.1
  | .request isFile tmp request _ => (handleRequest isFile tmp request state.1).restart = false ∧
    ∀ args, Submits request args → (submitted args == submitted args) = true ∧
      (¬(submitted args == state.1.offset) = true → amount ((state.1.ausgabe 10).value + submitted args * 1000) =
        reading state.1 + 1000 * amount (submitted args))
  | .restart _ => False

/-- A submission that changes the offset finds none in force. -/
def FromZero (state : Globals × Nat) : Event → Prop
  | .request _ _ request _ => ∀ args, Submits request args →
    (submitted args == state.1.offset) = true ∨ amount state.1.offset = 0
  | _ => True

theorem request_unsubmitted (isFile : Str → Bool) (tmp : UInt32) (request : Request) (s : Globals)
    (stays : (handleRequest isFile tmp request s).restart = false) (none : ∀ args, ¬Submits request args) :
    meter (handleRequest isFile tmp request s).sketch = meter s := by
  apply Storage.handleRequest_stays (fun after => meter after = meter s) isFile tmp request s
    (Bool.eq_false_iff.mp stays)
  · intro after only
    rw [meter, only]
    rfl
  · intro args called going
    exact (handleSetup_meter tmp args s going).1 fun given => none args ⟨called, given⟩

theorem request_submitted (isFile : Str → Bool) (tmp : UInt32) (request : Request) (s : Globals) (args : Arguments)
    (stays : (handleRequest isFile tmp request s).restart = false) (submits : Submits request args)
    (number : (submitted args == submitted args) = true) :
    meter (handleRequest isFile tmp request s).sketch = submit (submitted args) (meter s) := by
  rw [handleRequest_setup isFile tmp request s args submits.1] at stays ⊢
  have going := Storage.not_given_of_stays tmp args s (Bool.eq_false_iff.mp stays)
  exact (handleSetup_meter tmp args s going).2 submits.2 number

theorem replaced_congr (before after : Globals) (credited : Nat) (same : meter after = meter before) :
    Replaced (after, credited) ↔ Replaced (before, credited) := by
  obtain ⟨value, offset⟩ := Prod.ext_iff.mp same
  have reads : reading after = reading before := congrArg amount value
  have inForce : after.offset = before.offset := offset
  simp only [Replaced, reads, inForce]

/-- A submission keeps the balance exactly when it changes nothing or finds no offset in force. -/
theorem replaced_submit (before after : Globals) (credited : Nat) (x : Float32)
    (submitted : meter after = submit x (meter before))
    (sum : ¬(x == before.offset) = true → amount ((before.ausgabe 10).value + x * 1000) =
      reading before + 1000 * amount x)
    (replaced : Replaced (before, credited)) :
    Replaced (after, credited) ↔ (x == before.offset) = true ∨ amount before.offset = 0 := by
  by_cases kept : (x == before.offset) = true
  · have unchanged : submit x (meter before) = meter before := if_pos kept
    exact iff_of_true ((replaced_congr _ _ credited (submitted.trans unchanged)).mpr replaced) (.inl kept)
  · have changed : submit x (meter before) = ((before.ausgabe 10).value + x * 1000, x) := if_neg kept
    obtain ⟨value, offset⟩ := Prod.ext_iff.mp (submitted.trans changed)
    have reads : reading after = reading before + 1000 * amount x := (congrArg amount value).trans (sum kept)
    have inForce : after.offset = x := offset
    have balance : reading before = 1000 * amount before.offset + credited := replaced
    simp only [Replaced, reads, inForce]
    rw [balance, or_iff_right kept]
    constructor
    · intro after
      linarith
    · intro zero
      rw [zero]
      ring

theorem replaced_step (state : Globals × Nat) (event : Event) (admitted : ExactSum state event)
    (replaced : Replaced state) :
    Replaced (tally state event) ↔ FromZero state event := by
  cases event with
  | restart boot => exact admitted.elim
  | pulse => exact iff_of_true replaced trivial
  | minute c io =>
    refine iff_of_true ?_ trivial
    have offset : (everyMinute c io state.1).offset = state.1.offset := everyMinute_offset c io state.1
    simp only [Replaced, tally, step, creditedBy, reading, everyMinute_reading, offset]
    by_cases tick : minute c % 5 = 0
    · rw [if_pos tick, if_pos tick, admitted tick, replaced, Nat.cast_add, add_assoc]
    · rw [if_neg tick, if_neg tick, Nat.add_zero]
      exact replaced
  | request isFile tmp request boot =>
    obtain ⟨stays, exact⟩ := admitted
    have going : ¬(handleRequest isFile tmp request state.1).restart = true := by
      rw [stays]
      decide
    have same : tally state (.request isFile tmp request boot) =
        ((handleRequest isFile tmp request state.1).sketch, state.2) := by
      rw [tally, step_request, if_neg going]
      rfl
    rw [same]
    by_cases some : ∃ args, Submits request args
    · obtain ⟨args, submits⟩ := some
      obtain ⟨number, sum⟩ := exact args submits
      have after := request_submitted isFile tmp request state.1 args stays submits number
      have only : FromZero state (.request isFile tmp request boot) ↔
          (submitted args == state.1.offset) = true ∨ amount state.1.offset = 0 := by
        refine ⟨fun each => each args submits, fun either other also => ?_⟩
        have named := submits.1.symm.trans also.1
        cases named
        exact either
      rw [only]
      exact replaced_submit state.1 _ state.2 (submitted args) after sum replaced
    · push Not at some
      have after := request_unsubmitted isFile tmp request state.1 stays some
      exact iff_of_true ((replaced_congr _ _ state.2 after).mpr replaced)
        fun args submits => absurd submits (some args)

/-- With exact sums, the reading forgets earlier offsets exactly when each submission that changes the
offset comes while none is in force. -/
theorem offset_replaced_iff (boot : Boot) (flash : ByteMemory.Memory) (spiOk : Bool) (files : Spiffs.Files)
    (events : List Event) (restored : amount (restoredReading flash) =
      1000 * amount (setup boot (powerOn flash spiOk files)).offset)
    (exact : Runs.Along tally ExactSum (setup boot (powerOn flash spiOk files), 0) events) :
    Runs.Throughout tally Replaced (setup boot (powerOn flash spiOk files), 0) events ↔
      Runs.Along tally FromZero (setup boot (powerOn flash spiOk files), 0) events := by
  have start : Replaced (setup boot (powerOn flash spiOk files), 0) := by
    have value := congrArg amount (setup_meter boot (powerOn flash spiOk files))
    rw [Replaced, reading, value, Nat.cast_zero, add_zero]
    exact restored
  exact Runs.throughout_iff_along (fun _ _ _ _ => trivial)
    (fun state event (_ : True) admitted replaced => replaced_step state event admitted replaced) events _ trivial
    start exact

def offsetPage (value : String) : Request :=
  ⟨.post, text "/setup.html", [], .plain [(text "offset", text value)], true⟩

def submission (value : String) : Event := .request (fun _ => false) 0 (offsetPage value) (steady 1546329600)

theorem offsetPage_outcome (value : String) (filled : text value ≠ []) (s : Globals) :
    handleRequest (fun _ => false) 0 (offsetPage value) s = ⟨setOffset (text value) s, false⟩ :=
  (handleRequest_setup _ 0 (offsetPage value) s [(text "offset", text value)] rfl).trans
    (Settings.handleSetup_single 0 .offset (text value) filled s)

theorem tally_submission (value : String) (filled : text value ≠ []) (s : Globals) (credited : Nat) :
    tally (s, credited) (submission value) = (setOffset (text value) s, credited) := by
  rw [tally, submission, step_request, offsetPage_outcome value filled]
  rfl

theorem blank_meter (boot : Boot) : ((setup boot (powerOn (fun _ => 0) true [])).ausgabe 10).value = 0 ∧
    (setup boot (powerOn (fun _ => 0) true [])).offset = 0 := by
  have value := setup_meter boot (powerOn (fun _ => 0) true [])
  have offset := (setup_restored boot (powerOn (fun _ => 0) true [])).offset
  have memory : (powerOn (fun _ => 0) true []).eeprom.flash = fun _ => 0 := rfl
  have zero : restoredReading (fun _ => 0) = 0 := by decide +kernel
  have none : (if floatAt (fun _ => 0) adresseEepromOF > 0 then
      floatAt (fun _ => 0) adresseEepromOF else 0) = 0 := by decide +kernel
  rw [memory] at value offset
  exact ⟨value.trans zero, offset.trans none⟩

/-- What a device of 1000 pulses per kWh reads and counts. -/
structure Gauge (value offset : Float32) (counter : UInt32) (s : Globals) : Prop where
  meter : meter s = (value, offset)
  rate : s.impulseProKwh = 1000
  counter : s.counter = counter

namespace Gauge
variable {value offset : Float32} {counter : UInt32} {state : Globals × Nat}
  (gauge : Gauge value offset counter state.1)
include gauge

theorem pulse : Gauge value offset (counter + 1) (tally state .pulse).1 :=
  ⟨gauge.meter, gauge.rate, congrArg (· + 1) gauge.counter⟩

theorem credited : creditedTotal state.1 10 = value + Functions.energyOf counter 1000 := by
  have positive : state.1.impulseProKwh > 0 := by
    rw [gauge.rate]
    decide
  have reads : (state.1.ausgabe 10).value = value := congrArg Prod.fst gauge.meter
  rw [creditedTotal, if_pos positive, reads, gauge.rate, gauge.counter]

theorem energy : energyWh state.1 = (counter * 1000 / 1000).toNat := by
  have positive : (1000 : UInt32) > 0 := by decide
  rw [energyWh, gauge.rate, gauge.counter, if_pos positive]

theorem reading_eq : reading state.1 = amount value := by
  have reads : (state.1.ausgabe 10).value = value := congrArg Prod.fst gauge.meter
  rw [reading, reads]

theorem offset_eq : state.1.offset = offset := congrArg Prod.snd gauge.meter

theorem tick (c : UInt32) (io : Readings) (tick : minute c % 5 = 0) :
    Gauge (value + Functions.energyOf counter 1000) offset 0 (tally state (.minute c io)).1 where
  meter := by
    have reads : ((everyMinute c io state.1).ausgabe 10).value = value + Functions.energyOf counter 1000 := by
      rw [everyMinute_reading, if_pos tick, gauge.credited]
    exact Prod.ext reads ((everyMinute_offset c io state.1).trans gauge.offset_eq)
  rate := (everyMinute_rate c io state.1).trans gauge.rate
  counter := everyMinute_counter c io state.1 tick

theorem exact_tick (c : UInt32) (io : Readings)
    (sum : amount (value + Functions.energyOf counter 1000) = amount value + (counter * 1000 / 1000).toNat) :
    ExactSum state (.minute c io) := by
  intro _
  rw [gauge.credited, gauge.reading_eq, gauge.energy, sum]

variable (text : String) (filled : CText.text text ≠ [])
include filled

theorem submission (differs : ¬(toFloat (CText.text text) == offset) = true) :
    Gauge (value + toFloat (CText.text text) * 1000) (toFloat (CText.text text)) counter
      (tally state (Offset.submission text)).1 := by
  have rate : (setOffset (CText.text text) state.1).impulseProKwh = state.1.impulseProKwh := by
    unfold setOffset
    split <;> rfl
  have still : (setOffset (CText.text text) state.1).counter = state.1.counter := by
    unfold setOffset
    split <;> rfl
  rw [tally_submission text filled state.1 state.2]
  refine ⟨?_, rate.trans gauge.rate, still.trans gauge.counter⟩
  rw [setOffset_submit, gauge.meter]
  exact if_neg differs

theorem exact_submission (number : (toFloat (CText.text text) == toFloat (CText.text text)) = true)
    (sum : amount (value + toFloat (CText.text text) * 1000) =
      amount value + 1000 * amount (toFloat (CText.text text))) :
    ExactSum state (Offset.submission text) := by
  refine ⟨congrArg Outcome.restart (offsetPage_outcome text filled state.1), fun args submits => ?_⟩
  have called : some [(CText.text "offset", CText.text text)] = some args := submits.1
  have reads : (state.1.ausgabe 10).value = value := congrArg Prod.fst gauge.meter
  cases called
  exact ⟨number, fun _ => by rw [gauge.reading_eq, reads]; exact sum⟩

end Gauge

theorem blank_gauge (boot : Boot) : Gauge 0 0 0 (setup boot (powerOn (fun _ => 0) true []), 0).1 := by
  obtain ⟨value, offset⟩ := blank_meter boot
  have rate := (setup_restored boot (powerOn (fun _ => 0) true [])).impulseProKwh
  have memory : (powerOn (fun _ => 0) true []).eeprom.flash = fun _ => 0 := rfl
  have standard : (if floatAt (fun _ => 0) adresseEepromZK > 0 then
      (floatAt (fun _ => 0) adresseEepromZK).toUInt32 else 1000) = 1000 := by decide +kernel
  rw [memory] at rate
  exact ⟨Prod.ext value offset, rate.trans standard, setup_counter boot _⟩

/-- Two pulses and a tick, the first offset of the device, and another pulse and tick. -/
def firstOffset : List Event :=
  [.pulse, .pulse, .minute 1546329900 ⟨3300, -60, 0⟩, submission "1", .pulse, .minute 1546330200 ⟨3300, -60, 0⟩]

theorem first_offset_replaces : Runs.Throughout tally Replaced
    (setup (steady 1546329600) (powerOn (fun _ => 0) true []), 0) firstOffset := by
  have nothing : amount 0 = 0 := by decide +kernel
  have read : restoredReading (fun _ => 0) = 0 := by decide +kernel
  have filled : text "1" ≠ [] := by decide +kernel
  have gauge := blank_gauge (steady 1546329600)
  have none : (setup (steady 1546329600) (powerOn (fun _ => 0) true [])).offset = 0 := gauge.offset_eq
  apply (offset_replaced_iff (steady 1546329600) (fun _ => 0) true [] _ ?_ ?_).mpr
  all_goals
    generalize start : (setup (steady 1546329600) (powerOn (fun _ => 0) true []), 0) = state
    have first : Gauge 0 0 0 state.1 := start ▸ gauge
    have pulses := first.pulse.pulse
    have booked := pulses.tick 1546329900 ⟨3300, -60, 0⟩ (by decide +kernel)
    have counted := (booked.submission "1" filled (by decide +kernel)).pulse
  · refine ⟨trivial, trivial, trivial, fun _ _ => .inr ?_, trivial, trivial, trivial⟩
    exact (congrArg amount booked.offset_eq).trans nothing
  · rw [read, none, nothing, mul_zero]
  · exact ⟨trivial, trivial, pulses.exact_tick _ _ (by decide +kernel),
      booked.exact_submission "1" filled (by decide +kernel) (by decide +kernel), trivial,
      counted.exact_tick _ _ (by decide +kernel), trivial⟩

theorem not_replaced_twice (s : Globals) (value : (s.ausgabe 10).value = 0) (offset : s.offset = 0) :
    ¬Replaced (tally (tally (s, 0) (submission "1")) (submission "2")) := by
  intro after
  have one : toFloat (text "1") = 1 := by decide +kernel
  have two : toFloat (text "2") = 2 := by decide +kernel
  have sum : submit 2 (submit 1 (0, 0)) = (3000, 2) := by decide +kernel
  have amounts : amount 3000 = 3000 ∧ amount 2 = 2 := by decide +kernel
  have meters : meter (setOffset (text "2") (setOffset (text "1") s)) = (3000, 2) := by
    rw [setOffset_submit, setOffset_submit, meter, value, offset, one, two, sum]
  rw [tally_submission _ (by decide +kernel), tally_submission _ (by decide +kernel)] at after
  generalize setOffset (text "2") (setOffset (text "1") s) = second at after meters
  have balance : amount (meter second).1 = 1000 * amount (meter second).2 + ((0 : Nat) : ℚ) := after
  rw [meters, amounts.1, amounts.2] at balance
  norm_num at balance

/-- A second offset is added to the first. -/
theorem second_offset_added : ¬Runs.Throughout tally Replaced
    (setup (steady 1546329600) (powerOn (fun _ => 0) true []), 0) [submission "1", submission "2"] := by
  intro both
  obtain ⟨-, -, after⟩ := both
  obtain ⟨value, offset⟩ := blank_meter (steady 1546329600)
  exact not_replaced_twice _ value offset after

end Runs
end EspLog.Offset

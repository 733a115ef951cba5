import EspLog.Settings
import EspLog.Texts
import EspLog.Totals

/-! Whether the displayed texts are current. Every value has a text beside it that is printed by
hand; a midnight resets values without printing them, and a new offset prints the reading in Wh. -/

namespace EspLog.Display
open CText Eeprom ExactFloat Rounding Sketch Functions Setup Websites WebServer Effects Restart Loop Outputs
  Texts Totals TimeLib ByteMemory

section Current

/-- The outputs that are displayed: the yields, the day's maximum and the meter reading. -/
def displayed : List Nat := [0, 1, 2, 5, 10]

/-- A value of Wh in kWh: it is divided in single precision, or in double precision, or it was made of the
offset and did not overflow. -/
def InKilo (s : Globals) (i : Nat) (x : Float) : Prop :=
  x = toDouble ((s.ausgabe i).value / 1000) ∨ x = toDouble (s.ausgabe i).value / 1000 ∨
    i = 10 ∧ (s.ausgabe i).value = s.offset * 1000 ∧
    (s.offset.isFinite = true → (s.ausgabe i).value.isFinite = true) ∧
      x = toDouble s.offset

/-- The text shows the value in the unit of its field; a zero is printed with any number of decimals. -/
def Current (s : Globals) (i : Nat) : Prop :=
  ((s.ausgabe i).value == 0) = true ∧ (∃ width places, (s.ausgabe i).printValue = dtostrf 0 width places) ∨
    if i = 5 then (s.ausgabe i).printValue = dtostrf (toDouble (s.ausgabe i).value) 2 0
    else ∃ x, InKilo s i x ∧ (s.ausgabe i).printValue = dtostrf x 2 2

theorem Current.same {before after : Globals} {i : Nat}
    (value : (after.ausgabe i).value = (before.ausgabe i).value)
    (text : (after.ausgabe i).printValue = (before.ausgabe i).printValue)
    (offset : i = 10 → after.offset = before.offset) (current : Current before i) : Current after i := by
  unfold Current InKilo at *
  rw [value, text]
  by_cases meter : i = 10
  · rw [offset meter]
    exact current
  · simpa only [meter, false_and, or_false] using current

theorem Current.frame {before after : Globals} {i : Nat} (output : after.ausgabe i = before.ausgabe i)
    (offset : i = 10 → after.offset = before.offset) (current : Current before i) : Current after i :=
  current.same (congrArg ValueStore.value output) (congrArg ValueStore.printValue output) offset

end Current

section Invariant

/-- The invariant: every text is current, and the yields are whole numbers. -/
structure Shown (s : Globals) : Prop where
  current : ∀ i ∈ displayed, Current s i
  yields : ∀ i, i < 3 → Whole (s.ausgabe i).value

theorem Shown.frame {before after : Globals} (outputs : ∀ i ∈ displayed, after.ausgabe i = before.ausgabe i)
    (offset : after.offset = before.offset) (shown : Shown before) : Shown after where
  current i member := (shown.current i member).frame (outputs i member) fun _ => offset
  yields i yield := by
    have member : i ∈ displayed := by
      obtain rfl | rfl | rfl : i = 0 ∨ i = 1 ∨ i = 2 := by omega
      all_goals decide
    rw [outputs i member]
    exact shown.yields i yield

/-- A total that the midnight tick finds below 5 Wh, its own energy included; a day without any power. -/
def Faint (s : Globals) (i : Nat) : Prop :=
  if i = 5 then s.counter = 0 ∧ (s.ausgabe 5).value = 0 else creditedTotal s i < 5

end Invariant

section System

/-- The offset in the flash does not overflow as a number of Wh. -/
def Convertible (memory : Memory) : Prop :=
  (restoredOffset memory).isFinite = true → (restoredReading memory).isFinite = true

/-- An argument stores no other offset, or one that brings the reading to zero. -/
def OffsetKept (args : Arguments) (s : Globals) (entry : Str × Str) : Prop :=
  entry.1 = text "offset" → (toFloat (arg (text "offset") args) == s.offset) = true ∨
    (s.ausgabe 10).value + toFloat (arg (text "offset") args) * 1000 = 0

/-- A midnight finds the outputs that it resets at zero, a start an offset that it can convert, and the setup page
keeps the offset. -/
def Undisturbed (s : Globals) : Event → Prop
  | .pulse => True
  | .minute c _ => minute c % 5 = 0 → ∀ i ∈ displayed, Resets c i → Faint s i
  | .request isFile tmp request _ =>
    if (handleRequest isFile tmp request s).restart = true
      then Convertible (handleRequest isFile tmp request s).sketch.eeprom.flash
    else ∀ args, setupArgs request = some args →
      Runs.Along (fun s (entry : Str × Str) => setupArgument tmp args entry.1 s)
      (OffsetKept args) s (args.filter fun entry => entry.2 ≠ [])
  | .restart _ => Convertible s.eeprom.flash

end System
end EspLog.Display

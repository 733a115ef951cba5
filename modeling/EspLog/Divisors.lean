import EspLog.Totals

/-! The divisors. A tick divides by the generator's power without a test, and a start does when
there is any yield, while both of them test the other time that they divide by it. -/

namespace EspLog.Divisors
open ExactFloat Rounding Sketch Functions WebServer Effects Restart Setup Loop Outputs Totals TimeLib ByteMemory

section Division

/-- A divisor, in the type in which the division is made. -/
inductive Divisor where
  | whole (n : UInt32)
  | single (x : Float32)
  | double (x : Float)

def Divisor.NonZero : Divisor → Prop
  | .whole n => n ≠ 0
  | .single x => (x == 0) = false
  | .double x => (x == 0) = false

/-- The divisors of a statement. -/
def divisors (impulseProKwh generatorLeistung : UInt32) : Statement → List Divisor
  | .energie => [.whole impulseProKwh]
  | .ertragText _ | .zaehlerstandText => [.single 1000]
  | .spezifisch => [.single generatorLeistung.toFloat32, .double 1]
  | .leistung => [.double 300]
  | .slot => [.whole 5]
  | _ => []

/-- The divisors of `restoreTexts`. -/
def textDivisors (s : Globals) : List Divisor :=
  (if s.generatorLeistung > 0 then [.single s.generatorLeistung.toFloat32, .double 1000] else []) ++
    [.double 1000] ++
    (if (s.ausgabe 1).value > 0 then [.double 1000] else []) ++
    (if (s.ausgabe 2).value > 0 then [.double 1000, .double 1, .double (s.generatorLeistung.toFloat / 1)] else [])

theorem single_generator (n : UInt32) : (Divisor.single n.toFloat32).NonZero ↔ n ≠ 0 := by
  rw [Divisor.NonZero, Bool.eq_false_iff, ne_eq, ((holds_toFloat32 n).beq_iff holds_zero)]
  constructor
  · intro nonzero same
    subst same
    exact nonzero (by rw [UInt32.toNat_zero, roundEven_zero])
  · intro nonzero
    exact roundEven_ne_zero 24 (by decide) _ fun zero => nonzero (UInt32.toNat.inj zero)

theorem double_generator (n : UInt32) : (Divisor.double (n.toFloat / 1)).NonZero ↔ n ≠ 0 := by
  have nothing : HoldsDouble 0 0 := by
    have held := holdsDouble_toFloat 0
    have same : (0 : UInt32).toFloat = 0 := by decide
    rwa [same] at held
  have one : HoldsDouble 1 1 := by
    have held := holdsDouble_toFloat 1
    have same : (1 : UInt32).toFloat = 1 := by decide
    rwa [same] at held
  have whole : HoldsDouble n.toFloat (n.toNat * 1) := by
    rw [Nat.mul_one]
    exact holdsDouble_toFloat n
  have quotient := whole.div one (by decide) (n.toNat_lt.trans (by decide))
  rw [Divisor.NonZero, Bool.eq_false_iff, ne_eq, quotient.beq_iff nothing]
  exact not_congr ⟨fun none => UInt32.toNat.inj none, fun none => by rw [none]; rfl⟩

theorem nonZero_constants : (Divisor.single 1000).NonZero ∧ (Divisor.double 1000).NonZero ∧
    (Divisor.double 300).NonZero ∧
    (Divisor.double 1).NonZero ∧ (Divisor.whole 5).NonZero := by
  refine ⟨?_, ?_, ?_, ?_, ?_⟩ <;>
  unfold Divisor.NonZero <;>
  decide

end Division

section Call
variable (m d : Nat) (c : UInt32) (io : Readings) (s : Globals)

/-- Every division of a call of `FuenfMinutenTimer` has a divisor other than zero. -/
def CallSafe : Prop :=
  Runs.Along (exec m d c io) (fun frame statement => ∀ divisor ∈
    divisors frame.sketch.impulseProKwh frame.sketch.generatorLeistung statement, divisor.NonZero)
    { sketch := s } (statements s.impulseProKwh)

theorem exec_settings (frame : Frame) (statement : Statement) :
    ((exec m d c io frame statement).sketch.impulseProKwh,
      (exec m d c io frame statement).sketch.generatorLeistung) =
      (frame.sketch.impulseProKwh, frame.sketch.generatorLeistung) := by
  by_cases saves : statement = .sichern
  · subst saves
    simp only [exec, putEeprom_eq]
  · have kept := exec_kept m d c io frame statement saves
    unfold Kept at kept
    rw [kept]

/-- A call is safe when it does not come to its divisions, or the generator's power is set. -/
theorem callSafe_iff : CallSafe m d c io s ↔ s.impulseProKwh = 0 ∨ s.generatorLeistung ≠ 0 := by
  have all := Runs.along_iff_forall
    (fun frame : Frame => (frame.sketch.impulseProKwh, frame.sketch.generatorLeistung))
    (exec_settings m d c io)
    (fun settings statement => ∀ divisor ∈ divisors settings.1 settings.2 statement, divisor.NonZero)
    (statements s.impulseProKwh) { sketch := s }
  obtain ⟨thousand, _, power, one, five⟩ := nonZero_constants
  have generator := single_generator s.generatorLeistung
  refine all.trans ?_
  dsimp only
  by_cases counts : s.impulseProKwh > 0
  · have some : s.impulseProKwh ≠ 0 := by
      intro zero
      rw [zero] at counts
      exact absurd counts (by decide)
    have whole : (Divisor.whole s.impulseProKwh).NonZero := some
    have list : statements s.impulseProKwh = energyStatements ++ powerStatements := by
      rw [statements, if_pos counts]
    rw [list]
    simp only [energyStatements, powerStatements, List.cons_append, List.nil_append, List.forall_mem_cons,
      divisors, List.not_mem_nil, false_imp_iff, implies_true, thousand, power, one, five, whole, generator, some,
      true_and, and_true, false_or]
  · have zero : s.impulseProKwh = 0 := by
      apply UInt32.toNat.inj
      rw [gt_iff_lt, UInt32.lt_iff_toNat_lt] at counts
      exact Nat.eq_zero_of_not_pos counts
    have list : statements s.impulseProKwh = powerStatements := by rw [statements, if_neg counts, List.nil_append]
    rw [list]
    simp only [powerStatements, List.forall_mem_cons, divisors, List.not_mem_nil, false_imp_iff, implies_true,
      power, five, zero, true_or, and_true]

end Call

section Start

/-- The generator's power that a start makes of the flash. -/
def restoredGenerator (memory : Memory) : UInt32 :=
  if floatAt memory adresseEepromGL > 0 then (floatAt memory adresseEepromGL).toUInt32 else 0

variable (boot : Boot) (s : Globals)

/-- Every division that `setupEeprom` makes has a divisor other than zero. -/
def StartSafe : Prop := ∀ divisor ∈ textDivisors (settled boot s).1, divisor.NonZero

/-- The flash holds a generator's power, or no yield. -/
def Restartable (memory : Memory) : Prop := restoredGenerator memory ≠ 0 ∨ ∀ cell ∈ cells, word memory cell = 0

theorem settled_generator : (settled boot s).1.generatorLeistung = restoredGenerator s.eeprom.flash :=
  (restoreSettings_spec _ _ s.eeprom (restored_eeprom boot s)).generatorLeistung

theorem settled_year (fresh : (s.ausgabe 2).value = 0) :
    ((settled boot s).1.ausgabe 2).value > 0 ↔ ¬∀ cell ∈ cells, word s.eeprom.flash cell = 0 := by
  obtain ⟨k, held, _, empty⟩ := sum_holds s.eeprom.flash cells 0 0 holds_zero (Nat.zero_le _)
  rw [← setup_value boot s 2 (by decide), setup_year, fresh, gt_iff_lt, holds_zero.lt_iff held,
    Nat.pos_iff_ne_zero, ne_eq, empty]
  simp only [true_and]

theorem startSafe_iff (fresh : (s.ausgabe 2).value = 0) : StartSafe boot s ↔ Restartable s.eeprom.flash := by
  have generator := settled_generator boot s
  have year := settled_year boot s fresh
  obtain ⟨_, thousand, _, one, _⟩ := nonZero_constants
  have first (n : UInt32) (some : n > 0) : (Divisor.single n.toFloat32).NonZero := by
    rw [single_generator]
    intro same
    subst same
    exact absurd some (by decide)
  have tested : ∀ divisor ∈ (if (settled boot s).1.generatorLeistung > 0 then
      [Divisor.single (settled boot s).1.generatorLeistung.toFloat32, .double 1000] else []), divisor.NonZero := by
    split
    · rename_i some
      simp [first _ some, thousand]
    · simp
  have day : ∀ divisor ∈ [Divisor.double 1000], divisor.NonZero := by simp [thousand]
  have month : ∀ divisor ∈ (if ((settled boot s).1.ausgabe 1).value > 0 then [Divisor.double 1000] else []),
      divisor.NonZero := by
    split <;>
    simp [thousand]
  rw [StartSafe, textDivisors, Restartable, List.forall_mem_append, List.forall_mem_append, List.forall_mem_append,
    and_iff_right ⟨⟨tested, day⟩, month⟩, generator]
  by_cases positive : ((settled boot s).1.ausgabe 2).value > 0
  · have some := year.mp positive
    have last := double_generator (restoredGenerator s.eeprom.flash)
    rw [if_pos positive, or_iff_left some]
    simp only [List.forall_mem_cons, List.not_mem_nil, false_imp_iff, implies_true, thousand, one, last, and_true,
      true_and]
  · have none := not_not.mp (mt year.mpr positive)
    rw [if_neg positive]
    exact iff_of_true (by simp) (.inr none)

end Start

section System

/-- The divisions that an event makes all have a divisor other than zero. -/
def DivisionsSafe (s : Globals) : Event → Prop
  | .pulse => True
  | .minute c io => minute c % 5 = 0 → CallSafe (booked c s).month (booked c s).day c io (entered c s)
  | .request isFile tmp request boot => (handleRequest isFile tmp request s).restart = true →
    StartSafe boot (handleRequest isFile tmp request s).sketch.restart
  | .restart boot => StartSafe boot s.restart

/-- A tick that books any energy finds the generator's power set, and a start finds it or no yield. -/
def GeneratorSet (s : Globals) : Event → Prop
  | .pulse => True
  | .minute c _ => minute c % 5 = 0 → s.impulseProKwh = 0 ∨ s.generatorLeistung ≠ 0
  | .request isFile tmp request _ => (handleRequest isFile tmp request s).restart = true →
    Restartable (handleRequest isFile tmp request s).sketch.eeprom.flash
  | .restart _ => Restartable s.eeprom.flash

theorem divisionsSafe_iff (s : Globals) (event : Event) : DivisionsSafe s event ↔ GeneratorSet s event := by
  cases event with
  | pulse => exact Iff.rfl
  | minute c io => exact imp_congr Iff.rfl (callSafe_iff _ _ _ _ _)
  | request isFile tmp request boot => exact imp_congr Iff.rfl (startSafe_iff boot _ rfl)
  | restart boot => exact startSafe_iff boot _ rfl

/-- No run divides by zero exactly when each start finds the generator's power in the flash, or no
yield, and each tick that comes to its divisions finds it in the RAM. -/
theorem divisions_safe_iff (boot : Boot) (flash : Memory) (spiOk : Bool) (files : Spiffs.Files)
    (events : List Event) :
    (StartSafe boot (powerOn flash spiOk files) ∧
      Runs.Along step DivisionsSafe (setup boot (powerOn flash spiOk files)) events) ↔
      Restartable flash ∧ Runs.Along step GeneratorSet (setup boot (powerOn flash spiOk files)) events := by
  apply and_congr (startSafe_iff boot _ rfl)
  exact ⟨Runs.Along.mono fun s event => (divisionsSafe_iff s event).mp,
    Runs.Along.mono fun s event => (divisionsSafe_iff s event).mpr⟩

theorem tick_unsafe (c : UInt32) (io : Readings) (s : Globals) (tick : minute c % 5 = 0)
    (counts : s.impulseProKwh ≠ 0) (unset : s.generatorLeistung = 0) : ¬DivisionsSafe s (.minute c io) := by
  intro safe
  rcases (divisionsSafe_iff s (.minute c io)).mp safe tick with none | some
  · exact counts none
  · exact some unset

/-- The first tick of a device with a blank flash divides by a power of zero. -/
theorem first_tick_divides_by_zero : ¬Runs.Along step DivisionsSafe
    (setup (steady 1546329600) (powerOn (fun _ => 0) true [])) [.minute 1546329900 ⟨3300, -60, 0⟩] := by
  intro both
  obtain ⟨safe, -⟩ := both
  have tick : minute 1546329900 % 5 = 0 := by decide
  have restored := setup_restored (steady 1546329600) (powerOn (fun _ => 0) true [])
  have rate := restored.impulseProKwh
  have power := restored.generatorLeistung
  have memory : (powerOn (fun _ => 0) true []).eeprom.flash = fun _ => 0 := rfl
  have standard : (if floatAt (fun _ => 0) adresseEepromZK > 0 then (floatAt (fun _ => 0) adresseEepromZK).toUInt32
      else 1000) = 1000 := by
    decide
  have unset : restoredGenerator (fun _ => 0) = 0 := by decide
  rw [memory, standard] at rate
  rw [memory] at power
  generalize setup (steady 1546329600) (powerOn (fun _ => 0) true []) = s at safe rate power
  have counts : s.impulseProKwh ≠ 0 := by
    rw [rate]
    decide
  exact tick_unsafe 1546329900 ⟨3300, -60, 0⟩ s tick counts (power.trans unset) safe

end System
end EspLog.Divisors

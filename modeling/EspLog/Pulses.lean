import EspLog.Effects

/-! Pulses that arrive while the five-minute function runs. The interrupt may come any number
of times before each statement; the law is that every pulse is counted or converted. -/

namespace EspLog.Pulses
open Sketch Functions Effects

section Interrupted

/-- One call, with the number of interrupts right before each of its statements. -/
structure Call where
  month : Nat
  day : Nat
  clock : UInt32
  io : Readings
  gaps : Statement → Nat

/-- A call under way, with the count that the energy and the one that the power was taken from. -/
structure Traced where
  frame : Frame
  energy : Option UInt32 := none
  power : Option UInt32 := none

/-- The interrupts before a statement, and the statement. -/
def advance (call : Call) (traced : Traced) (statement : Statement) : Traced :=
  let s := interruptRoutineFalling^[call.gaps statement] traced.frame.sketch
  { frame := exec call.month call.day call.clock call.io { traced.frame with sketch := s } statement
    energy := if statement = .energie then some s.counter else traced.energy
    power := if statement = .leistung then some s.counter else traced.power }

def interrupted (call : Call) (s : Globals) : Traced :=
  Runs.run (advance call) { frame := { sketch := s } } (statements s.impulseProKwh)

/-- Without interrupts this is the call. -/
theorem interrupted_quiet (call : Call) (s : Globals) (quiet : ∀ statement, call.gaps statement = 0) :
    (interrupted call s).frame.sketch = FuenfMinutenTimer call.month call.day call.clock call.io s := by
  have same (list : List Statement) (traced : Traced) : (Runs.run (advance call) traced list).frame =
      Runs.run (exec call.month call.day call.clock call.io) traced.frame list := by
    induction list generalizing traced with
    | nil => rfl
    | cons statement rest ih =>
      rw [Runs.run_cons, Runs.run_cons, ih]
      simp only [advance, quiet statement, Function.iterate_zero, id]
  exact congrArg Frame.sketch (same _ _)

def arrivals (call : Call) (list : List Statement) : Nat := (list.map call.gaps).sum

variable (call : Call)

@[simp] theorem arrivals_nil : arrivals call [] = 0 := rfl

@[simp] theorem arrivals_cons (statement : Statement) (rest : List Statement) :
    arrivals call (statement :: rest) = call.gaps statement + arrivals call rest := rfl

theorem arrivals_append (before after : List Statement) :
    arrivals call (before ++ after) = arrivals call before + arrivals call after := by
  simp only [arrivals, List.map_append, List.sum_append]

theorem arrivals_eq_zero {list : List Statement} :
    arrivals call list = 0 ↔ ∀ statement ∈ list, call.gaps statement = 0 := by
  rw [arrivals, List.sum_eq_zero_iff_forall_eq_nat, List.forall_mem_map]

theorem iterate_interrupt (n : Nat) (s : Globals) :
    interruptRoutineFalling^[n] s = { s with counter := s.counter + UInt32.ofNat n } := by
  induction n with
  | zero => simp
  | succ n ih =>
    rw [Function.iterate_succ_apply', ih, interruptRoutineFalling]
    simp only [UInt32.ofNat_add, UInt32.add_assoc]
    rfl

theorem advance_counter (traced : Traced) (statement : Statement) (ne : statement ≠ .reset) :
    (advance call traced statement).frame.sketch.counter =
      traced.frame.sketch.counter + UInt32.ofNat (call.gaps statement) := by
  by_cases saving : statement = .sichern
  · subst saving
    simp only [advance, exec, putEeprom_eq, iterate_interrupt]
  · simp only [advance]
    rw [exec_counter _ _ _ _ _ _ ne saving, iterate_interrupt]

theorem run_counter (list : List Statement) (running : .reset ∉ list) (traced : Traced) :
    (Runs.run (advance call) traced list).frame.sketch.counter =
      traced.frame.sketch.counter + UInt32.ofNat (arrivals call list) := by
  induction list generalizing traced with
  | nil => simp
  | cons statement rest ih =>
    have head := advance_counter call traced statement (fun same => running (same ▸ List.mem_cons_self))
    have tail := ih (fun member => running (List.mem_cons_of_mem _ member)) (advance call traced statement)
    rw [Runs.run_cons, tail, head, arrivals_cons, UInt32.ofNat_add, UInt32.add_assoc]

theorem run_energy (list : List Statement) (booked : .energie ∉ list) (traced : Traced) :
    (Runs.run (advance call) traced list).energy = traced.energy :=
  Runs.run_keeps (advance call) Traced.energy list
    (fun _ statement member => if_neg fun same : statement = .energie => booked (same ▸ member)) traced

theorem run_power (list : List Statement) (measured : .leistung ∉ list) (traced : Traced) :
    (Runs.run (advance call) traced list).power = traced.power :=
  Runs.run_keeps (advance call) Traced.power list
    (fun _ statement member => if_neg fun same : statement = .leistung => measured (same ▸ member)) traced

end Interrupted

section Tick
variable (call : Call) (s : Globals)

/-- The statements before which an interrupt is lost or splits the count. -/
def exposed (impulseProKwh : UInt32) : List Statement :=
  (statements impulseProKwh).filter fun statement => statement ≠ .energie ∧ statement ≠ .sichern

theorem interrupted_energy : (interrupted call s).energy =
    if s.impulseProKwh > 0 then some (s.counter + UInt32.ofNat (call.gaps .energie)) else none := by
  unfold interrupted statements
  by_cases positive : s.impulseProKwh > 0
  · rw [if_pos positive, if_pos positive]
    have first : energyStatements ++ powerStatements =
      .energie :: (energyStatements ++ powerStatements).tail := rfl
    rw [first, Runs.run_cons, run_energy _ _ (by decide)]
    simp only [advance, iterate_interrupt, if_true]
  · rw [if_neg positive, if_neg positive]
    exact run_energy _ _ (by decide) _

theorem interrupted_power : (interrupted call s).power = some (s.counter + UInt32.ofNat (arrivals call
    (if s.impulseProKwh > 0 then energyStatements ++ [.leistung] else [.leistung]))) := by
  have read (before : List Statement) (running : .reset ∉ before) :
      (Runs.run (advance call) { frame := { sketch := s } } (before ++ powerStatements)).power =
        some (s.counter + UInt32.ofNat (arrivals call (before ++ [.leistung]))) := by
    have first : powerStatements = .leistung :: powerStatements.tail := rfl
    rw [first, Runs.run_append, Runs.run_cons, run_power _ _ (by decide)]
    simp only [advance, iterate_interrupt, if_true, run_counter call before running, arrivals_append,
      arrivals_cons, arrivals_nil, Nat.add_zero, UInt32.ofNat_add, UInt32.add_assoc]
  unfold interrupted statements
  split
  · exact read energyStatements (by decide)
  · exact read [] (by decide)

theorem interrupted_counter :
    (interrupted call s).frame.sketch.counter = UInt32.ofNat (call.gaps .sichern) := by
  have last : statements s.impulseProKwh = (statements s.impulseProKwh).dropLast.dropLast ++
      [.reset, .sichern] := by
    unfold statements
    split <;> rfl
  unfold interrupted
  rw [last, Runs.run_append, Runs.run_cons, run_counter _ _ (by decide), arrivals_cons, arrivals_nil, Nat.add_zero]
  simp only [advance, exec, UInt32.zero_add]

theorem arrivals_statements : arrivals call (statements s.impulseProKwh) =
    (if s.impulseProKwh > 0 then call.gaps .energie else 0) + arrivals call (exposed s.impulseProKwh) +
      call.gaps .sichern := by
  by_cases positive : s.impulseProKwh > 0
  · have ends : statements s.impulseProKwh = .energie :: exposed s.impulseProKwh ++ [.sichern] := by
      unfold exposed statements
      rw [if_pos positive]
      decide
    rw [if_pos positive]
    conv_lhs => rw [ends]
    rw [arrivals_append, arrivals_cons, arrivals_cons, arrivals_nil, Nat.add_zero]
  · have ends : statements s.impulseProKwh = exposed s.impulseProKwh ++ [.sichern] := by
      unfold exposed statements
      rw [if_neg positive]
      decide
    rw [if_neg positive]
    conv_lhs => rw [ends]
    rw [arrivals_append, arrivals_cons, arrivals_nil, Nat.add_zero, Nat.zero_add]

end Tick

section Law

inductive Event where
  | interrupt
  | tick (call : Call)
  /-- Code outside the call that leaves the counter alone. -/
  | elsewhere (others : Globals)

/-- The device, the interrupts so far, and the pulses that finished ticks converted. -/
structure Ledger where
  sketch : Globals
  interrupts : Nat
  converted : Nat

def begin (s : Globals) : Ledger := { sketch := s, interrupts := s.counter.toNat, converted := 0 }

/-- The pulse count that a finished call has converted to Wh. -/
def Traced.converted (traced : Traced) : Nat := (traced.energy.map UInt32.toNat).getD 0

def step (ledger : Ledger) : Event → Ledger
  | .interrupt => { ledger with
      sketch := interruptRoutineFalling ledger.sketch, interrupts := ledger.interrupts + 1 }
  | .tick call =>
    let finished := interrupted call ledger.sketch
    { sketch := finished.frame.sketch
      interrupts := ledger.interrupts + arrivals call (statements ledger.sketch.impulseProKwh)
      converted := ledger.converted + finished.converted }
  | .elsewhere others => { ledger with sketch := { others with counter := ledger.sketch.counter } }

def Balanced (ledger : Ledger) : Prop := ledger.interrupts = ledger.sketch.counter.toNat + ledger.converted

/-- A tick that takes an energy takes the power from the same count. -/
def SameCount (ledger : Ledger) : Event → Prop
  | .tick call => ∀ count, (interrupted call ledger.sketch).energy = some count →
      (interrupted call ledger.sketch).power = some count
  | _ => True

/-- No interrupt between the energy and the reset, no counter past its width, and no pulse
counted for a tick that converts nothing. -/
def Undisturbed (ledger : Ledger) : Event → Prop
  | .interrupt => ledger.sketch.counter.toNat + 1 < 2 ^ 32
  | .tick call => (∀ statement ∈ exposed ledger.sketch.impulseProKwh, call.gaps statement = 0) ∧
      call.gaps .sichern < 2 ^ 32 ∧
      if ledger.sketch.impulseProKwh > 0 then ledger.sketch.counter.toNat + call.gaps .energie < 2 ^ 32
      else ledger.sketch.counter = 0
  | .elsewhere _ => True

theorem tick_balanced (ledger : Ledger) (call : Call) (balanced : Balanced ledger) :
    Balanced (step ledger (.tick call)) ↔ Undisturbed ledger (.tick call) := by
  have width := ledger.sketch.counter.toNat_lt
  unfold Balanced at balanced
  simp only [Balanced, Undisturbed, step, Traced.converted, interrupted_counter, interrupted_energy,
    arrivals_statements, ← arrivals_eq_zero, balanced, UInt32.toNat_ofNat']
  by_cases positive : ledger.sketch.impulseProKwh > 0
  · simp only [if_pos positive, Option.map_some, Option.getD_some, UInt32.toNat_add, UInt32.toNat_ofNat']
    omega
  · have empty : ledger.sketch.counter = 0 ↔ ledger.sketch.counter.toNat = 0 := UInt32.toNat_inj.symm
    simp only [if_neg positive, Option.map_none, Option.getD_none, empty]
    omega

theorem step_balanced (ledger : Ledger) (event : Event) (balanced : Balanced ledger) :
    Balanced (step ledger event) ↔ Undisturbed ledger event := by
  cases event with
  | interrupt =>
    have width := ledger.sketch.counter.toNat_lt
    have one : (1 : UInt32).toNat = 1 := rfl
    unfold Balanced at balanced
    simp only [Balanced, Undisturbed, step, interruptRoutineFalling, balanced, UInt32.toNat_add, one]
    omega
  | tick call => exact tick_balanced ledger call balanced
  | elsewhere others => exact iff_of_true balanced trivial

/-- Undisturbed ticks read one count twice. -/
theorem sameCount_of_undisturbed (ledger : Ledger) (event : Event) (undisturbed : Undisturbed ledger event) :
    SameCount ledger event := by
  cases event with
  | interrupt => trivial
  | elsewhere others => trivial
  | tick call =>
    intro count taken
    rw [interrupted_energy] at taken
    rw [interrupted_power]
    by_cases positive : ledger.sketch.impulseProKwh > 0
    · rw [if_pos positive] at taken ⊢
      have silent : ∀ statement ∈ energyStatements.tail ++ [.leistung], call.gaps statement = 0 := by
        intro statement member
        apply undisturbed.1 statement
        unfold exposed statements
        rw [if_pos positive]
        revert statement
        decide
      have first : energyStatements ++ [.leistung] = .energie :: (energyStatements.tail ++ [.leistung]) := rfl
      rw [first, arrivals_cons, (arrivals_eq_zero call).mpr silent, Nat.add_zero]
      exact taken
    · rw [if_neg positive] at taken
      cases taken

/-- Every pulse is in the counter or converted, and every tick uses one count, exactly when no
event of the run disturbs the counter. -/
theorem pulses_accounted_iff (s : Globals) (events : List Event) :
    Runs.Throughout step Balanced (begin s) events ∧ Runs.Along step SameCount (begin s) events ↔
      Runs.Along step Undisturbed (begin s) events := by
  have initial : Balanced (begin s) := rfl
  have every : Runs.Along step (fun _ _ => True) (begin s) events :=
    Runs.Along.of_forall (fun _ _ => trivial) events (begin s)
  have free (ledger : Ledger) (event : Event) (_ : True) (_ : True) : True := trivial
  have law := Runs.throughout_iff_along free
    (fun ledger event _ _ balanced => step_balanced ledger event balanced) events (begin s) trivial initial every
  constructor
  · intro accounted
    exact law.mp accounted.1
  · intro undisturbed
    exact ⟨law.mpr undisturbed, Runs.Along.mono sameCount_of_undisturbed undisturbed⟩

/-- A pulse between the energy and the power is in no total, and the two differ. -/
theorem pulse_lost_before_reset :
    let call : Call := ⟨0, 0, 1546300800, ⟨3300, -60, 0⟩, fun statement => if statement = .leistung then 1 else 0⟩
    let device := begin (powerOn (fun _ => 0) true [])
    ¬Runs.Throughout step Balanced device [.tick call] ∧ ¬Runs.Along step SameCount device [.tick call] := by
  intro call device
  constructor
  · intro through
    have undisturbed := (tick_balanced device call rfl).mp through.2
    have silent : (1 : Nat) = 0 := undisturbed.1 .leistung (by decide)
    cases silent
  · intro along
    have energy : (interrupted call device.sketch).energy = some 0 := by
      rw [interrupted_energy]
      decide
    have power : (interrupted call device.sketch).power = some 1 := by
      rw [interrupted_power]
      decide
    have same := along.1 0 energy
    rw [power] at same
    revert same
    decide

end Law
end EspLog.Pulses

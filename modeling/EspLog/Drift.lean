import EspLog.Meter
import EspLog.Support.Rounding

/-! The meter reading as a float. Every tick rounds the new reading to 24 bits, and from then on what
was rounded away is missing; a large reading takes no notice of a few Wh at all. -/

namespace EspLog.Drift
open ExactFloat Rounding Sketch Functions Effects Loop Outputs YearYield Meter TimeLib

section Reading

theorem reading_of_holds (s : Globals) (n : ℕ) (held : Holds (s.ausgabe 10).value n) : reading s = n := held.amount

theorem creditedTotal_holds (s : Globals) (i n : ℕ) (held : Holds (s.ausgabe i).value n)
    (small : energyWh s < 2 ^ 24) (bounded : roundEven 24 (n + energyWh s) < 2 ^ 128) :
    Holds (creditedTotal s i) (roundEven 24 (n + energyWh s)) := by
  have exact := roundEven_of_lt 24 (energyWh s) (by decide) small
  unfold energyWh creditedTotal at *
  by_cases positive : s.impulseProKwh > 0
  · rw [if_pos positive] at bounded exact ⊢
    rw [if_pos positive]
    have energy := holds_toFloat32 (s.counter * 1000 / s.impulseProKwh)
    rw [exact] at energy
    exact held.add energy bounded
  · rw [if_neg positive, if_neg positive, Nat.add_zero, held.rounded]
    exact held

theorem reading_bounded (n tmp : ℕ) (bounded : n ≤ 2 ^ 42) (small : tmp < 10 ^ 5) :
    roundEven 24 (n + tmp) ≤ 2 ^ 42 := by
  have most : roundEven 24 (2 ^ 42 + 10 ^ 5) = 2 ^ 42 := by decide +kernel
  have order := roundEven_mono 24 (by decide) (n + tmp) (2 ^ 42 + 10 ^ 5) (by omega)
  rwa [most] at order

theorem everyMinute_holds (c : UInt32) (io : Readings) (s : Globals) (n : ℕ) (tick : minute c % 5 = 0)
    (held : Holds (s.ausgabe 10).value n) (bounded : n ≤ 2 ^ 42) (small : energyWh s < 10 ^ 5) :
    Holds ((everyMinute c io s).ausgabe 10).value (roundEven 24 (n + energyWh s)) := by
  have next := reading_bounded n (energyWh s) bounded small
  rw [everyMinute_reading, if_pos tick]
  exact creditedTotal_holds s 10 n held (small.trans (by decide)) (next.trans_lt (by decide))

end Reading

section Runs

/-- A pulse, or a minute that books less than 100 kWh. -/
def Small (state : Globals × Nat) : Event → Prop
  | .pulse => True
  | .minute c _ => minute c % 5 = 0 → energyWh state.1 < 10 ^ 5
  | _ => False

/-- The reading is the rounded start value and all that was booked since, to within one step. -/
def Close (start : ℕ) (state : Globals × Nat) : Prop :=
  |reading state.1 - (roundEven 24 start + state.2 : ℕ)| ≤ spacing 24 (roundEven 24 start + state.2)

/-- A tick leaves the reading close, and what it books is not dropped. -/
def KeepsUp (start : ℕ) (state : Globals × Nat) : Event → Prop
  | .minute c io => minute c % 5 = 0 → Close start (tally state (.minute c io)) ∧
    (0 < energyWh state.1 → reading state.1 < reading (everyMinute c io state.1))
  | _ => True

/-- Beside the device: what has been booked since the start value, the start value and all that with every sum
rounded, and what these roundings have taken away. -/
structure Ledger where
  booked : ℕ
  rounded : ℕ
  dropped : ℤ

def Ledger.book (ledger : Ledger) (tmp : ℕ) : Ledger where
  booked := ledger.booked + tmp
  rounded := roundEven 24 (ledger.rounded + tmp)
  dropped := ledger.dropped + lost 24 (ledger.rounded + tmp)

/-- The device with its ledger, in which a tick books. -/
def keep (state : Globals × Ledger) (event : Event) : Globals × Ledger :=
  (step state.1 event, match event with
    | .minute c _ => if minute c % 5 = 0 then state.2.book (energyWh state.1) else state.2
    | _ => state.2)

/-- The device beside what the ledger has booked. -/
def summed (state : Globals × Ledger) : Globals × ℕ := (state.1, state.2.booked)

theorem summed_keep (state : Globals × Ledger) (event : Event) :
    summed (keep state event) = tally (summed state) event := by
  cases event with
  | minute c io =>
    rw [summed, keep, tally, creditedBy]
    dsimp only
    by_cases tick : minute c % 5 = 0
    · rw [if_pos tick, if_pos tick]
      rfl
    · rw [if_neg tick, if_neg tick]
      rfl
  | _ => rfl

/-- What all roundings have taken away, this one included, is one step at most, and what is booked raises the
rounded sum. -/
def Ledger.Bears (start : ℕ) (ledger : Ledger) (tmp : ℕ) : Prop :=
  |(ledger.book tmp).dropped| ≤ spacing 24 (roundEven 24 start + (ledger.book tmp).booked) ∧
    (0 < tmp → Raises 24 ledger.rounded tmp)

instance (start : ℕ) (ledger : Ledger) (tmp : ℕ) : Decidable (ledger.Bears start tmp) :=
  inferInstanceAs (Decidable (_ ∧ _))

/-- The ledger bears what a tick books. -/
def Bearable (start : ℕ) (state : Globals × Ledger) : Event → Prop
  | .minute c _ => minute c % 5 = 0 → state.2.Bears start (energyWh state.1)
  | _ => True

/-- The invariant: the reading is the ledger's rounded sum, below 2^42, and the ledger balances. -/
structure Kept (start : ℕ) (state : Globals × Ledger) : Prop where
  held : Holds (state.1.ausgabe 10).value state.2.rounded
  bounded : state.2.rounded ≤ 2 ^ 42
  balance : (roundEven 24 start + state.2.booked : ℤ) = state.2.rounded + state.2.dropped

theorem Kept.tick {start : ℕ} {state : Globals × Ledger} (kept : Kept start state) (c : UInt32) (io : Readings)
    (tick : minute c % 5 = 0) (small : energyWh state.1 < 10 ^ 5) :
    Kept start (everyMinute c io state.1, state.2.book (energyWh state.1)) where
  held := everyMinute_holds c io state.1 _ tick kept.held kept.bounded small
  bounded := reading_bounded _ _ kept.bounded small
  balance := by
    have balance := kept.balance
    have rounded := roundEven_eq 24 (state.2.rounded + energyWh state.1)
    simp only [Ledger.book, rounded]
    push_cast at balance ⊢
    linarith

theorem Kept.keep {start : ℕ} (state : Globals × Ledger) (event : Event) (kept : Kept start state)
    (small : Small (summed state) event) : Kept start (keep state event) := by
  cases event with
  | pulse => exact ⟨kept.held, kept.bounded, kept.balance⟩
  | request isFile tmp request boot => exact small.elim
  | restart boot => exact small.elim
  | minute c io =>
    rw [Drift.keep]
    by_cases tick : minute c % 5 = 0
    · rw [if_pos tick]
      exact kept.tick c io tick (small tick)
    · rw [if_neg tick]
      refine ⟨?_, kept.bounded, kept.balance⟩
      change Holds ((everyMinute c io state.1).ausgabe 10).value state.2.rounded
      rw [everyMinute_reading, if_neg tick]
      exact kept.held

theorem Kept.close_iff {start : ℕ} {state : Globals × Ledger} (kept : Kept start state) :
    Close start (summed state) ↔ |state.2.dropped| ≤ spacing 24 (roundEven 24 start + state.2.booked) := by
  have balance : (roundEven 24 start + state.2.booked : ℚ) = state.2.rounded + state.2.dropped := by
    exact_mod_cast congrArg (Int.cast (R := ℚ)) kept.balance
  have difference : (state.2.rounded : ℚ) - (roundEven 24 start + state.2.booked : ℕ) =
      ((-state.2.dropped : ℤ) : ℚ) := by
    push_cast
    linarith
  rw [Close, summed, reading_of_holds _ _ kept.held, difference, ← Int.cast_abs, abs_neg]
  exact_mod_cast Iff.rfl

theorem keepsUp_iff (start : ℕ) (state : Globals × Ledger) (event : Event) (kept : Kept start state)
    (small : Small (summed state) event) : KeepsUp start (summed state) event ↔ Bearable start state event := by
  cases event with
  | minute c io =>
    apply imp_congr_right
    intro tick
    have after := kept.tick c io tick (small tick)
    have credited : tally (summed state) (.minute c io) =
        summed (everyMinute c io state.1, state.2.book (energyWh state.1)) := by
      rw [← summed_keep, Drift.keep, if_pos tick]
      rfl
    have value : reading (summed state).1 = state.2.rounded := reading_of_holds _ _ kept.held
    have next : reading (everyMinute c io (summed state).1) =
        (roundEven 24 (state.2.rounded + energyWh state.1) : ℕ) :=
      reading_of_holds _ _ after.held
    rw [credited, after.close_iff, value, next, Nat.cast_lt]
    apply and_congr_right
    intro _
    apply imp_congr_right
    intro some
    exact lt_roundEven_add 24 (by decide) _ (energyWh state.1) kept.held.rounded some
  | _ => exact Iff.rfl

/-- Along a run of ticks that each book less than 100 kWh, the reading keeps up with what is booked
exactly when the roundings stay within one step together, and no tick is too small to raise it. -/
theorem meter_keeps_up_iff (s : Globals) (start : ℕ) (bounded : start < 10 ^ 9)
    (held : (s.ausgabe 10).value = single start) (events : List Event)
    (small : Runs.Along tally Small (s, 0) events) :
    Runs.Along tally (KeepsUp start) (s, 0) events ↔
      Runs.Along keep (Bearable start) (s, ⟨0, roundEven 24 start, 0⟩) events := by
  have rounded := roundEven_le_two_pow 24 (by decide) start 30 (bounded.le.trans (by decide))
  have kept : Kept start (s, ⟨0, roundEven 24 start, 0⟩) := by
    refine ⟨?_, rounded.trans (by decide), (add_zero _).trans (add_zero _).symm⟩
    rw [held]
    exact holds_single start (rounded.trans_lt (by decide))
  have view (condition : Globals × ℕ → Event → Prop) :=
    Runs.along_map summed summed_keep condition events (s, ⟨0, roundEven 24 start, 0⟩)
  exact (view _).trans (Runs.along_iff_along Kept.keep (keepsUp_iff start) events _ kept ((view _).mp small))

def counted (pulses : ℕ) (c : UInt32) : List Event := List.replicate pulses .pulse ++ [.minute c ⟨3300, -60, 0⟩]

/-- A device of 1000 pulses per kWh between two ticks. -/
structure Idle (s : Globals) : Prop where
  rate : s.impulseProKwh = 1000
  still : s.counter = 0

theorem pulses_run (n : ℕ) (state : Globals × Ledger) : Runs.run keep state (List.replicate n .pulse) =
    ({ state.1 with counter := state.1.counter + UInt32.ofNat n }, state.2) := by
  induction n generalizing state with
  | zero =>
    have none : state.1.counter + UInt32.ofNat 0 = state.1.counter := UInt32.add_zero _
    rw [List.replicate_zero, Runs.run_nil, none]
  | succ n ih =>
    have pulse : keep state .pulse = ({ state.1 with counter := state.1.counter + 1 }, state.2) := rfl
    have sum : state.1.counter + 1 + UInt32.ofNat n = state.1.counter + UInt32.ofNat (n + 1) := by
      rw [UInt32.add_assoc, UInt32.ofNat_add, UInt32.add_comm 1]
      rfl
    rw [List.replicate_succ, Runs.run_cons, ih, pulse]
    simp only [sum]

theorem pulses_along (condition : Globals × Ledger → Event → Prop) (n : ℕ) (state : Globals × Ledger)
    (free : ∀ state, condition state .pulse) : Runs.Along keep condition state (List.replicate n .pulse) := by
  induction n generalizing state with
  | zero => trivial
  | succ n ih => exact ⟨free state, ih _⟩

theorem counted_run (n : ℕ) (c : UInt32) (tick : minute c % 5 = 0) (few : n * 1000 < 2 ^ 32) (s : Globals)
    (idle : Idle s) (ledger : Ledger) : ∃ before after, energyWh before = n ∧ Idle after ∧
      Runs.run keep (s, ledger) (counted n c) = (after, ledger.book n) ∧
      ∀ condition : Globals × Ledger → Event → Prop, (∀ state, condition state .pulse) →
        (Runs.Along keep condition (s, ledger) (counted n c) ↔
          condition (before, ledger) (.minute c ⟨3300, -60, 0⟩)) := by
  have pulses := pulses_run n (s, ledger)
  have energy : energyWh { s with counter := s.counter + UInt32.ofNat n } = n := by
    have positive : (1000 : UInt32) > 0 := by decide
    have thousand : (1000 : UInt32).toNat = 1000 := rfl
    have word : (UInt32.ofNat n).toNat = n := by
      rw [UInt32.toNat_ofNat']
      omega
    rw [energyWh]
    dsimp only
    rw [idle.still, idle.rate, UInt32.zero_add, if_pos positive, UInt32.toNat_div, UInt32.toNat_mul, word,
      thousand, Nat.mod_eq_of_lt few, Nat.mul_div_cancel n (by decide)]
  refine ⟨{ s with counter := s.counter + UInt32.ofNat n },
    everyMinute c ⟨3300, -60, 0⟩ { s with counter := s.counter + UInt32.ofNat n }, energy, ⟨?_, ?_⟩, ?_, ?_⟩
  · exact (everyMinute_rate c _ _).trans idle.rate
  · exact everyMinute_counter c _ _ tick
  · rw [counted, Runs.run_append, pulses, Runs.run_cons, Runs.run_nil, keep, if_pos tick, energy]
    rfl
  · intro condition free
    rw [counted, Runs.along_append, pulses]
    exact (and_iff_right (pulses_along condition n _ free)).trans (and_iff_left trivial)

def ticks (list : List (ℕ × UInt32)) : List Event := list.flatMap fun tick => counted tick.1 tick.2

/-- Ticks at their time, whose pulses fit the counter. -/
def Timed (list : List (ℕ × UInt32)) : Prop := ∀ tick ∈ list, minute tick.2 % 5 = 0 ∧ tick.1 * 1000 < 2 ^ 32

theorem ticks_run (list : List (ℕ × UInt32)) (timed : Timed list) (s : Globals) (idle : Idle s) (ledger : Ledger) :
    (∃ after, Runs.run keep (s, ledger) (ticks list) = (after, Runs.run Ledger.book ledger (list.map Prod.fst))) ∧
      ∀ (condition : Globals × Ledger → Event → Prop) (booked : Ledger → ℕ → Prop),
        (∀ state, condition state .pulse) →
        (∀ state c, minute c % 5 = 0 →
          (condition state (.minute c ⟨3300, -60, 0⟩) ↔ booked state.2 (energyWh state.1))) →
        (Runs.Along keep condition (s, ledger) (ticks list) ↔
          Runs.Along Ledger.book booked ledger (list.map Prod.fst)) := by
  induction list generalizing s ledger with
  | nil => exact ⟨⟨s, rfl⟩, fun condition booked free same => Iff.rfl⟩
  | cons tick later ih =>
    obtain ⟨at_time, few⟩ := timed tick List.mem_cons_self
    obtain ⟨before, after, energy, rests, reached, along⟩ := counted_run tick.1 tick.2 at_time few s idle ledger
    obtain ⟨⟨last, run⟩, rest⟩ := ih (fun other member => timed other (List.mem_cons_of_mem _ member)) after rests
      (ledger.book tick.1)
    have joined : ticks (tick :: later) = counted tick.1 tick.2 ++ ticks later := rfl
    refine ⟨⟨last, ?_⟩, fun condition booked free same => ?_⟩
    · rw [joined, Runs.run_append, reached, run]
      rfl
    · rw [joined, Runs.along_append, reached, along condition free, same _ _ at_time, energy,
        rest condition booked free same]
      rfl

def heavy : Globals := (powerOn (fun _ => 0) true []).setValue 10 (single 500000000)

theorem heavy_idle : Idle heavy := ⟨rfl, rfl⟩

theorem heavy_whole : roundEven 24 500000000 = 500000000 := by decide +kernel

/-- It takes notice of 100, 40 and 75 Wh, and drops 4, 8 and 11 of them. -/
theorem heavy_keeps_up : Runs.Along tally (KeepsUp 500000000) (heavy, 0)
    (ticks [(100, 1546329900), (40, 1546330200), (75, 1546330500)]) := by
  have timed : Timed [(100, 1546329900), (40, 1546330200), (75, 1546330500)] := by unfold Timed; decide
  obtain ⟨-, along⟩ := ticks_run _ timed heavy heavy_idle ⟨0, roundEven 24 500000000, 0⟩
  apply (meter_keeps_up_iff heavy 500000000 (by decide) (setValue_self _ _ _) _ ?_).mpr
  · rw [along _ (Ledger.Bears 500000000) (fun _ => trivial) (fun _ _ tick => imp_iff_right tick), heavy_whole]
    simp only [List.map_cons, List.map_nil, Runs.Along]
    decide +kernel
  · refine (Runs.along_map summed summed_keep Small _ (heavy, ⟨0, roundEven 24 500000000, 0⟩)).mpr ?_
    rw [along _ (fun _ tmp => tmp < 10 ^ 5) (fun _ => trivial) (fun _ _ tick => imp_iff_right tick)]
    simp only [List.map_cons, List.map_nil, Runs.Along]
    decide

/-- Three ticks of 15 Wh leave it where it was, more than a step behind. -/
theorem heavy_drops : ¬Close 500000000 (Runs.run tally (heavy, 0)
    (ticks [(15, 1546329900), (15, 1546330200), (15, 1546330500)])) := by
  have timed : Timed [(15, 1546329900), (15, 1546330200), (15, 1546330500)] := by unfold Timed; decide
  obtain ⟨⟨after, run⟩, along⟩ := ticks_run _ timed heavy heavy_idle ⟨0, 500000000, 0⟩
  have held := holds_single 500000000 (by rw [heavy_whole]; decide)
  rw [heavy_whole] at held
  have start : Kept 500000000 (heavy, ⟨0, 500000000, 0⟩) :=
    ⟨(setValue_self _ _ _ : (heavy.ausgabe 10).value = _) ▸ held, by norm_num, by rw [heavy_whole]; rfl⟩
  have small : Runs.Along keep (fun state => Small (summed state)) (heavy, ⟨0, 500000000, 0⟩)
      (ticks [(15, 1546329900), (15, 1546330200), (15, 1546330500)]) := by
    rw [along _ (fun _ tmp => tmp < 10 ^ 5) (fun _ => trivial) (fun _ _ tick => imp_iff_right tick)]
    simp only [List.map_cons, List.map_nil, Runs.Along]
    decide
  have last := (Runs.throughout_of_invariant Kept.keep _ _ start small).last
  have close := last.close_iff
  rw [← Runs.run_map summed summed_keep] at close
  have view : summed (heavy, ⟨0, 500000000, 0⟩) = (heavy, 0) := rfl
  rw [view, run] at close
  rw [close, heavy_whole]
  dsimp only
  decide +kernel

end Runs
end EspLog.Drift

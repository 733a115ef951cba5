import EspLog.Effects
import Mathlib.Algebra.BigOperators.Group.Finset.Sigma
import Mathlib.Algebra.BigOperators.Ring.Finset
import Mathlib.Data.Rat.Defs
import Mathlib.Tactic.FieldSimp
import Mathlib.Tactic.Linarith
import Mathlib.Algebra.Order.Field.Basic

/-! The energy that successive calls of the five-minute function book, against the energy of
the pulses: every call drops the remainder of its division, and the remainders add up. -/

namespace EspLog.Energy
open ExactFloat Sketch Functions Effects

section Calls

/-- One call: the day it books on, the clock, and the pulses it finds. -/
structure Call where
  month : Nat
  day : Nat
  clock : UInt32
  io : Readings
  pulses : Nat

def call (s : Globals) (c : Call) : Globals :=
  FuenfMinutenTimer c.month c.day c.clock c.io { s with counter := UInt32.ofNat c.pulses }

/-- Whole Wh of a count of pulses, and what the division leaves. -/
def Call.energy (c : Call) (impulseProKwh : UInt32) : Nat := c.pulses * 1000 / impulseProKwh.toNat

def Call.remainder (c : Call) (impulseProKwh : UInt32) : Nat := c.pulses * 1000 % impulseProKwh.toNat

/-- The call books on a day of the table, its product fits, and the day stays exact in a float. -/
structure Admissible (s : Globals) (c : Call) : Prop where
  month : c.month < 12
  day : c.day < 31
  product : c.pulses * 1000 < 2 ^ 32
  exact : (s.tagesCounter c.month c.day).toNat + c.energy s.impulseProKwh < 2 ^ 24

theorem call_impulseProKwh (s : Globals) (c : Call) : (call s c).impulseProKwh = s.impulseProKwh := by
  rw [call, FuenfMinutenTimer_eq]

theorem Call.quotient (c : Call) (impulseProKwh : UInt32) (product : c.pulses * 1000 < 2 ^ 32) :
    (UInt32.ofNat c.pulses * 1000 / impulseProKwh).toNat = c.energy impulseProKwh := by
  have thousand : (1000 : UInt32).toNat = 1000 := rfl
  have word : (UInt32.ofNat c.pulses).toNat = c.pulses := by
    rw [UInt32.toNat_ofNat']
    omega
  rw [UInt32.toNat_div, UInt32.toNat_mul, word, thousand, Nat.mod_eq_of_lt product, Call.energy]

theorem energyOf_call (s : Globals) (c : Call) (admissible : Admissible s c) :
    energyOf (UInt32.ofNat c.pulses) s.impulseProKwh = single (c.energy s.impulseProKwh) := by
  rw [energyOf, toFloat32_eq_single, c.quotient s.impulseProKwh admissible.product]

theorem call_table (s : Globals) (c : Call) (positive : 0 < s.impulseProKwh) (admissible : Admissible s c)
    (m d : Nat) :
    ((call s c).tagesCounter m d).toNat =
      (s.tagesCounter m d).toNat + if (m, d) = (c.month, c.day) then c.energy s.impulseProKwh else 0 := by
  have exact := admissible.exact
  rw [call, FuenfMinutenTimer_eq]
  simp only [measured_table, bookedTable]
  rw [if_pos positive]
  by_cases here : m = c.month ∧ d = c.day
  · have same : (m, d) = (c.month, c.day) := by rw [here.1, here.2]
    rw [if_pos here, if_pos same, here.1, here.2, energyOf_call s c admissible, toFloat32_eq_single,
      single_add _ _ exact, toUInt32_single _ exact, UInt32.toNat_ofNat']
    omega
  · have other : ¬(m, d) = (c.month, c.day) := fun same => here (Prod.ext_iff.mp same)
    rw [if_neg here, if_neg other, Nat.add_zero]

end Calls

section Total
open Finset

def total (s : Globals) : Nat := ∑ cell ∈ range 12 ×ˢ range 31, (s.tagesCounter cell.1 cell.2).toNat

theorem call_total (s : Globals) (c : Call) (positive : 0 < s.impulseProKwh) (admissible : Admissible s c) :
    total (call s c) = total s + c.energy s.impulseProKwh := by
  have inside : (c.month, c.day) ∈ range 12 ×ˢ range 31 :=
    mem_product.mpr ⟨mem_range.mpr admissible.month, mem_range.mpr admissible.day⟩
  calc total (call s c)
      = ∑ cell ∈ range 12 ×ˢ range 31, ((s.tagesCounter cell.1 cell.2).toNat +
          if cell = (c.month, c.day) then c.energy s.impulseProKwh else 0) :=
        sum_congr rfl fun cell _ => call_table s c positive admissible cell.1 cell.2
    _ = total s + c.energy s.impulseProKwh := by
        rw [sum_add_distrib, sum_ite_eq' _ (c.month, c.day), if_pos inside, total]

end Total

section Balance

def count (state : Globals × Nat) (c : Call) : Globals × Nat := (call state.1 c, state.2 + c.pulses)

/-- What the table has gained since `start` is less than one Wh from the energy of the pulses. -/
def Conserved (start : Globals) (state : Globals × Nat) : Prop :=
  |(1000 * state.2 : ℚ) / start.impulseProKwh.toNat - ((total state.1 : ℚ) - total start)| < 1

theorem conserved_iff (start : Globals) (state : Globals × Nat) (dropped : Nat)
    (positive : 0 < start.impulseProKwh) (balance : start.impulseProKwh.toNat * total state.1 + dropped =
      1000 * state.2 + start.impulseProKwh.toNat * total start) :
    Conserved start state ↔ dropped < start.impulseProKwh.toNat := by
  have divisor : (0 : ℚ) < start.impulseProKwh.toNat := by
    exact_mod_cast UInt32.lt_iff_toNat_lt.mp positive
  have exact : (1000 * state.2 : ℚ) / start.impulseProKwh.toNat - ((total state.1 : ℚ) - total start) =
      dropped / start.impulseProKwh.toNat := by
    have cast : (start.impulseProKwh.toNat : ℚ) * total state.1 + dropped =
        1000 * state.2 + start.impulseProKwh.toNat * total start := by exact_mod_cast balance
    field_simp
    linarith
  have nonnegative : (0 : ℚ) ≤ dropped / start.impulseProKwh.toNat :=
    div_nonneg (Nat.cast_nonneg _) (Nat.cast_nonneg _)
  rw [Conserved, exact, abs_of_nonneg nonnegative, div_lt_one divisor]
  exact Nat.cast_lt

/-- The remainders add up along a run. -/
theorem conserved_run (start : Globals) (calls : List Call) (state : Globals × Nat) (dropped : Nat)
    (constant : state.1.impulseProKwh = start.impulseProKwh) (positive : 0 < start.impulseProKwh)
    (balance : start.impulseProKwh.toNat * total state.1 + dropped =
      1000 * state.2 + start.impulseProKwh.toNat * total start)
    (admissible : Runs.Along count (fun state c => Admissible state.1 c) state calls) :
    Runs.Throughout count (Conserved start) state calls ↔
      dropped + (calls.map fun c => c.remainder start.impulseProKwh).sum < start.impulseProKwh.toNat := by
  induction calls generalizing state dropped with
  | nil => simpa [Runs.Throughout] using conserved_iff start state dropped positive balance
  | cons c later ih =>
    have now := conserved_iff start state dropped positive balance
    have gained := call_total state.1 c (constant ▸ positive) admissible.1
    have kept : (count state c).1.impulseProKwh = start.impulseProKwh :=
      (call_impulseProKwh state.1 c).trans constant
    have split := Nat.div_add_mod (c.pulses * 1000) start.impulseProKwh.toNat
    have next : start.impulseProKwh.toNat * total (count state c).1 + (dropped + c.remainder start.impulseProKwh) =
        1000 * (count state c).2 + start.impulseProKwh.toNat * total start := by
      simp only [count, gained, constant, Call.energy, Call.remainder, Nat.mul_add]
      omega
    have rest := ih (count state c) (dropped + c.remainder start.impulseProKwh) kept next admissible.2
    rw [Runs.Throughout, now, rest, List.map_cons, List.sum_cons]
    omega

/-- Energy is conserved along a run of calls exactly when the remainders of all its divisions
stay below one division's constant. -/
theorem energy_conserved_iff (s : Globals) (calls : List Call) (positive : 0 < s.impulseProKwh)
    (admissible : Runs.Along count (fun state c => Admissible state.1 c) (s, 0) calls) :
    Runs.Throughout count (Conserved s) (s, 0) calls ↔
      (calls.map fun c => c.remainder s.impulseProKwh).sum < s.impulseProKwh.toNat := by
  have run := conserved_run s calls (s, 0) 0 rfl positive (by simp) admissible
  rwa [Nat.zero_add] at run

/-- A meter of 1600 pulses per kWh. Its calls drop 1000, 200 and 200 of the 1600 parts of a Wh: together less than
one. -/
theorem energy_conserved_over_midnight :
    Runs.Throughout count (Conserved { powerOn (fun _ => 0) true [] with impulseProKwh := 1600 })
      ({ powerOn (fun _ => 0) true [] with impulseProKwh := 1600 }, 0)
      [⟨11, 30, 1546300500, ⟨3300, -60, 0⟩, 9⟩, ⟨11, 30, 1546300800, ⟨3300, -60, 0⟩, 5⟩,
        ⟨0, 0, 1546301100, ⟨3300, -60, 0⟩, 13⟩] := by
  apply (energy_conserved_iff _ _ (by decide) ?_).mpr
  · decide
  · refine ⟨⟨by decide, by decide, by decide, by decide⟩, ⟨by decide, by decide, by decide, ?_⟩,
      ⟨by decide, by decide, by decide, ?_⟩, trivial⟩
    · decide +kernel
    · decide +kernel

/-- A meter of 2000 pulses per kWh that gives one pulse in each of two calls loses a whole Wh. -/
theorem energy_lost_at_half_wh :
    ¬Runs.Throughout count (Conserved { powerOn (fun _ => 0) true [] with impulseProKwh := 2000 })
      ({ powerOn (fun _ => 0) true [] with impulseProKwh := 2000 }, 0)
      [⟨0, 0, 1546300800, ⟨3300, -60, 0⟩, 1⟩, ⟨0, 0, 1546301100, ⟨3300, -60, 0⟩, 1⟩] := by
  intro through
  have admissible : Runs.Along count (fun state c => Admissible state.1 c)
      ({ powerOn (fun _ => 0) true [] with impulseProKwh := 2000 }, 0)
      [⟨0, 0, 1546300800, ⟨3300, -60, 0⟩, 1⟩, ⟨0, 0, 1546301100, ⟨3300, -60, 0⟩, 1⟩] := by
    refine ⟨⟨by decide, by decide, by decide, by decide⟩, ⟨by decide, by decide, by decide, ?_⟩, trivial⟩
    decide +kernel
  have below := (conserved_run _ _ _ 0 rfl (by decide) (by simp) admissible).mp through
  revert below
  decide

end Balance
end EspLog.Energy

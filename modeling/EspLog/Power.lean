import EspLog.Energy
import EspLog.Texts
import EspLog.Support.Rounding
import Mathlib.Algebra.BigOperators.Group.List.Basic

/-! The mean power of a call beside the energy that the same call books. Both come from one count of
pulses, but only the energy knows the meter's constant. -/

namespace EspLog.Power
open ExactFloat Rounding Sketch Functions Effects Energy Texts TimeLib

section Watts

theorem powerOf_holds (n : UInt32) : Holds (powerOf n) (roundEven 24 (12 * n.toNat)) := by
  have hour : HoldsDouble 3600 3600 := by
    have held := holdsDouble_toFloat 3600
    have same : (3600 : UInt32).toFloat = 3600 := by decide
    rwa [same] at held
  have interval : HoldsDouble 300 300 := by
    have held := holdsDouble_toFloat 300
    have same : (300 : UInt32).toFloat = 300 := by decide
    rwa [same] at held
  have word := n.toNat_lt
  have product := (holdsDouble_toFloat n).mul hour (by omega)
  have multiple : n.toNat * 3600 = 12 * n.toNat * 300 := by omega
  rw [multiple] at product
  have quotient := product.div interval (by decide) (by omega)
  have bounded := roundEven_le_two_pow 24 (by decide) (12 * n.toNat) 36 (by omega)
  exact quotient.toSingle (bounded.trans_lt (by decide))

theorem powerOf_exact (pulses : ℕ) (product : pulses * 1000 < 2 ^ 32) :
    Holds (powerOf (UInt32.ofNat pulses)) (12 * pulses) := by
  have held := powerOf_holds (UInt32.ofNat pulses)
  have word : (UInt32.ofNat pulses).toNat = pulses := by
    rw [UInt32.toNat_ofNat']
    omega
  have fits : roundEven 24 (12 * pulses) = 12 * pulses := by
    apply roundEven_of_dvd
    have log := log2_lt 26 (12 * pulses) (by decide) (by omega)
    have step : spacing 24 (12 * pulses) ∣ 2 ^ 2 := Nat.pow_dvd_pow 2 (by omega)
    exact step.trans ⟨3 * pulses, by omega⟩
  rwa [word, fits] at held

end Watts

section Ticks

/-- A call, and the meter's constant when it comes. -/
structure Tick where
  call : Call
  impulseProKwh : UInt32

def Tick.slot (t : Tick) : ℕ := hour t.call.clock * 12 + minute t.call.clock / 5

/-- The Wh that the call adds to the table. -/
def Tick.booked (t : Tick) : ℚ := amount (energyOf (UInt32.ofNat t.call.pulses) t.impulseProKwh)

/-- The meter has a constant, and the product of the energy fits 32 bits. -/
structure Tick.Counted (t : Tick) : Prop where
  positive : 0 < t.impulseProKwh
  product : t.call.pulses * 1000 < 2 ^ 32

/-- The meter gives one pulse for each Wh, or gave none. -/
def Tick.Standard (t : Tick) : Prop := t.impulseProKwh = 1000 ∨ t.call.pulses = 0

def tick (s : Globals) (t : Tick) : Globals := call { s with impulseProKwh := t.impulseProKwh } t.call

/-- The stored power, and the slot's, is the mean power of the energy that the call books. -/
structure Agrees (s : Globals) (t : Tick) : Prop where
  mean : amount ((tick s t).ausgabe 6).value = 12 * 1000 * t.call.pulses / t.impulseProKwh.toNat
  slot : ((tick s t).fuenfMinutenZaehler t.slot).toNat = amount ((tick s t).ausgabe 6).value
  least : 0 ≤ amount ((tick s t).ausgabe 6).value - 12 * t.booked
  most : amount ((tick s t).ausgabe 6).value - 12 * t.booked < 12

variable (s : Globals) (t : Tick)

theorem tick_power : ((tick s t).ausgabe 6).value = powerOf (UInt32.ofNat t.call.pulses) := by
  rw [tick, call, FuenfMinutenTimer_eq]
  simp only [measured_power, Texts.shown_value]

theorem tick_slots : (tick s t).fuenfMinutenZaehler =
    Function.update s.fuenfMinutenZaehler t.slot (powerOf (UInt32.ofNat t.call.pulses)).toUInt32 := by
  rw [tick, call, FuenfMinutenTimer_eq]
  simp only [measured_slots, Tick.slot]

theorem tick_slot (counted : t.Counted) : ((tick s t).fuenfMinutenZaehler t.slot).toNat = 12 * t.call.pulses := by
  have product := counted.product
  rw [tick_slots, Function.update_self, (powerOf_exact _ product).toUInt32]
  exact UInt32.toNat_ofNatClamp_of_lt (by simp only [UInt32.size]; omega)

theorem Tick.Standard.energy (counted : t.Counted) (standard : t.Standard) :
    t.call.energy t.impulseProKwh = t.call.pulses ∧ t.call.pulses < 2 ^ 24 := by
  have product := counted.product
  unfold Call.energy
  rcases standard with rate | none
  · have thousand : (1000 : UInt32).toNat = 1000 := rfl
    rw [rate, thousand]
    omega
  · rw [none]
    simp

theorem Tick.Standard.booked (counted : t.Counted) (standard : t.Standard) : t.booked = t.call.pulses := by
  obtain ⟨energy, small⟩ := standard.energy t counted
  have fits := roundEven_of_lt 24 t.call.pulses (by decide) small
  have quotient := t.call.quotient t.impulseProKwh counted.product
  have held := holds_toFloat32 (UInt32.ofNat t.call.pulses * 1000 / t.impulseProKwh)
  rw [quotient, energy, fits] at held
  exact held.amount

/-- Power and energy agree exactly for the meter that gives one pulse for each Wh. -/
theorem agrees_iff (counted : t.Counted) : Agrees s t ↔ t.Standard := by
  have power : amount ((tick s t).ausgabe 6).value = 12 * t.call.pulses := by
    rw [tick_power, (powerOf_exact _ counted.product).amount]
    push_cast
    rfl
  have divisor : (t.impulseProKwh.toNat : ℚ) ≠ 0 := by
    have positive := UInt32.lt_iff_toNat_lt.mp counted.positive
    exact_mod_cast Nat.pos_iff_ne_zero.mp positive
  constructor
  · intro agrees
    have mean := agrees.mean
    rw [power, eq_div_iff divisor] at mean
    have product : 12 * t.call.pulses * t.impulseProKwh.toNat = 12 * 1000 * t.call.pulses := by exact_mod_cast mean
    by_cases none : t.call.pulses = 0
    · exact .inr none
    · have rate : t.impulseProKwh.toNat = 1000 := by
        apply Nat.eq_of_mul_eq_mul_left (Nat.pos_of_ne_zero none)
        linarith
      exact .inl (UInt32.toNat.inj rate)
  · intro standard
    have booked := standard.booked t counted
    refine ⟨?_, ?_, ?_, ?_⟩
    · rw [power]
      rcases standard with rate | none
      · have thousand : (1000 : UInt32).toNat = 1000 := rfl
        rw [rate, thousand]
        push_cast
        ring
      · rw [none]
        simp
    · rw [power, tick_slot s t counted]
      push_cast
      rfl
    · rw [power, booked, sub_self]
    · rw [power, booked, sub_self]
      norm_num

end Ticks

section Day
variable (s : Globals) (ticks : List Tick)

theorem run_slot (distinct : (ticks.map Tick.slot).Nodup) (counted : ∀ t ∈ ticks, t.Counted) (t : Tick)
    (member : t ∈ ticks) :
    ((Runs.run tick s ticks).fuenfMinutenZaehler t.slot).toNat = 12 * t.call.pulses := by
  induction ticks generalizing s with
  | nil => exact absurd member List.not_mem_nil
  | cons first later ih =>
    rw [List.map_cons, List.nodup_cons] at distinct
    rw [List.forall_mem_cons] at counted
    rw [Runs.run_cons]
    rcases List.mem_cons.mp member with here | there
    · have kept := Runs.run_keeps tick (fun s => s.fuenfMinutenZaehler first.slot) later (by
        intro state other after
        have different : first.slot ≠ other.slot :=
          fun same => distinct.1 (List.mem_map.mpr ⟨other, after, same.symm⟩)
        rw [tick_slots, Function.update_of_ne different])
      rw [here, kept, tick_slot s first counted.1]
    · exact ih _ distinct.2 counted.2 there

def shown : ℚ := (ticks.map fun t => (((Runs.run tick s ticks).fuenfMinutenZaehler t.slot).toNat : ℚ)).sum / 12

/-- The slots match a yield to within one Wh for each tick. -/
def Matches (yield : ℚ) : Prop := |shown s ticks - yield| ≤ ticks.length

/-- The tick books on a day of the table, which a float still holds exactly. -/
def Exact (s : Globals) (t : Tick) : Prop := Admissible { s with impulseProKwh := t.impulseProKwh } t.call

theorem shown_eq (distinct : (ticks.map Tick.slot).Nodup) (counted : ∀ t ∈ ticks, t.Counted) :
    shown s ticks = (ticks.map fun t => (t.call.pulses : ℚ)).sum := by
  have each : (ticks.map fun t => (((Runs.run tick s ticks).fuenfMinutenZaehler t.slot).toNat : ℚ)) =
      ticks.map fun t => 12 * (t.call.pulses : ℚ) := by
    apply List.map_congr_left
    intro t member
    rw [run_slot s ticks distinct counted t member]
    push_cast
    rfl
  rw [shown, each, List.sum_map_mul_left, mul_div_cancel_left₀ _ (by norm_num)]

theorem run_table (month day : ℕ) (oneDay : ∀ t ∈ ticks, t.call.month = month ∧ t.call.day = day)
    (counted : ∀ t ∈ ticks, t.Counted) (standard : ∀ t ∈ ticks, t.Standard)
    (exact : Runs.Along tick Exact s ticks) :
    ((Runs.run tick s ticks).tagesCounter month day).toNat =
      (s.tagesCounter month day).toNat + (ticks.map fun t => t.call.pulses).sum := by
  induction ticks generalizing s with
  | nil => rfl
  | cons first later ih =>
    rw [List.forall_mem_cons] at oneDay counted standard
    have gained := call_table _ first.call counted.1.positive exact.1 month day
    have here : (month, day) = (first.call.month, first.call.day) := by rw [oneDay.1.1, oneDay.1.2]
    rw [if_pos here, (standard.1.energy first counted.1).1] at gained
    have rest := ih (tick s first) oneDay.2 counted.2 standard.2 exact.2
    rw [Runs.run_cons, rest, tick, gained, List.map_cons, List.sum_cons, Nat.add_assoc]

/-- A call's power is that of the energy it books exactly when the meter gives one pulse for each Wh, or gave
none. Ticks of one day that all do so leave slots that match what the day has booked. -/
theorem power_agrees_iff (month day : ℕ) (oneDay : ∀ t ∈ ticks, t.call.month = month ∧ t.call.day = day)
    (distinct : (ticks.map Tick.slot).Nodup) (counted : ∀ t ∈ ticks, t.Counted) :
    (Runs.Along tick Agrees s ticks ↔ ∀ t ∈ ticks, t.Standard) ∧
    ((∀ t ∈ ticks, t.Standard) → Matches s ticks (ticks.map Tick.booked).sum ∧
      (Runs.Along tick Exact s ticks → Matches s ticks
        (((Runs.run tick s ticks).tagesCounter month day).toNat - (s.tagesCounter month day).toNat))) := by
  have length : (0 : ℚ) ≤ ticks.length := Nat.cast_nonneg _
  have same : shown s ticks = (ticks.map fun t => (t.call.pulses : ℚ)).sum := shown_eq s ticks distinct counted
  refine ⟨?_, fun standard => ⟨?_, fun exact => ?_⟩⟩
  · have domain : Runs.Along tick (fun _ t => t.Counted) s ticks := Runs.Along.of_mem counted
    have steps : Runs.Along tick Agrees s ticks ↔ Runs.Along tick (fun _ t => t.Standard) s ticks :=
      Runs.along_iff_along (fun _ _ _ _ => trivial) (fun state t (_ : True) counted => agrees_iff state t counted)
        ticks s trivial domain
    exact steps.trans (Runs.along_iff_forall (fun _ => ()) (fun _ _ => rfl) (fun _ t => t.Standard) ticks s)
  · have booked : ticks.map Tick.booked = ticks.map fun t => (t.call.pulses : ℚ) :=
      List.map_congr_left fun t member => (standard t member).booked t (counted t member)
    rw [Matches, same, booked, sub_self, abs_zero]
    exact length
  · have gained := run_table s ticks month day oneDay counted standard exact
    have cast : (((Runs.run tick s ticks).tagesCounter month day).toNat : ℚ) - (s.tagesCounter month day).toNat =
        (ticks.map fun t => (t.call.pulses : ℚ)).sum := by
      rw [gained]
      push_cast
      rw [add_sub_cancel_left, List.map_map]
      rfl
    rw [Matches, same, cast, sub_self, abs_zero]
    exact length

def morning : List Tick :=
  [⟨⟨0, 0, 1546300800, ⟨3300, -60, 0⟩, 5⟩, 1000⟩, ⟨⟨0, 0, 1546301100, ⟨3300, -60, 0⟩, 7⟩, 1000⟩]

theorem power_agrees_morning : Runs.Along tick Agrees (powerOn (fun _ => 0) true []) morning ∧
    Matches (powerOn (fun _ => 0) true []) morning (morning.map Tick.booked).sum := by
  have standard : ∀ t ∈ morning, t.Standard := by
    intro t member
    rcases List.mem_pair.mp member with rfl | rfl
    · exact .inl rfl
    · exact .inl rfl
  have agree := power_agrees_iff (powerOn (fun _ => 0) true []) morning 0 0 (by decide) (by decide) (by
    intro t member
    rcases List.mem_pair.mp member with rfl | rfl
    · exact ⟨by decide, by decide⟩
    · exact ⟨by decide, by decide⟩)
  exact ⟨agree.1.mpr standard, (agree.2 standard).1⟩

/-- Ten pulses of a meter that gives two for each Wh: the device shows 120 W where 60 W were generated. -/
theorem power_doubled : ¬Agrees (powerOn (fun _ => 0) true []) ⟨⟨0, 0, 1546300800, ⟨3300, -60, 0⟩, 10⟩, 2000⟩ := by
  intro agrees
  have standard := (agrees_iff _ _ ⟨by decide, by decide⟩).mp agrees
  revert standard
  unfold Tick.Standard
  decide

end Day
end EspLog.Power

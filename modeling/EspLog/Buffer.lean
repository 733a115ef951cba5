import EspLog.Offset
import EspLog.Power
import EspLog.Support.TextLength

/-! Whether the printed values fit their field of fourteen characters and a terminator. The reading is printed
in kWh by a tick and by a start, but in Wh where a new offset is added to it. -/

namespace EspLog.Buffer
open CText ExactFloat Rounding Nearest TextLength Sketch Functions Setup Websites WebServer Effects Restart Loop
  Outputs Texts
  TimeLib ByteMemory

section Numbers

/-- What two decimals, at most fourteen characters long, can show. -/
def Printable (a : ℚ) : Prop := -(10 ^ 10 - 1 / 200) < a ∧ a < 10 ^ 11 - 1 / 200

theorem length_two_places_iff (x : Float) : (dtostrf x 2 2).length ≤ 14 ↔ ∀ a, valueDouble x = some a →
    Printable a := by
  have exactly := length_dtostrf_le_iff x 2 2 10 (by decide) (by decide)
  have percent : (1 : ℚ) / (2 * 10 ^ 2) = 1 / 200 := by norm_num
  rw [percent] at exactly
  exact exactly

theorem printable_rounded_iff (x : ℚ) : Printable (rounded .binary32 x) ↔ -9999999488 ≤ x ∧ x < 100000002048 := by
  have upper : rounded .binary32 x < 10 ^ 11 - 1 / 200 ↔ x < 100000002048 := by
    rw [rounded_lt_iff .binary32 12207031 13 (by decide) (by decide) (by decide) _ (by norm_num) (by norm_num),
      below_odd 12207031 13 (by decide)]
    norm_num
  have lower : -(10 ^ 10 - 1 / 200) < rounded .binary32 x ↔ -9999999488 ≤ x := by
    rw [neg_lt, ← rounded_neg,
      rounded_lt_iff .binary32 9765624 10 (by decide) (by decide) (by decide) _ (by norm_num) (by norm_num),
      below_even 9765624 10 (by decide), neg_le]
    norm_num
  rw [Printable, upper, lower]

variable {v w : Float32} {a b : ℚ}

theorem Holds.value_eq {n : ℕ} (held : Holds v n) : value v = some (n : ℚ) := by
  unfold Holds at held
  unfold value
  generalize v.toModel.unpack = x at held
  cases held with
  | zero => exact congrArg some Nat.cast_zero.symm
  | finite mantissa exponent n positive low high same =>
    rw [number, signed_apply, Nearest.signed, same]

theorem value_thousand : value 1000 = some 1000 := by
  have exact : roundEven 24 1000 = 1000 := roundEven_of_lt 24 1000 (by decide) (by decide)
  have held := holds_single 1000 (by rw [exact]; decide)
  have same : single 1000 = 1000 := rfl
  rw [same, exact] at held
  exact Holds.value_eq held

theorem result_of_le (x : ℚ) (held : value v = some a) (small : |x| ≤ |a|) :
    result .binary32 x = some (rounded .binary32 x) := by
  have same := (denotes_value held).rounded
  have near : |rounded .binary32 x| < limit .binary32 := by
    apply lt_of_le_of_lt _ (value_lt held)
    rw [abs_le]
    rw [abs_le] at small
    rcases abs_cases a with ⟨size, sign⟩ | ⟨size, sign⟩
    · rw [size] at small ⊢
      have upper := rounded_mono .binary32 small.2
      have lower := rounded_mono .binary32 small.1
      rw [rounded_neg, same] at lower
      rw [same] at upper
      exact ⟨lower, upper⟩
    · rw [size] at small ⊢
      have upper := rounded_mono .binary32 small.2
      have lower := rounded_mono .binary32 small.1
      rw [neg_neg, same] at lower
      rw [rounded_neg, same] at upper
      exact ⟨by linarith, upper⟩
  rw [result, Option.filter_some_pos (by simpa using near)]

theorem length_text_iff (v : Float32) : (dtostrf (toDouble v) 2 2).length ≤ 14 ↔ ∀ a, value v = some a →
    Printable a := by
  rw [length_two_places_iff, valueDouble_toDouble]

theorem length_kiloText_iff (v : Float32) :
    (kiloText v).length ≤ 14 ↔ ∀ a, value v = some a → -9999999488000 ≤ a ∧ a < 100000002048000 := by
  rw [kiloText, length_text_iff]
  rcases held : value v with _ | a
  · rw [value_div_none held]
    simp
  · have small : |a / 1000| ≤ |a| := by
      rw [abs_div, abs_of_pos (by norm_num : (0 : ℚ) < 1000)]
      have sign := abs_nonneg a
      rw [div_le_iff₀ (by norm_num)]
      linarith
    rw [value_div held value_thousand (by norm_num), result_of_le _ held small]
    simp only [Option.some.injEq, forall_eq', printable_rounded_iff]
    constructor
    · intro both
      obtain ⟨least, most⟩ := both
      constructor <;> linarith
    · intro both
      obtain ⟨least, most⟩ := both
      constructor <;> linarith

/-- A sum of a total and a call's energy that can be printed in kWh. -/
def Total (x : ℚ) : Prop := -9999999303680 ≤ x ∧ x < 100000004571136

theorem total_rounded_iff (x : ℚ) :
    -9999999488000 ≤ rounded .binary32 x ∧ rounded .binary32 x < 100000002048000 ↔ Total x := by
  have upper : rounded .binary32 x < 100000002048000 ↔ x < 100000004571136 := by
    rw [rounded_lt_iff .binary32 11920929 23 (by decide) (by decide) (by decide) _ (by norm_num) (by norm_num),
      below_odd 11920929 23 (by decide)]
    norm_num
  have lower : -9999999488000 ≤ rounded .binary32 x ↔ -9999999303680 ≤ x := by
    rw [neg_le, ← rounded_neg,
      rounded_le_iff .binary32 9536742 20 (by decide) (by decide) (by decide) _ (by norm_num) (by norm_num),
      below_even 9536742 20 (by decide), neg_le]
    norm_num
  rw [Total, upper, lower]

/-- A sum of the reading and a new offset that can be printed in Wh, or that overflows. -/
def Sum (x : ℚ) : Prop := (-9999999488 ≤ x ∧ x < 100000002048) ∨ 2 ^ 128 - 2 ^ 103 ≤ |x|

theorem result_printable_iff (x : ℚ) : (∀ a, result .binary32 x = some a → Printable a) ↔ Sum x := by
  rw [result_single, Sum, ← printable_rounded_iff]
  split
  · rename_i far
    exact iff_of_true (fun a held => by cases held) (.inr far)
  · rename_i near
    simp only [Option.some.injEq, forall_eq', near, or_false]

theorem value_energyOf (counter impulseProKwh : UInt32) :
    ∃ e, value (energyOf counter impulseProKwh) = some e ∧ 0 ≤ e ∧ e ≤ 2 ^ 32 := by
  have held := holds_toFloat32 (counter * 1000 / impulseProKwh)
  have small := roundEven_le_two_pow 24 (by decide) _ 32 (counter * 1000 / impulseProKwh).toNat_lt.le
  refine ⟨_, Holds.value_eq held, Nat.cast_nonneg _, ?_⟩
  exact_mod_cast small

theorem result_add_energy (held : value v = some a) (e : ℚ) (least : 0 ≤ e) (most : e ≤ 2 ^ 32) :
    result .binary32 (a + e) = some (rounded .binary32 (a + e)) := by
  have size := abs_le.mp (value_le held)
  have near : ¬2 ^ 128 - 2 ^ 103 ≤ |a + e| := by
    rw [not_le, abs_lt]
    constructor
    · norm_num at size ⊢
      linarith
    · norm_num at size most ⊢
      linarith
  rw [result_single, if_neg near]

variable (s : Globals)

theorem length_credited_iff (i : ℕ) (counts : s.impulseProKwh > 0) : (kiloText (creditedTotal s i)).length ≤ 14 ↔
    Total (amount (s.ausgabe i).value + amount (energyOf s.counter s.impulseProKwh)) := by
  obtain ⟨e, energy, least, most⟩ := value_energyOf s.counter s.impulseProKwh
  have credited : creditedTotal s i = (s.ausgabe i).value + energyOf s.counter s.impulseProKwh := if_pos counts
  rw [length_kiloText_iff, credited, amount_eq, amount_eq, energy, Option.getD_some]
  rcases held : value (s.ausgabe i).value with _ | a
  · rw [value_add_none (.inl held), Option.getD_none, zero_add]
    apply iff_of_true
    · intro a none
      cases none
    · norm_num at most
      exact ⟨by linarith, by linarith⟩
  · rw [value_add held energy, result_add_energy held e least most, Option.getD_some, ← total_rounded_iff]
    simp only [Option.some.injEq, forall_eq']

theorem length_submitted_iff (x : Float32) :
    (dtostrf (toDouble ((s.ausgabe 10).value + x * 1000)) 2 2).length ≤ 14 ↔
    ∀ r p, value (s.ausgabe 10).value = some r → value (x * 1000) = some p → Sum (r + p) := by
  rw [length_text_iff]
  rcases first : value (s.ausgabe 10).value with _ | r
  · rw [value_add_none (.inl first)]
    simp
  · rcases second : value (x * 1000) with _ | p
    · rw [value_add_none (.inr second)]
      simp
    · rw [value_add first second, result_printable_iff]
      simp

end Numbers

section Start

/-- A whole number of Wh that is at most that of `n` full counters. -/
def Small (n : ℕ) (v : Float32) : Prop := ∃ a, value v = some a ∧ 0 ≤ a ∧ a ≤ n * 2 ^ 32

theorem small_zero : Small 0 0 := ⟨0, by exact_mod_cast Holds.value_eq holds_zero, le_rfl, by norm_num⟩

theorem Small.mono {m n : ℕ} {v : Float32} (small : Small m v) (order : m ≤ n) : Small n v := by
  obtain ⟨a, held, least, most⟩ := small
  have wide : (m : ℚ) ≤ n := by exact_mod_cast order
  exact ⟨a, held, least, by linarith⟩

theorem small_word (word : UInt32) : Small 1 word.toFloat32 := by
  have bounded := roundEven_le_two_pow 24 (by decide) word.toNat 32 word.toNat_lt.le
  refine ⟨_, Holds.value_eq (holds_toFloat32 word), Nat.cast_nonneg _, ?_⟩
  rw [Nat.cast_one, one_mul]
  exact_mod_cast bounded

/-- Multiples of 2^32 are numbers of the format, so that no sum is rounded past the next one. -/
theorem Small.add {n : ℕ} {v : Float32} (small : Small n v) (few : n < 2 ^ 24) (word : UInt32) :
    Small (n + 1) (v + word.toFloat32) := by
  obtain ⟨a, held, least, most⟩ := small
  obtain ⟨b, held', least', most'⟩ := small_word word
  have count : (n : ℚ) ≤ 2 ^ 24 := by exact_mod_cast few.le
  have grid := rounded_grid .binary32 (n + 1) 32 few (by decide)
  have next : a + b ≤ (n + 1 : ℕ) * 2 ^ (32 : ℤ) := by
    push_cast at most' ⊢
    norm_num at most most' ⊢
    linarith
  have upper := rounded_mono .binary32 next
  have lower := rounded_mono .binary32 (add_nonneg least least')
  rw [grid] at upper
  rw [rounded_nonneg _ le_rfl, magnitude_zero] at lower
  have near : ¬2 ^ 128 - 2 ^ 103 ≤ |a + b| := by
    rw [not_le, abs_of_nonneg (add_nonneg least least')]
    push_cast at next
    norm_num at next ⊢
    linarith
  refine ⟨rounded .binary32 (a + b), ?_, lower, by exact_mod_cast upper⟩
  rw [value_add held held', result_single, if_neg near]

theorem small_run {Cell : Type*} (add : Float32 → Cell → Float32)
    (adds : ∀ v cell, add v cell = v ∨ ∃ word : UInt32, add v cell = v + word.toFloat32) (list : List Cell)
    (n : ℕ) (v : Float32) (few : n + list.length ≤ 2 ^ 24) (small : Small n v) :
    Small (n + list.length) (Runs.run add v list) := by
  induction list generalizing n v with
  | nil => exact small
  | cons cell rest ih =>
    rw [List.length_cons] at few ⊢
    have next : Small (n + 1) (add v cell) := by
      rcases adds v cell with kept | ⟨word, sum⟩
      · rw [kept]
        exact small.mono (Nat.le_succ n)
      · rw [sum]
        exact small.add (by omega) word
    have all := ih (n + 1) _ (by omega) next
    rw [Runs.run_cons]
    exact all.mono (by omega)

theorem small_setup (boot : Boot) (s : Globals) (fresh : ∀ i, (s.ausgabe i).value = 0) (i : ℕ) (yield : i < 3) :
    Small 372 ((setup boot s).ausgabe i).value := by
  have count : cells.length = 372 := by simp [cells, anzahlMonate, anzahlTage]
  obtain rfl | rfl | rfl : i = 0 ∨ i = 1 ∨ i = 2 := by omega
  · rw [setup_day, fresh]
    cases (cells.filter fun cell => Named boot.now cell).getLast? with
    | none => exact small_zero.mono (by decide)
    | some cell => exact (small_word _).mono (by decide)
  · have all := small_run (fun v cell => if cell.1 = (dateOf (localClock boot.clock)).month then
      v + (word s.eeprom.flash cell).toFloat32 else v) (fun v cell => ?_) cells 0 0 (by rw [count]; decide)
      small_zero
    · rw [setup_month, fresh]
      rwa [count] at all
    · split
      · exact .inr ⟨_, rfl⟩
      · exact .inl rfl
  · have all := small_run (fun v cell => v + (word s.eeprom.flash cell).toFloat32) (fun v cell => .inr ⟨_, rfl⟩)
      cells 0 0
      (by rw [count]; decide) small_zero
    rw [setup_year, fresh]
    rwa [count] at all

theorem HoldsDouble.value_eq {x : Float} {n : ℕ} (held : HoldsDouble x n) : valueDouble x = some (n : ℚ) := by
  unfold HoldsDouble at held
  unfold valueDouble
  generalize x.toModel.unpack = u at held
  cases held with
  | zero => exact congrArg some Nat.cast_zero.symm
  | finite mantissa exponent n positive low high same =>
    rw [number, signed_apply, Nearest.signed, same]

theorem length_yieldText {v : Float32} (small : Small 372 v) : (yieldText v).length ≤ 14 := by
  obtain ⟨a, held, least, most⟩ := small
  have divisor : valueDouble 1000 = some 1000 := by
    have same : (1000 : UInt32).toFloat = 1000 := by decide
    have held := HoldsDouble.value_eq (holdsDouble_toFloat 1000)
    rwa [same] at held
  have dividend : valueDouble (toDouble v) = some a := (valueDouble_toDouble v).trans held
  rw [yieldText, length_two_places_iff, valueDouble_div dividend divisor (by norm_num)]
  intro q quotient
  obtain ⟨same, -⟩ := Option.filter_eq_some_iff.mp quotient
  obtain rfl := Option.some.inj same
  have grid := rounded_grid .binary64 (10 ^ 10) 0 (by decide) (by decide)
  have upper := rounded_mono .binary64
    (show a / 1000 ≤ (10 ^ 10 : ℕ) * 2 ^ (0 : ℤ) by norm_num at most ⊢; linarith)
  have lower := rounded_mono .binary64 (show 0 ≤ a / 1000 by linarith)
  rw [grid] at upper
  rw [rounded_nonneg _ le_rfl, magnitude_zero] at lower
  norm_num at upper
  constructor <;> linarith

theorem value_nonneg {v : Float32} {a : ℚ} (positive : v > 0) (held : value v = some a) : 0 ≤ a := by
  have zero : (0 : Float32).toModel.unpack = .zero .positive := by
    have stands : Stands .binary32 (0 : Float32).toModel.unpack 0 := holds_zero
    exact Stands.unique stands .zero
  change decide (Float.Model.UnpackedFloat.lt (0 : Float32).toModel.unpack v.toModel.unpack = true) =
    true at positive
  rw [zero] at positive
  unfold value at held
  generalize v.toModel.unpack = u at positive held
  cases u with
  | infinity sign => cases held
  | notANumber => cases held
  | zero sign =>
    cases held
    exact le_rfl
  | finite sign mantissa exponent some =>
    cases held
    cases sign with
    | positive =>
      rw [signed_apply, Nearest.signed]
      positivity
    | negative => exact absurd (of_decide_eq_true positive) Bool.false_ne_true

/-- The offset that a start finds can be printed. -/
def Restorable (memory : Memory) : Prop := amount (restoredOffset memory) < 10 ^ 11 - 1 / 200

theorem length_restored_iff (memory : Memory) :
    (dtostrf (toDouble (restoredOffset memory)) 2 2).length ≤ 14 ↔ Restorable memory := by
  rw [length_text_iff, Restorable, amount_eq]
  rcases held : value (restoredOffset memory) with _ | a
  · apply iff_of_true
    · intro a none
      cases none
    · norm_num
  · have least : 0 ≤ a := by
      unfold restoredOffset at held
      split at held
      · rename_i positive
        exact value_nonneg positive held
      · obtain ⟨b, zero, nonnegative, -⟩ := small_zero
        rw [zero] at held
        exact Option.some.inj held ▸ nonnegative
    simp only [Option.some.injEq, forall_eq', Option.getD_some, Printable]
    exact and_iff_right (by linarith)

/-- The outputs whose texts follow running values. -/
def printed : List ℕ := [0, 1, 2, 5, 6, 10]

/-- Every text leaves room for its terminator. -/
def Fits (s : Globals) : Prop := ∀ i ∈ printed, (s.ausgabe i).printValue.length ≤ 14

theorem fits_setup_iff (boot : Boot) (flash : Memory) (spiOk : Bool) (files : Spiffs.Files) :
    Fits (setup boot (powerOn flash spiOk files)) ↔ Restorable flash := by
  have meter := setup_meter_text boot (powerOn flash spiOk files)
  have day := setup_day_text boot (powerOn flash spiOk files)
  have yield := setup_yield_text boot (powerOn flash spiOk files)
  have power := setup_power boot (powerOn flash spiOk files)
  have small := small_setup boot (powerOn flash spiOk files) fun _ => rfl
  have memory : (powerOn flash spiOk files).eeprom.flash = flash := rfl
  have zero : (dtostrf 0 2 0).length ≤ 14 := by decide
  rw [memory] at meter
  generalize setup boot (powerOn flash spiOk files) = s at *
  have other (i : ℕ) (member : i ∈ printed) (ne : i ≠ 10) : (s.ausgabe i).printValue.length ≤ 14 := by
    simp only [printed, List.mem_cons, List.not_mem_nil, or_false] at member
    rcases member with rfl | rfl | rfl | rfl | rfl | rfl
    · rw [day]
      exact length_yieldText (small 0 (by decide))
    · rw [yield 1 (.inl rfl)]
      split
      · exact length_yieldText (small 1 (by decide))
      · exact zero
    · rw [yield 2 (.inr rfl)]
      split
      · exact length_yieldText (small 2 (by decide))
      · exact zero
    · rw [(power 5 (.inl rfl)).2]
      exact zero
    · rw [(power 6 (.inr rfl)).2]
      exact zero
    · exact absurd rfl ne
  rw [← length_restored_iff, ← meter]
  constructor
  · intro fits
    exact fits 10 (by decide)
  · intro reading i member
    by_cases named : i = 10
    · rw [named]
      exact reading
    · exact other i member named

end Start

section Steps

theorem length_wattText (n : UInt32) : (wattText (powerOf n)).length ≤ 14 := by
  have held := Holds.value_eq (Power.powerOf_holds n)
  have word := n.toNat_lt
  have most := roundEven_le_two_pow 24 (by decide) (12 * n.toNat) 36 (by omega)
  have bounded : (roundEven 24 (12 * n.toNat) : ℚ) ≤ 2 ^ 36 := by exact_mod_cast most
  have least : (0 : ℚ) ≤ roundEven 24 (12 * n.toNat) := Nat.cast_nonneg _
  have exactly := length_dtostrf_le_iff (toDouble (powerOf n)) 2 0 13 (by decide) (by decide)
  rw [valueDouble_toDouble, held] at exactly
  apply exactly.mpr
  intro a same
  obtain rfl := Option.some.inj same
  norm_num
  constructor <;> linarith

/-- What a tick adds to the totals can be printed. -/
def Counted (s : Globals) (c : UInt32) : Prop := minute c % 5 = 0 → s.impulseProKwh > 0 → ∀ i, isTotal i →
  Total (amount (s.ausgabe i).value + amount (energyOf s.counter s.impulseProKwh))

theorem fits_minute_iff (c : UInt32) (io : Readings) (s : Globals) (fits : Fits s) :
    Fits (everyMinute c io s) ↔ Counted s c := by
  have listed (i : ℕ) (total : isTotal i) : i ∈ printed := by rcases total with rfl | rfl | rfl | rfl <;> decide
  by_cases tick : minute c % 5 = 0
  · have totals (i : ℕ) (total : isTotal i) : ((everyMinute c io s).ausgabe i).printValue.length ≤ 14 ↔
        (s.impulseProKwh > 0 →
          Total (amount (s.ausgabe i).value + amount (energyOf s.counter s.impulseProKwh))) := by
      rw [tick_total_text c io s tick i total]
      split
      · rename_i counts
        rw [length_credited_iff s i counts]
        exact (imp_iff_right counts).symm
      · rename_i still
        exact iff_of_true (fits i (listed i total)) fun counts => absurd counts still
    have maximum : ((everyMinute c io s).ausgabe 5).printValue.length ≤ 14 := by
      rw [(tick_maximum c io s tick).2]
      split
      · exact length_wattText s.counter
      · exact fits 5 (by decide)
    have power : ((everyMinute c io s).ausgabe 6).printValue.length ≤ 14 := by
      rw [tick_power c io s tick]
      exact length_wattText s.counter
    constructor
    · intro after _ counts i total
      exact (totals i total).mp (after i (listed i total)) counts
    · intro counted i member
      simp only [printed, List.mem_cons, List.not_mem_nil, or_false] at member
      rcases member with rfl | rfl | rfl | rfl | rfl | rfl
      · exact (totals 0 (.inl rfl)).mpr fun counts => counted tick counts 0 (.inl rfl)
      · exact (totals 1 (.inr (.inl rfl))).mpr fun counts => counted tick counts 1 (.inr (.inl rfl))
      · exact (totals 2 (.inr (.inr (.inl rfl)))).mpr fun counts => counted tick counts 2 (.inr (.inr (.inl rfl)))
      · exact maximum
      · exact power
      · exact (totals 10 (.inr (.inr (.inr rfl)))).mpr fun counts => counted tick counts 10
          (.inr (.inr (.inr rfl)))
  · apply iff_of_true
    · intro i member
      have ne : i ≠ 9 := by
        intro same
        subst same
        exact absurd member (by decide)
      rw [idle_output c io s i ne tick]
      exact fits i member
    · exact fun now => absurd now tick

/-- A new offset, added to the reading, can be printed in Wh; where one of them is no number, nothing is to be
shown. -/
def OffsetFits (args : Arguments) (s : Globals) (entry : Str × Str) : Prop :=
  entry.1 = text "offset" → ¬(toFloat (arg (text "offset") args) == s.offset) = true →
    ∀ r p, value (s.ausgabe 10).value = some r → value (toFloat (arg (text "offset") args) * 1000) = some p →
    Sum (r + p)

theorem Fits.frame {before after : Globals} (outputs : ∀ i ∈ printed, after.ausgabe i = before.ausgabe i)
    (fits : Fits before) :
    Fits after := by
  intro i member
  rw [outputs i member]
  exact fits i member

theorem fits_setOffset_iff (value : Str) (s : Globals) (fits : Fits s) : Fits (setOffset value s) ↔
    (¬(toFloat value == s.offset) = true → ∀ r p, Nearest.value (s.ausgabe 10).value = some r →
      Nearest.value (toFloat value * 1000) = some p → Sum (r + p)) := by
  by_cases same : (toFloat value == s.offset) = true
  · rw [setOffset_same s value same]
    exact iff_of_true fits fun differs => absurd same differs
  · have meter := congrArg (fun store : ValueStore => store.printValue.length) (setOffset_meter s value same).1
    have other (i : ℕ) (ne : i ≠ 10) : (setOffset value s).ausgabe i = s.ausgabe i := by
      rcases setOffset_stores value s with unchanged | stores
      · rw [unchanged]
      · exact stores.outputs i ne
    rw [shown_print] at meter
    rw [imp_iff_right same, ← length_submitted_iff, ← meter]
    constructor
    · intro after
      exact after 10 (by decide)
    · intro reading i member
      by_cases named : i = 10
      · rw [named]
        exact reading
      · rw [other i named]
        exact fits i member

theorem fits_setupArgument_iff (tmp : UInt32) (args : Arguments) (s : Globals) (entry : Str × Str)
    (fits : Fits s) :
    Fits (setupArgument tmp args entry.1 s) ↔ OffsetFits args s entry := by
  by_cases named : entry.1 = text "offset"
  · have one := Settings.setupArgument_set tmp args .offset s
    rw [Settings.Setting.name, Settings.Setting.set] at one
    rw [OffsetFits, imp_iff_right named, named, one]
    exact fits_setOffset_iff _ s fits
  · refine iff_of_true ?_ fun offset => absurd offset named
    apply setupArgument_parts (fun before after => Fits before → Fits after) (fun _ => id)
      (fun first second fits => second (first fits)) tmp args entry.1
    · intro action member value s
      have same := settings_outputs _ action member value s
      exact Fits.frame fun i _ => congrFun same.1 i
    · exact fun offset => absurd offset named
    · exact fun _ s => Fits.frame fun _ _ => rfl
    · intro _ s fits i member
      have zero : (dtostrf 0 2 2).length ≤ 14 := by decide
      rw [clearTable_output]
      split
      · exact zero
      · exact fits i member
    · exact fits

/-- The arguments that a request takes, up to one that restarts. -/
def served (args : Arguments) : Arguments :=
  (args.filter fun entry => entry.2 ≠ []).takeWhile fun entry => entry.1 ≠ text "restart"

theorem served_of_stays (args : Arguments) (stays : ¬Storage.given "restart" args) :
    served args = args.filter fun entry => entry.2 ≠ [] := by
  apply List.takeWhile_eq_self_iff.mpr
  intro entry member
  obtain ⟨listed, filled⟩ := List.mem_filter.mp member
  have other : entry.1 ≠ text "restart" := by
    intro named
    apply stays
    refine ⟨entry.2, ?_, by simpa using filled⟩
    rw [← named]
    exact listed
  simpa using other

end Steps

section Runs

/-- Every text that a request prints on the way fits, too. -/
def Between (s : Globals) : Event → Prop
  | .request _ tmp request _ => ∀ args, setupArgs request = some args →
    Runs.Throughout (fun s (entry : Str × Str) => setupArgument tmp args entry.1 s) Fits s (served args)
  | _ => True

/-- The numbers that an event prints are small enough: the sums of a tick, the offset that a start restores, and
the sums of the reading and each new offset. -/
def Bounded (s : Globals) : Event → Prop
  | .pulse => True
  | .minute c _ => Counted s c
  | .request isFile tmp request _ =>
    (∀ args, setupArgs request = some args →
      Runs.Along (fun s (entry : Str × Str) => setupArgument tmp args entry.1 s) (OffsetFits args) s
      (served args)) ∧
    ((handleRequest isFile tmp request s).restart = true →
      Restorable (handleRequest isFile tmp request s).sketch.eeprom.flash)
  | .restart _ => Restorable s.eeprom.flash

theorem between_iff (tmp : UInt32) (args : Arguments) (s : Globals) (fits : Fits s) :
    Runs.Throughout (fun s (entry : Str × Str) => setupArgument tmp args entry.1 s) Fits s (served args) ↔
      Runs.Along (fun s (entry : Str × Str) => setupArgument tmp args entry.1 s) (OffsetFits args) s
        (served args) := by
  rw [Runs.throughout_iff, and_iff_right fits]
  exact Runs.along_iff_of_invariant (fun s entry fits => fits_setupArgument_iff tmp args s entry fits)
    (fun s entry fits after => after) (served args) s fits

theorem fits_request (isFile : Str → Bool) (tmp : UInt32) (request : Request) (s : Globals) (fits : Fits s)
    (stays : ¬(handleRequest isFile tmp request s).restart = true)
    (between : ∀ args, setupArgs request = some args →
      Runs.Throughout (fun s (entry : Str × Str) => setupArgument tmp args entry.1 s) Fits s (served args)) :
    Fits (handleRequest isFile tmp request s).sketch := by
  apply Storage.handleRequest_stays Fits isFile tmp request s stays
  · exact fun after only => fits.frame fun i _ => congrFun only.ausgabe i
  · intro args called going
    have through := between args called
    rw [served_of_stays args going] at through
    rw [Settings.handleSetup_run tmp args s going]
    exact through.last

theorem fits_step_iff (s : Globals) (event : Event) (fits : Fits s) :
    Fits (step s event) ∧ Between s event ↔ Bounded s event := by
  cases event with
  | pulse => exact iff_of_true ⟨fits, trivial⟩ trivial
  | minute c io => exact (and_iff_left trivial).trans (fits_minute_iff c io s fits)
  | restart boot => exact (and_iff_left trivial).trans (fits_setup_iff boot _ _ _)
  | request isFile tmp request boot =>
    have inside : Between s (.request isFile tmp request boot) ↔ ∀ args, setupArgs request = some args →
        Runs.Along (fun s (entry : Str × Str) => setupArgument tmp args entry.1 s) (OffsetFits args) s
        (served args) :=
      forall_congr' fun args => imp_congr_right fun _ => between_iff tmp args s fits
    rw [and_comm, Bounded, inside, step_request]
    apply and_congr_right
    intro bounded
    by_cases restarts : (handleRequest isFile tmp request s).restart = true
    · rw [if_pos restarts, imp_iff_right restarts]
      exact fits_setup_iff boot _ _ _
    · rw [if_neg restarts]
      exact iff_of_true (fits_request isFile tmp request s fits restarts (inside.mpr bounded)) fun now =>
        absurd now restarts

/-- In any run from any start, every printed text fits its field exactly when the offset that the start restores
and the numbers of all events are small enough. -/
theorem texts_fit_iff (boot : Boot) (flash : Memory) (spiOk : Bool) (files : Spiffs.Files) (events : List Event) :
    (Runs.Throughout step Fits (setup boot (powerOn flash spiOk files)) events ∧
      Runs.Along step Between (setup boot (powerOn flash spiOk files)) events) ↔
      Restorable flash ∧ Runs.Along step Bounded (setup boot (powerOn flash spiOk files)) events := by
  have start := fits_setup_iff boot flash spiOk files
  generalize setup boot (powerOn flash spiOk files) = s at start ⊢
  rw [Runs.throughout_iff, start, and_assoc, Runs.along_and]
  apply and_congr_right
  intro restorable
  exact Runs.along_iff_of_invariant fits_step_iff (fun s event fits after => after.1) events s
    (start.mpr restorable)

theorem offset_too_long (s : Globals) (value : (s.ausgabe 10).value = 0) (offset : s.offset = 0) :
    ¬Fits (setOffset (text "1000000000") s) := by
  intro fits
  have differs : ¬(toFloat (text "1000000000") == s.offset) = true := by
    rw [offset]
    decide +kernel
  have long := fits 10 (by decide)
  rw [(setOffset_meter s (text "1000000000") differs).1, shown_print, value] at long
  revert long
  decide +kernel

/-- A new device shows an offset of 10^9 kWh as 999999995904.00, in fifteen characters. -/
theorem offset_overflows_field :
    ¬Runs.Throughout step Fits (setup (steady 1546329600) (powerOn (fun _ => 0) true []))
    [Offset.submission "1000000000"] := by
  intro both
  obtain ⟨-, after⟩ := both
  obtain ⟨value, offset⟩ := Offset.blank_meter (steady 1546329600)
  generalize setup (steady 1546329600) (powerOn (fun _ => 0) true []) = s at after value offset
  have outcome := Offset.tally_submission "1000000000" (by decide +kernel) s 0
  have stored : step s (Offset.submission "1000000000") = setOffset (text "1000000000") s :=
    congrArg Prod.fst outcome
  rw [stored] at after
  exact offset_too_long s value offset after

end Runs
end EspLog.Buffer

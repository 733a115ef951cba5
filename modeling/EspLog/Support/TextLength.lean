import EspLog.Support.CText
import EspLog.Support.Nearest

/-! How long a printed number is. The digits before the point and the sign decide, and both can be told
from the number. -/

namespace EspLog.TextLength
open Float.Model Float.Model.UnpackedFloat CText Nearest

theorem length_decimal_le_iff (n k : ℕ) (some : 0 < k) : (decimal n).length ≤ k ↔ n < 10 ^ k := by
  rw [decimal, List.length_map]
  exact Nat.length_toDigits_le_iff (by decide) some

theorem length_padLeft (width : ℕ) (fill : UInt8) (s : Str) :
    (padLeft width fill s).length = max width s.length := by
  rw [padLeft, List.length_append, List.length_replicate]
  omega

def point (places : ℕ) : ℕ := if places = 0 then 0 else places + 1

theorem length_fixedPoint_le_iff (number places k : ℕ) (some : 0 < k) :
    (fixedPoint number places).length ≤ k + point places ↔ number < 10 ^ (k + places) := by
  unfold fixedPoint point
  by_cases whole : places = 0
  · rw [if_pos whole, if_pos whole, whole, Nat.add_zero]
    exact length_decimal_le_iff number k some
  · have rest := (length_decimal_le_iff (number % 10 ^ places) places (by omega)).mpr
      (Nat.mod_lt _ (by positivity))
    have digits := length_decimal_le_iff (number / 10 ^ places) k some
    rw [Nat.div_lt_iff_lt_mul (by positivity), ← Nat.pow_add] at digits
    rw [if_neg whole, if_neg whole, List.length_append, List.length_cons, length_padLeft, ← digits]
    omega

theorem scaled_lt_iff (mantissa places bound : ℕ) (exponent : ℤ) :
    scaled mantissa exponent places < bound ↔ (mantissa : ℚ) * 2 ^ exponent * 10 ^ places + 1 / 2 < bound := by
  rcases le_or_gt 0 exponent with raised | lowered
  · obtain ⟨shift, rfl⟩ := Int.eq_ofNat_of_zero_le raised
    have exact : (mantissa : ℚ) * 2 ^ (shift : ℤ) * 10 ^ places = (mantissa * 2 ^ shift * 10 ^ places : ℕ) := by
      rw [zpow_natCast]
      push_cast
      rfl
    rw [scaled, if_pos raised, Int.toNat_natCast, exact]
    generalize mantissa * 2 ^ shift * 10 ^ places = n
    constructor
    · intro less
      have next : (n : ℚ) + 1 ≤ bound := by exact_mod_cast less
      linarith
    · intro less
      have below : (n : ℚ) < bound := by linarith
      exact_mod_cast below
  · obtain ⟨shift, amount⟩ := Int.eq_ofNat_of_zero_le (by omega : 0 ≤ -exponent)
    have exponent_eq : exponent = -(shift : ℤ) := by omega
    have power : (0 : ℚ) < 2 ^ shift := by positivity
    rw [scaled, if_neg (by omega), amount, Int.toNat_natCast, Nat.div_lt_iff_lt_mul (by positivity), exponent_eq,
      zpow_neg, zpow_natCast, ← Nat.cast_lt (α := ℚ)]
    push_cast
    have double : (mantissa : ℚ) * (2 ^ shift)⁻¹ * 10 ^ places + 1 / 2 =
        (2 * mantissa * 10 ^ places + 2 ^ shift) / (2 * 2 ^ shift) := by
      field_simp
    rw [double, div_lt_iff₀ (by positivity)]

/-- A printed number fits `k` digits and a sign, or one digit more where there is no sign, exactly when it is no
larger than that. -/
theorem length_dtostrf_le_iff (x : Float) (width places k : ℕ) (least : 2 ≤ k)
    (narrow : width ≤ k + 1 + point places) :
    (dtostrf x width places).length ≤ k + 1 + point places ↔
      ∀ a, valueDouble x = some a → -(10 ^ k - 1 / (2 * 10 ^ places)) < a ∧
        a < 10 ^ (k + 1) - 1 / (2 * 10 ^ places) := by
  have scale : (0 : ℚ) < 10 ^ places := by positivity
  have half : (1 : ℚ) / (2 * 10 ^ places) ≤ 1 / 2 := by
    rw [div_le_div_iff₀ (by positivity) (by norm_num), one_mul, one_mul]
    have one : (1 : ℚ) ≤ 10 ^ places := one_le_pow₀ (by norm_num)
    linarith
  have power : (1 : ℚ) ≤ 10 ^ k := one_le_pow₀ (by norm_num)
  have next : (1 : ℚ) ≤ 10 ^ (k + 1) := one_le_pow₀ (by norm_num)
  have bound (a : ℚ) (j : ℕ) : a * 10 ^ places + 1 / 2 < ((10 ^ (j + places) : ℕ) : ℚ) ↔
      a < 10 ^ j - 1 / (2 * 10 ^ places) := by
    have split : (10 : ℚ) ^ j - 1 / (2 * 10 ^ places) = (10 ^ (j + places) - 1 / 2) / 10 ^ places := by
      rw [pow_add]
      field_simp
    rw [split, lt_div_iff₀ scale]
    push_cast
    constructor <;> intro less <;> linarith
  have special : (3 : ℕ) ≤ k + 1 + point places := by omega
  unfold dtostrf valueDouble
  cases x.toModel.unpack with
  | infinity sign => exact iff_of_true special fun a held => by cases held
  | notANumber => exact iff_of_true special fun a held => by cases held
  | zero sign =>
    have digits := (length_fixedPoint_le_iff 0 places (k + 1) (by omega)).mpr (by positivity)
    dsimp only
    rw [length_padLeft]
    refine iff_of_true (by omega) fun a held => ?_
    cases held
    constructor <;> linarith
  | finite sign mantissa exponent some =>
    have number : (0 : ℚ) < mantissa * 2 ^ exponent := by positivity
    simp only [Nearest.number, Option.some.injEq, forall_eq']
    cases sign with
    | positive =>
      have digits := length_fixedPoint_le_iff (scaled mantissa exponent places) places (k + 1) (by omega)
      rw [scaled_lt_iff, bound] at digits
      rw [signed_apply, length_padLeft, max_le_iff, and_iff_right narrow, digits, Nearest.signed]
      exact (and_iff_right (by linarith)).symm
    | negative =>
      have digits := length_fixedPoint_le_iff (scaled mantissa exponent places) places k (by omega)
      rw [scaled_lt_iff, bound] at digits
      rw [signed_apply, length_padLeft, max_le_iff, and_iff_right narrow, List.length_cons, Nearest.signed]
      constructor
      · intro fits
        have below := digits.mp (by omega)
        constructor <;> linarith
      · intro range
        have fits := digits.mpr (by linarith)
        omega

end EspLog.TextLength

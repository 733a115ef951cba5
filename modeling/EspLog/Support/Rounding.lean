import EspLog.Support.ExactFloat

/-! Rounding to nearest even on natural numbers of any size. A float in canonical form stands for
one natural number, and conversion and addition yield the form of the rounded result. -/

namespace EspLog.Rounding
open Float.Model Float.Model.UnpackedFloat ExactFloat

section Nearest

/-- The natural number nearest to `x`, the even one of two that are as near. -/
def nearest (x : ℚ) : ℕ :=
  if x < ⌊x⌋₊ + 1 / 2 then ⌊x⌋₊ else if x = ⌊x⌋₊ + 1 / 2 then ⌊x⌋₊ + ⌊x⌋₊ % 2 else ⌊x⌋₊ + 1

theorem nearest_natCast (n : ℕ) : nearest n = n := by
  rw [nearest, Nat.floor_natCast, if_pos (by linarith)]

theorem floor_le_nearest (x : ℚ) : ⌊x⌋₊ ≤ nearest x ∧ nearest x ≤ ⌊x⌋₊ + 1 := by
  unfold nearest
  split
  · omega
  · split <;> omega

theorem nearest_mono (x y : ℚ) (order : x ≤ y) : nearest x ≤ nearest y := by
  have floors := Nat.floor_mono order
  rcases floors.lt_or_eq with less | same
  · have first := (floor_le_nearest x).2
    have second := (floor_le_nearest y).1
    omega
  · unfold nearest
    rw [same]
    split
    · split
      · exact le_rfl
      · split <;> omega
    · rename_i below
      have above : ¬y < ⌊y⌋₊ + 1 / 2 := by
        intro less
        exact below (by linarith)
      rw [if_neg above]
      split
      · split <;> omega
      · rename_i half
        have more : ¬y = ⌊y⌋₊ + 1 / 2 := by
          intro equal
          exact half (by linarith)
        rw [if_neg more]

end Nearest
section Significand
variable (p : ℕ)

/-- The distance between neighbouring numbers of `p` bits in the binade of `n`. -/
def spacing (n : ℕ) : ℕ := 2 ^ (n.log2 + 1 - p)

/-- `n` rounded to `p` bits. -/
def roundEven (n : ℕ) : ℕ := nearest (n / spacing p n) * spacing p n

theorem spacing_pos (n : ℕ) : 0 < spacing p n := Nat.two_pow_pos _

theorem spacing_of_fits (n : ℕ) (fits : n.log2 < p) : spacing p n = 1 := by
  have none : n.log2 + 1 - p = 0 := by omega
  rw [spacing, none, Nat.pow_zero]

theorem roundEven_of_dvd (n : ℕ) (whole : spacing p n ∣ n) : roundEven p n = n := by
  obtain ⟨k, parts⟩ := whole
  have positive : (spacing p n : ℚ) ≠ 0 := by exact_mod_cast (spacing_pos p n).ne'
  have quotient : (n : ℚ) / spacing p n = k := by
    rw [div_eq_iff positive, mul_comm]
    exact_mod_cast parts
  rw [roundEven, quotient, nearest_natCast, Nat.mul_comm]
  exact parts.symm

theorem roundEven_of_fits (n : ℕ) (fits : n.log2 < p) : roundEven p n = n := by
  apply roundEven_of_dvd
  rw [spacing_of_fits p n fits]
  exact one_dvd n

theorem log2_lt (n : ℕ) (positive : 0 < p) (small : n < 2 ^ p) : n.log2 < p := by
  by_cases zero : n = 0
  · rw [zero, Nat.log2_zero]
    exact positive
  · exact (Nat.log2_lt zero).mpr small

theorem roundEven_of_lt (n : ℕ) (positive : 0 < p) (small : n < 2 ^ p) : roundEven p n = n :=
  roundEven_of_fits p n (log2_lt p n positive small)

@[simp] theorem roundEven_zero : roundEven p 0 = 0 :=
  roundEven_of_dvd p 0 (dvd_zero _)

/-- What rounding takes away from `n`; negative where it rounds up. -/
def lost (n : ℕ) : ℤ :=
  if 2 * (n % spacing p n) < spacing p n ∨ 2 * (n % spacing p n) = spacing p n ∧ n / spacing p n % 2 = 0 then
    (n % spacing p n : ℕ)
  else (n % spacing p n : ℕ) - spacing p n

theorem roundEven_eq (n : ℕ) : (roundEven p n : ℤ) = n - lost p n := by
  have positive : (0 : ℚ) < spacing p n := by exact_mod_cast spacing_pos p n
  have parts := Nat.div_add_mod n (spacing p n)
  have floor : ⌊(n : ℚ) / spacing p n⌋₊ = n / spacing p n := Nat.floor_div_eq_div n (spacing p n)
  have value : (n : ℚ) = spacing p n * (n / spacing p n : ℕ) + (n % spacing p n : ℕ) := by
    exact_mod_cast parts.symm
  have below : (n : ℚ) / spacing p n < (n / spacing p n : ℕ) + 1 / 2 ↔ 2 * (n % spacing p n) < spacing p n := by
    rw [div_lt_iff₀ positive, ← Nat.cast_lt (α := ℚ)]
    push_cast
    constructor <;> intro less <;> linarith
  have half : (n : ℚ) / spacing p n = (n / spacing p n : ℕ) + 1 / 2 ↔ 2 * (n % spacing p n) = spacing p n := by
    rw [div_eq_iff positive.ne', ← Nat.cast_inj (R := ℚ)]
    push_cast
    constructor <;> intro same <;> linarith
  rw [roundEven, lost, nearest, floor]
  simp only [below, half]
  have kept : ((n / spacing p n * spacing p n : ℕ) : ℤ) = n - (n % spacing p n : ℕ) := by
    rw [Nat.mul_comm]
    omega
  have raised : (((n / spacing p n + 1) * spacing p n : ℕ) : ℤ) = n - ((n % spacing p n : ℕ) - spacing p n) := by
    rw [Nat.add_mul, Nat.one_mul, Nat.cast_add, kept]
    omega
  by_cases less : 2 * (n % spacing p n) < spacing p n
  · rw [if_pos less, if_pos (.inl less)]
    exact kept
  · by_cases tie : 2 * (n % spacing p n) = spacing p n
    · rcases Nat.mod_two_eq_zero_or_one (n / spacing p n) with even | odd
      · rw [if_neg less, if_pos tie, if_pos (.inr ⟨tie, even⟩), even, Nat.add_zero]
        exact kept
      · have up : ¬(2 * (n % spacing p n) < spacing p n ∨ 2 * (n % spacing p n) = spacing p n ∧
            n / spacing p n % 2 = 0) := by
          omega
        rw [if_neg less, if_pos tie, if_neg up, odd]
        exact raised
    · have up : ¬(2 * (n % spacing p n) < spacing p n ∨ 2 * (n % spacing p n) = spacing p n ∧
          n / spacing p n % 2 = 0) := by
        omega
      rw [if_neg less, if_neg tie, if_neg up]
      exact raised

variable (positive : 0 < p)
include positive

/-- Rounding stays inside the binade, or ends at its upper end. -/
theorem roundEven_bounds (n : ℕ) (nonzero : n ≠ 0) :
    2 ^ n.log2 ≤ roundEven p n ∧ roundEven p n ≤ 2 ^ (n.log2 + 1) := by
  have lower := Nat.log2_self_le nonzero
  have upper := Nat.lt_log2_self (n := n)
  by_cases fits : n.log2 < p
  · rw [roundEven_of_fits p n fits]
    exact ⟨lower, upper.le⟩
  have above : (0 : ℚ) < spacing p n := by exact_mod_cast spacing_pos p n
  have first : 2 ^ (p - 1) * spacing p n = 2 ^ n.log2 := by
    rw [spacing, ← Nat.pow_add]
    congr 1
    omega
  have last : 2 ^ p * spacing p n = 2 ^ (n.log2 + 1) := by
    rw [spacing, ← Nat.pow_add]
    congr 1
    omega
  rw [← first] at lower ⊢
  rw [← last] at upper ⊢
  unfold roundEven
  constructor
  · apply Nat.mul_le_mul_right
    have quotient : ((2 ^ (p - 1) : ℕ) : ℚ) ≤ n / spacing p n := by
      rw [le_div_iff₀ above]
      exact_mod_cast lower
    have order := nearest_mono _ _ quotient
    rwa [nearest_natCast] at order
  · apply Nat.mul_le_mul_right
    have quotient : (n : ℚ) / spacing p n ≤ (2 ^ p : ℕ) := by
      rw [div_le_iff₀ above]
      exact_mod_cast upper.le
    have order := nearest_mono _ _ quotient
    rwa [nearest_natCast] at order

theorem roundEven_ne_zero (n : ℕ) (nonzero : n ≠ 0) : roundEven p n ≠ 0 := by
  have bounds := roundEven_bounds p positive n nonzero
  have power := Nat.two_pow_pos n.log2
  omega

theorem roundEven_le_two_pow (n k : ℕ) (bounded : n ≤ 2 ^ k) : roundEven p n ≤ 2 ^ k := by
  by_cases zero : n = 0
  · rw [zero, roundEven_zero]
    exact Nat.zero_le _
  rcases bounded.lt_or_eq with inside | top
  · have log := (Nat.log2_lt zero).mpr inside
    exact (roundEven_bounds p positive n zero).2.trans (Nat.pow_le_pow_right (by decide) log)
  · apply le_of_eq
    rw [top]
    apply roundEven_of_dvd
    rw [spacing, Nat.log2_two_pow]
    exact pow_dvd_pow 2 (by omega)

theorem roundEven_mono (m n : ℕ) (order : m ≤ n) : roundEven p m ≤ roundEven p n := by
  by_cases zero : m = 0
  · rw [zero, roundEven_zero]
    exact Nat.zero_le _
  have nonzero : n ≠ 0 := by omega
  have logs : m.log2 ≤ n.log2 := by
    rw [Nat.log2_eq_log_two, Nat.log2_eq_log_two]
    exact Nat.log_mono_right order
  rcases logs.lt_or_eq with less | same
  · have first := (roundEven_bounds p positive m zero).2
    have second := (roundEven_bounds p positive n nonzero).1
    have powers : 2 ^ (m.log2 + 1) ≤ 2 ^ n.log2 := Nat.pow_le_pow_right (by decide) less
    exact first.trans (powers.trans second)
  · have steps : spacing p m = spacing p n := by rw [spacing, spacing, same]
    unfold roundEven
    rw [steps]
    apply Nat.mul_le_mul_right
    apply nearest_mono
    exact div_le_div_of_nonneg_right (by exact_mod_cast order) (by positivity)

/-- What an addition changes: it reaches the next binade, or adds more than half of the spacing,
or just half of it where the tie goes up. -/
def Raises (n tmp : ℕ) : Prop :=
  2 ^ (n.log2 + 1) ≤ n + tmp ∨ spacing p n < 2 * tmp ∨ 2 * tmp = spacing p n ∧ n / spacing p n % 2 = 1

omit positive in
instance (n tmp : ℕ) : Decidable (Raises p n tmp) := inferInstanceAs (Decidable (_ ∨ _))

omit positive in
theorem spacing_dvd (n : ℕ) (held : roundEven p n = n) : spacing p n ∣ n :=
  ⟨nearest (n / spacing p n), by rw [Nat.mul_comm]; exact held.symm⟩

theorem lt_roundEven_add (n tmp : ℕ) (held : roundEven p n = n) (some : 0 < tmp) :
    n < roundEven p (n + tmp) ↔ Raises p n tmp := by
  by_cases next : 2 ^ (n.log2 + 1) ≤ n + tmp
  · apply iff_of_true _ (.inl next)
    have rounded := roundEven_mono p positive _ _ next
    have power : roundEven p (2 ^ (n.log2 + 1)) = 2 ^ (n.log2 + 1) := by
      apply roundEven_of_dvd
      rw [spacing, Nat.log2_two_pow]
      exact pow_dvd_pow 2 (by omega)
    have above := Nat.lt_log2_self (n := n)
    omega
  rw [Raises, or_iff_right next]
  have gap := spacing_pos p n
  rcases n.eq_zero_or_pos with rfl | nonzero
  · have rounded := roundEven_ne_zero p positive (0 + tmp) (by omega)
    have one : spacing p 0 = 1 := spacing_of_fits p 0 (by rw [Nat.log2_zero]; exact positive)
    exact iff_of_true (Nat.pos_of_ne_zero rounded) (.inl (by omega))
  · have lower := Nat.log2_self_le nonzero.ne'
    have binade : (n + tmp).log2 = n.log2 := (Nat.log2_eq_iff (by omega)).mpr ⟨by omega, by omega⟩
    have same : spacing p (n + tmp) = spacing p n := by rw [spacing, spacing, binade]
    have value := roundEven_eq p (n + tmp)
    obtain ⟨k, parts⟩ := spacing_dvd p n held
    have quotient : n / spacing p n = k := Nat.div_eq_of_eq_mul_right gap parts
    rw [lost, same] at value
    generalize spacing p n = width at gap parts quotient value
    by_cases small : tmp < width
    · have remainder : (n + tmp) % width = tmp := by rw [parts, Nat.mul_add_mod, Nat.mod_eq_of_lt small]
      have floor : (n + tmp) / width = k := by
        rw [parts, Nat.mul_add_div gap, Nat.div_eq_of_lt small, Nat.add_zero]
      rw [remainder, floor] at value
      rw [quotient]
      split at value <;>
      omega
    · have less := Nat.mod_lt (n + tmp) gap
      split at value <;>
      omega

end Significand

section Bits

/-- A non-negative rational cut to an integer, with the two bits that decide how it is rounded. -/
def extended (x : ℚ) : ExtendedMantissa := ⟨⌊x⌋₊, ⌊2 * x⌋₊ % 2 != 0, decide (2 * x ≠ ⌊2 * x⌋₊)⟩

theorem extended_natCast (n : ℕ) : extended n = ⟨n, false, false⟩ := by
  have double : 2 * (n : ℚ) = (2 * n : ℕ) := by push_cast; rfl
  rw [extended, double, Nat.floor_natCast, Nat.floor_natCast]
  simp

theorem shiftRightOne_extended (x : ℚ) : (extended x).shiftRightOne = extended (x / 2) := by
  have double : 2 * (x / 2) = x := by ring
  have sticky : (⌊2 * x⌋₊ % 2 ≠ 0 ∨ 2 * x ≠ ⌊2 * x⌋₊) ↔ x ≠ ⌊x⌋₊ := by
    rw [← not_iff_not, not_or, not_not, not_not, not_not]
    constructor
    · intro both
      obtain ⟨even, whole⟩ := both
      obtain ⟨k, twice⟩ := Nat.dvd_of_mod_eq_zero even
      rw [twice, Nat.cast_mul, Nat.cast_two] at whole
      have equal : x = k := by linarith
      rw [equal, Nat.floor_natCast]
    · intro whole
      have twice : 2 * x = (2 * ⌊x⌋₊ : ℕ) := by
        rw [Nat.cast_mul, Nat.cast_two, ← whole]
      rw [twice, Nat.floor_natCast]
      exact ⟨Nat.mul_mod_right _ _, rfl⟩
  have floor : ⌊x / 2⌋₊ = ⌊x⌋₊ / 2 := by
    have cast := Nat.floor_div_natCast x 2
    exact_mod_cast cast
  rw [extended, extended, ExtendedMantissa.shiftRightOne, double, floor]
  congr 1
  rw [← Bool.coe_iff_coe]
  simpa using sticky

theorem shiftRight_extended (x : ℚ) (s : ℕ) : extended x >>> s = extended (x / 2 ^ s) := by
  induction s generalizing x with
  | zero => simp [HShiftRight.hShiftRight, Nat.repeat]
  | succ s ih =>
    change ExtendedMantissa.shiftRightOne (extended x >>> s) = _
    rw [ih, shiftRightOne_extended, pow_succ, div_div]

theorem roundedMantissa_extended (x : ℚ) (nonnegative : 0 ≤ x) : (extended x).roundedMantissa = nearest x := by
  have below := Nat.floor_le nonnegative
  have above := Nat.lt_floor_add_one x
  by_cases half : x < ⌊x⌋₊ + 1 / 2
  · have floor : ⌊2 * x⌋₊ = 2 * ⌊x⌋₊ := by
      rw [Nat.floor_eq_iff (by linarith)]
      push_cast
      constructor <;> linarith
    rw [nearest, if_pos half, extended, floor, Nat.mul_mod_right]
    by_cases whole : 2 * x = (2 * ⌊x⌋₊ : ℕ)
    · rw [decide_eq_false (not_not.mpr whole)]
      rfl
    · rw [decide_eq_true whole]
      rfl
  · have floor : ⌊2 * x⌋₊ = 2 * ⌊x⌋₊ + 1 := by
      rw [Nat.floor_eq_iff (by linarith)]
      push_cast
      constructor <;> linarith
    have odd : (2 * ⌊x⌋₊ + 1) % 2 = 1 := by omega
    have tie : x = ⌊x⌋₊ + 1 / 2 ↔ 2 * x = (2 * ⌊x⌋₊ + 1 : ℕ) := by
      push_cast
      constructor <;> intro equal <;> linarith
    rw [nearest, if_neg half, extended, floor, odd]
    by_cases whole : 2 * x = (2 * ⌊x⌋₊ + 1 : ℕ)
    · rw [if_pos (tie.mpr whole), decide_eq_false (not_not.mpr whole)]
      rfl
    · rw [if_neg fun equal => whole (tie.mp equal), decide_eq_true whole]
      rfl

end Bits

section Forms
variable (spec : Format)

/-- The canonical form of a natural number whose significand fits the format. -/
inductive Stands : UnpackedFloat → ℕ → Prop
  | zero : Stands (.zero .positive) 0
  | finite (mantissa : ℕ) (exponent : ℤ) (n : ℕ) (positive : 0 < mantissa)
      (low : 2 ^ (spec.mantissaBits - 1) ≤ mantissa) (high : mantissa < 2 ^ spec.mantissaBits)
      (value : (mantissa : ℚ) * 2 ^ exponent = n) : Stands (.finite .positive mantissa exponent positive) n

theorem log2_scaled (mantissa n : ℕ) (exponent : ℤ) (positive : mantissa ≠ 0)
    (value : (mantissa : ℚ) * 2 ^ exponent = n) :
    (mantissa.log2 : ℤ) + exponent = n.log2 := by
  rcases le_or_gt 0 exponent with raised | lowered
  · obtain ⟨shift, rfl⟩ := Int.eq_ofNat_of_zero_le raised
    have whole : mantissa * 2 ^ shift = n := by
      rw [zpow_natCast] at value
      exact_mod_cast value
    rw [← whole, log2_shifted mantissa shift positive]
    push_cast
    rfl
  · obtain ⟨shift, back⟩ := Int.eq_ofNat_of_zero_le (by omega : 0 ≤ -exponent)
    have exponent_eq : exponent = -(shift : ℤ) := by omega
    have whole : mantissa = n * 2 ^ shift := by
      rw [exponent_eq, zpow_neg, zpow_natCast, mul_inv_eq_iff_eq_mul₀ (by positivity)] at value
      exact_mod_cast value
    have nonzero : n ≠ 0 := by
      intro same
      subst same
      exact positive (by rw [whole, Nat.zero_mul])
    rw [whole, log2_shifted n shift nonzero, exponent_eq]
    push_cast
    omega

theorem scaled_pos {mantissa n : ℕ} {exponent : ℤ} (value : (mantissa : ℚ) * 2 ^ exponent = n) :
    0 < mantissa ↔ 0 < n := by
  have scale : (0 : ℚ) < 2 ^ exponent := by positivity
  rw [← Nat.cast_pos (α := ℚ), ← Nat.cast_pos (α := ℚ), ← value, mul_pos_iff_of_pos_right scale]

theorem mantissa_log2 (mantissa : ℕ) (low : 2 ^ (spec.mantissaBits - 1) ≤ mantissa)
    (high : mantissa < 2 ^ spec.mantissaBits) :
    mantissa.log2 + 1 = spec.mantissaBits := by
  have bits : spec.mantissaBits = 1 + spec.mantissaBitsWithoutImplicit := rfl
  have power := Nat.two_pow_pos (spec.mantissaBits - 1)
  have nonzero : mantissa ≠ 0 := by omega
  have index : spec.mantissaBits - 1 + 1 = spec.mantissaBits := by omega
  have log := (Nat.log2_eq_iff nonzero).mpr ⟨low, by rw [index]; exact high⟩
  omega

variable {spec}

/-- A natural number has one canonical form. -/
theorem Stands.unique {x y : UnpackedFloat} {n : ℕ} (first : Stands spec x n) (second : Stands spec y n) :
    x = y := by
  cases first with
  | zero =>
    cases second with
    | zero => rfl
    | finite mantissa exponent n positive low high value =>
      exact absurd ((scaled_pos value).mp positive) (lt_irrefl 0)
  | finite mantissa exponent n positive low high value =>
    cases second with
    | zero =>
      exact absurd ((scaled_pos value).mp positive) (lt_irrefl 0)
    | finite mantissa' exponent' n positive' low' high' value' =>
      have log := log2_scaled mantissa n exponent positive.ne' value
      have log' := log2_scaled mantissa' n exponent' positive'.ne' value'
      have bits := mantissa_log2 spec mantissa low high
      have bits' := mantissa_log2 spec mantissa' low' high'
      have exponents : exponent = exponent' := by omega
      subst exponents
      have mantissas : mantissa = mantissa' := by
        have same := value.trans value'.symm
        have scale : (2 : ℚ) ^ exponent ≠ 0 := by positivity
        exact_mod_cast mul_right_cancel₀ scale same
      subst mantissas
      rfl

variable (spec) (roomy : spec.minExponent ≤ 1 - (spec.mantissaBits : ℤ))

theorem mantissaBits_pos : 0 < spec.mantissaBits := by
  have bits : spec.mantissaBits = 1 + spec.mantissaBitsWithoutImplicit := rfl
  omega

theorem rounded_quotient (n : ℕ) (nonzero : n ≠ 0) :
    (nearest (n / 2 ^ ((n.log2 : ℤ) + 1 - spec.mantissaBits)) : ℚ) * 2 ^ ((n.log2 : ℤ) + 1 - spec.mantissaBits) =
      roundEven spec.mantissaBits n := by
  by_cases fits : n.log2 < spec.mantissaBits
  · obtain ⟨shift, amount⟩ : ∃ shift : ℕ, (n.log2 : ℤ) + 1 - spec.mantissaBits = -(shift : ℤ) :=
      ⟨spec.mantissaBits - 1 - n.log2, by omega⟩
    have quotient : (n : ℚ) / 2 ^ (-(shift : ℤ)) = (n * 2 ^ shift : ℕ) := by
      rw [zpow_neg, zpow_natCast, div_inv_eq_mul]
      push_cast
      rfl
    rw [roundEven_of_fits _ n fits, amount, quotient, nearest_natCast, zpow_neg, zpow_natCast]
    push_cast
    field_simp
  · have amount : (n.log2 : ℤ) + 1 - spec.mantissaBits = (n.log2 + 1 - spec.mantissaBits : ℕ) := by omega
    rw [amount, zpow_natCast, roundEven, spacing]
    push_cast
    rfl

theorem roundEven_significand (n : ℕ) (nonzero : n ≠ 0) : ∃ mantissa : ℕ, 2 ^ (spec.mantissaBits - 1) ≤ mantissa ∧
    mantissa < 2 ^ spec.mantissaBits ∧ (mantissa : ℚ) *
      2 ^ (((roundEven spec.mantissaBits n).log2 : ℤ) + 1 - spec.mantissaBits) =
        roundEven spec.mantissaBits n := by
  have bits := mantissaBits_pos spec
  have value := rounded_quotient spec n nonzero
  obtain ⟨low, high⟩ := roundEven_bounds spec.mantissaBits bits n nonzero
  have rounded := roundEven_ne_zero spec.mantissaBits bits n nonzero
  generalize nearest (n / 2 ^ ((n.log2 : ℤ) + 1 - spec.mantissaBits)) = q at value
  have positive : q ≠ 0 := ((scaled_pos value).mpr (Nat.pos_of_ne_zero rounded)).ne'
  have log := log2_scaled q _ _ positive value
  rcases high.lt_or_eq with inside | top
  · have same : (roundEven spec.mantissaBits n).log2 = n.log2 := (Nat.log2_eq_iff rounded).mpr ⟨low, inside⟩
    have width : q.log2 = spec.mantissaBits - 1 := by omega
    have range := (Nat.log2_eq_iff positive).mp width
    have index : spec.mantissaBits - 1 + 1 = spec.mantissaBits := by omega
    rw [index] at range
    exact ⟨q, range.1, range.2, by rw [same]; exact value⟩
  · have next : (roundEven spec.mantissaBits n).log2 = n.log2 + 1 := by rw [top, Nat.log2_two_pow]
    refine ⟨2 ^ (spec.mantissaBits - 1), le_rfl, Nat.pow_lt_pow_right (by decide) (by omega), ?_⟩
    rw [next, top]
    push_cast
    rw [← zpow_natCast, ← zpow_natCast, ← zpow_add₀ (by norm_num)]
    congr 1
    omega

include roomy

theorem targetExponent_eq (mantissa n : ℕ) (exponent : ℤ) (positive : mantissa ≠ 0)
    (value : (mantissa : ℚ) * 2 ^ exponent = n) :
    spec.targetExponent (totalExponent mantissa exponent) = n.log2 + 1 - spec.mantissaBits := by
  have log := log2_scaled mantissa n exponent positive value
  rw [Format.targetExponent, totalExponent]
  omega

theorem shiftToTargetExponent_eq (mantissa n : ℕ) (exponent : ℤ) (positive : mantissa ≠ 0)
    (value : (mantissa : ℚ) * 2 ^ exponent = n) (below : exponent ≤ n.log2 + 1 - spec.mantissaBits) :
    shiftToTargetExponent spec mantissa exponent .exact =
      (extended (n / 2 ^ ((n.log2 : ℤ) + 1 - spec.mantissaBits)), (n.log2 : ℤ) + 1 - spec.mantissaBits) := by
  simp only [shiftToTargetExponent, targetExponent_eq spec roomy mantissa n exponent positive value,
    shiftToExponent, ExtendedMantissa.ofMantissaAndAccuracy]
  obtain ⟨shift, amount⟩ := Int.eq_ofNat_of_zero_le (Int.sub_nonneg_of_le below)
  have target : (n.log2 : ℤ) + 1 - spec.mantissaBits = exponent + shift := by omega
  have quotient : (mantissa : ℚ) / 2 ^ shift = n / 2 ^ ((n.log2 : ℤ) + 1 - spec.mantissaBits) := by
    rw [target, zpow_add₀ (by norm_num), zpow_natCast, ← value, mul_comm, mul_div_mul_left _ _ (by positivity)]
  rw [amount, Int.toNat_natCast, ← extended_natCast, shiftRight_extended, quotient, target]

theorem stands_roundWithAccuracy (mantissa n : ℕ) (exponent : ℤ) (nonzero : n ≠ 0)
    (value : (mantissa : ℚ) * 2 ^ exponent = n) (below : exponent ≤ n.log2 + 1 - spec.mantissaBits) :
    Stands spec (roundWithAccuracy spec .positive mantissa exponent .exact) (roundEven spec.mantissaBits n) := by
  have bits := mantissaBits_pos spec
  have positive : mantissa ≠ 0 := ((scaled_pos value).mpr (Nat.pos_of_ne_zero nonzero)).ne'
  have rounded := rounded_quotient spec n nonzero
  have roundedNonzero := roundEven_ne_zero spec.mantissaBits bits n nonzero
  have quotientNonzero : nearest (n / 2 ^ ((n.log2 : ℤ) + 1 - spec.mantissaBits)) ≠ 0 :=
    ((scaled_pos rounded).mpr (Nat.pos_of_ne_zero roundedNonzero)).ne'
  have order : (n.log2 : ℤ) + 1 - spec.mantissaBits ≤
      (roundEven spec.mantissaBits n).log2 + 1 - spec.mantissaBits := by
    have low := (roundEven_bounds spec.mantissaBits bits n nonzero).1
    have log := (Nat.le_log2 roundedNonzero).mpr low
    omega
  obtain ⟨significand, low, high, whole⟩ := roundEven_significand spec n nonzero
  have first := shiftToTargetExponent_eq spec roomy mantissa n exponent positive value below
  have second := shiftToTargetExponent_eq spec roomy _ _ _ quotientNonzero rounded order
  have cut := roundedMantissa_extended (n / 2 ^ ((n.log2 : ℤ) + 1 - spec.mantissaBits)) (by positivity)
  have exact : (roundEven spec.mantissaBits n : ℚ) / 2 ^
      (((roundEven spec.mantissaBits n).log2 : ℤ) + 1 - spec.mantissaBits) =
      significand := by
    rw [div_eq_iff (by positivity)]
    exact whole.symm
  have filled : 0 < significand := (Nat.two_pow_pos _).trans_le low
  have form : roundWithAccuracy spec .positive mantissa exponent .exact = .finite .positive significand
      ((roundEven spec.mantissaBits n).log2 + 1 - spec.mantissaBits) filled := by
    simp only [roundWithAccuracy, first, cut, second, exact, extended_natCast, dif_neg filled.ne']
  rw [form]
  exact .finite _ _ _ filled low high whole

theorem stands_round (mantissa n : ℕ) (exponent : ℤ) (nonzero : n ≠ 0)
    (value : (mantissa : ℚ) * 2 ^ exponent = n) :
    Stands spec (UnpackedFloat.round spec .positive mantissa exponent) (roundEven spec.mantissaBits n) := by
  have positive : mantissa ≠ 0 := ((scaled_pos value).mpr (Nat.pos_of_ne_zero nonzero)).ne'
  simp only [UnpackedFloat.round, targetExponent_eq spec roomy mantissa n exponent positive value,
    decreaseExponent]
  apply stands_roundWithAccuracy spec roomy _ n _ nonzero
  · rw [Nat.shiftLeft_eq, ← value]
    push_cast
    rw [mul_assoc, ← zpow_natCast, ← zpow_add₀ (by norm_num)]
    congr 2
    omega
  · omega

theorem stands_ofNat (n : ℕ) : Stands spec (UnpackedFloat.ofNat spec n) (roundEven spec.mantissaBits n) := by
  by_cases zero : n = 0
  · subst zero
    rw [roundEven_zero]
    exact .zero
  · have above : compare (n : ℤ) 0 = .gt := by
      rw [Int.compare_eq_gt]
      omega
    simp only [UnpackedFloat.ofNat, UnpackedFloat.ofInt, UnpackedFloat.normalize, above, Int.toNat_natCast]
    exact stands_round spec roomy n n 0 zero (by rw [zpow_zero, mul_one])

end Forms
section Operations
variable {spec : Format} {x y : UnpackedFloat} {m n : ℕ}

theorem Stands.exponent {mantissa : ℕ} {exponent : ℤ} {positive : 0 < mantissa}
    (stands : Stands spec (.finite .positive mantissa exponent positive) n) :
    exponent = n.log2 + 1 - spec.mantissaBits ∧ mantissa.log2 + 1 = spec.mantissaBits := by
  cases stands with
  | finite _ _ _ _ low high value =>
    have log := log2_scaled mantissa n exponent positive.ne' value
    have bits := mantissa_log2 spec mantissa low high
    exact ⟨by omega, bits⟩

theorem Stands.rounded (stands : Stands spec x n) : roundEven spec.mantissaBits n = n := by
  cases stands with
  | zero => exact roundEven_zero _
  | finite mantissa exponent n positive low high value =>
    have exponent_eq := (Stands.finite mantissa exponent n positive low high value).exponent.1
    by_cases fits : n.log2 < spec.mantissaBits
    · exact roundEven_of_fits _ n fits
    · apply roundEven_of_dvd
      have amount : exponent = (n.log2 + 1 - spec.mantissaBits : ℕ) := by omega
      rw [amount, zpow_natCast] at value
      exact ⟨mantissa, by rw [spacing, Nat.mul_comm]; exact_mod_cast value.symm⟩

theorem Stands.add (roomy : spec.minExponent ≤ 1 - (spec.mantissaBits : ℤ)) (first : Stands spec x m)
    (second : Stands spec y n) :
    Stands spec (UnpackedFloat.add spec x y) (roundEven spec.mantissaBits (m + n)) := by
  cases first with
  | zero =>
    rw [Nat.zero_add, second.rounded]
    cases second with
    | zero => exact .zero
    | finite mantissa exponent n positive low high value => exact .finite _ _ _ positive low high value
  | finite mantissa exponent m positive low high value =>
    cases second with
    | zero =>
      have held := Stands.finite mantissa exponent m positive low high value
      rw [Nat.add_zero, held.rounded]
      exact held
    | finite mantissa' exponent' n positive' low' high' value' =>
      simp only [UnpackedFloat.add, decreaseExponent, Sign.apply]
      have aligned (mantissa : ℕ) (exponent : ℤ) (n : ℕ) (value : (mantissa : ℚ) * 2 ^ exponent = n) (target : ℤ)
          (below : target ≤ exponent) : ((mantissa <<< (exponent - target).toNat : ℕ) : ℚ) * 2 ^ target = n := by
        rw [Nat.shiftLeft_eq, ← value]
        push_cast
        rw [mul_assoc, ← zpow_natCast, ← zpow_add₀ (by norm_num)]
        congr 2
        omega
      have one := aligned mantissa exponent m value (min exponent exponent') (min_le_left _ _)
      have other := aligned mantissa' exponent' n value' (min exponent exponent') (min_le_right _ _)
      have some : 0 < mantissa <<< (exponent - min exponent exponent').toNat := by
        rw [Nat.shiftLeft_eq]
        positivity
      generalize mantissa <<< (exponent - min exponent exponent').toNat = first at one some
      generalize mantissa' <<< (exponent' - min exponent exponent').toNat = second at other
      have above : compare ((first : ℤ) + second) 0 = .gt := by
        rw [Int.compare_eq_gt]
        omega
      have total : ((first : ℤ) + second).toNat = first + second := by omega
      simp only [UnpackedFloat.normalize, above, total]
      apply stands_round spec roomy
      · have part := (scaled_pos one).mp some
        omega
      · push_cast
        rw [add_mul, one, other]

theorem Stands.compare (first : Stands spec x m) (second : Stands spec y n) :
    UnpackedFloat.compare x y = some (Ord.compare m n) := by
  cases first with
  | zero =>
    cases second with
    | zero => rfl
    | finite mantissa exponent n positive low high value =>
      have below : Ord.compare 0 n = .lt := Nat.compare_eq_lt.mpr ((scaled_pos value).mp positive)
      rw [below]
      rfl
  | finite mantissa exponent m positive low high value =>
    cases second with
    | zero =>
      have above : Ord.compare m 0 = .gt := Nat.compare_eq_gt.mpr ((scaled_pos value).mp positive)
      rw [above]
      rfl
    | finite mantissa' exponent' n positive' low' high' value' =>
      have held := (Stands.finite mantissa exponent m positive low high value).exponent.1
      have held' := (Stands.finite mantissa' exponent' n positive' low' high' value').exponent.1
      have below (m n : ℕ) (some : n ≠ 0) (less : m.log2 < n.log2) : m < n := by
        have lower := Nat.log2_self_le some
        have upper := Nat.lt_log2_self (n := m)
        have powers : 2 ^ (m.log2 + 1) ≤ 2 ^ n.log2 := Nat.pow_le_pow_right (by decide) less
        omega
      have some := (scaled_pos value).mp positive
      have some' := (scaled_pos value').mp positive'
      simp only [UnpackedFloat.compare]
      rcases lt_trichotomy exponent exponent' with less | same | more
      · have numbers : Ord.compare m n = .lt := Nat.compare_eq_lt.mpr (below m n some'.ne' (by omega))
        rw [Int.compare_eq_lt.mpr less, numbers]
        rfl
      · subst same
        have scale : (0 : ℚ) < 2 ^ exponent := by positivity
        have order : mantissa < mantissa' ↔ m < n := by
          rw [← Nat.cast_lt (α := ℚ), ← Nat.cast_lt (α := ℚ), ← value, ← value', mul_lt_mul_iff_left₀ scale]
        have order' : mantissa' < mantissa ↔ n < m := by
          rw [← Nat.cast_lt (α := ℚ), ← Nat.cast_lt (α := ℚ), ← value, ← value', mul_lt_mul_iff_left₀ scale]
        have numbers : Ord.compare mantissa mantissa' = Ord.compare m n := by
          rw [Nat.compare_eq_ite_lt, Nat.compare_eq_ite_lt]
          simp only [order, order']
        rw [Int.compare_eq_eq.mpr rfl, numbers]
        rfl
      · have numbers : Ord.compare m n = .gt := Nat.compare_eq_gt.mpr (below n m some.ne' (by omega))
        rw [Int.compare_eq_gt.mpr more, numbers]
        rfl

theorem Stands.toInt (stands : Stands spec x n) (low high : ℤ) : x.toInt low high = n := by
  cases stands with
  | zero => rfl
  | finite mantissa exponent n positive _ _ value =>
    simp only [UnpackedFloat.toInt, roundToInt, decreaseExponent, shiftToExponent,
      ExtendedMantissa.ofMantissaAndAccuracy, Sign.apply]
    have quotient : ((mantissa <<< (exponent - 0).toNat : ℕ) : ℚ) / 2 ^
        (0 - (exponent - ((exponent - 0).toNat : ℤ))).toNat = n := by
      rw [div_eq_iff (by positivity), ← value, Nat.shiftLeft_eq]
      push_cast
      rw [mul_assoc, ← zpow_natCast, ← zpow_natCast, ← zpow_add₀ (by norm_num)]
      congr 2
      omega
    rw [← extended_natCast, shiftRight_extended, quotient, extended_natCast]

theorem log2_mul (m n : ℕ) (first : m ≠ 0) (second : n ≠ 0) :
    m.log2 + n.log2 ≤ (m * n).log2 ∧ (m * n).log2 ≤ m.log2 + n.log2 + 1 := by
  have nonzero : m * n ≠ 0 := Nat.mul_ne_zero first second
  constructor
  · rw [Nat.le_log2 nonzero, Nat.pow_add]
    exact Nat.mul_le_mul (Nat.log2_self_le first) (Nat.log2_self_le second)
  · have upper : m * n < 2 ^ (m.log2 + 1) * 2 ^ (n.log2 + 1) :=
      Nat.mul_lt_mul'' Nat.lt_log2_self Nat.lt_log2_self
    rw [← Nat.pow_add] at upper
    have log := (Nat.log2_lt nonzero).mpr upper
    omega

theorem Stands.mul (roomy : spec.minExponent ≤ 1 - (spec.mantissaBits : ℤ)) (first : Stands spec x m)
    (second : Stands spec y n) :
    Stands spec (UnpackedFloat.mul spec x y) (roundEven spec.mantissaBits (m * n)) := by
  have sign : Sign.positive * Sign.positive = .positive := rfl
  cases first with
  | zero =>
    rw [Nat.zero_mul, roundEven_zero]
    cases second <;> exact .zero
  | finite mantissa exponent m filled low high value =>
    cases second with
    | zero =>
      rw [Nat.mul_zero, roundEven_zero]
      exact .zero
    | finite mantissa' exponent' n filled' low' high' value' =>
      have one := (Stands.finite mantissa exponent m filled low high value).exponent
      have other := (Stands.finite mantissa' exponent' n filled' low' high' value').exponent
      have nonzero := ((scaled_pos value).mp filled).ne'
      have nonzero' := ((scaled_pos value').mp filled').ne'
      have log := log2_mul m n nonzero nonzero'
      have bits := mantissaBits_pos spec
      have product : ((mantissa * mantissa' : ℕ) : ℚ) * 2 ^ (exponent + exponent') = (m * n : ℕ) := by
        rw [zpow_add₀ (by norm_num)]
        push_cast
        rw [← value, ← value']
        ring
      simp only [UnpackedFloat.mul, sign]
      exact stands_roundWithAccuracy spec roomy _ _ _ (Nat.mul_ne_zero nonzero nonzero') product (by omega)

/-- A division that leaves no remainder is exact. -/
theorem Stands.div (roomy : spec.minExponent ≤ 1 - (spec.mantissaBits : ℤ)) (first : Stands spec x (m * n))
    (second : Stands spec y n) (nonzero : n ≠ 0) (small : m < 2 ^ spec.mantissaBits) :
    Stands spec (UnpackedFloat.div spec x y) m := by
  have sign : Sign.positive / Sign.positive = .positive := rfl
  generalize product : m * n = p at first
  cases first with
  | zero =>
    have none : m = 0 := by
      rcases Nat.mul_eq_zero.mp product with left | right
      · exact left
      · exact absurd right nonzero
    subst none
    cases second with
    | zero => exact absurd rfl nonzero
    | finite mantissa' exponent' n filled' low' high' value' => exact .zero
  | finite mantissa exponent p filled low high value =>
    cases second with
    | zero => exact absurd rfl nonzero
    | finite mantissa' exponent' n filled' low' high' value' =>
      have one := (Stands.finite mantissa exponent p filled low high value).exponent
      have other := (Stands.finite mantissa' exponent' n filled' low' high' value').exponent
      have some : m ≠ 0 := by
        intro same
        subst same
        rw [Nat.zero_mul] at product
        exact ((scaled_pos value).mp filled).ne product
      have log := log2_mul m n some nonzero
      rw [product] at log
      have fits := log2_lt spec.mantissaBits m (mantissaBits_pos spec) small
      generalize decreased : min (exponent - exponent') (spec.targetExponent (totalExponent mantissa exponent -
        totalExponent mantissa' exponent')) = target
      have below : target ≤ exponent - exponent' ∧ target ≤ m.log2 + 1 - spec.mantissaBits := by
        rw [Format.targetExponent, totalExponent, totalExponent] at decreased
        omega
      obtain ⟨shift, amount⟩ := Int.eq_ofNat_of_zero_le (Int.sub_nonneg_of_le below.1)
      obtain ⟨scale, back⟩ := Int.eq_ofNat_of_zero_le (show 0 ≤ -target by omega)
      have target_eq : target = -(scale : ℤ) := by omega
      have aligned : mantissa <<< shift = m * 2 ^ scale * mantissa' := by
        have exponents : exponent = exponent' + shift - scale := by omega
        have whole : (mantissa : ℚ) * 2 ^ shift = m * 2 ^ scale * mantissa' := by
          have equal : (mantissa : ℚ) * 2 ^ exponent = m * (mantissa' * 2 ^ exponent') := by
            rw [value, value', ← product]
            push_cast
            ring
          rw [exponents, sub_eq_add_neg, zpow_add₀ (by norm_num), zpow_add₀ (by norm_num), zpow_neg, zpow_natCast,
            zpow_natCast] at equal
          field_simp at equal
          linarith
        rw [Nat.shiftLeft_eq]
        exact_mod_cast whole
      have scaled : ((m * 2 ^ scale : ℕ) : ℚ) * 2 ^ target = m := by
        rw [target_eq, zpow_neg, zpow_natCast]
        push_cast
        field_simp
      have exact := stands_roundWithAccuracy spec roomy _ m target some scaled below.2
      rw [roundEven_of_lt _ m (mantissaBits_pos spec) small] at exact
      have steps : (exponent - exponent' - target).toNat = shift := by omega
      simp only [UnpackedFloat.div, divCore, decreased, steps, aligned, Nat.mul_div_cancel _ filled',
        Nat.mul_mod_left, accuracyOfFraction, if_true, sign]
      exact exact

theorem Stands.unpack_pack (stands : Stands spec x n) (roomy : spec.mantissaBits ≤ spec.exponentBias)
    (bounded : n < 2 ^ (spec.exponentBias + 1)) : UnpackedFloat.unpack spec (UnpackedFloat.pack spec x) = x := by
  have bits : spec.mantissaBits = 1 + spec.mantissaBitsWithoutImplicit := rfl
  cases stands with
  | zero => exact unpack_pack_zero spec (by omega)
  | finite mantissa exponent n positive low high value =>
    obtain ⟨exponent_eq, full⟩ := (Stands.finite mantissa exponent n positive low high value).exponent
    have log := (Nat.log2_lt ((scaled_pos value).mp positive).ne').mpr bounded
    exact unpack_pack_full spec _ _ _ full (by omega) (by omega)

end Operations

section Single
variable {v w : Float32} {m n : ℕ}

/-- A single-precision number stands for a natural number. -/
def Holds (v : Float32) (n : ℕ) : Prop := Stands .binary32 v.toModel.unpack n

theorem holds_pack {x : UnpackedFloat} (stands : Stands .binary32 x n) (bounded : n < 2 ^ 128) :
    Holds (.ofModel (.pack x)) n := by
  have same := stands.unpack_pack (by decide) bounded
  change Stands .binary32 (UnpackedFloat.unpack _ (UnpackedFloat.pack _ x)) n
  rw [same]
  exact stands

theorem holds_single (n : ℕ) (bounded : roundEven 24 n < 2 ^ 128) : Holds (single n) (roundEven 24 n) :=
  holds_pack (stands_ofNat .binary32 roomy_binary32 n) bounded

theorem holds_toFloat32 (n : UInt32) : Holds n.toFloat32 (roundEven 24 n.toNat) := by
  have bounded := roundEven_le_two_pow 24 (by decide) n.toNat 32 n.toNat_lt.le
  rw [toFloat32_eq_single]
  exact holds_single _ (bounded.trans_lt (by decide))

theorem Holds.add (first : Holds v m) (second : Holds w n) (bounded : roundEven 24 (m + n) < 2 ^ 128) :
    Holds (v + w) (roundEven 24 (m + n)) :=
  holds_pack (Stands.add roomy_binary32 first second) bounded

theorem Holds.rounded (held : Holds v n) : roundEven 24 n = n := by
  have bits : Format.binary32.mantissaBits = 24 := rfl
  rw [← bits]
  exact Stands.rounded held

theorem Holds.lt_iff (first : Holds v m) (second : Holds w n) : v < w ↔ m < n := by
  change decide (UnpackedFloat.lt v.toModel.unpack w.toModel.unpack = true) = true ↔ _
  rw [UnpackedFloat.lt, Stands.compare first second]
  simp [Nat.compare_eq_lt]

theorem Holds.beq_iff (first : Holds v m) (second : Holds w n) : (v == w) = true ↔ m = n := by
  change UnpackedFloat.beq v.toModel.unpack w.toModel.unpack = true ↔ _
  rw [UnpackedFloat.beq, Stands.compare first second]
  simp

theorem holds_zero : Holds 0 0 := by
  have zero : single 0 = 0 := by decide +kernel
  have held := holds_single 0 (by decide +kernel)
  rwa [zero, roundEven_zero] at held

theorem Holds.toUInt32 (held : Holds v n) : v.toUInt32 = UInt32.ofNatClamp n := by
  change UInt32.ofNatClamp (v.toModel.unpack.toInt 0 (UInt32.size - 1)).toNat = _
  rw [Stands.toInt held, Int.toNat_natCast]

theorem Holds.amount (held : Holds v n) : amount v = n := by
  unfold ExactFloat.amount
  unfold Holds at held
  generalize v.toModel.unpack = x at held
  cases held with
  | zero => rfl
  | finite mantissa exponent n positive low high value => simpa [Sign.apply] using value

end Single

section Double
variable {v w : Float} {m n : ℕ}

theorem roomy_binary64 : Format.binary64.minExponent ≤ 1 - (Format.binary64.mantissaBits : ℤ) := by decide

/-- A double-precision number stands for a natural number. -/
def HoldsDouble (v : Float) (n : ℕ) : Prop := Stands .binary64 v.toModel.unpack n

theorem holdsDouble_pack {x : UnpackedFloat} (stands : Stands .binary64 x n) (bounded : n < 2 ^ 128) :
    HoldsDouble (.ofModel (.pack x)) n := by
  have wide : 2 ^ 128 ≤ 2 ^ (Format.binary64.exponentBias + 1) := Nat.pow_le_pow_right (by decide) (by decide)
  have same := stands.unpack_pack (by decide) (bounded.trans_le wide)
  change Stands .binary64 (UnpackedFloat.unpack _ (UnpackedFloat.pack _ x)) n
  rw [same]
  exact stands

theorem holdsDouble_toFloat (n : UInt32) : HoldsDouble n.toFloat n.toNat := by
  have stands := stands_ofNat .binary64 roomy_binary64 n.toNat
  rw [roundEven_of_lt _ _ (by decide) (n.toNat_lt.trans (by decide))] at stands
  exact holdsDouble_pack stands (n.toNat_lt.trans (by decide))

theorem HoldsDouble.mul (first : HoldsDouble v m) (second : HoldsDouble w n) (bounded : m * n < 2 ^ 53) :
    HoldsDouble (v * w) (m * n) := by
  have product := Stands.mul roomy_binary64 first second
  rw [roundEven_of_lt Format.binary64.mantissaBits _ (by decide) bounded] at product
  exact holdsDouble_pack product (bounded.trans (by decide))

theorem HoldsDouble.div (first : HoldsDouble v (m * n)) (second : HoldsDouble w n) (nonzero : n ≠ 0)
    (bounded : m < 2 ^ 53) :
    HoldsDouble (v / w) m :=
  holdsDouble_pack (Stands.div roomy_binary64 first second nonzero bounded) (bounded.trans (by decide))

theorem HoldsDouble.toSingle (held : HoldsDouble v n) (bounded : roundEven 24 n < 2 ^ 128) :
    Holds (toSingle v) (roundEven 24 n) := by
  have stands : Stands .binary32 (recode .binary32 v.toModel.unpack) (roundEven 24 n) := by
    unfold HoldsDouble at held
    generalize v.toModel.unpack = x at held
    cases held with
    | zero =>
      rw [roundEven_zero]
      exact .zero
    | finite mantissa exponent n positive low high value =>
      exact stands_round .binary32 roomy_binary32 mantissa n exponent ((scaled_pos value).mp positive).ne' value
  exact holds_pack stands bounded

theorem HoldsDouble.beq_iff (first : HoldsDouble v m) (second : HoldsDouble w n) : (v == w) = true ↔ m = n := by
  change UnpackedFloat.beq v.toModel.unpack w.toModel.unpack = true ↔ _
  rw [UnpackedFloat.beq, Stands.compare first second]
  simp

end Double
end EspLog.Rounding

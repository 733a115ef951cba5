import EspLog.Support.Rounding

/-! The rational numbers that floats stand for. Every operation yields the number of the format that is
nearest to the exact result, which is monotone: what bounds the result bounds the float. -/

namespace EspLog.Nearest
open Float.Model Float.Model.UnpackedFloat ExactFloat Rounding

section Grid
variable (spec : Format) (x y : ℚ)

/-- The exponent of a number's last place. -/
def place : ℤ := spec.targetExponent (Int.log 2 x + 1)

/-- A positive number rounded to its last place, to even in a tie. -/
def magnitude : ℚ := nearest (x / 2 ^ place spec x) * 2 ^ place spec x

/-- A number rounded to its last place. -/
def rounded : ℚ := if x < 0 then -magnitude spec (-x) else magnitude spec x

theorem place_least : spec.minExponent ≤ place spec x := le_max_right _ _

theorem lt_two_pow_place : x < 2 ^ (spec.mantissaBits + place spec x) := by
  have upper := Int.lt_zpow_succ_log_self (b := 2) one_lt_two x
  have digits : Int.log 2 x + 1 ≤ spec.mantissaBits + place spec x := by
    have last := le_max_left (Int.log 2 x + 1 - spec.mantissaBits) spec.minExponent
    unfold place Format.targetExponent
    omega
  exact upper.trans_le (zpow_le_zpow_right₀ one_le_two digits)

theorem quotient_lt : x / 2 ^ place spec x < 2 ^ spec.mantissaBits := by
  have upper := lt_two_pow_place spec x
  rw [zpow_add₀ two_ne_zero, zpow_natCast] at upper
  rwa [div_lt_iff₀ (by positivity)]

variable {x y}

theorem le_quotient (positive : 0 < x) (normal : spec.minExponent < place spec x) :
    2 ^ (spec.mantissaBits - 1) ≤ x / 2 ^ place spec x := by
  have bits := mantissaBits_pos spec
  have lower := Int.zpow_log_le_self (b := 2) one_lt_two positive
  have digits : Int.log 2 x = (spec.mantissaBits - 1 : ℕ) + place spec x := by
    unfold place Format.targetExponent at normal ⊢
    omega
  rw [digits, Nat.cast_two, zpow_add₀ two_ne_zero, zpow_natCast] at lower
  rw [le_div_iff₀ (by positivity)]
  exact_mod_cast lower

theorem place_mono (positive : 0 < x) (order : x ≤ y) : place spec x ≤ place spec y := by
  have logs := Int.log_mono_right (b := 2) positive order
  unfold place Format.targetExponent
  omega

theorem magnitude_nonneg (x : ℚ) : 0 ≤ magnitude spec x := mul_nonneg (Nat.cast_nonneg _) (by positivity)

theorem magnitude_zero : magnitude spec 0 = 0 := by
  have none : nearest (0 : ℚ) = 0 := by exact_mod_cast nearest_natCast 0
  rw [magnitude, zero_div, none, Nat.cast_zero, zero_mul]

theorem magnitude_mono (positive : 0 < x) (order : x ≤ y) : magnitude spec x ≤ magnitude spec y := by
  have scale : (0 : ℚ) < 2 ^ place spec x := by positivity
  have scale' : (0 : ℚ) < 2 ^ place spec y := by positivity
  rcases (place_mono spec positive order).lt_or_eq with less | same
  · -- `x` ends at the leading digit of `y`
    have bits := mantissaBits_pos spec
    have below : nearest (x / 2 ^ place spec x) ≤ 2 ^ spec.mantissaBits := by
      have bound := nearest_mono _ _ (quotient_lt spec x).le
      have whole := nearest_natCast (2 ^ spec.mantissaBits)
      push_cast at whole
      rwa [whole] at bound
    have above : 2 ^ (spec.mantissaBits - 1) ≤ nearest (y / 2 ^ place spec y) := by
      have bound := nearest_mono _ _
        (le_quotient spec (positive.trans_le order) ((place_least spec x).trans_lt less))
      have whole := nearest_natCast (2 ^ (spec.mantissaBits - 1))
      push_cast at whole
      rwa [whole] at bound
    calc magnitude spec x ≤ 2 ^ spec.mantissaBits * 2 ^ place spec x :=
          mul_le_mul_of_nonneg_right (by exact_mod_cast below) scale.le
      _ = 2 ^ ((spec.mantissaBits : ℤ) + place spec x) := by rw [zpow_add₀ two_ne_zero, zpow_natCast]
      _ ≤ 2 ^ ((spec.mantissaBits - 1 : ℕ) + place spec y) := zpow_le_zpow_right₀ one_le_two (by omega)
      _ = 2 ^ (spec.mantissaBits - 1) * 2 ^ place spec y := by rw [zpow_add₀ two_ne_zero, zpow_natCast]
      _ ≤ magnitude spec y := mul_le_mul_of_nonneg_right (by exact_mod_cast above) scale'.le
  · unfold magnitude
    rw [same]
    apply mul_le_mul_of_nonneg_right _ scale'.le
    exact_mod_cast nearest_mono _ _ (div_le_div_of_nonneg_right order scale'.le)

theorem rounded_neg (x : ℚ) : rounded spec (-x) = -rounded spec x := by
  unfold rounded
  rcases lt_trichotomy x 0 with negative | rfl | positive
  · rw [if_neg (by linarith), if_pos negative, neg_neg]
  · rw [neg_zero, if_neg (lt_irrefl 0), if_neg (lt_irrefl 0), magnitude_zero, neg_zero]
  · rw [if_pos (by linarith), if_neg (by linarith), neg_neg]

theorem rounded_nonneg (nonnegative : 0 ≤ x) : rounded spec x = magnitude spec x := if_neg (not_lt.mpr nonnegative)

theorem rounded_mono (order : x ≤ y) : rounded spec x ≤ rounded spec y := by
  rcases lt_or_ge x 0 with negative | nonnegative
  · rw [rounded, if_pos negative]
    rcases lt_or_ge y 0 with negative' | nonnegative'
    · rw [rounded, if_pos negative']
      exact neg_le_neg (magnitude_mono spec (by linarith) (by linarith))
    · rw [rounded_nonneg spec nonnegative']
      have least := magnitude_nonneg spec (-x)
      have most := magnitude_nonneg spec y
      linarith
  · rw [rounded_nonneg spec nonnegative, rounded_nonneg spec (nonnegative.trans order)]
    rcases nonnegative.lt_or_eq with positive | zero
    · exact magnitude_mono spec positive order
    · rw [← zero, magnitude_zero]
      exact magnitude_nonneg spec y

theorem magnitude_grid (mantissa : ℕ) (exponent : ℤ) (high : mantissa ≤ 2 ^ spec.mantissaBits)
    (least : spec.minExponent ≤ exponent) :
    magnitude spec (mantissa * 2 ^ exponent) = mantissa * 2 ^ exponent := by
  rcases mantissa.eq_zero_or_pos with rfl | positive
  · rw [Nat.cast_zero, zero_mul, magnitude_zero]
  have scale : (0 : ℚ) < 2 ^ exponent := by positivity
  have number : (0 : ℚ) < mantissa * 2 ^ exponent := by positivity
  suffices whole : ∃ n : ℕ, (mantissa : ℚ) * 2 ^ exponent / 2 ^ place spec (mantissa * 2 ^ exponent) = n by
    obtain ⟨n, quotient⟩ := whole
    rw [magnitude, quotient, nearest_natCast, ← quotient]
    exact div_mul_cancel₀ _ (by positivity)
  rcases high.lt_or_eq with inside | top
  · have digits : Int.log 2 ((mantissa : ℚ) * 2 ^ exponent) < spec.mantissaBits + exponent := by
      rw [← Int.lt_zpow_iff_log_lt one_lt_two number, Nat.cast_two, zpow_add₀ two_ne_zero, zpow_natCast]
      exact mul_lt_mul_of_pos_right (by exact_mod_cast inside) scale
    have below : place spec (mantissa * 2 ^ exponent) ≤ exponent := by
      unfold place Format.targetExponent
      omega
    obtain ⟨shift, amount⟩ := Int.eq_ofNat_of_zero_le (Int.sub_nonneg_of_le below)
    refine ⟨mantissa * 2 ^ shift, ?_⟩
    have split : exponent = shift + place spec (mantissa * 2 ^ exponent) := by omega
    rw [div_eq_iff (by positivity)]
    push_cast
    rw [mul_assoc, ← zpow_natCast, ← zpow_add₀ two_ne_zero, ← split]
  · have power : (mantissa : ℚ) * 2 ^ exponent = 2 ^ (spec.mantissaBits + exponent) := by
      rw [top, zpow_add₀ two_ne_zero, zpow_natCast]
      push_cast
      rfl
    have log : Int.log 2 ((2 : ℚ) ^ (spec.mantissaBits + exponent)) = spec.mantissaBits + exponent := by
      have value := Int.log_zpow (R := ℚ) (b := 2) one_lt_two (spec.mantissaBits + exponent)
      rwa [Nat.cast_two] at value
    have bits := mantissaBits_pos spec
    have below : place spec (2 ^ (spec.mantissaBits + exponent)) ≤ spec.mantissaBits + exponent := by
      unfold place Format.targetExponent
      rw [log]
      omega
    rw [power]
    obtain ⟨shift, amount⟩ := Int.eq_ofNat_of_zero_le (Int.sub_nonneg_of_le below)
    refine ⟨2 ^ shift, ?_⟩
    rw [← zpow_sub₀ two_ne_zero, amount]
    push_cast
    rw [zpow_natCast]

theorem rounded_grid (mantissa : ℕ) (exponent : ℤ) (high : mantissa ≤ 2 ^ spec.mantissaBits)
    (least : spec.minExponent ≤ exponent) :
    rounded spec (mantissa * 2 ^ exponent) = mantissa * 2 ^ exponent := by
  rw [rounded_nonneg spec (by positivity), magnitude_grid spec mantissa exponent high least]

/-- Below the middle between two neighbours of the grid, or in the middle where the lower one is even. -/
def Below (mantissa : ℕ) (exponent : ℤ) (x : ℚ) : Prop :=
  x < (mantissa + 1 / 2) * 2 ^ exponent ∨ mantissa % 2 = 0 ∧ x = (mantissa + 1 / 2) * 2 ^ exponent

instance (mantissa : ℕ) (exponent : ℤ) (x : ℚ) : Decidable (Below mantissa exponent x) :=
  inferInstanceAs (Decidable (_ ∨ _))

theorem magnitude_between (mantissa : ℕ) (exponent : ℤ) (low : 2 ^ (spec.mantissaBits - 1) ≤ mantissa)
    (high : mantissa < 2 ^ spec.mantissaBits) (least : spec.minExponent ≤ exponent)
    (above : mantissa * 2 ^ exponent < x) (below : x < (mantissa + 1) * 2 ^ exponent) :
    magnitude spec x = (if Below mantissa exponent x then mantissa else mantissa + 1 : ℕ) * 2 ^ exponent := by
  have bits := mantissaBits_pos spec
  have scale : (0 : ℚ) < 2 ^ exponent := by positivity
  have start : (0 : ℚ) ≤ mantissa * 2 ^ exponent := by positivity
  have positive := start.trans_lt above
  have digits : Int.log 2 x = (spec.mantissaBits - 1 : ℕ) + exponent := by
    apply le_antisymm
    · have next : x < (2 : ℚ) ^ (spec.mantissaBits + exponent) := by
        rw [zpow_add₀ two_ne_zero, zpow_natCast]
        apply below.trans_le
        apply mul_le_mul_of_nonneg_right _ scale.le
        exact_mod_cast high
      have log := (Int.lt_zpow_iff_log_lt (b := 2) one_lt_two positive).mp (by exact_mod_cast next)
      omega
    · apply (Int.zpow_le_iff_le_log (b := 2) one_lt_two positive).mp
      rw [Nat.cast_two, zpow_add₀ two_ne_zero, zpow_natCast]
      apply le_trans _ above.le
      apply mul_le_mul_of_nonneg_right _ scale.le
      exact_mod_cast low
  have last : place spec x = exponent := by
    unfold place Format.targetExponent
    omega
  have floor : ⌊x / 2 ^ exponent⌋₊ = mantissa := by
    rw [Nat.floor_eq_iff (by positivity), le_div_iff₀ scale, div_lt_iff₀ scale]
    exact ⟨above.le, below⟩
  have less : x / 2 ^ exponent < mantissa + 1 / 2 ↔ x < (mantissa + 1 / 2) * 2 ^ exponent := div_lt_iff₀ scale
  have tie : x / 2 ^ exponent = mantissa + 1 / 2 ↔ x = (mantissa + 1 / 2) * 2 ^ exponent := div_eq_iff scale.ne'
  rw [magnitude, last, nearest, floor]
  congr 2
  simp only [less, tie]
  by_cases lower : x < (mantissa + 1 / 2) * 2 ^ exponent
  · have below : Below mantissa exponent x := .inl lower
    rw [if_pos lower, if_pos below]
  by_cases middle : x = (mantissa + 1 / 2) * 2 ^ exponent
  · have even : Below mantissa exponent x ↔ mantissa % 2 = 0 := by
      rw [Below, or_iff_right lower, and_iff_left middle]
    simp only [if_neg lower, if_pos middle, even]
    split <;> omega
  · have past : ¬Below mantissa exponent x := by
      rw [Below, or_iff_right lower]
      exact fun both => middle both.2
    rw [if_neg lower, if_neg middle, if_neg past]

/-- No number is rounded to one between two neighbours. -/
theorem rounded_cut (mantissa : ℕ) (exponent : ℤ) (low : 2 ^ (spec.mantissaBits - 1) ≤ mantissa)
    (high : mantissa < 2 ^ spec.mantissaBits) (least : spec.minExponent ≤ exponent) (x : ℚ) :
    (Below mantissa exponent x → rounded spec x ≤ mantissa * 2 ^ exponent) ∧
      (¬Below mantissa exponent x → (mantissa + 1) * 2 ^ exponent ≤ rounded spec x) := by
  have scale : (0 : ℚ) < 2 ^ exponent := by positivity
  have one := rounded_grid spec mantissa exponent high.le least
  have next := rounded_grid spec (mantissa + 1) exponent high least
  rw [Nat.cast_add, Nat.cast_one] at next
  rcases le_or_gt x (mantissa * 2 ^ exponent) with before | above
  · have below : Below mantissa exponent x := .inl (by nlinarith)
    have order := rounded_mono spec before
    rw [one] at order
    exact ⟨fun _ => order, fun past => absurd below past⟩
  rcases lt_or_ge x ((mantissa + 1) * 2 ^ exponent) with below | after
  · have start : (0 : ℚ) ≤ mantissa * 2 ^ exponent := by positivity
    rw [rounded_nonneg spec (start.trans above.le),
      magnitude_between spec mantissa exponent low high least above below]
    constructor
    · intro lower
      rw [if_pos lower]
    · intro upper
      rw [if_neg upper]
      push_cast
      exact le_rfl
  · have past : ¬Below mantissa exponent x := by
      rintro (lower | ⟨-, middle⟩)
      · nlinarith
      · nlinarith
    have order := rounded_mono spec after
    rw [next] at order
    exact ⟨fun lower => absurd lower past, fun _ => order⟩

theorem below_odd (mantissa : ℕ) (exponent : ℤ) (odd : mantissa % 2 = 1) (x : ℚ) :
    Below mantissa exponent x ↔ x < (mantissa + 1 / 2) * 2 ^ exponent := by
  rw [Below, odd]
  exact or_iff_left fun both => absurd both.1 (by decide)

theorem below_even (mantissa : ℕ) (exponent : ℤ) (even : mantissa % 2 = 0) (x : ℚ) :
    Below mantissa exponent x ↔ x ≤ (mantissa + 1 / 2) * 2 ^ exponent := by
  rw [Below, and_iff_right even]
  exact le_iff_lt_or_eq.symm

theorem rounded_lt_iff (mantissa : ℕ) (exponent : ℤ) (low : 2 ^ (spec.mantissaBits - 1) ≤ mantissa)
    (high : mantissa < 2 ^ spec.mantissaBits) (least : spec.minExponent ≤ exponent) (bound : ℚ)
    (above : mantissa * 2 ^ exponent < bound) (below : bound ≤ (mantissa + 1) * 2 ^ exponent) (x : ℚ) :
    rounded spec x < bound ↔ Below mantissa exponent x := by
  obtain ⟨lower, upper⟩ := rounded_cut spec mantissa exponent low high least x
  constructor
  · intro less
    by_contra past
    have order := upper past
    linarith
  · intro before
    have order := lower before
    linarith

theorem rounded_le_iff (mantissa : ℕ) (exponent : ℤ) (low : 2 ^ (spec.mantissaBits - 1) ≤ mantissa)
    (high : mantissa < 2 ^ spec.mantissaBits) (least : spec.minExponent ≤ exponent) (bound : ℚ)
    (above : mantissa * 2 ^ exponent ≤ bound) (below : bound < (mantissa + 1) * 2 ^ exponent) (x : ℚ) :
    rounded spec x ≤ bound ↔ Below mantissa exponent x := by
  obtain ⟨lower, upper⟩ := rounded_cut spec mantissa exponent low high least x
  constructor
  · intro less
    by_contra past
    have order := upper past
    linarith
  · intro before
    have order := lower before
    linarith

end Grid
section Numbers
variable (spec : Format)

/-- The number that an unpacked float stands for, unless it is an infinity or NaN. -/
def number : UnpackedFloat → Option ℚ
  | .zero _ => some 0
  | .finite sign mantissa exponent _ => some (sign.apply mantissa * 2 ^ exponent)
  | _ => none

def signed : Sign → ℚ → ℚ
  | .positive, x => x
  | .negative, x => -x

theorem signed_apply (sign : Sign) (mantissa : ℕ) (exponent : ℤ) :
    ((sign.apply mantissa : ℤ) : ℚ) * 2 ^ exponent = signed sign (mantissa * 2 ^ exponent) := by
  cases sign
  · simp [Sign.apply, signed]
  · simp [Sign.apply, signed]

theorem rounded_signed (sign : Sign) (x : ℚ) : rounded spec (signed sign x) = signed sign (rounded spec x) := by
  cases sign
  · exact rounded_neg spec x
  · rfl

/-- A significand of the format: no digit is missing, or the exponent is the smallest. -/
structure Placed (mantissa : ℕ) (exponent : ℤ) : Prop where
  high : mantissa < 2 ^ spec.mantissaBits
  least : spec.minExponent ≤ exponent
  full : 2 ^ (spec.mantissaBits - 1) ≤ mantissa ∨ exponent = spec.minExponent

def Canonical : UnpackedFloat → Prop
  | .finite _ mantissa exponent _ => Placed spec mantissa exponent
  | _ => True

/-- A float of the format, and its number. -/
structure Denotes (x : UnpackedFloat) (a : ℚ) : Prop where
  number : number x = some a
  canonical : Canonical spec x

theorem log_cut (mantissa : ℕ) (exponent : ℤ) (x : ℚ) (positive : 0 < x) (cut : mantissa = ⌊x / 2 ^ exponent⌋₊)
    (some : 0 < mantissa) : Int.log 2 x = mantissa.log2 + exponent := by
  have scale : (0 : ℚ) < 2 ^ exponent := by positivity
  have less := Nat.lt_floor_add_one (x / 2 ^ exponent)
  have more := Nat.floor_le (by positivity : 0 ≤ x / 2 ^ exponent)
  rw [← cut] at less more
  rw [div_lt_iff₀ scale] at less
  rw [le_div_iff₀ scale] at more
  have lower := Nat.log2_self_le some.ne'
  have upper := Nat.lt_log2_self (n := mantissa)
  apply le_antisymm
  · have next : x < (2 : ℚ) ^ ((mantissa.log2 + 1 : ℕ) + exponent) := by
      rw [zpow_add₀ two_ne_zero, zpow_natCast]
      apply less.trans_le
      apply mul_le_mul_of_nonneg_right _ scale.le
      exact_mod_cast upper
    have bound := (Int.lt_zpow_iff_log_lt (b := 2) one_lt_two positive).mp (by exact_mod_cast next)
    omega
  · apply (Int.zpow_le_iff_le_log (b := 2) one_lt_two positive).mp
    rw [Nat.cast_two, zpow_add₀ two_ne_zero, zpow_natCast]
    apply le_trans _ more
    apply mul_le_mul_of_nonneg_right _ scale.le
    exact_mod_cast lower

theorem target_of_pos (mantissa : ℕ) (exponent : ℤ) (x : ℚ) (positive : 0 < x)
    (cut : mantissa = ⌊x / 2 ^ exponent⌋₊) (some : 0 < mantissa) :
    spec.targetExponent (totalExponent mantissa exponent) = place spec x := by
  unfold place totalExponent
  rw [log_cut mantissa exponent x positive cut some]
  congr 1
  omega

theorem target_eq_place (mantissa : ℕ) (exponent : ℤ) (x : ℚ) (positive : 0 < x)
    (cut : mantissa = ⌊x / 2 ^ exponent⌋₊) (below : exponent ≤ place spec x) :
    spec.targetExponent (totalExponent mantissa exponent) = place spec x := by
  rcases mantissa.eq_zero_or_pos with rfl | some
  · have bits := mantissaBits_pos spec
    have scale : (0 : ℚ) < 2 ^ exponent := by positivity
    have less := Nat.lt_floor_add_one (x / 2 ^ exponent)
    rw [← cut, div_lt_iff₀ scale, Nat.cast_zero, zero_add, one_mul] at less
    have log := (Int.lt_zpow_iff_log_lt (b := 2) one_lt_two positive).mp (by exact_mod_cast less)
    unfold place totalExponent Format.targetExponent at *
    rw [Nat.log2_zero]
    omega
  · exact target_of_pos spec mantissa exponent x positive cut some

theorem shiftToTargetExponent_place (mantissa : ℕ) (exponent : ℤ) (accuracy : Accuracy) (x : ℚ) (positive : 0 < x)
    (form : ExtendedMantissa.ofMantissaAndAccuracy mantissa accuracy = extended (x / 2 ^ exponent))
    (below : exponent ≤ place spec x) :
    shiftToTargetExponent spec mantissa exponent accuracy = (extended (x / 2 ^ place spec x), place spec x) := by
  have cut : mantissa = ⌊x / 2 ^ exponent⌋₊ := by
    have same := congrArg ExtendedMantissa.mantissa form
    rw [← show (extended (x / 2 ^ exponent)).mantissa = ⌊x / 2 ^ exponent⌋₊ from rfl, ← same]
    rcases accuracy with _ | order
    · rfl
    · cases order <;> rfl
  obtain ⟨shift, amount⟩ := Int.eq_ofNat_of_zero_le (Int.sub_nonneg_of_le below)
  have last : place spec x = exponent + shift := by omega
  simp only [shiftToTargetExponent, shiftToExponent,
    target_eq_place spec mantissa exponent x positive cut below, form]
  rw [amount, Int.toNat_natCast, shiftRight_extended, last, zpow_add₀ two_ne_zero, zpow_natCast, div_div]

theorem denotes_roundWithAccuracy (sign : Sign) (mantissa : ℕ) (exponent : ℤ) (accuracy : Accuracy) (x : ℚ)
    (positive : 0 < x) (form : ExtendedMantissa.ofMantissaAndAccuracy mantissa accuracy =
      extended (x / 2 ^ exponent))
    (below : exponent ≤ place spec x) :
    Denotes spec (roundWithAccuracy spec sign mantissa exponent accuracy) (rounded spec (signed sign x)) := by
  have bits := mantissaBits_pos spec
  have least := place_least spec x
  have first := shiftToTargetExponent_place spec mantissa exponent accuracy x positive form below
  have cut := roundedMantissa_extended (x / 2 ^ place spec x) (by positivity)
  have value : rounded spec (signed sign x) = signed sign (nearest (x / 2 ^ place spec x) * 2 ^ place spec x) := by
    rw [rounded_signed, rounded_nonneg spec positive.le, magnitude]
  have upper : nearest (x / 2 ^ place spec x) ≤ 2 ^ spec.mantissaBits := by
    have bound := nearest_mono _ _ (quotient_lt spec x).le
    have whole := nearest_natCast (2 ^ spec.mantissaBits)
    push_cast at whole
    rwa [whole] at bound
  have lower : spec.minExponent < place spec x → 2 ^ (spec.mantissaBits - 1) ≤ nearest (x / 2 ^ place spec x) := by
    intro normal
    have bound := nearest_mono _ _ (le_quotient spec positive normal)
    have whole := nearest_natCast (2 ^ (spec.mantissaBits - 1))
    push_cast at whole
    rwa [whole] at bound
  generalize nearest (x / 2 ^ place spec x) = q at *
  generalize place spec x = last at *
  rcases upper.lt_or_eq with inside | top
  · -- the rounded significand still fits
    have target : spec.targetExponent (totalExponent q last) ≤ last := by
      have log := log2_lt spec.mantissaBits q bits inside
      unfold totalExponent Format.targetExponent
      omega
    have none : (spec.targetExponent (totalExponent q last) - last).toNat = 0 := by omega
    have second : shiftToTargetExponent spec q last .exact = (⟨q, false, false⟩, last) := by
      simp only [shiftToTargetExponent, shiftToExponent, none, ExtendedMantissa.ofMantissaAndAccuracy,
        Nat.cast_zero, add_zero]
      rfl
    by_cases zero : q = 0
    · have form : roundWithAccuracy spec sign mantissa exponent accuracy = .zero sign := by
        simp only [roundWithAccuracy, first, cut, second, dif_pos zero]
      rw [form]
      refine ⟨?_, trivial⟩
      rw [value, zero, Nat.cast_zero, zero_mul]
      cases sign
      · exact congrArg some neg_zero.symm
      · rfl
    · have form : roundWithAccuracy spec sign mantissa exponent accuracy =
          .finite sign q last (Nat.pos_of_ne_zero zero) := by
        simp only [roundWithAccuracy, first, cut, second, dif_neg zero]
      rw [form]
      refine ⟨?_, inside, least, ?_⟩
      · rw [value, number, signed_apply]
      · rcases least.lt_or_eq with normal | smallest
        · exact .inl (lower normal)
        · exact .inr smallest.symm
  · -- rounding up has carried into one more digit
    have log : q.log2 = spec.mantissaBits := by rw [top, Nat.log2_two_pow]
    have target : spec.targetExponent (totalExponent q last) = last + 1 := by
      unfold totalExponent Format.targetExponent
      omega
    have one : (spec.targetExponent (totalExponent q last) - last).toNat = 1 := by omega
    have half : q = 2 ^ (spec.mantissaBits - 1) * 2 ^ 1 := by
      rw [top, ← Nat.pow_add]
      congr 1
      omega
    have second : shiftToTargetExponent spec q last .exact =
        (⟨2 ^ (spec.mantissaBits - 1), false, false⟩, last + 1) := by
      simp only [shiftToTargetExponent, shiftToExponent, one, ExtendedMantissa.ofMantissaAndAccuracy, Nat.cast_one]
      rw [half, shift_zeros]
    have filled : 0 < 2 ^ (spec.mantissaBits - 1) := Nat.two_pow_pos _
    have form : roundWithAccuracy spec sign mantissa exponent accuracy =
        .finite sign (2 ^ (spec.mantissaBits - 1)) (last + 1) filled := by
      simp only [roundWithAccuracy, first, cut, second, dif_neg filled.ne']
    rw [form]
    refine ⟨?_, ?_, by omega, .inl le_rfl⟩
    · have same : ((2 ^ (spec.mantissaBits - 1) : ℕ) : ℚ) * 2 ^ (last + 1) = q * 2 ^ last := by
        rw [half, zpow_add_one₀ two_ne_zero]
        push_cast
        ring
      rw [value, number, signed_apply, same]
    · exact Nat.pow_lt_pow_right (by decide) (by omega)

theorem denotes_exact (sign : Sign) (mantissa : ℕ) (exponent : ℤ) (some : 0 < mantissa)
    (below : exponent ≤ place spec (mantissa * 2 ^ exponent)) :
    Denotes spec (roundWithAccuracy spec sign mantissa exponent .exact)
      (rounded spec (signed sign (mantissa * 2 ^ exponent))) := by
  have scale : (0 : ℚ) < 2 ^ exponent := by positivity
  apply denotes_roundWithAccuracy spec sign mantissa exponent .exact _ (by positivity) _ below
  rw [mul_div_cancel_right₀ _ scale.ne', extended_natCast]
  rfl

theorem denotes_round (sign : Sign) (mantissa : ℕ) (exponent : ℤ) (some : 0 < mantissa) :
    Denotes spec (UnpackedFloat.round spec sign mantissa exponent)
      (rounded spec (signed sign (mantissa * 2 ^ exponent))) := by
  have scale : (0 : ℚ) < 2 ^ exponent := by positivity
  have cut : mantissa = ⌊(mantissa : ℚ) * 2 ^ exponent / 2 ^ exponent⌋₊ := by
    rw [mul_div_cancel_right₀ _ scale.ne', Nat.floor_natCast]
  have target := target_of_pos spec mantissa exponent _ (by positivity) cut some
  simp only [UnpackedFloat.round, target, decreaseExponent]
  generalize last_eq : place spec (mantissa * 2 ^ exponent) = last
  generalize shift_eq : (exponent - last).toNat = shift
  have same : ((mantissa <<< shift : ℕ) : ℚ) * 2 ^ (exponent - shift) = mantissa * 2 ^ exponent := by
    rw [Nat.shiftLeft_eq, Nat.cast_mul, Nat.cast_pow, Nat.cast_two, mul_assoc, ← zpow_natCast,
      ← zpow_add₀ two_ne_zero]
    congr 2
    omega
  rw [← same]
  apply denotes_exact
  · rw [Nat.shiftLeft_eq]
    positivity
  · rw [same, last_eq]
    omega

variable {spec} {x y : UnpackedFloat} {a b : ℚ}

theorem Denotes.rounded (denotes : Denotes spec x a) : rounded spec a = a := by
  obtain ⟨held, canonical⟩ := denotes
  cases x with
  | infinity sign => cases held
  | notANumber => cases held
  | zero sign =>
    cases held
    rw [rounded_nonneg spec le_rfl, magnitude_zero]
  | finite sign mantissa exponent some =>
    obtain rfl := Option.some.inj held
    have placed : Placed spec mantissa exponent := canonical
    rw [signed_apply, rounded_signed, rounded_grid spec mantissa exponent placed.high.le placed.least]

theorem Denotes.recode {spec' : Format} (denotes : Denotes spec' x a) :
    Denotes spec (recode spec x) (Nearest.rounded spec a) := by
  obtain ⟨held, canonical⟩ := denotes
  cases x with
  | infinity sign => cases held
  | notANumber => cases held
  | zero sign =>
    cases held
    refine ⟨?_, trivial⟩
    rw [rounded_nonneg spec le_rfl, magnitude_zero]
    rfl
  | finite sign mantissa exponent some =>
    obtain rfl := Option.some.inj held
    rw [signed_apply]
    exact denotes_round spec sign mantissa exponent some

theorem denotes_normalize (mantissa : ℤ) (exponent : ℤ) (sign : Sign) :
    Denotes spec (UnpackedFloat.normalize spec mantissa exponent sign)
      (Nearest.rounded spec (mantissa * 2 ^ exponent)) := by
  rcases lt_trichotomy mantissa 0 with negative | rfl | positive
  · obtain ⟨n, amount⟩ := Int.eq_ofNat_of_zero_le (by omega : 0 ≤ -mantissa)
    have value : (mantissa : ℚ) * 2 ^ exponent = signed .negative (n * 2 ^ exponent) := by
      have cast : (mantissa : ℚ) = -n := by exact_mod_cast (by omega : mantissa = -(n : ℤ))
      rw [signed, cast, neg_mul]
    simp only [UnpackedFloat.normalize, Int.compare_eq_lt.mpr negative]
    rw [value, amount, Int.toNat_natCast]
    exact denotes_round spec .negative n exponent (by omega)
  · refine ⟨?_, trivial⟩
    rw [Int.cast_zero, zero_mul, rounded_nonneg spec le_rfl, magnitude_zero]
    rfl
  · obtain ⟨n, rfl⟩ := Int.eq_ofNat_of_zero_le positive.le
    simp only [UnpackedFloat.normalize, Int.compare_eq_gt.mpr positive, Int.toNat_natCast]
    exact denotes_round spec .positive n exponent (by omega)

theorem apply_decreased (sign : Sign) (mantissa : ℕ) (exponent target : ℤ) (below : target ≤ exponent) :
    ((sign.apply (mantissa <<< (exponent - target).toNat : ℕ) : ℤ) : ℚ) * 2 ^ target =
      sign.apply mantissa * 2 ^ exponent := by
  obtain ⟨shift, amount⟩ := Int.eq_ofNat_of_zero_le (Int.sub_nonneg_of_le below)
  have same : ((mantissa <<< shift : ℕ) : ℚ) * 2 ^ target = mantissa * 2 ^ exponent := by
    rw [Nat.shiftLeft_eq, Nat.cast_mul, Nat.cast_pow, Nat.cast_two, mul_assoc, ← zpow_natCast,
      ← zpow_add₀ two_ne_zero]
    congr 2
    omega
  rw [amount, Int.toNat_natCast, signed_apply, signed_apply, same]

theorem Denotes.add (first : Denotes spec x a) (second : Denotes spec y b) :
    Denotes spec (UnpackedFloat.add spec x y) (Nearest.rounded spec (a + b)) := by
  have same := first.rounded
  have same' := second.rounded
  obtain ⟨held, canonical⟩ := first
  obtain ⟨held', canonical'⟩ := second
  cases x with
  | infinity sign => cases held
  | notANumber => cases held
  | zero sign =>
    cases held
    cases y with
    | infinity sign => cases held'
    | notANumber => cases held'
    | zero sign' =>
      cases held'
      rw [add_zero, same]
      simp only [UnpackedFloat.add]
      split <;> exact ⟨rfl, trivial⟩
    | finite sign' mantissa' exponent' some' =>
      rw [zero_add, same']
      exact ⟨held', canonical'⟩
  | finite sign mantissa exponent some =>
    cases y with
    | infinity sign => cases held'
    | notANumber => cases held'
    | zero sign' =>
      cases held'
      rw [add_zero, same]
      exact ⟨held, canonical⟩
    | finite sign' mantissa' exponent' some' =>
      cases held
      cases held'
      simp only [UnpackedFloat.add, decreaseExponent]
      rw [← apply_decreased sign mantissa exponent _ (min_le_left exponent exponent'),
        ← apply_decreased sign' mantissa' exponent' _ (min_le_right exponent exponent'), ← add_mul, ← Int.cast_add]
      exact denotes_normalize _ _ _

theorem signed_div (sign sign' : Sign) (x y : ℚ) :
    signed sign x / signed sign' y = signed (sign / sign') (x / y) := by
  cases sign <;>
  cases sign'
  · exact neg_div_neg_eq x y
  · exact neg_div y x
  · exact div_neg x
  · rfl

theorem accuracy_residue (q r n : ℕ) (less : r < n) :
    ExtendedMantissa.ofMantissaAndAccuracy q (accuracyOfFraction r n) =
    ⟨q, 2 * (n * q + r) / n % 2 != 0, decide (2 * (n * q + r) % n ≠ 0)⟩ := by
  have positive : 0 < n := by omega
  have doubled : 2 * (n * q + r) = n * (2 * q) + 2 * r := by ring
  unfold accuracyOfFraction
  rw [doubled, Nat.mul_add_div positive, Nat.mul_add_mod 2, Nat.mul_add_mod n]
  by_cases none : r = 0
  · rw [if_pos none, none, Nat.mul_zero, Nat.zero_div, Nat.zero_mod]
    rfl
  · rw [if_neg none]
    rcases Nat.lt_trichotomy (2 * r) n with below | tie | above
    · have some : 2 * r ≠ 0 := by omega
      rw [Nat.div_eq_of_lt below, Nat.mod_eq_of_lt below, Nat.compare_eq_lt.mpr below, decide_eq_true some]
      rfl
    · rw [tie, Nat.div_self positive, Nat.mod_self, Nat.compare_eq_eq.mpr rfl]
      rfl
    · obtain ⟨rest, split⟩ := Nat.exists_eq_add_of_lt above
      have small : rest + 1 < n := by omega
      have whole : 2 * r = n + (rest + 1) := by omega
      rw [Nat.compare_eq_gt.mpr above, whole, Nat.add_div_left _ positive, Nat.div_eq_of_lt small,
        Nat.add_mod_left, Nat.mod_eq_of_lt small, decide_eq_true (Nat.succ_ne_zero rest)]
      rfl

theorem accuracyOfFraction_extended (m n : ℕ) (positive : 0 < n) :
    ExtendedMantissa.ofMantissaAndAccuracy (m / n) (accuracyOfFraction (m % n) n) = extended (m / n) := by
  have divisor : (0 : ℚ) < n := by exact_mod_cast positive
  have floor : ⌊(m : ℚ) / n⌋₊ = m / n := Nat.floor_div_eq_div m n
  have twice : 2 * ((m : ℚ) / n) = (2 * m : ℕ) / n := by
    push_cast
    ring
  have double : ⌊2 * ((m : ℚ) / n)⌋₊ = 2 * m / n := by rw [twice, Nat.floor_div_eq_div]
  have whole : 2 * ((m : ℚ) / n) ≠ (2 * m / n : ℕ) ↔ 2 * m % n ≠ 0 := by
    rw [twice, ne_eq, div_eq_iff divisor.ne', ← Nat.cast_mul, Nat.cast_inj]
    have split := Nat.div_add_mod (2 * m) n
    rw [Nat.mul_comm] at split
    omega
  have residue := accuracy_residue (m / n) (m % n) n (Nat.mod_lt m positive)
  rw [Nat.div_add_mod] at residue
  rw [residue, extended, floor, double, decide_eq_decide.mpr whole]

/-- A quotient is rounded once, whatever form its operands have. -/
theorem denotes_div (held : number x = some a) (held' : number y = some b) (nonzero : b ≠ 0) :
    Denotes spec (UnpackedFloat.div spec x y) (Nearest.rounded spec (a / b)) := by
  have nothing : Nearest.rounded spec 0 = 0 := by rw [rounded_nonneg spec le_rfl, magnitude_zero]
  cases y with
  | infinity sign => cases held'
  | notANumber => cases held'
  | zero sign' =>
    cases held'
    exact absurd rfl nonzero
  | finite sign' mantissa' exponent' some' =>
    cases x with
    | infinity sign => cases held
    | notANumber => cases held
    | zero sign =>
      cases held
      rw [zero_div, nothing]
      exact ⟨rfl, trivial⟩
    | finite sign mantissa exponent some =>
      cases held
      cases held'
      have scale : (0 : ℚ) < 2 ^ exponent := by positivity
      have scale' : (0 : ℚ) < 2 ^ exponent' := by positivity
      have digits (n : ℕ) (e : ℤ) (filled : 0 < n) : Int.log 2 ((n : ℚ) * 2 ^ e) = n.log2 + e := by
        have scale : (0 : ℚ) < 2 ^ e := by positivity
        apply log_cut n e _ (by positivity) _ filled
        rw [mul_div_cancel_right₀ _ scale.ne', Nat.floor_natCast]
      generalize target_eq : min (exponent - exponent') (spec.targetExponent (totalExponent mantissa exponent -
        totalExponent mantissa' exponent')) = target
      have below : target ≤ exponent - exponent' := by omega
      obtain ⟨shift, amount⟩ := Int.eq_ofNat_of_zero_le (Int.sub_nonneg_of_le below)
      have quotient : ((mantissa <<< shift : ℕ) : ℚ) / mantissa' =
          mantissa * 2 ^ exponent / (mantissa' * 2 ^ exponent') / 2 ^ target := by
        have split : exponent = exponent' + target + shift := by omega
        rw [Nat.shiftLeft_eq, split, zpow_add₀ two_ne_zero, zpow_add₀ two_ne_zero, zpow_natCast]
        push_cast
        field_simp
      have reaches : target ≤ place spec (mantissa * 2 ^ exponent / (mantissa' * 2 ^ exponent')) := by
        have lower := Int.zpow_log_le_self (b := 2) one_lt_two (by positivity : (0 : ℚ) < mantissa * 2 ^ exponent)
        have upper := Int.lt_zpow_succ_log_self (b := 2) one_lt_two ((mantissa' : ℚ) * 2 ^ exponent')
        rw [digits mantissa exponent some] at lower
        rw [digits mantissa' exponent' some'] at upper
        have log : (mantissa.log2 + exponent) - (mantissa'.log2 + exponent' + 1) ≤
            Int.log 2 ((mantissa : ℚ) * 2 ^ exponent / (mantissa' * 2 ^ exponent')) := by
          apply (Int.zpow_le_iff_le_log (b := 2) one_lt_two (by positivity)).mp
          rw [le_div_iff₀ (by positivity)]
          calc ((2 : ℕ) : ℚ) ^ ((mantissa.log2 + exponent) - (mantissa'.log2 + exponent' + 1)) *
              (mantissa' * 2 ^ exponent')
              ≤ ((2 : ℕ) : ℚ) ^ ((mantissa.log2 + exponent) - (mantissa'.log2 + exponent' + 1)) *
                ((2 : ℕ) : ℚ) ^ ((mantissa'.log2 : ℤ) + exponent' + 1) :=
                mul_le_mul_of_nonneg_left upper.le (by positivity)
            _ = ((2 : ℕ) : ℚ) ^ ((mantissa.log2 : ℤ) + exponent) := by
                rw [← zpow_add₀ (by norm_num)]
                congr 1
                omega
            _ ≤ mantissa * 2 ^ exponent := lower
        unfold place totalExponent Format.targetExponent at *
        omega
      rw [signed_apply, signed_apply, signed_div]
      simp only [UnpackedFloat.div, divCore, target_eq, amount, Int.toNat_natCast]
      apply denotes_roundWithAccuracy spec _ _ _ _ _ (by positivity) _ reaches
      rw [accuracyOfFraction_extended _ _ some', quotient]

theorem Denotes.div (first : Denotes spec x a) (second : Denotes spec y b) (nonzero : b ≠ 0) :
    Denotes spec (UnpackedFloat.div spec x y) (Nearest.rounded spec (a / b)) :=
  denotes_div first.number second.number nonzero

end Numbers
section Packing
variable (spec : Format)

/-- The numbers from here on are packed as infinities. -/
def limit : ℚ := 2 ^ (spec.exponentBias + 1)

theorem limit_pos : 0 < limit spec := by
  unfold limit
  positivity

theorem minExponent_eq : spec.minExponent = 2 - spec.exponentBias - spec.mantissaBits := by
  have positive := Nat.two_pow_pos (spec.exponentBits - 1)
  rw [Format.minExponent, Format.exponentBias, Nat.cast_sub positive]
  push_cast
  ring

theorem abs_apply (sign : Sign) (mantissa : ℕ) (exponent : ℤ) :
    |((sign.apply mantissa : ℤ) : ℚ) * 2 ^ exponent| = mantissa * 2 ^ exponent := by
  rw [abs_mul, abs_of_pos (by positivity : (0 : ℚ) < 2 ^ exponent)]
  cases sign <;> simp [Sign.apply]

theorem lt_limit (mantissa : ℕ) (exponent : ℤ) (high : mantissa < 2 ^ spec.mantissaBits)
    (top : spec.mantissaBits + exponent ≤ spec.exponentBias + 1) : (mantissa : ℚ) * 2 ^ exponent < limit spec := by
  calc (mantissa : ℚ) * 2 ^ exponent < 2 ^ spec.mantissaBits * 2 ^ exponent :=
        mul_lt_mul_of_pos_right (by exact_mod_cast high) (by positivity)
    _ = 2 ^ ((spec.mantissaBits : ℤ) + exponent) := by rw [zpow_add₀ two_ne_zero, zpow_natCast]
    _ ≤ 2 ^ (((spec.exponentBias + 1 : ℕ) : ℤ)) := zpow_le_zpow_right₀ one_le_two (by push_cast; exact top)
    _ = limit spec := zpow_natCast 2 _

theorem limit_le (mantissa : ℕ) (exponent : ℤ) (low : 2 ^ (spec.mantissaBits - 1) ≤ mantissa)
    (top : spec.exponentBias + 2 ≤ spec.mantissaBits + exponent) : limit spec ≤ mantissa * 2 ^ exponent := by
  have bits := mantissaBits_pos spec
  calc limit spec = 2 ^ (((spec.exponentBias + 1 : ℕ) : ℤ)) := (zpow_natCast 2 _).symm
    _ ≤ 2 ^ ((spec.mantissaBits - 1 : ℕ) + exponent) := zpow_le_zpow_right₀ one_le_two (by omega)
    _ = 2 ^ (spec.mantissaBits - 1) * 2 ^ exponent := by rw [zpow_add₀ two_ne_zero, zpow_natCast]
    _ ≤ mantissa * 2 ^ exponent := mul_le_mul_of_nonneg_right (by exact_mod_cast low) (by positivity)

variable (biased : 0 < spec.exponentBias)
include biased

/-- A float is in the places of its format, and its number below the limit. -/
theorem unpack_canonical (bits : BitVec spec.numBits) : Canonical spec (UnpackedFloat.unpack spec bits) ∧
    ∀ a, number (UnpackedFloat.unpack spec bits) = some a → |a| < limit spec := by
  have width := two_pow_exponentBits spec
  have digits : spec.mantissaBits = 1 + spec.mantissaBitsWithoutImplicit := rfl
  have least := minExponent_eq spec
  have bound (sign : Sign) (n : ℕ) (e : ℤ) (high : n < 2 ^ spec.mantissaBits)
      (top : spec.mantissaBits + e ≤ spec.exponentBias + 1)
      (a : ℚ) (held : some ((sign.apply n : ℤ) * (2 : ℚ) ^ e) = some a) : |a| < limit spec := by
    rw [← Option.some.inj held, abs_apply]
    exact lt_limit spec n e high top
  unfold UnpackedFloat.unpack
  dsimp only
  generalize Sign.ofBitVec (unpackSign bits) = sign
  generalize unpackExponent bits = exponent
  have small := (unpackMantissa bits).isLt
  have range := exponent.isLt
  split
  · split <;> exact ⟨trivial, fun a held => by cases held⟩
  · rename_i finite
    split
    · rename_i none
      split
      · refine ⟨trivial, fun a held => ?_⟩
        cases held
        rw [abs_zero]
        exact limit_pos spec
      · have zero : exponent.toNat = 0 := by rw [none]; exact BitVec.toNat_zero
        have power : 2 ^ spec.mantissaBitsWithoutImplicit ≤ 2 ^ spec.mantissaBits :=
          Nat.pow_le_pow_right (by decide) (by omega)
        rw [zero]
        exact ⟨⟨small.trans_le power, by omega, .inr (by omega)⟩, bound sign _ _ (small.trans_le power) (by omega)⟩
    · rename_i some
      have above : exponent.toNat ≠ 0 :=
        fun zero => some (BitVec.eq_of_toNat_eq (by rw [zero]; exact BitVec.toNat_zero.symm))
      have below : exponent.toNat ≠ 2 ^ spec.exponentBits - 1 := by
        intro top
        apply finite
        apply BitVec.eq_of_toNat_eq
        rw [top, BitVec.neg_one_eq_allOnes, BitVec.toNat_allOnes]
      have value : (1#1 ++ unpackMantissa bits).toNat =
          2 ^ spec.mantissaBitsWithoutImplicit + (unpackMantissa bits).toNat := by
        rw [BitVec.toNat_append, ← Nat.shiftLeft_add_eq_or_of_lt small, Nat.shiftLeft_eq]
        simp
      have power : 2 ^ spec.mantissaBits = 2 * 2 ^ spec.mantissaBitsWithoutImplicit := by
        rw [digits, Nat.pow_add, Nat.pow_one]
      have index : spec.mantissaBits - 1 = spec.mantissaBitsWithoutImplicit := by omega
      have high : (1#1 ++ unpackMantissa bits).toNat < 2 ^ spec.mantissaBits := by omega
      refine ⟨⟨high, by omega, .inl ?_⟩, bound sign _ _ high (by omega)⟩
      rw [index, value]
      exact Nat.le_add_right _ _

theorem unpack_pack_incomplete (sign : Sign) (mantissa : ℕ) (positive : 0 < mantissa)
    (incomplete : mantissa < 2 ^ spec.mantissaBitsWithoutImplicit) :
    UnpackedFloat.unpack spec (UnpackedFloat.pack spec (.finite sign mantissa spec.minExponent positive)) =
      .finite sign mantissa spec.minExponent positive := by
  have width := two_pow_exponentBits spec
  have digits : spec.mantissaBits = 1 + spec.mantissaBitsWithoutImplicit := rfl
  have least := minExponent_eq spec
  have log := (Nat.log2_lt positive.ne').mpr incomplete
  have finite : ¬2 ^ spec.exponentBits ≤
      (spec.minExponent + spec.exponentBias + spec.mantissaBitsWithoutImplicit).toNat + 1 := by
    omega
  have notFull : ¬mantissa.log2 + 1 = spec.mantissaBits := by omega
  have notTop : (0#_ : BitVec spec.exponentBits) ≠ -1#_ := by
    rw [BitVec.neg_one_eq_allOnes]
    intro same
    have values := congrArg BitVec.toNat same
    rw [BitVec.toNat_zero, BitVec.toNat_allOnes] at values
    omega
  have kept : (BitVec.ofNat spec.mantissaBitsWithoutImplicit mantissa).toNat = mantissa := by
    rw [BitVec.toNat_ofNat, Nat.mod_eq_of_lt incomplete]
  have some : BitVec.ofNat spec.mantissaBitsWithoutImplicit mantissa ≠ 0#_ := by
    intro same
    have values := congrArg BitVec.toNat same
    rw [kept, BitVec.toNat_zero] at values
    omega
  simp only [UnpackedFloat.pack, if_neg finite, if_neg notFull, UnpackedFloat.unpack, unpackSign_packComponents,
    unpackExponent_packComponents, unpackMantissa_packComponents, notTop, if_false, if_true, some, dif_neg,
    not_false_eq_true, Sign.ofBitVec_toBitVec, kept, BitVec.toNat_zero]
  congr 1
  omega

theorem number_unpack_pack (x : UnpackedFloat) (canonical : Canonical spec x) :
    number (UnpackedFloat.unpack spec (UnpackedFloat.pack spec x)) = (number x).filter fun a => |a| <
      limit spec := by
  have width := two_pow_exponentBits spec
  have digits : spec.mantissaBits = 1 + spec.mantissaBitsWithoutImplicit := rfl
  have least := minExponent_eq spec
  have special (sign : Sign) (mantissa : BitVec spec.mantissaBitsWithoutImplicit) :
      number (UnpackedFloat.unpack spec (packComponents spec sign (-1#_) mantissa)) = none := by
    simp only [UnpackedFloat.unpack, unpackExponent_packComponents, if_true]
    split <;> rfl
  cases x with
  | infinity sign => exact special sign _
  | notANumber => exact special .positive _
  | zero sign =>
    have near : |(0 : ℚ)| < limit spec := by
      rw [abs_zero]
      exact limit_pos spec
    rw [unpack_pack_zero spec biased, number, Option.filter_some_pos (by simpa using near)]
  | finite sign mantissa exponent some =>
    have placed : Placed spec mantissa exponent := canonical
    obtain ⟨high, above, full⟩ := placed
    by_cases top : spec.exponentBias + 2 ≤ spec.mantissaBits + exponent
    · have low : 2 ^ (spec.mantissaBits - 1) ≤ mantissa := full.resolve_right (by omega)
      have infinite : 2 ^ spec.exponentBits ≤
          (exponent + spec.exponentBias + spec.mantissaBitsWithoutImplicit).toNat + 1 := by
        omega
      have far : ¬|((sign.apply mantissa : ℤ) : ℚ) * 2 ^ exponent| < limit spec := by
        rw [abs_apply]
        exact not_lt.mpr (limit_le spec mantissa exponent low top)
      rw [number, Option.filter_some_neg (by simpa using far)]
      simp only [UnpackedFloat.pack, if_pos infinite]
      exact special sign _
    · have near : |((sign.apply mantissa : ℤ) : ℚ) * 2 ^ exponent| < limit spec := by
        rw [abs_apply]
        exact lt_limit spec mantissa exponent high (by omega)
      have same : UnpackedFloat.unpack spec (UnpackedFloat.pack spec (.finite sign mantissa exponent some)) =
          .finite sign mantissa exponent some := by
        by_cases low : 2 ^ (spec.mantissaBits - 1) ≤ mantissa
        · exact unpack_pack_full spec mantissa exponent some (mantissa_log2 spec mantissa low high) (by omega)
            (by omega)
        · obtain rfl := full.resolve_left low
          apply unpack_pack_incomplete spec biased
          have index : spec.mantissaBits - 1 = spec.mantissaBitsWithoutImplicit := by omega
          rw [index] at low
          exact not_le.mp low
      rw [same, number, Option.filter_some_pos (by simpa using near)]

end Packing
section Specials
variable (spec : Format) (x y : UnpackedFloat)

theorem number_add_none (special : number x = none ∨ number y = none) :
    number (UnpackedFloat.add spec x y) = none := by
  have opposite (sign sign' : Sign) :
      number (UnpackedFloat.add spec (.infinity sign) (.infinity sign')) = none := by
    simp only [UnpackedFloat.add]
    split <;> rfl
  cases x <;>
  cases y <;>
  simp only [number, reduceCtorEq, or_self, or_true, true_or] at special
  all_goals first | rfl | exact opposite _ _

theorem number_div_none (special : number x = none) : number (UnpackedFloat.div spec x y) = none := by
  cases x <;>
  cases y <;>
  simp only [number, reduceCtorEq] at special
  all_goals rfl

end Specials

section Results

/-- The number that an operation leaves whose exact result is `x`, unless it overflows. -/
def result (spec : Format) (x : ℚ) : Option ℚ := (some (rounded spec x)).filter fun a => |a| < limit spec

/-- The number that a single-precision float stands for, unless it is an infinity or NaN. -/
def value (v : Float32) : Option ℚ := number v.toModel.unpack

/-- The number that a double-precision float stands for, unless it is an infinity or NaN. -/
def valueDouble (x : Float) : Option ℚ := number x.toModel.unpack

theorem amount_eq (v : Float32) : amount v = (value v).getD 0 := by
  unfold amount value
  cases v.toModel.unpack <;> rfl

variable {v w : Float32} {x y : Float} {a b : ℚ}

theorem denotes_value (held : value v = some a) : Denotes .binary32 v.toModel.unpack a :=
  ⟨held, (unpack_canonical .binary32 (by decide) _).1⟩

theorem denotes_valueDouble (held : valueDouble x = some a) : Denotes .binary64 x.toModel.unpack a :=
  ⟨held, (unpack_canonical .binary64 (by decide) _).1⟩

theorem value_lt (held : value v = some a) : |a| < limit .binary32 :=
  (unpack_canonical .binary32 (by decide) _).2 a held

theorem value_pack {u : UnpackedFloat} (denotes : Denotes .binary32 u (rounded .binary32 a)) :
    value (.ofModel (.pack u)) = result .binary32 a := by
  have packed := number_unpack_pack .binary32 (by decide) u denotes.canonical
  rw [denotes.number] at packed
  exact packed

theorem canonical_of_none {spec : Format} {u : UnpackedFloat} (special : number u = none) : Canonical spec u := by
  cases u with
  | finite sign mantissa exponent some => cases special
  | _ => trivial

theorem value_pack_none {u : UnpackedFloat} (special : number u = none) : value (.ofModel (.pack u)) = none := by
  have packed := number_unpack_pack .binary32 (by decide) u (canonical_of_none special)
  rw [special] at packed
  exact packed

theorem value_add (first : value v = some a) (second : value w = some b) :
    value (v + w) = result .binary32 (a + b) :=
  value_pack ((denotes_value first).add (denotes_value second))

theorem value_add_none (special : value v = none ∨ value w = none) : value (v + w) = none :=
  value_pack_none (number_add_none .binary32 _ _ special)

theorem value_div (first : value v = some a) (second : value w = some b) (nonzero : b ≠ 0) :
    value (v / w) = result .binary32 (a / b) :=
  value_pack ((denotes_value first).div (denotes_value second) nonzero)

theorem value_div_none (special : value v = none) : value (v / w) = none :=
  value_pack_none (number_div_none .binary32 _ w.toModel.unpack special)

theorem valueDouble_pack {u : UnpackedFloat} (denotes : Denotes .binary64 u (rounded .binary64 a)) :
    valueDouble (.ofModel (.pack u)) = result .binary64 a := by
  have packed := number_unpack_pack .binary64 (by decide) u denotes.canonical
  rw [denotes.number] at packed
  exact packed

theorem valueDouble_div (first : valueDouble x = some a) (second : valueDouble y = some b) (nonzero : b ≠ 0) :
    valueDouble (x / y) = result .binary64 (a / b) :=
  valueDouble_pack ((denotes_valueDouble first).div (denotes_valueDouble second) nonzero)

theorem rounded_double (held : value v = some a) : rounded .binary64 a = a := by
  obtain ⟨number, canonical⟩ := denotes_value held
  generalize v.toModel.unpack = u at number canonical
  cases u with
  | infinity sign => cases number
  | notANumber => cases number
  | zero sign =>
    cases number
    rw [rounded_nonneg _ le_rfl, magnitude_zero]
  | finite sign mantissa exponent some =>
    cases number
    have placed : Placed .binary32 mantissa exponent := canonical
    have wide : 2 ^ Format.binary32.mantissaBits ≤ 2 ^ Format.binary64.mantissaBits := by decide
    have deep : Format.binary64.minExponent ≤ Format.binary32.minExponent := by decide
    rw [signed_apply, rounded_signed, rounded_grid .binary64 mantissa exponent (placed.high.le.trans wide)
      (deep.trans placed.least)]

/-- Conversion to double precision is exact. -/
theorem valueDouble_toDouble (v : Float32) : valueDouble (toDouble v) = value v := by
  rcases held : value v with _ | a
  · have kept : number (ExactFloat.recode .binary64 v.toModel.unpack) = none := by
      unfold value at held
      generalize v.toModel.unpack = u at held ⊢
      cases u with
      | finite sign mantissa exponent some => cases held
      | zero sign => cases held
      | _ => rfl
    have packed := number_unpack_pack .binary64 (by decide) _ (canonical_of_none kept)
    rw [kept] at packed
    exact packed
  · have wide : limit .binary32 ≤ limit .binary64 := by
      unfold limit
      exact pow_le_pow_right₀ one_le_two (by decide)
    have near := (value_lt held).trans_le wide
    have widened : Denotes .binary64 (ExactFloat.recode .binary64 v.toModel.unpack) (rounded .binary64 a) :=
      (denotes_value held).recode
    have packed := valueDouble_pack widened
    rw [result, rounded_double held, Option.filter_some_pos (by simpa using near)] at packed
    exact packed

theorem limit_single : limit .binary32 = 2 ^ 128 := by
  unfold limit
  congr 1

theorem result_single (x : ℚ) :
    result .binary32 x = if 2 ^ 128 - 2 ^ 103 ≤ |x| then none else some (rounded .binary32 x) := by
  have upper (y : ℚ) : rounded .binary32 y < limit .binary32 ↔ y < 2 ^ 128 - 2 ^ 103 := by
    rw [rounded_lt_iff .binary32 16777215 104 (by decide) (by decide) (by decide) _
        (by rw [limit_single]; norm_num) (by rw [limit_single]; norm_num), below_odd 16777215 104 (by decide)]
    norm_num
  have near : |rounded .binary32 x| < limit .binary32 ↔ ¬2 ^ 128 - 2 ^ 103 ≤ |x| := by
    rw [not_le, abs_lt, abs_lt, neg_lt, ← rounded_neg, upper, upper, neg_lt]
  unfold result
  split
  · rename_i far
    exact Option.filter_some_neg (by simpa using fun less => near.mp less far)
  · rename_i inside
    exact Option.filter_some_pos (by simpa using near.mpr inside)

theorem value_le (held : value v = some a) : |a| ≤ 16777215 * 2 ^ 104 := by
  have same := (denotes_value held).rounded
  have near := abs_lt.mp (value_lt held)
  have largest (y : ℚ) (kept : rounded .binary32 y = y) (less : y < limit .binary32) : y ≤ 16777215 * 2 ^ 104 := by
    obtain ⟨lower, upper⟩ := rounded_cut .binary32 16777215 104 (by decide) (by decide) (by decide) y
    rw [kept] at lower upper
    by_contra past
    have order := upper fun before => past (by exact_mod_cast lower before)
    rw [limit_single] at less
    norm_num at order less
    linarith
  rw [abs_le]
  have upper := largest a same near.2
  have lower := largest (-a) (by rw [rounded_neg, same]) (by linarith)
  constructor <;> linarith

end Results
end EspLog.Nearest

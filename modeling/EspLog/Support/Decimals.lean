import EspLog.Support.TextLength

/-! Printed decimals read as floats again: how far the float is from the number that was printed, and which
numbers come back. -/

namespace EspLog.Decimals
open Float.Model Float.Model.UnpackedFloat CText ExactFloat Rounding Nearest

section Distance
variable (spec : Format) (x : ℚ)

theorem nearest_near (nonnegative : 0 ≤ x) : |(nearest x : ℚ) - x| ≤ 1 / 2 := by
  have lower := Nat.floor_le nonnegative
  have upper := Nat.lt_floor_add_one x
  unfold nearest
  rw [abs_le]
  split
  · constructor <;> linarith
  · split
    · rename_i tie
      have parity : ((⌊x⌋₊ % 2 : ℕ) : ℚ) ≤ 1 := by exact_mod_cast Nat.le_of_lt_succ (Nat.mod_lt _ (by decide))
      have least : (0 : ℚ) ≤ ((⌊x⌋₊ % 2 : ℕ) : ℚ) := Nat.cast_nonneg _
      push_cast at parity least ⊢
      constructor <;> linarith
    · rename_i half tie
      have above := lt_of_le_of_ne (not_lt.mp half) (Ne.symm tie)
      push_cast
      constructor <;> linarith

theorem rounded_near (nonnegative : 0 ≤ x) : |rounded spec x - x| ≤ 2 ^ place spec x / 2 := by
  have scale : (0 : ℚ) < 2 ^ place spec x := by positivity
  have near := nearest_near (x / 2 ^ place spec x) (by positivity)
  have split : rounded spec x - x = (nearest (x / 2 ^ place spec x) - x / 2 ^ place spec x) *
      2 ^ place spec x := by
    rw [rounded_nonneg spec nonnegative, magnitude, sub_mul, div_mul_cancel₀ _ scale.ne']
  rw [split, abs_mul, abs_of_pos scale]
  calc |(nearest (x / 2 ^ place spec x) : ℚ) - x / 2 ^ place spec x| * 2 ^ place spec x
      ≤ 1 / 2 * 2 ^ place spec x := mul_le_mul_of_nonneg_right near scale.le
    _ = 2 ^ place spec x / 2 := by ring

theorem rounded_near_of_lt (exponent : ℤ) (least : spec.minExponent ≤ exponent - spec.mantissaBits)
    (nonnegative : 0 ≤ x) (below : x < 2 ^ exponent) :
    |rounded spec x - x| ≤ 2 ^ (exponent - spec.mantissaBits) / 2 := by
  rcases nonnegative.lt_or_eq with positive | zero
  · have log : Int.log 2 x < exponent :=
      (Int.lt_zpow_iff_log_lt (b := 2) one_lt_two positive).mp (by exact_mod_cast below)
    have last : place spec x ≤ exponent - spec.mantissaBits := by
      unfold place Format.targetExponent
      omega
    have unit : (2 : ℚ) ^ place spec x ≤ 2 ^ (exponent - spec.mantissaBits) := zpow_le_zpow_right₀ one_le_two last
    have near := rounded_near spec x nonnegative
    linarith
  · rw [← zero, rounded_nonneg spec le_rfl, magnitude_zero, sub_zero, abs_zero]
    positivity

theorem rounded_of_near (mantissa : ℕ) (exponent : ℤ) (low : 2 ^ (spec.mantissaBits - 1) < mantissa)
    (high : mantissa < 2 ^ spec.mantissaBits) (least : spec.minExponent ≤ exponent)
    (near : |x - mantissa * 2 ^ exponent| < 2 ^ exponent / 2) : rounded spec x = mantissa * 2 ^ exponent := by
  have upper := (rounded_cut spec mantissa exponent low.le high least x).1
  have lower := (rounded_cut spec (mantissa - 1) exponent (Nat.le_sub_one_of_lt low)
    ((Nat.sub_le _ _).trans_lt high) least x).2
  have previous : ((mantissa - 1 : ℕ) : ℚ) = mantissa - 1 := by
    rw [Nat.cast_sub (Nat.one_le_of_lt low), Nat.cast_one]
  have above : ((mantissa : ℚ) + 1 / 2) * 2 ^ exponent = mantissa * 2 ^ exponent + 2 ^ exponent / 2 := by ring
  have below : ((mantissa : ℚ) - 1 + 1 / 2) * 2 ^ exponent = mantissa * 2 ^ exponent - 2 ^ exponent / 2 := by ring
  rw [abs_lt] at near
  rw [previous, sub_add_cancel] at lower
  apply le_antisymm
  · apply upper
    left
    rw [above]
    linarith
  · apply lower
    intro before
    rw [Below, previous, below] at before
    rcases before with less | tie
    · linarith
    · linarith

end Distance

section Conversions
variable {v w : Float32} {x : Float} {a b : ℚ}

theorem value_toSingle (held : valueDouble x = some a) : value (toSingle x) = result .binary32 a :=
  value_pack (denotes_valueDouble held).recode

theorem valueDouble_neg (held : valueDouble x = some a) : valueDouble (-x) = some (-a) := by
  have near : |-a| < limit .binary64 := by
    rw [abs_neg]
    exact (unpack_canonical .binary64 (by decide) _).2 a held
  have opposite : number x.toModel.unpack.neg = some (-a) ∧ Canonical .binary64 x.toModel.unpack.neg := by
    obtain ⟨held, canonical⟩ := denotes_valueDouble held
    generalize x.toModel.unpack = u at held canonical
    cases u with
    | infinity sign => cases held
    | notANumber => cases held
    | zero sign =>
      cases held
      exact ⟨congrArg some neg_zero.symm, trivial⟩
    | finite sign mantissa exponent positive =>
      obtain rfl := Option.some.inj held
      refine ⟨?_, canonical⟩
      rw [UnpackedFloat.neg, number, signed_apply, signed_apply]
      cases sign
      · exact congrArg some (neg_neg _).symm
      · rfl
  have packed := number_unpack_pack .binary64 (by decide) _ opposite.2
  rw [opposite.1, Option.filter_some_pos (by simpa using near)] at packed
  exact packed

theorem valueDouble_ofScientific (n places : ℕ) (pointed : 0 < places) (few : places ≤ 2 ^ 11) :
    valueDouble (.ofModel (Float.Model.ofScientific n (-(places : ℤ)))) = result .binary64 (n / 10 ^ places) := by
  suffices denotes : Denotes .binary64
      (UnpackedFloat.ofScientific .binary64 n (-(places : ℤ))) (rounded .binary64 (n / 10 ^ places)) by
    exact valueDouble_pack denotes
  have bits : Format.binary64.exponentBits = 11 := rfl
  unfold UnpackedFloat.ofScientific
  split
  · rename_i none
    rw [none, Nat.cast_zero, zero_div, rounded_nonneg _ le_rfl, magnitude_zero]
    exact ⟨rfl, trivial⟩
  · rename_i some
    rw [if_neg (by rw [bits]; omega), if_neg (by rw [bits]; omega)]
    have ten : (10 : ℚ) ^ places ≠ 0 := by positivity
    have power : (-(-(places : ℤ))).toNat = places := by omega
    have dividend : number (.finite .positive n 0 (Nat.pos_of_ne_zero some)) = Option.some (n : ℚ) := by
      simp [number, Sign.apply]
    have divisor : number (.finite .positive (10 ^ places) 0 (Nat.pow_pos (by decide))) =
        Option.some ((10 : ℚ) ^ places) := by
      simp [number, Sign.apply]
    rw [if_neg (by omega)]
    simp only [power]
    exact denotes_div dividend divisor ten

end Conversions

section Texts

theorem natOf_append (s rest : Str) : natOf 10 (s ++ rest) = natOf 10 s * 10 ^ rest.length + natOf 10 rest := by
  have step (s : Str) (b : UInt8) : natOf 10 (s ++ [b]) = 10 * natOf 10 s + (digitValue b).getD 0 :=
    List.foldl_append
  induction rest using List.reverseRecOn with
  | nil =>
    rw [List.append_nil, List.length_nil, Nat.pow_zero, Nat.mul_one]
    rfl
  | append_singleton rest b ih =>
    rw [← List.append_assoc, step, step, ih, List.length_append, List.length_singleton, Nat.pow_succ]
    ring

theorem natOf_zeros (k : ℕ) : natOf 10 (List.replicate k 48) = 0 := by
  induction k with
  | zero => rfl
  | succ k ih => exact ih

theorem fixedPoint_parts (n places : ℕ) (pointed : 0 < places) :
    ∃ fraction : Str, fixedPoint n places = decimal (n / 10 ^ places) ++ 46 :: fraction ∧
      fraction.length = places ∧
      (∀ b ∈ fraction, isDigit b = true) ∧ natOf 10 (decimal (n / 10 ^ places) ++ fraction) = n := by
  have short := (TextLength.length_decimal_le_iff (n % 10 ^ places) places pointed).mpr
    (Nat.mod_lt _ (by positivity))
  have length : (padLeft places 48 (decimal (n % 10 ^ places))).length = places := by
    rw [TextLength.length_padLeft, Nat.max_eq_left short]
  refine ⟨padLeft places 48 (decimal (n % 10 ^ places)), ?_, length, ?_, ?_⟩
  · rw [fixedPoint, if_neg pointed.ne']
  · intro b member
    rcases List.mem_append.mp member with zero | digit
    · rw [(List.mem_replicate.mp zero).2]
      rfl
    · exact decimal_digits _ b digit
  · rw [natOf_append, length, padLeft, natOf_append, natOf_zeros, natOf_decimal, natOf_decimal, Nat.zero_mul,
      Nat.zero_add]
    exact Nat.div_add_mod' n (10 ^ places)

theorem digit_bounds (b : UInt8) (digit : isDigit b = true) : 48 ≤ b.toNat ∧ b.toNat ≤ 57 := by
  simpa [isDigit, UInt8.le_iff_toNat_le] using digit

theorem fixedPoint_bytes (n places : ℕ) (pointed : 0 < places) :
    ∀ b ∈ fixedPoint n places, b = 46 ∨ isDigit b = true := by
  obtain ⟨fraction, shape, -, digits, -⟩ := fixedPoint_parts n places pointed
  intro b member
  rw [shape] at member
  rcases List.mem_append.mp member with whole | rest
  · exact .inr (decimal_digits _ b whole)
  rcases List.mem_cons.mp rest with point | rest
  · exact .inl point
  · exact .inr (digits b rest)

theorem unsignedReal_fixedPoint (n places : ℕ) (pointed : 0 < places) :
    unsignedReal (fixedPoint n places) = .ofModel (Float.Model.ofScientific n (-(places : ℤ))) := by
  have other (mark : UInt8) (letter : 65 ≤ mark.toNat) (word : Str) (marked : mark ∈ word) :
      ¬word.isPrefixOf ((fixedPoint n places).map lower) = true := by
    intro starts
    obtain ⟨b, member, same⟩ := List.mem_map.mp ((List.isPrefixOf_iff_prefix.mp starts).subset marked)
    have low : b.toNat ≤ 57 := by
      rcases fixedPoint_bytes n places pointed b member with rfl | digit
      · decide
      · exact (digit_bounds b digit).2
    have kept : lower b = b := by
      apply if_neg
      simp only [Bool.and_eq_true, decide_eq_true_eq, UInt8.le_iff_toNat_le, not_and]
      intro high
      exact absurd (high.trans low) (by decide)
    rw [kept] at same
    rw [same] at low
    omega
  obtain ⟨fraction, shape, length, digits, number⟩ := fixedPoint_parts n places pointed
  have whole : (fixedPoint n places).takeWhile isDigit = decimal (n / 10 ^ places) := by
    rw [shape, List.takeWhile_append_of_pos (decimal_digits _), List.takeWhile_cons_of_neg (by decide),
      List.append_nil]
  have point : (fixedPoint n places).dropWhile isDigit = 46 :: fraction := by
    rw [shape, List.dropWhile_append_of_pos (decimal_digits _), List.dropWhile_cons_of_neg (by decide)]
  have behind : fraction.takeWhile isDigit = fraction := List.takeWhile_eq_self_iff.mpr digits
  have rest : fraction.dropWhile isDigit = [] := List.dropWhile_eq_nil_iff.mpr digits
  have parts : mantissa 10 isDigit (fixedPoint n places) =
      (n, places, !(decimal (n / 10 ^ places) ++ fraction).isEmpty, []) := by
    rw [mantissa, point, whole]
    split
    · rename_i same
      obtain ⟨-, rfl⟩ := List.cons.inj same
      rw [behind, rest]
      dsimp only
      rw [number, length]
    · rename_i none
      exact absurd rfl (none fraction)
  unfold unsignedReal
  dsimp only
  rw [if_neg (other 105 (by decide) _ (by decide +kernel)), if_neg (other 110 (by decide) _ (by decide +kernel)),
    if_neg (other 120 (by decide) _ (by decide +kernel)), decimalReal, parts]
  dsimp only
  rw [exponent, zero_sub]

theorem dropWhile_padLeft (width : ℕ) (s : Str) (filled : ∀ b ∈ s.head?, isSpace b = false) :
    (padLeft width 32 s).dropWhile isSpace = s := by
  have blank : ∀ b ∈ List.replicate (width - s.length) (32 : UInt8), isSpace b = true := by
    intro b member
    rw [(List.mem_replicate.mp member).2]
    rfl
  rw [padLeft, List.dropWhile_append_of_pos blank]
  cases s with
  | nil => rfl
  | cons b rest =>
    have other := filled b rfl
    rw [List.dropWhile_cons, other]
    rfl

theorem strtod_fixedPoint (width n places : ℕ) (pointed : 0 < places) :
    strtod (padLeft width 32 (fixedPoint n places)) = .ofModel (Float.Model.ofScientific n (-(places : ℤ))) ∧
    strtod (padLeft width 32 (45 :: fixedPoint n places)) =
      -.ofModel (Float.Model.ofScientific n (-(places : ℤ))) := by
  have bytes := fixedPoint_bytes n places pointed
  have above (b : UInt8) (member : b ∈ fixedPoint n places) : 46 ≤ b.toNat := by
    rcases bytes b member with rfl | digit
    · decide
    · exact (by decide : 46 ≤ 48).trans (digit_bounds b digit).1
  have ended (s : Str) (filled : ∀ b ∈ s, b ≠ 0) : cString (padLeft width 32 s) = padLeft width 32 s := by
    apply List.takeWhile_eq_self_iff.mpr
    intro b member
    rcases List.mem_append.mp member with blank | inside
    · rw [(List.mem_replicate.mp blank).2]
      rfl
    · simpa using filled b inside
  have some (b : UInt8) (member : b ∈ fixedPoint n places) : b ≠ 0 := by
    intro same
    have least := above b member
    rw [same] at least
    exact absurd least (by decide)
  have unspaced (b : UInt8) (high : 45 ≤ b.toNat) : isSpace b = false := by
    simp only [isSpace, Bool.or_eq_false_iff, beq_eq_false_iff_ne, Bool.and_eq_false_imp, decide_eq_true_eq,
      decide_eq_false_iff_not, UInt8.le_iff_toNat_le, ne_eq, ← UInt8.toNat_inj]
    have blank : (32 : UInt8).toNat = 32 := rfl
    have last : (13 : UInt8).toNat = 13 := rfl
    omega
  have value := unsignedReal_fixedPoint n places pointed
  constructor
  · have plain : CText.signed (fixedPoint n places) = (false, fixedPoint n places) := by
      obtain ⟨fraction, shape, -⟩ := fixedPoint_parts n places pointed
      obtain ⟨b, digits, first⟩ := List.exists_cons_of_ne_nil (decimal_ne_nil (n / 10 ^ places))
      have digit := digit_bounds b (decimal_digits (n / 10 ^ places) b (first ▸ List.mem_cons_self))
      rw [shape, first, List.cons_append]
      unfold CText.signed
      split
      · rename_i same
        cases same
        exact absurd digit (by decide)
      · rename_i same
        cases same
        exact absurd digit (by decide)
      · rfl
    rw [strtod, ended _ some, dropWhile_padLeft, plain]
    · exact value
    · intro b head
      exact unspaced b ((by decide : 45 ≤ 46).trans (above b (List.mem_of_mem_head? head)))
  · rw [strtod, ended, dropWhile_padLeft]
    · exact congrArg Neg.neg value
    · intro b head
      obtain rfl := Option.some.inj head
      decide
    · intro b member
      rcases List.mem_cons.mp member with rfl | member
      · decide
      · exact some b member

end Texts

section Reading

/-- The number that `dtostrf` prints for another: half up, without regard to the sign. -/
def shown (places : ℕ) (a : ℚ) : ℚ :=
  if a < 0 then -(⌊-a * 10 ^ places + 1 / 2⌋₊ / 10 ^ places) else ⌊a * 10 ^ places + 1 / 2⌋₊ / 10 ^ places

theorem scaled_eq (mantissa places : ℕ) (exponent : ℤ) :
    scaled mantissa exponent places = ⌊(mantissa : ℚ) * 2 ^ exponent * 10 ^ places + 1 / 2⌋₊ := by
  apply eq_of_forall_gt_iff
  intro bound
  rw [TextLength.scaled_lt_iff, Nat.floor_lt (by positivity)]

theorem shown_neg (places : ℕ) (a : ℚ) : shown places (-a) = -shown places a := by
  have half : ⌊(1 / 2 : ℚ)⌋₊ = 0 := Nat.floor_eq_zero.mpr (by norm_num)
  unfold shown
  rcases lt_trichotomy a 0 with negative | rfl | positive
  · rw [if_neg (by linarith), if_pos negative, neg_neg]
  · rw [neg_zero, if_neg (lt_irrefl 0), zero_mul, zero_add, half, Nat.cast_zero, zero_div, if_neg (lt_irrefl 0),
      neg_zero]
  · rw [if_pos (by linarith), if_neg (by linarith), neg_neg]

theorem shown_nonneg (places : ℕ) (a : ℚ) (nonnegative : 0 ≤ a) :
    shown places a = ⌊a * 10 ^ places + 1 / 2⌋₊ / 10 ^ places := if_neg (not_lt.mpr nonnegative)

theorem shown_near (places : ℕ) (a : ℚ) : |shown places a - a| ≤ 1 / (2 * 10 ^ places) := by
  have near (a : ℚ) (nonnegative : 0 ≤ a) : |shown places a - a| ≤ 1 / (2 * 10 ^ places) := by
    have lower := Nat.floor_le (by positivity : 0 ≤ a * 10 ^ places + 1 / 2)
    have upper := Nat.lt_floor_add_one (a * 10 ^ places + 1 / 2)
    have scale : (0 : ℚ) < 10 ^ places := by positivity
    have split : shown places a - a = (⌊a * 10 ^ places + 1 / 2⌋₊ - a * 10 ^ places) / 10 ^ places := by
      rw [shown_nonneg places a nonnegative, sub_div, mul_div_cancel_right₀ _ scale.ne']
    have unit : (1 : ℚ) / (2 * 10 ^ places) = 1 / 2 / 10 ^ places := by rw [div_div]
    rw [split, abs_div, abs_of_pos scale, unit]
    apply div_le_div_of_nonneg_right _ scale.le
    rw [abs_le]
    constructor <;> linarith
  rcases le_or_gt 0 a with nonnegative | negative
  · exact near a nonnegative
  · have opposite := near (-a) (by linarith)
    rwa [shown_neg, ← neg_sub', abs_neg] at opposite

theorem result_double (r : ℚ) (small : |r| ≤ 2 ^ 200) : result .binary64 r = some (rounded .binary64 r) := by
  have top : rounded .binary64 (2 ^ 200) = 2 ^ 200 := by
    have grid := rounded_grid .binary64 1 200 (by decide) (by decide)
    rwa [Nat.cast_one, one_mul] at grid
  have less : (2 : ℚ) ^ 200 < limit .binary64 := by
    unfold limit
    exact pow_lt_pow_right₀ one_lt_two (by decide)
  rw [abs_le] at small
  have upper := rounded_mono .binary64 small.2
  have lower := rounded_mono .binary64 small.1
  rw [rounded_neg, top] at lower
  rw [top] at upper
  have near : |rounded .binary64 r| < limit .binary64 := by
    rw [abs_lt]
    constructor <;> linarith
  rw [result, Option.filter_some_pos (by simpa using near)]

variable {x : Float} {v : Float32} {a : ℚ}

theorem valueDouble_strtod (width places : ℕ) (pointed : 0 < places) (few : places ≤ 2 ^ 11)
    (held : valueDouble x = some a) (small : |shown places a| ≤ 2 ^ 200) :
    valueDouble (strtod (dtostrf x width places)) = some (rounded .binary64 (shown places a)) := by
  have read (n : ℕ) (same : |shown places a| = n / 10 ^ places) :
      valueDouble (.ofModel (Float.Model.ofScientific n (-(places : ℤ)))) =
      some (rounded .binary64 |shown places a|) := by
    rw [valueDouble_ofScientific n places pointed few, ← same, result_double _ (by rwa [abs_abs])]
  unfold valueDouble at held
  unfold dtostrf
  cases unpacked : x.toModel.unpack with
  | infinity sign => rw [unpacked] at held; cases held
  | notANumber => rw [unpacked] at held; cases held
  | zero sign =>
    rw [unpacked] at held
    cases held
    have none : shown places 0 = 0 := by
      have opposite := shown_neg places 0
      rw [neg_zero] at opposite
      linarith
    have value := read 0 (by rw [none, abs_zero, Nat.cast_zero, zero_div])
    rw [none, abs_zero] at value
    dsimp only
    rw [(strtod_fixedPoint width 0 places pointed).1, none]
    exact value
  | finite sign mantissa exponent some =>
    rw [unpacked] at held
    obtain rfl := Option.some.inj held
    rw [signed_apply] at small read ⊢
    have number : (0 : ℚ) ≤ mantissa * 2 ^ exponent := by positivity
    have printed := shown_nonneg places _ number
    rw [← scaled_eq] at printed
    have nonnegative : (0 : ℚ) ≤ scaled mantissa exponent places / 10 ^ places := by positivity
    cases sign with
    | positive =>
      dsimp only [Nearest.signed] at read ⊢
      rw [printed, abs_of_nonneg nonnegative] at read
      rw [(strtod_fixedPoint width _ places pointed).1, printed]
      exact read _ rfl
    | negative =>
      dsimp only [Nearest.signed] at read ⊢
      rw [shown_neg, printed, abs_neg, abs_of_nonneg nonnegative] at read
      rw [(strtod_fixedPoint width _ places pointed).2, shown_neg, printed, rounded_neg]
      exact valueDouble_neg (read _ rfl)

end Reading

section Hundredths
variable {v : Float32} {a : ℚ}

/-- A decimal in single precision: it is read as a double first. -/
def readBack (r : ℚ) : ℚ := rounded .binary32 (rounded .binary64 r)

theorem readBack_neg (r : ℚ) : readBack (-r) = -readBack r := by rw [readBack, rounded_neg, rounded_neg, readBack]

theorem readBack_mono {r t : ℚ} (order : r ≤ t) : readBack r ≤ readBack t := rounded_mono _ (rounded_mono _ order)

theorem readBack_grid {mantissa : ℕ} {exponent : ℤ} (placed : Placed .binary32 mantissa exponent) :
    readBack (mantissa * 2 ^ exponent) = mantissa * 2 ^ exponent := by
  have wide : 2 ^ Format.binary32.mantissaBits ≤ 2 ^ Format.binary64.mantissaBits := by decide
  have deep : Format.binary64.minExponent ≤ Format.binary32.minExponent := by decide
  rw [readBack, rounded_grid .binary64 mantissa exponent (placed.high.le.trans wide) (deep.trans placed.least),
    rounded_grid .binary32 mantissa exponent placed.high.le placed.least]

theorem shown_natural (n : ℕ) : shown 2 n = n := by
  have whole : (n : ℚ) * 10 ^ 2 + 1 / 2 = (n * 100 : ℕ) + 1 / 2 := by
    push_cast
    ring
  have floor : ⌊((n * 100 : ℕ) : ℚ) + 1 / 2⌋₊ = n * 100 := by
    rw [Nat.floor_eq_iff (by positivity)]
    constructor <;> linarith
  rw [shown_nonneg 2 _ (Nat.cast_nonneg n), whole, floor]
  push_cast
  ring

/-- Below two to the seventeenth, floats lie closer together than hundredths. -/
theorem readBack_small (m : ℕ) (small : readBack (m / 100) < 2 ^ 17) :
    readBack (shown 2 (readBack (m / 100))) = readBack (m / 100) := by
  have least : (0 : ℚ) ≤ m / 100 := by positivity
  have power : rounded .binary64 (2 ^ 17) = 2 ^ 17 ∧ rounded .binary32 (2 ^ 17) = 2 ^ 17 := by
    have wide := rounded_grid .binary64 1 17 (by decide) (by decide)
    have narrow := rounded_grid .binary32 1 17 (by decide) (by decide)
    rw [Nat.cast_one, one_mul] at wide narrow
    exact ⟨wide, narrow⟩
  have below : rounded .binary64 (m / 100) < 2 ^ 17 := by
    by_contra past
    have order := rounded_mono .binary32 (not_lt.mp past)
    rw [power.2] at order
    exact absurd small (not_lt.mpr order)
  have under : (m : ℚ) / 100 < 2 ^ 17 := by
    by_contra past
    have order := rounded_mono .binary64 (not_lt.mp past)
    rw [power.1] at order
    exact absurd below (not_lt.mpr order)
  have first := rounded_near_of_lt .binary64 (m / 100) 17 (by decide) least (by exact_mod_cast under)
  have zero : rounded .binary64 0 = 0 := by rw [rounded_nonneg _ le_rfl, magnitude_zero]
  have nonnegative : 0 ≤ rounded .binary64 ((m : ℚ) / 100) := by
    have order := rounded_mono .binary64 least
    rwa [zero] at order
  have second := rounded_near_of_lt .binary32 _ 17 (by decide) nonnegative (by exact_mod_cast below)
  have bits : Format.binary64.mantissaBits = 53 ∧ Format.binary32.mantissaBits = 24 := ⟨rfl, rfl⟩
  rw [bits.1] at first
  rw [bits.2] at second
  norm_num [abs_le] at first second
  have floor : ⌊readBack (m / 100) * 10 ^ 2 + 1 / 2⌋₊ = m := by
    unfold readBack
    rw [Nat.floor_eq_iff (by linarith)]
    constructor <;> linarith
  have positive : 0 ≤ readBack (m / 100) := by
    unfold readBack
    have order := rounded_mono .binary32 nonnegative
    rwa [rounded_nonneg _ le_rfl, magnitude_zero] at order
  rw [shown_nonneg 2 _ positive, floor]
  norm_num

/-- From there on, hundredths are closer to a float than its neighbours. -/
theorem readBack_large {mantissa : ℕ} {exponent : ℤ} (placed : Placed .binary32 mantissa exponent)
    (large : 2 ^ 17 ≤ (mantissa : ℚ) * 2 ^ exponent) :
    readBack (shown 2 (mantissa * 2 ^ exponent)) = mantissa * 2 ^ exponent := by
  by_cases natural : ∃ n : ℕ, (mantissa : ℚ) * 2 ^ exponent = n
  · obtain ⟨n, same⟩ := natural
    rw [same, shown_natural, ← same, readBack_grid placed]
  · have positive : (0 : ℚ) < mantissa * 2 ^ exponent := by linarith
    have high : mantissa < 2 ^ 24 := placed.high
    have fraction : exponent < 0 := by
      by_contra raised
      obtain ⟨shift, rfl⟩ := Int.eq_ofNat_of_zero_le (not_lt.mp raised)
      exact natural ⟨mantissa * 2 ^ shift, by push_cast; rw [zpow_natCast]⟩
    have least : -6 ≤ exponent := by
      by_contra less
      have unit : (2 : ℚ) ^ exponent ≤ 2 ^ (-7 : ℤ) := zpow_le_zpow_right₀ one_le_two (by omega)
      have most : (mantissa : ℚ) < 2 ^ 24 := by exact_mod_cast high
      have product : (mantissa : ℚ) * 2 ^ exponent < 2 ^ 24 * 2 ^ (-7 : ℤ) := by
        calc (mantissa : ℚ) * 2 ^ exponent ≤ mantissa * 2 ^ (-7 : ℤ) :=
          mul_le_mul_of_nonneg_left unit (Nat.cast_nonneg _)
          _ < 2 ^ 24 * 2 ^ (-7 : ℤ) := mul_lt_mul_of_pos_right most (by positivity)
      norm_num at product large
      linarith
    have unit : (1 : ℚ) / 64 ≤ 2 ^ exponent := by
      have power : (2 : ℚ) ^ (-6 : ℤ) ≤ 2 ^ exponent := zpow_le_zpow_right₀ one_le_two least
      norm_num at power ⊢
      exact power
    have half : (2 : ℚ) ^ exponent ≤ 1 / 2 := by
      have power : (2 : ℚ) ^ exponent ≤ 2 ^ (-1 : ℤ) := zpow_le_zpow_right₀ one_le_two (by omega)
      norm_num at power ⊢
      exact power
    have most : (mantissa : ℚ) * 2 ^ exponent ≤ 2 ^ 24 * (1 / 2) :=
      mul_le_mul (by exact_mod_cast high.le) half (by positivity) (by norm_num)
    have normal : 2 ^ 23 ≤ mantissa := placed.full.resolve_right fun smallest => by
      have deep : Format.binary32.minExponent = -149 := rfl
      omega
    have inner : 2 ^ 23 < mantissa := by
      refine lt_of_le_of_ne normal fun same => ?_
      obtain ⟨shift, amount⟩ := Int.eq_ofNat_of_zero_le (by omega : 0 ≤ 23 + exponent)
      refine natural ⟨2 ^ shift, ?_⟩
      have split : (2 : ℚ) ^ (23 + exponent) = 2 ^ 23 * 2 ^ exponent := by
        rw [zpow_add₀ two_ne_zero]
        norm_num
      rw [amount, zpow_natCast] at split
      rw [← same]
      push_cast
      exact split.symm
    have printed := shown_near 2 ((mantissa : ℚ) * 2 ^ exponent)
    have nonnegative : 0 ≤ shown 2 ((mantissa : ℚ) * 2 ^ exponent) := by
      rw [shown_nonneg 2 _ positive.le]
      positivity
    generalize shown 2 ((mantissa : ℚ) * 2 ^ exponent) = s at printed nonnegative ⊢
    norm_num [abs_le] at printed
    have below : s < 2 ^ (24 : ℤ) := by
      norm_num
      linarith
    have near := rounded_near_of_lt .binary64 s 24 (by decide) nonnegative below
    have bits : Format.binary64.mantissaBits = 53 := rfl
    rw [bits] at near
    norm_num [abs_le] at near
    apply rounded_of_near .binary32 _ mantissa exponent inner high placed.least
    rw [abs_lt]
    constructor <;> linarith

theorem value_cases (held : value v = some a) :
    a = 0 ∨ ∃ sign mantissa exponent, Placed .binary32 mantissa exponent ∧
    a = Nearest.signed sign (mantissa * 2 ^ exponent) := by
  obtain ⟨number, canonical⟩ := denotes_value held
  generalize v.toModel.unpack = u at number canonical
  cases u with
  | infinity sign => cases number
  | notANumber => cases number
  | zero sign => exact .inl (Option.some.inj number).symm
  | finite sign mantissa exponent some =>
    obtain rfl := Option.some.inj number
    exact .inr ⟨sign, mantissa, exponent, canonical, signed_apply sign mantissa exponent⟩

theorem readBack_shown_signed (sign : Sign) (b : ℚ) (same : readBack (shown 2 b) = b) :
    readBack (shown 2 (Nearest.signed sign b)) = Nearest.signed sign b := by
  cases sign with
  | positive => exact same
  | negative => rw [Nearest.signed, shown_neg, readBack_neg, same]

theorem readBack_of_large (held : value v = some a) (large : 2 ^ 17 ≤ |a|) : readBack (shown 2 a) = a := by
  rcases value_cases held with rfl | ⟨sign, mantissa, exponent, placed, rfl⟩
  · norm_num at large
  · apply readBack_shown_signed
    apply readBack_large placed
    have positive : (0 : ℚ) ≤ mantissa * 2 ^ exponent := by positivity
    cases sign with
    | positive => rwa [Nearest.signed, abs_of_nonneg positive] at large
    | negative => rwa [Nearest.signed, abs_neg, abs_of_nonneg positive] at large

theorem readBack_shown (held : value v = some a) (m : ℤ) (entered : a = readBack (m / 100)) :
    readBack (shown 2 a) = a := by
  rcases lt_or_ge |a| (2 ^ 17) with small | large
  · obtain ⟨k, rfl | rfl⟩ := Int.eq_nat_or_neg m
    · rw [Int.cast_natCast] at entered
      rw [entered] at small ⊢
      exact readBack_small k (lt_of_le_of_lt (le_abs_self _) small)
    · rw [Int.cast_neg, Int.cast_natCast, neg_div, readBack_neg] at entered
      rw [entered, abs_neg] at small
      have same := readBack_shown_signed .negative _ (readBack_small k (lt_of_le_of_lt (le_abs_self _) small))
      rwa [Nearest.signed, ← entered] at same
  · exact readBack_of_large held large

theorem value_toFloat (held : value v = some a) : value (toFloat (ofSingle v)) = some (readBack (shown 2 a)) := by
  have near := abs_le.mp (shown_near 2 a)
  norm_num at near
  have small := value_lt held
  have wide : |shown 2 a| ≤ 2 ^ 200 := by
    rw [limit_single, abs_lt] at small
    rw [abs_le]
    constructor <;> linarith
  have bounded : |readBack (shown 2 a)| < limit .binary32 := by
    rcases lt_or_ge |a| (2 ^ 17) with less | large
    · rw [abs_lt] at less
      have most : readBack (2 ^ 18) = 2 ^ 18 := by
        have placed : Placed .binary32 (2 ^ 23) (-5) := ⟨by decide, by decide, .inl (by decide)⟩
        have grid := readBack_grid placed
        norm_num at grid ⊢
        exact grid
      have upper : readBack (shown 2 a) ≤ readBack (2 ^ 18) := readBack_mono (by linarith)
      have lower : readBack (-2 ^ 18) ≤ readBack (shown 2 a) := readBack_mono (by linarith)
      rw [readBack_neg, most] at lower
      rw [most] at upper
      rw [limit_single, abs_lt]
      constructor <;> linarith
    · rwa [readBack_of_large held large]
  have double : valueDouble (toDouble v) = some a := (valueDouble_toDouble v).trans held
  have read := value_toSingle (valueDouble_strtod 4 2 (by decide) (by decide) double wide)
  have kept : result .binary32 (rounded .binary64 (shown 2 a)) = some (readBack (shown 2 a)) :=
    Option.filter_some_pos (by simpa [readBack] using bounded)
  exact read.trans kept

end Hundredths

section RoundTrip
variable {v w : Float32} {a b : ℚ}

theorem place_placed {mantissa : ℕ} {exponent : ℤ} (placed : Placed .binary32 mantissa exponent)
    (some : 0 < mantissa) :
    place .binary32 (mantissa * 2 ^ exponent) = exponent := by
  have scale : (0 : ℚ) < 2 ^ exponent := by positivity
  have cut : mantissa = ⌊(mantissa : ℚ) * 2 ^ exponent / 2 ^ exponent⌋₊ := by
    rw [mul_div_cancel_right₀ _ scale.ne', Nat.floor_natCast]
  have log := log_cut mantissa exponent _ (by positivity) cut some
  have high : mantissa.log2 < 24 := (Nat.log2_lt some.ne').mpr placed.high
  have least : (-149 : ℤ) ≤ exponent := placed.least
  have bits : Format.binary32.mantissaBits = 24 ∧ Format.binary32.minExponent = -149 := ⟨rfl, rfl⟩
  unfold place Format.targetExponent
  rw [log, bits.1, bits.2]
  rcases placed.full with full | smallest
  · have low : 23 ≤ mantissa.log2 := (Nat.le_log2 some.ne').mpr full
    omega
  · rw [bits.2] at smallest
    omega

/-- Two floats that stand for numbers are equal when the numbers are. -/
theorem beq_iff (first : value v = some a) (second : value w = some b) : (v == w) = true ↔ a = b := by
  change UnpackedFloat.beq v.toModel.unpack w.toModel.unpack = true ↔ _
  obtain ⟨number, canonical⟩ := denotes_value first
  obtain ⟨number', canonical'⟩ := denotes_value second
  generalize v.toModel.unpack = x at number canonical
  generalize w.toModel.unpack = y at number' canonical'
  rw [UnpackedFloat.beq]
  cases x with
  | infinity sign => cases number
  | notANumber => cases number
  | zero sign =>
    obtain rfl := Option.some.inj number
    cases y with
    | infinity sign => cases number'
    | notANumber => cases number'
    | zero sign' =>
      obtain rfl := Option.some.inj number'
      exact iff_of_true rfl rfl
    | finite sign' mantissa' exponent' some' =>
      obtain rfl := Option.some.inj number'
      have positive : (0 : ℚ) < mantissa' * 2 ^ exponent' := by positivity
      rw [signed_apply]
      cases sign' with
      | positive => exact iff_of_false Bool.false_ne_true positive.ne
      | negative => exact iff_of_false Bool.false_ne_true (by rw [Nearest.signed]; linarith)
  | finite sign mantissa exponent some =>
    obtain rfl := Option.some.inj number
    have positive : (0 : ℚ) < mantissa * 2 ^ exponent := by positivity
    cases y with
    | infinity sign => cases number'
    | notANumber => cases number'
    | zero sign' =>
      obtain rfl := Option.some.inj number'
      rw [signed_apply]
      cases sign with
      | positive => exact iff_of_false Bool.false_ne_true positive.ne'
      | negative => exact iff_of_false Bool.false_ne_true (by rw [Nearest.signed]; linarith)
    | finite sign' mantissa' exponent' some' =>
      obtain rfl := Option.some.inj number'
      have positive' : (0 : ℚ) < mantissa' * 2 ^ exponent' := by positivity
      have same : ((mantissa : ℚ) * 2 ^ exponent = mantissa' * 2 ^ exponent') ↔ exponent = exponent' ∧
          mantissa = mantissa' := by
        constructor
        · intro numbers
          have places := congrArg (place .binary32) numbers
          rw [place_placed canonical some, place_placed canonical' some'] at places
          subst places
          refine ⟨rfl, ?_⟩
          exact_mod_cast mul_right_cancel₀ (by positivity : (2 : ℚ) ^ exponent ≠ 0) numbers
        · intro both
          rw [both.1, both.2]
      have compared : (compare exponent exponent').then (compare mantissa mantissa') = .eq ↔
          exponent = exponent' ∧ mantissa = mantissa' := by
        rw [Ordering.then_eq_eq, Std.LawfulEqCmp.compare_eq_iff_eq, Nat.compare_eq_eq]
      rw [signed_apply, signed_apply]
      cases sign with
      | positive =>
        cases sign' with
        | positive =>
          rw [UnpackedFloat.compare, beq_iff_eq, Option.some.injEq, compared]
          exact same.symm
        | negative =>
          refine iff_of_false Bool.false_ne_true ?_
          rw [Nearest.signed, Nearest.signed]
          linarith
      | negative =>
        cases sign' with
        | positive =>
          refine iff_of_false Bool.false_ne_true ?_
          rw [Nearest.signed, Nearest.signed]
          linarith
        | negative =>
          rw [UnpackedFloat.compare, beq_iff_eq, Option.some.injEq, Ordering.swap_eq_eq, compared]
          exact (neg_inj.trans same).symm

/-- The floats that two decimals can enter. -/
def Hundredths (v : Float32) : Prop :=
  v.toModel.unpack = .infinity .positive ∨ ∃ m : ℤ, value v = some (readBack (m / 100))

def NotANumber (v : Float32) : Prop := v.toModel.unpack = .notANumber

theorem toFloat_infinity : (toFloat (text "inf")).toModel.unpack = .infinity .positive := by
  have bits : toFloat (text "inf") = Float32.ofBits 0x7F800000 := by decide +kernel
  rw [bits]
  rfl

theorem toDouble_special (special : value v = none) : (toDouble v).toModel.unpack = v.toModel.unpack := by
  unfold value at special
  have packed : (toDouble v).toModel.unpack = UnpackedFloat.unpack .binary64 (UnpackedFloat.pack .binary64
      (ExactFloat.recode .binary64 v.toModel.unpack)) := rfl
  rw [packed]
  cases unpacked : v.toModel.unpack with
  | zero sign => rw [unpacked] at special; cases special
  | finite sign mantissa exponent some => rw [unpacked] at special; cases special
  | infinity sign => cases sign <;> rfl
  | notANumber => rfl

theorem shown_hundredths (a : ℚ) : ∃ m : ℤ, shown 2 a = m / 100 := by
  have hundred : (10 : ℚ) ^ 2 = 100 := by norm_num
  unfold shown
  split
  · refine ⟨-⌊-a * 10 ^ 2 + 1 / 2⌋₊, ?_⟩
    rw [hundred]
    push_cast
    ring
  · refine ⟨⌊a * 10 ^ 2 + 1 / 2⌋₊, ?_⟩
    rw [hundred]
    push_cast
    ring

theorem ofSingle_infinity (sign : Sign) (infinite : v.toModel.unpack = .infinity sign) :
    ofSingle v = text "inf" := by
  have special : value v = none := by
    rw [value, infinite]
    rfl
  have wide := (toDouble_special special).trans infinite
  rw [ofSingle, dtostrf, wide]

/-- The text of a float with two decimals is read as that float, exactly when two decimals can enter it. -/
theorem toFloat_ofSingle_iff (v : Float32) : (toFloat (ofSingle v) == v) = true ↔ Hundredths v := by
  rcases held : value v with _ | a
  · have unlisted : ¬∃ m : ℤ, value v = some (readBack (m / 100)) := by
      intro entered
      obtain ⟨m, same⟩ := entered
      rw [held] at same
      cases same
    rw [Hundredths, or_iff_left unlisted]
    change UnpackedFloat.beq (toFloat (ofSingle v)).toModel.unpack v.toModel.unpack = true ↔ _
    cases unpacked : v.toModel.unpack with
    | zero sign => rw [value, unpacked] at held; cases held
    | finite sign mantissa exponent some => rw [value, unpacked] at held; cases held
    | infinity sign =>
      rw [ofSingle_infinity sign unpacked, toFloat_infinity]
      cases sign with
      | positive => exact iff_of_true rfl rfl
      | negative => exact iff_of_false Bool.false_ne_true fun same => by cases same
    | notANumber =>
      have never (x : UnpackedFloat) : UnpackedFloat.beq x .notANumber = false := by cases x <;> rfl
      rw [never]
      exact iff_of_false Bool.false_ne_true fun same => by cases same
  · have number : v.toModel.unpack ≠ .infinity .positive := by
      intro infinite
      rw [value, infinite] at held
      cases held
    rw [beq_iff (value_toFloat held) held, Hundredths, or_iff_right number, held]
    constructor
    · intro same
      obtain ⟨m, printed⟩ := shown_hundredths a
      exact ⟨m, congrArg some (by rw [← printed, same])⟩
    · intro entered
      obtain ⟨m, same⟩ := entered
      exact readBack_shown held m (Option.some.inj same)

theorem hundredths_toFloat (some : ¬NotANumber v) : Hundredths (toFloat (ofSingle v)) := by
  rcases held : value v with _ | a
  · cases unpacked : v.toModel.unpack with
    | zero sign => rw [value, unpacked] at held; cases held
    | finite sign mantissa exponent positive => rw [value, unpacked] at held; cases held
    | infinity sign =>
      left
      rw [ofSingle_infinity sign unpacked, toFloat_infinity]
    | notANumber => exact absurd unpacked some
  · obtain ⟨m, printed⟩ := shown_hundredths a
    right
    refine ⟨m, ?_⟩
    rw [value_toFloat held, printed]

end RoundTrip
end EspLog.Decimals

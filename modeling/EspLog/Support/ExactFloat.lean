import Mathlib

/-! Natural numbers in the binary floating-point formats. A number that fits the
mantissa has one canonical unpacked form, rounding leaves that form alone, and so
conversion, addition, comparison and truncation are exact on such numbers. -/

namespace EspLog.ExactFloat
open Float.Model Float.Model.UnpackedFloat

/-- The unpacked form of a natural number whose mantissa is filled up to full width. -/
def canonical (spec : Format) (n : Nat) : UnpackedFloat :=
  if zero : n = 0 then .zero .positive
  else .finite .positive (n * 2 ^ (spec.mantissaBits - 1 - n.log2))
    (n.log2 + 1 - spec.mantissaBits) (Nat.mul_pos (Nat.pos_of_ne_zero zero) (Nat.two_pow_pos _))

theorem log2_shifted (n shift : Nat) (positive : n ≠ 0) : (n * 2 ^ shift).log2 = n.log2 + shift := by
  have lower := Nat.log2_self_le positive
  have upper := Nat.lt_log2_self (n := n)
  rw [Nat.log2_eq_iff (Nat.mul_ne_zero positive (Nat.two_pow_pos _).ne'), Nat.pow_add,
    show n.log2 + shift + 1 = (n.log2 + 1) + shift by omega, Nat.pow_add]
  exact ⟨Nat.mul_le_mul_right _ lower, Nat.mul_lt_mul_of_pos_right upper (Nat.two_pow_pos _)⟩

theorem shift_zeros (mantissa shift : Nat) :
    (ExtendedMantissa.mk (mantissa * 2 ^ shift) false false) >>> shift =
      ExtendedMantissa.mk mantissa false false := by
  induction shift generalizing mantissa with
  | zero => simp [HShiftRight.hShiftRight, Nat.repeat]
  | succ shift ih =>
    have regroup : mantissa * 2 ^ (shift + 1) = (mantissa * 2) * 2 ^ shift := by
      rw [Nat.pow_succ]; ring
    change ExtendedMantissa.shiftRightOne
      (ExtendedMantissa.mk (mantissa * 2 ^ (shift + 1)) false false >>> shift) = _
    rw [regroup, ih]
    simp [ExtendedMantissa.shiftRightOne]

section Rounding
variable (spec : Format) (roomy : spec.minExponent ≤ 1 - (spec.mantissaBits : Int))
include roomy

theorem targetExponent_shifted (n shift : Nat) (positive : n ≠ 0) :
    spec.targetExponent (totalExponent (n * 2 ^ shift) (-(shift : Int))) =
      n.log2 + 1 - spec.mantissaBits := by
  simp only [Format.targetExponent, totalExponent, log2_shifted n shift positive]
  push_cast
  omega

theorem shiftToTargetExponent_shifted (n shift : Nat) (positive : n ≠ 0)
    (fits : n.log2 < spec.mantissaBits) (wide : spec.mantissaBits - 1 - n.log2 ≤ shift) :
    shiftToTargetExponent spec (n * 2 ^ shift) (-(shift : Int)) .exact =
      (ExtendedMantissa.mk (n * 2 ^ (spec.mantissaBits - 1 - n.log2)) false false,
        (n.log2 : Int) + 1 - spec.mantissaBits) := by
  have amount : ((n.log2 : Int) + 1 - spec.mantissaBits - -(shift : Int)).toNat =
      shift - (spec.mantissaBits - 1 - n.log2) := by omega
  have split : n * 2 ^ shift = n * 2 ^ (spec.mantissaBits - 1 - n.log2) *
      2 ^ (shift - (spec.mantissaBits - 1 - n.log2)) := by
    rw [Nat.mul_assoc, ← Nat.pow_add]
    congr 2
    omega
  simp only [shiftToTargetExponent, targetExponent_shifted spec roomy n shift positive, shiftToExponent, amount]
  refine Prod.ext ?_ (by dsimp only; omega)
  change ExtendedMantissa.mk (n * 2 ^ shift) false false >>> (shift - (spec.mantissaBits - 1 - n.log2)) = _
  rw [split, shift_zeros]

theorem roundWithAccuracy_shifted (n shift : Nat) (positive : n ≠ 0)
    (fits : n.log2 < spec.mantissaBits) (wide : spec.mantissaBits - 1 - n.log2 ≤ shift) :
    roundWithAccuracy spec .positive (n * 2 ^ shift) (-(shift : Int)) .exact = canonical spec n := by
  have again := shiftToTargetExponent_shifted spec roomy n (spec.mantissaBits - 1 - n.log2) positive fits le_rfl
  have exponent : -((spec.mantissaBits - 1 - n.log2 : Nat) : Int) = (n.log2 : Int) + 1 - spec.mantissaBits := by
    omega
  rw [exponent] at again
  have nonzero : n * 2 ^ (spec.mantissaBits - 1 - n.log2) ≠ 0 :=
    Nat.mul_ne_zero positive (Nat.two_pow_pos _).ne'
  simp only [roundWithAccuracy, shiftToTargetExponent_shifted spec roomy n shift positive fits wide,
    ExtendedMantissa.roundedMantissa, ExtendedMantissa.accuracy, Accuracy.roundToNearestEven, again,
    dif_neg nonzero, canonical, dif_neg positive]

theorem round_shifted (n shift : Nat) (positive : n ≠ 0) (fits : n.log2 < spec.mantissaBits) :
    UnpackedFloat.round spec .positive (n * 2 ^ shift) (-(shift : Int)) = canonical spec n := by
  simp only [UnpackedFloat.round, targetExponent_shifted spec roomy n shift positive, decreaseExponent]
  by_cases wide : spec.mantissaBits - 1 - n.log2 ≤ shift
  · have none : (-(shift : Int) - ((n.log2 : Int) + 1 - spec.mantissaBits)).toNat = 0 := by omega
    simp only [none, Nat.shiftLeft_zero, Nat.cast_zero, Int.sub_zero]
    exact roundWithAccuracy_shifted spec roomy n shift positive fits wide
  · have amount : (-(shift : Int) - ((n.log2 : Int) + 1 - spec.mantissaBits)).toNat =
        spec.mantissaBits - 1 - n.log2 - shift := by omega
    have mantissa : (n * 2 ^ shift) <<< (spec.mantissaBits - 1 - n.log2 - shift) =
        n * 2 ^ (spec.mantissaBits - 1 - n.log2) := by
      rw [Nat.shiftLeft_eq, Nat.mul_assoc, ← Nat.pow_add]
      congr 2
      omega
    have exponent : -(shift : Int) - ((spec.mantissaBits - 1 - n.log2 - shift : Nat) : Int) =
        -((spec.mantissaBits - 1 - n.log2 : Nat) : Int) := by omega
    rw [amount, mantissa, exponent]
    exact roundWithAccuracy_shifted spec roomy n _ positive fits le_rfl

theorem ofNat_canonical (n : Nat) (fits : n < 2 ^ spec.mantissaBits) :
    UnpackedFloat.ofNat spec n = canonical spec n := by
  by_cases zero : n = 0
  · subst n
    rfl
  · have above : compare (n : Int) 0 = .gt := by
      rw [Int.compare_eq_gt]
      omega
    have exact := round_shifted spec roomy n 0 zero ((Nat.log2_lt zero).mpr fits)
    simp only [Nat.pow_zero, Nat.mul_one, Nat.cast_zero, Int.neg_zero] at exact
    simp only [UnpackedFloat.ofNat, UnpackedFloat.ofInt, UnpackedFloat.normalize, above, Int.toNat_natCast]
    exact exact

end Rounding

section Packing
variable {spec : Format}

theorem two_pow_exponentBits (spec : Format) :
    2 ^ spec.exponentBits = 2 * (spec.exponentBias + 1) := by
  have wide := spec.he
  have power : 2 ^ spec.exponentBits = 2 ^ (spec.exponentBits - 1) * 2 := by
    rw [← Nat.pow_succ]
    congr 1
    omega
  have positive := Nat.two_pow_pos (spec.exponentBits - 1)
  simp only [Format.exponentBias]
  omega

theorem canonical_mantissa_log2 (n : Nat) (positive : n ≠ 0) (fits : n.log2 < spec.mantissaBits) :
    (n * 2 ^ (spec.mantissaBits - 1 - n.log2)).log2 + 1 = spec.mantissaBits := by
  rw [log2_shifted n _ positive]
  omega

theorem implicit_bit (width mantissa : Nat) (lower : 2 ^ width ≤ mantissa) (upper : mantissa < 2 ^ (width + 1)) :
    (1#1 ++ BitVec.ofNat width mantissa).toNat = mantissa := by
  have remainder : mantissa % 2 ^ width = mantissa - 2 ^ width := by
    rw [Nat.mod_eq_sub_mod lower, Nat.mod_eq_of_lt (by rw [Nat.pow_succ] at upper; omega)]
  rw [BitVec.toNat_append, ← Nat.shiftLeft_add_eq_or_of_lt (BitVec.isLt _), BitVec.toNat_ofNat,
    BitVec.toNat_ofNat, Nat.shiftLeft_eq, remainder]
  omega

variable (spec)

theorem unpack_pack_full {sign : Sign} (mantissa : Nat) (exponent : Int) (positive : 0 < mantissa)
    (full : mantissa.log2 + 1 = spec.mantissaBits)
    (normal : 0 < exponent + spec.exponentBias + spec.mantissaBitsWithoutImplicit)
    (bounded : exponent + spec.mantissaBitsWithoutImplicit ≤ spec.exponentBias) :
    UnpackedFloat.unpack spec (UnpackedFloat.pack spec (.finite sign mantissa exponent positive)) =
      .finite sign mantissa exponent positive := by
  have width := two_pow_exponentBits spec
  have bits : spec.mantissaBits = 1 + spec.mantissaBitsWithoutImplicit := rfl
  have lower := Nat.log2_self_le positive.ne'
  have upper := Nat.lt_log2_self (n := mantissa)
  rw [show mantissa.log2 = spec.mantissaBitsWithoutImplicit by omega] at lower upper
  obtain ⟨biased, value⟩ := Int.eq_ofNat_of_zero_le normal.le
  have finite : ¬2 ^ spec.exponentBits ≤ biased + 1 := by omega
  have exponentValue : (BitVec.ofNat spec.exponentBits biased).toNat = biased := by
    rw [BitVec.toNat_ofNat, Nat.mod_eq_of_lt (by omega)]
  have notTop : BitVec.ofNat spec.exponentBits biased ≠ -1#_ := by
    rw [BitVec.neg_one_eq_allOnes]
    intro same
    have values := congrArg BitVec.toNat same
    rw [exponentValue, BitVec.toNat_allOnes] at values
    omega
  have notBottom : BitVec.ofNat spec.exponentBits biased ≠ 0#_ := by
    intro same
    have values := congrArg BitVec.toNat same
    rw [exponentValue, BitVec.toNat_ofNat, Nat.zero_mod] at values
    omega
  have restored := implicit_bit _ mantissa lower upper
  simp only [UnpackedFloat.pack, value, Int.toNat_natCast, if_neg finite, full, if_true,
    UnpackedFloat.unpack, unpackSign_packComponents, unpackExponent_packComponents,
    unpackMantissa_packComponents, notTop, notBottom, if_false, Sign.ofBitVec_toBitVec, exponentValue, restored]
  congr 1
  omega

theorem unpack_pack_zero {sign : Sign} (roomy : 0 < spec.exponentBias) :
    UnpackedFloat.unpack spec (UnpackedFloat.pack spec (.zero sign)) = .zero sign := by
  have width := two_pow_exponentBits spec
  have nonzero : BitVec.ofNat spec.exponentBits 0 ≠ -1#_ := by
    rw [BitVec.neg_one_eq_allOnes]
    intro same
    have values := congrArg BitVec.toNat same
    simp only [BitVec.toNat_ofNat, BitVec.toNat_allOnes, Nat.zero_mod] at values
    omega
  simp [UnpackedFloat.pack, packedZero, UnpackedFloat.unpack, nonzero]

theorem unpack_pack_canonical (n : Nat) (roomy : spec.mantissaBits ≤ spec.exponentBias)
    (fits : n < 2 ^ spec.mantissaBits) :
    UnpackedFloat.unpack spec (UnpackedFloat.pack spec (canonical spec n)) = canonical spec n := by
  have bits : spec.mantissaBits = 1 + spec.mantissaBitsWithoutImplicit := rfl
  by_cases zero : n = 0
  · subst zero
    exact unpack_pack_zero spec (by omega)
  · have small := (Nat.log2_lt zero).mpr fits
    have full := canonical_mantissa_log2 n zero small
    rw [canonical, dif_neg zero]
    exact unpack_pack_full spec _ _ _ full (by omega) (by omega)

end Packing

section Operations
variable (spec : Format)

theorem decreaseExponent_canonical (n : Nat) (target : Int)
    (fits : n.log2 < spec.mantissaBits) (below : target ≤ n.log2 + 1 - spec.mantissaBits) :
    (decreaseExponent (n * 2 ^ (spec.mantissaBits - 1 - n.log2)) (n.log2 + 1 - spec.mantissaBits) target).1 =
      n * 2 ^ (-target).toNat := by
  simp only [decreaseExponent, Nat.shiftLeft_eq, Nat.mul_assoc, ← Nat.pow_add]
  congr 2
  omega

theorem add_canonical (roomy : spec.minExponent ≤ 1 - (spec.mantissaBits : Int)) (m n : Nat)
    (fits : m + n < 2 ^ spec.mantissaBits) :
    UnpackedFloat.add spec (canonical spec m) (canonical spec n) = canonical spec (m + n) := by
  by_cases mzero : m = 0
  · subst mzero
    by_cases nzero : n = 0
    · subst nzero
      rfl
    · simp only [canonical, Nat.zero_add, dif_neg nzero, dif_pos, UnpackedFloat.add]
  by_cases nzero : n = 0
  · subst nzero
    simp only [canonical, Nat.add_zero, dif_neg mzero, dif_pos, UnpackedFloat.add]
  have mfits := (Nat.log2_lt mzero).mpr (show m < 2 ^ spec.mantissaBits by omega)
  have nfits := (Nat.log2_lt nzero).mpr (show n < 2 ^ spec.mantissaBits by omega)
  have sumNonzero : m + n ≠ 0 := by omega
  have sumFits := (Nat.log2_lt sumNonzero).mpr fits
  simp only [canonical, dif_neg mzero, dif_neg nzero, dif_neg sumNonzero, UnpackedFloat.add]
  generalize smaller : min ((m.log2 : Int) + 1 - spec.mantissaBits) (n.log2 + 1 - spec.mantissaBits) = target
  have first := decreaseExponent_canonical spec m target mfits (by omega)
  have second := decreaseExponent_canonical spec n target nfits (by omega)
  have exponent : target = -((-target).toNat : Int) := by omega
  have mantissa : (Sign.positive.apply (m * 2 ^ (-target).toNat : Nat) +
      Sign.positive.apply (n * 2 ^ (-target).toNat : Nat)) =
      (((m + n) * 2 ^ (-target).toNat : Nat) : Int) := by
    simp only [Sign.apply, Nat.add_mul]
    push_cast
    ring
  have above : compare (((m + n) * 2 ^ (-target).toNat : Nat) : Int) 0 = .gt := by
    rw [Int.compare_eq_gt]
    exact_mod_cast Nat.mul_pos (by omega) (Nat.two_pow_pos _)
  have exact := round_shifted spec roomy (m + n) (-target).toNat sumNonzero sumFits
  rw [← exponent] at exact
  simp only [first, second, mantissa, UnpackedFloat.normalize, above, Int.toNat_natCast, exact, canonical,
    dif_neg sumNonzero]

theorem toInt_canonical (n : Nat) (low high : Int) (fits : n < 2 ^ spec.mantissaBits) :
    (canonical spec n).toInt low high = n := by
  by_cases zero : n = 0
  · subst zero
    rfl
  have small := (Nat.log2_lt zero).mpr fits
  have raised : ((n.log2 : Int) + 1 - spec.mantissaBits).toNat = 0 := by omega
  have shift : (0 - ((n.log2 : Int) + 1 - spec.mantissaBits)).toNat = spec.mantissaBits - 1 - n.log2 := by omega
  simp only [canonical, dif_neg zero, UnpackedFloat.toInt, roundToInt, decreaseExponent, shiftToExponent, raised,
    Nat.shiftLeft_zero, Nat.cast_zero, Int.sub_zero, shift, ExtendedMantissa.ofMantissaAndAccuracy, shift_zeros,
    Sign.apply]

theorem compare_canonical (m n : Nat) :
    (canonical spec m).compare (canonical spec n) = some (compare m n) := by
  by_cases mzero : m = 0
  · subst mzero
    by_cases nzero : n = 0
    · subst nzero
      rfl
    · have below : compare 0 n = .lt := by rw [Nat.compare_eq_lt]; omega
      simp only [canonical, dif_neg nzero, dif_pos, UnpackedFloat.compare, below]
  by_cases nzero : n = 0
  · subst nzero
    have above : compare m 0 = .gt := by rw [Nat.compare_eq_gt]; omega
    simp only [canonical, dif_neg mzero, dif_pos, UnpackedFloat.compare, above]
  simp only [canonical, dif_neg mzero, dif_neg nzero, UnpackedFloat.compare]
  have mupper := Nat.lt_log2_self (n := m)
  have nupper := Nat.lt_log2_self (n := n)
  have mlower := Nat.log2_self_le mzero
  have nlower := Nat.log2_self_le nzero
  rcases Nat.lt_trichotomy m.log2 n.log2 with less | same | more
  · have power := Nat.pow_le_pow_right (show 0 < 2 by omega) (show m.log2 + 1 ≤ n.log2 by omega)
    have exponents : compare ((m.log2 : Int) + 1 - spec.mantissaBits) (n.log2 + 1 - spec.mantissaBits) = .lt := by
      rw [Int.compare_eq_lt]
      omega
    have numbers : compare m n = .lt := by
      rw [Nat.compare_eq_lt]
      omega
    rw [exponents, numbers]
    rfl
  · have exponents : compare ((m.log2 : Int) + 1 - spec.mantissaBits) (n.log2 + 1 - spec.mantissaBits) = .eq := by
      rw [Int.compare_eq_eq]
      omega
    rw [exponents, same]
    simp only [Ordering.then, Nat.compare_eq_ite_lt,
      Nat.mul_lt_mul_right (Nat.two_pow_pos (spec.mantissaBits - 1 - n.log2))]
  · have power := Nat.pow_le_pow_right (show 0 < 2 by omega) (show n.log2 + 1 ≤ m.log2 by omega)
    have exponents : compare ((m.log2 : Int) + 1 - spec.mantissaBits) (n.log2 + 1 - spec.mantissaBits) = .gt := by
      rw [Int.compare_eq_gt]
      omega
    have numbers : compare m n = .gt := by
      rw [Nat.compare_eq_gt]
      omega
    rw [exponents, numbers]
    rfl

end Operations

section Single

theorem roomy_binary32 : Format.binary32.minExponent ≤ 1 - (Format.binary32.mantissaBits : Int) := by decide

/-- The single-precision number nearest to a natural number. -/
def single (n : Nat) : Float32 := .ofModel (.ofNat n)

theorem toFloat32_eq_single (n : UInt32) : n.toFloat32 = single n.toNat := rfl

theorem unpack_single (n : Nat) (fits : n < 2 ^ 24) :
    (single n).toModel.unpack = canonical .binary32 n := by
  change UnpackedFloat.unpack _ (UnpackedFloat.pack _ (UnpackedFloat.ofNat _ n)) = _
  rw [ofNat_canonical _ roomy_binary32 n fits, unpack_pack_canonical .binary32 n (by decide) fits]

theorem single_add (m n : Nat) (fits : m + n < 2 ^ 24) : single m + single n = single (m + n) := by
  have first := unpack_single m (by omega)
  have second := unpack_single n (by omega)
  have sum := ofNat_canonical _ roomy_binary32 (m + n) fits
  change Float32.ofModel (.pack (UnpackedFloat.add _ (single m).toModel.unpack (single n).toModel.unpack)) =
    Float32.ofModel (.pack (UnpackedFloat.ofNat _ (m + n)))
  rw [first, second, sum, add_canonical _ roomy_binary32 m n fits]

theorem foldl_single {α : Type*} (chosen : α → Prop) [DecidablePred chosen] (word : α → UInt32) (list : List α)
    (n : Nat) (fits : n + ((list.filter fun x => chosen x).map fun x => (word x).toNat).sum < 2 ^ 24) :
    list.foldl (fun v x => if chosen x then v + (word x).toFloat32 else v) (single n) =
      single (n + ((list.filter fun x => chosen x).map fun x => (word x).toNat).sum) := by
  induction list generalizing n with
  | nil => rfl
  | cons x rest ih =>
    by_cases here : chosen x
    · simp only [List.filter_cons, here, decide_true, if_true, List.map_cons, List.sum_cons] at fits ⊢
      rw [List.foldl_cons, if_pos here, toFloat32_eq_single, single_add _ _ (by omega), ih _ (by omega),
        Nat.add_assoc]
    · simp only [List.filter_cons, here, decide_false, Bool.false_eq_true, if_false] at fits ⊢
      rw [List.foldl_cons, if_neg here, ih n fits]

theorem toUInt32_single (n : Nat) (fits : n < 2 ^ 24) : (single n).toUInt32 = UInt32.ofNat n := by
  change UnpackedFloat.toUInt32 (single n).toModel.unpack = _
  rw [unpack_single n fits, UnpackedFloat.toUInt32, toInt_canonical .binary32 n _ _ fits, Int.toNat_natCast]
  apply UInt32.toNat.inj
  rw [UInt32.toNat_ofNatClamp_of_lt (by simp only [UInt32.size]; omega), UInt32.toNat_ofNat',
    Nat.mod_eq_of_lt (by omega)]

theorem single_injective (m n : Nat) (mfits : m < 2 ^ 24) (nfits : n < 2 ^ 24)
    (same : single m = single n) : m = n := by
  have values := congrArg (fun x : Float32 => x.toUInt32.toNat) same
  simp only [toUInt32_single m mfits, toUInt32_single n nfits, UInt32.toNat_ofNat'] at values
  omega

theorem single_lt_iff (m n : Nat) (mfits : m < 2 ^ 24) (nfits : n < 2 ^ 24) : single m < single n ↔ m < n := by
  change decide (UnpackedFloat.lt (single m).toModel.unpack (single n).toModel.unpack = true) = true ↔ _
  rw [unpack_single m mfits, unpack_single n nfits, UnpackedFloat.lt, compare_canonical]
  simp [Nat.compare_eq_lt]

/-- The single-precision number nearest to an integer. -/
def singleOfInt (n : Int32) : Float32 := .ofModel (.ofInt32 n)

/-- Truncation toward zero; out of the integer's range C leaves the result open, and here it saturates. -/
def truncate (x : Float32) : Int32 := x.toModel.toInt32

theorem singleOfInt_natural (n : Int32) (nonnegative : 0 ≤ n.toInt) : singleOfInt n = single n.toInt.toNat := by
  change Float32.ofModel (.pack (UnpackedFloat.ofInt _ n.toInt)) =
    Float32.ofModel (.pack (UnpackedFloat.ofInt _ (n.toInt.toNat : Int)))
  rw [Int.toNat_of_nonneg nonnegative]

theorem truncate_single (n : Nat) (fits : n < 2 ^ 24) : truncate (single n) = Int32.ofInt n := by
  have low : Int32.minValue.toInt ≤ (n : Int) := by simp only [Int32.toInt_minValue]; omega
  have high : (n : Int) ≤ Int32.maxValue.toInt := by simp only [Int32.toInt_maxValue]; omega
  change UnpackedFloat.toInt32 (single n).toModel.unpack = _
  rw [unpack_single n fits, UnpackedFloat.toInt32, toInt_canonical .binary32 n _ _ fits,
    ← @Int32.ofIntLE_eq_ofIntClamp n low high, Int32.ofIntLE_eq_ofInt]

/-- The number that a float stands for, zero for an infinity and for NaN. -/
def amount (x : Float32) : ℚ :=
  match x.toModel.unpack with
  | .finite sign mantissa exponent _ => sign.apply mantissa * 2 ^ exponent
  | _ => 0

/-- The same value in another format, rounded to nearest even where it does not fit. -/
def recode (spec : Format) : UnpackedFloat → UnpackedFloat
  | .finite sign mantissa exponent _ => UnpackedFloat.round spec sign mantissa exponent
  | special => special

def toDouble (x : Float32) : Float := .ofModel (.pack (recode .binary64 x.toModel.unpack))

def toSingle (x : Float) : Float32 := .ofModel (.pack (recode .binary32 x.toModel.unpack))

end Single
end EspLog.ExactFloat

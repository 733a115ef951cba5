import EspLog.Settings
import EspLog.Support.Rounding

/-! What the setup page accepts and what a start reads back. The page stores the number it was
given as a float, whatever it is; the start has a test and a default of its own for each setting. -/

namespace EspLog.Readback
open Float.Model Float.Model.UnpackedFloat CText Eeprom ExactFloat Rounding Sketch Functions Websites Restart
  Settings ByteMemory

section Floats

theorem unpack_zero : (0 : Float32).toModel.unpack = .zero .positive := by
  have zero : single 0 = 0 := by decide
  rw [← zero, unpack_single 0 (by decide)]
  rfl

theorem lt_zero_cases (x : UnpackedFloat) :
    (UnpackedFloat.lt (.zero .positive) x = true → UnpackedFloat.beq x x = true ∧
      UnpackedFloat.le (.zero .positive) x = true) ∧
    (UnpackedFloat.lt (.zero .positive) x = false →
      UnpackedFloat.beq (.zero .positive) x = UnpackedFloat.le (.zero .positive) x) := by
  cases x with
  | notANumber => exact ⟨fun _ => by contradiction, fun _ => rfl⟩
  | infinity sign =>
    cases sign with
    | positive => exact ⟨fun _ => ⟨rfl, rfl⟩, fun _ => by contradiction⟩
    | negative => exact ⟨fun _ => by contradiction, fun _ => rfl⟩
  | zero sign => exact ⟨fun _ => by contradiction, fun _ => rfl⟩
  | finite sign mantissa exponent positive =>
    cases sign with
    | positive =>
      refine ⟨fun _ => ⟨?_, rfl⟩, fun _ => by contradiction⟩
      simp [UnpackedFloat.beq, UnpackedFloat.compare]
    | negative => exact ⟨fun _ => by contradiction, fun _ => rfl⟩

theorem positive_part_iff (x : Float32) : ((if x > 0 then x else 0) == x) = true ↔ x ≥ 0 := by
  obtain ⟨positive, negative⟩ := lt_zero_cases x.toModel.unpack
  rw [← unpack_zero] at positive negative
  by_cases above : x > 0
  · rw [if_pos above]
    have both := positive (of_decide_eq_true above)
    exact iff_of_true both.1 (decide_eq_true both.2)
  · rw [if_neg above]
    have same := negative (by
      rw [Bool.eq_false_iff]
      exact fun less => above (decide_eq_true less))
    change UnpackedFloat.beq (0 : Float32).toModel.unpack x.toModel.unpack = true ↔
      decide (UnpackedFloat.le (0 : Float32).toModel.unpack x.toModel.unpack = true) = true
    rw [same, decide_eq_true_iff]

/-- The sign bit is all that a comparison with zero needs. -/
theorem negative_unpacked (packed : BitVec Format.binary32.numBits)
    (sign : unpackSign packed = Sign.negative.toBitVec) :
    UnpackedFloat.lt (.zero .positive) (UnpackedFloat.unpack .binary32 packed) = false := by
  unfold UnpackedFloat.unpack
  dsimp only
  rw [sign, Sign.ofBitVec_toBitVec]
  split
  · split <;> rfl
  · split
    · split <;> rfl
    · rfl

theorem negative_packed (mantissa : Nat) (exponent : Int) :
    unpackSign (UnpackedFloat.pack .binary32 (UnpackedFloat.round .binary32 .negative mantissa exponent)) =
      Sign.negative.toBitVec := by
  unfold UnpackedFloat.round roundWithAccuracy
  dsimp only
  split
  · exact unpackSign_packComponents _ _ _
  · unfold UnpackedFloat.pack
    dsimp only
    split
    · exact unpackSign_packComponents _ _ _
    · split <;> exact unpackSign_packComponents _ _ _

theorem singleOfInt_negative (n : Int32) (negative : n.toInt < 0) : ¬singleOfInt n > 0 := by
  intro positive
  have below : compare n.toInt 0 = .lt := Int.compare_eq_lt.mpr negative
  have form : UnpackedFloat.ofInt .binary32 n.toInt =
      UnpackedFloat.round .binary32 .negative (-n.toInt).toNat 0 := by
    simp only [UnpackedFloat.ofInt, UnpackedFloat.normalize, below]
  have unpacked : (singleOfInt n).toModel.unpack =
      UnpackedFloat.unpack .binary32 (UnpackedFloat.pack .binary32 (UnpackedFloat.ofInt .binary32 n.toInt)) := rfl
  have less : UnpackedFloat.lt (0 : Float32).toModel.unpack (singleOfInt n).toModel.unpack = true :=
    of_decide_eq_true positive
  rw [unpack_zero, unpacked, form, negative_unpacked _ (negative_packed _ _)] at less
  cases less

theorem toFloat32_positive (n : UInt32) : n.toFloat32 > 0 ↔ n ≠ 0 := by
  rw [gt_iff_lt, holds_zero.lt_iff (holds_toFloat32 n)]
  constructor
  · intro positive same
    subst same
    exact absurd positive (by rw [UInt32.toNat_zero, roundEven_zero]; decide)
  · intro nonzero
    exact Nat.pos_of_ne_zero (roundEven_ne_zero 24 (by decide) _ fun zero => nonzero (UInt32.toNat.inj zero))

/-- A number that a float can hold, or the largest one, which the conversion back clamps to. -/
def Exact (n : UInt32) : Prop := roundEven 24 n.toNat = n.toNat ∨ n = 4294967295

instance (n : UInt32) : Decidable (Exact n) := inferInstanceAs (Decidable (_ ∨ _))

theorem toFloat32_toUInt32 (n : UInt32) : n.toFloat32.toUInt32 = n ↔ Exact n := by
  have bounded := roundEven_le_two_pow 24 (by decide) n.toNat 32 n.toNat_lt.le
  have largest : roundEven 24 4294967295 = 2 ^ 32 := by decide +kernel
  have small := n.toNat_lt
  rw [(holds_toFloat32 n).toUInt32, ← UInt32.toNat_inj, Exact, ← UInt32.toNat_inj]
  have top : (4294967295 : UInt32).toNat = 4294967295 := rfl
  rcases bounded.lt_or_eq with inside | clamped
  · rw [UInt32.toNat_ofNatClamp_of_lt inside, top]
    constructor
    · exact fun same => .inl same
    · rintro (same | last)
      · exact same
      · rw [last, largest] at inside
        exact absurd inside (lt_irrefl _)
  · have value : (UInt32.ofNatClamp (roundEven 24 n.toNat)).toNat = 4294967295 := by
      rw [clamped]
      rfl
    rw [value, top, clamped]
    omega

end Floats

section Restart
variable (leading value : Str) (s : Globals)

/-- The variable of a setting has the same value in both states. -/
def Agrees (live restored : Globals) : Setting → Prop
  | .generator => restored.generatorLeistung = live.generatorLeistung
  | .couterconst => restored.impulseProKwh = live.impulseProKwh
  | .compensation => (restored.compensation == live.compensation) = true
  | .offset => (restored.offset == live.offset) = true
  | .port => restored.fhemPort = live.fhemPort
  | .ip => ∀ i, i < 4 → restored.fhemHost i = live.fhemHost i

/-- The values that a start takes as they are. -/
def Readable : Setting → Prop
  | .generator => Exact (toInt value).toUInt32
  | .couterconst => (toInt value).toUInt32 ≠ 0 ∧ Exact (toInt value).toUInt32
  | .compensation | .offset => toFloat value ≥ 0
  | .port => 1 ≤ (toInt value).toInt ∧ (toInt value).toInt ≤ 65534
  | .ip => True

theorem stored_read (settled : Settled s.eeprom) (setting : Setting) (isWord : setting ≠ .ip)
    (changes : setting.differs value s) :
    floatAt (setting.set leading value s).eeprom.flash setting.address = setting.word value := by
  have fits : setting.address + 4 ≤ opened := by
    cases setting <;> decide
  have stored := settled.put setting.address (setting.word value).toBits
  rw [floatAt, set_eeprom leading value s setting isWord changes, stored.commit.read32_flash _ fits, commit_data,
    settled.put_data _ _ fits, read32_write32, Float32.ofBits_toBits]

theorem generator_agrees (live restored : Globals) (held : live.generatorLeistung = (toInt value).toUInt32)
    (read : restored.generatorLeistung = if (Setting.generator.word value) > 0
      then (Setting.generator.word value).toUInt32 else 0) :
    Agrees live restored .generator ↔ Readable value .generator := by
  rw [Agrees, Readable, held, read, Setting.word]
  by_cases positive : (toInt value).toUInt32.toFloat32 > 0
  · rw [if_pos positive]
    exact toFloat32_toUInt32 _
  · have zero := not_not.mp fun nonzero => positive ((toFloat32_positive _).mpr nonzero)
    rw [if_neg positive, zero]
    exact iff_of_true rfl (.inl (roundEven_zero 24))

theorem couterconst_agrees (live restored : Globals) (held : live.impulseProKwh = (toInt value).toUInt32)
    (read : restored.impulseProKwh = if (Setting.couterconst.word value) > 0
      then (Setting.couterconst.word value).toUInt32 else 1000) :
    Agrees live restored .couterconst ↔ Readable value .couterconst := by
  rw [Agrees, Readable, held, read, Setting.word]
  by_cases positive : (toInt value).toUInt32.toFloat32 > 0
  · rw [if_pos positive, toFloat32_toUInt32]
    exact ⟨fun exact => ⟨(toFloat32_positive _).mp positive, exact⟩, And.right⟩
  · have zero := not_not.mp fun nonzero => positive ((toFloat32_positive _).mpr nonzero)
    rw [if_neg positive, zero]
    exact iff_of_false (by decide) fun both => both.1 rfl

theorem single_port_iff (k : ℕ) (small : k < 2 ^ 31) : single k > 0 ∧ single k < 65535 ↔ 1 ≤ k ∧ k ≤ 65534 := by
  have bounded := roundEven_le_two_pow 24 (by decide) k 31 small.le
  have heldK := holds_single k (bounded.trans_lt (by decide))
  have limit : Holds 65535 65535 := by
    have same : single 65535 = 65535 := by decide
    have held := holds_single 65535 (by decide +kernel)
    rwa [same, roundEven_of_fits 24 65535 (by decide)] at held
  rw [gt_iff_lt, holds_zero.lt_iff heldK, heldK.lt_iff limit]
  by_cases inside : 1 ≤ k ∧ k ≤ 65534
  · rw [roundEven_of_lt 24 k (by decide) (by omega)]
    omega
  · refine iff_of_false ?_ inside
    intro both
    obtain ⟨some, below⟩ := both
    have least : k ≠ 0 := by
      intro equal
      subst equal
      rw [roundEven_zero] at some
      exact absurd some (lt_irrefl 0)
    have most := roundEven_mono 24 (by decide) 65535 k (by omega)
    rw [roundEven_of_fits 24 65535 (by decide)] at most
    omega

theorem port_agrees (live restored : Globals) (held : live.fhemPort = toInt value)
    (read : restored.fhemPort = if Setting.port.word value > 0 ∧ Setting.port.word value < 65535 then
      truncate (Setting.port.word value) else 8383) : Agrees live restored .port ↔ Readable value .port := by
  rw [Agrees, Readable, held, read, Setting.word]
  generalize toInt value = n
  by_cases negative : n.toInt < 0
  · rw [if_neg fun both => singleOfInt_negative n negative both.1]
    apply iff_of_false
    · intro default
      rw [← default] at negative
      exact absurd negative (by decide)
    · omega
  · obtain ⟨k, natural⟩ := Int.eq_ofNat_of_zero_le (not_lt.mp negative)
    have single_eq : singleOfInt n = single k := by
      rw [singleOfInt_natural n (not_lt.mp negative), natural, Int.toNat_natCast]
    have bound := n.toInt_lt
    have small : k < 2 ^ 31 := by omega
    by_cases inside : 1 ≤ k ∧ k ≤ 65534
    · rw [single_eq, if_pos ((single_port_iff k small).mpr inside), truncate_single k (by omega)]
      refine iff_of_true ?_ (by omega)
      apply Int32.toInt_inj.mp
      rw [Int32.toInt_ofInt_of_le (by omega) (by omega)]
      exact natural.symm
    · rw [single_eq, if_neg fun readable => inside ((single_port_iff k small).mp readable)]
      apply iff_of_false
      · intro same
        have default : (8383 : Int32).toInt = 8383 := rfl
        rw [← same, default] at natural
        omega
      · omega

/-- A setting of the page and the start agree after a store exactly when its number is readable. -/
theorem set_agrees (settled : Settled s.eeprom) (setting : Setting) (isWord : setting ≠ .ip)
    (changes : setting.differs value s) (boot : Setup.Boot) :
    Agrees (setting.set leading value s) (Setup.setup boot (setting.set leading value s).restart) setting ↔
      Readable value setting := by
  have read := stored_read leading value s settled setting isWord changes
  have restored := setup_restored boot (setting.set leading value s).restart
  have flash : (setting.set leading value s).restart.eeprom.flash =
    (setting.set leading value s).eeprom.flash := rfl
  rw [flash] at restored
  unfold Setting.differs at changes
  cases setting with
  | generator =>
    apply generator_agrees
    · rw [Setting.set, setGenerator, if_pos changes]
      rfl
    · rw [restored.generatorLeistung, ← read]
      rfl
  | couterconst =>
    apply couterconst_agrees
    · rw [Setting.set, setCouterconst, if_pos changes]
      rfl
    · rw [restored.impulseProKwh, ← read]
      rfl
  | compensation =>
    have held : (Setting.compensation.set leading value s).compensation = toFloat value := by
      rw [Setting.set, setCompensation, if_pos changes]
      rfl
    have word : floatAt (Setting.compensation.set leading value s).eeprom.flash adresseEepromCO =
      toFloat value := read
    rw [Agrees, Readable, held, restored.compensation, word]
    exact positive_part_iff _
  | offset =>
    have held : (Setting.offset.set leading value s).offset = toFloat value := by
      rw [Setting.set, setOffset, if_pos changes]
      rfl
    have word : floatAt (Setting.offset.set leading value s).eeprom.flash adresseEepromOF = toFloat value := read
    rw [Agrees, Readable, held, restored.offset, word]
    exact positive_part_iff _
  | port =>
    apply port_agrees
    · rw [Setting.set, setPort, if_pos changes]
      rfl
    · rw [restored.fhemPort, ← read]
      rfl
  | ip => exact absurd rfl isWord

/-- A request that changes a setting leaves in the RAM what the next start reads back, exactly when
the start takes the number as it is. -/
theorem readback_iff (tmp : UInt32) (args : Arguments) (setting : Setting) (numeric : setting ≠ .ip) (s : Globals)
    (settled : Settled s.eeprom) (changes : setting.differs (arg (text setting.name) args) s) (boot : Setup.Boot) :
    Agrees (setupArgument tmp args (text setting.name) s)
      (Setup.setup boot (setupArgument tmp args (text setting.name) s).restart) setting ↔
      Readable (arg (text setting.name) args) setting := by
  rw [setupArgument_set]
  exact set_agrees _ _ s settled setting numeric changes boot

/-- A device that was started on New Year's Day over a blank flash. -/
def booted : Setup.Boot := ⟨1546329600, fun _ _ => 1546329600, ⟨3300, -60, 0⟩⟩

def blank : Globals := Setup.setup booted (powerOn (fun _ => 0) true [])

theorem blank_settled : Settled blank.eeprom := by
  rw [blank, setup_eeprom]
  exact begin_settled rfl

theorem blank_couterconst : blank.impulseProKwh = 1000 := by
  have read := (setup_restored booted (powerOn (fun _ => 0) true [])).impulseProKwh
  have memory : (powerOn (fun _ => 0) true []).eeprom.flash = fun _ => 0 := rfl
  rw [blank, read, memory]
  decide

/-- It takes 2000 pulses per kWh for good. -/
theorem couterconst_read_back : Agrees
    (setupArgument 0 [(text "couterconst", text "2000")] (text "couterconst") blank)
    (Setup.setup booted (setupArgument 0 [(text "couterconst", text "2000")] (text "couterconst") blank).restart)
    .couterconst := by
  have changes : Setting.couterconst.differs (arg (text "couterconst") [(text "couterconst", text "2000")])
      blank := by
    rw [Setting.differs, blank_couterconst]
    decide
  apply (readback_iff 0 [(text "couterconst", text "2000")] .couterconst (by decide) blank blank_settled changes
    booted).mpr
  exact ⟨by decide +kernel, by decide +kernel⟩

/-- It takes 0 pulses per kWh, and after a restart it has 1000 again. -/
theorem couterconst_replaced : ¬Agrees
    (setupArgument 0 [(text "couterconst", text "0")] (text "couterconst") blank)
    (Setup.setup booted (setupArgument 0 [(text "couterconst", text "0")] (text "couterconst") blank).restart)
    .couterconst := by
  have changes : Setting.couterconst.differs (arg (text "couterconst") [(text "couterconst", text "0")])
      blank := by
    rw [Setting.differs, blank_couterconst]
    decide
  have whole := setupArgument_set 0 [(text "couterconst", text "0")] .couterconst blank
  rw [Setting.name] at whole
  rw [whole, set_agrees _ _ blank blank_settled .couterconst (by decide) changes booted]
  intro readable
  exact readable.1 (by decide)

end Restart
end EspLog.Readback

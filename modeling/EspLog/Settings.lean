import EspLog.Storage

/-! The byte map of the settings: which bytes each of them occupies, what a start reads
from them, and which stores leave the others alone. -/

namespace EspLog.Settings
open CText Eeprom ExactFloat Sketch Functions Websites Effects Restart ByteMemory

section Layout

inductive Setting where
  | generator | couterconst | compensation | offset | port | ip
  deriving DecidableEq

def Setting.name : Setting → String
  | .generator => "generator"
  | .couterconst => "couterconst"
  | .compensation => "compensation"
  | .offset => "offset"
  | .port => "port"
  | .ip => "ip"

def Setting.address : Setting → Nat
  | .generator => adresseEepromGL
  | .couterconst => adresseEepromZK
  | .compensation => adresseEepromCO
  | .offset => adresseEepromOF
  | .port => adresseEepromFhemPort
  | .ip => adresseEepromFhemHost

/-- A float takes four bytes in a row, the address four bytes two apart. -/
def Setting.occupies (i : Nat) : Setting → Prop
  | .ip => adresseEepromFhemHost ≤ i ∧ i < adresseEepromFhemHost + 8 ∧ (i - adresseEepromFhemHost) % 2 = 0
  | word => word.address ≤ i ∧ i < word.address + 4

instance (i : Nat) (setting : Setting) : Decidable (setting.occupies i) := by
  cases setting <;> exact inferInstanceAs (Decidable (_ ∧ _))

/-- A setting with its value. -/
inductive Stored where
  | generator (n : Nat)
  | couterconst (n : Nat)
  | compensation (x : Float32)
  | offset (x : Float32)
  | port (n : Nat)
  | ip (host : Nat → UInt8)

def Stored.setting : Stored → Setting
  | .generator _ => .generator
  | .couterconst _ => .couterconst
  | .compensation _ => .compensation
  | .offset _ => .offset
  | .port _ => .port
  | .ip _ => .ip

/-- The four bytes a value is stored as; the address is not a word. -/
def Stored.bits : Stored → UInt32
  | .generator n | .couterconst n | .port n => (single n).toBits
  | .compensation x | .offset x => x.toBits
  | .ip _ => 0

def written (memory : Memory) : Stored → Memory
  | .ip host => fun i =>
    if Setting.ip.occupies i then host ((i - adresseEepromFhemHost) / 2) else memory i
  | v => write32 memory v.setting.address v.bits

/-- The test that a start makes of the stored port. -/
def PortReadable (x : Float32) : Prop := x > 0 ∧ x < 65535

instance (x : Float32) : Decidable (PortReadable x) := inferInstanceAs (Decidable (_ ∧ _))

/-- The variable of the setting has this value. -/
def Stored.HeldBy (s : Globals) : Stored → Prop
  | .generator n => s.generatorLeistung.toNat = n
  | .couterconst n => s.impulseProKwh.toNat = n
  | .compensation x => s.compensation = x
  | .offset x => s.offset = x
  | .port n => s.fhemPort.toInt = n
  | .ip host => ∀ i, i < 4 → s.fhemHost i = host i

/-- A start makes this value of the stored bytes. -/
def Stored.RestoredFrom (memory : Memory) : Stored → Prop
  | .generator n =>
    (if floatAt memory adresseEepromGL > 0 then (floatAt memory adresseEepromGL).toUInt32 else 0).toNat = n
  | .couterconst n =>
    (if floatAt memory adresseEepromZK > 0 then (floatAt memory adresseEepromZK).toUInt32 else 1000).toNat = n
  | .compensation x => (if floatAt memory adresseEepromCO > 0 then floatAt memory adresseEepromCO else 0) = x
  | .offset x => (if floatAt memory adresseEepromOF > 0 then floatAt memory adresseEepromOF else 0) = x
  | .port n => (if PortReadable (floatAt memory adresseEepromFhemPort) then
      truncate (floatAt memory adresseEepromFhemPort) else 8383).toInt = n
  | .ip host => ∀ i, i < 4 → memory (adresseEepromFhemHost + i * 2) = host i

theorem heldBy_iff (memory : Memory) (s : Globals) (restored : Restored memory s) (v : Stored) :
    v.HeldBy s ↔ v.RestoredFrom memory := by
  cases v with
  | generator n => rw [Stored.HeldBy, restored.generatorLeistung, Stored.RestoredFrom]
  | couterconst n => rw [Stored.HeldBy, restored.impulseProKwh, Stored.RestoredFrom]
  | compensation x => rw [Stored.HeldBy, restored.compensation, Stored.RestoredFrom]
  | offset x => rw [Stored.HeldBy, restored.offset, Stored.RestoredFrom]
  | port n => rw [Stored.HeldBy, restored.fhemPort, Stored.RestoredFrom]; rfl
  | ip host =>
    constructor
    · intro held i small
      exact (restored.fhemHost i small).symm.trans (held i small)
    · intro read i small
      exact (restored.fhemHost i small).trans (read i small)

theorem floatAt_congr (first second : Memory) (address : Nat)
    (same : ∀ i, address ≤ i ∧ i < address + 4 → first i = second i) :
    floatAt first address = floatAt second address := by
  have words := read32_congr first second address (fun i small => same (address + i) (by omega))
  rw [floatAt, floatAt, words]

theorem restoredFrom_congr (first second : Memory) (v : Stored)
    (same : ∀ i, v.setting.occupies i → first i = second i) : v.RestoredFrom first ↔ v.RestoredFrom second := by
  cases v with
  | generator n => rw [Stored.RestoredFrom, Stored.RestoredFrom, floatAt_congr first second adresseEepromGL same]
  | couterconst n => rw [Stored.RestoredFrom, Stored.RestoredFrom, floatAt_congr first second adresseEepromZK same]
  | compensation x =>
    rw [Stored.RestoredFrom, Stored.RestoredFrom, floatAt_congr first second adresseEepromCO same]
  | offset x => rw [Stored.RestoredFrom, Stored.RestoredFrom, floatAt_congr first second adresseEepromOF same]
  | port n => rw [Stored.RestoredFrom, Stored.RestoredFrom, floatAt_congr first second adresseEepromFhemPort same]
  | ip host =>
    have bytes (i : Nat) (small : i < 4) : first (adresseEepromFhemHost + i * 2) =
        second (adresseEepromFhemHost + i * 2) := by
      apply same
      exact ⟨by omega, by omega, by omega⟩
    constructor
    · intro read i small
      rw [← bytes i small, read i small]
    · intro read i small
      rw [bytes i small, read i small]

theorem written_outside (memory : Memory) (v : Stored) (i : Nat) (outside : ¬v.setting.occupies i) :
    written memory v i = memory i := by
  have word (address : Nat) (bits : UInt32) (beyond : ¬(address ≤ i ∧ i < address + 4)) :
      write32 memory address bits i = memory i :=
    write32_outside memory address bits i (by omega)
  cases v with
  | ip host => exact if_neg outside
  | _ => exact word _ _ outside

theorem written_host (memory : Memory) (host : Nat → UInt8) (i : Nat) (inside : Setting.ip.occupies i) :
    written memory (.ip host) i = host ((i - adresseEepromFhemHost) / 2) :=
  if_pos inside

/-- The only two settings whose bytes overlap. -/
def Overlap (first second : Setting) : Prop :=
  first = .port ∧ second = .offset ∨ first = .offset ∧ second = .port

instance (first second : Setting) : Decidable (Overlap first second) := inferInstanceAs (Decidable (_ ∨ _))

theorem occupies_apart (first second : Setting) (ne : first ≠ second) (apart : ¬Overlap first second) (i : Nat)
    (here : first.occupies i) : ¬second.occupies i := by
  intro there
  cases first <;> cases second
  all_goals
    first
    | exact absurd rfl ne
    | exact absurd (by decide) apart
    | simp only [Setting.occupies, Setting.address, adresseEepromZK, adresseEepromCO, adresseEepromGL,
        adresseEepromFhemHost, adresseEepromFhemPort, adresseEepromOF] at here there
      omega

end Layout
section Page

/-- What the setup page does with the value of a setting; `leading` is the value of the request's first argument. -/
def Setting.set (leading value : Str) (s : Globals) : Setting → Globals
  | .generator => setGenerator value s
  | .couterconst => setCouterconst value s
  | .compensation => setCompensation value s
  | .offset => setOffset value s
  | .port => setPort value s
  | .ip => setIp leading value s

theorem setupArgument_set (tmp : UInt32) (args : Arguments) (setting : Setting) (s : Globals) :
    setupArgument tmp args (text setting.name) s =
      setting.set (firstValue args) (arg (text setting.name) args) s := by
  unfold setupArgument
  cases setting
  all_goals
    simp (disch := decide) only [Setting.name, whenNamed_same, whenNamed_other]
    rfl

/-- The comparison that decides whether the page stores a value. -/
def Setting.differs (value : Str) (s : Globals) : Setting → Prop
  | .generator => (toInt value).toUInt32 ≠ s.generatorLeistung
  | .couterconst => (toInt value).toUInt32 ≠ s.impulseProKwh
  | .compensation => (!(toFloat value == s.compensation)) = true
  | .offset => (!(toFloat value == s.offset)) = true
  | .port => toInt value ≠ s.fhemPort
  | .ip => value ≠ fhemIp s

instance (value : Str) (s : Globals) : (setting : Setting) → Decidable (setting.differs value s)
  | .generator | .couterconst | .port | .ip => inferInstanceAs (Decidable (¬_ = _))
  | .compensation | .offset => inferInstanceAs (Decidable (_ = true))

/-- A decimal number of at most 255. -/
structure Number (token : Str) (byte : UInt8) : Prop where
  digits : ∀ b ∈ token, isDigit b = true
  filled : token ≠ []
  number : natOf 10 token = byte.toNat

/-- One part of a dotted address: up to three digits. -/
structure Octet (token : Str) (byte : UInt8) : Prop where
  digits : ∀ b ∈ token, isDigit b = true
  filled : token ≠ []
  short : token.length ≤ 3
  number : natOf 10 token = byte.toNat

/-- The text of an argument is an admissible value of its setting. -/
def Spells (value : Str) : Stored → Prop
  | .generator n | .couterconst n => 0 < n ∧ n < 2 ^ 24 ∧ (toInt value).toInt = n
  | .compensation x | .offset x => x > 0 ∧ toFloat value = x
  | .port n => 1 ≤ n ∧ n ≤ 65534 ∧ (toInt value).toInt = n
  | .ip host => ∃ a b c d, value = [46].intercalate [a, b, c, d] ∧
    Octet a (host 0) ∧ Octet b (host 1) ∧ Octet c (host 2) ∧ Octet d (host 3)

theorem Octet.toNumber {token : Str} {byte : UInt8} (part : Octet token byte) : Number token byte :=
  ⟨part.digits, part.filled, part.number⟩

theorem octet_token (token : Str) (byte : UInt8) (part : Number token byte) : octet token = byte := by
  have small := byte.toNat_lt
  have value : strtol token = byte.toNat := by rw [strtol_digits token part.digits, part.number]
  have clamped : (toInt token).toInt = byte.toNat := by
    rw [toInt, value]
    apply Int32.toInt_ofIntClamp
    · rw [Int32.toInt_minValue]
      omega
    · rw [Int32.toInt_maxValue]
      omega
  apply UInt8.toNat.inj
  rw [octet, UInt32.toNat_toUInt8, natural_toUInt32 _ _ clamped]
  omega

theorem Number.bytes {token : Str} {byte : UInt8} (part : Number token byte) (b : UInt8) (member : b ∈ token) :
    b ≠ 46 ∧ b ≠ 0 := by
  have digit := part.digits b member
  constructor <;>
  rintro rfl <;>
  exact absurd digit (by decide)

theorem strtok_dotted (a b c d : Str) (i j k l : UInt8) (first : Number a i) (second : Number b j)
    (third : Number c k) (fourth : Number d l) (short : ([46].intercalate [a, b, c, d]).length ≤ 19) :
    strtok 46 (toCharArray ([46].intercalate [a, b, c, d]) 20) = [a, b, c, d] := by
  have parts : ∀ piece ∈ [a, b, c, d], ∃ byte, Number piece byte := by
    simp only [List.mem_cons, List.not_mem_nil, or_false]
    rintro piece (rfl | rfl | rfl | rfl)
    exacts [⟨i, first⟩, ⟨j, second⟩, ⟨k, third⟩, ⟨l, fourth⟩]
  have whole : toCharArray ([46].intercalate [a, b, c, d]) 20 = [46].intercalate [a, b, c, d] :=
    List.take_of_length_le short
  rw [whole]
  apply strtok_intercalate
  · exact List.cons_ne_nil _ _
  · intro member
    obtain ⟨byte, part⟩ := parts [] member
    exact part.filled rfl
  · intro piece member point
    obtain ⟨byte, part⟩ := parts piece member
    exact (part.bytes 46 point).1 rfl
  · intro zero
    have inside : (0 : UInt8) ∈ a ∨ (0 : UInt8) ∈ b ∨ (0 : UInt8) ∈ c ∨ (0 : UInt8) ∈ d := by
      simpa [List.intercalate] using zero
    rcases inside with here | here | here | here
    exacts [(first.bytes 0 here).2 rfl, (second.bytes 0 here).2 rfl, (third.bytes 0 here).2 rfl,
      (fourth.bytes 0 here).2 rfl]

end Page

section Stores
variable (leading value : Str) (s : Globals)

theorem set_stores (setting : Setting) :
    setting.set leading value s = s ∨ StoresSetting s (setting.set leading value s) := by
  cases setting with
  | generator => exact setGenerator_stores value s
  | couterconst => exact setCouterconst_stores value s
  | compensation => exact setCompensation_stores value s
  | offset => exact setOffset_stores value s
  | port => exact setPort_stores value s
  | ip => exact setIp_stores value s leading

/-- The float that the page stores for a word. -/
def Setting.word : Setting → Float32
  | .generator | .couterconst => (toInt value).toUInt32.toFloat32
  | .compensation | .offset => toFloat value
  | .port => singleOfInt (toInt value)
  | .ip => 0

theorem set_same (setting : Setting) (same : ¬setting.differs value s) : setting.set leading value s = s := by
  cases setting with
  | generator => exact if_neg same
  | couterconst => exact if_neg same
  | compensation => exact if_neg same
  | offset => exact if_neg same
  | port => exact if_neg same
  | ip => exact if_neg same

theorem set_eeprom (setting : Setting) (isWord : setting ≠ .ip) (changes : setting.differs value s) :
    (setting.set leading value s).eeprom = (s.eeprom.put setting.address (setting.word value).toBits).commit := by
  unfold Setting.differs at changes
  cases setting with
  | generator =>
    rw [Setting.set, setGenerator, if_pos changes]
    rfl
  | couterconst =>
    rw [Setting.set, setCouterconst, if_pos changes]
    rfl
  | compensation =>
    rw [Setting.set, setCompensation, if_pos changes]
    rfl
  | offset =>
    rw [Setting.set, setOffset, if_pos changes]
    simp only [Globals.setPrint, Globals.setValue]
    rfl
  | port =>
    rw [Setting.set, setPort, if_pos changes]
    rfl
  | ip => exact absurd rfl isWord

theorem spelled_bits (v : Stored) (isWord : v.setting ≠ .ip) (spells : Spells value v) :
    (v.setting.word value).toBits = v.bits := by
  have natural (n : Nat) (same : (toInt value).toInt = n) : (toInt value).toUInt32.toFloat32 = single n := by
    rw [toFloat32_eq_single, natural_toUInt32 _ n same]
  cases v with
  | generator n => rw [Stored.setting, Setting.word, natural n spells.2.2, Stored.bits]
  | couterconst n => rw [Stored.setting, Setting.word, natural n spells.2.2, Stored.bits]
  | compensation x => rw [Stored.setting, Setting.word, spells.2, Stored.bits]
  | offset x => rw [Stored.setting, Setting.word, spells.2, Stored.bits]
  | port n =>
    have same := spells.2.2
    have nonnegative : 0 ≤ (toInt value).toInt := by
      rw [same]
      exact Int.natCast_nonneg n
    rw [Stored.setting, Setting.word, singleOfInt_natural _ nonnegative, same, Int.toNat_natCast, Stored.bits]
  | ip host => exact absurd rfl isWord

theorem setIp_data (settled : Settled s.eeprom) (host : Nat → UInt8) (spells : Spells value (.ip host))
    (changes : value ≠ fhemIp s) : (setIp value value s).eeprom.data = written s.eeprom.data (.ip host) := by
  obtain ⟨a, b, c, d, rfl, first, second, third, fourth⟩ := spells
  have short : ([46].intercalate [a, b, c, d]).length ≤ 19 := by
    have h0 := first.short
    have h1 := second.short
    have h2 := third.short
    have h3 := fourth.short
    simp [List.intercalate]
    omega
  have tokens := strtok_dotted a b c d _ _ _ _ first.toNumber second.toNumber third.toNumber fourth.toNumber short
  have isOpen : Open s.eeprom := settled.toOpen
  rw [Storage.setIp_eeprom _ s _ changes, commit_data, tokens]
  funext i
  by_cases inside : Setting.ip.occupies i
  · have store (k : Nat) (token : Str) (byte : UInt8) (present : [a, b, c, d][k]? = some token)
        (part : Octet token byte)
        (here : i = adresseEepromFhemHost + k * 2) (small : k < 4) (same : byte = host k) :
        ([a, b, c, d].foldl setHostByte (s, 0)).1.eeprom.data i = written s.eeprom.data (.ip host) i := by
      have index : (i - adresseEepromFhemHost) / 2 = k := by omega
      have stored := Storage.setHostBytes_written [a, b, c, d] s isOpen k token present (by
        simp only [adresseEepromFhemHost, opened]
        omega)
      rw [here, stored, octet_token token byte part.toNumber, same, ← here, written_host _ _ _ inside, index]
    have position : i = adresseEepromFhemHost ∨ i = adresseEepromFhemHost + 2 ∨ i = adresseEepromFhemHost + 4 ∨
        i = adresseEepromFhemHost + 6 := by
      simp only [Setting.occupies] at inside
      omega
    rcases position with here | here | here | here
    · exact store 0 a _ rfl first here (by omega) rfl
    · exact store 1 b _ rfl second here (by omega) rfl
    · exact store 2 c _ rfl third here (by omega) rfl
    · exact store 3 d _ rfl fourth here (by omega) rfl
  · rw [written_outside _ (.ip host) i inside]
    apply Storage.setHostBytes_elsewhere [a, b, c, d] (s, 0)
    intro k small same
    apply inside
    simp only [List.length_cons, List.length_nil] at small
    simp only [Setting.occupies]
    omega

theorem written_word (memory : Memory) (v : Stored) (isWord : v.setting ≠ .ip) :
    written memory v = write32 memory v.setting.address v.bits := by
  cases v with
  | ip host => exact absurd rfl isWord
  | _ => rfl

theorem set_data (settled : Settled s.eeprom) (v : Stored) (spells : Spells value v)
    (leads : v.setting.differs value s → v.setting = .ip → leading = value) :
    (v.setting.set leading value s).eeprom.data =
      if v.setting.differs value s then written s.eeprom.data v else s.eeprom.data := by
  by_cases changes : v.setting.differs value s
  · rw [if_pos changes]
    by_cases isWord : v.setting ≠ .ip
    · have fits : v.setting.address + 4 ≤ opened := by
        cases v.setting <;> decide
      rw [set_eeprom leading value s _ isWord changes, commit_data, settled.put_data _ _ fits,
        spelled_bits value v isWord spells, written_word _ _ isWord]
    · cases v with
      | ip host =>
        rw [leads changes rfl]
        exact setIp_data value s settled host spells changes
      | _ => exact absurd (by simp [Stored.setting]) isWord
  · rw [if_neg changes, set_same leading value s _ changes]

end Stores

section Restoring

theorem floatAt_written (memory : Memory) (address : Nat) (x : Float32) :
    floatAt (write32 memory address x.toBits) address = x := by
  rw [floatAt, read32_write32, Float32.ofBits_toBits]

theorem single_positive (n : Nat) (positive : 0 < n) (fits : n < 2 ^ 24) : single n > 0 := by
  have zero : single 0 = 0 := by decide
  rw [gt_iff_lt, ← zero, single_lt_iff 0 n (by decide) fits]
  exact positive

theorem single_toUInt32 (n : Nat) (fits : n < 2 ^ 24) : (single n).toUInt32.toNat = n := by
  rw [toUInt32_single n fits, UInt32.toNat_ofNat']
  omega

/-- A stored value is read back exactly. -/
theorem written_restored (memory : Memory) (value : Str) (v : Stored) (spells : Spells value v) :
    v.RestoredFrom (written memory v) := by
  cases v with
  | generator n =>
    obtain ⟨positive, fits, _⟩ := spells
    have read : floatAt (written memory (.generator n)) adresseEepromGL = single n := floatAt_written _ _ _
    rw [Stored.RestoredFrom, read, if_pos (single_positive n positive fits), single_toUInt32 n fits]
  | couterconst n =>
    obtain ⟨positive, fits, _⟩ := spells
    have read : floatAt (written memory (.couterconst n)) adresseEepromZK = single n := floatAt_written _ _ _
    rw [Stored.RestoredFrom, read, if_pos (single_positive n positive fits), single_toUInt32 n fits]
  | compensation x =>
    have read : floatAt (written memory (.compensation x)) adresseEepromCO = x := floatAt_written _ _ _
    rw [Stored.RestoredFrom, read, if_pos spells.1]
  | offset x =>
    have read : floatAt (written memory (.offset x)) adresseEepromOF = x := floatAt_written _ _ _
    rw [Stored.RestoredFrom, read, if_pos spells.1]
  | port n =>
    obtain ⟨positive, small, _⟩ := spells
    have read : floatAt (written memory (.port n)) adresseEepromFhemPort = single n := floatAt_written _ _ _
    have limit : single 65535 = 65535 := by decide
    have readable : PortReadable (single n) := by
      refine ⟨single_positive n positive (by omega), ?_⟩
      rw [← limit, single_lt_iff n 65535 (by omega) (by decide)]
      omega
    rw [Stored.RestoredFrom, read, if_pos readable, truncate_single n (by omega)]
    apply Int32.toInt_ofInt_of_le <;>
    omega
  | ip host =>
    intro i small
    have inside : Setting.ip.occupies (adresseEepromFhemHost + i * 2) := by
      simp only [Setting.occupies]
      omega
    have index : (adresseEepromFhemHost + i * 2 - adresseEepromFhemHost) / 2 = i := by omega
    rw [written_host _ _ _ inside, index]

/-- The two bytes that the port and the offset share. -/
def SharedSame (first second : Memory) : Prop :=
  first 1514 = second 1514 ∧ first 1515 = second 1515

/-- A store of the port or of the offset leaves the bytes that the two share as they are, or the
other one is not readable, neither before nor after. -/
def Apart (memory : Memory) (v : Stored) : Prop :=
  match v.setting with
  | .port => SharedSame memory (written memory v) ∨
    ¬floatAt memory adresseEepromOF > 0 ∧ ¬floatAt (written memory v) adresseEepromOF > 0
  | .offset => SharedSame memory (written memory v) ∨
    ¬PortReadable (floatAt memory adresseEepromFhemPort) ∧
    ¬PortReadable (floatAt (written memory v) adresseEepromFhemPort)
  | _ => True

/-- A store that is apart changes no other setting. -/
theorem written_other (memory : Memory) (v other : Stored) (ne : other.setting ≠ v.setting)
    (apart : Apart memory v) :
    other.RestoredFrom memory ↔ other.RestoredFrom (written memory v) := by
  have untouched (outside : ∀ i, other.setting.occupies i → v.setting.occupies i → memory i = written memory v i) :
      other.RestoredFrom memory ↔ other.RestoredFrom (written memory v) := by
    apply restoredFrom_congr
    intro i mine
    by_cases its : v.setting.occupies i
    · exact outside i mine its
    · exact (written_outside memory v i its).symm
  by_cases overlap : Overlap v.setting other.setting
  · have shared (same : SharedSame memory (written memory v)) (i : Nat) (mine : other.setting.occupies i)
        (its : v.setting.occupies i) : memory i = written memory v i := by
      have position : i = 1514 ∨ i = 1515 := by
        rcases overlap with ⟨port, offset⟩ | ⟨offset, port⟩ <;>
        simp only [port, offset, Setting.occupies, Setting.address, adresseEepromFhemPort,
          adresseEepromOF] at mine its <;>
        omega
      rcases position with rfl | rfl
      · exact same.1
      · exact same.2
    rcases overlap with ⟨port, offset⟩ | ⟨offset, port⟩
    · simp only [Apart, port] at apart
      rcases apart with same | ⟨before, after⟩
      · exact untouched (shared same)
      · cases other with
        | offset x => rw [Stored.RestoredFrom, Stored.RestoredFrom, if_neg before, if_neg after]
        | _ => exact absurd offset (by simp [Stored.setting])
    · simp only [Apart, offset] at apart
      rcases apart with same | ⟨before, after⟩
      · exact untouched (shared same)
      · cases other with
        | port n => rw [Stored.RestoredFrom, Stored.RestoredFrom, if_neg before, if_neg after]
        | _ => exact absurd port (by simp [Stored.setting])
  · exact untouched fun i mine its => absurd its (occupies_apart _ _ ne (fun swapped =>
      overlap (swapped.elim (fun both => .inr both.symm) (fun both => .inl both.symm))) i mine)

end Restoring

section Run

/-- One argument of a setup request, with the value that its text spells. -/
structure Change where
  tmp : UInt32
  args : Arguments
  stored : Stored

def Change.value (change : Change) : Str := arg (text change.stored.setting.name) change.args

/-- An address is the first argument of its request. -/
def Change.Leads (change : Change) : Prop := change.stored.setting = .ip → firstValue change.args = change.value

/-- The device beside the value last stored for each setting. -/
abbrev Memo := Globals × (Setting → Option Stored)

/-- The setup page takes a change; it counts as a store when the page writes it. -/
def take (memo : Memo) (change : Change) : Memo :=
  (setupArgument change.tmp change.args (text change.stored.setting.name) memo.1,
    if change.stored.setting.differs change.value memo.1 then
      Function.update memo.2 change.stored.setting (some change.stored) else memo.2)

/-- A start gives back what was last stored. -/
def AllRestored (memo : Memo) : Prop :=
  ∀ setting v, memo.2 setting = some v → ∀ boot, v.HeldBy (Setup.setup boot memo.1.restart)

/-- A change alters nothing that another setting restores to. -/
def OthersKept (memo : Memo) (change : Change) : Prop :=
  ∀ boot (other : Stored), other.setting ≠ change.stored.setting →
    (other.HeldBy (Setup.setup boot memo.1.restart) ↔ other.HeldBy (Setup.setup boot (take memo change).1.restart))

/-- An admissible value whose store, if it is made, takes an address from its own argument and keeps the
overlapping setting. -/
def Admitted (memo : Memo) (change : Change) : Prop :=
  Spells change.value change.stored ∧
    (change.stored.setting.differs change.value memo.1 → change.Leads ∧ Apart memo.1.eeprom.data change.stored)

/-- The invariant: an open buffer from which every stored setting can be restored. -/
structure Good (memo : Memo) : Prop where
  settled : Settled memo.1.eeprom
  named : ∀ setting v, memo.2 setting = some v → v.setting = setting
  restored : ∀ setting v, memo.2 setting = some v → v.RestoredFrom memo.1.eeprom.data

theorem heldBy_restart (s : Globals) (settled : Settled s.eeprom) (boot : Setup.Boot) (v : Stored) :
    v.HeldBy (Setup.setup boot s.restart) ↔ v.RestoredFrom s.eeprom.data := by
  have restored : Restored s.eeprom.flash (Setup.setup boot s.restart) := Restart.setup_restored boot s.restart
  rw [heldBy_iff _ _ restored v]
  apply restoredFrom_congr
  intro i inside
  apply settled.same
  cases v <;>
  simp only [Stored.setting, Setting.occupies, Setting.address, adresseEepromZK, adresseEepromCO, adresseEepromGL,
    adresseEepromFhemHost, adresseEepromFhemPort, adresseEepromOF, opened] at inside ⊢ <;>
  omega

theorem take_settled (memo : Memo) (change : Change) (settled : Settled memo.1.eeprom) :
    Settled (take memo change).1.eeprom := by
  rw [take, setupArgument_set]
  exact (Storage.kept_setting _ _ (set_stores _ _ _ _)).settled settled

theorem take_data (memo : Memo) (change : Change) (settled : Settled memo.1.eeprom)
    (spells : Spells change.value change.stored)
    (leads : change.stored.setting.differs change.value memo.1 → change.Leads) :
    (take memo change).1.eeprom.data =
      if change.stored.setting.differs change.value memo.1 then written memo.1.eeprom.data change.stored
      else memo.1.eeprom.data := by
  rw [take, setupArgument_set]
  exact set_data _ _ _ settled _ spells leads

theorem take_stored (memo : Memo) (change : Change) (settled : Settled memo.1.eeprom)
    (spells : Spells change.value change.stored) (changes : change.stored.setting.differs change.value memo.1)
    (leads : change.Leads) : (take memo change).1.eeprom.data = written memo.1.eeprom.data change.stored ∧
      (take memo change).2 = Function.update memo.2 change.stored.setting (some change.stored) :=
  ⟨(take_data memo change settled spells fun _ => leads).trans (if_pos changes), if_pos changes⟩

theorem take_other (memo : Memo) (change : Change) (settled : Settled memo.1.eeprom)
    (admitted : Admitted memo change) (other : Stored) (ne : other.setting ≠ change.stored.setting) :
    other.RestoredFrom memo.1.eeprom.data ↔ other.RestoredFrom (take memo change).1.eeprom.data := by
  rw [take_data memo change settled admitted.1 fun changes => (admitted.2 changes).1]
  split
  · rename_i changes
    exact written_other _ _ _ ne (admitted.2 changes).2
  · exact Iff.rfl

theorem take_good (memo : Memo) (change : Change) (good : Good memo) (admitted : Admitted memo change) :
    Good (take memo change) := by
  by_cases changes : change.stored.setting.differs change.value memo.1
  · obtain ⟨data, stores⟩ := take_stored memo change good.settled admitted.1 changes (admitted.2 changes).1
    constructor
    · exact take_settled memo change good.settled
    · intro setting v held
      rw [stores] at held
      by_cases same : setting = change.stored.setting
      · rw [same, Function.update_self] at held
        cases held
        exact same.symm
      · rw [Function.update_of_ne same] at held
        exact good.named setting v held
    · intro setting v held
      rw [stores] at held
      by_cases same : setting = change.stored.setting
      · rw [same, Function.update_self] at held
        cases held
        rw [data]
        exact written_restored _ _ _ admitted.1
      · rw [Function.update_of_ne same] at held
        have other : v.setting ≠ change.stored.setting := (good.named setting v held).symm ▸ same
        exact (take_other memo change good.settled admitted v other).mp (good.restored setting v held)
  · have keeps : (take memo change).2 = memo.2 := if_neg changes
    have data := (take_data memo change good.settled admitted.1 fun changes => (admitted.2 changes).1).trans
      (if_neg changes)
    constructor
    · exact take_settled memo change good.settled
    · rw [keeps]
      exact good.named
    · rw [keeps, data]
      exact good.restored

theorem Good.allRestored {memo : Memo} (good : Good memo) : AllRestored memo := by
  intro setting v held boot
  exact (heldBy_restart memo.1 good.settled boot v).mpr (good.restored setting v held)

theorem Good.othersKept {memo : Memo} (good : Good memo) (change : Change) (admitted : Admitted memo change) :
    OthersKept memo change := by
  intro boot other ne
  rw [heldBy_restart _ good.settled, heldBy_restart _ (take_settled memo change good.settled)]
  exact take_other memo change good.settled admitted other ne

theorem handleSetup_run (tmp : UInt32) (args : Arguments) (s : Globals) (stays : ¬Storage.given "restart" args) :
    (handleSetup tmp args s).sketch = Runs.run (fun s (entry : Str × Str) => setupArgument tmp args entry.1 s) s
      (args.filter fun entry => entry.2 ≠ []) := by
  have rest (list : Arguments) (s : Globals) (unbroken : ¬Storage.given "restart" list) :
      (setupArguments tmp args list s).sketch =
      Runs.run (fun s (entry : Str × Str) => setupArgument tmp args entry.1 s) s
        (list.filter fun entry => entry.2 ≠ []) := by
    induction list generalizing s with
    | nil => rfl
    | cons entry later ih =>
      rw [Storage.given_cons, not_or] at unbroken
      unfold setupArguments
      by_cases filled : entry.2 ≠ []
      · have other : ¬entry.1 = text "restart" := fun named => unbroken.1 ⟨named, filled⟩
        rw [if_pos filled, if_neg other, ih _ unbroken.2, List.filter_cons_of_pos (by simpa using filled),
          Runs.run_cons]
      · rw [if_neg filled, ih _ unbroken.2, List.filter_cons_of_neg (by simpa using filled)]
  exact rest args s stays

theorem handleSetup_single (tmp : UInt32) (setting : Setting) (value : Str) (filled : value ≠ []) (s : Globals) :
    handleSetup tmp [(text setting.name, value)] s = ⟨setting.set value value s, false⟩ := by
  have found : arg (text setting.name) [(text setting.name, value)] = value := by simp [arg]
  have leads : firstValue [(text setting.name, value)] = value := found
  have stays : text setting.name ≠ text "restart" := by cases setting <;> decide
  have stored := setupArgument_set tmp [(text setting.name, value)] setting s
  rw [found, leads] at stored
  rw [handleSetup, setupArguments, if_pos filled, if_neg stays, stored]
  rfl

/-- After any sequence of stores, each of which keeps the setting it overlaps, a start gives
back every setting as it was last stored, and no store altered another setting. -/
theorem settings_restored (s : Globals) (settled : Settled s.eeprom) (changes : List Change)
    (admitted : Runs.Along take Admitted (s, fun _ => none) changes) :
    Runs.Throughout take AllRestored (s, fun _ => none) changes ∧
      Runs.Along take OthersKept (s, fun _ => none) changes := by
  have initial : Good (s, fun _ => none) := ⟨settled, by simp, by simp⟩
  constructor
  · have good := Runs.throughout_of_invariant take_good changes _ initial admitted
    exact good.mono fun memo => Good.allRestored
  · exact Runs.along_of_invariant take_good (fun memo change good => good.othersKept change) changes _
      initial admitted

/-- Over an erased flash the port, the generator and the address. -/
theorem settings_restored_example : Runs.Throughout take AllRestored (Storage.blank 0xFF, fun _ => none)
    [⟨0, [(text "port", text "8080")], .port 8080⟩, ⟨0, [(text "generator", text "5000")], .generator 5000⟩,
      ⟨0, [(text "ip", text "192.168.0.7")], .ip fun i => [192, 168, 0, 7].getD i 0⟩] ∧
    Runs.Along take OthersKept (Storage.blank 0xFF, fun _ => none)
    [⟨0, [(text "port", text "8080")], .port 8080⟩, ⟨0, [(text "generator", text "5000")], .generator 5000⟩,
      ⟨0, [(text "ip", text "192.168.0.7")], .ip fun i => [192, 168, 0, 7].getD i 0⟩] := by
  apply settings_restored _ (begin_settled rfl)
  have port : Spells (text "8080") (.port 8080) := ⟨by decide, by decide, by decide⟩
  have generator : Spells (text "5000") (.generator 5000) := ⟨by decide, by decide, by decide⟩
  have ip : Spells (text "192.168.0.7") (.ip fun i => [192, 168, 0, 7].getD i 0) := by
    refine ⟨text "192", text "168", text "0", text "7", by decide, ?_, ?_, ?_, ?_⟩ <;>
    exact ⟨by decide +kernel, by decide +kernel, by decide +kernel, by decide +kernel⟩
  exact ⟨⟨port, fun _ => ⟨fun _ => rfl, .inr (by decide)⟩⟩, ⟨generator, fun _ => ⟨fun _ => rfl, trivial⟩⟩,
    ⟨ip, fun _ => ⟨fun _ => rfl, trivial⟩⟩, trivial⟩

def exampleOffset : Change := ⟨0, [(text "offset", text "1234.5")], .offset (Float32.ofBits 0x449A5000)⟩

def examplePort : Change := ⟨0, [(text "port", text "8080")], .port 8080⟩

/-- The port 8080 stored after the offset 1234.5 changes the offset. -/
theorem offset_lost_to_port :
    ¬Runs.Throughout take AllRestored (Storage.blank 0xFF, fun _ => none) [exampleOffset, examplePort] := by
  intro through
  have offset : Spells exampleOffset.value exampleOffset.stored := ⟨by decide, by decide⟩
  have port : Spells examplePort.value examplePort.stored := ⟨by decide, by decide, by decide⟩
  have settled : Settled (Storage.blank 0xFF).eeprom := begin_settled rfl
  have firstStores : exampleOffset.stored.setting.differs exampleOffset.value (Storage.blank 0xFF) := by decide
  have first := take_stored (Storage.blank 0xFF, fun _ => none) exampleOffset settled offset firstStores
    (fun address => absurd address (by decide))
  have secondStores : examplePort.stored.setting.differs examplePort.value
      (take (Storage.blank 0xFF, fun _ => none) exampleOffset).1 := by decide
  have between := take_settled (Storage.blank 0xFF, fun _ => none) exampleOffset settled
  have second := take_stored _ examplePort between port secondStores fun address => absurd address (by decide)
  have held : (take (take (Storage.blank 0xFF, fun _ => none) exampleOffset) examplePort).2 .offset =
      some exampleOffset.stored := by
    rw [second.2, Function.update_of_ne (by decide), first.2]
    exact Function.update_self _ _ _
  have restored := through.2.2 .offset _ held ⟨0, fun _ _ => 0, ⟨0, 0, 0⟩⟩
  rw [heldBy_restart _ (take_settled _ examplePort between), second.1, first.1] at restored
  let memory := written (written (Storage.blank 0xFF).eeprom.data exampleOffset.stored) examplePort.stored
  have float : (if floatAt memory adresseEepromOF > 0 then floatAt memory adresseEepromOF else 0) =
      Float32.ofBits 0x449A5000 := restored
  revert float
  decide

end Run

end EspLog.Settings

import EspLog.Support.ExactFloat
import Mathlib.Data.List.Basic
import Mathlib.Data.List.Infix
import Mathlib.Data.List.TakeWhile

/-! Byte strings as the C and Arduino text functions read and write them: number
parsing, number printing, tokens and replacement. -/

namespace EspLog.CText
open Float.Model

abbrev Str := List UInt8

/-- The UTF-8 bytes of a string literal. -/
def text (s : String) : Str := s.toList.flatMap String.utf8EncodeChar

/-- What a function that stops at the terminating NUL sees of a buffer. -/
def cString (s : Str) : Str := s.takeWhile (· != 0)

def isSpace (b : UInt8) : Bool := b == 32 || (9 ≤ b && b ≤ 13)

def isDigit (b : UInt8) : Bool := 48 ≤ b && b ≤ 57

def digitValue (b : UInt8) : Option Nat :=
  if isDigit b then some (b.toNat - 48)
  else if 97 ≤ b && b ≤ 102 then some (b.toNat - 87)
  else if 65 ≤ b && b ≤ 70 then some (b.toNat - 55)
  else none

def natOf (base : Nat) (digits : Str) : Nat :=
  digits.foldl (fun n b => base * n + (digitValue b).getD 0) 0

def signed : Str → Bool × Str
  | 45 :: rest => (true, rest)
  | 43 :: rest => (false, rest)
  | rest => (false, rest)

/-- The decimal integer at the start of a text, zero when there is none. -/
def strtol (s : Str) : Int :=
  let (negative, rest) := signed (s.dropWhile isSpace)
  let n : Int := natOf 10 (rest.takeWhile isDigit)
  if negative then -n else n

theorem strtol_digits (s : Str) (digits : ∀ b ∈ s, isDigit b = true) : strtol s = natOf 10 s := by
  have unspaced : s.dropWhile isSpace = s := by
    cases s with
    | nil => rfl
    | cons b rest =>
      have other : isSpace b = false := by
        have digit := digits b List.mem_cons_self
        simp only [isDigit, isSpace, Bool.and_eq_true, decide_eq_true_eq, UInt8.le_iff_toNat_le] at digit ⊢
        have bounds : 48 ≤ b.toNat ∧ b.toNat ≤ 57 := digit
        simp [← UInt8.toNat_inj]
        omega
      rw [List.dropWhile_cons, other]
      rfl
  have unsigned : signed s = (false, s) := by
    cases s with
    | nil => rfl
    | cons b rest =>
      have digit := digits b List.mem_cons_self
      unfold signed
      split
      · rename_i same
        cases same
        exact absurd digit (by decide)
      · rename_i same
        cases same
        exact absurd digit (by decide)
      · rfl
  have whole : s.takeWhile isDigit = s := List.takeWhile_eq_self_iff.mpr digits
  simp only [strtol, unspaced, unsigned, whole]
  rfl

/-- `atoi`, `atol` and `String::toInt`; the 32-bit `long` clamps. -/
def toInt (s : Str) : Int32 := Int32.ofIntClamp (strtol s)

theorem natural_toUInt32 (x : Int32) (n : Nat) (natural : x.toInt = n) : x.toUInt32.toNat = n := by
  have nonnegative : 0 ≤ x := by
    rw [Int32.le_iff_toInt_le, natural]
    exact Int.natCast_nonneg n
  rw [Int32.toNat_toUInt32_of_le nonnegative, Int32.toNatClampNeg, natural, Int.toNat_natCast]

section Reals

def lower (b : UInt8) : UInt8 := if 65 ≤ b && b ≤ 90 then b + 32 else b

/-- Digits with an optional point: their value without the point, how many stand behind it,
whether there was any digit, and the rest. -/
def mantissa (base : Nat) (accepts : UInt8 → Bool) (s : Str) : Nat × Nat × Bool × Str :=
  let whole := s.takeWhile accepts
  match s.dropWhile accepts with
  | 46 :: rest =>
    let fraction := rest.takeWhile accepts
    (natOf base (whole ++ fraction), fraction.length, !(whole ++ fraction).isEmpty, rest.dropWhile accepts)
  | rest => (natOf base whole, 0, !whole.isEmpty, rest)

def exponent (letter : UInt8) : Str → Int
  | [] => 0
  | b :: rest => if lower b == letter then
      let (negative, digits) := signed rest
      let n : Int := natOf 10 (digits.takeWhile isDigit)
      if negative then -n else n
    else 0

/-- Hexadecimal digits behind `0x`, with a binary exponent. -/
def hexadecimal (s : Str) : Float :=
  let (value, places, present, rest) := mantissa 16 (fun b => (digitValue b).isSome) s
  if present = true then
    .ofModel (.pack (UnpackedFloat.round .binary64 .positive value (exponent 112 rest - 4 * places)))
  else 0

def decimalReal (s : Str) : Float :=
  let (value, places, _, rest) := mantissa 10 isDigit s
  .ofModel (Float.Model.ofScientific value (exponent 101 rest - places))

def unsignedReal (s : Str) : Float :=
  let word := s.map lower
  if (text "inf").isPrefixOf word then .ofModel (.pack (.infinity .positive))
  else if (text "nan").isPrefixOf word then .ofModel (.pack .notANumber)
  else if (text "0x").isPrefixOf word then hexadecimal (s.drop 2)
  else decimalReal s

/-- `strtod` and `atof`. -/
def strtod (s : Str) : Float :=
  let (negative, rest) := signed ((cString s).dropWhile isSpace)
  if negative then -(unsignedReal rest) else unsignedReal rest

/-- `String::toFloat`. -/
def toFloat (s : Str) : Float32 := ExactFloat.toSingle (strtod s)

end Reals

section Printing

/-- `print` of an unsigned number. -/
def decimal (n : Nat) : Str := (Nat.toDigits 10 n).map fun c => UInt8.ofNat c.toNat

theorem decimal_eq (n : Nat) :
    decimal n = (if n < 10 then [] else decimal (n / 10)) ++ [UInt8.ofNat (48 + n % 10)] := by
  have digit (d : Nat) (small : d < 10) : UInt8.ofNat d.digitChar.toNat = UInt8.ofNat (48 + d) := by
    have each : ∀ d < 10, UInt8.ofNat d.digitChar.toNat = UInt8.ofNat (48 + d) := by decide
    exact each d small
  unfold decimal
  rw [Nat.toDigits_eq_if (by decide)]
  split
  · rename_i small
    rw [List.map_singleton, digit n small, Nat.mod_eq_of_lt small]
    rfl
  · rw [List.map_append, List.map_singleton, digit _ (Nat.mod_lt n (by decide))]

theorem decimal_ne_nil (n : Nat) : decimal n ≠ [] := by
  rw [decimal_eq]
  exact List.append_ne_nil_of_right_ne_nil _ (List.cons_ne_nil _ _)

theorem decimal_digits (n : Nat) : ∀ b ∈ decimal n, isDigit b = true := by
  have last (d : Nat) (small : d < 10) : isDigit (UInt8.ofNat (48 + d)) = true := by
    have each : ∀ d < 10, isDigit (UInt8.ofNat (48 + d)) = true := by decide
    exact each d small
  induction n using Nat.strongRecOn with
  | ind n ih =>
    intro b member
    rw [decimal_eq, List.mem_append, List.mem_singleton] at member
    rcases member with leading | rfl
    · split at leading
      · cases leading
      · exact ih (n / 10) (by omega) b leading
    · exact last _ (Nat.mod_lt n (by decide))

theorem natOf_decimal (n : Nat) : natOf 10 (decimal n) = n := by
  have last (d : Nat) (small : d < 10) : (digitValue (UInt8.ofNat (48 + d))).getD 0 = d := by
    have each : ∀ d < 10, (digitValue (UInt8.ofNat (48 + d))).getD 0 = d := by decide
    exact each d small
  have step (digits : Str) (b : UInt8) : natOf 10 (digits ++ [b]) = 10 * natOf 10 digits + (digitValue b).getD 0 :=
    List.foldl_append
  induction n using Nat.strongRecOn with
  | ind n ih =>
    rw [decimal_eq, step, last _ (Nat.mod_lt n (by decide))]
    split
    · have none : natOf 10 [] = 0 := rfl
      rw [none]
      omega
    · rw [ih (n / 10) (by omega)]
      omega

def padLeft (width : Nat) (fill : UInt8) (s : Str) : Str := List.replicate (width - s.length) fill ++ s

/-- `print` of a signed number. -/
def decimalInt (n : Int) : Str := if n < 0 then 45 :: decimal n.natAbs else decimal n.natAbs

/-- The magnitude times `10 ^ places`, rounded half up. -/
def scaled (mantissa : Nat) (exponent : Int) (places : Nat) : Nat :=
  if 0 ≤ exponent then mantissa * 2 ^ exponent.toNat * 10 ^ places
  else (2 * mantissa * 10 ^ places + 2 ^ (-exponent).toNat) / (2 * 2 ^ (-exponent).toNat)

def fixedPoint (number places : Nat) : Str :=
  if places = 0 then decimal number
  else decimal (number / 10 ^ places) ++ 46 :: padLeft places 48 (decimal (number % 10 ^ places))

/-- `dtostrf`: the number with a fixed count of decimals, blanks on the left up to the width. -/
def dtostrf (x : Float) (width places : Nat) : Str :=
  match x.toModel.unpack with
  | .notANumber => text "nan"
  | .infinity _ => text "inf"
  | .zero _ => padLeft width 32 (fixedPoint 0 places)
  | .finite .positive m e _ => padLeft width 32 (fixedPoint (scaled m e places) places)
  | .finite .negative m e _ => padLeft width 32 (45 :: fixedPoint (scaled m e places) places)

/-- `String(float)`: two decimals. -/
def ofSingle (x : Float32) : Str := dtostrf (ExactFloat.toDouble x) 4 2

end Printing

section Pieces

/-- The successive results of `strtok` for one separator: the non-empty pieces between separators. -/
def strtok (separator : UInt8) (s : Str) : List Str :=
  ((cString s).splitOn separator).filter fun piece => !piece.isEmpty

theorem strtok_intercalate (separator : UInt8) (pieces : List Str) (some : pieces ≠ []) (filled : [] ∉ pieces)
    (unseparated : ∀ piece ∈ pieces, separator ∉ piece) (ended : 0 ∉ [separator].intercalate pieces) :
    strtok separator ([separator].intercalate pieces) = pieces := by
  have whole : cString ([separator].intercalate pieces) = [separator].intercalate pieces := by
    apply List.takeWhile_eq_self_iff.mpr
    intro b member
    have ne : b ≠ 0 := fun same => ended (same ▸ member)
    simpa using ne
  rw [strtok, whole, List.splitOn_intercalate separator unseparated some, List.filter_eq_self]
  intro piece member
  cases piece with
  | nil => exact absurd member filled
  | cons b rest => rfl

/-- `String::toCharArray`: as many characters as the buffer holds beside the NUL. -/
def toCharArray (s : Str) (size : Nat) : Str := s.take (size - 1)

/-- Copies while `skip` characters of a replaced occurrence are still to be passed over. -/
def replaceFrom (find replacement : Str) : Nat → Str → Str
  | _, [] => []
  | skip + 1, _ :: rest => replaceFrom find replacement skip rest
  | 0, b :: rest =>
    if find.isPrefixOf (b :: rest) then replacement ++ replaceFrom find replacement (find.length - 1) rest
    else b :: replaceFrom find replacement 0 rest

/-- `String::replace`: every occurrence from left to right, without overlap. -/
def replace (s find replacement : Str) : Str :=
  if find.isEmpty then s else replaceFrom find replacement 0 s

section Replacement
variable (find replacement : Str)

theorem replaceFrom_of_absent (s : Str) (absent : ¬find <:+: s) : replaceFrom find replacement 0 s = s := by
  induction s with
  | nil => rfl
  | cons b rest ih =>
    rw [List.infix_cons_iff, not_or] at absent
    have other : ¬find.isPrefixOf (b :: rest) = true := by simpa using absent.1
    rw [replaceFrom, if_neg other, ih absent.2]

theorem length_le_replaceFrom (filled : find ≠ []) (longer : find.length ≤ replacement.length) (s : Str)
    (skip : Nat) :
    s.length ≤ (replaceFrom find replacement skip s).length + skip := by
  have some := List.length_pos_iff.mpr filled
  induction s generalizing skip with
  | nil => exact Nat.zero_le _
  | cons b rest ih =>
    cases skip with
    | succ skip =>
      have later := ih skip
      rw [replaceFrom, List.length_cons]
      omega
    | zero =>
      rw [replaceFrom]
      split
      · have later := ih (find.length - 1)
        rw [List.length_append, List.length_cons]
        omega
      · have later := ih 0
        rw [List.length_cons, List.length_cons]
        omega

theorem length_lt_replaceFrom (filled : find ≠ []) (longer : find.length < replacement.length) (s : Str)
    (occurs : find <:+: s) : s.length < (replaceFrom find replacement 0 s).length := by
  have some := List.length_pos_iff.mpr filled
  induction s with
  | nil => exact absurd (List.infix_nil.mp occurs) filled
  | cons b rest ih =>
    rw [replaceFrom]
    split
    · have later := length_le_replaceFrom find replacement filled longer.le rest (find.length - 1)
      rw [List.length_append, List.length_cons]
      omega
    · rename_i other
      have later := ih ((List.infix_cons_iff.mp occurs).resolve_left fun starts => other (by simpa using starts))
      rw [List.length_cons, List.length_cons]
      omega

end Replacement

/-- Replacements by longer texts, one after the other, leave exactly those texts alone in which none of them
occurs. -/
theorem foldl_replace_eq_self_iff (pairs : List (Str × Str))
    (longer : ∀ pair ∈ pairs, pair.1 ≠ [] ∧ pair.1.length < pair.2.length) (s : Str) :
    s.length ≤ (pairs.foldl (fun s pair => replace s pair.1 pair.2) s).length ∧
      (pairs.foldl (fun s pair => replace s pair.1 pair.2) s = s ↔ ∀ pair ∈ pairs, ¬pair.1 <:+: s) := by
  induction pairs generalizing s with
  | nil => simp
  | cons pair rest ih =>
    rw [List.forall_mem_cons] at longer
    obtain ⟨filled, grows⟩ := longer.1
    have one : replace s pair.1 pair.2 = replaceFrom pair.1 pair.2 0 s :=
      if_neg (by rw [List.isEmpty_iff]; exact filled)
    obtain ⟨least, same⟩ := ih longer.2 (replaceFrom pair.1 pair.2 0 s)
    rw [List.foldl_cons, one, List.forall_mem_cons]
    by_cases occurs : pair.1 <:+: s
    · have more := length_lt_replaceFrom pair.1 pair.2 filled grows s occurs
      refine ⟨by omega, iff_of_false (fun kept => ?_) (fun both => both.1 occurs)⟩
      rw [kept] at least
      omega
    · rw [replaceFrom_of_absent pair.1 pair.2 s occurs] at least same ⊢
      exact ⟨least, same.trans (and_iff_right occurs).symm⟩

end Pieces

example : toInt (text " -12x") = -12 := by decide +kernel
example : toFloat (text "1234.5") = Float32.ofBits 0x449A5000 := by decide +kernel
example : dtostrf (strtod (text "-0.125")) 6 2 = text " -0.13" := by decide +kernel
example : strtok 46 (text "192.168..7") = [text "192", text "168", text "7"] := by decide +kernel

end EspLog.CText

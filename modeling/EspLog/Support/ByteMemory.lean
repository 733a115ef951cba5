import Mathlib.Algebra.Order.Ring.Nat
import Mathlib.Tactic.Common

/-! Byte-addressed storage with four-byte little-endian words, and the frame rules
that say which words a write leaves alone. -/

namespace EspLog.ByteMemory

abbrev Memory := Nat → UInt8

/-- Byte `i` of a word, least significant first. -/
def byteOf (word : UInt32) (i : Nat) : UInt8 := UInt8.ofNat (word.toNat / 256 ^ i)

def wordOf (b0 b1 b2 b3 : UInt8) : UInt32 :=
  UInt32.ofNat (b0.toNat + 256 * b1.toNat + 65536 * b2.toNat + 16777216 * b3.toNat)

def read32 (memory : Memory) (address : Nat) : UInt32 :=
  wordOf (memory address) (memory (address + 1)) (memory (address + 2)) (memory (address + 3))

def write32 (memory : Memory) (address : Nat) (word : UInt32) : Memory :=
  fun i => if address ≤ i ∧ i < address + 4 then byteOf word (i - address) else memory i

theorem wordOf_byteOf (word : UInt32) :
    wordOf (byteOf word 0) (byteOf word 1) (byteOf word 2) (byteOf word 3) = word := by
  have bound := word.toNat_lt
  apply UInt32.toNat.inj
  simp only [wordOf, byteOf, UInt32.toNat_ofNat', UInt8.toNat_ofNat']
  omega

theorem write32_inside (memory : Memory) (address : Nat) (word : UInt32) (i : Nat) (inside : i < 4) :
    write32 memory address word (address + i) = byteOf word i := by
  have within : address ≤ address + i ∧ address + i < address + 4 := by omega
  simp only [write32, if_pos within, Nat.add_sub_cancel_left]

theorem write32_outside (memory : Memory) (address : Nat) (word : UInt32) (i : Nat)
    (outside : i < address ∨ address + 4 ≤ i) : write32 memory address word i = memory i := by
  have beyond : ¬(address ≤ i ∧ i < address + 4) := by omega
  simp only [write32, if_neg beyond]

theorem read32_congr (first second : Memory) (address : Nat)
    (same : ∀ i, i < 4 → first (address + i) = second (address + i)) :
    read32 first address = read32 second address := by
  have h0 := same 0 (by omega)
  have h1 := same 1 (by omega)
  have h2 := same 2 (by omega)
  have h3 := same 3 (by omega)
  simp only [Nat.add_zero] at h0
  simp only [read32, h0, h1, h2, h3]

@[simp] theorem read32_write32 (memory : Memory) (address : Nat) (word : UInt32) :
    read32 (write32 memory address word) address = word := by
  have first := write32_inside memory address word 0 (by omega)
  rw [Nat.add_zero] at first
  simp only [read32, first, write32_inside memory address word _ (show 1 < 4 by omega),
    write32_inside memory address word _ (show 2 < 4 by omega),
    write32_inside memory address word _ (show 3 < 4 by omega), wordOf_byteOf]

theorem read32_write32_disjoint (memory : Memory) (address other : Nat) (word : UInt32)
    (disjoint : other + 4 ≤ address ∨ address + 4 ≤ other) :
    read32 (write32 memory address word) other = read32 memory other := by
  apply read32_congr
  intro i bound
  exact write32_outside memory address word (other + i) (by omega)

theorem byteOf_wordOf (b : Nat → UInt8) (i : Nat) (inside : i < 4) :
    byteOf (wordOf (b 0) (b 1) (b 2) (b 3)) i = b i := by
  have h0 := (b 0).toNat_lt
  have h1 := (b 1).toNat_lt
  have h2 := (b 2).toNat_lt
  have h3 := (b 3).toNat_lt
  apply UInt8.toNat.inj
  simp only [wordOf, byteOf, UInt32.toNat_ofNat', UInt8.toNat_ofNat']
  obtain rfl | rfl | rfl | rfl : i = 0 ∨ i = 1 ∨ i = 2 ∨ i = 3 := by omega
  all_goals omega

theorem read32_byte (memory : Memory) (address i : Nat) (inside : i < 4) :
    byteOf (read32 memory address) i = memory (address + i) :=
  byteOf_wordOf (fun i => memory (address + i)) i inside

theorem write32_read32 (memory : Memory) (address : Nat) :
    write32 memory address (read32 memory address) = memory := by
  funext i
  by_cases inside : address ≤ i ∧ i < address + 4
  · have position : address + (i - address) = i := by omega
    rw [← position, write32_inside _ _ _ _ (by omega), read32_byte _ _ _ (by omega)]
  · exact write32_outside memory address _ i (by omega)

end EspLog.ByteMemory

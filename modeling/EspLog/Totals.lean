import EspLog.Outputs
import EspLog.Support.Rounding

/-! The yields as numbers. A start adds up the counts of the table and every tick adds the energy of its
pulses; rounded to 24 bits, a yield stays a whole number of Wh and never passes 2^57. -/

namespace EspLog.Totals
open ExactFloat Rounding Sketch Functions Effects Restart Setup Outputs ByteMemory

section Sums

/-- A whole number of Wh that no single addition carries past 2^57. -/
def Whole (v : Float32) : Prop := ∃ n ≤ 2 ^ 57, Holds v n

/-- From 2^57 on the spacing swallows whatever 32 bits can add. -/
theorem add_bounded (n word : ℕ) (bounded : n ≤ 2 ^ 57) (fits : word < 2 ^ 32) :
    roundEven 24 (n + roundEven 24 word) ≤ 2 ^ 57 := by
  have small := roundEven_le_two_pow 24 (by decide) word 32 fits.le
  have most : roundEven 24 (2 ^ 57 + 2 ^ 32) = 2 ^ 57 := by decide +kernel
  have order := roundEven_mono 24 (by decide) (n + roundEven 24 word) (2 ^ 57 + 2 ^ 32) (by omega)
  rwa [most] at order

theorem Whole.add {v : Float32} (whole : Whole v) (word : UInt32) : Whole (v + word.toFloat32) := by
  obtain ⟨n, bounded, held⟩ := whole
  have next := add_bounded n word.toNat bounded word.toNat_lt
  exact ⟨_, next, held.add (holds_toFloat32 word) (next.trans_lt (by decide))⟩

theorem sum_holds (memory : Memory) (list : List (Nat × Nat)) (v : Float32) (n : ℕ) (held : Holds v n)
    (bounded : n ≤ 2 ^ 57) :
    ∃ k, Holds (Runs.run (fun v cell => v + (word memory cell).toFloat32) v list) k ∧ k ≤ 2 ^ 57 ∧
      (k = 0 ↔ n = 0 ∧ ∀ cell ∈ list, word memory cell = 0) := by
  induction list generalizing v n with
  | nil => exact ⟨n, held, bounded, by simp⟩
  | cons cell rest ih =>
    have next := add_bounded n (word memory cell).toNat bounded (word memory cell).toNat_lt
    have sum := held.add (holds_toFloat32 (word memory cell)) (next.trans_lt (by decide))
    obtain ⟨k, total, most, empty⟩ := ih _ _ sum next
    refine ⟨k, total, most, empty.trans ?_⟩
    have none (n : ℕ) : roundEven 24 n = 0 ↔ n = 0 :=
      ⟨fun rounded => not_not.mp fun nonzero => roundEven_ne_zero 24 (by decide) n nonzero rounded,
        fun same => by rw [same, roundEven_zero]⟩
    rw [none, Nat.add_eq_zero_iff, none, List.forall_mem_cons, and_assoc]
    apply and_congr_right
    intro _
    apply and_congr_left
    intro _
    exact ⟨fun same => UInt32.toNat.inj same, fun same => by rw [same, UInt32.toNat_zero]⟩

end Sums

section Yields
variable (s : Globals)

end Yields
end EspLog.Totals

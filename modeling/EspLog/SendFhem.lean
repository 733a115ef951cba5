import Mathlib.Algebra.BigOperators.Group.Finset.Basic
import Mathlib.Data.Nat.Find
import Mathlib.Tactic.Common

/-! The wait for a reply in `sendfhem.ino`. Its deadline is a point of the 32-bit millisecond counter, which
starts again at zero after 49 days. -/

namespace EspLog.SendFhem

section Loop

/-- One test of the loop: whether a reply has come, and what `millis()` returns. -/
structure Poll where
  available : Bool
  millis : UInt32

/-- `timer`, taken from the counter before the loop. -/
def replyTimer (millis : UInt32) : UInt32 := millis + 200

/-- `!client.available() && millis() < timer`. -/
def waits (timer : UInt32) (poll : Poll) : Bool := !poll.available && decide (poll.millis < timer)

/-- The wait loop of `FHEMHTTPsend`: what is left of its tests, from the one on that ends it. -/
def waitLoop (timer : UInt32) : List Poll → List Poll
  | [] => []
  | poll :: rest => if waits timer poll then waitLoop timer rest else poll :: rest

theorem waitLoop_eq_nil_iff (timer : UInt32) (polls : List Poll) :
    waitLoop timer polls = [] ↔ ∀ poll ∈ polls, waits timer poll = true := by
  induction polls with
  | nil => simp [waitLoop]
  | cons poll rest ih =>
    rw [waitLoop, List.forall_mem_cons]
    by_cases here : waits timer poll = true
    · rw [if_pos here, ih, and_iff_right here]
    · rw [if_neg here]
      exact iff_of_false (List.cons_ne_nil _ _) fun both => here both.1

end Loop

section Wait
variable (start : UInt32) (advance : ℕ → ℕ)

/-- The time from the start to reading `k`, in ms. -/
def elapsed (k : ℕ) : ℕ := ∑ i ∈ Finset.range (k + 1), advance i

/-- Reading `k` of the counter. -/
def reading (k : ℕ) : UInt32 := start + UInt32.ofNat (elapsed advance k)

/-- The tests up to reading `k`, while no reply comes. -/
def silence (k : ℕ) : List Poll := (List.range (k + 1)).map fun i => ⟨false, reading start advance i⟩

/-- The loop has ended by reading `k`. -/
def Exits (k : ℕ) : Prop := waitLoop (replyTimer start) (silence start advance k) ≠ []

/-- Reading `k` is the first one at which 200 ms have passed. -/
structure Expires (k : ℕ) : Prop where
  expired : 200 ≤ elapsed advance k
  before : ∀ i, i < k → elapsed advance i < 200

/-- The deadline lies before the counter's wrap, and the reading behind it. -/
def Straddles (k : ℕ) : Prop := start.toNat + 200 < 2 ^ 32 ∧ 2 ^ 32 ≤ start.toNat + elapsed advance k

theorem elapsed_succ (k : ℕ) : elapsed advance (k + 1) = elapsed advance k + advance (k + 1) :=
  Finset.sum_range_succ _ _

theorem elapsed_mono {i j : ℕ} (order : i ≤ j) : elapsed advance i ≤ elapsed advance j := by
  induction order with
  | refl => exact Nat.le_refl _
  | step _ ih =>
    rw [elapsed_succ]
    omega

theorem elapsed_ge (least : ∀ i, 1 ≤ advance i) (k : ℕ) : k + 1 ≤ elapsed advance k := by
  induction k with
  | zero => simpa [elapsed] using least 0
  | succ k ih =>
    have next := least (k + 1)
    rw [elapsed_succ]
    omega

theorem elapsed_le (most : ∀ i, advance i ≤ 1000) (k : ℕ) (expires : Expires advance k) :
    elapsed advance k < 1200 := by
  cases k with
  | zero =>
    have first := most 0
    simp [elapsed]
    omega
  | succ k =>
    have last := expires.before k (Nat.lt_succ_self k)
    have step := most (k + 1)
    rw [elapsed_succ]
    omega

theorem exists_expires (least : ∀ i, 1 ≤ advance i) : ∃ k < 200, Expires advance k := by
  have late : ∃ k, 200 ≤ elapsed advance k := ⟨199, elapsed_ge advance least 199⟩
  refine ⟨Nat.find late, ?_, Nat.find_spec late, fun i before => ?_⟩
  · exact Nat.lt_succ_of_le (Nat.find_min' late (elapsed_ge advance least 199))
  · exact Nat.lt_of_not_le (Nat.find_min late before)

theorem exits_iff (k : ℕ) : Exits start advance k ↔ ∃ i ≤ k, ¬reading start advance i < replyTimer start := by
  have index (i : ℕ) : i ∈ List.range (k + 1) ↔ i ≤ k := by rw [List.mem_range, Nat.lt_succ_iff]
  rw [Exits, ne_eq, waitLoop_eq_nil_iff, silence, List.forall_mem_map]
  simp only [index, waits, Bool.not_false, Bool.true_and, decide_eq_true_eq]
  push Not
  rfl

theorem reading_toNat (i : ℕ) : (reading start advance i).toNat = (start.toNat + elapsed advance i) % 2 ^ 32 := by
  simp [reading]

theorem replyTimer_toNat : (replyTimer start).toNat = (start.toNat + 200) % 2 ^ 32 := by
  simp [replyTimer]

/-- While no reply comes, the loop ends by the first reading at which 200 ms have passed, exactly when the
counter does not wrap between the deadline and that reading. -/
theorem wait_bounded_iff (g k : ℕ) (advances : ∀ i, 1 ≤ advance i ∧ advance i ≤ g) (most : g ≤ 1000)
    (expires : Expires advance k) : Exits start advance k ↔ ¬Straddles start advance k := by
  have small := elapsed_le advance (fun i => (advances i).2.trans most) k expires
  have late := expires.expired
  have below := start.toNat_lt
  rw [exits_iff, Straddles]
  constructor
  · intro exits straddles
    obtain ⟨i, upTo, ends⟩ := exits
    obtain ⟨deadline, wrapped⟩ := straddles
    rw [UInt32.lt_iff_toNat_lt, reading_toNat, replyTimer_toNat] at ends
    rcases Nat.lt_or_eq_of_le upTo with before | last
    · have early := expires.before i before
      omega
    · rw [last] at ends
      omega
  · intro apart
    refine ⟨k, Nat.le_refl k, ?_⟩
    rw [UInt32.lt_iff_toNat_lt, reading_toNat, replyTimer_toNat]
    omega

/-- Where the counter wraps in between, the loop goes on until the counter has gone round once more. -/
theorem stalled (k : ℕ) (expires : Expires advance k) (straddles : Straddles start advance k) (j : ℕ)
    (round : elapsed advance j < 2 ^ 32) : ¬Exits start advance j := by
  obtain ⟨deadline, wrapped⟩ := straddles
  have below := start.toNat_lt
  rw [exits_iff]
  intro found
  obtain ⟨i, upTo, ends⟩ := found
  rw [UInt32.lt_iff_toNat_lt, reading_toNat, replyTimer_toNat] at ends
  rcases Nat.lt_or_ge i k with before | after
  · have early := expires.before i before
    omega
  · have passed := elapsed_mono advance after
    have within := elapsed_mono advance upTo
    omega

end Wait

section Wrap

/-- Readings every 50 ms, from the start of the counter. -/
theorem wait_bounded_at_zero : Exits 0 (fun _ => 50) 3 := by
  apply (wait_bounded_iff 0 (fun _ => 50) 50 3 (fun _ => by decide) (by decide) ?_).mpr
  · intro both
    obtain ⟨-, wrapped⟩ := both
    exact absurd wrapped (by decide)
  · refine ⟨by decide, fun i before => ?_⟩
    obtain rfl | rfl | rfl : i = 0 ∨ i = 1 ∨ i = 2 := by omega
    all_goals decide

/-- A first reading after 300 ms that finds the counter past its end. -/
theorem wait_missed_at_wrap : Expires (fun _ => 300) 0 ∧ ¬Exits 4294967095 (fun _ => 300) 0 := by
  refine ⟨⟨by decide, fun i before => absurd before (Nat.not_lt_zero i)⟩, ?_⟩
  unfold Exits
  decide

end Wrap
end EspLog.SendFhem

import EspLog.Minutes

/-! The minutes of the clock under an arbitrary schedule of the loop: as long as no gap between
two calls comes near the width of the counter of milliseconds, the clock has moved whenever the
gate opens again, so no minute runs its block twice. -/

namespace EspLog.MinuteOnce
open Sketch TimeLib Loop Minutes

section Passes
variable (start : Device) (passes : Passes)

/-- What the clock shows behind the gate of pass `k`. -/
def readAt (k : Nat) : UInt32 :=
  (now (passes.pass k).millis (passes.unixTime k) (device start passes k).clock).sysTime

/-- Pass `k` runs what runs once a minute. -/
def Executes (k : Nat) : Prop := Opens start passes k ∧ second (readAt start passes k) = 0

instance (k : Nat) : Decidable (Opens start passes k) := inferInstanceAs (Decidable (gateOpens _ _))

instance (k : Nat) : Decidable (Executes start passes k) := inferInstanceAs (Decidable (_ ∧ _))

/-- `now() / 60` behind the gate of pass `k`. -/
def minuteAt (k : Nat) : Nat := (readAt start passes k).toNat / 60

/-- The clock stays below its width when pass `k` reads it. -/
def Unwrapped (k : Nat) : Prop :=
  (device start passes k).clock.sysTime.toNat +
    ((passes.pass k).millis - (device start passes k).clock.prevMillis).toNat / 1000 < 2 ^ 32

instance (k : Nat) : Decidable (Unwrapped start passes k) := inferInstanceAs (Decidable (_ < _))

variable {start passes}

/-- The block runs in the passes that execute it, and in no other. -/
theorem device_sketch (k : Nat) :
    (Executes start passes k → (device start passes (k + 1)).sketch =
      everyMinute (readAt start passes k) (passes.io k) (device start passes k).sketch) ∧
    (¬Executes start passes k → (device start passes (k + 1)).sketch = (device start passes k).sketch) := by
  have step : device start passes (k + 1) = loop (passes.pass k) (device start passes k) := rfl
  have clock : (now (passes.pass k).millis (passes.pass k).unixTime (device start passes k).clock).sysTime =
      readAt start passes k := rfl
  constructor
  · intro both
    obtain ⟨opens, full⟩ := both
    have gate : gateOpens (passes.pass k) (device start passes k) := opens
    rw [step, loop, if_pos gate]
    dsimp only
    rw [clock, if_pos full]
    rfl
  · intro idle
    by_cases opens : Opens start passes k
    · have gate : gateOpens (passes.pass k) (device start passes k) := opens
      have partly : ¬second (readAt start passes k) = 0 := fun full => idle ⟨opens, full⟩
      rw [step, loop, if_pos gate]
      dsimp only
      rw [clock, if_neg partly]
    · rw [device_closed k opens]

theorem readAt_eq (k : Nat) (opens : Opens start passes k) (synced : ¬Resyncs start passes k) :
    readAt start passes k = clockAt start passes k :=
  (now_unsynced _ _ _ fun both => synced ⟨opens, both⟩).1

theorem clockAt_toNat (k : Nat) (unwrapped : Unwrapped start passes k) : (clockAt start passes k).toNat =
    (device start passes k).clock.sysTime.toNat +
      ((passes.pass k).millis - (device start passes k).clock.prevMillis).toNat / 1000 := by
  unfold Unwrapped at unwrapped
  rw [clockAt, shows, UInt32.toNat_add, UInt32.toNat_ofNat']
  omega

end Passes

section Gaps
variable {start : Device} {passes : Passes}

/-- The clock was read less than a second before the gate opened last, and showed at least `shown`
then; and since then the counter of milliseconds has not come near its width. -/
structure Follows (start : Device) (passes : Passes) (shown k : Nat) : Prop where
  residue : ((device start passes k).waitTime - (device start passes k).clock.prevMillis).toNat < 1000
  later : shown ≤ (device start passes k).clock.sysTime.toNat
  recent : waited start passes k ≤ 2 ^ 32 - 1000

theorem span_add (a b c : UInt32) (fits : (a - b).toNat + (b - c).toNat < 2 ^ 32) :
    (a - c).toNat = (a - b).toNat + (b - c).toNat := by
  have first := a.toNat_lt
  have second := b.toNat_lt
  have third := c.toNat_lt
  rw [UInt32.toNat_sub, UInt32.toNat_sub] at fits ⊢
  rw [UInt32.toNat_sub]
  omega

/-- Behind an open gate the clock has moved by a second or more. -/
theorem Follows.moved {shown k : Nat} (follows : Follows start passes shown k) (opens : Opens start passes k)
    (unwrapped : Unwrapped start passes k) : shown < (clockAt start passes k).toNat := by
  obtain ⟨residue, later, recent⟩ := follows
  have long := (opens_iff k).mp opens
  have elapsed := span_add (passes.pass k).millis (device start passes k).waitTime
    (device start passes k).clock.prevMillis
  have span : ((passes.pass k).millis - (device start passes k).waitTime).toNat = waited start passes k := rfl
  rw [span] at elapsed
  rw [clockAt_toNat k unwrapped, elapsed (by omega)]
  omega

/-- A gap between two calls that the counter of milliseconds can tell from a short one. -/
def Spaced (passes : Passes) (k : Nat) : Prop :=
  passes.time k ≤ passes.time (k + 1) ∧ passes.time (k + 1) ≤ passes.time k + (2 ^ 32 - 2000)

theorem follows_opened (k : Nat) (opens : Opens start passes k) (synced : ¬Resyncs start passes k)
    (spaced : Spaced passes k) : Follows start passes (clockAt start passes k).toNat (k + 1) := by
  obtain ⟨waitTime, clock⟩ := device_opened k opens
  obtain ⟨sysTime, prevMillis⟩ :=
    now_unsynced (passes.pass k).millis (passes.unixTime k) (device start passes k).clock
    (fun both => synced ⟨opens, both⟩)
  constructor
  · generalize since : (passes.pass k).millis - (device start passes k).clock.prevMillis = elapsed at prevMillis
    have left : (passes.pass k).millis - ((device start passes k).clock.prevMillis +
        UInt32.ofNat (elapsed.toNat / 1000 * 1000)) = elapsed - UInt32.ofNat (elapsed.toNat / 1000 * 1000) := by
      rw [← since]
      grind
    have bound := elapsed.toNat_lt
    rw [waitTime, clock, prevMillis, left, UInt32.toNat_sub, UInt32.toNat_ofNat']
    omega
  · rw [clock, sysTime]
    exact le_rfl
  · have fresh : (UInt32.ofNat (passes.time k) - UInt32.ofNat (passes.time k)).toNat = 0 := by
      rw [UInt32.sub_self]
      rfl
    have millis : (passes.pass k).millis = UInt32.ofNat (passes.time k) := rfl
    obtain ⟨forward, short⟩ := spaced
    have later := elapsed_add (passes.time k) (passes.time (k + 1) - passes.time k) (UInt32.ofNat (passes.time k))
      (by omega)
    have position : passes.time k + (passes.time (k + 1) - passes.time k) = passes.time (k + 1) := by omega
    rw [position, fresh, Nat.zero_add] at later
    rw [waited, waitTime, millis, later]
    omega

theorem follows_step {shown k : Nat} (follows : Follows start passes shown k) (synced : ¬Resyncs start passes k)
    (unwrapped : Unwrapped start passes k) (spaced : Spaced passes k) : Follows start passes shown (k + 1) := by
  by_cases opens : Opens start passes k
  · have next := follows_opened k opens synced spaced
    exact ⟨next.residue, (follows.moved opens unwrapped).le.trans next.later, next.recent⟩
  · obtain ⟨residue, later, _⟩ := follows
    have same := device_closed k opens
    have closed : waited start passes k ≤ 1000 := Nat.le_of_not_lt fun long => opens ((opens_iff k).mpr long)
    obtain ⟨forward, short⟩ := spaced
    have longer := elapsed_add (passes.time k) (passes.time (k + 1) - passes.time k)
      (device start passes k).waitTime (by
      rw [waited] at closed
      omega)
    have position : passes.time k + (passes.time (k + 1) - passes.time k) = passes.time (k + 1) := by omega
    rw [position] at longer
    refine ⟨by rw [same]; exact residue, by rw [same]; exact later, ?_⟩
    rw [waited, same, longer]
    rw [waited] at closed
    omega

theorem follows_run (i n : Nat) (opens : Opens start passes i)
    (synced : ∀ k, i ≤ k → k ≤ i + n → ¬Resyncs start passes k)
    (unwrapped : ∀ k, i ≤ k → k ≤ i + n → Unwrapped start passes k)
    (spaced : ∀ k, i ≤ k → k ≤ i + n → Spaced passes k) :
    Follows start passes (clockAt start passes i).toNat (i + n + 1) := by
  induction n with
  | zero => exact follows_opened i opens (synced i le_rfl le_rfl) (spaced i le_rfl le_rfl)
  | succ n ih =>
    have before := ih (fun k since upto => synced k since (by omega))
      (fun k since upto => unwrapped k since (by omega))
      (fun k since upto => spaced k since (by omega))
    exact follows_step before (synced _ (by omega) le_rfl) (unwrapped _ (by omega) le_rfl)
      (spaced _ (by omega) le_rfl)

/-- Whatever the loop's schedule, with every gap at most 2^32 - 2000 ms no minute of the clock runs
its block twice. -/
theorem minute_once (start : Device) (passes : Passes) (last : Nat)
    (spaced : ∀ k, k < last → Spaced passes k) (unsynced : ∀ k, k ≤ last → ¬Resyncs start passes k)
    (unwrapped : ∀ k, k ≤ last → Unwrapped start passes k) (i j : Nat) (order : i < j) (inside : j ≤ last)
    (first : Executes start passes i) (second : Executes start passes j) :
    minuteAt start passes i ≠ minuteAt start passes j := by
  obtain ⟨n, rfl⟩ : ∃ n, j = i + n + 1 := ⟨j - i - 1, by omega⟩
  have follows := follows_run i n first.1 (fun k _ upto => unsynced k (by omega))
    (fun k _ upto => unwrapped k (by omega))
    (fun k _ upto => spaced k (by omega))
  have moved := follows.moved second.1 (unwrapped _ inside)
  have here := readAt_eq i first.1 (unsynced i (by omega))
  have there := readAt_eq (i + n + 1) second.1 (unsynced _ inside)
  have full := first.2
  have again := second.2
  have seconds (t : UInt32) : TimeLib.second t = t.toNat % 60 := rfl
  rw [here, seconds] at full
  rw [there, seconds] at again
  rw [minuteAt, minuteAt, here, there]
  omega

/-- Calls from 16.5 s on, `gap` milliseconds apart. -/
def calls (gap : Nat) : Passes := ⟨fun k => 16500 + k * gap, fun _ => 0, fun _ => ⟨3300, -60, 0⟩⟩

theorem calls_unsynced (gap k : Nat) : ¬Resyncs booted (calls gap) k := fun synced => synced.2.2 rfl

/-- A minute after New Year the next minute runs its block. -/
theorem minute_once_after_newYear : minuteAt booted (calls 60000) 0 ≠ minuteAt booted (calls 60000) 1 := by
  apply minute_once booted (calls 60000) 1 ?_ (fun k _ => calls_unsynced 60000 k) ?_ 0 1 (by decide) (by decide)
  · decide
  · decide +kernel
  · intro k before
    have zero : k = 0 := by omega
    subst zero
    exact ⟨by decide, by decide⟩
  · intro k inside
    obtain rfl | rfl : k = 0 ∨ k = 1 := by omega
    · decide
    · decide

/-- A call at 16.999 s, one a second later that finds the gate closed, and then gaps of 2^32 - 1999 ms. -/
def farCalls : Passes :=
  ⟨fun k => if k = 0 then 16999 else 17999 + (k - 1) * (2 ^ 32 - 1999), fun _ => 0, fun _ => ⟨3300, -60, 0⟩⟩

/-- One millisecond more is too long: the clock has not moved, and New Year's minute runs again. -/
theorem newYear_repeated :
    (∀ k, farCalls.time k ≤ farCalls.time (k + 1) ∧ farCalls.time (k + 1) ≤ farCalls.time k + (2 ^ 32 - 1999)) ∧
    (∀ k, ¬Resyncs booted farCalls k) ∧ (∀ k, k ≤ 2 → Unwrapped booted farCalls k) ∧
    Executes booted farCalls 0 ∧ Executes booted farCalls 2 ∧
    minuteAt booted farCalls 0 = minuteAt booted farCalls 2 := by
  refine ⟨fun k => ?_, fun k synced => synced.2.2 rfl, by decide, by decide, by decide,
    by decide⟩
  cases k with
  | zero => exact ⟨by decide, by decide⟩
  | succ k =>
    simp only [farCalls, Nat.succ_ne_zero, if_false, Nat.add_sub_cancel]
    omega

end Gaps
end EspLog.MinuteOnce

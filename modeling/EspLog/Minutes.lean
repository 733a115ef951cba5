import EspLog.Loop

/-! The minutes of the clock against the gate of the loop: while calls come at least once a
millisecond, the gate opens every 1001 ms and the clock moves every 1000 ms. -/

namespace EspLog.Minutes
open Sketch TimeLib Loop

section Milliseconds

theorem ofNat_sub_ofNat (later earlier : Nat) (order : earlier ≤ later) (near : later < earlier + 2 ^ 32) :
    (UInt32.ofNat later - UInt32.ofNat earlier).toNat = later - earlier := by
  rw [UInt32.toNat_sub, UInt32.toNat_ofNat', UInt32.toNat_ofNat']
  omega

theorem elapsed_add (time n : Nat) (since : UInt32) (fits : (UInt32.ofNat time - since).toNat + n < 2 ^ 32) :
    (UInt32.ofNat (time + n) - since).toNat = (UInt32.ofNat time - since).toNat + n := by
  have bound := since.toNat_lt
  rw [UInt32.toNat_sub, UInt32.toNat_ofNat'] at fits ⊢
  rw [UInt32.toNat_sub, UInt32.toNat_ofNat']
  omega

/-- What `now()` returns without a new synchronisation. -/
def shows (millis : UInt32) (clock : Clock) : UInt32 :=
  clock.sysTime + UInt32.ofNat ((millis - clock.prevMillis).toNat / 1000)

theorem catchUp_eq (millis : UInt32) (clock : Clock) :
    catchUp millis ((millis - clock.prevMillis).toNat / 1000) clock = { clock with
      sysTime := shows millis clock
      prevMillis := clock.prevMillis + UInt32.ofNat ((millis - clock.prevMillis).toNat / 1000 * 1000) } :=
  catchUp_spec millis _ clock (by omega)

theorem now_unsynced (millis unixTime : UInt32) (clock : Clock)
    (unsynced : ¬(clock.nextSyncTime ≤ shows millis clock ∧ unixTime ≠ 0)) :
    (now millis unixTime clock).sysTime = shows millis clock ∧ (now millis unixTime clock).prevMillis =
      clock.prevMillis + UInt32.ofNat ((millis - clock.prevMillis).toNat / 1000 * 1000) := by
  unfold now
  rw [catchUp_eq]
  dsimp only
  by_cases due : clock.nextSyncTime ≤ shows millis clock
  · have silent : ¬unixTime ≠ 0 := fun answer => unsynced ⟨due, answer⟩
    rw [if_pos due, if_neg silent]
    exact ⟨rfl, rfl⟩
  · rw [if_neg due]
    exact ⟨rfl, rfl⟩

end Milliseconds

section Passes

/-- The passes of a run: the millisecond of each, counted without wrapping, and what it reads. -/
structure Passes where
  time : Nat → Nat
  unixTime : Nat → UInt32
  io : Nat → Readings

variable (start : Device) (passes : Passes)

def Passes.pass (k : Nat) : Pass := ⟨UInt32.ofNat (passes.time k), passes.unixTime k, passes.io k⟩

/-- The device before pass `k`. -/
def device : Nat → Device
  | 0 => start
  | k + 1 => loop (passes.pass k) (device k)

def Opens (k : Nat) : Prop := gateOpens (passes.pass k) (device start passes k)

/-- What the clock shows at pass `k`, whether or not the pass reads it. -/
def clockAt (k : Nat) : UInt32 := shows (passes.pass k).millis (device start passes k).clock

/-- Pass `k` sets the clock anew. -/
def Resyncs (k : Nat) : Prop :=
  Opens start passes k ∧ (device start passes k).clock.nextSyncTime ≤ clockAt start passes k ∧
    passes.unixTime k ≠ 0

/-- The clock comes to a new minute after pass `k` and has left its first second by pass `l`. -/
structure Passed (k l : Nat) : Prop where
  reached : clockAt start passes k ≠ clockAt start passes (k + 1)
  minute : second (clockAt start passes (k + 1)) = 0
  order : k + 1 < l
  left : clockAt start passes l ≠ clockAt start passes (k + 1)

/-- Some pass in that second runs what runs once a minute. -/
def Processed (k l : Nat) : Prop :=
  ∃ j, k < j ∧ j < l ∧ (∀ i, k < i → i ≤ j → clockAt start passes i = clockAt start passes (k + 1)) ∧
    Opens start passes j ∧ (device start passes (j + 1)).sketch =
      everyMinute (clockAt start passes (k + 1)) (passes.io j) (device start passes j).sketch

/-- Every minute that the clock passes in the run is processed. -/
def AllProcessed (last : Nat) : Prop := ∀ k l, l ≤ last → Passed start passes k l → Processed start passes k l

variable {start passes}

theorem device_closed (k : Nat) (closed : ¬Opens start passes k) :
    device start passes (k + 1) = device start passes k :=
  if_neg closed

theorem device_opened (k : Nat) (opens : Opens start passes k) :
    (device start passes (k + 1)).waitTime = (passes.pass k).millis ∧
      (device start passes (k + 1)).clock =
        now (passes.pass k).millis (passes.unixTime k) (device start passes k).clock := by
  have gate : gateOpens (passes.pass k) (device start passes k) := opens
  have step : device start passes (k + 1) = loop (passes.pass k) (device start passes k) := rfl
  rw [step, loop, if_pos gate]
  dsimp only
  split <;> exact ⟨rfl, rfl⟩

theorem device_minute (k : Nat) (opens : Opens start passes k) (synced : ¬Resyncs start passes k)
    (full : second (clockAt start passes k) = 0) : (device start passes (k + 1)).sketch =
      everyMinute (clockAt start passes k) (passes.io k) (device start passes k).sketch := by
  have unsynced := now_unsynced (passes.pass k).millis (passes.unixTime k) (device start passes k).clock
    (fun both => synced ⟨opens, both⟩)
  have gate : gateOpens (passes.pass k) (device start passes k) := opens
  have step : device start passes (k + 1) = loop (passes.pass k) (device start passes k) := rfl
  have clock : (now (passes.pass k).millis (passes.pass k).unixTime (device start passes k).clock).sysTime =
      clockAt start passes k := unsynced.1
  rw [step, loop, if_pos gate]
  dsimp only
  rw [clock, if_pos full]
  rfl

end Passes

section Rhythm

/-- The clock runs from millisecond `origin`, where it showed `epoch`; it was read last at its
second `q`, and the gate will open before the counter of milliseconds can wrap. -/
structure OnTime (origin : Nat) (epoch : UInt32) (q time : Nat) (d : Device) : Prop where
  prev : d.clock.prevMillis = UInt32.ofNat (origin + 1000 * q)
  shown : d.clock.sysTime = epoch + UInt32.ofNat q
  past : origin + 1000 * q ≤ time
  near : time + 1001 < origin + 1000 * q + 2 ^ 32 + min 1001 (UInt32.ofNat time - d.waitTime).toNat

variable {origin : Nat} {epoch : UInt32} {q time : Nat} {d : Device}

theorem OnTime.elapsed (onTime : OnTime origin epoch q time d) :
    (UInt32.ofNat time - d.clock.prevMillis).toNat = time - (origin + 1000 * q) := by
  have near := onTime.near
  rw [onTime.prev, ofNat_sub_ofNat _ _ onTime.past (by omega)]

theorem OnTime.shows (onTime : OnTime origin epoch q time d) :
    shows (UInt32.ofNat time) d.clock = epoch + UInt32.ofNat ((time - origin) / 1000) := by
  have past := onTime.past
  have seconds : (time - origin) / 1000 = q + (time - (origin + 1000 * q)) / 1000 := by omega
  rw [Minutes.shows, onTime.elapsed, onTime.shown, seconds, UInt32.ofNat_add, UInt32.add_assoc]

theorem gateOpens_iff (pass : Pass) (d : Device) : gateOpens pass d ↔ 1000 < (pass.millis - d.waitTime).toNat := by
  rw [gateOpens, gt_iff_lt, UInt32.lt_iff_toNat_lt]
  rfl

variable {start : Device} {passes : Passes} {k : Nat}

/-- One pass keeps the clock on time. -/
theorem onTime_step (onTime : OnTime origin epoch q (passes.time k) (device start passes k))
    (advances : passes.time k ≤ passes.time (k + 1) ∧ passes.time (k + 1) ≤ passes.time k + 1)
    (unsynced : ¬Resyncs start passes k) :
    ∃ q, OnTime origin epoch q (passes.time (k + 1)) (device start passes (k + 1)) := by
  have past := onTime.past
  by_cases opens : Opens start passes k
  · obtain ⟨_, clock⟩ := device_opened k opens
    obtain ⟨sysTime, prevMillis⟩ := now_unsynced (passes.pass k).millis (passes.unixTime k)
      (device start passes k).clock (fun both => unsynced ⟨opens, both⟩)
    refine ⟨(passes.time k - origin) / 1000, ?_, ?_, ?_, ?_⟩
    · have millis : (passes.pass k).millis = UInt32.ofNat (passes.time k) := rfl
      rw [clock, prevMillis, millis, onTime.elapsed, onTime.prev, ← UInt32.ofNat_add]
      congr 1
      omega
    · rw [clock, sysTime]
      exact onTime.shows
    · omega
    · omega
  · have elapsed : (UInt32.ofNat (passes.time k) - (device start passes k).waitTime).toNat ≤ 1000 := by
      have closed := opens
      rw [Opens, gateOpens_iff] at closed
      exact Nat.le_of_not_lt closed
    have later := elapsed_add (passes.time k) (passes.time (k + 1) - passes.time k)
      (device start passes k).waitTime (by omega)
    have now : passes.time k + (passes.time (k + 1) - passes.time k) = passes.time (k + 1) := by omega
    rw [now] at later
    have near := onTime.near
    refine ⟨q, ?_, ?_, ?_, ?_⟩
    · rw [device_closed k opens, onTime.prev]
    · rw [device_closed k opens, onTime.shown]
    · omega
    · rw [device_closed k opens, later]
      omega

end Rhythm
section Run

theorem first_reaches (time : Nat → Nat) (first last n : Nat)
    (advances : ∀ k, k < last → time (k + 1) ≤ time k + 1) (order : first ≤ last) (below : time first ≤ n)
    (reached : n ≤ time last) :
    ∃ j, first ≤ j ∧ j ≤ last ∧ time j = n ∧ ∀ i, first ≤ i → i < j → time i < n := by
  have some : ∃ j, first ≤ j ∧ n ≤ time j := ⟨last, order, reached⟩
  have found := Nat.find_spec some
  have earlier (i : Nat) (after : first ≤ i) (before : i < Nat.find some) : time i < n :=
    Nat.lt_of_not_le fun reached => Nat.find_min some before ⟨after, reached⟩
  refine ⟨Nat.find some, found.1, Nat.find_min' some ⟨order, reached⟩, ?_, earlier⟩
  have inside := Nat.find_min' some ⟨order, reached⟩
  by_cases here : Nat.find some = first
  · rw [here] at found ⊢
    omega
  · have one := earlier (Nat.find some - 1) (by omega) (by omega)
    have step := advances (Nat.find some - 1) (by omega)
    have index : Nat.find some - 1 + 1 = Nat.find some := by omega
    rw [index] at step
    omega

/-- A run of `last` passes, at least one in every millisecond, that never synchronises. The clock
was last set at `origin`, less than seven weeks before. -/
structure Quiet (start : Device) (passes : Passes) (last origin : Nat) : Prop where
  set : start.clock.prevMillis = UInt32.ofNat origin
  begun : origin ≤ passes.time 0
  recent : passes.time 0 + 1001 < origin + 2 ^ 32
  advances : ∀ k, k < last → passes.time k ≤ passes.time (k + 1) ∧ passes.time (k + 1) ≤ passes.time k + 1
  unsynced : ∀ k, k < last → ¬Resyncs start passes k

variable {start : Device} {passes : Passes} {last origin : Nat} (quiet : Quiet start passes last origin)
include quiet

theorem Quiet.ordered (i j : Nat) (order : i ≤ j) (inside : j ≤ last) : passes.time i ≤ passes.time j := by
  induction j, order using Nat.le_induction with
  | base => exact le_rfl
  | succ j order ih => exact (ih (by omega)).trans (quiet.advances j (by omega)).1

theorem Quiet.onTime (k : Nat) (inside : k ≤ last) :
    ∃ q, OnTime origin start.clock.sysTime q (passes.time k) (device start passes k) := by
  induction k with
  | zero =>
    refine ⟨0, quiet.set, (UInt32.add_zero _).symm, quiet.begun, ?_⟩
    have recent := quiet.recent
    omega
  | succ k ih =>
    obtain ⟨q, onTime⟩ := ih (by omega)
    exact onTime_step onTime (quiet.advances k inside) (quiet.unsynced k inside)

theorem Quiet.clockAt_eq (k : Nat) (inside : k ≤ last) :
    clockAt start passes k = start.clock.sysTime + UInt32.ofNat ((passes.time k - origin) / 1000) := by
  obtain ⟨q, onTime⟩ := quiet.onTime k inside
  exact onTime.shows

theorem Quiet.second_of_clock (i j : Nat) (first : i ≤ last) (second : j ≤ last)
    (differ : clockAt start passes i ≠ clockAt start passes j) :
    (passes.time i - origin) / 1000 ≠ (passes.time j - origin) / 1000 := by
  intro same
  exact differ (by rw [quiet.clockAt_eq i first, quiet.clockAt_eq j second, same])

theorem Quiet.after (k : Nat) (inside : k ≤ last) : origin ≤ passes.time k := by
  exact quiet.begun.trans (quiet.ordered 0 k (Nat.zero_le k) inside)

theorem Quiet.edge (k : Nat) (inside : k + 1 ≤ last)
    (reached : clockAt start passes k ≠ clockAt start passes (k + 1)) :
    passes.time (k + 1) = passes.time k + 1 ∧ (passes.time (k + 1) - origin) % 1000 = 0 := by
  have step := quiet.advances k inside
  have seconds := quiet.second_of_clock k (k + 1) (by omega) inside reached
  have after := quiet.after k (by omega)
  omega

omit quiet in
/-- Milliseconds since the gate last opened. -/
def waited (start : Device) (passes : Passes) (k : Nat) : Nat :=
  (UInt32.ofNat (passes.time k) - (device start passes k).waitTime).toNat

omit quiet in
theorem opens_iff (k : Nat) : Opens start passes k ↔ 1000 < waited start passes k := gateOpens_iff _ _

omit quiet in
theorem waited_edge (k : Nat) (moved : passes.time (k + 1) = passes.time k + 1) :
    1 ≤ waited start passes (k + 1) ∧ waited start passes (k + 1) ≤ 1001 ∧
      (waited start passes (k + 1) = 1 ↔ (device start passes (k + 1)).waitTime = (passes.pass k).millis) := by
  have fresh : (UInt32.ofNat (passes.time k) - UInt32.ofNat (passes.time k)).toNat = 0 := by
    rw [UInt32.sub_self]
    rfl
  by_cases opens : Opens start passes k
  · have waitTime := (device_opened k opens).1
    have millis : (passes.pass k).millis = UInt32.ofNat (passes.time k) := rfl
    have one : waited start passes (k + 1) = 1 := by
      rw [waited, waitTime, millis, moved, elapsed_add _ _ _ (by omega), fresh]
    exact ⟨by omega, by omega, iff_of_true one waitTime⟩
  · have closed : waited start passes k ≤ 1000 := Nat.le_of_not_lt fun open_ => opens ((opens_iff k).mpr open_)
    have later : waited start passes (k + 1) = waited start passes k + 1 := by
      unfold waited at closed ⊢
      rw [device_closed k opens, moved, elapsed_add _ _ _ (by omega)]
    refine ⟨by omega, by omega, ?_⟩
    have millis : (passes.pass k).millis = UInt32.ofNat (passes.time k) := rfl
    rw [later, device_closed k opens, millis]
    constructor
    · intro none
      have zero : UInt32.ofNat (passes.time k) - (device start passes k).waitTime = 0 := by
        apply UInt32.toNat.inj
        have waitedNone : waited start passes k = 0 := by omega
        exact waitedNone
      have back := UInt32.sub_add_cancel (UInt32.ofNat (passes.time k)) (device start passes k).waitTime
      rw [zero, UInt32.zero_add] at back
      exact back
    · intro same
      rw [waited, same, fresh]

theorem Quiet.closed_until (m j : Nat) (order : m ≤ j) (inside : j ≤ last)
    (short : waited start passes m + (passes.time j - passes.time m) ≤ 1000) :
    device start passes j = device start passes m ∧ ¬Opens start passes j := by
  induction j, order using Nat.le_induction with
  | base =>
    refine ⟨rfl, ?_⟩
    rw [opens_iff]
    simpa using short
  | succ j order ih =>
    have step := quiet.advances j (by omega)
    obtain ⟨same, closed⟩ := ih (by omega) (by omega)
    have still : device start passes (j + 1) = device start passes m := (device_closed j closed).trans same
    refine ⟨still, ?_⟩
    have all : passes.time (j + 1) = passes.time m + (passes.time (j + 1) - passes.time m) := by
      have whole := quiet.ordered m (j + 1) (by omega) inside
      omega
    rw [opens_iff, waited, still, all, elapsed_add _ _ _ (by unfold waited at short; omega)]
    exact Nat.not_lt.mpr short

theorem Quiet.opens_first (m j : Nat) (order : m ≤ j) (inside : j ≤ last) (most : waited start passes m ≤ 1001)
    (reached : passes.time j = passes.time m + (1001 - waited start passes m))
    (earlier : ∀ i, m ≤ i → i < j → passes.time i < passes.time m + (1001 - waited start passes m)) :
    Opens start passes j := by
  have still : device start passes j = device start passes m := by
    by_cases here : j = m
    · rw [here]
    · have short := earlier (j - 1) (by omega) (by omega)
      have ordered := quiet.ordered m (j - 1) (by omega) (by omega)
      obtain ⟨same, closed⟩ := quiet.closed_until m (j - 1) (by omega) (by omega) (by omega)
      have next : j - 1 + 1 = j := by omega
      rw [← same, ← device_closed (j - 1) closed, next]
  rw [opens_iff, waited, still, reached, elapsed_add _ _ _ (by unfold waited at most; omega)]
  unfold waited
  omega

theorem Quiet.clockAt_second (m i : Nat) (order : m ≤ i) (inside : i ≤ last)
    (full : (passes.time m - origin) % 1000 = 0) (short : passes.time i < passes.time m + 1000) :
    clockAt start passes i = clockAt start passes m := by
  have ordered := quiet.ordered m i order inside
  have after := quiet.after m (by omega)
  have same : (passes.time i - origin) / 1000 = (passes.time m - origin) / 1000 := by omega
  rw [quiet.clockAt_eq i inside, quiet.clockAt_eq m (by omega), same]

theorem Quiet.clockAt_next (m i : Nat) (order : m ≤ i) (inside : i ≤ last)
    (full : (passes.time m - origin) % 1000 = 0) (reached : passes.time i = passes.time m + 1000) :
    clockAt start passes i ≠ clockAt start passes m := by
  have after := quiet.after m (by omega)
  have next : (passes.time i - origin) / 1000 = (passes.time m - origin) / 1000 + 1 := by omega
  intro clock
  rw [quiet.clockAt_eq i inside, quiet.clockAt_eq m (by omega), next] at clock
  have numbers := congrArg UInt32.toNat ((UInt32.add_right_inj _).mp clock)
  rw [UInt32.toNat_ofNat', UInt32.toNat_ofNat'] at numbers
  omega

/-- A minute is processed exactly when the gate did not open in the last millisecond before it. -/
theorem Quiet.processed_iff (k l : Nat) (inside : l ≤ last) (passed : Passed start passes k l) :
    Processed start passes k l ↔ (device start passes (k + 1)).waitTime ≠ (passes.pass k).millis := by
  have order := passed.order
  obtain ⟨moved, full⟩ := quiet.edge k (by omega) passed.reached
  obtain ⟨least, most, opened⟩ := waited_edge k moved
  have ordered := quiet.ordered (k + 1) l (by omega) inside
  have gone : passes.time (k + 1) + 1000 ≤ passes.time l := by
    by_contra short
    exact passed.left (quiet.clockAt_second (k + 1) l (by omega) inside full (by omega))
  have reaches (last' n : Nat) (before : last' ≤ l) (later : k + 1 ≤ last') (below : passes.time (k + 1) ≤ n)
      (above : n ≤ passes.time last') := first_reaches passes.time (k + 1) last' n
    (fun i bound => (quiet.advances i (by omega)).2) later below above
  constructor
  · intro processed same
    obtain ⟨j, later, before, during, opens, _⟩ := processed
    have one := opened.mpr same
    -- the pass that opens the gate is in the first second, in which the gate stays closed
    have short : passes.time j < passes.time (k + 1) + 1000 := by
      by_contra beyond
      obtain ⟨i, first, past, reached, _⟩ :=
        reaches j (passes.time (k + 1) + 1000) (by omega) later (by omega) (by omega)
      exact quiet.clockAt_next (k + 1) i first (by omega) full reached (during i first past)
    exact (quiet.closed_until (k + 1) j later (by omega) (by omega)).2 opens
  · intro other
    have more : waited start passes (k + 1) ≠ 1 := fun one => other (opened.mp one)
    obtain ⟨j, first, past, reached, earlier⟩ :=
      reaches l (passes.time (k + 1) + (1001 - waited start passes (k + 1)))
      le_rfl (by omega) (by omega) (by omega)
    have before : j < l := by
      refine lt_of_le_of_ne past ?_
      intro equal
      subst equal
      omega
    have opens := quiet.opens_first (k + 1) j first (by omega) most reached earlier
    have clock (i : Nat) (later : k + 1 ≤ i) (bound : i ≤ j) : clockAt start passes i =
        clockAt start passes (k + 1) := by
      have ordered := quiet.ordered i j bound (by omega)
      exact quiet.clockAt_second (k + 1) i later (by omega) full (by omega)
    have minute : second (clockAt start passes j) = 0 := by
      rw [clock j first le_rfl]
      exact passed.minute
    refine ⟨j, first, before, clock, opens, ?_⟩
    rw [device_minute j opens (quiet.unsynced j (by omega)) minute, clock j first le_rfl]

end Run

section Skipped

/-- Every minute that a run passes is processed exactly when the gate opens in no last
millisecond before one. -/
theorem minutes_processed_iff (start : Device) (passes : Passes) (last origin : Nat)
    (quiet : Quiet start passes last origin) :
    AllProcessed start passes last ↔
      ∀ k l, l ≤ last → Passed start passes k l → (device start passes (k + 1)).waitTime ≠
        (passes.pass k).millis := by
  constructor
  · intro processed k l inside passed
    exact (quiet.processed_iff k l inside passed).mp (processed k l inside passed)
  · intro other k l inside passed
    exact (quiet.processed_iff k l inside passed).mpr (other k l inside passed)

/-- A device whose clock was set at 10 s to six seconds before New Year 2019. -/
def booted : Device :=
  ⟨powerOn (fun _ => 0) true [], ⟨1546300794, 10000, 1546322394, 21600⟩, 0⟩

/-- One pass in every millisecond from a first one on. -/
def every (first : Nat) : Passes := ⟨fun k => first + k, fun _ => 0, fun _ => ⟨3300, -60, 0⟩⟩

theorem quiet_booted (first last : Nat) (later : 10000 ≤ first) (soon : first < 60000) :
    Quiet booted (every first) last 10000 where
  set := rfl
  begun := later
  recent := by
    simp only [every]
    omega
  advances k _ := by
    simp only [every]
    omega
  unsynced k _ synced := synced.2.2 rfl

theorem booted_opens (first : Nat) (later : 10000 ≤ first) (soon : first < 60000) :
    Opens booted (every first) 0 := by
  rw [opens_iff, waited]
  have since : (UInt32.ofNat ((every first).time 0) - UInt32.ofNat 0).toNat = first - 0 :=
    ofNat_sub_ofNat _ _ (Nat.zero_le _) (by simp only [every]; omega)
  change 1000 < (UInt32.ofNat ((every first).time 0) - UInt32.ofNat 0).toNat
  omega

/-- The loop begins at 15 s, on the full second, and New Year is processed. -/
theorem newYear_processed : AllProcessed booted (every 15000) 2000 := by
  have quiet := quiet_booted 15000 2000 (by decide) (by decide)
  apply (minutes_processed_iff booted (every 15000) 2000 10000 quiet).mpr
  intro k l inside passed same
  have order := passed.order
  obtain ⟨_, full⟩ := quiet.edge k (by omega) passed.reached
  have time (i : Nat) : (every 15000).time i = 15000 + i := rfl
  have edge : k = 999 := by
    rw [time] at full
    omega
  subst edge
  have opened := (device_opened 0 (booted_opens 15000 (by decide) (by decide))).1
  have one : waited booted (every 15000) 1 = 1 := ((waited_edge 0 rfl).2.2).mpr opened
  have still := (quiet.closed_until 1 1000 (by decide) (by omega) (by rw [one]; decide)).1
  rw [still, opened] at same
  exact absurd same (by decide)

/-- The loop begins at 15.999 s, its next pass behind the gate falls past the first second of
New Year, and the year never changes. -/
theorem newYear_skipped : ¬AllProcessed booted (every 15999) 1001 := by
  intro processed
  have quiet := quiet_booted 15999 1001 (by decide) (by decide)
  have passed : Passed booted (every 15999) 0 1001 := by
    constructor
    · rw [quiet.clockAt_eq 0 (by decide), quiet.clockAt_eq 1 (by decide)]
      decide
    · rw [quiet.clockAt_eq 1 (by decide)]
      decide
    · decide
    · rw [quiet.clockAt_eq 1001 (by decide), quiet.clockAt_eq 1 (by decide)]
      decide
  have opened := (device_opened 0 (booted_opens 15999 (by decide) (by decide))).1
  exact (quiet.processed_iff 0 1001 le_rfl passed).mp (processed 0 1001 le_rfl passed) opened

end Skipped
end EspLog.Minutes

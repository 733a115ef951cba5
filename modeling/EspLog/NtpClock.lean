import EspLog.NtpClient

/-! The clock against the true time, over the whole life of a device: what the time server answers, how late its
answers are taken, and when the next one is asked for. -/

namespace EspLog.NtpClock
open TimeLib hiding now
open Minutes NtpClient

section Calls
variable (call : Call) (s : System)

/-- The clock behind the loop of seconds. -/
def caughtUp : Clock :=
  { s.clock with
    sysTime := shows (UInt32.ofNat call.loop) s.clock
    prevMillis := s.clock.prevMillis +
      UInt32.ofNat ((UInt32.ofNat call.loop - s.clock.prevMillis).toNat / 1000 * 1000) }

theorem now_idle (idle : ¬Asks call s) : now call s = { s with clock := caughtUp call s } := by
  rw [now, catchUp_eq]
  exact if_neg idle

theorem now_unanswered (asks : Asks call s) (silent : (getUnixTime call s.client).1 = 0) : now call s =
    ⟨{ caughtUp call s with nextSyncTime := shows (UInt32.ofNat call.loop) s.clock + s.clock.syncInterval },
      if s.status = .timeNotSet then .timeNotSet else .timeNeedsSync, (getUnixTime call s.client).2⟩ := by
  rw [now, catchUp_eq]
  dsimp only
  have due : s.clock.nextSyncTime ≤ shows (UInt32.ofNat call.loop) s.clock := asks
  rw [if_pos due, silent]
  rfl

theorem now_answered (asks : Asks call s) (answer : (getUnixTime call s.client).1 ≠ 0) : now call s =
    ⟨⟨(getUnixTime call s.client).1, UInt32.ofNat call.set, (getUnixTime call s.client).1 + s.clock.syncInterval,
      s.clock.syncInterval⟩, .timeSet, (getUnixTime call s.client).2⟩ := by
  rw [now, catchUp_eq]
  dsimp only
  have due : s.clock.nextSyncTime ≤ shows (UInt32.ofNat call.loop) s.clock := asks
  rw [if_pos due, if_pos answer]
  rfl

end Calls

section Tracking

/-- The numbers behind the counters of 32 bits: the instant to which seconds are counted, the second of CET, the
one of the next request, and when the last request began and ended. -/
structure Exact where
  prev : Nat
  time : Nat
  next : Nat
  asked : Nat
  updated : Nat

/-- The clock at an instant: its second began at most 617 ms too soon, and at most 382 ms and the delay of a
request too late; the next request is due six hours behind the last one, up to a second and that delay. -/
structure Tracks (epoch late instant : Nat) (s : System) (e : Exact) : Prop where
  prevMillis : s.clock.prevMillis = UInt32.ofNat e.prev
  sysTime : s.clock.sysTime = UInt32.ofNat e.time
  nextSyncTime : s.clock.nextSyncTime = UInt32.ofNat e.next
  mLastUpdate : s.client.mLastUpdate = UInt32.ofNat e.updated
  syncInterval : s.clock.syncInterval = 21600
  zone : s.client.mOffset = 3600
  mUpdateInterval : s.client.mUpdateInterval = 60000
  ahead : 1000 * e.time ≤ epoch + 3600000 + e.prev + 617
  behind : epoch + 3600000 + e.prev ≤ 1000 * e.time + 382 + late
  past : e.prev ≤ instant
  recent : instant < e.prev + 1000 + late
  soonest : e.asked + 1000 * e.time + 21599000 < e.prev + 1000 * e.next
  latest : e.prev + 1000 * e.next ≤ e.asked + 1000 * e.time + 21600000 + late
  fits : e.next < 2 ^ 32
  began : e.asked ≤ e.updated
  ended : e.updated ≤ e.asked + late ∧ e.updated ≤ instant
  waited : instant ≤ e.asked + 21600000 + 2 * late

/-- A call of a device whose power came on at the Unix time `epoch`, in milliseconds: within 24 days of the one
before, over within `late`, and without a pause behind its request. A packet that comes left the server within that
time. -/
structure Timely (epoch late instant : Nat) (call : Call) : Prop where
  after : instant ≤ call.loop
  soon : call.loop ≤ instant + 2 ^ 31
  brief : call.set ≤ call.loop + late
  brisk : call.returned < call.updated + 1000
  honest : call.exchange.sent = true → awaitPacket call.exchange.parsePacket 15 0 = true →
    ∃ stamp, stamp ≤ call.updated ∧ call.set ≤ stamp + late ∧ SentAt (epoch + stamp) call.exchange.packet
  representable : epoch + 3600000 + call.set + 21601000 < 1000 * 2 ^ 32

theorem six_hours_later (prev asked time late : Nat) (within : prev ≤ asked + late) :
    prev + 1000 * (time + 21600) ≤ asked + 1000 * time + 21600000 + late := by
  omega

theorem ofNat_six_hours (n : Nat) : UInt32.ofNat n + 21600 = UInt32.ofNat (n + 21600) := by
  rw [UInt32.ofNat_add]
  rfl

variable {epoch late instant : Nat} {s : System} {e : Exact} {call : Call}

theorem Tracks.elapsed (tracks : Tracks epoch late instant s e) (brief : late ≤ 2 ^ 24)
    (timely : Timely epoch late instant call) :
    (UInt32.ofNat call.loop - s.clock.prevMillis).toNat = call.loop - e.prev := by
  have after := timely.after
  have soon := timely.soon
  have past := tracks.past
  have recent := tracks.recent
  rw [tracks.prevMillis]
  exact ofNat_sub_ofNat call.loop e.prev (by omega) (by omega)

theorem Tracks.shows (tracks : Tracks epoch late instant s e) (brief : late ≤ 2 ^ 24)
    (timely : Timely epoch late instant call) :
    shows (UInt32.ofNat call.loop) s.clock = UInt32.ofNat (e.time + (call.loop - e.prev) / 1000) := by
  rw [Minutes.shows, tracks.elapsed brief timely, tracks.sysTime, UInt32.ofNat_add]

theorem Tracks.counted (tracks : Tracks epoch late instant s e) (timely : Timely epoch late instant call) :
    1000 * (e.time + (call.loop - e.prev) / 1000) + 21600000 < 1000 * 2 ^ 32 ∧
      e.prev + (call.loop - e.prev) / 1000 * 1000 ≤ call.loop ∧
      call.loop < e.prev + (call.loop - e.prev) / 1000 * 1000 + 1000 := by
  have after := timely.after
  have past := tracks.past
  have ahead := tracks.ahead
  have representable := timely.representable
  have order := call.ordered
  omega

theorem Tracks.asks_iff (tracks : Tracks epoch late instant s e) (brief : late ≤ 2 ^ 24)
    (timely : Timely epoch late instant call) :
    Asks call s ↔ e.next ≤ e.time + (call.loop - e.prev) / 1000 := by
  have counted := (tracks.counted timely).1
  have fits := tracks.fits
  rw [Asks, tracks.shows brief timely, tracks.nextSyncTime, UInt32.le_iff_toNat_le, UInt32.toNat_ofNat',
    UInt32.toNat_ofNat', Nat.mod_eq_of_lt fits, Nat.mod_eq_of_lt (by omega)]

/-- The answer that the client keeps for a minute is never passed on again. -/
theorem Tracks.refreshes (tracks : Tracks epoch late instant s e) (brief : late ≤ 2 ^ 24)
    (timely : Timely epoch late instant call)
    (asks : Asks call s) : Refreshes call s.client := by
  have due := (tracks.asks_iff brief timely).mp asks
  have after := timely.after
  have soon := timely.soon
  have quick := timely.brief
  have order := call.ordered
  have past := tracks.past
  have soonest := tracks.soonest
  have began := tracks.began
  have ended := tracks.ended
  have waited := tracks.waited
  have delta := ofNat_sub_ofNat call.asked e.updated (by omega) (by omega)
  refine .inr (.inr ?_)
  have minute : (60000 : UInt32).toNat = 60000 := rfl
  rw [tracks.mLastUpdate, tracks.mUpdateInterval, ge_iff_le, UInt32.le_iff_toNat_le, delta, minute]
  omega

theorem Tracks.prev_add (tracks : Tracks epoch late instant s e) (brief : late ≤ 2 ^ 24)
    (timely : Timely epoch late instant call) :
    s.clock.prevMillis + UInt32.ofNat ((UInt32.ofNat call.loop - s.clock.prevMillis).toNat / 1000 * 1000) =
      UInt32.ofNat (e.prev + (call.loop - e.prev) / 1000 * 1000) := by
  rw [tracks.elapsed brief timely, tracks.prevMillis, ← UInt32.ofNat_add]

theorem Tracks.idle (tracks : Tracks epoch late instant s e) (brief : late ≤ 2 ^ 24)
    (timely : Timely epoch late instant call)
    (idle : ¬Asks call s) : Tracks epoch late call.set (now call s)
      { e with
        prev := e.prev + (call.loop - e.prev) / 1000 * 1000
        time := e.time + (call.loop - e.prev) / 1000 } := by
  have early : ¬e.next ≤ e.time + (call.loop - e.prev) / 1000 :=
    fun due => idle ((tracks.asks_iff brief timely).mpr due)
  obtain ⟨-, reached, within⟩ := tracks.counted timely
  have after := timely.after
  have quick := timely.brief
  have order := call.ordered
  have past := tracks.past
  have ahead := tracks.ahead
  have behind := tracks.behind
  have soonest := tracks.soonest
  have latest := tracks.latest
  have ended := tracks.ended
  rw [now_idle call s idle]
  exact
    { tracks with
      prevMillis := tracks.prev_add brief timely
      sysTime := tracks.shows brief timely
      ahead := by dsimp only; omega
      behind := by dsimp only; omega
      past := by dsimp only; omega
      recent := by dsimp only; omega
      soonest := by dsimp only; omega
      latest := by dsimp only; omega
      ended := ⟨ended.1, by dsimp only; omega⟩
      waited := by dsimp only; omega }

/-- A call without an answer counts on, and is made again after six hours. -/
theorem Tracks.unanswered (tracks : Tracks epoch late instant s e) (brief : late ≤ 2 ^ 24)
    (timely : Timely epoch late instant call)
    (asks : Asks call s) (silent : ¬call.exchange.Arrives s.client) : Tracks epoch late call.set (now call s)
      ⟨e.prev + (call.loop - e.prev) / 1000 * 1000, e.time + (call.loop - e.prev) / 1000,
        e.time + (call.loop - e.prev) / 1000 + 21600, call.loop, call.updated⟩ := by
  have answer := getUnixTime_refreshed s.client call (tracks.refreshes brief timely asks) timely.brisk
  have none := getServerTime_silent call.exchange s.client silent
  rw [none] at answer
  obtain ⟨small, reached, within⟩ := tracks.counted timely
  have quick := timely.brief
  have order := call.ordered
  have past := tracks.past
  have ahead := tracks.ahead
  have behind := tracks.behind
  rw [now_unanswered call s asks (congrArg Prod.fst answer), answer]
  exact
    { tracks with
      prevMillis := tracks.prev_add brief timely
      sysTime := tracks.shows brief timely
      nextSyncTime := by
        dsimp only
        rw [tracks.shows brief timely, tracks.syncInterval, ofNat_six_hours]
      mLastUpdate := rfl
      ahead := by dsimp only; omega
      behind := by dsimp only; omega
      past := by dsimp only; omega
      recent := by dsimp only; omega
      soonest := by dsimp only; omega
      latest := by dsimp only; omega
      fits := by dsimp only; omega
      began := by dsimp only; omega
      ended := by dsimp only; omega
      waited := by dsimp only; omega }

theorem answered_tracks (timely : Timely epoch late instant call) (client : EasyNTPClient)
    (zone : client.mOffset = 3600) (interval : client.mUpdateInterval = 60000) (refreshes : Refreshes call client)
    (arrives : call.exchange.Arrives client) :
    (getUnixTime call client).1 ≠ 0 ∧ ∃ time, Tracks epoch late call.set
      ⟨⟨(getUnixTime call client).1, UInt32.ofNat call.set, (getUnixTime call client).1 + 21600, 21600⟩, .timeSet,
        (getUnixTime call client).2⟩ ⟨call.set, time, time + 21600, call.loop, call.updated⟩ := by
  obtain ⟨stamp, left, arrived, sent⟩ := timely.honest arrives.2.1 arrives.2.2
  have bounds := roundedTime_bounds (epoch + stamp)
  have hour : 3600 ≤ roundedTime (epoch + stamp) := by
    unfold roundedTime
    omega
  have answer := getServerTime_sent call.exchange client (epoch + stamp) arrives sent zone
  have quick := timely.brief
  have order := call.ordered
  have representable := timely.representable
  rw [getUnixTime_refreshed client call refreshes timely.brisk, answer]
  constructor
  · intro none
    have zero := congrArg UInt32.toNat none
    rw [UInt32.toNat_ofNat', Nat.mod_eq_of_lt (by omega)] at zero
    exact absurd zero (by rw [UInt32.toNat_zero]; omega)
  · refine ⟨roundedTime (epoch + stamp), ?_⟩
    exact
      { prevMillis := rfl
        sysTime := rfl
        nextSyncTime := by
          dsimp only
          rw [ofNat_six_hours]
        mLastUpdate := rfl
        syncInterval := rfl
        zone := zone
        mUpdateInterval := interval
        ahead := by dsimp only; omega
        behind := by dsimp only; omega
        past := le_rfl
        recent := by dsimp only; omega
        soonest := by dsimp only; omega
        latest := six_hours_later call.set call.loop (roundedTime (epoch + stamp)) late quick
        fits := by dsimp only; omega
        began := by dsimp only; omega
        ended := by dsimp only; omega
        waited := by dsimp only; omega }

theorem Tracks.now (tracks : Tracks epoch late instant s e) (brief : late ≤ 2 ^ 24)
    (timely : Timely epoch late instant call) :
    ∃ next, Tracks epoch late call.set (now call s) next ∧ call.loop < next.prev + 1000 ∧
      next.asked = if Asks call s then call.loop else e.asked := by
  obtain ⟨-, reached, within⟩ := tracks.counted timely
  by_cases asks : Asks call s
  · simp only [if_pos asks]
    by_cases arrives : call.exchange.Arrives s.client
    · obtain ⟨answer, time, answered⟩ := answered_tracks timely s.client tracks.zone tracks.mUpdateInterval
        (tracks.refreshes brief timely asks) arrives
      have order := call.ordered
      refine ⟨⟨call.set, time, time + 21600, call.loop, call.updated⟩, ?_, ?_, rfl⟩
      · rw [now_answered call s asks answer, tracks.syncInterval]
        exact answered
      · dsimp only
        omega
    · exact ⟨_, tracks.unanswered brief timely asks arrives, within, rfl⟩
  · simp only [if_neg asks]
    exact ⟨_, tracks.idle brief timely asks, within, rfl⟩

end Tracking

section Life
variable {epoch late instant : Nat} {s : System} {e : Exact} {call : Call}

/-- Timely calls, one after the other. -/
def Paced (epoch late : Nat) : Nat → List Call → Prop
  | _, [] => True
  | instant, call :: rest => Timely epoch late instant call ∧ Paced epoch late call.set rest

/-- The second that a call returns is at most 617 ms ahead of the true time when it ends, and less than 1382 ms and
the delay of a request behind the true time when it begins. -/
def Right (epoch late : Nat) (call : Call) (s : System) : Prop :=
  1000 * s.clock.sysTime.toNat ≤ epoch + 3600000 + call.set + 617 ∧
    epoch + 3600000 + call.loop < 1000 * s.clock.sysTime.toNat + 1382 + late

/-- A call asks the server six hours after the last request began, up to a second before and a delay behind. -/
def OnTime (late asked : Nat) (call : Call) (s : System) : Prop :=
  (Asks call s → asked + 21599000 < call.loop) ∧ (¬Asks call s → call.loop < asked + 21600000 + late)

/-- The clock, and the beginning of its last request. -/
def watch (watched : System × Nat) (call : Call) : System × Nat :=
  (now call watched.1, if Asks call watched.1 then call.loop else watched.2)

theorem Tracks.right (tracks : Tracks epoch late call.set s e) (within : call.loop < e.prev + 1000)
    (representable : epoch + 3600000 + call.set + 21601000 < 1000 * 2 ^ 32) : Right epoch late call s := by
  have ahead := tracks.ahead
  have behind := tracks.behind
  have past := tracks.past
  have value : s.clock.sysTime.toNat = e.time := by
    rw [tracks.sysTime, UInt32.toNat_ofNat']
    exact Nat.mod_eq_of_lt (by omega)
  rw [Right, value]
  omega

theorem Tracks.onTime (tracks : Tracks epoch late instant s e) (brief : late ≤ 2 ^ 24)
    (timely : Timely epoch late instant call) :
    OnTime late e.asked call s := by
  have after := timely.after
  have past := tracks.past
  have soonest := tracks.soonest
  have latest := tracks.latest
  rw [OnTime, tracks.asks_iff brief timely]
  constructor
  · intro due
    omega
  · intro early
    omega

theorem Tracks.along (brief : late ≤ 2 ^ 24) (calls : List Call) (tracks : Tracks epoch late instant s e)
    (paced : Paced epoch late instant calls) :
    Runs.Along watch (fun watched call => Right epoch late call (NtpClient.now call watched.1) ∧
      OnTime late watched.2 call watched.1) (s, e.asked) calls := by
  induction calls generalizing instant s e with
  | nil => trivial
  | cons call rest ih =>
    obtain ⟨next, kept, within, asked⟩ := tracks.now brief paced.1
    have later := ih kept paced.2
    rw [asked] at later
    exact ⟨⟨kept.right within paced.1.representable, tracks.onTime brief paced.1⟩, later⟩

theorem along_fst {property : System → Call → Prop} (calls : List Call) (watched : System × Nat)
    (along : Runs.Along watch (fun watched call => property watched.1 call) watched calls) :
    Runs.Along (fun s call => now call s) property watched.1 calls := by
  induction calls generalizing watched with
  | nil => trivial
  | cons call rest ih => exact ⟨along.1, ih _ along.2⟩

end Life

section NewYear

def packetAt (time : Nat) (i : Fin 48) : UInt8 :=
  if i.val = 44 then UInt8.ofNat (time % 1000 * 256 / 1000)
  else UInt8.ofNat ((time / 1000 + 2208988800) / 2 ^ (8 * (43 - i.val)))

/-- A call that waits for an answer and gets one, and one that gets none. -/
def answered (loop wait time : Nat) : Call :=
  ⟨loop, loop, loop + wait, loop + wait, loop + wait, ⟨true, true, fun _ => 48, packetAt time⟩, by omega⟩
def unanswered (loop : Nat) : Call :=
  ⟨loop, loop, loop, loop, loop, ⟨true, true, fun _ => 0, fun _ => 0⟩, by omega⟩

theorem packetAt_sent (time : Nat) : SentAt time (packetAt time) := by
  refine ⟨rfl, rfl, rfl, ?_, rfl⟩
  exact congrArg UInt8.ofNat (Nat.div_one _)

theorem timely_answered (epoch instant loop wait : Nat) (after : instant ≤ loop) (soon : loop ≤ instant + 2 ^ 31)
    (short : wait ≤ 100)
    (representable : epoch + 3600000 + (loop + wait) + 21601000 < 1000 * 2 ^ 32) :
    Timely epoch 100 instant (answered loop wait (epoch + loop)) where
  after := after
  soon := soon
  brief := Nat.add_le_add_left short loop
  brisk := Nat.lt_add_of_pos_right (by decide)
  honest := fun _ _ => ⟨loop, Nat.le_add_right _ _, Nat.add_le_add_left short loop, packetAt_sent _⟩
  representable := representable

theorem timely_unanswered (epoch instant loop : Nat) (after : instant ≤ loop) (soon : loop ≤ instant + 2 ^ 31)
    (representable : epoch + 3600000 + loop + 21601000 < 1000 * 2 ^ 32) :
    Timely epoch 100 instant (unanswered loop) where
  after := after
  soon := soon
  brief := Nat.le_add_right _ _
  brisk := Nat.lt_add_of_pos_right (by decide)
  honest := by
    intro _ comes
    have none : awaitPacket (fun _ => 0) 15 0 = false := by decide
    exact absurd (comes.symm.trans none) (by decide)
  representable := representable

/-- Power comes on at New Year 2019, GMT; the first request is answered, and so is the next one, after six hours. -/
def firstCalls : List Call := [unanswered 231, unanswered 60231, answered 21600231 30 (1546300800000 + 21600231)]

theorem firstCalls_paced : Paced 1546300800000 100 0 (answered 200 30 (1546300800000 + 200) :: firstCalls) :=
  ⟨timely_answered _ _ _ _ (by decide) (by decide) (by decide) (by decide),
    timely_unanswered _ _ _ (by decide) (by decide) (by decide),
    timely_unanswered _ _ _ (by decide) (by decide) (by decide),
      timely_answered _ _ _ _ (by decide) (by decide) (by decide) (by decide), trivial⟩

theorem firstCalls_prompt : ∀ first ∈ firstCalls.head?,
    first.loop < (answered 200 30 (1546300800000 + 200)).set + 5000 ∧
      first.set ≤ (answered 200 30 (1546300800000 + 200)).loop + 100 := by
  intro first head
  injection head with same
  rw [← same]
  decide

theorem firstCalls_ready : (setupNtp (answered 200 30 (1546300800000 + 200)) firstCalls).isSome = true := by
  decide +kernel

end NewYear

section Setup
variable {epoch late instant : Nat} {s : System} {e : Exact} {call : Call}

/-- The clock that has had no answer yet. -/
structure Unset (s : System) : Prop where
  status : s.status = .timeNotSet
  mServerTime : s.client.mServerTime = 0
  zone : s.client.mOffset = 3600
  mUpdateInterval : s.client.mUpdateInterval = 60000

theorem Unset.refreshes (unset : Unset s) (call : Call) : Refreshes call s.client :=
  .inl (by rw [unset.mServerTime]; decide)

theorem Unset.now (unset : Unset s) (timely : Timely epoch late instant call) :
    Unset (now call s) ∨ Asks call s ∧ (now call s).status = .timeSet ∧
      ∃ time, Tracks epoch late call.set (setSyncInterval 21600 (now call s))
        ⟨call.set, time, time + 21600, call.loop, call.updated⟩ := by
  by_cases asks : Asks call s
  · by_cases arrives : call.exchange.Arrives s.client
    · obtain ⟨answer, time, answered⟩ := answered_tracks timely s.client unset.zone unset.mUpdateInterval
        (unset.refreshes call) arrives
      rw [now_answered call s asks answer]
      exact .inr ⟨asks, rfl, time, answered⟩
    · have answer := getUnixTime_refreshed s.client call (unset.refreshes call) timely.brisk
      have none := getServerTime_silent call.exchange s.client arrives
      rw [none] at answer
      rw [now_unanswered call s asks (congrArg Prod.fst answer), answer]
      exact .inl ⟨if_pos unset.status, rfl, unset.zone, unset.mUpdateInterval⟩
  · rw [now_idle call s asks]
    exact .inl ⟨unset.status, unset.mServerTime, unset.zone, unset.mUpdateInterval⟩

/-- The loop of `setupNtp` ends with the clock on its track, behind the last request that `watch` has seen. -/
theorem waitForTime_tracks (calls : List Call) (unset : Unset s) (paced : Paced epoch late instant calls)
    (ready : System) (rest : List Call) (ends : waitForTime calls s = some (ready, rest)) (asked : Nat) :
    ∃ waited later e, calls = waited ++ rest ∧ ready = (Runs.run watch (s, asked) waited).1 ∧
      Tracks epoch late later (setSyncInterval 21600 ready) e ∧ Paced epoch late later rest ∧
      e.asked = (Runs.run watch (s, asked) waited).2 := by
  induction calls generalizing s instant asked with
  | nil => cases ends
  | cons call others ih =>
    rw [waitForTime] at ends
    rcases unset.now paced.1 with still | ⟨asks, status, time, answered⟩
    · have waiting : (NtpClient.now call s).status ≠ .timeSet := by
        rw [still.status]
        decide
      rw [if_neg waiting] at ends
      obtain ⟨waited, later, e, split, last, tracks, paced, began⟩ := ih still paced.2 ends
        (if Asks call s then call.loop else asked)
      exact ⟨call :: waited, later, e, by rw [split]; rfl, last, tracks, paced, began⟩
    · rw [if_pos status] at ends
      injection ends with same
      injection same with first second
      subst first second
      exact ⟨[call], call.set, _, rfl, rfl, answered, paced.2, (if_pos asks).symm⟩

theorem first_check (brief : late ≤ 2 ^ 24) (provider first : Call) (time : Nat)
    (answered : Tracks epoch late provider.set
    (setSyncInterval 21600 s) ⟨provider.set, time, time + 21600, provider.loop, provider.updated⟩)
    (timely : Timely epoch late provider.set first) (prompt : first.loop < provider.set + 5000)
    (brisk : first.set ≤ provider.loop + late) :
    (now first (setSyncInterval 5 s)).status = s.status ∧ ¬Asks first (setSyncInterval 5 s) ∧
      ∃ e, Tracks epoch late first.set (setSyncInterval 21600 (now first (setSyncInterval 5 s))) e ∧
        e.asked = provider.loop := by
  have shown : shows (UInt32.ofNat first.loop) (setSyncInterval 5 s).clock =
      UInt32.ofNat (time + (first.loop - provider.set) / 1000) := by
    have seconds := answered.shows brief timely
    rw [shows, setSyncInterval_sysTime, setSyncInterval_prevMillis] at seconds ⊢
    exact seconds
  have value := answered.sysTime
  have moved := answered.prev_add brief timely
  rw [setSyncInterval_sysTime] at value
  rw [setSyncInterval_prevMillis] at moved
  obtain ⟨small, reached, within⟩ := answered.counted timely
  dsimp only at small reached within
  have next : (setSyncInterval 5 s).clock.nextSyncTime = UInt32.ofNat (time + 5) := by
    rw [UInt32.ofNat_add, ← value]
    rfl
  have idle : ¬Asks first (setSyncInterval 5 s) := by
    rw [Asks, shown, next, UInt32.le_iff_toNat_le, UInt32.toNat_ofNat', UInt32.toNat_ofNat',
      Nat.mod_eq_of_lt (by omega), Nat.mod_eq_of_lt (by omega)]
    omega
  have after := timely.after
  have quick := timely.brief
  have order := first.ordered
  have ahead := answered.ahead
  have behind := answered.behind
  have began := answered.began
  have ended := answered.ended
  dsimp only at ahead behind began ended
  rw [now_idle first _ idle]
  refine ⟨rfl, idle, ⟨provider.set + (first.loop - provider.set) / 1000 * 1000,
    time + (first.loop - provider.set) / 1000, time + (first.loop - provider.set) / 1000 + 21600, provider.loop,
    provider.updated⟩, ?_, rfl⟩
  exact
    { answered with
      prevMillis := moved
      sysTime := shown
      nextSyncTime := by
        change shows (UInt32.ofNat first.loop) (setSyncInterval 5 s).clock + 21600 = _
        rw [shown, ofNat_six_hours]
      ahead := by dsimp only; omega
      behind := by dsimp only; omega
      past := by dsimp only; omega
      recent := by dsimp only; omega
      soonest := by dsimp only; omega
      latest := by dsimp only; omega
      fits := by dsimp only; omega
      ended := ⟨ended.1, by dsimp only; omega⟩
      waited := by dsimp only; omega }

/-- What `setSyncProvider` calls `now()` in. -/
def beforeSync : System := { powerOn with clock := { powerOn.clock with nextSyncTime := powerOn.clock.sysTime } }

theorem setSyncProvider_powerOn (provider : Call) : setSyncProvider provider powerOn = now provider beforeSync :=
  rfl

theorem beforeSync_asks (provider : Call) : Asks provider beforeSync := UInt32.le_iff_toNat_le.mpr (Nat.zero_le _)

theorem beforeSync_unset : Unset beforeSync := ⟨rfl, rfl, rfl, rfl⟩

/-- The loop of `setupNtp` as far as these calls: the clock, and the beginning of its last request. -/
def watchSetup (provider : Call) (waited : List Call) : System × Nat :=
  Runs.run watch (setSyncInterval 5 (setSyncProvider provider powerOn), provider.loop) waited

/-- When `setupNtp` ends, the clock is on its track. -/
theorem setup_tracks (brief : late ≤ 2 ^ 24) (provider : Call) (calls : List Call) (paced : Paced epoch late 0
    (provider :: calls))
    (prompt : ∀ first ∈ calls.head?, first.loop < provider.set + 5000 ∧ first.set ≤ provider.loop + late)
    (rest : List Call) (ends : setupNtp provider calls = some (s, rest)) :
    ∃ waited instant e, calls = waited ++ rest ∧ s = setSyncInterval 21600 (watchSetup provider waited).1 ∧
      Tracks epoch late instant s e ∧ Paced epoch late instant rest ∧
        e.asked = (watchSetup provider waited).2 := by
  obtain ⟨⟨ready, left⟩, ended, same⟩ := Option.map_eq_some_iff.mp ends
  injection same with first second
  subst first second
  have called : Unset (setSyncProvider provider powerOn) ∨ Asks provider beforeSync ∧
      (setSyncProvider provider powerOn).status = .timeSet ∧
      ∃ time, Tracks epoch late provider.set (setSyncInterval 21600 (setSyncProvider provider powerOn))
        ⟨provider.set, time, time + 21600, provider.loop, provider.updated⟩ := beforeSync_unset.now paced.1
  rcases called with still | ⟨-, status, time, answered⟩
  · have unset : Unset (setSyncInterval 5 (setSyncProvider provider powerOn)) :=
      ⟨still.status, still.mServerTime, still.zone, still.mUpdateInterval⟩
    obtain ⟨waited, instant, e, split, last, tracks, later, began⟩ :=
      waitForTime_tracks calls unset paced.2 ready left ended provider.loop
    exact ⟨waited, instant, e, split, congrArg (setSyncInterval 21600) last, tracks, later, began⟩
  · cases calls with
    | nil => cases ended
    | cons first others =>
      obtain ⟨soon, quick⟩ := prompt first rfl
      obtain ⟨kept, idle, e, tracks, began⟩ := first_check brief provider first time answered paced.2.1 soon quick
      rw [waitForTime] at ended
      rw [if_pos (kept.trans status)] at ended
      injection ended with pair
      injection pair with first' second
      subst first' second
      exact ⟨[first], _, e, rfl, rfl, tracks, paced.2.2, began.trans (if_neg idle).symm⟩

/-- The clock of the sketch is right at every call, whatever the server answers or fails to answer. -/
theorem clock_accurate (epoch late : Nat) (brief : late ≤ 2 ^ 24) (provider : Call) (calls : List Call)
    (paced : Paced epoch late 0 (provider :: calls))
    (prompt : ∀ first ∈ calls.head?, first.loop < provider.set + 5000 ∧ first.set ≤ provider.loop + late)
    (s : System) (rest : List Call) (ends : setupNtp provider calls = some (s, rest)) :
    Runs.Along (fun s call => now call s) (fun s call => Right epoch late call (now call s)) s rest := by
  obtain ⟨waited, instant, e, -, -, tracks, later, -⟩ := setup_tracks brief provider calls paced prompt rest ends
  exact along_fst rest (s, e.asked) ((tracks.along brief rest later).mono fun _ _ => And.left)

theorem clock_accurate_in_2019 :
    ∃ s rest, setupNtp (answered 200 30 (1546300800000 + 200)) firstCalls = some (s, rest) ∧
    Runs.Along (fun s call => now call s) (fun s call => Right 1546300800000 100 call (now call s)) s rest := by
  obtain ⟨⟨s, rest⟩, ends⟩ := Option.isSome_iff_exists.mp firstCalls_ready
  exact ⟨s, rest, ends, clock_accurate 1546300800000 100 (by decide) _ _ firstCalls_paced firstCalls_prompt s
    rest ends⟩

end Setup

section Startup
variable {epoch late instant : Nat} {s : System} {call : Call}

/-- A clock that has counted from power on. -/
structure Counting (late instant : Nat) (s : System) : Prop where
  prevMillis : s.clock.prevMillis = UInt32.ofNat (1000 * s.clock.sysTime.toNat)
  past : 1000 * s.clock.sysTime.toNat ≤ instant
  recent : instant < 1000 * s.clock.sysTime.toNat + 1000 + late

theorem Counting.elapsed (counting : Counting late instant s) (brief : late ≤ 2 ^ 24)
    (timely : Timely epoch late instant call) :
    (UInt32.ofNat call.loop - s.clock.prevMillis).toNat = call.loop - 1000 * s.clock.sysTime.toNat := by
  have after := timely.after
  have soon := timely.soon
  have past := counting.past
  have recent := counting.recent
  rw [counting.prevMillis]
  exact ofNat_sub_ofNat call.loop _ (by omega) (by omega)

theorem Counting.shows (counting : Counting late instant s) (brief : late ≤ 2 ^ 24)
    (timely : Timely epoch late instant call) :
    shows (UInt32.ofNat call.loop) s.clock = UInt32.ofNat (call.loop / 1000) := by
  have after := timely.after
  have past := counting.past
  have seconds : s.clock.sysTime.toNat + (call.loop - 1000 * s.clock.sysTime.toNat) / 1000 =
    call.loop / 1000 := by omega
  rw [Minutes.shows, counting.elapsed brief timely, ← seconds, UInt32.ofNat_add, UInt32.ofNat_toNat]

theorem loop_second (timely : Timely epoch late instant call) : (UInt32.ofNat
    (call.loop / 1000)).toNat = call.loop / 1000 := by
  have representable := timely.representable
  have order := call.ordered
  rw [UInt32.toNat_ofNat']
  exact Nat.mod_eq_of_lt (by omega)

theorem Counting.prev_add (counting : Counting late instant s) (brief : late ≤ 2 ^ 24)
    (timely : Timely epoch late instant call) :
    s.clock.prevMillis + UInt32.ofNat ((UInt32.ofNat call.loop - s.clock.prevMillis).toNat / 1000 * 1000) =
      UInt32.ofNat (1000 * (call.loop / 1000)) := by
  have later := timely.after
  have past := counting.past
  have whole : 1000 * s.clock.sysTime.toNat + (call.loop - 1000 * s.clock.sysTime.toNat) / 1000 * 1000 =
      1000 * (call.loop / 1000) := by
    omega
  rw [counting.elapsed brief timely, counting.prevMillis, ← UInt32.ofNat_add, whole]

theorem counting_at (timely : Timely epoch late instant call) (after : System)
    (time : after.clock.sysTime = UInt32.ofNat (call.loop / 1000))
    (prev : after.clock.prevMillis = UInt32.ofNat (1000 * (call.loop / 1000))) : Counting late call.set after := by
  have quick := timely.brief
  have order := call.ordered
  have second : after.clock.sysTime.toNat = call.loop / 1000 := by rw [time, loop_second timely]
  constructor
  · rw [prev, second]
  · rw [second]
    omega
  · rw [second]
    omega

/-- The loop of `setupNtp` before an answer; `next` is the second of its next request. -/
structure Waiting (begins : Bool) (late next instant : Nat) (s : System) : Prop
    extends Unset s, Counting late instant s where
  nextSyncTime : s.clock.nextSyncTime = UInt32.ofNat next
  small : next < 2 ^ 32
  syncInterval : s.clock.syncInterval = 5
  socket : s.client.udpInited = some begins

theorem Waiting.now {begins : Bool} {next : Nat} (waiting : Waiting begins late next instant s)
    (brief : late ≤ 2 ^ 24) (timely : Timely epoch late instant call) :
    if next ≤ call.loop / 1000 then
      if begins = true ∧ call.Comes then (now call s).status = .timeSet
      else Waiting begins late (call.loop / 1000 + 5) call.set (now call s)
    else Waiting begins late next call.set (now call s) := by
  have shown := waiting.shows brief timely
  have second := loop_second timely
  have representable := timely.representable
  have order := call.ordered
  have asks : Asks call s ↔ next ≤ call.loop / 1000 := by
    rw [Asks, shown, waiting.nextSyncTime, UInt32.le_iff_toNat_le, second, UInt32.toNat_ofNat',
      Nat.mod_eq_of_lt waiting.small]
  have arrives : call.exchange.Arrives s.client ↔ begins = true ∧ call.Comes := by
    rw [Exchange.Arrives, waiting.socket, Option.getD_some, Call.Comes]
  split
  · rename_i due
    split
    · rename_i answer
      obtain ⟨answer, -⟩ := answered_tracks timely s.client waiting.zone waiting.mUpdateInterval
        (waiting.refreshes call) (arrives.mpr answer)
      rw [now_answered call s (asks.mpr due) answer]
    · rename_i silent
      have answer := getUnixTime_refreshed s.client call (waiting.refreshes call) timely.brisk
      rw [getServerTime_silent call.exchange s.client (fun comes => silent (arrives.mp comes)),
        waiting.socket] at answer
      have counted := counting_at timely
        ⟨{ caughtUp call s with nextSyncTime := shows (UInt32.ofNat call.loop) s.clock + s.clock.syncInterval },
        if s.status = .timeNotSet then .timeNotSet else .timeNeedsSync, (getUnixTime call s.client).2⟩ shown
        (waiting.prev_add brief timely)
      rw [now_unanswered call s (asks.mpr due) (congrArg Prod.fst answer)]
      exact
        { counted with
          status := if_pos waiting.status
          mServerTime := by rw [answer]; rfl
          zone := by rw [answer]; exact waiting.zone
          mUpdateInterval := by rw [answer]; exact waiting.mUpdateInterval
          nextSyncTime := by
            dsimp only
            rw [shown, waiting.syncInterval, UInt32.ofNat_add]
            rfl
          small := by omega
          syncInterval := waiting.syncInterval
          socket := by rw [answer]; rfl }
  · rename_i early
    have counted := counting_at timely { s with clock := caughtUp call s } shown (waiting.prev_add brief timely)
    rw [now_idle call s (fun due => early (asks.mp due))]
    exact
      { counted with
        status := waiting.status
        mServerTime := waiting.mServerTime
        zone := waiting.zone
        mUpdateInterval := waiting.mUpdateInterval
        nextSyncTime := waiting.nextSyncTime
        small := waiting.small
        syncInterval := waiting.syncInterval
        socket := waiting.socket }

theorem next_check (call : Call) (rest : List Call)
    (delayed : (call :: rest).IsChain fun call later => call.set + 5000 ≤ later.loop) :
    ∀ first ∈ rest.head?, call.loop / 1000 + 5 ≤ first.loop / 1000 := by
  intro first head
  cases rest with
  | nil => cases head
  | cons other others =>
    injection head with same
    have gap := (List.isChain_cons_cons.mp delayed).1
    have order := call.ordered
    rw [same] at gap
    omega

/-- While every check asks, the first answer ends the loop. -/
theorem Waiting.ends_iff {begins : Bool} {next : Nat} (brief : late ≤ 2 ^ 24) (calls : List Call)
    (waiting : Waiting begins late next instant s) (paced : Paced epoch late instant calls)
    (delayed : calls.IsChain fun call later => call.set + 5000 ≤ later.loop)
    (due : ∀ first ∈ calls.head?, next ≤ first.loop / 1000) :
    (waitForTime calls s).isSome = true ↔ begins = true ∧ ∃ call ∈ calls, call.Comes := by
  induction calls generalizing next instant s with
  | nil => simp [waitForTime]
  | cons call rest ih =>
    have step := waiting.now brief paced.1
    rw [if_pos (due call rfl)] at step
    rw [waitForTime, List.exists_mem_cons_iff]
    by_cases answer : begins = true ∧ call.Comes
    · rw [if_pos answer] at step
      rw [if_pos step]
      exact iff_of_true rfl ⟨answer.1, .inl answer.2⟩
    · rw [if_neg answer] at step
      have unset : (NtpClient.now call s).status ≠ .timeSet := by
        rw [step.status]
        decide
      rw [if_neg unset, ih step paced.2 delayed.tail (next_check call rest delayed)]
      constructor
      · intro later
        exact ⟨later.1, .inr later.2⟩
      · intro either
        exact ⟨either.1, either.2.resolve_left fun comes => answer ⟨either.1, comes⟩⟩

/-- The checks of `setupNtp` that ask when the first request had no answer: the first one only if the clock, which
counts from zero, has moved by five seconds. -/
def askers (provider : Call) : List Call → List Call
  | [] => []
  | first :: rest => if provider.loop / 1000 + 5 ≤ first.loop / 1000 then first :: rest else rest

theorem askers_ends_iff {begins : Bool} (brief : late ≤ 2 ^ 24) (provider : Call) (calls : List Call)
    (waiting : Waiting begins late (provider.loop / 1000 + 5) provider.set s)
    (paced : Paced epoch late provider.set calls)
    (delayed : calls.IsChain fun call later => call.set + 5000 ≤ later.loop) :
    (waitForTime calls s).isSome = true ↔ begins = true ∧ ∃ call ∈ askers provider calls, call.Comes := by
  cases calls with
  | nil => simp [waitForTime, askers]
  | cons first rest =>
    rw [askers]
    split
    · rename_i moved
      refine waiting.ends_iff brief (first :: rest) paced delayed ?_
      intro call head
      injection head with same
      rwa [← same]
    · rename_i early
      -- the first check does not ask, and the one behind it comes five seconds later
      have step := waiting.now brief paced.1
      rw [if_neg early] at step
      have unset : (NtpClient.now first s).status ≠ .timeSet := by
        rw [step.status]
        decide
      rw [waitForTime, if_neg unset]
      refine step.ends_iff brief rest paced.2 delayed.tail ?_
      intro later head
      have after := paced.1.after
      have order := provider.ordered
      have gap := next_check first rest delayed later head
      omega

theorem provider_waiting (brief : late ≤ 2 ^ 24) (provider : Call) (timely : Timely epoch late 0 provider)
    (silent : ¬(provider.exchange.begins = true ∧ provider.Comes)) :
    Waiting provider.exchange.begins late (provider.loop / 1000 + 5) provider.set
      (setSyncInterval 5 (setSyncProvider provider powerOn)) := by
  have counting : Counting late 0 beforeSync :=
    ⟨rfl, le_rfl, Nat.lt_of_lt_of_le (by decide) (Nat.le_add_right _ _)⟩
  have shown := counting.shows brief timely
  have representable := timely.representable
  have order := provider.ordered
  have answer := getUnixTime_refreshed beforeSync.client provider (beforeSync_unset.refreshes provider)
    timely.brisk
  rw [getServerTime_silent provider.exchange beforeSync.client silent] at answer
  rw [setSyncProvider_powerOn,
    now_unanswered provider beforeSync (beforeSync_asks provider) (congrArg Prod.fst answer), answer]
  exact
    { counting_at timely _ shown (counting.prev_add brief timely) with
      status := rfl
      mServerTime := rfl
      zone := rfl
      mUpdateInterval := rfl
      nextSyncTime := by
        change shows _ _ + 5 = _
        rw [shown, UInt32.ofNat_add]
        rfl
      small := by omega
      syncInterval := rfl
      socket := rfl }

theorem provider_answered (provider : Call) (timely : Timely epoch late 0 provider)
    (answer : provider.exchange.begins = true ∧ provider.Comes) :
    (setSyncProvider provider powerOn).status = .timeSet ∧
      ∃ time, Tracks epoch late provider.set (setSyncInterval 21600 (setSyncProvider provider powerOn))
        ⟨provider.set, time, time + 21600, provider.loop, provider.updated⟩ := by
  obtain ⟨nonzero, time, answered⟩ := answered_tracks timely beforeSync.client beforeSync_unset.zone
    beforeSync_unset.mUpdateInterval (beforeSync_unset.refreshes provider) answer
  rw [setSyncProvider_powerOn, now_answered provider beforeSync (beforeSync_asks provider) nonzero]
  exact ⟨rfl, time, answered⟩

/-- `setupNtp` ends exactly with the first answer that it waits for; without a socket at the first attempt it never
ends. -/
theorem setup_ends_iff (epoch late : Nat) (brief : late ≤ 2 ^ 24) (provider : Call) (calls : List Call)
    (paced : Paced epoch late 0 (provider :: calls))
    (prompt : ∀ first ∈ calls.head?, first.loop < provider.set + 5000 ∧ first.set ≤ provider.loop + late)
    (delayed : calls.IsChain fun call later => call.set + 5000 ≤ later.loop) :
    (setupNtp provider calls).isSome = true ↔
      provider.exchange.begins = true ∧ calls ≠ [] ∧
        (provider.Comes ∨ ∃ call ∈ askers provider calls, call.Comes) := by
  rw [setupNtp, Option.isSome_map]
  cases calls with
  | nil => simp [waitForTime]
  | cons first rest =>
    have checked : first :: rest ≠ [] := List.cons_ne_nil first rest
    by_cases answer : provider.exchange.begins = true ∧ provider.Comes
    · obtain ⟨status, time, answered⟩ := provider_answered provider paced.1 answer
      obtain ⟨soon, quick⟩ := prompt first rfl
      have kept := (first_check brief provider first time answered paced.2.1 soon quick).1
      rw [waitForTime, if_pos (kept.trans status)]
      exact iff_of_true rfl ⟨answer.1, checked, .inl answer.2⟩
    · have waiting := provider_waiting brief provider paced.1 answer
      rw [askers_ends_iff brief provider (first :: rest) waiting paced.2 delayed]
      constructor
      · intro both
        exact ⟨both.1, checked, .inr both.2⟩
      · intro all
        exact ⟨all.1, all.2.2.resolve_left fun comes => answer ⟨all.1, comes⟩⟩

theorem setup_ends_in_2019 : (setupNtp (answered 200 30 (1546300800000 + 200)) firstCalls).isSome = true ↔
    (answered 200 30 (1546300800000 + 200)).exchange.begins = true ∧ firstCalls ≠ [] ∧
      ((answered 200 30 (1546300800000 + 200)).Comes ∨
        ∃ call ∈ askers (answered 200 30 (1546300800000 + 200)) firstCalls, call.Comes) :=
  setup_ends_iff 1546300800000 100 (by decide) _ _ firstCalls_paced firstCalls_prompt
    (by simp [firstCalls, answered, unanswered])

end Startup
end EspLog.NtpClock

import EspLog.Minutes

/-! The client of the time server, and the clock that asks it. Every reading of `millis()` has an instant of its
own, counted in milliseconds since power on. -/

namespace EspLog.NtpClient
open TimeLib Minutes

section Client

/-- What one call of `getServerTime` meets: the answer of `begin`, which is asked for in the first call only,
whether the request is sent, the length that `parsePacket` finds at each poll, and the bytes of the packet. -/
structure Exchange where
  begins : Bool
  sent : Bool
  parsePacket : Nat → Nat
  packet : Fin 48 → UInt8

/-- The fields of the client; `long` and `int` have 32 bits. `udpInited` is the static variable of `getServerTime`,
which has no value before its first call. -/
structure EasyNTPClient where
  mOffset : UInt32 := 0
  mUpdateInterval : UInt32 := 60000
  mLastUpdate : UInt32 := 0
  mServerTime : Int32 := 0
  udpInited : Option Bool := none

/-- Whether a packet of 48 bytes comes within the polls that are left. -/
def awaitPacket (parsePacket : Nat → Nat) : Nat → Nat → Bool
  | 0, _ => false
  | left + 1, i => parsePacket i == 48 || awaitPacket parsePacket left (i + 1)

/-- The integer part of the sending time, highest byte first. -/
def sendingTime (packet : Fin 48 → UInt8) : UInt32 :=
  ([41, 42, 43] : List (Fin 48)).foldl (fun time i => time <<< 8 ||| (packet i).toUInt32) (packet 40).toUInt32

def getServerTime (exchange : Exchange) (client : EasyNTPClient) : UInt32 × EasyNTPClient :=
  let udpInited := client.udpInited.getD exchange.begins
  let client := { client with udpInited := some udpInited }
  if udpInited = false ∨ exchange.sent = false ∨ awaitPacket exchange.parsePacket 15 0 = false then (0, client)
  else
    let time := sendingTime exchange.packet
    let time := time + if (exchange.packet 44).toNat > 115 - 150 / 8 then 1 else 0
    (time + client.mOffset - 2208988800, client)

/-- A call of `now()`: the instants of its readings of `millis()`, behind the loop of seconds, before and after the
request of the client, at its end, and in `setTime`, and what the client meets if it asks. -/
structure Call where
  loop : Nat
  asked : Nat
  updated : Nat
  returned : Nat
  set : Nat
  exchange : Exchange
  ordered : loop ≤ asked ∧ asked ≤ updated ∧ updated ≤ returned ∧ returned ≤ set

variable (call : Call)

/-- Whether `getUnixTime` asks the server, or counts on from its last answer. -/
def Refreshes (client : EasyNTPClient) : Prop :=
  client.mServerTime ≤ 0 ∨ client.mLastUpdate = 0 ∨
    UInt32.ofNat call.asked - client.mLastUpdate ≥ client.mUpdateInterval

instance (client : EasyNTPClient) : Decidable (Refreshes call client) := inferInstanceAs (Decidable (_ ∨ _ ∨ _))

def getUnixTime (client : EasyNTPClient) : UInt32 × EasyNTPClient :=
  let client :=
    if Refreshes call client then
      let (time, client) := getServerTime call.exchange client
      { client with mServerTime := time.toInt32, mLastUpdate := UInt32.ofNat call.updated }
    else client
  (client.mServerTime.toUInt32 + (UInt32.ofNat call.returned - client.mLastUpdate) / 1000, client)

end Client

section Clock

inductive TimeStatus where
  | timeNotSet | timeNeedsSync | timeSet
  deriving DecidableEq

/-- The static variables of the clock and the object that it asks. -/
structure System where
  clock : Clock
  status : TimeStatus
  client : EasyNTPClient

variable (call : Call)

/-- The test behind the loop of seconds. -/
def Asks (s : System) : Prop := s.clock.nextSyncTime ≤ shows (UInt32.ofNat call.loop) s.clock

instance (s : System) : Decidable (Asks call s) := inferInstanceAs (Decidable (_ ≤ _))

/-- `now()`, with all its readings. -/
def now (s : System) : System :=
  let current := catchUp (UInt32.ofNat call.loop)
    ((UInt32.ofNat call.loop - s.clock.prevMillis).toNat / 1000) s.clock
  if current.nextSyncTime ≤ current.sysTime then
    let (t, client) := getUnixTime call s.client
    if t ≠ 0 then ⟨setTime t (UInt32.ofNat call.set) current, .timeSet, client⟩
    else ⟨{ current with nextSyncTime := current.sysTime + current.syncInterval },
      if s.status = .timeNotSet then .timeNotSet else .timeNeedsSync, client⟩
  else { s with clock := current }

/-- The client of the sketch, an hour ahead of Greenwich, and the clock as it is compiled. -/
def powerOn : System := ⟨⟨0, 0, 0, 300⟩, .timeNotSet, { mOffset := 3600 }⟩

def setSyncProvider (s : System) : System :=
  now call { s with clock := { s.clock with nextSyncTime := s.clock.sysTime } }

def setSyncInterval (interval : UInt32) (s : System) : System :=
  { s with clock := { s.clock with syncInterval := interval, nextSyncTime := s.clock.sysTime + interval } }

@[simp] theorem setSyncInterval_sysTime (interval : UInt32) (s : System) :
    (setSyncInterval interval s).clock.sysTime = s.clock.sysTime := rfl

@[simp] theorem setSyncInterval_prevMillis (interval : UInt32) (s : System) :
    (setSyncInterval interval s).clock.prevMillis = s.clock.prevMillis := rfl

/-- The loop of `setupNtp`, over the calls of `timeStatus()`; without a result it is still waiting. The calls that
it leaves are those of the sketch. -/
def waitForTime : List Call → System → Option (System × List Call)
  | [], _ => none
  | call :: rest, s =>
    let s := now call s
    if s.status = .timeSet then some (s, rest) else waitForTime rest s

def setupNtp (provider : Call) (calls : List Call) : Option (System × List Call) :=
  (waitForTime calls (setSyncInterval 5 (setSyncProvider provider powerOn))).map fun (s, rest) =>
    (setSyncInterval 21600 s, rest)

theorem now_instant (s : System) (instant : call.set = call.loop) :
    (now call s).clock = TimeLib.now (UInt32.ofNat call.loop) (getUnixTime call s.client).1 s.clock := by
  rw [now, TimeLib.now, instant]
  dsimp only
  split
  · split <;> rfl
  · rfl

end Clock

section Answers

/-- The bytes that a server sends at a Unix time in milliseconds: the seconds since 1900, and the next byte in
256ths. -/
structure SentAt (time : Nat) (packet : Fin 48 → UInt8) : Prop where
  first : packet 40 = UInt8.ofNat ((time / 1000 + 2208988800) / 2 ^ 24)
  second : packet 41 = UInt8.ofNat ((time / 1000 + 2208988800) / 2 ^ 16)
  third : packet 42 = UInt8.ofNat ((time / 1000 + 2208988800) / 2 ^ 8)
  fourth : packet 43 = UInt8.ofNat (time / 1000 + 2208988800)
  fraction : packet 44 = UInt8.ofNat (time % 1000 * 256 / 1000)

/-- The CET second that the client makes of a time: from .383 on it is the next one. -/
def roundedTime (time : Nat) : Nat := time / 1000 + 3600 + if 383 ≤ time % 1000 then 1 else 0

theorem roundedTime_bounds (time : Nat) :
    1000 * roundedTime time ≤ time + 3600000 + 617 ∧ time + 3600000 ≤ 1000 * roundedTime time + 382 := by
  unfold roundedTime
  split <;> omega

theorem shift_or (n : Nat) (b : UInt8) :
    UInt32.ofNat n <<< 8 ||| b.toUInt32 = UInt32.ofNat (n * 256 + b.toNat) := by
  have byte : b.toNat < 2 ^ 8 := b.toNat_lt
  have shifted : (UInt32.ofNat n <<< 8).toNat = (n % 2 ^ 24) <<< 8 := by
    rw [UInt32.toNat_shiftLeft, UInt32.toNat_ofNat', Nat.shiftLeft_eq, Nat.shiftLeft_eq]
    have eight : (8 : UInt32).toNat % 32 = 8 := by decide
    rw [eight]
    omega
  apply UInt32.toNat_inj.mp
  rw [UInt32.toNat_or, shifted, UInt8.toNat_toUInt32, ← Nat.shiftLeft_add_eq_or_of_lt byte, UInt32.toNat_ofNat',
    Nat.shiftLeft_eq]
  omega

theorem sendingTime_sent (time : Nat) (packet : Fin 48 → UInt8) (sent : SentAt time packet) :
    sendingTime packet = UInt32.ofNat (time / 1000 + 2208988800) := by
  have first : (packet 40).toUInt32 = UInt32.ofNat ((time / 1000 + 2208988800) / 2 ^ 24 % 256) := by
    apply UInt32.toNat_inj.mp
    rw [sent.first, UInt8.toNat_toUInt32, UInt8.toNat_ofNat', UInt32.toNat_ofNat']
    omega
  simp only [sendingTime, List.foldl_cons, List.foldl_nil, first, shift_or, sent.second, sent.third, sent.fourth,
    UInt8.toNat_ofNat']
  apply UInt32.toNat_inj.mp
  rw [UInt32.toNat_ofNat', UInt32.toNat_ofNat']
  omega

variable (exchange : Exchange) (client : EasyNTPClient)

/-- Whether a packet arrives. -/
def Exchange.Arrives : Prop :=
  client.udpInited.getD exchange.begins = true ∧ exchange.sent = true ∧
    awaitPacket exchange.parsePacket 15 0 = true

theorem getServerTime_client : (getServerTime exchange client).2 =
    { client with udpInited := some (client.udpInited.getD exchange.begins) } := by
  unfold getServerTime
  dsimp only
  split <;> rfl

theorem getServerTime_silent (silent : ¬exchange.Arrives client) : (getServerTime exchange client).1 = 0 := by
  have fails : client.udpInited.getD exchange.begins = false ∨ exchange.sent = false ∨
      awaitPacket exchange.parsePacket 15 0 = false := by
    simpa only [Exchange.Arrives, not_and_or, Bool.not_eq_true] using silent
  rw [getServerTime, if_pos fails]

theorem getServerTime_sent (time : Nat) (arrives : exchange.Arrives client) (sent : SentAt time exchange.packet)
    (zone : client.mOffset = 3600) : (getServerTime exchange client).1 = UInt32.ofNat (roundedTime time) := by
  have succeeds : ¬(client.udpInited.getD exchange.begins = false ∨ exchange.sent = false ∨
      awaitPacket exchange.parsePacket 15 0 = false) := by
    rw [arrives.1, arrives.2.1, arrives.2.2]
    decide
  have part : (exchange.packet 44).toNat = time % 1000 * 256 / 1000 := by
    rw [sent.fraction, UInt8.toNat_ofNat']
    omega
  have late : (exchange.packet 44).toNat > 115 - 150 / 8 ↔ 383 ≤ time % 1000 := by
    rw [part]
    omega
  rw [getServerTime, if_neg succeeds]
  dsimp only
  rw [sendingTime_sent time exchange.packet sent, zone, if_congr late rfl rfl, roundedTime]
  apply UInt32.toNat_inj.mp
  split
  · rw [UInt32.toNat_sub, UInt32.toNat_add, UInt32.toNat_add, UInt32.toNat_ofNat', UInt32.toNat_ofNat']
    simp only [UInt32.reduceToNat]
    omega
  · rw [UInt32.toNat_sub, UInt32.toNat_add, UInt32.toNat_add, UInt32.toNat_ofNat', UInt32.toNat_ofNat']
    simp only [UInt32.reduceToNat]
    omega

theorem getUnixTime_refreshed (call : Call) (refreshes : Refreshes call client)
    (brisk : call.returned < call.updated + 1000) :
    getUnixTime call client = ((getServerTime call.exchange client).1,
      { client with
        udpInited := some (client.udpInited.getD call.exchange.begins)
        mServerTime := (getServerTime call.exchange client).1.toInt32
        mLastUpdate := UInt32.ofNat call.updated }) := by
  have order := call.ordered
  have elapsed := ofNat_sub_ofNat call.returned call.updated order.2.2.1 (by omega)
  have none : (UInt32.ofNat call.returned - UInt32.ofNat call.updated) / 1000 = 0 := by
    apply UInt32.toNat_inj.mp
    rw [UInt32.toNat_div, elapsed]
    simp only [UInt32.reduceToNat]
    omega
  rw [getUnixTime, if_pos refreshes]
  dsimp only
  rw [none, UInt32.toUInt32_toInt32, getServerTime_client, UInt32.add_zero]

/-- Whether a packet answers the call, once there is a socket. -/
def Call.Comes (call : Call) : Prop :=
  call.exchange.sent = true ∧ awaitPacket call.exchange.parsePacket 15 0 = true

instance (call : Call) : Decidable call.Comes := inferInstanceAs (Decidable (_ ∧ _))

end Answers

end EspLog.NtpClient

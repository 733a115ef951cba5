import EspLog.Setup
import EspLog.WebServer

/-! The main loop, and the events of the device: a pulse, a minute of the clock, a
request, and a restart. -/

namespace EspLog.Loop
open CText Eeprom ExactFloat Sketch Functions TimeLib

section Tick
variable (c : UInt32) (io : Readings)

def newMonth (s : Globals) : Globals :=
  let s := { s with tagesCounter := fun j i =>
    if j = s.today.month ∧ i ≤ anzahlTage then 0 else s.tagesCounter j i }
  s.setValue 1 0

def newYear (tmp : UInt32) (s : Globals) : Globals :=
  (deleteEEPROM (backup2file tmp s)).setValue 2 0

/-- The last five minutes belong to yesterday. -/
def bookYesterday (s : Globals) : Globals :=
  putEeprom io.tmp s.yesterday.month s.yesterday.day (FuenfMinutenTimer s.yesterday.month s.yesterday.day c io s)

def resetDay (s : Globals) : Globals :=
  let s := { s with fuenfMinutenZaehler := fun i => if i < 288 then 0 else s.fuenfMinutenZaehler i }
  (s.setValue 0 0).setValue 5 0

/-- The test for a new year is on the month alone, so every midnight of January counts. -/
def newDay (s : Globals) : Globals :=
  let s := resetDay (bookYesterday c io s)
  let s := if s.today.day = 0 then newMonth s else s
  if s.today.month = 0 then newYear io.tmp s else s

def sameDay (s : Globals) : Globals :=
  let s := FuenfMinutenTimer s.today.month s.today.day c io s
  if hour s.t = 23 ∧ minute s.t = 55 then { s with yesterday := s.today } else s

def fiveMinutes (s : Globals) : Globals :=
  let s := { s with today := { year := year s.t, month := month s.t - 1, day := day s.t - 1 } }
  let s := if hour s.t = 0 ∧ minute s.t = 0 then newDay c io s else sameDay c io s
  let s := s.setPrint 7 (dtostrf (io.vcc.toFloat / 1000) 2 2)
  s.setPrint 8 (dtostrf (Float.ofInt io.rssi.toInt) 2 0)

/-- What runs once a minute, at the CET clock `c`. -/
def everyMinute (s : Globals) : Globals :=
  let s := s.setValue 9 ((s.ausgabe 9).value + 1)
  let s := s.setPrint 9 (dtostrf (toDouble (s.ausgabe 9).value) 2 0)
  let s := localTime c s
  if minute c % 5 = 0 then fiveMinutes c io s else s

end Tick

section Gate

/-- The globals with the two clocks of the loop. -/
structure Device where
  sketch : Globals
  clock : Clock
  waitTime : UInt32

/-- What one pass of `loop` reads. -/
structure Pass where
  millis : UInt32
  unixTime : UInt32
  io : Readings

/-- The gate, and the clock read behind it. -/
def gateOpens (pass : Pass) (d : Device) : Prop := pass.millis - d.waitTime > 1000

instance (pass : Pass) (d : Device) : Decidable (gateOpens pass d) := inferInstanceAs (Decidable (_ < _))

def loop (pass : Pass) (d : Device) : Device :=
  if gateOpens pass d then
    let clock := now pass.millis pass.unixTime d.clock
    let d := { d with waitTime := pass.millis, clock := clock }
    if second clock.sysTime = 0 then { d with sketch := everyMinute clock.sysTime pass.io d.sketch } else d
  else d

end Gate

section System

inductive Event where
  | pulse
  | minute (c : UInt32) (io : Readings)
  | request (isFile : Str → Bool) (tmp : UInt32) (request : WebServer.Request) (boot : Setup.Boot)
  | restart (boot : Setup.Boot)

/-- A request may end in a restart, which then takes `boot`. -/
def step (s : Globals) : Event → Globals
  | .pulse => interruptRoutineFalling s
  | .minute c io => everyMinute c io s
  | .request isFile tmp request boot =>
    let outcome := WebServer.handleRequest isFile tmp request s
    if outcome.restart = true then Setup.setup boot outcome.sketch.restart else outcome.sketch
  | .restart boot => Setup.setup boot s.restart

theorem step_request (isFile : Str → Bool) (tmp : UInt32) (request : WebServer.Request) (boot : Setup.Boot)
    (s : Globals) :
    step s (.request isFile tmp request boot) =
      if (WebServer.handleRequest isFile tmp request s).restart = true then
        Setup.setup boot (WebServer.handleRequest isFile tmp request s).sketch.restart
      else (WebServer.handleRequest isFile tmp request s).sketch := rfl

end System
end EspLog.Loop

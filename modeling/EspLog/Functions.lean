import EspLog.Sketch
import EspLog.Support.Runs

/-! The functions of `functions.ino`. The five-minute function is a list of its
statements, so that the pulse interrupt can be placed between any two of them. -/

namespace EspLog.Functions
open CText Eeprom ExactFloat Sketch Spiffs TimeLib

section Storage

/-- Byte address of a day's counter: `j` is the month, `i` the day. -/
def eeAddress (j i : Nat) : Nat := ((i + 1) + j * 31 - 1) * 4

/-- `tmp` is uninitialised and keeps that value when the read is dropped. -/
def putEeprom (tmp : UInt32) (nowMonth nowDay : Nat) (s : Globals) : Globals :=
  if s.eeprom.get (eeAddress nowMonth nowDay) tmp ≠ s.tagesCounter nowMonth nowDay then
    { s with eeprom := (s.eeprom.put (eeAddress nowMonth nowDay) (s.tagesCounter nowMonth nowDay)).commit }
  else s

def putEepromValue (address : Nat) (value : Float32) (s : Globals) : Globals :=
  { s with eeprom := (s.eeprom.put address value.toBits).commit }

/-- `sizeof(tagesCounter)`. -/
def tableSize : Nat := 1488

/-- Every byte address below the table's size gets a four-byte zero, so the last ones reach past the table. -/
def deleteEEPROM (s : Globals) : Globals :=
  { s with eeprom := ((List.range tableSize).foldl (fun e j => e.put j 0) s.eeprom).commit.close }

def deleteRAM (s : Globals) : Globals :=
  let s := { s with tagesCounter := fun _ _ => 0 }
  let s := (s.setValue 0 0).setPrint 0 (dtostrf 0 2 2)
  let s := (s.setValue 1 0).setPrint 1 (dtostrf 0 2 2)
  let s := (s.setValue 2 0).setPrint 2 (dtostrf 0 2 2)
  { s with counter := 0 }

end Storage

section Clock

def twoDigits (n : Nat) : Str := text (if n < 10 then "0" else "") ++ decimal n

def timeText (tm : TmElements) : Str :=
  twoDigits tm.hour ++ text ":" ++ twoDigits tm.minute ++ text ":" ++ twoDigits tm.second

def dateText (tm : TmElements) : Str :=
  twoDigits tm.day ++ text "." ++ twoDigits tm.month ++ text "." ++ decimal (1970 + tm.year)

def printTime (t : UInt32) : Str := timeText (breakTime t)

def printDate (t : UInt32) : Str := dateText (breakTime t)

def summertime_EU (year month day hour tzHours : Nat) : Bool :=
  if month < 3 ∨ month > 10 then false
  else if month > 3 ∧ month < 10 then true
  else decide (month = 3 ∧ hour + 24 * day ≥ 1 + tzHours + 24 * (31 - (5 * year / 4 + 4) % 7) ∨
    month = 10 ∧ hour + 24 * day < 1 + tzHours + 24 * (31 - (5 * year / 4 + 1) % 7))

/-- `t` and `sommerzeit` follow the CET clock `c`. -/
def localTime (c : UInt32) (s : Globals) : Globals :=
  if summertime_EU (year c) (month c) (day c) (hour c) 1 then { s with sommerzeit := true, t := c + 3600 }
  else { s with sommerzeit := false, t := c }

end Clock

section Files

def logPath : Str := text "/log.txt"
def backupPath : Str := text "/backup.csv"
def lineEnd : Str := [13, 10]

def logLine (tm : TmElements) (logtext : Str) : Str :=
  dateText tm ++ text " " ++ timeText tm ++ text " " ++ logtext ++ lineEnd

def write2logfile (logtext : Str) (s : Globals) : Globals :=
  { s with spiffs := Spiffs.append logPath (logLine (breakTime s.t) logtext) s.spiffs }

/-- One day of the archive: `tmp` is read into, printed, and followed by a comma but for the last. -/
def backupDay (e : EEPROMClass) (j : Nat) (written : UInt32 × Str) (i : Nat) : UInt32 × Str :=
  let tmp := e.get (eeAddress j i) written.1
  (tmp, written.2 ++ decimal tmp.toNat ++ (if i < anzahlTage then text "," else []))

def backupMonth (e : EEPROMClass) (written : UInt32 × Str) (j : Nat) : UInt32 × Str :=
  let started := (written.1, written.2 ++ decimal (j + 1) ++ text ",")
  let days := (List.range (anzahlTage + 1)).foldl (backupDay e j) started
  (days.1, days.2 ++ lineEnd)

def backupText (tmp : UInt32) (e : EEPROMClass) : Str :=
  ((List.range (anzahlMonate + 1)).foldl (backupMonth e) (tmp, [])).2

def backup2file (tmp : UInt32) (s : Globals) : Globals :=
  { s with spiffs := rewrite backupPath (backupText tmp s.eeprom) s.spiffs }

def fhemIp (s : Globals) : Str :=
  decimal (s.fhemHost 0).toNat ++ text "." ++ decimal (s.fhemHost 1).toNat ++ text "." ++
    decimal (s.fhemHost 2).toNat ++ text "." ++ decimal (s.fhemHost 3).toNat

end Files

section FiveMinutes

/-- The statements of `FuenfMinutenTimer`, in source order. -/
inductive Statement where
  | energie
  | tabelle
  | ertrag (i : Nat)
  | ertragText (i : Nat)
  | spezifisch
  | spezifischText
  | zaehlerstand
  | zaehlerstandText
  | leistung
  | leistungText
  | slot
  | maximum
  | reset
  | sichern
  deriving DecidableEq

/-- The statements under `if (impulseProKwh > 0)`. -/
def energyStatements : List Statement :=
  [.energie, .tabelle, .ertrag 0, .ertragText 0, .ertrag 1, .ertragText 1, .ertrag 2, .ertragText 2,
    .spezifisch, .spezifischText, .zaehlerstand, .zaehlerstandText]

def powerStatements : List Statement := [.leistung, .leistungText, .slot, .maximum, .reset, .sichern]

def statements (impulseProKwh : UInt32) : List Statement :=
  (if impulseProKwh > 0 then energyStatements else []) ++ powerStatements

/-- The local `tmp` beside the globals; every use comes after `energie` has set it. -/
structure Frame where
  tmp : Float32 := 0
  sketch : Globals

/-- Energy of a pulse count in Wh: an unsigned division, converted only then. -/
def energyOf (counter impulseProKwh : UInt32) : Float32 := (counter * 1000 / impulseProKwh).toFloat32

/-- Mean power of a pulse count in W. -/
def powerOf (counter : UInt32) : Float32 := toSingle (counter.toFloat * 3600 / 300)

section Call
variable (nowMonth nowDay : Nat) (c : UInt32) (io : Readings)

/-- One statement of a call that books on `nowMonth`, `nowDay`, at the CET clock `c`. -/
def exec (frame : Frame) (statement : Statement) : Frame :=
  let s := frame.sketch
  match statement with
  | .energie => ⟨energyOf s.counter s.impulseProKwh, s⟩
  | .tabelle => ⟨frame.tmp, { s with
      tagesCounter := fun j i => if j = nowMonth ∧ i = nowDay then
        ((s.tagesCounter j i).toFloat32 + frame.tmp).toUInt32 else s.tagesCounter j i }⟩
  | .ertrag i => ⟨frame.tmp, s.setValue i ((s.ausgabe i).value + frame.tmp)⟩
  | .ertragText i => ⟨frame.tmp, s.setPrint i (dtostrf (toDouble ((s.ausgabe i).value / 1000)) 2 2)⟩
  | .spezifisch => ⟨frame.tmp, s.setValue 3
      (toSingle (toDouble ((s.ausgabe 2).value / s.generatorLeistung.toFloat32) / 1))⟩
  | .spezifischText => ⟨frame.tmp, s.setPrint 3 (dtostrf (toDouble (s.ausgabe 3).value) 2 2)⟩
  | .zaehlerstand => ⟨frame.tmp, s.setValue 10 ((s.ausgabe 10).value + frame.tmp)⟩
  | .zaehlerstandText => ⟨frame.tmp, s.setPrint 10 (dtostrf (toDouble ((s.ausgabe 10).value / 1000)) 2 2)⟩
  | .leistung => ⟨frame.tmp, s.setValue 6 (powerOf s.counter)⟩
  | .leistungText => ⟨frame.tmp, s.setPrint 6 (dtostrf (toDouble (s.ausgabe 6).value) 2 0)⟩
  | .slot => ⟨frame.tmp, { s with
      fuenfMinutenZaehler := Function.update s.fuenfMinutenZaehler (hour c * 12 + minute c / 5)
        (s.ausgabe 6).value.toUInt32 }⟩
  | .maximum =>
    if (s.ausgabe 6).value > (s.ausgabe 5).value then
      ⟨frame.tmp, (s.setValue 5 (s.ausgabe 6).value).setPrint 5 (dtostrf (toDouble (s.ausgabe 6).value) 2 0)⟩
    else frame
  | .reset => ⟨frame.tmp, { s with counter := 0 }⟩
  | .sichern => ⟨frame.tmp, putEeprom io.tmp s.today.month s.today.day s⟩

/-- The call without an interrupt during it. -/
def FuenfMinutenTimer (s : Globals) : Globals :=
  (Runs.run (exec nowMonth nowDay c io) { sketch := s } (statements s.impulseProKwh)).sketch

end Call

/-- The time under which `graph` shows a slot. -/
def zeit (i : Nat) : Str := twoDigits (i / 12) ++ text ":" ++ twoDigits (i % 12 * 5)

/-- The rows of `graph`, between the script's constant parts: a slot that is zero has none. -/
def graphRows (fuenfMinutenZaehler : Nat → UInt32) : Str :=
  (List.range 288).flatMap fun i =>
    if fuenfMinutenZaehler i > 0 then
      text "['" ++ zeit i ++ text "', " ++ decimal (fuenfMinutenZaehler i).toNat ++ text "]" ++
        (if i < 287 then text "," else [])
    else []

def graph (s : Globals) : Str := graphRows s.fuenfMinutenZaehler

def interruptRoutineFalling (s : Globals) : Globals := { s with counter := s.counter + 1 }

end FiveMinutes
end EspLog.Functions

import EspLog.Functions

/-! Starting up: the clock, the output table, and the values restored from the EEPROM. -/

namespace EspLog.Setup
open CText Eeprom ExactFloat Sketch Functions TimeLib

/-- The time fields cached at power on, which is what a log line at `t = 0` prints. -/
def coldCache : TmElements :=
  { second := 0, minute := 0, hour := 0, wday := 0, day := 0, month := 0, year := 0 }

/-- `c` is the CET clock that the first answer of the time server sets. -/
def setupNtp (c : UInt32) (s : Globals) : Globals :=
  let s := { s with spiffs := Spiffs.append logPath (logLine coldCache (text "Time synchronization ...")) s.spiffs }
  let s := localTime c s
  let s := { s with today := { year := year s.t, month := month s.t - 1, day := day s.t - 1 } }
  let zone := text (if s.sommerzeit then "MESZ" else "MEZ")
  let s := write2logfile (text "Current Time (" ++ zone ++ text "): " ++ printTime s.t) s
  write2logfile (text "Current Date: " ++ printDate s.t) s

/-- The `realName` of each output. -/
def realNames : List String :=
  ["Tagesertrag", "Monatsertrag", "Jahresertrag", "Spezifisch", "Vergütung/Jahr", "Maximal", "Einspeiseleistung",
    "Voltage", "RSSI", "Uptime", "Zaehlerstand"]

def setupStructAusgabe (io : Readings) (s : Globals) : Globals :=
  let s := realNames.zipIdx.foldl (fun s output => s.setName output.2 (text output.1)) s
  let s := [3, 4, 5, 6, 9, 10].foldl (fun s i => s.setPrint i (dtostrf 0 2 0)) s
  let s := s.setPrint 7 (dtostrf (io.vcc.toFloat / 1000) 2 2)
  s.setPrint 8 (dtostrf (Float.ofInt io.rssi.toInt) 2 0)

section Restore

/-- One day of the table, at the clock value that `month()` and `day()` read then. -/
def restoreDay (now : Nat → Nat → UInt32) (j : Nat) (s : Globals) (i : Nat) : Globals :=
  let word := s.eeprom.get (eeAddress j i) (s.tagesCounter j i)
  let s := { s with tagesCounter := fun m d => if m = j ∧ d = i then word else s.tagesCounter m d }
  let s := if j = month (now j i) - 1 ∧ i = day (now j i) - 1 then s.setValue 0 word.toFloat32 else s
  let s := if j = s.today.month then s.setValue 1 ((s.ausgabe 1).value + word.toFloat32) else s
  s.setValue 2 ((s.ausgabe 2).value + word.toFloat32)

def restoreMonth (now : Nat → Nat → UInt32) (s : Globals) (j : Nat) : Globals :=
  (List.range (anzahlTage + 1)).foldl (restoreDay now j) s

def restoreTable (now : Nat → Nat → UInt32) (s : Globals) : Globals :=
  (List.range (anzahlMonate + 1)).foldl (restoreMonth now) s

/-- The stored float, or what `floatTmp` held when the read is dropped. -/
def storedFloat (e : EEPROMClass) (address : Nat) (floatTmp : Float32) : Float32 :=
  Float32.ofBits (e.get address floatTmp.toBits)

def restoreLog (name : String) (address : Nat) (value : Str) (s : Globals) : Globals :=
  write2logfile (text "Restore " ++ text name ++ text ": " ++ decimal address ++ text " Value: " ++ value) s

def restoreZaehlerkonstante (floatTmp : Float32) (s : Globals) : Globals :=
  let s := { s with impulseProKwh := if floatTmp > 0 then floatTmp.toUInt32 else 1000 }
  restoreLog "Zaehlerkonstante" adresseEepromZK (decimal s.impulseProKwh.toNat) s

def restoreVerguetung (floatTmp : Float32) (s : Globals) : Globals :=
  let s := { s with compensation := if floatTmp > 0 then floatTmp else 0 }
  restoreLog "Verguetung" adresseEepromCO (ofSingle s.compensation) s

def restoreGeneratorleistung (floatTmp : Float32) (s : Globals) : Globals :=
  let s := { s with generatorLeistung := if floatTmp > 0 then floatTmp.toUInt32 else 0 }
  restoreLog "Generatorleistung" adresseEepromGL (decimal s.generatorLeistung.toNat) s

def restoreZaehleroffset (floatTmp : Float32) (s : Globals) : Globals :=
  let s := { s with offset := if floatTmp > 0 then floatTmp else 0 }
  let s := (s.setValue 10 (s.offset * 1000)).setPrint 10 (dtostrf (toDouble s.offset) 2 2)
  restoreLog "Zaehleroffset" adresseEepromOF (ofSingle s.offset) s

def restoreSimulation (floatTmp : Float32) (s : Globals) : Globals :=
  let s := { s with interval := if floatTmp > 0 then floatTmp.toUInt32 else 0 }
  restoreLog "Simulation" adresseEepromSM (decimal s.interval.toNat) s

def restoreFhemPort (floatTmp : Float32) (s : Globals) : Globals :=
  let s := { s with fhemPort := if floatTmp > 0 ∧ floatTmp < 65535 then truncate floatTmp else 8383 }
  restoreLog "FHEM Port" adresseEepromFhemPort (decimalInt s.fhemPort.toInt) s

def restoreHostByte (s : Globals) (i : Nat) : Globals :=
  { s with fhemHost := Function.update s.fhemHost i (s.eeprom.read (adresseEepromFhemHost + i * 2)) }

def restoreFhemHost (s : Globals) : Globals :=
  let s := (List.range 4).foldl restoreHostByte s
  write2logfile (text "Restore FHEM Host: " ++ fhemIp s) s

/-- The texts made from the restored yields; `floatTmp` still holds the stored port. -/
def restoreTexts (floatTmp : Float32) (s : Globals) : Globals :=
  let floatTmp := if s.generatorLeistung > 0 then
    toSingle (toDouble ((s.ausgabe 2).value / s.generatorLeistung.toFloat32) / 1000) else floatTmp
  let s := s.setPrint 3 (dtostrf (toDouble floatTmp) 2 1)
  let s := s.setPrint 0 (dtostrf (toDouble (s.ausgabe 0).value / 1000) 2 2)
  let s := write2logfile (text "Tagesertrag (printValue) wiederhergestellt: " ++ (s.ausgabe 0).printValue) s
  let s := if (s.ausgabe 1).value > 0 then s.setPrint 1 (dtostrf (toDouble (s.ausgabe 1).value / 1000) 2 2)
    else s.setPrint 1 (dtostrf 0 2 0)
  if (s.ausgabe 2).value > 0 then
    let s := s.setPrint 2 (dtostrf (toDouble (s.ausgabe 2).value / 1000) 2 2)
    let s := s.setValue 3 (toSingle (toDouble (s.ausgabe 2).value / (s.generatorLeistung.toFloat / 1)))
    s.setPrint 3 (dtostrf (toDouble (s.ausgabe 3).value) 2 2)
  else s.setPrint 2 (dtostrf 0 2 0)

/-- The settings, in the order in which they are read into the one variable `floatTmp`. -/
def restoreSettings (floatTmp : Float32) (s : Globals) : Globals × Float32 :=
  let floatTmp := storedFloat s.eeprom adresseEepromZK floatTmp
  let s := restoreZaehlerkonstante floatTmp s
  let floatTmp := storedFloat s.eeprom adresseEepromCO floatTmp
  let s := restoreVerguetung floatTmp s
  let floatTmp := storedFloat s.eeprom adresseEepromGL floatTmp
  let s := restoreGeneratorleistung floatTmp s
  let floatTmp := storedFloat s.eeprom adresseEepromOF floatTmp
  let s := restoreZaehleroffset floatTmp s
  let floatTmp := storedFloat s.eeprom adresseEepromSM floatTmp
  let s := restoreSimulation floatTmp s
  let floatTmp := storedFloat s.eeprom adresseEepromFhemPort floatTmp
  let s := restoreFhemPort floatTmp s
  (restoreFhemHost s, floatTmp)

def setupEeprom (now : Nat → Nat → UInt32) (io : Readings) (s : Globals) : Globals :=
  let s := { s with eeprom := s.eeprom.begin opened }
  let s := write2logfile (text "Restore Data from EEPROM ...") s
  let s := restoreTable now s
  let restored := restoreSettings (Float32.ofBits io.tmp) s
  restoreTexts restored.2 restored.1

end Restore

/-- What a start reads: the clock set by the time server, the clock while each day of the
table is restored, and the hardware. -/
structure Boot where
  clock : UInt32
  now : Nat → Nat → UInt32
  io : Readings

def setup (boot : Boot) (s : Globals) : Globals :=
  let s := setupNtp boot.clock s
  let s := setupStructAusgabe boot.io s
  let s := setupEeprom boot.now boot.io s
  write2logfile (text "ESPLog gestartet") s

end EspLog.Setup

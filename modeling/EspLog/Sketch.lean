import EspLog.Eeprom
import EspLog.Spiffs
import EspLog.TimeLib

/-! The global variables of the sketch, with the EEPROM object and the file system. -/

namespace EspLog.Sketch
open CText Eeprom Spiffs

/-- `realName` lies behind the fifteen bytes of `printValue`. -/
structure ValueStore where
  value : Float32 := 0
  printValue : Str := text "0"
  realName : Str := []

namespace ValueStore

/-- What is read at `realName` once a text is in `printValue`: a text without room for its terminator runs on into
the name. -/
def overrun (printValue realName : Str) : Str :=
  if printValue.length < 15 then realName else printValue.drop 15

def print (store : ValueStore) (printValue : Str) : ValueStore :=
  { store with printValue := printValue, realName := overrun printValue store.realName }

end ValueStore

/-- Day and month count from zero. -/
structure Date where
  day : Nat := 0
  month : Nat := 0
  year : Nat := 0
  deriving DecidableEq

/-- `fhemHost` past index three stands for the memory behind the array. -/
structure Globals where
  eeprom : EEPROMClass
  spiffs : Files
  fhemHost : Nat → UInt8 := fun _ => 0
  fhemPort : Int32 := 8383
  interval : UInt32 := 2000
  t : UInt32 := 0
  counter : UInt32 := 0
  fuenfMinutenZaehler : Nat → UInt32 := fun _ => 0
  tagesCounter : Nat → Nat → UInt32 := fun _ _ => 0
  impulseProKwh : UInt32 := 1000
  compensation : Float32 := 0
  generatorLeistung : UInt32 := 1
  offset : Float32 := 0
  sommerzeit : Bool := false
  ausgabe : Nat → ValueStore := fun _ => {}
  yesterday : Date := {}
  today : Date := {}
  fsUploadFile : Option Str := none

/-- What one pass reads from the hardware, and what an uninitialised `tmp` happens to hold. -/
structure Readings where
  vcc : UInt32
  rssi : Int32
  tmp : UInt32

def anzahlTage : Nat := 30
def anzahlMonate : Nat := 11

def adresseEepromZK : Nat := 1488
def adresseEepromSM : Nat := 1492
def adresseEepromCO : Nat := 1496
def adresseEepromGL : Nat := 1500
def adresseEepromFhemHost : Nat := 1504
def adresseEepromFhemPort : Nat := 1512
def adresseEepromOF : Nat := 1514

/-- Power on: the EEPROM object is closed and every variable has its initial value. -/
def powerOn (flash : ByteMemory.Memory) (spiOk : Bool) (spiffs : Files) : Globals :=
  { eeprom := { size := 0, data := fun _ => 0, dirty := false, flash := flash, spiOk := spiOk }
    spiffs := spiffs }

namespace Globals
variable (s : Globals)

def setValue (i : Nat) (value : Float32) : Globals :=
  { s with ausgabe := Function.update s.ausgabe i { s.ausgabe i with value := value } }

def setName (i : Nat) (realName : Str) : Globals :=
  { s with ausgabe := Function.update s.ausgabe i { s.ausgabe i with realName := realName } }

def setPrint (i : Nat) (printValue : Str) : Globals :=
  { s with ausgabe := Function.update s.ausgabe i ((s.ausgabe i).print printValue) }

def restart : Globals := powerOn s.eeprom.flash s.eeprom.spiOk s.spiffs

end Globals

section Values
variable (s : Globals) (i : Nat) (v : Float32) (p : Str)

@[simp] theorem setValue_self : ((s.setValue i v).ausgabe i).value = v := by simp [Globals.setValue]

theorem setValue_of_ne (j : Nat) (ne : j ≠ i) : (s.setValue i v).ausgabe j = s.ausgabe j := by
  simp [Globals.setValue, ne]

theorem setPrint_store : (s.setPrint i p).ausgabe i = (s.ausgabe i).print p := by simp [Globals.setPrint]

@[simp] theorem setPrint_self : ((s.setPrint i p).ausgabe i).printValue = p := by
  rw [setPrint_store, ValueStore.print]

theorem setPrint_of_ne (j : Nat) (ne : j ≠ i) : (s.setPrint i p).ausgabe j = s.ausgabe j := by
  simp [Globals.setPrint, ne]

@[simp] theorem setName_self : ((s.setName i p).ausgabe i).realName = p := by simp [Globals.setName]

theorem setName_of_ne (j : Nat) (ne : j ≠ i) : (s.setName i p).ausgabe j = s.ausgabe j := by
  simp [Globals.setName, ne]

@[simp] theorem setName_value (j : Nat) : ((s.setName i p).ausgabe j).value = (s.ausgabe j).value := by
  by_cases same : j = i
  · subst same
    simp [Globals.setName]
  · simp [Globals.setName, same]

@[simp] theorem setName_print (j : Nat) : ((s.setName i p).ausgabe j).printValue = (s.ausgabe j).printValue := by
  by_cases same : j = i
  · subst same
    simp [Globals.setName]
  · simp [Globals.setName, same]

@[simp] theorem setValue_name (j : Nat) : ((s.setValue i v).ausgabe j).realName = (s.ausgabe j).realName := by
  by_cases same : j = i
  · subst same
    simp [Globals.setValue]
  · simp [Globals.setValue, same]

@[simp] theorem setValue_print (j : Nat) : ((s.setValue i v).ausgabe j).printValue = (s.ausgabe j).printValue := by
  by_cases same : j = i
  · subst same
    simp [Globals.setValue]
  · simp [Globals.setValue, same]

@[simp] theorem setPrint_value (j : Nat) : ((s.setPrint i p).ausgabe j).value = (s.ausgabe j).value := by
  by_cases same : j = i
  · subst same
    rw [setPrint_store, ValueStore.print]
  · rw [setPrint_of_ne _ _ _ _ same]

end Values
end EspLog.Sketch

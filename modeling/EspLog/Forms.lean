import EspLog.Address
import EspLog.Buffer

/-! What a request to the setup page makes of one setting. The loop looks each text up again by its name, so that
a setting is set once, to what the first argument of its name says, however often it is named. -/

namespace EspLog.Forms
open CText Eeprom Sketch Functions Websites WebServer Effects Settings Storage Address TextLength
open Buffer (served)

section Values

/-- The variable of a setting; the address is an array of four. -/
abbrev Value : Setting → Type
  | .generator | .couterconst => UInt32
  | .compensation | .offset => Float32
  | .port => Int32
  | .ip => Fin 4 → UInt8

def valueOf (s : Globals) : (setting : Setting) → Value setting
  | .generator => s.generatorLeistung
  | .couterconst => s.impulseProKwh
  | .compensation => s.compensation
  | .offset => s.offset
  | .port => s.fhemPort
  | .ip => fun i => s.fhemHost i

/-- What `fhemIp` prints for an address. -/
def dotted (host : Fin 4 → UInt8) : Str :=
  decimal (host 0).toNat ++ text "." ++ decimal (host 1).toNat ++ text "." ++
    decimal (host 2).toNat ++ text "." ++ decimal (host 3).toNat

theorem fhemIp_eq (s : Globals) : fhemIp s = dotted (valueOf s .ip) := rfl

def octets (value : Str) (host : Fin 4 → UInt8) : Fin 4 → UInt8 :=
  fun i => next (strtok 46 (toCharArray value 20)) i (host i)

/-- An equal number is not stored again. -/
def number (x old : Float32) : Float32 := if (x == old) = true then old else x

/-- The address is compared with one text and taken from another. -/
def address (leading value : Str) (old : Fin 4 → UInt8) : Fin 4 → UInt8 :=
  if value = dotted old then old else octets leading old

/-- What the page makes of a setting; `leading` is the value of the request's first argument. -/
def assigned (leading value : Str) : (setting : Setting) → Value setting → Value setting
  | .generator | .couterconst => fun _ => (toInt value).toUInt32
  | .compensation | .offset => number (toFloat value)
  | .port => fun _ => toInt value
  | .ip => address leading value

theorem number_twice (x old : Float32) : number x (number x old) = number x old := by
  unfold number
  by_cases same : (x == old) = true
  · rw [if_pos same, if_pos same]
  · rw [if_neg same, ite_self]

theorem octets_twice (value : Str) (host : Fin 4 → UInt8) :
    octets value (octets value host) = octets value host := by
  funext i
  unfold octets next
  cases (strtok 46 (toCharArray value 20))[(i : Nat)]? <;> rfl

theorem address_twice (leading value : Str) (old : Fin 4 → UInt8) :
    address leading value (address leading value old) = address leading value old := by
  unfold address
  by_cases same : value = dotted old
  · rw [if_pos same, if_pos same]
  · rw [if_neg same, octets_twice, ite_self]

/-- Setting a setting twice is setting it once. -/
theorem assigned_twice (leading value : Str) (setting : Setting) (old : Value setting) :
    assigned leading value setting (assigned leading value setting old) = assigned leading value setting old := by
  cases setting with
  | generator => rfl
  | couterconst => rfl
  | compensation => exact number_twice _ old
  | offset => exact number_twice _ old
  | port => rfl
  | ip => exact address_twice leading value old

section Sets
variable (leading value : Str) (s : Globals)

theorem setIp_host : valueOf (setIp leading value s) .ip = address leading value (valueOf s .ip) := by
  unfold setIp address
  rw [fhemIp_eq]
  by_cases same : value = dotted (valueOf s .ip)
  · rw [if_neg (not_not.mpr same), if_pos same]
  · rw [if_pos same, if_neg same]
    funext i
    exact (setHostBytes_ram (strtok 46 (toCharArray leading 20)) (s, 0) i).trans (if_pos (Nat.zero_le _))

theorem set_value (setting : Setting) :
    valueOf (setting.set leading value s) setting = assigned leading value setting (valueOf s setting) := by
  have compared {Number : Type} (given : Globals → Number) (x : Number) (after : Globals)
      (stored : given after = x)
      [Decidable (x ≠ given s)] : given (if x ≠ given s then after else s) = x := by
    split
    · exact stored
    · rename_i same
      exact (not_not.mp same).symm
  have float (given : Globals → Float32) (x : Float32) (after : Globals) (stored : given after = x) :
      given (if (!(x == given s)) = true then after else s) = number x (given s) := by
    unfold number
    cases same : x == given s
    · simpa using stored
    · rfl
  cases setting with
  | generator =>
    change (setGenerator value s).generatorLeistung = (toInt value).toUInt32
    unfold setGenerator
    exact compared Globals.generatorLeistung (toInt value).toUInt32 _ rfl
  | couterconst =>
    change (setCouterconst value s).impulseProKwh = (toInt value).toUInt32
    unfold setCouterconst
    exact compared Globals.impulseProKwh (toInt value).toUInt32 _ rfl
  | compensation => exact float Globals.compensation _ _ rfl
  | offset => exact float Globals.offset _ _ rfl
  | port =>
    change (setPort value s).fhemPort = toInt value
    unfold setPort
    exact compared Globals.fhemPort (toInt value) _ rfl
  | ip => exact setIp_host leading value s

theorem set_other (setting other : Setting) (ne : setting ≠ other) :
    valueOf (other.set leading value s) setting = valueOf s setting := by
  cases other with
  | ip =>
    change valueOf (setIp leading value s) setting = _
    unfold setIp
    split
    · have frame := setHostBytes_frame (strtok 46 (toCharArray leading 20)) s
      have kept := congrArg (fun s => valueOf s setting) frame
      cases setting with
      | ip => exact absurd rfl ne
      | _ => exact kept
    · rfl
  | _ =>
    simp only [Setting.set, setGenerator, setCouterconst, setCompensation, setOffset, setPort]
    split
    · cases setting <;>
      first
      | exact absurd rfl ne
      | rfl
    · rfl

end Sets

section Arguments
variable (tmp : UInt32) (args : Arguments) (name : Str) (s : Globals)

/-- What an argument can be: a setting, the archive, the table, or nothing that the page knows. -/
theorem setupArgument_cases :
    (∃ setting : Setting, name = text setting.name ∧
      setupArgument tmp args name s = setting.set (firstValue args) (arg name args) s) ∨
    (name = text "backup" ∧ setupArgument tmp args name s = saveTable tmp s) ∨
    (name = text "clrrom" ∧ setupArgument tmp args name s = clearTable s) ∨
    ((∀ setting : Setting, name ≠ text setting.name) ∧ setupArgument tmp args name s = s) := by
  by_cases known : ∃ setting : Setting, name = text setting.name
  · obtain ⟨setting, rfl⟩ := known
    exact .inl ⟨setting, rfl, setupArgument_set tmp args setting s⟩
  · push Not at known
    right
    by_cases clears : name = text "clrrom"
    · subst clears
      exact .inr (.inl ⟨rfl, setupArgument_clrrom s tmp args⟩)
    · have rest : setupArgument tmp args name s = whenNamed "backup" name (saveTable tmp) s := by
        unfold setupArgument
        dsimp only
        rw [whenNamed_other "generator" _ _ _ (known .generator),
          whenNamed_other "couterconst" _ _ _ (known .couterconst),
          whenNamed_other "offset" _ _ _ (known .offset),
          whenNamed_other "compensation" _ _ _ (known .compensation), whenNamed_other "clrrom" _ _ _ clears,
            whenNamed_other "ip" _ _ _ (known .ip), whenNamed_other "port" _ _ _ (known .port)]
      by_cases saves : name = text "backup"
      · exact .inl ⟨saves, rest.trans (if_pos saves)⟩
      · exact .inr (.inr ⟨known, rest.trans (if_neg saves)⟩)

theorem name_injective (first second : Setting) (same : text first.name = text second.name) : first = second := by
  revert same
  cases first <;> cases second <;> decide

theorem clearTable_value (setting : Setting) : valueOf (clearTable s) setting = valueOf s setting := by
  have ram (s : Globals) : valueOf (deleteRAM s) setting = valueOf s setting := by
    cases setting <;>
    simp only [valueOf, deleteRAM, Globals.setValue, Globals.setPrint]
  have stored (s : Globals) (e : EEPROMClass) : valueOf { s with eeprom := e } setting = valueOf s setting := by
    cases setting <;> rfl
  have logged (s : Globals) (line : Str) : valueOf (write2logfile line s) setting = valueOf s setting := by
    cases setting <;> rfl
  rw [clearTable, ram, deleteEEPROM_eq, stored, logged]

theorem setupArgument_value (setting : Setting) : valueOf (setupArgument tmp args name s) setting =
    if name = text setting.name then
      assigned (firstValue args) (arg (text setting.name) args) setting (valueOf s setting)
        else valueOf s setting := by
  rcases setupArgument_cases tmp args name s with ⟨other, rfl, sets⟩ | ⟨rfl, saves⟩ | ⟨rfl, clears⟩
      | ⟨unknown, idle⟩
  · rw [sets]
    by_cases same : setting = other
    · subst same
      rw [if_pos rfl, set_value]
    · rw [if_neg fun named => same (name_injective _ _ named).symm, set_other _ _ _ _ _ same]
  · have other : text "backup" ≠ text setting.name := by cases setting <;> decide
    rw [saves, if_neg other]
    cases setting <;> rfl
  · have other : text "clrrom" ≠ text setting.name := by cases setting <;> decide
    rw [clears, if_neg other]
    exact clearTable_value s setting
  · rw [idle, if_neg (unknown setting)]

end Arguments

section Requests
variable (tmp : UInt32) (args : Arguments) (s : Globals)

/-- An argument takes effect: it is not empty, and no restart comes before it. -/
def Taken (setting : Setting) : Prop := ∃ entry ∈ served args, entry.1 = text setting.name

instance (setting : Setting) : Decidable (Taken args setting) :=
  inferInstanceAs (Decidable (∃ entry ∈ served args, _))

theorem setupArgument_restart : setupArgument tmp args (text "restart") s = s := by
  rcases setupArgument_cases tmp args (text "restart") s with ⟨setting, named, -⟩ | ⟨named, -⟩ | ⟨named, -⟩
      | ⟨-, idle⟩
  · cases setting <;> exact absurd named (by decide)
  · exact absurd named (by decide)
  · exact absurd named (by decide)
  · exact idle

theorem setupArguments_served (rest : Arguments) :
    FilesOnly (Runs.run (fun s (entry : Str × Str) => setupArgument tmp args entry.1 s) s (served rest))
      (setupArguments tmp args rest s).sketch := by
  induction rest generalizing s with
  | nil => rfl
  | cons entry later ih =>
    unfold setupArguments
    by_cases filled : entry.2 ≠ []
    · rw [if_pos filled]
      by_cases restarts : entry.1 = text "restart"
      · have none : served (entry :: later) = [] := by
          rw [served, List.filter_cons_of_pos (by simpa using filled),
            List.takeWhile_cons_of_neg (by simpa using restarts)]
        rw [if_pos restarts, none, restarts, setupArgument_restart]
        rfl
      · have first : served (entry :: later) = entry :: served later := by
          rw [served, List.filter_cons_of_pos (by simpa using filled),
            List.takeWhile_cons_of_pos (by simpa using restarts)]
          rfl
        rw [if_neg restarts, first, Runs.run_cons]
        exact ih _
    · have skipped : served (entry :: later) = served later := by
        rw [served, List.filter_cons_of_neg (by simpa using filled)]
        rfl
      rw [if_neg filled, skipped]
      exact ih s

theorem valueOf_filesOnly {before after : Globals} (files : FilesOnly before after) (setting : Setting) :
    valueOf after setting = valueOf before setting := by
  unfold FilesOnly at files
  rw [files]
  cases setting <;> rfl

theorem handleSetup_value (setting : Setting) : valueOf (handleSetup tmp args s).sketch setting =
    if Taken args setting then
      assigned (firstValue args) (arg (text setting.name) args) setting (valueOf s setting)
        else valueOf s setting := by
  have run := Runs.run_tracks (fun s (entry : Str × Str) => setupArgument tmp args entry.1 s)
    (fun s => valueOf s setting)
    (fun old entry => if entry.1 = text setting.name then
      assigned (firstValue args) (arg (text setting.name) args) setting old else old)
    (fun _ => True) (fun _ _ _ => trivial) (served args)
    (fun state entry _ _ => setupArgument_value tmp args entry.1 state setting) s trivial
  rw [handleSetup, valueOf_filesOnly (setupArguments_served tmp args s args) setting, run,
    Runs.run_once (fun entry : Str × Str => entry.1 = text setting.name) _ (assigned_twice _ _ setting)]
  rfl

end Requests

end Values
end EspLog.Forms

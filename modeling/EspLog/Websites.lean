import EspLog.Functions

/-! The page handlers of `websites.ino`: the setup page, the deletion on the file page, the
months of the yield page, and the upload callback. -/

namespace EspLog.Websites
open CText Eeprom ExactFloat Sketch Functions

/-- The arguments of a request, names with decoded values. -/
abbrev Arguments := List (Str × Str)

/-- `server.arg(name)`: the first argument of that name, empty when there is none. -/
def arg (name : Str) (args : Arguments) : Str := (args.lookup name).getD []

def hasArg (name : Str) (args : Arguments) : Bool := (args.lookup name).isSome

/-- `server.argName(i)`, empty past the last argument. -/
def argName (i : Nat) (args : Arguments) : Str := ((args[i]?).map Prod.fst).getD []

section Setup

def setGenerator (value : Str) (s : Globals) : Globals :=
  if (toInt value).toUInt32 ≠ s.generatorLeistung then
    let s := { s with generatorLeistung := (toInt value).toUInt32 }
    let s := write2logfile (text "Neue Generatorleistung setzen: " ++ decimal s.generatorLeistung.toNat) s
    putEepromValue adresseEepromGL s.generatorLeistung.toFloat32 s
  else s

def setCouterconst (value : Str) (s : Globals) : Globals :=
  if (toInt value).toUInt32 ≠ s.impulseProKwh then
    let s := { s with impulseProKwh := (toInt value).toUInt32 }
    let s := write2logfile (text "Neue Zaehlerkonstante setzen: " ++ decimal s.impulseProKwh.toNat) s
    putEepromValue adresseEepromZK s.impulseProKwh.toFloat32 s
  else s

/-- The old offset stays in the meter reading, which is also printed here in Wh. -/
def setOffset (value : Str) (s : Globals) : Globals :=
  if !(toFloat value == s.offset) then
    let s := { s with offset := toFloat value }
    let s := write2logfile (text "Zaehleroffset setzen: " ++ ofSingle s.offset) s
    let s := putEepromValue adresseEepromOF s.offset s
    let s := s.setValue 10 ((s.ausgabe 10).value + s.offset * 1000)
    s.setPrint 10 (dtostrf (toDouble (s.ausgabe 10).value) 2 2)
  else s

def setCompensation (value : Str) (s : Globals) : Globals :=
  if !(toFloat value == s.compensation) then
    let s := { s with compensation := toFloat value }
    let s := write2logfile (text "Neue Verguetung setzen: " ++ ofSingle s.compensation) s
    putEepromValue adresseEepromCO s.compensation s
  else s

/-- `atoi` into a byte. -/
def octet (token : Str) : UInt8 := (toInt token).toUInt32.toUInt8

/-- One token of the address: the index counts up without a bound. -/
def setHostByte (state : Globals × Nat) (token : Str) : Globals × Nat :=
  let (s, i) := state
  ({ s with fhemHost := Function.update s.fhemHost i (octet token),
            eeprom := s.eeprom.write (adresseEepromFhemHost + i * 2) (octet token) }, i + 1)

/-- What `server.argName(i)` names once the inner `i` is declared, which hides the loop's: the first argument. -/
def firstValue (args : Arguments) : Str := arg (argName 0 args) args

/-- `value` is compared, and `first` is copied and cut into tokens. -/
def setIp (first value : Str) (s : Globals) : Globals :=
  if value ≠ fhemIp s then
    let (s, _) := (strtok 46 (toCharArray first 20)).foldl setHostByte (s, 0)
    let s := { s with eeprom := s.eeprom.commit }
    write2logfile (text "Neue Controller IP setzen: " ++ fhemIp s) s
  else s

def setPort (value : Str) (s : Globals) : Globals :=
  if toInt value ≠ s.fhemPort then
    let s := { s with fhemPort := toInt value }
    let s := write2logfile (text "Controller Port schreiben: " ++ decimalInt (toInt value).toInt) s
    putEepromValue adresseEepromFhemPort (singleOfInt s.fhemPort) s
  else s

/-- `if(server.argName(i) == wanted)`. -/
def whenNamed (wanted : String) (name : Str) (action : Globals → Globals) (s : Globals) : Globals :=
  if name = text wanted then action s else s

theorem whenNamed_same (wanted : String) (action : Globals → Globals) (s : Globals) :
    whenNamed wanted (text wanted) action s = action s := if_pos rfl

theorem whenNamed_other (wanted : String) (name : Str) (action : Globals → Globals) (s : Globals)
    (other : name ≠ text wanted) :
    whenNamed wanted name action s = s := if_neg other

def clearTable (s : Globals) : Globals :=
  deleteRAM (deleteEEPROM (write2logfile (text "Tageswerte im Flash geloescht") s))

def saveTable (tmp : UInt32) (s : Globals) : Globals :=
  backup2file tmp (write2logfile (text "Tageswerte gesichert") s)

/-- One non-empty argument, except for the restart. The value is looked up again by name. -/
def setupArgument (tmp : UInt32) (args : Arguments) (name : Str) (s : Globals) : Globals :=
  let value := arg name args
  let s := whenNamed "generator" name (setGenerator value) s
  let s := whenNamed "couterconst" name (setCouterconst value) s
  let s := whenNamed "offset" name (setOffset value) s
  let s := whenNamed "compensation" name (setCompensation value) s
  let s := whenNamed "backup" name (saveTable tmp) s
  let s := whenNamed "clrrom" name clearTable s
  let s := whenNamed "ip" name (setIp (firstValue args) value) s
  whenNamed "port" name (setPort value) s

/-- The state after a request, and whether the handler ended in `ESP.restart()`. -/
structure Outcome where
  sketch : Globals
  restart : Bool

/-- The loop of `handleSetup` over the arguments that are left. -/
def setupArguments (tmp : UInt32) (args : Arguments) : Arguments → Globals → Outcome
  | [], s => ⟨s, false⟩
  | (name, value) :: rest, s =>
    if value ≠ [] then
      let s := setupArgument tmp args name s
      if name = text "restart" then ⟨write2logfile (text "Restart durch Benutzer") s, true⟩
      else setupArguments tmp args rest s
    else setupArguments tmp args rest s

def handleSetup (tmp : UInt32) (args : Arguments) (s : Globals) : Outcome := setupArguments tmp args args s

/-- What storing a setting does: a line in the log, bytes that are committed, and of the
outputs only the meter reading. -/
structure StoresSetting (before after : Globals) : Prop where
  logged : ∃ line, after.spiffs = Spiffs.append logPath line before.spiffs
  stored : (∃ address word, after.eeprom = (before.eeprom.put address word).commit) ∨
    ∃ tokens : List Str, after.eeprom = (tokens.foldl setHostByte (before, 0)).1.eeprom.commit
  yesterday : after.yesterday = before.yesterday
  today : after.today = before.today
  table : after.tagesCounter = before.tagesCounter
  slots : after.fuenfMinutenZaehler = before.fuenfMinutenZaehler
  outputs : ∀ i, i ≠ 10 → after.ausgabe i = before.ausgabe i

section Settings
variable (value : Str) (s : Globals)

theorem setGenerator_stores : setGenerator value s = s ∨ StoresSetting s (setGenerator value s) := by
  unfold setGenerator
  split
  · exact .inr ⟨⟨_, rfl⟩, .inl ⟨_, _, rfl⟩, rfl, rfl, rfl, rfl, fun _ _ => rfl⟩
  · exact .inl rfl

theorem setCouterconst_stores : setCouterconst value s = s ∨ StoresSetting s (setCouterconst value s) := by
  unfold setCouterconst
  split
  · exact .inr ⟨⟨_, rfl⟩, .inl ⟨_, _, rfl⟩, rfl, rfl, rfl, rfl, fun _ _ => rfl⟩
  · exact .inl rfl

theorem setCompensation_stores : setCompensation value s = s ∨ StoresSetting s (setCompensation value s) := by
  unfold setCompensation
  split
  · exact .inr ⟨⟨_, rfl⟩, .inl ⟨_, _, rfl⟩, rfl, rfl, rfl, rfl, fun _ _ => rfl⟩
  · exact .inl rfl

theorem setPort_stores : setPort value s = s ∨ StoresSetting s (setPort value s) := by
  unfold setPort
  split
  · exact .inr ⟨⟨_, rfl⟩, .inl ⟨_, _, rfl⟩, rfl, rfl, rfl, rfl, fun _ _ => rfl⟩
  · exact .inl rfl

theorem setOffset_stores : setOffset value s = s ∨ StoresSetting s (setOffset value s) := by
  unfold setOffset
  split
  · refine .inr ⟨⟨_, rfl⟩, .inl ⟨_, _, rfl⟩, rfl, rfl, rfl, rfl, fun i meter => ?_⟩
    rw [setPrint_of_ne _ _ _ _ meter, setValue_of_ne _ _ _ _ meter]
    rfl
  · exact .inl rfl

theorem setIp_stores (first : Str) : setIp first value s = s ∨ StoresSetting s (setIp first value s) := by
  have kept {Field : Type} (field : Globals → Field)
      (keeps : ∀ state token, field (setHostByte state token).1 = field state.1) :
      field ((strtok 46 (toCharArray first 20)).foldl setHostByte (s, 0)).1 = field s :=
    Runs.run_keeps setHostByte (fun state => field state.1) (strtok 46 (toCharArray first 20))
      (fun state token _ => keeps state token) (s, 0)
  unfold setIp
  split
  · refine .inr ⟨⟨_, congrArg (Spiffs.append logPath _) (kept Globals.spiffs fun _ _ => rfl)⟩, .inr ⟨_, rfl⟩,
      kept Globals.yesterday fun _ _ => rfl, kept Globals.today fun _ _ => rfl,
      kept Globals.tagesCounter fun _ _ => rfl, kept Globals.fuenfMinutenZaehler fun _ _ => rfl, fun i _ => ?_⟩
    exact congrFun (kept Globals.ausgabe fun _ _ => rfl) i
  · exact .inl rfl

end Settings

section Rules
variable (relation : Globals → Globals → Prop) (refl : ∀ s, relation s s)
  (trans : ∀ {first second third}, relation first second → relation second third → relation first third)
include refl trans

theorem setupArgument_parts (tmp : UInt32) (args : Arguments) (name : Str)
    (settings : ∀ action ∈ [setGenerator, setCouterconst, setCompensation, setIp (firstValue args), setPort],
      ∀ value s, relation s (action value s))
    (offset : name = text "offset" → ∀ s, relation s (setOffset (arg name args) s))
    (save : name = text "backup" → ∀ s, relation s (saveTable tmp s))
    (clear : name = text "clrrom" → ∀ s, relation s (clearTable s)) (s : Globals) :
    relation s (setupArgument tmp args name s) := by
  have named (wanted : String) (action : Globals → Globals) (s : Globals)
      (step : name = text wanted → ∀ s, relation s (action s)) : relation s (whenNamed wanted name action s) := by
    unfold whenNamed
    split
    · rename_i same
      exact step same s
    · exact refl s
  have setting (action : Str → Globals → Globals)
      (listed : action ∈ [setGenerator, setCouterconst, setCompensation, setIp (firstValue args), setPort])
      (wanted : String) (s : Globals) : relation s (whenNamed wanted name (action (arg name args)) s) :=
    named wanted _ s fun _ => settings action listed _
  refine trans (setting setGenerator (by simp) "generator" s) ?_
  refine trans (setting setCouterconst (by simp) "couterconst" _) ?_
  refine trans (named "offset" _ _ offset) ?_
  refine trans (setting setCompensation (by simp) "compensation" _) ?_
  refine trans (named "backup" _ _ save) ?_
  refine trans (named "clrrom" _ _ clear) ?_
  refine trans (setting (setIp (firstValue args)) (by simp) "ip" _) ?_
  exact setting setPort (by simp) "port" _

theorem setupArgument_rule (stores : ∀ before after, StoresSetting before after → relation before after)
    (tmp : UInt32) (args : Arguments) (name : Str)
    (save : name = text "backup" → ∀ s, relation s (saveTable tmp s))
    (clear : name = text "clrrom" → ∀ s, relation s (clearTable s)) (s : Globals) :
    relation s (setupArgument tmp args name s) := by
  have setting (first second : Globals) (either : second = first ∨ StoresSetting first second) :
      relation first second := by
    rcases either with same | stored
    · rw [same]
      exact refl first
    · exact stores _ _ stored
  apply setupArgument_parts relation refl trans tmp args name _ _ save clear
  · simp only [List.forall_mem_cons]
    exact ⟨fun value s => setting _ _ (setGenerator_stores value s),
      fun value s => setting _ _ (setCouterconst_stores value s),
      fun value s => setting _ _ (setCompensation_stores value s),
      fun value s => setting _ _ (setIp_stores value s _), fun value s => setting _ _ (setPort_stores value s),
        fun _ none => by cases none⟩
  · exact fun _ s => setting _ _ (setOffset_stores _ s)

/-- What each argument of a request keeps, and each log line, the request keeps. -/
theorem setupArguments_rule (logs : ∀ logtext s, relation s (write2logfile logtext s)) (tmp : UInt32)
    (args rest : Arguments) (keeps : ∀ entry ∈ rest, entry.2 ≠ [] →
      ∀ s, relation s (setupArgument tmp args entry.1 s))
    (s : Globals) : relation s (setupArguments tmp args rest s).sketch := by
  induction rest generalizing s with
  | nil => exact refl s
  | cons entry rest ih =>
    have later := ih fun other member => keeps other (List.mem_cons_of_mem _ member)
    unfold setupArguments
    split
    · rename_i filled
      have next := keeps entry List.mem_cons_self filled s
      split
      · exact trans next (logs _ _)
      · exact trans next (later _)
    · exact later s

end Rules

end Setup

section FilePage

/-- The characters that `handleSpiffs` replaces in a file name before it compares. -/
def encodedNames : List (String × String) :=
  [(" ", "%20"), ("ä", "%C3%A4"), ("Ä", "%C3%84"), ("ö", "%C3%B6"), ("Ö", "%C3%96"),
    ("ü", "%C3%BC"), ("Ü", "%C3%9C"), ("ß", "%C3%9F"), ("€", "%E2%82%AC")]

def encodeName (path : Str) : Str :=
  encodedNames.foldl (fun path pair => replace path (text pair.1) (text pair.2)) path

/-- The first file in directory order whose encoded name is the argument is removed. -/
def handleSpiffs (args : Arguments) (s : Globals) : Globals :=
  if hasArg (text "Delete") args = true then
    match s.spiffs.find? (fun file => arg (text "file") args == encodeName file.1) with
    | some (name, _) => write2logfile (text "Datei " ++ name ++ text " geloescht")
        { s with spiffs := Spiffs.remove name s.spiffs }
    | none => s
  else s

end FilePage

section YieldPage

def monat : List String :=
  ["Januar", "Februar", "M&auml;rz", "April", "Mai", "Juni", "Juli", "August", "September", "Oktober", "November",
    "Dezember"]

/-- The index `j` of the month that the page shows; the number in the argument is cut to a byte. -/
def gezeigterMonat (args : Arguments) (s : Globals) : Nat :=
  if arg (text "monat") args = [] then s.today.month
  else
    let m := (toInt (arg (text "monat") args)).toUInt32.toUInt8
    if m = 0 then 11 else if m > 12 then 0 else (m - 1).toNat

/-- `tmp`, the last day of the month `j`; both count from zero. -/
def letzterTag (year j : Nat) : Nat :=
  if j = 1 then (if year % 4 = 0 ∧ year % 100 ≠ 0 ∨ year % 400 = 0 then 28 else 27)
  else if j ≤ 6 then (if j % 2 = 0 then 30 else 29)
  else if j % 2 = 0 then 29 else 30

/-- A cell shows `tagesCounter[month][day]`; the one of today blinks. -/
structure Zelle where
  month : Nat
  day : Nat
  tabBlink : Bool
  buf : Str

def zelle (j : Nat) (s : Globals) (i : Nat) : Zelle where
  month := j
  day := i
  tabBlink := j == s.today.month && i == s.today.day
  buf := dtostrf ((s.tagesCounter j i).toFloat / 1000) 1 1

/-- The cells of the month `j`, where `year()` is `year`. -/
def zellen (year j : Nat) (s : Globals) : List Zelle := (List.range (letzterTag year j + 1)).map (zelle j s)

def zelleText (cell : Zelle) : Str :=
  text (if cell.tabBlink = true then "<div id='tb' class='tabBlink'>" else "<div id='tb'>") ++ cell.buf ++
    text "</div>" ++
    if (cell.day + 1) % 7 = 0 then text "</div>\n<div id='wk'>" else []

/-- The page from its row of links on, where `year()` is `year`. -/
def handleViewErtrag (year : Nat) (args : Arguments) (s : Globals) : Str :=
  let j := gezeigterMonat args s
  text "<div class='row' style='line-height: 2.5;'><div class='back'><a href='/ertrag.html?monat=" ++ decimal j ++
    text "'>zur&uuml;ck</a></div><div class='monat'>" ++ text (monat.getD j "") ++
    text "</div><div class='next'><div class='next'><a href='/ertrag.html?monat=" ++ decimal (j + 2) ++
    text "'>vor</a></div></div>" ++ text "<div>" ++ text "<div id='wk'>\n" ++
      (zellen year j s).flatMap zelleText ++
    text "</div>" ++ text "</div></div>" ++ graph s ++ text "</div>"

end YieldPage

section Upload

inductive UploadEvent where
  | start (filename : Str)
  | write (chunk : Str)
  | finish (filename : Str)
  | aborted

def uploadPath (filename : Str) : Str :=
  let filename := if filename.length > 30 then filename.drop (filename.length - 30) else filename
  if filename.head? = some 47 then filename else 47 :: filename

/-- `handleFileUpload`; `args` are the arguments known while the body is still being read. -/
def handleFileUpload (args : Arguments) (s : Globals) : UploadEvent → Globals
  | .start filename => { s with
      spiffs := Spiffs.rewrite (uploadPath filename) [] s.spiffs
      fsUploadFile := some (uploadPath filename) }
  | .write chunk =>
    match s.fsUploadFile with
    | some path => { s with spiffs := Spiffs.append path chunk s.spiffs }
    | none => s
  | .finish filename =>
    let s := write2logfile (text "Neue Datei gespeichert: " ++ filename) s
    handleSpiffs args { s with fsUploadFile := none }
  | .aborted => s

end Upload
end EspLog.Websites

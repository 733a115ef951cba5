import EspLog.Forms
import EspLog.RequestBytes
import EspLog.Support.Decimals

/-! The two forms of the setup page, sent back as they were shown. The page shows floats with two decimals, and
what it cannot show it changes. -/

namespace EspLog.SetupForms
open CText Sketch Functions Websites WebServer Settings Forms Decimals RequestBytes

section Fields

/-- The inputs of the form `vorgaben`, with the values that the page puts in. -/
def vorgaben (s : Globals) : Arguments :=
  [(text "generator", decimal s.generatorLeistung.toNat), (text "couterconst", decimal s.impulseProKwh.toNat),
    (text "compensation", ofSingle s.compensation), (text "offset", ofSingle s.offset), (text "save", text "OK")]

/-- The inputs of the form `controller`. -/
def controller (s : Globals) : Arguments :=
  [(text "ip", fhemIp s), (text "port", decimalInt s.fhemPort.toInt), (text "save", text "OK")]

/-- A setting with the text that a form has for it. -/
abbrev Entry := Setting × Str

def submit (leading : Str) (s : Globals) (entry : Entry) : Globals := entry.1.set leading entry.2 s

end Fields

section Log

def logLength (s : Globals) : Nat := ((Spiffs.content logPath s.spiffs).getD []).length

theorem logLength_append (s after : Globals) (line : Str)
    (logged : after.spiffs = Spiffs.append logPath line s.spiffs) :
    logLength after = logLength s + line.length := by
  rw [logLength, logged, Spiffs.content_append, Option.getD_some, List.length_append, logLength]

theorem logLine_filled (tm : TimeLib.TmElements) (logtext : Str) : 0 < (logLine tm logtext).length := by
  have last : lineEnd.length = 2 := rfl
  rw [logLine, List.length_append, last]
  omega

theorem set_logs (leading value : Str) (s : Globals) (setting : Setting) (changes : setting.differs value s) :
    logLength s < logLength (setting.set leading value s) := by
  suffices logged : ∃ tm logtext, (setting.set leading value s).spiffs =
      Spiffs.append logPath (logLine tm logtext) s.spiffs by
    obtain ⟨tm, logtext, line⟩ := logged
    have filled := logLine_filled tm logtext
    rw [logLength_append s _ _ line]
    omega
  unfold Setting.differs at changes
  cases setting with
  | generator =>
    rw [Setting.set, setGenerator, if_pos changes]
    exact ⟨_, _, rfl⟩
  | couterconst =>
    rw [Setting.set, setCouterconst, if_pos changes]
    exact ⟨_, _, rfl⟩
  | compensation =>
    rw [Setting.set, setCompensation, if_pos changes]
    exact ⟨_, _, rfl⟩
  | offset =>
    rw [Setting.set, setOffset, if_pos changes]
    exact ⟨_, _, rfl⟩
  | port =>
    rw [Setting.set, setPort, if_pos changes]
    exact ⟨_, _, rfl⟩
  | ip =>
    have files := Runs.run_keeps setHostByte (fun state => state.1.spiffs) (strtok 46 (toCharArray leading 20))
      (fun _ _ _ => rfl) (s, 0)
    rw [Setting.set, setIp, if_pos changes]
    exact ⟨_, _, congrArg (Spiffs.append logPath _) files⟩

/-- Sending entries back changes nothing exactly when none of them differs. -/
theorem submit_unchanged_iff (leading : Str) (entries : List Entry) (s : Globals) :
    Runs.run (submit leading) s entries = s ↔ ∀ entry ∈ entries, ¬entry.1.differs entry.2 s := by
  have grows (entries : List Entry) (s : Globals) :
      logLength s ≤ logLength (Runs.run (submit leading) s entries) := by
    induction entries generalizing s with
    | nil => exact le_rfl
    | cons entry later ih =>
      refine le_trans ?_ (ih _)
      by_cases changes : entry.1.differs entry.2 s
      · exact (set_logs leading entry.2 s entry.1 changes).le
      · rw [submit, set_same leading entry.2 s entry.1 changes]
  induction entries with
  | nil => simp
  | cons entry later ih =>
    rw [Runs.run_cons, List.forall_mem_cons]
    by_cases changes : entry.1.differs entry.2 s
    · refine iff_of_false (fun same => ?_) fun both => both.1 changes
      have more := set_logs leading entry.2 s entry.1 changes
      have rest := grows later (submit leading s entry)
      rw [same] at rest
      exact absurd more (not_lt.mpr rest)
    · have here : submit leading s entry = s := set_same leading entry.2 s entry.1 changes
      rw [here]
      exact ih.trans (and_iff_right changes).symm

end Log

section Requests
variable (tmp : UInt32)

def fields (entries : List Entry) : Arguments :=
  entries.map (fun entry => (text entry.1.name, entry.2)) ++ [(text "save", text "OK")]

theorem arg_fields (entries : List Entry) (distinct : (entries.map Prod.fst).Nodup) (entry : Entry)
    (member : entry ∈ entries) :
    arg (text entry.1.name) (fields entries) = entry.2 := by
  suffices found : (fields entries).lookup (text entry.1.name) = some entry.2 by rw [arg, found, Option.getD_some]
  induction entries with
  | nil => cases member
  | cons first rest ih =>
    rw [List.map_cons, List.nodup_cons] at distinct
    rw [fields, List.map_cons, List.cons_append, List.lookup_cons]
    rcases List.mem_cons.mp member with rfl | later
    · rw [beq_self_eq_true]
    · have other : (text entry.1.name == text first.1.name) = false := by
        rw [beq_eq_false_iff_ne]
        intro same
        exact distinct.1 (name_injective _ _ same ▸ List.mem_map_of_mem later)
      rw [other]
      exact ih distinct.2 later

theorem setupArgument_save (args : Arguments) (s : Globals) : setupArgument tmp args (text "save") s = s := by
  rcases setupArgument_cases tmp args (text "save") s with ⟨setting, named, -⟩ | ⟨named, -⟩ | ⟨named, -⟩
      | ⟨-, idle⟩
  · cases setting <;> exact absurd named (by decide)
  · exact absurd named (by decide)
  · exact absurd named (by decide)
  · exact idle

theorem handleSetup_fields (entries : List Entry) (distinct : (entries.map Prod.fst).Nodup)
    (filled : ∀ entry ∈ entries, entry.2 ≠ []) (s : Globals) :
    handleSetup tmp (fields entries) s = ⟨Runs.run (submit (firstValue (fields entries))) s entries, false⟩ := by
  have each (rest : List Entry) (known : ∀ entry ∈ rest, entry ∈ entries) (s : Globals) :
      setupArguments tmp (fields entries) (fields rest) s =
      ⟨Runs.run (submit (firstValue (fields entries))) s rest, false⟩ := by
    induction rest generalizing s with
    | nil =>
      have stays : text "save" ≠ text "restart" := by decide
      have shape : fields [] = [(text "save", text "OK")] := rfl
      rw [shape, setupArguments, if_pos (by decide), if_neg stays, setupArgument_save]
      rfl
    | cons entry later ih =>
      have stays : text entry.1.name ≠ text "restart" := by cases entry.1 <;> decide
      have here := known entry List.mem_cons_self
      have shape : fields (entry :: later) = (text entry.1.name, entry.2) :: fields later := rfl
      rw [shape, setupArguments, if_pos (filled entry here), if_neg stays, setupArgument_set,
        arg_fields entries distinct entry here]
      exact ih (fun other member => known other (List.mem_cons_of_mem _ member)) _
  exact each entries (fun _ member => member) s

theorem fields_unchanged_iff (entries : List Entry) (distinct : (entries.map Prod.fst).Nodup)
    (filled : ∀ entry ∈ entries, entry.2 ≠ []) (s : Globals) :
    handleSetup tmp (fields entries) s = ⟨s, false⟩ ↔ ∀ entry ∈ entries, ¬entry.1.differs entry.2 s := by
  rw [handleSetup_fields tmp entries distinct filled, Outcome.mk.injEq, and_iff_left rfl]
  exact submit_unchanged_iff _ entries s

end Requests

section Texts

theorem toInt_decimal_lt (n : UInt32) : (toInt (decimal n.toNat)).toUInt32.toNat < 2 ^ 31 := by
  rcases lt_or_ge n.toNat (2 ^ 31) with short | long
  · rwa [RequestBytes.toInt_decimal _ short, UInt32.ofNat_toNat]
  · have value : strtol (decimal n.toNat) = n.toNat := by rw [strtol_digits _ (decimal_digits _), natOf_decimal]
    have clamped : toInt (decimal n.toNat) = Int32.maxValue := by
      rw [toInt, value, Int32.ofIntClamp, dif_pos, dif_neg]
      · rw [Int32.toInt_maxValue]
        omega
      · rw [Int32.toInt_minValue]
        omega
    rw [clamped]
    decide

theorem toInt_decimal_iff (n : UInt32) : (toInt (decimal n.toNat)).toUInt32 = n ↔ n.toNat < 2 ^ 31 := by
  constructor
  · intro same
    rw [← same]
    exact toInt_decimal_lt n
  · intro short
    rw [RequestBytes.toInt_decimal _ short, UInt32.ofNat_toNat]

theorem toInt_decimalInt (n : Int32) : toInt (decimalInt n.toInt) = n := by
  suffices value : strtol (decimalInt n.toInt) = n.toInt by rw [toInt, value, Int32.ofIntClamp_toInt]
  unfold decimalInt
  split
  · rename_i negative
    have digits := decimal_digits n.toInt.natAbs
    have whole : (decimal n.toInt.natAbs).takeWhile isDigit = decimal n.toInt.natAbs :=
      List.takeWhile_eq_self_iff.mpr digits
    have value : strtol (45 :: decimal n.toInt.natAbs) = -(natOf 10 (decimal n.toInt.natAbs) : Int) := by
      have front : (45 :: decimal n.toInt.natAbs).dropWhile isSpace = 45 :: decimal n.toInt.natAbs := rfl
      simp only [strtol, front, signed, whole, if_true]
    rw [value, natOf_decimal]
    omega
  · rw [strtol_digits _ (decimal_digits _), natOf_decimal]
    omega

theorem ofSingle_filled (x : Float32) : ofSingle x ≠ [] := by
  have padded (width : Nat) (s : Str) (filled : s ≠ []) : padLeft width 32 s ≠ [] :=
    List.append_ne_nil_of_right_ne_nil _ filled
  have number (n : Nat) : fixedPoint n 2 ≠ [] := List.append_ne_nil_of_right_ne_nil _ (List.cons_ne_nil _ _)
  unfold ofSingle dtostrf
  split
  · decide
  · decide
  · exact padded _ _ (number _)
  · exact padded _ _ (number _)
  · exact padded _ _ (List.cons_ne_nil _ _)

end Texts

section Forms
variable (tmp : UInt32) (s : Globals)

def vorgabenEntries : List Entry :=
  [(.generator, decimal s.generatorLeistung.toNat), (.couterconst, decimal s.impulseProKwh.toNat),
    (.compensation, ofSingle s.compensation), (.offset, ofSingle s.offset)]

def controllerEntries : List Entry := [(.ip, fhemIp s), (.port, decimalInt s.fhemPort.toInt)]

/-- The settings of the first form are ones that the page can show. -/
structure Showable : Prop where
  generatorLeistung : s.generatorLeistung.toNat < 2 ^ 31
  impulseProKwh : s.impulseProKwh.toNat < 2 ^ 31
  compensation : Hundredths s.compensation
  offset : Hundredths s.offset

theorem vorgaben_distinct : ((vorgabenEntries s).map Prod.fst).Nodup := by
  change [Setting.generator, .couterconst, .compensation, .offset].Nodup
  decide

theorem controller_distinct : ((controllerEntries s).map Prod.fst).Nodup := by
  change [Setting.ip, .port].Nodup
  decide

theorem vorgaben_filled : ∀ entry ∈ vorgabenEntries s, entry.2 ≠ [] := by
  simp only [vorgabenEntries, List.forall_mem_cons]
  exact ⟨decimal_ne_nil _, decimal_ne_nil _, ofSingle_filled _, ofSingle_filled _, fun _ none => nomatch none⟩

theorem controller_filled : ∀ entry ∈ controllerEntries s, entry.2 ≠ [] := by
  have address : fhemIp s ≠ [] := List.append_ne_nil_of_right_ne_nil _ (decimal_ne_nil _)
  have port : decimalInt s.fhemPort.toInt ≠ [] := by
    unfold decimalInt
    split
    · exact List.cons_ne_nil _ _
    · exact decimal_ne_nil _
  simp only [controllerEntries, List.forall_mem_cons]
  exact ⟨address, port, fun _ none => nomatch none⟩

theorem vorgaben_unchanged_iff : handleSetup tmp (vorgaben s) s = ⟨s, false⟩ ↔ Showable s := by
  have same : vorgaben s = fields (vorgabenEntries s) := rfl
  have float (x : Float32) : ¬(!(toFloat (ofSingle x) == x)) = true ↔ Hundredths x := by
    rw [Bool.not_eq_true', Bool.not_eq_false, toFloat_ofSingle_iff]
  rw [same, fields_unchanged_iff tmp _ (vorgaben_distinct s) (vorgaben_filled s)]
  simp only [vorgabenEntries, List.forall_mem_cons, Setting.differs, not_not, toInt_decimal_iff, float,
    List.not_mem_nil, false_imp_iff, implies_true, and_true]
  exact ⟨fun all => ⟨all.1, all.2.1, all.2.2.1, all.2.2.2⟩, fun shows => ⟨shows.1, shows.2, shows.3, shows.4⟩⟩

theorem controller_unchanged : handleSetup tmp (controller s) s = ⟨s, false⟩ := by
  have same : controller s = fields (controllerEntries s) := rfl
  rw [same, fields_unchanged_iff tmp _ (controller_distinct s) (controller_filled s)]
  simp only [controllerEntries, List.forall_mem_cons, Setting.differs, not_not, toInt_decimalInt, List.not_mem_nil,
    false_imp_iff, implies_true, and_true]

/-- What a form has stored, it can show. -/
theorem vorgaben_showable (numbers : ¬NotANumber s.compensation ∧ ¬NotANumber s.offset) :
    Showable (handleSetup tmp (vorgaben s) s).sketch := by
  have same : vorgaben s = fields (vorgabenEntries s) := rfl
  have float (x : Float32) (some : ¬NotANumber x) : Hundredths (number (toFloat (ofSingle x)) x) := by
    unfold number
    split
    · rename_i kept
      exact (toFloat_ofSingle_iff x).mp kept
    · exact hundredths_toFloat some
  have value (setting : Setting) : valueOf (handleSetup tmp (vorgaben s) s).sketch setting =
      (vorgabenEntries s).foldl
      (fun old entry => if entry.1 = setting then assigned (firstValue (vorgaben s)) entry.2 setting old else old)
        (valueOf s setting) := by
    rw [same, handleSetup_fields tmp _ (vorgaben_distinct s) (vorgaben_filled s)]
    apply Runs.run_tracks (submit _) (fun s => valueOf s setting) _ (fun _ => True) (fun _ _ _ => trivial) _ _
      _ trivial
    intro state entry _ _
    by_cases here : entry.1 = setting
    · subst here
      rw [if_pos rfl]
      exact set_value _ entry.2 state entry.1
    · rw [if_neg here]
      exact set_other _ entry.2 state setting entry.1 (Ne.symm here)
  have generator : (handleSetup tmp (vorgaben s) s).sketch.generatorLeistung =
      (toInt (decimal s.generatorLeistung.toNat)).toUInt32 :=
    value .generator
  have rate : (handleSetup tmp (vorgaben s) s).sketch.impulseProKwh =
      (toInt (decimal s.impulseProKwh.toNat)).toUInt32 :=
    value .couterconst
  have compensation : (handleSetup tmp (vorgaben s) s).sketch.compensation =
      number (toFloat (ofSingle s.compensation)) s.compensation :=
    value .compensation
  have offset : (handleSetup tmp (vorgaben s) s).sketch.offset = number (toFloat (ofSingle s.offset)) s.offset :=
    value .offset
  constructor
  · rw [generator]
    exact toInt_decimal_lt _
  · rw [rate]
    exact toInt_decimal_lt _
  · rw [compensation]
    exact float _ numbers.1
  · rw [offset]
    exact float _ numbers.2

end Forms

section Sent

/-- A form of the setup page as a browser with the credentials sends it. -/
structure SentForm (behind : Str → Str) (args : Arguments) extends Sent behind where
  values : FieldsBody
  post : method = .post
  there : target.uri = text "/setup.html"
  plain : target.fields = []
  sends : body = .fields values
  entered : values.fields.map QueryText.Field.argument = args
  trusted : toSent.authorized = true

variable {behind : Str → Str} (arrival : Parsing.Arrival) (isFile : Str → Bool) (tmp : UInt32)

theorem SentForm.served {args : Arguments} (sent : SentForm behind args) (s : Globals) :
    Parsing.serve arrival behind isFile tmp sent.bytes s = some (handleSetup tmp args s) := by
  have reads := request_round_trip sent.toSent arrival
  have post : readsBody sent.method = true := by rw [sent.post]; rfl
  have args : requestArgs sent.request = some args := by
    rw [requestArgs, Sent.request]
    dsimp only
    rw [if_pos post, if_pos post, if_pos post, sent.sends, sent.plain]
    dsimp only [SentBody.body, SentBody.arguments]
    rw [List.map_nil, List.nil_append, List.append_nil, sent.entered]
  have called : setupArgs sent.request = some _ := (if_pos ⟨sent.trusted, sent.there⟩).trans args
  rw [Parsing.serve, reads]
  dsimp only
  rw [handleRequest_setup isFile tmp sent.request s _ called]

/-- Showing the first form and saving it as it is leaves the device as it was, exactly when the page can show its
settings. -/
theorem unchanged_save_iff (s : Globals) (sent : SentForm behind (vorgaben s)) :
    Parsing.serve arrival behind isFile tmp sent.bytes s = some ⟨s, false⟩ ↔ Showable s := by
  rw [sent.served, Option.some.injEq, vorgaben_unchanged_iff]

/-- The second form never changes anything, whatever the device holds. -/
theorem controller_save (s : Globals) (sent : SentForm behind (controller s)) :
    Parsing.serve arrival behind isFile tmp sent.bytes s = some ⟨s, false⟩ := by
  rw [sent.served, controller_unchanged]

/-- A device whose two floats are numbers. -/
structure Numeric where
  sketch : Globals
  compensation : ¬NotANumber sketch.compensation
  offset : ¬NotANumber sketch.offset

/-- What one save of the first form makes of the device. -/
def saved (s : Globals) : Globals := (handleSetup tmp (vorgaben s) s).sketch

/-- One save may round the settings; the form that the page then shows is saved without any change. -/
theorem saves_settle (device : Numeric) (first : SentForm behind (vorgaben device.sketch))
    (again : SentForm behind (vorgaben (saved tmp device.sketch))) :
    Parsing.serve arrival behind isFile tmp first.bytes device.sketch = some ⟨saved tmp device.sketch, false⟩ ∧
      Parsing.serve arrival behind isFile tmp again.bytes (saved tmp device.sketch) =
        some ⟨saved tmp device.sketch, false⟩ := by
  constructor
  · have same : vorgaben device.sketch = fields (vorgabenEntries device.sketch) := rfl
    rw [first.served, saved, same, handleSetup_fields tmp _ (vorgaben_distinct _) (vorgaben_filled _)]
  · have shows := vorgaben_showable tmp device.sketch ⟨device.compensation, device.offset⟩
    rw [again.served, (vorgaben_unchanged_iff tmp (saved tmp device.sketch)).mpr shows]

/-- The meter reading behind a save: an offset that the page cannot show counts as a new one, and is added again. -/
theorem save_reading (s : Globals) (sent : SentForm behind (vorgaben s)) :
    (Hundredths s.offset → (Parsing.serve arrival behind isFile tmp sent.bytes s).map
      (fun outcome => outcome.sketch.ausgabe 10) =
      some (s.ausgabe 10)) ∧
    (¬Hundredths s.offset → (Parsing.serve arrival behind isFile tmp sent.bytes s).map
      (fun outcome => (outcome.sketch.ausgabe 10).value) =
      some ((s.ausgabe 10).value + toFloat (ofSingle s.offset) * 1000)) := by
  have same : vorgaben s = fields (vorgabenEntries s) := rfl
  have outputs := Texts.settings_outputs (firstValue (vorgaben s))
  simp only [List.forall_mem_cons] at outputs
  obtain ⟨generator, rate, compensation, -⟩ := outputs
  obtain ⟨before, last, outputs, offset⟩ : ∃ before : Globals, (handleSetup tmp (vorgaben s) s).sketch =
      setOffset (ofSingle s.offset) before ∧ before.ausgabe = s.ausgabe ∧ before.offset = s.offset := by
    refine ⟨setCompensation (ofSingle s.compensation) (setCouterconst (decimal s.impulseProKwh.toNat)
      (setGenerator (decimal s.generatorLeistung.toNat) s)), ?_, ?_, ?_⟩
    · rw [same, handleSetup_fields tmp _ (vorgaben_distinct s) (vorgaben_filled s)]
      rfl
    · rw [(compensation _ _).1, (rate _ _).1, (generator _ _).1]
    · rw [(compensation _ _).2, (rate _ _).2, (generator _ _).2]
  rw [sent.served, Option.map_some, Option.map_some, last, ← toFloat_ofSingle_iff, ← offset, ← outputs]
  constructor
  · intro kept
    rw [Texts.setOffset_same _ _ kept]
  · intro differs
    rw [(Texts.setOffset_meter _ _ differs).1, Texts.shown_value]

def firstFields : FieldsBody where
  fields := [.ofValue (text "generator") (text "1") (by decide +kernel),
    .ofValue (text "couterconst") (text "1000") (by decide +kernel),
    .ofValue (text "compensation") (text "0.00") (by decide +kernel),
    .ofValue (text "offset") (text "0.00") (by decide +kernel),
    .ofValue (text "save") (text "OK") (by decide +kernel)]
  list := by decide +kernel
  short := by decide +kernel

theorem setup_located : ∀ b ∈ text "/setup.html", b ∉ [0, 13, 32, 63] := by decide +kernel

theorem username_colonless : 58 ∉ Parsing.www_username := by decide +kernel

def owner : RequestBytes.Credentials := ⟨Parsing.www_username, Parsing.www_password, username_colonless⟩

theorem owner_authorized :
    (decide (owner.user = Parsing.www_username ∧ owner.password = Parsing.www_password)) = true := by
  decide

/-- A browser's first save of a new device, with the credentials in the last line of the head. -/
def firstSave (behind : Str → Str) : SentForm behind (vorgaben (powerOn (fun _ => 0) true [])) where
  method := .post
  target := ⟨text "/setup.html", [], setup_located, sendable_nil⟩
  version := text "HTTP/1.1"
  headers := []
  credentials := some owner
  body := .fields firstFields
  lines := (taken behind (some owner) (.fields firstFields)).reverse
  versioned := version_ended
  foreign := foreign_nil
  order := List.reverse_perm _
  values := firstFields
  post := rfl
  there := rfl
  plain := rfl
  sends := rfl
  entered := by decide +kernel
  trusted := owner_authorized

theorem zero_shown : Hundredths 0 := (toFloat_ofSingle_iff 0).mp (by decide +kernel)

/-- The new device can show its settings. -/
theorem unchanged_save_of_new_device :
    Parsing.serve ⟨fun s => [s], fun s => List.append_nil s⟩ id (fun _ => false) 0
    (firstSave id).bytes (powerOn (fun _ => 0) true []) = some ⟨powerOn (fun _ => 0) true [], false⟩ :=
  (unchanged_save_iff ⟨fun s => [s], fun s => List.append_nil s⟩ (fun _ => false) 0 _ (firstSave id)).mpr
    ⟨by decide, by decide, zero_shown, zero_shown⟩

theorem zero_number : ¬NotANumber 0 := by
  intro none
  have zero : (0 : Float32).toModel.unpack = .zero .positive := by rfl
  rw [NotANumber, zero] at none
  cases none

def newDevice : Numeric where
  sketch := powerOn (fun _ => 0) true []
  compensation := zero_number
  offset := zero_number

theorem newDevice_saved : saved 0 newDevice.sketch = newDevice.sketch :=
  congrArg Outcome.sketch ((vorgaben_unchanged_iff 0 newDevice.sketch).mpr
    ⟨by decide, by decide, zero_shown, zero_shown⟩)

theorem saves_settle_of_new_device :
    Parsing.serve ⟨fun s => [s], fun s => List.append_nil s⟩ id (fun _ => false) 0 (firstSave id).bytes
    newDevice.sketch = some ⟨saved 0 newDevice.sketch, false⟩ ∧
    Parsing.serve ⟨fun s => [s], fun s => List.append_nil s⟩ id (fun _ => false) 0
      (newDevice_saved ▸ firstSave id : SentForm id (vorgaben (saved 0 newDevice.sketch))).bytes
      (saved 0 newDevice.sketch) =
        some ⟨saved 0 newDevice.sketch, false⟩ :=
  saves_settle ⟨fun s => [s], fun s => List.append_nil s⟩ (fun _ => false) 0 newDevice (firstSave id) _

end Sent
end EspLog.SetupForms

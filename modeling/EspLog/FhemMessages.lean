import EspLog.Names
import EspLog.RequestBytes
import EspLog.Support.Json

/-! What the device reports to the FHEM controller: one message for each value, which the receiver reads back. -/

namespace EspLog.FhemMessages
open CText Sketch Functions Setup Websites WebServer Loop Outputs Json Printing Names

section Messages

def lenStore : Nat := 11

def queryRealName : List String :=
  ["Tagesertrag", "Jahresertrag", "Spezifisch", "Einspeiseleistung", "Zaehlerstand", "Maximal", "Voltage", "RSSI",
    "Uptime"]

/-- `IPAddress::toString`. -/
def ipText (address : Nat → UInt8) : Str :=
  decimal (address 0).toNat ++ text "." ++ decimal (address 1).toNat ++ text "." ++
    decimal (address 2).toNat ++ text "." ++ decimal (address 3).toNat

theorem legible_ipText (address : Nat → UInt8) : Legible (ipText address) := by
  have dot : Legible (text ".") := by decide +kernel
  have two := legible_append (legible_append (legible_decimal (address 0).toNat) dot)
    (legible_decimal (address 1).toNat)
  have three := legible_append (legible_append two dot) (legible_decimal (address 2).toNat)
  exact legible_append (legible_append three dot) (legible_decimal (address 3).toNat)

def initialjsonString (localIP : Nat → UInt8) : Str :=
  text "\x7b\"module\":\"ESPEasy\"," ++ text "\"version\":\"1.02\"," ++ text "\"data\":" ++
    text "\x7b\"ESP\":\x7b\"name\":\"EasyLog\",\"unit\":0,\"version\":9,\"build\":147,\"sleep\":0,\"ip\":\"" ++
    ipText localIP ++ text "\"\x7d," ++ text "\"SENSOR\":\x7b"

def jsonString (localIP : Nat → UInt8) (realName printValue : Str) : Str :=
  initialjsonString localIP ++ text "\"" ++ decimal 0 ++ text "\":" ++
    (text "\x7b\"deviceName\":\"\",\"valueName\":\"" ++ realName ++ text "\",\"type\":6,\"value\":\"" ++
      printValue ++ text "\"\x7d") ++ text "\x7d\x7d\x7d"

/-- What `FHEMHTTPsend` prints to the client, if it connects. -/
def FHEMHTTPsend (connects : Bool) (url buffer : Str) (s : Globals) : List Str :=
  if connects = true then
    [text "POST " ++ url ++ text " HTTP/1.1\r\n" ++ text "Content-Length: " ++ decimal buffer.length ++
      text "\r\n" ++ text "Host: " ++ fhemIp s ++ text "\r\n" ++ text "Connection: close\r\n\r\n" ++ buffer]
  else []

/-- The requests in the order in which they are sent; `connects` says for which output the controller is reached. -/
def CreateSensorString (localIP : Nat → UInt8) (connects : Nat → Bool) (s : Globals) : List Str :=
  (List.range lenStore).flatMap fun i => queryRealName.flatMap fun name =>
    if (s.ausgabe i).realName.take 20 = (text name).take 20 then
      FHEMHTTPsend (connects i) (text "/ESPEasy")
        (jsonString localIP (s.ausgabe i).realName (s.ausgabe i).printValue) s
    else []

def messages (localIP : Nat → UInt8) (connects : Nat → Bool) (c : UInt32) (io : Readings) (s : Globals) :
    List Str :=
  if TimeLib.minute c % 5 = 0 then CreateSensorString localIP connects (reported c io s) else []

/-- The outputs that the controller is told, in the order of its messages. -/
def reports : List Nat := [0, 2, 3, 5, 6, 7, 8, 9, 10]

theorem queryRealName_asked : ∀ i ∈ List.range lenStore,
    queryRealName.countP (fun name => decide ((realName i).take 20 = (text name).take 20)) =
      if i ∈ reports then 1 else 0 := by
  decide +kernel

theorem queryRealName_letters : ∀ name ∈ queryRealName, ((text name).take 20).any (65 ≤ ·) = true := by
  decide +kernel

theorem reports_letters : ∀ i ∈ reports, ((realName i).any (65 ≤ ·)) = true := by decide +kernel

theorem numeral_letters {s : Str} (numeral : Numeral s) : s.any (65 ≤ ·) = false := by
  rw [List.any_eq_false]
  intro b member large
  have low : b.toNat < 58 := UInt8.lt_iff_toNat_lt.mp (numeral b member).2.1
  have high : 65 ≤ b.toNat := UInt8.le_iff_toNat_le.mp (of_decide_eq_true large)
  omega

/-- The name behind the printed value has not been written over. -/
def Standing (s : Globals) (i : Nat) : Prop := (s.ausgabe i).realName = realName i

instance (s : Globals) (i : Nat) : Decidable (Standing s i) := inferInstanceAs (Decidable (_ = _))

/-- The outputs that are asked for; what a text leaves of a name has no letter. -/
theorem asked (s : Globals) (readable : Readable s) (i : Nat) (known : i ∈ List.range lenStore) :
    queryRealName.countP (fun name => decide ((s.ausgabe i).realName.take 20 = (text name).take 20)) =
      if i ∈ reports ∧ Standing s i then 1 else 0 := by
  rcases (readable i).named with own | damaged
  · rw [own, queryRealName_asked i known]
    exact if_congr (by simp [Standing, own]) rfl rfl
  · have without : ¬(i ∈ reports ∧ Standing s i) := by
      rintro ⟨member, standing⟩
      have letters := reports_letters i member
      rw [← standing, numeral_letters damaged] at letters
      exact absurd letters Bool.false_ne_true
    rw [if_neg without, List.countP_eq_zero]
    intro name member
    have letters := queryRealName_letters name member
    have short : Numeral ((s.ausgabe i).realName.take 20) := fun b part => damaged b (List.mem_of_mem_take part)
    rw [decide_eq_true_eq]
    intro same
    rw [← same, numeral_letters short] at letters
    exact absurd letters Bool.false_ne_true

theorem flatMap_if {α β : Type} (list : List α) (chosen : α → Prop) [DecidablePred chosen] (out : List β) :
    list.flatMap (fun a => if chosen a then out else []) =
      (List.replicate (list.countP fun a => decide (chosen a)) out).flatten := by
  induction list with
  | nil => rfl
  | cons a rest ih =>
    rw [List.flatMap_cons, ih, List.countP_cons]
    by_cases here : chosen a
    · simp [here, List.replicate_succ]
    · simp [here]

theorem flatMap_filter {α β : Type} (list : List α) (chosen : α → Prop) [DecidablePred chosen] (out : α → List β) :
    list.flatMap (fun a => if chosen a then out a else []) =
      (list.filter fun a => decide (chosen a)).flatMap out := by
  induction list with
  | nil => rfl
  | cons a rest ih =>
    rw [List.flatMap_cons, ih, List.filter_cons]
    by_cases here : chosen a
    · simp [here]
    · simp [here]

/-- The outputs of which the controller hears: their names stand, and it is reached for them. -/
def heard (connects : Nat → Bool) (s : Globals) : List Nat :=
  reports.filter fun i => decide (Standing s i) && connects i

theorem CreateSensorString_eq (localIP : Nat → UInt8) (connects : Nat → Bool) (s : Globals)
    (readable : Readable s) :
    CreateSensorString localIP connects s = (heard connects s).flatMap fun i =>
      FHEMHTTPsend true (text "/ESPEasy") (jsonString localIP (realName i) (s.ausgabe i).printValue) s := by
  have each (i : Nat) (member : i ∈ List.range lenStore) : (queryRealName.flatMap fun name =>
      if (s.ausgabe i).realName.take 20 = (text name).take 20 then
        FHEMHTTPsend (connects i) (text "/ESPEasy")
          (jsonString localIP (s.ausgabe i).realName (s.ausgabe i).printValue) s
      else []) = if i ∈ reports ∧ Standing s i ∧ connects i = true then
        FHEMHTTPsend true (text "/ESPEasy") (jsonString localIP (realName i) (s.ausgabe i).printValue) s
      else [] := by
    rw [flatMap_if, asked s readable i member]
    by_cases chosen : i ∈ reports ∧ Standing s i
    · have named : (s.ausgabe i).realName = realName i := chosen.2
      rw [if_pos chosen, List.replicate_one, List.flatten_singleton, named]
      cases reached : connects i
      · rw [if_neg fun all => Bool.false_ne_true all.2.2]
        rfl
      · rw [if_pos ⟨chosen.1, chosen.2, rfl⟩]
    · rw [if_neg chosen, if_neg fun all => chosen ⟨all.1, all.2.1⟩]
      rfl
  have ordered : (List.range lenStore).filter (fun i => decide (i ∈ reports)) = reports := by decide
  have split : (List.range lenStore).filter (fun i => decide (i ∈ reports ∧ Standing s i ∧ connects i = true)) =
      heard connects s := by
    rw [heard, ← ordered, List.filter_filter]
    apply List.filter_congr
    intro i _
    rw [Bool.eq_iff_iff]
    simp only [decide_eq_true_eq, Bool.and_eq_true]
    tauto
  rw [CreateSensorString, List.flatMap_congr each, flatMap_filter, split]

end Messages

section Received

/-- What the controller makes of a request: the name and the text of the value that it reports. -/
def readReport (message : Str) : Option (Str × Str) :=
  let (first, rest) := Parsing.readLine message
  match Parsing.requestLine first with
  | some (.post, uri, _) =>
    let (headers, body) := Parsing.readHeaders Parsing.trimmedValue
      (fun name value lines => lines ++ [(name, value)]) (rest.length + 1) rest []
    if uri = text "/ESPEasy" ∧ (text "Content-Length", decimal body.length) ∈ headers then
      match readJson body.length body with
      | some (json, []) =>
        match json.at [text "data", text "SENSOR", text "0", text "valueName"],
          json.at [text "data", text "SENSOR", text "0", text "value"] with
        | some (.text name), some (.text value) => some (name.text, value.text)
        | _, _ => none
      | _ => none
    else none
  | _ => none

def station (localIP : Nat → UInt8) : Members :=
  .more ⟨text "name", by decide +kernel⟩ (.text ⟨text "EasyLog", by decide +kernel⟩) <|
  .more ⟨text "unit", by decide +kernel⟩ (.number 0) <|
  .more ⟨text "version", by decide +kernel⟩ (.number 9) <|
  .more ⟨text "build", by decide +kernel⟩ (.number 147) <|
  .more ⟨text "sleep", by decide +kernel⟩ (.number 0) <|
  .last ⟨text "ip", by decide +kernel⟩ (.text ⟨ipText localIP, legible_ipText localIP⟩)

def sensor (name value : Plain) : Members :=
  .more ⟨text "deviceName", by decide +kernel⟩ (.text ⟨[], fun _ none => nomatch none⟩) <|
  .more ⟨text "valueName", by decide +kernel⟩ (.text name) <|
  .more ⟨text "type", by decide +kernel⟩ (.number 6) <|
  .last ⟨text "value", by decide +kernel⟩ (.text value)

def report (localIP : Nat → UInt8) (name value : Plain) : Value :=
  .object <| .more ⟨text "module", by decide +kernel⟩ (.text ⟨text "ESPEasy", by decide +kernel⟩) <|
  .more ⟨text "version", by decide +kernel⟩ (.text ⟨text "1.02", by decide +kernel⟩) <|
  .last ⟨text "data", by decide +kernel⟩ <|
  .object <| .more ⟨text "ESP", by decide +kernel⟩ (.object (station localIP)) <|
  .last ⟨text "SENSOR", by decide +kernel⟩ <|
  .object <| .last ⟨text "0", by decide +kernel⟩ <| .object (sensor name value)

def quotes (s : String) : Str := 34 :: (text s ++ [34])

def front : Str := List.flatten
  [[123], quotes "module", [58], quotes "ESPEasy", [44], quotes "version", [58], quotes "1.02", [44],
    quotes "data", [58, 123], quotes "ESP", [58, 123], quotes "name", [58], quotes "EasyLog", [44],
    quotes "unit", [58], decimal 0, [44], quotes "version", [58], decimal 9, [44], quotes "build", [58],
    decimal 147, [44], quotes "sleep", [58], decimal 0, [44], quotes "ip", [58, 34]]

def middle : Str := List.flatten
  [[34, 125, 44], quotes "SENSOR", [58, 123], quotes "0", [58, 123], quotes "deviceName", [58, 34, 34, 44],
    quotes "valueName", [58, 34]]

def behind : Str := List.flatten [[34, 44], quotes "type", [58], decimal 6, [44], quotes "value", [58, 34]]

theorem parts_text :
    front = text "\x7b\"module\":\"ESPEasy\"," ++ text "\"version\":\"1.02\"," ++ text "\"data\":" ++
      text "\x7b\"ESP\":\x7b\"name\":\"EasyLog\",\"unit\":0,\"version\":9,\"build\":147,\"sleep\":0,\"ip\":\"" ∧
    middle = text "\"\x7d," ++ text "\"SENSOR\":\x7b" ++ text "\"" ++ decimal 0 ++ text "\":" ++
      text "\x7b\"deviceName\":\"\",\"valueName\":\"" ∧
    behind = text "\",\"type\":6,\"value\":\"" ∧
    [34, 125, 125, 125, 125] = text "\"\x7d" ++ text "\x7d\x7d\x7d" := by
  decide +kernel

theorem report_render (localIP : Nat → UInt8) (name value : Plain) :
    (report localIP name value).render = jsonString localIP name.text value.text := by
  obtain ⟨start, between, after, last⟩ := parts_text
  have parts : (report localIP name value).render = front ++ (ipText localIP ++ (middle ++ (name.text ++ (behind ++
      (value.text ++ [34, 125, 125, 125, 125]))))) := by
    simp only [report, station, sensor, Value.render, Members.render, Plain.quoted, quotes, front, middle, behind,
      List.flatten_cons, List.flatten_nil, List.append_assoc, List.cons_append, List.nil_append, List.append_nil]
  rw [parts, start, between, after, last, jsonString, initialjsonString]
  simp only [List.append_assoc]

theorem report_at (localIP : Nat → UInt8) (name value : Plain) :
    (report localIP name value).at [text "data", text "SENSOR", text "0", text "valueName"] = some (.text name) ∧
    (report localIP name value).at [text "data", text "SENSOR", text "0", text "value"] = some (.text value) := by
  have apart : text "module" ≠ text "data" ∧ text "version" ≠ text "data" ∧ text "ESP" ≠ text "SENSOR" ∧
      text "deviceName" ≠ text "valueName" ∧ text "deviceName" ≠ text "value" ∧ text "valueName" ≠ text "value" ∧
      text "type" ≠ text "value" := by decide +kernel
  simp only [report, sensor, Value.at, Members.find, apart, if_true, if_false, Option.bind_some, and_self]

def controllerTarget : RequestBytes.Target where
  uri := text "/ESPEasy"
  fields := []
  located := by decide +kernel
  sendable := RequestBytes.sendable_nil

theorem ipText_clean (address : Nat → UInt8) : ∀ b ∈ ipText address, b = 46 ∨ isDigit b = true := by
  have dot : ∀ b ∈ text ".", b = 46 ∨ isDigit b = true := by decide +kernel
  have number (n : Nat) : ∀ b ∈ decimal n, b = 46 ∨ isDigit b = true :=
    fun b member => .inr (decimal_digits n b member)
  intro b member
  simp only [ipText, List.mem_append] at member
  rcases member with (((((first | point) | second) | point) | third) | point) | fourth
  · exact number _ b first
  · exact dot b point
  · exact number _ b second
  · exact dot b point
  · exact number _ b third
  · exact dot b point
  · exact number _ b fourth

def hostHeader (s : Globals) : RequestBytes.Header where
  name := text "Host"
  value := fhemIp s
  named := by decide +kernel
  ended b member := by
    rcases ipText_clean s.fhemHost b member with rfl | digit
    · decide
    · intro mark
      rcases List.mem_cons.mp mark with rfl | mark
      · exact absurd digit (by decide)
      · rw [List.mem_singleton.mp mark] at digit
        exact absurd digit (by decide)
  trimmed := by
    apply RequestBytes.trim_visible
    intro b member
    rcases ipText_clean s.fhemHost b member with rfl | digit
    · decide
    · simp only [isDigit, Bool.and_eq_true, decide_eq_true_eq, UInt8.le_iff_toNat_le] at digit
      have low : 48 ≤ b.toNat := digit.1
      exact UInt8.lt_iff_toNat_lt.mpr (Nat.lt_of_lt_of_le (by decide) low)

def closeHeader : RequestBytes.Header where
  name := text "Connection"
  value := text "close"
  named := by decide +kernel
  ended := by decide +kernel
  trimmed := by decide +kernel

def messageHeaders (length : Nat) (s : Globals) : List RequestBytes.Header :=
  [RequestBytes.SentBody.contentLength length, hostHeader s, closeHeader]

theorem FHEMHTTPsend_lines (buffer : Str) (s : Globals) : FHEMHTTPsend true (text "/ESPEasy") buffer s =
    [RequestBytes.firstText .post controllerTarget (text "HTTP/1.1") ++ (lineEnd ++
      ((messageHeaders buffer.length s).flatMap (fun header => header.line ++ lineEnd) ++
        (lineEnd ++ buffer)))] := by
  have first : text "POST" ++ 32 ::
      (text "/ESPEasy" ++ 32 :: (text "HTTP/1.1" ++ (lineEnd ++ (text "Content-Length" ++ [58, 32])))) =
      text "POST " ++ (text "/ESPEasy" ++ (text " HTTP/1.1\r\n" ++ text "Content-Length: ")) := by decide +kernel
  have second : lineEnd ++ (text "Host" ++ [58, 32]) = text "\r\n" ++ text "Host: " := by decide +kernel
  have third : lineEnd ++ (text "Connection" ++ 58 :: 32 :: (text "close" ++ (lineEnd ++ lineEnd))) =
      text "\r\n" ++ text "Connection: close\r\n\r\n" := by decide +kernel
  have lines : RequestBytes.firstText .post controllerTarget (text "HTTP/1.1") ++ (lineEnd ++
      ((messageHeaders buffer.length s).flatMap (fun header => header.line ++ lineEnd) ++ (lineEnd ++ buffer))) =
      (text "POST" ++ 32 :: (text "/ESPEasy" ++ 32 ::
        (text "HTTP/1.1" ++ (lineEnd ++ (text "Content-Length" ++ [58, 32]))))) ++
        (decimal buffer.length ++ ((lineEnd ++ (text "Host" ++ [58, 32])) ++ (fhemIp s ++
          ((lineEnd ++ (text "Connection" ++ 58 :: 32 :: (text "close" ++ (lineEnd ++ lineEnd)))) ++
          buffer)))) := by
    simp only [RequestBytes.firstText, RequestBytes.methodText, RequestBytes.Target.url, controllerTarget,
      messageHeaders, RequestBytes.Header.line, RequestBytes.SentBody.contentLength, hostHeader, closeHeader,
      List.flatMap_cons, List.flatMap_nil, if_true, List.append_assoc, List.cons_append, List.nil_append]
  rw [lines, first, second, third, FHEMHTTPsend, if_pos rfl]
  simp only [List.append_assoc]

/-- A message is read back as the report that it carries. -/
theorem readReport_message (localIP : Nat → UInt8) (name value : Plain) (s : Globals) :
    (FHEMHTTPsend true (text "/ESPEasy") (jsonString localIP name.text value.text) s).map readReport =
      [some (name.text, value.text)] := by
  have render := report_render localIP name value
  have shown := report_at localIP name value
  generalize buffer : jsonString localIP name.text value.text = body at render
  have deep : (report localIP name value).depth ≤ body.length := by
    have depth : (report localIP name value).depth = 15 := rfl
    have long : 15 ≤ (text "\x7b\"module\":\"ESPEasy\",").length := by decide +kernel
    rw [depth, ← buffer, jsonString, initialjsonString]
    simp only [List.length_append]
    omega
  have json := readJson_render (report localIP name value) body.length deep [] (by simp [Ends])
  rw [List.append_nil, render] at json
  have line := RequestBytes.requestLine_found .post controllerTarget (text "HTTP/1.1")
  have read (rest : Str) :=
    FormBytes.readLine_found (RequestBytes.firstText .post controllerTarget (text "HTTP/1.1")) rest
    (by decide +kernel)
  have heads := RequestBytes.readHeaders_lines Parsing.trimmedValue
    (fun name value lines => lines ++ [(name, value)])
    RequestBytes.Header.trimmed_value (messageHeaders body.length s) body
  have enough := RequestBytes.lines_length (messageHeaders body.length s) body
  have sent : (text "Content-Length", decimal body.length) ∈ (messageHeaders body.length s).foldl
      (fun lines header => lines ++ [(header.name, header.value)]) [] := List.mem_cons_self
  rw [FHEMHTTPsend_lines, List.map_singleton, readReport, read]
  dsimp only
  rw [line]
  dsimp only
  rw [heads _ enough]
  dsimp only
  rw [if_pos ⟨rfl, sent⟩, json]
  dsimp only
  rw [shown.1, shown.2]

theorem reports_legible : ∀ i ∈ reports, Legible (realName i) := by decide +kernel

/-- After every run from power on, the requests of a minute are read back as one report for each output that is
reported, whose name stands and for which the controller is reached, in order, with the text that the output has
then. Where all texts of the run fit, no name of an output that follows the meter is lost. -/
theorem messages_read (boot : Boot) (flash : ByteMemory.Memory) (spiOk : Bool) (files : Spiffs.Files)
    (events : List Event) (localIP : Nat → UInt8) (connects : Nat → Bool) (c : UInt32) (io : Readings) :
    let s := Runs.run step (setup boot (powerOn flash spiOk files)) events
    (messages localIP connects c io s).map readReport = (if TimeLib.minute c % 5 = 0 then
      (heard connects (reported c io s)).map fun i => some (realName i, ((reported c io s).ausgabe i).printValue)
      else []) ∧
    (TimeLib.minute c % 5 = 0 → Buffer.Restorable flash →
      Runs.Along step Buffer.Bounded (setup boot (powerOn flash spiOk files)) (events ++ [.minute c io]) →
      ∀ i ∈ Buffer.printed, Standing (reported c io s) i) := by
  intro s
  refine ⟨?_, fun tick restorable bounded => ?_⟩
  · have readable : Readable s := readable_run boot flash spiOk files events
    have printed := readable_reported c io readable
    have each (list : List Nat) (known : ∀ i ∈ list, i ∈ reports) (s : Globals) (printed : Readable s) :
        (list.flatMap fun i =>
          FHEMHTTPsend true (text "/ESPEasy") (jsonString localIP (realName i) (s.ausgabe i).printValue) s).map
            readReport =
        list.map fun i => some (realName i, (s.ausgabe i).printValue) := by
      induction list with
      | nil => rfl
      | cons i rest ih =>
        have one := readReport_message localIP ⟨realName i, reports_legible i (known i List.mem_cons_self)⟩
          ⟨(s.ausgabe i).printValue, (printed i).legible⟩ s
        rw [List.flatMap_cons, List.map_append, one, ih fun j member => known j (List.mem_cons_of_mem _ member)]
        rfl
    unfold messages
    split
    · rw [CreateSensorString_eq _ _ _ printed]
      exact each _ (fun i member => (List.mem_filter.mp member).1) _ printed
    · rfl
  · obtain ⟨fits, between⟩ :=
      (Buffer.texts_fit_iff boot flash spiOk files (events ++ [.minute c io])).mpr ⟨restorable, bounded⟩
    have last := fits.last
    rw [Runs.run_append] at last
    have named := named_run boot flash spiOk files events (Runs.throughout_append.mp fits).1
      (Runs.along_append.mp between).1
    exact named_reported c io s tick named last

/-- An offset of 10^9 kWh, printed in fifteen characters, leaves nothing of its name: the reading is reported no
more. -/
theorem reading_unheard (connects : Nat → Bool) (c : UInt32) (io : Readings) :
    10 ∉ heard connects (reported c io (Runs.run step (setup (steady 1546329600) (powerOn (fun _ => 0) true []))
      [Offset.submission "1000000000"])) := by
  obtain ⟨value, offset⟩ := Offset.blank_meter (steady 1546329600)
  rw [Runs.run_cons, Runs.run_nil]
  generalize setup (steady 1546329600) (powerOn (fun _ => 0) true []) = s at value offset ⊢
  have outcome := Offset.tally_submission "1000000000" (by decide +kernel) s 0
  have stored : step s (Offset.submission "1000000000") = setOffset (text "1000000000") s :=
    congrArg Prod.fst outcome
  have differs : ¬(toFloat (text "1000000000") == s.offset) = true := by
    rw [offset]
    decide +kernel
  have meter := (Texts.setOffset_meter s (text "1000000000") differs).1
  rw [value] at meter
  have lost : Numeral ((setOffset (text "1000000000") s).ausgabe 10).realName := by
    have long : ¬(dtostrf (ExactFloat.toDouble (0 + toFloat (text "1000000000") * 1000)) 2 2).length < 15 := by
      decide +kernel
    have rest :
        Numeral ((dtostrf (ExactFloat.toDouble (0 + toFloat (text "1000000000") * 1000)) 2 2).drop 15) := by
      decide +kernel
    rw [meter, Texts.shown_name, ValueStore.overrun, if_neg long]
    exact rest
  have after := (once_reported c io _ 10 (by decide) (by decide)).lost lost
  rw [stored]
  intro member
  have standing : Standing _ 10 := of_decide_eq_true (Bool.and_eq_true_iff.mp (List.mem_filter.mp member).2).1
  have letters := reports_letters 10 (by decide)
  rw [← standing, numeral_letters after] at letters
  exact Bool.false_ne_true letters

end Received
end EspLog.FhemMessages

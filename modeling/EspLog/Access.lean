import EspLog.Files

/-! What a request without credentials can change: the setup page and the file page ask for
them, the upload callback does not. -/

namespace EspLog.Access
open CText Sketch Functions Websites WebServer Loop Spiffs Files

section Denied
variable (isFile : Str → Bool) (tmp : UInt32) (request : Request) (boot : Setup.Boot)

/-- Settings, yields and EEPROM as before, and at most the log grew. -/
structure Unchanged (before after : Globals) : Prop where
  impulseProKwh : after.impulseProKwh = before.impulseProKwh
  compensation : after.compensation = before.compensation
  generatorLeistung : after.generatorLeistung = before.generatorLeistung
  offset : after.offset = before.offset
  interval : after.interval = before.interval
  fhemPort : after.fhemPort = before.fhemPort
  fhemHost : after.fhemHost = before.fhemHost
  tagesCounter : after.tagesCounter = before.tagesCounter
  ausgabe : after.ausgabe = before.ausgabe
  eeprom : after.eeprom = before.eeprom
  files : LogOnly before.spiffs after.spiffs

theorem Unchanged.refl (s : Globals) : Unchanged s s :=
  ⟨rfl, rfl, rfl, rfl, rfl, rfl, rfl, rfl, rfl, rfl, .refl _⟩

/-- A POST of a form with a file to the upload route. -/
def UploadsFile : Prop :=
  Uploads request ∧ ∃ parts, request.body = .form parts ∧
    ∃ filename chunks complete, .file filename chunks complete ∈ parts

theorem parseForm_fieldsOnly (query : Arguments) (parts : List Part)
    (filesless : ∀ filename chunks complete, .file filename chunks complete ∉ parts) (fields : Arguments)
    (s : Globals) :
    (parseForm true query parts fields s).2 = s := by
  induction parts generalizing fields with
  | nil => rfl
  | cons part rest ih =>
    cases part with
    | field name value => exact ih (fun filename chunks complete member =>
        filesless filename chunks complete (List.mem_cons_of_mem _ member)) _
    | file filename chunks complete => exact absurd List.mem_cons_self (filesless filename chunks complete)

def oneFile (path old : Str) : Globals := powerOn (fun _ => 0) true [(path, old)]

theorem parseForm_forgets (query : Arguments) (parts : List Part)
    (some : ∃ filename chunks complete, .file filename chunks complete ∈ parts) :
    ∃ path, ∀ fields first second,
      (parseForm true query parts fields (oneFile path first)).2 =
        (parseForm true query parts fields (oneFile path second)).2 := by
  induction parts with
  | nil =>
    obtain ⟨_, _, _, member⟩ := some
    cases member
  | cons part rest ih =>
    cases part with
    | field name value =>
      have later : ∃ filename chunks complete, .file filename chunks complete ∈ rest := by
        obtain ⟨filename, chunks, complete, member⟩ := some
        exact ⟨filename, chunks, complete, by simpa using member⟩
      obtain ⟨path, forgets⟩ := ih later
      exact ⟨path, fun fields first second => forgets _ first second⟩
    | file filename chunks complete =>
      refine ⟨uploadPath (partName query filename), fun fields first second => ?_⟩
      have started : handleFileUpload query (oneFile (uploadPath (partName query filename)) first)
          (.start (partName query filename)) =
          handleFileUpload query (oneFile (uploadPath (partName query filename)) second)
            (.start (partName query filename)) := by
        simp [handleFileUpload, oneFile, powerOn, rewrite]
      have uploaded : (uploadEvents (partName query filename) chunks complete).foldl (handleFileUpload query)
          (oneFile (uploadPath (partName query filename)) first) =
          (uploadEvents (partName query filename) chunks complete).foldl (handleFileUpload query)
            (oneFile (uploadPath (partName query filename)) second) := by
        rw [uploadEvents, List.cons_append, List.foldl_cons, List.foldl_cons, started]
      simp only [parseForm, if_true, uploaded]

theorem upload_route (uploads : Uploads request) :
    routeOf isFile request = some (.function (text "/upload") (some .post) .upload) := by
  have root : (text "/upload" == text "/") = false := by decide
  have json : (text "/upload" == text "/V") = false := by decide
  have ertrag : (text "/upload" == text "/ertrag.html") = false := by decide
  have setup : (text "/upload" == text "/setup.html") = false := by decide
  have spiffs : (text "/upload" == text "/spiffs.html") = false := by decide
  simp [routeOf, routes, uploads.1, uploads.2, canHandle, root, json, ertrag, setup, spiffs]

theorem Unchanged.length_le {before after : Globals} (unchanged : Unchanged before after) (path : Str) :
    ((content path before.spiffs).getD []).length ≤ ((content path after.spiffs).getD []).length := by
  by_cases log : path = logPath
  · rw [log]
    exact unchanged.files.log.length_le
  · rw [unchanged.files.other path log]

theorem step_denied (denied : request.authorized = false) (s : Globals) :
    step s (.request isFile tmp request boot) = (handleRequest isFile tmp request s).sketch := by
  obtain ⟨outcome, same, effect⟩ := handleRequest_outcome isFile tmp request s
  rw [step_request, same]
  cases effect with
  | setup args called => simp [setupArgs, denied] at called
  | _ => rfl

theorem unchanged_of_denied (denied : request.authorized = false) (noUpload : ¬UploadsFile request) (s : Globals) :
    Unchanged s (handleRequest isFile tmp request s).sketch := by
  obtain ⟨outcome, same, effect⟩ := handleRequest_outcome isFile tmp request s
  rw [same]
  cases effect with
  | setup args called => simp [setupArgs, denied] at called
  | spiffs args called other => simp [spiffsArgs, denied] at called
  | upload parts uploads body other =>
    have filesless : ∀ filename chunks complete, .file filename chunks complete ∉ parts :=
      fun filename chunks complete member => noUpload ⟨uploads, parts, body, filename, chunks, complete, member⟩
    rw [parseForm_fieldsOnly request.query parts filesless [] s]
    exact .refl s
  | json other => exact ⟨rfl, rfl, rfl, rfl, rfl, rfl, rfl, rfl, rfl, rfl, logOnly_write2logfile _ s⟩
  | nothing other => exact .refl s

/-- A request without credentials leaves everything but the log unchanged exactly when it is
not a POST of a file to the upload route. -/
theorem denied_unchanged_iff (denied : request.authorized = false) :
    (∀ s, Unchanged s (step s (.request isFile tmp request boot))) ↔ ¬UploadsFile request := by
  constructor
  · intro unchanged found
    obtain ⟨uploads, parts, body, file⟩ := found
    obtain ⟨path, forgets⟩ := parseForm_forgets request.query parts file
    have after (old : Str) : step (oneFile path old) (.request isFile tmp request boot) =
        (parseForm true request.query parts [] (oneFile path [])).2 := by
      have outcome := handleRequest_upload isFile tmp request (oneFile path old)
        (upload_route isFile request uploads) uploads
      rw [body] at outcome
      rw [step_denied isFile tmp request boot denied, outcome, ← forgets [] old []]
    -- a file longer than what the upload leaves at its path
    have long := (unchanged (oneFile path (List.replicate (((content path
      (parseForm true request.query parts [] (oneFile path [])).2.spiffs).getD []).length + 1) 0))).length_le path
    rw [after] at long
    simp [oneFile, powerOn, content] at long
  · intro noUpload s
    rw [step_denied isFile tmp request boot denied]
    exact unchanged_of_denied isFile tmp request denied noUpload s

end Denied

section Examples

/-- Without credentials the setup page does not erase the table. -/
theorem clrrom_denied : Unchanged (Storage.blank 0xFF) (step (Storage.blank 0xFF)
    (.request (fun _ => true) 0 ⟨.post, text "/setup.html", [], .plain [(text "clrrom", text "1")], false⟩
      ⟨0, fun _ _ => 0, ⟨0, 0, 0⟩⟩)) := by
  refine (denied_unchanged_iff _ 0 _ _ rfl).mpr ?_ (Storage.blank 0xFF)
  intro found
  obtain ⟨_, parts, body, _⟩ := found
  cases body

/-- Without credentials anyone can replace the archive. -/
theorem archive_uploaded : ¬Unchanged (oneFile backupPath (text "1,0")) (step (oneFile backupPath (text "1,0"))
    (.request (fun _ => true) 0
      ⟨.post, text "/upload", [], .form [.file (text "backup.csv") [text "1,9"] true], false⟩
      ⟨0, fun _ _ => 0, ⟨0, 0, 0⟩⟩)) := by
  intro unchanged
  have archive := unchanged.files.other backupPath (by decide)
  revert archive
  decide

end Examples
end EspLog.Access

import EspLog.Storage

/-! Which operations touch which files. Most only append to the log; the archive is
rewritten by `backup2file` alone, and other files change on the file pages only. -/

namespace EspLog.Files
open CText Sketch Functions Websites WebServer Effects Loop Setup Spiffs

section LogOnly

/-- At most the log grew. -/
structure LogOnly (before after : Spiffs.Files) : Prop where
  other : ∀ path, path ≠ logPath → content path after = content path before
  log : (content logPath before).getD [] <+: (content logPath after).getD []

theorem LogOnly.refl (files : Spiffs.Files) : LogOnly files files := ⟨fun _ _ => rfl, List.prefix_rfl⟩

theorem LogOnly.trans {first second third : Spiffs.Files} (before : LogOnly first second)
    (after : LogOnly second third) :
    LogOnly first third :=
  ⟨fun path ne => (after.other path ne).trans (before.other path ne), before.log.trans after.log⟩

theorem logOnly_append (files : Spiffs.Files) (more : Str) : LogOnly files (Spiffs.append logPath more files) where
  other path ne := content_append_of_ne _ _ _ _ ne
  log := by
    rw [content_append]
    exact List.prefix_append _ _

theorem logOnly_write2logfile (logtext : Str) (s : Globals) : LogOnly s.spiffs (write2logfile logtext s).spiffs :=
  logOnly_append _ _

end LogOnly

section Start
variable (s : Globals)

theorem logOnly_setupNtp (c : UInt32) : LogOnly s.spiffs (setupNtp c s).spiffs := by
  simp only [setupNtp, localTime_eq, write2logfile]
  exact ((logOnly_append _ _).trans (logOnly_append _ _)).trans (logOnly_append _ _)

theorem logOnly_restoreSettings (floatTmp : Float32) : LogOnly s.spiffs (restoreSettings floatTmp s).1.spiffs := by
  simp only [restoreSettings, restoreZaehlerkonstante, restoreVerguetung, restoreGeneratorleistung,
    restoreZaehleroffset, restoreSimulation, restoreFhemPort, restoreFhemHost, restoreLog, write2logfile,
    Globals.setValue, Globals.setPrint, Restart.restoreHostBytes_eq]
  exact ((((((logOnly_append _ _).trans (logOnly_append _ _)).trans (logOnly_append _ _)).trans
    (logOnly_append _ _)).trans (logOnly_append _ _)).trans (logOnly_append _ _)).trans (logOnly_append _ _)

theorem logOnly_restoreTexts (floatTmp : Float32) : LogOnly s.spiffs (restoreTexts floatTmp s).spiffs :=
  Restart.restoreTexts_keeps (fun after => LogOnly s.spiffs after.spiffs) (fun _ _ _ _ before => before)
    (fun _ _ before => before) (fun after logtext before => before.trans (logOnly_write2logfile logtext after))
    floatTmp s (.refl _)

theorem logOnly_setup (boot : Boot) : LogOnly s.spiffs (setup boot s).spiffs := by
  have ntp := logOnly_setupNtp s boot.clock
  have names := (Restart.setupStructAusgabe_filled (setupNtp boot.clock s) boot.io).spiffs
  have begins : LogOnly s.spiffs (Restart.begun boot s).spiffs :=
    (ntp.trans (names ▸ LogOnly.refl _)).trans (logOnly_append _ _)
  have table := (Restart.restoreTable_filled boot.now (Restart.begun boot s)).spiffs
  have settings : LogOnly (Restart.begun boot s).spiffs (Restart.settled boot s).1.spiffs :=
    (table ▸ LogOnly.refl _ : LogOnly _ _).trans (logOnly_restoreSettings _ _)
  have texts := logOnly_restoreTexts (Restart.settled boot s).1 (Restart.settled boot s).2
  exact ((begins.trans settings).trans texts).trans (logOnly_append _ _)

end Start

section Pages
variable (value : Str) (s : Globals)

theorem logOnly_stores (before after : Globals) (stores : StoresSetting before after) :
    LogOnly before.spiffs after.spiffs := by
  obtain ⟨line, logged⟩ := stores.logged
  rw [logged]
  exact logOnly_append _ _

theorem logOnly_clearTable : LogOnly s.spiffs (clearTable s).spiffs := by
  have files : (clearTable s).spiffs = (write2logfile (text "Tageswerte im Flash geloescht") s).spiffs := by
    simp only [clearTable, deleteRAM, deleteEEPROM_eq, Globals.setValue, Globals.setPrint]
  rw [files]
  exact logOnly_append _ _

theorem logOnly_setupArguments (tmp : UInt32) (args rest : Arguments) (s : Globals)
    (unsaved : ¬Storage.given "backup" rest) :
    LogOnly s.spiffs (setupArguments tmp args rest s).sketch.spiffs := by
  apply setupArguments_rule (fun before after => LogOnly before.spiffs after.spiffs) (fun s => .refl s.spiffs)
    LogOnly.trans
    logOnly_write2logfile
  intro entry member filled s
  apply setupArgument_rule (fun before after => LogOnly before.spiffs after.spiffs) (fun s => .refl s.spiffs)
    LogOnly.trans
    logOnly_stores
  · exact fun named => absurd ⟨entry.2, named ▸ member, filled⟩ unsaved
  · exact fun _ => logOnly_clearTable

/-- A delete request that names a file, as the file page compares names. -/
def deletes (path : Str) (args : Arguments) : Prop :=
  hasArg (text "Delete") args = true ∧ arg (text "file") args = encodeName path

theorem handleSpiffs_content (args : Arguments) (path : Str) (ne : path ≠ logPath) (kept : ¬deletes path args) :
    content path (handleSpiffs args s).spiffs = content path s.spiffs := by
  unfold handleSpiffs
  split
  · rename_i asked
    split
    · rename_i name old found
      have matched : arg (text "file") args = encodeName name := by simpa using List.find?_some found
      have different : path ≠ name := fun same => kept ⟨asked, same ▸ matched⟩
      have logged := (logOnly_write2logfile (text "Datei " ++ name ++ text " geloescht")
        { s with spiffs := Spiffs.remove name s.spiffs }).other path ne
      exact logged.trans (content_remove_of_ne _ _ _ different)
    · rfl
  · rfl

theorem upload_content (args : Arguments) (path : Str) (ne : path ≠ logPath) (kept : ¬deletes path args)
    (filename : Str) (chunks : List Str) (complete : Bool) (elsewhere : uploadPath filename ≠ path) :
    content path ((uploadEvents filename chunks complete).foldl (handleFileUpload args) s).spiffs =
      content path s.spiffs := by
  -- while the file is open, the chunks go behind its own content
  have writing (chunks : List Str) (s : Globals) (isOpen : s.fsUploadFile = some (uploadPath filename)) :
      content path ((chunks.map UploadEvent.write).foldl (handleFileUpload args) s).spiffs =
      content path s.spiffs := by
    induction chunks generalizing s with
    | nil => rfl
    | cons chunk rest ih =>
      have one : content path (handleFileUpload args s (.write chunk)).spiffs = content path s.spiffs := by
        simp only [handleFileUpload, isOpen]
        exact content_append_of_ne _ _ _ _ elsewhere.symm
      have still : (handleFileUpload args s (.write chunk)).fsUploadFile = some (uploadPath filename) := by
        simp only [handleFileUpload, isOpen]
      rw [List.map_cons, List.foldl_cons, ih _ still, one]
  have started : content path (handleFileUpload args s (.start filename)).spiffs = content path s.spiffs :=
    content_rewrite_of_ne _ _ _ _ elsewhere.symm
  rw [uploadEvents, List.cons_append, List.foldl_cons, List.foldl_append]
  have written := (writing chunks (handleFileUpload args s (.start filename)) rfl).trans started
  generalize (chunks.map UploadEvent.write).foldl (handleFileUpload args)
    (handleFileUpload args s (.start filename)) = after
    at written ⊢
  cases complete with
  | false => exact written
  | true =>
    have logged := (logOnly_write2logfile (text "Neue Datei gespeichert: " ++ filename) after).other path ne
    exact (handleSpiffs_content _ args path ne kept).trans (logged.trans written)

theorem parseForm_content (query : Arguments) (path : Str) (ne : path ≠ logPath) (kept : ¬deletes path query)
    (parts : List Part) (fields : Arguments) (s : Globals)
    (elsewhere : ∀ filename chunks complete, .file filename chunks complete ∈ parts →
      uploadPath (partName query filename) ≠ path) :
    content path (parseForm true query parts fields s).2.spiffs = content path s.spiffs := by
  induction parts generalizing fields s with
  | nil => rfl
  | cons part rest ih =>
    have later := fun filename chunks complete member =>
      elsewhere filename chunks complete (List.mem_cons_of_mem part member)
    cases part with
    | field name value => exact ih _ _ later
    | file filename chunks complete =>
      have here := upload_content s query path ne kept (partName query filename) chunks complete
        (elsewhere filename chunks complete List.mem_cons_self)
      cases complete with
      | true => exact (ih _ _ later).trans here
      | false => exact here

end Pages
end EspLog.Files

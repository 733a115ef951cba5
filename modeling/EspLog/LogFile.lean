import EspLog.Archive
import EspLog.Uploads

/-! The log over the life of a device. Every event appends to it at most, but for the requests that delete it or
are uploaded in its place. -/

namespace EspLog.LogFile
open CText Sketch Functions TimeLib Websites WebServer Effects Loop Spiffs Files Uploads

section Growth

/-- The log begins with what it held before. -/
def Grows (before after : Globals) : Prop :=
  (content logPath before.spiffs).getD [] <+: (content logPath after.spiffs).getD []

theorem Grows.refl (s : Globals) : Grows s s := List.prefix_rfl

theorem Grows.trans {first second third : Globals} (before : Grows first second)
    (after : Grows second third) : Grows first third :=
  List.IsPrefix.trans before after

theorem grows_of_same {before after : Globals}
    (same : content logPath after.spiffs = content logPath before.spiffs) : Grows before after := by
  rw [Grows, same]

theorem grows_of_logOnly {before after : Globals} (logOnly : LogOnly before.spiffs after.spiffs) :
    Grows before after :=
  logOnly.log

theorem grows_write2logfile (logtext : Str) (s : Globals) : Grows s (write2logfile logtext s) :=
  grows_of_logOnly (logOnly_write2logfile logtext s)

theorem logPath_ne_backupPath : logPath ≠ backupPath := by decide

theorem grows_backup2file (tmp : UInt32) (s : Globals) : Grows s (backup2file tmp s) :=
  grows_of_same (content_rewrite_of_ne _ _ _ _ logPath_ne_backupPath)

theorem grows_everyMinute (c : UInt32) (io : Readings) (s : Globals) : Grows s (everyMinute c io s) := by
  by_cases tick : minute c % 5 = 0
  · by_cases midnight : Midnight (localClock c)
    · rw [everyMinute_newDay c io s tick midnight]
      apply grows_of_same
      dsimp only
      split
      · exact content_rewrite_of_ne _ _ _ _ logPath_ne_backupPath
      · rfl
    · rw [everyMinute_sameDay c io s tick midnight]
      exact Grows.refl s
  · rw [everyMinute_idle c io s tick]
    exact Grows.refl s

theorem grows_handleSetup (tmp : UInt32) (args : Arguments) (s : Globals) :
    Grows s (handleSetup tmp args s).sketch := by
  apply setupArguments_rule Grows Grows.refl Grows.trans grows_write2logfile
  intro entry _ _ s
  apply setupArgument_rule Grows Grows.refl Grows.trans
  · exact fun before after stores => grows_of_logOnly (logOnly_stores before after stores)
  · exact fun _ s => (grows_write2logfile _ s).trans (grows_backup2file tmp _)
  · exact fun _ s => grows_of_logOnly (logOnly_clearTable s)

theorem grows_handleSpiffs (args : Arguments) (kept : ¬deletes logPath args) (s : Globals) :
    Grows s (handleSpiffs args s) := by
  unfold handleSpiffs
  split
  · rename_i asked
    split
    · rename_i name old found
      have matched : arg (text "file") args = encodeName name := by simpa using List.find?_some found
      have different : logPath ≠ name := fun same => kept ⟨asked, same ▸ matched⟩
      have removed : Grows s { s with spiffs := Spiffs.remove name s.spiffs } :=
        grows_of_same (content_remove_of_ne _ _ _ different)
      exact removed.trans (grows_write2logfile _ _)
    · exact Grows.refl s
  · exact Grows.refl s

theorem grows_chunks (args : Arguments) (path : Str) (other : logPath ≠ path) (chunks : List Str) (s : Globals)
    (isOpen : s.fsUploadFile = some path) :
    Grows s ((chunks.map UploadEvent.write).foldl (handleFileUpload args) s) := by
  induction chunks generalizing s with
  | nil => exact Grows.refl s
  | cons chunk rest ih =>
    have written : handleFileUpload args s (.write chunk) =
        { s with spiffs := Spiffs.append path chunk s.spiffs } := by
      simp only [handleFileUpload, isOpen]
    have one : Grows s { s with spiffs := Spiffs.append path chunk s.spiffs } :=
      grows_of_same (content_append_of_ne _ _ _ _ other)
    rw [List.map_cons, List.foldl_cons, written]
    exact one.trans (ih _ isOpen)

theorem grows_upload (session : Session) (kept : ¬deletes logPath session.query)
    (other : logPath ≠ uploadPath session.filename) (s : Globals) : Grows s (upload s session) := by
  have started : Grows s (handleFileUpload session.query s (.start session.filename)) :=
    grows_of_same (content_rewrite_of_ne _ _ _ _ other)
  have arrived : Grows s (received s session) :=
    started.trans (grows_chunks session.query _ other session.chunks _ rfl)
  rw [upload_eq]
  split
  · have logged : Grows s (closed s session) := arrived.trans (grows_write2logfile _ (received s session))
    exact logged.trans (grows_handleSpiffs session.query kept _)
  · exact arrived

theorem grows_parseForm (query : Arguments) (kept : ¬deletes logPath query) (parts : List Part)
    (fields : Arguments) (elsewhere : ∀ filename chunks complete, .file filename chunks complete ∈ parts →
      uploadPath (partName query filename) ≠ logPath) (s : Globals) :
    Grows s (parseForm true query parts fields s).2 := by
  induction parts generalizing fields s with
  | nil => exact Grows.refl s
  | cons part rest ih =>
    have later := fun filename chunks complete member =>
      elsewhere filename chunks complete (List.mem_cons_of_mem part member)
    cases part with
    | field name value => exact ih _ later s
    | file filename chunks complete =>
      have here := grows_upload ⟨query, partName query filename, chunks, complete⟩ kept
        (elsewhere filename chunks complete List.mem_cons_self).symm s
      cases complete with
      | true => exact here.trans (ih _ later _)
      | false => exact here

end Growth

section Run

/-- The requests by which a user takes the log away: its deletion, or an upload under its name. -/
def TakesLog (request : Request) : Prop :=
  (∃ args, spiffsArgs request = some args ∧ deletes logPath args) ∨
  (Uploads request ∧ ∃ parts, request.body = .form parts ∧ (deletes logPath request.query ∨
    ∃ filename chunks complete, .file filename chunks complete ∈ parts ∧
      uploadPath (partName request.query filename) = logPath))

def LeavesLog : Event → Prop
  | .request _ _ request _ => ¬TakesLog request
  | _ => True

theorem grows_step (s : Globals) (event : Event) (leaves : LeavesLog event) : Grows s (step s event) := by
  cases event with
  | pulse => exact Grows.refl s
  | minute c io => exact grows_everyMinute c io s
  | restart boot => exact grows_of_logOnly (logOnly_setup s.restart boot)
  | request isFile tmp request boot =>
    have left : ¬TakesLog request := leaves
    obtain ⟨outcome, same, effect⟩ := handleRequest_outcome isFile tmp request s
    rw [step_request, same]
    have after : Grows s outcome.sketch := by
      cases effect with
      | setup args called => exact grows_handleSetup tmp args s
      | spiffs args called other =>
        exact grows_handleSpiffs args (fun deleted => left (.inl ⟨args, called, deleted⟩)) s
      | upload parts uploads body other =>
        apply grows_parseForm
        · exact fun deleted => left (.inr ⟨uploads, parts, body, .inl deleted⟩)
        · intro filename chunks complete member same
          exact left (.inr ⟨uploads, parts, body, .inr ⟨filename, chunks, complete, member, same⟩⟩)
      | json other => exact grows_write2logfile _ s
      | nothing other => exact Grows.refl s
    split
    · exact after.trans (grows_of_logOnly (logOnly_setup outcome.sketch.restart boot))
    · exact after

/-- Whatever happens to the device, also a new year, an erased table or a restart, the log keeps what it holds, as
long as no request takes it away. -/
theorem log_kept (s : Globals) (events : List Event) (leaves : ∀ event ∈ events, LeavesLog event) :
    Runs.Throughout step (fun later => Grows s later) s events := by
  have keeps (later : Globals) (event : Event) (kept : Grows s later) (left : LeavesLog event) :
      Grows s (step later event) :=
    kept.trans (grows_step later event left)
  exact Runs.throughout_of_invariant keeps events s (Grows.refl s) (Runs.Along.of_mem leaves)

theorem visit_leavesLog (isFile : Str → Bool) (tmp : UInt32) (boot : Setup.Boot) :
    LeavesLog (.request isFile tmp ⟨.get, text "/V", [], .plain [], false⟩ boot) := by
  intro takes
  rcases takes with ⟨args, called, deleted⟩ | ⟨uploads, form⟩
  · simp [spiffsArgs] at called
  · cases uploads.1

/-- New Year 2019 after a pulse, a visitor, and a restart. -/
theorem log_kept_at_newYear : Runs.Throughout step (fun later => Grows (Storage.blank 0) later) (Storage.blank 0)
    [.pulse, .minute 1546300800 ⟨3300, -60, 0⟩,
      .request (fun _ => false) 0 ⟨.get, text "/V", [], .plain [], false⟩ ⟨1546300860, fun _ _ => 1546300860,
        ⟨3300, -60, 0⟩⟩,
      .restart ⟨1546300860, fun _ _ => 1546300860, ⟨3300, -60, 0⟩⟩] := by
  apply log_kept
  simp only [List.forall_mem_cons]
  exact ⟨trivial, trivial, visit_leavesLog _ _ _, trivial, List.forall_mem_nil _⟩

end Run
end EspLog.LogFile

import EspLog.Deletion

/-! What an upload leaves behind. A session opens its file anew and closes it at its end, so that nothing of
an earlier session gets in; but its end also runs the file page, which may delete. -/

namespace EspLog.Uploads
open CText Sketch Functions Websites WebServer Spiffs Files Deletion

section Path
variable (filename : Str)

def lastPart : Str := filename.drop (filename.length - min 30 filename.length)

theorem lastPart_length : (lastPart filename).length = min 30 filename.length := by
  rw [lastPart, List.length_drop]
  omega

theorem uploadPath_eq : uploadPath filename =
    if (lastPart filename).head? = some 47 then lastPart filename else 47 :: lastPart filename := by
  have cut : (if filename.length > 30 then filename.drop (filename.length - 30) else filename) =
      lastPart filename := by
    unfold lastPart
    split
    · rename_i long
      rw [Nat.min_eq_left (by omega)]
    · rename_i short
      rw [Nat.min_eq_right (by omega), Nat.sub_self, List.drop_zero]
  unfold uploadPath
  rw [cut]

/-- A path begins with a slash, is short enough for the file system, and ends as the name does. -/
structure PathLaw (path : Str) : Prop where
  slash : path.head? = some 47
  short : path.length ≤ 31
  name : lastPart filename <:+ path

theorem uploadPath_law : PathLaw filename (uploadPath filename) := by
  have size := lastPart_length filename
  rw [uploadPath_eq]
  split
  · rename_i leading
    exact ⟨leading, by omega, List.suffix_refl _⟩
  · refine ⟨rfl, ?_, List.suffix_cons _ _⟩
    rw [List.length_cons]
    omega

end Path

section Sessions

/-- One file sent to `/upload`: the arguments of its request, its name, and what arrives of it. -/
structure Session where
  query : Arguments
  filename : Str
  chunks : List Str
  complete : Bool

variable (s : Globals) (session : Session)

def upload : Globals :=
  (uploadEvents session.filename session.chunks session.complete).foldl (handleFileUpload session.query) s

/-- The state in which all chunks have arrived. -/
def received : Globals := (session.chunks.map UploadEvent.write).foldl (handleFileUpload session.query)
  (handleFileUpload session.query s (.start session.filename))

/-- The state in which the end of a session comes to the file page. -/
def closed : Globals :=
  { write2logfile (text "Neue Datei gespeichert: " ++ session.filename) (received s session) with
    fsUploadFile := none }

theorem upload_eq : upload s session =
    if session.complete = true then handleSpiffs session.query (closed s session) else received s session := by
  rw [upload, uploadEvents, List.cons_append, List.foldl_cons, List.foldl_append]
  split <;> rfl

theorem chunks_content (query : Arguments) (path held : Str) (chunks : List Str) (s : Globals)
    (isOpen : s.fsUploadFile = some path) (holds : content path s.spiffs = some held) :
    content path ((chunks.map UploadEvent.write).foldl (handleFileUpload query) s).spiffs =
      some (held ++ chunks.flatten) := by
  induction chunks generalizing s held with
  | nil => rw [List.flatten_nil, List.append_nil]; exact holds
  | cons chunk rest ih =>
    have written : handleFileUpload query s (.write chunk) = { s with spiffs := append path chunk s.spiffs } := by
      simp only [handleFileUpload, isOpen]
    have longer : content path (append path chunk s.spiffs) = some (held ++ chunk) := by
      rw [content_append, holds, Option.getD_some]
    rw [List.map_cons, List.foldl_cons, written, List.flatten_cons, ← List.append_assoc]
    exact ih (held ++ chunk) _ isOpen longer

theorem received_content :
    content (uploadPath session.filename) (received s session).spiffs = some session.chunks.flatten := by
  have empty : content (uploadPath session.filename)
      (handleFileUpload session.query s (.start session.filename)).spiffs =
      some [] := content_rewrite _ _ _
  have all := chunks_content session.query _ [] session.chunks _ rfl empty
  rwa [List.nil_append] at all

theorem closed_content (other : uploadPath session.filename ≠ logPath) :
    content (uploadPath session.filename) (closed s session).spiffs = some session.chunks.flatten :=
  (content_append_of_ne _ _ _ _ other).trans (received_content s session)

/-- The request asks for a deletion, and the new file is the first that it matches. -/
def DeletesItself : Prop := hasArg (text "Delete") session.query = true ∧
  (firstMatch (arg (text "file") session.query) (closed s session).spiffs).map Prod.fst =
  some (uploadPath session.filename)

instance : Decidable (DeletesItself s session) := inferInstanceAs (Decidable (_ ∧ _))

theorem handleSpiffs_path (args : Arguments) (path : Str) (other : path ≠ logPath) (s : Globals) :
    content path (handleSpiffs args s).spiffs =
      if hasArg (text "Delete") args = true ∧
        (firstMatch (arg (text "file") args) s.spiffs).map Prod.fst = some path then none
      else content path s.spiffs := by
  by_cases asked : hasArg (text "Delete") args = true
  · simp only [asked, true_and]
    rcases found : firstMatch (arg (text "file") args) s.spiffs with _ | file
    · rw [handleSpiffs_none args s asked found]
      rfl
    · have after := congrArg (fun s : Globals => content path s.spiffs) (handleSpiffs_some args s asked file found)
      have logged : content path (handleSpiffs args s).spiffs = content path (remove file.1 s.spiffs) :=
        after.trans (content_append_of_ne _ _ _ _ other)
      simp only [logged, Option.map_some, Option.some.injEq]
      by_cases same : file.1 = path
      · rw [if_pos same, same, content_remove_self]
      · rw [if_neg same, content_remove_of_ne _ _ _ fun here => same here.symm]
  · have kept : handleSpiffs args s = s := if_neg asked
    rw [kept, if_neg fun both => asked both.1]

/-- After its end the file of a session holds its chunks, and nothing else. -/
structure Intact (before : Globals) (session : Session) : Prop where
  path : PathLaw session.filename (uploadPath session.filename)
  content : session.complete = true → uploadPath session.filename ≠ logPath →
    content (uploadPath session.filename) (upload before session).spiffs = some session.chunks.flatten

/-- The same, but for a request that also deletes the file. -/
structure Stored (before : Globals) (session : Session) : Prop where
  path : PathLaw session.filename (uploadPath session.filename)
  content : session.complete = true → uploadPath session.filename ≠ logPath →
    Spiffs.content (uploadPath session.filename) (upload before session).spiffs =
      if DeletesItself before session then none else some session.chunks.flatten

theorem stored : Stored s session where
  path := uploadPath_law session.filename
  content complete other := by
    rw [upload_eq, if_pos complete, handleSpiffs_path session.query _ other, closed_content s session other]
    rfl

/-- The sessions in the body of one request; the first that breaks off is the last. -/
def sessions (query : Arguments) : List Part → List Session
  | [] => []
  | .field _ _ :: rest => sessions query rest
  | .file filename chunks complete :: rest =>
    ⟨query, partName query filename, chunks, complete⟩ :: if complete = true then sessions query rest else []

/-- The web server runs these sessions and nothing else while it reads the form. -/
theorem parseForm_sessions (query : Arguments) (parts : List Part) (fields : Arguments) (s : Globals) :
    (parseForm true query parts fields s).2 = Runs.run upload s (sessions query parts) := by
  induction parts generalizing fields s with
  | nil => rfl
  | cons part rest ih =>
    cases part with
    | field name value => exact ih _ s
    | file filename chunks complete =>
      cases complete with
      | true => exact ih fields (upload s ⟨query, partName query filename, chunks, true⟩)
      | false => rfl

end Sessions

/-- In any sequence of sessions, on a device in any state, each that is completed leaves its own chunks, unless its
request deletes its file at the end. -/
theorem uploads_stored (sessions : List Session) (s : Globals) : Runs.Along upload Stored s sessions :=
  Runs.Along.of_forall stored sessions s

/-- `/upload?Delete=X&file=/a.txt`, with a file named `a.txt`. -/
def deletingSession : Session where
  query := [(text "Delete", text "X"), (text "file", text "/a.txt")]
  filename := text "a.txt"
  chunks := [text "abc"]
  complete := true

/-- The file is gone as soon as it has arrived. -/
theorem upload_deletes_itself :
    ¬Runs.Along upload Intact (powerOn (fun _ => 0) true []) [deletingSession] := by
  intro along
  have other : uploadPath deletingSession.filename ≠ logPath := by decide
  have kept := along.1.content rfl other
  have gone : content (uploadPath deletingSession.filename)
      (upload (powerOn (fun _ => 0) true []) deletingSession).spiffs = none := by decide
  rw [gone] at kept
  cases kept

end EspLog.Uploads

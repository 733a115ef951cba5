import EspLog.RequestBytes
import EspLog.Uploads
import EspLog.Access

/-! What the bytes of a client do to the device, whatever they are. -/

namespace EspLog.Served
open CText Sketch Functions Websites WebServer Scan Spiffs Parsing QueryText FileBytes FormBytes RequestBytes

section Secret

/-- What a browser sends for the credentials of the sketch. -/
def secret : Str := Base64.encode (www_username ++ 58 :: www_password)

theorem infix_trim (s : Str) : trim s <:+: s := by
  have front : s.dropWhile isSpace <:+: s := (List.dropWhile_suffix _).isInfix
  have back : trim s <+: s.dropWhile isSpace := by
    rw [trim, ← List.reverse_suffix, List.reverse_reverse]
    exact List.dropWhile_suffix _
  exact back.isInfix.trans front

theorem infix_cString (s : Str) : cString s <:+: s := (List.takeWhile_prefix _).isInfix

theorem readUntil_parts (mark : UInt8) (s : Str) : (readUntil mark s).1 <+: s ∧ (readUntil mark s).2 <:+ s :=
  ⟨List.takeWhile_prefix _, (List.drop_suffix 1 _).trans (List.dropWhile_suffix _)⟩

theorem readLine_parts (s : Str) : (readLine s).1 <+: s ∧ (readLine s).2 <:+ s :=
  ⟨(readUntil_parts 13 s).1, (readUntil_parts 10 _).2.trans (readUntil_parts 13 s).2⟩

theorem readHeaders_authorization (whole : Str) (value : Nat → Str → Str) (collect : Str → Str → Headers → Headers)
    (inside : ∀ headerDiv req, value headerDiv req <:+: req)
    (collects : ∀ name value headers, (collect name value headers).authorization = headers.authorization ∨
      (collect name value headers).authorization <:+: value)
    (fuel : Nat) (client : Str) (headers : Headers) (sent : client <:+ whole)
    (known : headers.authorization <:+: whole) :
    (readHeaders value collect fuel client headers).1.authorization <:+: whole := by
  induction fuel generalizing client headers with
  | zero => exact known
  | succ fuel ih =>
    obtain ⟨line, rest⟩ := readLine_parts client
    rw [readHeaders]
    dsimp only
    split
    · exact known
    split
    · exact known
    · rename_i headerDiv found
      apply ih _ _ (rest.trans sent)
      rcases collects (substring 0 headerDiv (readLine client).1) (value headerDiv (readLine client).1) headers
          with same | new
      · rw [same]
        exact known
      · exact new.trans ((inside _ _).trans (line.isInfix.trans sent.isInfix))

theorem collectHeader_authorization (name value : Str) (headers : Headers) :
    (collectHeader name value headers).authorization = headers.authorization ∨
      (collectHeader name value headers).authorization <:+: value := by
  unfold collectHeader
  split
  · exact .inr (infix_cString value)
  · exact .inl rfl

theorem bodyHeader_authorization (name value : Str) (headers : Headers) :
    (bodyHeader name value headers).authorization = headers.authorization ∨
      (bodyHeader name value headers).authorization <:+: value := by
  have same : (bodyHeader name value headers).authorization =
      (collectHeader name value headers).authorization := by
    unfold bodyHeader
    dsimp only
    split
    · split
      · rfl
      split
      · rfl
      · rfl
    · split
      · rfl
      · rfl
  rw [same]
  exact collectHeader_authorization name value headers

theorem authenticate_secret (header : Str) (accepted : authenticate www_username www_password header = true) :
    secret <:+: header := by
  simp only [authenticate, Bool.and_eq_true, beq_iff_eq] at accepted
  rw [secret, ← accepted.2]
  exact (infix_trim _).trans (List.drop_suffix 6 header).isInfix

variable (arrival : Arrival) (behind : Str → Str)

/-- A request with access has been sent with the encoded credentials in it. -/
theorem authorized_secret (client : Str) (request : Request)
    (reads : readRequest arrival behind client = .request request) (authorized : request.authorized = true) :
    secret <:+: client := by
  have known : ({} : Headers).authorization <:+: client := List.nil_infix
  rw [readRequest] at reads
  dsimp only at reads
  split at reads
  · cases reads
  rename_i method uri searchStr line
  have body := readHeaders_authorization client trimmedValue bodyHeader
    (fun headerDiv req => (infix_trim _).trans (List.drop_suffix _ req).isInfix) bodyHeader_authorization
    ((readLine client).2.length + 1) (readLine client).2 {} (readLine_parts client).2 known
  have plain := readHeaders_authorization client plainValue collectHeader
    (fun headerDiv req => (List.drop_suffix _ req).isInfix) collectHeader_authorization
    ((readLine client).2.length + 1) (readLine client).2 {} (readLine_parts client).2 known
  split at reads
  · split at reads
    · unfold FormEnd.request at reads
      split at reads
      · injection reads with same
        subst same
        exact (authenticate_secret _ authorized).trans body
      · cases reads
      · cases reads
    · split at reads
      · cases reads
      · injection reads with same
        subst same
        exact (authenticate_secret _ authorized).trans body
  · injection reads with same
    subst same
    exact (authenticate_secret _ authorized).trans plain

/-- A client that does not send the encoded credentials. -/
structure Stranger where
  client : Str
  without : ¬secret <:+: client

theorem Stranger.denied (stranger : Stranger) (request : Request)
    (reads : readRequest arrival behind stranger.client = .request request) : request.authorized = false := by
  rw [← Bool.not_eq_true]
  intro authorized
  exact stranger.without (authorized_secret arrival behind stranger.client request reads authorized)

/-- Whatever such a client sends, no setting, no yield and no byte of the EEPROM changes, and the device does not
restart: it can only change files. -/
theorem stranger_files (isFile : Str → Bool) (tmp : UInt32) (stranger : Stranger) (s : Globals) :
    ∀ outcome ∈ serve arrival behind isFile tmp stranger.client s, outcome.restart = false ∧
      FilesOnly s outcome.sketch := by
  intro outcome served
  rw [serve] at served
  cases reads : readRequest arrival behind stranger.client with
  | dropped =>
    rw [reads] at served
    cases served
    exact ⟨rfl, rfl⟩
  | overrun request =>
    rw [reads] at served
    cases served
  | endless request =>
    rw [reads] at served
    cases served
  | request request =>
    have denied := stranger.denied arrival behind request reads
    obtain ⟨reached, same, effect⟩ := handleRequest_outcome isFile tmp request s
    rw [reads] at served
    dsimp only at served
    rw [same] at served
    cases served
    cases effect with
    | setup args called => simp [setupArgs, denied] at called
    | spiffs args called other => simp [spiffsArgs, denied] at called
    | upload parts uploads body other => exact ⟨rfl, filesOnly_parseForm true request.query parts [] s⟩
    | json other => exact ⟨rfl, rfl⟩
    | nothing other => exact ⟨rfl, rfl⟩

end Secret

section Names

/-- A name that can stand in the first line of a request. -/
def Nameable (path : Str) : Prop := ∀ b ∈ path, b ∉ [0, 13, 32, 63]

instance (path : Str) : Decidable (Nameable path) := inferInstanceAs (Decidable (∀ b ∈ path, _))

theorem Nameable.append {first second : Str} (one : Nameable first) (other : Nameable second) :
    Nameable (first ++ second) := by
  intro b member
  exact (List.mem_append.mp member).elim (one b) (other b)

theorem indexOf_piece (mark : UInt8) (start i : Nat) (s : Str) (found : indexOf mark start s = some i) :
    ∃ piece rest, s.drop start = piece ++ mark :: rest ∧ 0 ∉ piece ∧ mark ∉ piece ∧ i = start + piece.length := by
  have inside : mark ∈ cString (s.drop start) := by
    by_contra absent
    rw [indexOf_none s mark start absent] at found
    cases found
  obtain ⟨piece, rest, same, first⟩ := Scan.exists_first mark _ inside
  obtain ⟨hidden, whole⟩ := List.takeWhile_prefix (l := s.drop start) (· != 0)
  have ended : ∀ b ∈ piece ++ mark :: rest, b ≠ 0 := by
    intro b member
    rw [← same] at member
    simpa using List.mem_takeWhile_imp member
  have shape : s.drop start = piece ++ mark :: (rest ++ hidden) := by
    have joined : cString (s.drop start) ++ hidden = s.drop start := whole
    rw [← joined, same]
    simp
  have pieceEnded : 0 ∉ piece := fun member => ended 0 (List.mem_append_left _ member) rfl
  have visible : mark ≠ 0 := ended mark (by simp)
  refine ⟨piece, rest ++ hidden, shape, pieceEnded, first, ?_⟩
  rw [indexOf_found piece (rest ++ hidden) s mark start pieceEnded first visible shape] at found
  exact (Option.some.inj found).symm

theorem requestLine_nameable (req uri searchStr : Str) (method : Method) (line : 13 ∉ req)
    (found : requestLine req = some (method, uri, searchStr)) : Nameable uri := by
  rw [requestLine] at found
  split at found
  · cases found
  rename_i addrStart first
  split at found
  · cases found
  rename_i addrEnd second
  injection found with found
  injection found with _ found
  obtain ⟨url, rest, shape, ended, unmarked, place⟩ := indexOf_piece 32 _ _ _ second
  have piece : substring (addrStart + 1) addrEnd req = url := by
    rw [place]
    exact substring_piece url (32 :: rest) req _ shape
  have inside : ∀ b ∈ url, b ∈ req := by
    intro b member
    exact List.mem_of_mem_drop (shape ▸ List.mem_append_left _ member)
  have clean : ∀ b ∈ url, b ≠ 0 ∧ b ≠ 13 ∧ b ≠ 32 := by
    intro b member
    exact ⟨fun same => ended (same ▸ member), fun same => line (same ▸ inside b member),
      fun same => unmarked (same ▸ member)⟩
  have nameable (part : Str) (sub : ∀ b ∈ part, b ∈ url) (cut : 63 ∉ part) : Nameable part := by
    intro b member
    have other := clean b (sub b member)
    simp only [List.mem_cons, List.not_mem_nil, or_false, not_or]
    exact ⟨other.1, other.2.1, other.2.2, fun same => cut (same ▸ member)⟩
  rw [piece, splitUrl] at found
  split at found
  · rename_i absent
    injection found with same _
    rw [← same]
    refine nameable url (fun _ member => member) ?_
    intro member
    have text : cString url = url := cString_of_text url fun member => (clean 0 member).1 rfl
    obtain ⟨before, after, split, none⟩ := Scan.exists_first 63 url member
    have known := indexOf_found before after url 63 0
      (fun member => (clean 0 (split ▸ List.mem_append_left _ member)).1 rfl) none
      (by decide) split
    rw [absent] at known
    cases known
  · rename_i hasSearch search
    injection found with same _
    obtain ⟨part, rest, shape, _, cut, place⟩ := indexOf_piece 63 _ _ _ search
    rw [← same, place, substring_piece part (63 :: rest) url 0 shape]
    exact nameable part (fun b member => List.mem_of_mem_drop (shape ▸ List.mem_append_left _ member)) cut

theorem readRequest_nameable (arrival : Arrival) (behind : Str → Str) (client : Str) (request : Request)
    (reads : readRequest arrival behind client = .request request) : Nameable request.uri := by
  have line : 13 ∉ (readLine client).1 := by
    intro member
    have other := List.mem_takeWhile_imp member
    simp at other
  rw [readRequest] at reads
  dsimp only at reads
  split at reads
  · cases reads
  rename_i method uri searchStr found
  have nameable := requestLine_nameable _ uri searchStr method line found
  split at reads
  · split at reads
    · unfold FormEnd.request at reads
      split at reads
      · cases reads
        exact nameable
      · cases reads
      · cases reads
    · split at reads
      · cases reads
      · cases reads
        exact nameable
  · cases reads
    exact nameable

end Names

section Pages
variable {behind : Str → Str} (sent : Sent behind)

/-- The argument that the server makes of a field of a form. -/
def itemArgument {boundary : Boundary} : Item boundary → Option (Str × Str)
  | .field sent => some (sent.name, sent.received)
  | .file _ => none

/-- The arguments that the handler of a request sees: those of the address first, but behind the fields of a form
as far as there is room. -/
def arguments : Arguments :=
  let query := sent.target.fields.map Field.argument
  if readsBody sent.method = true then
    match sent.body with
    | .none => query
    | .fields values => query ++ values.fields.map Field.argument
    | .form form =>
      let fields := (form.first :: form.rest).filterMap itemArgument
      fields ++ query.take (32 - fields.length)
  else query

/-- A browser that asks for such a name and sends nothing else. -/
def asking (behind : Str → Str) (uri : Str) (named : Nameable uri) : Sent behind where
  method := .get
  target := ⟨uri, [], named, sendable_nil⟩
  version := text "HTTP/1.1"
  headers := []
  credentials := none
  body := .none
  lines := []
  versioned := version_ended
  foreign := foreign_nil
  order := .refl _

end Pages

section Upload
open Uploads

/-- A form that is sent to the upload route, without a deletion in its address. -/
structure FileUpload (behind : Str → Str) extends Sent behind where
  form : FormBody behind
  post : method = .post
  there : target.uri = text "/upload"
  sends : body = .form form
  keeps : hasArg (text "Delete") (target.fields.map Field.argument) = false

/-- Any path but that of the log, which the device writes itself. -/
structure Path where
  text : Str
  other : text ≠ logPath

namespace FileUpload
variable {behind : Str → Str} (sent : FileUpload behind)

def query : Arguments := sent.target.fields.map Field.argument

def path (file : FileItem) : Str := uploadPath (partName sent.query file.filename)

def fileOf {boundary : Boundary} : Item boundary → Option FileItem
  | .field _ => none
  | .file file => some file

def files : List FileItem := (sent.form.first :: sent.form.rest).filterMap fileOf

end FileUpload

variable {behind : Str → Str}

theorem upload_content (query : Arguments) (keeps : hasArg (text "Delete") query = false) (path : Path)
    (filename : Str) (chunks : List Str) (s : Globals) :
    content path.text (upload s ⟨query, filename, chunks, true⟩).spiffs =
      if uploadPath filename = path.text then some chunks.flatten else content path.text s.spiffs := by
  by_cases here : uploadPath filename = path.text
  · rw [if_pos here, upload_eq, if_pos rfl, handleSpiffs_path query path.text path.other]
    simp only [keeps, Bool.false_eq_true, false_and, if_false]
    rw [← here]
    exact closed_content s ⟨query, filename, chunks, true⟩ (here ▸ path.other)
  · have kept : ¬Files.deletes path.text query := by
      intro deletes
      exact absurd (keeps ▸ deletes.1) (by decide)
    rw [if_neg here]
    exact Files.upload_content s query path.text path.other kept filename chunks true here

variable (sent : FileUpload behind)

theorem sessions_items {boundary : Boundary} (query : Arguments) (items : List (Item boundary)) :
    sessions query (items.map Item.part) = (items.filterMap FileUpload.fileOf).map fun file =>
      ⟨query, partName query file.filename, (Upload.writeBytes {} file.contents).finish, true⟩ := by
  induction items with
  | nil => rfl
  | cons item rest ih =>
    cases item with
    | field field => exact ih
    | file file => exact congrArg (List.cons _) ih

/-- From the bytes of the browser to the file system: under every path but the log's there is the last file that
the form has for it, byte for byte, or else what was there before. -/
theorem upload_served (arrival : Arrival) (isFile : Str → Bool) (tmp : UInt32) (s : Globals) (path : Path) :
    (serve arrival behind isFile tmp sent.bytes s).map (fun outcome => content path.text outcome.sketch.spiffs) =
      some ((((sent.files.filter fun file => sent.path file = path.text).getLast?).map fun file =>
        some file.contents).getD
        (content path.text s.spiffs)) := by
  have reads := request_round_trip sent.toSent arrival
  have post : readsBody sent.method = true := by rw [sent.post]; rfl
  have body : sent.request.body = .form ((sent.form.first :: sent.form.rest).map Item.part) := by
    rw [Sent.request, sent.sends]
    dsimp only
    rw [if_pos post]
    rfl
  have query : sent.request.query = sent.query := by
    rw [Sent.request, if_pos post, sent.sends]
    exact List.append_nil _
  have uploads : Uploads sent.request := ⟨sent.post, sent.there⟩
  have outcome := handleRequest_upload isFile tmp sent.request s
    (Access.upload_route isFile sent.request uploads) uploads
  rw [body, query] at outcome
  dsimp only at outcome
  rw [parseForm_sessions, sessions_items] at outcome
  rw [serve, reads]
  dsimp only
  rw [outcome, Option.map_some]
  apply congrArg some
  dsimp only
  have tracks := Runs.run_tracks upload (fun s => content path.text s.spiffs)
    (fun held session => if uploadPath session.filename = path.text then some session.chunks.flatten else held)
    (fun _ => True) (fun _ _ _ => trivial)
    (sent.files.map fun file =>
      (⟨sent.query, partName sent.query file.filename, (Upload.writeBytes {} file.contents).finish,
      true⟩ : Session))
    (by
      intro state session member _
      obtain ⟨file, -, rfl⟩ := List.mem_map.mp member
      exact upload_content sent.query sent.keeps path _ _ state) s trivial
  rw [FileUpload.files] at tracks ⊢
  have whole (file : FileItem) : (Upload.writeBytes {} file.contents).finish.flatten = file.contents := by
    rw [finish_flatten, writeBytes_bytes]
    rfl
  rw [tracks, Runs.run_overwrites, List.filter_map, List.getLast?_map, Option.map_map]
  simp only [Function.comp_def, whole]
  rfl

def note : FileItem where
  name := text "datei"
  filename := text "note.txt"
  type := some (text "text/plain")
  contents := text "Ertrag\r\n-"
  named := by decide +kernel
  filed := by decide +kernel
  typed := by decide +kernel

def remark : FieldItem dashedLine where
  name := text "kommentar"
  type := none
  lines := [text "neu"]
  named := by decide +kernel
  typed := untyped
  filled := List.cons_ne_nil _ _
  unmarked := by decide +kernel

theorem note_unmarked : ¬mark <:+: note.contents := by decide +kernel

def noteForm (behind : Str → Str) : FormBody behind where
  boundary := dashedLine
  first := .file note
  rest := [.field remark]
  spaceless := by decide +kernel
  room := by decide
  intact := ⟨.last _ note_unmarked, trivial⟩

def noteUpload (behind : Str → Str) : FileUpload behind where
  method := .post
  target := ⟨text "/upload", [], by decide +kernel, sendable_nil⟩
  version := text "HTTP/1.1"
  headers := []
  credentials := none
  body := .form (noteForm behind)
  lines := (taken behind none (.form (noteForm behind))).reverse
  versioned := version_ended
  foreign := foreign_nil
  order := List.reverse_perm _
  form := noteForm behind
  post := rfl
  there := rfl
  sends := rfl
  keeps := rfl

def notePath : Path := ⟨text "/note.txt", by decide +kernel⟩

theorem note_stored :
    (serve ⟨fun s => [s], fun s => List.append_nil s⟩ id (fun _ => false) 0 (noteUpload id).bytes
      (powerOn (fun _ => 0) true [])).map (fun outcome => content notePath.text outcome.sketch.spiffs) =
      some (some note.contents) := by
  have stored := upload_served (noteUpload id) ⟨fun s => [s], fun s => List.append_nil s⟩ (fun _ => false) 0
    (powerOn (fun _ => 0) true []) notePath
  have chosen :
      ((((noteUpload id).files.filter fun file => (noteUpload id).path file = notePath.text).getLast?).map
        fun file => some file.contents) = some (some note.contents) := by decide +kernel
  rw [chosen] at stored
  exact stored

end Upload
end EspLog.Served

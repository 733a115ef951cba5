import EspLog.Websites

/-! Dispatch of a request as in the bundled web server: the first route that can handle
it, its upload callback for the file parts of a form, and then its handler. -/

namespace EspLog.WebServer
open CText Sketch Functions Websites

inductive Method where
  | get | post | delete | options | put | patch
  deriving DecidableEq

/-- One part of a multipart body; a file part is `complete` unless the client left during it. -/
inductive Part where
  | field (name value : Str)
  | file (filename : Str) (chunks : List Str) (complete : Bool)

/-- A body that could not be read to its end drops the request. -/
inductive Body where
  | plain (args : Arguments)
  | form (parts : List Part)
  | incomplete

structure Request where
  method : Method
  uri : Str
  query : Arguments
  body : Body
  authorized : Bool

inductive Page where
  | root | jsonArgs | viewErtrag | setup | spiffs | upload

/-- A registered route: `method` is absent for `HTTP_ANY`. -/
inductive Route where
  | function (uri : Str) (method : Option Method) (page : Page)
  | static (uri path : Str)

/-- `setupHttpServer`. -/
def routes : List Route :=
  [.function (text "/") none .root, .function (text "/V") none .jsonArgs,
    .function (text "/ertrag.html") none .viewErtrag, .function (text "/setup.html") none .setup,
    .function (text "/spiffs.html") none .spiffs, .function (text "/upload") (some .post) .upload,
    .static (text "/screen.css") (text "/screen.css"), .static (text "/mobile.css") (text "/mobile.css"),
    .static (text "/backup.csv") (text "/backup.csv"), .static (text "/log.txt") (text "/log.txt")]

/-- `isFile` says which static paths were files when the routes were registered. -/
def canHandle (isFile : Str → Bool) (method : Method) (uri : Str) : Route → Bool
  | .function path required _ => (required == none || required == some method) && uri == path
  | .static path file => method == .get && !((isFile file && uri != path) || !path.isPrefixOf uri)

/-- Only the upload route has an upload callback, and only below its own address. -/
def canUpload (uri : Str) : Route → Bool
  | .function path required .upload => (required == none || required == some .post) && uri == path
  | _ => false

/-- The events of one file part. -/
def uploadEvents (filename : Str) (chunks : List Str) (complete : Bool) : List UploadEvent :=
  .start filename :: chunks.map .write ++ [if complete then .finish filename else .aborted]

/-- `blob` stands for the name given in the query. -/
def partName (query : Arguments) (filename : Str) : Str :=
  if filename = text "blob" ∧ hasArg (text "filename") query = true then arg (text "filename") query else filename

/-- The parts of a form in order: the fields collected so far, or `none` once an upload was aborted. -/
def parseForm (uploads : Bool) (query : Arguments) : List Part → Arguments → Globals → Option Arguments × Globals
  | [], fields, s => (some fields, s)
  | .field name value :: rest, fields, s => parseForm uploads query rest (fields ++ [(name, value)]) s
  | .file filename chunks complete :: rest, fields, s =>
    let s := if uploads = true then
      (uploadEvents (partName query filename) chunks complete).foldl (handleFileUpload query) s else s
    if complete = true then parseForm uploads query rest fields s else (none, s)

/-- The body is read for these methods only. -/
def readsBody : Method → Bool
  | .post | .put | .patch | .delete => true
  | .get | .options => false

/-- `_parseRequest`: the arguments the handler will see, `none` when the request is dropped. -/
def parseRequest (route : Option Route) (request : Request) (s : Globals) : Option Arguments × Globals :=
  if readsBody request.method = true then
    match request.body with
    | .plain args => (some (request.query ++ args), s)
    | .form parts =>
      let uploads := match route with
        | some route => canUpload request.uri route
        | none => false
      let (fields, s) := parseForm uploads request.query parts [] s
      (fields.map fun fields => fields ++ request.query.take (32 - fields.length), s)
    | .incomplete => (none, s)
  else (some request.query, s)

/-- The handlers: the setup and the file page ask for credentials first. -/
def handlePage (tmp : UInt32) (authorized : Bool) (args : Arguments) (s : Globals) : Page → Outcome
  | .root | .viewErtrag | .upload => ⟨s, false⟩
  | .jsonArgs => ⟨write2logfile (text "Web Ausgabe JSON fuer sonnenertrag.eu") s, false⟩
  | .setup => if authorized = true then handleSetup tmp args s else ⟨s, false⟩
  | .spiffs => if authorized = true then ⟨handleSpiffs args s, false⟩ else ⟨s, false⟩

def handleRequest (isFile : Str → Bool) (tmp : UInt32) (request : Request) (s : Globals) : Outcome :=
  let route := routes.find? (canHandle isFile request.method request.uri)
  match parseRequest route request s with
  | (none, s) => ⟨s, false⟩
  | (some args, s) =>
    match route with
    | some (.function _ _ page) => handlePage tmp request.authorized args s page
    | _ => ⟨s, false⟩

section Requests

/-- The fields of a form, `none` when an upload breaks off. -/
def partFields : List Part → Arguments → Option Arguments
  | [], fields => some fields
  | .field name value :: rest, fields => partFields rest (fields ++ [(name, value)])
  | .file _ _ complete :: rest, fields => if complete = true then partFields rest fields else none

/-- The arguments a handler sees; no state decides them. -/
def requestArgs (request : Request) : Option Arguments :=
  if readsBody request.method = true then
    match request.body with
    | .plain args => some (request.query ++ args)
    | .form parts => (partFields parts []).map fun fields => fields ++ request.query.take (32 - fields.length)
    | .incomplete => none
  else some request.query

def routeOf (isFile : Str → Bool) (request : Request) : Option Route :=
  routes.find? (canHandle isFile request.method request.uri)

/-- The file parts of this request reach `handleFileUpload`. -/
def Uploads (request : Request) : Prop := request.method = .post ∧ request.uri = text "/upload"

/-- The arguments with which a request calls `handleSetup`, if it does. -/
def setupArgs (request : Request) : Option Arguments :=
  if request.authorized = true ∧ request.uri = text "/setup.html" then requestArgs request else none

/-- The arguments with which a request calls `handleSpiffs` as a page, if it does. -/
def spiffsArgs (request : Request) : Option Arguments :=
  if request.authorized = true ∧ request.uri = text "/spiffs.html" then requestArgs request else none

theorem parseForm_fields (uploads : Bool) (query : Arguments) (parts : List Part) (fields : Arguments)
    (s : Globals) :
    (parseForm uploads query parts fields s).1 = partFields parts fields := by
  induction parts generalizing fields s with
  | nil => rfl
  | cons part rest ih =>
    cases part with
    | field name value => exact ih _ _
    | file filename chunks complete =>
      cases complete with
      | true => exact ih _ _
      | false => rfl

theorem parseForm_idle (query : Arguments) (parts : List Part) (fields : Arguments) (s : Globals) :
    (parseForm false query parts fields s).2 = s := by
  induction parts generalizing fields s with
  | nil => rfl
  | cons part rest ih =>
    cases part with
    | field name value => exact ih _ _
    | file filename chunks complete =>
      cases complete with
      | true => exact ih _ _
      | false => rfl

theorem parseRequest_args (route : Option Route) (request : Request) (s : Globals) :
    (parseRequest route request s).1 = requestArgs request := by
  unfold parseRequest requestArgs
  split
  · cases request.body with
    | plain args => rfl
    | form parts =>
      dsimp only
      rw [← parseForm_fields]
    | incomplete => rfl
  · rfl

theorem parseRequest_idle (route : Option Route) (request : Request) (s : Globals)
    (idle : ∀ found, route = some found → canUpload request.uri found = false) :
    (parseRequest route request s).2 = s := by
  unfold parseRequest
  split
  · cases request.body with
    | plain args => rfl
    | incomplete => rfl
    | form parts =>
      cases route with
      | none => exact parseForm_idle _ _ _ _
      | some found =>
        simp only [idle found rfl]
        exact parseForm_idle _ _ _ _
  · rfl

/-- All but the files and the open upload stays as it was. -/
def FilesOnly (before after : Globals) : Prop :=
  after = { before with spiffs := after.spiffs, fsUploadFile := after.fsUploadFile }

theorem FilesOnly.trans {first second third : Globals} (before : FilesOnly first second)
    (after : FilesOnly second third) : FilesOnly first third := by
  unfold FilesOnly at *
  rw [after, before]

theorem FilesOnly.eeprom {before after : Globals} (files : FilesOnly before after) :
    after.eeprom = before.eeprom := by
  unfold FilesOnly at files
  rw [files]

theorem FilesOnly.ausgabe {before after : Globals} (files : FilesOnly before after) :
    after.ausgabe = before.ausgabe := by
  unfold FilesOnly at files
  rw [files]

theorem FilesOnly.yesterday {before after : Globals} (files : FilesOnly before after) :
    after.yesterday = before.yesterday := by
  unfold FilesOnly at files
  rw [files]

theorem FilesOnly.today {before after : Globals} (files : FilesOnly before after) :
    after.today = before.today := by
  unfold FilesOnly at files
  rw [files]

theorem FilesOnly.table {before after : Globals} (files : FilesOnly before after) :
    after.tagesCounter = before.tagesCounter := by
  unfold FilesOnly at files
  rw [files]

theorem FilesOnly.slots {before after : Globals} (files : FilesOnly before after) :
    after.fuenfMinutenZaehler = before.fuenfMinutenZaehler := by
  unfold FilesOnly at files
  rw [files]

theorem filesOnly_handleSpiffs (args : Arguments) (s : Globals) : FilesOnly s (handleSpiffs args s) := by
  unfold handleSpiffs
  split
  · split <;> rfl
  · rfl

theorem filesOnly_handleFileUpload (args : Arguments) (s : Globals) (event : UploadEvent) :
    FilesOnly s (handleFileUpload args s event) := by
  cases event with
  | start filename => rfl
  | write chunk =>
    simp only [handleFileUpload]
    split <;> rfl
  | finish filename =>
    have logged : FilesOnly s
      { write2logfile (text "Neue Datei gespeichert: " ++ filename) s with fsUploadFile := none } := rfl
    exact logged.trans (filesOnly_handleSpiffs args _)
  | aborted => rfl

theorem filesOnly_uploadEvents (args : Arguments) (events : List UploadEvent) (s : Globals) :
    FilesOnly s (events.foldl (handleFileUpload args) s) := by
  induction events generalizing s with
  | nil => rfl
  | cons event later ih => exact (filesOnly_handleFileUpload args s event).trans (ih _)

theorem filesOnly_parseForm (uploads : Bool) (query : Arguments) (parts : List Part) (fields : Arguments)
    (s : Globals) :
    FilesOnly s (parseForm uploads query parts fields s).2 := by
  induction parts generalizing fields s with
  | nil => rfl
  | cons part rest ih =>
    cases part with
    | field name value => exact ih _ _
    | file filename chunks complete =>
      unfold parseForm
      dsimp only
      have uploaded : FilesOnly s (if uploads = true then
          (uploadEvents (partName query filename) chunks complete).foldl (handleFileUpload query) s else s) := by
        split
        · exact filesOnly_uploadEvents _ _ s
        · rfl
      split
      · exact uploaded.trans (ih _ _)
      · exact uploaded

theorem handleRequest_page (isFile : Str → Bool) (tmp : UInt32) (request : Request) (s : Globals) (path : Str)
    (required : Option Method) (page : Page) (found : routeOf isFile request = some (.function path required page))
    (idle : canUpload request.uri (.function path required page) = false) :
    handleRequest isFile tmp request s = match requestArgs request with
      | none => ⟨s, false⟩
      | some args => handlePage tmp request.authorized args s page := by
  have state := parseRequest_idle (some (.function path required page)) request s
    (fun other same => by cases same; exact idle)
  have args := parseRequest_args (some (.function path required page)) request s
  unfold routeOf at found
  simp only [handleRequest, found]
  rcases parsed : parseRequest (some (.function path required page)) request s with ⟨known, after⟩
  rw [parsed] at state args
  subst state
  rw [← args]
  cases known <;> rfl

/-- What a request can do, by the page that it reaches. -/
inductive Effect (tmp : UInt32) (request : Request) (s : Globals) : Outcome → Prop where
  | setup (args : Arguments) (called : setupArgs request = some args) :
      Effect tmp request s (handleSetup tmp args s)
  | spiffs (args : Arguments) (called : spiffsArgs request = some args) (other : setupArgs request = none) :
    Effect tmp request s ⟨handleSpiffs args s, false⟩
  | upload (parts : List Part) (uploads : Uploads request) (body : request.body = .form parts)
      (other : setupArgs request = none) :
    Effect tmp request s ⟨(parseForm true request.query parts [] s).2, false⟩
  | json (other : setupArgs request = none) :
    Effect tmp request s ⟨write2logfile (text "Web Ausgabe JSON fuer sonnenertrag.eu") s, false⟩
  | nothing (other : setupArgs request = none) : Effect tmp request s ⟨s, false⟩

theorem setupArgs_none (request : Request) (elsewhere : request.uri ≠ text "/setup.html") :
    setupArgs request = none := by
  simp only [setupArgs, elsewhere, and_false, if_false]

theorem setup_route (isFile : Str → Bool) (request : Request) (here : request.uri = text "/setup.html") :
    routeOf isFile request = some (.function (text "/setup.html") none .setup) := by
  have root : (text "/setup.html" == text "/") = false := by decide
  have json : (text "/setup.html" == text "/V") = false := by decide
  have ertrag : (text "/setup.html" == text "/ertrag.html") = false := by decide
  simp [routeOf, routes, here, canHandle, root, json, ertrag]

theorem handleRequest_unrouted (isFile : Str → Bool) (tmp : UInt32) (request : Request) (s : Globals)
    (unrouted : ∀ path required page, routeOf isFile request ≠ some (.function path required page)) :
    handleRequest isFile tmp request s = ⟨s, false⟩ := by
  have state := parseRequest_idle (routeOf isFile request) request s (by
    intro found same
    cases found with
    | function path required page => exact absurd same (unrouted path required page)
    | static uri path => rfl)
  unfold handleRequest
  unfold routeOf at state unrouted
  rcases parsed : parseRequest (routes.find? (canHandle isFile request.method request.uri)) request s
      with ⟨args, after⟩
  rw [parsed] at state
  simp only [parsed]
  subst state
  cases args with
  | none => rfl
  | some args =>
    rcases route : routes.find? (canHandle isFile request.method request.uri) with _ | found
    · rfl
    · cases found with
      | function path required page => exact absurd route (unrouted path required page)
      | static uri path => rfl

theorem routeOf_function (isFile : Str → Bool) (request : Request) (path : Str) (required : Option Method)
    (page : Page) (found : routeOf isFile request = some (.function path required page)) :
    request.uri = path ∧ (required = none ∨ required = some request.method) ∧
      .function path required page ∈ routes.take 6 := by
  have member := List.mem_of_find?_eq_some found
  have handles := List.find?_some found
  simp only [canHandle, Bool.and_eq_true, Bool.or_eq_true, beq_iff_eq] at handles
  refine ⟨handles.2, handles.1, ?_⟩
  rw [← List.take_append_drop 6 routes, List.mem_append] at member
  rcases member with function | static
  · exact function
  · simp [routes] at static

/-- On the upload route only the file parts of a form change anything. -/
theorem handleRequest_upload (isFile : Str → Bool) (tmp : UInt32) (request : Request) (s : Globals)
    (found : routeOf isFile request = some (.function (text "/upload") (some .post) .upload))
    (uploads : Uploads request) :
    handleRequest isFile tmp request s = ⟨match request.body with
      | .form parts => (parseForm true request.query parts [] s).2
      | _ => s, false⟩ := by
  have post : readsBody request.method = true := by rw [uploads.1]; rfl
  have callback : canUpload request.uri (.function (text "/upload") (some .post) .upload) = true := by
    simp [canUpload, uploads.2]
  unfold routeOf at found
  unfold handleRequest
  simp only [found, parseRequest, post, if_true, callback]
  rcases request.body with args | parts | _
  · rfl
  · dsimp only
    rcases parseForm true request.query parts [] s with ⟨fields, after⟩
    cases fields <;> rfl
  · rfl

theorem handleRequest_effect (isFile : Str → Bool) (tmp : UInt32) (request : Request) (s : Globals) :
    Effect tmp request s (handleRequest isFile tmp request s) := by
  by_cases here : request.uri = text "/setup.html"
  · have found := setup_route isFile request here
    rw [handleRequest_page isFile tmp request s _ _ _ found rfl]
    rcases parsed : requestArgs request with _ | args
    · exact .nothing (by simp only [setupArgs, parsed, ite_self])
    · cases authorized : request.authorized with
      | true => exact .setup args (by simp only [setupArgs, authorized, here, parsed, and_self, if_true])
      | false => exact .nothing (by simp [setupArgs, authorized])
  · have other := setupArgs_none request here
    by_cases routed : ∃ path required page, routeOf isFile request = some (.function path required page)
    · obtain ⟨path, required, page, found⟩ := routed
      obtain ⟨uri, method, member⟩ := routeOf_function isFile request path required page found
      simp only [routes, List.take, List.mem_cons, List.not_mem_nil, or_false, Route.function.injEq] at member
      rcases member with ⟨rfl, rfl, rfl⟩ | ⟨rfl, rfl, rfl⟩ | ⟨rfl, rfl, rfl⟩ | ⟨rfl, rfl, rfl⟩ | ⟨rfl, rfl, rfl⟩
          | ⟨rfl, rfl, rfl⟩
      · rw [handleRequest_page isFile tmp request s _ _ _ found rfl]
        cases requestArgs request <;> exact .nothing other
      · rw [handleRequest_page isFile tmp request s _ _ _ found rfl]
        cases requestArgs request
        · exact .nothing other
        · exact .json other
      · rw [handleRequest_page isFile tmp request s _ _ _ found rfl]
        cases requestArgs request <;> exact .nothing other
      · exact absurd uri here
      · rw [handleRequest_page isFile tmp request s _ _ _ found rfl]
        rcases parsed : requestArgs request with _ | args
        · exact .nothing other
        · cases authorized : request.authorized with
          | true =>
            exact .spiffs args (by simp only [spiffsArgs, authorized, uri, parsed, and_self, if_true]) other
          | false => exact .nothing other
      · have uploads : Uploads request := ⟨by simpa [eq_comm] using method, uri⟩
        rcases body : request.body with args | parts | _
        · rw [handleRequest_upload isFile tmp request s found uploads, body]
          exact .nothing other
        · rw [handleRequest_upload isFile tmp request s found uploads, body]
          exact .upload parts uploads body other
        · rw [handleRequest_upload isFile tmp request s found uploads, body]
          exact .nothing other
    · push Not at routed
      rw [handleRequest_unrouted isFile tmp request s routed]
      exact .nothing other

theorem handleRequest_outcome (isFile : Str → Bool) (tmp : UInt32) (request : Request) (s : Globals) :
    ∃ outcome, handleRequest isFile tmp request s = outcome ∧ Effect tmp request s outcome :=
  ⟨_, rfl, handleRequest_effect isFile tmp request s⟩

theorem handleRequest_setup (isFile : Str → Bool) (tmp : UInt32) (request : Request) (s : Globals)
    (args : Arguments) (called : setupArgs request = some args) :
    handleRequest isFile tmp request s = handleSetup tmp args s := by
  obtain ⟨outcome, same, effect⟩ := handleRequest_outcome isFile tmp request s
  rw [same]
  cases effect with
  | setup other calledToo =>
    rw [called] at calledToo
    cases calledToo
    rfl
  | _ => simp_all

/-- What a change of files and the setup page keep, every request keeps. -/
theorem handleRequest_rule (relation : Globals → Globals → Prop)
    (files : ∀ before after, FilesOnly before after → relation before after) (isFile : Str → Bool) (tmp : UInt32)
    (request : Request) (setup : ∀ args, setupArgs request = some args →
      ∀ s, relation s (handleSetup tmp args s).sketch)
    (s : Globals) : relation s (handleRequest isFile tmp request s).sketch := by
  obtain ⟨outcome, same, effect⟩ := handleRequest_outcome isFile tmp request s
  rw [same]
  cases effect with
  | setup args called => exact setup args called s
  | spiffs args called other => exact files _ _ (filesOnly_handleSpiffs args s)
  | upload parts uploads body other => exact files _ _ (filesOnly_parseForm true request.query parts [] s)
  | json other => exact files _ _ rfl
  | nothing other => exact files _ _ rfl

end Requests
end EspLog.WebServer

import EspLog.RequestBytes
import EspLog.UpdateServer

/-! What the server answers, and how a client reads it. The lines of a head are collected in a variable of the
server, which outlives the request, and so does the length that goes with them. -/

namespace EspLog.Responses
open CText Sketch Functions Websites WebServer Parsing FormBytes RequestBytes Spiffs UpdateServer

section Server

/-- `_responseHeaders` and `_contentLength`, and what the client has been sent. -/
structure Writer where
  responseHeaders : Str := []
  contentLength : UInt32
  sent : Str := []

/-- `CONTENT_LENGTH_UNKNOWN` and `CONTENT_LENGTH_NOT_SET`. -/
def contentLengthUnknown : UInt32 := 0xFFFFFFFF
def contentLengthNotSet : UInt32 := 0xFFFFFFFE

def sendHeader (name value : Str) (first : Bool) (w : Writer) : Writer :=
  let headerLine := name ++ text ": " ++ value ++ text "\r\n"
  { w with
    responseHeaders := if first = true then headerLine ++ w.responseHeaders else w.responseHeaders ++ headerLine }

/-- The codes that the sketch answers with; the table of `_responseCodeToString` has more. -/
def responseCodeToString : Nat → Str
  | 200 => text "OK"
  | 401 => text "Unauthorized"
  | 404 => text "Not Found"
  | _ => []

/-- `_prepareHeader`: the head as a text, and the variable empty again. -/
def prepareHeader (code : Nat) (contentType : Str) (length : Nat) (w : Writer) : Str × Writer :=
  let w := sendHeader (text "Content-Type") contentType true w
  let w := if w.contentLength = contentLengthNotSet
    then sendHeader (text "Content-Length") (decimal length) false w
    else if w.contentLength ≠ contentLengthUnknown then
      sendHeader (text "Content-Length") (decimal w.contentLength.toNat) false w
    else w
  let w := sendHeader (text "Connection") (text "close") false w
  let w := sendHeader (text "Access-Control-Allow-Origin") (text "*") false w
  (text "HTTP/1.1 " ++ decimal code ++ text " " ++ responseCodeToString code ++ text "\r\n" ++
    w.responseHeaders ++ text "\r\n", { w with responseHeaders := [] })

def sendContent (content : Str) (w : Writer) : Writer := { w with sent := w.sent ++ content }

/-- `send`; the default of the type is `text/html`. -/
def send (code : Nat) (contentType content : Str) (w : Writer) : Writer :=
  let (header, w) := prepareHeader code contentType content.length w
  sendContent content (sendContent header w)

def requestAuthentication (w : Writer) : Writer :=
  send 401 (text "text/html") []
    (sendHeader (text "WWW-Authenticate") (text "Basic realm=\"Login Required\"") false w)

def contentOutput (content : Str) (w : Writer) : Writer :=
  let w := sendHeader (text "Cache-Control") (text "no-cache, no-store, must-revalidate") false w
  let w := sendHeader (text "Pragma") (text "no-cache") false w
  send 200 (text "text/html") content { w with contentLength := contentLengthUnknown }

def endsWith (suffix : String) (s : Str) : Bool := (text suffix).isSuffixOf s

def streamFile (name contents contentType : Str) (w : Writer) : Writer :=
  let w := { w with contentLength := UInt32.ofNat contents.length }
  let w := if endsWith ".gz" name = true ∧ contentType ≠ text "application/x-gzip" ∧
      contentType ≠ text "application/octet-stream"
      then sendHeader (text "Content-Encoding") (text "gzip") false w else w
  sendContent contents (send 200 contentType [] w)

/-- The answer of `handleSpiffs` to a deletion, which it writes itself. -/
def redirect (uri : Str) (w : Writer) : Writer :=
  sendContent (text "HTTP/1.1 303 OK\r\nLocation:" ++ uri ++ text "\r\nCache-Control: no-cache\r\n\r\n") w

end Server

section Static

/-- The endings that `getContentType` knows, in its order. -/
def contentTypes : List (String × String) :=
  [(".html", "text/html"), (".htm", "text/html"), (".css", "text/css"), (".txt", "text/plain"),
    (".js", "application/javascript"), (".png", "image/png"), (".gif", "image/gif"), (".jpg", "image/jpeg"),
    (".ico", "image/x-icon"), (".svg", "image/svg+xml"), (".ttf", "application/x-font-ttf"),
    (".otf", "application/x-font-opentype"), (".woff", "application/font-woff"),
      (".woff2", "application/font-woff2"),
    (".eot", "application/vnd.ms-fontobject"), (".sfnt", "application/font-sfnt"), (".xml", "text/xml"),
    (".pdf", "application/pdf"), (".zip", "application/zip"), (".gz", "application/x-gzip"),
    (".appcache", "text/cache-manifest")]

def getContentType (path : Str) : Str :=
  text (((contentTypes.find? fun entry => endsWith entry.1 path).map Prod.snd).getD "application/octet-stream")

/-- The path that a static route makes of a request. -/
def requestedPath (isFile : Str → Bool) (uri path requestUri : Str) : Str :=
  if isFile path = true then path
  else
    let requestUri := if endsWith "/" requestUri = true then requestUri ++ text "index.htm" else requestUri
    path ++ requestUri.drop uri.length

/-- The compressed file stands in for one that does not exist. -/
def storedPath (path : Str) (files : Files) : Str :=
  if endsWith ".gz" path = false ∧ content path files = none ∧ content (path ++ text ".gz") files ≠ none then
    path ++ text ".gz"
  else path

end Static

section Answers

/-- An answer by the call that sends it. A file has the type of the path that was requested. -/
inductive Reply where
  | page (content : Str)
  | updatePage (content : Str)
  | denied
  | notFound (uri : Str)
  | file (path contents requested : Str)
  | redirect (uri : Str)

def Reply.send : Reply → Writer → Writer
  | .page content => contentOutput content
  | .updatePage content => Responses.send 200 (text "text/html") content
  | .denied => requestAuthentication
  | .notFound uri => Responses.send 404 (text "text/plain") (text "Not found: " ++ uri)
  | .file path contents requested => streamFile path contents (getContentType requested)
  | .redirect uri => Responses.redirect uri

/-- The texts of the pages, whatever their handlers make of the sketch, and the rest of the device that answers
depend on: `hasError` is what `Update` says. -/
structure Site where
  pageText : Page → Arguments → Globals → Str
  isFile : Str → Bool
  tmp : UInt32
  update : HTTPUpdateServer
  hasError : Bool

variable (site : Site)

def handleSpiffsReply (uri : Str) (args : Arguments) (s : Globals) : Reply :=
  if hasArg (text "Delete") args = true ∧
    (s.spiffs.find? fun file => arg (text "file") args == encodeName file.1).isSome then
    .redirect uri
  else .page (site.pageText .spiffs args s)

/-- `StaticRequestHandler::handle`, which leaves a file that cannot be opened to `_handleRequest`. -/
def staticReply (isFile : Str → Bool) (uri path requestUri : Str) (files : Files) : Reply :=
  let requested := requestedPath isFile uri path requestUri
  let path := storedPath requested files
  match content path files with
  | some contents => .file path contents requested
  | none => .notFound requestUri

/-- A complete file of a form is answered as if the file page had been asked for. -/
def uploadReplies (query : Arguments) : List Part → Globals → List Reply
  | [], _ => []
  | .field _ _ :: rest, s => uploadReplies query rest s
  | .file filename chunks complete :: rest, s =>
    let filename := partName query filename
    let written := (.start filename :: chunks.map UploadEvent.write).foldl (handleFileUpload query) s
    let closed := { write2logfile (text "Neue Datei gespeichert: " ++ filename) written with fsUploadFile := none }
    if complete = true then
      handleSpiffsReply site (text "/upload") query closed ::
        uploadReplies query rest ((uploadEvents filename chunks complete).foldl (handleFileUpload query) s)
    else []

/-- What is sent while the request is read. -/
def parseReplies (request : Request) (s : Globals) : List Reply :=
  match request.body, routeOf site.isFile request with
  | .form parts, some route =>
    if readsBody request.method = true ∧ canUpload request.uri route = true then
      uploadReplies site request.query parts s
    else []
  | _, _ => []

/-- What a page answers. A restart comes before the page is sent. -/
def pageReply (authorized : Bool) (uri : Str) (args : Arguments) (s : Globals) : Page → Option Reply
  | .root => some (.page (site.pageText .root args s))
  | .viewErtrag => some (.page (site.pageText .viewErtrag args s))
  | .jsonArgs =>
    some (.page (site.pageText .jsonArgs args (handlePage site.tmp authorized args s .jsonArgs).sketch))
  | .setup =>
    if authorized = true then
      let outcome := handlePage site.tmp authorized args s .setup
      if outcome.restart = true then none else some (.page (site.pageText .setup args outcome.sketch))
    else some .denied
  | .spiffs => some (if authorized = true then handleSpiffsReply site uri args s else .denied)
  | .upload => none

def serverIndex : Str := text "<html><body><form method='POST' action='' enctype='multipart/form-data'>
                  <input type='file' name='update'>
                  <input type='submit' value='Update'>
               </form>
         </body></html>"
def failedResponse : Str := text "Update Failed!"
def successResponse : Str := text "<META http-equiv=\"refresh\" content=\"15;URL=\">Update Success! Rebooting..."

/-- The handlers of the update: its page, and the page behind its upload. -/
def updateReply (request : Request) : Reply :=
  match request.method with
  | .get => if request.authorized = true then .updatePage serverIndex else .denied
  | .post =>
    if (handleUpdate request site.update).2.authenticated = false then .denied
    else .updatePage (if site.hasError = true then failedResponse else successResponse)
  | .delete | .options | .put | .patch => .notFound request.uri

/-- What `_handleRequest` sends; the handlers of the update come behind those of the sketch. -/
def handlerReply (request : Request) (s : Globals) : Option Reply :=
  match parseRequest (routeOf site.isFile request) request s with
  | (none, _) => none
  | (some args, s) =>
    match routeOf site.isFile request with
    | some (.function _ _ page) => pageReply site request.authorized request.uri args s page
    | some (.static uri path) => some (staticReply site.isFile uri path request.uri s.spiffs)
    | none => some (if request.uri = text "/update" then updateReply site request else .notFound request.uri)

def replies (request : Request) (s : Globals) : List Reply :=
  parseReplies site request s ++ (handlerReply site request s).toList

/-- `handleClient` with a request: the length is forgotten before the handler is called. -/
def respond (request : Request) (s : Globals) (w : Writer) : Writer :=
  let w := (parseReplies site request s).foldl (fun w reply => reply.send w) w
  let w := { w with contentLength := contentLengthNotSet }
  (handlerReply site request s).elim w fun reply => reply.send w

end Answers

section Reader

/-- A response as a client reads it. -/
structure Response where
  code : Nat
  reason : Str
  headers : List (Str × Str)
  body : Str
  deriving DecidableEq

def readStatus (line : Str) : Option (Nat × Str) :=
  if (text "HTTP/1.1 ").isPrefixOf line = true then
    let rest := line.drop 9
    some (natOf 10 (rest.takeWhile isDigit), (rest.dropWhile isDigit).drop 1)
  else none

/-- The body ends with its length, or with the connection when there is none. -/
def readResponse (received : Str) : Option Response :=
  let (first, rest) := readLine received
  match readStatus first with
  | none => none
  | some (code, reason) =>
    let (headers, rest) := readHeaders trimmedValue (fun name value lines => lines ++ [(name, value)])
      (rest.length + 1) rest []
    match headers.lookup (text "Content-Length") with
    | none => some ⟨code, reason, headers, rest⟩
    | some size =>
      if natOf 10 size ≤ rest.length then some ⟨code, reason, headers, rest.take (natOf 10 size)⟩ else none

end Reader

section Bytes

def flat (lines : List Header) : Str := lines.flatMap fun header => header.line ++ lineEnd

def statusText (code : Nat) : Str := text "HTTP/1.1 " ++ decimal code ++ text " " ++ responseCodeToString code

def message (code : Nat) (lines : List Header) (body : Str) : Str :=
  statusText code ++ (lineEnd ++ (flat lines ++ (lineEnd ++ body)))

theorem flat_append (lines more : List Header) : flat (lines ++ more) = flat lines ++ flat more :=
  List.flatMap_append

theorem colon_text : text ": " = [58, 32] := by decide

theorem lineEnd_text : text "\r\n" = lineEnd := by decide

theorem sendHeader_last (header : Header) (lines : List Header) (w : Writer)
    (before : w.responseHeaders = flat lines) :
    sendHeader header.name header.value false w = { w with responseHeaders := flat (lines ++ [header]) } := by
  have line : flat [header] = header.name ++ text ": " ++ header.value ++ text "\r\n" := by
    rw [colon_text, lineEnd_text, flat, List.flatMap_singleton, Header.line]
    simp only [List.append_assoc, List.cons_append, List.nil_append]
  rw [flat_append, line, ← before]
  rfl

theorem sendHeader_first (header : Header) (lines : List Header) (w : Writer)
    (before : w.responseHeaders = flat lines) :
    sendHeader header.name header.value true w = { w with responseHeaders := flat (header :: lines) } := by
  have line : flat (header :: lines) = header.name ++ text ": " ++ header.value ++ text "\r\n" ++ flat lines := by
    rw [colon_text, lineEnd_text, flat, List.flatMap_cons, Header.line]
    simp only [List.append_assoc, List.cons_append, List.nil_append]
    rfl
  rw [line, ← before]
  rfl

/-- What a line of a head must be to stand for its two texts. -/
def Clean (name value : String) : Prop :=
  (∀ b ∈ text name, b ∉ [0, 13, 58]) ∧ (∀ b ∈ text value, b ∉ [0, 13]) ∧ trim (text value) = text value

instance (name value : String) : Decidable (Clean name value) := inferInstanceAs (Decidable (_ ∧ _ ∧ _))

def fixed (name value : String) (clean : Clean name value) : Header :=
  ⟨text name, text value, clean.1, clean.2.1, clean.2.2⟩

def cacheLine : Header := fixed "Cache-Control" "no-cache, no-store, must-revalidate" (by decide +kernel)
def pragmaLine : Header := fixed "Pragma" "no-cache" (by decide +kernel)
def loginLine : Header := fixed "WWW-Authenticate" "Basic realm=\"Login Required\"" (by decide +kernel)
def gzipLine : Header := fixed "Content-Encoding" "gzip" (by decide +kernel)
def closeLine : Header := fixed "Connection" "close" (by decide +kernel)
def originLine : Header := fixed "Access-Control-Allow-Origin" "*" (by decide +kernel)

def lengthLines (w : Writer) (length : Nat) : List Header :=
  if w.contentLength = contentLengthNotSet then [SentBody.contentLength length]
  else if w.contentLength ≠ contentLengthUnknown then [SentBody.contentLength w.contentLength.toNat]
  else []

theorem send_message (code : Nat) (type : Header) (typed : type.name = text "Content-Type") (content : Str)
    (lines : List Header) (w : Writer) (before : w.responseHeaders = flat lines) : send code type.value content w =
      ⟨[], w.contentLength, w.sent ++
        message code (type :: lines ++ lengthLines w content.length ++ [closeLine, originLine]) content⟩ := by
  have first := sendHeader_first type lines w before
  rw [typed] at first
  have length : (if w.contentLength = contentLengthNotSet
      then sendHeader (text "Content-Length") (decimal content.length) false
        { w with responseHeaders := flat (type :: lines) }
      else if w.contentLength ≠ contentLengthUnknown
        then sendHeader (text "Content-Length") (decimal w.contentLength.toNat) false
        { w with responseHeaders := flat (type :: lines) }
      else { w with responseHeaders := flat (type :: lines) }) =
      { w with responseHeaders := flat (type :: lines ++ lengthLines w content.length) } := by
    unfold lengthLines
    split
    · exact sendHeader_last (SentBody.contentLength content.length) (type :: lines) _ rfl
    split
    · exact sendHeader_last (SentBody.contentLength w.contentLength.toNat) (type :: lines) _ rfl
    · rw [List.append_nil]
  have close := sendHeader_last closeLine (type :: lines ++ lengthLines w content.length)
    { w with responseHeaders := flat (type :: lines ++ lengthLines w content.length) } rfl
  have origin := sendHeader_last originLine (type :: lines ++ lengthLines w content.length ++ [closeLine])
    { w with responseHeaders := flat (type :: lines ++ lengthLines w content.length ++ [closeLine]) } rfl
  rw [List.append_assoc (type :: lines ++ lengthLines w content.length)] at origin
  rw [send, prepareHeader, first]
  dsimp only
  rw [length]
  have closed : sendHeader (text "Connection") (text "close") false
      { w with responseHeaders := flat (type :: lines ++ lengthLines w content.length) } = _ := close
  rw [closed]
  have opened : sendHeader (text "Access-Control-Allow-Origin") (text "*") false
      { w with responseHeaders := flat (type :: lines ++ lengthLines w content.length ++ [closeLine]) } =
      _ := origin
  rw [opened, sendContent, sendContent, message, statusText, lineEnd_text]
  simp only [List.append_assoc]
  rfl

theorem contentTypes_visible : ∀ type ∈ "application/octet-stream" :: contentTypes.map Prod.snd,
    (text type).all (fun b => decide (32 < b)) = true := by
  decide +kernel

theorem getContentType_clean (path : Str) : (∀ b ∈ getContentType path, b ∉ [0, 13]) ∧
    trim (getContentType path) = getContentType path := by
  have listed : ((contentTypes.find? fun entry => endsWith entry.1 path).map Prod.snd).getD
      "application/octet-stream" ∈
      "application/octet-stream" :: contentTypes.map Prod.snd := by
    rcases found : contentTypes.find? fun entry => endsWith entry.1 path with _ | entry
    · rw [found]
      exact List.mem_cons_self
    · rw [found]
      exact List.mem_cons_of_mem _ (List.mem_map_of_mem (List.mem_of_find?_eq_some found))
  have visible : ∀ b ∈ getContentType path, 32 < b := by
    intro b member
    exact decide_eq_true_eq.mp (List.all_eq_true.mp (contentTypes_visible _ listed) b member)
  refine ⟨?_, trim_visible _ visible⟩
  intro b member mark
  have above := visible b member
  rcases List.mem_cons.mp mark with rfl | mark
  · exact absurd above (by decide)
  · rw [List.mem_singleton.mp mark] at above
    exact absurd above (by decide)

def htmlLine : Header := fixed "Content-Type" "text/html" (by decide +kernel)
def plainLine : Header := fixed "Content-Type" "text/plain" (by decide +kernel)
def typeLine (path : Str) : Header :=
  SentBody.contentType (getContentType path) (getContentType_clean path).1 (getContentType_clean path).2

def gzipLines (path requested : Str) : List Header :=
  if endsWith ".gz" path = true ∧ getContentType requested ≠ text "application/x-gzip" ∧
    getContentType requested ≠ text "application/octet-stream" then [gzipLine] else []

def pageLines : List Header := [htmlLine, cacheLine, pragmaLine, closeLine, originLine]
def updateLines (content : Str) : List Header :=
  [htmlLine, SentBody.contentLength content.length, closeLine, originLine]
def deniedLines : List Header := [htmlLine, loginLine, SentBody.contentLength 0, closeLine, originLine]
def notFoundLines (uri : Str) : List Header :=
  [plainLine, SentBody.contentLength (text "Not found: " ++ uri).length, closeLine, originLine]
def fileLines (path contents requested : Str) : List Header :=
  typeLine requested :: gzipLines path requested ++ [SentBody.contentLength contents.length, closeLine, originLine]

def Reply.bytes : Reply → Str
  | .page content => message 200 pageLines content
  | .updatePage content => message 200 (updateLines content) content
  | .denied => message 401 deniedLines []
  | .notFound uri => message 404 (notFoundLines uri) (text "Not found: " ++ uri)
  | .file path contents requested => message 200 (fileLines path contents requested) contents
  | .redirect uri => text "HTTP/1.1 303 OK\r\nLocation:" ++ uri ++ text "\r\nCache-Control: no-cache\r\n\r\n"

/-- Answers that bring their own length, or none, can be sent while a request is read. -/
def Reply.Early : Reply → Prop
  | .page _ | .redirect _ => True
  | .updatePage _ | .denied | .notFound _ | .file _ _ _ => False

/-- A file has a size, and the file page sends clients to itself and to the upload. -/
def Reply.Fits : Reply → Prop
  | .file _ contents _ => contents.length < 2 ^ 32 - 2
  | .redirect uri => uri = text "/spiffs.html" ∨ uri = text "/upload"
  | .page _ | .updatePage _ | .denied | .notFound _ => True

theorem lengthLines_notSet (w : Writer) (notSet : w.contentLength = contentLengthNotSet) (length : Nat) :
    lengthLines w length = [SentBody.contentLength length] := if_pos notSet

theorem lengthLines_file (w : Writer) (contents : Str) (short : contents.length < 2 ^ 32 - 2)
    (size : w.contentLength = UInt32.ofNat contents.length) :
    lengthLines w 0 = [SentBody.contentLength contents.length] := by
  have value : w.contentLength.toNat = contents.length := by
    rw [size, UInt32.toNat_ofNat_of_lt']
    have whole : UInt32.size = 2 ^ 32 := rfl
    omega
  have other (n : UInt32) (large : 2 ^ 32 - 2 ≤ n.toNat) : w.contentLength ≠ n := by
    intro same
    rw [same] at value
    omega
  rw [lengthLines, if_neg (other _ (by decide)), if_pos (other _ (by decide)), value]

/-- Whatever is sent, the variable with the head is empty behind it. -/
theorem Reply.send_bytes (reply : Reply) (w : Writer) (empty : w.responseHeaders = [])
    (fresh : reply.Early ∨ w.contentLength = contentLengthNotSet) (fits : reply.Fits) :
    (reply.send w).responseHeaders = [] ∧ (reply.send w).sent = w.sent ++ reply.bytes := by
  cases reply with
  | page content =>
    have cache : sendHeader (text "Cache-Control") (text "no-cache, no-store, must-revalidate") false w =
        { w with responseHeaders := flat [cacheLine] } := sendHeader_last cacheLine [] w empty
    have pragma : sendHeader (text "Pragma") (text "no-cache") false
      { w with responseHeaders := flat [cacheLine] } =
        { w with responseHeaders := flat [cacheLine, pragmaLine] } := sendHeader_last pragmaLine [cacheLine] _ rfl
    have sent : Responses.send 200 (text "text/html") content ⟨flat [cacheLine, pragmaLine], contentLengthUnknown,
        w.sent⟩ =
        ⟨[], contentLengthUnknown, w.sent ++ message 200 pageLines content⟩ :=
      send_message 200 htmlLine rfl content [cacheLine, pragmaLine] _ rfl
    rw [Reply.send, contentOutput, cache]
    rw [pragma]
    dsimp only
    rw [sent]
    exact ⟨rfl, rfl⟩
  | updatePage content =>
    have notSet := fresh.resolve_left id
    have sent := send_message 200 htmlLine rfl content [] w empty
    rw [lengthLines_notSet _ notSet] at sent
    have typed : htmlLine.value = text "text/html" := rfl
    rw [typed] at sent
    rw [Reply.send, sent]
    exact ⟨rfl, rfl⟩
  | denied =>
    have notSet := fresh.resolve_left id
    have login : sendHeader (text "WWW-Authenticate") (text "Basic realm=\"Login Required\"") false w =
        { w with responseHeaders := flat [loginLine] } := sendHeader_last loginLine [] w empty
    have sent := send_message 401 htmlLine rfl [] [loginLine] { w with responseHeaders := flat [loginLine] } rfl
    rw [lengthLines_notSet { w with responseHeaders := flat [loginLine] } notSet] at sent
    have typed : htmlLine.value = text "text/html" := rfl
    rw [typed] at sent
    rw [Reply.send, requestAuthentication, login, sent]
    exact ⟨rfl, rfl⟩
  | notFound uri =>
    have notSet := fresh.resolve_left id
    have sent := send_message 404 plainLine rfl (text "Not found: " ++ uri) [] w empty
    rw [lengthLines_notSet _ notSet] at sent
    have typed : plainLine.value = text "text/plain" := rfl
    rw [typed] at sent
    rw [Reply.send, sent]
    exact ⟨rfl, rfl⟩
  | file path contents requested =>
    have sized : (if endsWith ".gz" path = true ∧ getContentType requested ≠ text "application/x-gzip" ∧
        getContentType requested ≠ text "application/octet-stream" then
          sendHeader (text "Content-Encoding")
          (text "gzip") false { w with contentLength := UInt32.ofNat contents.length }
        else { w with contentLength := UInt32.ofNat contents.length }) =
        ⟨flat (gzipLines path requested), UInt32.ofNat contents.length, w.sent⟩ := by
      unfold gzipLines
      split
      · exact sendHeader_last gzipLine [] { w with contentLength := UInt32.ofNat contents.length } empty
      · rw [empty]
        rfl
    have sent := send_message 200 (typeLine requested) rfl [] (gzipLines path requested)
      ⟨flat (gzipLines path requested), UInt32.ofNat contents.length, w.sent⟩ rfl
    rw [List.length_nil, lengthLines_file _ contents fits rfl] at sent
    have typed : (typeLine requested).value = getContentType requested := rfl
    rw [typed] at sent
    rw [Reply.send, streamFile]
    rw [sized, sent, sendContent, Reply.bytes, fileLines, message, message]
    simp only [List.append_assoc, List.append_nil, List.cons_append, List.nil_append, and_self]
  | redirect uri => exact ⟨empty, rfl⟩

end Bytes

section Reading

def fields (lines : List Header) : List (Str × Str) := lines.map fun header => (header.name, header.value)

theorem collected (lines : List Header) (before : List (Str × Str)) :
    lines.foldl (fun lines header => lines ++ [(header.name, header.value)]) before = before ++ fields lines := by
  induction lines generalizing before with
  | nil => exact (List.append_nil before).symm
  | cons header later ih =>
    rw [List.foldl_cons, ih, List.append_assoc]
    rfl

theorem readResponse_message (code : Nat) (reason : Str)
    (known : readStatus (statusText code) = some (code, reason)) (unmarked : 13 ∉ statusText code)
    (lines : List Header) (rest : Str) : readResponse (message code lines rest) =
      match (fields lines).lookup (text "Content-Length") with
      | none => some ⟨code, reason, fields lines, rest⟩
      | some size =>
        if natOf 10 size ≤ rest.length then some ⟨code, reason, fields lines, rest.take (natOf 10 size)⟩
        else none := by
  have heads := readHeaders_lines trimmedValue (fun name value lines => lines ++ [(name, value)])
    Header.trimmed_value lines rest
    _ (lines_length lines rest) []
  rw [collected, List.nil_append] at heads
  rw [readResponse, message, readLine_found _ _ unmarked]
  dsimp only
  rw [known, flat, heads]

theorem lookup_length (before after : List Header) (n : Nat)
    (other : ∀ header ∈ before, header.name ≠ text "Content-Length") :
    (fields (before ++ SentBody.contentLength n :: after)).lookup (text "Content-Length") = some (decimal n) := by
  induction before with
  | nil => exact List.lookup_cons_self
  | cons header rest ih =>
    have missed : (text "Content-Length" == header.name) = false := by
      simpa using fun same => other header List.mem_cons_self same.symm
    rw [fields, List.cons_append, List.map_cons, List.lookup_cons, missed]
    exact ih fun later member => other later (List.mem_cons_of_mem header member)

theorem readResponse_sized (code : Nat) (reason : Str) (known : readStatus (statusText code) = some (code, reason))
    (unmarked : 13 ∉ statusText code) (before after : List Header)
    (other : ∀ header ∈ before, header.name ≠ text "Content-Length") (body behind : Str) :
    readResponse (message code (before ++ SentBody.contentLength body.length :: after) body ++ behind) =
      some ⟨code, reason, fields (before ++ SentBody.contentLength body.length :: after), body⟩ := by
  have joined : message code (before ++ SentBody.contentLength body.length :: after) body ++ behind =
      message code (before ++ SentBody.contentLength body.length :: after) (body ++ behind) := by
    simp only [message, List.append_assoc]
  rw [joined, readResponse_message code reason known unmarked, lookup_length before after body.length other]
  dsimp only
  rw [natOf_decimal, if_pos (by rw [List.length_append]; omega), List.take_left]

/-- An answer as a client should read it, when `behind` is sent behind it. -/
def Reply.response (behind : Str) : Reply → Response
  | .page content => ⟨200, text "OK", fields pageLines, content ++ behind⟩
  | .updatePage content => ⟨200, text "OK", fields (updateLines content), content⟩
  | .denied => ⟨401, text "Unauthorized", fields deniedLines, []⟩
  | .notFound uri => ⟨404, text "Not Found", fields (notFoundLines uri), text "Not found: " ++ uri⟩
  | .file path contents requested => ⟨200, text "OK", fields (fileLines path contents requested), contents⟩
  | .redirect uri => ⟨303, text "OK", [(text "Location", uri), (text "Cache-Control", text "no-cache")], behind⟩

theorem status_known : (readStatus (statusText 200) = some (200, text "OK") ∧ 13 ∉ statusText 200) ∧
    (readStatus (statusText 401) = some (401, text "Unauthorized") ∧ 13 ∉ statusText 401) ∧
    (readStatus (statusText 404) = some (404, text "Not Found") ∧ 13 ∉ statusText 404) := by
  decide +kernel

theorem gzipLines_other (path requested : Str) : ∀ header ∈ typeLine requested :: gzipLines path requested,
    header.name ≠ text "Content-Length" := by
  have type : text "Content-Type" ≠ text "Content-Length" := by decide +kernel
  have gzip : gzipLine.name ≠ text "Content-Length" := by decide +kernel
  intro header member
  rcases List.mem_cons.mp member with rfl | member
  · exact type
  · unfold gzipLines at member
    split at member
    · rw [List.mem_singleton.mp member]
      exact gzip
    · cases member

theorem readHeaders_line {α : Type} (value : Nat → Str → Str) (collect : Str → Str → α → α) (fuel : Nat)
    (line rest : Str) (headers : α) (unmarked : 13 ∉ line) (filled : cString line ≠ []) (headerDiv : Nat)
    (found : indexOf 58 0 line = some headerDiv) :
    readHeaders value collect (fuel + 1) (line ++ (lineEnd ++ rest)) headers =
      readHeaders value collect fuel rest
        (collect (substring 0 headerDiv line) (value headerDiv line) headers) := by
  rw [readHeaders, readLine_found _ _ unmarked]
  dsimp only
  rw [if_neg filled, found]

/-- The line with the location has no blank behind its colon. -/
theorem read_redirect (uri : Str) (fits : (Reply.redirect uri).Fits) (behind : Str) :
    readResponse ((Reply.redirect uri).bytes ++ behind) = some ((Reply.redirect uri).response behind) := by
  have location : ∀ uri ∈ [text "/spiffs.html", text "/upload"], 13 ∉ text "Location:" ++ uri ∧
      cString (text "Location:" ++ uri) ≠ [] ∧ indexOf 58 0 (text "Location:" ++ uri) = some 8 ∧
      substring 0 8 (text "Location:" ++ uri) = text "Location" ∧ trimmedValue 8 (text "Location:" ++ uri) =
        uri := by
    decide +kernel
  have cache : 13 ∉ text "Cache-Control: no-cache" ∧ cString (text "Cache-Control: no-cache") ≠ [] ∧
      indexOf 58 0 (text "Cache-Control: no-cache") = some 13 ∧
      substring 0 13 (text "Cache-Control: no-cache") = text "Cache-Control" ∧
      trimmedValue 13 (text "Cache-Control: no-cache") = text "no-cache" := by
    decide +kernel
  have status : 13 ∉ text "HTTP/1.1 303 OK" ∧ readStatus (text "HTTP/1.1 303 OK") = some (303, text "OK") := by
    decide +kernel
  obtain ⟨unmarked, filled, colon, name, value⟩ := location uri (by simpa [Reply.Fits] using fits)
  have front : text "HTTP/1.1 303 OK\r\nLocation:" = text "HTTP/1.1 303 OK" ++ (lineEnd ++ text "Location:") := by
    decide +kernel
  have back : text "\r\nCache-Control: no-cache\r\n\r\n" =
      lineEnd ++ (text "Cache-Control: no-cache" ++ (lineEnd ++ lineEnd)) := by decide +kernel
  have shape : (Reply.redirect uri).bytes ++ behind =
      text "HTTP/1.1 303 OK" ++ (lineEnd ++ ((text "Location:" ++ uri) ++
      (lineEnd ++ (text "Cache-Control: no-cache" ++ (lineEnd ++ (lineEnd ++ behind)))))) := by
    rw [Reply.bytes, front, back]
    simp only [List.append_assoc]
  have last (fuel : Nat) (headers : List (Str × Str)) : readHeaders trimmedValue
      (fun name value lines => lines ++ [(name, value)]) (fuel + 1) (lineEnd ++ behind) headers =
      (headers, behind) := by
    have empty : readLine (lineEnd ++ behind) = ([], behind) := readLine_found [] behind List.not_mem_nil
    rw [readHeaders, empty]
    rfl
  rw [shape, readResponse, readLine_found _ _ status.1]
  dsimp only
  rw [status.2]
  dsimp only
  generalize length : ((text "Location:" ++ uri) ++
    (lineEnd ++ (text "Cache-Control: no-cache" ++ (lineEnd ++ (lineEnd ++ behind))))).length =
    size
  obtain ⟨fuel, rfl⟩ : ∃ fuel, size = fuel + 2 := by
    have two : lineEnd.length = 2 := rfl
    simp only [List.length_append, two] at length
    exact ⟨size - 2, by omega⟩
  rw [readHeaders_line _ _ (fuel + 2) _ _ _ unmarked filled 8 colon,
    readHeaders_line _ _ (fuel + 1) _ _ _ cache.1 cache.2.1 13 cache.2.2.1, last, name, value, cache.2.2.2.1,
    cache.2.2.2.2]
  have unsized : ([] ++ [(text "Location", uri)] ++ [(text "Cache-Control", text "no-cache")]).lookup
      (text "Content-Length") = none := by
    have other : (text "Content-Length" == text "Location") = false ∧
        (text "Content-Length" == text "Cache-Control") = false := by
      decide +kernel
    simp only [List.nil_append, List.cons_append, List.lookup_cons, other.1, other.2, List.lookup_nil]
  rw [unsized]
  rfl

theorem read_reply (reply : Reply) (fits : reply.Fits) (behind : Str) :
    readResponse (reply.bytes ++ behind) = some (reply.response behind) := by
  obtain ⟨ok, unauthorized, notFound⟩ := status_known
  cases reply with
  | page content =>
    have unsized : (fields pageLines).lookup (text "Content-Length") = none := by decide +kernel
    have joined : (Reply.page content).bytes ++ behind = message 200 pageLines (content ++ behind) := by
      simp only [Reply.bytes, message, List.append_assoc]
    rw [joined, readResponse_message 200 _ ok.1 ok.2, unsized]
    rfl
  | updatePage content =>
    exact readResponse_sized 200 _ ok.1 ok.2 [htmlLine] [closeLine, originLine] (by decide +kernel) content behind
  | denied =>
    exact readResponse_sized 401 _ unauthorized.1 unauthorized.2 [htmlLine, loginLine] [closeLine, originLine]
      (by decide +kernel) [] behind
  | notFound uri =>
    exact readResponse_sized 404 _ notFound.1 notFound.2 [plainLine] [closeLine, originLine]
      (by decide +kernel) _ behind
  | file path contents requested =>
    exact readResponse_sized 200 _ ok.1 ok.2 (typeLine requested :: gzipLines path requested)
      [closeLine, originLine] (gzipLines_other path requested) contents behind
  | redirect uri => exact read_redirect uri fits behind

end Reading

section Run

/-- A request as the server meets it: the device as it is then, whatever has come before. -/
structure Met where
  request : Request
  sketch : Globals
  site : Site
  stored : ∀ file ∈ sketch.spiffs, file.2.length < 2 ^ 32 - 2

namespace Met
variable (met : Met)

def replies : List Reply := Responses.replies met.site met.request met.sketch

theorem content_mem (path contents : Str) (files : Files) (held : content path files = some contents) :
    ∃ file ∈ files, file.2 = contents := by
  induction files with
  | nil => cases held
  | cons file rest ih =>
    rw [content, List.lookup_cons] at held
    split at held
    · exact ⟨file, List.mem_cons_self, by injection held⟩
    · obtain ⟨other, member, same⟩ := ih held
      exact ⟨other, List.mem_cons_of_mem file member, same⟩

theorem handleSpiffsReply_early (site : Site) (uri : Str)
    (known : uri = text "/spiffs.html" ∨ uri = text "/upload") (args : Arguments) (s : Globals) :
    (handleSpiffsReply site uri args s).Early ∧ (handleSpiffsReply site uri args s).Fits := by
  unfold handleSpiffsReply
  split
  · exact ⟨trivial, known⟩
  · exact ⟨trivial, trivial⟩

theorem uploadReplies_early (site : Site) (query : Arguments) (parts : List Part) (s : Globals) :
    ∀ reply ∈ uploadReplies site query parts s, reply.Early ∧ reply.Fits := by
  induction parts generalizing s with
  | nil => exact List.forall_mem_nil _
  | cons part rest ih =>
    cases part with
    | field name value => exact ih s
    | file filename chunks complete =>
      rw [uploadReplies]
      dsimp only
      split
      · intro reply member
        rcases List.mem_cons.mp member with rfl | later
        · exact handleSpiffsReply_early site _ (.inr rfl) query _
        · exact ih _ reply later
      · exact List.forall_mem_nil _

theorem parseReplies_early : ∀ reply ∈ parseReplies met.site met.request met.sketch, reply.Early ∧ reply.Fits := by
  unfold parseReplies
  split
  · split
    · exact uploadReplies_early _ _ _ _
    · exact List.forall_mem_nil _
  · exact List.forall_mem_nil _

theorem pageReply_fits (path : Str) (required : Option Method) (page : Page)
    (found : routeOf met.site.isFile met.request = some (.function path required page)) (args : Arguments)
    (s : Globals) :
    ∀ reply ∈ pageReply met.site met.request.authorized met.request.uri args s page, reply.Fits := by
  obtain ⟨uri, -, member⟩ := routeOf_function met.site.isFile met.request path required page found
  intro reply sent
  cases page with
  | root => cases sent; trivial
  | viewErtrag => cases sent; trivial
  | jsonArgs => cases sent; trivial
  | upload => cases sent
  | setup =>
    rw [pageReply] at sent
    dsimp only at sent
    split at sent
    · split at sent
      · cases sent
      · cases sent; trivial
    · cases sent; trivial
  | spiffs =>
    have here : path = text "/spiffs.html" := by
      simp [routes] at member
      exact member.1
    rw [pageReply] at sent
    split at sent
    · cases sent
      exact (handleSpiffsReply_early met.site _ (.inl (uri.trans here)) args s).2
    · cases sent; trivial

theorem handlerReply_fits : ∀ reply ∈ handlerReply met.site met.request met.sketch, reply.Fits := by
  intro reply sent
  rw [handlerReply] at sent
  have idle := parseRequest_idle (routeOf met.site.isFile met.request) met.request met.sketch
  rcases parsed : parseRequest (routeOf met.site.isFile met.request) met.request met.sketch with ⟨args, after⟩
  rw [parsed] at sent idle
  cases args with
  | none => cases sent
  | some args =>
    dsimp only at sent idle
    rcases route : routeOf met.site.isFile met.request with _ | found
    · rw [route] at sent
      cases sent
      split
      · unfold updateReply
        split
        · split <;> trivial
        · split <;> trivial
        all_goals trivial
      · trivial
    rw [route] at sent idle
    cases found with
    | function path required page => exact pageReply_fits met path required page route args after reply sent
    | static uri path =>
      have same : after = met.sketch := idle (by
        intro found same
        cases same
        rfl)
      subst same
      cases sent
      unfold staticReply
      dsimp only
      split
      · rename_i contents held
        obtain ⟨file, member, size⟩ := content_mem _ contents _ held
        exact size ▸ met.stored file member
      · trivial

def step (w : Writer) : Writer := respond met.site met.request met.sketch { w with sent := [] }

theorem send_early (list : List Reply) (early : ∀ reply ∈ list, reply.Early ∧ reply.Fits) (w : Writer)
    (empty : w.responseHeaders = []) :
    (list.foldl (fun w reply => reply.send w) w).responseHeaders = [] ∧
      (list.foldl (fun w reply => reply.send w) w).sent = w.sent ++ list.flatMap Reply.bytes := by
  induction list generalizing w with
  | nil => exact ⟨empty, (List.append_nil w.sent).symm⟩
  | cons reply later ih =>
    obtain ⟨sooner, fits⟩ := early reply List.mem_cons_self
    obtain ⟨headers, sent⟩ := reply.send_bytes w empty (.inl sooner) fits
    obtain ⟨last, all⟩ := ih (fun other member => early other (List.mem_cons_of_mem reply member))
      (reply.send w) headers
    exact ⟨last, by rw [List.foldl_cons, all, sent, List.flatMap_cons, List.append_assoc]⟩

/-- The client is sent its answers and nothing else, and nothing is left for the next. -/
theorem step_sent (w : Writer) (empty : w.responseHeaders = []) :
    (met.step w).responseHeaders = [] ∧ (met.step w).sent = met.replies.flatMap Reply.bytes := by
  obtain ⟨headers, sent⟩ := send_early _ met.parseReplies_early { w with sent := [] } empty
  rw [step, respond, replies, Responses.replies, List.flatMap_append, ← List.nil_append (List.flatMap _ _), ← sent]
  rcases last : handlerReply met.site met.request met.sketch with _ | reply
  · exact ⟨headers, by rw [Option.toList_none, List.flatMap_nil, List.append_nil]; rfl⟩
  · have fits := met.handlerReply_fits reply last
    obtain ⟨none, all⟩ := reply.send_bytes { (parseReplies met.site met.request met.sketch).foldl
      (fun w reply => reply.send w) { w with sent := [] } with contentLength := contentLengthNotSet } headers
      (.inr rfl) fits
    exact ⟨none, by rw [Option.toList_some, List.flatMap_singleton]; exact all⟩

end Met

/-- After every run of requests, a client reads the answer that is meant for it, with its own head and all of its
body; a client without an answer reads none. Only the second file of an upload is answered in the body of the
first. -/
theorem responses_read (earlier : List Met) (met : Met) (first : UInt32) :
    readResponse (met.step (Runs.run (fun w met => Met.step met w) { contentLength := first } earlier)).sent =
      match met.replies with
      | [] => none
      | reply :: later => some (reply.response (later.flatMap Reply.bytes)) := by
  have empty : (Runs.run (fun w met => Met.step met w) { contentLength := first } earlier).responseHeaders
      = [] := by
    generalize start : ({ contentLength := first } : Writer) = w
    have none : w.responseHeaders = [] := by rw [← start]
    clear start
    induction earlier generalizing w with
    | nil => exact none
    | cons met later ih => exact ih _ (met.step_sent w none).1
  have fits : ∀ reply ∈ met.replies, reply.Fits := by
    intro reply member
    rcases List.mem_append.mp member with early | last
    · exact (met.parseReplies_early reply early).2
    · exact met.handlerReply_fits reply (Option.mem_toList.mp last)
  rw [(met.step_sent _ empty).2]
  generalize met.replies = list at fits
  rcases list with _ | ⟨reply, later⟩
  · decide
  · rw [List.flatMap_cons]
    exact read_reply reply (fits reply List.mem_cons_self) _

/-- A device with the log alone, as its clients meet it. -/
def logSite : Site := ⟨fun _ _ _ => [], fun path => path == text "/log.txt", 0, {}, false⟩

def logDevice : Globals := powerOn (fun _ => 0) true [(text "/log.txt", text "Started")]

theorem logDevice_stored : ∀ file ∈ logDevice.spiffs, file.2.length < 2 ^ 32 - 2 := by
  intro file member
  rw [List.mem_singleton.mp member]
  decide +kernel

def unnamed : Met := ⟨⟨.get, text "/setup.html", [], .plain [], false⟩, logDevice, logSite, logDevice_stored⟩

def logReader : Met := ⟨⟨.get, text "/log.txt", [], .plain [], false⟩, logDevice, logSite, logDevice_stored⟩

/-- A client who is turned away leaves nothing in the answer of the next, who reads the log. -/
theorem responses_read_of_log : readResponse (logReader.step (Runs.run (fun w met => Met.step met w)
    { contentLength := contentLengthNotSet } [unnamed])).sent =
      some ⟨200, text "OK", fields (fileLines (text "/log.txt") (text "Started") (text "/log.txt")),
      text "Started"⟩ := by
  rw [responses_read]
  decide +kernel

end Run
end EspLog.Responses

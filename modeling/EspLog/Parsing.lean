import EspLog.WebServer
import EspLog.Support.Base64
import EspLog.Support.Scan

/-! `Parsing.cpp` of the web server: from the bytes that a client sends to the request that the server dispatches. -/

namespace EspLog.Parsing
open CText Websites WebServer Scan

section Strings

/-- `String::indexOf(char, from)`; the search stops at a NUL. -/
def indexOf (b : UInt8) (start : Nat) (s : Str) : Option Nat :=
  ((cString (s.drop start)).findIdx? (· == b)).map (start + ·)

/-- `String::substring(left, right)`, which swaps its bounds when they are the wrong way round. -/
def substring (left right : Nat) (s : Str) : Str := (s.take (max left right)).drop (min left right)

/-- The byte that `strtol` reads in `0xab`: it stops at the first character that is no digit. -/
def hexByte (a b : UInt8) : UInt8 :=
  match digitValue a, digitValue b with
  | some x, some y => UInt8.ofNat (16 * x + y)
  | some x, none => UInt8.ofNat x
  | none, _ => 0

/-- A percent sign with fewer than two characters behind it stands for itself. -/
def urlDecode : Str → Str
  | [] => []
  | [b] => [if b = 43 then 32 else b]
  | [b, c] => (if b = 43 then 32 else b) :: urlDecode [c]
  | b :: c :: d :: rest =>
    if b = 37 then hexByte c d :: urlDecode rest
    else (if b = 43 then 32 else b) :: urlDecode (c :: d :: rest)

end Strings

section Arguments
variable (data : Str)

/-- The first loop of `_parseArguments` counts the ampersands. -/
def countArguments : Nat → Nat → Nat → Nat
  | 0, _, count => count
  | fuel + 1, i, count =>
    if i < data.length then
      match indexOf 38 i data with
      | none => count
      | some found => countArguments fuel (found + 1) (count + 1)
    else count

/-- The second fills `_currentArgs`, which has room for `count` of them. -/
def fillArguments (count : Nat) : Nat → Nat → Arguments → Arguments
  | 0, _, args => args
  | fuel + 1, pos, args =>
    if args.length < count then
      match indexOf 61 pos data, indexOf 38 pos data with
      | none, none => args
      | none, some next => fillArguments count fuel (next + 1) args
      | some equal, none => args ++ [(substring pos equal data, urlDecode (data.drop (equal + 1)))]
      | some equal, some next =>
        if equal > next then fillArguments count fuel (next + 1) args
        else fillArguments count fuel (next + 1)
          (args ++ [(substring pos equal data, urlDecode (substring (equal + 1) next data))])
    else args

/-- `_parseArguments`; each turn of a loop moves on in the data. -/
def parseArguments : Arguments :=
  if data.length = 0 then []
  else fillArguments data (countArguments data (data.length + 1) 0 1) (data.length + 1) 0 []

end Arguments

section Upload

/-- `HTTP_UPLOAD_BUFLEN`. -/
def uploadBuflen : Nat := 2048

/-- `_currentUpload`: what its buffer holds, after the chunks that the handler was given. -/
structure Upload where
  chunks : List Str := []
  buf : Str := []
  fits : buf.length ≤ uploadBuflen := by decide

namespace Upload
variable (upload : Upload)

/-- `_uploadWriteByte`: a full buffer goes to the handler first. -/
def writeByte (b : UInt8) : Upload :=
  if full : upload.buf.length = uploadBuflen
    then { chunks := upload.chunks ++ [upload.buf], buf := [b], fits := Nat.le_of_ble_eq_true rfl }
  else
    { chunks := upload.chunks, buf := upload.buf ++ [b]
      fits := by
        have fits := upload.fits
        rw [List.length_append, List.length_singleton]
        omega }

def writeBytes (bytes : Str) : Upload := bytes.foldl writeByte upload

/-- At the end of the file the handler gets the last chunk, however short. -/
def finish : List Str := upload.chunks ++ [upload.buf]

/-- All bytes that were written. -/
def bytes : Str := upload.chunks.flatten ++ upload.buf

end Upload

/-- How the reading of a file ends, with what the client has sent behind it. -/
inductive FileEnd where
  | complete (upload : Upload) (client : Str)
  | aborted (upload : Upload)

variable (boundary : Str) (behind : Str → Str)

/-- `strstr` in the bytes read for a boundary, which no NUL ends: the search goes on in the memory behind the
array. -/
def holdsBoundary (endBuf client : Str) : Bool := decide (boundary <:+: cString (endBuf ++ behind client))

/-- The loop `readfile` of `_parseForm`. A client that has sent all these bytes is gone, so that it is connected
exactly while some are left. -/
def readFile (argByte : UInt8) (client : Str) (upload : Upload) : FileEnd :=
  if argByte ≠ 13 then
    match client with
    | [] => .aborted upload
    | next :: client => readFile next client (upload.writeByte argByte)
  else
    match client with
    | [] | [_] => .aborted upload
    | second :: third :: client =>
      if second = 10 then
        if client = [] then .aborted upload
        else if third ≠ 45 then readFile third client (upload.writeBytes [13, 10])
        else
          match client with
          | [] | [_] => .aborted upload
          | fourth :: client =>
            if fourth ≠ 45 then readFile fourth client (upload.writeBytes [13, 10, 45])
            else
              let endBuf := client.take boundary.length
              if holdsBoundary boundary behind endBuf (client.drop boundary.length) = true then
                .complete upload (client.drop boundary.length)
              else
                match later : client.drop boundary.length with
                | [] => .aborted (upload.writeBytes ([13, 10, 45, 45] ++ endBuf))
                | next :: client => readFile next client (upload.writeBytes ([13, 10, 45, 45] ++ endBuf))
      else readFile second (third :: client) (upload.writeByte 13)
termination_by client.length
decreasing_by
  all_goals simp only [List.length_cons]
  all_goals first
    | omega
    | have shorter := congrArg List.length later
      rw [List.length_drop, List.length_cons] at shorter
      omega

/-- The first byte of the file is read before the loop. -/
def readFrom (client : Str) (upload : Upload) : FileEnd :=
  match client with
  | [] => .aborted upload
  | argByte :: client => readFile boundary behind argByte client upload

end Upload

section Form

/-- `readStringUntil('\r')`, and then to the line feed. -/
def readLine (client : Str) : Str × Str := ((readUntil 13 client).1, (readUntil 10 (readUntil 13 client).2).2)

/-- The first line of a form is read again while it is empty. -/
def firstLine : Nat → Str → Str × Str
  | 0, client => ([], client)
  | retry + 1, client =>
    let (line, client) := readUntil 13 client
    if line.length = 0 ∧ 0 < retry then firstLine retry client else (line, client)

/-- Name and, for a file, file name of a part: `argName`, and `argFilename` with `argIsFile`. -/
structure Disposition where
  argName : Str
  argFilename : Option Str

/-- Both are found by their equals signs, and lose the quotes around them by position. -/
def disposition (line : Str) : Option Disposition :=
  if (text "Content-Disposition").isPrefixOf line = true then
    match indexOf 61 0 line with
    | none => none
    | some nameStart =>
      let argName := line.drop (nameStart + 2)
      match indexOf 61 0 argName with
      | none => some ⟨substring 0 (argName.length - 1) argName, none⟩
      | some nameStart =>
        some ⟨argName.take ((indexOf 34 0 argName).getD argName.length),
          some (substring (nameStart + 2) (argName.length - 1) argName)⟩
  else none

def dashes (boundary : Str) : Str := 45 :: 45 :: boundary

variable (boundary : Str) (behind : Str → Str)

/-- The lines of a value, up to one that begins with the boundary; this line and what follows it. At the end of the
data the loop goes on with empty lines. -/
def readValue : Nat → Str → Str → Option (Str × Str × Str)
  | 0, _, _ => none
  | fuel + 1, client, argValue =>
    let (line, client) := readLine client
    if (dashes boundary).isPrefixOf line = true then some (argValue, line, client)
    else readValue fuel client ((if argValue.length > 0 then argValue ++ [10] else argValue) ++ line)

/-- `postArgs` has room for 32 fields. -/
def postArgsSize : Nat := 32

def isField : Part → Bool
  | .field _ _ => true
  | .file _ _ _ => false

/-- How the reading of the parts ends: with the parts, with a field too many behind them, or not at all. -/
inductive PartsEnd where
  | parts (parts : List Part)
  | overrun (parts : List Part)
  | endless (parts : List Part)

/-- The loop over the parts. Every file name here is that of the part. -/
def readParts : Nat → Str → List Part → PartsEnd
  | 0, _, parts => .endless parts
  | fuel + 1, client, parts =>
    let (line, client) := readLine client
    match disposition line with
    | none => readParts fuel client parts
    | some found =>
      let (line, client) := readLine client
      let client := if (text "Content-Type").isPrefixOf line = true then (readLine client).2 else client
      match found.argFilename with
      | none =>
        match readValue boundary fuel client [] with
        | none => .endless parts
        | some (value, line, client) =>
          if (parts.filter isField).length < postArgsSize then
            let parts := parts ++ [.field found.argName value]
            if line = dashes boundary ++ [45, 45] then .parts parts else readParts fuel client parts
          else .overrun parts
      | some filename =>
        match readFrom boundary behind client {} with
        | .aborted upload => .parts (parts ++ [.file filename upload.chunks false])
        | .complete upload client =>
          let (line, client) := readLine client
          let parts := parts ++ [.file filename upload.finish true]
          if line = [45, 45] then .parts parts else readParts fuel client parts

/-- How `_parseForm` ends: with a body, out of the bounds of `postArgs`, or not at all. -/
inductive FormEnd where
  | body (body : Body)
  | overrun (parts : List Part)
  | endless (parts : List Part)

def PartsEnd.form : PartsEnd → FormEnd
  | .parts list => .body (.form list)
  | .overrun list => .overrun list
  | .endless list => .endless list

/-- `_parseForm` up to the arguments that it makes of the fields. While there are data every turn takes some, so
that a loop that has not ended by then never does. -/
def readForm (client : Str) : FormEnd :=
  let (line, client) := firstLine 3 client
  let client := (readUntil 10 client).2
  if line = dashes boundary then (readParts boundary behind (client.length + 1) client []).form
  else .body .incomplete

end Form

section Head

/-- `String::trim`. -/
def trim (s : Str) : Str := ((s.dropWhile isSpace).reverse.dropWhile isSpace).reverse

def www_username : Str := text "user"
def www_password : Str := text "Passwd"

/-- `authenticate`, with the value of the header, which is empty when it was not sent. -/
def authenticate (username password header : Str) : Bool :=
  decide (header.length > 0) && (text "Basic").isPrefixOf header &&
    trim (header.drop 6) == Base64.encode (username ++ 58 :: password)

def methodOf (methodStr : Str) : Method :=
  if methodStr = text "POST" then .post
  else if methodStr = text "DELETE" then .delete
  else if methodStr = text "OPTIONS" then .options
  else if methodStr = text "PUT" then .put
  else if methodStr = text "PATCH" then .patch
  else .get

/-- `url` and `searchStr`. -/
def splitUrl (url : Str) : Str × Str :=
  match indexOf 63 0 url with
  | none => (url, [])
  | some hasSearch => (substring 0 hasSearch url, url.drop (hasSearch + 1))

/-- The first line of a request: method, `_currentUri` and `searchStr`. -/
def requestLine (req : Str) : Option (Method × Str × Str) :=
  match indexOf 32 0 req with
  | none => none
  | some addrStart =>
    match indexOf 32 (addrStart + 1) req with
    | none => none
    | some addrEnd => some (methodOf (substring 0 addrStart req), splitUrl (substring (addrStart + 1) addrEnd req))

/-- What the lines of the head leave behind; `authorization` is the one header that is collected. -/
structure Headers where
  authorization : Str := []
  boundaryStr : Str := []
  isForm : Bool := false
  contentLength : UInt32 := 0

/-- `_collectHeader`. -/
def collectHeader (headerName headerValue : Str) (headers : Headers) : Headers :=
  if cString headerName = text "Authorization" then { headers with authorization := cString headerValue }
    else headers

/-- A line of the head before a body. -/
def bodyHeader (headerName headerValue : Str) (headers : Headers) : Headers :=
  let headers := collectHeader headerName headerValue headers
  if cString headerName = text "Content-Type" then
    if (text "text/plain").isPrefixOf headerValue = true then { headers with isForm := false }
    else if (text "multipart/form-data").isPrefixOf headerValue = true then
      let start := match indexOf 61 0 headerValue with
        | none => 0
        | some equal => equal + 1
      { headers with boundaryStr := headerValue.drop start, isForm := true }
    else headers
  else if cString headerName = text "Content-Length"
    then { headers with contentLength := (toInt headerValue).toUInt32 }
  else headers

/-- The value behind the colon: trimmed before a body, else less the two characters that are taken for colon and
blank. -/
def trimmedValue (headerDiv : Nat) (req : Str) : Str := trim (req.drop (headerDiv + 1))
def plainValue (headerDiv : Nat) (req : Str) : Str := req.drop (headerDiv + 2)

/-- The loop over the lines of the head, which an empty line ends, or one without a colon. -/
def readHeaders {α : Type} (value : Nat → Str → Str) (collect : Str → Str → α → α) :
    Nat → Str → α → α × Str
  | 0, client, headers => (headers, client)
  | fuel + 1, client, headers =>
    let (req, client) := readLine client
    if cString req = [] then (headers, client)
    else
      match indexOf 58 0 req with
      | none => (headers, client)
      | some headerDiv =>
        readHeaders value collect fuel client (collect (substring 0 headerDiv req) (value headerDiv req) headers)

end Head

section Request

/-- How the bytes of a body come in. -/
structure Arrival where
  bursts : Str → List Str
  whole : ∀ s, (bursts s).flatten = s

/-- `readBytesWithTimeout`: all that is available at a time, until there is enough. -/
def readPlain (maxLength : Nat) : List Str → Str → Str
  | [], buf => buf
  | burst :: later, buf => if buf.length < maxLength then readPlain maxLength later (buf ++ burst) else buf

/-- A plain body goes behind the query; one that is no list of arguments becomes the argument `plain`. -/
def addPlain (searchStr plainBuf : Str) : Str :=
  let searchStr := if searchStr ≠ [] then searchStr ++ [38] else searchStr
  if plainBuf.head? = some 123 ∨ plainBuf.head? = some 91 ∨ 61 ∉ cString plainBuf then
    searchStr ++ text "plain=" ++ cString plainBuf
  else searchStr ++ cString plainBuf

/-- How `_parseRequest` ends, up to the events of a form; where it does not come to its end there are the parts
that it has read by then. -/
inductive RequestEnd where
  | request (request : Request)
  | dropped
  | overrun (request : Request)
  | endless (request : Request)

def FormEnd.request (method : Method) (uri : Str) (query : Arguments) (authorized : Bool) : FormEnd → RequestEnd
  | .body read => .request ⟨method, uri, query, read, authorized⟩
  | .overrun parts => .overrun ⟨method, uri, query, .form parts, authorized⟩
  | .endless parts => .endless ⟨method, uri, query, .form parts, authorized⟩

variable (arrival : Arrival) (behind : Str → Str)

/-- `_parseRequest`, with what the handlers will be told by `authenticate`. -/
def readRequest (client : Str) : RequestEnd :=
  let (req, client) := readLine client
  match requestLine req with
  | none => .dropped
  | some (method, uri, searchStr) =>
    if readsBody method = true then
      let (headers, client) := readHeaders trimmedValue bodyHeader (client.length + 1) client {}
      let authorized := authenticate www_username www_password headers.authorization
      if headers.isForm = true then
        (readForm headers.boundaryStr behind client).request method uri (parseArguments searchStr) authorized
      else
        let contentLength := headers.contentLength.toNat
        let plainBuf := readPlain contentLength (arrival.bursts client) []
        if plainBuf.length < contentLength then .dropped
        else
          let searchStr := if contentLength > 0 then addPlain searchStr plainBuf else searchStr
          .request ⟨method, uri, parseArguments searchStr, .plain [], authorized⟩
    else
      let (headers, _) := readHeaders plainValue collectHeader (client.length + 1) client {}
      let authorized := authenticate www_username www_password headers.authorization
      .request ⟨method, uri, parseArguments searchStr, .plain [], authorized⟩

/-- A client's bytes, from the first line of its request to the end of its handler; `none` when the reading of its
form leaves the bounds of `postArgs` or never ends. -/
def serve (isFile : Str → Bool) (tmp : UInt32) (client : Str) (s : Sketch.Globals) : Option Outcome :=
  match readRequest arrival behind client with
  | .request request => some (handleRequest isFile tmp request s)
  | .dropped => some ⟨s, false⟩
  | .overrun _ | .endless _ => none

end Request

end EspLog.Parsing

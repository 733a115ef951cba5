import EspLog.WebServer
import EspLog.Support.Runs

/-! The firmware update under `/update`. Whether an upload may write is asked when its file begins, and the answer
stays in a variable; the page behind the upload asks this variable. -/

namespace EspLog.UpdateServer
open CText Functions Websites WebServer

section Updates

/-- A call of the object `Update`, which writes the flash. -/
inductive UpdateCall where
  | start
  | write (buf : Str)
  | finish
  | abort

structure HTTPUpdateServer where
  authenticated : Bool := false
  calls : List UpdateCall := []

def HTTPUpdateServer.call (server : HTTPUpdateServer) (call : UpdateCall) : HTTPUpdateServer :=
  { server with calls := server.calls ++ [call] }

/-- The handler for the file upload; `authorized` is what `authenticate` says of the request. -/
def upload (authorized : Bool) (server : HTTPUpdateServer) : UploadEvent → HTTPUpdateServer
  | .start _ =>
    let server := { server with authenticated := authorized }
    if server.authenticated = false then server else server.call .start
  | .write buf => if server.authenticated = true then server.call (.write buf) else server
  | .finish _ => if server.authenticated = true then server.call .finish else server
  | .aborted => if server.authenticated = true then server.call .abort else server

/-- The file parts of a form; false when one of them breaks off. -/
def uploadParts (authorized : Bool) : List Part → HTTPUpdateServer → Bool × HTTPUpdateServer
  | [], server => (true, server)
  | .field _ _ :: rest, server => uploadParts authorized rest server
  | .file filename chunks complete :: rest, server =>
    let server := (uploadEvents filename chunks complete).foldl (upload authorized) server
    if complete = true then uploadParts authorized rest server else (false, server)

/-- A request for `/update`, and whether it restarts the device: the form page never does, and the page behind an
upload always when its variable is set. -/
def handleUpdate (request : Request) (server : HTTPUpdateServer) : Bool × HTTPUpdateServer :=
  if request.method = .post then
    match request.body with
    | .plain _ => (server.authenticated, server)
    | .form parts =>
      let (parsed, server) := uploadParts request.authorized parts server
      if parsed = true then (server.authenticated, server) else (false, server)
    | .incomplete => (false, server)
  else (false, server)

def step (server : HTTPUpdateServer) (request : Request) : HTTPUpdateServer :=
  let (restart, server) := handleUpdate request server
  if restart = true then { calls := server.calls } else server

end Updates

section Requests

/-- The calls for the file parts of a form, up to one that breaks off. -/
def partCalls : List Part → List UpdateCall
  | [] => []
  | .field _ _ :: rest => partCalls rest
  | .file _ chunks true :: rest => .start :: chunks.map .write ++ [.finish] ++ partCalls rest
  | .file _ chunks false :: _ => .start :: chunks.map .write ++ [.abort]

/-- What a request with credentials has written. -/
def requestCalls (request : Request) : List UpdateCall :=
  match request.method, request.body with
  | .post, .form parts => if request.authorized = true then partCalls parts else []
  | _, _ => []

/-- All file parts have been sent to their ends. -/
def intact (parts : List Part) : Bool := parts.all fun
  | .field _ _ => true
  | .file _ _ complete => complete

def hasFile (parts : List Part) : Bool := parts.any fun
  | .field _ _ => false
  | .file _ _ _ => true

variable (authorized : Bool)

theorem upload_writes (chunks : List Str) (server : HTTPUpdateServer) (known : server.authenticated = authorized) :
    (chunks.map UploadEvent.write).foldl (upload authorized) server = { server with
      calls := server.calls ++ if authorized = true then chunks.map .write else [] } := by
  induction chunks generalizing server with
  | nil => cases authorized <;> simp
  | cons chunk rest ih =>
    rw [List.map_cons, List.foldl_cons]
    cases authorized with
    | true =>
      have one : upload true server (.write chunk) = server.call (.write chunk) := if_pos known
      rw [one, ih (server.call (.write chunk)) known]
      simp [HTTPUpdateServer.call]
    | false =>
      have one : upload false server (.write chunk) = server := if_neg (by rw [known]; decide)
      rw [one, ih server known]
      rfl

theorem upload_events (filename : Str) (chunks : List Str) (complete : Bool) (server : HTTPUpdateServer) :
    (uploadEvents filename chunks complete).foldl (upload authorized) server = {
      authenticated := authorized
      calls := server.calls ++ if authorized = true then
        .start :: chunks.map .write ++ [if complete = true then .finish else .abort] else [] } := by
  rw [uploadEvents, List.cons_append, List.foldl_cons, List.foldl_append]
  cases authorized with
  | true =>
    have begun : upload true server (.start filename) =
      ({ server with authenticated := true } : HTTPUpdateServer).call .start := rfl
    rw [begun, upload_writes true chunks _ rfl]
    cases complete <;>
    simp [HTTPUpdateServer.call, upload]
  | false =>
    have begun : upload false server (.start filename) = { server with authenticated := false } := rfl
    rw [begun, upload_writes false chunks _ rfl]
    cases complete <;>
    simp [upload]

theorem uploadParts_eq (parts : List Part) (server : HTTPUpdateServer) :
    uploadParts authorized parts server = (intact parts, {
      authenticated := if hasFile parts = true then authorized else server.authenticated
      calls := server.calls ++ if authorized = true then partCalls parts else [] }) := by
  induction parts generalizing server with
  | nil => cases authorized <;> simp [uploadParts, intact, hasFile, partCalls]
  | cons part rest ih =>
    cases part with
    | field name value =>
      rw [uploadParts, ih]
      rfl
    | file filename chunks complete =>
      rw [uploadParts, upload_events]
      cases complete with
      | true =>
        rw [if_pos rfl, ih]
        cases authorized <;>
        simp [intact, hasFile, partCalls]
      | false =>
        cases authorized <;>
        simp [intact, hasFile, partCalls]

/-- The page behind the upload is reached. -/
def answered (request : Request) : Bool :=
  match request.method, request.body with
  | .post, .plain _ => true
  | .post, .form parts => intact parts
  | _, _ => false

def bringsFile (request : Request) : Bool :=
  match request.method, request.body with
  | .post, .form parts => hasFile parts
  | _, _ => false

theorem handleUpdate_eq (request : Request) (server : HTTPUpdateServer) :
    handleUpdate request server =
      (answered request && if bringsFile request = true then request.authorized else server.authenticated,
        { authenticated := if bringsFile request = true then request.authorized else server.authenticated
          calls := server.calls ++ requestCalls request }) := by
  unfold handleUpdate answered bringsFile requestCalls
  rcases request.method <;> rcases request.body with args | parts | _
  all_goals simp only [reduceCtorEq, if_false, if_true, Bool.false_and, Bool.true_and, Bool.false_eq_true,
    List.append_nil]
  rw [uploadParts_eq]
  dsimp only
  cases intact parts <;> rfl

theorem step_eq (server : HTTPUpdateServer) (request : Request) : step server request =
    { authenticated := !answered request &&
        if bringsFile request = true then request.authorized else server.authenticated
      calls := server.calls ++ requestCalls request } := by
  rw [step, handleUpdate_eq]
  cases answered request with
  | false => rfl
  | true =>
    cases given : (if bringsFile request = true then request.authorized else server.authenticated) with
    | false => rfl
    | true => rfl

/-- In every run `Update` is given the files of the requests with credentials, in their order, and nothing else:
what a stranger sends never gets into the firmware. -/
theorem update_calls (requests : List Request) :
    (Runs.run step {} requests).calls = requests.flatMap requestCalls := by
  have all (server : HTTPUpdateServer) : (Runs.run step server requests).calls =
      server.calls ++ requests.flatMap requestCalls := by
    induction requests generalizing server with
    | nil => exact (List.append_nil _).symm
    | cons request later ih => rw [Runs.run_cons, ih, step_eq, List.flatMap_cons, List.append_assoc]
  rw [all]
  rfl

/-- The variable is set exactly when the last request that decides it was an upload with credentials that broke
off. -/
theorem update_authenticated (requests : List Request) : (Runs.run step {} requests).authenticated =
    (((requests.filter fun request => answered request || bringsFile request).getLast?).map
      fun request => !answered request && request.authorized).getD false := by
  have tracks := Runs.run_tracks step HTTPUpdateServer.authenticated
    (fun authenticated request => if (answered request || bringsFile request) = true then !answered request &&
    request.authorized else authenticated)
    (fun _ => True) (fun _ _ _ => trivial) requests
    (by
      intro server request _ _
      rw [step_eq]
      cases answered request <;> cases bringsFile request <;> rfl) {} trivial
  rw [tracks, Runs.run_overwrites]
  simp only [Bool.decide_eq_true]

/-- Which request restarts the device, after any run of others: one that reaches the page behind the upload, with
credentials if it brings a file. Without a file it needs none, when an upload with credentials broke off before and
nothing has come since. -/
theorem update_restarts (requests : List Request) (request : Request) :
    (handleUpdate request (Runs.run step {} requests)).1 =
      (answered request && if bringsFile request = true then request.authorized
      else (((requests.filter fun request => answered request || bringsFile request).getLast?).map
        fun request => !answered request && request.authorized).getD false) := by
  rw [handleUpdate_eq, update_authenticated]

end Requests
end EspLog.UpdateServer

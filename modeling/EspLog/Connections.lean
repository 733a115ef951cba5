import EspLog.Served
import EspLog.Support.Runs

/-! `handleClient`: one client at a time, which is asked for one request and then has to go. -/

namespace EspLog.Connections
open CText Sketch WebServer

section Server

/-- `HTTPClientStatus`. -/
inductive Status where
  | none
  | waitRead
  | waitClose
  deriving DecidableEq

/-- The server with the device behind it. A client is what it sends. -/
structure Server (σ : Type) where
  unclaimed : List Str := []
  currentClient : Option Str := Option.none
  currentStatus : Status := .none
  statusChange : UInt32 := 0
  device : σ

/-- What one call reads: `millis()` in the three places, whether the client is connected and has sent something,
and whether it still is after its request. -/
structure Poll where
  accepted : UInt32
  checked : UInt32
  handled : UInt32
  connected : Bool
  available : Bool
  stays : Bool

/-- `HTTP_MAX_DATA_WAIT` and `HTTP_MAX_CLOSE_WAIT`. -/
def maxDataWait : Nat := 1000
def maxCloseWait : Nat := 2000

/-- What becomes of a client's request: whether it was one, and the device behind it. Nothing is left where the
reading of the request breaks the device or never ends. -/
abbrev Process (σ : Type) := Str → σ → Option (Bool × σ)

variable {σ : Type} (process : Process σ)

def release (server : Server σ) : Server σ := { server with currentClient := Option.none, currentStatus := .none }

/-- The first unclaimed client becomes the current one. -/
def accept (io : Poll) (server : Server σ) : Server σ :=
  match server.currentStatus, server.unclaimed with
  | .none, client :: later => { server with
      unclaimed := later
      currentClient := some client
      currentStatus := .waitRead
      statusChange := io.accepted }
  | _, _ => server

/-- `_parseRequest` and `_handleRequest`. -/
def readClient (io : Poll) (client : Str) (server : Server σ) : Option (Server σ) :=
  if io.available = false then
    some (if (io.checked - server.statusChange).toNat > maxDataWait then release server else server)
  else
    (process client server.device).map fun (parsed, device) =>
      let server := { server with device := device }
      if parsed = false then release server
      else if io.stays = false then release server
      else { server with currentStatus := .waitClose, statusChange := io.handled }

/-- What a call does with the current client, if there is one. -/
def keepClient (io : Poll) (server : Server σ) : Option (Server σ) :=
  if server.currentStatus = .none then some server
  else
    match server.currentClient with
    | Option.none => some (release server)
    | some client =>
      if io.connected = false then some (release server)
      else if server.currentStatus = .waitRead then readClient process io client server
      else some (if (io.checked - server.statusChange).toNat > maxCloseWait then release server else server)

def handleClient (io : Poll) (server : Server σ) : Option (Server σ) := keepClient process io (accept io server)

/-- A client arrives at the end of the queue, or the loop of the sketch comes to the server. -/
inductive Event where
  | arrives (client : Str)
  | call (io : Poll)

def step (server : Server σ) : Event → Option (Server σ)
  | .arrives client => some { server with unclaimed := server.unclaimed ++ [client] }
  | .call io => handleClient process io server

/-- A server that is gone stays so. -/
def live (server : Option (Server σ)) (event : Event) : Option (Server σ) :=
  server.bind fun server => step process server event

def arrivals (events : List Event) : List Str := events.filterMap fun
  | .arrives client => some client
  | .call _ => Option.none

end Server

section Order
variable {σ : Type} (process : Process σ)

/-- The clients that may still be asked. -/
def pending (server : Server σ) : List Str :=
  match server.currentStatus with
  | .waitRead => server.currentClient.toList ++ server.unclaimed
  | .none | .waitClose => server.unclaimed

/-- The device behind the requests of these clients, one after the other. -/
def behindAll (served : List Str) (start : σ) : Option σ :=
  served.foldlM (fun device client => (process client device).map Prod.snd) start

/-- The device is in the state that the requests of `served` have led to. -/
structure InOrder (start : σ) (arrived served : List Str) (server : Server σ) : Prop where
  order : (served ++ pending server).Sublist arrived
  device : behindAll process served start = some server.device

/-- Behind the requests of `served`, that of `client` is the one that the server does not survive. -/
structure Breaks (start : σ) (arrived served : List Str) (client : Str) (device : σ) : Prop where
  order : (served ++ [client]).Sublist arrived
  reached : behindAll process served start = some device
  lost : process client device = none

def Stands (start : σ) (arrived : List Str) : Option (Server σ) → Prop
  | some server => ∃ served, InOrder process start arrived served server
  | none => ∃ served client device, Breaks process start arrived served client device

theorem pending_unclaimed (server : Server σ) : server.unclaimed.Sublist (pending server) := by
  unfold pending
  cases server.currentStatus with
  | waitRead => exact List.sublist_append_right _ _
  | none => exact List.Sublist.refl _
  | waitClose => exact List.Sublist.refl _

variable {process} {start : σ} {arrived served : List Str} {server : Server σ}

theorem InOrder.release (so : InOrder process start arrived served server) :
    InOrder process start arrived served (release server) where
  order := (List.Sublist.append_left (pending_unclaimed server) served).trans so.order
  device := so.device

theorem InOrder.accept (so : InOrder process start arrived served server) (io : Poll) :
    InOrder process start arrived served (accept io server) := by
  unfold Connections.accept
  split
  · rename_i status queue
    have order := so.order
    rw [pending, status, queue] at order
    exact ⟨order, so.device⟩
  · exact so

/-- One call asks at most the current client, and then never again. -/
theorem InOrder.call (so : InOrder process start arrived served server) (io : Poll) :
    Stands process start arrived (handleClient process io server) := by
  have accepted := so.accept io
  unfold handleClient keepClient
  generalize Connections.accept io server = current at accepted
  split
  · exact ⟨served, accepted⟩
  split
  · exact ⟨served, accepted.release⟩
  rename_i client here
  split
  · exact ⟨served, accepted.release⟩
  split
  swap
  · split
    · exact ⟨served, accepted.release⟩
    · exact ⟨served, accepted⟩
  rename_i status
  unfold readClient
  split
  · split
    · exact ⟨served, accepted.release⟩
    · exact ⟨served, accepted⟩
  have order := accepted.order
  rw [pending, status, here] at order
  have after : (served ++ [client] ++ current.unclaimed).Sublist arrived := by
    rw [List.append_assoc]
    exact order
  cases asked : process client current.device with
  | none =>
    exact ⟨served, client, current.device, (List.sublist_append_left _ _).trans after, accepted.device, asked⟩
  | some outcome =>
    have device : behindAll process (served ++ [client]) start = some outcome.2 := by
      have reached := accepted.device
      rw [behindAll] at reached ⊢
      rw [List.foldlM_append, reached]
      simp [asked]
    refine ⟨served ++ [client], ?_⟩
    dsimp only
    split
    · exact ⟨after, device⟩
    split
    · exact ⟨after, device⟩
    · exact ⟨after, device⟩

theorem InOrder.arrives (so : InOrder process start arrived served server) (client : Str) :
    InOrder process start (arrived ++ [client]) served
      { server with unclaimed := server.unclaimed ++ [client] } where
  order := by
    have grown : pending { server with unclaimed := server.unclaimed ++ [client] } =
        pending server ++ [client] := by
      cases status : server.currentStatus <;>
      simp [pending, status]
    rw [grown, ← List.append_assoc]
    exact so.order.append (List.Sublist.refl _)
  device := so.device

theorem Stands.step {state : Option (Server σ)} (stands : Stands process start arrived state) (event : Event) :
    Stands process start (arrived ++ arrivals [event]) (live process state event) := by
  cases state with
  | none =>
    obtain ⟨served, client, device, breaks⟩ := stands
    exact ⟨served, client, device, breaks.order.trans (List.sublist_append_left _ _), breaks.reached, breaks.lost⟩
  | some server =>
    obtain ⟨served, so⟩ := stands
    cases event with
    | arrives client => exact ⟨served, so.arrives client⟩
    | call io =>
      have called := so.call io
      rw [← List.append_nil arrived] at called
      exact called

/-- However the clients arrive between the calls, come and go: the device has been given the requests of some of
the clients in the order of their arrival, and of none twice; when it is gone, the last of them is why. -/
theorem clients_in_order (process : Process σ) (start : σ) (events : List Event) :
    Stands process start (arrivals events) (Runs.run (live process) (some { device := start }) events) := by
  have all (state : Option (Server σ)) (arrived : List Str) (stands : Stands process start arrived state) :
      Stands process start (arrived ++ arrivals events) (Runs.run (live process) state events) := by
    induction events generalizing state arrived with
    | nil => simpa [arrivals] using stands
    | cons event rest ih =>
      have later := ih _ _ (stands.step event)
      have joined : arrivals (event :: rest) = arrivals [event] ++ arrivals rest := by
        cases event <;> rfl
      rw [joined, ← List.append_assoc]
      exact later
  exact all (some { device := start }) [] ⟨[], List.Sublist.refl _, rfl⟩

end Order

section Sketch
open Parsing Served
variable (arrival : Arrival) (behind : Str → Str) (isFile : Str → Bool) (tmp : UInt32)

/-- The request of a client at the sketch. -/
def processClient (client : Str) (s : Globals) : Option (Bool × Globals) :=
  match readRequest arrival behind client with
  | .request request => some ((requestArgs request).isSome, (handleRequest isFile tmp request s).sketch)
  | .dropped => some (false, s)
  | .overrun _ | .endless _ => none

/-- A client whose form has a field too many, or never ends. -/
def BreaksForm (client : Str) : Prop :=
  ∃ request, readRequest arrival behind client = .overrun request ∨
    readRequest arrival behind client = .endless request

theorem processClient_files (stranger : Stranger) (s : Globals) :
    ∀ outcome ∈ processClient arrival behind isFile tmp stranger.client s, FilesOnly s outcome.2 := by
  have files := stranger_files arrival behind isFile tmp stranger s
  rw [serve] at files
  intro outcome served
  rw [processClient] at served
  cases reads : readRequest arrival behind stranger.client with
  | request request =>
    rw [reads] at files served
    cases served
    exact (files _ rfl).2
  | dropped =>
    rw [reads] at served
    cases served
    rfl
  | overrun request =>
    rw [reads] at served
    cases served
  | endless request =>
    rw [reads] at served
    cases served

theorem breaksForm_of_lost (client : Str) (s : Globals)
    (lost : processClient arrival behind isFile tmp client s = none) :
    BreaksForm arrival behind client := by
  rw [processClient] at lost
  cases reads : readRequest arrival behind client with
  | request request =>
    rw [reads] at lost
    cases lost
  | dropped =>
    rw [reads] at lost
    cases lost
  | overrun request => exact ⟨request, .inl reads⟩
  | endless request => exact ⟨request, .inr reads⟩

theorem behindAll_files (served : List Str) (strangers : ∀ client ∈ served, ¬secret <:+: client)
    (start reached : Globals) (behindThem : behindAll (processClient arrival behind isFile tmp) served start =
      some reached) : FilesOnly start reached := by
  induction served generalizing start with
  | nil =>
    cases behindThem
    rfl
  | cons client later ih =>
    rw [behindAll, List.foldlM_cons] at behindThem
    obtain ⟨next, first, rest⟩ := Option.bind_eq_some_iff.mp behindThem
    obtain ⟨outcome, asked, same⟩ := Option.map_eq_some_iff.mp first
    have files := processClient_files arrival behind isFile tmp ⟨client, strangers client List.mem_cons_self⟩
      start outcome asked
    rw [same] at files
    exact files.trans (ih (fun other member => strangers other (List.mem_cons_of_mem _ member)) next rest)

/-- While none of the clients sends the encoded credentials, no setting, no yield and no byte of the EEPROM
changes, in whatever order the clients come and go; but one whose form has a field too many, or never ends, is the
last that the server reads. -/
theorem strangers_files (events : List Event) (strangers : ∀ client ∈ arrivals events, ¬secret <:+: client)
    (start : Globals) :
    match Runs.run (live (processClient arrival behind isFile tmp)) (some { device := start }) events with
    | some server => FilesOnly start server.device
    | none => ∃ client ∈ arrivals events, BreaksForm arrival behind client := by
  have stands := clients_in_order (processClient arrival behind isFile tmp) start events
  cases reached : Runs.run (live (processClient arrival behind isFile tmp)) (some { device := start }) events with
  | some server =>
    rw [reached] at stands
    obtain ⟨served, so⟩ := stands
    have order := (List.sublist_append_left _ _).trans so.order
    exact behindAll_files arrival behind isFile tmp served
      (fun client member => strangers client (order.subset member)) start
      server.device so.device
  | none =>
    rw [reached] at stands
    obtain ⟨served, client, device, breaks⟩ := stands
    have arrived : client ∈ arrivals events :=
      breaks.order.subset (List.mem_append_right _ (List.mem_singleton_self _))
    exact ⟨client, arrived, breaksForm_of_lost arrival behind isFile tmp client device breaks.lost⟩

theorem page_named : Nameable (text "/setup.html") := by decide +kernel

/-- A visitor asks for the setup page, another uploads a file, and a third leaves before it is asked. -/
def visit : List Event :=
  [.arrives (asking id (text "/setup.html") page_named).bytes,
    .call ⟨1000, 1000, 1010, true, false, true⟩,
    .arrives (noteUpload id).bytes,
    .call ⟨1020, 1020, 1030, true, true, false⟩,
    .arrives (asking id (text "/setup.html") page_named).bytes,
    .call ⟨1040, 1040, 1200, true, true, true⟩,
    .call ⟨1300, 1300, 1300, false, false, false⟩,
    .call ⟨1400, 1400, 1400, false, false, false⟩]

/-- All of them are strangers, and none has a form that the server does not survive. -/
theorem strangers_files_of_visitors : ∃ server,
    Runs.run (live (processClient ⟨fun s => [s], fun s => List.append_nil s⟩ id (fun _ => false) 0))
      (some { device := powerOn (fun _ => 0) true [] }) visit = some server ∧
        FilesOnly (powerOn (fun _ => 0) true []) server.device := by
  have clients : arrivals visit = [(asking id (text "/setup.html") page_named).bytes, (noteUpload id).bytes,
      (asking id (text "/setup.html") page_named).bytes] := rfl
  have without : ∀ client ∈ arrivals visit, ¬secret <:+: client := by
    rw [clients]
    decide +kernel
  generalize visit = events at clients without ⊢
  have files := strangers_files ⟨fun s => [s], fun s => List.append_nil s⟩ id (fun _ => false) 0 events without
    (powerOn (fun _ => 0) true [])
  cases reached : Runs.run (live (processClient ⟨fun s => [s], fun s => List.append_nil s⟩ id (fun _ => false) 0))
      (some { device := powerOn (fun _ => 0) true [] }) events with
  | some server =>
    rw [reached] at files
    exact ⟨server, rfl, files⟩
  | none =>
    rw [reached] at files
    obtain ⟨client, arrived, request, broken⟩ := files
    have whole (sent : RequestBytes.Sent id) (same : client = sent.bytes) : False := by
      rw [same, RequestBytes.request_round_trip] at broken
      rcases broken with broken | broken <;>
      cases broken
    rw [clients] at arrived
    rcases List.mem_cons.mp arrived with same | arrived
    · exact (whole _ same).elim
    rcases List.mem_cons.mp arrived with same | arrived
    · exact (whole _ same).elim
    · exact (whole _ (List.mem_singleton.mp arrived)).elim

end Sketch

section Waiting
variable {σ : Type} (process : Process σ)

/-- A pause of the loop and the call behind it, in milliseconds: up to the call, within it, and for a request. Less
than seven weeks pass between two readings of the clock. -/
structure Turn where
  pause : Nat
  lag : Nat
  work : Nat
  connected : Bool
  available : Bool
  stays : Bool
  short : pause + lag + maxCloseWait < 2 ^ 32

/-- `millis()` shows the last 32 bits of the time since the start. -/
def Turn.poll (turn : Turn) (time : Nat) : Poll where
  accepted := UInt32.ofNat (time + turn.pause)
  checked := UInt32.ofNat (time + turn.pause + turn.lag)
  handled := UInt32.ofNat (time + turn.pause + turn.lag + turn.work)
  connected := turn.connected
  available := turn.available
  stays := turn.stays

/-- The server at the time of its last look at the clock. -/
structure Timed (σ : Type) where
  server : Server σ
  time : Nat

/-- The call comes to reading a request. -/
def asks (io : Poll) (server : Server σ) : Bool :=
  (accept io server).currentStatus == .waitRead && io.connected && io.available

def limit : Status → Nat
  | .none => 0
  | .waitRead => maxDataWait
  | .waitClose => maxCloseWait

/-- A current client has waited since `since`, which is no longer ago than its limit. -/
structure Waits (server : Server σ) (since time : Nat) : Prop where
  before : since ≤ time
  change : server.statusChange = UInt32.ofNat since
  within : time - since ≤ limit server.currentStatus

/-- When the server has looked at the clock, it has waited for no client too long. -/
def Timely (timed : Timed σ) : Prop :=
  timed.server.currentStatus = .none ∨ ∃ since, Waits timed.server since timed.time

theorem limit_le (status : Status) : limit status ≤ maxCloseWait := by
  cases status <;>
  decide

end Waiting
end EspLog.Connections

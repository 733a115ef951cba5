import EspLog.Responses
import EspLog.Served
import EspLog.Archive
import EspLog.Support.TextLength
import Mathlib.Algebra.Order.BigOperators.Group.List

/-! What can be read from the file system without credentials, and the archive of a year as its owner downloads it. -/

namespace EspLog.Downloads
open CText Sketch Functions Websites WebServer Effects Loop Eeprom Spiffs Archive Parsing FormBytes RequestBytes
  UpdateServer Responses TextLength

section Disclosure

/-- The paths with a static route, each registered under its own name. -/
def staticPaths : List Str := [text "/screen.css", text "/mobile.css", backupPath, logPath]

/-- A path that was a file when its route was registered stands for itself, or for its compressed file when it is
gone; another one stands for every path that begins with it. -/
def Disclosed (isFile : Str → Bool) (files : Files) (path : Str) : Prop :=
  ∃ base ∈ staticPaths,
    if isFile base = true then path = base ∨ path = base ++ text ".gz" ∧ content base files = none
    else base <+: path ∧ endsWith "/" path = false

/-- A route that no path below `base` finds, or that of `base`. -/
def apart (base : Str) : Route → Bool
  | .function uri _ _ => !base.isPrefixOf uri
  | .static uri path => (uri == base && path == base) || (!base.isPrefixOf uri && !uri.isPrefixOf base)

theorem routes_apart : ∀ base ∈ staticPaths, ∀ route ∈ routes, apart base route = true := by decide +kernel

theorem static_named : ∀ route ∈ routes, (match route with
    | .function _ _ _ => true
    | .static uri path => uri == path && staticPaths.contains path) = true := by
  decide +kernel

theorem static_route (isFile : Str → Bool) (base : Str) (listed : base ∈ staticPaths) (request : Request)
    (get : request.method = .get) (below : base <+: request.uri)
    (itself : isFile base = true → request.uri = base) :
    routeOf isFile request = some (.static base base) := by
  have handles : canHandle isFile request.method request.uri (.static base base) = true := by
    have starts : base.isPrefixOf request.uri = true := List.isPrefixOf_iff_prefix.mpr below
    by_cases file : isFile base = true
    · simp [canHandle, get, itself file]
    · simp [canHandle, get, file, starts]
  have member : Route.static base base ∈ routes := by
    have each : ∀ base ∈ staticPaths, Route.static base base ∈ routes := by
      intro base listed
      simp only [staticPaths, List.mem_cons, List.not_mem_nil, or_false] at listed
      rcases listed with rfl | rfl | rfl | rfl <;>
      simp [routes, backupPath, logPath]
    exact each base listed
  have found : (routeOf isFile request).isSome = true := List.find?_isSome.mpr ⟨_, member, handles⟩
  obtain ⟨route, same⟩ := Option.isSome_iff_exists.mp found
  have separate := routes_apart base listed route (List.mem_of_find?_eq_some same)
  have fits := List.find?_some same
  rw [same]
  cases route with
  | function uri required page =>
    simp only [canHandle, Bool.and_eq_true, beq_iff_eq] at fits
    simp only [apart, ← fits.2, List.isPrefixOf_iff_prefix.mpr below] at separate
    cases separate
  | static uri path =>
    simp only [apart, Bool.or_eq_true, Bool.and_eq_true, beq_iff_eq, Bool.not_eq_true', ← Bool.not_eq_true,
      List.isPrefixOf_iff_prefix] at separate
    rcases separate with ⟨rfl, rfl⟩ | ⟨above, under⟩
    · rfl
    · have starts : uri <+: request.uri := by
        simp only [canHandle, get, beq_self_eq_true, Bool.true_and, Bool.not_eq_true', Bool.or_eq_false_iff,
          Bool.not_eq_false', List.isPrefixOf_iff_prefix] at fits
        exact fits.2
      rcases List.prefix_or_prefix_of_prefix below starts with less | more
      · exact absurd less above
      · exact absurd more under

theorem endsWith_append (suffix : String) (s t : Str) (long : (text suffix).length ≤ t.length) :
    endsWith suffix (s ++ t) = endsWith suffix t := by
  rw [endsWith, endsWith, Bool.eq_iff_iff, List.isSuffixOf_iff_suffix, List.isSuffixOf_iff_suffix]
  constructor
  · intro ends
    exact List.suffix_of_suffix_length_le ends (List.suffix_append s t) long
  · intro ends
    exact ends.trans (List.suffix_append s t)

theorem requestedPath_below (isFile : Str → Bool) (base uri : Str) (below : base <+: uri)
    (other : isFile base = false) :
    base <+: requestedPath isFile base base uri ∧ endsWith "/" (requestedPath isFile base base uri) = false ∧
      (endsWith "/" uri = false → requestedPath isFile base base uri = uri) := by
  obtain ⟨rest, rfl⟩ := below
  have index : endsWith "/" (text "index.htm") = false := by decide +kernel
  rw [requestedPath, if_neg (by rw [other]; exact Bool.false_ne_true)]
  dsimp only
  by_cases slash : endsWith "/" (base ++ rest) = true
  · rw [if_pos slash, List.append_assoc, List.drop_left, ← List.append_assoc,
      endsWith_append _ _ _ (by decide +kernel), List.append_assoc]
    exact ⟨List.prefix_append _ _, index,
      fun unslashed => absurd slash (by rw [unslashed]; exact Bool.false_ne_true)⟩
  · rw [if_neg slash, List.drop_left]
    exact ⟨List.prefix_append _ _, Bool.eq_false_iff.mpr slash, fun _ => rfl⟩

theorem storedPath_cases (path : Str) (files : Files) :
    storedPath path files = path ∨ storedPath path files = path ++ text ".gz" ∧ content path files = none := by
  unfold storedPath
  split
  · rename_i compressed
    exact .inr ⟨rfl, compressed.2.1⟩
  · exact .inl rfl

theorem storedPath_held (path : Str) (files : Files) (held : content path files ≠ none) :
    storedPath path files = path := by
  rw [storedPath, if_neg fun compressed => held compressed.2.1]

theorem staticReply_disclosed (isFile : Str → Bool) (base : Str) (listed : base ∈ staticPaths) (uri : Str)
    (below : base <+: uri) (files : Files) (path contents requested : Str)
    (reply : staticReply isFile base base uri files = .file path contents requested) :
    content path files = some contents ∧ Disclosed isFile files path := by
  unfold staticReply at reply
  dsimp only at reply
  split at reply
  · rename_i found held
    injection reply with place bytes _
    subst place bytes
    refine ⟨held, base, listed, ?_⟩
    have gz : endsWith "/" (text ".gz") = false := by decide +kernel
    by_cases file : isFile base = true
    · have same : requestedPath isFile base base uri = base := if_pos file
      rw [if_pos file, same]
      exact storedPath_cases base files
    · have other : isFile base = false := Bool.eq_false_iff.mpr file
      obtain ⟨starts, ends, -⟩ := requestedPath_below isFile base uri below other
      rw [if_neg file]
      rcases storedPath_cases (requestedPath isFile base base uri) files with same | ⟨same, -⟩
      · rw [same]
        exact ⟨starts, ends⟩
      · rw [same, endsWith_append _ _ _ (by decide +kernel)]
        exact ⟨starts.trans (List.prefix_append _ _), gz⟩
  · cases reply

variable (site : Site)

theorem pageReply_no_file (authorized : Bool) (uri : Str) (args : Arguments) (s : Globals) (page : Page)
    (path contents requested : Str) :
    pageReply site authorized uri args s page ≠ some (.file path contents requested) := by
  intro reply
  cases page with
  | root => cases reply
  | viewErtrag => cases reply
  | jsonArgs => cases reply
  | upload => cases reply
  | setup =>
    rw [pageReply] at reply
    dsimp only at reply
    split at reply
    · split at reply
      · cases reply
      · cases reply
    · cases reply
  | spiffs =>
    rw [pageReply] at reply
    split at reply
    · unfold handleSpiffsReply at reply
      split at reply
      · cases reply
      · cases reply
    · cases reply

theorem unrouted_no_file (request : Request) (path contents requested : Str) :
    (if request.uri = text "/update" then updateReply site request else .notFound request.uri) ≠
      .file path contents requested := by
  intro reply
  split at reply
  · unfold updateReply at reply
    split at reply
    · split at reply <;> cases reply
    · split at reply <;> cases reply
    all_goals cases reply
  · cases reply

theorem handed_static (request : Request) (s : Globals) (path contents requested : Str)
    (reply : handlerReply site request s = some (.file path contents requested)) :
    ∃ base ∈ staticPaths, base <+: request.uri ∧
      staticReply site.isFile base base request.uri s.spiffs = .file path contents requested := by
  have idle := parseRequest_idle (routeOf site.isFile request) request s
  rw [handlerReply] at reply
  rcases parsed : parseRequest (routeOf site.isFile request) request s with ⟨args, after⟩
  rw [parsed] at reply idle
  cases args with
  | none => cases reply
  | some args =>
    dsimp only at reply idle
    rcases route : routeOf site.isFile request with _ | found
    · rw [route] at reply
      exact absurd (Option.some.inj reply) (unrouted_no_file site request path contents requested)
    rw [route] at reply idle
    cases found with
    | function uri required page => exact absurd reply (pageReply_no_file site _ _ _ _ _ _ _ _)
    | static uri base =>
      have named := static_named _ (List.mem_of_find?_eq_some route)
      simp only [Bool.and_eq_true, beq_iff_eq, List.contains_iff_mem] at named
      obtain ⟨rfl, listed⟩ := named
      have same : after = s := idle (by
        intro found same
        cases same
        rfl)
      have fits := List.find?_some route
      simp only [canHandle, Bool.and_eq_true, Bool.not_eq_true', Bool.or_eq_false_iff, Bool.not_eq_false',
        List.isPrefixOf_iff_prefix] at fits
      rw [same] at reply
      exact ⟨uri, listed, fits.2.2, Option.some.inj reply⟩

theorem handed_disclosed (request : Request) (s : Globals) (path contents requested : Str)
    (reply : handlerReply site request s = some (.file path contents requested)) :
    content path s.spiffs = some contents ∧ Disclosed site.isFile s.spiffs path := by
  obtain ⟨base, listed, below, handed⟩ := handed_static site request s path contents requested reply
  exact staticReply_disclosed site.isFile base listed request.uri below s.spiffs path contents requested handed

end Disclosure

section Names
open Served

theorem staticPaths_nameable : ∀ base ∈ staticPaths, Nameable base := by
  simp only [staticPaths, List.forall_mem_cons, Nameable]
  decide +kernel

theorem staticReply_nameable (isFile : Str → Bool) (base uri : Str) (listed : base ∈ staticPaths)
    (named : Nameable uri) (files : Files) (path contents requested : Str)
    (reply : staticReply isFile base base uri files = .file path contents requested) :
    Nameable path := by
  have own := staticPaths_nameable base listed
  have index : Nameable (text "index.htm") := by
    unfold Nameable
    decide +kernel
  have gz : Nameable (text ".gz") := by
    unfold Nameable
    decide +kernel
  have asked : Nameable (requestedPath isFile base base uri) := by
    unfold requestedPath
    split
    · exact own
    dsimp only
    refine own.append fun b member => ?_
    have inside := List.mem_of_mem_drop member
    split at inside
    · exact (named.append index) b inside
    · exact named b inside
  unfold staticReply at reply
  dsimp only at reply
  split at reply
  · injection reply with place _ _
    rw [← place]
    rcases storedPath_cases (requestedPath isFile base base uri) files with same | ⟨same, -⟩
    · rw [same]
      exact asked
    · rw [same]
      exact asked.append gz
  · cases reply

variable (site : Site) (arrival : Arrival) (behind : Str → Str)

/-- Which files the server hands out, to anyone: exactly those at a static path, and those below a static path that
was no file when the device started, if their names can stand in a request at all. -/
theorem disclosed_iff (s : Globals) (path contents : Str) :
    (∃ client request requested, readRequest arrival behind client = .request request ∧
      handlerReply site request s = some (.file path contents requested)) ↔
      content path s.spiffs = some contents ∧ Disclosed site.isFile s.spiffs path ∧ Nameable path := by
  constructor
  · intro handed
    obtain ⟨client, request, requested, reads, reply⟩ := handed
    have named := readRequest_nameable arrival behind client request reads
    obtain ⟨base, listed, below, static⟩ := handed_static site request s path contents requested reply
    have both := handed_disclosed site request s path contents requested reply
    exact ⟨both.1, both.2, staticReply_nameable site.isFile base request.uri listed named s.spiffs path contents
      requested static⟩
  · intro all
    obtain ⟨held, ⟨base, listed, stands⟩, named⟩ := all
    have handed (uri : Str) (clean : Nameable uri) (below : base <+: uri)
        (itself : site.isFile base = true → uri = base)
        (place : storedPath (requestedPath site.isFile base base uri) s.spiffs = path) :
        ∃ client request requested, readRequest arrival behind client = .request request ∧
          handlerReply site request s = some (.file path contents requested) := by
      have route := static_route site.isFile base listed ⟨.get, uri, [], .plain [], false⟩ rfl below itself
      refine ⟨(asking behind uri clean).bytes, ⟨.get, uri, [], .plain [], false⟩,
        requestedPath site.isFile base base uri, request_round_trip (asking behind uri clean) arrival, ?_⟩
      rw [handlerReply, route]
      simp only [parseRequest, readsBody, Bool.false_eq_true, if_false, staticReply, place, held]
    have own := staticPaths_nameable base listed
    by_cases file : site.isFile base = true
    · rw [if_pos file] at stands
      have same : requestedPath site.isFile base base base = base := if_pos file
      rcases stands with rfl | ⟨rfl, gone⟩
      · exact handed path own (List.prefix_refl path) (fun _ => rfl)
          (by rw [same, storedPath_held _ _ (by rw [held]; simp)])
      · have plain : ∀ base ∈ staticPaths, endsWith ".gz" base = false := by decide +kernel
        refine handed base own (List.prefix_refl base) (fun _ => rfl) ?_
        rw [same, storedPath, if_pos ⟨plain base listed, gone, by rw [held]; simp⟩]
    · rw [if_neg file] at stands
      have asked := (requestedPath_below site.isFile base path stands.1 (Bool.eq_false_iff.mpr file)).2.2 stands.2
      exact handed path named stands.1 (fun is => absurd is file)
        (by rw [asked, storedPath_held _ _ (by rw [held]; simp)])

end Names

section Strangers
variable (site : Site)

/-- What anyone may be answered: the three open pages, a disclosed file, and behind an upload the file page or its
redirection; the update answers only where it takes a request for one with credentials. -/
def Public (request : Request) (s : Globals) : Reply → Prop
  | .page content =>
    (∃ page ∈ [Page.root, .viewErtrag, .jsonArgs], ∃ args after, content = site.pageText page args after) ∨
      Uploads request ∧ ∃ args after, content = site.pageText .spiffs args after
  | .updatePage _ => request.uri = text "/update" ∧ request.method = .post ∧ bringsFile request = false ∧
      site.update.authenticated = true
  | .file path contents _ => content path s.spiffs = some contents ∧ Disclosed site.isFile s.spiffs path
  | .redirect _ => Uploads request
  | .denied | .notFound _ => True

theorem uploadReplies_public (request : Request) (uploads : Uploads request) (s : Globals) (query : Arguments)
    (parts : List Part) (state : Globals) :
    ∀ reply ∈ uploadReplies site query parts state, Public site request s reply := by
  induction parts generalizing state with
  | nil => exact List.forall_mem_nil _
  | cons part rest ih =>
    cases part with
    | field name value => exact ih state
    | file filename chunks complete =>
      rw [uploadReplies]
      dsimp only
      split
      · intro reply member
        rcases List.mem_cons.mp member with rfl | later
        · unfold handleSpiffsReply
          split
          · exact uploads
          · exact .inr ⟨uploads, _, _, rfl⟩
        · exact ih _ reply later
      · exact List.forall_mem_nil _

theorem parseReplies_public (request : Request) (s : Globals) :
    ∀ reply ∈ parseReplies site request s, Public site request s reply := by
  unfold parseReplies
  split
  · rename_i parts route _ found
    split
    · rename_i reads
      have uploads : Uploads request := by
        cases route with
        | static uri path => cases reads.2
        | function path required page =>
          cases page with
          | upload =>
            obtain ⟨uri, method, member⟩ := routeOf_function site.isFile request path required .upload found
            simp [routes] at member
            rw [member.2] at method
            exact ⟨by simpa [eq_comm] using method, uri.trans member.1⟩
          | _ => cases reads.2
      exact uploadReplies_public site request uploads s request.query parts s
    · exact List.forall_mem_nil _
  · exact List.forall_mem_nil _

theorem pageReply_public (request : Request) (denied : request.authorized = false) (s after : Globals)
    (args : Arguments) (page : Page) :
    ∀ reply ∈ pageReply site request.authorized request.uri args after page, Public site request s reply := by
  intro reply sent
  cases page with
  | root => cases sent; exact .inl ⟨.root, by simp, args, after, rfl⟩
  | viewErtrag => cases sent; exact .inl ⟨.viewErtrag, by simp, args, after, rfl⟩
  | jsonArgs => cases sent; exact .inl ⟨.jsonArgs, by simp, args, _, rfl⟩
  | upload => cases sent
  | setup => rw [denied] at sent; cases sent; trivial
  | spiffs => rw [denied] at sent; cases sent; trivial

theorem updateReply_public (request : Request) (denied : request.authorized = false)
    (here : request.uri = text "/update") (s : Globals) :
    Public site request s (updateReply site request) := by
  unfold updateReply
  split
  · rw [denied]
    trivial
  · rename_i post
    split
    · trivial
    · rename_i taken
      rw [handleUpdate_eq] at taken
      dsimp only at taken
      rw [denied] at taken
      cases brings : bringsFile request with
      | true => simp [brings] at taken
      | false => exact ⟨here, post, brings, by simpa [brings] using taken⟩
  all_goals trivial

theorem staticReply_cases (isFile : Str → Bool) (uri path requestUri : Str) (files : Files) :
    (∃ place contents requested, staticReply isFile uri path requestUri files = .file place contents requested) ∨
      staticReply isFile uri path requestUri files = .notFound requestUri := by
  unfold staticReply
  dsimp only
  split
  · exact .inl ⟨_, _, _, rfl⟩
  · exact .inr rfl

theorem handlerReply_public (request : Request) (denied : request.authorized = false) (s : Globals) (reply : Reply)
    (answer : handlerReply site request s = some reply) : Public site request s reply := by
  have sent := answer
  rw [handlerReply] at sent
  rcases parsed : parseRequest (routeOf site.isFile request) request s with ⟨args, after⟩
  rw [parsed] at sent
  cases args with
  | none => cases sent
  | some args =>
    dsimp only at sent
    rcases route : routeOf site.isFile request with _ | found
    · rw [route] at sent
      injection sent with sent
      rw [← sent]
      split
      · rename_i here
        exact updateReply_public site request denied here s
      · trivial
    rw [route] at sent
    cases found with
    | function path required page => exact pageReply_public site request denied s after args page reply sent
    | static uri path =>
      injection sent with sent
      subst sent
      rcases staticReply_cases site.isFile uri path request.uri after.spiffs with
        ⟨place, contents, requested, file⟩ | missing
      · rw [file] at answer ⊢
        exact handed_disclosed site request s place contents requested answer
      · rw [missing]
        trivial

/-- What a client can read that does not send the encoded credentials, whatever it sends: never the setup page,
never a file that is not below a static path, and the file page only behind an upload. Of a form that breaks the
server, or that never ends, only its complete files are answered. -/
theorem stranger_reads (arrival : Arrival) (behind : Str → Str) (stranger : Served.Stranger) (s : Globals) :
    match readRequest arrival behind stranger.client with
    | .request request => ∀ reply ∈ replies site request s, Public site request s reply
    | .overrun request | .endless request => ∀ reply ∈ parseReplies site request s, Public site request s reply
    | .dropped => True := by
  split
  · rename_i request reads
    have denied := stranger.denied arrival behind request reads
    intro reply member
    rcases List.mem_append.mp member with early | last
    · exact parseReplies_public site request s reply early
    · exact handlerReply_public site request denied s reply (Option.mem_toList.mp last)
  · exact parseReplies_public site _ s
  · exact parseReplies_public site _ s
  · trivial

end Strangers

section Table

/-- A number, and a line of numbers with commas between them. -/
def readNumber (piece : Str) : Option Nat :=
  if piece ≠ [] ∧ piece.all isDigit = true then some (natOf 10 piece) else none

def readNumbers (line : Str) : Option (List Nat) := (line.splitOn 44).mapM readNumber

/-- The lines of a table, each with its own end. -/
def readTable : Nat → Str → Option (List (List Nat))
  | _, [] => some []
  | 0, _ => none
  | fuel + 1, s =>
    let (line, rest) := readLine s
    match readNumbers line, readTable fuel rest with
    | some row, some rows => some (row :: rows)
    | _, _ => none

def row (words : Nat → Nat → UInt32) (j : Nat) : List Nat :=
  (j + 1) :: (List.range 31).map fun i => (words j i).toNat

def lineText (numbers : List Nat) : Str := [44].intercalate (numbers.map decimal)

theorem lineText_marks (numbers : List Nat) : ∀ b ∈ lineText numbers, b = 44 ∨ isDigit b = true := by
  induction numbers with
  | nil => exact List.forall_mem_nil _
  | cons n rest ih =>
    intro b member
    cases rest with
    | nil =>
      rw [lineText, List.map_singleton, List.intercalate_singleton] at member
      exact .inr (decimal_digits n b member)
    | cons m rest =>
      have shape : lineText (n :: m :: rest) = decimal n ++ 44 :: lineText (m :: rest) := rfl
      rw [shape] at member
      rcases List.mem_append.mp member with number | later
      · exact .inr (decimal_digits n b number)
      · rcases List.mem_cons.mp later with comma | later
        · exact .inl comma
        · exact ih b later

theorem readNumber_decimal (n : Nat) : readNumber (decimal n) = some n := by
  have digits : (decimal n).all isDigit = true := List.all_eq_true.mpr (decimal_digits n)
  rw [readNumber, if_pos ⟨decimal_ne_nil n, digits⟩, natOf_decimal]

theorem readNumbers_lineText (numbers : List Nat) (filled : numbers ≠ []) :
    readNumbers (lineText numbers) = some numbers := by
  have unmarked : ∀ piece ∈ numbers.map decimal, 44 ∉ piece := by
    intro piece member comma
    obtain ⟨n, -, rfl⟩ := List.mem_map.mp member
    exact absurd (decimal_digits n 44 comma) (by decide)
  have each (list : List Nat) : (list.map decimal).mapM readNumber = some list := by
    induction list with
    | nil => rfl
    | cons n rest ih => rw [List.map_cons, List.mapM_cons, readNumber_decimal, ih]; rfl
  rw [readNumbers, lineText, List.splitOn_intercalate 44 unmarked (by simpa using filled), each]

theorem lineText_range (first : Nat) (f : Nat → Nat) (n : Nat) :
    decimal first ++ 44 :: (List.range (n + 1)).flatMap (fun i => decimal (f i) ++ if i < n then [44] else []) =
      lineText (first :: (List.range (n + 1)).map f) := by
  have all (list : List Nat) (first last : Nat) :
      decimal first ++ 44 :: (list.flatMap (fun m => decimal m ++ [44]) ++ decimal last) =
      lineText (first :: (list ++ [last])) := by
    induction list generalizing first with
    | nil =>
      have shape : lineText (first :: ([] ++ [last])) = decimal first ++ 44 :: (decimal last ++ []) := rfl
      rw [shape, List.append_nil, List.flatMap_nil, List.nil_append]
    | cons m rest ih =>
      have next := ih m
      have shape : lineText (first :: (m :: rest ++ [last])) =
        decimal first ++ 44 :: lineText (m :: (rest ++ [last])) := rfl
      rw [shape, ← next, List.flatMap_cons]
      simp only [List.append_assoc, List.cons_append, List.nil_append]
  have marks : (List.range n).flatMap (fun i => decimal (f i) ++ if i < n then [44] else []) =
      ((List.range n).map f).flatMap fun m => decimal m ++ [44] := by
    rw [List.flatMap_map]
    apply List.flatMap_congr
    intro i member
    rw [if_pos (List.mem_range.mp member)]
  rw [List.range_succ, List.flatMap_append, marks, List.flatMap_singleton, if_neg (Nat.lt_irrefl n),
    List.append_nil, all, List.map_append, List.map_singleton]

theorem archiveLine_eq (words : Nat → Nat → UInt32) (j : Nat) :
    archiveLine words j = lineText (row words j) ++ lineEnd := by
  have comma : text "," = [44] := by decide
  rw [archiveLine, row, ← lineText_range (j + 1) (fun i => (words j i).toNat) 30, comma,
    List.append_assoc (decimal (j + 1)), List.singleton_append]

theorem readTable_archive (words : Nat → Nat → UInt32) :
    readTable (archiveText words).length (archiveText words) = some ((List.range 12).map (row words)) := by
  have lines (list : List Nat) (fuel : Nat) (enough : (list.flatMap (archiveLine words)).length ≤ fuel) :
      readTable fuel (list.flatMap (archiveLine words)) = some (list.map (row words)) := by
    induction list generalizing fuel with
    | nil => cases fuel <;> rfl
    | cons j rest ih =>
      have unmarked : 13 ∉ lineText (row words j) := by
        intro member
        rcases lineText_marks _ 13 member with comma | digit
        · exact absurd comma (by decide)
        · exact absurd digit (by decide)
      have line := readLine_found (lineText (row words j)) (rest.flatMap (archiveLine words)) unmarked
      have size : 2 ≤ (archiveLine words j).length := by
        rw [archiveLine_eq, List.length_append]
        exact Nat.le_add_left 2 _
      have shape : (j :: rest).flatMap (archiveLine words) =
          lineText (row words j) ++ (lineEnd ++ rest.flatMap (archiveLine words)) := by
        rw [List.flatMap_cons, archiveLine_eq, List.append_assoc]
      rw [List.flatMap_cons, List.length_append] at enough
      obtain ⟨fuel, rfl⟩ : ∃ more, fuel = more + 1 := ⟨fuel - 1, by omega⟩
      rw [shape]
      have filled : lineText (row words j) ++ (lineEnd ++ rest.flatMap (archiveLine words)) ≠ [] := by
        simp [lineEnd]
      cases whole : lineText (row words j) ++ (lineEnd ++ rest.flatMap (archiveLine words)) with
      | nil => exact absurd whole filled
      | cons b more =>
        rw [readTable]
        · rw [← whole, line]
          dsimp only
          rw [readNumbers_lineText (row words j) (List.cons_ne_nil _ _), ih fuel (by omega)]
          rfl
        · exact List.cons_ne_nil b more
  exact lines (List.range 12) _ le_rfl

theorem archiveText_short (words : Nat → Nat → UInt32) : (archiveText words).length < 2 ^ 32 - 2 := by
  have number (n : Nat) (small : n < 10 ^ 10) : (decimal n).length ≤ 10 :=
    (length_decimal_le_iff n 10 (by decide)).mpr small
  have day (j : Nat) : ∀ i ∈ List.range 31,
      (decimal (words j i).toNat ++ (if i < 30 then text "," else [])).length ≤ 11 := by
    intro i _
    have digits := number (words j i).toNat ((words j i).toNat_lt.trans (by decide))
    rw [List.length_append]
    split
    · exact Nat.add_le_add digits (show (text ",").length ≤ 1 by decide)
    · exact Nat.add_le_add digits (show ([] : Str).length ≤ 1 from Nat.zero_le 1)
  have month : ∀ j ∈ List.range 12, (archiveLine words j).length ≤ 400 := by
    intro j member
    have first := number (j + 1) ((Nat.succ_le_of_lt (List.mem_range.mp member)).trans_lt (by decide))
    have days := List.sum_le_card_nsmul ((List.range 31).map fun i =>
      (decimal (words j i).toNat ++ (if i < 30 then text "," else [])).length) 11 (by
        intro n listed
        obtain ⟨i, inside, rfl⟩ := List.mem_map.mp listed
        exact day j i inside)
    have comma : (text ",").length = 1 := by decide
    have ending : lineEnd.length = 2 := rfl
    rw [List.length_map, List.length_range, smul_eq_mul] at days
    rw [archiveLine, List.length_append, List.length_append, List.length_append, List.length_flatMap,
      comma, ending]
    omega
  have months := List.sum_le_card_nsmul ((List.range 12).map fun j => (archiveLine words j).length) 400 (by
    intro n listed
    obtain ⟨j, inside, rfl⟩ := List.mem_map.mp listed
    exact month j inside)
  rw [List.length_map, List.length_range, smul_eq_mul] at months
  rw [archiveText, List.length_flatMap]
  omega

end Table

section Download
variable (arrival : Arrival) (behind : Str → Str) (site : Site)

/-- What a client reads when it sends these bytes to the server. -/
def answered (client : Str) (s : Globals) (w : Writer) : Option Response :=
  match readRequest arrival behind client with
  | .request request => readResponse (respond site request s w).sent
  | .dropped | .overrun _ | .endless _ => none

variable {behind}

/-- A browser's request for the archive, with or without credentials. -/
structure ArchiveRequest (behind : Str → Str) extends Sent behind where
  get : method = .get
  there : target.uri = backupPath

/-- The archive is sent whether or not it was there when the device started. -/
theorem archive_answered (asked : ArchiveRequest behind) (s : Globals) (words : Nat → Nat → UInt32)
    (held : content backupPath s.spiffs = some (archiveText words)) (first : UInt32) :
    answered arrival behind site asked.bytes s { contentLength := first } =
      some ((Reply.file backupPath (archiveText words) backupPath).response []) := by
  have reads := request_round_trip asked.toSent arrival
  have get : asked.request.method = .get := asked.get
  have uri : asked.request.uri = backupPath := asked.there
  have body : asked.request.body = .plain [] := by
    rw [Sent.request, asked.get]
    rfl
  have listed : backupPath ∈ staticPaths := by simp [staticPaths]
  have route := static_route site.isFile backupPath listed asked.request get (uri ▸ List.prefix_refl _)
    (fun _ => uri)
  have requested : requestedPath site.isFile backupPath backupPath backupPath = backupPath := by
    by_cases file : site.isFile backupPath = true
    · exact if_pos file
    · exact (requestedPath_below site.isFile backupPath backupPath (List.prefix_refl _)
        (Bool.eq_false_iff.mpr file)).2.2 (by decide +kernel)
  have reply : handlerReply site asked.request s = some (.file backupPath (archiveText words) backupPath) := by
    rw [handlerReply, route]
    simp only [parseRequest, get, readsBody, Bool.false_eq_true, if_false, staticReply, uri, requested,
      storedPath_held backupPath s.spiffs (by rw [held]; simp), held]
  have early : parseReplies site asked.request s = [] := by rw [parseReplies, body]
  have fits : (Reply.file backupPath (archiveText words) backupPath).Fits := archiveText_short words
  have sent := (Reply.send_bytes (.file backupPath (archiveText words) backupPath)
    { contentLength := contentLengthNotSet } rfl (.inr rfl) fits).2
  rw [answered, reads]
  dsimp only
  rw [respond, early, reply]
  dsimp only [List.foldl_nil, Option.elim]
  rw [sent, List.nil_append, ← List.append_nil (Reply.bytes _)]
  exact read_reply _ fits []

/-- From the words of a year to the numbers that its owner downloads: after a New Year that found the EEPROM open,
and as long as nothing else is done to the archive, the file that a client reads from the connection holds the
twelve months as they were in the flash. -/
theorem year_downloaded (c : UInt32) (io : Readings) (january : JanuaryMidnight c) (boot : Setup.Boot)
    (flash : ByteMemory.Memory) (files : Files) (before events : List Event)
    (isOpen : Runs.run Storage.stillOpen True before)
    (spares : Runs.Along Loop.step (fun _ event => Spares event)
      (everyMinute c io (reached boot flash files before)) events)
    (asked : ArchiveRequest behind) (first : UInt32) :
    ((answered arrival behind site asked.bytes
      (Runs.run Loop.step (everyMinute c io (reached boot flash files before)) events)
      { contentLength := first }).bind fun response => readTable response.body.length response.body) =
      some ((List.range 12).map (row (closedYear c io (reached boot flash files before)))) := by
  have settled : Settled (reached boot flash files before).eeprom :=
    (Storage.open_iff boot flash files before).mpr isOpen
  generalize reached boot flash files before = s at settled spares
  have through : Runs.Throughout Loop.step (fun later => content backupPath later.spiffs =
      some (archiveText (closedYear c io s)))
      (everyMinute c io s) events := by
    refine Runs.throughout_of_invariant ?_ events _ (newYear_archive c io s settled january) spares
    intro state event kept spared
    exact (step_archive state event spared).trans kept
  rw [archive_answered arrival site asked _ _ through.last first, Option.bind_some]
  exact readTable_archive (closedYear c io s)

theorem backup_named : Served.Nameable backupPath := staticPaths_nameable backupPath (by simp [staticPaths])

/-- A browser that asks for the archive. -/
def archiveRequest (behind : Str → Str) : ArchiveRequest behind :=
  { Served.asking behind backupPath backup_named with
    get := rfl
    there := rfl }

/-- New Year 2019, a pulse, the first of February, and a download. -/
theorem year_downloaded_in_2019 :
    ((answered ⟨fun s => [s], fun s => List.append_nil s⟩ id ⟨fun _ _ _ => [], fun _ => false, 0, {}, false⟩
      (archiveRequest id).bytes
      (Runs.run Loop.step (everyMinute 1546300800 ⟨3300, -60, 0⟩ december) [.pulse,
        .minute 1548979200 ⟨3300, -60, 0⟩])
      { contentLength := 0 }).bind fun response => readTable response.body.length response.body) =
      some ((List.range 12).map (row (closedYear 1546300800 ⟨3300, -60, 0⟩ december))) := by
  have february : ¬JanuaryMidnight 1548979200 := by decide
  exact year_downloaded ⟨fun s => [s], fun s => List.append_nil s⟩ ⟨fun _ _ _ => [], fun _ => false, 0, {}, false⟩
    1546300800 ⟨3300, -60, 0⟩ ⟨by decide, by decide⟩ _ _ _ lastEvening
    [.pulse, .minute 1548979200 ⟨3300, -60, 0⟩] lastEvening_open ⟨trivial, february, trivial⟩ (archiveRequest id) 0

end Download
end EspLog.Downloads

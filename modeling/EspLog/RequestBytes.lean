import EspLog.FormBytes

/-! A whole request, from the bytes that a browser sends to the request that the server dispatches. -/

namespace EspLog.RequestBytes
open CText Functions Websites WebServer Scan Parsing QueryText FileBytes FormBytes

section Head

theorem trim_of_ends (s : Str) (first : ∀ b ∈ s.head?, isSpace b = false)
    (last : ∀ b ∈ s.getLast?, isSpace b = false) :
    trim s = s := by
  have front : s.dropWhile isSpace = s := by
    cases s with
    | nil => rfl
    | cons b rest =>
      have other := first b rfl
      rw [List.dropWhile_cons, other]
      rfl
  have back : s.reverse.dropWhile isSpace = s.reverse := by
    cases shape : s.reverse with
    | nil => rfl
    | cons b rest =>
      have other := last b (by rw [← List.head?_reverse, shape]; rfl)
      rw [List.dropWhile_cons, other]
      rfl
  rw [trim, front, back, List.reverse_reverse]

/-- A line of the head. -/
structure Header where
  name : Str
  value : Str
  named : ∀ b ∈ name, b ∉ [0, 13, 58]
  ended : ∀ b ∈ value, b ∉ [0, 13]
  trimmed : trim value = value

namespace Header
variable (header : Header)

def line : Str := header.name ++ 58 :: 32 :: header.value

theorem line_unmarked : 13 ∉ header.line := by
  intro member
  rcases List.mem_append.mp member with name | rest
  · exact header.named 13 name (by decide)
  rcases List.mem_cons.mp rest with colon | rest
  · cases colon
  rcases List.mem_cons.mp rest with blank | value
  · cases blank
  · exact header.ended 13 value (by decide)

theorem line_filled : cString header.line ≠ [] := by
  have ended : 0 ∉ header.name := fun member => header.named 0 member (by decide)
  rw [line, cString_append _ _ ended, cString_cons _ _ (by decide)]
  simp

theorem line_split : indexOf 58 0 header.line = some header.name.length ∧
    substring 0 header.name.length header.line = header.name := by
  have found := indexOf_found header.name (32 :: header.value) header.line 58 0
    (fun member => header.named 0 member (by decide)) (fun member => header.named 58 member (by decide))
    (by decide) rfl
  have piece := substring_piece header.name (58 :: 32 :: header.value) header.line 0 rfl
  rw [Nat.zero_add] at found piece
  exact ⟨found, piece⟩

theorem trimmed_value : trimmedValue header.name.length header.line = header.value := by
  have behind := drop_piece header.name (32 :: header.value) header.line 58 0 rfl
  rw [Nat.zero_add] at behind
  have blank : trim (32 :: header.value) = trim header.value := rfl
  rw [trimmedValue, behind, blank, header.trimmed]

theorem plain_value : plainValue header.name.length header.line = header.value := by
  have behind := drop_piece header.name (32 :: header.value) header.line 58 0 rfl
  rw [Nat.zero_add] at behind
  rw [plainValue, ← List.drop_drop (i := 1), behind]
  rfl

end Header

theorem readHeaders_lines {α : Type} (value : Nat → Str → Str) (collect : Str → Str → α → α)
    (exact : ∀ header : Header, value header.name.length header.line = header.value) (lines : List Header)
    (rest : Str) (fuel : Nat) (enough : lines.length < fuel) (headers : α) :
    readHeaders value collect fuel (lines.flatMap (fun header => header.line ++ lineEnd) ++ (lineEnd ++ rest))
      headers =
      (lines.foldl (fun headers header => collect header.name header.value headers) headers, rest) := by
  induction lines generalizing fuel headers with
  | nil =>
    obtain ⟨fuel, rfl⟩ := Nat.exists_eq_add_of_lt enough
    have empty : readLine (lineEnd ++ rest) = ([], rest) := readLine_found [] rest List.not_mem_nil
    rw [readHeaders, List.flatMap_nil, List.nil_append, empty]
    rfl
  | cons header later ih =>
    rw [List.length_cons] at enough
    obtain ⟨fuel, rfl⟩ := Nat.exists_eq_add_of_lt enough
    have shape : (header :: later).flatMap (fun header => header.line ++ lineEnd) ++ (lineEnd ++ rest) =
        header.line ++
        (lineEnd ++ (later.flatMap (fun header => header.line ++ lineEnd) ++ (lineEnd ++ rest))) := by
      simp only [List.flatMap_cons, List.append_assoc]
    rw [readHeaders, shape, readLine_found _ _ header.line_unmarked]
    dsimp only
    rw [if_neg header.line_filled, header.line_split.1]
    dsimp only
    rw [header.line_split.2, exact header]
    exact ih _ (by omega) _

end Head

section Address

/-- What a browser asks for. -/
structure Target where
  uri : Str
  fields : List Field
  located : ∀ b ∈ uri, b ∉ [0, 13, 32, 63]
  sendable : ∀ field ∈ fields, ∀ b ∈ field.piece, b ∉ [13, 32]

theorem sendable_nil : ∀ field ∈ ([] : List Field), ∀ b ∈ field.piece, b ∉ [13, 32] := List.forall_mem_nil _

namespace Target
variable (target : Target)

def url : Str := target.uri ++ if target.fields = [] then [] else 63 :: queryText target.fields

theorem query_clean (b : UInt8) (member : b ∈ queryText target.fields) : b ∉ [0, 13, 32] := by
  have ended := queryText_ended target.fields
  have joined (fields : List Field) (inside : ∀ field ∈ fields, ∀ b ∈ field.piece, b ∉ [13, 32]) :
      ∀ b ∈ queryText fields, b ∉ [13, 32] := by
    induction fields with
    | nil => simp [queryText]
    | cons field rest ih =>
      cases rest with
      | nil =>
        intro b member
        rw [queryText, List.map_singleton, List.intercalate_singleton] at member
        exact inside field List.mem_cons_self b member
      | cons next rest =>
        have shape : queryText (field :: next :: rest) = field.piece ++ 38 :: queryText (next :: rest) := rfl
        intro b member
        rw [shape] at member
        rcases List.mem_append.mp member with own | later
        · exact inside field List.mem_cons_self b own
        rcases List.mem_cons.mp later with rfl | later
        · decide
        · exact ih (fun field member => inside field (List.mem_cons_of_mem _ member)) b later
  have other := joined target.fields target.sendable b member
  simp only [List.mem_cons, List.not_mem_nil, or_false, not_or] at other ⊢
  refine ⟨?_, other⟩
  intro nul
  exact ended (nul ▸ member)

theorem url_clean (b : UInt8) (member : b ∈ target.url) : b ∉ [0, 13, 32] := by
  rcases List.mem_append.mp member with uri | behind
  · have other := target.located b uri
    simp only [List.mem_cons, List.not_mem_nil, or_false, not_or] at other ⊢
    exact ⟨other.1, other.2.1, other.2.2.1⟩
  · split at behind
    · cases behind
    rcases List.mem_cons.mp behind with rfl | query
    · decide
    · exact target.query_clean b query

theorem url_split : splitUrl target.url = (target.uri, queryText target.fields) := by
  have ended : 0 ∉ target.uri := fun member => target.located 0 member (by decide)
  have unmarked : 63 ∉ target.uri := fun member => target.located 63 member (by decide)
  by_cases empty : target.fields = []
  · have uri : target.url = target.uri := by rw [url, if_pos empty, List.append_nil]
    have absent := indexOf_none target.uri 63 0 (by rw [List.drop_zero, cString_of_text _ ended]; exact unmarked)
    rw [splitUrl, uri, absent, empty]
    rfl
  · have shape : target.url = target.uri ++ 63 :: queryText target.fields := by rw [url, if_neg empty]
    have found := indexOf_found target.uri (queryText target.fields) target.url 63 0 ended unmarked
      (by decide) shape
    have piece := substring_piece target.uri (63 :: queryText target.fields) target.url 0 shape
    have behind := drop_piece target.uri (queryText target.fields) target.url 63 0 shape
    rw [Nat.zero_add] at found piece behind
    rw [splitUrl, found]
    dsimp only
    rw [piece, behind]

end Target

def methodText : Method → Str
  | .get => text "GET"
  | .post => text "POST"
  | .delete => text "DELETE"
  | .options => text "OPTIONS"
  | .put => text "PUT"
  | .patch => text "PATCH"

theorem methodText_clean (method : Method) : ∀ b ∈ methodText method, b ∉ [0, 13, 32] := by
  cases method <;>
  decide +kernel

theorem methodOf_text (method : Method) : methodOf (methodText method) = method := by
  cases method <;>
  decide +kernel

def firstText (method : Method) (target : Target) (version : Str) : Str :=
  methodText method ++ 32 :: (target.url ++ 32 :: version)

theorem requestLine_found (method : Method) (target : Target) (version : Str) :
    requestLine (firstText method target version) = some (method, target.uri, queryText target.fields) := by
  have clean := methodText_clean method
  have urlEnded : 0 ∉ target.url := fun member => target.url_clean 0 member (by decide)
  have urlUnmarked : 32 ∉ target.url := fun member => target.url_clean 32 member (by decide)
  have first := indexOf_found (methodText method) (target.url ++ 32 :: version)
    (firstText method target version) 32 0
    (fun member => clean 0 member (by decide)) (fun member => clean 32 member (by decide)) (by decide) rfl
  have behind := drop_piece (methodText method) (target.url ++ 32 :: version)
    (firstText method target version) 32 0 rfl
  have name := substring_piece (methodText method) (32 :: (target.url ++ 32 :: version))
    (firstText method target version) 0 rfl
  rw [Nat.zero_add] at first behind name
  have second := indexOf_found target.url version (firstText method target version) 32
    ((methodText method).length + 1) urlEnded
    urlUnmarked (by decide) behind
  have url := substring_piece target.url (32 :: version) (firstText method target version)
    ((methodText method).length + 1) behind
  rw [requestLine, first]
  dsimp only
  rw [second]
  dsimp only
  rw [url, name, methodOf_text, target.url_split]

end Address

section Access

/-- What a browser asks its user for. -/
structure Credentials where
  user : Str
  password : Str
  colonless : 58 ∉ user

def Credentials.code (credentials : Credentials) : Str :=
  Base64.encode (credentials.user ++ 58 :: credentials.password)

theorem trim_visible (s : Str) (visible : ∀ b ∈ s, 32 < b) : trim s = s := by
  have shown (b : UInt8) (above : 32 < b) : isSpace b = false := by
    have size : 32 < b.toNat := UInt8.lt_iff_toNat_lt.mp above
    simp only [isSpace, Bool.or_eq_false_iff, beq_eq_false_iff_ne, Bool.and_eq_false_imp, decide_eq_true_eq,
      decide_eq_false_iff_not, UInt8.le_iff_toNat_le, ne_eq, ← UInt8.toNat_inj]
    constructor
    · intro blank
      rw [blank] at size
      exact absurd size (by decide)
    · intro _ low
      have bound : b.toNat ≤ 13 := low
      omega
  exact trim_of_ends s (fun b member => shown b (visible b (List.mem_of_mem_head? member)))
    (fun b member => shown b (visible b (List.mem_of_mem_getLast? member)))

/-- Only the right name with the right password is let in: two codes are the same only for the same credentials. -/
theorem authenticate_code (credentials : Credentials) :
    authenticate www_username www_password (text "Basic " ++ credentials.code) = true ↔
      credentials.user = www_username ∧ credentials.password = www_password := by
  have long : decide ((text "Basic " ++ credentials.code).length > 0) = true := by
    rw [decide_eq_true_eq, List.length_append]
    exact Nat.add_pos_left (by decide) _
  have basic : (text "Basic").isPrefixOf (text "Basic " ++ credentials.code) = true := by
    rw [List.isPrefixOf_iff_prefix]
    exact (show text "Basic" <+: text "Basic " by decide).trans (List.prefix_append _ _)
  have behind : (text "Basic " ++ credentials.code).drop 6 = credentials.code := rfl
  rw [authenticate, long, basic, behind, trim_visible credentials.code (Base64.encode_visible _), Bool.true_and,
    Bool.true_and, beq_iff_eq, Credentials.code, Base64.encode_injective.eq_iff]
  constructor
  · intro same
    have names := congrArg (readUntil 58) same
    rw [readUntil_found 58 _ _ credentials.colonless,
      readUntil_found 58 www_username www_password (by decide)] at names
    injection names with user password
    exact ⟨user, password⟩
  · intro same
    rw [same.1, same.2]

end Access

section Bodies
variable (behind : Str → Str)

/-- The arguments of a form as the body of its request. The server takes a body that begins with a brace or a
bracket for something else. -/
structure FieldsBody where
  fields : List Field
  list : ∀ b ∈ (queryText fields).head?, b ∉ [91, 123]
  short : (queryText fields).length < 2 ^ 31

/-- A form with fields and files that the server can read. -/
structure FormBody where
  boundary : Boundary
  first : Item boundary
  rest : List (Item boundary)
  spaceless : ∀ b ∈ boundary.text, isSpace b = false
  room : ((first :: rest).filter isFieldItem).length ≤ postArgsSize
  intact : FilesIntact boundary behind (first :: rest)

inductive SentBody where
  | none
  | fields (sent : FieldsBody)
  | form (sent : FormBody behind)

namespace SentBody
variable {behind}

def contentType (value : Str) (ended : ∀ b ∈ value, b ∉ [0, 13]) (trimmed : trim value = value) : Header :=
  ⟨text "Content-Type", value, by decide +kernel, ended, trimmed⟩

def contentLength (n : Nat) : Header where
  name := text "Content-Length"
  value := decimal n
  named := by decide +kernel
  ended b member := by
    have digit := decimal_digits n b member
    intro mark
    rcases List.mem_cons.mp mark with rfl | mark
    · exact absurd digit (by decide)
    · rw [List.mem_singleton.mp mark] at digit
      exact absurd digit (by decide)
  trimmed := by
    apply trim_visible
    intro b member
    have digit := decimal_digits n b member
    simp only [isDigit, Bool.and_eq_true, decide_eq_true_eq, UInt8.le_iff_toNat_le] at digit
    have low : 48 ≤ b.toNat := digit.1
    exact UInt8.lt_iff_toNat_lt.mpr (Nat.lt_of_lt_of_le (by decide) low)

def formType (form : FormBody behind) : Str := text "multipart/form-data; boundary=" ++ form.boundary.text

theorem formType_ended (form : FormBody behind) : ∀ b ∈ formType form, b ∉ [0, 13] := by
  intro b member
  rcases List.mem_append.mp member with fixed | boundary
  · have front : ∀ b ∈ text "multipart/form-data; boundary=", b ∉ [0, 13] := by decide +kernel
    exact front b fixed
  · have plain := form.boundary.plain b boundary
    simp [plain.1, plain.2]

theorem formType_trimmed (form : FormBody behind) : trim (formType form) = formType form := by
  apply trim_of_ends
  · have front : ∀ b ∈ (text "multipart/form-data; boundary=").head?, isSpace b = false := by decide +kernel
    exact front
  · intro b last
    rw [formType, List.getLast?_append_of_ne_nil _ form.boundary.filled] at last
    exact form.spaceless b (List.mem_of_mem_getLast? last)

def headers : SentBody behind → List Header
  | .none => []
  | .fields sent =>
    [contentType (text "application/x-www-form-urlencoded") (by decide +kernel) (by decide +kernel),
      contentLength (queryText sent.fields).length]
  | .form sent => [contentType (formType sent) (formType_ended sent) (formType_trimmed sent),
      contentLength (formBytes sent.boundary (sent.first :: sent.rest)).length]

def bytes : SentBody behind → Str
  | .none => []
  | .fields sent => queryText sent.fields
  | .form sent => formBytes sent.boundary (sent.first :: sent.rest)

def arguments : SentBody behind → Arguments
  | .fields sent => sent.fields.map Field.argument
  | .none | .form _ => []

def body : SentBody behind → Body
  | .form sent => .form ((sent.first :: sent.rest).map Item.part)
  | .none | .fields _ => .plain []

end SentBody

theorem basic_ended (credentials : Credentials) : ∀ b ∈ text "Basic " ++ credentials.code, b ∉ [0, 13] := by
  intro b member
  rcases List.mem_append.mp member with fixed | code
  · have front : ∀ b ∈ text "Basic ", b ∉ [0, 13] := by decide +kernel
    exact front b fixed
  · have visible := Base64.encode_visible _ b code
    intro mark
    rcases List.mem_cons.mp mark with rfl | mark
    · exact absurd visible (by decide)
    · rw [List.mem_singleton.mp mark] at visible
      exact absurd visible (by decide)

theorem basic_trimmed (credentials : Credentials) :
    trim (text "Basic " ++ credentials.code) = text "Basic " ++ credentials.code := by
  have filled : credentials.code ≠ [] := by
    intro empty
    have none := Base64.encode_injective (empty.trans Base64.encode_nil.symm)
    simp at none
  apply trim_of_ends
  · have front : ∀ b ∈ (text "Basic ").head?, isSpace b = false := by decide +kernel
    exact front
  · intro b last
    rw [List.getLast?_append_of_ne_nil _ filled] at last
    have one : trim [b] = [b] := by
      apply trim_visible
      intro c member
      rw [List.mem_singleton.mp member]
      exact Base64.encode_visible _ b (List.mem_of_mem_getLast? last)
    by_contra space
    rw [Bool.not_eq_false] at space
    simp [trim, space] at one

def authorizationHeader (credentials : Credentials) : Header :=
  ⟨text "Authorization", text "Basic " ++ credentials.code, by decide +kernel, basic_ended credentials,
    basic_trimmed credentials⟩

/-- The lines that the server takes something from. -/
def taken (credentials : Option Credentials) (body : SentBody behind) : List Header :=
  credentials.toList.map authorizationHeader ++ body.headers

theorem taken_distinct (credentials : Option Credentials) (body : SentBody behind) :
    ((taken behind credentials body).map Header.name).Nodup := by
  have three : [text "Authorization", text "Content-Type", text "Content-Length"].Nodup := by decide +kernel
  have two : [text "Content-Type", text "Content-Length"].Nodup := three.of_cons
  rcases credentials with _ | credentials
  · rcases body with _ | fields | form
    · exact List.nodup_nil
    · exact two
    · exact two
  · rcases body with _ | fields | form
    · exact List.nodup_singleton _
    · exact three
    · exact three

/-- A request as a browser sends it, with the lines of its head in any order. -/
structure Sent where
  method : Method
  target : Target
  version : Str
  headers : List Header
  credentials : Option Credentials
  body : SentBody behind
  lines : List Header
  versioned : 13 ∉ version
  foreign : ∀ header ∈ headers, header.name ∉ [text "Authorization", text "Content-Type", text "Content-Length"]
  order : lines.Perm (headers ++ taken behind credentials body)

theorem foreign_nil : ∀ header ∈ ([] : List Header),
    header.name ∉ [text "Authorization", text "Content-Type", text "Content-Length"] :=
  List.forall_mem_nil _

theorem version_ended : 13 ∉ text "HTTP/1.1" := by decide +kernel

namespace Sent
variable {behind} (sent : Sent behind)

def bytes : Str := firstText sent.method sent.target sent.version ++ (lineEnd ++
  (sent.lines.flatMap (fun header => header.line ++ lineEnd) ++ (lineEnd ++ sent.body.bytes)))

def authorized : Bool := sent.credentials.any fun credentials =>
  credentials.user = www_username ∧ credentials.password = www_password

def request : Request where
  method := sent.method
  uri := sent.target.uri
  query := sent.target.fields.map Field.argument ++
    if readsBody sent.method = true then sent.body.arguments else []
  body := if readsBody sent.method = true then sent.body.body else .plain []
  authorized := sent.authorized

theorem lines_unnamed (header : Header) (collect : Str → Str → Headers → Headers) (headers : Headers)
    (other : header.name ∉ [text "Authorization", text "Content-Type", text "Content-Length"])
    (loop : collect = collectHeader ∨ collect = bodyHeader) :
    collect header.name header.value headers = headers := by
  have name : cString header.name = header.name :=
    cString_of_text _ fun member => header.named 0 member (by decide)
  simp only [List.mem_cons, List.not_mem_nil, or_false, not_or] at other
  have kept : collectHeader header.name header.value headers = headers := by
    rw [collectHeader, name, if_neg other.1]
  rcases loop with rfl | rfl
  · exact kept
  · rw [bodyHeader, kept, name, if_neg other.2.1, if_neg other.2.2]

theorem line_changes (collect : Str → Str → Headers → Headers)
    (loop : collect = collectHeader ∨ collect = bodyHeader) (header : Header) :
    (∀ headers, collect header.name header.value headers = headers) ∨
      (header.name = text "Authorization" ∧ ∃ code, ∀ headers, collect header.name header.value headers =
        { headers with authorization := code }) ∨
      (header.name = text "Content-Type" ∧ ∃ (boundary : Option Str) (isForm : Option Bool), ∀ headers,
        collect header.name header.value headers =
          { headers with boundaryStr := boundary.getD headers.boundaryStr, isForm := isForm.getD headers.isForm }) ∨
      (header.name = text "Content-Length" ∧ ∃ length, ∀ headers, collect header.name header.value headers =
        { headers with contentLength := length }) := by
  have name : cString header.name = header.name :=
    cString_of_text _ fun member => header.named 0 member (by decide)
  have type : ¬text "Authorization" = text "Content-Type" := by decide +kernel
  have length : ¬text "Authorization" = text "Content-Length" := by decide +kernel
  by_cases code : header.name = text "Authorization"
  · refine .inr (.inl ⟨code, cString header.value, ?_⟩)
    have untyped : ¬header.name = text "Content-Type" := code ▸ type
    have unsized : ¬header.name = text "Content-Length" := code ▸ length
    intro headers
    rcases loop with rfl | rfl
    · simp only [collectHeader, name, if_pos code]
    · simp only [bodyHeader, collectHeader, name, if_pos code, if_neg untyped, if_neg unsized]
  rcases loop with rfl | rfl
  · exact .inl fun headers => by simp only [collectHeader, name, if_neg code]
  by_cases typed : header.name = text "Content-Type"
  · refine .inr (.inr (.inl ⟨typed, ?_⟩))
    simp only [bodyHeader, collectHeader, name, if_neg code, if_pos typed]
    by_cases plain : (text "text/plain").isPrefixOf header.value = true
    · exact ⟨none, some false, fun headers => if_pos plain⟩
    simp only [if_neg plain]
    by_cases form : (text "multipart/form-data").isPrefixOf header.value = true
    · exact ⟨some _, some true, fun headers => if_pos form⟩
    · exact ⟨none, none, fun headers => if_neg form⟩
  by_cases sized : header.name = text "Content-Length"
  · refine .inr (.inr (.inr ⟨sized, (toInt header.value).toUInt32, ?_⟩))
    intro headers
    simp only [bodyHeader, collectHeader, name, if_neg code, if_neg typed, if_pos sized]
  · exact .inl fun headers => by
      simp only [bodyHeader, collectHeader, name, if_neg code, if_neg typed, if_neg sized]

theorem lines_swap (collect : Str → Str → Headers → Headers)
    (loop : collect = collectHeader ∨ collect = bodyHeader) (first second : Header)
    (different : first.name ≠ second.name) (headers : Headers) :
    collect second.name second.value (collect first.name first.value headers) =
      collect first.name first.value (collect second.name second.value headers) := by
  rcases line_changes collect loop first with one | ⟨here, _, one⟩ | ⟨here, _, _, one⟩ | ⟨here, _, one⟩ <;>
  rcases line_changes collect loop second with other | ⟨there, _, other⟩ | ⟨there, _, _, other⟩
      | ⟨there, _, other⟩ <;>
  first
    | exact absurd (here.trans there.symm) different
    | simp only [one, other]

/-- Whatever their order is, the lines leave the same behind. -/
theorem lines_ordered (collect : Str → Str → Headers → Headers)
    (loop : collect = collectHeader ∨ collect = bodyHeader) :
    sent.lines.foldl (fun headers header => collect header.name header.value headers) {} =
      (sent.headers ++ taken behind sent.credentials sent.body).foldl
        (fun headers header => collect header.name header.value headers) {} := by
  refine sent.order.foldl_eq' ?_ ({} : Headers)
  intro first here second there headers
  by_cases different : first.name = second.name
  swap
  · exact lines_swap collect loop first second different headers
  by_cases unnamed : first.name ∈ [text "Authorization", text "Content-Type", text "Content-Length"]
  · have special (header : Header) (listed : header ∈ sent.lines)
        (named : header.name ∈ [text "Authorization", text "Content-Type", text "Content-Length"]) :
        header ∈ taken behind sent.credentials sent.body :=
      (List.mem_append.mp (sent.order.subset listed)).resolve_left fun other => sent.foreign header other named
    have same := List.inj_on_of_nodup_map (taken_distinct behind sent.credentials sent.body)
      (special first here unnamed) (special second there (different ▸ unnamed)) different
    rw [same]
  · rw [lines_unnamed first collect _ unnamed loop, lines_unnamed first collect _ unnamed loop]

theorem lines_foreign (collect : Str → Str → Headers → Headers)
    (loop : collect = collectHeader ∨ collect = bodyHeader) :
    sent.headers.foldl (fun headers header => collect header.name header.value headers) {} = {} := by
  have each := sent.foreign
  generalize sent.headers = headers at each
  induction headers with
  | nil => rfl
  | cons header later ih =>
    rw [List.foldl_cons, lines_unnamed header collect _ (each header List.mem_cons_self) loop]
    exact ih fun other member => each other (List.mem_cons_of_mem _ member)

def authorization : Str := match sent.credentials with
  | none => []
  | some credentials => text "Basic " ++ credentials.code

theorem authenticate_authorization :
    authenticate www_username www_password sent.authorization = sent.authorized := by
  rw [authorization, authorized]
  cases sent.credentials with
  | none => rfl
  | some credentials =>
    rw [Bool.eq_iff_iff, authenticate_code]
    simp

theorem lines_credentials (collect : Str → Str → Headers → Headers)
    (loop : collect = collectHeader ∨ collect = bodyHeader) :
    (sent.credentials.toList.map authorizationHeader).foldl
      (fun headers header => collect header.name header.value headers) {} =
      { authorization := sent.authorization } := by
  rw [authorization]
  cases sent.credentials with
  | none => rfl
  | some credentials =>
    have ended : 0 ∉ text "Basic " ++ credentials.code :=
      fun member => basic_ended credentials 0 member (by decide)
    have type : ¬cString (text "Authorization") = text "Content-Type" := by decide +kernel
    have length : ¬cString (text "Authorization") = text "Content-Length" := by decide +kernel
    have own : cString (text "Authorization") = text "Authorization" := by decide +kernel
    have collected : collectHeader (text "Authorization") (text "Basic " ++ credentials.code) {} =
        { authorization := text "Basic " ++ credentials.code } := by
      rw [collectHeader, if_pos own, cString_of_text _ ended]
    rcases loop with rfl | rfl
    · exact collected
    · have read : bodyHeader (text "Authorization") (text "Basic " ++ credentials.code) {} =
          { authorization := text "Basic " ++ credentials.code } := by
        rw [bodyHeader, collected, if_neg type, if_neg length]
      exact read

theorem lines_plain : sent.lines.foldl (fun headers header => collectHeader header.name header.value headers) {} =
    { authorization := sent.authorization } := by
  have type : ¬cString (text "Content-Type") = text "Authorization" := by decide +kernel
  have length : ¬cString (text "Content-Length") = text "Authorization" := by decide +kernel
  rw [sent.lines_ordered _ (.inl rfl), taken, List.foldl_append, List.foldl_append,
    sent.lines_foreign _ (.inl rfl), sent.lines_credentials _ (.inl rfl)]
  rcases sent.body with _ | _ | _
  · rfl
  · simp only [SentBody.headers, List.foldl_cons, List.foldl_nil, SentBody.contentType, SentBody.contentLength,
      collectHeader, if_neg type, if_neg length]
  · simp only [SentBody.headers, List.foldl_cons, List.foldl_nil, SentBody.contentType, SentBody.contentLength,
      collectHeader, if_neg type, if_neg length]

end Sent

/-- What the two lines about a body leave behind. -/
def SentBody.collected {behind : Str → Str} (headers : Headers) : SentBody behind → Headers
  | .none => headers
  | .fields sent => { headers with contentLength := UInt32.ofNat (queryText sent.fields).length }
  | .form sent => { headers with
    boundaryStr := sent.boundary.text
    isForm := true
    contentLength := (toInt (decimal (formBytes sent.boundary (sent.first :: sent.rest)).length)).toUInt32 }

theorem toInt_decimal (n : Nat) (short : n < 2 ^ 31) : (toInt (decimal n)).toUInt32 = UInt32.ofNat n := by
  have value : strtol (decimal n) = n := by rw [strtol_digits _ (decimal_digits n), natOf_decimal]
  have clamped : (toInt (decimal n)).toInt = n := by
    rw [toInt, value]
    apply Int32.toInt_ofIntClamp
    · rw [Int32.toInt_minValue]
      omega
    · rw [Int32.toInt_maxValue]
      omega
  apply UInt32.toNat_inj.mp
  rw [natural_toUInt32 _ _ clamped, UInt32.toNat_ofNat_of_lt']
  have size : UInt32.size = 2 ^ 32 := rfl
  omega

theorem formType_boundary {behind : Str → Str} (sent : FormBody behind) :
    indexOf 61 0 (SentBody.formType sent) = some 29 ∧ (SentBody.formType sent).drop 30 = sent.boundary.text := by
  have shape : SentBody.formType sent = text "multipart/form-data; boundary" ++ 61 :: sent.boundary.text := by
    have front : text "multipart/form-data; boundary=" = text "multipart/form-data; boundary" ++ [61] := by
      decide +kernel
    rw [SentBody.formType, front, List.append_assoc]
    rfl
  have size : (text "multipart/form-data; boundary").length = 29 := by decide +kernel
  have found := indexOf_found (text "multipart/form-data; boundary") sent.boundary.text
    (SentBody.formType sent) 61 0
    (by decide +kernel) (by decide +kernel) (by decide) shape
  have rest := drop_piece (text "multipart/form-data; boundary") sent.boundary.text (SentBody.formType sent)
    61 0 shape
  rw [size] at found rest
  exact ⟨found, rest⟩

theorem SentBody.headers_collected {behind : Str → Str} (body : SentBody behind) (headers : Headers) :
    body.headers.foldl (fun headers header => bodyHeader header.name header.value headers) headers =
      body.collected headers := by
  have typeOther : ¬cString (text "Content-Type") = text "Authorization" := by decide +kernel
  have typeOwn : cString (text "Content-Type") = text "Content-Type" := by decide +kernel
  have lengthOther : ¬cString (text "Content-Length") = text "Authorization" := by decide +kernel
  have lengthType : ¬cString (text "Content-Length") = text "Content-Type" := by decide +kernel
  have lengthOwn : cString (text "Content-Length") = text "Content-Length" := by decide +kernel
  cases body with
  | none => rfl
  | fields sent =>
    have plain : ¬(text "text/plain").isPrefixOf (text "application/x-www-form-urlencoded") = true := by
      decide +kernel
    have form : ¬(text "multipart/form-data").isPrefixOf (text "application/x-www-form-urlencoded") = true := by
      decide +kernel
    simp only [SentBody.headers, List.foldl_cons, List.foldl_nil, contentType, contentLength, bodyHeader,
      collectHeader, if_neg typeOther, if_pos typeOwn, if_neg lengthOther, if_neg lengthType, if_pos lengthOwn,
      if_neg plain, if_neg form, toInt_decimal _ sent.short, collected]
  | form sent =>
    have plain : ¬(text "text/plain").isPrefixOf (formType sent) = true := by
      rw [List.isPrefixOf_iff_prefix]
      intro starts
      obtain ⟨rest, same⟩ := starts
      have first : some 116 = (formType sent).head? := congrArg List.head? same
      cases first
    have form : (text "multipart/form-data").isPrefixOf (formType sent) = true := by
      rw [List.isPrefixOf_iff_prefix]
      exact (show text "multipart/form-data" <+: text "multipart/form-data; boundary=" by decide +kernel).trans
        (List.prefix_append _ _)
    simp only [SentBody.headers, List.foldl_cons, List.foldl_nil, contentType, contentLength, bodyHeader,
      collectHeader, if_neg typeOther, if_pos typeOwn, if_neg lengthOther, if_neg lengthType, if_pos lengthOwn,
      if_neg plain, if_pos form, formType_boundary sent, collected]

end Bodies

section RoundTrip

theorem readPlain_exact (maxLength : Nat) (bursts : List Str) (buf : Str)
    (size : buf.length + bursts.flatten.length = maxLength) :
    readPlain maxLength bursts buf = buf ++ bursts.flatten := by
  induction bursts generalizing buf with
  | nil => exact (List.append_nil buf).symm
  | cons burst later ih =>
    rw [List.flatten_cons, List.length_append] at size
    rw [readPlain, List.flatten_cons]
    split
    · rw [ih (buf ++ burst) (by rw [List.length_append]; omega), List.append_assoc]
    · have none : burst = [] ∧ later.flatten = [] := by
        constructor
        · exact List.length_eq_zero_iff.mp (by omega)
        · exact List.length_eq_zero_iff.mp (by omega)
      rw [none.1, none.2, List.append_nil, List.append_nil]

theorem queryText_filled (field : Field) (rest : List Field) : 61 ∈ queryText (field :: rest) := by
  have own : 61 ∈ field.piece := List.mem_append_right _ List.mem_cons_self
  cases rest with
  | nil =>
    rw [queryText, List.map_singleton, List.intercalate_singleton]
    exact own
  | cons next rest =>
    have shape : queryText (field :: next :: rest) = field.piece ++ 38 :: queryText (next :: rest) := rfl
    rw [shape]
    exact List.mem_append_left _ own

theorem addPlain_fields (query : List Field) (sent : FieldsBody) :
    parseArguments (if (queryText sent.fields).length > 0 then addPlain (queryText query) (queryText sent.fields)
      else queryText query) = query.map Field.argument ++ sent.fields.map Field.argument := by
  have short := sent.list
  rcases fields : sent.fields with _ | ⟨field, rest⟩
  · rw [if_neg (by simp [queryText]), query_round_trip, List.map_nil, List.append_nil]
  · rw [fields] at short
    have filled := queryText_filled field rest
    have visible : cString (queryText (field :: rest)) = queryText (field :: rest) :=
      cString_of_text _ (queryText_ended _)
    have list : ¬((queryText (field :: rest)).head? = some 123 ∨ (queryText (field :: rest)).head? = some 91 ∨
        61 ∉ cString (queryText (field :: rest))) := by
      rw [visible, not_or, not_or, not_not]
      exact ⟨fun brace => short 123 brace (by decide), fun bracket => short 91 bracket (by decide), filled⟩
    rw [if_pos (List.length_pos_of_mem filled), addPlain, if_neg list, visible]
    cases query with
    | nil => exact query_round_trip (field :: rest)
    | cons other later =>
      have some : queryText (other :: later) ≠ [] := List.ne_nil_of_mem (queryText_filled other later)
      rw [if_pos some, List.append_assoc, List.singleton_append, parseArguments_append _ _ (queryText_ended _),
        query_round_trip, query_round_trip]

variable {behind : Str → Str} (sent : Sent behind)

theorem firstText_unmarked : 13 ∉ firstText sent.method sent.target sent.version := by
  intro member
  rcases List.mem_append.mp member with method | rest
  · exact methodText_clean sent.method 13 method (by decide)
  rcases List.mem_cons.mp rest with blank | rest
  · cases blank
  rcases List.mem_append.mp rest with url | rest
  · exact sent.target.url_clean 13 url (by decide)
  rcases List.mem_cons.mp rest with blank | version
  · cases blank
  · exact sent.versioned version

theorem lines_length (lines : List Header) (rest : Str) :
    lines.length < (lines.flatMap (fun header => header.line ++ lineEnd) ++ (lineEnd ++ rest)).length + 1 := by
  induction lines with
  | nil => exact Nat.succ_pos _
  | cons header later ih =>
    rw [List.flatMap_cons, List.append_assoc, List.length_append, List.length_append, List.length_cons]
    have size : lineEnd.length = 2 := rfl
    omega

/-- What a browser sends is what the server dispatches, in whatever order the lines of its head stand, however the
bytes of the body come in and whatever memory stands behind the server's array. -/
theorem request_round_trip (arrival : Arrival) :
    readRequest arrival behind sent.bytes = .request sent.request := by
  have line := readLine_found (firstText sent.method sent.target sent.version)
    (sent.lines.flatMap (fun header => header.line ++ lineEnd) ++ (lineEnd ++ sent.body.bytes))
    (firstText_unmarked sent)
  have authorized := sent.authenticate_authorization
  rw [readRequest, Sent.bytes, line]
  dsimp only
  rw [requestLine_found]
  dsimp only
  by_cases reads : readsBody sent.method = true
  · have collected : sent.lines.foldl (fun headers header => bodyHeader header.name header.value headers) {} =
        sent.body.collected { authorization := sent.authorization } := by
      rw [sent.lines_ordered _ (.inr rfl), taken, List.foldl_append, List.foldl_append,
        sent.lines_foreign _ (.inr rfl), sent.lines_credentials _ (.inr rfl), sent.body.headers_collected]
    rw [if_pos reads, readHeaders_lines trimmedValue bodyHeader Header.trimmed_value _ _ _ (lines_length _ _),
      collected]
    dsimp only
    have same : sent.request =
        ⟨sent.method, sent.target.uri, sent.target.fields.map Field.argument ++ sent.body.arguments,
        sent.body.body, sent.authorized⟩ := by
      rw [Sent.request, if_pos reads, if_pos reads]
    rw [same, ← authorized]
    rcases sent.body with _ | fields | form
    · have empty : readPlain 0 (arrival.bursts []) [] = [] := by
        cases arrival.bursts [] with
        | nil => rfl
        | cons burst later => rfl
      simp only [SentBody.collected, SentBody.bytes, SentBody.arguments, SentBody.body, UInt32.toNat_zero, empty,
        List.length_nil, Nat.lt_irrefl, gt_iff_lt, if_false, Bool.false_eq_true, query_round_trip, List.append_nil]
    · have size : (UInt32.ofNat (queryText fields.fields).length).toNat = (queryText fields.fields).length := by
        rw [UInt32.toNat_ofNat_of_lt']
        have size : UInt32.size = 2 ^ 32 := rfl
        have short := fields.short
        omega
      have whole := readPlain_exact (queryText fields.fields).length (arrival.bursts (queryText fields.fields)) []
        (by rw [arrival.whole, List.length_nil, Nat.zero_add])
      rw [arrival.whole, List.nil_append] at whole
      simp only [SentBody.collected, SentBody.bytes, SentBody.arguments, SentBody.body, size, whole,
        Nat.lt_irrefl, if_false, Bool.false_eq_true, addPlain_fields]
    · have arrives := (readForm_items form.boundary behind Item.part (fun _ => rfl) form.first form.rest).mpr
        ⟨form.room, form.intact, fun _ _ => rfl⟩
      simp only [SentBody.collected, SentBody.bytes, SentBody.arguments, SentBody.body, if_true, arrives,
        FormEnd.request, query_round_trip, List.append_nil]
  · rw [if_neg reads, readHeaders_lines plainValue collectHeader Header.plain_value _ _ _ (lines_length _ _),
      sent.lines_plain]
    dsimp only
    rw [query_round_trip, authorized, Sent.request, if_neg reads, if_neg reads, List.append_nil]

end RoundTrip
end EspLog.RequestBytes

import EspLog.FileBytes
import EspLog.QueryText

/-! A form with fields and files, from the bytes that a browser sends to the parts that the server makes of them. -/

namespace EspLog.FormBytes
open CText Functions Websites WebServer Scan Parsing QueryText FileBytes

section Items
variable (boundary : Boundary)

/-- A field: the lines of its value, none of which is taken for the boundary. -/
structure FieldItem where
  name : Str
  type : Option Str
  lines : List Str
  named : ∀ b ∈ name, b ∉ [0, 13, 61]
  typed : ∀ t ∈ type, 13 ∉ t
  filled : lines ≠ []
  unmarked : ∀ line ∈ lines, 13 ∉ line ∧ ¬dashes boundary.text <+: line

/-- A file of any contents. -/
structure FileItem where
  name : Str
  filename : Str
  type : Option Str
  contents : Str
  named : ∀ b ∈ name, b ∉ [0, 13, 61]
  filed : 13 ∉ filename
  typed : ∀ t ∈ type, 13 ∉ t

inductive Item where
  | field (sent : FieldItem boundary)
  | file (sent : FileItem)

def nameLine (name : Str) : Str := text "Content-Disposition: form-data; name=\"" ++ name ++ [34]

def fileLine (name filename : Str) : Str := nameLine name ++ text "; filename=\"" ++ filename ++ [34]

/-- The line with the type, when there is one, and the empty line. -/
def typeLines : Option Str → Str
  | none => lineEnd
  | some type => text "Content-Type: " ++ type ++ lineEnd ++ lineEnd

variable {boundary}

def FieldItem.value (sent : FieldItem boundary) : Str := lineEnd.intercalate sent.lines

/-- How the server joins the lines of a value: by line feeds, but not behind empty ones at the start. -/
def joinLine (argValue line : Str) : Str := (if argValue.length > 0 then argValue ++ [10] else argValue) ++ line

def FieldItem.received (sent : FieldItem boundary) : Str := sent.lines.foldl joinLine []

def Item.bytes : Item boundary → Str
  | .field sent => nameLine sent.name ++ lineEnd ++ typeLines sent.type ++ sent.value
  | .file sent => fileLine sent.name sent.filename ++ lineEnd ++ typeLines sent.type ++ sent.contents

/-- What the server makes of an item: a file comes in chunks of the buffer's size. -/
def Item.part : Item boundary → Part
  | .field sent => .field sent.name sent.received
  | .file sent => .file sent.filename (Upload.writeBytes { fits := Nat.zero_le _ } sent.contents).finish true

/-- The part with the value as it was sent. -/
def Item.sent : Item boundary → Part
  | .field sent => .field sent.name sent.value
  | .file sent => Item.part (.file sent : Item boundary)

variable (boundary)

/-- What follows a boundary: the next item, or the end of the form. -/
def ending : List (Item boundary) → Str
  | [] => [45, 45] ++ lineEnd
  | item :: rest => lineEnd ++ (item.bytes ++ tail boundary (ending rest))

def formBytes (items : List (Item boundary)) : Str := dashes boundary.text ++ ending boundary items

/-- The files whose contents are intact between their boundaries. -/
def FilesIntact (behind : Str → Str) : List (Item boundary) → Prop
  | [] => True
  | .field _ :: rest => FilesIntact behind rest
  | .file sent :: rest =>
    Intact boundary behind (tail boundary (ending boundary rest)) sent.contents ∧ FilesIntact behind rest

end Items

section Lines

theorem readLine_found (line rest : Str) (unmarked : 13 ∉ line) :
    readLine (line ++ (lineEnd ++ rest)) = (line, rest) := by
  have shape : line ++ (lineEnd ++ rest) = line ++ 13 :: 10 :: rest := rfl
  have feed : readUntil 10 (10 :: rest) = ([], rest) := readUntil_found 10 [] rest List.not_mem_nil
  rw [readLine, shape, readUntil_found 13 line _ unmarked, feed]

theorem nameLine_starts (name : Str) : (text "Content-Disposition").isPrefixOf (nameLine name) = true := by
  have shape : nameLine name = text "Content-Disposition" ++ (text ": form-data; name=\"" ++ name ++ [34]) := by
    rw [nameLine, ← List.append_assoc, ← List.append_assoc]
    rfl
  rw [shape, List.isPrefixOf_iff_prefix]
  exact List.prefix_append _ _

theorem nameLine_unmarked (name : Str) (named : ∀ b ∈ name, b ∉ [0, 13, 61]) : 13 ∉ nameLine name := by
  intro member
  rcases List.mem_append.mp member with front | quote
  · rcases List.mem_append.mp front with fixed | inside
    · exact absurd fixed (by decide +kernel)
    · exact named 13 inside (by decide)
  · exact absurd quote (by decide)

theorem nameLine_split (name rest : Str) : indexOf 61 0 (nameLine name ++ rest) = some 36 ∧
    (nameLine name ++ rest).drop 38 = name ++ 34 :: rest := by
  have shape : nameLine name ++ rest = text "Content-Disposition: form-data; name" ++ 61 :: 34 ::
      (name ++ 34 :: rest) := by
    rw [nameLine]
    have front : text "Content-Disposition: form-data; name=\"" = text "Content-Disposition: form-data; name" ++
        [61, 34] := by
      decide +kernel
    rw [front]
    simp only [List.append_assoc, List.cons_append, List.nil_append]
  have found := indexOf_found (text "Content-Disposition: form-data; name") (34 :: (name ++ 34 :: rest))
    (nameLine name ++ rest)
    61 0 (by decide +kernel) (by decide +kernel) (by decide) shape
  have size : (text "Content-Disposition: form-data; name").length = 36 := by decide +kernel
  rw [size] at found
  refine ⟨found, ?_⟩
  have split : (38 : Nat) = (text "Content-Disposition: form-data; name").length + 2 := by rw [size]
  rw [shape, split, ← List.drop_drop, List.drop_left]
  rfl

theorem disposition_field (name : Str) (named : ∀ b ∈ name, b ∉ [0, 13, 61]) :
    disposition (nameLine name) = some ⟨name, none⟩ := by
  obtain ⟨found, dropped⟩ := nameLine_split name []
  rw [List.append_nil] at found dropped
  have unmarked : 61 ∉ cString (name ++ [34]) := by
    intro member
    rcases List.mem_append.mp ((List.takeWhile_sublist _).subset member) with inside | quote
    · exact named 61 inside (by decide)
    · exact absurd quote (by decide)
  have whole : substring 0 ((name ++ [34]).length - 1) (name ++ [34]) = name := by
    rw [List.length_append, List.length_singleton, Nat.add_sub_cancel, substring, Nat.max_eq_right (Nat.zero_le _),
      List.take_left, Nat.min_eq_left (Nat.zero_le _), List.drop_zero]
  rw [disposition, if_pos (nameLine_starts name), found]
  dsimp only
  rw [dropped, indexOf_none _ 61 0 unmarked]
  dsimp only
  rw [whole]

theorem disposition_file (name filename : Str) (named : ∀ b ∈ name, b ∉ [0, 13, 61]) :
    ∃ argName, disposition (fileLine name filename) = some ⟨argName, some filename⟩ := by
  have shape : fileLine name filename = nameLine name ++ (text "; filename=\"" ++ filename ++ [34]) := by
    simp only [fileLine, List.append_assoc]
  obtain ⟨found, dropped⟩ := nameLine_split name (text "; filename=\"" ++ filename ++ [34])
  have starts : (text "Content-Disposition").isPrefixOf (fileLine name filename) = true := by
    have own := nameLine_starts name
    rw [List.isPrefixOf_iff_prefix] at own ⊢
    rw [shape]
    exact own.trans (List.prefix_append _ _)
  have front : text "; filename=\"" = text "; filename" ++ [61, 34] := by decide +kernel
  have rest : name ++ 34 :: (text "; filename=\"" ++ filename ++ [34]) =
      (name ++ 34 :: text "; filename") ++ 61 :: 34 :: (filename ++ [34]) := by
    rw [front]
    simp only [List.append_assoc, List.cons_append, List.nil_append]
  have unmarked (mark : UInt8) (marks : mark = 0 ∨ mark = 61) : mark ∉ name ++ 34 :: text "; filename" := by
    intro member
    rcases List.mem_append.mp member with inside | behind
    · rcases marks with rfl | rfl <;>
      exact named _ inside (by decide)
    · rcases marks with rfl | rfl <;>
      exact absurd behind (by decide +kernel)
  have second := indexOf_found (name ++ 34 :: text "; filename") (34 :: (filename ++ [34]))
    (name ++ 34 :: (text "; filename=\"" ++ filename ++ [34])) 61 0 (unmarked 0 (.inl rfl))
    (unmarked 61 (.inr rfl)) (by decide) rest
  have size : (name ++ 34 :: (text "; filename=\"" ++ filename ++ [34])).length - 1 =
      0 + (name ++ 34 :: text "; filename").length + 2 + filename.length := by
    rw [rest]
    simp only [List.length_append, List.length_cons, List.length_nil]
    omega
  have cut : substring (0 + (name ++ 34 :: text "; filename").length + 2)
      ((name ++ 34 :: (text "; filename=\"" ++ filename ++ [34])).length - 1)
      (name ++ 34 :: (text "; filename=\"" ++ filename ++ [34])) = filename := by
    rw [size]
    apply substring_piece filename [34]
    rw [rest, Nat.zero_add, ← List.drop_drop, List.drop_left]
    rfl
  rw [shape] at starts
  rw [shape, disposition, if_pos starts, found]
  dsimp only
  rw [dropped, second]
  dsimp only
  rw [cut]
  exact ⟨_, rfl⟩

theorem typeLines_read (type : Option Str) (typed : ∀ t ∈ type, 13 ∉ t) (rest : Str) :
    (if (text "Content-Type").isPrefixOf (readLine (typeLines type ++ rest)).1 = true then
      (readLine (readLine (typeLines type ++ rest)).2).2 else (readLine (typeLines type ++ rest)).2) = rest := by
  cases type with
  | none =>
    have empty : readLine (typeLines none ++ rest) = ([], rest) := readLine_found [] rest List.not_mem_nil
    have other : ¬(text "Content-Type").isPrefixOf ([] : Str) = true := by decide +kernel
    rw [empty, if_neg other]
  | some type =>
    have unmarked : 13 ∉ text "Content-Type: " ++ type := by
      rw [List.mem_append, not_or]
      exact ⟨by decide +kernel, typed type rfl⟩
    have shape : typeLines (some type) ++ rest =
        (text "Content-Type: " ++ type) ++ (lineEnd ++ (lineEnd ++ rest)) := by
      simp only [typeLines, List.append_assoc]
    have front : (text "Content-Type").isPrefixOf (text "Content-Type: " ++ type) = true := by
      rw [List.isPrefixOf_iff_prefix]
      exact (show text "Content-Type" <+: text "Content-Type: " by decide +kernel).trans (List.prefix_append _ _)
    have empty : readLine (lineEnd ++ rest) = ([], rest) := readLine_found [] rest List.not_mem_nil
    rw [shape, readLine_found _ _ unmarked, if_pos front, empty]

end Lines

section Reading
variable (boundary : Boundary) (behind : Str → Str)

theorem dashes_unmarked : 13 ∉ dashes boundary.text := by
  intro member
  rcases List.mem_cons.mp member with first | member
  · cases first
  rcases List.mem_cons.mp member with second | member
  · cases second
  exact (boundary.plain 13 member).2 rfl

/-- What the server has read of the line behind a value, and what it goes on with. -/
def lastLine : List (Item boundary) → Str
  | [] => dashes boundary.text ++ [45, 45]
  | _ :: _ => dashes boundary.text

def following : List (Item boundary) → Str
  | [] => []
  | item :: rest => item.bytes ++ tail boundary (ending boundary rest)

theorem readLine_dashes (rest : List (Item boundary)) :
    readLine (dashes boundary.text ++ ending boundary rest) =
      (lastLine boundary rest, following boundary rest) := by
  cases rest with
  | nil =>
    have unmarked : 13 ∉ dashes boundary.text ++ [45, 45] := by
      rw [List.mem_append, not_or]
      exact ⟨dashes_unmarked boundary, by decide⟩
    have line := readLine_found _ [] unmarked
    rw [List.append_nil, List.append_assoc] at line
    exact line
  | cons item rest => exact readLine_found _ _ (dashes_unmarked boundary)

theorem lastLine_eq (rest : List (Item boundary)) : lastLine boundary rest = dashes boundary.text ++ [45, 45] ↔
    rest = [] := by
  cases rest with
  | nil => exact iff_of_true rfl rfl
  | cons item rest =>
    refine iff_of_false ?_ (List.cons_ne_nil _ _)
    intro same
    have size := congrArg List.length same
    rw [lastLine, List.length_append] at size
    exact absurd size (by simp)

theorem value_lines (lines : List Str) (filled : lines ≠ []) (rest : Str) :
    lineEnd.intercalate lines ++ (lineEnd ++ rest) = lines.flatMap (fun line => line ++ lineEnd) ++ rest := by
  induction lines with
  | nil => exact absurd rfl filled
  | cons line later ih =>
    cases later with
    | nil => simp
    | cons next later =>
      have shape : lineEnd.intercalate (line :: next :: later) =
          line ++ (lineEnd ++ lineEnd.intercalate (next :: later)) := by
        simp [List.intercalate]
      rw [shape, List.append_assoc, List.append_assoc, ih (List.cons_ne_nil _ _)]
      simp only [List.flatMap_cons, List.append_assoc]

theorem readValue_lines (fuel : Nat) (lines : List Str)
    (unmarked : ∀ line ∈ lines, 13 ∉ line ∧ ¬dashes boundary.text <+: line) (rest : List (Item boundary))
    (argValue : Str) :
    readValue boundary.text (lines.length + (fuel + 1))
      (lines.flatMap (fun line => line ++ lineEnd) ++ (dashes boundary.text ++ ending boundary rest)) argValue =
      some (lines.foldl joinLine argValue, lastLine boundary rest, following boundary rest) := by
  induction lines generalizing argValue with
  | nil =>
    have begins : (dashes boundary.text).isPrefixOf (lastLine boundary rest) = true := by
      rw [List.isPrefixOf_iff_prefix]
      cases rest with
      | nil => exact List.prefix_append _ _
      | cons item rest => exact List.prefix_refl _
    rw [List.length_nil, Nat.zero_add, List.flatMap_nil, List.nil_append, readValue, readLine_dashes]
    dsimp only
    rw [if_pos begins]
    rfl
  | cons line later ih =>
    obtain ⟨here, behind⟩ := List.forall_mem_cons.mp unmarked
    have other : ¬(dashes boundary.text).isPrefixOf line = true := by
      rw [List.isPrefixOf_iff_prefix]
      exact here.2
    have turn : (line :: later).length + (fuel + 1) = later.length + (fuel + 1) + 1 := by
      rw [List.length_cons]
      omega
    rw [turn, readValue, List.flatMap_cons, List.append_assoc, List.append_assoc, readLine_found line _ here.1]
    dsimp only
    rw [if_neg other]
    exact ih behind _

theorem readParts_starts (boundary : Str) (fuel : Nat) (client : Str) (parts all : List Part)
    (ends : readParts boundary behind fuel client parts = .parts all) : parts <+: all := by
  induction fuel generalizing client parts with
  | zero => cases ends
  | succ fuel ih =>
    rw [readParts] at ends
    dsimp only at ends
    split at ends
    · exact ih _ _ ends
    split at ends
    · split at ends
      · cases ends
      split at ends
      · split at ends
        · injection ends with same
          exact same ▸ List.prefix_append _ _
        · exact (List.prefix_append _ _).trans (ih _ _ ends)
      · cases ends
    · split at ends
      · injection ends with same
        exact same ▸ List.prefix_append _ _
      · split at ends
        · injection ends with same
          exact same ▸ List.prefix_append _ _
        · exact (List.prefix_append _ _).trans (ih _ _ ends)

theorem readParts_field (fuel : Nat) (sent : FieldItem boundary) (rest : List (Item boundary))
    (parts : List Part) :
    readParts boundary.text behind (sent.lines.length + 2 + fuel)
      (following boundary (.field sent :: rest)) parts =
      if (parts.filter isField).length < postArgsSize then
        if rest = [] then .parts (parts ++ [.field sent.name sent.received])
        else readParts boundary.text behind (sent.lines.length + 1 + fuel) (following boundary rest)
          (parts ++ [.field sent.name sent.received])
      else .overrun parts := by
  have unmarked := nameLine_unmarked sent.name sent.named
  have shape : following boundary (.field sent :: rest) = nameLine sent.name ++ (lineEnd ++ (typeLines sent.type ++
      (sent.value ++ tail boundary (ending boundary rest)))) := by
    simp only [following, Item.bytes, List.append_assoc]
  have turn : sent.lines.length + 2 + fuel = sent.lines.length + (fuel + 1) + 1 := by omega
  have later : sent.lines.length + (fuel + 1) = sent.lines.length + 1 + fuel := by omega
  have value : readValue boundary.text (sent.lines.length + (fuel + 1))
      (sent.value ++ tail boundary (ending boundary rest)) [] =
      some (sent.received, lastLine boundary rest, following boundary rest) := by
    have split : tail boundary (ending boundary rest) = lineEnd ++ (dashes boundary.text ++ ending boundary rest) :=
      rfl
    rw [FieldItem.value, split, value_lines sent.lines sent.filled]
    exact readValue_lines boundary fuel sent.lines sent.unmarked rest []
  rw [turn, readParts, shape, readLine_found _ _ unmarked]
  dsimp only
  rw [disposition_field sent.name sent.named]
  dsimp only
  rw [typeLines_read sent.type sent.typed]
  rw [value]
  dsimp only
  simp only [lastLine_eq, later]

theorem readParts_file (fuel : Nat) (sent : FileItem) (rest : List (Item boundary)) (parts : List Part) :
    readParts boundary.text behind (fuel + 1) (following boundary (.file sent :: rest)) parts =
      match readFrom boundary.text behind (sent.contents ++ tail boundary (ending boundary rest)) {} with
      | .aborted upload => .parts (parts ++ [.file sent.filename upload.chunks false])
      | .complete upload client =>
        if (readLine client).1 = [45, 45] then .parts (parts ++ [.file sent.filename upload.finish true])
        else readParts boundary.text behind fuel (readLine client).2
          (parts ++ [.file sent.filename upload.finish true]) := by
  have unmarked : 13 ∉ fileLine sent.name sent.filename := by
    intro member
    rcases List.mem_append.mp member with front | quote
    · rcases List.mem_append.mp front with front | inside
      · rcases List.mem_append.mp front with name | fixed
        · exact nameLine_unmarked sent.name sent.named name
        · exact absurd fixed (by decide +kernel)
      · exact sent.filed inside
    · exact absurd quote (by decide)
  have shape : following boundary (.file sent :: rest) =
      fileLine sent.name sent.filename ++ (lineEnd ++ (typeLines sent.type ++
      (sent.contents ++ tail boundary (ending boundary rest)))) := by
    simp only [following, Item.bytes, List.append_assoc]
  obtain ⟨argName, found⟩ := disposition_file sent.name sent.filename sent.named
  rw [readParts, shape, readLine_found _ _ unmarked]
  dsimp only
  rw [found]
  dsimp only
  rewrite [typeLines_read sent.type sent.typed]
  rfl

theorem ending_line (rest : List (Item boundary)) :
    readLine (ending boundary rest) = (if rest = [] then [45, 45] else [], following boundary rest) := by
  cases rest with
  | nil => exact readLine_found [45, 45] [] (by decide)
  | cons item rest => exact readLine_found [] _ List.not_mem_nil

variable {boundary} in
def isFieldItem : Item boundary → Bool
  | .field _ => true
  | .file _ => false

def fieldCount (parts : List Part) : Nat := (parts.filter isField).length

theorem fieldCount_concat (parts : List Part) (part : Part) :
    fieldCount (parts ++ [part]) = fieldCount parts + if isField part = true then 1 else 0 := by
  rw [fieldCount, List.filter_append, List.length_append, List.filter_singleton]
  cases isField part <;> rfl

theorem readParts_changed (fuel : Nat) (sent : FileItem) (rest : List (Item boundary)) (parts later : List Part)
    (changed : ¬Intact boundary behind (tail boundary (ending boundary rest)) sent.contents) :
    readParts boundary.text behind (fuel + 1) (following boundary (.file sent :: rest)) parts ≠
      .parts (parts ++ (Item.part (.file sent : Item boundary) :: later)) := by
  intro ends
  rw [readParts_file] at ends
  have same (upload : Upload) (client : Str)
      (reads : readFrom boundary.text behind (sent.contents ++ tail boundary (ending boundary rest)) {} =
      .complete upload client)
      (arrived : parts ++ [.file sent.filename upload.finish true] <+: parts ++
        (Item.part (.file sent : Item boundary) :: later)) :
      False := by
    have first := (List.prefix_append_right_inj parts).mp arrived
    have finish := (List.cons_prefix_cons.mp first).1
    injection finish with _ chunks _
    have bytes := congrArg List.flatten chunks
    rw [finish_flatten, finish_flatten, writeBytes_bytes] at bytes
    exact changed (.of_read boundary behind reads bytes)
  cases reads : readFrom boundary.text behind (sent.contents ++ tail boundary (ending boundary rest)) {} with
  | aborted upload =>
    rw [reads] at ends
    injection ends with ends
    injection List.append_cancel_left ends with other _
    injection other with _ _ unfinished
    cases unfinished
  | complete upload client =>
    rw [reads] at ends
    dsimp only at ends
    split at ends
    · injection ends with ends
      exact same upload client reads (ends ▸ List.prefix_refl _)
    · exact same upload client reads (readParts_starts behind boundary.text fuel _ _ _ ends)

variable {boundary} in
/-- The turns of the loops over the parts and over the lines of their values. -/
def turns : List (Item boundary) → Nat
  | [] => 0
  | .field sent :: rest => sent.lines.length + 2 + turns rest
  | .file _ :: rest => turns rest + 1

/-- Exactly the forms with room for their fields and with intact files are read to their end, field by field as the
server joins its lines; `expected` is what the fields are compared with. -/
theorem readParts_items (expected : Item boundary → Part)
    (whole : ∀ sent, expected (.file sent) = (Item.file sent : Item boundary).part) (extra : Nat)
    (items : List (Item boundary)) (sends : items ≠ []) (parts : List Part)
    (room : fieldCount parts ≤ postArgsSize) :
    readParts boundary.text behind (turns items + extra) (following boundary items) parts =
        .parts (parts ++ items.map expected) ↔
      fieldCount parts + (items.filter isFieldItem).length ≤ postArgsSize ∧ FilesIntact boundary behind items ∧
        ∀ item ∈ items, expected item = item.part := by
  induction items generalizing parts extra with
  | nil => exact absurd rfl sends
  | cons item rest ih =>
    have joined (part : Part) : parts ++ [part] ++ rest.map expected = parts ++ part :: rest.map expected := by
      rw [List.append_assoc, List.singleton_append]
    rw [List.map_cons, List.forall_mem_cons]
    cases item with
    | field sent =>
      have counted : ((Item.field sent :: rest).filter isFieldItem).length =
        (rest.filter isFieldItem).length + 1 := rfl
      have grown : fieldCount (parts ++ [.field sent.name sent.received]) = fieldCount parts + 1 :=
        fieldCount_concat _ _
      have fuel : turns (.field sent :: rest) + extra = sent.lines.length + 2 + (turns rest + extra) := by
        rw [turns, Nat.add_assoc]
      rw [fuel, readParts_field, counted]
      by_cases space : fieldCount parts < postArgsSize
      swap
      · have full : ¬(parts.filter isField).length < postArgsSize := space
        rw [if_neg full]
        refine iff_of_false (by intro ends; cases ends) ?_
        intro all
        have bound := all.1
        omega
      have space' : (parts.filter isField).length < postArgsSize := space
      rw [if_pos space']
      by_cases same : expected (.field sent) = Item.part (.field sent)
      swap
      · -- what was read begins with the value as the server joins it
        refine iff_of_false ?_ fun all => same all.2.2.1
        have other
            (starts : parts ++ [Item.part (.field sent)] <+: parts ++ expected (.field sent) :: rest.map expected) :
            False :=
          same (List.cons_prefix_cons.mp ((List.prefix_append_right_inj parts).mp starts)).1.symm
        split
        · intro ends
          injection ends with ends
          exact other (ends ▸ List.prefix_refl _)
        · intro ends
          exact other (readParts_starts behind boundary.text _ _ _ _ ends)
      rw [same, and_iff_right rfl]
      by_cases last : rest = []
      · rw [if_pos last]
        subst last
        exact iff_of_true rfl ⟨space, trivial, List.forall_mem_nil _⟩
      · have later := ih (sent.lines.length + 1 + extra) last (parts ++ [.field sent.name sent.received])
          (by omega)
        have more : turns rest + (sent.lines.length + 1 + extra) =
          sent.lines.length + 1 + (turns rest + extra) := by omega
        rw [more, joined, grown] at later
        rw [if_neg last]
        refine later.trans (and_congr ?_ Iff.rfl)
        omega
    | file sent =>
      have fuel : turns (.file sent :: rest) + extra = turns rest + extra + 1 := by
        rw [turns]
        omega
      have counted : ((Item.file sent :: rest).filter isFieldItem).length = (rest.filter isFieldItem).length := rfl
      rw [fuel, counted, whole, and_iff_right rfl]
      by_cases intact : Intact boundary behind (tail boundary (ending boundary rest)) sent.contents
      · have grown : fieldCount (parts ++ [Item.part (.file sent : Item boundary)]) = fieldCount parts :=
          fieldCount_concat _ _
        rw [readParts_file, intact.read boundary behind {}]
        dsimp only
        rw [ending_line]
        dsimp only
        by_cases last : rest = []
        · rw [if_pos last, if_pos rfl]
          subst last
          exact iff_of_true rfl ⟨room, ⟨intact, trivial⟩, List.forall_mem_nil _⟩
        · have later := ih extra last (parts ++ [Item.part (.file sent : Item boundary)]) (by omega)
          rw [joined, grown] at later
          rw [if_neg last, if_neg (by decide)]
          refine later.trans (and_congr Iff.rfl (and_congr ?_ Iff.rfl))
          exact ⟨fun files => ⟨intact, files⟩, fun files => files.2⟩
      · refine iff_of_false (readParts_changed boundary behind _ sent rest parts _ intact) ?_
        intro all
        exact intact all.2.1.1

end Reading

section Ends
variable (boundary : Str) (behind : Str → Str)

theorem readUntil_length (mark : UInt8) (s : Str) : (readUntil mark s).2.length ≤ s.length - 1 := by
  have behind := List.length_dropWhile_le (· != mark) s
  rw [readUntil, List.length_drop]
  omega

theorem readLine_length (s : Str) : (readLine s).2.length ≤ s.length - 1 := by
  have first := readUntil_length 13 s
  have second := readUntil_length 10 (readUntil 13 s).2
  change (readUntil 10 (readUntil 13 s).2).2.length ≤ s.length - 1
  omega

theorem readValue_nil (fuel : Nat) (argValue : Str) : readValue boundary fuel [] argValue = none := by
  induction fuel generalizing argValue with
  | zero => rfl
  | succ fuel ih => exact ih _

theorem readParts_nil (fuel : Nat) (parts : List Part) :
    readParts boundary behind fuel [] parts = .endless parts := by
  have absent : disposition (readLine []).1 = none := by decide +kernel
  induction fuel with
  | zero => rfl
  | succ fuel ih =>
    rw [readParts]
    dsimp only
    rw [absent]
    exact ih

theorem readValue_length (fuel : Nat) (client argValue value line rest : Str)
    (ends : readValue boundary fuel client argValue = some (value, line, rest)) : rest.length ≤ client.length := by
  induction fuel generalizing client argValue with
  | zero => cases ends
  | succ fuel ih =>
    have shorter := readLine_length client
    rw [readValue] at ends
    dsimp only at ends
    split at ends
    · injection ends with ends
      injection ends with _ ends
      injection ends with _ same
      rw [← same]
      omega
    · have later := ih _ _ ends
      omega

/-- While there are data each turn takes some; without any the loop over the lines goes on for ever. -/
theorem readValue_more (fuel extra : Nat) (client argValue : Str) (enough : client.length < fuel) :
    readValue boundary (fuel + extra) client argValue = readValue boundary fuel client argValue := by
  induction fuel generalizing client argValue with
  | zero => omega
  | succ fuel ih =>
    by_cases empty : client = []
    · subst empty
      rw [readValue_nil, readValue_nil]
    have size := List.length_pos_of_ne_nil empty
    have shorter := readLine_length client
    have turn : fuel + 1 + extra = fuel + extra + 1 := by omega
    rw [turn, readValue, readValue]
    dsimp only
    split
    · rfl
    · exact ih _ _ (by omega)

theorem readFrom_length (client : Str) (upload ended : Upload) (rest : Str)
    (ends : readFrom boundary behind client upload = .complete ended rest) : rest.length ≤ client.length := by
  cases client with
  | nil => cases ends
  | cons argByte client =>
    obtain ⟨written, e, split, -, -⟩ := readFile_split boundary behind upload argByte client ended rest ends
    have lengths := congrArg List.length split
    simp only [List.length_append] at lengths
    omega

/-- So it is with the loop over the parts: a form that has not ended when it has had a turn for every byte never
ends. -/
theorem readParts_more (fuel extra : Nat) (client : Str) (parts : List Part) (enough : client.length < fuel) :
    readParts boundary behind (fuel + extra) client parts = readParts boundary behind fuel client parts := by
  induction fuel generalizing client parts with
  | zero => omega
  | succ fuel ih =>
    by_cases empty : client = []
    · subst empty
      rw [readParts_nil, readParts_nil]
    have size := List.length_pos_of_ne_nil empty
    have first := readLine_length client
    have second := readLine_length (readLine client).2
    have third := readLine_length (readLine (readLine client).2).2
    have turn : fuel + 1 + extra = fuel + extra + 1 := by omega
    rw [turn, readParts, readParts]
    dsimp only
    cases disposition (readLine client).1 with
    | none => exact ih _ _ (by omega)
    | some found =>
      dsimp only
      generalize contents : (if (text "Content-Type").isPrefixOf (readLine (readLine client).2).1 = true then
        (readLine (readLine (readLine client).2).2).2 else (readLine (readLine client).2).2) = left
      have short : left.length < fuel := by
        rw [← contents]
        split
        · omega
        · omega
      cases found.argFilename with
      | none =>
        dsimp only
        rw [readValue_more boundary fuel extra left [] short]
        rcases value : readValue boundary fuel left [] with _ | ⟨argValue, line, rest⟩
        · rfl
        have less := readValue_length boundary fuel left [] argValue line rest value
        dsimp only
        rw [ih rest _ (by omega)]
      | some filename =>
        dsimp only
        rcases file : readFrom boundary behind left {} with ⟨upload, rest⟩ | upload
        · have less := readFrom_length boundary behind left {} upload rest file
          have line := readLine_length rest
          dsimp only
          rw [ih (readLine rest).2 _ (by omega)]
        · rfl

end Ends

section Form
variable (boundary : Boundary) (behind : Str → Str)

theorem readForm_items (expected : Item boundary → Part)
    (whole : ∀ sent, expected (.file sent) = (Item.file sent : Item boundary).part) (first : Item boundary)
    (rest : List (Item boundary)) :
    readForm boundary.text behind (formBytes boundary (first :: rest)) =
        .body (.form ((first :: rest).map expected)) ↔
      ((first :: rest).filter isFieldItem).length ≤ postArgsSize ∧ FilesIntact boundary behind (first :: rest) ∧
        ∀ item ∈ first :: rest, expected item = item.part := by
  have shape : formBytes boundary (first :: rest) =
    dashes boundary.text ++ 13 :: 10 :: following boundary (first :: rest) := rfl
  have line := readUntil_found 13 (dashes boundary.text) (10 :: following boundary (first :: rest))
    (dashes_unmarked boundary)
  have feed : readUntil 10 (10 :: following boundary (first :: rest)) = ([], following boundary (first :: rest)) :=
    readUntil_found 10 [] _ List.not_mem_nil
  have some_line : ¬((dashes boundary.text).length = 0 ∧ 0 < 2) := by
    intro both
    cases both.1
  have items := readParts_items boundary behind expected whole ((following boundary (first :: rest)).length + 1)
    (first :: rest)
    (List.cons_ne_nil _ _) [] (Nat.zero_le _)
  rw [Nat.add_comm, readParts_more boundary.text behind _ _ _ _ (Nat.lt_succ_self _), List.nil_append, fieldCount,
    List.filter_nil, List.length_nil, Nat.zero_add] at items
  rw [readForm, firstLine, shape, line]
  dsimp only
  rw [if_neg some_line, feed, if_pos rfl, ← items]
  constructor
  · intro ends
    cases reads : readParts boundary.text behind ((following boundary (first :: rest)).length + 1)
        (following boundary (first :: rest)) [] with
    | parts list =>
      rw [reads] at ends
      injection ends with same
      injection same with same
      rw [same]
    | overrun list =>
      rw [reads] at ends
      cases ends
    | endless list =>
      rw [reads] at ends
      cases ends
  · intro ends
    rw [ends]
    rfl

variable {boundary}

theorem joinLine_length (argValue line : Str) :
    (joinLine argValue line).length ≤ argValue.length + 1 + line.length := by
  unfold joinLine
  rw [List.length_append]
  split
  · rw [List.length_append, List.length_singleton]
  · omega

theorem received_length (argValue : Str) (lines : List Str) :
    (lines.foldl joinLine argValue).length + lines.length ≤
      argValue.length + (lines.flatMap fun line => line ++ lineEnd).length := by
  induction lines generalizing argValue with
  | nil => exact le_rfl
  | cons line later ih =>
    have here := joinLine_length argValue line
    have rest := ih (joinLine argValue line)
    have two : lineEnd.length = 2 := rfl
    rw [List.foldl_cons, List.length_cons, List.flatMap_cons, List.length_append, List.length_append, two]
    omega

theorem FieldItem.received_iff (sent : FieldItem boundary) :
    sent.value = sent.received ↔ sent.lines.length = 1 := by
  have filled := sent.filled
  unfold value received
  generalize sent.lines = lines at filled
  rcases lines with _ | ⟨line, _ | ⟨next, later⟩⟩
  · exact absurd rfl filled
  · exact iff_of_true (by simp [joinLine]) rfl
  · refine iff_of_false ?_ (by simp)
    intro same
    have whole := congrArg List.length (value_lines (line :: next :: later) (List.cons_ne_nil _ _) [])
    have start : joinLine [] line = line := rfl
    have short := received_length line (next :: later)
    have size := congrArg List.length same
    have two : lineEnd.length = 2 := rfl
    rw [List.foldl_cons, start] at size
    simp only [List.length_append, List.flatMap_cons, List.length_cons, List.length_nil, two] at whole short size
    omega

def Item.OneLine : Item boundary → Prop
  | .field sent => sent.lines.length = 1
  | .file _ => True

theorem Item.sent_iff (item : Item boundary) : item.sent = item.part ↔ item.OneLine := by
  cases item with
  | file sent => exact iff_of_true rfl trivial
  | field sent =>
    refine Iff.trans ?_ sent.received_iff
    simp [Item.sent, Item.part]

variable (boundary)

/-- A form with at least one item is read as it was sent exactly when it has at most as many fields as there is
room for, its files are intact, and the value of each of its fields is a single line. -/
theorem form_arrives_iff (first : Item boundary) (rest : List (Item boundary)) :
    readForm boundary.text behind (formBytes boundary (first :: rest)) =
      .body (.form ((first :: rest).map Item.sent)) ↔
      ((first :: rest).filter isFieldItem).length ≤ postArgsSize ∧ FilesIntact boundary behind (first :: rest) ∧
        ∀ item ∈ first :: rest, item.OneLine := by
  rw [readForm_items boundary behind Item.sent (fun _ => rfl)]
  simp only [Item.sent_iff]

end Form

section Lines

def dashedLine : Boundary where
  text := text "----esplog"
  filled := by decide +kernel
  plain := by decide +kernel

theorem untyped : ∀ type ∈ (none : Option Str), 13 ∉ type := by
  intro type member
  cases member

/-- The value `a CR LF b`, as a text area sends it. -/
def twoLines : FieldItem dashedLine where
  name := text "text"
  type := none
  lines := [text "a", text "b"]
  named := by decide +kernel
  typed := untyped
  filled := List.cons_ne_nil _ _
  unmarked := by decide +kernel

/-- It arrives as `a LF b`. -/
theorem twoLines_joined : readForm dashedLine.text id (formBytes dashedLine [.field twoLines]) ≠
    .body (.form [(Item.field twoLines).sent]) := by
  have two : ¬twoLines.lines.length = 1 := by decide
  intro arrives
  obtain ⟨-, -, oneLine⟩ := (form_arrives_iff dashedLine id (.field twoLines) []).mp arrives
  exact two (oneLine _ List.mem_cons_self)

end Lines
end EspLog.FormBytes

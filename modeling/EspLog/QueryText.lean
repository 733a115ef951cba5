import EspLog.Parsing

/-! The arguments that the server makes of a query or of a plain body, against the text. The two loops of
`_parseArguments` amount to cutting the text at its ampersands, and undo every encoding of a form. -/

namespace EspLog.QueryText
open CText Websites Scan Parsing

section Strings
variable (s a b data : Str) (mark : UInt8) (pos : Nat)

theorem cString_ended : 0 ∉ cString s := by
  intro member
  have each := List.mem_takeWhile_imp member
  exact absurd each (by decide)

theorem cString_of_text (ended : 0 ∉ s) : cString s = s := takeWhile_unmarked 0 s ended

theorem cString_append (ended : 0 ∉ a) : cString (a ++ b) = a ++ cString b := by
  apply List.takeWhile_append_of_pos
  intro c member
  rw [bne_iff_ne]
  intro same
  exact ended (same ▸ member)

theorem cString_cons (ne : mark ≠ 0) : cString (mark :: b) = mark :: cString b := by
  have kept : (mark != 0) = true := by rwa [bne_iff_ne]
  rw [cString, List.takeWhile_cons, if_pos kept, cString]

/-- What stands behind the first NUL, with it. -/
def hidden : Str := s.dropWhile (· != 0)

theorem visible_hidden : cString s ++ hidden s = s := List.takeWhile_append_dropWhile

theorem indexOf_found (ended : 0 ∉ a) (unmarked : mark ∉ a) (ne : mark ≠ 0)
    (rest : data.drop pos = a ++ mark :: b) :
    indexOf mark pos data = some (pos + a.length) := by
  rw [indexOf, rest, cString_append _ _ ended, cString_cons _ _ ne, findIdx_found _ _ _ unmarked]
  rfl

theorem indexOf_none (unmarked : mark ∉ cString (data.drop pos)) : indexOf mark pos data = none := by
  rw [indexOf, findIdx_none _ _ unmarked]
  rfl

theorem indexOf_beyond (ended : 0 ∉ a) (unmarked : mark ∉ a) (ne : mark ≠ 38) (rest : data.drop pos = a ++ 38 :: b)
    (found : Nat) (index : indexOf mark pos data = some found) : found > pos + a.length := by
  have other : ((38 : UInt8) == mark) = false := by simpa using ne.symm
  rw [indexOf, rest, cString_append _ _ ended, cString_cons _ _ (by decide), List.findIdx?_append,
    findIdx_none _ _ unmarked, List.findIdx?_cons, other] at index
  simp only [Option.none_or, Bool.false_eq_true, if_false, Option.map_map, Option.map_eq_some_iff,
    Function.comp] at index
  obtain ⟨i, -, same⟩ := index
  omega

theorem substring_piece (rest : data.drop pos = a ++ b) : substring pos (pos + a.length) data = a := by
  rw [substring, Nat.max_eq_right (Nat.le_add_right _ _), Nat.min_eq_left (Nat.le_add_right _ _),
    List.drop_take, rest, Nat.add_sub_cancel_left, List.take_left]

theorem drop_piece (rest : data.drop pos = a ++ mark :: b) : data.drop (pos + a.length + 1) = b := by
  rw [Nat.add_assoc, ← List.drop_drop, rest, ← List.drop_drop, List.drop_left]
  rfl

end Strings

section Pieces

/-- A piece `name=value`, its value decoded; a piece without an equals sign is passed over. -/
def pieceArgument (piece : Str) : Option (Str × Str) :=
  if 61 ∈ piece then some ((readUntil 61 piece).1, urlDecode (readUntil 61 piece).2) else none

/-- The pieces between ampersands. What stands behind a NUL is seen only as the end of a last value. -/
def pieces (data : Str) : List Str :=
  ((cString data).splitOn 38).dropLast ++ [((cString data).splitOn 38).getLastD [] ++
    if 61 ∈ ((cString data).splitOn 38).getLastD [] then hidden data else []]

theorem pieces_of_text (data : Str) (ended : 0 ∉ data) : pieces data = data.splitOn 38 := by
  have none : hidden data = [] := by
    have parts := visible_hidden data
    rwa [cString_of_text data ended, List.append_right_eq_self] at parts
  rw [pieces, none, ite_self, List.append_nil, cString_of_text data ended]
  have some : data.splitOn 38 ≠ [] := List.splitOn_ne_nil 38 data
  rw [List.getLastD_eq_getLast?, List.getLast?_eq_some_getLast some, Option.getD_some,
    List.dropLast_append_getLast]

theorem hidden_append (a b : Str) (ended : 0 ∉ a) : hidden (a ++ b) = hidden b := by
  apply List.dropWhile_append_of_pos
  intro c member
  rw [bne_iff_ne]
  intro same
  exact ended (same ▸ member)

theorem pieces_cons (a b : Str) (ended : 0 ∉ a) (unmarked : 38 ∉ a) : pieces (a ++ 38 :: b) = a :: pieces b := by
  have some : (cString b).splitOn 38 ≠ [] := List.splitOn_ne_nil 38 _
  have split : (cString (a ++ 38 :: b)).splitOn 38 = a :: (cString b).splitOn 38 := by
    rw [cString_append _ _ ended, cString_cons _ _ (by decide), List.splitOn_append_cons_self_of_not_mem unmarked]
  have behind : hidden (a ++ 38 :: b) = hidden b := by
    rw [hidden_append _ _ ended]
    exact hidden_append [38] b (by decide)
  rw [pieces, split, behind, List.dropLast_cons_of_ne_nil some, List.cons_append, pieces]
  have last : (a :: (cString b).splitOn 38).getLastD [] = ((cString b).splitOn 38).getLastD [] := by
    rw [List.getLastD_eq_getLast?, List.getLastD_eq_getLast?, List.getLast?_cons,
      List.getLast?_eq_some_getLast some]
    rfl
  rw [last]

theorem pieces_last (s : Str) (unmarked : 38 ∉ cString s) :
    pieces s = [cString s ++ if 61 ∈ cString s then hidden s else []] := by
  rw [pieces, List.splitOn_eq_singleton unmarked]
  rfl

theorem pieceArgument_found (name value : Str) (unmarked : 61 ∉ name) :
    pieceArgument (name ++ 61 :: value) = some (name, urlDecode value) := by
  have member : 61 ∈ name ++ 61 :: value := List.mem_append_right _ List.mem_cons_self
  rw [pieceArgument, if_pos member, readUntil_found _ _ _ unmarked]

theorem pieceArgument_none (piece : Str) (unmarked : 61 ∉ piece) : pieceArgument piece = none := if_neg unmarked

end Pieces

section Loops
variable (data : Str)

theorem next_piece (s : Str) (marked : 38 ∈ cString s) :
    ∃ a b, s = a ++ 38 :: b ∧ 38 ∉ a ∧ 0 ∉ a ∧ cString s = a ++ 38 :: cString b := by
  obtain ⟨a, c, same, first⟩ := exists_first 38 (cString s) marked
  have ended : 0 ∉ a := by
    intro member
    exact cString_ended s (same ▸ List.mem_append_left _ member)
  have whole : s = a ++ 38 :: (c ++ hidden s) := by
    calc s = cString s ++ hidden s := (visible_hidden s).symm
      _ = (a ++ 38 :: c) ++ hidden s := by rw [same]
      _ = a ++ 38 :: (c ++ hidden s) := List.append_assoc _ _ _
  refine ⟨a, c ++ hidden s, whole, first, ended, ?_⟩
  conv =>
    lhs
    rw [whole]
  rw [cString_append _ _ ended, cString_cons _ _ (by decide)]

theorem countArguments_eq (fuel i count : Nat) (enough : data.length - i < fuel) :
    countArguments data fuel i count = count + (cString (data.drop i)).count 38 := by
  induction fuel generalizing i count with
  | zero => omega
  | succ fuel ih =>
    rw [countArguments]
    split
    · rename_i inside
      by_cases marked : 38 ∈ cString (data.drop i)
      · obtain ⟨a, b, rest, unmarked, ended, visible⟩ := next_piece _ marked
        have later := drop_piece a b data 38 i rest
        have counted : (cString (data.drop i)).count 38 = 1 + (cString b).count 38 := by
          rw [visible, List.count_append, List.count_eq_zero.mpr unmarked, List.count_cons_self]
          omega
        rw [indexOf_found a b data 38 i ended unmarked (by decide) rest]
        dsimp only
        rw [ih _ _ (by omega), later, counted]
        omega
      · rw [indexOf_none data 38 i marked, List.count_eq_zero.mpr marked]
        rfl
    · rename_i beyond
      rw [List.drop_of_length_le (by omega)]
      rfl

theorem fillArguments_eq (count fuel pos : Nat) (args : Arguments) (enough : data.length - pos < fuel)
    (room : args.length + (cString (data.drop pos)).count 38 < count) :
    fillArguments data count fuel pos args = args ++ (pieces (data.drop pos)).filterMap pieceArgument := by
  induction fuel generalizing pos args with
  | zero => omega
  | succ fuel ih =>
    rw [fillArguments, if_pos (by omega)]
    by_cases marked : 38 ∈ cString (data.drop pos)
    · obtain ⟨a, b, rest, unmarked, ended, visible⟩ := next_piece _ marked
      have later := drop_piece a b data 38 pos rest
      have shorter : data.length - (pos + a.length + 1) < fuel := by
        have inside := congrArg List.length rest
        rw [List.length_drop, List.length_append, List.length_cons] at inside
        omega
      have counted : (cString (data.drop pos)).count 38 = 1 + (cString b).count 38 := by
        rw [visible, List.count_append, List.count_eq_zero.mpr unmarked, List.count_cons_self]
        omega
      rw [indexOf_found a b data 38 pos ended unmarked (by decide) rest, rest, pieces_cons a b ended unmarked,
        List.filterMap_cons]
      by_cases named : 61 ∈ a
      · obtain ⟨name, value, rfl, first⟩ := exists_first 61 a named
        have split : data.drop pos = name ++ 61 :: (value ++ 38 :: b) := by
          rw [rest, List.append_assoc]
          rfl
        have nameEnded : 0 ∉ name := fun member => ended (List.mem_append_left _ member)
        have valuePart : data.drop (pos + name.length + 1) = value ++ 38 :: b :=
          drop_piece name _ data 61 pos split
        have index : pos + (name ++ 61 :: value).length = pos + name.length + 1 + value.length := by
          rw [List.length_append, List.length_cons]
          omega
        rw [indexOf_found name _ data 61 pos nameEnded first (by decide) split,
          pieceArgument_found name value first]
        dsimp only
        rw [if_neg (by rw [index]; omega), substring_piece name _ data pos split, index,
          substring_piece value _ data _ valuePart, ← index, ih _ _ shorter, later, List.append_assoc]
        · rfl
        · rw [later, List.length_append, List.length_singleton]
          omega
      · rw [pieceArgument_none a named]
        have skipped : fillArguments data count fuel (pos + a.length + 1) args =
            args ++ (pieces b).filterMap pieceArgument := by
          rw [ih _ _ shorter, later]
          rw [later]
          omega
        cases index : indexOf 61 pos data with
        | none => exact skipped
        | some equal =>
          have beyond := indexOf_beyond a b data 61 pos ended named (by decide) rest equal index
          dsimp only
          rw [if_pos beyond]
          exact skipped
    · rw [indexOf_none data 38 pos marked, pieces_last _ marked]
      by_cases named : 61 ∈ cString (data.drop pos)
      · obtain ⟨name, value, visible, first⟩ := exists_first 61 _ named
        have ended : 0 ∉ name := by
          intro member
          exact cString_ended (data.drop pos) (visible ▸ List.mem_append_left _ member)
        have rest : data.drop pos = name ++ 61 :: (value ++ hidden (data.drop pos)) := by
          calc data.drop pos = cString (data.drop pos) ++ hidden (data.drop pos) := (visible_hidden _).symm
            _ = (name ++ 61 :: value) ++ hidden (data.drop pos) := by rw [visible]
            _ = name ++ 61 :: (value ++ hidden (data.drop pos)) := List.append_assoc _ _ _
        rw [indexOf_found name _ data 61 pos ended first (by decide) rest, if_pos named, visible_hidden]
        dsimp only
        rw [substring_piece name _ data pos rest, drop_piece name _ data 61 pos rest]
        conv =>
          rhs
          rw [rest]
        rw [List.filterMap_cons, pieceArgument_found name _ first]
        rfl
      · rw [indexOf_none data 61 pos named, if_neg named, List.append_nil, List.filterMap_cons,
          pieceArgument_none _ named]
        exact (List.append_nil args).symm

/-- The arguments are those of the pieces, in their order, whatever the text is. -/
theorem parseArguments_eq : parseArguments data = (pieces data).filterMap pieceArgument := by
  unfold parseArguments
  split
  · rename_i empty
    rw [List.length_eq_zero_iff.mp empty]
    rfl
  · have counted := countArguments_eq data (data.length + 1) 0 1 (by omega)
    have whole : data.drop 0 = data := rfl
    rw [whole] at counted
    have filled := fillArguments_eq data (countArguments data (data.length + 1) 0 1) (data.length + 1) 0 []
      (by omega) (by rw [counted, whole, List.length_nil]; omega)
    rw [filled, whole, List.nil_append]

theorem parseArguments_append (query body : Str) (ended : 0 ∉ query) :
    parseArguments (query ++ 38 :: body) = parseArguments query ++ parseArguments body := by
  have some : (cString body).splitOn 38 ≠ [] := List.splitOn_ne_nil 38 _
  have visible : cString (query ++ 38 :: body) = query ++ 38 :: cString body := by
    rw [cString_append _ _ ended, cString_cons _ _ (by decide)]
  have behind : hidden (query ++ 38 :: body) = hidden body := by
    rw [hidden_append _ _ ended]
    exact hidden_append [38] body (by decide)
  have cut : pieces (query ++ 38 :: body) = query.splitOn 38 ++ pieces body := by
    have last : (query.splitOn 38 ++ (cString body).splitOn 38).getLastD [] =
        ((cString body).splitOn 38).getLastD [] := by
      rw [List.getLastD_eq_getLast?, List.getLastD_eq_getLast?, List.getLast?_append,
        List.getLast?_eq_some_getLast some]
      rfl
    rw [pieces, visible, List.splitOn_append_cons_self, behind, List.dropLast_append_of_ne_nil some, last, pieces,
      List.append_assoc]
  rw [parseArguments_eq, cut, List.filterMap_append, parseArguments_eq, pieces_of_text query ended,
    parseArguments_eq]

end Loops

section Encoding

/-- How a form spells a value: a character as itself, a blank as a plus, any byte by its hexadecimal digits. -/
inductive Encodes : Str → Str → Prop
  | nil : Encodes [] []
  | plain (b : UInt8) (spelled value : Str) (safe : b ∉ [0, 37, 38, 43]) (rest : Encodes spelled value) :
    Encodes (b :: spelled) (b :: value)
  | blank (spelled value : Str) (rest : Encodes spelled value) : Encodes (43 :: spelled) (32 :: value)
  | hex (a b : UInt8) (x y : Nat) (spelled value : Str) (first : digitValue a = some x)
      (second : digitValue b = some y)
    (rest : Encodes spelled value) : Encodes (37 :: a :: b :: spelled) (UInt8.ofNat (16 * x + y) :: value)

theorem urlDecode_cons (b : UInt8) (rest : Str) (other : b ≠ 37) :
    urlDecode (b :: rest) = (if b = 43 then 32 else b) :: urlDecode rest := by
  rcases rest with _ | ⟨c, _ | ⟨d, rest⟩⟩
  · rfl
  · rfl
  · rw [urlDecode, if_neg other]

theorem urlDecode_hex (a b : UInt8) (rest : Str) :
    urlDecode (37 :: a :: b :: rest) = hexByte a b :: urlDecode rest := by
  rw [urlDecode, if_pos rfl]

theorem Encodes.decoded {spelled value : Str} (encodes : Encodes spelled value) : urlDecode spelled = value := by
  induction encodes with
  | nil => rfl
  | plain b spelled value safe rest ih =>
    simp only [List.mem_cons, not_or] at safe
    rw [urlDecode_cons b spelled safe.2.1, if_neg safe.2.2.2.1, ih]
  | blank spelled value rest ih => rw [urlDecode_cons 43 spelled (by decide), if_pos rfl, ih]
  | hex a b x y spelled value first second rest ih =>
    rw [urlDecode_hex, ih, hexByte, first, second]

theorem Encodes.separate {spelled value : Str} (encodes : Encodes spelled value) (mark : UInt8)
    (separates : mark = 0 ∨ mark = 38) :
    mark ∉ spelled := by
  have noDigit : digitValue mark = none := by
    rcases separates with rfl | rfl <;>
    decide
  induction encodes with
  | nil => exact List.not_mem_nil
  | plain b spelled value safe rest ih =>
    intro member
    rcases List.mem_cons.mp member with rfl | later
    · rcases separates with rfl | rfl <;>
      exact safe (by decide)
    · exact ih later
  | blank spelled value rest ih =>
    intro member
    rcases List.mem_cons.mp member with rfl | later
    · rcases separates with same | same <;>
      exact absurd same (by decide)
    · exact ih later
  | hex a b x y spelled value first second rest ih =>
    intro member
    rcases List.mem_cons.mp member with rfl | digits
    · rcases separates with same | same <;>
      exact absurd same (by decide)
    rcases List.mem_cons.mp digits with rfl | digits
    · rw [noDigit] at first
      cases first
    rcases List.mem_cons.mp digits with rfl | later
    · rw [noDigit] at second
      cases second
    · exact ih later

def hexDigit (n : Nat) : UInt8 := UInt8.ofNat (if n < 10 then 48 + n else 87 + n)

/-- Every byte by its digits, which is a spelling of any value. -/
def percent (value : Str) : Str := value.flatMap fun b => [37, hexDigit (b.toNat / 16), hexDigit (b.toNat % 16)]

theorem encodes_percent (value : Str) : Encodes (percent value) value := by
  have digit (n : Nat) (small : n < 16) : digitValue (hexDigit n) = some n := by
    have each : ∀ n < 16, digitValue (hexDigit n) = some n := by decide
    exact each n small
  induction value with
  | nil => exact .nil
  | cons b rest ih =>
    have size := b.toNat_lt
    have spelled := Encodes.hex _ _ _ _ _ _ (digit (b.toNat / 16) (by omega)) (digit (b.toNat % 16) (by omega)) ih
    rw [Nat.div_add_mod, UInt8.ofNat_toNat] at spelled
    exact spelled

/-- One argument as a form sends it. A name is sent as it is. -/
structure Field where
  name : Str
  spelled : Str
  value : Str
  named : ∀ b ∈ name, b ∉ [0, 38, 61]
  encodes : Encodes spelled value

namespace Field

def piece (field : Field) : Str := field.name ++ 61 :: field.spelled

def argument (field : Field) : Str × Str := (field.name, field.value)

/-- Every value can be sent under such a name. -/
def ofValue (name value : Str) (named : ∀ b ∈ name, b ∉ [0, 38, 61]) : Field :=
  ⟨name, percent value, value, named, encodes_percent value⟩

theorem read (field : Field) : pieceArgument field.piece = some field.argument := by
  have unmarked : 61 ∉ field.name := fun member => field.named 61 member (by decide)
  rw [piece, pieceArgument_found _ _ unmarked, field.encodes.decoded, argument]

theorem separate (field : Field) (mark : UInt8) (separates : mark = 0 ∨ mark = 38) : mark ∉ field.piece := by
  intro member
  rcases List.mem_append.mp member with inName | behind
  · have other := field.named mark inName
    rcases separates with rfl | rfl <;>
    exact other (by decide)
  · rcases List.mem_cons.mp behind with rfl | inValue
    · rcases separates with same | same <;>
      exact absurd same (by decide)
    · exact field.encodes.separate mark separates inValue

end Field

def queryText (fields : List Field) : Str := [38].intercalate (fields.map Field.piece)

theorem queryText_ended (fields : List Field) : 0 ∉ queryText fields := by
  induction fields with
  | nil => exact List.not_mem_nil
  | cons field rest ih =>
    have own := field.separate 0 (.inl rfl)
    cases rest with
    | nil =>
      rw [queryText, List.map_singleton, List.intercalate_singleton]
      exact own
    | cons next rest =>
      have joined : queryText (field :: next :: rest) = field.piece ++ 38 :: queryText (next :: rest) := rfl
      rw [joined, List.mem_append, List.mem_cons, not_or, not_or]
      exact ⟨own, by decide, ih⟩

/-- What a form sends arrives: names and values in their order, however the values are spelled. -/
theorem query_round_trip (fields : List Field) :
    parseArguments (queryText fields) = fields.map Field.argument := by
  rw [parseArguments_eq, pieces_of_text _ (queryText_ended fields)]
  cases fields with
  | nil => rfl
  | cons field rest =>
    have unmarked : ∀ piece ∈ (field :: rest).map Field.piece, 38 ∉ piece := by
      intro piece member
      obtain ⟨field, -, rfl⟩ := List.mem_map.mp member
      exact field.separate 38 (.inr rfl)
    rw [queryText, List.splitOn_intercalate 38 unmarked (by simp), List.filterMap_map]
    have each : pieceArgument ∘ Field.piece = some ∘ Field.argument := by
      funext field
      exact field.read
    rw [each, ← List.filterMap_map, List.filterMap_some]

end Encoding
end EspLog.QueryText

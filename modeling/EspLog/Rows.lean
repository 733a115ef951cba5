import EspLog.Functions

/-! The rows of the graph, read back from its text. The label of a row is formatted in a buffer of five
characters, which its terminator does not fit. -/

namespace EspLog.Rows
open CText Sketch Functions

section Reading

/-- A row of the data table in brackets, label and number, and what follows it. -/
def readRow : Str → Option ((Str × Nat) × Str)
  | 91 :: 39 :: rest =>
    match rest.dropWhile (· != 39) with
    | 39 :: 44 :: 32 :: number =>
      match number.dropWhile isDigit with
      | 93 :: behind => some ((rest.takeWhile (· != 39), natOf 10 (number.takeWhile isDigit)), behind)
      | _ => none
    | _ => none
  | _ => none

/-- Rows with a comma between any two; a comma may also stand behind the last. -/
def readFrom : Nat → Str → Option (List (Str × Nat))
  | _, [] => some []
  | 0, _ => none
  | fuel + 1, content =>
    match readRow content with
    | some (row, []) => some [row]
    | some (row, 44 :: behind) => (readFrom fuel behind).map (row :: ·)
    | _ => none

def readRows (content : Str) : Option (List (Str × Nat)) := readFrom content.length content

/-- The slot that a label hh:mm of a day names. -/
def namedSlot : Str → Option Nat
  | [a, b, 58, c, d] =>
    if ([a, b, c, d].all isDigit && natOf 10 [a, b] < 24 && natOf 10 [c, d] < 60) = true then
      some (natOf 10 [a, b] * 12 + natOf 10 [c, d] / 5)
    else none
  | _ => none

theorem zeit_names (i : Nat) (inside : i < 288) : namedSlot (zeit i) = some i := by
  have each : ∀ i < 288, namedSlot (zeit i) = some i := by decide +kernel
  exact each i inside

theorem length_zeit (i : Nat) (inside : i < 288) : (zeit i).length = 5 := by
  have named := zeit_names i inside
  unfold namedSlot at named
  split at named
  · rename_i same
    rw [same]
    rfl
  · cases named

theorem zeit_unquoted (i : Nat) : ∀ b ∈ zeit i, (b != 39) = true := by
  have digits (n : Nat) (b : UInt8) (member : b ∈ twoDigits n) : (b != 39) = true := by
    have digit : isDigit b = true := by
      rcases List.mem_append.mp member with leading | printed
      · have zero : b ∈ text "0" := by
          split at leading
          · exact leading
          · cases leading
        rw [List.mem_singleton.mp zero]
        decide
      · exact decimal_digits n b printed
    rw [bne_iff_ne]
    intro same
    subst same
    exact absurd digit (by decide)
  intro b member
  rcases List.mem_append.mp member with front | minutes
  · rcases List.mem_append.mp front with hours | colon
    · exact digits _ b hours
    · rw [List.mem_singleton.mp colon]
      decide
  · exact digits _ b minutes

theorem readRow_printed (i n : Nat) (behind : Str) :
    readRow (text "['" ++ zeit i ++ text "', " ++ decimal n ++ text "]" ++ behind) =
      some ((zeit i, n), behind) := by
  have label (rest : Str) : (zeit i ++ 39 :: rest).takeWhile (· != 39) = zeit i ∧
      (zeit i ++ 39 :: rest).dropWhile (· != 39) = 39 :: rest := by
    rw [List.takeWhile_append_of_pos (zeit_unquoted i), List.dropWhile_append_of_pos (zeit_unquoted i)]
    exact ⟨List.append_nil _, rfl⟩
  have number : (decimal n ++ 93 :: behind).takeWhile isDigit = decimal n ∧
      (decimal n ++ 93 :: behind).dropWhile isDigit = 93 :: behind := by
    rw [List.takeWhile_append_of_pos (decimal_digits n), List.dropWhile_append_of_pos (decimal_digits n)]
    exact ⟨List.append_nil _, rfl⟩
  have parts : text "['" ++ zeit i ++ text "', " ++ decimal n ++ text "]" ++ behind =
      91 :: 39 :: (zeit i ++ 39 :: 44 :: 32 :: (decimal n ++ 93 :: behind)) := by
    simp only [List.append_assoc]
    rfl
  rw [parts]
  simp only [readRow, (label _).1, (label _).2, number.1, number.2, natOf_decimal]

theorem readFrom_comma (fuel : Nat) (content behind : Str) (row : Str × Nat)
    (read : readRow content = some (row, 44 :: behind)) :
    readFrom (fuel + 1) content = (readFrom fuel behind).map (row :: ·) := by
  cases content with
  | nil => cases read
  | cons b rest => simp only [readFrom, read]

theorem readFrom_last (fuel : Nat) (content : Str) (row : Str × Nat) (read : readRow content = some (row, [])) :
    readFrom (fuel + 1) content = some [row] := by
  cases content with
  | nil => cases read
  | cons b rest => simp only [readFrom, read]

end Reading

section Rows
variable (z : Nat → UInt32)

def lit : List Nat := (List.range 288).filter fun i => z i != 0

def printedRow (i : Nat) : Str :=
  if z i > 0 then
    text "['" ++ zeit i ++ text "', " ++ decimal (z i).toNat ++ text "]" ++ (if i < 287 then text "," else [])
  else []

/-- Each slot from `i` on that has power gives a row; the comma behind a row is read before the next. -/
theorem readFrom_rows (n i fuel : Nat) (rest : i + n = 288)
    (enough : ((List.range' i n).flatMap (printedRow z)).length ≤ fuel) :
    readFrom fuel ((List.range' i n).flatMap (printedRow z)) =
      some (((List.range' i n).filter fun i => z i != 0).map fun i => (zeit i, (z i).toNat)) := by
  induction n generalizing i fuel with
  | zero => cases fuel <;> rfl
  | succ n ih =>
    rw [List.range'_succ, List.flatMap_cons, List.filter_cons] at *
    by_cases power : z i > 0
    · have lights : (z i != 0) = true := by
        rw [bne_iff_ne]
        exact UInt32.pos_iff_ne_zero.mp power
      have row := readRow_printed i (z i).toNat
        ((if i < 287 then text "," else []) ++ (List.range' (i + 1) n).flatMap (printedRow z))
      have printed : printedRow z i = text "['" ++ zeit i ++ text "', " ++ decimal (z i).toNat ++ text "]" ++
          (if i < 287 then text "," else []) := if_pos power
      rw [← List.append_assoc, ← printed] at row
      rw [if_pos lights, List.map_cons]
      have filled : 0 < (printedRow z i).length := by
        rw [printed, List.append_assoc, List.append_assoc, List.append_assoc, List.append_assoc]
        exact Nat.zero_lt_succ _
      rw [List.length_append] at enough
      cases fuel with
      | zero => omega
      | succ fuel =>
        by_cases last : i < 287
        · rw [if_pos last] at row
          have comma : readRow (printedRow z i ++ (List.range' (i + 1) n).flatMap (printedRow z)) =
              some ((zeit i, (z i).toNat), 44 :: (List.range' (i + 1) n).flatMap (printedRow z)) := row
          rw [readFrom_comma fuel _ _ _ comma, ih (i + 1) fuel (by omega) (by omega)]
          rfl
        · have behind : n = 0 := by omega
          rw [if_neg last, behind] at row
          rw [behind]
          exact readFrom_last fuel _ _ row
    · have dark : ¬(z i != 0) = true := by
        rw [bne_iff_ne]
        exact fun lights => power (UInt32.pos_iff_ne_zero.mpr lights)
      have printed : printedRow z i = [] := if_neg power
      rw [printed] at enough ⊢
      rw [if_neg dark]
      exact ih (i + 1) fuel (by omega) enough

theorem readRows_graph : readRows (graphRows z) = some ((lit z).map fun i => (zeit i, (z i).toNat)) := by
  have read := readFrom_rows z 288 0 _ rfl le_rfl
  rwa [← List.range_eq_range'] at read

/-- One row for each slot with power, in the order of the slots, with the slot's value and a label that names the
slot. -/
structure RowsExact (rows : List (Str × Nat)) : Prop where
  read : readRows (graphRows z) = some rows
  slots : rows.map (fun row => namedSlot row.1) = (lit z).map some
  values : rows.map Prod.snd = (lit z).map fun i => (z i).toNat

theorem rowsExact : RowsExact z ((lit z).map fun i => (zeit i, (z i).toNat)) where
  read := readRows_graph z
  slots := by
    rw [List.map_map]
    apply List.map_congr_left
    intro i member
    exact zeit_names i (List.mem_range.mp (List.mem_filter.mp member).1)
  values := by
    rw [List.map_map]
    rfl

/-- `char zeit[5]`. -/
def zeitSize : Nat := 5

/-- Each label fits the buffer that it is formatted in, with its terminator. -/
def LabelsFit (rows : List (Str × Nat)) : Prop := ∀ row ∈ rows, row.1.length + 1 ≤ zeitSize

/-- The rows are right for every content of the array, but no label fits, so that all is well only without any
power. -/
theorem graph_rows_iff (s : Globals) : (∃ rows, RowsExact s.fuenfMinutenZaehler rows) ∧
    ((∃ rows, RowsExact s.fuenfMinutenZaehler rows ∧ LabelsFit rows) ↔
      ∀ i < 288, s.fuenfMinutenZaehler i = 0) := by
  generalize s.fuenfMinutenZaehler = z
  refine ⟨⟨_, rowsExact z⟩, ?_⟩
  constructor
  · intro both i inside
    obtain ⟨rows, exact, fit⟩ := both
    obtain rfl := Option.some.inj (exact.read.symm.trans (readRows_graph z))
    by_contra power
    have member : i ∈ lit z := List.mem_filter.mpr ⟨List.mem_range.mpr inside, by simpa using power⟩
    have size := fit _ (List.mem_map.mpr ⟨i, member, rfl⟩)
    rw [length_zeit i inside] at size
    exact absurd size (by decide)
  · intro dark
    refine ⟨_, rowsExact z, ?_⟩
    intro row member
    obtain ⟨i, shown, -⟩ := List.mem_map.mp member
    obtain ⟨inside, power⟩ := List.mem_filter.mp shown
    rw [dark i (List.mem_range.mp inside)] at power
    cases power

/-- With power in the first slot only, the label 00:00 and its terminator take six characters. -/
theorem midnight_label_overflows : ¬∃ rows, RowsExact (fun i => if i = 0 then 12 else 0) rows ∧
    LabelsFit rows := by
  intro both
  obtain ⟨rows, exact, fit⟩ := both
  have read : readRows (graphRows fun i => if i = 0 then 12 else 0) = some [(text "00:00", 12)] := by
    decide +kernel
  obtain rfl := Option.some.inj (exact.read.symm.trans read)
  have size := fit _ (List.mem_singleton.mpr rfl)
  revert size
  decide

end Rows
end EspLog.Rows

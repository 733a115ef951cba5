import EspLog.Support.CText
import EspLog.Support.Scan

/-! JSON objects of plain texts and natural numbers: writing them, and reading what was written. -/

namespace EspLog.Json
open CText Scan

/-- A text that stands between quotes as it is. -/
structure Plain where
  text : Str
  plain : ∀ b ∈ text, 32 ≤ b ∧ b ≠ 34 ∧ b ≠ 92

mutual

inductive Value where
  | text (s : Plain)
  | number (n : Nat)
  | object (members : Members)

/-- One member or more. -/
inductive Members where
  | last (name : Plain) (value : Value)
  | more (name : Plain) (value : Value) (rest : Members)

end

section Writing

def Plain.quoted (s : Plain) : Str := 34 :: (s.text ++ [34])

mutual

def Value.render : Value → Str
  | .text s => s.quoted
  | .number n => decimal n
  | .object members => 123 :: (members.render ++ [125])

def Members.render : Members → Str
  | .last name value => name.quoted ++ 58 :: value.render
  | .more name value rest => name.quoted ++ 58 :: (value.render ++ 44 :: rest.render)

end

mutual

/-- How deep a reader has to go. -/
def Value.depth : Value → Nat
  | .text _ => 1
  | .number _ => 1
  | .object members => members.depth + 1

def Members.depth : Members → Nat
  | .last _ value => value.depth + 1
  | .more _ value rest => max value.depth rest.depth + 1

end

end Writing

section Lookup

def Members.find (name : Str) : Members → Option Value
  | .last first value => if first.text = name then some value else none
  | .more first value rest => if first.text = name then some value else rest.find name

def Value.at : List Str → Value → Option Value
  | [], json => some json
  | name :: path, .object members => (members.find name).bind (Value.at path)
  | _ :: _, _ => none

end Lookup

section Reading

def readText (s : Str) : Option (Plain × Str) :=
  match s with
  | 34 :: rest =>
    if plain : ∀ b ∈ (readUntil 34 rest).1, 32 ≤ b ∧ b ≠ 34 ∧ b ≠ 92 then
      if 34 ∈ rest then some (⟨(readUntil 34 rest).1, plain⟩, (readUntil 34 rest).2) else none
    else none
  | _ => none

def readNumber (s : Str) : Option (Nat × Str) :=
  if s.takeWhile isDigit = [] then none else some (natOf 10 (s.takeWhile isDigit), s.dropWhile isDigit)

mutual

def readJson : Nat → Str → Option (Value × Str)
  | 0, _ => none
  | fuel + 1, s =>
    match s with
    | 123 :: rest => (readMembers fuel rest).map fun found => (.object found.1, found.2)
    | 34 :: rest => (readText (34 :: rest)).map fun found => (.text found.1, found.2)
    | _ => (readNumber s).map fun found => (.number found.1, found.2)

def readMembers : Nat → Str → Option (Members × Str)
  | 0, _ => none
  | fuel + 1, s =>
    match readText s with
    | some (name, 58 :: rest) =>
      match readJson fuel rest with
      | some (value, 125 :: rest) => some (.last name value, rest)
      | some (value, 44 :: rest) => (readMembers fuel rest).map fun found => (.more name value found.1, found.2)
      | _ => none
    | _ => none

end

end Reading

section RoundTrip

theorem readText_quoted (s : Plain) (rest : Str) : readText (s.quoted ++ rest) = some (s, rest) := by
  have unmarked : 34 ∉ s.text := fun member => (s.plain 34 member).2.1 rfl
  have found := readUntil_found 34 s.text rest unmarked
  have shape : s.quoted ++ rest = 34 :: (s.text ++ 34 :: rest) := by
    rw [Plain.quoted, List.cons_append, List.append_assoc, List.singleton_append]
  rw [shape, readText]
  simp only [found]
  rw [dif_pos s.plain, if_pos (List.mem_append_right _ List.mem_cons_self)]

/-- What follows a number does not go on with a digit. -/
def Ends (rest : Str) : Prop := ∀ b ∈ rest.head?, isDigit b = false

theorem readNumber_decimal (n : Nat) (rest : Str) (ends : Ends rest) :
    readNumber (decimal n ++ rest) = some (n, rest) := by
  have digits := decimal_digits n
  have stop : rest.takeWhile isDigit = [] ∧ rest.dropWhile isDigit = rest := by
    cases rest with
    | nil => exact ⟨rfl, rfl⟩
    | cons b rest =>
      have other := ends b rfl
      rw [List.takeWhile_cons, List.dropWhile_cons, other]
      exact ⟨rfl, rfl⟩
  rw [readNumber, List.takeWhile_append_of_pos digits, List.dropWhile_append_of_pos digits, stop.1, stop.2,
    List.append_nil, if_neg (decimal_ne_nil n), natOf_decimal]

theorem readJson_number (fuel n : Nat) (rest : Str) (ends : Ends rest) :
    readJson (fuel + 1) (decimal n ++ rest) = some (.number n, rest) := by
  obtain ⟨b, digits, shape⟩ := List.exists_cons_of_ne_nil (decimal_ne_nil n)
  have digit := decimal_digits n b (shape ▸ List.mem_cons_self)
  have other (c : UInt8) (tail : Str) (noDigit : isDigit c = false) : decimal n ++ rest ≠ c :: tail := by
    intro same
    rw [shape, List.cons_append] at same
    injection same with same
    rw [same, noDigit] at digit
    cases digit
  rw [readJson, readNumber_decimal n rest ends]
  · rfl
  · exact fun tail => other 123 tail (by decide)
  · exact fun tail => other 34 tail (by decide)

mutual

/-- Reading gives back what was written, and leaves what follows. -/
theorem readJson_render (json : Value) (fuel : Nat) (deep : json.depth ≤ fuel) (rest : Str) (ends : Ends rest) :
    readJson fuel (json.render ++ rest) = some (json, rest) := by
  cases json with
  | text s =>
    obtain ⟨fuel, rfl⟩ := Nat.exists_eq_add_of_le' deep
    have shape : (Value.text s).render ++ rest = 34 :: (s.text ++ [34] ++ rest) := rfl
    have quoted := readText_quoted s rest
    rw [Plain.quoted, List.cons_append] at quoted
    rw [shape, Value.depth, readJson, quoted]
    rfl
  | number n =>
    obtain ⟨fuel, rfl⟩ := Nat.exists_eq_add_of_le' deep
    exact readJson_number fuel n rest ends
  | object members =>
    rw [Value.depth] at deep
    obtain ⟨fuel, rfl⟩ := Nat.exists_eq_add_of_le' (Nat.le_of_add_left_le deep)
    have inner := readMembers_render members fuel (by omega) rest
    have shape : (Value.object members).render ++ rest = 123 :: (members.render ++ 125 :: rest) := by
      rw [Value.render, List.cons_append, List.append_assoc, List.singleton_append]
    rw [shape, readJson, inner]
    rfl

theorem readMembers_render (members : Members) (fuel : Nat) (deep : members.depth ≤ fuel) (rest : Str) :
    readMembers fuel (members.render ++ 125 :: rest) = some (members, rest) := by
  cases members with
  | last name value =>
    rw [Members.depth] at deep
    obtain ⟨fuel, rfl⟩ := Nat.exists_eq_add_of_le' (Nat.le_of_add_left_le deep)
    have inner := readJson_render value fuel (by omega) (125 :: rest) (by simp [Ends, isDigit])
    have shape : (Members.last name value).render ++ 125 :: rest =
        name.quoted ++ 58 :: (value.render ++ 125 :: rest) := by
      rw [Members.render, List.append_assoc, List.cons_append]
    rw [shape, readMembers, readText_quoted]
    simp only [inner]
  | more name value later =>
    rw [Members.depth] at deep
    obtain ⟨fuel, rfl⟩ := Nat.exists_eq_add_of_le' (Nat.le_of_add_left_le deep)
    have first := readJson_render value fuel (by omega) (44 :: (later.render ++ 125 :: rest))
      (by simp [Ends, isDigit])
    have second := readMembers_render later fuel (by omega) rest
    have shape : (Members.more name value later).render ++ 125 :: rest =
        name.quoted ++ 58 :: (value.render ++ 44 :: (later.render ++ 125 :: rest)) := by
      rw [Members.render, List.append_assoc, List.cons_append, List.append_assoc, List.cons_append]
    rw [shape, readMembers, readText_quoted]
    simp only [first, second]
    rfl

end

end RoundTrip
end EspLog.Json

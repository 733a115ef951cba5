import EspLog.WebServer

/-! The page for one month's yields. Its test for the argument `m` is an assignment, so that every argument
counts as the month, and the last one decides. -/

namespace EspLog.JsonPage
open CText Sketch Functions Websites WebServer

section Page

def host : Str := text "ESPLog"

def contentOutputHeader : Str :=
  text "<!DOCTYPE HTML><html>" ++ text "<head>\n" ++
    text "<meta http-equiv='content-type' content='text/html; charset=utf-8'/>\n" ++
    text "<link rel='stylesheet' href='https://www.w3schools.com/w3css/4/w3.css'/>\n" ++
    text "<link rel='stylesheet' type='text/css' media='screen' href='screen.css'/>\n" ++
    text "<link rel='stylesheet' type='text/css' media='only screen and (max-device-width: 480px)' href='mobile.css' />\n" ++
    text "<title>" ++ host ++ text "</title>\n" ++ text "</head>\n"

def monthArray (days : Nat → UInt32) : Str :=
  text "[" ++ (List.range (anzahlTage + 1)).flatMap (fun i =>
    decimal (days i).toNat ++ if i < anzahlTage then text "," else []) ++ text "]"

/-- `if(server.argName(i) = "m") angefragterMonat = server.arg(i).toInt();` the condition assigns to a temporary,
and a text is true. -/
def requestMonth (_ : UInt8) (entry : Str × Str) : UInt8 := (toInt entry.2).toUInt32.toUInt8

/-- The page's text, and the state after its line in the log; `angefragterMonat` is uninitialised. -/
def handleJsonArgs (angefragterMonat : UInt8) (args : Arguments) (s : Globals) : Globals × Str :=
  let s := write2logfile (text "Web Ausgabe JSON fuer sonnenertrag.eu") s
  let angefragterMonat := args.foldl requestMonth angefragterMonat
  (s, if angefragterMonat ≥ 1 ∧ angefragterMonat ≤ 12 then
    contentOutputHeader ++ monthArray (s.tagesCounter (angefragterMonat.toNat - 1))
  else contentOutputHeader)

theorem handlePage_jsonArgs (tmp : UInt32) (authorized : Bool) (angefragterMonat : UInt8) (args : Arguments)
    (s : Globals) :
    handlePage tmp authorized args s .jsonArgs = ⟨(handleJsonArgs angefragterMonat args s).1, false⟩ := rfl

end Page

section Months
variable (angefragterMonat : UInt8) (args : Arguments)

/-- A month that an argument of the request asks for under the name `m`. -/
def Requested (args : Arguments) (k : Nat) : Prop :=
  1 ≤ k ∧ k ≤ 12 ∧ ∃ value, (text "m", value) ∈ args ∧ (toInt value).toInt = k

/-- For every table, the page shows the month that is asked for, and no array when none is. -/
def Answers (angefragterMonat : UInt8) (args : Arguments) : Prop := ∀ s : Globals,
  (∀ k, Requested args k → (handleJsonArgs angefragterMonat args s).2 =
  contentOutputHeader ++ monthArray (s.tagesCounter (k - 1))) ∧
    ((∀ k, ¬Requested args k) → (handleJsonArgs angefragterMonat args s).2 = contentOutputHeader)

/-- The number of the last argument as a byte; with no arguments, what the variable happens to hold. -/
def lastNumber (angefragterMonat : UInt8) (args : Arguments) : UInt8 :=
  ((args.getLast?).map fun entry => (toInt entry.2).toUInt32.toUInt8).getD angefragterMonat

theorem foldl_requestMonth : args.foldl requestMonth angefragterMonat = lastNumber angefragterMonat args := by
  induction args using List.reverseRecOn with
  | nil => rfl
  | append_singleton before last _ =>
    rw [List.foldl_append, lastNumber, List.getLast?_concat]
    rfl

theorem handleJsonArgs_text (s : Globals) : (handleJsonArgs angefragterMonat args s).2 =
    if 1 ≤ (lastNumber angefragterMonat args).toNat ∧ (lastNumber angefragterMonat args).toNat ≤ 12 then
      contentOutputHeader ++ monthArray (s.tagesCounter ((lastNumber angefragterMonat args).toNat - 1))
    else contentOutputHeader := by
  rw [handleJsonArgs, foldl_requestMonth]
  rfl

theorem monthArray_ne_nil (days : Nat → UInt32) : monthArray days ≠ [] := by
  intro empty
  have lengths := congrArg List.length empty
  rw [monthArray, List.length_append, List.length_append] at lengths
  have bracket : (text "[").length = 1 := by decide
  rw [bracket, List.length_nil] at lengths
  omega

theorem month_eq_of_arrays (j k : Nat)
    (same : ∀ s : Globals, monthArray (s.tagesCounter j) = monthArray (s.tagesCounter k)) : j = k := by
  by_contra different
  have arrays := same { powerOn (fun _ => 0) true [] with tagesCounter := fun month _ => if month = j then 1 else 0 }
  simp only [if_true, if_neg (Ne.symm different)] at arrays
  have apart : monthArray (fun _ => 1) ≠ monthArray fun _ => 0 := by decide
  exact apart arrays

theorem Answers.requested (answers : Answers angefragterMonat args) (k : Nat) (least : 1 ≤ k) (most : k ≤ 12)
    (last : (lastNumber angefragterMonat args).toNat = k) : Requested args k := by
  have shown (s : Globals) : (handleJsonArgs angefragterMonat args s).2 =
      contentOutputHeader ++ monthArray (s.tagesCounter (k - 1)) := by
    rw [handleJsonArgs_text, last, if_pos ⟨least, most⟩]
  by_cases some : ∃ other, Requested args other
  · obtain ⟨other, requested⟩ := some
    have same : k - 1 = other - 1 := month_eq_of_arrays _ _ fun s =>
      List.append_cancel_left ((shown s).symm.trans ((answers s).1 other requested))
    have here : k = other := by
      have above := requested.1
      omega
    exact here ▸ requested
  · push Not at some
    have empty := (shown (powerOn (fun _ => 0) true [])).symm.trans ((answers _).2 some)
    exact absurd (List.append_right_eq_self.mp empty) (monthArray_ne_nil _)

theorem Answers.last (answers : Answers angefragterMonat args) (k : Nat) (requested : Requested args k) :
    (lastNumber angefragterMonat args).toNat = k := by
  have shown (s : Globals) := (answers s).1 k requested
  by_cases month : 1 ≤ (lastNumber angefragterMonat args).toNat ∧ (lastNumber angefragterMonat args).toNat ≤ 12
  · have same : (lastNumber angefragterMonat args).toNat - 1 = k - 1 := month_eq_of_arrays _ _ fun s => by
      have text := shown s
      rw [handleJsonArgs_text, if_pos month] at text
      exact List.append_cancel_left text
    have least := requested.1
    omega
  · have text := shown (powerOn (fun _ => 0) true [])
    rw [handleJsonArgs_text, if_neg month] at text
    exact absurd (List.append_right_eq_self.mp text.symm) (monthArray_ne_nil _)

/-- The page answers exactly when the last argument's number, whatever its name, is a month only if it is the one
that `m` asks for. -/
theorem json_answers_iff : Answers angefragterMonat args ↔
    ∀ k, 1 ≤ k → k ≤ 12 → ((lastNumber angefragterMonat args).toNat = k ↔ Requested args k) := by
  constructor
  · intro answers k least most
    exact ⟨answers.requested _ _ k least most, answers.last _ _ k⟩
  · intro last s
    rw [handleJsonArgs_text]
    constructor
    · intro k requested
      have number := (last k requested.1 requested.2.1).mpr requested
      rw [number, if_pos ⟨requested.1, requested.2.1⟩]
    · intro none
      apply if_neg
      intro both
      obtain ⟨least, most⟩ := both
      exact none _ ((last _ least most).mp rfl)

/-- Where `m` comes last, the page answers exactly when a number beyond a byte is not cut to a month. -/
theorem json_answers_last (before : Arguments) (value : Str) (only : ∀ entry ∈ before, entry.1 ≠ text "m") :
    Answers angefragterMonat (before ++ [(text "m", value)]) ↔
      ∀ k : Nat, 1 ≤ k → k ≤ 12 → (toInt value).toUInt32.toUInt8.toNat = k → (toInt value).toInt = k := by
  have number : lastNumber angefragterMonat (before ++ [(text "m", value)]) = (toInt value).toUInt32.toUInt8 := by
    rw [lastNumber, List.getLast?_concat]
    rfl
  have requested (k : Nat) (least : 1 ≤ k) (most : k ≤ 12) :
      Requested (before ++ [(text "m", value)]) k ↔ (toInt value).toInt = k := by
    constructor
    · intro found
      obtain ⟨-, -, other, member, asked⟩ := found
      rcases List.mem_append.mp member with early | last
      · exact absurd rfl (only _ early)
      · obtain ⟨-, rfl⟩ := Prod.ext_iff.mp (List.mem_singleton.mp last)
        exact asked
    · intro asked
      exact ⟨least, most, value, by simp, asked⟩
  rw [json_answers_iff, number]
  refine forall_congr' fun k => forall_congr' fun least => forall_congr' fun most => ?_
  rw [requested k least most]
  refine ⟨Iff.mp, fun cut => ⟨cut, fun asked => ?_⟩⟩
  rw [UInt32.toNat_toUInt8, natural_toUInt32 _ k asked]
  omega

/-- An argument behind `m` is taken for the month. -/
theorem later_argument_shown : ¬Answers 0 [(text "m", text "3"), (text "u", text "5")] := by
  intro answers
  have number : (lastNumber 0 [(text "m", text "3"), (text "u", text "5")]).toNat = 5 := by decide
  have march : Requested [(text "m", text "3"), (text "u", text "5")] 3 :=
    ⟨by decide, by decide, text "3", List.mem_cons_self, by decide⟩
  have same : 4 = 2 := month_eq_of_arrays 4 2 fun s => by
    have shown := (answers s).1 3 march
    rw [handleJsonArgs_text, number, if_pos (by decide)] at shown
    exact List.append_cancel_left shown
  exact absurd same (by decide)

end Months
end EspLog.JsonPage

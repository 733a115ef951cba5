import EspLog.Files

/-! The deletion on the file page. The name that arrives is compared with the encoded names of the files,
although the web server has decoded it, and the first match in directory order goes. -/

namespace EspLog.Deletion
open CText Sketch Functions Websites Spiffs Files

section Encoding

/-- A name with no character that the page encodes: space, umlaut, ß or €. -/
def Unencoded (name : Str) : Prop := ∀ pair ∈ encodedNames, ¬text pair.1 <:+: name

instance (name : Str) : Decidable (Unencoded name) := inferInstanceAs (Decidable (∀ pair ∈ encodedNames, _))

theorem encodeName_eq_self_iff (name : Str) : encodeName name = name ↔ Unencoded name := by
  have longer : ∀ pair ∈ encodedNames.map fun pair => (text pair.1, text pair.2),
      pair.1 ≠ [] ∧ pair.1.length < pair.2.length := by decide
  have fold := (foldl_replace_eq_self_iff _ longer name).2
  rw [List.foldl_map, List.forall_mem_map] at fold
  exact fold

end Encoding

section Removal

theorem content_remove_self (path : Str) (files : Spiffs.Files) : content path (remove path files) = none := by
  induction files with
  | nil => rfl
  | cons file rest ih =>
    rcases file with ⟨name, old⟩
    by_cases found : name = path
    · have same : remove path ((name, old) :: rest) = remove path rest := List.filter_cons_of_neg (by simp [found])
      rw [same, ih]
    · have missed : (path == name) = false := by simpa using fun same => found same.symm
      have kept : (name != path) = true := by simpa using found
      simpa [remove, content, kept, missed, List.lookup_cons] using ih

theorem content_isSome (path : Str) (files : Spiffs.Files) :
    (content path files).isSome = true ↔ path ∈ files.map Prod.fst := by
  induction files with
  | nil => simp [content]
  | cons file rest ih =>
    rcases file with ⟨name, old⟩
    by_cases found : path = name
    · simp [content, found]
    · have missed : (path == name) = false := by simpa using found
      have same : content path ((name, old) :: rest) = content path rest := by
        simp [content, List.lookup_cons, missed]
      rw [same, ih, List.map_cons, List.mem_cons, or_iff_right found]

/-- The file of that name is gone, if there was one, and every other file is as it was; the log may have grown. -/
def DeletesOnly (n : Str) (before after : Spiffs.Files) : Prop :=
  (∀ path, path ≠ logPath → content path after = if path = n then none else content path before) ∧
    ((content logPath before).isSome = true → (content logPath after).isSome = true)

theorem deletesOnly_self (n : Str) (files : Spiffs.Files) (ne : n ≠ logPath) :
    DeletesOnly n files files ↔ n ∉ files.map Prod.fst := by
  constructor
  · intro only there
    have gone := only.1 n ne
    have kept := (content_isSome n files).mpr there
    rw [gone, if_pos rfl] at kept
    exact absurd kept (by decide)
  · intro absent
    refine ⟨fun path _ => ?_, id⟩
    split
    · rename_i same
      rw [same]
      exact Option.not_isSome_iff_eq_none.mp (mt (content_isSome n files).mp absent)
    · rfl

/-- A file is removed, and the log written. -/
structure Removed (name : Str) (before after : Spiffs.Files) : Prop where
  content : ∀ path, path ≠ logPath → content path after = content path (remove name before)
  log : (Spiffs.content logPath after).isSome = true

theorem Removed.deletesOnly_iff {name : Str} {before after : Spiffs.Files} (removed : Removed name before after)
    (n : Str) (ne : name ≠ logPath) (member : name ∈ before.map Prod.fst) :
    DeletesOnly n before after ↔ name = n := by
  constructor
  · intro only
    by_contra other
    have kept := only.1 name ne
    rw [if_neg other, removed.content name ne, content_remove_self] at kept
    have there := (content_isSome name before).mpr member
    rw [← kept] at there
    exact absurd there (by decide)
  · intro same
    subst same
    refine ⟨fun path ne => ?_, fun _ => removed.log⟩
    rw [removed.content path ne]
    split
    · rename_i here
      rw [here, content_remove_self]
    · rename_i elsewhere
      exact content_remove_of_ne _ _ _ elsewhere

def firstMatch (n : Str) (files : Spiffs.Files) : Option (Str × Str) :=
  files.find? fun file => n == encodeName file.1

/-- What comes before a name in directory order: all files, where the name is not there. -/
def filesBefore (n : Str) (files : Spiffs.Files) : Spiffs.Files := files.takeWhile fun file => file.1 != n

/-- No file before the name is encoded to it, and the name itself, if it is there, needs no encoding. -/
def Matched (n : Str) (files : Spiffs.Files) : Prop :=
  (∀ file ∈ filesBefore n files, encodeName file.1 ≠ n) ∧ (n ∈ files.map Prod.fst → Unencoded n)

/-- The first match is the file that is meant exactly when its name needs no encoding and no file before it is
encoded to the same name. -/
theorem firstMatch_iff (n : Str) (files : Spiffs.Files) (distinct : (files.map Prod.fst).Nodup) :
    (firstMatch n files).map Prod.fst = (if n ∈ files.map Prod.fst then some n else none) ↔ Matched n files := by
  induction files with
  | nil => simp [firstMatch, Matched, filesBefore]
  | cons file rest ih =>
    rw [List.map_cons, List.nodup_cons] at distinct
    have later := ih distinct.2
    unfold firstMatch Matched filesBefore at later ⊢
    by_cases here : file.1 = n
    · -- the file itself is next: it matches, or nothing that is left can be it
      have reached : (file.1 != n) = false := by simpa using here
      have present : n ∈ (file :: rest).map Prod.fst := List.mem_cons.mpr (.inl here.symm)
      rw [if_pos present, List.takeWhile_cons_of_neg (by rw [reached]; decide), List.find?_cons]
      by_cases own : encodeName n = n
      · have matched : (n == encodeName file.1) = true := by rw [here, own, beq_self_eq_true]
        rw [matched]
        exact iff_of_true (congrArg some here) ⟨by simp, fun _ => (encodeName_eq_self_iff n).mp own⟩
      · have missed : (n == encodeName file.1) = false := by
          rw [here]
          simpa using fun same => own same.symm
        rw [missed]
        refine iff_of_false (fun found => ?_) (fun both => own ((encodeName_eq_self_iff n).mpr (both.2 present)))
        obtain ⟨other, first, same⟩ := Option.map_eq_some_iff.mp found
        exact distinct.1 (here ▸ List.mem_map.mpr ⟨other, List.mem_of_find?_eq_some first, same⟩)
    · have before : (file.1 != n) = true := by simpa using here
      have member : n ∈ (file :: rest).map Prod.fst ↔ n ∈ rest.map Prod.fst := by
        rw [List.map_cons, List.mem_cons, or_iff_right (fun same => here same.symm)]
      have passed : (file :: rest).takeWhile (fun file => file.1 != n) =
          file :: rest.takeWhile fun file => file.1 != n :=
        List.takeWhile_cons_of_pos before
      rw [passed, List.find?_cons, List.forall_mem_cons]
      simp only [member]
      by_cases taken : encodeName file.1 = n
      · have matched : (n == encodeName file.1) = true := by rw [taken, beq_self_eq_true]
        rw [matched]
        refine iff_of_false (fun found => ?_) (fun both => both.1.1 taken)
        by_cases there : n ∈ rest.map Prod.fst
        · rw [if_pos there] at found
          exact here (Option.some.inj found)
        · rw [if_neg there] at found
          cases found
      · have missed : (n == encodeName file.1) = false := by simpa using fun same => taken same.symm
        simp only [missed, ne_eq, taken, not_false_eq_true, true_and]
        exact later

variable (args : Arguments) (s : Globals) (asked : hasArg (text "Delete") args = true)
include asked

theorem handleSpiffs_none (none : firstMatch (arg (text "file") args) s.spiffs = none) :
    handleSpiffs args s = s := by
  unfold handleSpiffs
  rw [if_pos asked]
  unfold firstMatch at none
  rw [none]

theorem handleSpiffs_some (file : Str × Str) (found : firstMatch (arg (text "file") args) s.spiffs = some file) :
    handleSpiffs args s = write2logfile (text "Datei " ++ file.1 ++ text " geloescht")
      { s with spiffs := remove file.1 s.spiffs } := by
  unfold handleSpiffs
  rw [if_pos asked]
  unfold firstMatch at found
  rw [found]

/-- A request for a file deletes this file and no other exactly when it matches it and no file before it. -/
theorem deletes_only_iff (distinct : (s.spiffs.map Prod.fst).Nodup) (ne : arg (text "file") args ≠ logPath) :
    DeletesOnly (arg (text "file") args) s.spiffs (handleSpiffs args s).spiffs ↔
      Matched (arg (text "file") args) s.spiffs := by
  generalize wanted : arg (text "file") args = n at ne ⊢
  rw [← firstMatch_iff n s.spiffs distinct]
  rcases found : firstMatch n s.spiffs with _ | ⟨name, old⟩
  · rw [handleSpiffs_none args s asked (by rw [wanted]; exact found), deletesOnly_self n s.spiffs ne,
      Option.map_none]
    by_cases there : n ∈ s.spiffs.map Prod.fst
    · rw [if_pos there]
      exact iff_of_false (fun absent => absent there) (fun none => by cases none)
    · rw [if_neg there]
      exact iff_of_true there rfl
  · have matched : n = encodeName name := by simpa using List.find?_some found
    have member : name ∈ s.spiffs.map Prod.fst := List.mem_map.mpr ⟨_, List.mem_of_find?_eq_some found, rfl⟩
    have other : name ≠ logPath := by
      intro equal
      subst equal
      exact ne (matched.trans (by decide))
    have after := handleSpiffs_some args s asked (name, old) (by rw [wanted]; exact found)
    have removed : Removed name s.spiffs (handleSpiffs args s).spiffs := by
      rw [after]
      exact ⟨fun path ne => content_append_of_ne _ _ _ _ ne,
        by simp only [write2logfile, content_append, Option.isSome_some]⟩
    rw [removed.deletesOnly_iff n other member, Option.map_some]
    constructor
    · intro same
      rw [same] at member ⊢
      rw [if_pos member]
    · intro first
      split at first
      · exact Option.some.inj first
      · cases first

end Removal

section Requests

def form (name : String) : Arguments := [(text "Delete", text "X"), (text "file", text name)]

def holding (names : List String) : Globals := powerOn (fun _ => 0) true (names.map fun name => (text name, []))

theorem plain_name_deleted :
    DeletesOnly (arg (text "file") (form "/a.txt")) (holding ["/b c.txt", "/a.txt"]).spiffs
    (handleSpiffs (form "/a.txt") (holding ["/b c.txt", "/a.txt"])).spiffs := by
  apply (deletes_only_iff (form "/a.txt") (holding ["/b c.txt", "/a.txt"]) ?_ ?_ ?_).mpr
  · exact ⟨by decide, fun _ => by decide⟩
  · decide
  · decide
  · decide

/-- A file with a space in its name stays. -/
theorem name_with_space_kept :
    ¬DeletesOnly (arg (text "file") (form "/b c.txt")) (holding ["/b c.txt", "/a.txt"]).spiffs
    (handleSpiffs (form "/b c.txt") (holding ["/b c.txt", "/a.txt"])).spiffs := by
  intro only
  have gone := only.1 (text "/b c.txt") (by decide)
  revert gone
  decide

/-- And it goes in place of a file whose name is its encoding. -/
example : (handleSpiffs (form "/b%20c.txt") (holding ["/b c.txt", "/b%20c.txt", "/log.txt"])).spiffs.map Prod.fst =
    [text "/b%20c.txt", text "/log.txt"] := by decide

end Requests
end EspLog.Deletion

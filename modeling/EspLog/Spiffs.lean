import EspLog.Support.CText

/-! The flash file system: files in directory order, each with its path and content. -/

namespace EspLog.Spiffs
open CText

abbrev Files := List (Str × Str)

def content (path : Str) (files : Files) : Option Str := files.lookup path

/-- Opening with `w` or `w+`, then writing `new`: the file is created or truncated first. -/
def rewrite (path new : Str) : Files → Files
  | [] => [(path, new)]
  | (name, old) :: rest => if name == path then (name, new) :: rest else (name, old) :: rewrite path new rest

/-- Opening with `a+`, then writing `more` behind what is there. -/
def append (path more : Str) (files : Files) : Files :=
  rewrite path ((content path files).getD [] ++ more) files

def remove (path : Str) (files : Files) : Files := files.filter fun file => file.1 != path

section Contents
variable (path other new more : Str) (files : Files)

@[simp] theorem content_rewrite : content path (rewrite path new files) = some new := by
  induction files with
  | nil => simp [rewrite, content]
  | cons file rest ih =>
    rcases file with ⟨name, old⟩
    by_cases found : name = path
    · simp [rewrite, content, found]
    · have missed : (path == name) = false := by simpa using fun same => found same.symm
      simpa [rewrite, content, found, missed, List.lookup_cons] using ih

theorem content_rewrite_of_ne (ne : other ≠ path) :
    content other (rewrite path new files) = content other files := by
  induction files with
  | nil => simp [rewrite, content, ne]
  | cons file rest ih =>
    rcases file with ⟨name, old⟩
    by_cases found : name = path
    · have missed : (other == path) = false := by simpa using ne
      simp [rewrite, content, found, missed, List.lookup_cons]
    · by_cases wanted : other = name
      · simp [rewrite, content, found, wanted]
      · have missed : (other == name) = false := by simpa using wanted
        simpa [rewrite, content, found, missed, List.lookup_cons] using ih

@[simp] theorem content_append :
    content path (append path more files) = some ((content path files).getD [] ++ more) :=
  content_rewrite _ _ _

theorem content_append_of_ne (ne : other ≠ path) : content other (append path more files) = content other files :=
  content_rewrite_of_ne _ _ _ _ ne

theorem content_remove_of_ne (ne : other ≠ path) : content other (remove path files) = content other files := by
  induction files with
  | nil => rfl
  | cons file rest ih =>
    rcases file with ⟨name, old⟩
    by_cases found : name = path
    · have missed : (other == path) = false := by simpa using ne
      simpa [remove, content, found, missed, List.lookup_cons] using ih
    · by_cases wanted : other = name
      · have kept : (name != path) = true := by simpa using found
        simp [remove, content, kept, wanted]
      · have kept : (name != path) = true := by simpa using found
        have missed : (other == name) = false := by simpa using wanted
        simpa [remove, content, kept, missed, List.lookup_cons] using ih

end Contents
end EspLog.Spiffs

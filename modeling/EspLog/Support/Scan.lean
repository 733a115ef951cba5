import Mathlib.Data.List.Basic
import Mathlib.Data.List.Infix
import Mathlib.Data.List.TakeWhile

/-! Reading a sequence up to a mark: what stands before the first mark, and what follows it. -/

namespace EspLog.Scan

variable {α : Type*} [DecidableEq α]

/-- The part before the first mark and the part behind it; all and nothing without a mark. -/
def readUntil (mark : α) (s : List α) : List α × List α :=
  (s.takeWhile (· != mark), (s.dropWhile (· != mark)).drop 1)

section Reading
variable (mark : α) (before after s : List α)

theorem takeWhile_unmarked (unmarked : mark ∉ before) : before.takeWhile (· != mark) = before := by
  apply List.takeWhile_eq_self_iff.mpr
  intro a member
  rw [bne_iff_ne]
  intro same
  exact unmarked (same ▸ member)

theorem readUntil_found (unmarked : mark ∉ before) :
    readUntil mark (before ++ mark :: after) = (before, after) := by
  have each : ∀ a ∈ before, (a != mark) = true := by
    intro a member
    rw [bne_iff_ne]
    intro same
    exact unmarked (same ▸ member)
  rw [readUntil, List.takeWhile_append_of_pos each, List.dropWhile_append_of_pos each]
  simp

theorem exists_first (member : mark ∈ s) : ∃ before after, s = before ++ mark :: after ∧ mark ∉ before := by
  induction s with
  | nil => exact absurd member List.not_mem_nil
  | cons a rest ih =>
    by_cases here : a = mark
    · subst here
      exact ⟨[], rest, rfl, List.not_mem_nil⟩
    · obtain ⟨before, after, same, first⟩ := ih ((List.mem_cons.mp member).resolve_left fun same => here same.symm)
      refine ⟨a :: before, after, by rw [same]; rfl, ?_⟩
      intro inside
      exact (List.mem_cons.mp inside).elim (fun same => here same.symm) first

end Reading

section Position
variable (mark : α) (before after s : List α)

theorem findIdx_found (unmarked : mark ∉ before) :
    (before ++ mark :: after).findIdx? (· == mark) = some before.length := by
  induction before with
  | nil => simp [List.findIdx?_cons]
  | cons a rest ih =>
    rw [List.mem_cons, not_or] at unmarked
    have other : (a == mark) = false := by simpa using fun same => unmarked.1 same.symm
    rw [List.cons_append, List.findIdx?_cons, other, ih unmarked.2]
    rfl

theorem findIdx_none (unmarked : mark ∉ s) : s.findIdx? (· == mark) = none := by
  rw [List.findIdx?_eq_none_iff]
  intro a member
  have other : a ≠ mark := fun same => unmarked (same ▸ member)
  simpa using other

end Position
end EspLog.Scan

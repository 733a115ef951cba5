import EspLog.HostAddress

/-! Empty fields of a form. The loop of the setup page passes over an empty argument, but then looks the text of
each other one up by its name, which finds the first argument of that name, empty or not. -/

namespace EspLog.EmptyFields
open CText Sketch Functions Websites Settings Forms HostAddress
open Storage (blank)
open Buffer (served)

section Lookups
variable (args : Arguments) (setting : Setting)

/-- The request without its empty arguments. -/
def filled : Arguments := args.filter fun entry => entry.2 ≠ []

/-- The first argument of the setting's name that is not empty. -/
def firstFilled : Str := arg (text setting.name) (filled args)

theorem served_filled : served (filled args) = served args := by
  unfold served filled
  rw [List.filter_filter]
  simp only [Bool.and_self]

theorem taken_filled : Taken (filled args) setting ↔ Taken args setting := by
  unfold Taken
  rw [served_filled]

theorem arg_cons (name : Str) (entry : Str × Str) (rest : Arguments) :
    arg name (entry :: rest) = if entry.1 = name then entry.2 else arg name rest := by
  unfold arg
  rw [List.lookup_cons]
  by_cases here : entry.1 = name
  · simp [here]
  · have missed : (name == entry.1) = false := by simpa using fun same => here same.symm
    simp [here, missed]

theorem firstFilled_of_found (found : arg (text setting.name) args ≠ []) :
    firstFilled args setting = arg (text setting.name) args := by
  unfold firstFilled
  induction args with
  | nil => rfl
  | cons entry rest ih =>
    rw [arg_cons] at found ⊢
    by_cases some : entry.2 ≠ []
    · have kept : filled (entry :: rest) = entry :: filled rest := List.filter_cons_of_pos (by simpa using some)
      rw [kept, arg_cons]
      split
      · rfl
      · rename_i other
        rw [if_neg other] at found
        exact ih found
    · have skipped : filled (entry :: rest) = filled rest := List.filter_cons_of_neg (by simpa using some)
      have other : ¬entry.1 = text setting.name := by
        intro named
        rw [if_pos named] at found
        exact some found
      rw [if_neg other] at found ⊢
      rw [skipped]
      exact ih found

theorem arg_mem (name : Str) (list : Arguments) (there : ∃ entry ∈ list, entry.1 = name) :
    (name, arg name list) ∈ list := by
  induction list with
  | nil =>
    obtain ⟨entry, member, -⟩ := there
    exact absurd member List.not_mem_nil
  | cons entry rest ih =>
    rw [arg_cons]
    by_cases here : entry.1 = name
    · rw [if_pos here, ← here]
      exact List.mem_cons_self
    · rw [if_neg here]
      rw [List.exists_mem_cons_iff, or_iff_right here] at there
      exact List.mem_cons_of_mem _ (ih there)

theorem firstFilled_mem (taken : Taken args setting) :
    (text setting.name, firstFilled args setting) ∈ args ∧ firstFilled args setting ≠ [] := by
  obtain ⟨entry, member, named⟩ := taken
  have listed : entry ∈ filled args := List.takeWhile_prefix _ |>.subset member
  have found := arg_mem (text setting.name) (filled args) ⟨entry, listed, named⟩
  obtain ⟨member, some⟩ := List.mem_filter.mp found
  exact ⟨member, of_decide_eq_true some⟩

end Lookups

section Fields
variable (tmp : UInt32) (args : Arguments) (s : Globals) (setting : Setting)

/-- What the page makes of a setting for a text in the first place of the request. -/
def reads (value : Str) : Value setting → Value setting := assigned value value setting

/-- A setting changes only to what a non-empty argument of its name says, and as it would without the empty
arguments. -/
structure Ignored : Prop where
  sourced : valueOf (handleSetup tmp args s).sketch setting = valueOf s setting ∨
    ∃ value, (text setting.name, value) ∈ args ∧ value ≠ [] ∧
      valueOf (handleSetup tmp args s).sketch setting = reads setting value (valueOf s setting)
  unaffected : valueOf (handleSetup tmp args s).sketch setting =
    valueOf (handleSetup tmp (filled args) s).sketch setting

theorem assigned_word (isWord : setting ≠ .ip) (leading value : Str) :
    assigned leading value setting = reads setting value := by
  cases setting with
  | ip => exact absurd rfl isWord
  | _ => rfl

/-- The text of the first argument gives the address of this text. -/
def SameAddress (value : Str) : Prop := octets (firstValue args) (valueOf s .ip) = octets value (valueOf s .ip)

/-- Of the arguments that take effect, each number has a non-empty one first or an empty text with the same
meaning. The address is the present one; or the first argument of the request gives the present one or the one of
some `ip` argument, and gives what is read without the empty arguments. -/
def Harmless : Setting → Prop
  | .ip => Taken args .ip → arg (text "ip") args = fhemIp s ∨
      (octets (firstValue args) (valueOf s .ip) = valueOf s .ip ∨
        ∃ value, (text "ip", value) ∈ args ∧ value ≠ [] ∧ SameAddress args s value) ∧
      octets (firstValue args) (valueOf s .ip) =
        address (firstValue (filled args)) (firstFilled args .ip) (valueOf s .ip)
  | word => Taken args word → arg (text word.name) args ≠ [] ∨
      reads word [] (valueOf s word) = reads word (firstFilled args word) (valueOf s word)

theorem ignored_of_untaken (untaken : ¬Taken args setting) : Ignored tmp args s setting where
  sourced := .inl ((handleSetup_value tmp args s setting).trans (if_neg untaken))
  unaffected := by
    have without : ¬Taken (filled args) setting := fun taken => untaken ((taken_filled args setting).mp taken)
    rw [handleSetup_value, handleSetup_value, if_neg untaken, if_neg without]

/-- Where an argument takes effect, the setting is set once with and once without the empty arguments. -/
theorem ignored_iff_of_taken (taken : Taken args setting) : Ignored tmp args s setting ↔
    (assigned (firstValue args) (arg (text setting.name) args) setting (valueOf s setting) = valueOf s setting ∨
      ∃ value, (text setting.name, value) ∈ args ∧ value ≠ [] ∧
        assigned (firstValue args) (arg (text setting.name) args) setting (valueOf s setting) =
          reads setting value (valueOf s setting)) ∧
    assigned (firstValue args) (arg (text setting.name) args) setting (valueOf s setting) =
      assigned (firstValue (filled args)) (firstFilled args setting) setting (valueOf s setting) := by
  have whole := (handleSetup_value tmp args s setting).trans (if_pos taken)
  have without := (handleSetup_value tmp (filled args) s setting).trans
    (if_pos ((taken_filled args setting).mpr taken))
  constructor
  · intro both
    obtain ⟨sourced, unaffected⟩ := both
    rw [whole] at sourced unaffected
    exact ⟨sourced, unaffected.trans without⟩
  · intro both
    obtain ⟨sourced, unaffected⟩ := both
    refine ⟨?_, ?_⟩
    · rw [whole]
      exact sourced
    · rw [whole, without]
      exact unaffected

theorem word_ignored_iff (isWord : setting ≠ .ip) : Ignored tmp args s setting ↔ (Taken args setting →
    arg (text setting.name) args ≠ [] ∨
      reads setting [] (valueOf s setting) = reads setting (firstFilled args setting) (valueOf s setting)) := by
  by_cases taken : Taken args setting
  · rw [ignored_iff_of_taken tmp args s setting taken, assigned_word setting isWord, assigned_word setting isWord,
      imp_iff_right taken]
    obtain ⟨member, some⟩ := firstFilled_mem args setting taken
    have whole : (reads setting (arg (text setting.name) args) (valueOf s setting) =
        reads setting (firstFilled args setting) (valueOf s setting)) ↔ arg (text setting.name) args ≠ [] ∨
          reads setting [] (valueOf s setting) = reads setting (firstFilled args setting) (valueOf s setting) := by
      by_cases found : arg (text setting.name) args = []
      · rw [found]
        simp only [ne_eq, not_true_eq_false, false_or]
      · rw [firstFilled_of_found args setting found]
        exact iff_of_true rfl (.inl found)
    rw [← whole]
    exact ⟨And.right, fun same => ⟨.inr ⟨_, member, some, same⟩, same⟩⟩
  · exact iff_of_true (ignored_of_untaken tmp args s setting taken) fun now => absurd now taken

theorem reads_ip (value : Str) (old : Fin 4 → UInt8) : reads .ip value old = octets value old := by
  change address value value old = octets value old
  unfold address
  split
  · rename_i same
    rw [same, octets_dotted]
  · rfl

theorem ip_ignored_iff : Ignored tmp args s .ip ↔ Harmless args s .ip := by
  by_cases taken : Taken args .ip
  · rw [ignored_iff_of_taken tmp args s .ip taken, Harmless, imp_iff_right taken, fhemIp_eq]
    by_cases same : arg (text "ip") args = dotted (valueOf s .ip)
    · have found : arg (text "ip") args ≠ [] := same ▸ dotted_filled _
      have first : firstFilled args .ip = arg (text "ip") args := firstFilled_of_found args .ip found
      have kept (leading : Str) : assigned leading (arg (text "ip") args) .ip (valueOf s .ip) = valueOf s .ip :=
        if_pos same
      have named : arg (text Setting.ip.name) args = arg (text "ip") args := rfl
      rw [first, named, kept, kept]
      exact iff_of_true ⟨.inl rfl, rfl⟩ (.inl same)
    · have changed : assigned (firstValue args) (arg (text Setting.ip.name) args) .ip (valueOf s .ip) =
          octets (firstValue args) (valueOf s .ip) := if_neg same
      rw [changed, or_iff_right same]
      simp only [reads_ip]
      rfl
  · exact iff_of_true (ignored_of_untaken tmp args s .ip taken) fun now => absurd now taken

/-- Empty arguments leave a setting alone exactly when the lookup by name does no harm to it. -/
theorem empty_fields_ignored_iff : Ignored tmp args s setting ↔ Harmless args s setting := by
  cases setting with
  | ip => exact ip_ignored_iff tmp args s
  | generator => exact word_ignored_iff tmp args s .generator (by decide)
  | couterconst => exact word_ignored_iff tmp args s .couterconst (by decide)
  | compensation => exact word_ignored_iff tmp args s .compensation (by decide)
  | offset => exact word_ignored_iff tmp args s .offset (by decide)
  | port => exact word_ignored_iff tmp args s .port (by decide)

/-- An empty port before another sets the port to zero. -/
theorem empty_port_taken : ¬Ignored 0 [(text "port", []), (text "port", text "80")] (blank 0) .port := by
  intro ignored
  have taken : Taken [(text "port", []), (text "port", text "80")] .port := by decide
  have unaffected := ((ignored_iff_of_taken _ _ _ _ taken).mp ignored).2
  revert unaffected
  decide

end Fields
end EspLog.EmptyFields

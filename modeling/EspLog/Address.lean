import EspLog.Settings

/-! The controller address of the setup page. Each token is stored as soon as it is cut off, without a look
at the other tokens or at the end of the array. -/

namespace EspLog.Address
open CText Eeprom Sketch Functions Websites WebServer Settings Storage

section Handling

/-- The tokens of an address: the request's first argument, cut to the buffer. -/
def tokens (args : Arguments) : List Str := strtok 46 (toCharArray (firstValue args) 20)

/-- What the loop of the setup page does for an argument that is called `ip`. -/
def handleIp (tmp : UInt32) (args : Arguments) (s : Globals) : Globals := setupArgument tmp args (text "ip") s

/-- Whether a write to the stored octet `i` reaches the buffer. -/
def Reached (s : Globals) (i : Nat) : Prop := adresseEepromFhemHost + i * 2 < s.eeprom.size

instance (s : Globals) (i : Nat) : Decidable (Reached s i) := inferInstanceAs (Decidable (_ < _))

/-- The stored octet `i`. -/
def storedOctet (s : Globals) (i : Nat) : UInt8 := s.eeprom.data (adresseEepromFhemHost + i * 2)

variable (tmp : UInt32) (args : Arguments) (s : Globals)

theorem handleIp_eq : handleIp tmp args s = setIp (firstValue args) (arg (text "ip") args) s :=
  setupArgument_set tmp args .ip s

theorem handleIp_same (same : arg (text "ip") args = fhemIp s) : handleIp tmp args s = s := by
  rw [handleIp_eq, setIp, if_neg (not_not.mpr same)]

theorem setHostBytes_ram (list : List Str) (state : Globals × Nat) (i : Nat) :
    (list.foldl setHostByte state).1.fhemHost i =
      if state.2 ≤ i then next list (i - state.2) (state.1.fhemHost i) else state.1.fhemHost i := by
  induction list generalizing state with
  | nil => exact (ite_self _).symm
  | cons first rest ih =>
    have index : (setHostByte state first).2 = state.2 + 1 := rfl
    have host : (setHostByte state first).1.fhemHost =
      Function.update state.1.fhemHost state.2 (octet first) := rfl
    rw [List.foldl_cons, ih, index, host]
    by_cases before : i < state.2
    · rw [if_neg (by omega), if_neg (by omega), Function.update_of_ne (by omega)]
    · by_cases here : i = state.2
      · rw [if_neg (by omega), if_pos (by omega), here, Function.update_self, Nat.sub_self]
        rfl
      · have position : i - state.2 = (i - (state.2 + 1)) + 1 := by omega
        rw [if_pos (by omega), if_pos (by omega), Function.update_of_ne here, position]
        rfl

theorem next_beyond (list : List Str) (i : Nat) (old : UInt8) (beyond : list.length ≤ i) :
    next list i old = old := by
  rw [next, List.getElem?_eq_none beyond]
  rfl

variable (differs : arg (text "ip") args ≠ fhemIp s)
include differs

theorem handleIp_host (i : Nat) : (handleIp tmp args s).fhemHost i = next (tokens args) i (s.fhemHost i) := by
  rw [handleIp_eq, setIp, if_pos differs]
  exact (setHostBytes_ram (tokens args) (s, 0) i).trans (if_pos (Nat.zero_le i))

theorem handleIp_stored (i : Nat) : storedOctet (handleIp tmp args s) i =
    if Reached s i then next (tokens args) i (storedOctet s i) else storedOctet s i := by
  have data := setHostBytes_data (tokens args) (s, 0) i
  rw [Nat.zero_add] at data
  rw [storedOctet, handleIp_eq, setIp_eeprom _ s _ differs, commit_data]
  exact data

end Handling

section Bounds

/-- Every index that the loop over the tokens uses lies in `fhemHost[4]`. -/
def IndicesInside (args : Arguments) (s : Globals) : Prop :=
  arg (text "ip") args ≠ fhemIp s → Runs.Along setHostByte (fun state _ => state.2 < 4) (s, 0) (tokens args)

/-- Besides a line in the log, nothing but the four octets and their bytes has changed. -/
structure HostOnly (before after : Globals) : Prop where
  ram : { after with fhemHost := before.fhemHost, eeprom := before.eeprom, spiffs := before.spiffs } = before
  host : ∀ i, 4 ≤ i → after.fhemHost i = before.fhemHost i
  buffer : ∀ a, ¬Setting.ip.occupies a → after.eeprom.data a = before.eeprom.data a
  flash : Sound before.eeprom → ∀ a, a < opened → ¬Setting.ip.occupies a → after.eeprom.flash a =
    before.eeprom.flash a

theorem HostOnly.refl (s : Globals) : HostOnly s s := ⟨rfl, fun _ _ => rfl, fun _ _ => rfl, fun _ _ _ _ => rfl⟩

theorem indices_iff (list : List Str) (state : Globals × Nat) (some : list ≠ []) :
    Runs.Along setHostByte (fun state _ => state.2 < 4) state list ↔ state.2 + list.length ≤ 4 := by
  induction list generalizing state with
  | nil => exact absurd rfl some
  | cons first rest ih =>
    have index : (setHostByte state first).2 = state.2 + 1 := rfl
    rw [Runs.Along, List.length_cons]
    by_cases last : rest = []
    · rw [last, List.length_nil]
      simp only [Runs.Along, and_true]
      omega
    · have filled := List.length_pos_iff.mpr last
      rw [ih _ last, index]
      omega

theorem indicesInside_iff (args : Arguments) (s : Globals) :
    IndicesInside args s ↔ arg (text "ip") args = fhemIp s ∨ (tokens args).length ≤ 4 := by
  rw [IndicesInside, ← or_iff_not_imp_left]
  apply or_congr_right
  by_cases none : tokens args = []
  · rw [none]
    exact iff_of_true trivial (by decide)
  · rw [indices_iff _ _ none, Nat.zero_add]

theorem setHostBytes_frame (list : List Str) (s : Globals) :
    { (list.foldl setHostByte (s, 0)).1 with fhemHost := s.fhemHost, eeprom := s.eeprom, spiffs := s.spiffs } = s :=
  Runs.run_keeps setHostByte
    (fun state => { state.1 with fhemHost := s.fhemHost, eeprom := s.eeprom, spiffs := s.spiffs }) list
    (fun _ _ _ => rfl) (s, 0)

theorem hostOnly_of_few (tmp : UInt32) (args : Arguments) (s : Globals) (few : (tokens args).length ≤ 4) :
    HostOnly s (handleIp tmp args s) := by
  by_cases same : arg (text "ip") args = fhemIp s
  · rw [handleIp_same tmp args s same]
    exact .refl s
  · have buffer : ∀ a, ¬Setting.ip.occupies a → (handleIp tmp args s).eeprom.data a = s.eeprom.data a := by
      intro a outside
      rw [handleIp_eq, setIp_eeprom _ s _ same, commit_data]
      apply setHostBytes_elsewhere (tokens args) (s, 0)
      intro i inside equal
      subst equal
      exact outside ⟨by omega, by omega, by omega⟩
    refine ⟨?_, ?_, buffer, ?_⟩
    · rw [handleIp_eq, setIp, if_pos same]
      exact setHostBytes_frame (tokens args) s
    · intro i beyond
      rw [handleIp_host tmp args s same, next_beyond _ _ _ (few.trans beyond)]
    · intro sound a inside outside
      have kept : Kept s.eeprom (handleIp tmp args s).eeprom := by
        rw [handleIp_eq]
        exact kept_setting s _ (setIp_stores _ s _)
      rcases sound.state with settled | closed
      · rw [(kept.settled settled).same a inside, settled.same a inside, buffer a outside]
      · rw [kept.closed closed]

/-- An `ip` argument writes the host and nothing else exactly when it is the present address, or the first
argument of the request has at most four tokens in its first 19 characters. -/
theorem ip_writes_host_iff (tmp : UInt32) (args : Arguments) (s : Globals) :
    IndicesInside args s ∧ HostOnly s (handleIp tmp args s) ↔
      arg (text "ip") args = fhemIp s ∨ (tokens args).length ≤ 4 := by
  rw [indicesInside_iff]
  constructor
  · exact And.left
  · intro either
    refine ⟨either, ?_⟩
    rcases either with same | few
    · rw [handleIp_same tmp args s same]
      exact .refl s
    · exact hostOnly_of_few tmp args s few

/-- A fifth octet goes behind the array, and to the first byte of the port. -/
theorem fifth_octet_written : ¬(IndicesInside [(text "ip", text "1.2.3.4.5")] (blank 0) ∧
    HostOnly (blank 0) (handleIp 0 [(text "ip", text "1.2.3.4.5")] (blank 0))) := by
  intro both
  obtain ⟨-, only⟩ := both
  have differs : arg (text "ip") [(text "ip", text "1.2.3.4.5")] ≠ fhemIp (blank 0) := by decide
  have behind := only.host 4 (by decide)
  rw [handleIp_host _ _ _ differs] at behind
  revert behind
  decide

end Bounds

section Atomic

/-- Four decimal numbers of at most 255 with single dots between them. -/
def Dotted (value : Str) (host : Nat → UInt8) : Prop :=
  ∃ a b c d, value = [46].intercalate [a, b, c, d] ∧
    Number a (host 0) ∧ Number b (host 1) ∧ Number c (host 2) ∧ Number d (host 3)

def Malformed (value : Str) : Prop := ¬∃ host, Dotted value host

/-- The address is the same, in RAM and in the EEPROM. -/
structure Intact (before after : Globals) : Prop where
  host : ∀ i, i < 4 → after.fhemHost i = before.fhemHost i
  stored : ∀ i, i < 4 → storedOctet after i = storedOctet before i
  flash : Sound before.eeprom → ∀ i, i < 4 →
    after.eeprom.flash (adresseEepromFhemHost + i * 2) = before.eeprom.flash (adresseEepromFhemHost + i * 2)

/-- The address is the one that the argument spells, in RAM and in the EEPROM if that is open. -/
def Complete (value : Str) (after : Globals) : Prop :=
  ∃ host, Dotted value host ∧ ∀ i, i < 4 → after.fhemHost i = host i ∧
    (Reached after i → storedOctet after i = host i)

/-- What the address is after the tokens are stored: each token's octet, and the old octets behind them. -/
def Yields (list : List Str) (s : Globals) (host stored : Nat → UInt8) : Prop :=
  ∀ i, i < 4 → next list i (s.fhemHost i) = host i ∧ (Reached s i → next list i (storedOctet s i) = stored i)

variable (tmp : UInt32) (args : Arguments) (s : Globals)

theorem handleIp_size : (handleIp tmp args s).eeprom.size = s.eeprom.size := by
  by_cases same : arg (text "ip") args = fhemIp s
  · rw [handleIp_same tmp args s same]
  · have sizes := Runs.run_keeps setHostByte (fun state => state.1.eeprom.size) (tokens args)
      (fun _ _ _ => write_size _ _ _) (s, 0)
    rw [handleIp_eq, setIp_eeprom _ s _ same, commit_size]
    exact sizes

theorem intact_iff (differs : arg (text "ip") args ≠ fhemIp s) :
    Intact s (handleIp tmp args s) ↔ Yields (tokens args) s s.fhemHost (storedOctet s) := by
  have host := handleIp_host tmp args s differs
  have data := handleIp_stored tmp args s differs
  constructor
  · intro intact i small
    refine ⟨(host i).symm.trans (intact.host i small), fun reached => ?_⟩
    have stored := (data i).symm.trans (intact.stored i small)
    rwa [if_pos reached] at stored
  · intro yields
    have buffer : ∀ i, i < 4 → storedOctet (handleIp tmp args s) i = storedOctet s i := by
      intro i small
      refine (data i).trans ?_
      split
      · rename_i reached
        exact (yields i small).2 reached
      · rfl
    refine ⟨fun i small => (host i).trans (yields i small).1, buffer, fun sound i small => ?_⟩
    have kept : Kept s.eeprom (handleIp tmp args s).eeprom := by
      rw [handleIp_eq]
      exact kept_setting s _ (setIp_stores _ s _)
    have inside : adresseEepromFhemHost + i * 2 < opened := by
      unfold adresseEepromFhemHost opened
      omega
    rcases sound.state with settled | closed
    · rw [(kept.settled settled).same _ inside, settled.same _ inside]
      exact buffer i small
    · rw [kept.closed closed]

theorem complete_iff (differs : arg (text "ip") args ≠ fhemIp s) :
    Complete (arg (text "ip") args) (handleIp tmp args s) ↔
      ∃ host, Dotted (arg (text "ip") args) host ∧ Yields (tokens args) s host host := by
  apply exists_congr
  intro host
  apply and_congr_right
  intro _
  apply forall_congr'
  intro i
  apply imp_congr_right
  intro _
  rw [handleIp_host tmp args s differs, Reached, handleIp_size, ← Reached]
  apply and_congr_right
  intro _
  apply imp_congr_right
  intro reached
  rw [handleIp_stored tmp args s differs, if_pos reached]

/-- A malformed address changes nothing, and any address is changed completely or not at all. -/
structure AllOrNothing (value : Str) (before after : Globals) : Prop where
  malformed : Malformed value → Intact before after
  atomic : Intact before after ∨ Complete value after

/-- This is so exactly when the argument is the present address, when each token among the first 19 characters of
the request's first argument repeats an octet, or when these tokens are the address that the argument spells. -/
theorem ip_all_or_nothing_iff : AllOrNothing (arg (text "ip") args) s (handleIp tmp args s) ↔
    arg (text "ip") args = fhemIp s ∨ Yields (tokens args) s s.fhemHost (storedOctet s) ∨
      ∃ host, Dotted (arg (text "ip") args) host ∧ Yields (tokens args) s host host := by
  by_cases same : arg (text "ip") args = fhemIp s
  · have intact : Intact s (handleIp tmp args s) := by
      rw [handleIp_same tmp args s same]
      exact ⟨fun _ _ => rfl, fun _ _ => rfl, fun _ _ _ => rfl⟩
    exact iff_of_true ⟨fun _ => intact, .inl intact⟩ (.inl same)
  · have either := or_congr (intact_iff tmp args s same) (complete_iff tmp args s same)
    rw [or_iff_right same, ← either]
    constructor
    · exact AllOrNothing.atomic
    · intro atomic
      refine ⟨fun malformed => ?_, atomic⟩
      rcases atomic with intact | ⟨host, dotted, _⟩
      · exact intact
      · exact absurd ⟨host, dotted⟩ malformed

theorem dotted_complete (value : Str) (host : Nat → UInt8) (dotted : Dotted value host) (short : value.length ≤ 19)
    (differs : value ≠ fhemIp s) : Complete value (handleIp tmp [(text "ip", value)] s) := by
  have named : arg (text "ip") [(text "ip", value)] = value := by simp [arg]
  have first : firstValue [(text "ip", value)] = value := by simp [firstValue, argName, named]
  have complete := complete_iff tmp [(text "ip", value)] s
  rw [named] at complete
  refine (complete differs).mpr ⟨host, dotted, ?_⟩
  obtain ⟨a, b, c, d, rfl, one, two, three, four⟩ := dotted
  have list : tokens [(text "ip", [46].intercalate [a, b, c, d])] = [a, b, c, d] := by
    rw [tokens, first]
    exact strtok_dotted a b c d _ _ _ _ one two three four short
  have each (i : Nat) (small : i < 4) (old : UInt8) : next [a, b, c, d] i old = host i := by
    obtain rfl | rfl | rfl | rfl : i = 0 ∨ i = 1 ∨ i = 2 ∨ i = 3 := by omega
    · exact octet_token a _ one
    · exact octet_token b _ two
    · exact octet_token c _ three
    · exact octet_token d _ four
  intro i small
  rw [list]
  exact ⟨each i small _, fun _ => each i small _⟩

/-- An address of two octets changes these two. -/
theorem half_address_written : ¬AllOrNothing (text "1.2") { blank 0 with fhemHost := fun _ => 10 }
    (handleIp 0 [(text "ip", text "1.2")] { blank 0 with fhemHost := fun _ => 10 }) := by
  intro atomic
  have differs : arg (text "ip") [(text "ip", text "1.2")] ≠ fhemIp { blank 0 with fhemHost := fun _ => 10 } := by
    decide
  have malformed : Malformed (text "1.2") := by
    intro found
    obtain ⟨host, a, b, c, d, same, -⟩ := found
    have dots := congrArg (List.count 46) same
    have one : (text "1.2").count 46 = 1 := by decide
    rw [one] at dots
    simp [List.intercalate, List.count_append] at dots
    omega
  have first := (atomic.malformed malformed).host 0 (by decide)
  rw [handleIp_host _ _ _ differs] at first
  revert first
  decide

end Atomic
end EspLog.Address

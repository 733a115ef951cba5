import EspLog.Storage

/-! The year yield: the energy credited since New Year, and the midnights that reset it. -/

namespace EspLog.YearYield
open CText ExactFloat Sketch Functions Websites WebServer Effects Loop TimeLib

section Energy

/-- Whole Wh of the pulses counted so far, as a tick books them. -/
def energyWh (s : Globals) : Nat :=
  if s.impulseProKwh > 0 then (s.counter * 1000 / s.impulseProKwh).toNat else 0

theorem creditedTotal_exact (s : Globals) (i total : Nat) (held : (s.ausgabe i).value = single total)
    (fits : total + energyWh s < 2 ^ 24) : creditedTotal s i = single (total + energyWh s) := by
  unfold creditedTotal energyWh at *
  by_cases positive : s.impulseProKwh > 0
  · rw [if_pos positive] at fits ⊢
    rw [if_pos positive, held, energyOf, toFloat32_eq_single, single_add _ _ fits]
  · rw [if_neg positive, if_neg positive, Nat.add_zero, held]

theorem energyWh_of_idle (s : Globals) (idle : s.counter = 0) : energyWh s = 0 := by
  unfold energyWh
  split
  · simp [idle]
  · rfl

def creditedBy (s : Globals) : Event → Nat
  | .minute c _ => if minute c % 5 = 0 then energyWh s else 0
  | _ => 0

/-- The device beside the sum of what its ticks have credited. -/
def tally (state : Globals × Nat) (event : Event) : Globals × Nat :=
  (step state.1 event, state.2 + creditedBy state.1 event)

end Energy

section Others
variable (s : Globals)

def year (s : Globals) : Float32 := (s.ausgabe 2).value

theorem setupArguments_year (tmp : UInt32) (args rest : Arguments) (unclear : ¬Storage.given "clrrom" rest) :
    year (setupArguments tmp args rest s).sketch = year s := by
  have keep (s : Globals) : year s = year s := rfl
  have join {first second third : Globals} (before : year second = year first) (after : year third = year second) :
      year third = year first := after.trans before
  apply setupArguments_rule (fun before after => year after = year before) keep join (fun _ _ => rfl)
  intro entry member filled s
  apply setupArgument_rule (fun before after => year after = year before) keep join
  · exact fun before after stores => congrArg ValueStore.value (stores.outputs 2 (by decide))
  · exact fun _ _ => rfl
  · exact fun named => absurd ⟨entry.2, named ▸ member, filled⟩ unclear

end Others

section Run

/-- The events up to the next New Year, without a restart and without `clrrom`. -/
def Continues : Event → Prop
  | .pulse => True
  | .minute c _ => ¬NewYear c
  | .request _ _ request _ => ∀ args, setupArgs request = some args →
    ¬Storage.given "clrrom" args ∧ ¬Storage.given "restart" args
  | .restart _ => False

/-- An event that credits nothing by itself, or whose sum is still exact in a float. -/
def Admitted (state : Globals × Nat) (event : Event) : Prop :=
  Continues event ∧ state.2 + creditedBy state.1 event < 2 ^ 24

/-- A midnight of January finds nothing to reset. -/
def NothingLost (state : Globals × Nat) : Event → Prop
  | .minute c io => JanuaryMidnight c → state.2 + creditedBy state.1 (.minute c io) = 0
  | _ => True

/-- The year yield is the sum of what was credited. -/
def Exact (state : Globals × Nat) : Prop := year state.1 = single state.2

theorem everyMinute_year (c : UInt32) (io : Readings) (s : Globals) (other : ¬JanuaryMidnight c) (total : Nat)
    (held : year s = single total) (fits : total + creditedBy s (.minute c io) < 2 ^ 24) :
    year (everyMinute c io s) = single (total + creditedBy s (.minute c io)) := by
  by_cases tick : minute c % 5 = 0
  · simp only [creditedBy, if_pos tick] at fits ⊢
    have credited := creditedTotal_exact s 2 total held fits
    by_cases midnight : Midnight (localClock c)
    · have later : ¬(dateOf (localClock c)).month = 0 := fun january => other ⟨tick, midnight, january⟩
      rw [year, everyMinute_newDay_year c io s tick midnight, if_neg later, credited]
    · rw [year, everyMinute_sameDay_total c io s 2 (.inr (.inr (.inl rfl))) tick midnight, credited]
  · simp only [creditedBy, if_neg tick, Nat.add_zero]
    rw [year, everyMinute_idle_value c io s 2 (by decide) tick]
    exact held

theorem everyMinute_january (c : UInt32) (io : Readings) (s : Globals) (january : JanuaryMidnight c) :
    year (everyMinute c io s) = single 0 := by
  rw [year, everyMinute_newDay_year c io s january.1 january.2.1, if_pos january.2.2]
  decide

theorem handleRequest_year (isFile : Str → Bool) (tmp : UInt32) (request : Request) (s : Globals)
    (stays : ∀ args, setupArgs request = some args →
      ¬Storage.given "clrrom" args ∧ ¬Storage.given "restart" args) :
    year (handleRequest isFile tmp request s).sketch = year s ∧
      (handleRequest isFile tmp request s).restart = false := by
  obtain ⟨outcome, same, effect⟩ := handleRequest_outcome isFile tmp request s
  rw [same]
  cases effect with
  | setup args called =>
    obtain ⟨unclear, unbroken⟩ := stays args called
    refine ⟨setupArguments_year s tmp args args unclear, ?_⟩
    exact Bool.eq_false_iff.mpr fun set => unbroken ((Storage.setupArguments_restart tmp args args s).mp set)
  | spiffs args called other =>
    exact ⟨congrArg (fun ausgabe : Nat → ValueStore => (ausgabe 2).value)
      (filesOnly_handleSpiffs args s).ausgabe, rfl⟩
  | upload parts uploads body other =>
    exact ⟨congrArg (fun ausgabe : Nat → ValueStore => (ausgabe 2).value)
      (filesOnly_parseForm true request.query parts [] s).ausgabe, rfl⟩
  | json other => exact ⟨rfl, rfl⟩
  | nothing other => exact ⟨rfl, rfl⟩

/-- One event keeps the sum exact, unless a midnight of January drops it. -/
theorem tally_exact_iff (state : Globals × Nat) (event : Event) (admitted : Admitted state event)
    (held : Exact state) : Exact (tally state event) ↔ NothingLost state event := by
  cases event with
  | pulse => exact iff_of_true held trivial
  | restart boot => exact admitted.1.elim
  | request isFile tmp request boot =>
    obtain ⟨kept, stays⟩ := handleRequest_year isFile tmp request state.1 admitted.1
    refine iff_of_true ?_ trivial
    simp only [Exact, tally, step, stays, Bool.false_eq_true, if_false]
    exact kept.trans held
  | minute c io =>
    by_cases january : JanuaryMidnight c
    · have empty := everyMinute_january c io state.1 january
      simp only [Exact, tally, step, empty, NothingLost, january, true_imp_iff]
      constructor
      · intro same
        exact (single_injective _ _ (by decide) admitted.2 same).symm
      · intro nothing
        rw [nothing]
    · exact iff_of_true (everyMinute_year c io state.1 january state.2 held admitted.2)
        (fun now => absurd now january)

/-- Begun right after New Year, the year yield stays the sum of what was credited exactly when
no midnight of January meets a sum other than zero. -/
theorem yearYield_iff (c : UInt32) (io : Readings) (s : Globals) (events : List Event) (newYear : NewYear c)
    (admitted : Runs.Along tally Admitted (everyMinute c io s, 0) events) :
    Runs.Throughout tally Exact (everyMinute c io s, 0) events ↔
      Runs.Along tally NothingLost (everyMinute c io s, 0) events := by
  have initial : Exact (everyMinute c io s, 0) := everyMinute_january c io s newYear.1
  have free (state : Globals × Nat) (event : Event) (_ : True) (_ : Admitted state event) : True := trivial
  exact Runs.throughout_iff_along free
    (fun state event _ admitted held => tally_exact_iff state event admitted held)
    events _ trivial initial admitted

theorem admitted_after_tick (state : Globals × Nat) (c later : UInt32) (io io' : Readings)
    (tick : minute c % 5 = 0) (other : ¬NewYear later) (admitted : Admitted state (.minute c io)) :
    Admitted (tally state (.minute c io)) (.minute later io') := by
  have idle : creditedBy (tally state (.minute c io)).1 (.minute later io') = 0 := by
    have empty : energyWh (everyMinute c io state.1) = 0 :=
      energyWh_of_idle _ (everyMinute_counter c io state.1 tick)
    simp only [creditedBy, tally, step, empty, ite_self]
  refine ⟨other, ?_⟩
  rw [idle]
  exact admitted.2

/-- A pulse, the tick of 00:05 on New Year's Day 2019, and the first of February. -/
theorem yearYield_in_2019 : Runs.Throughout tally Exact
    (everyMinute 1546300800 ⟨3300, -60, 0⟩ (Storage.blank 0), 0)
    [.pulse, .minute 1546301100 ⟨3300, -60, 0⟩, .minute 1548979200 ⟨3300, -60, 0⟩] := by
  have newYear : NewYear 1546300800 := by decide
  have five : ¬JanuaryMidnight 1546301100 := by decide
  have february : ¬JanuaryMidnight 1548979200 := by decide
  refine (yearYield_iff 1546300800 ⟨3300, -60, 0⟩ (Storage.blank 0) _ newYear ?_).mpr ?_
  · have first : Admitted (tally (everyMinute 1546300800 ⟨3300, -60, 0⟩ (Storage.blank 0), 0) .pulse)
        (.minute 1546301100 ⟨3300, -60, 0⟩) := ⟨fun new => five new.1, by decide +kernel⟩
    have next := admitted_after_tick _ _ _ _ ⟨3300, -60, 0⟩ (by decide) (fun new => february new.1) first
    exact ⟨⟨trivial, by decide⟩, first, next, trivial⟩
  · exact ⟨trivial, fun january => absurd january five, fun january => absurd january february, trivial⟩

/-- The pulse of New Year's Day is gone after the midnight of 2 January 2019. -/
theorem yearYield_lost_on_second_january : ¬Runs.Throughout tally Exact
    (everyMinute 1546300800 ⟨3300, -60, 0⟩ (Storage.blank 0), 0)
    [.pulse, .minute 1546387200 ⟨3300, -60, 0⟩] := by
  intro through
  have second : JanuaryMidnight 1546387200 := by decide
  have other : ¬NewYear 1546387200 := by decide
  have admitted : Admitted (tally (everyMinute 1546300800 ⟨3300, -60, 0⟩ (Storage.blank 0), 0) .pulse)
      (.minute 1546387200 ⟨3300, -60, 0⟩) := ⟨other, by decide +kernel⟩
  have nothing := (tally_exact_iff _ _ admitted through.2.1).mp through.2.2 second
  revert nothing
  decide +kernel

end Run
end EspLog.YearYield

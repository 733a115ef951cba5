import EspLog.Outputs
import EspLog.Yesterday

/-! The graph of the day: a tick keeps its power in the slot of the CET clock, and the graph is
read in local time. The two agree in winter, and in summer as long as there is nothing to show. -/

namespace EspLog.Graph
open CText Sketch Functions Websites WebServer Effects Loop Outputs Yesterday TimeLib

section Slots

def slot (t : UInt32) : Nat := hour t * 12 + minute t / 5

theorem slot_eq (t : UInt32) : slot t = t.toNat % 86400 / 300 := by
  rw [slot, hour_eq, minute_eq]
  omega

theorem slot_lt (t : UInt32) : slot t < 288 := by
  rw [slot_eq]
  omega

theorem zeit_slot (t : UInt32) (tick : minute t % 5 = 0) :
    zeit (slot t) = twoDigits (hour t) ++ text ":" ++ twoDigits (minute t) := by
  have hours : slot t / 12 = hour t := by
    rw [slot, minute_eq]
    omega
  have minutes : slot t % 12 * 5 = minute t := by
    rw [minute_eq] at tick
    rw [slot, minute_eq]
    omega
  rw [zeit, hours, minutes]

theorem minute_tick (t : UInt32) : minute t % 5 = 0 ↔ t.toNat % 300 < 60 := by
  rw [minute_eq]
  omega

theorem localClock_cases (c : UInt32) :
    (SummerAt c ∧ (localClock c).toNat = c.toNat + 3600) ∨ (¬SummerAt c ∧ localClock c = c) := by
  by_cases summer : SummerAt c
  · exact .inl ⟨summer, localClock_summer c summer⟩
  · exact .inr ⟨summer, localClock_winter c summer⟩

theorem localDay_kept (c later : UInt32) (five : later.toNat = c.toNat + 300) (tick : minute later % 5 = 0)
    (still : ¬Midnight (localClock later)) : (localClock later).toNat / 86400 = (localClock c).toNat / 86400 := by
  rw [midnight_iff] at still
  rw [minute_tick] at tick
  rcases localClock_cases c with ⟨summer, shift⟩ | ⟨winter, same⟩ <;>
  rcases localClock_cases later with ⟨summer', shift'⟩ | ⟨winter', same'⟩ <;>
  rcases summerAt_next c later five with kept | ⟨day, two, one⟩
  · omega
  · omega
  · exact absurd (kept.mp summer) winter'
  · rw [same', shift]
    omega
  · exact absurd (kept.mpr summer') winter
  · rw [shift', same]
    omega
  · rw [same'] at still ⊢
    rw [same]
    omega
  · rw [same', same]
    omega

/-- A winter tick and a later summer tick of one local day are on both sides of two o'clock. -/
theorem winter_before_summer (a c : UInt32) (order : a.toNat < c.toNat) (winter : ¬SummerAt a)
    (summer : SummerAt c) (day : (localClock a).toNat / 86400 = (localClock c).toNat / 86400) :
    a.toNat / 86400 = c.toNat / 86400 ∧ a.toNat / 60 / 60 % 24 < 2 ∧ 2 ≤ c.toNat / 60 / 60 % 24 := by
  rw [localClock_winter a winter, localClock_summer c summer] at day
  have same : a.toNat / 86400 = c.toNat / 86400 := by omega
  have date : date a = date c := by rw [date, date, same]
  refine ⟨same, ?_⟩
  have hours : a.toNat / 60 / 60 % 24 ≤ c.toNat / 60 / 60 % 24 := by omega
  have bound : c.toNat / 60 / 60 % 24 < 24 := Nat.mod_lt _ (by decide)
  unfold SummerAt Summer at winter summer
  rw [date] at winter
  omega

/-- The last hour of the day on which summer time ends: its slots belong to the first hour, too. -/
def RepeatedHour (c : UInt32) : Prop := ¬SummerAt c ∧ SummerAt (c - 86400) ∧ hour c = 23

/-- Two ticks of one local day share a slot only in its repeated hour. -/
theorem slots_apart (a c : UInt32) (order : a.toNat < c.toNat) (aligned : (c.toNat - a.toNat) % 300 = 0)
    (day : (localClock a).toNat / 86400 = (localClock c).toNat / 86400) (once : ¬RepeatedHour c) :
    slot a ≠ slot c := by
  intro shared
  rw [slot_eq, slot_eq] at shared
  have whole : (c.toNat - a.toNat) % 86400 = 0 := by omega
  rcases localClock_cases a with ⟨summer, shift⟩ | ⟨winter, same⟩ <;>
  rcases localClock_cases c with ⟨summer', shift'⟩ | ⟨winter', same'⟩
  · omega
  · rw [shift, same'] at day
    have before : a = c - 86400 := by
      apply UInt32.toNat.inj
      rw [UInt32.toNat_sub_of_le _ _ (by rw [UInt32.le_iff_toNat_le]; exact (by omega : 86400 ≤ c.toNat))]
      exact (by omega : a.toNat = c.toNat - 86400)
    refine once ⟨winter', before ▸ summer, ?_⟩
    rw [hour_eq]
    omega
  · rw [same, shift'] at day
    omega
  · rw [same, same'] at day
    omega

end Slots
section Day

/-- The device beside the ticks of the local day, the latest first, and the samples by the slot of
their local time. -/
structure Chart where
  sketch : Globals
  ticks : List UInt32
  expected : Nat → UInt32

def track (chart : Chart) (event : Event) : Chart :=
  match event with
  | .minute c io =>
    if minute c % 5 = 0 then
      if Midnight (localClock c) then ⟨everyMinute c io chart.sketch, [c], fun _ => 0⟩
      else ⟨everyMinute c io chart.sketch, c :: chart.ticks,
        Function.update chart.expected (slot (localClock c)) (powerOf chart.sketch.counter).toUInt32⟩
    else { chart with sketch := everyMinute c io chart.sketch }
  | event => { chart with sketch := step chart.sketch event }

/-- Every tick comes five minutes after another, and the device does not start again. -/
def Consecutive (chart : Chart) : Event → Prop
  | .minute c _ => minute c % 5 = 0 → ∃ last earlier, chart.ticks = last :: earlier ∧ c.toNat = last.toNat + 300
  | .request isFile tmp request _ => (handleRequest isFile tmp request chart.sketch).restart = false
  | .restart _ => False
  | .pulse => True

/-- The graph shows the samples of the day under their local times, one slot a tick. -/
structure Local (chart : Chart) : Prop where
  shown : graph chart.sketch = graphRows chart.expected
  labelled : ∀ a ∈ chart.ticks, zeit (slot (localClock a)) =
    twoDigits (hour (localClock a)) ++ text ":" ++ twoDigits (minute (localClock a))
  apart : ∀ a ∈ chart.ticks, ∀ b ∈ chart.ticks,
    (hour (localClock a), minute (localClock a)) ≠ (hour (localClock b), minute (localClock b)) → slot a ≠ slot b

/-- A tick inside a day counts no pulse in summer, and is not in the repeated hour. -/
def Agreeing (chart : Chart) : Event → Prop
  | .minute c _ => minute c % 5 = 0 → ¬Midnight (localClock c) →
    (SummerAt c → chart.sketch.counter = 0) ∧ ¬RepeatedHour c
  | _ => True

/-- The invariant: the slots hold what is expected, and no summer tick has left anything. -/
structure Kept (chart : Chart) : Prop where
  day : ∃ last earlier, chart.ticks = last :: earlier ∧ ∀ a ∈ chart.ticks, minute a % 5 = 0 ∧
    a.toNat ≤ last.toNat ∧
    (last.toNat - a.toNat) % 300 = 0 ∧ (localClock a).toNat / 86400 = (localClock last).toNat / 86400
  winter : ∀ i, chart.expected i ≠ 0 → ∃ a ∈ chart.ticks, ¬SummerAt a ∧ slot a = i
  slots : ∀ i < 288, chart.sketch.fuenfMinutenZaehler i = chart.expected i
  apart : ∀ a ∈ chart.ticks, ∀ b ∈ chart.ticks, a ≠ b → slot a ≠ slot b

theorem track_midnight (chart : Chart) (c : UInt32) (io : Readings) (tick : minute c % 5 = 0)
    (midnight : Midnight (localClock c)) :
    track chart (.minute c io) = ⟨everyMinute c io chart.sketch, [c], fun _ => 0⟩ := by
  simp only [track, if_pos tick, if_pos midnight]

theorem track_sameDay (chart : Chart) (c : UInt32) (io : Readings) (tick : minute c % 5 = 0)
    (still : ¬Midnight (localClock c)) :
    track chart (.minute c io) = ⟨everyMinute c io chart.sketch, c :: chart.ticks,
      Function.update chart.expected (slot (localClock c)) (powerOf chart.sketch.counter).toUInt32⟩ := by
  simp only [track, if_pos tick, if_neg still]

theorem kept_midnight (chart : Chart) (c : UInt32) (io : Readings) (tick : minute c % 5 = 0)
    (midnight : Midnight (localClock c)) : Kept (track chart (.minute c io)) := by
  rw [track_midnight chart c io tick midnight]
  constructor
  · refine ⟨c, [], rfl, fun a member => ?_⟩
    rw [List.mem_singleton.mp member]
    exact ⟨tick, le_rfl, by rw [Nat.sub_self], rfl⟩
  · exact fun i expected => absurd rfl expected
  · exact everyMinute_midnight_slots c io chart.sketch tick midnight
  · intro a first b second differ
    exact absurd ((List.mem_singleton.mp first).trans (List.mem_singleton.mp second).symm) differ

theorem handleRequest_slots (isFile : Str → Bool) (tmp : UInt32) (request : Request) (s : Globals) :
    (handleRequest isFile tmp request s).sketch.fuenfMinutenZaehler = s.fuenfMinutenZaehler := by
  have keep (s : Globals) : s.fuenfMinutenZaehler = s.fuenfMinutenZaehler := rfl
  have join {first second third : Globals} (before : second.fuenfMinutenZaehler = first.fuenfMinutenZaehler)
      (after : third.fuenfMinutenZaehler = second.fuenfMinutenZaehler) :
      third.fuenfMinutenZaehler = first.fuenfMinutenZaehler := after.trans before
  apply handleRequest_rule (fun before after => after.fuenfMinutenZaehler = before.fuenfMinutenZaehler)
  · exact fun before after files => files.slots
  · intro args _ s
    apply setupArguments_rule (fun before after => after.fuenfMinutenZaehler = before.fuenfMinutenZaehler)
      keep join
      (fun _ _ => rfl)
    intro entry _ _ s
    apply setupArgument_rule (fun before after => after.fuenfMinutenZaehler = before.fuenfMinutenZaehler) keep join
    · exact fun before after stores => stores.slots
    · exact fun _ _ => rfl
    · intro _ s
      have erased (s : Globals) : (deleteRAM s).fuenfMinutenZaehler = s.fuenfMinutenZaehler := by
        simp only [deleteRAM, Globals.setValue, Globals.setPrint]
      simp only [clearTable, erased, deleteEEPROM_eq, write2logfile]

theorem Kept.frame {chart : Chart} (kept : Kept chart) {s : Globals}
    (same : s.fuenfMinutenZaehler = chart.sketch.fuenfMinutenZaehler) : Kept { chart with sketch := s } where
  day := kept.day
  winter := kept.winter
  slots i inside := by
    rw [← kept.slots i inside, same]
  apart := kept.apart

theorem Kept.dark {chart : Chart} (kept : Kept chart) (c : UInt32) (summer : SummerAt c)
    (later : ∀ a ∈ chart.ticks, a.toNat < c.toNat ∧ (localClock a).toNat / 86400 = (localClock c).toNat / 86400) :
    chart.expected (slot c) = 0 ∧ chart.expected (slot (localClock c)) = 0 := by
  constructor <;>
  · by_contra lit
    obtain ⟨a, member, winter, place⟩ := kept.winter _ lit
    obtain ⟨order, day⟩ := later a member
    obtain ⟨same, early, late⟩ := winter_before_summer a c order winter summer day
    have shift := localClock_summer c summer
    have noShift := congrArg UInt32.toNat (localClock_winter a winter)
    rw [slot_eq, slot_eq] at place
    omega

theorem kept_sameDay (chart : Chart) (c : UInt32) (io : Readings) (kept : Kept chart) (tick : minute c % 5 = 0)
    (still : ¬Midnight (localClock c)) (consecutive : Consecutive chart (.minute c io))
    (agreeing : Agreeing chart (.minute c io)) : Kept (track chart (.minute c io)) := by
  obtain ⟨dark, once⟩ := agreeing tick still
  obtain ⟨last, earlier, ticks, five⟩ := consecutive tick
  have day := localDay_kept last c five tick still
  have before : ∀ a ∈ chart.ticks, minute a % 5 = 0 ∧ a.toNat < c.toNat ∧ (c.toNat - a.toNat) % 300 = 0 ∧
      (localClock a).toNat / 86400 = (localClock c).toNat / 86400 := by
    obtain ⟨head, rest, parts, all⟩ := kept.day
    obtain ⟨rfl, -⟩ := List.cons_eq_cons.mp (parts.symm.trans ticks)
    intro a member
    obtain ⟨tick, order, aligned, same⟩ := all a member
    exact ⟨tick, by omega, by omega, same.trans day.symm⟩
  rw [track_sameDay chart c io tick still]
  constructor
  · refine ⟨c, chart.ticks, rfl, fun a member => ?_⟩
    rcases List.mem_cons.mp member with rfl | older
    · exact ⟨tick, le_rfl, by rw [Nat.sub_self], rfl⟩
    · obtain ⟨tick, order, aligned, same⟩ := before a older
      exact ⟨tick, order.le, aligned, same⟩
  · intro i lit
    dsimp only at lit ⊢
    by_cases here : i = slot (localClock c)
    · subst here
      rw [Function.update_self] at lit
      by_cases summer : SummerAt c
      · rw [dark summer] at lit
        exact absurd (by decide) lit
      · refine ⟨c, List.mem_cons_self, summer, ?_⟩
        rw [localClock_winter c summer]
    · rw [Function.update_of_ne here] at lit
      obtain ⟨a, member, found⟩ := kept.winter i lit
      exact ⟨a, List.mem_cons_of_mem _ member, found⟩
  · intro i inside
    dsimp only
    rw [everyMinute_sameDay_slots c io chart.sketch tick still]
    by_cases summer : SummerAt c
    · have none : (powerOf 0).toUInt32 = 0 := by decide
      obtain ⟨own, shifted⟩ := kept.dark c summer fun a member => ⟨(before a member).2.1, (before a member).2.2.2⟩
      have held : chart.expected (slot (localClock c)) = chart.sketch.fuenfMinutenZaehler (slot c) := by
        rw [kept.slots (slot c) (slot_lt c), own, shifted]
      rw [dark summer, none, ← shifted, Function.update_eq_self, held]
      exact (congrFun (Function.update_eq_self _ _) i).trans (kept.slots i inside)
    · rw [localClock_winter c summer]
      by_cases here : i = slot c
      · subst here
        rw [Function.update_self]
        exact Function.update_self _ _ _
      · rw [Function.update_of_ne here]
        exact (Function.update_of_ne here _ _).trans (kept.slots i inside)
  · have fresh (a : UInt32) (member : a ∈ chart.ticks) : slot a ≠ slot c :=
      slots_apart a c (before a member).2.1 (before a member).2.2.1 (before a member).2.2.2 once
    intro a first b second differ
    rcases List.mem_cons.mp first with rfl | older <;>
    rcases List.mem_cons.mp second with rfl | older'
    · exact absurd rfl differ
    · exact (fresh b older').symm
    · exact fresh a older
    · exact kept.apart a older b older' differ

theorem track_kept (chart : Chart) (event : Event) (kept : Kept chart)
    (admitted : Consecutive chart event ∧ Agreeing chart event) : Kept (track chart event) := by
  cases event with
  | pulse => exact kept.frame rfl
  | restart boot => exact admitted.1.elim
  | request isFile tmp request boot =>
    have continued : step chart.sketch (.request isFile tmp request boot) =
        (handleRequest isFile tmp request chart.sketch).sketch := by
      rw [step_request, if_neg (by rw [admitted.1]; decide)]
    apply kept.frame
    rw [continued]
    exact handleRequest_slots isFile tmp request chart.sketch
  | minute c io =>
    by_cases tick : minute c % 5 = 0
    · by_cases midnight : Midnight (localClock c)
      · exact kept_midnight chart c io tick midnight
      · exact kept_sameDay chart c io kept tick midnight admitted.1 admitted.2
    · have idle : track chart (.minute c io) = { chart with sketch := everyMinute c io chart.sketch } :=
        if_neg tick
      rw [idle]
      apply kept.frame
      rw [everyMinute_idle c io chart.sketch tick]

theorem graphRows_congr (first second : Nat → UInt32) (same : ∀ i < 288, first i = second i) :
    graphRows first = graphRows second := by
  unfold graphRows
  apply List.flatMap_congr
  intro i member
  rw [same i (List.mem_range.mp member)]

theorem Kept.local {chart : Chart} (kept : Kept chart) : Local chart where
  shown := graphRows_congr _ _ kept.slots
  labelled a member := by
    obtain ⟨last, earlier, ticks, all⟩ := kept.day
    obtain ⟨tick, -⟩ := all a member
    apply zeit_slot
    rw [minute_tick] at tick ⊢
    rcases localClock_cases a with ⟨_, shift⟩ | ⟨_, same⟩
    · omega
    · rw [same]
      exact tick
  apart a first b second differ := by
    apply kept.apart a first b second
    intro equal
    subst equal
    exact differ rfl

/-- From a processed midnight on, ticks without a gap show the day in local time, as long as no tick
of summer time counts a pulse and none is in the hour that the end of summer time repeats. -/
theorem graph_local (c : UInt32) (io : Readings) (s : Globals) (events : List Event) (tick : minute c % 5 = 0)
    (midnight : Midnight (localClock c))
    (consecutive : Runs.Along track Consecutive ⟨everyMinute c io s, [c], fun _ => 0⟩ events)
    (agreeing : Runs.Along track Agreeing ⟨everyMinute c io s, [c], fun _ => 0⟩ events) :
    Runs.Throughout track Local ⟨everyMinute c io s, [c], fun _ => 0⟩ events := by
  have start := kept_midnight ⟨s, [], fun _ => 0⟩ c io tick midnight
  rw [track_midnight _ c io tick midnight] at start
  exact (Runs.throughout_of_invariant track_kept events _ start (consecutive.and agreeing)).mono fun _ kept =>
    kept.local

/-- On New Year's Day the pulse before 0:05 is shown at 0:05. -/
theorem graph_local_in_winter : Runs.Throughout track Local
    ⟨everyMinute 1546300800 ⟨3300, -60, 0⟩ (powerOn (fun _ => 0) true []), [1546300800], fun _ => 0⟩
    [.pulse, .minute 1546301100 ⟨3300, -60, 0⟩] := by
  have winter : ¬SummerAt 1546301100 := by
    rw [← summerAt_iff]
    decide
  have early : hour 1546301100 ≠ 23 := by decide
  apply graph_local 1546300800 _ _ _ (by decide) (by decide)
  · exact ⟨trivial, fun _ => ⟨1546300800, [], rfl, rfl⟩, trivial⟩
  · exact ⟨trivial, fun _ _ => ⟨fun summer => absurd summer winter, fun last => early last.2.2⟩, trivial⟩

/-- On 2 July the pulse before 0:05 is shown at 23:05. -/
theorem graph_shifted_in_summer : minute 1562022000 % 5 = 0 ∧ Midnight (localClock 1562022000) ∧
    Runs.Along track Consecutive
      ⟨everyMinute 1562022000 ⟨3300, -60, 0⟩ (powerOn (fun _ => 0) true []), [1562022000], fun _ => 0⟩
      [.pulse, .minute 1562022300 ⟨3300, -60, 0⟩] ∧
    ¬Runs.Throughout track Local
      ⟨everyMinute 1562022000 ⟨3300, -60, 0⟩ (powerOn (fun _ => 0) true []), [1562022000], fun _ => 0⟩
      [.pulse, .minute 1562022300 ⟨3300, -60, 0⟩] := by
  have midnight : minute 1562022000 % 5 = 0 ∧ Midnight (localClock 1562022000) := by decide
  refine ⟨midnight.1, midnight.2, ⟨trivial, fun _ => ⟨1562022000, [], rfl, rfl⟩, trivial⟩, ?_⟩
  intro through
  have tick : minute 1562022300 % 5 = 0 ∧ ¬Midnight (localClock 1562022300) := by decide
  have empty := everyMinute_midnight_slots 1562022000 ⟨3300, -60, 0⟩ (powerOn (fun _ => 0) true []) midnight.1
    midnight.2
  have counted := everyMinute_counter 1562022000 ⟨3300, -60, 0⟩ (powerOn (fun _ => 0) true []) midnight.1
  generalize everyMinute 1562022000 ⟨3300, -60, 0⟩ (powerOn (fun _ => 0) true []) = s at through empty counted
  have pulse : (interruptRoutineFalling s).counter = 1 := by
    rw [interrupt_counter, counted, zero_add]
  have slots := everyMinute_sameDay_slots 1562022300 ⟨3300, -60, 0⟩ (interruptRoutineFalling s) tick.1 tick.2
  have shown := through.2.2.shown
  have events : track (track ⟨s, [1562022000], fun _ => 0⟩ .pulse) (.minute 1562022300 ⟨3300, -60, 0⟩) = _ :=
    track_sameDay ⟨interruptRoutineFalling s, [1562022000], fun _ => 0⟩ 1562022300 ⟨3300, -60, 0⟩ tick.1 tick.2
  have held : graphRows (everyMinute 1562022300 ⟨3300, -60, 0⟩ (interruptRoutineFalling s)).fuenfMinutenZaehler =
      graphRows (Function.update (fun _ => 0) 277 12) := by
    apply graphRows_congr
    intro i inside
    have place : hour 1562022300 * 12 + minute 1562022300 / 5 = 277 := by decide
    have power : (powerOf 1).toUInt32 = 12 := by decide
    rw [slots, place, pulse, power]
    by_cases here : i = 277
    · rw [here, Function.update_self, Function.update_self]
    · rw [Function.update_of_ne here, Function.update_of_ne here]
      exact empty i inside
  have expected : (Function.update (fun _ => 0) (slot (localClock 1562022300))
      (powerOf (interruptRoutineFalling s).counter).toUInt32) =
      Function.update (fun _ => (0 : UInt32)) 1 12 := by
    have place : slot (localClock 1562022300) = 1 := by decide
    have power : (powerOf 1).toUInt32 = 12 := by decide
    rw [pulse, place, power]
  rw [events] at shown
  dsimp only at shown
  rw [graph, held, expected] at shown
  revert shown
  decide +kernel

end Day
end EspLog.Graph

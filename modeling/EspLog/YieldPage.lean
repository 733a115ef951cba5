import EspLog.Printing
import EspLog.Yields

/-! The months of the yield page beside the calendar of the clock. The page has its own rule for the length of a
month, and takes the month from an argument that is cut to a byte. -/

namespace EspLog.YieldPage
open CText Sketch Functions Websites WebServer Setup Effects Restart Loop Outputs TimeLib Calendar Yesterday
  Yields Printing

section Months

/-- The month length of `breakTime`, with the year counted from 1970 and the month from zero. -/
def breakLength (year month : Nat) : Nat :=
  if month = 1 then (if LEAP_YEAR year then 29 else 28) else monthDays.getD month 0

/-- The two rules for the length of a month agree in every year. -/
theorem letzterTag_length (year j : Nat) (month : j < 12) :
    letzterTag (1970 + year) j + 1 = breakLength year j := by
  have leap : ((1970 + year) % 4 = 0 ∧ (1970 + year) % 100 ≠ 0 ∨ (1970 + year) % 400 = 0) ↔ LEAP_YEAR year := by
    unfold LEAP_YEAR
    omega
  unfold letzterTag breakLength
  simp only [leap]
  interval_cases j
  case «1» =>
    rw [if_pos rfl, if_pos rfl]
    split
    · rfl
    · rfl
  all_goals rfl

theorem year_offset (t : UInt32) : year t = 1970 + (breakTime t).year := rfl

theorem length_zellen (t : UInt32) (j : Nat) (s : Globals) (month : j < 12) :
    (zellen (year t) j s).length = breakLength (breakTime t).year j := by
  rw [zellen, List.length_map, List.length_range, year_offset, letzterTag_length _ _ month]

theorem year_localClock (c : UInt32) : year (localClock c) = year c := by
  by_cases summer : SummerAt c
  · have later := localClock_summer c summer
    rw [year_eq, year_eq]
    by_cases sameDay : (localClock c).toNat / 86400 = c.toNat / 86400
    · rw [date, date, sameDay]
    · have next := date_next c (localClock c) (by omega)
      rw [← next]
      have notLast : (date c).month ≠ 11 := by
        unfold SummerAt Summer at summer
        omega
      rcases (date c).next_cases with ⟨-, same, -⟩ | ⟨-, -, same, -⟩ | ⟨-, last, -⟩
      · exact same
      · exact same
      · exact absurd last notLast
  · rw [localClock_winter c summer]

end Months

section Page
variable (c : UInt32) (args : Arguments) (s : Globals)

theorem gezeigterMonat_lt (today : s.today.month < 12) : gezeigterMonat args s < 12 := by
  unfold gezeigterMonat
  split
  · exact today
  · dsimp only
    generalize (toInt (arg (text "monat") args)).toUInt32.toUInt8 = m
    split
    · decide
    · split
      · decide
      · rename_i some few
        have bound : m.toNat ≤ 12 := by
          simpa only [gt_iff_lt, UInt8.lt_iff_toNat_lt, Nat.not_lt, UInt8.reduceToNat] using few
        have least : 1 ≤ m := by
          rw [UInt8.le_iff_toNat_le]
          have nonzero : m.toNat ≠ 0 := fun zero => some (UInt8.toNat.inj zero)
          exact Nat.one_le_iff_ne_zero.mpr nonzero
        rw [UInt8.toNat_sub_of_le _ _ least]
        have one : (1 : UInt8).toNat = 1 := rfl
        omega

theorem letzterTag_lt (year j : Nat) : letzterTag year j < 31 := by
  unfold letzterTag
  repeat' split
  all_goals decide

theorem count_tabBlink (year : Nat) (inside : s.today.day ≤ letzterTag year s.today.month) :
    (zellen year s.today.month s).countP (·.tabBlink) = 1 := by
  have today : (fun cell : Zelle => cell.tabBlink) ∘ zelle s.today.month s = fun i => i == s.today.day := by
    funext i
    rw [Function.comp, zelle, beq_self_eq_true, Bool.true_and]
  rw [zellen, List.countP_map, today]
  exact List.count_eq_one_of_mem List.nodup_range (List.mem_range.mpr (by omega))

/-- The page has the cells of its month's days, and reads no others. -/
structure Covered : Prop where
  month : gezeigterMonat args s ≤ anzahlMonate
  days : (zellen (year c) (gezeigterMonat args s) s).length =
    breakLength (breakTime c).year (gezeigterMonat args s)
  reads : ∀ cell ∈ zellen (year c) (gezeigterMonat args s) s, cell.month ≤ anzahlMonate ∧ cell.day ≤ anzahlTage
  today : s.today = dateOf (localClock c) → gezeigterMonat args s = s.today.month →
    (zellen (year c) (gezeigterMonat args s) s).countP (·.tabBlink) = 1

/-- The month of a time has a cell for its day, which blinks once when it is today. -/
structure HasDay (t : UInt32) : Prop where
  days : (zellen (year t) (month t - 1) s).length = breakLength (breakTime t).year (month t - 1)
  day : day t - 1 ≤ letzterTag (year t) (month t - 1)
  today : s.today = dateOf t → (zellen (year t) (month t - 1) s).countP (·.tabBlink) = 1

theorem dateOf_inside (t : UInt32) : (dateOf t).day ≤ letzterTag (year t) (dateOf t).month := by
  have month := dateOf_month_lt t
  have day := (date t).day_lt
  have length : letzterTag (year t) (dateOf t).month + 1 = monthLength (year t) (dateOf t).month := by
    rw [year_offset, letzterTag_length _ _ month, breakLength, monthLoop_length _ _ month]
  rw [year_eq, dateOf_month] at length ⊢
  rw [dateOf_day]
  omega

theorem hasDay (t : UInt32) : HasDay s t where
  days := length_zellen t _ s (dateOf_month_lt t)
  day := dateOf_inside t
  today := by
    intro today
    have inside : s.today.day ≤ letzterTag (year t) s.today.month := today ▸ dateOf_inside t
    have month : month t - 1 = s.today.month := by rw [today, dateOf]
    rw [month]
    exact count_tabBlink s (year t) inside

theorem covered (real : s.today.month < 12) : Covered c args s where
  month := Nat.le_of_lt_succ (gezeigterMonat_lt args s real)
  days := length_zellen c _ s (gezeigterMonat_lt args s real)
  reads := by
    intro cell member
    obtain ⟨i, inside, rfl⟩ := List.mem_map.mp member
    have days := letzterTag_lt (year c) (gezeigterMonat args s)
    have month := gezeigterMonat_lt args s real
    rw [List.mem_range] at inside
    unfold anzahlMonate anzahlTage
    exact ⟨Nat.le_of_lt_succ month, by change i ≤ 30; omega⟩
  today := by
    intro today viewed
    rw [viewed]
    apply count_tabBlink s (year c)
    rw [today, ← year_localClock]
    exact dateOf_inside (localClock c)

end Page

section Text

/-- What a browser makes of the text behind a `<`: a cell with its text, which blinks or not, or no cell. -/
def readCell (piece : Str) : Option (Bool × Str) :=
  if text "div id='tb'>" <+: piece then some (false, piece.drop (text "div id='tb'>").length)
  else if text "div id='tb' class='tabBlink'>" <+: piece then
    some (true, piece.drop (text "div id='tb' class='tabBlink'>").length)
  else none

def readCells (page : Str) : List (Bool × Str) := (page.splitOn 60).filterMap readCell

theorem readCells_append (before after : Str) :
    readCells (before ++ 60 :: after) = readCells before ++ readCells after := by
  rw [readCells, List.splitOn_append_cons_self, List.filterMap_append, readCells, readCells]

theorem readCells_plain (s : Str) (plain : 60 ∉ s) : readCells s = [s].filterMap readCell := by
  rw [readCells, List.splitOn_eq_singleton plain]

theorem readCells_tags (tags : List Str) (plain : ∀ tag ∈ tags, 60 ∉ tag) (before : Str) :
    readCells (before ++ tags.flatMap (60 :: ·)) = readCells before ++ tags.filterMap readCell := by
  induction tags generalizing before with
  | nil => rw [List.flatMap_nil, List.append_nil, List.filterMap_nil, List.append_nil]
  | cons tag later ih =>
    have rest := ih (fun tag member => plain tag (List.mem_cons_of_mem _ member)) (before ++ 60 :: tag)
    rw [List.flatMap_cons, ← List.append_assoc, rest, readCells_append,
      readCells_plain tag (plain tag List.mem_cons_self), List.append_assoc, ← List.filterMap_append,
      List.singleton_append]

theorem dtostrf_plain (x : Float) (width places : Nat) : 60 ∉ dtostrf x width places := by
  rcases dtostrf_numeral x width places with letters | letters | numeral
  · rw [letters]
    decide +kernel
  · rw [letters]
    decide +kernel
  · intro member
    exact absurd (numeral 60 member).2.1 (by decide)

theorem graphRows_plain (slots : Nat → UInt32) : 60 ∉ graphRows slots := by
  have digits (n : Nat) : 60 ∉ decimal n := fun member => absurd (numeral_decimal n 60 member).2.1 (by decide)
  have two (n : Nat) : 60 ∉ twoDigits n := by
    unfold twoDigits
    rw [List.mem_append, not_or]
    refine ⟨?_, digits n⟩
    split
    · decide +kernel
    · decide +kernel
  have fixed : ∀ part ∈ [text "['", text ":", text "', ", text "]", text ",", []], 60 ∉ part := by decide +kernel
  simp only [List.forall_mem_cons] at fixed
  obtain ⟨first, colon, middle, last, comma, -⟩ := fixed
  intro member
  obtain ⟨i, -, row⟩ := List.mem_flatMap.mp member
  split at row
  · simp only [zeit, List.mem_append, first, colon, middle, last, two, digits, false_or] at row
    split at row
    · exact comma row
    · exact absurd row List.not_mem_nil
  · exact absurd row List.not_mem_nil

/-- The text of a cell behind its `<`. -/
def cellTag (blink : Bool) (buf : Str) : Str :=
  text (if blink = true then "div id='tb' class='tabBlink'>" else "div id='tb'>") ++ buf

theorem readCell_cellTag (blink : Bool) (buf : Str) : readCell (cellTag blink buf) = some (blink, buf) := by
  unfold readCell cellTag
  cases blink with
  | false => rw [if_neg Bool.false_ne_true, if_pos (List.prefix_append _ _), List.drop_left]
  | true =>
    have other : ¬text "div id='tb'>" <+: text "div id='tb' class='tabBlink'>" ++ buf := by
      intro same
      have cut := List.prefix_of_prefix_length_le same (List.prefix_append _ buf) (by decide +kernel)
      exact absurd cut (by decide +kernel)
    rw [if_pos rfl, if_neg other, if_pos (List.prefix_append _ _), List.drop_left]

def cellTags (cell : Zelle) : List Str :=
  [cellTag cell.tabBlink cell.buf, text "/div>"] ++
    if (cell.day + 1) % 7 = 0 then [text "/div>\n", text "div id='wk'>"] else []

theorem zelleText_tags (cell : Zelle) : zelleText cell = (cellTags cell).flatMap (60 :: ·) := by
  have opening :
      text (if cell.tabBlink = true then "<div id='tb' class='tabBlink'>" else "<div id='tb'>") ++ cell.buf =
        60 :: cellTag cell.tabBlink cell.buf := by
    have marked : text "<div id='tb' class='tabBlink'>" = 60 :: text "div id='tb' class='tabBlink'>" := by
      decide +kernel
    have unmarked : text "<div id='tb'>" = 60 :: text "div id='tb'>" := by decide +kernel
    unfold cellTag
    split
    · rw [marked, List.cons_append]
    · rw [unmarked, List.cons_append]
  have close : text "</div>" = 60 :: text "/div>" := by decide +kernel
  have week : text "</div>\n<div id='wk'>" = [text "/div>\n", text "div id='wk'>"].flatMap (60 :: ·) := by
    decide +kernel
  rw [zelleText, opening, close, cellTags, List.flatMap_append]
  split
  · rw [week]
    simp only [List.flatMap_cons, List.flatMap_nil, List.append_nil, List.cons_append]
  · simp only [List.flatMap_cons, List.flatMap_nil, List.append_nil, List.cons_append]

theorem cellTags_plain (cell : Zelle) (plain : 60 ∉ cell.buf) (tag : Str) (member : tag ∈ cellTags cell) :
    60 ∉ tag := by
  have own : 60 ∉ cellTag cell.tabBlink cell.buf := by
    unfold cellTag
    rw [List.mem_append, not_or]
    refine ⟨?_, plain⟩
    split
    · decide +kernel
    · decide +kernel
  have fixed : ∀ tag ∈ [text "/div>", text "/div>\n", text "div id='wk'>"], 60 ∉ tag := by decide +kernel
  unfold cellTags at member
  split at member
  · rcases List.mem_cons.mp member with rfl | others
    · exact own
    · exact fixed tag others
  · simp only [List.append_nil, List.mem_cons, List.not_mem_nil, or_false] at member
    rcases member with rfl | rfl
    · exact own
    · exact fixed _ List.mem_cons_self

theorem cellTags_read (cell : Zelle) : (cellTags cell).filterMap readCell = [(cell.tabBlink, cell.buf)] := by
  have fixed : [text "/div>"].filterMap readCell = [] ∧
      [text "/div>\n", text "div id='wk'>"].filterMap readCell = [] := by decide +kernel
  unfold cellTags
  rw [List.filterMap_append, List.filterMap_cons_some (readCell_cellTag _ _), fixed.1]
  split
  · rw [fixed.2, List.append_nil]
  · rfl

def pageHead (j : Nat) : Str :=
  text "<div class='row' style='line-height: 2.5;'><div class='back'><a href='/ertrag.html?monat=" ++ decimal j ++
    text "'>zur&uuml;ck</a></div><div class='monat'>" ++ text (monat.getD j "") ++
    text "</div><div class='next'><div class='next'><a href='/ertrag.html?monat=" ++ decimal (j + 2) ++
    text "'>vor</a></div></div>" ++ text "<div>" ++ text "<div id='wk'>\n"

theorem pageHead_read : ∀ j < 12, readCells (pageHead j) = [] := by decide +kernel

/-- The page shows the cells of its month and no others, each with its own count. -/
theorem page_read (year : Nat) (args : Arguments) (s : Globals) (viewed : gezeigterMonat args s < 12) :
    readCells (handleViewErtrag year args s) =
      (zellen year (gezeigterMonat args s) s).map fun cell => (cell.tabBlink, cell.buf) := by
  have close : text "</div>" = 60 :: text "/div>" := by decide +kernel
  have tail : text "</div>" ++ (text "</div></div>" ++ (graph s ++ text "</div>")) =
      [text "/div>", text "/div>", text "/div>" ++ graph s, text "/div>"].flatMap (60 :: ·) := by
    have double : text "</div></div>" = 60 :: text "/div>" ++ 60 :: text "/div>" := by decide +kernel
    rw [close, double]
    simp only [List.flatMap_cons, List.flatMap_nil, List.append_nil, List.append_assoc, List.cons_append]
  have body : (zellen year (gezeigterMonat args s) s).flatMap zelleText =
      ((zellen year (gezeigterMonat args s) s).flatMap cellTags).flatMap (60 :: ·) := by
    rw [List.flatMap_assoc]
    exact congrArg (List.flatMap · _) (funext zelleText_tags)
  have page : handleViewErtrag year args s = pageHead (gezeigterMonat args s) ++
      ((zellen year (gezeigterMonat args s) s).flatMap cellTags ++
        [text "/div>", text "/div>", text "/div>" ++ graph s, text "/div>"]).flatMap (60 :: ·) := by
    rw [List.flatMap_append, ← body, ← tail, handleViewErtrag, pageHead]
    simp only [List.append_assoc]
  have closing : readCell (text "/div>" ++ graph s) = none := by
    have slash : text "/div>" = 47 :: text "div>" := by decide +kernel
    have cell : text "div id='tb'>" = 100 :: text "iv id='tb'>" := by decide +kernel
    have blinking : text "div id='tb' class='tabBlink'>" = 100 :: text "iv id='tb' class='tabBlink'>" := by
      decide +kernel
    unfold readCell
    rw [slash, cell, blinking, List.cons_append, if_neg, if_neg]
    · exact fun same => absurd (List.cons_prefix_cons.mp same).1 (by decide)
    · exact fun same => absurd (List.cons_prefix_cons.mp same).1 (by decide)
  have quiet : readCell (text "/div>") = none := by decide +kernel
  have bytes : 60 ∉ text "/div>" := by decide +kernel
  rw [page, readCells_tags, pageHead_read _ viewed, List.nil_append, List.filterMap_append, List.filterMap_flatMap]
  · simp only [cellTags_read, List.filterMap_cons, closing, quiet, List.filterMap_nil, List.append_nil]
    exact List.map_eq_flatMap.symm
  · intro tag member
    rcases List.mem_append.mp member with cells | closed
    · obtain ⟨cell, inside, own⟩ := List.mem_flatMap.mp cells
      obtain ⟨i, -, rfl⟩ := List.mem_map.mp inside
      exact cellTags_plain _ (dtostrf_plain _ 1 1) tag own
    · simp only [List.mem_cons, List.not_mem_nil, or_false] at closed
      rcases closed with rfl | rfl | rfl | rfl
      · exact bytes
      · exact bytes
      · exact fun member => (List.mem_append.mp member).elim bytes (graphRows_plain _)
      · exact bytes

end Text

section Runs

theorem today_step (s : Globals) (event : Event) (real : s.today.month < 12) :
    (step s event).today.month < 12 := by
  cases event with
  | pulse => exact real
  | restart boot =>
    rw [step, setup_today]
    exact dateOf_month_lt _
  | minute c io =>
    rw [step, everyMinute_today]
    split
    · exact dateOf_month_lt _
    · exact real
  | request isFile tmp request boot =>
    rw [step_request]
    split
    · rw [setup_today]
      exact dateOf_month_lt _
    · rw [handleRequest_today]
      exact real

theorem today_throughout (boot : Boot) (flash : ByteMemory.Memory) (spiOk : Bool) (files : Spiffs.Files)
    (events : List Event) :
    Runs.Throughout step (fun s => s.today.month < 12) (setup boot (powerOn flash spiOk files)) events := by
  have start : (setup boot (powerOn flash spiOk files)).today.month < 12 := by
    rw [setup_today]
    exact dateOf_month_lt _
  have keeps (s : Globals) (event : Event) (real : s.today.month < 12) (_ : True) :
      (step s event).today.month < 12 :=
    today_step s event real
  have always : Runs.Along step (fun _ _ => True) (setup boot (powerOn flash spiOk files)) events :=
    Runs.Along.of_forall (fun _ _ => trivial) events _
  exact Runs.throughout_of_invariant keeps events _ start always

/-- In every state of every run, the page covers the calendar: for every time, and for every clock and request. -/
theorem yield_page_covers (boot : Boot) (flash : ByteMemory.Memory) (spiOk : Bool) (files : Spiffs.Files)
    (events : List Event) :
    Runs.Throughout step (fun s => (∀ t, HasDay s t) ∧ ∀ c args, Covered c args s)
      (setup boot (powerOn flash spiOk files)) events :=
  (today_throughout boot flash spiOk files events).mono fun s real =>
    ⟨hasDay s, fun c args => covered c args s real⟩

/-- In every state of every run, what a browser reads off the page is the counts of the month in question in kWh, a
cell for each day that the calendar gives it, and today's blinks. -/
theorem yield_page_shows (boot : Boot) (flash : ByteMemory.Memory) (spiOk : Bool) (files : Spiffs.Files)
    (events : List Event) :
    Runs.Throughout step (fun s => ∀ c args, readCells (handleViewErtrag (year c) args s) =
      (List.range (breakLength (breakTime c).year (gezeigterMonat args s))).map fun i =>
        (gezeigterMonat args s == s.today.month && i == s.today.day,
          dtostrf ((s.tagesCounter (gezeigterMonat args s) i).toFloat / 1000) 1 1))
      (setup boot (powerOn flash spiOk files)) events := by
  refine (today_throughout boot flash spiOk files events).mono fun s real c args => ?_
  have viewed := gezeigterMonat_lt args s real
  have length := letzterTag_length (breakTime c).year (gezeigterMonat args s) viewed
  rw [page_read _ _ _ viewed, zellen, List.map_map, year_offset, length]
  rfl

end Runs
end EspLog.YieldPage

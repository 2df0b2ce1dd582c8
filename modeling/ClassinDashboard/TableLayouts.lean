import ClassinDashboard.DatedSlots
import ClassinDashboard.TableIsolation

/-!
The layouts of a row: the slot as a range in one cell, the one of the date or the one of the start, or its
two readings in cells of their own. They give a lesson the same times only where the range is read with
minutes on both sides and no marker moves an hour, or where what it leaves out makes no difference.
-/

namespace ClassinDashboard

open Py Py.Regex

/-! ### The rows -/

/-- The start and the end of the lesson that a row states. -/
def rowSpan (p : Platform) (cells : RowCells) (year : Nat) : Except PyError (Option (Moment × Moment)) :=
  match parseDate (cellOf cells .date) year with
  | none => .ok none
  | some day => (rowTimes p cells day).map (Option.map fun times => (times.1, times.2.1))

/-- The slot behind the date in one cell. -/
def dateRow (others : RowCells) (day : Date) (first last : ClockText) : RowCells :=
  others ++ [(.date, day.isoformat.toList ++ ' ' :: slotText first last), (.start, []), (.end, [])]

/-- The slot in the cell of the start. -/
def startRow (others : RowCells) (day : Date) (first last : ClockText) : RowCells :=
  others ++ [(.date, day.isoformat.toList), (.start, slotText first last), (.end, [])]

/-- The readings in cells of their own. -/
def splitRow (others : RowCells) (day : Date) (first last : ClockText) : RowCells :=
  others ++ [(.date, day.isoformat.toList), (.start, first.text), (.end, last.text)]

/-- A row with the slot in one cell gives the lesson the times of the row with two. -/
def LayoutsAgree (p : Platform) (others : RowCells) (year : Nat) (day : Date) (first last : ClockText) :
    Prop :=
  rowSpan p (dateRow others day first last) year = rowSpan p (splitRow others day first last) year ∧
    rowSpan p (startRow others day first last) year = rowSpan p (splitRow others day first last) year

section Rows

variable {p : Platform} {cells others : RowCells} {year : Nat} {day : Date} {first last : ClockText}

/-- The lesson that a row enters has these times. -/
theorem rowSpan_of_rowEntry {entry : RowEntry} (h : rowEntry p cells year = .ok (some entry)) :
    rowSpan p cells year = .ok (some (entry.startAt, entry.endAt)) := by
  unfold rowEntry at h
  unfold rowSpan rowTimes
  cases hday : parseDate (cellOf cells .date) year with
  | none =>
      rw [hday] at h
      cases h
  | some day =>
      rw [hday] at h
      cases hslot : rowSlot p cells with
      | none =>
          simp only [hslot] at h
          cases h
      | some slot =>
          simp only [hslot] at h ⊢
          cases htimes : slotTimes day slot with
          | error e =>
              rw [htimes] at h
              cases h
          | ok times =>
              rw [htimes] at h
              cases hwork : rowHomework p cells year with
              | error e =>
                  rw [hwork] at h
                  cases h
              | ok homework =>
                  rw [hwork] at h
                  cases h
                  rfl

theorem cellOf_layout (others : RowCells) (date start stop : Text) :
    cellOf (others ++ [(.date, date), (.start, start), (.end, stop)]) .date = date ∧
      cellOf (others ++ [(.date, date), (.start, start), (.end, stop)]) .start = start ∧
        cellOf (others ++ [(.date, date), (.start, start), (.end, stop)]) .end = stop := by
  simp only [cellOf, List.reverse_append, List.reverse_cons, List.reverse_nil, List.nil_append,
    List.cons_append]
  exact ⟨rfl, rfl, rfl⟩

/-- The moments of two readings of a day. -/
def spanOf (day : Date) (first last : TimeReading) : Except PyError (Option (Moment × Moment)) := do
  let first ← academyTime first
  let last ← academyTime last
  pure (some (⟨day, first⟩, ⟨day, last⟩))

theorem rowSpan_of_slot {first last : TimeReading} (hday : parseDate (cellOf cells .date) year = some day)
    (hslot : rowSlot p cells = some (first, some last)) : rowSpan p cells year = spanOf day first last := by
  simp only [rowSpan, hday, rowTimes, hslot, slotTimes, spanOf]
  cases academyTime first with
  | error e => rfl
  | ok start => cases academyTime last <;> rfl

/-- A row with cells of their own has the times of the two readings. -/
theorem rowSpan_splitRow (hcase : DashCase p) :
    rowSpan p (splitRow others day first last) year = spanOf day (first.reading p) (last.reading p) := by
  obtain ⟨hdate, hstart, hend⟩ := cellOf_layout others day.isoformat.toList first.text last.text
  have hday := parseDate_dated day [] year
  rw [List.append_nil] at hday
  refine rowSpan_of_slot (by rw [splitRow, hdate, hday]) ?_
  simp only [rowSlot, splitRow, hdate, hstart, hend, readTimeRange_date hcase.toWordCase,
    readTimeRange_text, ClockText.readClock_text _ hcase.toPlainCase, Option.none_or, Option.map_some]

/-- A range in one cell is read alike behind the date and in the cell of the start. -/
theorem rowSpan_range (hcase : DashCase p) {start stop : TimeReading}
    (h : readTimeRange p (slotText first last) false = some (start, stop)) :
    rowSpan p (dateRow others day first last) year = spanOf day start stop ∧
      rowSpan p (startRow others day first last) year = spanOf day start stop := by
  constructor
  · obtain ⟨hdate, hstart, -⟩ := cellOf_layout others
      (day.isoformat.toList ++ ' ' :: slotText first last) [] []
    refine rowSpan_of_slot (by rw [dateRow, hdate, parseDate_dated]) ?_
    simp only [rowSlot, dateRow, hdate, readTimeRange_dateSlot hcase.toWordCase, h, Option.some_or]
  · obtain ⟨hdate, hstart, -⟩ := cellOf_layout others day.isoformat.toList (slotText first last) []
    have hday := parseDate_dated day [] year
    rw [List.append_nil] at hday
    refine rowSpan_of_slot (by rw [startRow, hdate, hday]) ?_
    simp only [rowSlot, startRow, hdate, hstart, readTimeRange_date hcase.toWordCase, h, Option.none_or]

/-- Without a range in it the cell of the date states no start. -/
theorem rowSpan_dateRow_none (hcase : DashCase p)
    (h : readTimeRange p (slotText first last) false = none) :
    rowSpan p (dateRow others day first last) year = .ok none := by
  obtain ⟨hdate, hstart, -⟩ := cellOf_layout others
    (day.isoformat.toList ++ ' ' :: slotText first last) [] []
  simp only [rowSpan, rowTimes, rowSlot, dateRow, hdate, hstart, parseDate_dated,
    readTimeRange_dateSlot hcase.toWordCase, h, readTimeRange_nil, readClock_nil, Option.none_or,
    Option.map_none]
  rfl

end Rows

/-! ### Times -/

section Times

variable {day : Date} {a b c d : TimeReading}

/-- The same time of the day. -/
def SameTime (a b : TimeReading) : Prop := a.academyHour = b.academyHour ∧ a.minute = b.minute

theorem academyHour_lt (a : TimeReading) : a.academyHour < 24 := Nat.mod_lt _ (by decide)

theorem academyTime_eq (h : a.minute < 60) :
    academyTime a = .ok ⟨a.academyHour, a.minute, academyHour_lt a, h⟩ := by
  simp only [academyTime, Clock.of?, academyHour_lt, h, and_self, ↓reduceDIte]

theorem spanOf_eq_iff (ha : a.minute < 60) (hb : b.minute < 60) (hc : c.minute < 60)
    (hd : d.minute < 60) : spanOf day a b = spanOf day c d ↔ SameTime a c ∧ SameTime b d := by
  simp only [spanOf, academyTime_eq ha, academyTime_eq hb, academyTime_eq hc, academyTime_eq hd, bind,
    Except.bind, pure, Except.pure, Except.ok.injEq, Option.some_inj, Prod.mk.injEq, Moment.mk.injEq,
    true_and]
  rw [Clock.mk.injEq, Clock.mk.injEq]
  rfl

/-- Two flags move an hour alike: the same flag, or an hour that neither moves. -/
def SameHour (hour : Nat) (shift shift' : Bool) : Prop := 1 ≤ hour → hour ≤ 9 → shift = shift'

theorem academyHour_eq_iff {hour minute minute' : Nat} {shift shift' : Bool} :
    (⟨hour, minute, shift⟩ : TimeReading).academyHour =
      (⟨hour, minute', shift'⟩ : TimeReading).academyHour ↔ SameHour hour shift shift' := by
  simp only [TimeReading.academyHour, SameHour]
  by_cases hmoves : 1 ≤ hour ∧ hour ≤ 9
  · obtain ⟨hlow, hhigh⟩ := hmoves
    have hmoved : (hour + 12) % 24 ≠ hour % 24 := by omega
    cases shift <;> cases shift' <;> simp [hlow, hhigh, hmoved, hmoved.symm]
  · have hstays (flag : Bool) : (flag && decide (1 ≤ hour) && decide (hour ≤ 9)) = false := by
      simp only [Bool.and_assoc, Bool.and_eq_false_iff, decide_eq_false_iff_not]
      omega
    rw [hstays, hstays]
    exact iff_of_true rfl fun hlow hhigh => absurd ⟨hlow, hhigh⟩ hmoves

/-- What is read as hour zero is midnight. -/
theorem academyHour_eq_zero {hour minute minute' : Nat} {shift shift' : Bool} :
    (⟨hour, minute, shift⟩ : TimeReading).academyHour = (⟨0, minute', shift'⟩ : TimeReading).academyHour ↔
      hour % 24 = 0 := by
  have hzero : (⟨0, minute', shift'⟩ : TimeReading).academyHour = 0 := by cases shift' <;> rfl
  rw [hzero]
  simp only [TimeReading.academyHour]
  split
  · rename_i hmoves
    simp only [Bool.and_eq_true, decide_eq_true_eq] at hmoves
    omega
  · rfl

end Times

/-! ### Where the layouts agree -/

section Agreement

variable (p : Platform) (first last : ClockText)

/-- Either reading says morning; a range of hours heeds the marker for both. -/
def slotMorning : Bool := hasAmMarker p first.text || hasAmMarker p last.text

/-- The range means what its readings mean by themselves. -/
inductive Kept : Prop
  /-- Both have minutes, and no marker moves an hour that the range leaves where it is. -/
  | minutes (pair : ClockPair first last) (start : SameHour first.hour.value (first.shift p) false)
      (stop : SameHour last.hour.value (last.shift p) false)
  /-- Two full hours, each moved by the markers of both as by its own. -/
  | hours (pair : HourPair first last) (full : last.minutes = 0)
      (start : SameHour first.hour.value (first.shift p) (!slotMorning p first last))
      (stop : SameHour last.hour.value (last.shift p) (!slotMorning p first last))
  /-- The minutes are taken for the hour, which at midnight they are. -/
  | midnight (pair : MinutePair first last) (other : ¬ClockPair first last)
      (hour : first.hour.value % 24 = 0) (start : first.minutes = 0) (full : last.minutes = 0)
      (stop : SameHour last.hour.value (last.shift p) (!slotMorning p first last))

variable {p first last} {others : RowCells} {year : Nat} {day : Date}

theorem ClockText.minutes_lt (clock : ClockText) : clock.minutes < 60 := by
  unfold minutes
  cases clock.minute with
  | none => decide
  | some minute => exact minute.lt

/-- Where a range is read, the layouts agree exactly if it has the times of the two readings. -/
theorem layoutsAgree_of_range (hcase : DashCase p) {start stop : TimeReading}
    (h : readTimeRange p (slotText first last) false = some (start, stop)) (hstart : start.minute < 60)
    (hstop : stop.minute < 60) : LayoutsAgree p others year day first last ↔
      SameTime start (first.reading p) ∧ SameTime stop (last.reading p) := by
  rw [LayoutsAgree, (rowSpan_range hcase h).1, (rowSpan_range hcase h).2, rowSpan_splitRow hcase, and_self,
    spanOf_eq_iff hstart hstop first.minutes_lt last.minutes_lt]

theorem HourPair.minute_ne {minute : MinuteText} (h : HourPair first last) :
    first.minute ≠ some minute := by
  rw [h.2.1]
  exact nofun

/-- A range in one cell gives the times of two cells exactly where it means what its readings mean. -/
theorem layoutsAgree_iff (hcase : DashCase p) (others : RowCells) (year : Nat) (day : Date)
    (first last : ClockText) :
    LayoutsAgree p others year day first last ↔ Kept p first last := by
  have hmorning := hasAmMarker_slotText hcase first last
  by_cases hclock : ClockPair first last
  · rw [layoutsAgree_of_range hcase (readTimeRange_clockPair hclock) first.minutes_lt last.minutes_lt]
    constructor
    · rintro ⟨⟨hstart, -⟩, hstop, -⟩
      exact .minutes hclock (academyHour_eq_iff.mp hstart.symm) (academyHour_eq_iff.mp hstop.symm)
    · intro h
      cases h with
      | minutes pair start stop =>
          exact ⟨⟨(academyHour_eq_iff.mpr start).symm, rfl⟩, (academyHour_eq_iff.mpr stop).symm, rfl⟩
      | hours pair =>
          obtain ⟨minute, hminute, -⟩ := hclock.2.1
          exact absurd hminute pair.minute_ne
      | midnight pair other => exact absurd hclock other
  by_cases hminutes : MinutePair first last
  · rw [layoutsAgree_of_range hcase (readTimeRange_minutePair hclock hminutes)
      (Nat.zero_lt_succ 59) (Nat.zero_lt_succ 59), hmorning]
    constructor
    · rintro ⟨⟨hstart, hzero⟩, hstop, hfull⟩
      have hzero : first.minutes = 0 := hzero.symm
      rw [hzero] at hstart
      exact .midnight hminutes hclock (academyHour_eq_zero.mp hstart.symm) hzero hfull.symm
        (academyHour_eq_iff.mp hstop.symm)
    · intro h
      cases h with
      | minutes pair => exact absurd pair hclock
      | hours pair =>
          obtain ⟨minute, hminute, -⟩ := hminutes.2.1
          exact absurd hminute pair.minute_ne
      | midnight pair other hour start full stop =>
          refine ⟨⟨?_, start.symm⟩, (academyHour_eq_iff.mpr stop).symm, full.symm⟩
          rw [start]
          exact (academyHour_eq_zero.mpr hour).symm
  by_cases hhours : HourPair first last
  · rw [layoutsAgree_of_range hcase (readTimeRange_hourPair hhours) (Nat.zero_lt_succ 59)
      (Nat.zero_lt_succ 59), hmorning]
    constructor
    · rintro ⟨⟨hstart, -⟩, hstop, hfull⟩
      exact .hours hhours hfull.symm (academyHour_eq_iff.mp hstart.symm) (academyHour_eq_iff.mp hstop.symm)
    · intro h
      cases h with
      | minutes pair => exact absurd pair hclock
      | hours pair full start stop =>
          refine ⟨⟨(academyHour_eq_iff.mpr start).symm, ?_⟩, (academyHour_eq_iff.mpr stop).symm, full.symm⟩
          exact (show first.minutes = 0 by rw [ClockText.minutes, hhours.2.1]; rfl).symm
      | midnight pair => exact absurd pair hminutes
  · have hnone : rowSpan p (dateRow others day first last) year = .ok none :=
      rowSpan_dateRow_none hcase (readTimeRange_eq_none hclock hminutes hhours)
    constructor
    · rintro ⟨hdate, -⟩
      rw [hnone, rowSpan_splitRow hcase, spanOf, academyTime_eq first.minutes_lt,
        academyTime_eq last.minutes_lt] at hdate
      cases hdate
    · intro h
      cases h with
      | minutes pair => exact absurd pair hclock
      | hours pair => exact absurd pair hhours
      | midnight pair => exact absurd pair hminutes

end Agreement

theorem plain_dashCase : DashCase .plain where
  toWordCase := plain_wordCase
  dashes left right := by
    have hplain (text : Text) : lower .plain text = text := String.toList_ofList
    rw [hplain, hplain, hplain]

/-- An hour with full minutes, the words around it given. -/
def oClock (lead : Words) (hour : ShortNumber) : ClockText where
  lead := lead
  hour := hour
  space := ⟨[], by decide⟩
  minute := some ⟨true, ⟨[], by decide⟩, ⟨"00".toList, by decide, by decide, by decide⟩, none,
    by decide⟩
  tail := ⟨[], by decide⟩

def noWords : Words := ⟨[], by decide⟩

def afternoonWord : Words := ⟨"오후 ".toList, by decide⟩

/-- 6 May 2026. -/
def sixthOfMay : Date := .sixthOfMay2026

/-- `19:00-21:00` -/
theorem evening_layoutsAgree :
    LayoutsAgree .plain [] 2026 sixthOfMay
      (oClock noWords ⟨"19".toList, by decide, by decide, by decide⟩)
      (oClock noWords ⟨"21".toList, by decide, by decide, by decide⟩) := by
  have hlate (hour : ShortNumber) (h : 10 ≤ hour.value) (shift shift' : Bool) :
      SameHour hour.value shift shift' := fun _ hhigh => absurd (h.trans hhigh) (by decide)
  refine (layoutsAgree_iff plain_dashCase [] 2026 sixthOfMay _ _).mpr (.minutes ?_ ?_ ?_)
  · exact ⟨⟨by decide, by decide⟩, ⟨_, rfl, rfl⟩, ⟨_, rfl, rfl⟩⟩
  · exact hlate _ (by decide) _ _
  · exact hlate _ (by decide) _ _

/-- A marker between the readings of one cell hides the range: `오후 7:00-오후 9:00` states no lesson behind
the date, and one from 19:00 to 21:00 in cells of their own. -/
theorem afternoon_layouts_disagree :
    ¬∀ p, DashCase p → ∀ others year day first last, LayoutsAgree p others year day first last := by
  intro h
  let seven := oClock afternoonWord ⟨"7".toList, by decide, by decide, by decide⟩
  let nine := oClock afternoonWord ⟨"9".toList, by decide, by decide, by decide⟩
  have hapart : ¬Adjoining seven nine := fun hadjoining => by
    have hword := hadjoining.2 '오' List.mem_cons_self
    exact absurd hword (by decide)
  have hnone : readTimeRange .plain (slotText seven nine) false = none :=
    readTimeRange_eq_none (fun hpair => hapart hpair.1) (fun hpair => hapart hpair.1)
      fun hpair => hapart hpair.1
  obtain ⟨hdate, -⟩ := h .plain plain_dashCase [] 2026 sixthOfMay seven nine
  rw [rowSpan_dateRow_none plain_dashCase hnone, rowSpan_splitRow plain_dashCase, spanOf,
    academyTime_eq seven.minutes_lt, academyTime_eq nine.minutes_lt] at hdate
  cases hdate

end ClassinDashboard

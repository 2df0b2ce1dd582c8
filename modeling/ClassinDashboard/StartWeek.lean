import ClassinDashboard.LineLessons
import ClassinDashboard.WeekdayDates

/-!
A line with weekdays and a stated start. The start names its week: the lessons are counted from the
Monday of that week, so that a weekday before the start gives a lesson before it.
-/

namespace ClassinDashboard

open Py Py.Regex

section Pattern

variable {line : Text} {weekdays : List Nat} {monday : Date} {dates : List Date}

/-- The dates of a pattern leave nothing out before the last of them. -/
theorem PatternDates.closed (h : PatternDates line weekdays monday dates) {day later : Date}
    (hmonday : monday.ordinal ≤ day.ordinal) (hday : day.weekday ∈ weekdays) (hlater : later ∈ dates)
    (hle : day.ordinal ≤ later.ordinal) : day ∈ dates := by
  have hwhole (weeks : Nat) (hweeks : statedWeeks line = some weeks ∨
      (statedWeeks line = none ∧ statedSessions line = none ∧ weeks = 4)) : day ∈ dates := by
    obtain ⟨_, hmem⟩ := h.allWeeks weeks hweeks
    have hlt := ((hmem later).mp hlater).2.1
    exact (hmem day).mpr ⟨hmonday, by omega, hday⟩
  cases hweeks : statedWeeks line with
  | some weeks => exact hwhole weeks (.inl hweeks)
  | none =>
      cases hsessions : statedSessions line with
      | none => exact hwhole 4 (.inr ⟨hweeks, hsessions, rfl⟩)
      | some sessions => exact (h.firstSessions sessions hweeks hsessions).2 day later hmonday hday hlater hle

/-- The Monday of the week of a day. -/
theorem mondayOf_eq (start : Date) :
    ∃ monday, mondayOf start = .ok monday ∧ monday.ordinal + start.weekday = start.ordinal := by
  have hpos := start.pos
  have hle := start.le_max
  have hweekday : start.weekday = (start.ordinal + 6) % 7 := rfl
  have hwithin : 0 < start.ordinal + -(start.weekday : Int) ∧
      start.ordinal + -(start.weekday : Int) ≤ maxOrdinal := ⟨by omega, by omega⟩
  obtain ⟨monday, hmonday⟩ := addDays_ok_iff.mpr hwithin
  refine ⟨monday, hmonday, ?_⟩
  have hordinal := ordinal_addDays hmonday
  omega

/-- A day from a Monday on is its weekday beyond it, or more. -/
theorem monday_add_weekday_le {day : Date} (hmonday : monday.weekday = 0)
    (h : monday.ordinal ≤ day.ordinal) : monday.ordinal + day.weekday ≤ day.ordinal := by
  simp only [Date.weekday] at hmonday ⊢
  omega

end Pattern

/-- The lessons of a line whose weeks are counted from the week of its start. -/
structure FromStartWeek (line : Text) (start : Date) (days : List Date) : Prop where
  /-- No lesson is before the Monday of the week of the start. -/
  fromMonday : ∀ day ∈ days, start.ordinal ≤ day.ordinal + start.weekday
  /-- None is before the start exactly when no listed weekday is. -/
  fromStart : (∀ day ∈ days, start.ordinal ≤ day.ordinal) ↔
    days = [] ∨ ∀ weekday ∈ weekdaysIn line, start.weekday ≤ weekday
  /-- A number of sessions counts when there is no number of weeks. -/
  sessions : ∀ k, statedWeeks line = none → statedSessions line = some k → days.length = k
  weeks : ∀ n, statedWeeks line = some n → days.length = n * (weekdaysIn line).length

theorem fromStartWeek_of_pattern {line : Text} {start monday : Date} {days : List Date}
    (hmonday : mondayOf start = .ok monday) (hordinal : monday.ordinal + start.weekday = start.ordinal)
    (h : PatternDates line (weekdaysIn line) monday days) : FromStartWeek line start days where
  fromMonday day hday := by
    have := h.fromMonday day hday
    omega
  fromStart := by
    constructor
    · intro hall
      refine or_iff_not_imp_left.mpr fun hdays weekday hweekday => ?_
      obtain ⟨later, rest, rfl⟩ := List.exists_cons_of_ne_nil hdays
      have hlater := hall later List.mem_cons_self
      by_contra hearly
      -- the listed weekday of the first week is before the start, and is not left out
      have hle := start.le_max
      have hpos := monday.pos
      let day : Date := ⟨monday.ordinal + weekday, by omega, by omega⟩
      have hday : day.weekday = weekday := by
        have hlt := (weekdaysIn_list line).lt_seven weekday hweekday
        have hmod : day.weekday = weekday % 7 := weekday_of_monday (mondayOf_weekday hmonday) rfl
        rw [hmod, Nat.mod_eq_of_lt hlt]
      have hmem : day ∈ later :: rest := h.closed (Nat.le_add_right _ _) (hday.symm ▸ hweekday)
        List.mem_cons_self (show monday.ordinal + weekday ≤ later.ordinal by omega)
      have hstart : start.ordinal ≤ monday.ordinal + weekday := hall day hmem
      omega
    · rintro (rfl | hall) day hday
      · cases hday
      · have hweekday := hall day.weekday (h.onWeekdays day hday)
        have hle := monday_add_weekday_le (mondayOf_weekday hmonday) (h.fromMonday day hday)
        omega
  sessions k hweeks hsessions := (h.firstSessions k hweeks hsessions).1
  weeks n hweeks := (h.allWeeks n (.inl hweeks)).1

/-! ### The lines of a text -/

/-- A line of weekdays from a stated start, without the n-th week of a month. -/
structure StatesStart (line : Text) (today start : Date) : Prop where
  notHomework : isHomeworkLine line = false
  weekdays : weekdaysIn line ≠ []
  noNthWeek : (search nthWeek line).isSome = false
  start : parseDate line today.year = some start

instance (line : Text) (today start : Date) : Decidable (StatesStart line today start) :=
  decidable_of_iff (isHomeworkLine line = false ∧ weekdaysIn line ≠ [] ∧
      (search nthWeek line).isSome = false ∧ parseDate line today.year = some start)
    ⟨fun ⟨hhomework, hweekdays, hnth, hstart⟩ => ⟨hhomework, hweekdays, hnth, hstart⟩,
      fun ⟨hhomework, hweekdays, hnth, hstart⟩ => ⟨hhomework, hweekdays, hnth, hstart⟩⟩

section Lines

variable {p : Platform} {known : List Text} {line : Text} {today start : Date}

theorem StatesStart.isCourseLine (h : StatesStart line today start) :
    isCourseLine p line today = true := by
  have hempty : line.isEmpty = false := by
    rw [Bool.eq_false_iff]
    intro hempty
    exact h.weekdays (by rw [List.isEmpty_iff.mp hempty]; decide)
  simp [ClassinDashboard.isCourseLine, hempty, h.notHomework, isScheduleLine, h.weekdays]

theorem StatesStart.anchor (h : StatesStart line today start) :
    anchorMonday line today = (mondayOf start).map fun monday => (monday, []) := by
  have hnth := Option.not_isSome_iff_eq_none.mp (Bool.eq_false_iff.mp h.noNthWeek)
  simp only [anchorMonday, hnth, h.start]

/-- A line that was read had times and dates. -/
theorem exists_of_readLine {state state' : HeuristicState} {rawLine : Text}
    (h : readLine p known today state rawLine = .ok state')
    (hline : isCourseLine p (strip rawLine) today = true) : ∃ span dates notes,
      parseTimeRange p (strip rawLine) true = .ok span ∧
      lessonDates (strip rawLine) (weekdaysIn (strip rawLine)) today = .ok (dates, notes) := by
  simp only [ClassinDashboard.isCourseLine, Bool.and_eq_true, Bool.not_eq_true'] at hline
  unfold readLine at h
  simp only [hline, Bool.false_eq_true, ↓reduceIte] at h
  obtain ⟨span, hspan, h⟩ := bind_eq_ok.mp h
  obtain ⟨⟨dates, notes⟩, hdates, h⟩ := bind_eq_ok.mp h
  exact ⟨span, dates, notes, hspan, hdates⟩

/-- The dates of the lessons of a line that states its start. -/
theorem lineLessons_fromStartWeek {state state' : HeuristicState} {rawLine : Text}
    (h : readLine p known today state rawLine = .ok state')
    (hstart : StatesStart (strip rawLine) today start) :
    FromStartWeek (strip rawLine) start ((lineLessons p today rawLine).map (·.1.day)) := by
  obtain ⟨span, dates, notes, hspan, hdates⟩ := exists_of_readLine h hstart.isCourseLine
  obtain ⟨monday, hmonday, hordinal⟩ := mondayOf_eq start
  have hdays : (lineLessons p today rawLine).map (·.1.day) = dates := by
    simp [lineLessons, hstart.isCourseLine, hspan, hdates, Function.comp_def]
  have hanchor : anchorMonday (strip rawLine) today = .ok (monday, []) := by
    rw [hstart.anchor, hmonday]
    rfl
  rw [hdays]
  exact fromStartWeek_of_pattern hmonday hordinal (patternDates_of_ok hstart.weekdays hanchor hdates)

end Lines

/-- The lessons of a line with weekdays are counted from the week of the start that it states. -/
theorem lessons_fromStartWeek {p : Platform} {text : Text} {known : List Text} {today : Date}
    {courses : List ParsedCourse} {assumptions : List Text}
    (h : heuristicParse p text known today = .ok (courses, assumptions)) :
    courses.map ParsedCourse.spans = (splitLines text).filterMap (lineCourse p today) ∧
      ∀ rawLine ∈ splitLines text, ∀ start, StatesStart (strip rawLine) today start →
        FromStartWeek (strip rawLine) start ((lineLessons p today rawLine).map (·.1.day)) := by
  refine ⟨heuristicParse_spans h, fun rawLine hline start hstart => ?_⟩
  obtain ⟨state, hstate, _⟩ := bind_eq_ok.mp h
  obtain ⟨before, after, hread⟩ := exists_step_of_mem hstate hline
  exact lineLessons_fromStartWeek hread hstart

/-- Wednesday 6 May 2026 is the stated start of a course on Mondays and Wednesdays. -/
def fromWednesday : Text := "수학 월/수 19:00-21:00 2026-05-06 3회".toList

theorem fromWednesday_fromStartWeek : ∃ courses assumptions,
    heuristicParse .plain fromWednesday [] ⟨739707, by decide, by decide⟩ =
      .ok (courses, assumptions) ∧
    FromStartWeek (strip fromWednesday) ⟨739742, by decide, by decide⟩
      ((lineLessons .plain ⟨739707, by decide, by decide⟩ fromWednesday).map (·.1.day)) := by
  have hreturns : (heuristicParse .plain fromWednesday []
      ⟨739707, by decide, by decide⟩).toOption.isSome = true := by decide
  obtain ⟨⟨courses, assumptions⟩, h⟩ := exists_ok hreturns
  exact ⟨courses, assumptions, h,
    (lessons_fromStartWeek h).2 fromWednesday (by decide) _ (by decide)⟩

/-- Two weeks of two lessons, of which the line asks for three. -/
def threeInTwoWeeks : Text := "수학 월/수 19:00-21:00 2026-05-04 2주 3회".toList

/-- The first lesson of the one line is on the Monday before its start, and the other line, which
starts on a Monday, has four lessons. -/
theorem lesson_before_start :
    (∃ courses assumptions, heuristicParse .plain fromWednesday [] ⟨739707, by decide, by decide⟩ =
        .ok (courses, assumptions) ∧
      StatesStart (strip fromWednesday) ⟨739707, by decide, by decide⟩ ⟨739742, by decide, by decide⟩ ∧
      ∃ course ∈ courses, ∃ lesson ∈ course.lessons, lesson.startAt.day.ordinal < 739742) ∧
    ∃ courses assumptions, heuristicParse .plain threeInTwoWeeks [] ⟨739707, by decide, by decide⟩ =
        .ok (courses, assumptions) ∧
      StatesStart (strip threeInTwoWeeks) ⟨739707, by decide, by decide⟩
        ⟨739740, by decide, by decide⟩ ∧
      statedSessions (strip threeInTwoWeeks) = some 3 ∧
      (courses.flatMap fun course => course.lessons).length = 4 := by
  constructor
  · have hearly : (heuristicParse .plain fromWednesday []
        ⟨739707, by decide, by decide⟩).toOption.any (fun result => result.1.any fun course =>
          course.lessons.any fun lesson => lesson.startAt.day.ordinal < 739742) = true := by
      decide
    obtain ⟨⟨courses, assumptions⟩, h, hany⟩ := exists_ok_of_any hearly
    simp only [List.any_eq_true, decide_eq_true_eq] at hany
    exact ⟨courses, assumptions, h, by decide, hany⟩
  · have hfour : (heuristicParse .plain threeInTwoWeeks []
        ⟨739707, by decide, by decide⟩).toOption.any (fun result =>
          (result.1.flatMap fun course => course.lessons).length = 4) = true := by decide
    obtain ⟨⟨courses, assumptions⟩, h, hlength⟩ := exists_ok_of_any hfour
    exact ⟨courses, assumptions, h, by decide, by decide, of_decide_eq_true hlength⟩

end ClassinDashboard

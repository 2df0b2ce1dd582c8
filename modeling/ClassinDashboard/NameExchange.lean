import ClassinDashboard.LineTimes
import ClassinDashboard.WeekPhrases

/-!
The names of a schedule line. A line is a course, a teacher and a schedule, and its times are those of
the schedule alone unless the names take part in them: by what they say themselves, or by a phrase that
begins in them and ends in the schedule.
-/

namespace ClassinDashboard

open Py Py.Regex

/-! ### What follows the head of a line -/

/-- Nothing in the head of a line takes part in its times. -/
structure PlainHead (p : Platform) (head : Text) : Prop where
  notHomework : isHomeworkLine head = false
  unmarked : hasAmMarker p head = false
  /-- Not even with a weekday behind it does it name weekdays. -/
  noWeekdays : weekdaysIn (head ++ " 월".toList) = []
  /-- Nor an n-th week with a week behind it. -/
  noWeek : (search nthWeek (head ++ " 주".toList)).isSome = false
  noWeekWord : ∀ word ∈ ["주", "이번", "다음"].map String.toList, contains word head = false

instance (p : Platform) (head : Text) : Decidable (PlainHead p head) :=
  decidable_of_iff (isHomeworkLine head = false ∧ hasAmMarker p head = false ∧
      weekdaysIn (head ++ " 월".toList) = [] ∧
      (search nthWeek (head ++ " 주".toList)).isSome = false ∧
      ∀ word ∈ ["주", "이번", "다음"].map String.toList, contains word head = false)
    ⟨fun ⟨hhomework, hmarked, hweekdays, hweek, hword⟩ =>
        ⟨hhomework, hmarked, hweekdays, hweek, hword⟩,
      fun ⟨hhomework, hmarked, hweekdays, hweek, hword⟩ =>
        ⟨hhomework, hmarked, hweekdays, hweek, hword⟩⟩

section Head

variable {p : Platform} {today : Date} {head lead rest : Text}

theorem contains_line {word : Text} (hword : word ∈ ["주", "이번", "다음"].map String.toList)
    (hlead : ∀ c ∈ lead, isSpace c = true) (hrest : strip rest = rest) :
    contains word (head ++ ' ' :: lead ++ rest) = (contains word head || contains word rest) := by
  have hwords : ∀ word ∈ ["주", "이번", "다음"].map String.toList, ' ' ∉ word ∧ ∃ hne : word ≠ [],
      isSpace (word.head hne) = false ∧ isSpace (word.getLast hne) = false := by decide
  obtain ⟨hblank, hne, hfirst, hlast⟩ := hwords word hword
  rw [List.append_assoc, List.cons_append, contains_append_char hne hblank,
    ← contains_strip (lead ++ rest) hne hfirst hlast, strip_append hlead, hrest]

/-- The date of a line is that of its schedule. -/
theorem parseDate_line (hdigit : Undigited head) (hlead : ∀ c ∈ lead, isSpace c = true)
    (hline : strip (head ++ ' ' :: lead ++ rest) = head ++ ' ' :: lead ++ rest)
    (hrest : strip rest = rest) (year : Nat) :
    parseDate (head ++ ' ' :: lead ++ rest) year = parseDate rest year := by
  refine parseDate_append (undigited_line hdigit hlead) ?_ hline hrest year
  rw [List.reverse_append, List.reverse_cons]
  cases hreverse : lead.reverse with
  | nil => rfl
  | cons d more => exact isClockChar_of_isSpace (hlead d (List.mem_reverse.mp (hreverse ▸ List.mem_cons_self)))

theorem hasAmMarker_line (hcase : WordCase p) (hlead : ∀ c ∈ lead, isSpace c = true)
    (hrest : strip rest = rest) : hasAmMarker p (head ++ ' ' :: lead ++ rest) =
      (hasAmMarker p head || hasAmMarker p rest) := by
  rw [List.append_assoc, List.cons_append, hasAmMarker_append_blank hcase,
    ← hasAmMarker_strip hcase.toPlainCase (lead ++ rest), strip_append hlead, hrest]

theorem anchorMonday_line (hplain : PlainHead p head) (hdigit : Undigited head)
    (hlead : ∀ c ∈ lead, isSpace c = true)
    (hline : strip (head ++ ' ' :: lead ++ rest) = head ++ ' ' :: lead ++ rest)
    (hrest : strip rest = rest) :
    anchorMonday (head ++ ' ' :: lead ++ rest) today = anchorMonday rest today := by
  have hword (word : Text) (h : word ∈ ["주", "이번", "다음"].map String.toList) :
      contains word (head ++ ' ' :: lead ++ rest) = contains word rest := by
    rw [contains_line h hlead hrest, hplain.noWeekWord word h, Bool.false_or]
  have hweek := Option.not_isSome_iff_eq_none.mp (Bool.eq_false_iff.mp hplain.noWeek)
  simp only [anchorMonday, search_nthWeek_append hdigit hweek hlead,
    parseDate_line hdigit hlead hline hrest, hword _ (by decide : "주".toList ∈ _),
    hword _ (by decide : "이번".toList ∈ _), hword _ (by decide : "다음".toList ∈ _)]
  cases search nthWeek rest <;> rfl

/-- The times of a line with a plain head are those of what follows. -/
theorem lineTimes_line (hcase : WordCase p) (hplain : PlainHead p head) (hdigit : Undigited head)
    (hlead : ∀ c ∈ lead, isSpace c = true)
    (hline : strip (head ++ ' ' :: lead ++ rest) = head ++ ' ' :: lead ++ rest)
    (hrest : strip rest = rest) :
    lineTimes p today (head ++ ' ' :: lead ++ rest) = lineTimes p today rest := by
  have hu := undigited_line hdigit hlead
  have hmarker : hasAmMarker p (head ++ ' ' :: lead ++ rest) = hasAmMarker p rest := by
    rw [hasAmMarker_line hcase hlead hrest, hplain.unmarked, Bool.false_or]
  have hspan : parseTimeRange p (head ++ ' ' :: lead ++ rest) true = parseTimeRange p rest true := by
    rw [parseTimeRange, readTimeRange_append hu hmarker, parseTimeRange]
  have hdates : lessonDates (head ++ ' ' :: lead ++ rest) (weekdaysIn rest) today =
      lessonDates rest (weekdaysIn rest) today := by
    have hweeks : search weekCount (head ++ ' ' :: lead ++ rest) =
        (search weekCount rest).map (Match.behind (head ++ ' ' :: lead).reverse) :=
      search_undigited hu ((opens_digits 0 2).group 1).seq rfl
    have hsessions : search sessionCount (head ++ ' ' :: lead ++ rest) =
        (search sessionCount rest).map (Match.behind (head ++ ' ' :: lead).reverse) :=
      search_undigited hu ((opens_digits 0 3).group 1).seq rfl
    simp only [lessonDates, weeksOf, hweeks, hsessions, parseDate_line hdigit hlead hline hrest,
      anchorMonday_line hplain hdigit hlead hline hrest]
    cases search weekCount rest <;> cases search sessionCount rest <;> rfl
  rw [lineTimes, hspan, weekdaysIn_append hplain.noWeekdays hlead, hdates, lineTimes]

end Head

/-! ### Lines of names and a schedule -/

/-- A course and a teacher as they stand at the head of a line. -/
structure Names where
  course : Text
  teacher : Text
  /-- The line begins with the course. -/
  opens : course.head?.all isSpace = false
  undigited : Undigited (course ++ ' ' :: teacher)
  oneLine : ∀ c ∈ course ++ ' ' :: teacher, isLineBreak c = false

namespace Names

variable (names : Names)

def head : Text := names.course ++ ' ' :: names.teacher

def line (schedule : Text) : Text := names.head ++ ' ' :: schedule

theorem undigited_head : Undigited names.head := names.undigited

/-- The names take no part in times. -/
def Plain (p : Platform) : Prop := PlainHead p names.head

instance (p : Platform) : Decidable (names.Plain p) := inferInstanceAs (Decidable (PlainHead p _))

theorem strip_line {schedule : Text} (hne : strip schedule ≠ []) : strip (names.line schedule) =
    names.head ++ ' ' :: schedule.takeWhile isSpace ++ strip schedule := by
  have hopens := names.opens
  rw [line, head]
  cases hcourse : names.course with
  | nil =>
      rw [hcourse] at hopens
      cases hopens
  | cons c course =>
      rw [hcourse] at hopens
      change strip (c :: ((course ++ ' ' :: names.teacher) ++ ' ' :: schedule)) = _
      exact ClassinDashboard.strip_line hopens hne

end Names

section Exchange

variable {p : Platform} {today : Date} {names : Names} {schedule : Text}

theorem isHomeworkLine_line (hne : strip schedule ≠ []) :
    isHomeworkLine (strip (names.line schedule)) = isHomeworkLine names.head := by
  rw [names.strip_line hne, List.append_assoc, List.cons_append, isHomeworkLine_append]

/-- The times of a line with plain names are those of its schedule. -/
theorem lineTimes_names (hcase : WordCase p) (hplain : names.Plain p) (hne : strip schedule ≠ []) :
    lineTimes p today (strip (names.line schedule)) = lineTimes p today (strip schedule) := by
  have hline := strip_strip (names.line schedule)
  rw [names.strip_line hne] at hline ⊢
  refine lineTimes_line hcase hplain names.undigited (fun c hc => ?_) hline (strip_strip schedule)
  exact List.mem_takeWhile_imp hc

end Exchange

/-- Whatever the schedule, the text around the line and the teachers known, exchanging the names
leaves the times of all lessons unchanged. -/
def SameTimes (p : Platform) (names others : Names) : Prop :=
  ∀ (today : Date) (known known' : List Text) (schedule text text' rawLine rawLine' : Text)
    (before after : List Text), strip schedule ≠ [] →
    splitLines text = before ++ rawLine :: after → strip rawLine = strip (names.line schedule) →
    splitLines text' = before ++ rawLine' :: after → strip rawLine' = strip (others.line schedule) →
    lessonTimes p today known text = lessonTimes p today known' text'

section Exchange

variable {p : Platform} {today : Date} {names others : Names}

/-- Plain names may be exchanged. -/
theorem sameTimes_of_plain (hcase : WordCase p) (hnames : names.Plain p) (hothers : others.Plain p) :
    SameTimes p names others := by
  intro today known known' schedule text text' rawLine rawLine' before after hne htext hline htext' hline'
  have hstep (table : Timetable) : table.readLine p today rawLine = table.readLine p today rawLine' := by
    have hfilled (names : Names) : (strip (names.line schedule)).isEmpty = false := by
      rw [names.strip_line hne, List.isEmpty_eq_false_iff]
      simp
    simp only [Timetable.readLine, hline, hline', hfilled, isHomeworkLine_line hne, hnames.notHomework,
      hothers.notHomework, lineTimes_names hcase hnames hne, lineTimes_names hcase hothers hne, Bool.false_eq_true,
      ↓reduceIte]
  rw [lessonTimes_eq, lessonTimes_eq, htext, htext', Timetable.ofLines, Timetable.ofLines]
  simp only [List.foldlM_append, List.foldlM_cons, hstep]

/-! ### What names can do -/

theorem splitLines_of_oneLine {text : Text} (hne : text ≠ []) (h : ∀ c ∈ text, isLineBreak c = false) :
    splitLines text = [text] := by
  have hlines (line text : Text) (h : ∀ c ∈ text, isLineBreak c = false) (hne : line ++ text ≠ []) :
      linesFrom line text = [line.reverse ++ text] := by
    induction text generalizing line with
    | nil =>
        rw [List.append_nil] at hne
        rw [linesFrom, if_neg (by simpa using hne), List.append_nil]
    | cons c text ih =>
        obtain ⟨hc, htext⟩ := List.forall_mem_cons.mp h
        have hreturn : c ≠ '\r' := by
          rintro rfl
          exact absurd hc (by decide)
        rw [linesFrom, if_neg (by simp [hc]), ih (c :: line) htext (by simp), List.reverse_cons,
          List.append_assoc]
        · rfl
        · rintro rest rfl
          exact absurd rfl hreturn
  exact hlines [] text h hne

/-- The one course of a line, or none. -/
def singleCourse (times : List Span) : List (List Span) := if times.isEmpty then [] else [times]

theorem singleCourse_injective {times times' : List Span} (h : singleCourse times = singleCourse times') :
    times = times' := by
  unfold singleCourse at h
  cases times <;> cases times' <;> simp_all

theorem splitLines_line (names : Names) {schedule : Text}
    (hbreaks : ∀ c ∈ schedule, isLineBreak c = false) :
    splitLines (names.line schedule) = [names.line schedule] := by
  refine splitLines_of_oneLine (by simp [Names.line]) fun c hc => ?_
  rcases List.mem_append.mp hc with hc | hc
  · exact names.oneLine c hc
  · rcases List.mem_cons.mp hc with rfl | hc
    · decide
    · exact hbreaks c hc

theorem lessonTimes_line (known : List Text) {schedule : Text} (hne : strip schedule ≠ [])
    (hbreaks : ∀ c ∈ schedule, isLineBreak c = false) :
    lessonTimes p today known (names.line schedule) =
      if isHomeworkLine names.head then .ok []
      else (lineTimes p today (strip (names.line schedule))).map singleCourse := by
  have hfilled : (strip (names.line schedule)).isEmpty = false := by
    rw [names.strip_line hne, List.isEmpty_eq_false_iff]
    simp
  rw [lessonTimes_eq, splitLines_line names hbreaks, Timetable.ofLines, List.foldlM_cons]
  simp only [Timetable.readLine, hfilled, isHomeworkLine_line hne, Bool.false_eq_true, ↓reduceIte,
    List.isEmpty_nil]
  split
  · rfl
  · cases lineTimes p today (strip (names.line schedule)) with
    | error e => rfl
    | ok times => cases times <;> rfl

/-- A stripped schedule of Hangul, digits and separators, in one line. -/
def Bare (schedule : Text) : Prop :=
  schedule ≠ [] ∧ strip schedule = schedule ∧ schedule.takeWhile isSpace = [] ∧
    (∀ c ∈ schedule, isLineBreak c = false) ∧ ∀ c ∈ schedule, isUncased c = true

instance (schedule : Text) : Decidable (Bare schedule) := inferInstanceAs (Decidable (_ ∧ _))

theorem lineTimes_uncased (hcase : WordCase p) {text : Text} (h : ∀ c ∈ text, isUncased c = true) :
    lineTimes p today text = lineTimes .plain today text := by
  simp only [lineTimes, parseTimeRange, readTimeRange, readHourRange, hasAmMarker_uncased hcase h]

/-- Names that take no part in times. -/
def mathByKim : Names := ⟨"수학".toList, "김선생님".toList, by decide, by decide, by decide⟩

theorem mathByKim_plain (hcase : WordCase p) : mathByKim.Plain p where
  notHomework := by decide
  unmarked := (hasAmMarker_uncased hcase (by decide)).trans (by decide)
  noWeekdays := by decide
  noWeek := by decide
  noWeekWord := by decide

variable {schedule : Text}

theorem strip_bare (hbare : Bare schedule) :
    strip (names.line schedule) = names.head ++ ' ' :: [] ++ schedule := by
  obtain ⟨hne, hstrip, hfirst, -⟩ := hbare
  rw [names.strip_line (by rwa [hstrip]), hfirst, hstrip]

/-- Names that may be exchanged for plain ones leave the times of a schedule as they are. -/
theorem lessonTimes_of_same (hcase : WordCase p) (h : SameTimes p names mathByKim) (hbare : Bare schedule)
    (today : Date) : (if isHomeworkLine names.head then .ok []
      else (lineTimes p today (names.head ++ ' ' :: [] ++ schedule)).map singleCourse) =
        (lineTimes .plain today schedule).map singleCourse := by
  have hbare' := hbare
  obtain ⟨hne, hstrip, -, hbreaks, huncased⟩ := hbare'
  have hfilled : strip schedule ≠ [] := by rwa [hstrip]
  have hsame := h today [] [] schedule _ _ _ _ [] [] hfilled (splitLines_line names hbreaks) rfl
    (splitLines_line mathByKim hbreaks) rfl
  rw [lessonTimes_line [] hfilled hbreaks, lessonTimes_line [] hfilled hbreaks,
    lineTimes_names hcase (mathByKim_plain hcase) hfilled, hstrip, lineTimes_uncased hcase huncased,
    strip_bare hbare, if_neg (by decide : ¬isHomeworkLine mathByKim.head = true)] at hsame
  exact hsame

/-- The first of April 2026, a Wednesday. -/
def firstOfApril : Date := .firstOfApril2026

theorem notHomework_of_same (hcase : WordCase p) (h : SameTimes p names mathByKim) :
    isHomeworkLine names.head = false := by
  by_contra hhomework
  have hsame := lessonTimes_of_same hcase h (by decide : Bare "화/목".toList) firstOfApril
  have hlessons : (lineTimes .plain firstOfApril "화/목".toList).toOption.any
      (fun times => !(singleCourse times).isEmpty) = true := by decide
  obtain ⟨times, htimes, hany⟩ := exists_ok_of_any hlessons
  rw [if_pos (Bool.not_eq_false _ ▸ hhomework), htimes] at hsame
  have hnil : [] = singleCourse times := Except.ok.inj hsame
  rw [← hnil] at hany
  cases hany

theorem lineTimes_of_same (hcase : WordCase p) (h : SameTimes p names mathByKim) (hbare : Bare schedule)
    (today : Date) : lineTimes p today (names.head ++ ' ' :: [] ++ schedule) =
      lineTimes .plain today schedule := by
  have hsame := lessonTimes_of_same hcase h hbare today
  rw [notHomework_of_same hcase h, if_neg Bool.false_ne_true] at hsame
  cases hleft : lineTimes p today (names.head ++ ' ' :: [] ++ schedule) with
  | error e =>
      rw [hleft] at hsame
      cases hright : lineTimes .plain today schedule with
      | error e' =>
          rw [hright] at hsame
          exact congrArg Except.error (Except.error.inj hsame)
      | ok times =>
          rw [hright] at hsame
          cases hsame
  | ok times =>
      rw [hleft] at hsame
      cases hright : lineTimes .plain today schedule with
      | error e' =>
          rw [hright] at hsame
          cases hsame
      | ok times' =>
          rw [hright] at hsame
          exact congrArg Except.ok (singleCourse_injective (Except.ok.inj hsame))

/-- A line whose times were read has a time range or none, and dates. -/
theorem exists_of_lineTimes {line : Text} {times : List Span} (h : lineTimes p today line = .ok times) :
    ∃ span dates notes, parseTimeRange p line true = .ok span ∧
      lessonDates line (weekdaysIn line) today = .ok (dates, notes) ∧
      times = dates.map fun date =>
        (⟨date, (span.getD defaultSpan).1⟩, ⟨date, (span.getD defaultSpan).2⟩) := by
  obtain ⟨span, hspan, h⟩ := bind_eq_ok.mp h
  obtain ⟨⟨dates, notes⟩, hdates, h⟩ := bind_eq_ok.mp h
  exact ⟨span, dates, notes, hspan, hdates, (pure_eq_ok.mp h).symm⟩

/-- Four weeks from a Monday. -/
theorem times_within {line : Text} {times : List Span} (h : lineTimes p today line = .ok times)
    (hweekdays : weekdaysIn line ≠ []) (hweeks : statedWeeks line = none)
    (hsessions : statedSessions line = none) : ∃ monday notes,
      anchorMonday line today = .ok (monday, notes) ∧ times ≠ [] ∧
      ∀ span ∈ times, monday.ordinal ≤ span.1.day.ordinal ∧ span.1.day.ordinal < monday.ordinal + 28 := by
  obtain ⟨span, dates, notes, -, hdates, rfl⟩ := exists_of_lineTimes h
  have hanchor : ∃ monday notes, anchorMonday line today = .ok (monday, notes) := by
    rw [lessonDates, if_neg (by simpa using hweekdays)] at hdates
    obtain ⟨⟨monday, notes⟩, hmonday, -⟩ := bind_eq_ok.mp hdates
    exact ⟨monday, notes, hmonday⟩
  obtain ⟨monday, notes', hmonday⟩ := hanchor
  have hpattern := patternDates_of_ok hweekdays hmonday hdates
  obtain ⟨hlength, hmem⟩ := hpattern.allWeeks 4 (.inr ⟨hweeks, hsessions, rfl⟩)
  refine ⟨monday, notes', hmonday, ?_, ?_⟩
  · intro hnil
    have hzero : dates.length = 0 := by rw [List.map_eq_nil_iff.mp hnil, List.length_nil]
    have hpos := List.length_pos_iff.mpr hweekdays
    omega
  · rintro _ hspan
    obtain ⟨date, hdate, rfl⟩ := List.mem_map.mp hspan
    have := (hmem date).mp hdate
    exact ⟨this.1, this.2.1⟩

/-- What is counted and dated in a line of names is what its schedule counts and dates. -/
theorem counts_line (names : Names) (hbare : Bare schedule) :
    statedWeeks (names.head ++ ' ' :: [] ++ schedule) = statedWeeks schedule ∧
      statedSessions (names.head ++ ' ' :: [] ++ schedule) = statedSessions schedule ∧
      ∀ year, parseDate (names.head ++ ' ' :: [] ++ schedule) year = parseDate schedule year := by
  have hu : Undigited (names.head ++ ' ' :: []) := undigited_line names.undigited (by simp)
  refine ⟨statedWeeks_append hu, statedSessions_append hu, fun year => ?_⟩
  exact parseDate_line names.undigited (by simp) ((strip_bare hbare) ▸ strip_strip _) hbare.2.1 year

/-- With a marker in the names seven o'clock is in the morning. -/
theorem readTimeRange_marked (hcase : WordCase p) (hmarked : hasAmMarker p names.head = true) :
    readTimeRange p (names.head ++ ' ' :: [] ++ "화/목 7-9시".toList) true =
      some (⟨7, 0, false⟩, ⟨9, 0, false⟩) := by
  have hu : Undigited (names.head ++ ' ' :: []) := undigited_line names.undigited (by simp)
  have hmarker : hasAmMarker p (names.head ++ ' ' :: [] ++ "화/목 7-9시".toList) = true := by
    rw [hasAmMarker_line hcase (by simp) (by decide), hmarked, Bool.true_or]
  have hclock : search clockRange "화/목 7-9시".toList = none :=
    Option.isNone_iff_eq_none.mp (by decide)
  have hhours : (search hourRange "화/목 7-9시".toList).map (fun hit => (hit.number 1, hit.number 2)) =
      some (7, 9) := by decide
  obtain ⟨hit, hhit, hnumbers⟩ := Option.map_eq_some_iff.mp hhours
  obtain ⟨hfirst, hlast⟩ := Prod.mk.inj hnumbers
  simp only [readTimeRange, readHourRange, hmarker]
  rw [search_undigited hu, search_undigited hu, hclock, hhit]
  case hopens => exact ((opens_digits 0 2).group 1).seq
  case hopens => exact ((opens_digits 0 2).group 1).seq
  case hfree => rfl
  case hfree => rfl
  simp [hfirst, hlast]

theorem unmarked_of_same (hcase : WordCase p) (h : SameTimes p names mathByKim) :
    hasAmMarker p names.head = false := by
  by_contra hmarked
  have hbare : Bare "화/목 7-9시".toList := by decide
  have hevening : (lineTimes .plain firstOfApril "화/목 7-9시".toList).toOption.any
      (fun times => times.any fun span => span.1.clock.hour = 19) = true := by decide
  obtain ⟨times, htimes, hany⟩ := exists_ok_of_any hevening
  have hsame := (lineTimes_of_same hcase h hbare firstOfApril).trans htimes
  obtain ⟨span, dates, notes, hspan, -, rfl⟩ := exists_of_lineTimes hsame
  have hmorning : parseTimeRange p (names.head ++ ' ' :: [] ++ "화/목 7-9시".toList) true =
      .ok (some (⟨7, 0, by decide, by decide⟩, ⟨9, 0, by decide, by decide⟩)) := by
    rw [parseTimeRange, readTimeRange_marked hcase (Bool.eq_true_of_not_eq_false hmarked)]
    rfl
  cases hspan.symm.trans hmorning
  obtain ⟨_, hmem, hhour⟩ := List.any_eq_true.mp hany
  obtain ⟨date, -, rfl⟩ := List.mem_map.mp hmem
  have hseven : (7 : Nat) = 19 := of_decide_eq_true hhour
  cases hseven

theorem noWeekdays_of_same (hcase : WordCase p) (h : SameTimes p names mathByKim) :
    weekdaysIn (names.head ++ " 월".toList) = [] := by
  by_contra hweekdays
  have hbare : Bare "월".toList := by decide
  have hnone : lineTimes .plain firstOfApril "월".toList = .ok [] := by decide
  have hsame := (lineTimes_of_same hcase h hbare firstOfApril).trans hnone
  obtain ⟨hweeks, hsessions, -⟩ := counts_line names hbare
  rw [List.append_assoc] at hsame hweeks hsessions
  obtain ⟨-, -, -, hne, -⟩ := times_within hsame hweekdays (hweeks.trans (by decide))
    (hsessions.trans (by decide))
  exact hne rfl

theorem daysBeforeYear_lt_nthWeekMonday {year month nth : Nat} {monday : Date} (hnth : 1 ≤ nth)
    (h : nthWeekMonday year month nth = .ok monday) : daysBeforeYear year < monday.ordinal := by
  unfold nthWeekMonday at h
  split at h
  · cases h
  · rename_i first hfirst
    obtain ⟨firstMonday, hmonday, h⟩ := bind_eq_ok.mp h
    have hordinal := ordinal_addDays h
    have hordinal' := ordinal_addDays hmonday
    unfold Date.ofYmd? at hfirst
    split at hfirst
    · have := Date.ordinal_ofOrdinal? hfirst
      omega
    · cases hfirst

theorem noWeek_of_same (hcase : WordCase p) (h : SameTimes p names mathByKim) :
    (search nthWeek (names.head ++ " 주".toList)).isSome = false := by
  by_contra hweek
  have hbare : Bare "주 2020-01-01 화/목".toList := by decide
  have hearly : (lineTimes .plain firstOfApril "주 2020-01-01 화/목".toList).toOption.any
      (fun times => times.length = 8 && times.all fun span =>
        span.1.day.ordinal < daysBeforeYear 2026) = true := by decide
  obtain ⟨times, htimes, hall⟩ := exists_ok_of_any hearly
  simp only [Bool.and_eq_true, decide_eq_true_eq, List.all_eq_true] at hall
  obtain ⟨hlength, hdays⟩ := hall
  have hsame := (lineTimes_of_same hcase h hbare firstOfApril).trans htimes
  obtain ⟨hweeks, hsessions, hdate⟩ := counts_line names hbare
  by_cases hweekdays : weekdaysIn (names.head ++ ' ' :: [] ++ "주 2020-01-01 화/목".toList) = []
  · -- without weekdays there is at most one lesson
    obtain ⟨span, dates, notes, -, hdates, rfl⟩ := exists_of_lineTimes hsame
    have hone : lessonDates (names.head ++ ' ' :: [] ++ "주 2020-01-01 화/목".toList) [] firstOfApril =
        .ok ((parseDate (names.head ++ ' ' :: [] ++ "주 2020-01-01 화/목".toList)
          firstOfApril.year).toList, []) := rfl
    rw [hweekdays, hone] at hdates
    cases hdates
    rw [List.length_map] at hlength
    generalize parseDate (names.head ++ ' ' :: [] ++ "주 2020-01-01 화/목".toList) _ = date at hlength
    cases date <;> cases hlength
  · obtain ⟨monday, notes, hmonday, hne, hbounds⟩ := times_within hsame hweekdays
      (hweeks.trans (by decide)) (hsessions.trans (by decide))
    have hdigit : Undigited (names.head ++ " 주".toList) := by
      intro c hc
      rcases List.mem_append.mp hc with hc | hc
      · exact names.undigited c hc
      · exact (by decide : Undigited " 주".toList) c hc
    have hphrase := search_nthWeek_isSome hdigit (Bool.eq_true_of_not_eq_false hweek)
      " 2020-01-01 화/목".toList
    obtain ⟨hit, hhit⟩ := Option.isSome_iff_exists.mp hphrase
    have hline : names.head ++ ' ' :: [] ++ "주 2020-01-01 화/목".toList =
        names.head ++ " 주".toList ++ " 2020-01-01 화/목".toList := by
      simp
    rw [hline, anchorMonday, hhit] at hmonday
    obtain ⟨found, hfound, hmonday⟩ := bind_eq_ok.mp hmonday
    cases pure_eq_ok.mp hmonday
    have hyear := daysBeforeYear_lt_nthWeekMonday (Nat.le_add_left 1 _) hfound
    rw [show firstOfApril.year = 2026 by decide] at hyear
    obtain ⟨span, rest, rfl⟩ := List.exists_cons_of_ne_nil hne
    have hfrom := (hbounds span List.mem_cons_self).1
    have := hdays span List.mem_cons_self
    omega

/-- The line is of this week. -/
def saysThisWeek (line : Text) : Bool :=
  contains "주".toList line && contains "이번".toList line && !contains "다음".toList line

/-- On the first of April the words of a line say whether its weeks begin on the 30th of March or on the
6th of April. -/
theorem anchorMonday_words {line : Text} {monday : Date} {notes : List Text}
    (h : anchorMonday line firstOfApril = .ok (monday, notes)) (hweek : search nthWeek line = none)
    (hdate : parseDate line firstOfApril.year = none) :
    monday.ordinal = if saysThisWeek line then 739705 else 739712 := by
  have hthis : mondayOf firstOfApril = .ok ⟨739705, by decide, by decide⟩ := by decide
  have hnext : (⟨739705, by decide, by decide⟩ : Date).addDays 7 = .ok ⟨739712, by decide, by decide⟩ := by
    decide
  simp only [anchorMonday, hweek, hdate, hthis] at h
  change (if contains "다음".toList line && contains "주".toList line then _ else _) = _ at h
  split at h
  · rename_i hafter
    have hflag : saysThisWeek line = false := by
      rw [saysThisWeek, (Bool.and_eq_true_iff.mp hafter).1, Bool.not_true, Bool.and_false]
    rw [hnext] at h
    cases h
    rw [hflag, if_neg Bool.false_ne_true]
  · rename_i hafter
    split at h
    · rename_i hnow
      obtain ⟨hnow, hword⟩ := Bool.and_eq_true_iff.mp hnow
      rw [hword, Bool.and_true] at hafter
      have hflag : saysThisWeek line = true := by
        rw [saysThisWeek, hword, hnow, Bool.eq_false_of_not_eq_true hafter]
        rfl
      cases h
      rw [hflag, if_pos rfl]
    · rename_i hnow
      have hflag : saysThisWeek line = false := by
        rw [saysThisWeek, Bool.and_comm (contains _ _), Bool.eq_false_of_not_eq_true hnow, Bool.false_and]
      rw [hnext] at h
      cases h
      rw [hflag, if_neg Bool.false_ne_true]

/-- A schedule of weekdays and words for weeks. -/
def WordsOnly (schedule : Text) : Prop :=
  Bare schedule ∧ (search nthWeek schedule).isSome = false ∧ parseDate schedule firstOfApril.year = none ∧
    statedWeeks schedule = none ∧ statedSessions schedule = none

instance (schedule : Text) : Decidable (WordsOnly schedule) := inferInstanceAs (Decidable (_ ∧ _))

/-- The lessons of such a schedule show which words are in the line. -/
theorem monday_of_same (hcase : WordCase p) (h : SameTimes p names mathByKim)
    (hschedule : WordsOnly schedule) {times : List Span}
    (htimes : lineTimes .plain firstOfApril schedule = .ok times) (hne : times ≠ []) :
    ∀ span ∈ times, if saysThisWeek (names.head ++ ' ' :: [] ++ schedule) then
        span.1.day.ordinal < 739733 else 739712 ≤ span.1.day.ordinal := by
  obtain ⟨hbare, hnth, hdate, hweeks, hsessions⟩ := hschedule
  obtain ⟨hweeks', hsessions', hdate'⟩ := counts_line names hbare
  have hsame := (lineTimes_of_same hcase h hbare firstOfApril).trans htimes
  have hweekdays : weekdaysIn (names.head ++ ' ' :: [] ++ schedule) ≠ [] := by
    intro hnil
    obtain ⟨span, dates, notes, -, hdates, rfl⟩ := exists_of_lineTimes hsame
    have hnone : lessonDates (names.head ++ ' ' :: [] ++ schedule) [] firstOfApril =
        .ok ((parseDate (names.head ++ ' ' :: [] ++ schedule) firstOfApril.year).toList, []) := rfl
    rw [hnil, hnone, hdate', hdate] at hdates
    cases hdates
    exact hne rfl
  have hweek : search nthWeek (names.head ++ ' ' :: [] ++ schedule) = none := by
    rw [search_nthWeek_append names.undigited_head
      (Option.not_isSome_iff_eq_none.mp (Bool.eq_false_iff.mp (noWeek_of_same hcase h)))
        (fun c hc => absurd hc List.not_mem_nil),
      Option.not_isSome_iff_eq_none.mp (Bool.eq_false_iff.mp hnth)]
    rfl
  obtain ⟨monday, notes, hmonday, -, hbounds⟩ := times_within hsame hweekdays (hweeks'.trans hweeks)
    (hsessions'.trans hsessions)
  have hordinal := anchorMonday_words hmonday hweek ((hdate' _).trans hdate)
  intro span hspan
  have := hbounds span hspan
  split at hordinal
  · rw [if_pos ‹_›]
    omega
  · rw [if_neg ‹_›]
    omega

theorem saysThisWeek_line (hbare : Bare schedule) :
    saysThisWeek (names.head ++ ' ' :: [] ++ schedule) =
      ((contains "주".toList names.head || contains "주".toList schedule) &&
        (contains "이번".toList names.head || contains "이번".toList schedule) &&
        !(contains "다음".toList names.head || contains "다음".toList schedule)) := by
  rw [saysThisWeek, contains_line (by decide) (by simp) hbare.2.1,
    contains_line (by decide) (by simp) hbare.2.1, contains_line (by decide) (by simp) hbare.2.1]

/-- Words of the names that make the line one of this week. -/
theorem not_thisWeek_of_same (hcase : WordCase p) (h : SameTimes p names mathByKim)
    (hschedule : WordsOnly schedule) (hlate : (lineTimes .plain firstOfApril schedule).toOption.any
      (fun times => times.any fun span => 739733 ≤ span.1.day.ordinal) = true) :
    saysThisWeek (names.head ++ ' ' :: [] ++ schedule) = false := by
  obtain ⟨times, htimes, hany⟩ := exists_ok_of_any hlate
  obtain ⟨span, hspan, hday⟩ := List.any_eq_true.mp hany
  have hbounds := monday_of_same hcase h hschedule htimes (List.ne_nil_of_mem hspan) span hspan
  have hday : 739733 ≤ span.1.day.ordinal := of_decide_eq_true hday
  by_contra hflag
  rw [if_pos (Bool.eq_true_of_not_eq_false hflag)] at hbounds
  omega

theorem thisWeek_of_same (hcase : WordCase p) (h : SameTimes p names mathByKim)
    (hschedule : WordsOnly schedule) (hearly : (lineTimes .plain firstOfApril schedule).toOption.any
      (fun times => times.any fun span => span.1.day.ordinal < 739712) = true) :
    saysThisWeek (names.head ++ ' ' :: [] ++ schedule) = true := by
  obtain ⟨times, htimes, hany⟩ := exists_ok_of_any hearly
  obtain ⟨span, hspan, hday⟩ := List.any_eq_true.mp hany
  have hbounds := monday_of_same hcase h hschedule htimes (List.ne_nil_of_mem hspan) span hspan
  have hday : span.1.day.ordinal < 739712 := of_decide_eq_true hday
  by_contra hflag
  rw [if_neg hflag] at hbounds
  omega

theorem noWeekWord_of_same (hcase : WordCase p) (h : SameTimes p names mathByKim) :
    ∀ word ∈ ["주", "이번", "다음"].map String.toList, contains word names.head = false := by
  have hnext : contains "다음".toList names.head = false := by
    have hflag := thisWeek_of_same hcase h (by decide : WordsOnly "이번 주 화/목".toList)
      (by decide)
    rw [saysThisWeek_line (by decide)] at hflag
    have hnot := (Bool.and_eq_true_iff.mp hflag).2
    rw [Bool.not_eq_true', Bool.or_eq_false_iff] at hnot
    exact hnot.1
  have hthis : contains "이번".toList names.head = false := by
    have hflag := not_thisWeek_of_same hcase h (by decide : WordsOnly "주 화/목".toList)
      (by decide)
    rw [saysThisWeek_line (by decide), hnext,
      (by decide : contains "주".toList "주 화/목".toList = true),
      (by decide : contains "이번".toList "주 화/목".toList = false),
      (by decide : contains "다음".toList "주 화/목".toList = false)] at hflag
    simpa only [Bool.or_true, Bool.or_false, Bool.true_and, Bool.not_false, Bool.and_true] using hflag
  have hweek : contains "주".toList names.head = false := by
    have hflag := not_thisWeek_of_same hcase h (by decide : WordsOnly "이번 화/목".toList)
      (by decide)
    rw [saysThisWeek_line (by decide), hnext,
      (by decide : contains "주".toList "이번 화/목".toList = false),
      (by decide : contains "이번".toList "이번 화/목".toList = true),
      (by decide : contains "다음".toList "이번 화/목".toList = false)] at hflag
    simpa only [Bool.or_true, Bool.or_false, Bool.and_true, Bool.not_false] using hflag
  simpa only [List.map_cons, List.map_nil, List.forall_mem_cons, List.not_mem_nil, false_imp_iff,
    implies_true, and_true] using ⟨hweek, hthis, hnext⟩

/-- Names may be exchanged for plain ones exactly when they are plain themselves. -/
theorem sameTimes_iff_plain (hcase : WordCase p) (names : Names) :
    (∀ others : Names, others.Plain p → SameTimes p names others) ↔ names.Plain p := by
  constructor
  · intro h
    have hsame := h mathByKim (mathByKim_plain hcase)
    exact ⟨notHomework_of_same hcase hsame, unmarked_of_same hcase hsame, noWeekdays_of_same hcase hsame,
      noWeek_of_same hcase hsame, noWeekWord_of_same hcase hsame⟩
  · exact fun hplain others hothers => sameTimes_of_plain hcase hplain hothers

end Exchange

def englishByLee : Names := ⟨"영어".toList, "이선생님".toList, by decide, by decide, by decide⟩

theorem kim_lee_sameTimes : SameTimes .plain mathByKim englishByLee :=
  (sameTimes_iff_plain plain_wordCase mathByKim).mpr (by decide) englishByLee (by decide)

/-- A name without digits, weekdays, weeks and the words for morning and afternoon. -/
def SaysNoTime (name : Text) : Prop :=
  Undigited name ∧ weekdaysIn name = [] ∧ (search nthWeek name).isSome = false ∧
    contains "오전".toList name = false ∧ contains "오후".toList name = false

instance (name : Text) : Decidable (SaysNoTime name) := inferInstanceAs (Decidable (_ ∧ _))

/-- The end of the teacher's name is the marker of the morning. -/
def mathBySam : Names := ⟨"수학".toList, "sam".toList, by decide, by decide, by decide⟩

/-- The first lesson of a text. -/
def firstSpan (text : Text) : Option Span :=
  (lessonTimes .plain firstOfApril [] text).toOption.bind fun courses => courses.flatten.head?

/-- The name begins with the word for a week. -/
def mathByJu : Names := ⟨"수학".toList, "주선생님".toList, by decide, by decide, by decide⟩

/-- With one teacher the lessons are in the morning, with the other in the evening; and with a third
they begin a week earlier. -/
theorem names_move_lessons :
    (∀ names ∈ [mathBySam, mathByJu, mathByKim], SaysNoTime names.course ∧ SaysNoTime names.teacher) ∧
    (firstSpan (mathBySam.line "화/목 7-9시".toList)).map (·.1.clock.hour) = some 7 ∧
    (firstSpan (mathByKim.line "화/목 7-9시".toList)).map (·.1.clock.hour) = some 19 ∧
    (firstSpan (mathByJu.line "이번 화/목 7-9시".toList)).map (·.1.day.ordinal) = some 739706 ∧
    (firstSpan (mathByKim.line "이번 화/목 7-9시".toList)).map (·.1.day.ordinal) = some 739713 := by
  decide

end ClassinDashboard

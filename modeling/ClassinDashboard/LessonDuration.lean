import ClassinDashboard.PyScript
import ClassinDashboard.SmartParse

/-!
When the lessons of a plan have a positive duration. Both ends of a slot fall on one day, and each is
moved to the evening by its own hour, so the order of the two times is the order of the readings after
that move and nothing else.
-/

namespace ClassinDashboard

open Py

/-! ### Readings -/

/-- The start and the end of a slot, as read. -/
abbrev SlotReading := TimeReading × TimeReading

/-- The end is later than the start once each hour is read in the academy's way. -/
def InOrder (slot : SlotReading) : Prop := slot.1.minutes < slot.2.minutes

instance (slot : SlotReading) : Decidable (InOrder slot) :=
  inferInstanceAs (Decidable (slot.1.minutes < slot.2.minutes))

/-- A range that is in order as written stays in order unless only its start is moved to the evening,
past its end. -/
theorem inOrder_of_written {first last : TimeReading} (hshift : first.shift = last.shift)
    (hlast : last.hour < 24) (hfirstMinute : first.minute < 60) (hlastMinute : last.minute < 60)
    (hwritten : 60 * first.hour + first.minute < 60 * last.hour + last.minute) :
    InOrder (first, last) ↔
      ¬(last.shift = true ∧ 1 ≤ first.hour ∧ first.hour ≤ 9 ∧ 10 ≤ last.hour ∧
        60 * last.hour + last.minute ≤ 60 * (first.hour + 12) + first.minute) := by
  have hhour {reading : TimeReading} (hr : reading.hour < 24) : reading.academyHour =
      if reading.shift = true ∧ 1 ≤ reading.hour ∧ reading.hour ≤ 9 then reading.hour + 12
      else reading.hour := by
    simp only [TimeReading.academyHour, Bool.and_eq_true, decide_eq_true_eq, and_assoc]
    split <;> omega
  have hfirst : first.hour < 24 := by omega
  simp only [InOrder, TimeReading.minutes, hhour hfirst, hhour hlast, hshift]
  split <;> split <;> simp_all <;> omega

/-- Both ends of the slot of a row, when the row has a date. Without an end a slot lasts two hours. -/
def rowReading (p : Platform) (header : List (Option TableColumn)) (year : Nat)
    (rawRow : List Text) : Option SlotReading :=
  let cells := rowCells header rawRow
  if (parseDate (cellOf cells .date) year).isSome then
    (rowSlot p cells).bind fun slot => slot.2.map fun last => (slot.1, last)
  else none

/-- A line of free text that gives lessons: neither blank nor homework, and with a date. -/
def givesLessons (line : Text) (day : Date) : Bool :=
  !line.isEmpty && !isHomeworkLine line &&
    match lessonDates line (weekdaysIn line) day with
    | .ok (dates, _) => !dates.isEmpty
    | .error _ => false

def lineReading (p : Platform) (day : Date) (rawLine : Text) : Option SlotReading :=
  if givesLessons (strip rawLine) day then readTimeRange p (strip rawLine) true else none

/-- The slots that the rows or the lines of a text state. -/
def statedSlots (p : Platform) (now : Date) (today : Today) (rawText : Text) : List SlotReading :=
  let text := strip rawText
  match asDate now today with
  | .error _ => []
  | .ok day =>
      if isCsv p text then
        match tableRows p text with
        | .error _ => []
        | .ok (header, rows) => rows.filterMap (rowReading p header day.year)
      else (splitLines text).filterMap (lineReading p day)

/-! ### Spans -/

/-- The start and the end of every lesson. -/
def ParsedCourse.spans (course : ParsedCourse) : List (Moment × Moment) :=
  course.lessons.map fun lesson => (lesson.startAt, lesson.endAt)

/-- Every lesson ends after it starts. -/
def Positive (courses : List ParsedCourse) : Prop :=
  ∀ spans ∈ courses.map ParsedCourse.spans, ∀ span ∈ spans, span.1 < span.2

/-- Every planned lesson ends after it starts. -/
def PositiveDurations (plan : ParsePlan) : Prop :=
  ∀ course ∈ plan.courses, ∀ lesson ∈ course.lessons, lesson.startAt < lesson.endAt

instance (plan : ParsePlan) : Decidable (PositiveDurations plan) :=
  inferInstanceAs (Decidable (∀ course ∈ plan.courses, ∀ lesson ∈ course.lessons,
    lesson.startAt < lesson.endAt))

theorem forall_spans {course : ParsedCourse} :
    (∀ span ∈ course.spans, span.1 < span.2) ↔
      ∀ lesson ∈ course.lessons, lesson.startAt < lesson.endAt := by
  rw [ParsedCourse.spans, List.forall_mem_map]

theorem positive_cons {course : ParsedCourse} {courses : List ParsedCourse} :
    Positive (course :: courses) ↔
      (∀ lesson ∈ course.lessons, lesson.startAt < lesson.endAt) ∧ Positive courses := by
  rw [Positive, List.map_cons, List.forall_mem_cons, forall_spans]
  rfl

theorem positive_append_singleton {courses : List ParsedCourse} {course : ParsedCourse} :
    Positive (courses ++ [course]) ↔
      Positive courses ∧ ∀ lesson ∈ course.lessons, lesson.startAt < lesson.endAt := by
  rw [Positive, List.map_append, List.forall_mem_append, List.map_singleton,
    List.forall_mem_singleton, forall_spans]
  rfl

theorem positive_of_spans {courses others : List ParsedCourse}
    (h : courses.map ParsedCourse.spans = others.map ParsedCourse.spans) :
    Positive courses ↔ Positive others := by
  rw [Positive, h, Positive]

/-! ### The table path -/

theorem slotTimes_lt {day : Date} {slot : TimeReading × Option TimeReading} {startAt endAt : Moment}
    {notes : List Text} (h : slotTimes day slot = .ok (startAt, endAt, notes)) :
    startAt < endAt ↔ ∀ last, slot.2 = some last → InOrder (slot.1, last) := by
  obtain ⟨first, hfirst, h⟩ := bind_eq_ok.mp h
  cases hlast : slot.2 with
  | none =>
      rw [hlast] at h
      obtain ⟨later, hlater, h⟩ := bind_eq_ok.mp h
      cases pure_eq_ok.mp h
      simp [Moment.lt_addHours (by decide) hlater]
  | some reading =>
      rw [hlast] at h
      obtain ⟨last, hreading, h⟩ := bind_eq_ok.mp h
      cases pure_eq_ok.mp h
      rw [Moment.lt_of_clock, minutes_academyTime hfirst, minutes_academyTime hreading]
      simp [InOrder]

theorem addLesson_positive {course : ParsedCourse} {cells : RowCells} {startAt endAt : Moment}
    {homework : Option ParsedHomework} :
    (∀ lesson ∈ (addLesson course cells startAt endAt homework).lessons,
      lesson.startAt < lesson.endAt) ↔
      (∀ lesson ∈ course.lessons, lesson.startAt < lesson.endAt) ∧ startAt < endAt := by
  simp only [addLesson, List.forall_mem_append, List.forall_mem_singleton]

/-- One more lesson in the course of a name. -/
theorem positive_modifyCourse {name : Text} {cells : RowCells} {startAt endAt : Moment}
    {homework : Option ParsedHomework} {courses : List ParsedCourse} :
    Positive (modifyCourse name (fun course => addLesson course cells startAt endAt homework)
      courses) ↔ Positive courses ∧ startAt < endAt := by
  induction courses with
  | nil =>
      rw [modifyCourse, positive_cons, addLesson_positive]
      simp [Positive]
  | cons course courses ih =>
      rw [modifyCourse]
      split
      · rw [positive_cons, positive_cons, addLesson_positive]
        tauto
      · rw [positive_cons, positive_cons, ih, and_assoc]

section Paths

variable {p : Platform}

/-- A row that is read keeps the durations positive exactly when its own slot is in order. -/
theorem parseRow_positive {header : List (Option TableColumn)} {year : Nat} {state state' : TableState}
    {rawRow : List Text} (h : parseRow p header year state rawRow = .ok state') :
    Positive state'.1 ↔ Positive state.1 ∧
      ∀ slot, rowReading p header year rawRow = some slot → InOrder slot := by
  unfold parseRow at h
  unfold rowReading
  cases hday : parseDate (cellOf (rowCells header rawRow) .date) year with
  | none =>
      simp only [hday] at h ⊢
      cases h
      simp
  | some lessonDay =>
      simp only [hday, Option.isSome_some, ↓reduceIte] at h ⊢
      obtain ⟨times, htimes, h⟩ := bind_eq_ok.mp h
      unfold rowTimes at htimes
      cases hslot : rowSlot p (rowCells header rawRow) with
      | none =>
          rw [hslot] at htimes
          cases htimes
          cases pure_eq_ok.mp h
          simp
      | some slot =>
          rw [hslot] at htimes
          obtain ⟨⟨startAt, endAt, notes⟩, hslotTimes, rfl⟩ := map_eq_ok.mp htimes
          obtain ⟨homework, _, h⟩ := bind_eq_ok.mp h
          cases pure_eq_ok.mp h
          rw [positive_modifyCourse, slotTimes_lt hslotTimes]
          simp only [Option.bind_some, Option.map_eq_some_iff, forall_exists_index, and_imp,
            forall_apply_eq_imp_iff₂]

theorem parseTable_positive {text : Text} {day : Date} {state : TableState}
    (h : parseTable p text day = .ok state) :
    ∃ header rows, tableRows p text = .ok (header, rows) ∧
      (Positive state.1 ↔ ∀ slot ∈ rows.filterMap (rowReading p header day.year), InOrder slot) := by
  obtain ⟨⟨header, rows⟩, hrows, h⟩ := bind_eq_ok.mp h
  refine ⟨header, rows, hrows, ?_⟩
  rw [foldlM_iff (fun s rawRow s' hs => parseRow_positive hs) h]
  have hinit : Positive ([], ([] : List Text)).1 := by simp [Positive]
  simp only [hinit, true_and, List.forall_mem_filterMap]

/-! ### The path of free text -/

/-- The times of a line are in order when the range it states is; the default is. -/
theorem parseTimeRange_lt {text : Text} {shift : Bool} {span : Option (Clock × Clock)}
    (h : parseTimeRange p text shift = .ok span) :
    (span.getD defaultSpan).1.minutes < (span.getD defaultSpan).2.minutes ↔
      ∀ slot, readTimeRange p text shift = some slot → InOrder slot := by
  unfold parseTimeRange at h
  cases hread : readTimeRange p text shift with
  | none =>
      rw [hread] at h
      cases h
      simp [defaultSpan, Clock.onHour, Clock.minutes]
  | some slot =>
      rw [hread] at h
      obtain ⟨first, hfirst, h⟩ := bind_eq_ok.mp h
      obtain ⟨last, hlast, h⟩ := bind_eq_ok.mp h
      cases pure_eq_ok.mp h
      rw [Option.getD_some, minutes_academyTime hfirst, minutes_academyTime hlast]
      simp [InOrder]

theorem lessonsOn_positive {name : Text} {span : Clock × Clock} {dates : List Date}
    (hdates : dates ≠ []) :
    (∀ lesson ∈ lessonsOn name span dates, lesson.startAt < lesson.endAt) ↔
      span.1.minutes < span.2.minutes := by
  simp only [lessonsOn, List.forall_mem_map, Moment.lt_of_clock]
  obtain ⟨day, rest, rfl⟩ := List.exists_cons_of_ne_nil hdates
  constructor
  · intro h
    exact h (day, 0) (by simp)
  · exact fun h _ _ => h

/-- A line that gives lessons keeps the durations positive exactly when its own range is in order. -/
theorem readCourse_positive {known : List Text} {day : Date} {state state' : HeuristicState}
    {line : Text} (h : readCourse p known day state line = .ok state') :
    Positive state'.courses ↔ Positive state.courses ∧
      ((∃ date dates notes, lessonDates line (weekdaysIn line) day = .ok (date :: dates, notes)) →
        ∀ slot, readTimeRange p line true = some slot → InOrder slot) := by
  obtain ⟨span, hspan, h⟩ := bind_eq_ok.mp h
  obtain ⟨⟨dates, notes⟩, hdates, h⟩ := bind_eq_ok.mp h
  cases dates with
  | nil =>
      cases pure_eq_ok.mp h
      simp [hdates]
  | cons date dates =>
      cases pure_eq_ok.mp h
      simp only [positive_append_singleton, lessonsOn_positive (List.cons_ne_nil date dates),
        parseTimeRange_lt hspan]
      exact and_congr_right fun _ => ⟨fun h _ => h, fun h => h ⟨date, dates, notes, hdates⟩⟩

theorem givesLessons_iff {line : Text} {day : Date} :
    givesLessons line day = true ↔ line.isEmpty = false ∧ isHomeworkLine line = false ∧
      ∃ date dates notes, lessonDates line (weekdaysIn line) day = .ok (date :: dates, notes) := by
  rw [givesLessons, Bool.and_eq_true, Bool.and_eq_true, and_assoc, Bool.not_eq_true',
    Bool.not_eq_true']
  refine and_congr_right fun _ => and_congr_right fun _ => ?_
  cases hdates : lessonDates line (weekdaysIn line) day with
  | error e => simp
  | ok result =>
      obtain ⟨dates, notes⟩ := result
      cases dates <;> simp

theorem readLine_positive {known : List Text} {day : Date} {state state' : HeuristicState}
    {rawLine : Text} (h : readLine p known day state rawLine = .ok state') :
    Positive state'.courses ↔ Positive state.courses ∧
      ∀ slot, lineReading p day rawLine = some slot → InOrder slot := by
  unfold readLine at h
  unfold lineReading
  simp only [Option.ite_none_right_eq_some, givesLessons_iff]
  by_cases hempty : (strip rawLine).isEmpty = true
  · simp only [hempty, ↓reduceIte] at h
    cases h
    simp [hempty]
  · by_cases hhomework : isHomeworkLine (strip rawLine) = true
    · simp only [hempty, hhomework, Bool.false_eq_true, ↓reduceIte] at h
      split at h <;> cases h <;> simp [hhomework]
    · simp only [hempty, hhomework, Bool.false_eq_true, ↓reduceIte] at h
      simp only [Bool.not_eq_true] at hempty hhomework
      split at h
      · rw [readCourse_positive h]
        simp only [hempty, hhomework, true_and]
        refine and_congr_right fun _ => ⟨?_, ?_⟩
        · intro h slot hslot
          exact h hslot.1 slot hslot.2
        · intro h hdates slot hslot
          exact h slot ⟨hdates, hslot⟩
      · rename_i hnone
        cases h
        have hrange : readTimeRange p (strip rawLine) true = none := by
          simp only [isScheduleLine, Bool.or_eq_true, not_or, Option.not_isSome_iff_eq_none] at hnone
          exact hnone.1.2
        simp [hrange]

/-- Homework leaves the times of the lessons alone. -/
theorem setHomework_spans {course course' : ParsedCourse} {line : Text}
    (h : setHomework course line = .ok course') : course'.spans = course.spans := by
  obtain ⟨lessons, hlessons, h⟩ := bind_eq_ok.mp h
  cases pure_eq_ok.mp h
  apply mapM_frame _ hlessons
  intro lesson lesson' hlesson
  obtain ⟨homework, _, h⟩ := bind_eq_ok.mp hlesson
  cases pure_eq_ok.mp h
  rfl

theorem assignHomework_spans {courses courses' : List ParsedCourse} {entry : Nat × List Text}
    (h : assignHomework courses entry = .ok courses') :
    courses'.map ParsedCourse.spans = courses.map ParsedCourse.spans := by
  unfold assignHomework at h
  cases hcourse : courses[entry.1]? with
  | none =>
      rw [hcourse] at h
      cases h
      rfl
  | some course =>
      rw [hcourse] at h
      obtain ⟨course', hset, h⟩ := bind_eq_ok.mp h
      cases pure_eq_ok.mp h
      have hspans := foldlM_frame (fun c line c' hc => setHomework_spans hc) hset
      obtain ⟨hlt, hget⟩ := List.getElem?_eq_some_iff.mp hcourse
      have hbound : entry.1 < (courses.map ParsedCourse.spans).length := by rwa [List.length_map]
      have hself : (courses.map ParsedCourse.spans)[entry.1] = course.spans := by
        rw [List.getElem_map, hget]
      rw [List.map_set, hspans, ← hself, List.set_getElem_self]

theorem heuristicParse_positive {text : Text} {known : List Text} {day : Date}
    {courses : List ParsedCourse} {assumptions : List Text}
    (h : heuristicParse p text known day = .ok (courses, assumptions)) :
    Positive courses ↔ ∀ slot ∈ (splitLines text).filterMap (lineReading p day), InOrder slot := by
  obtain ⟨state, hstate, h⟩ := bind_eq_ok.mp h
  obtain ⟨assigned, hassigned, h⟩ := bind_eq_ok.mp h
  cases pure_eq_ok.mp h
  have hinit : Positive [] := by simp [Positive]
  rw [positive_of_spans (foldlM_frame (fun c entry c' hc => assignHomework_spans hc) hassigned),
    foldlM_iff (fun s line s' hs => readLine_positive hs) hstate]
  simp only [hinit, true_and, List.forall_mem_filterMap]

/-! ### Entities -/

section Resolve

variable {similarity : Text → Text → Rat}

theorem resolveTeacher_lessons (course : PlannedCourse) (teachers : List KnownTeacher)
    (uid : Option Int) :
    (resolveTeacher p similarity course teachers uid).course.lessons = course.lessons := by
  unfold resolveTeacher resolveUnnamed
  dsimp only
  split
  · split <;> rfl
  · split
    · rfl
    · split <;> rfl

theorem resolveCourse_lessons {course course' : PlannedCourse} {rows : List (Int × CourseRow)}
    {notes : List Text} {uid : Option Int}
    (h : resolveCourse p similarity course rows = .ok (course', notes, uid)) :
    course'.lessons = course.lessons := by
  unfold resolveCourse at h
  dsimp only at h
  split at h
  · cases h
    rfl
  · split at h
    · cases h
      rfl
    · split at h
      · cases h
        rfl
      · obtain ⟨_, _, h⟩ := map_eq_ok.mp h
        cases h
        rfl

/-- Looking up the entities keeps every lesson. -/
theorem resolveEntities_lessons {plan plan' : ParsePlan} {teachers : List KnownTeacher}
    {rows : List (Int × CourseRow)}
    (h : resolveEntities p similarity plan teachers rows = .ok plan') :
    plan'.courses.map (fun course => course.lessons) =
      plan.courses.map fun course => course.lessons := by
  have hstep (s : ParsePlan) (course : PlannedCourse) (s' : ParsePlan)
      (hs : resolveNext p similarity teachers rows s course = .ok s') :
      s'.courses.map (fun course => course.lessons) =
        s.courses.map (fun course => course.lessons) ++ [course.lessons] := by
    obtain ⟨⟨resolved, notes, uid⟩, hcourse, hs⟩ := bind_eq_ok.mp hs
    cases pure_eq_ok.mp hs
    rw [List.map_append, List.map_singleton, resolveTeacher_lessons, resolveCourse_lessons hcourse]
  exact foldlM_append (fun s course s' hs => hstep s course s' hs) h

/-- The lessons of a plan are those of the courses that were read. -/
theorem smartParse_lessons {teacherRows : List (Int × TeacherRow)}
    {courseRows : List (Int × CourseRow)} {now : Date} {today : Today} {rawText : Text}
    {plan : ParsePlan}
    (h : smartParse p similarity teacherRows courseRows now today rawText = .ok plan) :
    ∃ day courses assumptions sourceFormat, asDate now today = .ok day ∧
      readCourses p (storeTeachers teacherRows) (strip rawText) day =
        .ok (courses, assumptions, sourceFormat) ∧
      (PositiveDurations plan ↔ Positive courses) := by
  unfold smartParse at h
  dsimp only at h
  split at h
  · cases h
  · obtain ⟨day, hday, h⟩ := bind_eq_ok.mp h
    obtain ⟨⟨courses, assumptions, sourceFormat⟩, hcourses, h⟩ := bind_eq_ok.mp h
    dsimp only at h
    split at h
    · cases h
    · refine ⟨day, courses, assumptions, sourceFormat, hday, hcourses, ?_⟩
      have hlessons := resolveEntities_lessons h
      rw [List.map_map] at hlessons
      have hplan : PositiveDurations plan ↔ ∀ lessons ∈ plan.courses.map fun course => course.lessons,
          ∀ lesson ∈ lessons, lesson.startAt < lesson.endAt := by
        rw [List.forall_mem_map, PositiveDurations]
      rw [hplan, hlessons, List.forall_mem_map, Positive, List.forall_mem_map]
      exact forall₂_congr fun course _ => forall_spans.symm

end Resolve

end Paths

/-- Every lesson of a plan has a positive duration exactly when every slot that is stated by a row or
a line with lessons is in order once its hours are moved to the evening. -/
theorem durations_positive_iff (p : Platform) (similarity : Text → Text → Rat)
    (teacherRows : List (Int × TeacherRow)) (courseRows : List (Int × CourseRow)) (now : Date)
    (today : Today) (rawText : Text) (plan : ParsePlan)
    (h : smartParse p similarity teacherRows courseRows now today rawText = .ok plan) :
    PositiveDurations plan ↔ ∀ slot ∈ statedSlots p now today rawText, InOrder slot := by
  obtain ⟨day, courses, assumptions, sourceFormat, hday, hcourses, hpositive⟩ := smartParse_lessons h
  rw [hpositive]
  unfold readCourses at hcourses
  unfold statedSlots
  simp only [hday]
  split at hcourses
  · rename_i hcsv
    obtain ⟨state, hstate, hresult⟩ := map_eq_ok.mp hcourses
    cases hresult
    obtain ⟨header, rows, hrows, hiff⟩ := parseTable_positive hstate
    simp only [hcsv, ↓reduceIte, hrows]
    exact hiff
  · rename_i htext
    obtain ⟨⟨courses, assumptions⟩, hresult, heq⟩ := map_eq_ok.mp hcourses
    cases heq
    simp only [htext, Bool.false_eq_true, ↓reduceIte]
    exact heuristicParse_positive hresult

/-- 1 April 2026. -/
def aprilFirst : Date := .firstOfApril2026

/-- A text parsed on that day without any known teacher or course. -/
def planOf (text : String) : Except PyError ParsePlan :=
  smartParse .plain (fun _ _ => 0) [] [] aprilFirst .missing text.toList

/-- Seven to nine is an evening class. -/
theorem eveningClass_positive : ∃ plan, planOf "수학 화/목 7-9시" = .ok plan ∧ PositiveDurations plan := by
  have hreturns : (planOf "수학 화/목 7-9시").toOption.isSome = true := by decide
  obtain ⟨plan, hplan⟩ := exists_ok hreturns
  exact ⟨plan, hplan, (durations_positive_iff .plain _ _ _ _ _ _ _ hplan).mpr (by decide)⟩

/-- Nine to ten starts in the evening and ends in the morning. -/
theorem straddlingRange_reversed :
    ¬∀ (p : Platform) (similarity : Text → Text → Rat) (teacherRows : List (Int × TeacherRow))
      (courseRows : List (Int × CourseRow)) (now : Date) (today : Today) (rawText : Text)
      (plan : ParsePlan),
      smartParse p similarity teacherRows courseRows now today rawText = .ok plan →
        PositiveDurations plan := by
  intro h
  have hreversed : (planOf "수학 화/목 9-10시").toOption.any (fun plan => !PositiveDurations plan) =
      true := by decide
  obtain ⟨plan, hplan, hnot⟩ := exists_ok_of_any hreversed
  have hpositive := h _ _ _ _ _ _ _ plan hplan
  simp [hpositive] at hnot

end ClassinDashboard

import ClassinDashboard.LessonDuration

/-!
The lessons that the rule-based reader makes of a line. No line sees another: the courses of a text are
those of its lines, in order, whatever the other lines, the names and the homework are.
-/

namespace ClassinDashboard

open Py

variable (p : Platform)

/-- A line that gives a course, when it has dates. -/
def isCourseLine (line : Text) (day : Date) : Bool :=
  !line.isEmpty && !isHomeworkLine line && isScheduleLine p line day

/-- Where the lessons of a line start and end. -/
def lineLessons (day : Date) (rawLine : Text) : List (Moment × Moment) :=
  let line := strip rawLine
  if isCourseLine p line day then
    match parseTimeRange p line true, lessonDates line (weekdaysIn line) day with
    | .ok span, .ok (dates, _) =>
        let span := span.getD defaultSpan
        dates.map fun date => (⟨date, span.1⟩, ⟨date, span.2⟩)
    | _, _ => []
  else []

/-- The lessons of the course of a line, when it gives one. -/
def lineCourse (day : Date) (rawLine : Text) : Option (List (Moment × Moment)) :=
  let lessons := lineLessons p day rawLine
  if lessons.isEmpty then none else some lessons

variable {p}

theorem spans_lessonsOn (name : Text) (span : Clock × Clock) (dates : List Date) :
    (lessonsOn name span dates).map (fun lesson => (lesson.startAt, lesson.endAt)) =
      dates.map fun date => (⟨date, span.1⟩, ⟨date, span.2⟩) := by
  rw [lessonsOn, List.map_map]
  conv_rhs => rw [← List.zipIdx_map_fst 0 dates, List.map_map]
  rfl

theorem readLine_spans {known : List Text} {day : Date} {state state' : HeuristicState}
    {rawLine : Text} (h : readLine p known day state rawLine = .ok state') :
    state'.courses.map ParsedCourse.spans =
      state.courses.map ParsedCourse.spans ++ (lineCourse p day rawLine).toList := by
  have hnothing (hline : isCourseLine p (strip rawLine) day = false) :
      (lineCourse p day rawLine).toList = [] := by
    simp [lineCourse, lineLessons, hline]
  unfold readLine at h
  by_cases hempty : (strip rawLine).isEmpty = true
  · simp only [hempty, ↓reduceIte] at h
    cases h
    rw [hnothing (by simp [isCourseLine, hempty]), List.append_nil]
  · by_cases hhomework : isHomeworkLine (strip rawLine) = true
    · simp only [hempty, hhomework, Bool.false_eq_true, ↓reduceIte] at h
      rw [hnothing (by simp [isCourseLine, hhomework]), List.append_nil]
      split at h <;> cases h <;> rfl
    · simp only [hempty, hhomework, Bool.false_eq_true, ↓reduceIte] at h
      split at h
      · rename_i hschedule
        have hline : isCourseLine p (strip rawLine) day = true := by
          simp [isCourseLine, hempty, hhomework, hschedule]
        obtain ⟨span, hspan, h⟩ := bind_eq_ok.mp h
        obtain ⟨⟨dates, notes⟩, hdates, h⟩ := bind_eq_ok.mp h
        have hlessons : lineLessons p day rawLine = dates.map fun date =>
            (⟨date, (span.getD defaultSpan).1⟩, ⟨date, (span.getD defaultSpan).2⟩) := by
          unfold lineLessons
          simp only [hline, ↓reduceIte, hspan, hdates]
        cases dates with
        | nil =>
            cases pure_eq_ok.mp h
            simp [lineCourse, hlessons]
        | cons date dates =>
            cases pure_eq_ok.mp h
            have hcourse : lineCourse p day rawLine = some (lineLessons p day rawLine) := by
              simp [lineCourse, hlessons]
            rw [hcourse, hlessons, List.map_append, ← spans_lessonsOn]
            rfl
      · rename_i hschedule
        cases h
        rw [hnothing (by simp [isCourseLine, hschedule]), List.append_nil]

/-- The courses of a text are those of its lines. -/
theorem heuristicParse_spans {text : Text} {known : List Text} {day : Date}
    {courses : List ParsedCourse} {assumptions : List Text}
    (h : heuristicParse p text known day = .ok (courses, assumptions)) :
    courses.map ParsedCourse.spans = (splitLines text).filterMap (lineCourse p day) := by
  obtain ⟨state, hstate, h⟩ := bind_eq_ok.mp h
  obtain ⟨assigned, hassigned, h⟩ := bind_eq_ok.mp h
  cases pure_eq_ok.mp h
  rw [foldlM_frame (fun c entry c' hc => assignHomework_spans hc) hassigned,
    foldlM_filterMap (fun s line s' hs => readLine_spans hs) hstate]
  rfl

end ClassinDashboard

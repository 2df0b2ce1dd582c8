import ClassinDashboard.LineLessons

/-!
The rule-based reader without its names: what is read of a text when only the times of its lessons are
kept. Known teachers, course names and titles have no part in it.
-/

namespace Py

section Views

variable {ε α β σ τ : Type}

/-- A loop seen through a view of its states is the loop of what the view makes of an iteration. -/
theorem foldlM_view {view : σ → τ} {step : σ → α → Except ε σ} {step' : τ → α → Except ε τ}
    (hstep : ∀ s a, (step s a).map view = step' (view s) a) (xs : List α) (s : σ) :
    (xs.foldlM step s).map view = xs.foldlM step' (view s) := by
  induction xs generalizing s with
  | nil => rfl
  | cons x xs ih =>
      rw [List.foldlM_cons, List.foldlM_cons, ← hstep]
      cases step s x with
      | error e => rfl
      | ok s' => exact ih s'

theorem mapM_view {view : α → β} {f : α → Except ε α} {f' : β → Except ε β}
    (hf : ∀ a, (f a).map view = f' (view a)) (xs : List α) :
    (xs.mapM f).map (List.map view) = (xs.map view).mapM f' := by
  induction xs with
  | nil => rfl
  | cons x xs ih =>
      rw [List.map_cons, List.mapM_cons, List.mapM_cons, ← hf, ← ih]
      cases f x with
      | error e => rfl
      | ok y => cases xs.mapM f <;> rfl

end Views
end Py

namespace ClassinDashboard

open Py

/-- Where a lesson starts and ends. -/
abbrev Span := Moment × Moment

section Times

variable (p : Platform) (today : Date)

/-- The times of the lessons of a line that is no homework. -/
def lineTimes (line : Text) : Except PyError (List Span) := do
  let span ← parseTimeRange p line true
  let (dates, _) ← lessonDates line (weekdaysIn line) today
  pure (dates.map fun date => (⟨date, (span.getD defaultSpan).1⟩, ⟨date, (span.getD defaultSpan).2⟩))

/-- The courses so far by the times of their lessons, and the homework lines. -/
structure Timetable where
  courses : List (List Span)
  homeworkLines : List (Nat × List Text)

namespace Timetable

def readLine (table : Timetable) (rawLine : Text) : Except PyError Timetable :=
  let line := strip rawLine
  if line.isEmpty then .ok table
  else if isHomeworkLine line then
    if table.courses.isEmpty then .ok table
    else .ok { table with
      homeworkLines := addHomeworkLine (table.courses.length - 1) line table.homeworkLines }
  else (lineTimes p today line).map fun times =>
    if times.isEmpty then table else { table with courses := table.courses ++ [times] }

/-- The deadlines of a line of homework may be beyond the calendar. -/
def setHomework (lessons : List Span) (line : Text) : Except PyError (List Span) :=
  lessons.mapM fun lesson => (homeworkFrom line lesson.2).map fun _ => lesson

def assignHomework (courses : List (List Span)) (entry : Nat × List Text) :
    Except PyError (List (List Span)) :=
  match courses[entry.1]? with
  | none => .ok courses
  | some lessons => do
      let lessons ← entry.2.foldlM setHomework lessons
      pure (courses.set entry.1 lessons)

/-- The courses of the lines of a text. -/
def ofLines (lines : List Text) : Except PyError (List (List Span)) := do
  let table ← lines.foldlM (readLine p today) ⟨[], []⟩
  table.homeworkLines.foldlM assignHomework table.courses

end Timetable

/-- The times of the lessons that the rule-based reader makes of a text. -/
def lessonTimes (known : List Text) (text : Text) : Except PyError (List (List Span)) :=
  (heuristicParse p text known today).map fun result => result.1.map ParsedCourse.spans

end Times

section Refinement

variable {p : Platform} {today : Date}

def HeuristicState.timetable (state : HeuristicState) : Timetable :=
  ⟨state.courses.map ParsedCourse.spans, state.homeworkLines⟩

/-- A line that is no schedule has no lessons. -/
theorem lineTimes_of_noSchedule {line : Text} (h : isScheduleLine p line today = false) :
    lineTimes p today line = .ok [] := by
  simp only [isScheduleLine, Bool.or_eq_false_iff, Bool.not_eq_false', List.isEmpty_iff,
    Option.isSome_eq_false_iff, Option.isNone_iff_eq_none] at h
  simp only [lineTimes, parseTimeRange, h.1.2, lessonDates, h.1.1, h.2]
  rfl

theorem readCourse_timetable {known : List Text} {state : HeuristicState} {line : Text} :
    (readCourse p known today state line).map HeuristicState.timetable =
      (lineTimes p today line).map fun times =>
        if times.isEmpty then state.timetable
        else { state.timetable with courses := state.timetable.courses ++ [times] } := by
  rw [readCourse, lineTimes]
  cases parseTimeRange p line true with
  | error e => rfl
  | ok span =>
      cases lessonDates line (weekdaysIn line) today with
      | error e => rfl
      | ok found =>
          obtain ⟨dates, notes⟩ := found
          cases dates with
          | nil => rfl
          | cons date dates =>
              refine congrArg Except.ok ?_
              simp only [HeuristicState.timetable, List.map_append, List.map_cons, List.map_nil]
              rw [ParsedCourse.spans, spans_lessonsOn]
              rfl

/-- What a line adds to the courses is seen without names. -/
theorem readLine_timetable {known : List Text} (state : HeuristicState) (rawLine : Text) :
    (readLine p known today state rawLine).map HeuristicState.timetable =
      state.timetable.readLine p today rawLine := by
  have hempty : state.timetable.courses.isEmpty = state.courses.isEmpty := List.isEmpty_map
  have hlength : state.timetable.courses.length = state.courses.length := List.length_map _
  rw [readLine, Timetable.readLine]
  simp only [hempty, hlength]
  split
  · rfl
  · split
    · split <;> rfl
    · split
      · exact readCourse_timetable
      · rename_i hschedule
        rw [lineTimes_of_noSchedule (Bool.not_eq_true _ ▸ hschedule)]
        rfl

/-- One lesson with a line of homework. -/
def addHomework (line : Text) (lesson : ParsedLesson) : Except PyError ParsedLesson := do
  let homework ← homeworkFrom line lesson.endAt
  pure { lesson with homework := some homework }

theorem setHomework_timetable (course : ParsedCourse) (line : Text) :
    (setHomework course line).map ParsedCourse.spans = Timetable.setHomework course.spans line := by
  have hlesson (lesson : ParsedLesson) :
      (addHomework line lesson).map (fun lesson => (lesson.startAt, lesson.endAt)) =
        (homeworkFrom line lesson.endAt).map fun _ => (lesson.startAt, lesson.endAt) := by
    rw [addHomework]
    cases homeworkFrom line lesson.endAt <;> rfl
  have hset : setHomework course line = (course.lessons.mapM (addHomework line)) >>= fun lessons =>
      pure { course with lessons } := rfl
  rw [hset, Timetable.setHomework, ParsedCourse.spans, ← mapM_view hlesson]
  cases course.lessons.mapM (addHomework line) <;> rfl

theorem assignHomework_timetable (courses : List ParsedCourse) (entry : Nat × List Text) :
    (assignHomework courses entry).map (List.map ParsedCourse.spans) =
      Timetable.assignHomework (courses.map ParsedCourse.spans) entry := by
  rw [assignHomework, Timetable.assignHomework, List.getElem?_map]
  cases courses[entry.1]? with
  | none => rfl
  | some course =>
      rw [Option.map_some]
      simp only
      rw [← foldlM_view setHomework_timetable]
      cases entry.2.foldlM setHomework course with
      | error e => rfl
      | ok course' => exact congrArg Except.ok (List.map_set ..)

/-- The reader refines the timetable: its courses have the times that are read without names. -/
theorem lessonTimes_eq (known : List Text) (text : Text) :
    lessonTimes p today known text = Timetable.ofLines p today (splitLines text) := by
  rw [lessonTimes, heuristicParse, Timetable.ofLines]
  have hlines : ((splitLines text).foldlM (readLine p (known.filter fun name => !name.isEmpty) today)
      ⟨[], [], []⟩).map HeuristicState.timetable =
        (splitLines text).foldlM (Timetable.readLine p today) ⟨[], []⟩ :=
    foldlM_view readLine_timetable _ _
  rw [← hlines]
  cases (splitLines text).foldlM (readLine p (known.filter fun name => !name.isEmpty) today)
      ⟨[], [], []⟩ with
  | error e => rfl
  | ok state =>
      have hhomework := foldlM_view assignHomework_timetable state.homeworkLines state.courses
      change _ = state.homeworkLines.foldlM Timetable.assignHomework (state.courses.map ParsedCourse.spans)
      rw [← hhomework]
      change (state.homeworkLines.foldlM assignHomework state.courses >>= fun courses => _).map _ = _
      cases state.homeworkLines.foldlM assignHomework state.courses <;> rfl

end Refinement

end ClassinDashboard

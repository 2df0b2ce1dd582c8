import ClassinDashboard.LessonDuration
import ClassinDashboard.PyDateTime
import ClassinDashboard.WebhookSchemas

/-!
The pipeline of the schedule parser with an AI reader in front of the rules. Its reply is validated by
pydantic, which takes any datetime, so that the lessons of a plan hold datetimes in place of moments in
Korean time. What pydantic makes of a value for a `datetime` is arbitrary, as is the reply.
-/

namespace ClassinDashboard

open Py

/-! ### What a reply is validated into -/

/-- A `ParsedHomework`. -/
structure DatedHomework where
  title : Text
  dueAt : Option DateTime

/-- A `ParsedLesson`, without the confidence that only the preview shows. -/
structure DatedLesson where
  title : Text
  startAt : DateTime
  endAt : DateTime
  homework : Option DatedHomework

/-- A `ParsedCourse`. -/
structure DatedCourse where
  courseName : Text
  teacherName : Option Text
  lessons : List DatedLesson

/-- `_kst` on the times of what the deterministic readers return. -/
def DatedHomework.ofParsed (homework : ParsedHomework) : DatedHomework :=
  ⟨homework.title, homework.dueAt.map DateTime.kst⟩

def DatedLesson.ofParsed (lesson : ParsedLesson) : DatedLesson :=
  ⟨lesson.title, .kst lesson.startAt, .kst lesson.endAt, lesson.homework.map .ofParsed⟩

def DatedCourse.ofParsed (course : ParsedCourse) : DatedCourse :=
  ⟨course.courseName, course.teacherName, course.lessons.map .ofParsed⟩

/-- The start, the end and the time that the homework is due. -/
def DatedLesson.times (lesson : DatedLesson) : List DateTime :=
  lesson.startAt :: lesson.endAt :: (lesson.homework.bind DatedHomework.dueAt).toList

section Validate

variable (p : Platform) (dateTime : Validator DateTime)

def textField : Validator Text := fun value => (p.str value).map String.toList

def datedHomework : Validator DatedHomework := modelOf fun items => do
  let title ← required (textField p) items "title"
  let dueAt ← optional dateTime items "due_at"
  pure ⟨title, dueAt⟩

def datedLesson : Validator DatedLesson := modelOf fun items => do
  let title ← required (textField p) items "title"
  let startAt ← required dateTime items "start_at"
  let endAt ← required dateTime items "end_at"
  let homework ← optional (datedHomework p dateTime) items "homework"
  let _ ← withDefault p.float (.fin 1) items "confidence"
  pure ⟨title, startAt, endAt, homework⟩

def datedCourse : Validator DatedCourse := modelOf fun items => do
  let courseName ← required (textField p) items "course_name"
  let teacherName ← optional (textField p) items "teacher_name"
  let lessons ← withDefault (listOf (datedLesson p dateTime)) [] items "lessons"
  let _ ← withDefault p.float (.fin 1) items "confidence"
  pure ⟨courseName, teacherName, lessons⟩

/-- `ParsedCourse.model_validate(value)` -/
def validateCourse (value : PyValue) : Except PyError DatedCourse :=
  match datedCourse p dateTime value with
  | some course => .ok course
  | none => .error .validationError

/-- A reply is an object with courses and assumptions, or the array of the courses alone. -/
def coerceAiPayload (data : PyValue) : Except PyError (List DatedCourse × List PyStr) := do
  let (rawCourses, assumptions) ← match data with
    | .dict items => do
        let assumptions ← ((PyValue.get items "assumptions").orElse (.list [])).iterate
        let rawCourses ← ((PyValue.get items "courses").orElse (.list [])).iterate
        pure (rawCourses, assumptions.map p.strOf)
    | .list items => pure (items, [])
    | _ => .error .valueError
  let courses ← rawCourses.mapM (validateCourse p dateTime)
  pure (courses, assumptions)

/-- How the AI call ends, if there is a key for it: the JSON value of the reply, or any exception. -/
abbrev AiReply := Option (Except PyError PyValue)

/-- The courses of the AI reader, when it read any; else the text is left to the rules. -/
def aiCourses (reply : AiReply) : Option (List DatedCourse × List PyStr) :=
  match reply with
  | none => none
  | some answer =>
      match answer.bind (coerceAiPayload p dateTime) with
      | .ok (courses, assumptions) =>
          if courses.isEmpty then none else some (courses, assumptions)
      | .error _ => none

end Validate

/-! ### The pipeline -/

/-- A plan with dated lessons. The lessons of each course stand beside it: the entities are looked up
by names alone. -/
structure DatedPlan where
  courses : List (PlannedCourse × List DatedLesson)
  assumptions : List Text
  needsConfirm : List Question
  sourceFormat : SourceFormat

/-- The names of a course. -/
def DatedCourse.outline (course : DatedCourse) : ParsedCourse :=
  ⟨course.courseName, course.teacherName, [], 1⟩

/-- An element of `list[str]`. -/
def validText : PyStr → Except PyError Text
  | .text s => .ok s.toList
  | .lone _ _ => .error .validationError

section Pipeline

variable (p : Platform) (dateTime : Validator DateTime) (similarity : Text → Text → Rat)

/-- The courses of the table or of the rules, dated, and the assumptions. -/
def datedByRules (read : List ParsedCourse × List Text) (sourceFormat : SourceFormat) :
    List DatedCourse × List PyStr × SourceFormat :=
  (read.1.map .ofParsed, read.2.map fun note => .text (String.ofList note), sourceFormat)

/-- `_free_text_courses` -/
def freeTextCourses (reply : AiReply) (teachers : List KnownTeacher) (text : Text) (day : Date) :
    Except PyError (List DatedCourse × List PyStr × SourceFormat) :=
  match aiCourses p dateTime reply with
  | some (courses, assumptions) => .ok (courses, assumptions, .textAi)
  | none =>
      (heuristicParse p text (teachers.map KnownTeacher.name) day).map fun read =>
        datedByRules read .textHeuristic

/-- The courses of a text, the assumptions and the path that read them. -/
def datedCourses (reply : AiReply) (teachers : List KnownTeacher) (text : Text) (day : Date) :
    Except PyError (List DatedCourse × List PyStr × SourceFormat) :=
  if isCsv p text then (parseTable p text day).map fun read => datedByRules read .csv
  else freeTextCourses p dateTime reply teachers text day

/-- `smart_parse` with the reply of the AI, if it has a key. -/
def smartParseAi (reply : AiReply) (teacherRows : List (Int × TeacherRow))
    (courseRows : List (Int × CourseRow)) (now : Date) (today : Today) (rawText : Text) :
    Except PyError DatedPlan := do
  let teachers := storeTeachers teacherRows
  let text := strip rawText
  if text.isEmpty then throw .valueError
  let day ← asDate now today
  let (courses, assumptions, sourceFormat) ← datedCourses p dateTime reply teachers text day
  if courses.isEmpty then throw .valueError
  let assumptions ← assumptions.mapM validText
  let plan ← resolveEntities p similarity
    ⟨courses.map fun course => .ofParsed course.outline, assumptions, [], sourceFormat⟩ teachers
    courseRows
  pure ⟨plan.courses.zip (courses.map DatedCourse.lessons), plan.assumptions, plan.needsConfirm,
    plan.sourceFormat⟩

end Pipeline

/-! ### Where the AI reads nothing -/

/-- A course of a plan without its lessons. -/
def PlannedCourse.outlined (course : PlannedCourse) : PlannedCourse :=
  { course with lessons := [], confidence := 1 }

def Resolution.outlined (resolution : Resolution) : Resolution :=
  { resolution with course := resolution.course.outlined }

def ParsePlan.outlined (plan : ParsePlan) : ParsePlan :=
  { plan with courses := plan.courses.map PlannedCourse.outlined }

/-- A plan in Korean time. -/
def DatedPlan.ofPlan (plan : ParsePlan) : DatedPlan :=
  ⟨plan.courses.map fun course => (course.outlined, course.lessons.map .ofParsed), plan.assumptions,
    plan.needsConfirm, plan.sourceFormat⟩

section Outlines

variable (p : Platform) (similarity : Text → Text → Rat)

theorem resolveCourse_outlined (course : PlannedCourse) (rows : List (Int × CourseRow)) :
    resolveCourse p similarity course.outlined rows =
      (resolveCourse p similarity course rows).map fun r => (r.1.outlined, r.2.1, r.2.2) := by
  unfold resolveCourse
  simp only [PlannedCourse.outlined]
  by_cases hempty : (normalizeCourseName p course.courseName).isEmpty = true
  · simp only [hempty, if_true]
    rfl
  · simp only [hempty, Bool.false_eq_true, if_false]
    rcases bestCourse p similarity (normalizeCourseName p course.courseName) rows with ⟨row, score⟩
    cases row with
    | none => rfl
    | some row =>
        by_cases hscore : score < 85 / 100
        · simp only [hscore, if_true]
          rfl
        · simp only [hscore, if_false]
          cases cellInt row.2.teacherUid <;> rfl

theorem resolveUnnamed_outlined (course : PlannedCourse) (teachers : List KnownTeacher)
    (uid : Option Int) :
    resolveUnnamed course.outlined teachers uid = (resolveUnnamed course teachers uid).outlined := by
  unfold resolveUnnamed
  cases uid.filter (· ≠ 0) with
  | some uid => rfl
  | none =>
      match teachers with
      | [] => rfl
      | [_] => rfl
      | _ :: _ :: _ => rfl

theorem resolveTeacher_outlined (course : PlannedCourse) (teachers : List KnownTeacher)
    (uid : Option Int) :
    resolveTeacher p similarity course.outlined teachers uid =
      (resolveTeacher p similarity course teachers uid).outlined := by
  have hname : course.outlined.teacherName = course.teacherName := rfl
  unfold resolveTeacher
  dsimp only
  rw [hname]
  split
  · exact resolveUnnamed_outlined course teachers uid
  · cases ((teacherScores p similarity (strip (course.teacherName.getD [])) teachers).map
      Prod.fst).max? with
    | none => rfl
    | some best =>
        dsimp only
        match bestTeachers (teacherScores p similarity (strip (course.teacherName.getD [])) teachers)
          best with
        | [] => rfl
        | [_] => rfl
        | _ :: _ :: _ => rfl

/-- The entities are looked up by names alone. -/
theorem resolveEntities_outlined (plan : ParsePlan) (teachers : List KnownTeacher)
    (rows : List (Int × CourseRow)) :
    resolveEntities p similarity plan.outlined teachers rows =
      (resolveEntities p similarity plan teachers rows).map ParsePlan.outlined := by
  have hstep (s : ParsePlan) (course : PlannedCourse) :
      resolveNext p similarity teachers rows s.outlined course.outlined =
        (resolveNext p similarity teachers rows s course).map ParsePlan.outlined := by
    unfold resolveNext
    rw [resolveCourse_outlined]
    cases resolveCourse p similarity course rows with
    | error e => rfl
    | ok found =>
        show Except.ok _ = Except.ok _
        rw [resolveTeacher_outlined]
        simp only [ParsePlan.outlined, Resolution.outlined, List.map_append, List.map_singleton]
  have hstart : ({ plan.outlined with courses := [] } : ParsePlan) =
      ParsePlan.outlined { plan with courses := [] } := rfl
  rw [resolveEntities, hstart]
  exact foldlM_hom hstep

end Outlines

section Rules

variable {p : Platform} {dateTime : Validator DateTime} {similarity : Text → Text → Rat}

theorem mapM_validText (notes : List Text) :
    (notes.map fun note => PyStr.text (String.ofList note)).mapM validText = .ok notes := by
  induction notes with
  | nil => rfl
  | cons note notes ih =>
      rw [List.map_cons, List.mapM_cons, ih, validText, String.toList_ofList]
      rfl

theorem datedCourses_of_rules {reply : AiReply} {teachers : List KnownTeacher} {text : Text}
    {day : Date} (h : isCsv p text = true ∨ aiCourses p dateTime reply = none) :
    datedCourses p dateTime reply teachers text day =
      (readCourses p teachers text day).map fun read => datedByRules (read.1, read.2.1) read.2.2 := by
  unfold datedCourses readCourses
  split
  · cases parseTable p text day <;> rfl
  · rename_i hcsv
    rw [freeTextCourses, h.resolve_left hcsv]
    cases heuristicParse p text (teachers.map KnownTeacher.name) day <;> rfl

theorem outlines_ofParsed (courses : List ParsedCourse) (notes : List Text)
    (sourceFormat : SourceFormat) :
    (⟨(courses.map DatedCourse.ofParsed).map fun course => .ofParsed course.outline, notes, [],
      sourceFormat⟩ : ParsePlan) =
      ParsePlan.outlined ⟨courses.map PlannedCourse.ofParsed, notes, [], sourceFormat⟩ := by
  simp only [ParsePlan.outlined, List.map_map]
  rfl

/-- The lessons of the courses stand beside the courses they were read for. -/
theorem zip_outlined {courses : List ParsedCourse} {notes : List Text} {sourceFormat : SourceFormat}
    {teachers : List KnownTeacher} {rows : List (Int × CourseRow)} {plan : ParsePlan}
    (h : resolveEntities p similarity ⟨courses.map PlannedCourse.ofParsed, notes, [], sourceFormat⟩
      teachers rows = .ok plan) :
    (⟨plan.outlined.courses.zip ((courses.map DatedCourse.ofParsed).map DatedCourse.lessons),
      plan.assumptions, plan.needsConfirm, plan.sourceFormat⟩ : DatedPlan) = .ofPlan plan := by
  have hlessons : courses.map ParsedCourse.lessons =
      plan.courses.map fun course => course.lessons := by
    rw [resolveEntities_lessons h, List.map_map]
    rfl
  have hdated : (courses.map DatedCourse.ofParsed).map DatedCourse.lessons =
      plan.courses.map fun course => course.lessons.map DatedLesson.ofParsed := by
    calc (courses.map DatedCourse.ofParsed).map DatedCourse.lessons
        = (courses.map ParsedCourse.lessons).map (List.map DatedLesson.ofParsed) := by
          simp only [List.map_map]
          rfl
      _ = plan.courses.map fun course => course.lessons.map DatedLesson.ofParsed := by
          rw [hlessons, List.map_map]
          rfl
  rw [hdated, ParsePlan.outlined, List.zip_map', DatedPlan.ofPlan]

/-- Without a key, after a failed call, or for a table, the plan is that of the rules, in Korean
time. -/
theorem smartParseAi_of_rules {reply : AiReply} {teacherRows : List (Int × TeacherRow)}
    {courseRows : List (Int × CourseRow)} {now : Date} {today : Today} {rawText : Text}
    (h : isCsv p (strip rawText) = true ∨ aiCourses p dateTime reply = none) :
    smartParseAi p dateTime similarity reply teacherRows courseRows now today rawText =
      (smartParse p similarity teacherRows courseRows now today rawText).map DatedPlan.ofPlan := by
  unfold smartParseAi smartParse
  simp only [datedCourses_of_rules h]
  split
  · rfl
  · cases asDate now today with
    | error e => rfl
    | ok day =>
        dsimp only [bind, Except.bind]
        cases readCourses p (storeTeachers teacherRows) (strip rawText) day with
        | error e => rfl
        | ok read =>
            obtain ⟨courses, notes, sourceFormat⟩ := read
            dsimp only [Except.map, datedByRules]
            rw [List.isEmpty_map, mapM_validText]
            cases courses.isEmpty with
            | true => rfl
            | false =>
                dsimp only [Bool.false_eq_true, if_false]
                rw [outlines_ofParsed, resolveEntities_outlined]
                cases hplan : resolveEntities p similarity ⟨courses.map PlannedCourse.ofParsed, notes,
                  [], sourceFormat⟩ (storeTeachers teacherRows) courseRows with
                | error e => rfl
                | ok plan => exact congrArg Except.ok (zip_outlined hplan)

end Rules

end ClassinDashboard

import ClassinDashboard.ScheduleHeuristic
import ClassinDashboard.ScheduleResolve

/-!
The pipeline of the schedule parser without an AI key: a table or free text, then the entities. The
rows of the teachers and courses in scope are given as the scoped reads of the store return them.
-/

namespace ClassinDashboard

open Py

/-- What a caller passes for today. -/
inductive Today
  | missing
  | date (day : Date)
  | naive (moment : Moment)
  /-- A `datetime` in the zone of the program itself. -/
  | kst (moment : Moment)
  /-- Any other zone: microseconds since midnight and the offset from UTC in microseconds. -/
  | aware (day : Date) (time offset : Int)

def dayMicroseconds : Int := 86400000000

/-- The date of a number of microseconds since the start of day 0. -/
def dateOfMicroseconds (n : Int) : Except PyError Date :=
  match Date.ofOrdinal? (n / dayMicroseconds) with
  | some day => .ok day
  | none => .error .overflowError

/-- The date of today; `now` is the date on the clock. -/
def asDate (now : Date) : Today → Except PyError Date
  | .missing => .ok now
  | .date day => .ok day
  | .naive moment | .kst moment => .ok moment.day
  | .aware day time offset => do
      let utc := dayMicroseconds * day.ordinal + time - offset
      let _ ← dateOfMicroseconds utc
      dateOfMicroseconds (utc + 9 * 3600000000)

def PlannedCourse.ofParsed (course : ParsedCourse) : PlannedCourse := ⟨course, none, none, []⟩

section SmartParse

variable (p : Platform) (similarity : Text → Text → Rat)

/-- The courses of a text, the assumptions and the path that read them. -/
def readCourses (teachers : List KnownTeacher) (text : Text) (day : Date) :
    Except PyError (List ParsedCourse × List Text × SourceFormat) :=
  if isCsv p text then
    (parseTable p text day).map fun state => (state.1, state.2, .csv)
  else
    (heuristicParse p text (teachers.map KnownTeacher.name) day).map fun result =>
      (result.1, result.2, .textHeuristic)

/-- Parse anything a teacher pasted and resolve it against the known teachers and courses. -/
def smartParse (teacherRows : List (Int × TeacherRow)) (courseRows : List (Int × CourseRow))
    (now : Date) (today : Today) (rawText : Text) : Except PyError ParsePlan := do
  let teachers := storeTeachers teacherRows
  let text := strip rawText
  if text.isEmpty then throw .valueError
  let day ← asDate now today
  let (courses, assumptions, sourceFormat) ← readCourses p teachers text day
  if courses.isEmpty then throw .valueError
  resolveEntities p similarity
    ⟨courses.map PlannedCourse.ofParsed, assumptions, [], sourceFormat⟩ teachers courseRows

end SmartParse

end ClassinDashboard

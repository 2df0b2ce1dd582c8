import ClassinDashboard.CreateReturns

/-!
A create request where nothing worse than refusals happens: the ids that ClassIn answers are positive
and fit into a cell, and so does what the plan holds. Such a request returns, and what it does is
written down course by course and lesson by lesson.
-/

namespace ClassinDashboard

open Py Sql

/-! ### What is well formed -/

/-- The time has a timestamp that fits into a cell. -/
def PlanTime.Fits (time : PlanTime) : Prop :=
  ∃ seconds, time.timestamp = .ok seconds ∧ SqlValue.inRange seconds = true

structure PlanLesson.Fits (lesson : PlanLesson) : Prop where
  startAt : lesson.startAt.Fits
  endAt : lesson.endAt.Fits
  dueAt : ∀ homework dueAt, lesson.homework = some homework → homework.dueAt = some dueAt →
    ∃ seconds, dueAt.timestamp = .ok seconds

/-- The ids and the times of a course that has a teacher. -/
structure PlanCourse.Fits (course : PlanCourse) (teacherUid : Int) : Prop where
  teacher : SqlValue.inRange teacherUid = true
  existing : ∀ courseId, course.existingCourseId = some courseId → SqlValue.inRange courseId = true
  lessons : ∀ lesson ∈ course.lessons, lesson.Fits

/-- The timestamp, where there is one. -/
def PlanTime.seconds (time : PlanTime) : Int := time.timestamp.toOption.getD 0

section Trace

variable (p : Platform) (credentials : Credentials) (answers : Answers)

def homeworkBody (courseId unitId teacherUid : Int) (lesson : PlanLesson) (homework : PlanHomework) :
    WriteCall :=
  .createActivity courseId unitId activityHomework homework.title teacherUid
    ((some lesson.endAt.seconds).filter (· ≠ 0))
    ((homework.dueAt.map PlanTime.seconds).filter (· ≠ 0))

def lessonBody (courseId teacherUid : Int) (unitId : Option Int) (lesson : PlanLesson) : WriteCall :=
  .createClass courseId (String.ofList (lesson.title.toList.take 50)) teacherUid
    lesson.startAt.seconds lesson.endAt.seconds (unitId.filter (· ≠ 0)) none

def unitBody (courseId : Int) (first : PlanLesson) (rest : List PlanLesson) : WriteCall :=
  .createUnit courseId ("대시보드 등록 - "
    ++ unitSpan first.startAt.date ((rest.getLast?).getD first).startAt.date) "" 2

def courseBody (course : PlanCourse) (teacherUid : Int) : WriteCall :=
  .addCourse course.courseName (some teacherUid)
    (((some (courseIdentity p course)).filter (· ≠ "")).map fun s => String.ofList (s.toList.take 32))

variable {p credentials answers}

theorem timestamp_eq_seconds {time : PlanTime} (h : ∃ seconds, time.timestamp = .ok seconds) :
    time.timestamp = .ok time.seconds := by
  obtain ⟨seconds, hseconds⟩ := h
  rw [hseconds, PlanTime.seconds, hseconds]
  rfl

theorem PlanTime.Fits.inRange {time : PlanTime} (h : time.Fits) :
    SqlValue.inRange time.seconds = true := by
  obtain ⟨seconds, hseconds, hrange⟩ := h
  rw [PlanTime.seconds, hseconds]
  exact hrange

theorem dueTimes {homework : PlanHomework}
    (h : ∀ dueAt, homework.dueAt = some dueAt → ∃ seconds, dueAt.timestamp = .ok seconds) :
    homework.dueAt.mapM PlanTime.timestamp = .ok (homework.dueAt.map PlanTime.seconds) := by
  cases hdue : homework.dueAt with
  | none => rfl
  | some dueAt =>
      rw [Option.mapM_some, timestamp_eq_seconds (h dueAt hdue)]
      rfl

/-- A call that was answered, and what follows. -/
theorem call_bind {α β : Type} {place : Place} {body : WriteCall} {read : PyValue → Except PyError α}
    {r : Except String α} {next : Except String α → CreateScript β}
    (h : (answers place).outcome read = .ok r) :
    callClassIn credentials answers place body read >>= next =
      ⟨.call place credentials body :: (next r).writes, (next r).result⟩ :=
  Script.bind_of_ok h

end Trace

end ClassinDashboard

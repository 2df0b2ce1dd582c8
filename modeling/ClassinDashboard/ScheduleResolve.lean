import ClassinDashboard.ScheduleText
import ClassinDashboard.Store

/-!
Teacher names and course names of a parsed schedule, matched with the teachers and courses in scope.
What stays ambiguous becomes a question. The similarity of two texts is arbitrary.
-/

namespace ClassinDashboard

open Py Sql

structure KnownTeacher where
  uid : Int
  name : Text
  deriving DecidableEq

structure PlannedCourse extends ParsedCourse where
  teacherUid : Option Int
  existingCourseId : Option Int
  teacherCandidates : List KnownTeacher

inductive QuestionKind
  | teacher | course | date
  deriving DecidableEq

structure Question where
  kind : QuestionKind
  subject : Text
  candidates : List KnownTeacher
  message : Text

inductive SourceFormat
  | csv | textAi | textHeuristic
  deriving DecidableEq

structure ParsePlan where
  courses : List PlannedCourse
  assumptions : List Text
  needsConfirm : List Question
  sourceFormat : SourceFormat

/-- `str(n)` of any int. -/
def intDecimal (n : Int) : Text := (toString n).toList

/-- The teachers of the scoped read, each with a name. -/
def storeTeachers (rows : List (Int × TeacherRow)) : List KnownTeacher :=
  rows.map fun row =>
    ⟨row.1, match row.2.name.filter (· ≠ "") with
      | some name => name.toList
      | none => intDecimal row.1⟩

/-- `int(cell) if cell else None` -/
def cellInt : SqlValue → Except PyError (Option Int)
  | .null => .ok none
  | .int n => .ok (if n = 0 then none else some n)
  | .real x => if x = .fin 0 then .ok none else x.toInt.map some
  | .text s => if s = "" then .ok none else (intOf (.string s)).map some

section Resolve

variable (p : Platform) (similarity : Text → Text → Rat)

/-! ### Names -/

def removeBlanks (text : Text) : Text := text.filter fun c => !isSpace c

def endsWith (text suffix : Text) : Bool := suffix.reverse.isPrefixOf text.reverse

/-- `김선생님`, `김 선생`, `김T` become `김` for comparison. -/
def normalizeTeacherName (name : Text) : Text :=
  let text := removeBlanks name
  let suffixes := ["선생님", "선생", "쌤", "샘", "티처"].map String.toList
  match suffixes.find? fun suffix => endsWith text suffix && suffix.length < text.length with
  | some suffix => lower p (text.take (text.length - suffix.length))
  | none =>
      match text.reverse with
      | last :: previous :: _ =>
          lower p (if "Tt".toList.contains last && !"Tt".toList.contains previous then text.dropLast
            else text)
      | _ => lower p text

def normalizeCourseName (name : Text) : Text := lower p (removeBlanks name)

/-! ### Teachers -/

def teacherScore (target candidate : Text) : Rat :=
  if candidate = target then 1
  else if target.isPrefixOf candidate || candidate.isPrefixOf target then 9 / 10
  else
    let ratio := similarity candidate target
    if 3 / 4 ≤ ratio then ratio else 0

def teacherScores (name : Text) (teachers : List KnownTeacher) : List (Rat × KnownTeacher) :=
  let target := normalizeTeacherName p name
  teachers.filterMap fun teacher =>
    let candidate := normalizeTeacherName p teacher.name
    if candidate.isEmpty || target.isEmpty then none
    else
      let score := teacherScore similarity target candidate
      if score = 0 then none else some (score, teacher)

/-- The teachers whose score is as good as the best one's. -/
def bestTeachers (scored : List (Rat × KnownTeacher)) (best : Rat) : List KnownTeacher :=
  (scored.filter fun entry => best - 1 / 1000000000 ≤ entry.1).map Prod.snd

/-- A course after its teacher was looked up, what was assumed for it and what is asked about it. -/
structure Resolution where
  course : PlannedCourse
  assumptions : List Text
  questions : List Question

/-- A course without a teacher's name. -/
def resolveUnnamed (course : PlannedCourse) (teachers : List KnownTeacher)
    (courseTeacherUid : Option Int) : Resolution :=
  let quoted := "「".toList ++ course.courseName
  match courseTeacherUid.filter (· ≠ 0), teachers with
  | some uid, _ =>
      ⟨{ course with teacherUid := some uid },
        [quoted ++ "」 선생님이 없어 기존 코스의 담당 선생님(UID ".toList ++ intDecimal uid
          ++ ")에게 배정".toList], []⟩
  | none, [teacher] =>
      ⟨{ course with teacherUid := some teacher.uid, teacherName := some teacher.name },
        [quoted ++ "」 선생님이 없어 등록된 유일한 선생님 ".toList ++ teacher.name ++ "(UID ".toList
          ++ intDecimal teacher.uid ++ ")에게 배정".toList], []⟩
  | none, _ =>
      ⟨{ course with teacherCandidates := teachers }, [],
        [⟨.teacher, course.courseName, teachers, quoted ++ "」의 선생님을 지정하세요.".toList⟩]⟩

def resolveTeacher (course : PlannedCourse) (teachers : List KnownTeacher)
    (courseTeacherUid : Option Int) : Resolution :=
  let name := strip (course.teacherName.getD [])
  if name.isEmpty then resolveUnnamed course teachers courseTeacherUid
  else
    let scored := teacherScores p similarity name teachers
    match (scored.map Prod.fst).max? with
    | none =>
        ⟨{ course with teacherCandidates := teachers }, [],
          [⟨.teacher, name, teachers, "「".toList ++ name
            ++ "」과(와) 일치하는 선생님이 없습니다 — 선택하거나 UID를 입력하세요.".toList⟩]⟩
    | some best =>
        match bestTeachers scored best with
        | [winner] =>
            ⟨{ course with teacherCandidates := [winner], teacherUid := some winner.uid },
              if best < 1 then
                ["선생님 「".toList ++ name ++ "」 → ".toList ++ winner.name ++ "(UID ".toList
                  ++ intDecimal winner.uid ++ ")로 추정 매칭".toList]
              else [], []⟩
        | winners =>
            ⟨{ course with teacherCandidates := winners }, [],
              [⟨.teacher, name, winners, "「".toList ++ name ++ "」에 해당하는 선생님 후보가 ".toList
                ++ decimal winners.length ++ "명입니다 — 선택하세요.".toList⟩]⟩

/-! ### Courses -/

/-- The first of the rows whose names are most similar to the target, with the similarity. -/
def bestCourse (target : Text) (rows : List (Int × CourseRow)) : Option (Int × CourseRow) × Rat :=
  rows.foldl (fun best row =>
    let candidate := normalizeCourseName p ((row.2.name.getD "").toList)
    if candidate.isEmpty then best
    else
      let ratio := if candidate = target then 1 else similarity candidate target
      if best.2 < ratio then (some row, ratio) else best) (none, 0)

/-- Point the course at an existing one when the names match; with it comes its teacher's uid. -/
def resolveCourse (course : PlannedCourse) (rows : List (Int × CourseRow)) :
    Except PyError (PlannedCourse × List Text × Option Int) :=
  let target := normalizeCourseName p course.courseName
  if target.isEmpty then .ok (course, [], none)
  else
    match bestCourse p similarity target rows with
    | (none, _) => .ok (course, [], none)
    | (some row, score) =>
        if score < 85 / 100 then .ok (course, [], none)
        else (cellInt row.2.teacherUid).map fun teacherUid =>
          ({ course with existingCourseId := some row.1 },
            ["「".toList ++ course.courseName ++ "」은 기존 코스 「".toList ++ (row.2.name.getD "").toList
              ++ "」(ID ".toList ++ intDecimal row.1 ++ ")로 판단해 재사용합니다.".toList],
            teacherUid)

/-- One course of a plan, appended to the courses that are resolved already. -/
def resolveNext (teachers : List KnownTeacher) (rows : List (Int × CourseRow)) (plan : ParsePlan)
    (course : PlannedCourse) : Except PyError ParsePlan := do
  let (course, courseNotes, courseTeacherUid) ← resolveCourse p similarity course rows
  let resolved := resolveTeacher p similarity course teachers courseTeacherUid
  pure { plan with
    courses := plan.courses ++ [resolved.course]
    assumptions := plan.assumptions ++ courseNotes ++ resolved.assumptions
    needsConfirm := plan.needsConfirm ++ resolved.questions }

/-- Fill in teachers and existing courses; append the questions that cannot be answered. -/
def resolveEntities (plan : ParsePlan) (teachers : List KnownTeacher)
    (rows : List (Int × CourseRow)) : Except PyError ParsePlan :=
  plan.courses.foldlM (resolveNext p similarity teachers rows) { plan with courses := [] }

end Resolve

end ClassinDashboard

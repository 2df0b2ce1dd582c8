import ClassinDashboard.PyCalendar
import ClassinDashboard.Session

/-!
The plan that the preview page posts back, the teachers chosen on that page, and the check of the
role. The plan comes from the client: nothing in it is trusted to be what the preview had computed.
-/

namespace ClassinDashboard

open Py Sql

/-- A `datetime` by what is read of it: `str(t)`, `t.date()` and `int(t.timestamp())`. -/
structure PlanTime where
  text : String
  date : Date
  timestamp : Except PyError Int

structure PlanHomework where
  title : String
  dueAt : Option PlanTime

structure PlanLesson where
  title : String
  startAt : PlanTime
  endAt : PlanTime
  homework : Option PlanHomework

structure PlanCourse where
  courseName : String
  teacherName : Option String
  lessons : List PlanLesson
  teacherUid : Option Int
  existingCourseId : Option Int
  /-- Set by the role check at execute time. -/
  blockedReason : Option String

/-- The posted form: `ParsePlan.model_validate(json.loads(plan_json))` and the text fields. -/
structure CreateForm where
  plan : Except PyError (List PlanCourse)
  field : String → Option String

/-! ### Teachers chosen on the page -/

/-- The first of the fields whose text is made of digits. -/
def chosenTeacher (form : CreateForm) : List String → Option String
  | [] => none
  | name :: names =>
      let value := stripText ((form.field name).getD "")
      if isDigitText value.toList then some value else chosenTeacher form names

/-- The fields of a course of the plan: the manual UID first. -/
def teacherFields (index : Nat) : List String :=
  ["teacher_uid_manual_" ++ toString index, "teacher_uid_" ++ toString index]

/-- Per-course selects and manual UIDs win over resolution. -/
def overrideTeacher (form : CreateForm) (index : Nat) (course : PlanCourse) :
    Except PyError PlanCourse :=
  match chosenTeacher form (teacherFields index) with
  | none => .ok course
  | some value =>
      match intText value.toList with
      | none => .error .valueError
      | some uid => .ok { course with teacherUid := some uid }

def applyTeacherOverrides (courses : List PlanCourse) (form : CreateForm) :
    Except PyError (List PlanCourse) :=
  courses.zipIdx.mapM fun entry => overrideTeacher form entry.2 entry.1

/-! ### The role check -/

/-- A teacher creates under the own uid, and not at all without one. -/
def ownTeacher (teacherUid : Option Int) (course : PlanCourse) : PlanCourse × Option String :=
  match teacherUid with
  | none =>
      ({ course with
        blockedReason := some (course.courseName
          ++ ": 계정에 ClassIn 선생님 UID가 연결되어 있지 않습니다 — 관리자에게 문의하세요.") }, none)
  | some uid =>
      if course.teacherUid = some uid then (course, none)
      else ({ course with teacherUid := some uid },
        some ("「" ++ course.courseName ++ "」 선생님은 본인 계정으로 배정"))

/-- `if teacher_uid and teacher_uid not in allowed:` the course is blocked. -/
def checkBranch (allowed : Finset Int) (course : PlanCourse) : PlanCourse :=
  match course.teacherUid.filter (· ≠ 0) with
  | none => course
  | some uid =>
      if uid ∈ allowed then course
      else { course with
        blockedReason := some (course.courseName ++ ": 선생님(UID " ++ toString uid
          ++ ")이 관장 소속 관의 선생님이 아닙니다.") }

/-- The plan after the check of the role, and the notes on what it changed. -/
def enforceTeacherScope (courses : List PlanCourse) (session : Session) (store : Store) :
    List PlanCourse × List String :=
  match session.role with
  | .teacher =>
      let checked := courses.map (ownTeacher session.teacherUid)
      (checked.map Prod.fst, checked.filterMap Prod.snd)
  | .manager =>
      let allowed := (store.teacherUidsInScope (scopeFor session store)).getD ∅
      (courses.map (checkBranch allowed), [])
  | .owner => (courses, [])

/-- The teacher of a course that is not blocked. -/
def PlanCourse.authorized? (course : PlanCourse) : Option Int :=
  match course.blockedReason.filter (· ≠ "") with
  | some _ => none
  | none => course.teacherUid.filter (· ≠ 0)

/-- Whom a session may create for: the own uid, the teachers of the own branch, anyone. -/
def Session.mayTeach (session : Session) (store : Store) (uid : Int) : Bool :=
  match session.role with
  | .owner => true
  | .manager => uid ∈ (store.teacherUidsInScope (scopeFor session store)).getD ∅
  | .teacher => session.teacherUid = some uid

theorem authorized?_eq_some {course : PlanCourse} {uid : Int} :
    course.authorized? = some uid ↔
      course.blockedReason.filter (· ≠ "") = none ∧ course.teacherUid = some uid ∧ uid ≠ 0 := by
  unfold PlanCourse.authorized?
  cases course.blockedReason.filter (· ≠ "") with
  | some reason => simp
  | none => simp [Option.filter_eq_some_iff]

theorem authorized?_ownTeacher {own : Option Int} {course : PlanCourse} {uid : Int}
    (h : (ownTeacher own course).1.authorized? = some uid) : own = some uid := by
  obtain ⟨hblocked, huid, _⟩ := authorized?_eq_some.mp h
  unfold ownTeacher at hblocked huid
  cases own with
  | none =>
      exfalso
      simp only [Option.filter_eq_none_iff] at hblocked
      have hempty := hblocked _ rfl
      simp at hempty
  | some own =>
      simp only at huid
      split at huid
      · rename_i hsame
        rw [← huid, hsame]
      · exact huid

theorem authorized?_checkBranch {allowed : Finset Int} {course : PlanCourse} {uid : Int}
    (h : (checkBranch allowed course).authorized? = some uid) : uid ∈ allowed := by
  obtain ⟨hblocked, huid, hne⟩ := authorized?_eq_some.mp h
  unfold checkBranch at hblocked huid
  split at huid
  · rename_i hnone
    rw [huid] at hnone
    simp [Option.filter, hne] at hnone
  · rename_i uid' huid'
    by_cases hmem : uid' ∈ allowed
    · rw [if_pos hmem] at huid
      have heq : uid' = uid := by
        rw [huid] at huid'
        simpa [Option.filter, hne] using huid'.symm
      exact heq ▸ hmem
    · exfalso
      simp only [huid', if_neg hmem, Option.filter_eq_none_iff, Option.some.injEq,
        forall_eq'] at hblocked
      simp at hblocked

/-- After the check a course has a teacher only where the session may create for that one. -/
theorem mayTeach_of_enforced {courses : List PlanCourse} {session : Session} {store : Store}
    {course : PlanCourse} {uid : Int} (hcourse : course ∈ (enforceTeacherScope courses session store).1)
    (huid : course.authorized? = some uid) : session.mayTeach store uid = true := by
  unfold enforceTeacherScope at hcourse
  unfold Session.mayTeach
  cases hrole : session.role with
  | owner => rfl
  | manager =>
      simp only [hrole, List.mem_map] at hcourse
      obtain ⟨posted, _, rfl⟩ := hcourse
      exact decide_eq_true (authorized?_checkBranch huid)
  | teacher =>
      simp only [hrole, List.map_map, List.mem_map, Function.comp_apply] at hcourse
      obtain ⟨posted, _, rfl⟩ := hcourse
      exact decide_eq_true (authorized?_ownTeacher huid)

end ClassinDashboard

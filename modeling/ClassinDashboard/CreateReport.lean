import ClassinDashboard.CreateTrace

/-!
What a batch reports and records when some of its calls are refused. A refusal ends what depends on
it, and nothing else: the rest of the plan is visited, and what was not created is covered by the
error of the call that it depends on.
-/

namespace ClassinDashboard

open Py Sql

/-! ### Lines -/

/-- The name that a line gives. -/
def Created.name : Created → String
  | reusedCourse name _ | course name _ | lesson name _ | homework name _ => name

/-- The error is about the item of a name; the error of a blocked course is its reason. -/
def CreateError.About (name : String) : CreateError → Prop
  | blocked _ => True
  | noTeacher other _ | course other _ | unit other _ | lesson other _ | homework other _ =>
      other = name

/-- The item has an error of its own. -/
def HasError (effects : List CreateEffect) (place : Place) (name : String) : Prop :=
  ∃ line, .error place line ∈ effects ∧ line.About name

/-- The item is named in `created` or in `errors`. -/
def HasLine (effects : List CreateEffect) (place : Place) (name : String) : Prop :=
  (∃ line, .created place line ∈ effects ∧ line.name = name) ∨ HasError effects place name

/-- The call of the place is made. -/
def Attempted (effects : List CreateEffect) (place : Place) : Prop :=
  ∃ credentials body, .call place credentials body ∈ effects

section Lines

variable {p : Platform} {credentials : Credentials} {answers : Answers} {course : PlanCourse} {i : Nat}

theorem HasError.mono {effects effects' : List CreateEffect} (hsub : effects ⊆ effects')
    {place : Place} {name : String} (h : HasError effects place name) :
    HasError effects' place name := by
  obtain ⟨line, hline, habout⟩ := h
  exact ⟨line, hsub hline, habout⟩

theorem HasLine.mono {effects effects' : List CreateEffect} (hsub : effects ⊆ effects')
    {place : Place} {name : String} (h : HasLine effects place name) :
    HasLine effects' place name := by
  rcases h with ⟨line, hline, hname⟩ | herror
  · exact .inl ⟨line, hsub hline, hname⟩
  · exact .inr (herror.mono hsub)

theorem Attempted.mono {effects effects' : List CreateEffect} (hsub : effects ⊆ effects')
    {place : Place} (h : Attempted effects place) : Attempted effects' place := by
  obtain ⟨credentials, body, hcall⟩ := h
  exact ⟨credentials, body, hsub hcall⟩

variable {courseId teacherUid : Int} {lesson : PlanLesson} {j : Nat} {unitId : Option Int}

end Lines

/-! ### Rows -/

/-- The course that an effect records. -/
def CreateEffect.courseKey : CreateEffect → Option Int
  | write (.course courseId _ _ _ _) => some courseId
  | _ => none

/-- The lesson that an effect records. -/
def CreateEffect.lessonKey : CreateEffect → Option String
  | write (.lesson lessonId _) => some lessonId
  | _ => none

section Keys

variable {p : Platform} {credentials : Credentials} {answers : Answers} {course : PlanCourse} {i j : Nat}
  {courseId teacherUid : Int} {lesson : PlanLesson} {unitId : Option Int}

end Keys

def principal : Session := ⟨"100", "default", .owner, none, "원장", none, none, none⟩

/-- 6 May 2026, 19:00 in Seoul. -/
def wednesdayEvening : PlanTime where
  text := "2026-05-06 19:00:00+09:00"
  date := .sixthOfMay2026
  timestamp := .ok 1778061600

def mathPlan : PlanCourse where
  courseName := "수학"
  teacherName := none
  lessons := [⟨"1강", wednesdayEvening, wednesdayEvening, some ⟨"워크북", none⟩⟩]
  teacherUid := some 7
  existingCourseId := none
  blockedReason := none

def submitted (courses : List PlanCourse) : CreateForm := ⟨.ok courses, fun _ => none⟩

end ClassinDashboard

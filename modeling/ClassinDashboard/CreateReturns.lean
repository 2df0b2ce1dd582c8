import ClassinDashboard.CreateEffects
import ClassinDashboard.IngestRecords

/-!
When a create request gets through a course. Refusals are caught, so what ends a request early is an
exception of another kind: a time without a timestamp, data that cannot be read, or an id that the
store has no room for.
-/

namespace ClassinDashboard

open Py Sql

section Returns

variable (p : Platform) (answers : Answers)

/-- The homework of a lesson is no end of the request. -/
def homeworkReturns (i j : Nat) (unitId : Option Int) (lesson : PlanLesson) (recorded : Bool) : Bool :=
  match lesson.homework, unitId.filter (· ≠ 0) with
  | some homework, some _ =>
      lesson.endAt.timestamp.isOk && (homework.dueAt.mapM PlanTime.timestamp).isOk &&
        match (answers (.homework i j)).outcome activityIdOf with
        | .ok (.ok activityId) => !recorded || SqlValue.inRange activityId
        | .ok (.error _) => true
        | .error _ => false
  | _, _ => true

def lessonReturns (i : Nat) (courseId teacherUid : Int) (unitId : Option Int) (lesson : PlanLesson)
    (j : Nat) : Bool :=
  match lesson.startAt.timestamp, lesson.endAt.timestamp with
  | .ok startTime, .ok endTime =>
      match (answers (.lesson i j)).outcome classIdOf with
      | .ok (.ok classId) =>
          (p.strOf classId).encode.isOk
            && (!classId.truthy || (SqlValue.inRange courseId && SqlValue.inRange startTime
              && SqlValue.inRange endTime && SqlValue.inRange teacherUid))
            && homeworkReturns answers i j unitId lesson classId.truthy
      | .ok (.error _) => true
      | .error _ => false
  | _, _ => false

/-- The unit of a course: a refusal leaves none. -/
def unitOutcome (i : Nat) (course : PlanCourse) : Except PyError (Option Int) :=
  if course.lessons.isEmpty then .ok none
  else ((answers (.unit i)).outcome unitIdOf).map Except.toOption

def fillReturns (i : Nat) (course : PlanCourse) (teacherUid courseId : Int) : Bool :=
  SqlValue.inRange courseId && SqlValue.inRange teacherUid &&
    match unitOutcome answers i course with
    | .ok unitId => course.lessons.zipIdx.all fun entry =>
        lessonReturns p answers i courseId teacherUid unitId entry.1 entry.2
    | .error _ => false

/-- The id of a course that has a teacher: the posted one, or what ClassIn answers. -/
def courseOutcome (course : PlanCourse) (i : Nat) : Except PyError (Except String Int) :=
  match course.existingCourseId.filter (· ≠ 0) with
  | some courseId => .ok (.ok courseId)
  | none => (answers (.course i)).outcome courseIdOf

/-- The id of a course that has a teacher, if it was posted or answered. -/
def courseId? (course : PlanCourse) (i : Nat) : Option Int :=
  course.authorized?.bind fun _ =>
    match courseOutcome answers course i with
    | .ok (.ok courseId) => some courseId
    | _ => none

def courseReturns (course : PlanCourse) (i : Nat) : Bool :=
  match course.authorized? with
  | none => true
  | some teacherUid =>
      match courseOutcome answers course i with
      | .ok (.ok courseId) => fillReturns p answers i course teacherUid courseId
      | .ok (.error _) => true
      | .error _ => false

/-! ### The predicates say when the scripts return -/

variable (credentials : Credentials)

/-- A call and what follows on its end: an exception that is no refusal ends the script. -/
theorem succeeds_call {α : Type} {place : Place} {body : WriteCall}
    {read : PyValue → Except PyError α} {next : Except String α → CreateScript Unit} :
    (callClassIn credentials answers place body read >>= next).Succeeds ↔
      ∃ r, (answers place).outcome read = .ok r ∧ (next r).Succeeds :=
  Script.succeeds_bind

theorem recordActivity_succeeds {activityId : Int} {classId : Option String} :
    (recordActivity p activityId classId).Succeeds ↔
      (!classId.isSome || SqlValue.inRange activityId) = true := by
  cases classId with
  | none => exact iff_of_true (Script.succeeds_pure ()) rfl
  | some key =>
      have hstore : (upsertLesson p key none .none .none .none .none (some activityId) "api").Succeeds ↔
          fits (some activityId) = true := by
        rw [upsertLesson_succeeds]
        exact ⟨fun h => h.2.2.2.2.2, fun h => ⟨rfl, rfl, rfl, rfl, rfl, h⟩⟩
      exact hstore

theorem createHomework_succeeds {i j : Nat} {courseId teacherUid : Int} {unitId : Option Int}
    {lesson : PlanLesson} {classId : Option String} :
    (createHomework p credentials answers i j courseId teacherUid unitId lesson classId).Succeeds ↔
      homeworkReturns answers i j unitId lesson classId.isSome = true := by
  unfold createHomework homeworkReturns
  cases lesson.homework with
  | none => exact iff_of_true (Script.succeeds_pure ()) rfl
  | some homework =>
      cases unitId.filter (· ≠ 0) with
      | none => exact iff_of_true (Script.succeeds_pure ()) rfl
      | some unitId =>
          cases hend : lesson.endAt.timestamp with
          | error e => simp [Script.not_succeeds_error, Except.isOk, Except.toBool]
          | ok endTime =>
              cases hdue : homework.dueAt.mapM PlanTime.timestamp with
              | error e => simp [Script.not_succeeds_error, hdue, Except.isOk, Except.toBool]
              | ok dueTime =>
                  simp only [hdue, Script.lift_ok_bind, createActivity, succeeds_call]
                  rcases (answers (.homework i j)).outcome activityIdOf with e | message | activityId
                  · simp [Except.isOk, Except.toBool]
                  · simp [Except.isOk, Except.toBool]
                  · simp [Except.isOk, Except.toBool, Script.succeeds_bind_unit,
                      recordActivity_succeeds]

theorem recordClass_succeeds {courseId teacherUid startTime endTime : Int} {lesson : PlanLesson}
    {classId : Option String} :
    (recordClass p courseId teacherUid startTime endTime lesson classId).Succeeds ↔
      (!classId.isSome || (SqlValue.inRange courseId && SqlValue.inRange startTime
        && SqlValue.inRange endTime && SqlValue.inRange teacherUid)) = true := by
  cases classId with
  | none => exact iff_of_true (Script.succeeds_pure ()) rfl
  | some key =>
      have hstore : (upsertLesson p key (some courseId) (.string lesson.title) (.int startTime)
          (.int endTime) (.int teacherUid) none "api").Succeeds ↔
            (SqlValue.inRange courseId && SqlValue.inRange startTime && SqlValue.inRange endTime
              && SqlValue.inRange teacherUid) = true := by
        simp only [upsertLesson_succeeds, Bool.and_eq_true, and_assoc]
        constructor
        · rintro ⟨hcourse, _, hstart, hend, huid, _⟩
          exact ⟨hcourse, hstart, hend, huid⟩
        · rintro ⟨hcourse, hstart, hend, huid⟩
          exact ⟨hcourse, rfl, hstart, hend, huid, rfl⟩
      exact hstore

/-- The class id is read outside of the call. -/
theorem outcome_classIdOf (answer : Answer) :
    answer.outcome classIdOf = (answer.outcome .ok).bind fun
      | .error message => .ok (.error message)
      | .ok value => (classIdOf value).map .ok := by
  cases answer <;> rfl

theorem createLesson_succeeds {i : Nat} {courseId teacherUid : Int} {unitId : Option Int}
    {lesson : PlanLesson} {j : Nat} :
    (createLesson p credentials answers i courseId teacherUid unitId lesson j).Succeeds ↔
      lessonReturns p answers i courseId teacherUid unitId lesson j = true := by
  unfold createLesson lessonReturns
  cases hstart : lesson.startAt.timestamp with
  | error e => simp [Script.not_succeeds_error]
  | ok startTime =>
      cases hend : lesson.endAt.timestamp with
      | error e => simp [Script.not_succeeds_error]
      | ok endTime =>
          simp only [Script.lift_ok_bind, createClassroom, succeeds_call, outcome_classIdOf]
          rcases (answers (.lesson i j)).outcome .ok with e | message | value
          · simp [Except.bind]
          · simp [Except.bind]
          · cases hclass : classIdOf value with
            | error e => simp [Except.bind, Except.map, hclass, Script.not_succeeds_error]
            | ok classId =>
                cases htext : (p.strOf classId).encode with
                | error e =>
                    simp [Except.bind, Except.map, hclass, htext, Script.not_succeeds_error,
                      Except.isOk, Except.toBool]
                | ok text =>
                    have hkey : (if classId.truthy then some text else none).isSome =
                        classId.truthy := by cases classId.truthy <;> rfl
                    simp [Except.bind, Except.map, hclass, htext, Except.isOk, Except.toBool,
                      Script.succeeds_bind_unit, recordClass_succeeds, createHomework_succeeds, hkey]

theorem createCourseUnit_result (i : Nat) (course : PlanCourse) (courseId : Int) :
    (createCourseUnit credentials answers i course courseId).result =
      unitOutcome answers i course := by
  unfold createCourseUnit unitOutcome
  cases course.lessons with
  | nil => rfl
  | cons first rest =>
      simp only [createUnit]
      rcases houtcome : (answers (.unit i)).outcome unitIdOf with e | message | unitId
      · rw [Script.bind_of_error ((callClassIn_result ..).trans houtcome)]
        rfl
      · rw [Script.bind_of_ok ((callClassIn_result ..).trans houtcome)]
        rfl
      · rw [Script.bind_of_ok ((callClassIn_result ..).trans houtcome)]
        rfl

theorem succeeds_each {α : Type} {xs : List α} {body : α → CreateScript Unit} {good : α → Bool}
    (h : ∀ x ∈ xs, (body x).Succeeds ↔ good x = true) :
    (Script.each xs body).Succeeds ↔ xs.all good = true := by
  induction xs with
  | nil => exact iff_of_true (Script.succeeds_pure ()) rfl
  | cons x xs ih =>
      have htail := ih fun y hy => h y (List.mem_cons_of_mem _ hy)
      rw [Script.each, Script.succeeds_bind_unit, h x List.mem_cons_self, htail, List.all_cons,
        Bool.and_eq_true]

theorem recordCourse_succeeds {courseId teacherUid : Int} {name : String} :
    (onStore (upsertCourse p courseId (.string name) (.int teacherUid) .none "api")).Succeeds ↔
      SqlValue.inRange courseId = true ∧ SqlValue.inRange teacherUid = true := by
  show (upsertCourse p courseId _ _ _ "api").Succeeds ↔ _
  rw [upsertCourse_succeeds]
  exact ⟨fun h => ⟨h.1, h.2.2.1⟩, fun h => ⟨h.1, rfl, h.2, rfl⟩⟩

theorem fillCourse_succeeds {i : Nat} {course : PlanCourse} {teacherUid courseId : Int} :
    (fillCourse p credentials answers i course teacherUid courseId).Succeeds ↔
      fillReturns p answers i course teacherUid courseId = true := by
  unfold fillCourse fillReturns
  rw [Script.succeeds_bind_unit, recordCourse_succeeds, Bool.and_eq_true, Bool.and_eq_true]
  refine and_congr_right fun _ => ?_
  rw [Script.succeeds_bind, createCourseUnit_result]
  cases unitOutcome answers i course with
  | error e => simp
  | ok unitId =>
      have hlesson : ∀ entry ∈ course.lessons.zipIdx,
          (createLesson p credentials answers i courseId teacherUid unitId entry.1 entry.2).Succeeds ↔
            lessonReturns p answers i courseId teacherUid unitId entry.1 entry.2 = true :=
        fun _ _ => createLesson_succeeds p answers credentials
      simp [succeeds_each hlesson]

theorem createCourse_succeeds {course : PlanCourse} {i : Nat} :
    (createCourse p credentials answers course i).Succeeds ↔
      courseReturns p answers course i = true := by
  unfold courseReturns
  cases huid : course.authorized? with
  | none =>
      obtain ⟨line, hline⟩ := createCourse_of_unauthorized p credentials answers i huid
      rw [hline]
      exact iff_of_true (Script.succeeds_tell _) rfl
  | some teacherUid =>
      rw [createCourse_of_authorized p credentials answers i huid]
      unfold courseOutcome
      cases course.existingCourseId.filter (· ≠ 0) with
      | some courseId =>
          simp only [Script.succeeds_bind_unit, Script.succeeds_tell, true_and, fillCourse_succeeds]
      | none =>
          simp only [addCourse, succeeds_call]
          rcases (answers (.course i)).outcome courseIdOf with e | message | courseId
          · simp
          · simp
          · simp [Script.succeeds_bind_unit, fillCourse_succeeds]

end Returns

end ClassinDashboard

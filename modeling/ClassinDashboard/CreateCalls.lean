import ClassinDashboard.CreateTrace

/-!
The calls of a create request in order, whatever the answers are: an exception ends them where it is
raised, and a refusal leaves out what depends on it.
-/

namespace ClassinDashboard

open Py Sql

/-- The call that an effect is, with its place. -/
def CreateEffect.request? : CreateEffect → Option (Place × WriteCall)
  | call place _ body => some (place, body)
  | _ => none

/-- The calls of a script in order. -/
def requests {α : Type} (s : CreateScript α) : List (Place × WriteCall) :=
  s.writes.filterMap CreateEffect.request?

section Calls

variable (p : Platform) (credentials : Credentials) (answers : Answers)

/-! ### The calls for the parts of a plan -/

def homeworkCalls (i j : Nat) (courseId teacherUid : Int) (unitId : Option Int) (lesson : PlanLesson) :
    List (Place × WriteCall) :=
  match lesson.homework, unitId.filter (· ≠ 0) with
  | some homework, some unitId =>
      if lesson.endAt.timestamp.isOk && (homework.dueAt.mapM PlanTime.timestamp).isOk then
        [(.homework i j, homeworkBody courseId unitId teacherUid lesson homework)]
      else []
  | _, _ => []

/-- A created class can be recorded, and its line written. -/
def recordable (courseId teacherUid : Int) (lesson : PlanLesson) (classId : PyValue) : Bool :=
  (p.strOf classId).encode.isOk
    && (!classId.truthy || (SqlValue.inRange courseId && SqlValue.inRange lesson.startAt.seconds
      && SqlValue.inRange lesson.endAt.seconds && SqlValue.inRange teacherUid))

def lessonCalls (i : Nat) (courseId teacherUid : Int) (unitId : Option Int) (lesson : PlanLesson)
    (j : Nat) : List (Place × WriteCall) :=
  if lesson.startAt.timestamp.isOk && lesson.endAt.timestamp.isOk then
    (.lesson i j, lessonBody courseId teacherUid unitId lesson) ::
      match (answers (.lesson i j)).outcome classIdOf with
      | .ok (.ok classId) =>
          if recordable p courseId teacherUid lesson classId then
            homeworkCalls i j courseId teacherUid unitId lesson
          else []
      | _ => []
  else []

def unitCalls (i : Nat) (course : PlanCourse) (courseId : Int) : List (Place × WriteCall) :=
  match course.lessons with
  | [] => []
  | first :: rest => [(.unit i, unitBody courseId first rest)]

def fillCalls (i : Nat) (course : PlanCourse) (teacherUid courseId : Int) : List (Place × WriteCall) :=
  if SqlValue.inRange courseId && SqlValue.inRange teacherUid then
    unitCalls i course courseId
      ++ match unitOutcome answers i course with
        | .ok unitId =>
            (Script.through (fun entry => lessonReturns p answers i courseId teacherUid unitId entry.1
                entry.2) course.lessons.zipIdx).flatMap fun entry =>
              lessonCalls p answers i courseId teacherUid unitId entry.1 entry.2
        | .error _ => []
  else []

def courseCalls (course : PlanCourse) (i : Nat) : List (Place × WriteCall) :=
  match course.authorized? with
  | none => []
  | some teacherUid =>
      (if (course.existingCourseId.filter (· ≠ 0)).isSome then []
        else [(.course i, courseBody p course teacherUid)])
        ++ match courseOutcome answers course i with
          | .ok (.ok courseId) => fillCalls p answers i course teacherUid courseId
          | _ => []

/-- The calls for a checked plan. -/
def planCalls (courses : List PlanCourse) : List (Place × WriteCall) :=
  (Script.through (fun entry => courseReturns p answers entry.1 entry.2) courses.zipIdx).flatMap
    fun entry => courseCalls p answers entry.1 entry.2

/-! ### The scripts make these calls -/

variable {p credentials answers}

theorem requests_bind_unit {α : Type} (s : CreateScript Unit) (next : Unit → CreateScript α) :
    requests (s >>= next) = requests s ++ if s.Succeeds then requests (next ()) else [] := by
  unfold requests
  rw [Script.writes_bind_unit, List.filterMap_append]
  split <;> rfl

/-- A call, and what is called after it. -/
theorem requests_call_bind {α β : Type} {place : Place} {body : WriteCall}
    {read : PyValue → Except PyError α} {next : Except String α → CreateScript β} :
    requests (callClassIn credentials answers place body read >>= next) =
      (place, body) :: match (answers place).outcome read with
        | .ok r => requests (next r)
        | .error _ => [] := by
  cases houtcome : (answers place).outcome read with
  | ok r => rw [call_bind houtcome]; rfl
  | error e =>
      have hcall : (callClassIn credentials answers place body read).result = .error e := houtcome
      rw [Script.bind_of_error hcall]
      rfl

theorem requests_onStore {α : Type} (s : StoreScript α) : requests (onStore s) = [] := by
  refine List.filterMap_eq_nil_iff.mpr fun effect heffect => ?_
  obtain ⟨w, _, rfl⟩ := List.mem_map.mp heffect
  rfl

theorem requests_recordActivity {activityId : Int} {classId : Option String} :
    requests (recordActivity p activityId classId) = [] := by
  cases classId with
  | none => rfl
  | some key => exact requests_onStore _

theorem requests_recordClass {courseId teacherUid startTime endTime : Int} {lesson : PlanLesson}
    {classId : Option String} :
    requests (recordClass p courseId teacherUid startTime endTime lesson classId) = [] := by
  cases classId with
  | none => rfl
  | some key => exact requests_onStore _

theorem isOk_mapM_seconds {homework : PlanHomework} {dueTime : Option Int}
    (h : homework.dueAt.mapM PlanTime.timestamp = .ok dueTime) :
    homework.dueAt.map PlanTime.seconds = dueTime := by
  have htimes : ∀ dueAt, homework.dueAt = some dueAt → ∃ seconds, dueAt.timestamp = .ok seconds := by
    intro dueAt hdueAt
    rw [hdueAt, Option.mapM_some] at h
    obtain ⟨seconds, hseconds, _⟩ := map_eq_ok.mp h
    exact ⟨seconds, hseconds⟩
  exact Except.ok.inj ((dueTimes htimes).symm.trans h)

theorem seconds_eq {time : PlanTime} {seconds : Int} (h : time.timestamp = .ok seconds) :
    time.seconds = seconds := by
  rw [PlanTime.seconds, h]
  rfl

theorem requests_createHomework (i j : Nat) (courseId teacherUid : Int) (unitId : Option Int)
    (lesson : PlanLesson) (classId : Option String) :
    requests (createHomework p credentials answers i j courseId teacherUid unitId lesson classId) =
      homeworkCalls i j courseId teacherUid unitId lesson := by
  unfold createHomework homeworkCalls
  cases lesson.homework with
  | none => rfl
  | some homework =>
      cases unitId.filter (· ≠ 0) with
      | none => rfl
      | some unitId =>
          cases hend : lesson.endAt.timestamp with
          | error e => rfl
          | ok endTime =>
              cases hdue : homework.dueAt.mapM PlanTime.timestamp with
              | error e =>
                  simp only [hdue]
                  rfl
              | ok dueTime =>
                  simp only [hdue, Script.lift_ok_bind, createActivity, requests_call_bind]
                  show _ = [_]
                  rw [homeworkBody, seconds_eq hend, isOk_mapM_seconds hdue]
                  refine congrArg (List.cons _) ?_
                  -- After the call the store may raise, but nothing more is called.
                  rcases (answers (.homework i j)).outcome activityIdOf with e | message | activityId
                  · rfl
                  · rfl
                  · show requests (_ >>= _) = []
                    rw [requests_bind_unit, requests_recordActivity]
                    split <;> rfl

theorem requests_createLesson (i : Nat) (courseId teacherUid : Int) (unitId : Option Int)
    (lesson : PlanLesson) (j : Nat) :
    requests (createLesson p credentials answers i courseId teacherUid unitId lesson j) =
      lessonCalls p answers i courseId teacherUid unitId lesson j := by
  unfold createLesson lessonCalls
  cases hstart : lesson.startAt.timestamp with
  | error e => rfl
  | ok startTime =>
      cases hend : lesson.endAt.timestamp with
      | error e => rfl
      | ok endTime =>
          simp only [Script.lift_ok_bind, createClassroom, requests_call_bind, outcome_classIdOf]
          show _ = List.cons _ _
          rw [lessonBody, seconds_eq hstart, seconds_eq hend]
          refine congrArg (List.cons _) ?_
          rcases (answers (.lesson i j)).outcome .ok with e | message | value
          · rfl
          · rfl
          · cases hclass : classIdOf value with
            | error e => simp only [Except.bind, hclass]; rfl
            | ok classId =>
                cases htext : (p.strOf classId).encode with
                | error e =>
                    simp only [Except.bind, hclass, Except.map, recordable, htext, Script.lift_ok_bind]
                    rfl
                | ok text =>
                    have hkey : (if classId.truthy then some text else none).isSome =
                        classId.truthy := by cases classId.truthy <;> rfl
                    simp only [Except.bind, hclass, Except.map, recordable, htext, Script.lift_ok_bind,
                      seconds_eq hstart, seconds_eq hend, requests_bind_unit, requests_recordClass,
                      recordClass_succeeds, hkey, requests_createHomework]
                    rfl

/-- The unit is called for where the course has lessons. -/
theorem requests_createCourseUnit {α : Type} (i : Nat) (course : PlanCourse) (courseId : Int)
    (next : Option Int → CreateScript α) :
    requests (createCourseUnit credentials answers i course courseId >>= next) =
      unitCalls i course courseId ++ match unitOutcome answers i course with
        | .ok unitId => requests (next unitId)
        | .error _ => [] := by
  have hunit : requests (createCourseUnit credentials answers i course courseId) =
      unitCalls i course courseId := by
    unfold createCourseUnit unitCalls
    cases course.lessons with
    | nil => rfl
    | cons first rest =>
        simp only [createUnit, requests_call_bind]
        refine congrArg (List.cons _) ?_
        rcases (answers (.unit i)).outcome unitIdOf with e | message | unitId <;> rfl
  rw [← createCourseUnit_result answers credentials i course courseId, ← hunit]
  unfold requests
  cases hresult : (createCourseUnit credentials answers i course courseId).result with
  | ok unitId => rw [Script.bind_of_ok hresult, List.filterMap_append]
  | error e => rw [Script.bind_of_error hresult, List.append_nil]

theorem requests_fillCourse (i : Nat) (course : PlanCourse) (teacherUid courseId : Int) :
    requests (fillCourse p credentials answers i course teacherUid courseId) =
      fillCalls p answers i course teacherUid courseId := by
  have hstore : (onStore (upsertCourse p courseId (.string course.courseName) (.int teacherUid) .none
      "api")).Succeeds ↔ (SqlValue.inRange courseId && SqlValue.inRange teacherUid) = true := by
    rw [Bool.and_eq_true]
    exact recordCourse_succeeds p
  unfold fillCourse fillCalls
  rw [requests_bind_unit, requests_onStore, List.nil_append, requests_createCourseUnit]
  refine ite_congr (propext hstore) (fun _ => ?_) fun _ => rfl
  cases unitOutcome answers i course with
  | error e => rfl
  | ok unitId =>
      have hlesson : ∀ entry ∈ course.lessons.zipIdx, Script.Spec CreateEffect.request?
          (createLesson p credentials answers i courseId teacherUid unitId entry.1 entry.2) _ _ :=
        fun entry _ => ⟨createLesson_succeeds p answers credentials,
          requests_createLesson i courseId teacherUid unitId entry.1 entry.2⟩
      have heach := Script.Spec.each hlesson
      exact congrArg (_ ++ ·) heach.writes_eq

theorem requests_createCourse (course : PlanCourse) (i : Nat) :
    requests (createCourse p credentials answers course i) = courseCalls p answers course i := by
  unfold courseCalls
  cases huid : course.authorized? with
  | none =>
      obtain ⟨line, hline⟩ := createCourse_of_unauthorized p credentials answers i huid
      rw [hline]
      rfl
  | some teacherUid =>
      rw [createCourse_of_authorized p credentials answers i huid]
      unfold courseOutcome
      cases course.existingCourseId.filter (· ≠ 0) with
      | some courseId => exact requests_fillCourse i course teacherUid courseId
      | none =>
          have hne := (authorized?_eq_some.mp huid).2.2
          simp only [addCourse, requests_call_bind]
          rw [Option.filter_some, if_pos (decide_eq_true hne)]
          refine congrArg (List.cons _) ?_
          rcases (answers (.course i)).outcome courseIdOf with e | message | courseId
          · rfl
          · rfl
          · exact requests_fillCourse i course teacherUid courseId

/-- The calls of a request are those for its checked plan. -/
theorem requests_createExecute {store : Store} {session : Session} {form : CreateForm}
    {courses : List PlanCourse} {notes : List String}
    (hplan : checkedPlan store session form = .ok (courses, notes)) :
    requests (createExecute p answers store (some session) form) = planCalls p answers courses := by
  have hclient : clientFor store session none = .ok ⟨session.sid, session.secret⟩ := rfl
  have hcourse : ∀ entry ∈ courses.zipIdx, Script.Spec CreateEffect.request?
      (createCourse p ⟨session.sid, session.secret⟩ answers entry.1 entry.2) _ _ :=
    fun entry _ => ⟨createCourse_succeeds p answers ⟨session.sid, session.secret⟩,
      requests_createCourse entry.1 entry.2⟩
  have heach := Script.Spec.each hcourse
  unfold createExecute
  simp only [hplan, hclient, Script.lift_ok_bind]
  unfold requests
  rw [Script.writes_bind_pure]
  exact heach.writes_eq

end Calls

end ClassinDashboard

import ClassinDashboard.CreatePlan

/-!
`POST /create/execute` and the ClassIn actions that it calls. A request makes a call at most once for
each place of the plan, so what the service does is an answer for every place. The request is the
script of what it does in order: calls, committed writes of the store, and lines of its report.
-/

namespace ClassinDashboard

open Py Sql

/-- What a call or a line of the report is about. -/
inductive Place
  | course (i : Nat)
  | unit (i : Nat)
  | lesson (i j : Nat)
  | homework (i j : Nat)
  deriving DecidableEq

/-- A request body of the write path. -/
inductive WriteCall
  | addCourse (courseName : String) (mainTeacherUid : Option Int)
      (courseUniqueIdentity : Option String)
  | createUnit (courseId : Int) (name content : String) (publishFlag : Int)
  | createClass (courseId : Int) (name : String) (teacherUid startTime endTime : Int)
      (unitId : Option Int) (uniqueIdentity : Option String)
  | createActivity (courseId unitId activityType : Int) (name : String) (teacherUid : Int)
      (startTime endTime : Option Int)
  deriving DecidableEq

/-- How a call ends: a `ClassInError` with its message, any other exception, or the data. -/
inductive Answer
  | refused (message : String)
  | failed (error : PyError)
  | data (value : PyValue)

/-- The end of an action that reads the data: a refusal is a value. -/
def Answer.outcome {α : Type} (read : PyValue → Except PyError α) :
    Answer → Except PyError (Except String α)
  | refused message => .ok (.error message)
  | failed error => .error error
  | data value => (read value).map .ok

abbrev Answers := Place → Answer

/-- A line of the list of what was created. -/
inductive Created
  | reusedCourse (courseName : String) (courseId : Int)
  | course (courseName : String) (courseId : Int)
  | lesson (title classId : String)
  | homework (title : String) (activityId : Int)
  deriving DecidableEq

def Created.text : Created → String
  | reusedCourse name id => "기존 코스 「" ++ name ++ "」 (ID " ++ toString id ++ ") 재사용"
  | course name id => "코스 「" ++ name ++ "」 (ID " ++ toString id ++ ")"
  | lesson title id => "수업 「" ++ title ++ "」 (ID " ++ id ++ ")"
  | homework title id => "숙제 「" ++ title ++ "」 (activity " ++ toString id
      ++ ") — 내용은 ClassIn에서 채운 뒤 출제하세요 (빈 숙제는 API 출제 불가)"

/-- A line of the list of errors. -/
inductive CreateError
  | blocked (reason : String)
  | noTeacher (courseName : String) (teacherName : Option String)
  | course (courseName message : String)
  | unit (courseName message : String)
  | lesson (title message : String)
  | homework (title message : String)
  deriving DecidableEq

def CreateError.text : CreateError → String
  | blocked reason => reason
  | noTeacher name teacherName => name ++ ": 선생님을 확정하지 못했습니다 ("
      ++ (teacherName.filter (· ≠ "")).getD "미지정" ++ ") — 미리보기에서 선택하세요."
  | course name message => name ++ ": addCourse 실패 — " ++ message
  | unit name message => name ++ ": 단원 생성 실패 — " ++ message
  | lesson title message => title ++ ": 수업 생성 실패 — " ++ message
  | homework title message => title ++ ": 숙제 생성 실패 — " ++ message

inductive CreateEffect
  | call (place : Place) (credentials : Credentials) (body : WriteCall)
  | write (w : Write)
  | created (place : Place) (line : Created)
  | error (place : Place) (line : CreateError)

abbrev CreateScript (α : Type) := Script CreateEffect PyError α

/-! ### Actions -/

/-- `value[key]` with a text key. -/
def item (value : PyValue) (key : String) : Except PyError PyValue :=
  match value with
  | .dict items =>
      match items.lookup (.text key) with
      | some value => .ok value
      | none => .error .keyError
  | _ => .error .typeError

/-- The course id of an `addCourse` answer. -/
def courseIdOf : PyValue → Except PyError Int
  | .dict items => intOf ((PyValue.get items "courseId").orElse (PyValue.get items "course_id"))
  | value => intOf value

def unitIdOf (value : PyValue) : Except PyError Int := (item value "unitId").bind intOf

def activityIdOf (value : PyValue) : Except PyError Int := (item value "activityId").bind intOf

/-- `result.get("classId") or result.get("activityId")`. -/
def classIdOf (value : PyValue) : Except PyError PyValue := do
  let classId ← value.getAttr "classId"
  if classId.truthy then pure classId else value.getAttr "activityId"

section Actions

variable (credentials : Credentials) (answers : Answers)

/-- One call, and its data as the action reads it. -/
def callClassIn {α : Type} (place : Place) (body : WriteCall) (read : PyValue → Except PyError α) :
    CreateScript (Except String α) :=
  ⟨[.call place credentials body], (answers place).outcome read⟩

@[simp] theorem callClassIn_result {α : Type} (place : Place) (body : WriteCall)
    (read : PyValue → Except PyError α) :
    (callClassIn credentials answers place body read).result = (answers place).outcome read := rfl

/-- An existing identity returns the existing id instead of creating a duplicate. -/
def addCourse (place : Place) (courseName : String) (mainTeacherUid : Option Int)
    (uniqueIdentity : Option String) : CreateScript (Except String Int) :=
  callClassIn credentials answers place
    (.addCourse courseName (mainTeacherUid.filter (· ≠ 0))
      ((uniqueIdentity.filter (· ≠ "")).map fun s => String.ofList (s.toList.take 32)))
    courseIdOf

def createUnit (place : Place) (courseId : Int) (name : String) : CreateScript (Except String Int) :=
  callClassIn credentials answers place (.createUnit courseId name "" 2) unitIdOf

def createClassroom (place : Place) (courseId : Int) (name : String) (teacherUid : Int)
    (startTime endTime : Int) (unitId : Option Int) (uniqueIdentity : Option String) :
    CreateScript (Except String PyValue) :=
  callClassIn credentials answers place
    (.createClass courseId (String.ofList (name.toList.take 50)) teacherUid startTime endTime
      (unitId.filter (· ≠ 0))
      ((uniqueIdentity.filter (· ≠ "")).map fun s => String.ofList (s.toList.take 32)))
    .ok

/-- The activity type of homework. -/
def activityHomework : Int := 2

def createActivity (place : Place) (courseId unitId activityType : Int) (name : String)
    (teacherUid : Int) (startTime endTime : Option Int) : CreateScript (Except String Int) :=
  callClassIn credentials answers place
    (.createActivity courseId unitId activityType name teacherUid (startTime.filter (· ≠ 0))
      (endTime.filter (· ≠ 0)))
    activityIdOf

end Actions

/-! ### The route -/

/-- A store method inside the request. -/
def onStore {α : Type} (s : StoreScript α) : CreateScript α := s.mapWrites .write

def CreateEffect.apply (store : Store) : CreateEffect → Store
  | write w => store.write w
  | _ => store

/-- The store after a request. -/
def Store.create {α : Type} (store : Store) (s : CreateScript α) : Store :=
  Script.exec CreateEffect.apply s store

section Route

variable (p : Platform) (credentials : Credentials) (answers : Answers)

/-- The idempotency key of a course. -/
def courseIdentity (course : PlanCourse) : String :=
  let start := match course.lessons with
    | [] => ""
    | first :: _ => first.startAt.text
  String.ofList
    ((p.md5Hex ("dash:" ++ course.courseName ++ ":" ++ start)).toList.take 32)

/-- Record a homework activity with its class, when there is one. -/
def recordActivity (activityId : Int) (classId : Option String) : CreateScript Unit :=
  match classId with
  | some key => onStore (upsertLesson p key none .none .none .none .none activityId "api")
  | none => pure ()

/-- The homework of a lesson: it needs a unit. -/
def createHomework (i j : Nat) (courseId teacherUid : Int) (unitId : Option Int)
    (lesson : PlanLesson) (classId : Option String) : CreateScript Unit :=
  match lesson.homework, unitId.filter (· ≠ 0) with
  | some homework, some unitId => do
      let startTime ← Script.lift lesson.endAt.timestamp
      let endTime ← Script.lift (homework.dueAt.mapM PlanTime.timestamp)
      match ← createActivity credentials answers (.homework i j) courseId unitId activityHomework
        homework.title teacherUid (some startTime) endTime with
      | .error message => Script.tell (.error (.homework i j) (.homework homework.title message))
      | .ok activityId => do
          recordActivity p activityId classId
          Script.tell (.created (.homework i j) (.homework homework.title activityId))
  | _, _ => pure ()

/-- Record a class under its id, when there is one. -/
def recordClass (courseId teacherUid startTime endTime : Int) (lesson : PlanLesson)
    (classId : Option String) : CreateScript Unit :=
  match classId with
  | some key =>
      onStore (upsertLesson p key (some courseId) (.string lesson.title) (.int startTime)
        (.int endTime) (.int teacherUid) none "api")
  | none => pure ()

def createLesson (i : Nat) (courseId teacherUid : Int) (unitId : Option Int) (lesson : PlanLesson)
    (j : Nat) : CreateScript Unit := do
  let startTime ← Script.lift lesson.startAt.timestamp
  let endTime ← Script.lift lesson.endAt.timestamp
  match ← createClassroom credentials answers (.lesson i j) courseId lesson.title teacherUid startTime
    endTime unitId none with
  | .error message => Script.tell (.error (.lesson i j) (.lesson lesson.title message))
  | .ok result => do
      let classId ← Script.lift (classIdOf result)
      let text ← Script.lift (p.strOf classId).encode
      let key := if classId.truthy then some text else none
      recordClass p courseId teacherUid startTime endTime lesson key
      Script.tell (.created (.lesson i j) (.lesson lesson.title text))
      createHomework p credentials answers i j courseId teacherUid unitId lesson key

/-- The dates of the first and the last lesson. -/
def unitSpan (first last : Date) : String :=
  if first ≠ last then first.isoformat ++ "~" ++ last.isoformat else first.isoformat

/-- One unit for the lessons of a course; a refusal leaves them without one. -/
def createCourseUnit (i : Nat) (course : PlanCourse) (courseId : Int) :
    CreateScript (Option Int) :=
  match course.lessons with
  | [] => pure none
  | first :: rest => do
      let last := (rest.getLast?).getD first
      match ← createUnit credentials answers (.unit i) courseId
        ("대시보드 등록 - " ++ unitSpan first.startAt.date last.startAt.date) with
      | .error message => do
          Script.tell (.error (.unit i) (.unit course.courseName message))
          pure none
      | .ok unitId => pure (some unitId)

/-- A course with its id: the row of the store, a unit, the lessons. -/
def fillCourse (i : Nat) (course : PlanCourse) (teacherUid courseId : Int) : CreateScript Unit := do
  onStore (upsertCourse p courseId (.string course.courseName) (.int teacherUid) .none "api")
  let unitId ← createCourseUnit credentials answers i course courseId
  Script.each course.lessons.zipIdx fun entry =>
    createLesson p credentials answers i courseId teacherUid unitId entry.1 entry.2

def createCourse (course : PlanCourse) (i : Nat) : CreateScript Unit :=
  match course.blockedReason.filter (· ≠ "") with
  | some reason => Script.tell (.error (.course i) (.blocked reason))
  | none =>
      match course.teacherUid.filter (· ≠ 0) with
      | none =>
          Script.tell (.error (.course i) (.noTeacher course.courseName course.teacherName))
      | some teacherUid =>
          match course.existingCourseId.filter (· ≠ 0) with
          | some courseId => do
              Script.tell (.created (.course i) (.reusedCourse course.courseName courseId))
              fillCourse p credentials answers i course teacherUid courseId
          | none => do
              match ← addCourse credentials answers (.course i) course.courseName teacherUid
                (courseIdentity p course) with
              | .error message =>
                  Script.tell (.error (.course i) (.course course.courseName message))
              | .ok courseId => do
                  Script.tell (.created (.course i) (.course course.courseName courseId))
                  fillCourse p credentials answers i course teacherUid courseId

/-- Where the create request goes; the lines of the page are those of the script. -/
inductive CreateResponse
  | login
  | result (notes : List String)

/-- The courses of the posted plan with the teachers chosen and checked, and the notes. -/
def checkedPlan (store : Store) (session : Session) (form : CreateForm) :
    Except PyError (List PlanCourse × List String) := do
  let plan ← form.plan
  let courses ← applyTeacherOverrides plan form
  pure (enforceTeacherScope courses session store)

/-- `POST /create/execute`. -/
def createExecute (store : Store) (session : Option Session) (form : CreateForm) :
    CreateScript CreateResponse :=
  match session with
  | none => pure .login
  | some session => do
      let (courses, notes) ← Script.lift (checkedPlan store session form)
      let own ← Script.lift (clientFor store session none)
      Script.each courses.zipIdx fun entry => createCourse p own answers entry.1 entry.2
      pure (.result notes)

end Route

end ClassinDashboard

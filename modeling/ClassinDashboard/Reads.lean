import ClassinDashboard.Session

/-!
The read actions of ClassIn and the sync of the master tables from them. The service is a parameter:
what it answers to a request signed with some credentials. A read that the service refuses is no
data; any other exception goes on.
-/

namespace ClassinDashboard

open Py Sql

/-- One read request: the action and its course, where it has one. -/
structure ReadCall where
  action : String
  courseId : Option Int
  deriving DecidableEq

/-- The service: `call_v1` of every request under every pair of credentials. -/
abbrev ClassIn := Credentials → ReadCall → Except PyError PyValue

/-- A `ClassInError` means the action is not enabled. -/
def tryCall (service : ClassIn) (credentials : Credentials) (call : ReadCall) :
    Except PyError PyValue :=
  match service credentials call with
  | .error (.classInError _) => .ok .none
  | answer => answer

def dictOf? : PyValue → Option Fields
  | .dict items => some items
  | _ => none

/-- The list under the first key that holds one. -/
def innerList (items : Fields) : List String → Option (List PyValue)
  | [] => none
  | key :: keys =>
      match PyValue.get items key with
      | .list rows => some rows
      | _ => innerList items keys

/-- The dicts of an envelope of unknown shape. -/
def rowsOf (data : PyValue) (keys : List String) : List Fields :=
  match data with
  | .list rows => rows.filterMap dictOf?
  | .dict items =>
      match innerList items keys with
      | some rows => rows.filterMap dictOf?
      | none => if items.isEmpty then [] else [items]
  | _ => []

variable (service : ClassIn) (credentials : Credentials)

/-- One read: no rows where the action is not enabled. -/
def readRows (call : ReadCall) (keys : List String) : Except PyError (List Fields) :=
  (tryCall service credentials call).map fun data => rowsOf data keys

def courseList : Except PyError (List Fields) :=
  readRows service credentials ⟨"getCourseList", none⟩ ["courseList", "course_list", "list", "courses"]

def courseClasses (courseId : Int) : Except PyError (List Fields) :=
  readRows service credentials ⟨"getCourseClass", some courseId⟩
    ["classList", "class_list", "list", "classes"]

def studentList : Except PyError (List Fields) :=
  readRows service credentials ⟨"getStudentList", none⟩
    ["studentList", "student_list", "list", "students"]

def teacherList : Except PyError (List Fields) :=
  readRows service credentials ⟨"getTeacherList", none⟩
    ["teacherList", "teacher_list", "list", "teachers"]

/-- The first of the keys that has a value. -/
def pick (row : Fields) : List String → PyValue
  | [] => .none
  | key :: keys =>
      match PyValue.get row key with
      | .none => pick row keys
      | value => value

def isSome : PyValue → Bool
  | .none => false
  | _ => true

/-- `int(_pick(row, *keys))`, or `none` for a row without an id. -/
def pickId (row : Fields) (keys : List String) : Except PyError (Option Int) :=
  match pick row keys with
  | .none => .ok none
  | value => (intOf value).map some

variable (p : Platform)

/-- One class of a course. -/
def syncClass (courseId : Int) (row : Fields) : StoreScript Unit :=
  match pick row ["classId", "class_id", "id"] with
  | .none => pure ()
  | lessonId => do
      let key ← Script.lift (p.strOf lessonId).encode
      upsertLesson p key (some courseId) (pick row ["className", "class_name", "name"])
        (pick row ["beginTime", "begin_time", "startTime"]) (pick row ["endTime", "end_time"])
        (pick row ["teacherUid", "teacher_uid"]) none "api"

/-- The classes of a course, read one request a course. -/
def syncClasses (courseId : Int) : StoreScript Unit := do
  let classes ← Script.lift (courseClasses service credentials courseId)
  Script.each classes (syncClass p courseId)

/-- Tag a course with the synced branch, when there is one. -/
def tagCourse (courseId : Int) (branchId : Option Int) : StoreScript Unit :=
  match branchId with
  | some _ => setCourseBranch courseId branchId
  | none => pure ()

/-- One course of the list, then its classes. -/
def syncCourse (branchId : Option Int) (row : Fields) : StoreScript Unit := do
  match ← Script.lift (pickId row ["courseId", "course_id", "id"]) with
  | none => pure ()
  | some courseId =>
      upsertCourse p courseId (pick row ["courseName", "course_name", "name"])
        (pick row ["mainTeacherUid", "teacherUid"]) .none "api"
      tagCourse courseId branchId
      syncClasses service credentials p courseId

def syncStudent (row : Fields) : StoreScript Unit := do
  match ← Script.lift (pickId row ["studentUid", "student_uid", "uid", "id"]) with
  | none => pure ()
  | some uid => ensureStudent p uid (pick row ["studentName", "student_name", "name"])

def syncTeacher (row : Fields) : StoreScript Unit := do
  match ← Script.lift (pickId row ["teacherUid", "teacher_uid", "uid", "id"]) with
  | none => pure ()
  | some uid => upsertTeacher p uid (pick row ["teacherName", "teacher_name", "name"])

/-- The rows that have an id, which is what the counters of a sync count. -/
def countIds (rows : List Fields) (keys : List String) : Nat :=
  (rows.filter fun row => isSome (pick row keys)).length

/-- The classes of one course of the list. -/
def countClasses (row : Fields) : Nat :=
  match pickId row ["courseId", "course_id", "id"] with
  | .ok (some courseId) =>
      match courseClasses service credentials courseId with
      | .ok classes => countIds classes ["classId", "class_id", "id"]
      | .error _ => 0
  | _ => 0

/-- Pull whatever is enabled into the master tables; the number of rows that were synced. -/
def syncMasters (branchId : Option Int) : StoreScript Nat := do
  let courses ← Script.lift (courseList service credentials)
  Script.each courses (syncCourse service credentials p branchId)
  let students ← Script.lift (studentList service credentials)
  Script.each students (syncStudent p)
  let teachers ← Script.lift (teacherList service credentials)
  Script.each teachers (syncTeacher p)
  pure (countIds courses ["courseId", "course_id", "id"]
    + (courses.map (countClasses service credentials)).sum
    + countIds students ["studentUid", "student_uid", "uid", "id"]
    + countIds teachers ["teacherUid", "teacher_uid", "uid", "id"])

/-- Where the sync request goes. -/
inductive SyncResponse
  | login
  | forbidden
  | synced (n : Nat)
  | unavailable

/-- `POST /dashboard/sync`. -/
def dashboardSync (store : Store) (session : Option Session) :
    Except PyError SyncResponse × Store :=
  match session with
  | none => (.ok .login, store)
  | some session =>
      if session.role = .owner then
        match clientFor store session session.branchFilter with
        | .error e => (.error e, store)
        | .ok credentials =>
            let script := syncMasters service credentials p session.branchFilter
            (script.result.map fun n => if n = 0 then .unavailable else .synced n,
              store.exec script)
      else (.ok .forbidden, store)

end ClassinDashboard

import ClassinDashboard.PyPlatform
import ClassinDashboard.PyScript
import ClassinDashboard.SqlTable

/-!
The event store: the raw log, the event table and the normalized tables. Every method commits on its
own, so a caller that only writes is a script of committed writes. Columns that hold nothing but the
time of a write are left out.
-/

namespace ClassinDashboard

open Py Sql

/-- The columns of `lesson_records` beside its key. -/
inductive Column
  | courseId | courseName | className | lessonDate | classStart | classEnd
  | attendance | attendanceSeconds | cameraMinutes | handRaise | trophy | poll
  | homeworkSubmitted | homeworkLate | homeworkScore | homeworkActivityId
  | teacherUid | teacherName
  deriving DecidableEq, Repr

/-- The type a column is declared with. -/
inductive ColumnType
  | integer | text | real
  deriving DecidableEq

def Column.type : Column → ColumnType
  | courseName | className | lessonDate | attendance | teacherName => .text
  | cameraMinutes | handRaise | trophy | poll | homeworkScore => .real
  | courseId | classStart | classEnd | attendanceSeconds | homeworkSubmitted | homeworkLate
  | homeworkActivityId | teacherUid => .integer

abbrev Cells := Column → SqlValue

/-- The row of an insert that sets no column. -/
def emptyCells : Cells := fun _ => .null

structure LessonRecord where
  lessonId : String
  studentUid : Int
  cells : Cells

structure StudentRow where
  name : Option String
  parentPhone : Option String
  deriving DecidableEq

structure CourseRow where
  name : Option String
  teacherUid : SqlValue
  teacherName : Option String
  createdVia : String
  branchId : Option Int
  deriving DecidableEq

structure LessonRow where
  courseId : Option Int
  title : Option String
  startTime : SqlValue
  endTime : SqlValue
  teacherUid : SqlValue
  homeworkActivityId : Option Int
  createdVia : String
  deriving DecidableEq

structure TeacherRow where
  name : Option String
  branchId : Option Int
  deriving DecidableEq

structure BranchRow where
  name : String
  sid : Option String
  secret : Option String
  deriving DecidableEq

inductive Role
  | owner | manager | teacher
  deriving DecidableEq, Repr

structure UserRow where
  username : String
  passwordHash : String
  role : Role
  branchId : Option Int
  teacherUid : Option Int
  active : Bool
  deriving DecidableEq

structure EventRow where
  cmd : String
  msgId : Option String
  courseId : Option Int
  classId : Option Int
  studentUid : Option Int
  teacherUid : Option Int
  payload : PyValue

/-! ### The event table -/

/-- The messages a list of event rows has seen. -/
def msgIds (rows : List (Nat × EventRow)) : List String := rows.filterMap fun entry => entry.2.msgId

/-- The `events` table with its partial unique index on `msg_id`. -/
structure EventLog where
  table : AutoTable EventRow
  msgIds_nodup : (msgIds table.rows).Nodup

namespace EventLog

def empty : EventLog := ⟨AutoTable.empty, List.nodup_nil⟩

/-- The rows, without the keys SQLite numbers them with. -/
def rows (log : EventLog) : List EventRow := log.table.rows.map Prod.snd

def seen (log : EventLog) : List String := msgIds log.table.rows

/-- A message id the index would reject. -/
def isDuplicate (log : EventLog) (msgId : Option String) : Bool :=
  match msgId with
  | some id => id ∈ log.seen
  | none => false

theorem msgIds_insert (table : AutoTable EventRow) (row : EventRow) :
    msgIds (table.insert row).rows = msgIds table.rows ++ row.msgId.toList := by
  simp only [msgIds, AutoTable.insert, List.filterMap_append, List.filterMap_cons, List.filterMap_nil]
  cases row.msgId <;> rfl

/-- `INSERT OR IGNORE INTO events`: whether a row was inserted, and the log after it. -/
def insertOrIgnore (log : EventLog) (row : EventRow) : Bool × EventLog :=
  if h : log.isDuplicate row.msgId then (false, ⟨log.table.skip, log.msgIds_nodup⟩)
  else (true, ⟨log.table.insert row, by
    rw [msgIds_insert, List.nodup_append]
    refine ⟨log.msgIds_nodup, Option.toList_nodup _, ?_⟩
    intro a ha b hb hab
    subst hab
    rw [Option.mem_toList] at hb
    simp only [isDuplicate, Option.mem_def.mp hb, seen] at h
    exact h (decide_eq_true ha)⟩)

end EventLog

structure Store where
  rawLog : List PyValue
  events : EventLog
  lessonRecords : Table (String × Int) Cells
  students : Table Int StudentRow
  courses : Table Int CourseRow
  lessons : Table String LessonRow
  teachers : Table Int TeacherRow
  branches : AutoTable BranchRow
  users : AutoTable UserRow

def Store.empty : Store where
  rawLog := []
  events := EventLog.empty
  lessonRecords := Table.empty
  students := Table.empty
  courses := Table.empty
  lessons := Table.empty
  teachers := Table.empty
  branches := AutoTable.empty
  users := AutoTable.empty

/-- The tables that ingest normalizes into, without the raw log. -/
structure Normalized where
  events : EventLog
  lessonRecords : Table (String × Int) Cells
  courses : Table Int CourseRow
  lessons : Table String LessonRow
  students : Table Int StudentRow
  teachers : Table Int TeacherRow

def Store.normalized (store : Store) : Normalized where
  events := store.events
  lessonRecords := store.lessonRecords
  courses := store.courses
  lessons := store.lessons
  students := store.students
  teachers := store.teachers

/-! ### Committed writes -/

inductive Write
  | record (lessonId : String) (studentUid : Int) (fields : List (Column × SqlValue))
  /-- `ensure_student`; `named` says that the name was not empty. -/
  | student (uid : Int) (name : Option String) (named : Bool)
  | course (courseId : Int) (name : Option String) (teacherUid : SqlValue)
      (teacherName : Option String) (createdVia : String)
  | lesson (lessonId : String) (row : LessonRow)
  | teacher (uid : Int) (name : Option String)
  | courseBranch (courseId : Int) (branchId : Option Int)
  | teacherBranch (uid : Int) (branchId : Option Int)

/-- Only an empty name is filled in. -/
def StudentRow.backfill (row : StudentRow) (name : Option String) (named : Bool) : StudentRow :=
  if named && (row.name = none || row.name = some "") then { row with name } else row

/-- The conflict clause of `upsert_course`; `created_via` and the branch stay. -/
def CourseRow.merge (row : CourseRow) (name : Option String) (teacherUid : SqlValue)
    (teacherName : Option String) : CourseRow :=
  { row with
    name := name.or row.name
    teacherUid := teacherUid.coalesce row.teacherUid
    teacherName := teacherName.or row.teacherName }

/-- The conflict clause of `upsert_lesson`. -/
def LessonRow.merge (row new : LessonRow) : LessonRow where
  courseId := new.courseId.or row.courseId
  title := new.title.or row.title
  startTime := new.startTime.coalesce row.startTime
  endTime := new.endTime.coalesce row.endTime
  teacherUid := new.teacherUid.coalesce row.teacherUid
  homeworkActivityId := new.homeworkActivityId.or row.homeworkActivityId
  createdVia := row.createdVia

/-- `INSERT ... ON CONFLICT(lesson_id, student_uid) DO UPDATE` of the named columns: the inserted
value wins even where it is NULL. -/
def upsertCells (table : Table (String × Int) Cells) (key : String × Int)
    (fields : List (Column × SqlValue)) : Table (String × Int) Cells :=
  table.upsert key (patch emptyCells fields) fun cells => patch cells fields

def Store.write (store : Store) : Write → Store
  | .record lessonId studentUid fields =>
      { store with
        lessonRecords := upsertCells store.lessonRecords (lessonId, studentUid) fields }
  | .student uid name named =>
      { store with
        students := store.students.upsert uid ⟨name, none⟩ fun row => row.backfill name named }
  | .course courseId name teacherUid teacherName createdVia =>
      { store with
        courses := store.courses.upsert courseId ⟨name, teacherUid, teacherName, createdVia, none⟩
          fun row => row.merge name teacherUid teacherName }
  | .lesson lessonId row =>
      { store with lessons := store.lessons.upsert lessonId row fun old => old.merge row }
  | .teacher uid name =>
      { store with
        teachers := store.teachers.upsert uid ⟨name, none⟩
          fun row => { row with name := name.or row.name } }
  | .courseBranch courseId branchId =>
      { store with courses := store.courses.modify courseId fun row => { row with branchId } }
  | .teacherBranch uid branchId =>
      { store with teachers := store.teachers.modify uid fun row => { row with branchId } }

/-! ### Store methods -/

/-- A caller of the store that only writes. -/
abbrev StoreScript (α : Type) := Script Write PyError α

def Store.exec {α : Type} (store : Store) (s : StoreScript α) : Store := Script.exec Store.write s store

variable (p : Platform)

/-- An int parameter of a statement. -/
def bindKey (n : Int) : Except PyError Int :=
  if SqlValue.inRange n then .ok n else .error .overflowError

theorem bindKey_eq_ok {n m : Int} : bindKey n = .ok m ↔ SqlValue.inRange n = true ∧ n = m := by
  unfold bindKey
  split <;> simp_all

theorem bindKey_of_inRange {n : Int} (h : SqlValue.inRange n = true) : bindKey n = .ok n :=
  bindKey_eq_ok.mpr ⟨h, rfl⟩

theorem bindKey_eq {n k : Int} (h : bindKey n = .ok k) : k = n := (bindKey_eq_ok.mp h).2.symm

theorem bindKey_isOk {n : Int} : (∃ k, bindKey n = .ok k) ↔ SqlValue.inRange n = true := by
  simp only [bindKey_eq_ok, exists_and_left, exists_eq', and_true]

/-- Bind a value to a column, by the type the column is declared with. -/
def ColumnType.bind (type : ColumnType) (value : PyValue) : Except PyError SqlValue :=
  match type with
  | integer => p.bindInteger value
  | real => p.bindReal value
  | text => (p.bindText value).map fun
      | some s => .text s
      | none => .null

def bindFields (fields : List (Column × PyValue)) : Except PyError (List (Column × SqlValue)) :=
  fields.mapM fun field => (field.1.type.bind p field.2).map fun cell => (field.1, cell)

def upsertLessonRecord (lessonId : String) (studentUid : Int) (fields : List (Column × PyValue)) :
    StoreScript Unit := Script.commit do
  let uid ← bindKey studentUid
  let cells ← bindFields p fields
  pure (.record lessonId uid cells)

/-- Like the upsert: both write the given fields only. -/
def patchLessonRecord (lessonId : String) (studentUid : Int) (fields : List (Column × PyValue)) :
    StoreScript Unit :=
  upsertLessonRecord p lessonId studentUid fields

def ensureStudent (uid : Int) (name : PyValue) : StoreScript Unit := Script.commit do
  let key ← bindKey uid
  let text ← p.bindText name
  pure (.student key text name.truthy)

def upsertCourse (courseId : Int) (name teacherUid teacherName : PyValue) (createdVia : String) :
    StoreScript Unit := Script.commit do
  let key ← bindKey courseId
  let name ← p.bindText name
  let teacherUid ← p.bindInteger teacherUid
  let teacherName ← p.bindText teacherName
  pure (.course key name teacherUid teacherName createdVia)

def upsertLesson (lessonId : String) (courseId : Option Int)
    (title startTime endTime teacherUid : PyValue) (homeworkActivityId : Option Int)
    (createdVia : String) : StoreScript Unit := Script.commit do
  let courseId ← bindInt courseId
  let title ← p.bindText title
  let startTime ← p.bindInteger startTime
  let endTime ← p.bindInteger endTime
  let teacherUid ← p.bindInteger teacherUid
  let homeworkActivityId ← bindInt homeworkActivityId
  pure (.lesson lessonId
    { courseId, title, startTime, endTime, teacherUid, homeworkActivityId, createdVia })

def upsertTeacher (uid : Int) (name : PyValue) : StoreScript Unit := Script.commit do
  let key ← bindKey uid
  let name ← p.bindText name
  pure (.teacher key name)

def setCourseBranch (courseId : Int) (branchId : Option Int) : StoreScript Unit := Script.commit do
  let branchId ← bindInt branchId
  let key ← bindKey courseId
  pure (.courseBranch key branchId)

def setTeacherBranch (uid : Int) (branchId : Option Int) : StoreScript Unit := Script.commit do
  let branchId ← bindInt branchId
  let key ← bindKey uid
  pure (.teacherBranch key branchId)

/-- The audit log of the raw body; its file is UTF-8. -/
def appendRaw (store : Store) (payload : PyValue) : Except PyError Store :=
  if payload.encodable then .ok { store with rawLog := store.rawLog ++ [payload] }
  else .error .unicodeEncodeError

/-- The parameters of the event insert, in the order they are bound. -/
def eventRow (cmd : String) (payload : PyValue) (msgId : Option PyStr)
    (courseId classId studentUid teacherUid : Option Int) : Except PyError EventRow := do
  let msgId ← msgId.mapM PyStr.encode
  let courseId ← bindInt courseId
  let classId ← bindInt classId
  let studentUid ← bindInt studentUid
  let teacherUid ← bindInt teacherUid
  if payload.encodable then
    pure { cmd, msgId, courseId, classId, studentUid, teacherUid, payload }
  else throw .unicodeEncodeError

/-- Insert one event; `false` when the message was already seen. -/
def insertEvent (store : Store) (row : EventRow) : Bool × Store :=
  let (inserted, events) := store.events.insertOrIgnore row
  (inserted, { store with events })

end ClassinDashboard

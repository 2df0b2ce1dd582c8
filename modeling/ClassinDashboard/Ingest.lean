import ClassinDashboard.PyCalendar
import ClassinDashboard.Store
import ClassinDashboard.WebhookSchemas

/-! Webhook event to store normalization. -/

namespace ClassinDashboard

open Py Sql

def lateGraceSeconds : Int := 5 * 60

/-- An optional int that is true in Python: neither `None` nor 0. -/
def nonzero (n : Option Int) : Option Int := n.filter fun n => n ≠ 0

/-- `a or b` on optional ints. -/
def orInt (a b : Option Int) : Option Int := if (nonzero a).isSome then a else b

def attendanceLabel (seconds : Int) (firstIn classStart classEnd : Option Int) :
    Except PyError String :=
  if seconds ≤ 0 then .ok "결석"
  else
    let lateArrival : Bool := match nonzero firstIn, nonzero classStart with
      | some firstIn, some classStart => classStart + lateGraceSeconds < firstIn
      | _, _ => false
    if lateArrival then .ok "지각"
    else match nonzero classStart, nonzero classEnd with
      | some classStart, some classEnd =>
          (PyFloat.ofInt (classEnd - classStart)).map fun duration =>
            if PyFloat.intLt seconds (duration.scale (1 / 2)) then "지각" else "출석"
      | _, _ => .ok "출석"

def iso (ts : Option Int) : Except PyError (Option String) :=
  match nonzero ts with
  | none => .ok none
  | some ts => (utcIsoformat ts).map some

def lessonKey (event : BaseEvent) (activityId : Option Int) : String :=
  match nonzero event.classID, nonzero activityId with
  | some classID, _ => toString classID
  | none, some activityId => "homework:" ++ toString activityId
  | none, none => "unknown"

variable (p : Platform)

/-! ### Attendance -/

/-- The columns an attendance event writes on the row of one student. -/
def attendanceFields (event : AttendanceEvent) (teacher : Option AttendanceMember)
    (member : AttendanceMember) : Except PyError (List (Column × PyValue)) := do
  let lessonDate ← iso (orInt event.classStartTime event.actionTime)
  let label ← attendanceLabel member.attendanceTime member.firstInTime event.classStartTime
    event.classEndTime
  pure [(.courseId, .ofInt? event.courseID),
    (.courseName, .ofText? event.courseName),
    (.className, .ofText? event.className),
    (.lessonDate, .ofText? lessonDate),
    (.classStart, .ofInt? event.classStartTime),
    (.classEnd, .ofInt? event.classEndTime),
    (.attendance, .ofText? (some label)),
    (.attendanceSeconds, .int member.attendanceTime),
    (.teacherUid, .ofInt? (teacher.map (·.uid))),
    (.teacherName, .ofText? (teacher.bind (·.name)))]

/-- One member of the attendance list. -/
def ingestMember (event : AttendanceEvent) (teacher : Option AttendanceMember)
    (member : AttendanceMember) : StoreScript Unit :=
  if member.isStudent then do
    ensureStudent p member.uid (.ofText? member.name)
    let fields ← Script.lift (attendanceFields event teacher member)
    upsertLessonRecord p (lessonKey event.toBaseEvent none) member.uid fields
  else if member.isTeacher then upsertTeacher p member.uid (.ofText? member.name)
  else pure ()

/-- The first teacher of the list, whom every student row names. -/
def AttendanceEvent.teacher (event : AttendanceEvent) : Option AttendanceMember :=
  event.data.find? (·.isTeacher)

/-- `if event.CourseID: store.upsert_course(...)`. -/
def ingestCourse (event : AttendanceEvent) : StoreScript Unit :=
  match nonzero event.courseID with
  | some courseID => upsertCourse p courseID (.ofText? event.courseName) .none .none "webhook"
  | none => pure ()

def ingestAttendance (event : AttendanceEvent) : StoreScript Unit := do
  ingestCourse p event
  upsertLesson p (lessonKey event.toBaseEvent none) event.courseID (.ofText? event.className)
    (.ofInt? event.classStartTime) (.ofInt? event.classEndTime) .none none "webhook"
  Script.each event.data (ingestMember p event event.teacher)

/-! ### End -/

/-- The totals of one End event, each keyed by student. -/
structure EndTotals where
  camera : List (Int × PyFloat)
  hands : List (Int × PyFloat)
  trophy : List (Int × PyFloat)
  poll : List (Int × Int)

def endTotals (event : EndEvent) : Except PyError EndTotals := do
  let camera ← event.cameraMinutesByUid p
  let hands ← event.handRaiseByUid p
  let trophy ← event.trophyByUid p
  let poll ← event.pollByUid
  pure { camera, hands, trophy, poll }

/-- The students with any total. -/
def EndTotals.uids (totals : EndTotals) : List Int :=
  totals.camera.map Prod.fst ++ totals.hands.map Prod.fst ++ totals.trophy.map Prod.fst
    ++ totals.poll.map Prod.fst

/-- The columns an End event writes on the row of one student: those it has a total for. -/
def EndTotals.fields (totals : EndTotals) (courseID : Option Int) (uid : Int) :
    List (Column × PyValue) :=
  (.courseId, .ofInt? courseID) ::
    ((totals.camera.lookup uid).toList.map fun x => (Column.cameraMinutes, .float x))
    ++ ((totals.hands.lookup uid).toList.map fun x => (Column.handRaise, .float x))
    ++ ((totals.trophy.lookup uid).toList.map fun x => (Column.trophy, .float x))
    ++ ((totals.poll.lookup uid).toList.map fun n => (Column.poll, .int n))

def ingestEnd (event : EndEvent) : StoreScript Unit := do
  let totals ← Script.lift (endTotals p event)
  Script.each (p.setOrder totals.uids) fun uid =>
    patchLessonRecord p (lessonKey event.toBaseEvent none) uid (totals.fields event.courseID uid)

/-! ### Homework -/

def HomeworkSubmitEvent.fields (event : HomeworkSubmitEvent) : List (Column × PyValue) :=
  [(.courseId, .ofInt? event.courseID),
    (.homeworkSubmitted, .int 1),
    (.homeworkLate, .int (if event.data.isSubmitLate = some true then 1 else 0)),
    (.homeworkActivityId, .int event.data.activityId)]

def ingestHomeworkSubmit (event : HomeworkSubmitEvent) : StoreScript Unit :=
  match event.data.studentInfo with
  | some ⟨some uid, name⟩ => do
      ensureStudent p uid (.ofText? name)
      patchLessonRecord p (lessonKey event.toBaseEvent (some event.data.activityId)) uid event.fields
  | _ => pure ()

def HomeworkScoreEvent.fields (event : HomeworkScoreEvent) : List (Column × PyValue) :=
  [(.courseId, .ofInt? event.courseID), (.homeworkScore, .ofFloat? event.data.scorePercent)]

def ingestHomeworkScore (event : HomeworkScoreEvent) : StoreScript Unit :=
  match event.data.studentInfo with
  | some ⟨some uid, _⟩ =>
      patchLessonRecord p (lessonKey event.toBaseEvent (some event.data.activityId)) uid event.fields
  | _ => pure ()

/-! ### Dispatch -/

/-- What an event does to the store once it is in the event table. -/
def handle : Event → StoreScript Unit
  | .attendance event => ingestAttendance p event
  | .end event => ingestEnd p event
  | .homeworkSubmit event => ingestHomeworkSubmit p event
  | .homeworkScore event => ingestHomeworkScore p event
  | .rating event =>
      match nonzero event.tuid with
      | some tuid => upsertTeacher p tuid .none
      | none => pure ()
  | .answerSheetScore _ | .generic _ => pure ()

def Event.cmd (event : Event) : String := if event.base.cmd = "" then "unknown" else event.base.cmd

def Event.studentUid : Event → Option Int
  | .homeworkSubmit event => event.data.studentInfo.bind (·.uid)
  | .homeworkScore event => event.data.studentInfo.bind (·.uid)
  | .answerSheetScore event => event.data.studentInfo.bind (·.uid)
  | _ => none

def Event.teacherUid : Event → Option Int
  | .homeworkSubmit event => event.data.teacherInfo.bind (·.uid)
  | .homeworkScore event => event.data.teacherInfo.bind (·.uid)
  | .answerSheetScore event => event.data.teacherInfo.bind (·.uid)
  | .rating event => event.tuid
  | _ => none

/-- `str(raw["_id"])`, when there is one. -/
def messageId (raw : PyValue) : Option PyStr :=
  match raw with
  | .dict items =>
      match PyValue.get items "_id" with
      | .none => none
      | value => some (p.strOf value)
  | _ => none

/-- The event of a payload, if it is valid. -/
def eventOf (raw : PyValue) : Option Event := (parseEvent p raw).toOption

/-- The event of a payload and its row, or what is raised before anything is written. -/
def readEvent (raw : PyValue) : Except PyError (Event × EventRow) := do
  let event ← parseEvent p raw
  let row ← eventRow event.cmd raw (messageId p raw) event.base.courseID event.base.classID
    event.studentUid event.teacherUid
  pure (event, row)

/-- Parse and persist one webhook payload: the Cmd handled or the exception, and the store after. A
message that was already seen is stored-skipped and not applied again. -/
def ingest (store : Store) (raw : PyValue) : Except PyError String × Store :=
  match readEvent p raw with
  | .error e => (.error e, store)
  | .ok (event, row) =>
      match insertEvent store row with
      | (false, store) => (.ok event.cmd, store)
      | (true, store) => ((handle p event).result.map fun _ => event.cmd, store.exec (handle p event))

end ClassinDashboard

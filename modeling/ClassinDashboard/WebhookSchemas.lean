import ClassinDashboard.PyPlatform

/-!
The pydantic models of the Data Sub payloads. A field reader returns `none` where validation
rejects the payload. Unknown fields are kept by the models and read by nobody, so they are not
carried here.
-/

namespace ClassinDashboard

open Py

abbrev Validator (α : Type) := PyValue → Option α

section Readers

variable {α : Type}

/-- A field `name: X | None = None`. -/
def optional (v : Validator α) (items : Fields) (name : String) : Option (Option α) :=
  match items.lookup (.text name) with
  | none | some .none => some none
  | some value => (v value).map some

/-- A field `name: X = default`; an explicit `null` is not an `X`. -/
def withDefault (v : Validator α) (default : α) (items : Fields) (name : String) : Option α :=
  match items.lookup (.text name) with
  | none => some default
  | some value => v value

/-- A field `name: X`. -/
def required (v : Validator α) (items : Fields) (name : String) : Option α :=
  (items.lookup (.text name)).bind v

/-- A model read from a dict. -/
def modelOf (read : Fields → Option α) : Validator α
  | .dict items => read items
  | _ => none

/-- `list[X]`: one invalid element rejects the whole list. -/
def listOf (v : Validator α) : Validator (List α)
  | .list items => items.mapM v
  | _ => none

/-- `dict[str, Any]`. -/
def dictOf : Validator Fields
  | .dict items => if items.all fun item => item.1.encode.toBool then some items else none
  | _ => none

end Readers

variable (p : Platform)

/-- `int | str`, of which only the validity is used. -/
def intOrStr : Validator Unit := fun value =>
  if (p.int value).isSome || (p.str value).isSome then some () else none

/-- `int | bool`, of which only the truth value is used. -/
def intOrBool : Validator Bool
  | .bool b => some b
  | value => ((p.int value).map fun n => n != 0).orElse fun _ => p.bool value

structure BaseEvent where
  cmd : String
  classID : Option Int
  courseID : Option Int
  courseName : Option String
  actionTime : Option Int
  timeStamp : Option Int
  safeKey : Option String

def baseEvent (items : Fields) : Option BaseEvent := do
  let _ ← optional (intOrStr p) items "SID"
  let cmd ← withDefault p.str "" items "Cmd"
  let classID ← optional p.int items "ClassID"
  let courseID ← optional p.int items "CourseID"
  let courseName ← optional p.str items "CourseName"
  let actionTime ← optional p.int items "ActionTime"
  let timeStamp ← optional p.int items "TimeStamp"
  let safeKey ← optional p.str items "SafeKey"
  pure { cmd, classID, courseID, courseName, actionTime, timeStamp, safeKey }

def identityStudent : Int := 1
def identityTeacher : Int := 3
def identityCoTeacher : Int := 4

structure AttendanceMember where
  uid : Int
  name : Option String
  identity : Option Int
  attendanceTime : Int
  firstInTime : Option Int
  lastOutTime : Option Int
  deriving DecidableEq

namespace AttendanceMember

def isStudent (m : AttendanceMember) : Bool :=
  m.identity ∈ [none, some 0, some identityStudent]

def isTeacher (m : AttendanceMember) : Bool :=
  m.identity ∈ [some identityTeacher, some identityCoTeacher]

end AttendanceMember

def attendanceMember : Validator AttendanceMember := modelOf fun items => do
  let uid ← required p.int items "Uid"
  let name ← optional p.str items "Name"
  let identity ← optional p.int items "Identity"
  let attendanceTime ← withDefault p.int 0 items "AttendanceTime"
  let firstInTime ← optional p.int items "FirstInTime"
  let lastOutTime ← optional p.int items "LastOutTime"
  pure { uid, name, identity, attendanceTime, firstInTime, lastOutTime }

structure AttendanceEvent extends BaseEvent where
  className : Option String
  classStartTime : Option Int
  classEndTime : Option Int
  data : List AttendanceMember

def attendanceEvent (items : Fields) : Option AttendanceEvent := do
  let base ← baseEvent p items
  let className ← optional p.str items "ClassName"
  let classStartTime ← optional p.int items "ClassStartTime"
  let classEndTime ← optional p.int items "ClassEndTime"
  let _ ← optional p.int items "ActivityID"
  let _ ← optional p.int items "AttendanceStudentNum"
  let _ ← optional p.int items "ClassStudentNum"
  let data ← withDefault (listOf (attendanceMember p)) [] items "Data"
  pure { base with className, classStartTime, classEndTime, data }

/-! ### End sections -/

/-- `out[key] = value` on a dict in insertion order. -/
def setItem {α : Type} (out : List (Int × α)) (key : Int) (value : α) : List (Int × α) :=
  if out.any (·.1 = key) then out.map fun item => if item.1 = key then (key, value) else item
  else out ++ [(key, value)]

/-- `try: ... except (TypeError, ValueError)`: any other exception goes on. -/
def tryNumber {α : Type} : Except PyError α → Except PyError (Option α)
  | .ok a => .ok (some a)
  | .error .typeError | .error .valueError => .ok none
  | .error e => .error e

/-- Walk nested dict keys; anything that is not a dict on the way gives `None`. -/
def walk : List String → PyValue → PyValue
  | [], value => value
  | key :: path, .dict items => walk path (PyValue.get items key)
  | _ :: _, _ => .none

/-- The number an entry holds: the nested one, else the entry itself when it is a number. -/
def entryValue (path : List String) (entry : PyValue) : PyValue :=
  match walk path entry, entry with
  | .none, .bool b => .bool b
  | .none, .int n => .int n
  | .none, .float x => .float x
  | value, _ => value

def uidMapTotals (uidSection : PyValue) (path : List String) : Except PyError (List (Int × PyFloat)) :=
  match uidSection with
  | .dict items => items.foldlM (fun out item => do
      match ← tryNumber (intOf (.str item.1)) with
      | none => pure out
      | some uid =>
          match ← tryNumber (p.floatOf (entryValue path item.2)) with
          | none => pure out
          | some total => pure (setItem out uid total)) []
  | _ => pure []

structure EndEvent extends BaseEvent where
  closeTime : Option Int
  realCloseTime : Option Int
  startTime : Option Int
  data : Fields

def endEvent (items : Fields) : Option EndEvent := do
  let base ← baseEvent p items
  let closeTime ← optional p.int items "CloseTime"
  let realCloseTime ← optional p.int items "RealCloseTime"
  let startTime ← optional p.int items "StartTime"
  let data ← withDefault dictOf [] items "Data"
  pure { base with closeTime, realCloseTime, startTime, data }

namespace EndEvent

variable (event : EndEvent)

def handRaiseByUid : Except PyError (List (Int × PyFloat)) :=
  uidMapTotals p (PyValue.get event.data "handsupEnd") ["Total"]

def trophyByUid : Except PyError (List (Int × PyFloat)) :=
  uidMapTotals p (PyValue.get event.data "awardEnd") ["Total"]

def cameraMinutesByUid : Except PyError (List (Int × PyFloat)) := do
  let secs ← uidMapTotals p (PyValue.get event.data "equipmentsEnd") ["Camera", "Total"]
  pure (secs.map fun item => (item.1, (item.2.scale (1 / 60)).round1))

/-- One participant of one answer counts once. -/
def countParticipant (out : List (Int × Int)) (participant : PyValue) :
    Except PyError (List (Int × Int)) := do
  match participant with
  | .dict items =>
      match PyValue.get items "Uid" with
      | .none => pure out
      | uid =>
          match ← tryNumber (intOf uid) with
          | none => pure out
          | some uid => pure (setItem out uid ((out.lookup uid).getD 0 + 1))
  | _ => pure out

def pollByUid : Except PyError (List (Int × Int)) := do
  match PyValue.get event.data "answerEnd" with
  | .dict answerEnd =>
      let answers ← ((PyValue.get answerEnd "Answers").orElse (.list [])).iterate
      answers.foldlM (fun out answer => do
        match answer with
        | .dict items =>
            let participants ← ((PyValue.get items "Participants").orElse (.list [])).iterate
            participants.foldlM (countParticipant) out
        | _ => pure out) []
  | _ => pure []

end EndEvent

/-! ### Homework -/

structure HomeworkParty where
  uid : Option Int
  name : Option String
  deriving DecidableEq

/-- `items.setdefault(key, value)`. -/
def setDefault (items : Fields) (key : String) (value : PyValue) : Fields :=
  if (items.lookup (.text key)).isSome then items else items ++ [(.text key, value)]

/-- The official LMS keys stand in for the plain ones. -/
def acceptOfficialLmsKeys (items : Fields) : Fields :=
  let pick (student teacher : String) := (PyValue.get items student).orElse (PyValue.get items teacher)
  let out := setDefault items "Uid" (pick "StudentUid" "TeacherUid")
  let out := setDefault out "Name" (pick "StudentName" "TeacherName")
  setDefault out "Account" (pick "StudentAccount" "TeacherAccount")

def homeworkParty : Validator HomeworkParty := modelOf fun data => do
  let items := acceptOfficialLmsKeys data
  let uid ← optional p.int items "Uid"
  let name ← optional p.str items "Name"
  let _ ← optional p.str items "Account"
  pure { uid, name }

structure HomeworkSubmitData where
  activityId : Int
  studentInfo : Option HomeworkParty
  teacherInfo : Option HomeworkParty
  isSubmitLate : Option Bool

def homeworkSubmitData : Validator HomeworkSubmitData := modelOf fun items => do
  let _ ← optional p.int items "UnitId"
  let activityId ← required p.int items "ActivityId"
  let _ ← optional p.str items "ActivityName"
  let studentInfo ← optional (homeworkParty p) items "StudentInfo"
  let teacherInfo ← optional (homeworkParty p) items "TeacherInfo"
  let _ ← optional p.int items "SubmissionTime"
  let isSubmitLate ← optional (intOrBool p) items "IsSubmitLate"
  let _ ← optional p.int items "StudentTotal"
  let _ ← optional p.int items "SubmitTotal"
  pure { activityId, studentInfo, teacherInfo, isSubmitLate }

structure HomeworkSubmitEvent extends BaseEvent where
  data : HomeworkSubmitData

def homeworkSubmitEvent (items : Fields) : Option HomeworkSubmitEvent := do
  let base ← baseEvent p items
  let data ← required (homeworkSubmitData p) items "Data"
  pure { base with data }

structure HomeworkScoreData where
  activityId : Int
  score : Option PyFloat
  studentInfo : Option HomeworkParty
  teacherInfo : Option HomeworkParty
  studentScoringRate : Option PyFloat

/-- The rate in percent with one decimal, else the raw score. -/
def HomeworkScoreData.scorePercent (data : HomeworkScoreData) : Option PyFloat :=
  match data.studentScoringRate with
  | some rate => some (rate.scale 100).round1
  | none => data.score

def homeworkScoreData : Validator HomeworkScoreData := modelOf fun items => do
  let _ ← optional p.int items "UnitId"
  let activityId ← required p.int items "ActivityId"
  let _ ← optional p.str items "ActivityName"
  let score ← optional p.float items "Score"
  let studentInfo ← optional (homeworkParty p) items "StudentInfo"
  let teacherInfo ← optional (homeworkParty p) items "TeacherInfo"
  let studentScoringRate ← optional p.float items "StudentScoringRate"
  pure { activityId, score, studentInfo, teacherInfo, studentScoringRate }

structure HomeworkScoreEvent extends BaseEvent where
  data : HomeworkScoreData

def homeworkScoreEvent (items : Fields) : Option HomeworkScoreEvent := do
  let base ← baseEvent p items
  let data ← required (homeworkScoreData p) items "Data"
  pure { base with data }

structure AnswerSheetScoreData where
  activityId : Int
  studentInfo : Option HomeworkParty
  teacherInfo : Option HomeworkParty

def answerSheetScoreData : Validator AnswerSheetScoreData := modelOf fun items => do
  let _ ← optional p.int items "UnitId"
  let _ ← optional p.str items "UnitName"
  let activityId ← required p.int items "ActivityId"
  let _ ← optional p.str items "ActivityName"
  let _ ← optional p.int items "ClassId"
  let _ ← optional p.float items "Score"
  let _ ← optional p.float items "MaximumScore"
  let studentInfo ← optional (homeworkParty p) items "StudentInfo"
  let teacherInfo ← optional (homeworkParty p) items "TeacherInfo"
  let _ ← optional p.int items "SubmissionTime"
  let _ ← optional p.float items "StudentScoringRate"
  pure { activityId, studentInfo, teacherInfo }

structure AnswerSheetScoreEvent extends BaseEvent where
  data : AnswerSheetScoreData

def answerSheetScoreEvent (items : Fields) : Option AnswerSheetScoreEvent := do
  let base ← baseEvent p items
  let data ← required (answerSheetScoreData p) items "Data"
  pure { base with data }

structure RatingEvent extends BaseEvent where
  tuid : Option Int
  comments : Fields

def ratingEvent (items : Fields) : Option RatingEvent := do
  let base ← baseEvent p items
  let tuid ← optional p.int items "TUID"
  let comments ← withDefault dictOf [] items "Comments"
  pure { base with tuid, comments }

/-! ### Dispatch on `Cmd` -/

inductive Event
  | attendance (event : AttendanceEvent)
  | «end» (event : EndEvent)
  | homeworkSubmit (event : HomeworkSubmitEvent)
  | homeworkScore (event : HomeworkScoreEvent)
  | answerSheetScore (event : AnswerSheetScoreEvent)
  | rating (event : RatingEvent)
  | generic (event : BaseEvent)

def Event.base : Event → BaseEvent
  | attendance event => event.toBaseEvent
  | «end» event => event.toBaseEvent
  | homeworkSubmit event => event.toBaseEvent
  | homeworkScore event => event.toBaseEvent
  | answerSheetScore event => event.toBaseEvent
  | rating event => event.toBaseEvent
  | generic event => event

/-- `_KNOWN.get(cmd, GenericEvent)`, as the validator of the model it names. -/
def known (cmd : PyValue) (items : Fields) : Option Event :=
  match cmd with
  | .str (.text "Attendance") => (attendanceEvent p items).map .attendance
  | .str (.text "End") => (endEvent p items).map .end
  | .str (.text "HomeworkSubmit") => (homeworkSubmitEvent p items).map .homeworkSubmit
  | .str (.text "HomeworkScore") => (homeworkScoreEvent p items).map .homeworkScore
  | .str (.text "AnswerSheetScore") => (answerSheetScoreEvent p items).map .answerSheetScore
  | .str (.text "Rating") => (ratingEvent p items).map .rating
  | _ => (baseEvent p items).map .generic

def parseEvent (raw : PyValue) : Except PyError Event :=
  match raw with
  | .dict items =>
      let cmd := ((PyValue.get items "Cmd").orElse (PyValue.get items "cmd")).orElse (.str (.text ""))
      if cmd.hashable then
        match known p cmd items with
        | some event => .ok event
        | none => .error .validationError
      else .error .typeError
  | _ => .error .attributeError

end ClassinDashboard

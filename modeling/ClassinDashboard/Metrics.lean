import ClassinDashboard.PyArith
import ClassinDashboard.PyCalendar
import ClassinDashboard.ScopedReads

/-!
Dashboard aggregations over the lesson records in scope: missing homework, which is derived by
absence, and the figures of students, teachers and weeks. The clock is an argument: every read gets
the date its window starts with.
-/

namespace ClassinDashboard

open Py Sql

/-- A record on the missing-homework list, with what the alert needs. -/
structure MissingRow where
  record : LessonRecord
  studentName : String
  parentPhone : Option String

/-- A lesson has homework if any record in it carries a homework activity, or the lesson itself
does. -/
def lessonsWithHomework (store : Store) (scope : Scope) : List String :=
  ((lessonRecords store scope .none).filter fun r => r.cells .homeworkActivityId ≠ .null).map
      LessonRecord.lessonId
    ++ ((lessons store scope none).filter fun l => l.2.homeworkActivityId.isSome).map Prod.fst

/-- `student.get("name") or f"UID {uid}"`. -/
def displayName (student : Option StudentRow) (uid : Int) : String :=
  match (student.bind (·.name)).filter (· ≠ "") with
  | some name => name
  | none => "UID " ++ toString uid

/-- Rows of lessons with homework that are not submitted, from a date on. -/
def missingHomeworkRows (store : Store) (scope : Scope) (since : String) : List MissingRow :=
  let rows := lessonRecords store scope { RecordFilter.none with since := some since }
  let names := students store scope
  let withHomework := lessonsWithHomework store scope
  (rows.filter fun r => r.lessonId ∈ withHomework ∧ r.cells .homeworkSubmitted ≠ .int 1).map fun r =>
    let student := names.lookup r.studentUid
    ⟨r, displayName student r.studentUid, student.bind (·.parentPhone)⟩

/-! ### Students -/

def present : SqlValue := .text "출석"
def late : SqlValue := .text "지각"
def absent : SqlValue := .text "결석"

inductive RiskLevel
  | high | medium | good
  deriving DecidableEq, Repr

structure StudentMetrics where
  lessonCount : Nat
  attendanceRate : Option PyFloat
  presentCount : Nat
  lateCount : Nat
  absentCount : Nat
  homeworkMissing : Nat
  scoreAvg : Option PyFloat
  riskLevel : RiskLevel

def riskLevel (attendanceRate scoreAvg : Option PyFloat) (homeworkMissing : Nat) : RiskLevel :=
  if (attendanceRate.any fun rate => rate.lt (.ofRat (72 / 100)))
      || (scoreAvg.any fun avg => avg.lt (.fin 70)) || 3 ≤ homeworkMissing then .high
  else if (attendanceRate.any fun rate => rate.lt (.ofRat (86 / 100)))
      || (scoreAvg.any fun avg => avg.lt (.fin 80)) || 1 ≤ homeworkMissing then .medium
  else .good

def countAttendance (rows : List LessonRecord) (label : SqlValue) : Nat :=
  rows.countP fun r => r.cells .attendance = label

/-- The share of those present or late among the rows whose attendance is known. -/
def attendanceRate (rows : List LessonRecord) : Option PyFloat :=
  let ok := countAttendance rows present + countAttendance rows late
  let known := ok + countAttendance rows absent
  if known = 0 then none else some (.roundTo 3 (.ofRat (ok / known)))

/-- A cell as the float it is in a sum. -/
def cellFloat : SqlValue → Except PyError PyFloat
  | .int n => .ok (.ofRat n)
  | .real x => .ok x
  | .null | .text _ => .error .typeError

/-- `sum(cells)`, left to right. -/
def sumCells (cells : List SqlValue) : Except PyError PyFloat :=
  cells.foldlM (fun total cell => (cellFloat cell).map total.add) (.fin 0)

/-- `round(sum(cells) / len(cells), 1)`, when there are any. -/
def averageOf (cells : List SqlValue) : Except PyError (Option PyFloat) :=
  if cells.isEmpty then .ok none
  else (sumCells cells).map fun total => some (.roundTo 1 (total.scale (1 / cells.length)))

/-- The homework scores that are known. -/
def scores (rows : List LessonRecord) : List SqlValue :=
  (rows.map fun r => r.cells .homeworkScore).filter (· ≠ .null)

/-- `value == 0`. -/
def isZero : SqlValue → Bool
  | .int n => n = 0
  | .real x => x = .fin 0
  | .null | .text _ => false

/-- The rows flagged as missing. -/
def homeworkMissing (rows : List LessonRecord) : Nat :=
  rows.countP fun r => isZero (r.cells .homeworkSubmitted)

def studentMetrics (rows : List LessonRecord) : Except PyError StudentMetrics :=
  (averageOf (scores rows)).map fun scoreAvg =>
    { lessonCount := rows.length
      attendanceRate := attendanceRate rows
      presentCount := countAttendance rows present
      lateCount := countAttendance rows late
      absentCount := countAttendance rows absent
      homeworkMissing := homeworkMissing rows
      scoreAvg
      riskLevel := riskLevel (attendanceRate rows) scoreAvg (homeworkMissing rows) }

/-! ### Weeks -/

/-- The date in the text that `datetime.fromisoformat` reads. -/
abbrev IsoDate := String → Except PyError Date

variable (isoDate : IsoDate) (p : Platform)

/-- The Monday of the week of a date. -/
def weekStart (date : String) : Except PyError String := do
  let day ← isoDate date
  let monday ← day.addDays (-day.weekday)
  pure monday.isoformat

/-- The date of a record, when it has one. -/
def LessonRecord.date? (record : LessonRecord) : Option String :=
  (record.cells .lessonDate).toText?.filter (· ≠ "")

/-- The records by the week of their date, the last `buckets` weeks in order. -/
def byWeek (rows : List LessonRecord) (buckets : Nat) :
    Except PyError (List (String × List LessonRecord)) := do
  let weeks ← (rows.filter fun r => r.date?.isSome).mapM fun r =>
    (weekStart isoDate (r.date?.getD "")).map fun week => (week, r)
  let groups := (groupOn Prod.fst weeks).mergeSort fun a b => a.1 ≤ b.1
  pure ((groups.drop (groups.length - buckets)).map fun group => (group.1, group.2.map Prod.snd))

structure WeekAttendance where
  week : String
  attendanceRate : Option PyFloat
  present : Nat
  late : Nat
  absent : Nat
  total : Nat

def weeklyAttendanceTrend (rows : List LessonRecord) : Except PyError (List WeekAttendance) :=
  (byWeek isoDate rows 14).map fun weeks => weeks.map fun (week, rows) =>
    ⟨week, attendanceRate rows, countAttendance rows present, countAttendance rows late,
      countAttendance rows absent, rows.length⟩

structure WeekScore where
  week : String
  avgScore : Option PyFloat
  count : Nat

def weeklyScoreTrend (rows : List LessonRecord) : Except PyError (List WeekScore) := do
  let weeks ← byWeek isoDate (rows.filter fun r => r.cells .homeworkScore ≠ .null) 14
  weeks.mapM fun (week, rows) =>
    (averageOf (scores rows)).map fun avgScore => ⟨week, avgScore, rows.length⟩

/-! ### Overview and students -/

def windowRecords (store : Store) (scope : Scope) (since : String) : List LessonRecord :=
  lessonRecords store scope { RecordFilter.none with since := some since }

def perStudent (rows : List LessonRecord) : List (Int × List LessonRecord) :=
  groupOn LessonRecord.studentUid rows

structure Overview where
  courseCount : Nat
  lessonCount : Nat
  studentCount : Nat
  attendanceRate : Option PyFloat
  homeworkMissing : Nat
  riskCounts : RiskLevel → Nat
  attendanceTrend : List WeekAttendance
  scoreTrend : List WeekScore
  eventCounts : List (String × Nat)

def overview (store : Store) (scope : Scope) (since : String) : Except PyError Overview := do
  let rows := windowRecords store scope since
  let risks ← (perStudent rows).mapM fun group => (studentMetrics group.2).map (·.riskLevel)
  let attendanceTrend ← weeklyAttendanceTrend isoDate rows
  let scoreTrend ← weeklyScoreTrend isoDate rows
  pure
    { courseCount := (courses store scope).length
      lessonCount := (lessons store scope none).length
      studentCount := (perStudent rows).length
      attendanceRate := attendanceRate rows
      homeworkMissing := homeworkMissing rows
      riskCounts := fun level => risks.count level
      attendanceTrend
      scoreTrend
      eventCounts := countsByCmd store scope }

structure StudentSummary where
  uid : Int
  name : String
  className : Option String
  metrics : StudentMetrics

/-- The names of the courses of the records, in order. -/
def courseNames (rows : List LessonRecord) : Option String :=
  let names := (rows.filterMap fun r => (r.cells .courseName).toText?.filter (· ≠ "")).dedup
  if names.isEmpty then none else some (", ".intercalate (names.mergeSort fun a b => a ≤ b))

def RiskLevel.rank : RiskLevel → Nat
  | high => 0
  | medium => 1
  | good => 2

/-- The sort key of a student: risk, missing homework, attendance, name. -/
def StudentSummary.before (a b : StudentSummary) : Bool :=
  let rate (s : StudentSummary) := s.metrics.attendanceRate.getD (.fin 1)
  if a.metrics.riskLevel ≠ b.metrics.riskLevel then
    a.metrics.riskLevel.rank ≤ b.metrics.riskLevel.rank
  else if a.metrics.homeworkMissing ≠ b.metrics.homeworkMissing then
    b.metrics.homeworkMissing ≤ a.metrics.homeworkMissing
  else if rate a ≠ rate b then (rate a).lt (rate b)
  else a.name ≤ b.name

def studentsSummary (store : Store) (scope : Scope) (since : String) :
    Except PyError (List StudentSummary) := do
  let names := students store scope
  let out ← (perStudent (windowRecords store scope since)).mapM fun (uid, rows) =>
    (studentMetrics rows).map fun metrics =>
      (⟨uid, displayName (names.lookup uid) uid, courseNames rows, metrics⟩ : StudentSummary)
  pure (out.mergeSort StudentSummary.before)

/-! ### Teachers -/

/-- `if cell:`. -/
def cellTruthy : SqlValue → Bool
  | .null => false
  | .int n => n ≠ 0
  | .real x => x ≠ .fin 0
  | .text s => s ≠ ""

/-- `(end - start) / 60` of a record that has both. -/
def LessonRecord.minutes (record : LessonRecord) : Except PyError (Option PyFloat) :=
  let start := record.cells .classStart
  let finish := record.cells .classEnd
  if cellTruthy start && cellTruthy finish then
    match start, finish with
    | .int a, .int b => .ok (some (.ofRat (((b - a : Int) : ℚ) / 60)))
    | _, _ => do
        let b ← cellFloat finish
        let a ← cellFloat start
        pure (some ((b.sub a).scale (1 / 60)))
  else .ok none

/-- `str(cell)`. -/
def cellText : SqlValue → String
  | .null => "None"
  | .int n => toString n
  | .real x => p.repr (.float x)
  | .text s => s

structure TaughtLesson where
  lessonId : String
  title : SqlValue
  courseName : SqlValue
  date : SqlValue
  minutes : Option Int

structure TeacherSummary where
  uid : SqlValue
  name : String
  lessonCount : Nat
  taughtMinutes : Int
  attendanceRate : Option PyFloat
  weeklyMinutes : List (String × Int)
  lessons : List TaughtLesson

/-- The first record of every lesson. -/
def firstOfLessons (rows : List LessonRecord) : List LessonRecord :=
  (groupOn LessonRecord.lessonId rows).filterMap fun group => group.2.head?

def roundMinutes (minutes : Option PyFloat) : Except PyError (Option Int) := minutes.mapM PyFloat.round

/-- The minutes of a lesson that has both ends, and its week when it has a date. -/
def taughtTime (record : LessonRecord) : Except PyError (Option (PyFloat × Option String)) := do
  match ← record.minutes with
  | none => pure none
  | some minutes => do
      let week ← record.date?.mapM (weekStart isoDate)
      pure (some (minutes, week))

def sumMinutes (minutes : List PyFloat) : PyFloat := minutes.foldl PyFloat.add (.fin 0)

/-- The minutes by week, rounded, the last 14 weeks in order. -/
def weeklyMinutes (times : List (PyFloat × Option String)) : Except PyError (List (String × Int)) :=
  let dated := times.filterMap fun time => time.2.map fun week => (week, time.1)
  let weeks := (groupOn Prod.fst dated).mergeSort fun a b => a.1 ≤ b.1
  (weeks.drop (weeks.length - 14)).mapM fun (week, entries) =>
    (sumMinutes (entries.map Prod.snd)).round.map fun minutes => (week, minutes)

/-- The later lesson first; no date is the empty one. -/
def TaughtLesson.before (a b : TaughtLesson) : Bool :=
  b.date.toText?.getD "" ≤ a.date.toText?.getD ""

/-- The name of the registry, of a record, or the uid. -/
def teacherName (registered : Option TeacherRow) (rows : List LessonRecord) (uid : SqlValue) :
    String :=
  match (registered.bind (·.name)).filter (· ≠ "") with
  | some name => name
  | none =>
      match rows.findSome? fun r => (r.cells .teacherName).toText?.filter (· ≠ "") with
      | some name => name
      | none => "UID " ++ cellText p uid

def teacherSummary (registry : List (Int × TeacherRow)) (uid : SqlValue) (rows : List LessonRecord) :
    Except PyError TeacherSummary := do
  let lessons := firstOfLessons rows
  let times := (← lessons.mapM (taughtTime isoDate)).filterMap id
  let taughtMinutes ← (sumMinutes (times.map Prod.fst)).round
  let weeklyMinutes ← weeklyMinutes times
  let taught ← lessons.mapM fun r => do
    let minutes ← roundMinutes (← r.minutes)
    pure (⟨r.lessonId, r.cells .className, r.cells .courseName, r.cells .lessonDate, minutes⟩ :
      TaughtLesson)
  pure
    { uid
      name := teacherName p (uid.toInt?.bind fun n => registry.lookup n) rows uid
      lessonCount := lessons.length
      taughtMinutes
      attendanceRate := attendanceRate rows
      weeklyMinutes
      lessons := taught.mergeSort TaughtLesson.before }

/-- Teachers by their lessons, the busiest first. -/
def teachersSummary (store : Store) (scope : Scope) (since : String) :
    Except PyError (List TeacherSummary) := do
  let rows := (windowRecords store scope since).filter fun r => r.cells .teacherUid ≠ .null
  let registry := teachers store scope
  let out ← (groupOn (fun r => r.cells .teacherUid) rows).mapM fun (uid, rows) =>
    teacherSummary isoDate p registry uid rows
  pure (out.mergeSort fun a b => b.taughtMinutes ≤ a.taughtMinutes)

end ClassinDashboard

import ClassinDashboard.AppPages
import ClassinDashboard.EventReads
import ClassinDashboard.MissingCounts

/-!
The pages of the dashboard: the overview, one course, the students with the detail of one of them, and
the teachers with the evaluations of one of them. A page is what its template is given and what the
filters make of the dates of lessons in it; the cutoff of a window of days is an argument, as the clock
is.
-/

namespace ClassinDashboard

open Py Sql

variable (isoDate : IsoDate) (p : Platform)

/-! ### The detail of a student -/

structure Exam where
  name : PyValue
  score : PyValue
  maxScore : PyValue
  rate : PyValue

/-- `payload.get("Data") or {}` of a dict, and `{}` of anything else. -/
def examData : PyValue → PyValue
  | .dict items => (PyValue.get items "Data").orElse (.dict [])
  | _ => .dict []

def exam (payload : PyValue) : Except PyError Exam := do
  let data := examData payload
  let activityName ← data.getAttr "ActivityName"
  let unitName ← data.getAttr "UnitName"
  let score ← data.getAttr "Score"
  let maxScore ← data.getAttr "MaximumScore"
  let rate ← data.getAttr "StudentScoringRate"
  pure ⟨activityName.orElse (unitName.orElse (.str (.text "시험"))), score, maxScore, rate⟩

structure StudentDetail where
  uid : Int
  name : String
  metrics : StudentMetrics
  rows : List LessonRecord
  exams : List Exam
  attendanceTrend : List WeekAttendance
  scoreTrend : List WeekScore

def examEvents (uid : Int) : EventFilter :=
  { EventFilter.none with cmd := some (.text "AnswerSheetScore"), studentUid := some uid }

/-- The records of one student from a date on. -/
def studentRecords (store : Store) (scope : Scope) (uid : Int) (since : String) : List LessonRecord :=
  lessonRecords store scope { RecordFilter.none with studentUid := some uid, since := some since }

def studentDetail (store : Store) (uid : Int) (scope : Scope) (since : String) :
    Except PyError StudentDetail := do
  let key ← bindKey uid
  let rows := studentRecords store scope key since
  let names := students store scope
  let examRows ← events store (examEvents uid) scope 100
  let exams ← examRows.mapM fun entry => exam entry.2.payload
  let metrics ← studentMetrics rows
  let attendanceTrend ← weeklyAttendanceTrend isoDate rows
  let scoreTrend ← weeklyScoreTrend isoDate rows
  pure
    { uid
      name := displayName (names.lookup uid) uid
      metrics
      rows
      exams
      attendanceTrend
      scoreTrend }

/-! ### Evaluations of a teacher -/

structure Rating where
  studentUid : PyStr
  score : PyValue
  comment : PyValue

/-- `student_to_teacher_scores` -/
def RatingEvent.studentToTeacherScores (event : RatingEvent) : List Rating :=
  event.comments.filterMap fun (uid, entry) =>
    match entry with
    | .dict items =>
        match PyValue.get items "S2T" with
        | .dict s2t => some ⟨uid, PyValue.get s2t "Score", PyValue.get s2t "Comment"⟩
        | _ => none
    | _ => none

def ratingEvents (uid : Int) : EventFilter :=
  { EventFilter.none with cmd := some (.text "Rating"), teacherUid := some uid }

/-- The evaluations in an event, if it still is a valid one. -/
def ratingsIn (payload : PyValue) : List Rating :=
  match modelOf (ratingEvent p) payload with
  | some event => event.studentToTeacherScores
  | none => []

/-- `round(sum(scores) / len(scores), 2)` of the scores that are there, each read by `float`. -/
def ratingAverage (ratings : List Rating) : Except PyError (Option PyFloat) := do
  let scores ← ((ratings.map Rating.score).filter isSome).mapM p.floatOf
  if scores.isEmpty then pure none
  else pure (some (.roundTo 2 ((scores.foldl PyFloat.add (.fin 0)).scale (1 / scores.length))))

/-! ### Pages -/

variable (reader : DateReader) (store : Store) (session : Option Session) (cutoff : Int → DateTime)

/-- The text that a window of days starts with. -/
def windowStart (days : Int) : String := (cutoff days).isoformat "T" "+00:00"

/-- `max(7, min(days, 365))` -/
def clampDays (days : Int) : Int := max 7 (min days 365)

structure DashboardHome where
  data : Overview
  courses : List (Int × CourseRow)
  lessonsByCourse : List (Int × Nat)

/-- `GET /dashboard`. -/
def dashboardHome (days : Int) : Except PyError (PageResponse DashboardHome) :=
  match session with
  | none => .ok .login
  | some session => do
      let scope := scopeFor session store
      let data ← overview reader.isoDate store scope (windowStart cutoff (clampDays days))
      let courseIds := (lessons store scope none).filterMap fun l => nonzero l.2.courseId
      render store session (.ok ⟨data, courses store scope,
        (groupOn id courseIds).map fun group => (group.1, group.2.length)⟩)

structure LessonStats where
  present : Nat
  late : Nat
  absent : Nat

structure CourseDetail where
  /-- `none` is shown as the course id. -/
  course : Option (Int × CourseRow)
  lessons : List (String × LessonRow)
  lessonStats : List (String × LessonStats)
  recordCount : Nat
  /-- The starts of the lessons as they are shown. -/
  starts : List String

/-- The records of one course. -/
def courseRecords (scope : Scope) (courseId : Int) : List LessonRecord :=
  lessonRecords store scope { RecordFilter.none with courseId := some courseId }

/-- `GET /dashboard/course/{course_id}`. -/
def courseDetail (courseId : Int) : Except PyError (PageResponse CourseDetail) :=
  match session with
  | none => .ok .login
  | some session =>
      let scope := scopeFor session store
      if (store.courseIdsInScope scope).any fun allowed => courseId ∉ allowed then
        forbidden store session "권한 범위 밖의 코스입니다."
      else do
        let course := (courses store scope).find? fun c => c.1 = courseId
        let key ← bindKey courseId
        let lessons := lessons store scope (some key)
        let rows := courseRecords store scope key
        let stats := (groupOn LessonRecord.lessonId rows).map fun (lessonId, rows) =>
          (lessonId, (⟨countAttendance rows present, countAttendance rows late,
            countAttendance rows absent⟩ : LessonStats))
        render store session do
          let starts ← lessons.mapM fun l => tsKst reader l.2.startTime
          pure ⟨course, lessons, stats, rows.length, starts⟩

structure StudentsPage where
  students : List StudentSummary
  detail : Option StudentDetail
  /-- The dates of the detail's records as they are shown. -/
  dates : List String

/-- `GET /students`; the detail has a window of its own. -/
def studentsView (uid : Option Int) (days : Int) : Except PyError (PageResponse StudentsPage) :=
  match session with
  | none => .ok .login
  | some session => do
      let scope := scopeFor session store
      let list ← studentsSummary store scope (windowStart cutoff (clampDays days))
      match uid with
      | none => render store session (.ok ⟨list, none, []⟩)
      | some uid =>
          if (studentUidsInScope store scope).any fun allowed => uid ∉ allowed then
            forbidden store session "권한 범위 밖의 학생입니다."
          else do
            let detail ← studentDetail reader.isoDate store uid scope (windowStart cutoff 180)
            render store session do
              let dates ← detail.rows.mapM fun row => cellDateKst reader (row.cells .lessonDate)
              pure ⟨list, some detail, dates⟩

structure TeachersPage where
  teachers : List TeacherSummary
  detail : Option TeacherSummary
  ratings : List Rating
  ratingAvg : Option PyFloat
  /-- The dates of the detail's lessons as they are shown. -/
  dates : List String

/-- The evaluations of a teacher that a scope shows, those of the newest events first. -/
def teacherRatings (scope : Scope) (uid : Int) : Except PyError (List Rating) :=
  (events store (ratingEvents uid) scope 100).map fun rows =>
    rows.flatMap fun entry => ratingsIn p entry.2.payload

/-- `GET /teachers`: a teacher sees the own page only. -/
def teachersView (uid : Option Int) (days : Int) : Except PyError (PageResponse TeachersPage) :=
  match session with
  | none => .ok .login
  | some session =>
      if session.role = .teacher ∧ uid ≠ session.teacherUid then .ok (.ownPage session.teacherUid)
      else do
        let scope := scopeFor session store
        let teachers ← teachersSummary reader.isoDate p store scope (windowStart cutoff (clampDays days))
        match nonzero uid with
        | none => render store session (.ok ⟨teachers, none, [], none, []⟩)
        | some uid => do
            let detail := teachers.find? fun t => t.uid = .int uid
            let ratings ← teacherRatings p store scope uid
            let ratingAvg ← ratingAverage p ratings
            render store session do
              let dates ← (detail.elim [] TeacherSummary.lessons).mapM fun l => cellDateKst reader l.date
              pure ⟨teachers, detail, ratings, ratingAvg, dates⟩

end ClassinDashboard

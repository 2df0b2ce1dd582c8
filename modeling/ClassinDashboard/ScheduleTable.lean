import ClassinDashboard.PyCsv
import ClassinDashboard.ScheduleText

/-!
The reader of pasted tables: a header row of known column names, then a lesson a row. Rows of one
course name are one course, whichever rows lie between them.
-/

namespace ClassinDashboard

open Py Py.Regex

/-! ### Columns -/

inductive TableColumn
  | courseName | teacher | date | start | «end» | lessonTitle | homeworkTitle | homeworkDue
  deriving DecidableEq, Repr

/-- The names that a header may use for a column. -/
def columnNames : List (TableColumn × List String) :=
  [(.courseName, ["course_name", "course", "class", "코스", "코스명", "반", "반이름", "강좌", "강좌명"]),
    (.teacher, ["teacher", "teacher_name", "선생님", "선생", "강사", "강사명", "담당", "담당선생님"]),
    (.date, ["date", "날짜", "일자", "수업일", "일정"]),
    (.start, ["start", "start_at", "start_time", "시작", "시작시간", "시작시각"]),
    (.end, ["end", "end_at", "end_time", "종료", "종료시간", "종료시각", "끝"]),
    (.lessonTitle, ["lesson_title", "lesson", "title", "수업", "수업명", "수업제목", "차시"]),
    (.homeworkTitle, ["homework_title", "homework", "숙제", "숙제명", "과제", "과제명"]),
    (.homeworkDue, ["homework_due", "due", "due_at", "마감", "마감일", "숙제마감", "제출기한"])]

section Table

variable (p : Platform)

def canon (text : Text) : Text :=
  lower p (subst (one fun c => isSpace c || "_-()".toList.contains c) [] text)

def columnAliases : List (Text × TableColumn) :=
  columnNames.flatMap fun entry => entry.2.map fun name => (canon p name.toList, entry.1)

/-- The column of a header cell; of two aliases the later one counts. -/
def columnOf (headerCell : Text) : Option TableColumn :=
  (columnAliases p).reverse.lookup (canon p headerCell)

/-- The lines that are not blank. -/
def filledLines (rawText : Text) : List Text :=
  (splitLines rawText).filter fun line => !(strip line).isEmpty

/-- Whether the first line looks like a delimited header. -/
def isCsv (rawText : Text) : Bool :=
  match filledLines rawText with
  | header :: _ :: _ =>
      let delimiter :=
        if header.contains '\t' then some '\t' else if header.contains ',' then some ',' else none
      match delimiter with
      | none => false
      | some delimiter =>
          let columns := ((header.splitOn delimiter).filterMap (columnOf p)).dedup
          2 ≤ columns.length && (columns.contains .date || columns.contains .courseName)
  | _ => false

/-- The cells of a row, by column. -/
abbrev RowCells := List (TableColumn × Text)

/-- `cells.get(column, "")`; of two cells of a column the later one counts. -/
def cellOf (cells : RowCells) (column : TableColumn) : Text :=
  (cells.reverse.lookup column).getD []

def rowCells (header : List (Option TableColumn)) (rawRow : List Text) : RowCells :=
  (header.zip rawRow).filterMap fun entry => entry.1.map fun column => (column, strip entry.2)

/-! ### Rows -/

/-- The slot that a row states: its start, and its end when there is one. A single cell may carry the
whole slot. -/
def rowSlot (cells : RowCells) : Option (TimeReading × Option TimeReading) :=
  match (readTimeRange p (cellOf cells .date) false).or
      (readTimeRange p (cellOf cells .start) false) with
  | some (first, last) => some (first, some last)
  | none =>
      (readClock p (cellOf cells .start) false).map fun first =>
        (first, readClock p (cellOf cells .end) false)

/-- The moments of a slot on a day; without an end it lasts two hours. -/
def slotTimes (day : Date) (slot : TimeReading × Option TimeReading) :
    Except PyError (Moment × Moment × List Text) := do
  let first ← academyTime slot.1
  match slot.2 with
  | some reading =>
      let last ← academyTime reading
      pure (⟨day, first⟩, ⟨day, last⟩, [])
  | none =>
      let endAt ← (⟨day, first⟩ : Moment).addHours 2
      pure (⟨day, first⟩, endAt, ["종료 시각이 없어 시작 +2시간으로 가정".toList])

def rowTimes (cells : RowCells) (day : Date) :
    Except PyError (Option (Moment × Moment × List Text)) :=
  match rowSlot p cells with
  | none => .ok none
  | some slot => (slotTimes day slot).map some

/-- The last minute of a day. -/
def endOfDay : Clock := ⟨23, 59, by decide, by decide⟩

def rowHomework (cells : RowCells) (year : Nat) : Except PyError (Option ParsedHomework) :=
  let title := cellOf cells .homeworkTitle
  if title.isEmpty then .ok none
  else
    let rawDue := cellOf cells .homeworkDue
    match parseDate rawDue year with
    | none => .ok (some ⟨title, none⟩)
    | some dueDay =>
        (parseClock p rawDue false).map fun dueTime =>
          some ⟨title, some ⟨dueDay, dueTime.getD endOfDay⟩⟩

/-- Append the notes that are not there yet. -/
def addNotes (assumptions notes : List Text) : List Text :=
  notes.foldl (fun assumptions note =>
    if note ∈ assumptions then assumptions else assumptions ++ [note]) assumptions

/-- The course of a name with a teacher, if it has none yet, and one more lesson. -/
def addLesson (course : ParsedCourse) (cells : RowCells) (startAt endAt : Moment)
    (homework : Option ParsedHomework) : ParsedCourse :=
  let teacher := cellOf cells .teacher
  let number := course.lessons.length + 1
  let title := cellOf cells .lessonTitle
  let lesson : ParsedLesson :=
    { title := if title.isEmpty then course.courseName ++ " ".toList ++ decimal number ++ "회차".toList
        else title
      startAt, endAt, homework
      confidence := 1 }
  { course with
    teacherName := if (course.teacherName.getD []).isEmpty && !teacher.isEmpty then some teacher
      else course.teacherName
    lessons := course.lessons ++ [lesson] }

/-- Change the course of a name, which is appended when there is none. -/
def modifyCourse (name : Text) (f : ParsedCourse → ParsedCourse) :
    List ParsedCourse → List ParsedCourse
  | [] => [f ⟨name, none, [], 1⟩]
  | course :: courses =>
      if course.courseName = name then f course :: courses
      else course :: modifyCourse name f courses

/-- The courses so far, and the assumptions. -/
abbrev TableState := List ParsedCourse × List Text

/-- One row below the header. A row without a date or a start is skipped. -/
def parseRow (header : List (Option TableColumn)) (year : Nat) (state : TableState)
    (rawRow : List Text) : Except PyError TableState :=
  let cells := rowCells header rawRow
  match parseDate (cellOf cells .date) year with
  | none => .ok state
  | some lessonDay => do
      match ← rowTimes p cells lessonDay with
      | none => pure state
      | some (startAt, endAt, notes) =>
          let homework ← rowHomework p cells year
          let name := cellOf cells .courseName
          let name := if name.isEmpty then "미지정 코스".toList else name
          pure (modifyCourse name (fun course => addLesson course cells startAt endAt homework) state.1,
            addNotes state.2 notes)

/-- The header of a table and the rows below it. -/
def tableRows (rawText : Text) : Except PyError (List (Option TableColumn) × List (List Text)) := do
  let lines := filledLines rawText
  let delimiter := if (lines.headD []).contains '\t' then '\t' else ','
  let rows ← Csv.read delimiter (['\n'].intercalate lines)
  pure ((rows.headD []).map (columnOf p), rows.drop 1)

/-- Deterministic CSV/TSV reader: courses and assumptions. -/
def parseTable (rawText : Text) (day : Date) : Except PyError TableState := do
  let (header, rows) ← tableRows p rawText
  rows.foldlM (parseRow p header day.year) ([], [])

end Table

end ClassinDashboard

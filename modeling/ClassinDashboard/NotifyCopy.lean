import ClassinDashboard.Metrics
import ClassinDashboard.RoutesCreate

/-!
The copy of a notification about missing homework, for each student: written by the model, or by a
template. The model is a parameter that answers a list of students with any JSON value or raises.
-/

namespace ClassinDashboard

open Py Sql

/-- The rows of each student. -/
abbrev RowsByStudent := List (Int × List MissingRow)

/-- The texts by student. -/
abbrev Messages := Int → Option PyStr

/-- The text of a cell that is not empty. -/
def filledText (cell : SqlValue) : Option String := cell.toText?.filter (· ≠ "")

/-- `(row.get("lesson_date") or "")[:10]` -/
def lessonDay (row : MissingRow) : String :=
  String.ofList (((filledText (row.record.cells .lessonDate)).getD "").toList.take 10)

/-! ### Templates -/

inductive TemplatePart
  | text (s : String)
  | studentName | className | date | missingCount | academyName

def softTemplate : List TemplatePart :=
  [.text "안녕하세요 학부모님 😊\n[", .studentName, .text "] 학생이 ", .className,
    .text " 숙제를 아직 제출하지 않았어요.\n마감 전 한 번만 확인 부탁드려요.\n\n- ", .academyName]

/-- The templates by tone. -/
def toneTemplates : List (String × List TemplatePart) :=
  [("soft", softTemplate),
    ("firm", [.text "[", .studentName, .text "] 학생 학부모님께 안내드립니다.\n", .className, .text " (",
      .date, .text ") 숙제 미제출이 확인되었습니다. 최근 ", .missingCount,
      .text "회 누적되었으니 오늘 안에 제출 확인 부탁드립니다.\n\n- ", .academyName]),
    ("brief", [.text "[", .studentName, .text "] ", .className, .text " 숙제 미제출. ", .date,
      .text " 안에 제출 확인 부탁드립니다.\n- ", .academyName])]

def TemplatePart.format (first : MissingRow) (count : Nat) (academyName : String) :
    TemplatePart → String
  | .text s => s
  | .studentName => first.studentName
  | .className => ((filledText (first.record.cells .className)).or
      (filledText (first.record.cells .courseName))).getD "수업"
  | .date => lessonDay first
  | .missingCount => toString count
  | .academyName => academyName

def formatTemplate (template : List TemplatePart) (first : MissingRow) (count : Nat)
    (academyName : String) : String :=
  String.join (template.map (TemplatePart.format first count academyName))

def composeTemplateMessages (byStudent : RowsByStudent) (academyName tone : String) : Messages :=
  let template := (toneTemplates.lookup tone).getD softTemplate
  byStudent.foldl (fun out (uid, rows) =>
    match rows with
    | [] => out
    | first :: _ =>
        Function.update out uid
          (some (.text (formatTemplate template first rows.length academyName)))) fun _ => none

/-! ### The model -/

structure MissingLesson where
  date : String
  lessonId : String

/-- What the model is told about a student. -/
structure StudentPayload where
  studentUid : Int
  studentName : String
  className : Option String
  missingLessons : List MissingLesson

def studentPayload (uid : Int) (rows : List MissingRow) : Option StudentPayload :=
  rows.head?.map fun first =>
    ⟨uid, first.studentName, (first.record.cells .className).toText?,
      rows.map fun row => ⟨lessonDay row, row.record.lessonId⟩⟩

/-- What the model makes of an academy and its students; an exception is known by its text. -/
abbrev Model := String → List StudentPayload → Except PyStr PyValue

/-- `type(value).__name__` -/
def typeName : PyValue → String
  | .none => "NoneType"
  | .bool _ => "bool"
  | .int _ => "int"
  | .float _ => "float"
  | .str _ => "str"
  | .list _ => "list"
  | .dict _ => "dict"

variable (p : Platform)

/-- One entry of the reply. The text is read before the uid; an entry without a uid is skipped, but an
infinite one is an error that is not caught. -/
def replyEntry (entry : PyValue) : Except PyStr (Option (Int × PyStr)) :=
  match entry with
  | .dict items =>
      let text := p.strOf ((items.lookup (.text "message")).getD (.string ""))
      match (item entry "student_uid").bind intOf with
      | .ok uid => .ok (some (uid, text))
      | .error .overflowError => .error (.text "cannot convert float infinity to integer")
      | .error _ => .ok none
  | value => .error (.text ("'" ++ typeName value ++ "' object has no attribute 'get'"))

def replyMessages (reply : PyValue) : Except PyStr Messages :=
  match reply with
  | .list entries =>
      entries.foldlM (fun out entry => (replyEntry p entry).map fun
        | none => out
        | some (uid, text) => Function.update out uid (some text)) fun _ => none
  | _ => .error (.text "model must return a JSON array")

def composeAiMessages (model : Model) (byStudent : RowsByStudent) (academyName : String) :
    Except PyStr Messages := do
  let payload := byStudent.filterMap fun (uid, rows) => studentPayload uid rows
  replyMessages p (← model academyName payload)

end ClassinDashboard

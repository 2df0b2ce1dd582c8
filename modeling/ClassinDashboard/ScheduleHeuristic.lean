import ClassinDashboard.ScheduleTable
import Mathlib.Data.List.Sort

/-!
The rule-based reader of free Korean text: one course a line, and lines of homework for the course
before them.
-/

namespace ClassinDashboard

open Py Py.Regex

/-! ### Patterns -/

def hangul : Regex := one fun c => '가' ≤ c && c ≤ '힣'

def notHangulAhead : Regex := notAhead hangul

def weekdayChars : Text := "월화수목금토일".toList

def isWeekday (c : Char) : Bool := weekdayChars.contains c

/-- `김선생님`, `이쌤`, `민수T` -/
def teacherToken : Regex :=
  all [group 1 (alt
      (all [times hangul 1 4, any [lit "선생님", lit "선생", lit "쌤", lit "샘"]])
      (all [times hangul 2 4, lit "T"])),
    notHangulAhead]

/-- A list of weekdays that is no part of a word. -/
def weekdayGroup : Regex :=
  let weekday := all [one isWeekday, opt (lit "요일")]
  all [notBehind fun c => '가' ≤ c && c ≤ '힣',
    group 1 (all [weekday, star (all [blanks, opt (oneOf "/,·、"), blanks, weekday])]),
    notHangulAhead]

/-- `5월 첫째 주` -/
def nthWeek : Regex :=
  all [opt (all [group 1 (digits 1 2), blanks, lit "월", blanks]),
    group 2 (any [lit "첫", lit "둘", lit "셋", lit "넷", lit "다섯"]), blanks, opt (lit "째"), blanks,
    lit "주"]

def weekCount : Regex :=
  all [group 1 (digits 1 2), blanks, lit "주",
    opt (any [lit "간", all [blanks, lit "동안"], all [blanks, lit "간"]])]

def sessionCount : Regex := all [group 1 (digits 1 3), blanks, lit "회", notAhead (lit "차")]

/-- `이틀 뒤까지` -/
def duePhrase : Regex :=
  all [opt (all [lit "수업", blanks]),
    group 1 (any [digits 1 2, lit "하루", lit "이틀", lit "사흘", lit "나흘", lit "당일"]),
    blanks, opt (lit "일"), blanks, any [lit "뒤", lit "후", lit "후에"], blanks,
    opt (any [lit "까지", lit "마감", lit "제출"])]

def koCountWords : List (Text × Nat) :=
  [("하루".toList, 1), ("이틀".toList, 2), ("사흘".toList, 3), ("나흘".toList, 4), ("당일".toList, 0)]

/-! ### Weekdays and dates of a line -/

/-- First weekday token that is really a weekday list. -/
def weekdayMatch (text : Text) : Option Match :=
  (findAll weekdayGroup text).find? fun hit =>
    let token := (hit.group 1).getD []
    let letters := token.filter isWeekday
    let separated := (search (oneOf "/,·、") token).isSome || contains "요일".toList token
    !letters.isEmpty && (2 ≤ letters.length || separated)

/-- Weekday numbers, Monday being 0, from `화/목`, `월수금`, `화요일`. -/
def weekdaysIn (text : Text) : List Nat :=
  match weekdayMatch text with
  | none => []
  | some hit =>
      ((((hit.group 1).getD []).filter isWeekday).map weekdayChars.idxOf).dedup.insertionSort (· ≤ ·)

/-- `5/4` -/
def monthDay (day : Date) : Text := decimal day.month ++ "/".toList ++ decimal day.day

/-- The Monday that the weeks of a line are counted from, and what was assumed for it. -/
def anchorMonday (text : Text) (today : Date) : Except PyError (Date × List Text) :=
  match search nthWeek text with
  | some hit => do
      let word := (hit.group 2).getD []
      let nth := "첫둘셋넷다섯".toList.idxOf (word.headD ' ') + 1
      let month := if (hit.group 1).isSome then hit.number 1 else today.month
      let monday ← nthWeekMonday today.year month nth
      pure (monday, ["'".toList ++ decimal month ++ "월 ".toList ++ word ++ "째 주'를 ".toList
        ++ monthDay monday ++ " 주로 가정".toList])
  | none =>
      match parseDate text today.year with
      | some explicit => (mondayOf explicit).map fun monday => (monday, [])
      | none => do
          let monday ← mondayOf today
          if contains "다음".toList text && contains "주".toList text then
            pure (← monday.addDays 7, [])
          else if contains "이번".toList text && contains "주".toList text then pure (monday, [])
          else
            let monday ← monday.addDays 7
            pure (monday, ["시작 시점이 없어 다음 주(".toList ++ monthDay monday ++ ")부터로 가정".toList])

/-- The number of weeks of a line, and what was assumed for it. -/
def weeksOf (line : Text) (weekdays : List Nat) : Nat × List Text :=
  match search weekCount line with
  | some hit => (hit.number 1, [])
  | none =>
      match search sessionCount line with
      | some hit => ((hit.number 1 + weekdays.length - 1) / weekdays.length, [])
      | none => (4, ["기간이 없어 4주로 가정".toList])

/-- The dates of a line's lessons: its weekdays, week by week, or its one date. -/
def lessonDates (line : Text) (weekdays : List Nat) (today : Date) :
    Except PyError (List Date × List Text) :=
  if weekdays.isEmpty then .ok ((parseDate line today.year).toList, [])
  else do
    let (monday, anchorNotes) ← anchorMonday line today
    let (weeks, weekNotes) := weeksOf line weekdays
    let dates ← ((List.range weeks).flatMap fun week => weekdays.map fun weekday =>
      7 * week + weekday).mapM fun days => monday.addDays (days : Nat)
    let dates :=
      match search weekCount line, search sessionCount line with
      | none, some hit => dates.take (hit.number 1)
      | _, _ => dates
    pure (dates, anchorNotes ++ weekNotes)

/-! ### Names of a line -/

/-- Everything before the first teacher, weekday, time or date token. -/
def splitCourseName (line : Text) : Text :=
  let hits := [search teacherToken line, weekdayMatch line, search nthWeek line,
    search (all [digits 1 2, blanks, oneOf ":시"]) line,
    search (all [digits 4 4, blanks, oneOf "-/.", blanks, digits 1 2]) line]
  let cut := hits.foldl (fun cut hit => hit.elim cut fun hit => min cut hit.start) line.length
  stripChars (" \t,;·-–—".toList.contains ·) (line.take cut)

def findTeacher (line : Text) (known : List Text) : Option Text :=
  match known.find? fun name => !name.isEmpty && contains name line with
  | some name => some name
  | none => (search teacherToken line).bind fun hit => hit.group 1

/-! ### Homework -/

def homeworkFrom (line : Text) (lessonEnd : Moment) : Except PyError ParsedHomework :=
  let body := subst (all [start, blanks, group 1 (any [lit "숙제", lit "과제"]), blanks,
    opt (oneOf ":：-"), blanks]) [] (strip line)
  let hit := search duePhrase body
  let body := hit.elim body fun hit =>
    stripChars (" ()[],·-".toList.contains ·) (hit.before.reverse ++ [' '] ++ hit.after)
  let title := strip (subst (all [one isSpace, blanks]) [' '] body)
  let title := if title.isEmpty then "숙제".toList else title
  match hit with
  | none => .ok ⟨title, none⟩
  | some hit => do
      let offset := (koCountWords.lookup ((hit.group 1).getD [])).getD (hit.number 1)
      let dueDay ← lessonEnd.day.addDays offset
      pure ⟨title, some ⟨dueDay, endOfDay⟩⟩

/-- The same line of homework for every lesson of a course. -/
def setHomework (course : ParsedCourse) (line : Text) : Except PyError ParsedCourse := do
  let lessons ← course.lessons.mapM fun lesson => do
    let homework ← homeworkFrom line lesson.endAt
    pure { lesson with homework := some homework }
  pure { course with lessons }

/-- The homework lines of one course. -/
def assignHomework (courses : List ParsedCourse) (entry : Nat × List Text) :
    Except PyError (List ParsedCourse) :=
  match courses[entry.1]? with
  | none => .ok courses
  | some course => do
      let course ← entry.2.foldlM setHomework course
      pure (courses.set entry.1 course)

/-! ### Lines -/

structure HeuristicState where
  courses : List ParsedCourse
  assumptions : List Text
  /-- The homework lines, by the number of the course before them. -/
  homeworkLines : List (Nat × List Text)

/-- `homework_lines.setdefault(index, []).append(line)` -/
def addHomeworkLine (index : Nat) (line : Text) : List (Nat × List Text) → List (Nat × List Text)
  | [] => [(index, [line])]
  | entry :: entries =>
      if entry.1 = index then (index, entry.2 ++ [line]) :: entries
      else entry :: addHomeworkLine index line entries

def isHomeworkLine (line : Text) : Bool :=
  (matchPrefix (all [start, group 1 (any [lit "숙제", lit "과제"]), notHangulAhead]) line).isSome

section Heuristic

variable (p : Platform)

/-- A line without weekdays, a time range or a date is no schedule. -/
def isScheduleLine (line : Text) (day : Date) : Bool :=
  !(weekdaysIn line).isEmpty || (readTimeRange p line true).isSome || (parseDate line day.year).isSome

/-- The lesson times of a line without a range. -/
def defaultSpan : Clock × Clock := (.onHour 19 (by decide), .onHour 21 (by decide))

/-- What is assumed about the times of a line. -/
def spanNotes (name line : Text) : Option (Clock × Clock) → List Text
  | none => ["「".toList ++ name ++ "」 시간이 없어 19:00-21:00으로 가정".toList]
  | some span =>
      match search (all [digits 1 2, blanks, dash, blanks, digits 1 2, blanks, lit "시"]) line with
      | some shorthand =>
          if 12 ≤ span.1.hour then
            ["「".toList ++ name ++ "」 '".toList ++ shorthand.text ++ "'를 오후 수업으로 해석".toList]
          else []
      | none => []

/-- The lessons of a course, on its dates and all at the same times. -/
def lessonsOn (name : Text) (span : Clock × Clock) (dates : List Date) : List ParsedLesson :=
  dates.zipIdx.map fun entry =>
    { title := name ++ " ".toList ++ decimal (entry.2 + 1) ++ "회차".toList
      startAt := ⟨entry.1, span.1⟩
      endAt := ⟨entry.1, span.2⟩
      homework := none
      confidence := 6 / 10 }

/-- A line of a course. -/
def readCourse (known : List Text) (day : Date) (state : HeuristicState) (line : Text) :
    Except PyError HeuristicState := do
  let span ← parseTimeRange p line true
  let name := splitCourseName line
  let name := if name.isEmpty then "코스 ".toList ++ decimal (state.courses.length + 1) else name
  let (dates, dateNotes) ← lessonDates line (weekdaysIn line) day
  if dates.isEmpty then pure state
  else
    let course : ParsedCourse :=
      { courseName := name
        teacherName := findTeacher line known
        lessons := lessonsOn name (span.getD defaultSpan) dates
        confidence := 6 / 10 }
    pure { state with
      courses := state.courses ++ [course]
      assumptions := state.assumptions ++ spanNotes name line span ++ dateNotes }

def readLine (known : List Text) (day : Date) (state : HeuristicState) (rawLine : Text) :
    Except PyError HeuristicState :=
  let line := strip rawLine
  if line.isEmpty then .ok state
  else if isHomeworkLine line then
    if state.courses.isEmpty then .ok state
    else .ok { state with
      homeworkLines := addHomeworkLine (state.courses.length - 1) line state.homeworkLines }
  else if isScheduleLine p line day then readCourse p known day state line
  else .ok state

/-- Rule-based reader for free Korean text: courses and assumptions. -/
def heuristicParse (rawText : Text) (known : List Text) (day : Date) :
    Except PyError (List ParsedCourse × List Text) := do
  let known := known.filter fun name => !name.isEmpty
  let state ← (splitLines rawText).foldlM (readLine p known day) ⟨[], [], []⟩
  let courses ← state.homeworkLines.foldlM assignHomework state.courses
  pure (courses, if courses.isEmpty then state.assumptions
    else state.assumptions ++ ["AI 없이 규칙 기반으로 해석했습니다 — 날짜/시간을 꼭 확인하세요.".toList])

end Heuristic

end ClassinDashboard

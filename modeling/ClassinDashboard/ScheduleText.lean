import ClassinDashboard.PyCalendar
import ClassinDashboard.PyPlatform
import ClassinDashboard.PyRegex

/-!
What the schedule parser reads off a piece of text: dates, clock readings and time ranges. A clock
reading is kept as it was read, with the flag that says whether its hour may mean the evening, apart
from the time that it stands for.
-/

namespace ClassinDashboard

open Py Py.Regex

abbrev Text := List Char

/-! ### What a schedule is parsed into -/

structure ParsedHomework where
  title : Text
  dueAt : Option Moment
  deriving DecidableEq

structure ParsedLesson where
  title : Text
  startAt : Moment
  endAt : Moment
  homework : Option ParsedHomework
  confidence : Rat
  deriving DecidableEq

structure ParsedCourse where
  courseName : Text
  teacherName : Option Text
  lessons : List ParsedLesson
  confidence : Rat
  deriving DecidableEq

/-! ### Clock readings -/

/-- An hour and a minute as read, and whether 1 to 9 o'clock means the evening. -/
structure TimeReading where
  hour : Nat
  minute : Nat
  shift : Bool
  deriving DecidableEq

namespace TimeReading

/-- The hour of the day: 1 to 9 without a marker is the evening of an academy timetable. -/
def academyHour (reading : TimeReading) : Nat :=
  (if reading.shift && 1 ≤ reading.hour && reading.hour ≤ 9 then reading.hour + 12
    else reading.hour) % 24

/-- Minutes since midnight. -/
def minutes (reading : TimeReading) : Nat := 60 * reading.academyHour + reading.minute

end TimeReading

/-- The time that a reading stands for. -/
def academyTime (reading : TimeReading) : Except PyError Clock :=
  match Clock.of? reading.academyHour reading.minute with
  | some time => .ok time
  | none => .error .valueError

theorem minutes_academyTime {reading : TimeReading} {time : Clock}
    (h : academyTime reading = .ok time) : time.minutes = reading.minutes := by
  unfold academyTime Clock.of? at h
  split at h
  · rename_i clock hclock
    cases h
    split at hclock
    · cases hclock
      rfl
    · cases hclock
  · cases h

section Readings

variable (p : Platform)

/-- `text.lower()` -/
def lower (text : Text) : Text := (p.lower (String.ofList text)).toList

def hasAmMarker (text : Text) : Bool :=
  contains "오전".toList text || contains "am".toList (lower p text)

def hasPmMarker (text : Text) : Bool :=
  contains "오후".toList text || contains "pm".toList (lower p text)

def dash : Regex := oneOf "-~–—"

/-- `19:00-21:00`, `19시00분~21시00분` -/
def clockRange : Regex :=
  all [group 1 (digits 1 2), blanks, oneOf ":시", blanks, group 2 (digits 2 2), blanks, opt (lit "분"),
    blanks, dash, blanks, group 3 (digits 1 2), blanks, oneOf ":시", blanks, group 4 (digits 2 2),
    blanks, opt (lit "분")]

/-- `7-9시`, `19~21시` -/
def hourRange : Regex :=
  all [group 1 (digits 1 2), blanks, dash, blanks, group 2 (digits 1 2), blanks, lit "시"]

/-- `7시-9시` -/
def hourToHour : Regex :=
  all [group 1 (digits 1 2), blanks, lit "시", blanks, dash, blanks, group 2 (digits 1 2), blanks,
    lit "시"]

/-- The first range of two hours; both are shifted, whatever the caller asks for. -/
def readHourRange (text : Text) : Option (TimeReading × TimeReading) :=
  ((search hourRange text).or (search hourToHour text)).map fun hit =>
    let shift := !hasAmMarker p text
    (⟨hit.number 1, 0, shift⟩, ⟨hit.number 2, 0, shift⟩)

/-- First range of two clock readings in a text. -/
def readTimeRange (text : Text) (academyShift : Bool) : Option (TimeReading × TimeReading) :=
  match search clockRange text with
  | some hit =>
      let shift := academyShift && !hasAmMarker p text
      some (⟨hit.number 1, hit.number 2, shift⟩, ⟨hit.number 3, hit.number 4, shift⟩)
  | none => readHourRange p text

/-- A single clock reading: `19:00`, `7시`, `오후 7시`. -/
def readClock (text : Text) (academyShift : Bool) : Option TimeReading :=
  let text := strip text
  let pm := hasPmMarker p text
  match search (all [group 1 (digits 1 2), blanks, oneOf ":시", blanks, group 2 (digits 1 2)]) text with
  | some hit => some ⟨hit.number 1, hit.number 2, pm || (academyShift && !hasAmMarker p text)⟩
  | none =>
      match search (all [group 1 (digits 1 2), blanks, lit "시"]) text with
      | some hit => some ⟨hit.number 1, 0, pm || !hasAmMarker p text⟩
      | none =>
          if fullMatch (digits 1 2) text then
            some ⟨ofDigits (text.filterMap digitValue), 0, pm || academyShift⟩
          else none

/-- First range of two times in a text. -/
def parseTimeRange (text : Text) (academyShift : Bool) : Except PyError (Option (Clock × Clock)) :=
  match readTimeRange p text academyShift with
  | none => .ok none
  | some (first, last) => do
      let first ← academyTime first
      let last ← academyTime last
      pure (some (first, last))

def parseClock (text : Text) (academyShift : Bool) : Except PyError (Option Clock) :=
  match readClock p text academyShift with
  | none => .ok none
  | some reading => (academyTime reading).map some

end Readings

/-! ### Dates -/

/-- Blank out clock readings before scanning for dates. -/
def stripTimes (text : Text) : Text :=
  let hourMinute := [digits 1 2, blanks, oneOf ":시", blanks, digits 2 2, blanks, opt (lit "분")]
  [all (hourMinute ++ [blanks, dash, blanks] ++ hourMinute),
    all [digits 1 2, blanks, dash, blanks, digits 1 2, blanks, lit "시"],
    all hourMinute].foldl (fun text pattern => subst pattern [' '] text) text

def dateSeparator : List Regex := [blanks, oneOf "-/.", blanks]

/-- A digit or a colon. -/
def isClockChar (c : Char) : Bool := isDecimal c || c = ':'

def parseDate (text : Text) (year : Nat) : Option Date :=
  let text := strip text
  match search (all ([group 1 (digits 4 4)] ++ dateSeparator ++ [group 2 (digits 1 2)]
      ++ dateSeparator ++ [group 3 (digits 1 2)])) text with
  | some hit => Date.ofYmd? (hit.number 1) (hit.number 2) (hit.number 3)
  | none =>
      match search (all [group 1 (digits 1 2), blanks, lit "월", blanks, group 2 (digits 1 2), blanks,
          lit "일"]) text with
      | some hit => Date.ofYmd? year (hit.number 1) (hit.number 2)
      | none =>
          match search (all ([notBehind isClockChar, group 1 (digits 1 2)] ++ dateSeparator
              ++ [group 2 (digits 1 2), notAhead (one isClockChar)])) (stripTimes text) with
          | some hit => Date.ofYmd? year (hit.number 1) (hit.number 2)
          | none => none

def mondayOf (day : Date) : Except PyError Date := day.addDays (-(day.weekday : Int))

/-- Monday of the `nth` Monday-containing week of the month. -/
def nthWeekMonday (year month nth : Nat) : Except PyError Date :=
  match Date.ofYmd? year month 1 with
  | none => .error .valueError
  | some first => do
      let firstMonday ← first.addDays ((7 - first.weekday) % 7 : Nat)
      firstMonday.addDays (7 * ((nth : Int) - 1))

example : (parseTimeRange .plain "화/목 7-9시".toList true).toOption =
    some (some (⟨19, 0, by decide, by decide⟩, ⟨21, 0, by decide, by decide⟩)) := by decide

example : parseDate "2026-05-06 19:00".toList 2020 = Date.ofYmd? 2026 5 6 := by decide

end ClassinDashboard

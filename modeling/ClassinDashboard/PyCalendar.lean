import ClassinDashboard.PyValue

/-!
Calendar dates of the proleptic Gregorian calendar, as `datetime.date` has them: a date is its
ordinal, day 1 being 1 January of year 1.
-/

namespace Py

def isLeap (year : Nat) : Bool := year % 4 = 0 && (year % 100 ≠ 0 || year % 400 = 0)

/-- Days of the years before `year`. -/
def daysBeforeYear (year : Nat) : Nat :=
  let y := year - 1
  y * 365 + y / 4 - y / 100 + y / 400

def daysInMonth (year month : Nat) : Nat :=
  match month with
  | 2 => if isLeap year then 29 else 28
  | 4 | 6 | 9 | 11 => 30
  | _ => 31

/-- Days of the months before `month`. -/
def daysBeforeMonth (year month : Nat) : Nat :=
  ((List.range (month - 1)).map fun m => daysInMonth year (m + 1)).sum

/-- The ordinal of 31 December 9999. -/
def maxOrdinal : Nat := 3652059

structure Date where
  ordinal : Nat
  pos : 0 < ordinal
  le_max : ordinal ≤ maxOrdinal

namespace Date

theorem ext_ordinal {a b : Date} (h : a.ordinal = b.ordinal) : a = b := by
  cases a
  cases b
  simp only at h
  subst h
  rfl

instance : DecidableEq Date := fun a b =>
  if h : a.ordinal = b.ordinal then isTrue (ext_ordinal h) else isFalse fun he => h (he ▸ rfl)

/-- A day number that may fall outside the calendar. -/
def ofOrdinal? (n : Int) : Option Date :=
  if h : 0 < n ∧ n ≤ maxOrdinal then
    some ⟨n.toNat, by omega, by omega⟩
  else none

/-- `date(year, month, day)`; `none` is its `ValueError`. -/
def ofYmd? (year month day : Nat) : Option Date :=
  if 1 ≤ year ∧ year ≤ 9999 ∧ 1 ≤ month ∧ month ≤ 12 ∧ 1 ≤ day ∧ day ≤ daysInMonth year month then
    ofOrdinal? (daysBeforeYear year + daysBeforeMonth year month + day : Nat)
  else none

/-- Monday is 0. -/
def weekday (d : Date) : Nat := (d.ordinal + 6) % 7

/-- `d + timedelta(days=n)`, which raises outside the calendar. -/
def addDays (d : Date) (n : Int) : Except PyError Date :=
  match ofOrdinal? (d.ordinal + n) with
  | some d => .ok d
  | none => .error .overflowError

/-- The year and the day within it, counted from 0: cycles of 400, 100, 4 and 1 years. -/
def yearAndDay (d : Date) : Nat × Nat :=
  let n := d.ordinal - 1
  let n400 := n / 146097
  let n := n % 146097
  let n100 := n / 36524
  let n := n % 36524
  let n4 := n / 1461
  let n := n % 1461
  let n1 := n / 365
  let year := n400 * 400 + 1 + n100 * 100 + n4 * 4 + n1
  if n1 = 4 || n100 = 4 then (year - 1, 365) else (year, n % 365)

/-- The month that a day of the year falls into, and the day of that month. -/
def monthAndDay (year : Nat) : List Nat → Nat → Nat × Nat
  | [], rest => (12, rest + 1)
  | month :: months, rest =>
      if rest < daysInMonth year month then (month, rest + 1)
      else monthAndDay year months (rest - daysInMonth year month)

def year (d : Date) : Nat := d.yearAndDay.1

def month (d : Date) : Nat := (monthAndDay d.year (List.range' 1 12) d.yearAndDay.2).1

def day (d : Date) : Nat := (monthAndDay d.year (List.range' 1 12) d.yearAndDay.2).2

@[simp] theorem ordinal_ofOrdinal? {n : Int} {d : Date} (h : ofOrdinal? n = some d) :
    (d.ordinal : Int) = n := by
  unfold ofOrdinal? at h
  split at h
  · rename_i hn
    cases h
    exact Int.toNat_of_nonneg (by omega)
  · cases h

end Date

/-- A number padded with zeros to a width. -/
def zeroPad (width n : Nat) : String :=
  String.ofList (List.replicate (width - (toString n).length) '0') ++ toString n

def Date.isoformat (d : Date) : String :=
  zeroPad 4 d.year ++ "-" ++ zeroPad 2 d.month ++ "-" ++ zeroPad 2 d.day

/-- The ordinal of 1 January 1970. -/
def epochOrdinal : Int := 719163

/-- 1 April 2026, a Wednesday. -/
def Date.firstOfApril2026 : Date := ⟨739707, by decide, by decide⟩

/-- 6 May 2026, a Wednesday. -/
def Date.sixthOfMay2026 : Date := ⟨739742, by decide, by decide⟩

/-- `datetime.fromtimestamp(ts, tz=utc).isoformat()` of whole seconds. -/
def utcIsoformat (ts : Int) : Except PyError String :=
  match Date.ofOrdinal? (ts / 86400 + epochOrdinal) with
  | none => .error .valueError
  | some d =>
      let second := (ts % 86400).toNat
      .ok (d.isoformat ++ "T" ++ zeroPad 2 (second / 3600) ++ ":" ++ zeroPad 2 (second / 60 % 60)
        ++ ":" ++ zeroPad 2 (second % 60) ++ "+00:00")

/-! ### Times of a day -/

/-- A `datetime.time` of whole minutes. -/
structure Clock where
  hour : Nat
  minute : Nat
  hour_lt : hour < 24
  minute_lt : minute < 60
  deriving DecidableEq

/-- The full hour. -/
def Clock.onHour (hour : Nat) (h : hour < 24) : Clock := ⟨hour, 0, h, by decide⟩

/-- `time(hour, minute)`; `none` is its `ValueError`. -/
def Clock.of? (hour minute : Nat) : Option Clock :=
  if h : hour < 24 ∧ minute < 60 then some ⟨hour, minute, h.1, h.2⟩ else none

/-- Minutes since midnight. -/
def Clock.minutes (time : Clock) : Nat := 60 * time.hour + time.minute

/-- A `datetime` of whole minutes in the one time zone of the program. -/
structure Moment where
  day : Date
  clock : Clock
  deriving DecidableEq

namespace Moment

/-- Minutes since the start of day 0. -/
def minutes (m : Moment) : Nat := 1440 * m.day.ordinal + m.clock.minutes

instance : LT Moment := ⟨fun a b => a.minutes < b.minutes⟩

instance (a b : Moment) : Decidable (a < b) := inferInstanceAs (Decidable (a.minutes < b.minutes))

/-- The moment a number of minutes after the start of day 0. -/
def ofMinutes? (n : Nat) : Option Moment :=
  (Date.ofOrdinal? (n / 1440 : Nat)).map fun day =>
    ⟨day, ⟨n % 1440 / 60, n % 60, by omega, by omega⟩⟩

/-- `m + timedelta(hours=n)`, which raises outside the calendar. -/
def addHours (m : Moment) (n : Nat) : Except PyError Moment :=
  match ofMinutes? (m.minutes + 60 * n) with
  | some later => .ok later
  | none => .error .overflowError

theorem lt_iff {a b : Moment} : a < b ↔ a.minutes < b.minutes := Iff.rfl

theorem minutes_ofMinutes? {n : Nat} {m : Moment} (h : ofMinutes? n = some m) : m.minutes = n := by
  obtain ⟨day, hday, rfl⟩ := Option.map_eq_some_iff.mp h
  have hordinal := Date.ordinal_ofOrdinal? hday
  simp only [minutes, Clock.minutes]
  omega

/-- On one day the earlier moment is the one of the earlier clock. -/
theorem lt_of_clock {day : Date} {a b : Clock} :
    (⟨day, a⟩ : Moment) < ⟨day, b⟩ ↔ a.minutes < b.minutes := by
  simp only [lt_iff, minutes]
  omega

theorem ofMinutes?_isSome {n : Nat} :
    (ofMinutes? n).isSome = true ↔ 1440 ≤ n ∧ n < 1440 * (maxOrdinal + 1) := by
  rw [ofMinutes?, Option.isSome_map, Date.ofOrdinal?]
  split
  · rename_i h
    simp only [Option.isSome_some, true_iff]
    omega
  · rename_i h
    simp only [Option.isSome_none, Bool.false_eq_true, false_iff]
    omega

theorem addHours_isOk {m : Moment} {n : Nat} :
    (∃ later, m.addHours n = .ok later) ↔ m.minutes + 60 * n < 1440 * (maxOrdinal + 1) := by
  have hsome : (ofMinutes? (m.minutes + 60 * n)).isSome = true ↔
      m.minutes + 60 * n < 1440 * (maxOrdinal + 1) := by
    have hpos := m.day.pos
    rw [ofMinutes?_isSome]
    simp only [minutes]
    omega
  rw [← hsome, addHours]
  cases ofMinutes? (m.minutes + 60 * n) <;> simp

theorem lt_addHours {m later : Moment} {n : Nat} (hn : 0 < n) (h : m.addHours n = .ok later) :
    m < later := by
  unfold addHours at h
  split at h
  · rename_i hm
    cases h
    rw [lt_iff, minutes_ofMinutes? hm]
    omega
  · cases h

end Moment

/-- The timestamps that have a date. -/
theorem utcIsoformat_isOk (ts : Int) :
    (∃ s, utcIsoformat ts = .ok s) ↔ -62135596800 ≤ ts ∧ ts ≤ 253402300799 := by
  have hrange : (0 < ts / 86400 + epochOrdinal ∧ ts / 86400 + epochOrdinal ≤ maxOrdinal) ↔
      -62135596800 ≤ ts ∧ ts ≤ 253402300799 := by
    simp only [epochOrdinal, maxOrdinal]
    omega
  unfold utcIsoformat Date.ofOrdinal?
  by_cases h : 0 < ts / 86400 + epochOrdinal ∧ ts / 86400 + epochOrdinal ≤ maxOrdinal
  · simp [h, ← hrange]
  · simp [h, ← hrange]

example : (utcIsoformat 1756803600).toOption = some "2025-09-02T09:00:00+00:00" := by
  decide

end Py

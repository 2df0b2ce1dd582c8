import ClassinDashboard.PyGroups
import ClassinDashboard.PyScript
import ClassinDashboard.SmartParse

/-!
What the rows of a table give, each by itself. A row with a date and a start is one lesson of the
course that it names; what becomes of it depends on its own cells alone, but a reading of the clock
that is no time of a day ends the whole table.
-/

namespace ClassinDashboard

open Py

/-! ### Entries -/

/-- What a row gives. -/
structure RowEntry where
  name : Text
  teacher : Text
  /-- As given; empty when the lesson is to be numbered. -/
  title : Text
  startAt : Moment
  endAt : Moment
  homework : Option ParsedHomework
  notes : List Text
  deriving DecidableEq

section Table

variable (p : Platform)

def courseNameOf (cells : RowCells) : Text :=
  if (cellOf cells .courseName).isEmpty then "미지정 코스".toList else cellOf cells .courseName

/-- What a row gives by itself; nothing without a date or a start. -/
def rowEntry (cells : RowCells) (year : Nat) : Except PyError (Option RowEntry) :=
  match parseDate (cellOf cells .date) year with
  | none => .ok none
  | some day =>
      match rowSlot p cells with
      | none => .ok none
      | some slot => do
          let (startAt, endAt, notes) ← slotTimes day slot
          let homework ← rowHomework p cells year
          pure (some ⟨courseNameOf cells, cellOf cells .teacher, cellOf cells .lessonTitle, startAt,
            endAt, homework, notes⟩)

def enterRow (state : TableState) (cells : RowCells) : Option RowEntry → TableState
  | none => state
  | some entry =>
      (modifyCourse entry.name
        (fun course => addLesson course cells entry.startAt entry.endAt entry.homework) state.1,
        addNotes state.2 entry.notes)

variable {p}

theorem parseRow_eq (header : List (Option TableColumn)) (year : Nat) (state : TableState)
    (rawRow : List Text) : parseRow p header year state rawRow =
      (rowEntry p (rowCells header rawRow) year).map (enterRow state (rowCells header rawRow)) := by
  unfold parseRow rowEntry rowTimes
  generalize rowCells header rawRow = cells
  dsimp only
  cases parseDate (cellOf cells .date) year with
  | none => rfl
  | some day =>
      cases rowSlot p cells with
      | none => rfl
      | some slot =>
          simp only
          cases slotTimes day slot with
          | error e => rfl
          | ok times => cases rowHomework p cells year <;> rfl

theorem parseRow_isOk {header : List (Option TableColumn)} {year : Nat} {state : TableState}
    {rawRow : List Text} : (∃ state', parseRow p header year state rawRow = .ok state') ↔
      ∃ entry, rowEntry p (rowCells header rawRow) year = .ok entry := by
  rw [parseRow_eq]
  cases rowEntry p (rowCells header rawRow) year <;> simp [Except.map]

/-- What the rows of a table give, in their order. -/
def entriesOf (p : Platform) (header : List (Option TableColumn)) (year : Nat)
    (rows : List (List Text)) : List RowEntry :=
  rows.filterMap fun rawRow => (rowEntry p (rowCells header rawRow) year).toOption.join

/-! ### Courses -/

/-- A lesson has the times and the homework of its row, and its title if it gives one. -/
structure Shows (entry : RowEntry) (lesson : ParsedLesson) : Prop where
  startAt : lesson.startAt = entry.startAt
  endAt : lesson.endAt = entry.endAt
  homework : lesson.homework = entry.homework
  title : entry.title ≠ [] → lesson.title = entry.title

/-- The courses are the names in the order of their first row, each with one lesson a row. -/
def Tabulates (entries : List RowEntry) (courses : List ParsedCourse) : Prop :=
  List.Forall₂ (fun group course => course.courseName = group.1 ∧
    List.Forall₂ Shows group.2 course.lessons) (groupOn RowEntry.name entries) courses

theorem addLesson_shows {entry : RowEntry} {entries : List RowEntry} {course : ParsedCourse}
    {cells : RowCells} (hcourse : List.Forall₂ Shows entries course.lessons)
    (htitle : entry.title = cellOf cells .lessonTitle) :
    List.Forall₂ Shows (entries ++ [entry])
      (addLesson course cells entry.startAt entry.endAt entry.homework).lessons := by
  refine List.rel_append hcourse (List.Forall₂.cons ⟨rfl, rfl, rfl, ?_⟩ List.Forall₂.nil)
  intro hgiven
  rw [htitle] at hgiven ⊢
  exact if_neg (by rwa [List.isEmpty_iff])

/-- One more row is one more lesson of the course that it names. -/
theorem Tabulates.snoc {entries : List RowEntry} {entry : RowEntry} {courses : List ParsedCourse}
    {cells : RowCells} (h : Tabulates entries courses)
    (htitle : entry.title = cellOf cells .lessonTitle) :
    Tabulates (entries ++ [entry]) (modifyCourse entry.name
      (fun course => addLesson course cells entry.startAt entry.endAt entry.homework) courses) := by
  unfold Tabulates at h ⊢
  rw [groupOn_append_singleton]
  generalize groupOn RowEntry.name entries = groups at h ⊢
  induction h with
  | nil =>
      have hnew : List.Forall₂ Shows [] (⟨entry.name, none, [], 1⟩ : ParsedCourse).lessons :=
        List.Forall₂.nil
      exact List.Forall₂.cons ⟨rfl, addLesson_shows hnew htitle⟩ List.Forall₂.nil
  | @cons group course groups courses hhead htail ih =>
      rw [addTo, modifyCourse, hhead.1]
      split
      · exact List.Forall₂.cons ⟨hhead.1, addLesson_shows hhead.2 htitle⟩ htail
      · exact List.Forall₂.cons hhead ih

theorem rowEntry_title {cells : RowCells} {year : Nat} {entry : RowEntry}
    (h : rowEntry p cells year = .ok (some entry)) : entry.title = cellOf cells .lessonTitle := by
  unfold rowEntry at h
  split at h
  · cases h
  · split at h
    · cases h
    · obtain ⟨times, _, h⟩ := bind_eq_ok.mp h
      obtain ⟨homework, _, h⟩ := bind_eq_ok.mp h
      cases pure_eq_ok.mp h
      rfl

theorem parseRow_tabulates {header : List (Option TableColumn)} {year : Nat}
    {state state' : TableState} {rawRow : List Text} {entries : List RowEntry}
    (h : parseRow p header year state rawRow = .ok state') (htab : Tabulates entries state.1) :
    Tabulates (entries ++ entriesOf p header year [rawRow]) state'.1 := by
  rw [parseRow_eq] at h
  obtain ⟨entry, hentry, rfl⟩ := map_eq_ok.mp h
  have hentries : entriesOf p header year [rawRow] = entry.toList := by
    rw [entriesOf, List.filterMap_cons, List.filterMap_nil, hentry]
    cases entry <;> rfl
  rw [hentries]
  cases entry with
  | none => rwa [Option.toList_none, List.append_nil]
  | some entry => exact htab.snoc (rowEntry_title hentry)

/-- The rows that were read are in the courses, row by row. -/
theorem parseRows_tabulates {header : List (Option TableColumn)} {year : Nat}
    {rows : List (List Text)} {entries : List RowEntry} {state state' : TableState}
    (h : rows.foldlM (parseRow p header year) state = .ok state') (htab : Tabulates entries state.1) :
    Tabulates (entries ++ entriesOf p header year rows) state'.1 := by
  induction rows generalizing state entries with
  | nil =>
      cases pure_eq_ok.mp h
      rwa [entriesOf, List.filterMap_nil, List.append_nil]
  | cons rawRow rows ih =>
      rw [List.foldlM_cons] at h
      obtain ⟨state₁, hrow, h⟩ := bind_eq_ok.mp h
      have hsplit : entriesOf p header year (rawRow :: rows) =
          entriesOf p header year [rawRow] ++ entriesOf p header year rows :=
        List.filterMap_append (l := [rawRow])
      rw [hsplit, ← List.append_assoc]
      exact ih h (parseRow_tabulates hrow htab)

/-- A table is read when each of its rows is. -/
theorem parseTable_tabulates {rawText : Text} {day : Date} {header : List (Option TableColumn)}
    {rows : List (List Text)} (hrows : tableRows p rawText = .ok (header, rows))
    (h : ∀ rawRow ∈ rows, ∃ entry, rowEntry p (rowCells header rawRow) day.year = .ok entry) :
    ∃ state, parseTable p rawText day = .ok state ∧
      Tabulates (entriesOf p header day.year rows) state.1 := by
  have hstart : Tabulates [] (([], []) : TableState).1 := List.Forall₂.nil
  have hreturns : ∃ state, rows.foldlM (parseRow p header day.year) (([], []) : TableState) =
      .ok state := by
    refine (foldlM_isOk ?_).mpr h
    exact fun _ _ => parseRow_isOk
  obtain ⟨state, hstate⟩ := hreturns
  refine ⟨state, ?_, parseRows_tabulates hstate hstart⟩
  rw [parseTable, hrows]
  exact hstate

/-! ### The readings of a row -/

/-- A time of a day. -/
def TimeReading.Possible (reading : TimeReading) : Prop := reading.hour < 24 ∧ reading.minute < 60

instance (reading : TimeReading) : Decidable reading.Possible :=
  inferInstanceAs (Decidable (reading.hour < 24 ∧ reading.minute < 60))

section Readings

variable (p : Platform)

/-- What the due cell of a row with homework is taken for. -/
def dueReadings (cells : RowCells) (year : Nat) : List TimeReading :=
  if (cellOf cells .homeworkTitle).isEmpty || (parseDate (cellOf cells .homeworkDue) year).isNone then []
  else (readClock p (cellOf cells .homeworkDue) false).toList

/-- The readings that a row with a date and a start is made of. -/
def usedReadings (cells : RowCells) (year : Nat) : List TimeReading :=
  match parseDate (cellOf cells .date) year, rowSlot p cells with
  | some _, some slot => slot.1 :: (slot.2.toList ++ dueReadings p cells year)
  | _, _ => []

/-- Two hours after the start is still in the calendar, where they stand in for the end. -/
def DefaultEndFits (cells : RowCells) (year : Nat) : Prop :=
  ∀ day ∈ parseDate (cellOf cells .date) year, ∀ slot ∈ rowSlot p cells, slot.2 = none →
    1440 * day.ordinal + slot.1.minutes + 120 < 1440 * (maxOrdinal + 1)

/-- Every reading that the row is made of is a time of a day. -/
def RowFits (cells : RowCells) (year : Nat) : Prop :=
  (∀ reading ∈ usedReadings p cells year, reading.Possible) ∧ DefaultEndFits p cells year

instance (cells : RowCells) (year : Nat) : Decidable (DefaultEndFits p cells year) :=
  inferInstanceAs (Decidable (∀ day ∈ parseDate (cellOf cells .date) year, ∀ slot ∈ rowSlot p cells,
    slot.2 = none → 1440 * day.ordinal + slot.1.minutes + 120 < 1440 * (maxOrdinal + 1)))

instance (cells : RowCells) (year : Nat) : Decidable (RowFits p cells year) :=
  inferInstanceAs (Decidable ((∀ reading ∈ usedReadings p cells year, reading.Possible) ∧
    DefaultEndFits p cells year))

end Readings

theorem academyTime_isOk {reading : TimeReading} :
    (∃ time, academyTime reading = .ok time) ↔ reading.minute < 60 := by
  have hhour : reading.academyHour < 24 := Nat.mod_lt _ (by decide)
  unfold academyTime Clock.of?
  by_cases hminute : reading.minute < 60 <;> simp [hhour, hminute]

theorem slotTimes_isOk {day : Date} {slot : TimeReading × Option TimeReading} :
    (∃ times, slotTimes day slot = .ok times) ↔ slot.1.minute < 60 ∧
      (∀ last, slot.2 = some last → last.minute < 60) ∧
      (slot.2 = none → 1440 * day.ordinal + slot.1.minutes + 120 < 1440 * (maxOrdinal + 1)) := by
  obtain ⟨first, last⟩ := slot
  rw [slotTimes, bind_isOk, ← academyTime_isOk]
  cases last with
  | none =>
      have hlater {start : Clock} (hstart : academyTime first = .ok start) :
          (∃ times, ((⟨day, start⟩ : Moment).addHours 2 >>= fun endAt => (pure ((⟨day, start⟩ : Moment),
            endAt, ["종료 시각이 없어 시작 +2시간으로 가정".toList]) :
            Except PyError (Moment × Moment × List Text))) = .ok times) ↔
          1440 * day.ordinal + first.minutes + 120 < 1440 * (maxOrdinal + 1) := by
        rw [bind_isOk, ← minutes_academyTime hstart]
        have hends := Moment.addHours_isOk (m := ⟨day, start⟩) (n := 2)
        simp only [Moment.minutes] at hends
        rw [← hends]
        exact exists_congr fun later => and_iff_left ⟨_, rfl⟩
      constructor
      · rintro ⟨start, hstart, h⟩
        refine ⟨⟨start, hstart⟩, fun _ hlast => ?_, fun _ => (hlater hstart).mp h⟩
        cases hlast
      · rintro ⟨⟨start, hstart⟩, _, h⟩
        exact ⟨start, hstart, (hlater hstart).mpr (h rfl)⟩
  | some reading =>
      constructor
      · rintro ⟨start, hstart, h⟩
        obtain ⟨time, htime, _⟩ := bind_isOk.mp h
        refine ⟨⟨start, hstart⟩, fun last hlast => ?_, fun hnone => ?_⟩
        · cases hlast
          exact academyTime_isOk.mp ⟨time, htime⟩
        · cases hnone
      · rintro ⟨⟨start, hstart⟩, hlast, _⟩
        obtain ⟨time, htime⟩ := academyTime_isOk.mpr (hlast reading rfl)
        exact ⟨start, hstart, bind_isOk.mpr ⟨time, htime, _, rfl⟩⟩

theorem rowHomework_isOk {cells : RowCells} {year : Nat} :
    (∃ homework, rowHomework p cells year = .ok homework) ↔
      ∀ reading ∈ dueReadings p cells year, reading.minute < 60 := by
  unfold rowHomework dueReadings parseClock
  dsimp only
  by_cases htitle : (cellOf cells .homeworkTitle).isEmpty = true
  · simp [htitle]
  · cases parseDate (cellOf cells .homeworkDue) year with
    | none => simp [htitle]
    | some day =>
        cases readClock p (cellOf cells .homeworkDue) false with
        | none => simp [htitle, Except.map]
        | some reading =>
            simp only [htitle, Option.isNone_some, Bool.or_self, Bool.false_eq_true, ↓reduceIte,
              Option.mem_toList, Option.some.injEq, forall_eq', ← academyTime_isOk]
            cases academyTime reading <;> simp [Except.map]

/-- What a row gives, and when it gives anything. -/
theorem rowEntry_eq_some {cells : RowCells} {year : Nat} {entry : RowEntry} :
    rowEntry p cells year = .ok (some entry) → ∃ day slot,
      parseDate (cellOf cells .date) year = some day ∧ rowSlot p cells = some slot ∧
      slotTimes day slot = .ok (entry.startAt, entry.endAt, entry.notes) ∧
      rowHomework p cells year = .ok entry.homework := by
  intro h
  unfold rowEntry at h
  split at h
  · cases h
  · rename_i day hday
    split at h
    · cases h
    · rename_i slot hslot
      obtain ⟨times, htimes, h⟩ := bind_eq_ok.mp h
      obtain ⟨homework, hhomework, h⟩ := bind_eq_ok.mp h
      cases pure_eq_ok.mp h
      exact ⟨day, slot, hday, hslot, htimes, hhomework⟩

theorem rowEntry_of_slot {cells : RowCells} {year : Nat} {entry : Option RowEntry} {day : Date}
    {slot : TimeReading × Option TimeReading} (hday : parseDate (cellOf cells .date) year = some day)
    (hslot : rowSlot p cells = some slot) (h : rowEntry p cells year = .ok entry) :
    ∃ e, entry = some e := by
  unfold rowEntry at h
  rw [hday, hslot] at h
  obtain ⟨times, _, h⟩ := bind_eq_ok.mp h
  obtain ⟨homework, _, h⟩ := bind_eq_ok.mp h
  exact ⟨_, (pure_eq_ok.mp h).symm⟩

/-- A row is read unless one of its readings has an impossible minute. -/
theorem rowEntry_isOk {cells : RowCells} {year : Nat} :
    (∃ entry, rowEntry p cells year = .ok entry) ↔
      (∀ reading ∈ usedReadings p cells year, reading.minute < 60) ∧ DefaultEndFits p cells year := by
  unfold rowEntry usedReadings DefaultEndFits
  cases parseDate (cellOf cells .date) year with
  | none => simp
  | some day =>
      cases rowSlot p cells with
      | none => simp
      | some slot =>
          obtain ⟨first, last⟩ := slot
          simp only [bind_isOk]
          constructor
          · rintro ⟨times, htimes, homework, hhomework, _⟩
            obtain ⟨hfirst, hlast, hdefault⟩ := slotTimes_isOk.mp ⟨times, htimes⟩
            have hdue := rowHomework_isOk.mp ⟨homework, hhomework⟩
            refine ⟨?_, ?_⟩
            · rw [List.forall_mem_cons, List.forall_mem_append]
              exact ⟨hfirst, fun r hr => hlast r (Option.mem_toList.mp hr), hdue⟩
            · rintro _ ⟨⟩ _ ⟨⟩
              exact hdefault
          · rw [List.forall_mem_cons, List.forall_mem_append]
            rintro ⟨⟨hfirst, hlast, hdue⟩, hdefault⟩
            have htimes : ∃ times, slotTimes day (first, last) = .ok times := by
              refine slotTimes_isOk.mpr ⟨hfirst, ?_, ?_⟩
              · exact fun r hr => hlast r (Option.mem_toList.mpr hr)
              · exact hdefault day rfl (first, last) rfl
            obtain ⟨times, htimes⟩ := htimes
            obtain ⟨homework, hhomework⟩ := rowHomework_isOk.mpr hdue
            exact ⟨times, htimes, homework, hhomework, _, rfl⟩

end Table

end ClassinDashboard

import ClassinDashboard.LessonDuration
import ClassinDashboard.TableRows

/-!
When one bad row leaves the others alone. A date that does not exist costs a row or its homework the
date; a clock reading that does not exist is wrapped to another hour or ends the table.
-/

namespace ClassinDashboard

open Py

section Isolation

variable (p : Platform)

/-- The readings of a range. -/
def rangeReadings (range : Option (TimeReading × TimeReading)) : List TimeReading :=
  range.toList.flatMap fun slot => [slot.1, slot.2]

/-- The readings that a cell can be taken for; a range comes before a single time. -/
def clockReadings (text : Text) : TableColumn → List TimeReading
  | .date => rangeReadings (readTimeRange p text false)
  | .start =>
      if (readTimeRange p text false).isSome then rangeReadings (readTimeRange p text false)
      else (readClock p text false).toList
  | .end | .homeworkDue => (readClock p text false).toList
  | _ => []

/-- A cell without a date where one belongs, or with a time that no day has. -/
def Unreadable (cells : RowCells) (year : Nat) (column : TableColumn) : Prop :=
  ((column = .date ∨ column = .homeworkDue) ∧ parseDate (cellOf cells column) year = none) ∨
    ∃ reading ∈ clockReadings p (cellOf cells column) column, ¬reading.Possible

/-- The date and the start of a row can be read. -/
def ReadableRow (cells : RowCells) (year : Nat) : Prop :=
  (parseDate (cellOf cells .date) year).isSome = true ∧
    ∃ slot, rowSlot p cells = some slot ∧ slot.1.Possible

/-- The row with one of its cells empty. -/
def withoutCell (cells : RowCells) (column : TableColumn) : RowCells := cells ++ [(column, [])]

/-- A row gives a lesson when its date and start can be read, and an unreadable cell costs it at most
that cell. -/
def RowIsolated (cells : RowCells) (year : Nat) : Prop :=
  ∃ entry, rowEntry p cells year = .ok entry ∧
    (entry.isSome = true ↔ ReadableRow p cells year) ∧
    ∀ column, Unreadable p cells year column →
      entry = none ∨ rowEntry p (withoutCell cells column) year = .ok entry

variable {p}

@[simp] theorem cellOf_withoutCell (cells : RowCells) (column other : TableColumn) :
    cellOf (withoutCell cells column) other = if other = column then [] else cellOf cells other := by
  rw [cellOf, withoutCell, List.reverse_append, List.reverse_singleton, List.singleton_append,
    List.lookup_cons]
  by_cases h : other = column
  · simp [h]
  · have hne : (other == column) = false := beq_false_of_ne h
    simp [h, hne, cellOf]

/-! ### Empty cells -/

@[simp] theorem parseDate_nil (year : Nat) : parseDate [] year = none := by
  unfold parseDate
  rfl

@[simp] theorem readTimeRange_nil (shift : Bool) : readTimeRange p [] shift = none := by
  unfold readTimeRange readHourRange
  rfl

@[simp] theorem readClock_nil (shift : Bool) : readClock p [] shift = none := by
  unfold readClock
  rfl

/-! ### Rows -/

/-- Where the slot of a row comes from: the date cell, the start cell, or the cells of both ends. -/
theorem rowSlot_cases (cells : RowCells) :
    (∃ first last, readTimeRange p (cellOf cells .date) false = some (first, last) ∧
      rowSlot p cells = some (first, some last)) ∨
    (readTimeRange p (cellOf cells .date) false = none ∧
      ∃ first last, readTimeRange p (cellOf cells .start) false = some (first, last) ∧
        rowSlot p cells = some (first, some last)) ∨
    (readTimeRange p (cellOf cells .date) false = none ∧
      readTimeRange p (cellOf cells .start) false = none ∧
      rowSlot p cells = (readClock p (cellOf cells .start) false).map fun first =>
        (first, readClock p (cellOf cells .end) false)) := by
  unfold rowSlot
  cases readTimeRange p (cellOf cells .date) false with
  | some range => exact .inl ⟨range.1, range.2, rfl, rfl⟩
  | none =>
      cases readTimeRange p (cellOf cells .start) false with
      | some range => exact .inr (.inl ⟨rfl, range.1, range.2, rfl, rfl⟩)
      | none => exact .inr (.inr ⟨rfl, rfl, rfl⟩)

/-- Cells that give the same slot and the same homework on the same day give the same lesson. -/
theorem rowEntry_withoutCell {cells : RowCells} {year : Nat} {column : TableColumn}
    (hcolumn : column = .start ∨ column = .end ∨ column = .homeworkDue)
    (hslot : rowSlot p (withoutCell cells column) = rowSlot p cells)
    (hhomework : rowHomework p (withoutCell cells column) year = rowHomework p cells year) :
    rowEntry p (withoutCell cells column) year = rowEntry p cells year := by
  have hcells (other : TableColumn) (hother : other ∉ [.start, .end, .homeworkDue]) :
      cellOf (withoutCell cells column) other = cellOf cells other := by
    rw [cellOf_withoutCell, if_neg]
    rintro rfl
    simp [hcolumn] at hother
  unfold rowEntry courseNameOf
  rw [hslot, hhomework, hcells .date (by decide), hcells .courseName (by decide),
    hcells .teacher (by decide), hcells .lessonTitle (by decide)]

theorem rowHomework_withoutCell {cells : RowCells} {year : Nat} {column : TableColumn}
    (hcolumn : column = .start ∨ column = .end) :
    rowHomework p (withoutCell cells column) year = rowHomework p cells year := by
  unfold rowHomework
  rcases hcolumn with rfl | rfl <;> simp

/-- The notes of a slot tell whether it has an end. -/
theorem slotTimes_notes {day : Date} {slot : TimeReading × Option TimeReading}
    {startAt endAt : Moment} {notes : List Text} (h : slotTimes day slot = .ok (startAt, endAt, notes)) :
    notes = [] ↔ slot.2.isSome = true := by
  obtain ⟨first, last⟩ := slot
  obtain ⟨start, _, h⟩ := bind_eq_ok.mp h
  cases last with
  | none =>
      obtain ⟨later, _, h⟩ := bind_eq_ok.mp h
      cases pure_eq_ok.mp h
      simp
  | some reading =>
      obtain ⟨time, _, h⟩ := bind_eq_ok.mp h
      cases pure_eq_ok.mp h
      simp

theorem mem_usedReadings {cells : RowCells} {year : Nat} {day : Date}
    {slot : TimeReading × Option TimeReading} {reading : TimeReading}
    (hday : parseDate (cellOf cells .date) year = some day) (hslot : rowSlot p cells = some slot) :
    reading ∈ usedReadings p cells year ↔
      reading = slot.1 ∨ slot.2 = some reading ∨ reading ∈ dueReadings p cells year := by
  simp only [usedReadings, hday, hslot, List.mem_cons, List.mem_append, Option.mem_toList]

theorem mem_dueReadings {cells : RowCells} {year : Nat} {reading : TimeReading} :
    reading ∈ dueReadings p cells year ↔ (cellOf cells .homeworkTitle).isEmpty = false ∧
      (parseDate (cellOf cells .homeworkDue) year).isSome = true ∧
      readClock p (cellOf cells .homeworkDue) false = some reading := by
  rw [dueReadings]
  cases (cellOf cells .homeworkTitle).isEmpty <;>
    cases parseDate (cellOf cells .homeworkDue) year <;> simp

section Sound

variable {cells : RowCells} {year : Nat}

/-- A row without a date or without a slot gives nothing. -/
theorem rowEntry_none (h : ∀ day slot, parseDate (cellOf cells .date) year = some day →
    rowSlot p cells ≠ some slot) : rowEntry p cells year = .ok none := by
  unfold rowEntry
  cases hday : parseDate (cellOf cells .date) year with
  | none => rfl
  | some day =>
      cases hslot : rowSlot p cells with
      | none => rfl
      | some slot => exact absurd hslot (h day slot hday)

variable {day : Date} {slot : TimeReading × Option TimeReading}

theorem mem_rangeReadings {range : Option (TimeReading × TimeReading)} {reading : TimeReading} :
    reading ∈ rangeReadings range ↔
      ∃ first last, range = some (first, last) ∧ (reading = first ∨ reading = last) := by
  cases range with
  | none => simp [rangeReadings]
  | some slot =>
      obtain ⟨first, last⟩ := slot
      simp only [rangeReadings, Option.toList_some, List.flatMap_singleton, List.mem_cons,
        List.not_mem_nil, or_false, Option.some.injEq, Prod.mk.injEq]
      exact ⟨fun h => ⟨first, last, ⟨rfl, rfl⟩, h⟩, by rintro ⟨_, _, ⟨rfl, rfl⟩, h⟩; exact h⟩

/-- Both ends of the range that a row states are used. -/
theorem range_used {first last reading : TimeReading}
    (hday : parseDate (cellOf cells .date) year = some day)
    (hslot : rowSlot p cells = some (first, some last)) (h : reading = first ∨ reading = last) :
    reading ∈ usedReadings p cells year := by
  rw [mem_usedReadings hday hslot]
  rcases h with rfl | rfl
  · exact .inl rfl
  · exact .inr (.inl rfl)

section Fits

variable (hfits : RowFits p cells year) (hday : parseDate (cellOf cells .date) year = some day)
  (hslot : rowSlot p cells = some slot)

include hfits hday

theorem date_readable (h : Unreadable p cells year .date) : rowSlot p cells ≠ some slot := by
  intro hslot
  rcases h with ⟨_, hnone⟩ | ⟨reading, hmem, himpossible⟩
  · rw [hday] at hnone
    cases hnone
  · obtain ⟨first, last, hrange, hends⟩ := mem_rangeReadings.mp hmem
    have hstated : rowSlot p cells = some (first, some last) := by
      unfold rowSlot
      rw [hrange]
      rfl
    exact himpossible (hfits.1 reading (range_used hday hstated hends))

/-- A start that cannot be read belongs to a row whose date cell has the slot. -/
theorem start_unused (h : Unreadable p cells year .start) :
    rowSlot p (withoutCell cells .start) = rowSlot p cells := by
  rcases h with ⟨hcolumn, _⟩ | ⟨reading, hmem, himpossible⟩
  · simp at hcolumn
  · rcases rowSlot_cases (p := p) cells with
      ⟨first, last, hdate, _⟩ | ⟨_, first, last, hstart, hstated⟩ | ⟨_, hstart, hstated⟩
    · unfold rowSlot
      simp [hdate]
    · simp only [clockReadings, hstart, Option.isSome_some, ↓reduceIte] at hmem
      obtain ⟨first', last', heq, hends⟩ := mem_rangeReadings.mp hmem
      cases heq
      exact absurd (hfits.1 reading (range_used hday hstated hends)) himpossible
    · simp only [clockReadings, hstart, Option.isSome_none, Bool.false_eq_true, ↓reduceIte,
        Option.mem_toList] at hmem
      rw [hmem, Option.map_some] at hstated
      exact absurd (hfits.1 reading ((mem_usedReadings hday hstated).mpr (.inl rfl))) himpossible

include hslot

theorem end_unused (h : Unreadable p cells year .end) :
    rowSlot p (withoutCell cells .end) = rowSlot p cells := by
  rcases h with ⟨hcolumn, _⟩ | ⟨reading, hmem, himpossible⟩
  · simp at hcolumn
  · rcases rowSlot_cases (p := p) cells with
      ⟨first, last, hdate, _⟩ | ⟨hdate, first, last, hstart, _⟩ | ⟨_, _, hstated⟩
    · unfold rowSlot
      simp [hdate]
    · unfold rowSlot
      simp [hdate, hstart]
    · rw [hslot, Option.mem_toList.mp hmem, eq_comm, Option.map_eq_some_iff] at hstated
      obtain ⟨first, _, hstated⟩ := hstated
      have hlast : slot.2 = some reading := by rw [← hstated]
      exact absurd (hfits.1 reading ((mem_usedReadings hday hslot).mpr (.inr (.inl hlast))))
        himpossible

/-- A due time that cannot be read belongs to a row without homework, or without the date of it. -/
theorem homeworkDue_unused (h : Unreadable p cells year .homeworkDue) :
    rowHomework p (withoutCell cells .homeworkDue) year = rowHomework p cells year := by
  unfold rowHomework
  cases htitle : (cellOf cells .homeworkTitle).isEmpty with
  | true => simp [htitle]
  | false =>
      cases hdue : parseDate (cellOf cells .homeworkDue) year with
      | none => simp [htitle, hdue]
      | some due =>
          rcases h with ⟨_, hnone⟩ | ⟨reading, hmem, himpossible⟩
          · rw [hdue] at hnone
            cases hnone
          · have hreading : reading ∈ dueReadings p cells year :=
              mem_dueReadings.mpr ⟨htitle, by rw [hdue]; rfl, Option.mem_toList.mp hmem⟩
            exact absurd (hfits.1 reading ((mem_usedReadings hday hslot).mpr (.inr (.inr hreading))))
              himpossible

end Fits

/-- A row that fits loses nothing with an unreadable cell. -/
theorem rowIsolated_of_fits (hfits : RowFits p cells year) : RowIsolated p cells year := by
  have hminutes : ∀ reading ∈ usedReadings p cells year, reading.minute < 60 :=
    fun reading hmem => (hfits.1 reading hmem).2
  obtain ⟨entry, hentry⟩ := rowEntry_isOk.mpr ⟨hminutes, hfits.2⟩
  refine ⟨entry, hentry, ?_, ?_⟩
  · constructor
    · intro hsome
      obtain ⟨e, rfl⟩ := Option.isSome_iff_exists.mp hsome
      obtain ⟨day, slot, hday, hslot, _⟩ := rowEntry_eq_some hentry
      refine ⟨by rw [hday]; rfl, slot, hslot, ?_⟩
      exact hfits.1 _ ((mem_usedReadings hday hslot).mpr (.inl rfl))
    · rintro ⟨hdate, slot, hslot, _⟩
      obtain ⟨day, hday⟩ := Option.isSome_iff_exists.mp hdate
      obtain ⟨e, rfl⟩ := rowEntry_of_slot hday hslot hentry
      rfl
  · intro column hcolumn
    cases entry with
    | none => exact .inl rfl
    | some e =>
        right
        obtain ⟨day, slot, hday, hslot, _⟩ := rowEntry_eq_some hentry
        rw [← hentry]
        cases column with
        | date => exact absurd hslot (date_readable hfits hday hcolumn)
        | start =>
            exact rowEntry_withoutCell (.inl rfl) (start_unused hfits hday hcolumn)
              (rowHomework_withoutCell (.inl rfl))
        | «end» =>
            exact rowEntry_withoutCell (.inr (.inl rfl)) (end_unused hfits hday hslot hcolumn)
              (rowHomework_withoutCell (.inr rfl))
        | homeworkDue =>
            have hsame : rowSlot p (withoutCell cells .homeworkDue) = rowSlot p cells := by
              unfold rowSlot
              simp
            exact rowEntry_withoutCell (.inr (.inr rfl)) hsame
              (homeworkDue_unused hfits hday hslot hcolumn)
        | _ => simp [Unreadable, clockReadings] at hcolumn

/-- A used cell without which there is no slot is no cell to lose. -/
theorem rowEntry_no_slot {column : TableColumn} {entry : RowEntry}
    (hnone : ∀ day slot, parseDate (cellOf (withoutCell cells column) .date) year = some day →
      rowSlot p (withoutCell cells column) ≠ some slot) :
    rowEntry p (withoutCell cells column) year ≠ .ok (some entry) := by
  rw [rowEntry_none hnone]
  simp

theorem slot_possible (h : RowIsolated p cells year)
    (hday : parseDate (cellOf cells .date) year = some day) (hslot : rowSlot p cells = some slot) :
    slot.1.Possible := by
  obtain ⟨entry, hentry, hreadable, _⟩ := h
  obtain ⟨e, rfl⟩ := rowEntry_of_slot hday hslot hentry
  obtain ⟨_, slot', hslot', hpossible⟩ := hreadable.mp rfl
  cases hslot.symm.trans hslot'
  exact hpossible

/-- The end of a slot comes from the date cell, the start cell or the end cell, and each of them is
missed when it is lost. -/
theorem end_possible (h : RowIsolated p cells year)
    (hday : parseDate (cellOf cells .date) year = some day) (hslot : rowSlot p cells = some slot)
    {last : TimeReading} (hlast : slot.2 = some last) : last.Possible := by
  obtain ⟨entry, hentry, _, hunreadable⟩ := h
  obtain ⟨e, rfl⟩ := rowEntry_of_slot hday hslot hentry
  by_contra himpossible
  rcases rowSlot_cases (p := p) cells with
    ⟨first', last', hdate, hstated⟩ | ⟨hdate, first', last', hstart, hstated⟩ |
    ⟨hdate, hstart, hstated⟩
  · cases hslot.symm.trans hstated
    cases hlast
    have hcell : Unreadable p cells year .date := by
      refine .inr ⟨last, ?_, himpossible⟩
      exact mem_rangeReadings.mpr ⟨first', last, hdate, .inr rfl⟩
    rcases hunreadable .date hcell with h | h
    · cases h
    · exact rowEntry_no_slot (fun _ _ hday => by simp at hday) h
  · cases hslot.symm.trans hstated
    cases hlast
    have hcell : Unreadable p cells year .start := by
      refine .inr ⟨last, ?_, himpossible⟩
      simp only [clockReadings, hstart, Option.isSome_some, ↓reduceIte]
      exact mem_rangeReadings.mpr ⟨first', last, rfl, .inr rfl⟩
    rcases hunreadable .start hcell with h | h
    · cases h
    · refine rowEntry_no_slot (fun _ _ _ hslot => ?_) h
      unfold rowSlot at hslot
      simp [hdate] at hslot
  · rw [hslot, eq_comm, Option.map_eq_some_iff] at hstated
    obtain ⟨first, hfirst, rfl⟩ := hstated
    have hcell : Unreadable p cells year .end :=
      .inr ⟨last, Option.mem_toList.mpr hlast, himpossible⟩
    rcases hunreadable .end hcell with h | h
    · cases h
    · have hwithout : rowSlot p (withoutCell cells .end) = some (first, none) := by
        unfold rowSlot
        simp [hdate, hstart, hfirst]
      -- without the end the row takes note of it
      obtain ⟨day₁, slot₁, hday₁, hslot₁, htimes₁, _⟩ := rowEntry_eq_some hentry
      obtain ⟨day₂, slot₂, hday₂, hslot₂, htimes₂, _⟩ := rowEntry_eq_some h
      cases hslot.symm.trans hslot₁
      cases hwithout.symm.trans hslot₂
      have hnotes := (slotTimes_notes htimes₁).mpr (by rw [show (first, _).2 = _ from hlast]; rfl)
      have habsent := (slotTimes_notes htimes₂).mp hnotes
      cases habsent

theorem due_possible (h : RowIsolated p cells year)
    (hday : parseDate (cellOf cells .date) year = some day) (hslot : rowSlot p cells = some slot)
    {reading : TimeReading} (hdue : reading ∈ dueReadings p cells year) : reading.Possible := by
  obtain ⟨entry, hentry, _, hunreadable⟩ := h
  obtain ⟨e, rfl⟩ := rowEntry_of_slot hday hslot hentry
  obtain ⟨htitle, hdate, hclock⟩ := mem_dueReadings.mp hdue
  obtain ⟨due, hdueDay⟩ := Option.isSome_iff_exists.mp hdate
  by_contra himpossible
  have hcell : Unreadable p cells year .homeworkDue :=
    .inr ⟨reading, Option.mem_toList.mpr hclock, himpossible⟩
  rcases hunreadable .homeworkDue hcell with h | h
  · cases h
  · obtain ⟨_, _, _, _, _, hhomework⟩ := rowEntry_eq_some hentry
    obtain ⟨_, _, _, _, _, hwithout⟩ := rowEntry_eq_some h
    unfold rowHomework at hhomework hwithout
    simp only [cellOf_withoutCell, reduceCtorEq, htitle, hdueDay, Bool.false_eq_true, ↓reduceIte,
      parseDate_nil, Except.ok.injEq] at hhomework hwithout
    obtain ⟨dueTime, _, hhomework⟩ := map_eq_ok.mp hhomework
    rw [← hwithout] at hhomework
    simp at hhomework

theorem rowIsolated_iff : RowIsolated p cells year ↔ RowFits p cells year := by
  refine ⟨fun h => ⟨?_, ?_⟩, rowIsolated_of_fits⟩
  · intro reading hmem
    cases hday : parseDate (cellOf cells .date) year with
    | none => simp [usedReadings, hday] at hmem
    | some day =>
        cases hslot : rowSlot p cells with
        | none => simp [usedReadings, hday, hslot] at hmem
        | some slot =>
            rcases (mem_usedReadings hday hslot).mp hmem with rfl | hlast | hdue
            · exact slot_possible h hday hslot
            · exact end_possible h hday hslot hlast
            · exact due_possible h hday hslot hdue
  · obtain ⟨entry, hentry, _⟩ := h
    exact (rowEntry_isOk.mp ⟨entry, hentry⟩).2

end Sound

/-! ### Tables -/

/-- `parse_table(raw_text, today=today)`; `now` is the date on the clock. -/
def readTable (p : Platform) (now : Date) (today : Today) (rawText : Text) :
    Except PyError TableState := do
  let day ← asDate now today
  parseTable p rawText day

/-- The rows of a table are isolated, and every table of some of these rows and other isolated ones is
read: it has one lesson for each row that gives one, as the row gives it. -/
def TableIsolated (p : Platform) (now : Date) (today : Today) (rawText : Text) : Prop :=
  ∃ day header rows, asDate now today = .ok day ∧ tableRows p rawText = .ok (header, rows) ∧
    (∀ rawRow ∈ rows, RowIsolated p (rowCells header rawRow) day.year) ∧
    ∀ otherText otherRows, tableRows p otherText = .ok (header, otherRows) →
      (∀ rawRow ∈ otherRows, rawRow ∈ rows ∨ RowIsolated p (rowCells header rawRow) day.year) →
      ∃ state, readTable p now today otherText = .ok state ∧
        Tabulates (entriesOf p header day.year otherRows) state.1

end Isolation

/-- One bad row never harms the others exactly when every clock reading that a row is made of is a
time of a day. -/
theorem table_isolated_iff (p : Platform) (now : Date) (today : Today) (rawText : Text)
    (_hcsv : isCsv p rawText = true) :
    TableIsolated p now today rawText ↔
      ∃ day header rows, asDate now today = .ok day ∧ tableRows p rawText = .ok (header, rows) ∧
        ∀ rawRow ∈ rows, RowFits p (rowCells header rawRow) day.year := by
  unfold TableIsolated
  refine exists_congr fun day => exists_congr fun header => exists_congr fun rows =>
    and_congr_right fun hday => and_congr_right fun hrows => ?_
  simp only [rowIsolated_iff]
  constructor
  · exact fun h => h.1
  · intro hfits
    refine ⟨hfits, fun otherText otherRows hother hmem => ?_⟩
    have hread : ∀ rawRow ∈ otherRows,
        ∃ entry, rowEntry p (rowCells header rawRow) day.year = .ok entry := by
      intro rawRow hrow
      have hrowFits := (hmem rawRow hrow).elim (hfits rawRow) id
      obtain ⟨entry, hentry, _⟩ := rowIsolated_of_fits hrowFits
      exact ⟨entry, hentry⟩
    obtain ⟨state, hstate, htabulates⟩ := parseTable_tabulates hother hread
    refine ⟨state, ?_, htabulates⟩
    rw [readTable, hday]
    exact hstate

/-- The second row has no date, and the third one homework without one. -/
def typoTable : Text :=
  "반,날짜,시작,종료,숙제,마감\nA,2026-05-06,19:00,21:00,,\nB,2026-13-40,19:00,21:00,,\nA,5/8,7시,,독해,5/40".toList

theorem typoTable_isolated : TableIsolated .plain aprilFirst .missing typoTable := by
  -- both at once: the names of the columns are worked out in each evaluation
  have hevaluates : (isCsv .plain typoTable && (tableRows .plain typoTable).toOption.any fun table =>
      ∀ rawRow ∈ table.2, RowFits .plain (rowCells table.1 rawRow) aprilFirst.year) = true := by
    decide +kernel
  obtain ⟨hcsv, hfits⟩ := Bool.and_eq_true_iff.mp hevaluates
  obtain ⟨table, hrows, htable⟩ := exists_ok_of_any hfits
  exact (table_isolated_iff .plain aprilFirst .missing typoTable hcsv).mpr
    ⟨aprilFirst, table.1, table.2, rfl, hrows, of_decide_eq_true htable⟩

/-- One minute too many in the last row. -/
def lateTable : Text :=
  "반,날짜,시작,종료\nA,2026-05-06,19:00,21:00\nB,2026-05-07,19:60,21:00".toList

/-- The minute of one row ends the whole table. -/
theorem lateTable_raises :
    ¬∀ (p : Platform) (now : Date) (today : Today) (rawText : Text), isCsv p rawText = true →
      TableIsolated p now today rawText := by
  intro h
  have hevaluates : (isCsv .plain lateTable &&
      (readTable .plain aprilFirst .missing lateTable).toOption.isNone) = true := by decide
  obtain ⟨hcsv, hraises⟩ := Bool.and_eq_true_iff.mp hevaluates
  obtain ⟨day, header, rows, _, hrows, _, hothers⟩ := h .plain aprilFirst .missing lateTable hcsv
  obtain ⟨state, hstate, _⟩ := hothers lateTable rows hrows fun _ hmem => .inl hmem
  rw [hstate] at hraises
  cases hraises

end ClassinDashboard

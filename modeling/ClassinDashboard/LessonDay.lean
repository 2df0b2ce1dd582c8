import ClassinDashboard.LessonDates
import ClassinDashboard.NotifyCopy

/-!
The calendar day of a lesson in its three places: the day on a screen, which converts the stored text
to Korean time; the day in a notification, which is cut from the text; and the day whose week a trend
counts, which is the one of the text. They are all the Korean day as long as UTC has the same day.
-/

namespace ClassinDashboard

open Py Sql

/-! ### The day on a screen -/

/-- The day that `t.astimezone(zone)` falls on. A naive datetime is taken in the zone of the machine. -/
def dayIn (machine : DateTime → UtcOffset) (zone : UtcOffset) (t : DateTime) : Except PyError Date :=
  let offset := t.offset.getD (machine t)
  let shifted := t.wallMicroseconds + 60000000 * (zone.minutes - offset.minutes)
  match Date.ofOrdinal? (shifted / 86400000000 + epochOrdinal) with
  | some day => .ok day
  | none => .error .overflowError

/-- What `datetime` does with a text and a date: `fromisoformat`, `strftime` and the local zone. -/
structure DateReader where
  fromIso : String → Except PyError DateTime
  /-- `strftime("%Y-%m-%d")`: whether a year before 1000 is padded is up to the machine. -/
  strftime : Date → String
  machine : DateTime → UtcOffset

variable (reader : DateReader)

/-- `_date_kst`: a text that is no date is shown as it begins. -/
def dateKst (value : Option String) : Except PyError String :=
  match value.filter (· ≠ "") with
  | none => .ok "—"
  | some text =>
      match reader.fromIso text with
      | .ok t => (dayIn reader.machine .kst t).map reader.strftime
      | .error .valueError => .ok (String.ofList (text.toList.take 10))
      | .error e => .error e

/-- The date in a text. -/
def DateReader.isoDate : IsoDate := fun text => (reader.fromIso text).map (·.moment.day)

/-! ### One day everywhere -/

/-- The Korean calendar day of an instant. -/
def koreanDay (ts : Int) : Option Date := Date.ofOrdinal? ((ts + 32400) / 86400 + epochOrdinal)

/-- The Korean day of the start is the day on the screen, in both kinds of notification text and in the
weekly trends. -/
structure OneDay (ts : Int) (stored : String) (day : Date) : Prop where
  korean : koreanDay ts = some day
  shown : dateKst reader (some stored) = .ok (reader.strftime day)
  template : ∀ (row : MissingRow) count academyName, row.record.cells .lessonDate = .text stored →
    TemplatePart.format row count academyName .date = day.isoformat
  model : ∀ uid (row : MissingRow), row.record.cells .lessonDate = .text stored →
    (studentPayload uid [row]).map (fun payload => payload.missingLessons.map MissingLesson.date) =
      some [day.isoformat]
  week : weekStart reader.isoDate stored = (day.addDays (-day.weekday)).map Date.isoformat

section Days

variable {reader} {ts : Int} {stored : String} {t : DateTime}

/-- The text of a UTC datetime begins with its date. -/
theorem take_isoformat (t : DateTime) :
    String.ofList ((t.isoformat "T" "+00:00").toList.take 10) = t.moment.day.isoformat := by
  simp only [DateTime.isoformat, String.toList_append, List.append_assoc]
  rw [List.take_append_of_le_length (by rw [Date.length_isoformat]),
    List.take_of_length_le (by rw [Date.length_isoformat]), String.ofList_toList]

theorem lessonDay_stored (h : utcIsoformat ts = .ok stored) (ht : DateTime.ofTimestamp? ts = some t)
    {row : MissingRow} (hrow : row.record.cells .lessonDate = .text stored) :
    lessonDay row = t.moment.day.isoformat := by
  obtain ⟨t', ht', rfl⟩ := DateTime.utcIsoformat_eq_ok.mp h
  rw [ht] at ht'
  cases ht'
  have hfilled : filledText (row.record.cells .lessonDate) = some (t.isoformat "T" "+00:00") := by
    rw [hrow, filledText, SqlValue.toText?]
    exact Option.filter_eq_some_iff.mpr ⟨rfl, decide_eq_true (isoformat_ne_empty t)⟩
  rw [lessonDay, hfilled, Option.getD_some, take_isoformat]

/-- UTC has the day of Korea until three in the afternoon. -/
theorem koreanDay_eq_iff (ht : DateTime.ofTimestamp? ts = some t) :
    koreanDay ts = some t.moment.day ↔ ts % 86400 < 54000 := by
  obtain ⟨day, hday, rfl⟩ := Option.map_eq_some_iff.mp ht
  have hordinal := Date.ordinal_ofOrdinal? hday
  constructor
  · intro h
    have hkorean := Date.ordinal_ofOrdinal? h
    simp only at hkorean
    omega
  · intro h
    have hsame : (ts + 32400) / 86400 + epochOrdinal = ts / 86400 + epochOrdinal := by omega
    rw [koreanDay, hsame]
    exact hday

theorem dayIn_kst (ht : DateTime.ofTimestamp? ts = some t) {day : Date} (hday : koreanDay ts = some day)
    (machine : DateTime → UtcOffset) : dayIn machine .kst t = .ok day := by
  have hshifted : (t.wallMicroseconds + 60000000 * (UtcOffset.kst.minutes - UtcOffset.utc.minutes))
      / 86400000000 = (ts + 32400) / 86400 := by
    rw [DateTime.wallMicroseconds_ofTimestamp? ht]
    simp only [UtcOffset.kst, UtcOffset.utc]
    omega
  rw [koreanDay] at hday
  simp only [dayIn, DateTime.offset_ofTimestamp? ht, Option.getD_some, hshifted, hday]

/-- A lesson has one day everywhere exactly if it starts before three in the afternoon, UTC. -/
theorem oneDay_iff (h : iso (some ts) = .ok (some stored))
    (hread : ∀ t, DateTime.ofTimestamp? ts = some t → reader.fromIso stored = .ok t) :
    (∃ day, OneDay reader ts stored day) ↔ ts % 86400 < 54000 := by
  obtain ⟨-, hstored⟩ := iso_of_some h
  obtain ⟨t, ht, heq⟩ := DateTime.utcIsoformat_eq_ok.mp hstored
  have hfrom := hread t ht
  constructor
  · rintro ⟨day, hday⟩
    let row : MissingRow := ⟨⟨"", 0, fun _ => .text stored⟩, "", none⟩
    have hcut : lessonDay row = day.isoformat := hday.template row 0 "" rfl
    rw [lessonDay_stored hstored ht rfl] at hcut
    rw [← koreanDay_eq_iff ht, Date.isoformat_inj hcut]
    exact hday.korean
  · intro hearly
    have hkorean := (koreanDay_eq_iff ht).mpr hearly
    refine ⟨t.moment.day, hkorean, ?_, ?_, ?_, ?_⟩
    · have hfilled : (some stored).filter (· ≠ "") = some stored :=
        Option.filter_eq_some_iff.mpr ⟨rfl, decide_eq_true (heq ▸ isoformat_ne_empty t)⟩
      simp only [dateKst, hfilled, hfrom, dayIn_kst ht hkorean]
      rfl
    · intro row count academyName hrow
      exact lessonDay_stored hstored ht hrow
    · intro uid row hrow
      rw [studentPayload, List.head?_cons, Option.map_some, Option.map_some, List.map_singleton,
        List.map_singleton, lessonDay_stored hstored ht hrow]
    · rw [weekStart, DateReader.isoDate, hfrom]
      show (t.moment.day.addDays _ >>= _) = _
      cases t.moment.day.addDays (-t.moment.day.weekday) <;> rfl

end Days

/-- A reader that knows one text. -/
def readerOf (text : String) (t : DateTime) : DateReader where
  fromIso s := if s = text then .ok t else .error .valueError
  strftime day := day.isoformat
  machine _ := .utc

/-- 7 May 2026 at noon in Korea, and at midnight. -/
def noonLesson : Int := 1778122800

def midnightLesson : Int := 1778079600

theorem oneDay_noon :
    ∃ day, OneDay (readerOf "2026-05-07T03:00:00+00:00" ⟨⟨⟨739743, by decide, by decide⟩,
      ⟨3, 0, by decide, by decide⟩⟩, 0, by decide, some .utc⟩) noonLesson "2026-05-07T03:00:00+00:00" day := by
  have hearly : noonLesson % 86400 < 54000 := by decide
  refine (oneDay_iff (by decide) fun t ht => ?_).mpr hearly
  have heq : DateTime.ofTimestamp? noonLesson = some ⟨⟨⟨739743, by decide, by decide⟩,
    ⟨3, 0, by decide, by decide⟩⟩, 0, by decide, some .utc⟩ := by decide
  rw [heq] at ht
  cases ht
  rfl

/-- The screen shows the seventh, the notification says the sixth. -/
theorem midnight_two_days :
    ¬ ∀ (reader : DateReader) (ts : Int) (stored : String), iso (some ts) = .ok (some stored) →
      (∀ t, DateTime.ofTimestamp? ts = some t → reader.fromIso stored = .ok t) →
        ∃ day, OneDay reader ts stored day := by
  intro h
  have hday := h (readerOf "2026-05-06T15:00:00+00:00" ⟨⟨⟨739742, by decide, by decide⟩,
    ⟨15, 0, by decide, by decide⟩⟩, 0, by decide, some .utc⟩) midnightLesson
    "2026-05-06T15:00:00+00:00" (by decide) fun t ht => by
      have heq : DateTime.ofTimestamp? midnightLesson = some ⟨⟨⟨739742, by decide, by decide⟩,
        ⟨15, 0, by decide, by decide⟩⟩, 0, by decide, some .utc⟩ := by decide
      rw [heq] at ht
      cases ht
      rfl
  obtain ⟨day, hday⟩ := hday
  have hcut := hday.template ⟨⟨"", 0, fun _ => .text "2026-05-06T15:00:00+00:00"⟩, "", none⟩ 0 "" rfl
  have hkorean := hday.korean
  have hseventh : koreanDay midnightLesson = some ⟨739743, by decide, by decide⟩ := by decide
  rw [hseventh] at hkorean
  cases hkorean
  exact absurd hcut (by decide)

end ClassinDashboard

import ClassinDashboard.RiskMonotone
import ClassinDashboard.StudentList

/-!
The minutes of a teacher in exact arithmetic. The code keeps the first row of every lesson; when the
rows of a lesson carry the same times, that is the set of the teacher's lessons, so its figures are
sums over that set and the order and the number of the rows do not matter. The figures of the source
are written once for any arithmetic of minutes: on doubles they are the summary of the teachers.
-/

namespace ClassinDashboard

open Py Sql

/-! ### The summary in any arithmetic -/

/-- What minutes are counted in. -/
structure MinuteArith (μ : Type) where
  /-- `(end - start) / 60` of two cells. -/
  between : SqlValue → SqlValue → Except PyError μ
  zero : μ
  add : μ → μ → μ
  round : μ → Except PyError Int

/-- Minutes as doubles. -/
def doubleMinutes : MinuteArith PyFloat where
  between
    | .int a, .int b => .ok (.ofRat (((b - a : Int) : ℚ) / 60))
    | start, finish => do
        let b ← cellFloat finish
        let a ← cellFloat start
        pure ((b.sub a).scale (1 / 60))
  zero := .fin 0
  add := PyFloat.add
  round := PyFloat.round

/-- Minutes as rationals. -/
def exactMinutes : MinuteArith ℚ where
  between start finish :=
    match cellRat start, cellRat finish with
    | some a, some b => .ok ((b - a) / 60)
    | _, _ => .error .typeError
  zero := 0
  add := (· + ·)
  round minutes := .ok (roundHalfEven minutes)

section Generic

variable {μ : Type} (arith : MinuteArith μ) (isoDate : IsoDate) (p : Platform)

def LessonRecord.minutesIn (record : LessonRecord) : Except PyError (Option μ) :=
  if cellTruthy (record.cells .classStart) && cellTruthy (record.cells .classEnd) then
    (arith.between (record.cells .classStart) (record.cells .classEnd)).map some
  else .ok none

def taughtTimeIn (record : LessonRecord) : Except PyError (Option (μ × Option String)) := do
  match ← record.minutesIn arith with
  | none => pure none
  | some minutes => do
      let week ← record.date?.mapM (weekStart isoDate)
      pure (some (minutes, week))

def sumMinutesIn (minutes : List μ) : μ := minutes.foldl arith.add arith.zero

def weeklyMinutesIn (times : List (μ × Option String)) : Except PyError (List (String × Int)) :=
  let dated := times.filterMap fun time => time.2.map fun week => (week, time.1)
  let weeks := (groupOn Prod.fst dated).mergeSort fun a b => a.1 ≤ b.1
  (weeks.drop (weeks.length - 14)).mapM fun (week, entries) =>
    (arith.round (sumMinutesIn arith (entries.map Prod.snd))).map fun minutes => (week, minutes)

def taughtLessonIn (record : LessonRecord) : Except PyError TaughtLesson := do
  let minutes ← (← record.minutesIn arith).mapM arith.round
  pure ⟨record.lessonId, record.cells .className, record.cells .courseName,
    record.cells .lessonDate, minutes⟩

def teacherSummaryIn (registry : List (Int × TeacherRow)) (uid : SqlValue)
    (rows : List LessonRecord) : Except PyError TeacherSummary := do
  let lessons := firstOfLessons rows
  let times := (← lessons.mapM (taughtTimeIn arith isoDate)).filterMap id
  let taughtMinutes ← arith.round (sumMinutesIn arith (times.map Prod.fst))
  let weeklyMinutes ← weeklyMinutesIn arith times
  let taught ← lessons.mapM (taughtLessonIn arith)
  pure
    { uid
      name := teacherName p (uid.toInt?.bind fun n => registry.lookup n) rows uid
      lessonCount := lessons.length
      taughtMinutes
      attendanceRate := attendanceRate rows
      weeklyMinutes
      lessons := taught.mergeSort TaughtLesson.before }

/-- The teachers of a list of records, the busiest first. -/
def teachersSummaryIn (registry : List (Int × TeacherRow)) (records : List LessonRecord) :
    Except PyError (List TeacherSummary) := do
  let rows := records.filter fun r => r.cells .teacherUid ≠ .null
  let out ← (groupOn (fun r => r.cells .teacherUid) rows).mapM fun (uid, rows) =>
    teacherSummaryIn arith isoDate p registry uid rows
  pure (out.mergeSort fun a b => b.taughtMinutes ≤ a.taughtMinutes)

end Generic

section Doubles

variable (isoDate : IsoDate) (p : Platform)

theorem minutesIn_double (record : LessonRecord) : record.minutesIn doubleMinutes = record.minutes := by
  unfold LessonRecord.minutesIn LessonRecord.minutes doubleMinutes
  simp only
  split
  · cases record.cells .classStart <;> cases record.cells .classEnd <;> rfl
  · rfl

theorem taughtTimeIn_double : taughtTimeIn doubleMinutes isoDate = taughtTime isoDate := by
  funext record
  rw [taughtTimeIn, taughtTime, minutesIn_double]
  cases record.minutes with
  | error e => rfl
  | ok minutes => cases minutes <;> rfl

/-- On doubles the summary is the one of the source. -/
theorem teachersSummary_eq (store : Store) (scope : Scope) (since : String) :
    teachersSummary isoDate p store scope since =
      teachersSummaryIn doubleMinutes isoDate p (teachers store scope) (windowRecords store scope since) := by
  have hsummary (uid : SqlValue) (rows : List LessonRecord) :
      teacherSummaryIn doubleMinutes isoDate p (teachers store scope) uid rows =
        teacherSummary isoDate p (teachers store scope) uid rows := by
    rw [teacherSummaryIn, taughtTimeIn_double]
    unfold taughtLessonIn
    simp only [minutesIn_double]
    rfl
  rw [teachersSummaryIn]
  simp only [hsummary]
  rfl

end Doubles

/-! ### The lessons of a teacher -/

/-- What a row says of its lesson. -/
structure LessonTime where
  lessonId : String
  start : SqlValue
  finish : SqlValue
  date : SqlValue
  deriving DecidableEq

def LessonRecord.time (record : LessonRecord) : LessonTime :=
  ⟨record.lessonId, record.cells .classStart, record.cells .classEnd, record.cells .lessonDate⟩

/-- A time is known when it is a number other than zero. -/
def knownTime (cell : SqlValue) : Option ℚ := (cellRat cell).filter (· ≠ 0)

namespace LessonTime

/-- The duration of a lesson whose times are known. -/
def minutes? (lesson : LessonTime) : Option ℚ := do
  let start ← knownTime lesson.start
  let finish ← knownTime lesson.finish
  pure ((finish - start) / 60)

/-- The Monday of the week of a lesson that has a date. -/
def monday? (isoDate : IsoDate) (lesson : LessonTime) : Option Date := do
  let date ← lesson.date.toText?.filter (· ≠ "")
  let day ← (isoDate date).toOption
  (day.addDays (-day.weekday)).toOption

end LessonTime

/-- The distinct lessons that the rows of a teacher are about. -/
def taughtLessons (rows : List LessonRecord) (uid : SqlValue) : Finset LessonTime :=
  ((rows.filter fun r => r.cells .teacherUid = uid).map LessonRecord.time).toFinset

/-- The durations of the lessons with known times. -/
def totalMinutes (lessons : Finset LessonTime) : ℚ :=
  ∑ lesson ∈ lessons with lesson.minutes?.isSome, lesson.minutes?.getD 0

/-- The weeks with a lesson of known times. -/
def taughtWeeks (isoDate : IsoDate) (lessons : Finset LessonTime) : Finset Date :=
  ((lessons.filter fun lesson => lesson.minutes?.isSome).image (LessonTime.monday? isoDate)).eraseNone

/-- The last of a set of weeks, in order. -/
def lastWeeks (count : Nat) (weeks : Finset Date) : List Date := weeks.sort.drop (weeks.card - count)

/-- The figures of a teacher that lessons enter into. -/
structure LessonFigures where
  lessonCount : Nat
  taughtMinutes : Int
  weeklyMinutes : List (String × Int)
  deriving DecidableEq

def TeacherSummary.figures (s : TeacherSummary) : LessonFigures :=
  ⟨s.lessonCount, s.taughtMinutes, s.weeklyMinutes⟩

/-- The figures of a set of lessons, each counted once. -/
def figuresOf (isoDate : IsoDate) (lessons : Finset LessonTime) : LessonFigures where
  lessonCount := (lessons.image LessonTime.lessonId).card
  taughtMinutes := roundHalfEven (totalMinutes lessons)
  weeklyMinutes := (lastWeeks 14 (taughtWeeks isoDate lessons)).map fun monday =>
    (monday.isoformat, roundHalfEven (totalMinutes
      (lessons.filter fun lesson => lesson.monday? isoDate = some monday)))

/-- A cell of an INTEGER column. -/
def NumberCell (cell : SqlValue) : Prop := cell = .null ∨ ∃ q, cellRat cell = some q

/-- Rows as the store holds them: the times are numbers, and a date that is set can be read. -/
structure TimedRows (isoDate : IsoDate) (rows : List LessonRecord) : Prop where
  start : ∀ row ∈ rows, NumberCell (row.cells .classStart)
  finish : ∀ row ∈ rows, NumberCell (row.cells .classEnd)
  date : ∀ row ∈ rows, ∀ date, row.date? = some date → ∃ day, isoDate date = .ok day

/-- All rows of a lesson of a teacher carry the same times. -/
def TimesAgree (rows : List LessonRecord) : Prop :=
  ∀ a ∈ rows, ∀ b ∈ rows, a.cells .teacherUid = b.cells .teacherUid → a.lessonId = b.lessonId →
    a.time = b.time

/-! ### One row -/

section Row

variable {isoDate : IsoDate}

theorem cellTruthy_eq {cell : SqlValue} (h : NumberCell cell) :
    cellTruthy cell = (knownTime cell).isSome := by
  rcases h with rfl | ⟨q, hq⟩
  · rfl
  · rw [knownTime, hq]
    cases cell with
    | null => cases hq
    | text s => cases hq
    | int n =>
        obtain rfl := Option.some.inj hq
        by_cases hn : n = 0 <;> simp [cellTruthy, hn]
    | real x =>
        cases x with
        | inf sign => cases hq
        | nan => cases hq
        | fin r =>
            obtain rfl := Option.some.inj hq
            by_cases hr : r = 0 <;> simp [cellTruthy, hr]

theorem minutesIn_exact {record : LessonRecord} (hstart : NumberCell (record.cells .classStart))
    (hfinish : NumberCell (record.cells .classEnd)) :
    record.minutesIn exactMinutes = .ok record.time.minutes? := by
  rw [LessonRecord.minutesIn, cellTruthy_eq hstart, cellTruthy_eq hfinish]
  show _ = Except.ok ((knownTime (record.cells .classStart)).bind fun start =>
    (knownTime (record.cells .classEnd)).bind fun finish => some ((finish - start) / 60))
  cases hs : knownTime (record.cells .classStart) with
  | none => rfl
  | some start =>
      cases hf : knownTime (record.cells .classEnd) with
      | none => rfl
      | some finish =>
          obtain ⟨hs, -⟩ := Option.filter_eq_some_iff.mp hs
          obtain ⟨hf, -⟩ := Option.filter_eq_some_iff.mp hf
          simp only [exactMinutes, hs, hf]
          rfl

/-- The week of a row is the text of the Monday of its lesson. -/
theorem week_eq {record : LessonRecord}
    (hdate : ∀ date, record.date? = some date → ∃ day, isoDate date = .ok day) :
    record.date?.mapM (weekStart isoDate) = .ok ((record.time.monday? isoDate).map Date.isoformat) := by
  show _ = Except.ok ((record.date?.bind fun date => (isoDate date).toOption.bind fun day =>
    (day.addDays (-day.weekday)).toOption).map Date.isoformat)
  cases hset : record.date? with
  | none => rfl
  | some date =>
      obtain ⟨day, hday⟩ := hdate date hset
      obtain ⟨monday, hmonday, hweek⟩ := weekStart_eq hday
      rw [Option.mapM_some, hweek, Option.bind_some, hday]
      simp only [Except.toOption, Option.bind_some, hmonday]
      rfl

/-- The minutes and the week that a lesson counts for. -/
def LessonTime.taught? (isoDate : IsoDate) (lesson : LessonTime) : Option (ℚ × Option String) :=
  lesson.minutes?.map fun minutes => (minutes, (lesson.monday? isoDate).map Date.isoformat)

theorem taughtTimeIn_exact {record : LessonRecord} (hstart : NumberCell (record.cells .classStart))
    (hfinish : NumberCell (record.cells .classEnd))
    (hdate : ∀ date, record.date? = some date → ∃ day, isoDate date = .ok day) :
    taughtTimeIn exactMinutes isoDate record = .ok (record.time.taught? isoDate) := by
  rw [taughtTimeIn, minutesIn_exact hstart hfinish, LessonTime.taught?]
  cases record.time.minutes? with
  | none => rfl
  | some minutes =>
      show (record.date?.mapM (weekStart isoDate) >>= fun week => pure (some (minutes, week))) = _
      rw [week_eq hdate]
      rfl

theorem taughtLessonIn_isOk {record : LessonRecord} (hstart : NumberCell (record.cells .classStart))
    (hfinish : NumberCell (record.cells .classEnd)) :
    ∃ lesson, taughtLessonIn exactMinutes record = .ok lesson := by
  rw [taughtLessonIn, minutesIn_exact hstart hfinish]
  cases record.time.minutes? with
  | none => exact ⟨_, rfl⟩
  | some minutes => exact ⟨_, rfl⟩

end Row

/-! ### One teacher -/

/-- A sum over what is known of a list without duplicates. -/
theorem sum_filterMap {α M : Type} [DecidableEq α] [AddCommMonoid M] {entries : List α}
    (hnodup : entries.Nodup) (f : α → Option M) :
    (entries.filterMap f).sum = ∑ a ∈ entries.toFinset with (f a).isSome, (f a).getD 0 := by
  have hlist : entries.filterMap f = (entries.filter fun a => (f a).isSome).map fun a => (f a).getD 0 := by
    clear hnodup
    induction entries with
    | nil => rfl
    | cons a entries ih =>
        cases ha : f a with
        | none => rw [List.filterMap_cons_none ha, List.filter_cons_of_neg (by simp [ha]), ih]
        | some value =>
            rw [List.filterMap_cons_some ha, List.filter_cons_of_pos (by simp [ha]), List.map_cons, ih,
              ha, Option.getD_some]
  rw [hlist, ← List.sum_toFinset _ (hnodup.filter _), List.toFinset_filter]

section Teacher

variable {isoDate : IsoDate} {lessons : List LessonTime}

theorem sumMinutesIn_exact (minutes : List ℚ) : sumMinutesIn exactMinutes minutes = minutes.sum :=
  List.sum_eq_foldl.symm

theorem sum_minutes (isoDate : IsoDate) (hnodup : lessons.Nodup) :
    sumMinutesIn exactMinutes ((lessons.filterMap (LessonTime.taught? isoDate)).map Prod.fst) =
      totalMinutes lessons.toFinset := by
  have hmap : (lessons.filterMap (LessonTime.taught? isoDate)).map Prod.fst =
      lessons.filterMap LessonTime.minutes? := by
    rw [List.map_filterMap]
    refine List.filterMap_congr fun lesson _ => ?_
    rw [LessonTime.taught?, Option.map_map]
    exact Option.map_id'
  rw [hmap, sumMinutesIn_exact, sum_filterMap hnodup, totalMinutes]

/-- The minutes of the lessons with a week, by its Monday. -/
def datedMinutes (isoDate : IsoDate) (lessons : List LessonTime) : List (Date × ℚ) :=
  lessons.filterMap fun lesson => lesson.minutes?.bind fun minutes =>
    (lesson.monday? isoDate).map fun monday => (monday, minutes)

theorem toFinset_datedMinutes :
    ((datedMinutes isoDate lessons).map Prod.fst).toFinset = taughtWeeks isoDate lessons.toFinset := by
  ext monday
  simp only [datedMinutes, taughtWeeks, List.mem_toFinset, List.mem_map, List.mem_filterMap,
    Finset.mem_eraseNone, Finset.mem_image, Finset.mem_filter, Option.bind_eq_some_iff,
    Option.map_eq_some_iff, Option.isSome_iff_exists]
  constructor
  · rintro ⟨_, ⟨lesson, hlesson, minutes, hminutes, monday, hmonday, rfl⟩, rfl⟩
    exact ⟨lesson, ⟨hlesson, minutes, hminutes⟩, hmonday⟩
  · rintro ⟨lesson, ⟨hlesson, minutes, hminutes⟩, hmonday⟩
    exact ⟨(monday, minutes), ⟨lesson, hlesson, minutes, hminutes, monday, hmonday, rfl⟩, rfl⟩

theorem sum_datedMinutes (hnodup : lessons.Nodup) (monday : Date) :
    (((datedMinutes isoDate lessons).filter fun entry => entry.1 = monday).map Prod.snd).sum =
      totalMinutes (lessons.toFinset.filter fun lesson => lesson.monday? isoDate = some monday) := by
  have hmap : ((datedMinutes isoDate lessons).filter fun entry => entry.1 = monday).map Prod.snd =
      (lessons.filter fun lesson => lesson.monday? isoDate = some monday).filterMap
        LessonTime.minutes? := by
    rw [datedMinutes, List.filter_filterMap, List.map_filterMap, List.filterMap_filter]
    refine List.filterMap_congr fun lesson _ => ?_
    cases lesson.minutes? with
    | none => simp
    | some minutes =>
        cases hmonday : lesson.monday? isoDate with
        | none => simp
        | some other => by_cases heq : other = monday <;> simp [heq]
  rw [hmap, sum_filterMap (hnodup.filter _), List.toFinset_filter, totalMinutes]
  simp only [decide_eq_true_eq]

/-- The minutes by week are those of the last weeks, each rounded. -/
theorem weeklyMinutesIn_exact (isoDate : IsoDate) (hnodup : lessons.Nodup) :
    weeklyMinutesIn exactMinutes (lessons.filterMap (LessonTime.taught? isoDate)) =
      .ok ((lastWeeks 14 (taughtWeeks isoDate lessons.toFinset)).map fun monday =>
        (monday.isoformat, roundHalfEven (totalMinutes
          (lessons.toFinset.filter fun lesson => lesson.monday? isoDate = some monday)))) := by
  have hdated : (lessons.filterMap (LessonTime.taught? isoDate)).filterMap
      (fun time => time.2.map fun week => (week, time.1)) =
        (datedMinutes isoDate lessons).map fun entry => (entry.1.isoformat, entry.2) := by
    rw [datedMinutes, List.filterMap_filterMap, List.map_filterMap]
    refine List.filterMap_congr fun lesson _ => ?_
    rw [LessonTime.taught?]
    cases lesson.minutes? with
    | none => rfl
    | some minutes => cases lesson.monday? isoDate <;> rfl
  have hgroups : groupOn Prod.fst ((datedMinutes isoDate lessons).map fun entry =>
      (entry.1.isoformat, entry.2)) = (groupOn Prod.fst (datedMinutes isoDate lessons)).map fun group =>
        (group.1.isoformat, group.2.map fun entry => (entry.1.isoformat, entry.2)) := by
    rw [groupOn_map, groupOn_rename (fun _ _ => Date.isoformat_inj) Prod.fst, List.map_map]
    rfl
  have hsorted : ((groupOn Prod.fst ((datedMinutes isoDate lessons).map fun entry =>
      (entry.1.isoformat, entry.2))).mergeSort fun a b => a.1 ≤ b.1) =
        (taughtWeeks isoDate lessons.toFinset).sort.map fun monday => (monday.isoformat,
          ((datedMinutes isoDate lessons).filter fun entry => entry.1 = monday).map fun entry =>
            (entry.1.isoformat, entry.2)) := by
    rw [hgroups, ← toFinset_datedMinutes]
    calc _ = ((groupOn Prod.fst (datedMinutes isoDate lessons)).mergeSort fun a b =>
            decide (a.1 ≤ b.1)).map fun group =>
              (group.1.isoformat, group.2.map fun entry => (entry.1.isoformat, entry.2)) := by
          rw [eq_comm]
          apply List.map_mergeSort
          intro a _ b _
          exact decide_eq_decide.mpr Date.isoformat_le.symm
      _ = _ := by
          rw [mergeSort_groupOn, List.map_map]
          rfl
  rw [weeklyMinutesIn, hdated, hsorted, List.length_map, Finset.length_sort, ← List.map_drop]
  refine mapM_eq_ok.mpr (List.forall₂_map_left_iff.mpr (List.forall₂_map_right_iff.mpr
    (List.forall₂_same.mpr fun monday _ => ?_)))
  rw [← sum_datedMinutes hnodup, ← sumMinutesIn_exact]
  simp only [List.map_map]
  rfl

end Teacher

section Rows

variable {isoDate : IsoDate} {rows : List LessonRecord}

theorem TimedRows.subset {rows' : List LessonRecord} (h : TimedRows isoDate rows) (hsub : rows' ⊆ rows) :
    TimedRows isoDate rows' :=
  ⟨fun row hrow => h.start row (hsub hrow), fun row hrow => h.finish row (hsub hrow),
    fun row hrow => h.date row (hsub hrow)⟩

theorem teacherSummaryIn_of {μ : Type} {arith : MinuteArith μ} (p : Platform)
    (registry : List (Int × TeacherRow)) (uid : SqlValue) {times : List (Option (μ × Option String))}
    {minutes : Int} {weekly : List (String × Int)} {taught : List TaughtLesson}
    (htimes : (firstOfLessons rows).mapM (taughtTimeIn arith isoDate) = .ok times)
    (hminutes : arith.round (sumMinutesIn arith ((times.filterMap id).map Prod.fst)) = .ok minutes)
    (hweekly : weeklyMinutesIn arith (times.filterMap id) = .ok weekly)
    (htaught : (firstOfLessons rows).mapM (taughtLessonIn arith) = .ok taught) :
    teacherSummaryIn arith isoDate p registry uid rows = .ok
      { uid
        name := teacherName p (uid.toInt?.bind fun n => registry.lookup n) rows uid
        lessonCount := (firstOfLessons rows).length
        taughtMinutes := minutes
        attendanceRate := attendanceRate rows
        weeklyMinutes := weekly
        lessons := taught.mergeSort TaughtLesson.before } :=
  bind_eq_ok.mpr ⟨times, htimes, bind_eq_ok.mpr ⟨minutes, hminutes,
    bind_eq_ok.mpr ⟨weekly, hweekly, bind_eq_ok.mpr ⟨taught, htaught, rfl⟩⟩⟩⟩

theorem teacherSummaryIn_uid {μ : Type} {arith : MinuteArith μ} {p : Platform}
    {registry : List (Int × TeacherRow)} {uid : SqlValue} {s : TeacherSummary}
    (h : teacherSummaryIn arith isoDate p registry uid rows = .ok s) : s.uid = uid := by
  obtain ⟨times, -, h⟩ := bind_eq_ok.mp h
  obtain ⟨minutes, -, h⟩ := bind_eq_ok.mp h
  obtain ⟨weekly, -, h⟩ := bind_eq_ok.mp h
  obtain ⟨taught, -, h⟩ := bind_eq_ok.mp h
  rw [← pure_eq_ok.mp h]

/-- The rows of one teacher count every lesson of the set once. -/
theorem teacherSummaryIn_exact (htimed : TimedRows isoDate rows)
    (hagree : ∀ a ∈ rows, ∀ b ∈ rows, a.lessonId = b.lessonId → a.time = b.time) (p : Platform)
    (registry : List (Int × TeacherRow)) (uid : SqlValue) :
    ∃ s, teacherSummaryIn exactMinutes isoDate p registry uid rows = .ok s ∧
      s.figures = figuresOf isoDate (rows.map LessonRecord.time).toFinset := by
  have hids : ((firstOfLessons rows).map LessonRecord.time).map LessonTime.lessonId =
      (rows.map LessonRecord.lessonId).eraseDups := by
    rw [List.map_map]
    exact keys_firsts LessonRecord.lessonId rows
  have hnodup : ((firstOfLessons rows).map LessonRecord.time).Nodup := by
    apply List.Nodup.of_map LessonTime.lessonId
    rw [hids]
    exact nodup_eraseDups _
  have hset : ((firstOfLessons rows).map LessonRecord.time).toFinset =
      (rows.map LessonRecord.time).toFinset := toFinset_firsts hagree
  have hsub : firstOfLessons rows ⊆ rows := fun _ => mem_of_mem_firsts
  have hfirst := htimed.subset hsub
  have htimes : (firstOfLessons rows).mapM (taughtTimeIn exactMinutes isoDate) =
      .ok ((firstOfLessons rows).map fun row => row.time.taught? isoDate) := by
    refine mapM_eq_ok.mpr (List.forall₂_map_right_iff.mpr (List.forall₂_same.mpr fun row hrow => ?_))
    exact taughtTimeIn_exact (hfirst.start row hrow) (hfirst.finish row hrow) (hfirst.date row hrow)
  have hknown : ((firstOfLessons rows).map fun row => row.time.taught? isoDate).filterMap id =
      ((firstOfLessons rows).map LessonRecord.time).filterMap (LessonTime.taught? isoDate) := by
    rw [List.filterMap_map, List.filterMap_map]
    rfl
  obtain ⟨taught, htaught⟩ := mapM_isOk.mpr fun row hrow =>
    taughtLessonIn_isOk (hfirst.start row hrow) (hfirst.finish row hrow)
  have hweekly := weeklyMinutesIn_exact isoDate hnodup
  have hsum := sum_minutes isoDate hnodup
  rw [← hknown] at hweekly hsum
  rw [hset] at hweekly hsum
  refine ⟨_, teacherSummaryIn_of p registry uid htimes rfl hweekly htaught, ?_⟩
  have hcount : (firstOfLessons rows).length =
      ((rows.map LessonRecord.time).toFinset.image LessonTime.lessonId).card := by
    have himage : ((rows.map LessonRecord.time).toFinset.image LessonTime.lessonId) =
        (((firstOfLessons rows).map LessonRecord.time).map LessonTime.lessonId).toFinset := by
      rw [← hset]
      ext lessonId
      simp only [Finset.mem_image, List.mem_toFinset, List.mem_map]
    rw [himage, List.toFinset_card_of_nodup (hids ▸ nodup_eraseDups _), List.length_map,
      List.length_map]
  rw [figuresOf, ← hcount, ← hsum]
  rfl

/-- The teachers that rows name. -/
def teacherUids (rows : List LessonRecord) : List SqlValue :=
  ((rows.filter fun r => r.cells .teacherUid ≠ .null).map fun r => r.cells .teacherUid).eraseDups

theorem mem_teacherUids {uid : SqlValue} :
    uid ∈ teacherUids rows ↔ uid ≠ .null ∧ ∃ row ∈ rows, row.cells .teacherUid = uid := by
  rw [teacherUids, List.mem_eraseDups, List.mem_map]
  constructor
  · rintro ⟨row, hrow, rfl⟩
    obtain ⟨hrow, hnull⟩ := List.mem_filter.mp hrow
    exact ⟨of_decide_eq_true hnull, row, hrow, rfl⟩
  · rintro ⟨hnull, row, hrow, rfl⟩
    exact ⟨row, List.mem_filter.mpr ⟨hrow, decide_eq_true hnull⟩, rfl⟩

/-- The entries of a summary, in the order of the teachers' first rows. -/
theorem teachersSummaryIn_exact (htimed : TimedRows isoDate rows) (hagree : TimesAgree rows) (p : Platform)
    (registry : List (Int × TeacherRow)) :
    ∃ out : List TeacherSummary, teachersSummaryIn exactMinutes isoDate p registry rows =
        .ok (out.mergeSort fun a b => b.taughtMinutes ≤ a.taughtMinutes) ∧
      out.map TeacherSummary.uid = teacherUids rows ∧
      ∀ s ∈ out, s.figures = figuresOf isoDate (taughtLessons rows s.uid) := by
  have hgroup : ∀ group ∈ groupOn (fun r : LessonRecord => r.cells .teacherUid)
        (rows.filter fun r => r.cells .teacherUid ≠ .null),
      ∃ s, teacherSummaryIn exactMinutes isoDate p registry group.1 group.2 = .ok s ∧
        s.figures = figuresOf isoDate (taughtLessons rows s.uid) := by
    intro group hgroup
    have hsub := List.Subset.trans (mem_rows_of_mem_groupOn hgroup) (List.filter_subset_self rows)
    obtain ⟨uid, huid, rfl⟩ := List.mem_map.mp hgroup
    have hnull := (mem_teacherUids.mp huid).1
    have hrows : (rows.filter fun r => r.cells .teacherUid ≠ .null).filter
        (fun r => r.cells .teacherUid = uid) = rows.filter fun r => r.cells .teacherUid = uid := by
      rw [List.filter_filter]
      refine List.filter_congr fun row _ => ?_
      by_cases huid : row.cells .teacherUid = uid <;> simp [huid, hnull]
    have hsame {row : LessonRecord} (hrow : row ∈ (rows.filter fun r => r.cells .teacherUid ≠ .null).filter
        (fun r => r.cells .teacherUid = uid)) : row.cells .teacherUid = uid :=
      of_decide_eq_true (List.mem_filter.mp hrow).2
    obtain ⟨s, hs, hfigures⟩ := teacherSummaryIn_exact (htimed.subset hsub)
      (fun a ha b hb => hagree a (hsub ha) b (hsub hb) ((hsame ha).trans (hsame hb).symm)) p registry uid
    refine ⟨s, hs, ?_⟩
    rw [taughtLessons, teacherSummaryIn_uid hs, ← hrows]
    exact hfigures
  obtain ⟨out, hout⟩ := mapM_isOk.mpr fun group h => (hgroup group h).imp fun s hs => hs.1
  refine ⟨out, bind_eq_ok.mpr ⟨out, hout, rfl⟩, ?_, ?_⟩
  · rw [teacherUids, ← keys_groupOn]
    exact mapM_frame (fun _ _ => teacherSummaryIn_uid) hout
  · intro s hs
    obtain ⟨group, hmem, hfound⟩ := exists_of_mem_mapM hout hs
    obtain ⟨s', hs', hfigures⟩ := hgroup group hmem
    rw [hfound] at hs'
    cases hs'
    exact hfigures

theorem taughtLessons_perm {rows' : List LessonRecord} (h : rows.Perm rows') (uid : SqlValue) :
    taughtLessons rows uid = taughtLessons rows' uid :=
  List.toFinset_eq_of_perm _ _ ((h.filter _).map _)

theorem teacherUids_perm {rows' : List LessonRecord} (h : rows.Perm rows') :
    (teacherUids rows).Perm (teacherUids rows') := by
  apply (List.perm_ext_iff_of_nodup (nodup_eraseDups _) (nodup_eraseDups _)).mpr
  intro uid
  show uid ∈ teacherUids rows ↔ uid ∈ teacherUids rows'
  simp only [mem_teacherUids, h.mem_iff]

theorem map_figures {out : List TeacherSummary}
    (h : ∀ s ∈ out, s.figures = figuresOf isoDate (taughtLessons rows s.uid)) :
    out.map (fun s => (s.uid, s.figures)) = (out.map TeacherSummary.uid).map fun uid =>
      (uid, figuresOf isoDate (taughtLessons rows uid)) := by
  rw [List.map_map]
  exact List.map_congr_left fun s hs => congrArg (Prod.mk s.uid) (h s hs)

end Rows

/-- Every teacher has one entry, its figures count every lesson once, and the order of the rows does
not matter. -/
theorem teacherMinutes_exact {isoDate : IsoDate} {rows : List LessonRecord}
    (htimed : TimedRows isoDate rows) (hagree : TimesAgree rows) (p : Platform)
    (registry : List (Int × TeacherRow)) :
    ∃ summaries, teachersSummaryIn exactMinutes isoDate p registry rows = .ok summaries ∧
      (summaries.map TeacherSummary.uid).Nodup ∧
      (∀ uid, uid ∈ summaries.map TeacherSummary.uid ↔
        uid ≠ .null ∧ ∃ row ∈ rows, row.cells .teacherUid = uid) ∧
      (∀ s ∈ summaries, s.figures = figuresOf isoDate (taughtLessons rows s.uid)) ∧
      ∀ rows', rows.Perm rows' → ∃ summaries',
        teachersSummaryIn exactMinutes isoDate p registry rows' = .ok summaries' ∧
          (summaries.map fun s => (s.uid, s.figures)).Perm (summaries'.map fun s => (s.uid, s.figures)) := by
  obtain ⟨out, hout, huids, hfigures⟩ := teachersSummaryIn_exact htimed hagree p registry
  have hperm := List.mergeSort_perm out fun a b => b.taughtMinutes ≤ a.taughtMinutes
  refine ⟨_, hout, ?_, fun uid => ?_, fun s hs => hfigures s (hperm.mem_iff.mp hs), fun rows' hrows => ?_⟩
  · rw [(hperm.map _).nodup_iff, huids]
    exact nodup_eraseDups _
  · rw [(hperm.map _).mem_iff, huids]
    exact mem_teacherUids
  · have hagree' : TimesAgree rows' := fun a ha b hb =>
      hagree a (hrows.mem_iff.mpr ha) b (hrows.mem_iff.mpr hb)
    obtain ⟨out', hout', huids', hfigures'⟩ := teachersSummaryIn_exact
      (htimed.subset fun _ => hrows.mem_iff.mpr) hagree' p registry
    have hperm' := List.mergeSort_perm out' fun a b => b.taughtMinutes ≤ a.taughtMinutes
    have hsame : taughtLessons rows' = taughtLessons rows :=
      funext fun uid => (taughtLessons_perm hrows uid).symm
    refine ⟨_, hout', (hperm.map _).trans (List.Perm.trans ?_ (hperm'.map _).symm)⟩
    rw [map_figures hfigures, map_figures hfigures', huids, huids', hsame]
    exact (teacherUids_perm hrows).map _

/-- Three rows of two lessons that last an hour and a quarter of an hour. -/
def taughtRows : List LessonRecord :=
  let row (lessonId : String) (student start finish : Int) : LessonRecord :=
    ⟨lessonId, student, fun c => match c with
      | .teacherUid => .int 90001
      | .classStart => .int start
      | .classEnd => .int finish
      | .lessonDate => .text "2026-05-06T00:00:00+00:00"
      | _ => .null⟩
  [row "1" 10001 60 3660, row "1" 10002 60 3660, row "2" 10001 60 960]

example : figuresOf (fun _ => .ok ⟨739742, by decide, by decide⟩) (taughtLessons taughtRows (.int 90001)) =
    ⟨2, 75, [("2026-05-04", 75)]⟩ := by decide +kernel

theorem teacherMinutes_exact_taughtRows :
    ∃ summaries, teachersSummaryIn exactMinutes (fun _ => .ok ⟨739742, by decide, by decide⟩) .plain []
        taughtRows = .ok summaries ∧
      (summaries.map TeacherSummary.uid).Nodup ∧
      (∀ uid, uid ∈ summaries.map TeacherSummary.uid ↔
        uid ≠ .null ∧ ∃ row ∈ taughtRows, row.cells .teacherUid = uid) ∧
      (∀ s ∈ summaries, s.figures =
        figuresOf (fun _ => .ok ⟨739742, by decide, by decide⟩) (taughtLessons taughtRows s.uid)) ∧
      ∀ rows', taughtRows.Perm rows' → ∃ summaries',
        teachersSummaryIn exactMinutes (fun _ => .ok ⟨739742, by decide, by decide⟩) .plain []
            rows' = .ok summaries' ∧
          (summaries.map fun s => (s.uid, s.figures)).Perm (summaries'.map fun s => (s.uid, s.figures)) :=
  teacherMinutes_exact ⟨by simp [taughtRows, NumberCell, cellRat], by simp [taughtRows, NumberCell, cellRat],
    fun _ _ _ _ => ⟨_, rfl⟩⟩ (by unfold TimesAgree; decide) .plain []

/-! ### The rows of the store -/

/-- All times are numbers. -/
def Store.NumberTimes (store : Store) : Prop :=
  (∀ key, NumberCell (cellAt store.records key .classStart)) ∧
    ∀ key, NumberCell (cellAt store.records key .classEnd)

section Stored

variable {p : Platform} {store : Store}

theorem numberCell_bind {n : Option Int} {cell : SqlValue}
    (h : p.bindInteger (PyValue.ofInt? n) = .ok cell) : NumberCell cell := by
  obtain ⟨bound, hbound, rfl⟩ := map_eq_ok.mp h
  cases n with
  | none =>
      cases hbound
      exact .inl rfl
  | some n =>
      rw [PyValue.ofInt?, SqlValue.bind] at hbound
      split at hbound
      · cases hbound
        exact .inr ⟨n, rfl⟩
      · cases hbound

/-- The times that one event writes. -/
theorem numberCell_patch {c : Column} (hc : c = .classStart ∨ c = .classEnd) {event : Event}
    {change : RecordPatch} (h : change ∈ event.patches p) {cell : SqlValue}
    (hcell : change.2.lookup c = some cell) : NumberCell cell := by
  obtain ⟨uid, fields, hmem, rfl⟩ := mem_patches p h
  obtain ⟨value, hvalue, hbind⟩ := lookup_bound p hcell
  have hset := setBy_of_mem p hmem
  have hother : c ≠ .courseId := by rcases hc with rfl | rfl <;> decide
  have hkind := (hset.columns.1 _ (Table.mem_of_lookup hvalue)).resolve_left hother
  cases hset with
  | attendance _ _ _ set =>
      obtain ⟨_, _, set⟩ := bind_eq_ok.mp set
      obtain ⟨_, _, set⟩ := bind_eq_ok.mp set
      cases set
      rcases hc with rfl | rfl <;> cases hvalue <;> exact numberCell_bind hbind
  | «end» _ _ _ => rcases hc with rfl | rfl <;> cases hkind
  | homeworkSubmit _ _ => rcases hc with rfl | rfl <;> cases hkind
  | homeworkScore _ => rcases hc with rfl | rfl <;> cases hkind

theorem numberTimes_run {ops : List Op} (hops : ∀ op ∈ ops, op.sparesRecords) (h : store.NumberTimes) :
    (store.runOps p ops).NumberTimes :=
  ⟨cells_run (fun _ _ hchange _ => numberCell_patch (.inl rfl) hchange) hops h.1,
    cells_run (fun _ _ hchange _ => numberCell_patch (.inr rfl) hchange) hops h.2⟩

theorem timedRows_windowRecords {isoDate : IsoDate} (hreads : ReadsDates isoDate) (hdates : store.IsoDates)
    (htimes : store.NumberTimes) (scope : Scope) (since : String) :
    TimedRows isoDate (windowRecords store scope since) := by
  have hcell {row : LessonRecord} (hrow : row ∈ windowRecords store scope since) (c : Column) :
      row.cells c = cellAt store.records (row.lessonId, row.studentUid) c := by
    rw [cellAt, Store.records, (mem_lessonRecords.mp hrow).1]
    rfl
  refine ⟨fun row hrow => ?_, fun row hrow => ?_, fun row hrow date hdate => ?_⟩
  · rw [hcell hrow]
    exact htimes.1 _
  · rw [hcell hrow]
    exact htimes.2 _
  · rw [LessonRecord.date?, hcell hrow] at hdate
    rcases hdates (row.lessonId, row.studentUid) with hnull | ⟨ts, -, s, hs, hcell⟩
    · rw [hnull] at hdate
      cases hdate
    · rw [hcell] at hdate
      obtain ⟨heq, -⟩ := Option.filter_eq_some_iff.mp hdate
      obtain rfl := Option.some.inj heq
      exact hreads ts _ hs

end Stored

end ClassinDashboard

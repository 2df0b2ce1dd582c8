import ClassinDashboard.LessonDates
import ClassinDashboard.MissingCounts
import ClassinDashboard.PyIsoRead
import Mathlib.Data.Prod.Lex
import Mathlib.Data.String.Basic

/-!
The overview and the list of students, which group and count the same rows each for itself. Grouping
loses no row and counts none twice, both return on the same stores, and what the overview counts is
what the list shows.
-/

namespace ClassinDashboard

open Py Sql

/-! ### When the figures have a value -/

/-- All known scores are numbers. -/
def Scored (rows : List LessonRecord) : Prop := ∀ cell ∈ scores rows, ∃ x, cellFloat cell = .ok x

theorem averageOf_isOk {cells : List SqlValue} :
    (∃ average, averageOf cells = .ok average) ↔ ∀ cell ∈ cells, ∃ x, cellFloat cell = .ok x := by
  have hstep (total : PyFloat) (cell : SqlValue) :
      (∃ sum, (cellFloat cell).map total.add = .ok sum) ↔ ∃ x, cellFloat cell = .ok x := map_isOk
  have hsum : (∃ total, sumCells cells = .ok total) ↔ ∀ cell ∈ cells, ∃ x, cellFloat cell = .ok x :=
    foldlM_isOk hstep
  rw [averageOf]
  cases cells with
  | nil => exact iff_of_true ⟨none, rfl⟩ fun _ h => absurd h List.not_mem_nil
  | cons cell cells =>
      rw [List.isEmpty_cons, if_neg Bool.false_ne_true, map_isOk, hsum]

theorem studentMetrics_isOk {rows : List LessonRecord} :
    (∃ metrics, studentMetrics rows = .ok metrics) ↔ Scored rows := by
  rw [studentMetrics, map_isOk, averageOf_isOk, Scored]

theorem Scored.subset {rows rows' : List LessonRecord} (h : Scored rows) (hsub : rows' ⊆ rows) :
    Scored rows' := by
  intro cell hcell
  obtain ⟨hmem, hne⟩ := List.mem_filter.mp hcell
  obtain ⟨row, hrow, rfl⟩ := List.mem_map.mp hmem
  exact h _ (List.mem_filter.mpr ⟨List.mem_map_of_mem (hsub hrow), hne⟩)

/-- The figures of all students have values exactly if all scores are numbers. -/
theorem perStudent_scored {rows : List LessonRecord} :
    (∀ group ∈ perStudent rows, ∃ metrics, studentMetrics group.2 = .ok metrics) ↔ Scored rows := by
  simp only [studentMetrics_isOk]
  constructor
  · intro h cell hcell
    obtain ⟨hmem, hne⟩ := List.mem_filter.mp hcell
    obtain ⟨row, hrow, rfl⟩ := List.mem_map.mp hmem
    have hkey : row.studentUid ∈ (perStudent rows).map Prod.fst :=
      mem_keys_groupOn.mpr ⟨row, hrow, rfl⟩
    obtain ⟨group, hgroup, hfst⟩ := List.mem_map.mp hkey
    have hin : row ∈ group.2 := by
      rw [mem_perStudent hgroup]
      exact List.mem_filter.mpr ⟨hrow, decide_eq_true hfst.symm⟩
    exact h group hgroup _ (List.mem_filter.mpr ⟨List.mem_map_of_mem hin, hne⟩)
  · exact fun h group hgroup => h.subset (mem_rows_of_mem_groupOn hgroup)

/-! ### Weeks -/

/-- A start as an ingest stores it can be read back as a date. -/
def ReadsDates (isoDate : IsoDate) : Prop :=
  ∀ ts s, utcIsoformat ts = .ok s → ∃ day, isoDate s = .ok day

section Weeks

variable {isoDate : IsoDate} {rows : List LessonRecord}

/-- The Monday of a date is a date. -/
theorem monday_isOk (day : Date) : ∃ monday, day.addDays (-day.weekday) = .ok monday := by
  have hpos := day.pos
  have hmax := day.le_max
  have hrange : 0 < (day.ordinal : Int) + -(day.weekday : Int) ∧
      (day.ordinal : Int) + -(day.weekday : Int) ≤ maxOrdinal := by
    rw [Date.weekday]
    omega
  rw [Date.addDays, Date.ofOrdinal?, dif_pos hrange]
  exact ⟨_, rfl⟩

theorem weekStart_eq {date : String} {day : Date} (h : isoDate date = .ok day) :
    ∃ monday, day.addDays (-day.weekday) = .ok monday ∧ weekStart isoDate date = .ok monday.isoformat := by
  obtain ⟨monday, hmonday⟩ := monday_isOk day
  refine ⟨monday, hmonday, ?_⟩
  rw [weekStart, h]
  exact bind_eq_ok.mpr ⟨day, rfl, bind_eq_ok.mpr ⟨monday, hmonday, rfl⟩⟩

theorem weekStart_isOk {date : String} {day : Date} (h : isoDate date = .ok day) :
    ∃ week, weekStart isoDate date = .ok week := by
  obtain ⟨monday, -, hweek⟩ := weekStart_eq h
  exact ⟨_, hweek⟩

/-- Rows with dates that can be read. -/
def Dated (isoDate : IsoDate) (rows : List LessonRecord) : Prop :=
  ∀ row ∈ rows, ∃ date, row.date? = some date ∧ ∃ week, weekStart isoDate date = .ok week

theorem Dated.filter (h : Dated isoDate rows) : rows.filter (fun r => r.date?.isSome) = rows := by
  rw [List.filter_eq_self]
  intro row hrow
  obtain ⟨date, hdate, -⟩ := h row hrow
  rw [hdate]
  rfl

/-- The rows with their weeks. -/
theorem Dated.weeks (h : Dated isoDate rows) : ∃ weeks, rows.mapM (fun r =>
      (weekStart isoDate (r.date?.getD "")).map fun week => (week, r)) = .ok weeks ∧
    weeks.map Prod.snd = rows := by
  have hok : ∃ weeks, rows.mapM (fun r =>
      (weekStart isoDate (r.date?.getD "")).map fun week => (week, r)) = .ok weeks := by
    refine mapM_isOk.mpr fun row hrow => map_isOk.mpr ?_
    obtain ⟨date, hdate, hweek⟩ := h row hrow
    rw [hdate]
    exact hweek
  obtain ⟨weeks, hweeks⟩ := hok
  refine ⟨weeks, hweeks, ?_⟩
  have hframe : weeks.map Prod.snd = rows.map id := mapM_frame (fun row pair hpair => by
    obtain ⟨week, -, rfl⟩ := map_eq_ok.mp hpair
    rfl) hweeks
  rw [hframe, List.map_id]

/-- The weeks of the rows, each once. -/
def recordWeeks (isoDate : IsoDate) (rows : List LessonRecord) : List String :=
  (rows.filterMap fun r => (weekStart isoDate (r.date?.getD "")).toOption).eraseDups

theorem recordWeeks_eq {weeks : List (String × LessonRecord)} (h : rows.mapM (fun r =>
    (weekStart isoDate (r.date?.getD "")).map fun week => (week, r)) = .ok weeks) :
    recordWeeks isoDate rows = (weeks.map Prod.fst).eraseDups := by
  have hframe : weeks.map (fun pair => some pair.1) =
      rows.map fun r => (weekStart isoDate (r.date?.getD "")).toOption :=
    mapM_frame (fun row pair hpair => by
      obtain ⟨week, hweek, rfl⟩ := map_eq_ok.mp hpair
      rw [hweek]
      rfl) h
  have hkeys : rows.filterMap (fun r => (weekStart isoDate (r.date?.getD "")).toOption) =
      weeks.map Prod.fst := by
    calc rows.filterMap (fun r => (weekStart isoDate (r.date?.getD "")).toOption)
        = (rows.map fun r => (weekStart isoDate (r.date?.getD "")).toOption).filterMap id := by
          rw [List.filterMap_map]
          rfl
      _ = (weeks.map fun pair => some pair.1).filterMap id := by rw [hframe]
      _ = weeks.map Prod.fst := by
          rw [List.filterMap_map, ← List.filterMap_eq_map]
          rfl
  rw [recordWeeks, hkeys]

/-- The buckets hold rows of the list, and all of them when there are no more weeks than buckets. -/
theorem byWeek_spec (h : Dated isoDate rows) (buckets : Nat) :
    ∃ groups, byWeek isoDate rows buckets = .ok groups ∧ (∀ group ∈ groups, group.2 ⊆ rows) ∧
      ((recordWeeks isoDate rows).length ≤ buckets →
        (groups.map fun group => group.2.length).sum = rows.length) := by
  obtain ⟨weeks, hweeks, hrows⟩ := h.weeks
  rw [recordWeeks_eq hweeks, ← keys_groupOn, List.length_map]
  have hperm := List.mergeSort_perm (groupOn Prod.fst weeks) fun a b => a.1 ≤ b.1
  refine ⟨_, by rw [byWeek, h.filter, hweeks]; rfl, ?_, ?_⟩
  · intro group hgroup
    obtain ⟨entries, hentries, rfl⟩ := List.mem_map.mp hgroup
    have hmem := hperm.mem_iff.mp (List.mem_of_mem_drop hentries)
    rw [← hrows]
    exact List.map_subset Prod.snd (mem_rows_of_mem_groupOn hmem)
  · intro hfew
    have hall : (groupOn Prod.fst weeks).length - buckets = 0 := by omega
    rw [hperm.length_eq, hall, List.drop_zero, List.map_map]
    calc ((List.mergeSort (groupOn Prod.fst weeks) fun a b => a.1 ≤ b.1).map
          fun group => (group.2.map Prod.snd).length).sum
        = ((groupOn Prod.fst weeks).map fun group => (group.2.map Prod.snd).length).sum :=
          (hperm.map _).sum_eq
      _ = ((groupOn Prod.fst weeks).map fun group => group.2.length).sum := by
          simp only [List.length_map]
      _ = weeks.length := sum_length_groupOn Prod.fst weeks
      _ = rows.length := by rw [← hrows, List.length_map]

/-- No row is present, late and absent at once. -/
theorem countAttendance_le (rows : List LessonRecord) :
    countAttendance rows present + countAttendance rows late + countAttendance rows absent ≤
      rows.length := by
  induction rows with
  | nil => exact Nat.le_refl _
  | cons row rows ih =>
      have hone : (if row.cells .attendance = present then 1 else 0) +
          (if row.cells .attendance = late then 1 else 0) +
          (if row.cells .attendance = absent then 1 else 0) ≤ 1 := by
        by_cases hpresent : row.cells .attendance = present
        · rw [hpresent]
          decide
        · by_cases hlate : row.cells .attendance = late
          · rw [hlate]
            decide
          · rw [if_neg hpresent, if_neg hlate]
            split <;> omega
      simp only [countAttendance, List.countP_cons, decide_eq_true_eq, List.length_cons] at ih ⊢
      omega

/-- The attendance trend of dated rows. -/
theorem attendanceTrend_spec (h : Dated isoDate rows) :
    ∃ trend, weeklyAttendanceTrend isoDate rows = .ok trend ∧
      (∀ week ∈ trend, week.present + week.late + week.absent ≤ week.total) ∧
      ((recordWeeks isoDate rows).length ≤ 14 → (trend.map WeekAttendance.total).sum = rows.length) := by
  obtain ⟨groups, hgroups, -, htotal⟩ := byWeek_spec h 14
  refine ⟨_, map_eq_ok.mpr ⟨groups, hgroups, rfl⟩, ?_, ?_⟩
  · intro week hweek
    obtain ⟨group, -, rfl⟩ := List.mem_map.mp hweek
    exact countAttendance_le group.2
  · intro hfew
    rw [List.map_map, ← htotal hfew]
    rfl

/-- The score trend returns where the scores are numbers. -/
theorem scoreTrend_isOk (h : Dated isoDate rows) (hscored : Scored rows) :
    ∃ trend, weeklyScoreTrend isoDate rows = .ok trend := by
  have hsub : rows.filter (fun r => r.cells .homeworkScore ≠ .null) ⊆ rows := List.filter_subset_self rows
  have hdated : Dated isoDate (rows.filter fun r => r.cells .homeworkScore ≠ .null) :=
    fun row hrow => h row (hsub hrow)
  obtain ⟨groups, hgroups, hmem, -⟩ := byWeek_spec hdated 14
  have haverages : ∃ trend, groups.mapM (fun group =>
      (averageOf (scores group.2)).map fun avgScore => (⟨group.1, avgScore, group.2.length⟩ : WeekScore)) =
        .ok trend :=
    mapM_isOk.mpr fun group hgroup => map_isOk.mpr
      (averageOf_isOk.mpr ((hscored.subset hsub).subset (hmem group hgroup)))
  obtain ⟨trend, htrend⟩ := haverages
  exact ⟨trend, bind_eq_ok.mpr ⟨groups, hgroups, htrend⟩⟩

/-- The rows of a window are dated. -/
theorem dated_windowRecords {store : Store} {scope : Scope} {cutoff : DateTime}
    (hdates : store.IsoDates) (hreads : ReadsDates isoDate) :
    Dated isoDate (windowRecords store scope (cutoff.isoformat "T" "+00:00")) := by
  intro row hrow
  obtain ⟨hfind, hmatches, -⟩ := mem_lessonRecords.mp hrow
  have hsince := (matches_since_iff (isoformat_ne_empty cutoff)).mp hmatches
  have hcell : IsoCell (row.cells .lessonDate) := by
    have hcell := hdates (row.lessonId, row.studentUid)
    rw [cellAt, Store.records, hfind] at hcell
    exact hcell
  rcases hcell with hnull | ⟨ts, -, s, hs, hcell⟩
  · rw [hnull] at hsince
    cases hsince
  · obtain ⟨t, -, rfl⟩ := DateTime.utcIsoformat_eq_ok.mp hs
    obtain ⟨day, hday⟩ := hreads ts _ hs
    refine ⟨_, ?_, weekStart_isOk hday⟩
    rw [LessonRecord.date?, hcell]
    exact Option.filter_eq_some_iff.mpr ⟨rfl, decide_eq_true (isoformat_ne_empty t)⟩

end Weeks

/-! ### The order of the list -/

/-- A rate is an ordinary number. -/
theorem attendanceRate_finite (rows : List LessonRecord) :
    ∃ q, (attendanceRate rows).getD (.fin 1) = .fin q := by
  unfold attendanceRate
  simp only
  generalize countAttendance rows present + countAttendance rows late = ok
  generalize countAttendance rows absent = missed
  split
  · exact ⟨1, rfl⟩
  · rename_i hknown
    have hpos : (0 : ℚ) < ((ok + missed : Nat) : ℚ) := by exact_mod_cast Nat.pos_of_ne_zero hknown
    have hlow : (0 : ℚ) ≤ (ok : ℚ) / ((ok + missed : Nat) : ℚ) := by positivity
    have hhigh : (ok : ℚ) / ((ok + missed : Nat) : ℚ) ≤ 1 := by
      rw [div_le_one hpos]
      exact_mod_cast Nat.le_add_right ok missed
    have hbig : (3 : ℚ) < 2 ^ 53 := by norm_num
    obtain ⟨x, hx, hnear⟩ := PyFloat.ofRat_near (q := (ok : ℚ) / ((ok + missed : Nat) : ℚ))
      (by rw [abs_of_nonneg hlow]; linarith)
    obtain ⟨hxlow, hxhigh⟩ := abs_le.mp hnear
    obtain ⟨hrlow, hrhigh⟩ := abs_le.mp (PyFloat.roundHalfEven_near (x * 10 ^ 3))
    have hsmall : |(roundHalfEven (x * 10 ^ 3) : ℚ) / 10 ^ 3| < 2 ^ 53 := by
      rw [abs_lt, lt_div_iff₀ (by norm_num), div_lt_iff₀ (by norm_num)]
      constructor <;> linarith
    obtain ⟨y, hy, -⟩ := PyFloat.ofRat_near hsmall
    rw [Option.getD_some, hx, PyFloat.roundTo, hy]
    exact ⟨y, rfl⟩

/-- A finite double. -/
def finite : PyFloat → ℚ
  | .fin q => q
  | .inf _ | .nan => 0

/-- The rate the list is ordered by: an unknown one counts as 1. -/
def StudentSummary.rate (s : StudentSummary) : PyFloat := s.metrics.attendanceRate.getD (.fin 1)

/-- The sort key of the source: `(rank, -homework_missing, rate, name)`. -/
def StudentSummary.key (s : StudentSummary) : ℕ ×ₗ ℤ ×ₗ ℚ ×ₗ String :=
  toLex (s.metrics.riskLevel.rank, toLex (-(s.metrics.homeworkMissing : ℤ), toLex (finite s.rate, s.name)))

theorem rank_inj {a b : RiskLevel} : a.rank = b.rank ↔ a = b := by
  cases a <;> cases b <;> decide

theorem before_eq {a b : StudentSummary} (ha : ∃ q, a.rate = .fin q) (hb : ∃ q, b.rate = .fin q) :
    a.before b = decide (a.key ≤ b.key) := by
  obtain ⟨x, hx⟩ := ha
  obtain ⟨y, hy⟩ := hb
  rw [Bool.eq_iff_iff, decide_eq_true_iff]
  unfold StudentSummary.before StudentSummary.key
  simp only [StudentSummary.rate] at hx hy
  simp only [Prod.Lex.toLex_le_toLex', StudentSummary.rate, hx, hy, rank_inj, finite]
  by_cases hrisk : a.metrics.riskLevel = b.metrics.riskLevel
  · rw [if_neg (not_not_intro hrisk), hrisk]
    by_cases hmissing : a.metrics.homeworkMissing = b.metrics.homeworkMissing
    · rw [if_neg (not_not_intro hmissing), hmissing]
      by_cases hrate : x = y
      · subst hrate
        simp
      · have hne : PyFloat.fin x ≠ .fin y := fun h => hrate (PyFloat.fin.inj h)
        rw [if_pos hne, PyFloat.lt, decide_eq_true_iff]
        simp only [le_refl, true_and, forall_const, hrate, false_implies, and_true]
        exact ⟨le_of_lt, fun h => lt_of_le_of_ne h hrate⟩
    · rw [if_pos hmissing, decide_eq_true_iff]
      simp only [le_refl, true_and, forall_const, neg_inj, Nat.cast_inj, hmissing, false_implies, and_true]
      omega
  · rw [if_pos hrisk, decide_eq_true_iff]
    simp only [hrisk, false_implies, and_true]

theorem order_of_key_le {a b : StudentSummary} (ha : ∃ q, a.rate = .fin q) (hb : ∃ q, b.rate = .fin q)
    (h : a.key ≤ b.key) : a.metrics.riskLevel.rank < b.metrics.riskLevel.rank ∨
      a.metrics.riskLevel = b.metrics.riskLevel ∧
        (b.metrics.homeworkMissing < a.metrics.homeworkMissing ∨
          a.metrics.homeworkMissing = b.metrics.homeworkMissing ∧ b.rate.lt a.rate = false) := by
  obtain ⟨x, hx⟩ := ha
  obtain ⟨y, hy⟩ := hb
  unfold StudentSummary.key at h
  simp only [Prod.Lex.toLex_le_toLex, hx, hy, finite, rank_inj] at h
  rcases h with hrisk | ⟨hrisk, hmissing | ⟨hmissing, hrate | ⟨hrate, -⟩⟩⟩
  · exact .inl hrisk
  · exact .inr ⟨hrisk, .inl (by omega)⟩
  · exact .inr ⟨hrisk, .inr ⟨by omega, by rw [hx, hy]; exact decide_eq_false hrate.not_gt⟩⟩
  · exact .inr ⟨hrisk, .inr ⟨by omega, by rw [hx, hy]; exact decide_eq_false hrate.not_gt⟩⟩

/-- A list of students is in the order of its keys. -/
theorem pairwise_key {summaries : List StudentSummary}
    (h : ∀ s ∈ summaries, ∃ q, s.rate = .fin q) :
    (summaries.mergeSort StudentSummary.before).Pairwise fun a b => a.key ≤ b.key := by
  have hsame : summaries.mergeSort StudentSummary.before =
      summaries.mergeSort fun a b => decide (a.key ≤ b.key) := by
    have hmap := List.map_mergeSort (f := id) (s := fun a b : StudentSummary => decide (a.key ≤ b.key))
      fun a ha b hb => before_eq (h a ha) (h b hb)
    rwa [List.map_id, List.map_id] at hmap
  rw [hsame]
  refine (List.pairwise_mergeSort (fun a b c hab hbc => ?_) (fun a b => ?_) summaries).imp of_decide_eq_true
  · exact decide_eq_true ((of_decide_eq_true hab).trans (of_decide_eq_true hbc))
  · rw [Bool.or_eq_true, decide_eq_true_iff, decide_eq_true_iff]
    exact le_total _ _

/-! ### One story -/

/-- What the overview says of the rows of a window, and what the list of students says. -/
structure SameStory (isoDate : IsoDate) (rows : List LessonRecord) (overview : Overview)
    (list : List StudentSummary) : Prop where
  listed : (list.map StudentSummary.uid).Nodup ∧
    ∀ uid, uid ∈ list.map StudentSummary.uid ↔ ∃ record ∈ rows, record.studentUid = uid
  studentCount : overview.studentCount = list.length
  riskCounts : ∀ level, overview.riskCounts level = list.countP fun s => s.metrics.riskLevel = level
  homeworkMissing : overview.homeworkMissing = (list.map fun s => s.metrics.homeworkMissing).sum
  /-- By risk, then the most missing homework, then the lowest rate. -/
  ordered : list.Pairwise fun a b =>
    a.metrics.riskLevel.rank < b.metrics.riskLevel.rank ∨
      a.metrics.riskLevel = b.metrics.riskLevel ∧
        (b.metrics.homeworkMissing < a.metrics.homeworkMissing ∨
          a.metrics.homeworkMissing = b.metrics.homeworkMissing ∧ b.rate.lt a.rate = false)
  totals : (recordWeeks isoDate rows).length ≤ 14 →
    (overview.attendanceTrend.map WeekAttendance.total).sum = rows.length
  weeks : ∀ week ∈ overview.attendanceTrend, week.present + week.late + week.absent ≤ week.total

section Story

variable {isoDate : IsoDate} {store : Store} {scope : Scope} {since : String}

/-- One line of the list. -/
def summaryOf (names : List (Int × StudentRow)) (group : Int × List LessonRecord) :
    Except PyError StudentSummary :=
  (studentMetrics group.2).map fun metrics =>
    ⟨group.1, displayName (names.lookup group.1) group.1, courseNames group.2, metrics⟩

theorem studentsSummary_eq_ok {list : List StudentSummary} :
    studentsSummary store scope since = .ok list ↔ ∃ out,
      (perStudent (windowRecords store scope since)).mapM (summaryOf (students store scope)) = .ok out ∧
        out.mergeSort StudentSummary.before = list := by
  rw [studentsSummary]
  constructor
  · intro h
    obtain ⟨out, hout, h⟩ := bind_eq_ok.mp h
    exact ⟨out, hout, pure_eq_ok.mp h⟩
  · rintro ⟨out, hout, rfl⟩
    exact bind_eq_ok.mpr ⟨out, hout, rfl⟩

theorem studentsSummary_isOk : (∃ list, studentsSummary store scope since = .ok list) ↔
    Scored (windowRecords store scope since) := by
  rw [← perStudent_scored]
  constructor
  · rintro ⟨list, h⟩ group hgroup
    obtain ⟨out, hout, -⟩ := studentsSummary_eq_ok.mp h
    exact map_isOk.mp (mapM_isOk.mp ⟨out, hout⟩ group hgroup)
  · intro h
    obtain ⟨out, hout⟩ := mapM_isOk.mpr fun group hgroup =>
      (map_isOk (f := fun metrics => (⟨group.1, displayName ((students store scope).lookup group.1)
        group.1, courseNames group.2, metrics⟩ : StudentSummary))).mpr (h group hgroup)
    exact ⟨_, studentsSummary_eq_ok.mpr ⟨out, hout, rfl⟩⟩

theorem overview_eq_ok {found : Overview} (h : overview isoDate store scope since = .ok found) :
    ∃ risks trend, (perStudent (windowRecords store scope since)).mapM (fun group =>
        (studentMetrics group.2).map (·.riskLevel)) = .ok risks ∧
      weeklyAttendanceTrend isoDate (windowRecords store scope since) = .ok trend ∧
      found.studentCount = (perStudent (windowRecords store scope since)).length ∧
      found.homeworkMissing = homeworkMissing (windowRecords store scope since) ∧
      (found.riskCounts = fun level => risks.count level) ∧ found.attendanceTrend = trend := by
  obtain ⟨risks, hrisks, h⟩ := bind_eq_ok.mp h
  obtain ⟨trend, htrend, h⟩ := bind_eq_ok.mp h
  obtain ⟨scoreTrend, -, h⟩ := bind_eq_ok.mp h
  cases pure_eq_ok.mp h
  exact ⟨risks, trend, hrisks, htrend, rfl, rfl, rfl, rfl⟩

theorem overview_isOk (hdated : Dated isoDate (windowRecords store scope since)) :
    (∃ found, overview isoDate store scope since = .ok found) ↔
      Scored (windowRecords store scope since) := by
  constructor
  · rintro ⟨found, h⟩
    obtain ⟨risks, -, hrisks, -⟩ := overview_eq_ok h
    rw [← perStudent_scored]
    exact fun group hgroup => map_isOk.mp (mapM_isOk.mp ⟨risks, hrisks⟩ group hgroup)
  · intro hscored
    obtain ⟨risks, hrisks⟩ := mapM_isOk.mpr fun group hgroup =>
      (map_isOk (f := StudentMetrics.riskLevel)).mpr (perStudent_scored.mpr hscored group hgroup)
    obtain ⟨trend, htrend, -⟩ := attendanceTrend_spec hdated
    obtain ⟨scoreTrend, hscore⟩ := scoreTrend_isOk hdated hscored
    exact ⟨_, bind_eq_ok.mpr ⟨risks, hrisks, bind_eq_ok.mpr ⟨trend, htrend,
      bind_eq_ok.mpr ⟨scoreTrend, hscore, rfl⟩⟩⟩⟩

section Summaries

variable {names : List (Int × StudentRow)} {rows : List LessonRecord} {out : List StudentSummary}

theorem summaryOf_eq_ok {group : Int × List LessonRecord} {s : StudentSummary}
    (h : summaryOf names group = .ok s) : s.uid = group.1 ∧ studentMetrics group.2 = .ok s.metrics := by
  obtain ⟨metrics, hmetrics, rfl⟩ := map_eq_ok.mp h
  exact ⟨rfl, hmetrics⟩

theorem summaries_uids (hout : (perStudent rows).mapM (summaryOf names) = .ok out) :
    out.map StudentSummary.uid = (perStudent rows).map Prod.fst :=
  mapM_frame (fun _ _ h => (summaryOf_eq_ok h).1) hout

theorem summaries_missing (hout : (perStudent rows).mapM (summaryOf names) = .ok out) :
    out.map (fun s => s.metrics.homeworkMissing) =
      (perStudent rows).map fun group => group.2.countP fun r => isZero (r.cells .homeworkSubmitted) := by
  refine mapM_frame (fun group s h => ?_) hout
  obtain ⟨average, -, hmetrics⟩ := map_eq_ok.mp (summaryOf_eq_ok h).2
  rw [← hmetrics]
  rfl

/-- The overview works the risks out anew, and finds those of the list. -/
theorem summaries_risks (hout : (perStudent rows).mapM (summaryOf names) = .ok out)
    {risks : List RiskLevel} (hrisks : (perStudent rows).mapM (fun group =>
      (studentMetrics group.2).map (·.riskLevel)) = .ok risks) :
    out.map (fun s => s.metrics.riskLevel) = risks := by
  have hlisted : (out.map fun s => s.metrics.riskLevel).map some =
      (perStudent rows).map fun group => (studentMetrics group.2).toOption.map (·.riskLevel) := by
    rw [List.map_map]
    exact mapM_frame (fun group s h => by rw [(summaryOf_eq_ok h).2]; rfl) hout
  have hcounted : risks.map some =
      (perStudent rows).map fun group => (studentMetrics group.2).toOption.map (·.riskLevel) :=
    mapM_frame (fun group level h => by
      obtain ⟨metrics, hmetrics, rfl⟩ := map_eq_ok.mp h
      rw [hmetrics]
      rfl) hrisks
  exact List.map_injective_iff.mpr (Option.some_injective _) (hlisted.trans hcounted.symm)

theorem summaries_rates (hout : (perStudent rows).mapM (summaryOf names) = .ok out) :
    ∀ s ∈ out, ∃ q, s.rate = .fin q := by
  intro s hs
  obtain ⟨group, -, hgroup⟩ := exists_of_mem_mapM hout hs
  obtain ⟨average, -, hmetrics⟩ := map_eq_ok.mp (summaryOf_eq_ok hgroup).2
  rw [StudentSummary.rate, ← hmetrics]
  exact attendanceRate_finite group.2

end Summaries

theorem sameStory (hdated : Dated isoDate (windowRecords store scope since)) {found : Overview}
    {list : List StudentSummary} (hfound : overview isoDate store scope since = .ok found)
    (hlist : studentsSummary store scope since = .ok list) :
    SameStory isoDate (windowRecords store scope since) found list := by
  obtain ⟨risks, trend, hrisks, htrend, hcount, hmissing, hrisk, htrends⟩ := overview_eq_ok hfound
  obtain ⟨out, hout, rfl⟩ := studentsSummary_eq_ok.mp hlist
  have hperm := List.mergeSort_perm out StudentSummary.before
  generalize windowRecords store scope since = rows at *
  have huids := summaries_uids hout
  have hrates := summaries_rates hout
  obtain ⟨trend', htrend', hweeks, htotals⟩ := attendanceTrend_spec hdated
  rw [htrend] at htrend'
  cases htrend'
  refine ⟨⟨?_, fun uid => ?_⟩, ?_, fun level => ?_, ?_, ?_, ?_, ?_⟩
  · rw [(hperm.map _).nodup_iff, huids]
    exact nodup_keys_groupOn _ _
  · rw [(hperm.map _).mem_iff, huids]
    exact mem_keys_groupOn
  · have hlength := congrArg List.length huids
    rw [List.length_map, List.length_map] at hlength
    rw [hcount, hperm.length_eq, hlength]
  · rw [hrisk, hperm.countP_eq, ← summaries_risks hout hrisks]
    show List.count level (out.map fun s => s.metrics.riskLevel) = _
    rw [List.count_eq_countP, List.countP_map]
    congr 1
  · rw [hmissing, (hperm.map _).sum_eq, summaries_missing hout]
    exact (sum_countP_groupOn _ _ _).symm
  · exact (pairwise_key hrates).imp_of_mem fun ha hb =>
      order_of_key_le (hrates _ (hperm.mem_iff.mp ha)) (hrates _ (hperm.mem_iff.mp hb))
  · rw [htrends]
    exact htotals
  · rw [htrends]
    exact hweeks

end Story

/-- The overview returns exactly where the list of students does, and they tell the same story. -/
theorem overview_tells_list {isoDate : IsoDate} (hreads : ReadsDates isoDate) {store : Store}
    (hdates : store.IsoDates) (scope : Scope) (cutoff : DateTime) :
    let since := cutoff.isoformat "T" "+00:00"
    ((∃ found, overview isoDate store scope since = .ok found) ↔
      ∃ list, studentsSummary store scope since = .ok list) ∧
    ∀ found list, overview isoDate store scope since = .ok found →
      studentsSummary store scope since = .ok list →
        SameStory isoDate (windowRecords store scope since) found list := by
  intro since
  have hdated : Dated isoDate (windowRecords store scope since) := dated_windowRecords hdates hreads
  exact ⟨(overview_isOk hdated).trans studentsSummary_isOk.symm, fun _ _ => sameStory hdated⟩

example : (studentsSummary (Store.empty.runOps .plain [.deliver midnightAttendance]) .all
    (halfPastMidnight.isoformat "T" "+00:00")).toOption.map (fun list => list.map StudentSummary.uid) =
      some [9] := by decide +kernel

/-- The day of a text that says its time in UTC. -/
def utcIsoDate : IsoDate := fun text =>
  match DateTime.ofUtcIso? text with
  | some t => .ok t.moment.day
  | none => .error .valueError

theorem readsDates_utcIsoDate : ReadsDates utcIsoDate := by
  intro ts s h
  obtain ⟨t, ht, rfl⟩ := DateTime.utcIsoformat_eq_ok.mp h
  exact ⟨t.moment.day, by rw [utcIsoDate, DateTime.ofUtcIso?_ofTimestamp? ht]⟩

/-- The store after the lessons of four weeks. -/
theorem overview_tells_list_midnight :
    let store := Store.empty.runOps .plain mayLessons
    let since := halfPastMidnight.isoformat "T" "+00:00"
    ∃ found list, overview utcIsoDate store .all since = .ok found ∧
      studentsSummary store .all since = .ok list ∧
      SameStory utcIsoDate (windowRecords store .all since) found list ∧
      ∀ uid ∈ [9, 10, 11], uid ∈ list.map StudentSummary.uid := by
  intro store since
  have hrows := matching_perm store .all { RecordFilter.none with since := some since }
  have hscores : ∀ record ∈ (store.allRecords.filter (RecordFilter.matches
      { RecordFilter.none with since := some since })).filter fun record =>
        record.inScope (store.scopeKeys .all), record.cells .homeworkScore = .null ∨
          record.cells .homeworkScore = .real (.fin 80) := by
    decide +kernel
  have huids : ∀ uid ∈ [9, 10, 11], ∃ record ∈ (store.allRecords.filter (RecordFilter.matches
      { RecordFilter.none with since := some since })).filter fun record =>
        record.inScope (store.scopeKeys .all), record.studentUid = uid := by
    decide +kernel
  have hscored : Scored (windowRecords store .all since) := by
    intro cell hcell
    obtain ⟨hmem, hne⟩ := List.mem_filter.mp hcell
    obtain ⟨record, hrecord, rfl⟩ := List.mem_map.mp hmem
    rcases hscores record (hrows.subset hrecord) with hnull | hscore
    · rw [hnull] at hne
      exact absurd hne (by decide)
    · exact ⟨.fin 80, by rw [hscore]; rfl⟩
  obtain ⟨hreturns, hstory⟩ := overview_tells_list readsDates_utcIsoDate
    (isoDates_run mayLessons_spare isoDates_empty) .all halfPastMidnight
  obtain ⟨list, hlist⟩ := studentsSummary_isOk.mpr hscored
  obtain ⟨found, hfound⟩ := hreturns.mpr ⟨list, hlist⟩
  have hsame := hstory found list hfound hlist
  refine ⟨found, list, hfound, hlist, hsame, fun uid huid => (hsame.listed.2 uid).mpr ?_⟩
  obtain ⟨record, hrecord, huid⟩ := huids uid huid
  exact ⟨record, hrows.symm.subset hrecord, huid⟩

end ClassinDashboard

import ClassinDashboard.PyScript
import ClassinDashboard.ScheduleHeuristic

/-!
The lessons of a weekday pattern. The weekdays of a line are sorted and each is there once, its weeks
are counted from a Monday, and so the dates go up week by week and miss no weekday of the pattern.
-/

namespace ClassinDashboard

open Py Py.Regex

/-! ### Days of whole weeks -/

/-- The days of some weeks that fall on the weekdays, counted from the Monday of the first week. -/
def weeklyDays (weeks : Nat) (weekdays : List Nat) : List Nat :=
  (List.range weeks).flatMap fun week => weekdays.map fun weekday => 7 * week + weekday

/-- Weekdays in order, each of them once. -/
structure WeekdayList (weekdays : List Nat) : Prop where
  increasing : weekdays.Pairwise (· < ·)
  lt_seven : ∀ weekday ∈ weekdays, weekday < 7

section Weeks

variable {weekdays : List Nat} {weeks : Nat}

theorem weeklyDays_increasing (h : WeekdayList weekdays) :
    (weeklyDays weeks weekdays).Pairwise (· < ·) := by
  rw [weeklyDays, List.pairwise_flatMap]
  constructor
  · intro week _
    rw [List.pairwise_map]
    exact h.increasing.imp fun hlt => by omega
  · refine List.pairwise_lt_range.imp fun hweek => ?_
    intro x hx y hy
    obtain ⟨a, ha, rfl⟩ := List.mem_map.mp hx
    obtain ⟨b, _, rfl⟩ := List.mem_map.mp hy
    have := h.lt_seven a ha
    omega

theorem mem_weeklyDays (h : WeekdayList weekdays) {day : Nat} :
    day ∈ weeklyDays weeks weekdays ↔ day < 7 * weeks ∧ day % 7 ∈ weekdays := by
  simp only [weeklyDays, List.mem_flatMap, List.mem_range, List.mem_map]
  constructor
  · rintro ⟨week, hweek, weekday, hmem, rfl⟩
    have hlt := h.lt_seven weekday hmem
    refine ⟨by omega, ?_⟩
    rwa [Nat.mul_add_mod, Nat.mod_eq_of_lt hlt]
  · rintro ⟨hlt, hmem⟩
    exact ⟨day / 7, by omega, day % 7, hmem, Nat.div_add_mod day 7⟩

theorem length_weeklyDays : (weeklyDays weeks weekdays).length = weeks * weekdays.length := by
  simp [weeklyDays, List.length_flatMap]

end Weeks

/-- The first elements of an increasing list leave nothing out below them. -/
theorem mem_take_of_le {l : List Nat} (h : l.Pairwise (· < ·)) {k x y : Nat} (hx : x ∈ l)
    (hy : y ∈ l.take k) (hxy : x ≤ y) : x ∈ l.take k := by
  rw [← List.take_append_drop k l] at h hx
  rcases List.mem_append.mp hx with hx | hx
  · exact hx
  · have hlt := (List.pairwise_append.mp h).2.2 y hy x hx
    omega

/-- As many whole weeks as it takes to hold `sessions` lessons. -/
theorem le_ceilDiv_mul {sessions perWeek : Nat} (h : 0 < perWeek) :
    sessions ≤ (sessions + perWeek - 1) / perWeek * perWeek := by
  have hdiv := Nat.div_add_mod (sessions + perWeek - 1) perWeek
  have hmod := Nat.mod_lt (sessions + perWeek - 1) h
  rw [Nat.mul_comm] at hdiv
  omega

/-! ### Weekdays of a line -/

theorem weekdaysIn_list (line : Text) : WeekdayList (weekdaysIn line) := by
  unfold weekdaysIn
  split
  · exact ⟨.nil, by simp⟩
  · rename_i hit _
    generalize hletters : ((((hit.group 1).getD []).filter isWeekday).map weekdayChars.idxOf) = letters
    have hmem (n : Nat) (hn : n ∈ letters.dedup.insertionSort (· ≤ ·)) : n ∈ letters :=
      List.mem_dedup.mp ((List.mem_insertionSort _).mp hn)
    refine ⟨?_, fun weekday hweekday => ?_⟩
    · have hnodup : (letters.dedup.insertionSort (· ≤ ·)).Nodup :=
        (List.perm_insertionSort _ _).nodup_iff.mpr (List.nodup_dedup letters)
      refine ((List.pairwise_insertionSort (· ≤ ·) letters.dedup).and hnodup).imp ?_
      exact fun ⟨hle, hne⟩ => lt_of_le_of_ne hle hne
    · obtain ⟨c, hc, rfl⟩ := List.mem_map.mp (hletters ▸ hmem weekday hweekday)
      have hchar : c ∈ weekdayChars := by simpa [isWeekday] using (List.mem_filter.mp hc).2
      exact List.idxOf_lt_length_of_mem hchar

/-! ### The Monday -/

theorem ordinal_addDays {day later : Date} {n : Int} (h : day.addDays n = .ok later) :
    (later.ordinal : Int) = day.ordinal + n := by
  unfold Date.addDays at h
  split at h
  · rename_i hday
    cases h
    exact Date.ordinal_ofOrdinal? hday
  · cases h

theorem addDays_ok_iff {day : Date} {n : Int} :
    (∃ later, day.addDays n = .ok later) ↔ 0 < day.ordinal + n ∧ day.ordinal + n ≤ maxOrdinal := by
  unfold Date.addDays Date.ofOrdinal?
  split
  · rename_i hday
    split at hday
    · rename_i hrange
      simp [hrange]
    · cases hday
  · rename_i hday
    split at hday
    · cases hday
    · rename_i hrange
      simp [hrange]

theorem mondayOf_weekday {day monday : Date} (h : mondayOf day = .ok monday) : monday.weekday = 0 := by
  have hordinal := ordinal_addDays h
  simp only [Date.weekday] at hordinal ⊢
  omega

theorem addDays_weeks {day later : Date} {n : Int} (hn : n % 7 = 0)
    (h : day.addDays n = .ok later) : later.weekday = day.weekday := by
  have hordinal := ordinal_addDays h
  simp only [Date.weekday]
  omega

theorem nthWeekMonday_weekday {year month nth : Nat} {monday : Date}
    (h : nthWeekMonday year month nth = .ok monday) : monday.weekday = 0 := by
  unfold nthWeekMonday at h
  split at h
  · cases h
  · rename_i first _
    obtain ⟨firstMonday, hfirst, h⟩ := bind_eq_ok.mp h
    rw [addDays_weeks (by omega) h]
    have hordinal := ordinal_addDays hfirst
    simp only [Date.weekday] at hordinal ⊢
    omega

/-- The weeks of a line are counted from a Monday, whichever way it is found. -/
theorem anchorMonday_weekday {line : Text} {today monday : Date} {notes : List Text}
    (h : anchorMonday line today = .ok (monday, notes)) : monday.weekday = 0 := by
  unfold anchorMonday at h
  split at h
  · obtain ⟨found, hfound, h⟩ := bind_eq_ok.mp h
    cases pure_eq_ok.mp h
    exact nthWeekMonday_weekday hfound
  · split at h
    · obtain ⟨found, hfound, h⟩ := map_eq_ok.mp h
      cases h
      exact mondayOf_weekday hfound
    · obtain ⟨this, hthis, h⟩ := bind_eq_ok.mp h
      have hmonday := mondayOf_weekday hthis
      split at h
      · obtain ⟨next, hnext, h⟩ := bind_eq_ok.mp h
        cases pure_eq_ok.mp h
        rw [addDays_weeks (by decide) hnext, hmonday]
      · split at h
        · cases pure_eq_ok.mp h
          exact hmonday
        · obtain ⟨next, hnext, h⟩ := bind_eq_ok.mp h
          cases pure_eq_ok.mp h
          rw [addDays_weeks (by decide) hnext, hmonday]

/-! ### The dates -/

theorem addDays_mapM {monday : Date} {days : List Nat}
    (h : ∀ day ∈ days, monday.ordinal + day ≤ maxOrdinal) :
    ∃ dates, (days.mapM fun day => monday.addDays (day : Nat)) = .ok dates ∧
      dates.map Date.ordinal = days.map (monday.ordinal + ·) := by
  induction days with
  | nil => exact ⟨[], rfl, rfl⟩
  | cons day days ih =>
      rw [List.forall_mem_cons] at h
      obtain ⟨dates, hdates, hordinals⟩ := ih h.2
      have hpos := monday.pos
      obtain ⟨date, hdate⟩ := addDays_ok_iff.mpr
        (show 0 < (monday.ordinal : Int) + (day : Nat) ∧ (monday.ordinal : Int) + (day : Nat) ≤ maxOrdinal
          by omega)
      have hordinal := ordinal_addDays hdate
      refine ⟨date :: dates, ?_, ?_⟩
      · rw [List.mapM_cons, hdate, hdates]
        rfl
      · rw [List.map_cons, List.map_cons, hordinals]
        congr 1
        omega

/-- One day beyond the calendar is enough to lose all the dates. -/
theorem addDays_mapM_overflow {monday : Date} {days : List Nat} {day : Nat} (hday : day ∈ days)
    (h : maxOrdinal < monday.ordinal + day) :
    (days.mapM fun day => monday.addDays (day : Nat)) = .error .overflowError := by
  induction days with
  | nil => cases hday
  | cons first days ih =>
      rw [List.mapM_cons]
      by_cases hfirst : monday.ordinal + first ≤ maxOrdinal
      · have hrest : day ∈ days := by
          rcases List.mem_cons.mp hday with rfl | hrest
          · omega
          · exact hrest
        have hpos := monday.pos
        obtain ⟨date, hdate⟩ := addDays_ok_iff.mpr
          (show 0 < (monday.ordinal : Int) + (first : Nat) ∧
            (monday.ordinal : Int) + (first : Nat) ≤ maxOrdinal by omega)
        rw [hdate, ih hrest]
        rfl
      · have hbeyond : Date.ofOrdinal? ((monday.ordinal : Int) + (first : Nat)) = none :=
          dif_neg (by omega)
        rw [Date.addDays, hbeyond]
        rfl

/-- The number of weeks that a line states. -/
def statedWeeks (line : Text) : Option Nat := (search weekCount line).map fun hit => hit.number 1

/-- The number of sessions that a line states. -/
def statedSessions (line : Text) : Option Nat := (search sessionCount line).map fun hit => hit.number 1

/-- The days of the pattern lie within the calendar. -/
def WithinCalendar (monday : Date) (weeks : Nat) (weekdays : List Nat) : Prop :=
  ∀ ordinal, monday.ordinal ≤ ordinal → ordinal < monday.ordinal + 7 * weeks →
    (ordinal + 6) % 7 ∈ weekdays → ordinal ≤ maxOrdinal

/-- Exactly the lessons of a pattern: all of some weeks, or the first of them. -/
structure PatternDates (line : Text) (weekdays : List Nat) (monday : Date) (dates : List Date) :
    Prop where
  increasing : dates.Pairwise fun a b => a.ordinal < b.ordinal
  fromMonday : ∀ day ∈ dates, monday.ordinal ≤ day.ordinal
  onWeekdays : ∀ day ∈ dates, day.weekday ∈ weekdays
  allWeeks : ∀ weeks, statedWeeks line = some weeks ∨
      (statedWeeks line = none ∧ statedSessions line = none ∧ weeks = 4) →
    dates.length = weeks * weekdays.length ∧ ∀ day : Date, day ∈ dates ↔
      monday.ordinal ≤ day.ordinal ∧ day.ordinal < monday.ordinal + 7 * weeks ∧
        day.weekday ∈ weekdays
  firstSessions : ∀ sessions, statedWeeks line = none → statedSessions line = some sessions →
    dates.length = sessions ∧ ∀ day later : Date, monday.ordinal ≤ day.ordinal →
      day.weekday ∈ weekdays → later ∈ dates → day.ordinal ≤ later.ordinal → day ∈ dates

section Monday

variable {monday : Date} {weeks : Nat} {weekdays : List Nat}

/-- From a Monday the weekday of a day is how many days it is into its week. -/
theorem weekday_of_monday (hmonday : monday.weekday = 0) {day : Date} {n : Nat}
    (h : day.ordinal = monday.ordinal + n) : day.weekday = n % 7 := by
  simp only [Date.weekday] at hmonday ⊢
  omega

theorem mem_weekDates {dates : List Date} (hmonday : monday.weekday = 0)
    (hlist : WeekdayList weekdays)
    (h : dates.map Date.ordinal = (weeklyDays weeks weekdays).map (monday.ordinal + ·)) {day : Date} :
    day ∈ dates ↔ monday.ordinal ≤ day.ordinal ∧ day.ordinal < monday.ordinal + 7 * weeks ∧
      day.weekday ∈ weekdays := by
  have hinjective : Function.Injective Date.ordinal := fun _ _ => Date.ext_ordinal
  rw [← List.mem_map_of_injective hinjective, h, List.mem_map]
  constructor
  · rintro ⟨n, hn, hordinal⟩
    obtain ⟨hlt, hmem⟩ := (mem_weeklyDays hlist).mp hn
    refine ⟨by omega, by omega, ?_⟩
    rwa [weekday_of_monday hmonday hordinal.symm]
  · rintro ⟨hle, hlt, hmem⟩
    have hordinal : day.ordinal = monday.ordinal + (day.ordinal - monday.ordinal) := by omega
    refine ⟨day.ordinal - monday.ordinal, (mem_weeklyDays hlist).mpr ⟨by omega, ?_⟩, hordinal.symm⟩
    rwa [← weekday_of_monday hmonday hordinal]

theorem withinCalendar_iff (hmonday : monday.weekday = 0) (hlist : WeekdayList weekdays) :
    WithinCalendar monday weeks weekdays ↔
      ∀ day ∈ weeklyDays weeks weekdays, monday.ordinal + day ≤ maxOrdinal := by
  simp only [Date.weekday] at hmonday
  constructor
  · intro h day hday
    obtain ⟨hlt, hmem⟩ := (mem_weeklyDays hlist).mp hday
    refine h _ (by omega) (by omega) ?_
    rwa [show (monday.ordinal + day + 6) % 7 = day % 7 by omega]
  · intro h ordinal hle hlt hmem
    have hday := h (ordinal - monday.ordinal) ((mem_weeklyDays hlist).mpr ⟨by omega, ?_⟩)
    · omega
    · rwa [show (ordinal - monday.ordinal) % 7 = (ordinal + 6) % 7 by omega]

end Monday

/-- The weeks that are gone through for a line. -/
theorem weeksOf_fst (line : Text) (weekdays : List Nat) :
    (weeksOf line weekdays).1 = match statedWeeks line, statedSessions line with
      | some weeks, _ => weeks
      | none, some sessions => (sessions + weekdays.length - 1) / weekdays.length
      | none, none => 4 := by
  unfold weeksOf statedWeeks statedSessions
  cases search weekCount line with
  | some hit => rfl
  | none => cases search sessionCount line <;> rfl

/-- Of the dates of whole weeks, those that a line keeps. -/
def keptDates (line : Text) (dates : List Date) : List Date :=
  match statedWeeks line, statedSessions line with
  | none, some sessions => dates.take sessions
  | _, _ => dates

theorem lessonDates_eq {line : Text} {weekdays : List Nat} {today monday : Date} {notes : List Text}
    (hweekdays : weekdays ≠ []) (hmonday : anchorMonday line today = .ok (monday, notes)) :
    lessonDates line weekdays today =
      ((weeklyDays (weeksOf line weekdays).1 weekdays).mapM fun day => monday.addDays (day : Nat)).map
        fun dates => (keptDates line dates, notes ++ (weeksOf line weekdays).2) := by
  rw [lessonDates, if_neg (by simpa using hweekdays), hmonday]
  change ((weeklyDays (weeksOf line weekdays).1 weekdays).mapM fun day =>
    monday.addDays (day : Nat)) >>= (fun dates => _) = _
  cases (weeklyDays (weeksOf line weekdays).1 weekdays).mapM fun day =>
      monday.addDays (day : Nat) with
  | error e => rfl
  | ok dates =>
      unfold keptDates statedWeeks statedSessions weeksOf
      cases search weekCount line <;> cases search sessionCount line <;> rfl

theorem keptDates_sublist (line : Text) (dates : List Date) :
    (keptDates line dates).Sublist dates := by
  unfold keptDates
  split
  · exact List.take_sublist _ _
  · exact List.Sublist.refl _

/-- A line that states its weeks, or nothing at all, keeps every date. -/
theorem keptDates_weeks {line : Text} {weeks : Nat} (h : statedWeeks line = some weeks ∨
      (statedWeeks line = none ∧ statedSessions line = none ∧ weeks = 4)) (weekdays : List Nat)
    (dates : List Date) : keptDates line dates = dates ∧ (weeksOf line weekdays).1 = weeks := by
  rw [weeksOf_fst, keptDates]
  rcases h with hstated | ⟨hnone, hsessions, rfl⟩
  · rw [hstated]
    exact ⟨rfl, rfl⟩
  · rw [hnone, hsessions]
    exact ⟨rfl, rfl⟩

/-- The first dates of a list that is in order are those not later than one of them. -/
theorem mem_take_dates {dates : List Date} {n : Nat} {day later : Date}
    (hordinals : (dates.map Date.ordinal).Pairwise (· < ·)) (hday : day ∈ dates)
    (hlater : later ∈ dates.take n) (hle : day.ordinal ≤ later.ordinal) : day ∈ dates.take n := by
  have hinjective : Function.Injective Date.ordinal := fun _ _ => Date.ext_ordinal
  rw [← List.mem_map_of_injective hinjective, List.map_take]
  refine mem_take_of_le hordinals (List.mem_map_of_mem hday) ?_ hle
  rw [← List.map_take]
  exact List.mem_map_of_mem hlater

/-- The dates that are kept of the weeks that are gone through are those of the pattern. -/
theorem keptDates_pattern {line : Text} {weekdays : List Nat} {monday : Date} {dates : List Date}
    (hweekdays : weekdays ≠ []) (hmonday : monday.weekday = 0) (hlist : WeekdayList weekdays)
    (h : dates.map Date.ordinal =
      (weeklyDays (weeksOf line weekdays).1 weekdays).map (monday.ordinal + ·)) :
    PatternDates line weekdays monday (keptDates line dates) := by
  have hmem (day : Date) : day ∈ dates ↔ monday.ordinal ≤ day.ordinal ∧
      day.ordinal < monday.ordinal + 7 * (weeksOf line weekdays).1 ∧ day.weekday ∈ weekdays :=
    mem_weekDates hmonday hlist h
  have hordinals : (dates.map Date.ordinal).Pairwise (· < ·) := by
    rw [h, List.pairwise_map]
    exact (weeklyDays_increasing hlist).imp fun hlt => by omega
  have hincreasing : dates.Pairwise fun a b => a.ordinal < b.ordinal := List.pairwise_map.mp hordinals
  have hlength : dates.length = (weeksOf line weekdays).1 * weekdays.length := by
    have := congrArg List.length h
    rwa [List.length_map, List.length_map, length_weeklyDays] at this
  have hsublist := keptDates_sublist line dates
  refine ⟨hincreasing.sublist hsublist, fun day hday => ((hmem day).mp (hsublist.subset hday)).1,
    fun day hday => ((hmem day).mp (hsublist.subset hday)).2.2, fun weeks hweeks => ?_,
    fun sessions hnone hsessions => ?_⟩
  · obtain ⟨hkept, hweeksOf⟩ := keptDates_weeks hweeks weekdays dates
    rw [hkept, hlength, hweeksOf]
    rw [hweeksOf] at hmem
    exact ⟨rfl, hmem⟩
  · have hkept : keptDates line dates = dates.take sessions := by
      unfold keptDates
      rw [hnone, hsessions]
    have hweeksOf : (weeksOf line weekdays).1 = (sessions + weekdays.length - 1) / weekdays.length := by
      rw [weeksOf_fst, hnone, hsessions]
    have hceil : sessions ≤ (sessions + weekdays.length - 1) / weekdays.length * weekdays.length :=
      le_ceilDiv_mul (List.length_pos_of_ne_nil hweekdays)
    rw [hkept]
    refine ⟨by rw [List.length_take, hlength, hweeksOf, Nat.min_eq_left hceil], ?_⟩
    intro day later hle hday hlater hbefore
    have hwithin := (hmem later).mp (List.mem_of_mem_take hlater)
    have hin : day ∈ dates := (hmem day).mpr ⟨hle, by omega, hday⟩
    exact mem_take_dates hordinals hin hlater hbefore

/-- Dates that are returned follow the pattern. -/
theorem patternDates_of_ok {line : Text} {today monday : Date} {notes notes' : List Text}
    {dates : List Date} (hweekdays : weekdaysIn line ≠ [])
    (hmonday : anchorMonday line today = .ok (monday, notes))
    (h : lessonDates line (weekdaysIn line) today = .ok (dates, notes')) :
    PatternDates line (weekdaysIn line) monday dates := by
  rw [lessonDates_eq hweekdays hmonday] at h
  obtain ⟨all, hall, hkept⟩ := map_eq_ok.mp h
  cases hkept
  have hfits : ∀ day ∈ weeklyDays (weeksOf line (weekdaysIn line)).1 (weekdaysIn line),
      monday.ordinal + day ≤ maxOrdinal := by
    intro day hday
    by_contra hbeyond
    rw [addDays_mapM_overflow hday (not_le.mp hbeyond)] at hall
    cases hall
  obtain ⟨dates', hdates', hordinals⟩ := addDays_mapM hfits
  cases hall.symm.trans hdates'
  exact keptDates_pattern hweekdays (anchorMonday_weekday hmonday) (weekdaysIn_list line) hordinals


/-- A weekday pattern gives exactly the lessons it states, unless a day of its weeks is beyond the
calendar. -/
theorem lessonDates_pattern (line : Text) (today monday : Date) (notes : List Text)
    (hweekdays : weekdaysIn line ≠ [])
    (hmonday : anchorMonday line today = .ok (monday, notes)) :
    (WithinCalendar monday (weeksOf line (weekdaysIn line)).1 (weekdaysIn line) →
      ∃ dates notes, lessonDates line (weekdaysIn line) today = .ok (dates, notes) ∧
        PatternDates line (weekdaysIn line) monday dates) ∧
    (¬WithinCalendar monday (weeksOf line (weekdaysIn line)).1 (weekdaysIn line) →
      lessonDates line (weekdaysIn line) today = .error .overflowError) := by
  have hlist := weekdaysIn_list line
  have hfirst := anchorMonday_weekday hmonday
  rw [withinCalendar_iff hfirst hlist, lessonDates_eq hweekdays hmonday]
  constructor
  · intro hfits
    obtain ⟨dates, hdates, hordinals⟩ := addDays_mapM hfits
    rw [hdates]
    exact ⟨_, _, rfl, keptDates_pattern hweekdays hfirst hlist hordinals⟩
  · intro hbeyond
    simp only [not_forall, not_le] at hbeyond
    obtain ⟨day, hday, hlt⟩ := hbeyond
    rw [addDays_mapM_overflow hday hlt]
    rfl

/-- Three lessons on Tuesdays and Thursdays take two weeks. -/
def threeSessions : Text := "수학 화/목 19:00 3회".toList

def fourWeeks : Text := "수학 화/목".toList

/-- The Monday after 1 April 2026 is 6 April. -/
theorem threeSessions_exact : ∃ monday dates notes,
    lessonDates threeSessions (weekdaysIn threeSessions) ⟨739707, by decide, by decide⟩ =
      .ok (dates, notes) ∧
    PatternDates threeSessions (weekdaysIn threeSessions) monday dates := by
  have hfound : (anchorMonday threeSessions ⟨739707, by decide, by decide⟩).toOption.map
      (fun found => found.1.ordinal) = some 739712 := by decide
  have hweeks : (weeksOf threeSessions (weekdaysIn threeSessions)).1 = 2 := by decide
  obtain ⟨⟨monday, notes⟩, hmonday, hordinal⟩ := exists_ok_of_map hfound
  refine ⟨monday, (lessonDates_pattern threeSessions _ monday notes (by decide)
    hmonday).1 ?_⟩
  intro ordinal _ hlt _
  rw [hweeks, hordinal] at hlt
  exact le_trans hlt.le (by decide)

/-- On 20 December 9999 no four weeks are left. -/
theorem fourWeeks_overflow :
    ¬∀ (line : Text) (today monday : Date) (notes : List Text), weekdaysIn line ≠ [] →
      anchorMonday line today = .ok (monday, notes) →
        ∃ dates notes, lessonDates line (weekdaysIn line) today = .ok (dates, notes) ∧
          PatternDates line (weekdaysIn line) monday dates := by
  intro hall
  have hraises : (lessonDates fourWeeks (weekdaysIn fourWeeks)
      ⟨3652048, by decide, by decide⟩).toOption.isNone = true := by decide
  have hfound : (anchorMonday fourWeeks ⟨3652048, by decide, by decide⟩).toOption.isSome = true := by
    decide
  obtain ⟨found, hmonday⟩ := exists_ok hfound
  obtain ⟨dates, notes, hdates, _⟩ := hall fourWeeks _ found.1 found.2 (by decide) hmonday
  rw [hdates] at hraises
  cases hraises

end ClassinDashboard

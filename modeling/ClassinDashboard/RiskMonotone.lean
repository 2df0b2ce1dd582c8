import ClassinDashboard.Metrics
import Mathlib.Logic.Relation

/-!
The risk of a student in exact arithmetic: the figures of the metrics as rationals, rounded to as many
decimals. What improves a student's records raises the share of attended lessons and the average of
the scores, or lowers the number of missing homeworks, and rounding keeps the order.
-/

namespace ClassinDashboard

open Py Sql

/-! ### Exact figures -/

/-- `round(q, digits)` without a rounding error. -/
def roundDecimals (digits : Nat) (q : ℚ) : ℚ := roundHalfEven (q * 10 ^ digits) / 10 ^ digits

/-- `ok / known`, when any attendance is known. -/
def share (ok absent : Nat) : Option ℚ := if ok + absent = 0 then none else some (ok / (ok + absent))

/-- The share of those present or late among the rows whose attendance is known. -/
def attendanceShare (rows : List LessonRecord) : Option ℚ :=
  share (countAttendance rows present + countAttendance rows late) (countAttendance rows absent)

/-- The rate in doubles is the exact share, rounded. -/
theorem attendanceRate_eq (rows : List LessonRecord) :
    attendanceRate rows = (attendanceShare rows).map fun q => .roundTo 3 (.ofRat q) := by
  simp only [attendanceRate, attendanceShare, share]
  split
  · rfl
  · push_cast
    rfl

/-- The number in a cell, if there is a finite one. -/
def cellRat : SqlValue → Option ℚ
  | .int n => some n
  | .real (.fin q) => some q
  | .real _ | .null | .text _ => none

/-- The average of the scores that are known; `none` if one of them is no number. -/
def exactAverage (rows : List LessonRecord) : Option (Option ℚ) :=
  ((scores rows).mapM cellRat).map fun scores =>
    if scores.isEmpty then none else some (roundDecimals 1 (scores.sum / scores.length))

def exactRisk (attendanceRate scoreAvg : Option ℚ) (homeworkMissing : Nat) : RiskLevel :=
  if (attendanceRate.any fun rate => rate < 72 / 100) || (scoreAvg.any fun avg => avg < 70)
      || 3 ≤ homeworkMissing then .high
  else if (attendanceRate.any fun rate => rate < 86 / 100) || (scoreAvg.any fun avg => avg < 80)
      || 1 ≤ homeworkMissing then .medium
  else .good

/-- `student_metrics(rows)["risk_level"]` in exact arithmetic. -/
def exactRiskLevel (rows : List LessonRecord) : Option RiskLevel :=
  (exactAverage rows).map fun scoreAvg =>
    exactRisk ((attendanceShare rows).map (roundDecimals 3)) scoreAvg (homeworkMissing rows)

/-! ### Improvements -/

def LessonRecord.set (record : LessonRecord) (c : Column) (cell : SqlValue) : LessonRecord :=
  { record with cells := Function.update record.cells c cell }

/-- One change of a student's records for the better. -/
inductive Improves : List LessonRecord → List LessonRecord → Prop
  | attended {before after : List LessonRecord} {row : LessonRecord}
      (attendance : row.cells .attendance = present ∨ row.cells .attendance = late)
      (unscored : row.cells .homeworkScore = .null)
      (notMissing : isZero (row.cells .homeworkSubmitted) = false) :
      Improves (before ++ after) (before ++ row :: after)
  | turnedUp {before after : List LessonRecord} {row : LessonRecord} {label : SqlValue}
      (wasAbsent : row.cells .attendance = absent) (attendance : label = present ∨ label = late) :
      Improves (before ++ row :: after) (before ++ row.set .attendance label :: after)
  | scoredMore {before after : List LessonRecord} {row : LessonRecord} {cell : SqlValue} {low high : ℚ}
      (was : cellRat (row.cells .homeworkScore) = some low) (now : cellRat cell = some high)
      (more : low ≤ high) :
      Improves (before ++ row :: after) (before ++ row.set .homeworkScore cell :: after)
  | handedIn {before after : List LessonRecord} {row : LessonRecord} {cell : SqlValue}
      (wasMissing : isZero (row.cells .homeworkSubmitted) = true)
      (handed : cell = .int 1 ∨ cell = .null) :
      Improves (before ++ row :: after) (before ++ row.set .homeworkSubmitted cell :: after)

/-! ### What rounding and the thresholds keep -/

theorem roundDecimals_mono (digits : Nat) {q r : ℚ} (h : q ≤ r) :
    roundDecimals digits q ≤ roundDecimals digits r := by
  have hround : roundHalfEven (q * 10 ^ digits) ≤ roundHalfEven (r * 10 ^ digits) :=
    roundHalfEven_mono (by gcongr)
  unfold roundDecimals
  gcongr

/-- A figure is at least another one: it falls below no threshold up to `top` that the other one is
not below. -/
def AtLeast (top : ℚ) (better worse : Option ℚ) : Prop :=
  ∀ threshold ≤ top, better.any (· < threshold) = true → worse.any (· < threshold) = true

theorem AtLeast.refl (top : ℚ) (figure : Option ℚ) : AtLeast top figure figure := fun _ _ h => h

theorem atLeast_some {top q r : ℚ} (h : r ≤ q) : AtLeast top (some q) (some r) := by
  intro threshold _ hlow
  exact decide_eq_true (h.trans_lt (of_decide_eq_true hlow))

/-- A figure that is not known before is no worse from the top on. -/
theorem atLeast_none {top q : ℚ} (h : top ≤ q) : AtLeast top (some q) none := by
  intro threshold htop hlow
  exact absurd (of_decide_eq_true hlow) (not_lt.mpr (htop.trans h))

/-- Better figures and less missing homework give no worse risk. -/
theorem exactRisk_mono {rate rate' avg avg' : Option ℚ} {missing missing' : Nat}
    (hrate : AtLeast 1 rate' rate) (havg : AtLeast 100 avg' avg) (hmissing : missing' ≤ missing) :
    (exactRisk rate avg missing).rank ≤ (exactRisk rate' avg' missing').rank := by
  have hhigh : ((rate'.any fun rate => rate < 72 / 100) || (avg'.any fun avg => avg < 70)
      || 3 ≤ missing') = true → ((rate.any fun rate => rate < 72 / 100)
      || (avg.any fun avg => avg < 70) || 3 ≤ missing) = true := by
    simp only [Bool.or_eq_true, decide_eq_true_eq]
    exact Or.imp (Or.imp (hrate _ (by norm_num)) (havg _ (by norm_num))) hmissing.trans'
  have hmedium : ((rate'.any fun rate => rate < 86 / 100) || (avg'.any fun avg => avg < 80)
      || 1 ≤ missing') = true → ((rate.any fun rate => rate < 86 / 100)
      || (avg.any fun avg => avg < 80) || 1 ≤ missing) = true := by
    simp only [Bool.or_eq_true, decide_eq_true_eq]
    exact Or.imp (Or.imp (hrate _ (by norm_num)) (havg _ (by norm_num))) hmissing.trans'
  unfold exactRisk
  by_cases hworse : ((rate.any fun rate => rate < 72 / 100) || (avg.any fun avg => avg < 70)
      || 3 ≤ missing) = true
  · rw [if_pos hworse]
    exact Nat.zero_le _
  · rw [if_neg hworse, if_neg (mt hhigh hworse)]
    by_cases hpoor : ((rate.any fun rate => rate < 86 / 100) || (avg.any fun avg => avg < 80)
        || 1 ≤ missing) = true
    · rw [if_pos hpoor]
      split <;> decide
    · rw [if_neg hpoor, if_neg (mt hmedium hpoor)]

/-! ### What an improvement does to the figures -/

theorem count_insert (before after : List LessonRecord) (row : LessonRecord) (label : SqlValue) :
    countAttendance (before ++ row :: after) label =
      countAttendance (before ++ after) label + if row.cells .attendance = label then 1 else 0 := by
  simp only [countAttendance, List.countP_append, List.countP_cons, decide_eq_true_eq]
  omega

theorem missing_insert (before after : List LessonRecord) (row : LessonRecord) :
    homeworkMissing (before ++ row :: after) =
      homeworkMissing (before ++ after) + if isZero (row.cells .homeworkSubmitted) then 1 else 0 := by
  simp only [homeworkMissing, List.countP_append, List.countP_cons]
  omega

theorem scores_insert (before after : List LessonRecord) (row : LessonRecord) :
    scores (before ++ row :: after) = scores before ++
      (if row.cells .homeworkScore = .null then [] else [row.cells .homeworkScore]) ++ scores after := by
  simp only [scores, List.map_append, List.map_cons, List.filter_append, List.filter_cons,
    decide_eq_true_eq]
  split <;> simp_all

/-- More attended and fewer missed lessons give no lower share. -/
theorem share_mono {ok ok' missed missed' : Nat} (hok : ok ≤ ok') (hmissed : missed' ≤ missed) :
    AtLeast 1 ((share ok' missed').map (roundDecimals 3)) ((share ok missed).map (roundDecimals 3)) := by
  unfold share
  by_cases hknown' : ok' + missed' = 0
  · rw [if_pos hknown']
    exact fun _ _ h => absurd h Bool.false_ne_true
  · rw [if_neg hknown']
    have hpos' : (0 : ℚ) < ok' + missed' := by exact_mod_cast Nat.pos_of_ne_zero hknown'
    by_cases hknown : ok + missed = 0
    · have hnone : missed' = 0 := by omega
      have hall : (ok' : ℚ) / (ok' + missed') = 1 := by
        rw [hnone] at hpos' ⊢
        push_cast at hpos' ⊢
        rw [add_zero] at hpos' ⊢
        exact div_self hpos'.ne'
      rw [if_pos hknown, Option.map_some, Option.map_none, hall]
      exact atLeast_none (by decide +kernel)
    · have hpos : (0 : ℚ) < ok + missed := by exact_mod_cast Nat.pos_of_ne_zero hknown
      have hcross : (ok : ℚ) * missed' ≤ ok' * missed := by
        exact_mod_cast Nat.mul_le_mul hok hmissed
      rw [if_neg hknown]
      apply atLeast_some
      apply roundDecimals_mono
      rw [div_le_div_iff₀ hpos hpos']
      linarith

@[simp] theorem set_self (row : LessonRecord) (c : Column) (cell : SqlValue) :
    (row.set c cell).cells c = cell := by
  show Function.update row.cells c cell c = cell
  rw [Function.update_self]

theorem set_of_ne {row : LessonRecord} {c d : Column} (h : d ≠ c) (cell : SqlValue) :
    (row.set c cell).cells d = row.cells d := Function.update_of_ne h ..

/-- One score among others, raised. -/
theorem exactAverage_set {before after : List LessonRecord} {row : LessonRecord} {cell : SqlValue}
    {low high : ℚ} (was : cellRat (row.cells .homeworkScore) = some low)
    (now : cellRat cell = some high) (more : low ≤ high) {avg : Option ℚ}
    (h : exactAverage (before ++ row :: after) = some avg) :
    ∃ avg', exactAverage (before ++ row.set .homeworkScore cell :: after) = some avg' ∧
      AtLeast 100 avg' avg := by
  have hknown {cell : SqlValue} {q : ℚ} (h : cellRat cell = some q) : cell ≠ .null := by
    rintro rfl
    cases h
  rw [exactAverage, scores_insert, if_neg (hknown was)] at h
  rw [exactAverage, scores_insert, set_self, if_neg (hknown now)]
  rw [List.mapM_append, List.mapM_append, List.mapM_cons, List.mapM_nil] at h ⊢
  rw [was] at h
  rw [now]
  cases hfront : (scores before).mapM cellRat with
  | none =>
      rw [hfront] at h
      cases h
  | some front =>
      cases hback : (scores after).mapM cellRat with
      | none =>
          rw [hfront, hback] at h
          cases h
      | some back =>
          rw [hfront, hback] at h
          obtain rfl := Option.some.inj h
          refine ⟨_, rfl, ?_⟩
          have hlength : (front ++ [high] ++ back).length = (front ++ [low] ++ back).length := by
            simp only [List.length_append, List.length_singleton]
          have hsum : (front ++ [low] ++ back).sum ≤ (front ++ [high] ++ back).sum := by
            simp only [List.sum_append, List.sum_singleton]
            linarith
          have hfilled (q : ℚ) : (front ++ [q] ++ back).isEmpty = false := by simp
          simp only [hfilled, Bool.false_eq_true, if_false, hlength]
          apply atLeast_some
          apply roundDecimals_mono
          exact div_le_div_of_nonneg_right hsum (Nat.cast_nonneg _)

theorem scores_set {before after : List LessonRecord} {row : LessonRecord} {c : Column}
    (h : .homeworkScore ≠ c) (cell : SqlValue) :
    scores (before ++ row.set c cell :: after) = scores (before ++ row :: after) := by
  rw [scores_insert, scores_insert, set_of_ne h]

/-- One improvement does not make the risk worse. -/
theorem exactRiskLevel_improves {rows rows' : List LessonRecord} (h : Improves rows rows') {level : RiskLevel}
    (hlevel : exactRiskLevel rows = some level) :
    ∃ level', exactRiskLevel rows' = some level' ∧ level.rank ≤ level'.rank := by
  obtain ⟨avg, havg, rfl⟩ := Option.map_eq_some_iff.mp hlevel
  have hsame {rows' : List LessonRecord} (hscores : scores rows' = scores rows)
      (hok : countAttendance rows present + countAttendance rows late ≤
        countAttendance rows' present + countAttendance rows' late)
      (habsent : countAttendance rows' absent ≤ countAttendance rows absent)
      (hmissing : homeworkMissing rows' ≤ homeworkMissing rows) :
      ∃ level', exactRiskLevel rows' = some level' ∧
        (exactRisk ((attendanceShare rows).map (roundDecimals 3)) avg (homeworkMissing rows)).rank ≤
          level'.rank := by
    have havg' : exactAverage rows' = some avg := by rw [exactAverage, hscores]; exact havg
    refine ⟨_, by rw [exactRiskLevel, havg']; rfl, ?_⟩
    exact exactRisk_mono (share_mono hok habsent) (AtLeast.refl 100 avg) hmissing
  cases h with
  | @attended before after row attendance unscored notMissing =>
      have hpresent : row.cells .attendance ≠ absent := by
        rcases attendance with h | h <;> rw [h] <;> decide
      apply hsame
      · rw [scores_insert, if_pos unscored, List.append_nil]
        simp only [scores, List.map_append, List.filter_append]
      · rw [count_insert, count_insert]
        omega
      · rw [count_insert, if_neg hpresent, Nat.add_zero]
      · rw [missing_insert, notMissing, if_neg Bool.false_ne_true, Nat.add_zero]
  | @turnedUp before after row label wasAbsent attendance =>
      have hlabel : label ≠ absent := by
        rcases attendance with h | h <;> rw [h] <;> decide
      apply hsame (scores_set (by decide) label)
      · simp only [count_insert, wasAbsent, if_neg (show absent ≠ present by decide),
          if_neg (show absent ≠ late by decide)]
        omega
      · rw [count_insert, count_insert, set_self, if_neg hlabel]
        omega
      · rw [missing_insert, missing_insert, set_of_ne (by decide)]
  | @scoredMore before after row cell low high was now more =>
      obtain ⟨avg', havg', hmore⟩ := exactAverage_set was now more havg
      refine ⟨_, by rw [exactRiskLevel, havg']; rfl, ?_⟩
      have hcount (label : SqlValue) : countAttendance (before ++ row.set .homeworkScore cell :: after)
          label = countAttendance (before ++ row :: after) label := by
        rw [count_insert, count_insert, set_of_ne (by decide)]
      have hmissing : homeworkMissing (before ++ row.set .homeworkScore cell :: after) =
          homeworkMissing (before ++ row :: after) := by
        rw [missing_insert, missing_insert, set_of_ne (by decide)]
      rw [attendanceShare, attendanceShare, hcount, hcount, hcount, hmissing]
      exact exactRisk_mono (AtLeast.refl 1 _) hmore (Nat.le_refl _)
  | @handedIn before after row cell wasMissing handed =>
      have hcell : isZero cell = false := by
        rcases handed with rfl | rfl <;> decide
      apply hsame (scores_set (by decide) cell)
      · simp only [count_insert, set_of_ne (show Column.attendance ≠ .homeworkSubmitted by decide)]
        exact Nat.le_refl _
      · simp only [count_insert, set_of_ne (show Column.attendance ≠ .homeworkSubmitted by decide)]
        exact Nat.le_refl _
      · rw [missing_insert, missing_insert, set_self, hcell, if_neg Bool.false_ne_true]
        omega

/-- However many improvements follow one another, the risk does not get worse. -/
theorem risk_monotone {rows rows' : List LessonRecord} (h : Relation.ReflTransGen Improves rows rows')
    {level : RiskLevel} (hlevel : exactRiskLevel rows = some level) :
    ∃ level', exactRiskLevel rows' = some level' ∧ level.rank ≤ level'.rank := by
  induction h with
  | refl => exact ⟨level, hlevel, Nat.le_refl _⟩
  | tail _ hstep ih =>
      obtain ⟨between, hbetween, hle⟩ := ih
      obtain ⟨level', hlevel', hle'⟩ := exactRiskLevel_improves hstep hbetween
      exact ⟨level', hlevel', hle.trans hle'⟩

/-- A student who missed the one lesson there was. -/
def missedLesson : LessonRecord := ⟨"5", 9, fun c => if c = .attendance then absent else .null⟩

example : exactRiskLevel [missedLesson] = some .high ∧
    exactRiskLevel [missedLesson.set .attendance late] = some .good := by decide +kernel

theorem risk_monotone_missedLesson :
    ∃ level', exactRiskLevel ([] ++ missedLesson.set .attendance late :: []) = some level' ∧
      RiskLevel.high.rank ≤ level'.rank :=
  risk_monotone (.single (.turnedUp rfl (.inr rfl))) (by decide +kernel)

end ClassinDashboard

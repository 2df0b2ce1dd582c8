import Mathlib.Data.List.MinMax
import ClassinDashboard.EntityResolution

/-!
Existing courses whose names fit a planned course equally well. The scan over the stored courses keeps
the first of the best, so that a tie is decided by the order of the rows, and nothing is ever asked
about the course.
-/

namespace ClassinDashboard

open Py Sql

variable {p : Platform} {similarity : Text → Text → Rat}

/-! ### The scan -/

/-- The name of a stored course as it is compared. -/
def courseKey (p : Platform) (row : Int × CourseRow) : Text :=
  normalizeCourseName p ((row.2.name.getD "").toList)

/-- How similar the name of a stored course is to a normalized name. -/
def rowSimilarity (p : Platform) (similarity : Text → Text → Rat) (target : Text)
    (row : Int × CourseRow) : Rat :=
  if courseKey p row = target then 1 else similarity (courseKey p row) target

def namedRows (p : Platform) (rows : List (Int × CourseRow)) : List (Int × CourseRow) :=
  rows.filter fun row => !(courseKey p row).isEmpty

/-- The scan finds the first of the named rows with the greatest similarity. -/
theorem bestCourse_eq (target : Text) (rows : List (Int × CourseRow)) :
    bestCourse p similarity target rows =
      match (namedRows p rows).argmax (rowSimilarity p similarity target) with
      | some row =>
          if 0 < rowSimilarity p similarity target row then
            (some row, rowSimilarity p similarity target row)
          else (none, 0)
      | none => (none, 0) := by
  induction rows using List.reverseRecOn with
  | nil => rfl
  | append_singleton rows row ih =>
      have hrows : namedRows p (rows ++ [row]) =
          namedRows p rows ++ [row].filter fun row => !(courseKey p row).isEmpty :=
        List.filter_append ..
      rw [bestCourse, List.foldl_append, ← bestCourse, ih, hrows, List.foldl_cons, List.foldl_nil]
      change (if (courseKey p row).isEmpty then _ else
        if _ < rowSimilarity p similarity target row then
          (some row, rowSimilarity p similarity target row) else _) = _
      by_cases hnamed : (courseKey p row).isEmpty = true
      · simp [hnamed]
      · rw [if_neg hnamed, List.filter_cons_of_pos (by simpa using hnamed), List.filter_nil,
          List.argmax_concat]
        cases (namedRows p rows).argmax (rowSimilarity p similarity target) with
        | none => rfl
        | some best =>
            dsimp only
            split <;> split <;> grind

/-- The stored course that a planned course is taken for. -/
def reusedCourse (p : Platform) (similarity : Text → Text → Rat) (target : Text)
    (rows : List (Int × CourseRow)) : Option (Int × CourseRow) :=
  if target.isEmpty then none
  else ((namedRows p rows).argmax (rowSimilarity p similarity target)).filter fun row =>
    85 / 100 ≤ rowSimilarity p similarity target row

/-- The rows matter to a course only through the one it is taken for. -/
theorem resolveCourse_eq (course : PlannedCourse) (rows : List (Int × CourseRow)) :
    resolveCourse p similarity course rows =
      match reusedCourse p similarity (normalizeCourseName p course.courseName) rows with
      | none => .ok (course, [], none)
      | some row => (cellInt row.2.teacherUid).map fun teacherUid =>
          ({ course with existingCourseId := some row.1 },
            ["「".toList ++ course.courseName ++ "」은 기존 코스 「".toList ++ (row.2.name.getD "").toList
              ++ "」(ID ".toList ++ intDecimal row.1 ++ ")로 판단해 재사용합니다.".toList],
            teacherUid) := by
  unfold resolveCourse reusedCourse
  dsimp only
  by_cases hempty : (normalizeCourseName p course.courseName).isEmpty = true
  · rw [if_pos hempty, if_pos hempty]
  · rw [if_neg hempty, if_neg hempty, bestCourse_eq]
    cases (namedRows p rows).argmax (rowSimilarity p similarity
        (normalizeCourseName p course.courseName)) with
    | none => rfl
    | some row =>
        dsimp only
        by_cases hscore : 85 / 100 ≤ rowSimilarity p similarity
            (normalizeCourseName p course.courseName) row
        · have hpos : 0 < rowSimilarity p similarity (normalizeCourseName p course.courseName) row :=
            lt_of_lt_of_le (by norm_num) hscore
          rw [if_pos hpos, Option.filter_some, if_pos (by simpa using hscore)]
          dsimp only
          rw [if_neg (not_lt.mpr hscore)]
        · have hnone : (some row).filter (fun row => 85 / 100 ≤ rowSimilarity p similarity
              (normalizeCourseName p course.courseName) row) = none := by
            simpa using hscore
          rw [hnone]
          split
          · rfl
          · rename_i heq
            split at heq
            · cases heq
              rw [if_pos (not_le.mp hscore)]
            · cases heq

/-! ### Ties -/

/-- Rows of two courses are both the most similar to a name, and similar enough. -/
def Tied (p : Platform) (similarity : Text → Text → Rat) (target : Text)
    (rows : List (Int × CourseRow)) : Prop :=
  ∃ first ∈ rows, ∃ second ∈ rows, first.1 ≠ second.1 ∧
    85 / 100 ≤ rowSimilarity p similarity target first ∧
    rowSimilarity p similarity target second = rowSimilarity p similarity target first ∧
    ∀ row ∈ rows, rowSimilarity p similarity target row ≤ rowSimilarity p similarity target first

instance (target : Text) (rows : List (Int × CourseRow)) :
    Decidable (Tied p similarity target rows) :=
  inferInstanceAs (Decidable (∃ first ∈ rows, ∃ second ∈ rows, _))

/-- Neither the rows nor, for a name that is not blank, those of them with a name are tied for it. -/
def Unambiguous (p : Platform) (similarity : Text → Text → Rat) (rows : List (Int × CourseRow))
    (course : PlannedCourse) : Prop :=
  let target := normalizeCourseName p course.courseName
  ¬Tied p similarity target rows ∧ (target ≠ [] → ¬Tied p similarity target (namedRows p rows))

/-- A tied course is left open and asked about. -/
def AsksAmbiguous (p : Platform) (similarity : Text → Text → Rat) (rows : List (Int × CourseRow))
    (plan plan' : ParsePlan) : Prop :=
  ∀ pair ∈ plan.courses.zip plan'.courses,
    Tied p similarity (normalizeCourseName p pair.1.courseName) rows →
      pair.2.existingCourseId = none ∧
        ∃ question ∈ plan'.needsConfirm.drop plan.needsConfirm.length, question.kind = .course

/-- Whatever the order of the rows, the plan resolves to the same existing courses. -/
def RowOrderFree (p : Platform) (similarity : Text → Text → Rat) (teachers : List KnownTeacher)
    (rows : List (Int × CourseRow)) (plan plan' : ParsePlan) : Prop :=
  ∀ rows' : List (Int × CourseRow), rows'.Perm rows →
    ∃ plan'', resolveEntities p similarity plan teachers rows' = .ok plan'' ∧
      plan''.courses.map PlannedCourse.existingCourseId =
        plan'.courses.map PlannedCourse.existingCourseId

theorem reusedCourse_mem {target : Text} {rows : List (Int × CourseRow)} {row : Int × CourseRow}
    (h : reusedCourse p similarity target rows = some row) :
    target ≠ [] ∧ row ∈ namedRows p rows ∧ 85 / 100 ≤ rowSimilarity p similarity target row ∧
      ∀ other ∈ namedRows p rows,
        rowSimilarity p similarity target other ≤ rowSimilarity p similarity target row := by
  unfold reusedCourse at h
  split at h
  · cases h
  · rename_i hempty
    obtain ⟨hrow, hscore⟩ := Option.filter_eq_some_iff.mp h
    refine ⟨by simpa using hempty, List.argmax_mem hrow, of_decide_eq_true hscore, ?_⟩
    exact fun other hother => List.le_of_mem_argmax hother hrow

theorem reusedCourse_isSome {target : Text} {rows : List (Int × CourseRow)} {row : Int × CourseRow}
    (htarget : target ≠ []) (hrow : row ∈ namedRows p rows)
    (hscore : 85 / 100 ≤ rowSimilarity p similarity target row) :
    ∃ best, reusedCourse p similarity target rows = some best := by
  unfold reusedCourse
  rw [if_neg (by simpa using htarget)]
  cases hbest : (namedRows p rows).argmax (rowSimilarity p similarity target) with
  | none =>
      rw [List.argmax_eq_none] at hbest
      rw [hbest] at hrow
      cases hrow
  | some best =>
      refine ⟨best, ?_⟩
      rw [Option.filter_some, if_pos]
      exact decide_eq_true (le_trans hscore (List.le_of_mem_argmax hrow hbest))

/-- Without a tie the course that is reused does not depend on the order of the rows. -/
theorem reusedCourse_perm {target : Text} {rows rows' : List (Int × CourseRow)}
    (hperm : rows'.Perm rows) (hkey : (rows.map Prod.fst).Nodup)
    (hties : target ≠ [] → ¬Tied p similarity target (namedRows p rows)) :
    reusedCourse p similarity target rows' = reusedCourse p similarity target rows := by
  have hnamed : (namedRows p rows').Perm (namedRows p rows) := hperm.filter _
  cases hfirst : reusedCourse p similarity target rows with
  | none =>
      cases hother : reusedCourse p similarity target rows' with
      | none => rfl
      | some row =>
          obtain ⟨htarget, hrow, hscore, _⟩ := reusedCourse_mem hother
          obtain ⟨best, hbest⟩ := reusedCourse_isSome htarget (hnamed.mem_iff.mp hrow) hscore
          rw [hfirst] at hbest
          cases hbest
  | some first =>
      obtain ⟨htarget, hmem, hscore, hmax⟩ := reusedCourse_mem hfirst
      obtain ⟨second, hsecond⟩ := reusedCourse_isSome htarget (hnamed.mem_iff.mpr hmem) hscore
      obtain ⟨_, hmem', _, hmax'⟩ := reusedCourse_mem hsecond
      have hequal : rowSimilarity p similarity target second = rowSimilarity p similarity target first :=
        le_antisymm (hmax second (hnamed.mem_iff.mp hmem')) (hmax' first (hnamed.mem_iff.mpr hmem))
      have hid : first.1 = second.1 := by
        by_contra hne
        exact hties htarget
          ⟨first, hmem, second, hnamed.mem_iff.mp hmem', hne, hscore, hequal, hmax⟩
      have hrows (row : Int × CourseRow) (h : row ∈ namedRows p rows) : row ∈ rows :=
        (List.mem_filter.mp h).1
      rw [hsecond, List.inj_on_of_nodup_map hkey (hrows second (hnamed.mem_iff.mp hmem'))
        (hrows first hmem) hid.symm]

/-- A named row that is as similar as the best is reused when it comes first. -/
theorem reusedCourse_cons {target : Text} {rows : List (Int × CourseRow)} {row : Int × CourseRow}
    (htarget : target ≠ []) (hnamed : courseKey p row ≠ [])
    (hscore : 85 / 100 ≤ rowSimilarity p similarity target row)
    (hmax : ∀ other ∈ namedRows p rows,
      rowSimilarity p similarity target other ≤ rowSimilarity p similarity target row) :
    reusedCourse p similarity target (row :: rows) = some row := by
  unfold reusedCourse
  rw [if_neg (by simpa using htarget), namedRows, List.filter_cons_of_pos (by simpa using hnamed),
    ← namedRows, List.argmax_cons]
  have hkeep : (some row).filter (fun row => 85 / 100 ≤ rowSimilarity p similarity target row) =
      some row := by
    simpa using hscore
  cases hbest : (namedRows p rows).argmax (rowSimilarity p similarity target) with
  | none => exact hkeep
  | some best =>
      dsimp only
      rw [if_neg (not_lt.mpr (hmax best (List.argmax_mem hbest))), hkeep]

/-! ### Questions -/

theorem resolveTeacher_asks_teacher {course : PlannedCourse} {teachers : List KnownTeacher}
    {uid : Option Int} {question : Question}
    (h : question ∈ (resolveTeacher p similarity course teachers uid).questions) :
    question.kind = .teacher := by
  unfold resolveTeacher resolveUnnamed at h
  dsimp only at h
  split at h
  · split at h
    · exact absurd h List.not_mem_nil
    · exact absurd h List.not_mem_nil
    · rw [List.mem_singleton.mp h]
  · split at h
    · rw [List.mem_singleton.mp h]
    · split at h
      · exact absurd h List.not_mem_nil
      · rw [List.mem_singleton.mp h]

/-- No question is ever about a course. -/
theorem resolveEntities_asks_teacher {plan plan' : ParsePlan} {teachers : List KnownTeacher}
    {rows : List (Int × CourseRow)} (h : resolveEntities p similarity plan teachers rows = .ok plan')
    {question : Question} (hasked : question ∈ plan'.needsConfirm.drop plan.needsConfirm.length) :
    question.kind = .teacher := by
  obtain ⟨resolved, hresolved, rfl⟩ := resolveEntities_eq_ok.mp h
  rw [List.drop_left] at hasked
  obtain ⟨r, hr, hquestion⟩ := List.mem_flatMap.mp hasked
  obtain ⟨i, hi, rfl⟩ := List.mem_iff_getElem.mp hr
  rw [List.forall₂_iff_get] at hresolved
  obtain ⟨⟨found, notes, uid⟩, _, heq⟩ := map_eq_ok.mp (hresolved.2 i (by omega) hi)
  rw [List.get_eq_getElem] at heq
  rw [← heq] at hquestion
  exact resolveTeacher_asks_teacher hquestion

/-! ### When ambiguity is asked about -/

theorem resolveTeacher_existing (course : PlannedCourse) (teachers : List KnownTeacher)
    (uid : Option Int) :
    (resolveTeacher p similarity course teachers uid).course.existingCourseId =
      course.existingCourseId := by
  unfold resolveTeacher resolveUnnamed
  dsimp only
  split
  · split <;> rfl
  · split
    · rfl
    · split <;> rfl

/-- What becomes of the existing course of a planned course. -/
theorem resolveOne_existing {course : PlannedCourse} {teachers : List KnownTeacher}
    {rows : List (Int × CourseRow)} {resolved : Resolution}
    (h : resolveOne p similarity teachers rows course = .ok resolved) :
    resolved.course.existingCourseId =
      ((reusedCourse p similarity (normalizeCourseName p course.courseName) rows).map Prod.fst).or
        course.existingCourseId := by
  obtain ⟨⟨found, notes, uid⟩, hfound, rfl⟩ := map_eq_ok.mp h
  rw [resolveTeacher_existing]
  rw [resolveCourse_eq] at hfound
  cases hreused : reusedCourse p similarity (normalizeCourseName p course.courseName) rows with
  | none =>
      rw [hreused] at hfound
      cases hfound
      rfl
  | some row =>
      rw [hreused] at hfound
      obtain ⟨_, _, hfound⟩ := map_eq_ok.mp hfound
      cases hfound
      rfl

theorem resolveEntities_existing {plan plan' : ParsePlan} {teachers : List KnownTeacher}
    {rows : List (Int × CourseRow)}
    (h : resolveEntities p similarity plan teachers rows = .ok plan') :
    plan'.courses.map PlannedCourse.existingCourseId = plan.courses.map fun course =>
      ((reusedCourse p similarity (normalizeCourseName p course.courseName) rows).map Prod.fst).or
        course.existingCourseId := by
  obtain ⟨resolved, hresolved, rfl⟩ := resolveEntities_eq_ok.mp h
  rw [List.map_map, ← List.forall₂_eq_eq_eq, List.forall₂_map_left_iff, List.forall₂_map_right_iff]
  exact (hresolved.imp fun course r hr => resolveOne_existing hr).flip

/-- Unless two courses are tied the order of the rows makes no difference at all. -/
theorem resolveEntities_perm {plan plan' : ParsePlan} {teachers : List KnownTeacher}
    {rows rows' : List (Int × CourseRow)} (hkey : (rows.map Prod.fst).Nodup)
    (hclear : ∀ course ∈ plan.courses, Unambiguous p similarity rows course)
    (hperm : rows'.Perm rows) (h : resolveEntities p similarity plan teachers rows = .ok plan') :
    resolveEntities p similarity plan teachers rows' = .ok plan' := by
  obtain ⟨resolved, hresolved, rfl⟩ := resolveEntities_eq_ok.mp h
  refine resolveEntities_eq_ok.mpr ⟨resolved, ?_, rfl⟩
  rw [List.forall₂_iff_get] at hresolved ⊢
  refine ⟨hresolved.1, fun i hi hi' => ?_⟩
  rw [← hresolved.2 i hi hi', resolveOne, resolveOne, resolveCourse_eq, resolveCourse_eq,
    reusedCourse_perm hperm hkey (hclear _ (List.get_mem _ _)).2]

/-- A tie among the named rows shows in some order of the rows. -/
theorem not_rowOrderFree {plan plan' : ParsePlan} {teachers : List KnownTeacher}
    {rows : List (Int × CourseRow)} {course : PlannedCourse} (hcourse : course ∈ plan.courses)
    (hname : normalizeCourseName p course.courseName ≠ [])
    (htied : Tied p similarity (normalizeCourseName p course.courseName) (namedRows p rows))
    (h : resolveEntities p similarity plan teachers rows = .ok plan') :
    ¬RowOrderFree p similarity teachers rows plan plan' := by
  intro hfree
  obtain ⟨first, hfirst, second, hsecond, hne, hscore, hequal, hmax⟩ := htied
  obtain ⟨chosen, hchosen⟩ := reusedCourse_isSome hname hfirst hscore
  have hother : ∃ other ∈ namedRows p rows, other.1 ≠ chosen.1 ∧
      rowSimilarity p similarity (normalizeCourseName p course.courseName) other =
        rowSimilarity p similarity (normalizeCourseName p course.courseName) first := by
    by_cases hid : first.1 = chosen.1
    · exact ⟨second, hsecond, fun hsame => hne (hid.trans hsame.symm), hequal⟩
    · exact ⟨first, hfirst, hid, rfl⟩
  obtain ⟨other, hmem, hdiffers, hsame⟩ := hother
  obtain ⟨hrow, hnamed⟩ := List.mem_filter.mp hmem
  -- The other row is put first.
  obtain ⟨plan'', hplan'', hids⟩ := hfree (other :: rows.erase other) (List.perm_cons_erase hrow).symm
  rw [resolveEntities_existing h, resolveEntities_existing hplan'', List.map_inj_left] at hids
  have hid := hids course hcourse
  rw [reusedCourse_cons hname (by simpa using hnamed) (hsame ▸ hscore) (fun row hrow' => ?_), hchosen]
    at hid
  · exact hdiffers (by simpa using hid)
  · rw [hsame]
    obtain ⟨herased, hrow'⟩ := List.mem_filter.mp hrow'
    exact hmax row (List.mem_filter.mpr ⟨List.mem_of_mem_erase herased, hrow'⟩)

/-- A tied course is not asked about. -/
theorem not_asksAmbiguous {plan plan' : ParsePlan} {teachers : List KnownTeacher}
    {rows : List (Int × CourseRow)} {course : PlannedCourse} (hcourse : course ∈ plan.courses)
    (htied : Tied p similarity (normalizeCourseName p course.courseName) rows)
    (h : resolveEntities p similarity plan teachers rows = .ok plan') :
    ¬AsksAmbiguous p similarity rows plan plan' := by
  intro hasks
  have hlength : plan.courses.length = plan'.courses.length := by
    simpa using (congrArg List.length (resolveEntities_existing h)).symm
  rw [← List.map_fst_zip hlength.le] at hcourse
  obtain ⟨pair, hpair, rfl⟩ := List.mem_map.mp hcourse
  obtain ⟨_, question, hquestion, hkind⟩ := hasks pair hpair htied
  rw [resolveEntities_asks_teacher h hquestion] at hkind
  cases hkind

/-- Ambiguous courses are asked about, and the order of the rows is immaterial, exactly when no planned
course is ambiguous in the first place. -/
theorem ambiguous_asked_iff (p : Platform) (similarity : Text → Text → Rat) (plan plan' : ParsePlan)
    (teachers : List KnownTeacher) (rows : List (Int × CourseRow))
    (hkey : (rows.map Prod.fst).Nodup)
    (h : resolveEntities p similarity plan teachers rows = .ok plan') :
    AsksAmbiguous p similarity rows plan plan' ∧ RowOrderFree p similarity teachers rows plan plan' ↔
      ∀ course ∈ plan.courses, Unambiguous p similarity rows course := by
  constructor
  · rintro ⟨hasks, hfree⟩ course hcourse
    exact ⟨fun htied => not_asksAmbiguous hcourse htied h hasks,
      fun hname htied => not_rowOrderFree hcourse hname htied h hfree⟩
  · intro hclear
    refine ⟨fun pair hpair htied => ?_, fun rows' hperm => ?_⟩
    · exact absurd htied (hclear pair.1 (List.of_mem_zip hpair).1).1
    · exact ⟨plan', resolveEntities_perm hkey hclear hperm h, rfl⟩

/-- Two stored courses of one name. -/
def twinRows : List (Int × CourseRow) :=
  [(1, ⟨some "수학", .null, none, "dashboard", none⟩), (2, ⟨some "수학", .null, none, "dashboard", none⟩)]

def planOfMath : ParsePlan := ⟨[plannedCourse "수학" none], [], [], .csv⟩

/-- Texts are similar when they are equal. -/
def sameText (a b : Text) : Rat := if a = b then 1 else 0

theorem planOfMath_resolves : ∀ rows ∈ [twinRows, twinRows.take 1],
    ∃ plan', resolveEntities .plain sameText planOfMath [] rows = .ok plan' := by
  intro rows hrows
  have hreturns : ([twinRows, twinRows.take 1].all fun rows =>
      (resolveEntities .plain sameText planOfMath [] rows).toOption.isSome) = true := by
    decide +kernel
  exact exists_ok (List.all_eq_true.mp hreturns rows hrows)

theorem planOfMath_unambiguous : ∃ plan',
    resolveEntities .plain sameText planOfMath [] (twinRows.take 1) = .ok plan' ∧
      AsksAmbiguous .plain sameText (twinRows.take 1) planOfMath plan' ∧
      RowOrderFree .plain sameText [] (twinRows.take 1) planOfMath plan' := by
  obtain ⟨plan', hplan⟩ := planOfMath_resolves (twinRows.take 1) (by simp)
  refine ⟨plan', hplan, (ambiguous_asked_iff .plain sameText planOfMath plan' [] (twinRows.take 1)
    (by decide) hplan).mpr fun course _ => ?_⟩
  have hclear (target : Text) (rows : List (Int × CourseRow)) (hrows : rows ⊆ twinRows.take 1) :
      ¬Tied .plain sameText target rows := by
    rintro ⟨first, hfirst, second, hsecond, hne, _⟩
    rw [List.eq_of_mem_singleton (hrows hfirst), List.eq_of_mem_singleton (hrows hsecond)] at hne
    exact hne rfl
  exact ⟨hclear _ _ (List.Subset.refl _), fun _ => hclear _ _ (List.filter_subset_self _)⟩

/-- Two stored courses of the planned name: the first is taken, and nothing is asked. -/
theorem twinRows_guessed :
    ¬∀ (p : Platform) (similarity : Text → Text → Rat) (plan plan' : ParsePlan)
      (teachers : List KnownTeacher) (rows : List (Int × CourseRow)),
      (∀ a b, 0 ≤ similarity a b ∧ similarity a b ≤ 1) → (∀ a, similarity a a = 1) →
      (rows.map Prod.fst).Nodup → resolveEntities p similarity plan teachers rows = .ok plan' →
        AsksAmbiguous p similarity rows plan plan' ∧
          RowOrderFree p similarity teachers rows plan plan' := by
  intro hall
  obtain ⟨plan', hplan⟩ := planOfMath_resolves twinRows (by simp)
  have hunit (a b : Text) : 0 ≤ sameText a b ∧ sameText a b ≤ 1 := by
    unfold sameText
    split <;> norm_num
  have hasks := (hall .plain sameText planOfMath plan' [] twinRows hunit (fun a => if_pos rfl)
    (by decide) hplan).1
  have htied : Tied .plain sameText
      (normalizeCourseName .plain (plannedCourse "수학" none).courseName) twinRows := by
    decide +kernel
  exact not_asksAmbiguous (List.mem_singleton_self _) htied hplan hasks

end ClassinDashboard

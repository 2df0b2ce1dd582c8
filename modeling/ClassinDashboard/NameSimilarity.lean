import ClassinDashboard.CourseAmbiguity
import ClassinDashboard.PyDifflib

/-!
Names resolved with the similarity that the parser really uses, the ratio of `SequenceMatcher`. A
course or teacher that a plan is pointed at shares most of its name with what was asked for, and the
exact name is never passed over for a similar one.
-/

namespace ClassinDashboard

open Py

/-! ### The similarity of names -/

/-- Two names have a common subsequence that makes up at least a share of both. -/
def Shares (share : Rat) (a b : Text) : Prop :=
  ∃ l : Text, l.Sublist a ∧ l.Sublist b ∧ share * (a.length + b.length : Nat) ≤ 2 * l.length

/-- Two names have a common block that makes up at least a share of both, and the second is too short to
have elements that are ignored. -/
def SharesBlock (share : Rat) (a b : Text) : Prop :=
  b.length < 200 ∧ ∃ w : Text, w <:+: a ∧ w <:+: b ∧ share * (a.length + b.length : Nat) ≤ 2 * w.length

theorem shares_of_ratio {share : Rat} {a b : Text} (h : share ≤ SequenceMatcher.ratio a b) :
    Shares share a b := by
  obtain ⟨l, ha, hb, hratio⟩ := SequenceMatcher.ratio_common a b
  refine ⟨l, ha, hb, ?_⟩
  rw [← hratio, mul_comm]
  exact mul_le_mul_of_nonneg_left h (Nat.cast_nonneg _)

theorem ratio_of_sharesBlock {share : Rat} {a b : Text} (hb : b ≠ []) (h : SharesBlock share a b) :
    share ≤ SequenceMatcher.ratio a b := by
  obtain ⟨hshort, w, hwa, hwb, hshare⟩ := h
  have hlive : ∀ x ∈ w, SequenceMatcher.live b x = true := by
    intro x _
    rw [SequenceMatcher.live, decide_eq_false (Nat.not_le.mpr hshort)]
    rfl
  have hpos : (0 : Rat) < (a.length + b.length : Nat) :=
    Nat.cast_pos.mpr (Nat.add_pos_right _ (List.length_pos_of_ne_nil hb))
  refine le_of_mul_le_mul_left ?_ hpos
  rw [mul_comm]
  exact le_trans hshare (SequenceMatcher.length_le_ratio hlive hwa hwb)

section Courses

variable {p : Platform}

/-- The shortcut for equal names gives what the ratio gives. -/
theorem rowSimilarity_ratio (target : Text) (row : Int × CourseRow) :
    rowSimilarity p SequenceMatcher.ratio target row = SequenceMatcher.ratio (courseKey p row) target := by
  rw [rowSimilarity]
  split
  · rename_i hsame
    rw [hsame, SequenceMatcher.ratio_self]
  · rfl

/-- What a planned course may be taken for. -/
structure ReusedByName (p : Platform) (rows : List (Int × CourseRow)) (course resolved : PlannedCourse) :
    Prop where
  /-- Only a course that shares 85 % of its name. -/
  similar : ∀ id, resolved.existingCourseId = some id → ∃ row ∈ rows, row.1 = id ∧
    Shares (85 / 100) (courseKey p row) (normalizeCourseName p course.courseName)
  /-- A course with the very name, when there is one. -/
  exact : normalizeCourseName p course.courseName ≠ [] →
    (∃ row ∈ rows, courseKey p row = normalizeCourseName p course.courseName) →
      ∃ row ∈ rows, courseKey p row = normalizeCourseName p course.courseName ∧
        resolved.existingCourseId = some row.1
  /-- Some course, when there is one that has a block of 85 % in common, and the planned name is short. -/
  block : normalizeCourseName p course.courseName ≠ [] → ∀ row ∈ rows, courseKey p row ≠ [] →
    SharesBlock (85 / 100) (courseKey p row) (normalizeCourseName p course.courseName) →
      ∃ id, resolved.existingCourseId = some id

theorem reusedByName {rows : List (Int × CourseRow)} {course resolved : PlannedCourse}
    (h : resolved.existingCourseId = (reusedCourse p SequenceMatcher.ratio
      (normalizeCourseName p course.courseName) rows).map Prod.fst) :
    ReusedByName p rows course resolved := by
  have hmem {row : Int × CourseRow} (hrow : row ∈ rows) (hne : courseKey p row ≠ []) :
      row ∈ namedRows p rows := List.mem_filter.mpr ⟨hrow, by simpa using hne⟩
  refine ⟨fun id hid => ?_, fun htarget hexact => ?_, fun htarget row hrow hne hblock => ?_⟩
  · rw [h] at hid
    obtain ⟨row, hreused, rfl⟩ := Option.map_eq_some_iff.mp hid
    obtain ⟨_, hrow, hscore, _⟩ := reusedCourse_mem hreused
    rw [rowSimilarity_ratio] at hscore
    exact ⟨row, (List.mem_filter.mp hrow).1, rfl, shares_of_ratio hscore⟩
  · obtain ⟨row, hrow, hkey⟩ := hexact
    have hone : rowSimilarity p SequenceMatcher.ratio (normalizeCourseName p course.courseName) row = 1 :=
      if_pos hkey
    have hnamed := hmem hrow (hkey.symm ▸ htarget)
    obtain ⟨best, hbest⟩ := reusedCourse_isSome htarget hnamed (by rw [hone]; norm_num)
    obtain ⟨_, hbestMem, _, hmax⟩ := reusedCourse_mem hbest
    have hbestOne := hmax row hnamed
    rw [hone, rowSimilarity_ratio] at hbestOne
    have hsame := SequenceMatcher.eq_of_ratio_eq_one
      (le_antisymm (SequenceMatcher.ratio_le_one _ _) hbestOne)
    exact ⟨best, (List.mem_filter.mp hbestMem).1, hsame, by rw [h, hbest]; rfl⟩
  · have hscore := ratio_of_sharesBlock htarget hblock
    rw [← rowSimilarity_ratio] at hscore
    obtain ⟨best, hbest⟩ := reusedCourse_isSome htarget (hmem hrow hne) hscore
    exact ⟨best.1, by rw [h, hbest]; rfl⟩

/-- A planned course is only ever taken for a course whose name is 85 % the same, never for one with a
similar name when one has the very name, and always for some when one shares a block of 85 %, if the
planned name has less than 200 characters: a longer one has elements that the similarity ignores. -/
theorem courses_reused_by_name (p : Platform) (plan plan' : ParsePlan) (teachers : List KnownTeacher)
    (rows : List (Int × CourseRow))
    (h : resolveEntities p SequenceMatcher.ratio plan teachers rows = .ok plan')
    (hfresh : ∀ course ∈ plan.courses, course.existingCourseId = none) :
    List.Forall₂ (ReusedByName p rows) plan.courses plan'.courses := by
  obtain ⟨resolved, hresolved, rfl⟩ := resolveEntities_eq_ok.mp h
  rw [List.forall₂_map_right_iff]
  rw [List.forall₂_iff_get] at hresolved ⊢
  refine ⟨hresolved.1, fun i hi hi' => reusedByName ?_⟩
  rw [resolveOne_existing (hresolved.2 i hi hi'), hfresh _ (List.get_mem _ _), Option.or_none]

end Courses

/-- A stored course of nearly the planned name, and a planned course. -/
def mathRows : List (Int × CourseRow) := [(7, ⟨some "수학 심화반 A", .null, none, "dashboard", none⟩)]

def planOfAdvancedMath : ParsePlan := ⟨[plannedCourse "수학 심화반" (some "김 선생님")], [], [], .csv⟩

def knownKims : List KnownTeacher := [⟨5, "김".toList⟩, ⟨6, "김민".toList⟩]

theorem planOfAdvancedMath_resolves :
    ∃ plan', resolveEntities .plain SequenceMatcher.ratio planOfAdvancedMath knownKims mathRows = .ok plan' := by
  have hreturns : (resolveEntities .plain SequenceMatcher.ratio planOfAdvancedMath knownKims
      mathRows).toOption.isSome = true := by decide +kernel
  exact exists_ok hreturns

theorem advancedMath_reused : ∃ plan',
    resolveEntities .plain SequenceMatcher.ratio planOfAdvancedMath knownKims mathRows = .ok plan' ∧
      List.Forall₂ (ReusedByName .plain mathRows) planOfAdvancedMath.courses plan'.courses := by
  obtain ⟨plan', hplan⟩ := planOfAdvancedMath_resolves
  exact ⟨plan', hplan, courses_reused_by_name .plain planOfAdvancedMath plan' knownKims mathRows hplan
    (by decide)⟩

section Teachers

variable {p : Platform}

/-- The name of a known teacher and the name that is looked for fit: they are the same, or one starts
with the other, or they share three quarters. -/
def NamesFit (candidate target : Text) : Prop :=
  candidate = target ∨ target <+: candidate ∨ candidate <+: target ∨ Shares (3 / 4) candidate target

theorem namesFit_of_score {target candidate : Text}
    (h : 0 < teacherScore SequenceMatcher.ratio target candidate) : NamesFit candidate target := by
  rw [teacherScore] at h
  split at h
  · rename_i hsame
    exact .inl hsame
  · split at h
    · rename_i hprefix
      rcases Bool.or_eq_true_iff.mp hprefix with htarget | hcandidate
      · exact .inr (.inl (List.isPrefixOf_iff_prefix.mp htarget))
      · exact .inr (.inr (.inl (List.isPrefixOf_iff_prefix.mp hcandidate)))
    · dsimp only at h
      split at h
      · rename_i hratio
        exact .inr (.inr (.inr (shares_of_ratio hratio)))
      · exact absurd h (lt_irrefl 0)

theorem teacherScore_le_one (target candidate : Text) :
    teacherScore SequenceMatcher.ratio target candidate ≤ 1 := by
  rw [teacherScore]
  split
  · exact le_refl 1
  · split
    · norm_num
    · dsimp only
      split
      · exact SequenceMatcher.ratio_le_one _ _
      · exact zero_le_one

/-- Names of a length that occurs differ from a perfect match by more than the margin for a tie. -/
theorem eq_of_score {target candidate : Text} (hshort : candidate.length + target.length < 1000000000)
    (h : 1 - 1 / 1000000000 ≤ teacherScore SequenceMatcher.ratio target candidate) :
    candidate = target := by
  rw [teacherScore] at h
  split at h
  · rename_i hsame
    exact hsame
  · split at h
    · norm_num at h
    · dsimp only at h
      split at h
      · obtain ⟨l, ha, hb, hratio⟩ := SequenceMatcher.ratio_common candidate target
        have hla := ha.length_le
        have hlb := hb.length_le
        have hall : candidate.length + target.length ≤ 2 * l.length := by
          -- less than a whole element is missing
          have hmissing : ((candidate.length + target.length : Nat) : Rat) - 1 < 2 * l.length := by
            have hcast : ((candidate.length + target.length : Nat) : Rat) < 1000000000 := by
              exact_mod_cast hshort
            have hnonneg : (0 : Rat) ≤ (candidate.length + target.length : Nat) := Nat.cast_nonneg _
            have hproduct := mul_le_mul_of_nonneg_left h hnonneg
            rw [hratio] at hproduct
            linarith
          have hcast : ((candidate.length + target.length : Nat) : Rat) < ((2 * l.length + 1 : Nat) : Rat) := by
            push_cast at hmissing ⊢
            linarith
          have := Nat.cast_lt.mp hcast
          omega
        have hsame := ha.eq_of_length (by omega)
        rw [← hsame]
        exact hb.eq_of_length (by omega)
      · norm_num at h

/-- What the teacher of a course that names one may be. -/
structure AssignedByName (p : Platform) (teachers : List KnownTeacher) (course resolved : PlannedCourse) :
    Prop where
  /-- Only a known teacher whose name fits. -/
  similar : ∀ uid, resolved.teacherUid = some uid → ∃ teacher ∈ teachers, teacher.uid = uid ∧
    NamesFit (normalizeTeacherName p teacher.name) (normalizeTeacherName p course.statedTeacher)
  /-- The only teacher of the very name, when there is one and no two names are a billion characters long. -/
  exact : normalizeTeacherName p course.statedTeacher ≠ [] → ∀ teacher,
    teachers.filter (fun known => normalizeTeacherName p known.name =
      normalizeTeacherName p course.statedTeacher) = [teacher] →
    (∀ known ∈ teachers, (normalizeTeacherName p known.name).length +
      (normalizeTeacherName p course.statedTeacher).length < 1000000000) →
    resolved.teacherUid = some teacher.uid

theorem nameScore_eq {name : Text} (hname : normalizeTeacherName p name ≠ []) (teacher : KnownTeacher) :
    nameScore p SequenceMatcher.ratio name teacher =
      if normalizeTeacherName p teacher.name = [] then 0
      else teacherScore SequenceMatcher.ratio (normalizeTeacherName p name)
        (normalizeTeacherName p teacher.name) := by
  rw [nameScore]
  have hsome : (normalizeTeacherName p name).isEmpty = false := by simpa using hname
  rw [hsome, Bool.or_false]
  by_cases hempty : normalizeTeacherName p teacher.name = []
  · rw [if_pos hempty, hempty]
    rfl
  · have hsome' : (normalizeTeacherName p teacher.name).isEmpty = false := by simpa using hempty
    rw [hsome', if_neg Bool.false_ne_true, if_neg hempty]

/-- Where a teacher has the very name, only those who have it attain the best score. -/
theorem attainsBest_iff {name : Text} {teachers : List KnownTeacher} {teacher known : KnownTeacher}
    (hname : normalizeTeacherName p name ≠ [])
    (hexact : teacher ∈ teachers ∧ normalizeTeacherName p teacher.name = normalizeTeacherName p name)
    (hshort : (normalizeTeacherName p known.name).length + (normalizeTeacherName p name).length < 1000000000) :
    AttainsBest p SequenceMatcher.ratio name teachers known ↔
      normalizeTeacherName p known.name = normalizeTeacherName p name := by
  have hone {t : KnownTeacher} (h : normalizeTeacherName p t.name = normalizeTeacherName p name) :
      nameScore p SequenceMatcher.ratio name t = 1 := by
    rw [nameScore_eq hname, h, if_neg hname, teacherScore, if_pos rfl]
  constructor
  · rintro ⟨hpos, hbest⟩
    have hscore := hbest teacher hexact.1
    rw [hone hexact.2, nameScore_eq hname] at hscore
    split at hscore
    · norm_num at hscore
    · exact eq_of_score hshort hscore
  · intro hsame
    rw [AttainsBest, hone hsame]
    refine ⟨zero_lt_one, fun other _ => ?_⟩
    have hle : nameScore p SequenceMatcher.ratio name other ≤ 1 := by
      rw [nameScore_eq hname]
      split
      · exact zero_le_one
      · exact teacherScore_le_one _ _
    linarith

theorem assignedByName {teachers : List KnownTeacher} {course : PlannedCourse} {resolved : Resolution}
    (hstated : course.statedTeacher ≠ [])
    (h : TeacherSettled p SequenceMatcher.ratio teachers course resolved) :
    AssignedByName p teachers course resolved.course := by
  refine ⟨fun uid huid => ?_, fun hname teacher honly hshort => ?_⟩
  · obtain ⟨teacher, hfilter, rfl⟩ := (h.soleBest hstated uid).mp huid
    have hmem : teacher ∈ teachers.filter _ := hfilter ▸ List.mem_singleton_self teacher
    obtain ⟨hteacher, hbest⟩ := List.mem_filter.mp hmem
    have hpos := (of_decide_eq_true hbest).1
    rw [nameScore] at hpos
    split at hpos
    · exact absurd hpos (lt_irrefl 0)
    · exact ⟨teacher, hteacher, rfl, namesFit_of_score hpos⟩
  · have hmem : teacher ∈ teachers.filter _ := honly ▸ List.mem_singleton_self teacher
    obtain ⟨hteacher, hsame⟩ := List.mem_filter.mp hmem
    refine (h.soleBest hstated teacher.uid).mpr ⟨teacher, ?_, rfl⟩
    rw [← honly]
    refine List.filter_congr fun known hknown => ?_
    exact decide_eq_decide.mpr (attainsBest_iff hname ⟨hteacher, of_decide_eq_true hsame⟩ (hshort known hknown))

/-- A course that names its teacher only ever gets a known teacher whose name fits, and the only teacher
of the very name when there is one, whatever similar names there are. Names of a billion characters
together could come as close to a perfect match as the margin for a tie. -/
theorem teachers_assigned_by_name (p : Platform) (plan plan' : ParsePlan) (teachers : List KnownTeacher)
    (rows : List (Int × CourseRow))
    (h : resolveEntities p SequenceMatcher.ratio plan teachers rows = .ok plan')
    (hfresh : ∀ course ∈ plan.courses, course.teacherUid = none) :
    List.Forall₂ (fun course resolved => course.statedTeacher ≠ [] → AssignedByName p teachers course resolved)
      plan.courses plan'.courses := by
  obtain ⟨resolved, hresolved, rfl⟩ := resolveEntities_eq_ok.mp h
  rw [List.forall₂_map_right_iff]
  rw [List.forall₂_iff_get] at hresolved ⊢
  refine ⟨hresolved.1, fun i hi hi' hstated => assignedByName hstated ?_⟩
  exact resolveOne_settled (hfresh _ (List.get_mem _ _)) (hresolved.2 i hi hi')

end Teachers

theorem advancedMath_assigned : ∃ plan',
    resolveEntities .plain SequenceMatcher.ratio planOfAdvancedMath knownKims mathRows = .ok plan' ∧
      List.Forall₂ (fun course resolved => course.statedTeacher ≠ [] →
        AssignedByName .plain knownKims course resolved) planOfAdvancedMath.courses plan'.courses := by
  obtain ⟨plan', hplan⟩ := planOfAdvancedMath_resolves
  exact ⟨plan', hplan, teachers_assigned_by_name .plain planOfAdvancedMath plan' knownKims mathRows hplan
    (by decide)⟩

end ClassinDashboard

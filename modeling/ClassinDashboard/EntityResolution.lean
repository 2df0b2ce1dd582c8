import ClassinDashboard.PyScript
import ClassinDashboard.ScheduleResolve

/-!
The courses of a plan are resolved one by one: what becomes of a course depends on the known teachers
and courses only, not on the rest of the plan. A teacher is assigned or asked for, and which of the
two does not depend on the order in which the teachers are known.
-/

namespace ClassinDashboard

open Py Sql

section Resolve

variable {p : Platform} {similarity : Text → Text → Rat}

/-! ### Course by course -/

/-- One course: its notes are those of the course name and then those of the teacher. -/
def resolveOne (p : Platform) (similarity : Text → Text → Rat) (teachers : List KnownTeacher)
    (rows : List (Int × CourseRow)) (course : PlannedCourse) : Except PyError Resolution :=
  (resolveCourse p similarity course rows).map fun (course, courseNotes, courseTeacherUid) =>
    let resolved := resolveTeacher p similarity course teachers courseTeacherUid
    { resolved with assumptions := courseNotes ++ resolved.assumptions }

def ParsePlan.add (plan : ParsePlan) (resolved : Resolution) : ParsePlan :=
  { plan with
    courses := plan.courses ++ [resolved.course]
    assumptions := plan.assumptions ++ resolved.assumptions
    needsConfirm := plan.needsConfirm ++ resolved.questions }

theorem resolveNext_eq (teachers : List KnownTeacher) (rows : List (Int × CourseRow))
    (plan : ParsePlan) (course : PlannedCourse) :
    resolveNext p similarity teachers rows plan course =
      (resolveOne p similarity teachers rows course).map plan.add := by
  unfold resolveNext resolveOne
  cases resolveCourse p similarity course rows with
  | error e => rfl
  | ok found => simp [Except.map, ParsePlan.add, List.append_assoc, pure, Except.pure, bind,
      Except.bind]

theorem foldl_add (resolved : List Resolution) (plan : ParsePlan) :
    resolved.foldl ParsePlan.add plan =
      { plan with
        courses := plan.courses ++ resolved.map Resolution.course
        assumptions := plan.assumptions ++ resolved.flatMap Resolution.assumptions
        needsConfirm := plan.needsConfirm ++ resolved.flatMap Resolution.questions } := by
  induction resolved generalizing plan with
  | nil => simp
  | cons first rest ih =>
      rw [List.foldl_cons, ih]
      simp [ParsePlan.add]

/-- A resolved plan is its courses, each resolved on its own. -/
theorem resolveEntities_eq_ok {plan plan' : ParsePlan} {teachers : List KnownTeacher}
    {rows : List (Int × CourseRow)} :
    resolveEntities p similarity plan teachers rows = .ok plan' ↔
      ∃ resolved, List.Forall₂ (fun course r => resolveOne p similarity teachers rows course = .ok r)
          plan.courses resolved ∧
        plan' = { plan with
          courses := resolved.map Resolution.course
          assumptions := plan.assumptions ++ resolved.flatMap Resolution.assumptions
          needsConfirm := plan.needsConfirm ++ resolved.flatMap Resolution.questions } := by
  rw [resolveEntities, foldlM_eq_mapM (resolveNext_eq teachers rows), map_eq_ok]
  simp only [mapM_eq_ok, foldl_add, List.nil_append]
  exact exists_congr fun resolved => and_congr_right fun _ => eq_comm

/-! ### The teacher of a course -/

/-- The name that a course gives for its teacher. -/
def PlannedCourse.statedTeacher (course : PlannedCourse) : Text := strip (course.teacherName.getD [])

/-- How well a known teacher fits a name; 0 when nothing is left of one of the names. -/
def nameScore (p : Platform) (similarity : Text → Text → Rat) (name : Text)
    (teacher : KnownTeacher) : Rat :=
  let target := normalizeTeacherName p name
  let candidate := normalizeTeacherName p teacher.name
  if candidate.isEmpty || target.isEmpty then 0 else teacherScore similarity target candidate

/-- The teacher fits the name, and no known teacher fits it better by more than 1e-9. -/
def AttainsBest (p : Platform) (similarity : Text → Text → Rat) (name : Text)
    (teachers : List KnownTeacher) (teacher : KnownTeacher) : Prop :=
  0 < nameScore p similarity name teacher ∧
    ∀ other ∈ teachers, nameScore p similarity name other - 1 / 1000000000 ≤
      nameScore p similarity name teacher

instance (name : Text) (teachers : List KnownTeacher) (teacher : KnownTeacher) :
    Decidable (AttainsBest p similarity name teachers teacher) :=
  inferInstanceAs (Decidable (_ ∧ _))

theorem nameScore_nonneg (name : Text) (teacher : KnownTeacher) :
    0 ≤ nameScore p similarity name teacher := by
  unfold nameScore teacherScore
  dsimp only
  split
  · exact le_refl 0
  · split
    · norm_num
    · split
      · norm_num
      · split
        · rename_i hratio
          exact le_trans (by norm_num) hratio
        · exact le_refl 0

theorem teacherScores_eq (name : Text) (teachers : List KnownTeacher) :
    teacherScores p similarity name teachers =
      (teachers.filter fun teacher => nameScore p similarity name teacher ≠ 0).map fun teacher =>
        (nameScore p similarity name teacher, teacher) := by
  rw [teacherScores, ← List.filterMap_eq_map, List.filterMap_filter]
  congr
  funext teacher
  dsimp only
  by_cases hempty : ((normalizeTeacherName p teacher.name).isEmpty ||
      (normalizeTeacherName p name).isEmpty) = true
  · have hscore : nameScore p similarity name teacher = 0 := if_pos hempty
    rw [if_pos hempty]
    simp [hscore]
  · have hscore : nameScore p similarity name teacher = teacherScore similarity
        (normalizeTeacherName p name) (normalizeTeacherName p teacher.name) := if_neg hempty
    rw [if_neg hempty, ← hscore]
    by_cases hzero : nameScore p similarity name teacher = 0
    · simp [hzero]
    · simp [hzero]

/-- The best score, and the teachers who attain it. -/
theorem bestTeachers_eq {name : Text} {teachers : List KnownTeacher} {best : Rat}
    (hbest : ((teacherScores p similarity name teachers).map Prod.fst).max? = some best) :
    bestTeachers (teacherScores p similarity name teachers) best =
      teachers.filter (AttainsBest p similarity name teachers) := by
  rw [teacherScores_eq, List.map_map] at hbest
  obtain ⟨hmem, hle⟩ := List.max?_eq_some_iff.mp hbest
  obtain ⟨top, htop, rfl⟩ := List.mem_map.mp hmem
  rw [List.mem_filter, decide_eq_true_eq] at htop
  have hpos : 0 < nameScore p similarity name top := lt_of_le_of_ne (nameScore_nonneg name top) htop.2.symm
  have hmax (other : KnownTeacher) (hother : other ∈ teachers) :
      nameScore p similarity name other ≤ nameScore p similarity name top := by
    by_cases hzero : nameScore p similarity name other = 0
    · rw [hzero]
      exact hpos.le
    · refine hle _ (List.mem_map.mpr ⟨other, ?_, rfl⟩)
      simpa [hzero] using hother
  rw [bestTeachers, teacherScores_eq, List.filter_map, List.map_map, List.filter_filter]
  have hsnd : Prod.snd ∘ (fun teacher => (nameScore p similarity name teacher, teacher)) = id := rfl
  rw [hsnd, List.map_id]
  refine List.filter_congr fun teacher hteacher => ?_
  rw [Function.comp_apply, ← Bool.decide_and, decide_eq_decide]
  constructor
  · rintro ⟨hclose, hne⟩
    refine ⟨lt_of_le_of_ne (nameScore_nonneg name teacher) (Ne.symm hne), fun other hother => ?_⟩
    exact le_trans (sub_le_sub_right (hmax other hother) _) hclose
  · rintro ⟨hscore, hclose⟩
    exact ⟨hclose top htop.1, hscore.ne'⟩

/-- What is said of the teacher of a course: either a uid or one question about it, and a course that
names its teacher has a uid exactly when one known teacher alone fits the name best. -/
structure TeacherSettled (p : Platform) (similarity : Text → Text → Rat)
    (teachers : List KnownTeacher) (course : PlannedCourse) (resolved : Resolution) : Prop where
  uidOrQuestion : ((∃ uid, resolved.course.teacherUid = some uid) ∧ resolved.questions = []) ∨
    (resolved.course.teacherUid = none ∧ ∃ question, resolved.questions = [question] ∧
      question.kind = .teacher ∧ question.subject =
        if course.statedTeacher = [] then course.courseName else course.statedTeacher)
  soleBest : course.statedTeacher ≠ [] → ∀ uid, resolved.course.teacherUid = some uid ↔
    ∃ teacher, teachers.filter (AttainsBest p similarity course.statedTeacher teachers) = [teacher] ∧
      teacher.uid = uid

/-- A course without a teacher's name. -/
theorem resolveTeacher_unnamed {course : PlannedCourse} (hname : course.statedTeacher = [])
    (teachers : List KnownTeacher) (courseTeacherUid : Option Int) :
    resolveTeacher p similarity course teachers courseTeacherUid =
      resolveUnnamed course teachers courseTeacherUid := by
  unfold resolveTeacher
  dsimp only
  rw [← PlannedCourse.statedTeacher, if_pos (List.isEmpty_iff.mpr hname)]

theorem resolveTeacher_settled {course : PlannedCourse} (teachers : List KnownTeacher)
    {courseTeacherUid : Option Int} (hunset : course.teacherUid = none) :
    TeacherSettled p similarity teachers course
      (resolveTeacher p similarity course teachers courseTeacherUid) := by
  by_cases hname : course.statedTeacher = []
  · rw [resolveTeacher_unnamed hname]
    refine ⟨?_, fun hstated => absurd hname hstated⟩
    unfold resolveUnnamed
    dsimp only
    split
    · exact .inl ⟨⟨_, rfl⟩, rfl⟩
    · exact .inl ⟨⟨_, rfl⟩, rfl⟩
    · exact .inr ⟨hunset, _, rfl, rfl, (if_pos hname).symm⟩
  · unfold resolveTeacher
    dsimp only
    rw [← PlannedCourse.statedTeacher, if_neg (by rwa [List.isEmpty_iff])]
    split
    · rename_i hnone
      rw [List.max?_eq_none_iff, List.map_eq_nil_iff, teacherScores_eq, List.map_eq_nil_iff,
        List.filter_eq_nil_iff] at hnone
      have hnobody : teachers.filter (AttainsBest p similarity course.statedTeacher teachers) = [] := by
        rw [List.filter_eq_nil_iff]
        intro teacher hteacher hbest
        have hzero := hnone teacher hteacher
        simp only [ne_eq, decide_not, Bool.not_eq_true', decide_eq_false_iff_not, not_not] at hzero
        exact absurd (of_decide_eq_true hbest).1 (by rw [hzero]; exact lt_irrefl 0)
      refine ⟨.inr ⟨hunset, _, rfl, rfl, (if_neg hname).symm⟩, fun _ uid => ?_⟩
      simp [hnobody, hunset]
    · rename_i best hbest
      rw [bestTeachers_eq hbest]
      split
      · rename_i winner hwinner
        refine ⟨.inl ⟨⟨_, rfl⟩, ?_⟩, fun _ uid => ?_⟩
        · split <;> rfl
        · simp [hwinner]
      · rename_i winners hwinners
        refine ⟨.inr ⟨hunset, _, rfl, rfl, (if_neg hname).symm⟩, fun _ uid => ?_⟩
        simp only [hunset, reduceCtorEq, false_iff, not_exists, not_and]
        exact fun winner hwinner => absurd hwinner (hwinners winner)

/-- The order of the known teachers does not say who is the only one. -/
theorem resolveUnnamed_perm {course : PlannedCourse} {teachers teachers' : List KnownTeacher}
    {courseTeacherUid : Option Int} (hperm : teachers'.Perm teachers) :
    (resolveUnnamed course teachers' courseTeacherUid).course.teacherUid =
      (resolveUnnamed course teachers courseTeacherUid).course.teacherUid := by
  unfold resolveUnnamed
  dsimp only
  cases courseTeacherUid.filter (· ≠ 0) with
  | some uid => rfl
  | none =>
      by_cases hsingle : ∃ teacher, teachers = [teacher]
      · obtain ⟨teacher, rfl⟩ := hsingle
        rw [List.perm_singleton.mp hperm]
      · have hsingle' : ¬∃ teacher, teachers' = [teacher] := by
          rintro ⟨teacher, rfl⟩
          exact hsingle ⟨teacher, List.perm_singleton.mp hperm.symm⟩
        split
        · rename_i heq
          cases heq
        · exact absurd ⟨_, rfl⟩ hsingle'
        · split
          · rename_i heq
            cases heq
          · exact absurd ⟨_, rfl⟩ hsingle
          · rfl

/-- The order of the known teachers does not say who alone fits a name best. -/
theorem soleBest_perm {name : Text} {teachers teachers' : List KnownTeacher}
    (hperm : teachers'.Perm teachers) (teacher : KnownTeacher) :
    teachers'.filter (AttainsBest p similarity name teachers') = [teacher] ↔
      teachers.filter (AttainsBest p similarity name teachers) = [teacher] := by
  have hbest : AttainsBest p similarity name teachers' = AttainsBest p similarity name teachers := by
    funext candidate
    simp only [AttainsBest, hperm.mem_iff]
  simp only [hbest]
  have hfilter := hperm.filter (AttainsBest p similarity name teachers)
  constructor
  · intro h
    exact List.perm_singleton.mp (h ▸ hfilter).symm
  · intro h
    exact List.perm_singleton.mp (h ▸ hfilter)

/-- The uid of a course without a fallback does not depend on the order of the teachers. -/
theorem resolveTeacher_perm {course : PlannedCourse} {teachers teachers' : List KnownTeacher}
    {courseTeacherUid : Option Int} (hperm : teachers'.Perm teachers)
    (hunset : course.teacherUid = none) :
    (resolveTeacher p similarity course teachers' courseTeacherUid).course.teacherUid =
      (resolveTeacher p similarity course teachers courseTeacherUid).course.teacherUid := by
  by_cases hname : course.statedTeacher = []
  · rw [resolveTeacher_unnamed hname, resolveTeacher_unnamed hname]
    exact resolveUnnamed_perm hperm
  · apply Option.ext
    intro uid
    rw [(resolveTeacher_settled teachers' hunset).soleBest hname,
      (resolveTeacher_settled teachers hunset).soleBest hname]
    exact exists_congr fun teacher => and_congr_left fun _ => soleBest_perm hperm teacher

/-! ### The teachers of a plan -/

/-- Pointing a course at an existing one changes nothing else about it. -/
theorem resolveCourse_frame {course course' : PlannedCourse} {rows : List (Int × CourseRow)}
    {notes : List Text} {uid : Option Int}
    (h : resolveCourse p similarity course rows = .ok (course', notes, uid)) :
    course' = { course with existingCourseId := course'.existingCourseId } := by
  unfold resolveCourse at h
  dsimp only at h
  split at h
  · cases h
    rfl
  · split at h
    · cases h
      rfl
    · split at h
      · cases h
        rfl
      · obtain ⟨_, _, h⟩ := map_eq_ok.mp h
        cases h
        rfl

theorem resolveOne_settled {course : PlannedCourse} {teachers : List KnownTeacher}
    {rows : List (Int × CourseRow)} {resolved : Resolution} (hunset : course.teacherUid = none)
    (h : resolveOne p similarity teachers rows course = .ok resolved) :
    TeacherSettled p similarity teachers course resolved := by
  obtain ⟨⟨found, notes, uid⟩, hfound, rfl⟩ := map_eq_ok.mp h
  have hframe := resolveCourse_frame hfound
  have hunset' : found.teacherUid = none := by
    rw [hframe]
    exact hunset
  have hsettled : TeacherSettled p similarity teachers found
      (resolveTeacher p similarity found teachers uid) := resolveTeacher_settled teachers hunset'
  rw [hframe] at hsettled ⊢
  exact ⟨hsettled.uidOrQuestion, hsettled.soleBest⟩

theorem resolveOne_perm {course : PlannedCourse} {teachers teachers' : List KnownTeacher}
    {rows : List (Int × CourseRow)} {resolved : Resolution} (hperm : teachers'.Perm teachers)
    (hunset : course.teacherUid = none)
    (h : resolveOne p similarity teachers rows course = .ok resolved) :
    ∃ resolved', resolveOne p similarity teachers' rows course = .ok resolved' ∧
      resolved'.course.teacherUid = resolved.course.teacherUid := by
  obtain ⟨⟨found, notes, uid⟩, hfound, rfl⟩ := map_eq_ok.mp h
  refine ⟨_, map_eq_ok.mpr ⟨_, hfound, rfl⟩, resolveTeacher_perm hperm ?_⟩
  rw [resolveCourse_frame hfound]
  exact hunset

/-- Every course ends with a teacher or with one question about its teacher, a named teacher is
assigned exactly when one known teacher alone fits best, and the order of the teachers is immaterial. -/
theorem teachers_settled (p : Platform) (similarity : Text → Text → Rat) (plan plan' : ParsePlan)
    (teachers : List KnownTeacher) (rows : List (Int × CourseRow))
    (hunset : ∀ course ∈ plan.courses, course.teacherUid = none)
    (h : resolveEntities p similarity plan teachers rows = .ok plan') :
    (∃ resolved : List Resolution, plan'.courses = resolved.map Resolution.course ∧
      plan'.needsConfirm = plan.needsConfirm ++ resolved.flatMap Resolution.questions ∧
      List.Forall₂ (TeacherSettled p similarity teachers) plan.courses resolved) ∧
    ∀ teachers' : List KnownTeacher, teachers'.Perm teachers →
      ∃ plan'', resolveEntities p similarity plan teachers' rows = .ok plan'' ∧
        plan''.courses.map PlannedCourse.teacherUid = plan'.courses.map PlannedCourse.teacherUid := by
  obtain ⟨resolved, hresolved, rfl⟩ := resolveEntities_eq_ok.mp h
  refine ⟨⟨resolved, rfl, rfl, ?_⟩, fun teachers' hperm => ?_⟩
  · rw [List.forall₂_iff_get] at hresolved ⊢
    refine ⟨hresolved.1, fun i hi hi' => ?_⟩
    exact resolveOne_settled (hunset _ (List.get_mem _ _)) (hresolved.2 i hi hi')
  · have hpermuted : ∃ resolved', List.Forall₂ (fun course r =>
        resolveOne p similarity teachers' rows course = .ok r) plan.courses resolved' ∧
        resolved'.map (fun r => r.course.teacherUid) = resolved.map fun r => r.course.teacherUid := by
      clear h
      generalize plan.courses = courses at hresolved hunset
      induction hresolved with
      | nil => exact ⟨[], .nil, rfl⟩
      | cons hfirst _ ih =>
          rw [List.forall_mem_cons] at hunset
          obtain ⟨first, hfirst', heq⟩ := resolveOne_perm hperm hunset.1 hfirst
          obtain ⟨rest, hrest, hmap⟩ := ih hunset.2
          exact ⟨first :: rest, .cons hfirst' hrest, by rw [List.map_cons, List.map_cons, heq, hmap]⟩
    obtain ⟨resolved', hresolved', hmap⟩ := hpermuted
    refine ⟨_, resolveEntities_eq_ok.mpr ⟨resolved', hresolved', rfl⟩, ?_⟩
    simpa [List.map_map, Function.comp_def] using hmap

end Resolve

/-- A course that is read with this teacher and has no lessons. -/
def plannedCourse (name : String) (teacher : Option String) : PlannedCourse :=
  ⟨⟨name.toList, teacher.map String.toList, [], 1⟩, none, none, []⟩

/-- `김쌤` is one of the two teachers, `박` is neither of them. -/
def namedPlan : ParsePlan :=
  ⟨[plannedCourse "수학" (some "김쌤"), plannedCourse "과학" (some "박")], [], [], .csv⟩

def twoTeachers : List KnownTeacher := [⟨7, "김선생님".toList⟩, ⟨8, "이".toList⟩]

theorem namedPlan_settled : ∃ plan' resolved,
    resolveEntities .plain (fun _ _ => 0) namedPlan twoTeachers [] = .ok plan' ∧
      plan'.needsConfirm = namedPlan.needsConfirm ++ resolved.flatMap Resolution.questions ∧
      List.Forall₂ (TeacherSettled .plain (fun _ _ => 0) twoTeachers) namedPlan.courses resolved := by
  have hreturns : (resolveEntities .plain (fun _ _ => 0) namedPlan twoTeachers []).toOption.isSome =
      true := by decide
  obtain ⟨plan', hplan⟩ := exists_ok hreturns
  obtain ⟨⟨resolved, _, hquestions, hsettled⟩, _⟩ :=
    teachers_settled .plain (fun _ _ => 0) namedPlan plan' twoTeachers [] (by decide) hplan
  exact ⟨plan', resolved, hplan, hquestions, hsettled⟩

end ClassinDashboard

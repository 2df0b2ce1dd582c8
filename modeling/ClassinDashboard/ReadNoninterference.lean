import ClassinDashboard.Metrics

/-!
Scoped reads do not see what is out of scope. The keys of a scope are computed from the very tables
that change, so they are shown first to be fixed under changes that the keys themselves call out of
scope.
-/

namespace ClassinDashboard

open Py Sql

variable {scope : Scope} {store store' : Store}

/-- The course ids of the scope. -/
def Store.scopeCourses (store : Store) (scope : Scope) : Finset Int :=
  (store.courseIdsInScope scope).getD ∅

def Store.scopeTeachers (store : Store) (scope : Scope) : Finset Int :=
  (store.teacherUidsInScope scope).getD ∅

/-- Neither the course nor the teacher is in scope. -/
def outOfKeys (store : Store) (scope : Scope) (courseId teacherUid : Option Int) : Bool :=
  !(isIn courseId (store.scopeCourses scope) || isIn teacherUid (store.scopeTeachers scope))

/-- A course that is not in scope itself, is led by no teacher in scope and is of no branch of the
scope. -/
def courseOutOfScope (store : Store) (scope : Scope) (course : Int × CourseRow) : Bool :=
  outOfKeys store scope (some course.1) course.2.teacherUid.toInt?
    && !(scope.branchIds.any fun branchIds => isIn course.2.branchId branchIds)

/-- A student without a record in scope. -/
def studentOutOfScope (store : Store) (scope : Scope) (student : Int × StudentRow) : Bool :=
  !((lessonRecords store scope .none).any fun r => r.studentUid = student.1)

/-- The second store is the first one with rows out of scope added, changed and deleted. -/
structure EditedOutside (scope : Scope) (store store' : Store) : Prop where
  records : Edits (fun r : LessonRecord => outOfKeys store scope (r.cells .courseId).toInt?
    (r.cells .teacherUid).toInt?) store.allRecords store'.allRecords
  lessons : Edits (fun l : String × LessonRow => outOfKeys store scope l.2.courseId
    l.2.teacherUid.toInt?) store.lessons.rows store'.lessons.rows
  events : Edits (fun e : EventRow => outOfKeys store scope e.courseId e.teacherUid)
    store.events.rows store'.events.rows
  courses : Edits (courseOutOfScope store scope) store.courses.rows store'.courses.rows
  students : Edits (studentOutOfScope store scope) store.students.rows store'.students.rows
  teachers : store'.teachers = store.teachers

/-- A scope of branches or of teachers, not both and not neither. -/
def Scope.filtered (scope : Scope) : Bool := scope.branchIds.isSome != scope.teacherUids.isSome

/-! ### The keys -/

theorem not_unrestricted (h : scope.filtered = true) : scope.unrestricted = false := by
  obtain ⟨branchIds, teacherUids⟩ := scope
  cases branchIds <;> cases teacherUids <;> first | rfl | cases h

theorem scopeKeys_eq (h : scope.filtered = true) :
    store.scopeKeys scope = some (store.scopeCourses scope, store.scopeTeachers scope) := by
  rw [Store.scopeKeys, if_neg (by rw [not_unrestricted h]; exact Bool.false_ne_true)]
  rfl

theorem inScope_of_out (h : scope.filtered = true) {courseId teacherUid : Option Int}
    (hout : outOfKeys store scope courseId teacherUid = true) :
    rowInScope courseId teacherUid (store.scopeKeys scope) = false := by
  rw [scopeKeys_eq h]
  exact (Bool.not_eq_true' _).mp hout

theorem course_of_out {courseId teacherUid : Option Int}
    (hout : outOfKeys store scope courseId teacherUid = true) :
    isIn courseId (store.scopeCourses scope) = false :=
  (Bool.or_eq_false_iff.mp ((Bool.not_eq_true' _).mp hout)).1

theorem teacher_of_out {courseId teacherUid : Option Int}
    (hout : outOfKeys store scope courseId teacherUid = true) :
    isIn teacherUid (store.scopeTeachers scope) = false :=
  (Bool.or_eq_false_iff.mp ((Bool.not_eq_true' _).mp hout)).2

theorem teachersOfBranches_edited (h : EditedOutside scope store store') :
    store'.teachersOfBranches = store.teachersOfBranches := by
  funext branchIds
  rw [Store.teachersOfBranches, Store.teachersOfBranches, h.teachers]

theorem teacherUidsInScope_edited (h : EditedOutside scope store store') :
    store'.teacherUidsInScope = store.teacherUidsInScope := by
  funext other
  rw [Store.teacherUidsInScope, Store.teacherUidsInScope, teachersOfBranches_edited h]

/-- Courses led by teachers in scope are none of those edited. -/
theorem courseIdsLedBy_edited (h : EditedOutside scope store store') :
    store'.courseIdsLedBy (store.scopeTeachers scope) =
      store.courseIdsLedBy (store.scopeTeachers scope) := by
  have hrows : (store'.courses.rows.filter fun c =>
        isIn c.2.teacherUid.toInt? (store.scopeTeachers scope)) =
      store.courses.rows.filter fun c => isIn c.2.teacherUid.toInt? (store.scopeTeachers scope) :=
    h.courses.filter_eq fun row hrow => teacher_of_out (Bool.and_eq_true_iff.mp hrow).1
  rw [Store.courseIdsLedBy, hrows, Store.courseIdsLedBy]

theorem courseIdsTaughtBy_eq (store : Store) (uids : Finset Int) :
    store.courseIdsTaughtBy uids =
      ((store.allRecords.filter fun r => isIn (r.cells .teacherUid).toInt? uids).filterMap
        fun r => (r.cells .courseId).toInt?).toFinset := by
  rw [Store.courseIdsTaughtBy, Store.allRecords, List.filter_map, List.filterMap_map]
  rfl

/-- Nor are the records of their lessons. -/
theorem courseIdsTaughtBy_edited (h : EditedOutside scope store store') :
    store'.courseIdsTaughtBy (store.scopeTeachers scope) =
      store.courseIdsTaughtBy (store.scopeTeachers scope) := by
  have hrows : (store'.allRecords.filter fun r =>
        isIn (r.cells .teacherUid).toInt? (store.scopeTeachers scope)) =
      store.allRecords.filter fun r =>
        isIn (r.cells .teacherUid).toInt? (store.scopeTeachers scope) :=
    h.records.filter_eq fun row hrow => teacher_of_out hrow
  rw [courseIdsTaughtBy_eq, hrows, courseIdsTaughtBy_eq]

theorem courseIdsOfBranches_edited (h : EditedOutside scope store store') {branchIds : Finset Int}
    (hbranch : scope.branchIds = some branchIds) :
    store'.courseIdsOfBranches branchIds = store.courseIdsOfBranches branchIds := by
  have hrows : (store'.courses.rows.filter fun c => isIn c.2.branchId branchIds) =
      store.courses.rows.filter fun c => isIn c.2.branchId branchIds := by
    refine h.courses.filter_eq fun row hrow => ?_
    have hout := (Bool.and_eq_true_iff.mp hrow).2
    rw [hbranch] at hout
    exact (Bool.not_eq_true' _).mp hout
  rw [Store.courseIdsOfBranches, hrows, Store.courseIdsOfBranches]

/-- The course keys are a fixed point: what they leave out does not enter them. -/
theorem courseIdsInScope_edited (hscope : scope.filtered = true)
    (h : EditedOutside scope store store') :
    store'.courseIdsInScope scope = store.courseIdsInScope scope := by
  have hled := courseIdsLedBy_edited h
  have htaught := courseIdsTaughtBy_edited h
  obtain ⟨branchIds, teacherUids⟩ := scope
  cases branchIds with
  | none =>
      cases teacherUids with
      | none => cases hscope
      | some uids =>
          have hkeys : store.scopeTeachers ⟨none, some uids⟩ = uids := rfl
          rw [hkeys] at hled htaught
          simp only [Store.courseIdsInScope, Option.map_none, Option.map_some, hled, htaught]
  | some branchIds =>
      cases teacherUids with
      | some uids => cases hscope
      | none =>
          have hteachers := teacherUidsInScope_edited h
          have hbranches := courseIdsOfBranches_edited h rfl
          simp only [Store.scopeTeachers] at hled htaught
          simp only [Store.courseIdsInScope, Option.map_none, Option.map_some, hteachers, hbranches,
            hled, htaught]

theorem courseIdsInScope_eq (h : scope.filtered = true) :
    store.courseIdsInScope scope = some (store.scopeCourses scope) := by
  obtain ⟨branchIds, teacherUids⟩ := scope
  cases branchIds <;> cases teacherUids <;> first | rfl | cases h

theorem scopeKeys_edited (hscope : scope.filtered = true) (h : EditedOutside scope store store') :
    store'.scopeKeys scope = store.scopeKeys scope := by
  rw [Store.scopeKeys, courseIdsInScope_edited hscope h, teacherUidsInScope_edited h,
    Store.scopeKeys]

/-! ### The reads -/

theorem laterFirst_trans (a b c : LessonRecord) (hab : laterFirst a b = true)
    (hbc : laterFirst b c = true) : laterFirst a c = true := by
  unfold laterFirst at hab hbc ⊢
  generalize (a.cells .lessonDate).toText? = x at hab ⊢
  generalize (b.cells .lessonDate).toText? = y at hab hbc
  generalize (c.cells .lessonDate).toText? = z at hbc ⊢
  cases x <;> cases y <;> cases z <;> simp_all only [decide_eq_true_eq, reduceCtorEq]
  exact String.le_trans hbc hab

theorem laterFirst_total (a b : LessonRecord) : (laterFirst a b || laterFirst b a) = true := by
  unfold laterFirst
  generalize (a.cells .lessonDate).toText? = x
  generalize (b.cells .lessonDate).toText? = y
  cases x <;> cases y <;> simp only [Bool.or_true, Bool.or_false, Bool.or_eq_true, decide_eq_true_eq]
  exact String.le_total _ _

theorem lessonRecords_edited (hscope : scope.filtered = true)
    (h : EditedOutside scope store store') :
    lessonRecords store' scope = lessonRecords store scope := by
  funext filter
  have hrows : (store'.allRecords.filter fun r =>
        r.inScope (store.scopeKeys scope) && filter.matches r) =
      store.allRecords.filter fun r => r.inScope (store.scopeKeys scope) && filter.matches r := by
    refine h.records.filter_eq fun row hrow => ?_
    rw [LessonRecord.inScope, inScope_of_out hscope hrow, Bool.false_and]
  rw [lessonRecords, lessonRecords, scopeKeys_edited hscope h,
    filter_mergeSort laterFirst_trans laterFirst_total, List.filter_filter, hrows,
    filter_mergeSort laterFirst_trans laterFirst_total, List.filter_filter]

theorem lessons_edited (hscope : scope.filtered = true) (h : EditedOutside scope store store') :
    lessons store' scope = lessons store scope := by
  funext courseId
  rw [lessons, lessons, scopeKeys_edited hscope h, List.filter_filter, List.filter_filter]
  refine h.lessons.filter_eq fun row hrow => ?_
  rw [inScope_of_out hscope hrow, Bool.false_and]

theorem courses_edited (hscope : scope.filtered = true) (h : EditedOutside scope store store') :
    courses store' scope = courses store scope := by
  have hrows : (store'.courses.rows.filter fun c => c.1 ∈ store.scopeCourses scope) =
      store.courses.rows.filter fun c => c.1 ∈ store.scopeCourses scope := by
    refine h.courses.filter_eq fun row hrow => ?_
    exact course_of_out (Bool.and_eq_true_iff.mp hrow).1
  rw [courses, courses, courseIdsInScope_edited hscope h, courseIdsInScope_eq hscope]
  simp only [List.filter_reverse, hrows]

theorem teachers_edited (h : EditedOutside scope store store') :
    teachers store' scope = teachers store scope := by
  rw [teachers, teachers, teacherUidsInScope_edited h, h.teachers]

theorem students_edited (hscope : scope.filtered = true) (h : EditedOutside scope store store') :
    students store' scope = students store scope := by
  have huids : studentUidsInScope store' scope = studentUidsInScope store scope := by
    rw [studentUidsInScope, studentUidsInScope, lessonRecords_edited hscope h]
  have hsome : studentUidsInScope store scope =
      some ((lessonRecords store scope .none).map LessonRecord.studentUid).toFinset := by
    rw [studentUidsInScope, if_neg]
    rw [not_unrestricted hscope]
    exact Bool.false_ne_true
  rw [students, students, huids, hsome]
  refine h.students.filter_eq fun row hrow => ?_
  simpa [studentOutOfScope] using hrow

theorem countsByCmd_edited (hscope : scope.filtered = true) (h : EditedOutside scope store store') :
    countsByCmd store' scope = countsByCmd store scope := by
  have hrows : (store'.events.rows.filter fun row => row.inScope (store.scopeKeys scope)) =
      store.events.rows.filter fun row => row.inScope (store.scopeKeys scope) :=
    h.events.filter_eq fun row hrow => inScope_of_out hscope hrow
  rw [countsByCmd, countsByCmd, not_unrestricted hscope, scopeKeys_edited hscope h, hrows]
  rfl

/-! ### The aggregations -/

theorem windowRecords_edited (hscope : scope.filtered = true)
    (h : EditedOutside scope store store') :
    windowRecords store' scope = windowRecords store scope := by
  funext since
  rw [windowRecords, windowRecords, lessonRecords_edited hscope h]

theorem lessonsWithHomework_edited (hscope : scope.filtered = true)
    (h : EditedOutside scope store store') :
    lessonsWithHomework store' scope = lessonsWithHomework store scope := by
  rw [lessonsWithHomework, lessonRecords_edited hscope h, lessons_edited hscope h,
    lessonsWithHomework]

theorem missingHomeworkRows_edited (hscope : scope.filtered = true)
    (h : EditedOutside scope store store') :
    missingHomeworkRows store' scope = missingHomeworkRows store scope := by
  funext since
  simp only [missingHomeworkRows, lessonRecords_edited hscope h, students_edited hscope h,
    lessonsWithHomework_edited hscope h]

variable (isoDate : IsoDate) (p : Platform)

theorem overview_edited (hscope : scope.filtered = true) (h : EditedOutside scope store store') :
    overview isoDate store' scope = overview isoDate store scope := by
  funext since
  simp only [overview, windowRecords_edited hscope h, courses_edited hscope h,
    lessons_edited hscope h, countsByCmd_edited hscope h]

theorem studentsSummary_edited (hscope : scope.filtered = true)
    (h : EditedOutside scope store store') :
    studentsSummary store' scope = studentsSummary store scope := by
  funext since
  simp only [studentsSummary, windowRecords_edited hscope h, students_edited hscope h]

theorem teachersSummary_edited (hscope : scope.filtered = true)
    (h : EditedOutside scope store store') :
    teachersSummary isoDate p store' scope = teachersSummary isoDate p store scope := by
  funext since
  simp only [teachersSummary, windowRecords_edited hscope h, teachers_edited h]

/-- Whatever is added, changed or deleted outside of a scope, its keys and every read under it stay
what they were. -/
theorem scopedReads_noninterference (scope : Scope) (hscope : scope.filtered = true)
    (store store' : Store) (h : EditedOutside scope store store') :
    store'.courseIdsInScope scope = store.courseIdsInScope scope ∧
      store'.teacherUidsInScope scope = store.teacherUidsInScope scope ∧
      lessonRecords store' scope = lessonRecords store scope ∧
      lessons store' scope = lessons store scope ∧
      courses store' scope = courses store scope ∧
      teachers store' scope = teachers store scope ∧
      students store' scope = students store scope ∧
      countsByCmd store' scope = countsByCmd store scope ∧
      overview isoDate store' scope = overview isoDate store scope ∧
      studentsSummary store' scope = studentsSummary store scope ∧
      teachersSummary isoDate p store' scope = teachersSummary isoDate p store scope ∧
      missingHomeworkRows store' scope = missingHomeworkRows store scope := by
  refine ⟨courseIdsInScope_edited hscope h, ?_, lessonRecords_edited hscope h,
    lessons_edited hscope h, courses_edited hscope h, teachers_edited h, students_edited hscope h,
    countsByCmd_edited hscope h, overview_edited isoDate hscope h, studentsSummary_edited hscope h,
    teachersSummary_edited isoDate p hscope h, missingHomeworkRows_edited hscope h⟩
  rw [teacherUidsInScope_edited h]

/-- A course of teacher 7, which is also the scope. -/
def sevensCourse : Store := Store.empty.write (.course 3 (some "수학") (.int 7) none "api")

/-- With a course, a lesson, a record and a student of teacher 8. -/
def withEightsCourse : Store :=
  (((sevensCourse.write (.course 5 (some "영어") (.int 8) none "api")).write
    (.lesson "9" ⟨some 5, none, .null, .null, .int 8, none, "api"⟩)).write
    (.record "9" 41 [(.courseId, .int 5), (.teacherUid, .int 8)])).write
    (.student 41 (some "민수") true)

theorem eightsCourse_edited :
    EditedOutside (.forTeacher (some 7)) sevensCourse withEightsCourse where
  records := @Edits.add _ _ _ [] [] _ (by decide) .refl
  lessons := @Edits.add _ _ _ [] [] _ (by decide) .refl
  events := .refl
  courses := @Edits.add _ _ _ sevensCourse.courses.rows [] _ (by decide) .refl
  students := @Edits.add _ _ _ [] [] _ (by decide +kernel) .refl
  teachers := rfl

theorem scopedReads_noninterference_eights :
    withEightsCourse.courseIdsInScope (.forTeacher (some 7)) =
        sevensCourse.courseIdsInScope (.forTeacher (some 7)) ∧
      lessonRecords withEightsCourse (.forTeacher (some 7)) =
        lessonRecords sevensCourse (.forTeacher (some 7)) :=
  have h := scopedReads_noninterference (fun _ => .error .typeError) .plain
    (.forTeacher (some 7)) rfl sevensCourse withEightsCourse eightsCourse_edited
  ⟨h.1, h.2.2.1⟩

end ClassinDashboard

import ClassinDashboard.CreateEffects
import ClassinDashboard.ReadNoninterference
import ClassinDashboard.ScopeVisibility

/-!
What a teacher or a manager creates stays with the teachers of the session, and can be read back
under the scope of the session.
-/

namespace ClassinDashboard

open Py Sql

/-! ### Teachers of a session -/

/-- The teachers a session creates for: itself, or those of its branch. -/
def Session.TeachesFor (session : Session) (store : Store) (uid : Int) : Prop :=
  match session.role with
  | .owner => True
  | .manager => ∃ branchId, session.branchId = some branchId ∧ TeacherOfBranch store uid branchId
  | .teacher => session.teacherUid = some uid

theorem teachesFor_of_mayTeach {session : Session} {store : Store} {uid : Int}
    (h : session.mayTeach store uid = true) : session.TeachesFor store uid := by
  unfold Session.mayTeach at h
  unfold Session.TeachesFor
  cases hrole : session.role with
  | owner => trivial
  | teacher =>
      rw [hrole] at h
      exact of_decide_eq_true h
  | manager =>
      rw [hrole] at h
      have hmem : uid ∈ store.teachersOfBranches session.branchId.toFinset := by
        rw [scopeFor, hrole] at h
        exact of_decide_eq_true h
      obtain ⟨row, hrow, hbranch⟩ := store.mem_teachersOfBranches.mp hmem
      obtain ⟨branchId, hof, hin⟩ := isIn_iff.mp hbranch
      exact ⟨branchId, Option.mem_toFinset.mp hin, row, hrow, hof⟩

/-- A call is for a teacher when it carries that uid; a unit carries none. -/
def WriteCall.For (teacherUid : Int) : WriteCall → Prop
  | addCourse _ mainTeacherUid _ => mainTeacherUid = some teacherUid
  | createUnit _ _ _ _ => True
  | createClass _ _ uid _ _ _ _ => uid = teacherUid
  | createActivity _ _ _ _ uid _ _ => uid = teacherUid

/-- The index of the course that a place belongs to. -/
def Place.courseIndex : Place → Nat
  | course i | unit i | lesson i _ | homework i _ => i

/-! ### Rows of the session's teachers -/

section Rows

variable {scope : Scope} {store : Store}

/-- The scopes of managers and teachers have one kind of key. -/
theorem scopeFor_filtered {session : Session} (hrole : session.role ≠ .owner) :
    (scopeFor session store).filtered = true := by
  unfold scopeFor
  cases hr : session.role with
  | owner => exact absurd hr hrole
  | manager => rfl
  | teacher => rfl

theorem mem_scopeCourses_of_led (hscope : scope.filtered = true) {courseId uid : Int}
    {row : CourseRow} (hrow : store.courses.find courseId = some row)
    (hteacher : row.teacherUid = .int uid) (huid : uid ∈ store.scopeTeachers scope) :
    courseId ∈ store.scopeCourses scope := by
  have hled : courseId ∈ store.courseIdsLedBy (store.scopeTeachers scope) := by
    refine store.mem_courseIdsLedBy.mpr ⟨row, hrow, isIn_iff.mpr ⟨uid, ?_, huid⟩⟩
    rw [hteacher]
    rfl
  obtain ⟨branchIds, teacherUids⟩ := scope
  cases branchIds with
  | none =>
      cases teacherUids with
      | none => cases hscope
      | some uids => exact Finset.mem_union_left _ hled
  | some branchIds =>
      cases teacherUids with
      | some uids => cases hscope
      | none => exact Finset.mem_union_left _ (Finset.mem_union_right _ hled)

/-- The course has a row, led by one of the teachers. -/
def CourseLed (courseId : Int) (uids : Finset Int) (store : Store) : Prop :=
  ∃ row uid, store.courses.find courseId = some row ∧ row.teacherUid = .int uid ∧ uid ∈ uids

/-- The lesson has a row, taught by one of the teachers. -/
def LessonTaught (lessonId : String) (uids : Finset Int) (store : Store) : Prop :=
  ∃ row uid, store.lessons.find lessonId = some row ∧ row.teacherUid = .int uid ∧ uid ∈ uids

theorem visible_of_courseLed (hscope : scope.filtered = true) {courseId : Int}
    (h : CourseLed courseId (store.scopeTeachers scope) store) :
    ∃ row, (courseId, row) ∈ courses store scope := by
  obtain ⟨row, uid, hrow, hteacher, huid⟩ := h
  refine ⟨row, ?_⟩
  rw [courses, courseIdsInScope_eq hscope]
  refine List.mem_filter.mpr ⟨List.mem_reverse.mpr ((Table.mem_rows_iff _ _ _).mpr hrow), ?_⟩
  exact decide_eq_true (mem_scopeCourses_of_led hscope hrow hteacher huid)

theorem visible_of_lessonTaught (hscope : scope.filtered = true) {lessonId : String}
    (h : LessonTaught lessonId (store.scopeTeachers scope) store) :
    ∃ row, (lessonId, row) ∈ lessons store scope none := by
  obtain ⟨row, uid, hrow, hteacher, huid⟩ := h
  refine ⟨row, ?_⟩
  rw [lessons, scopeKeys_eq hscope]
  refine List.mem_filter.mpr ⟨List.mem_filter.mpr ⟨(Table.mem_rows_iff _ _ _).mpr hrow, rfl⟩, ?_⟩
  rw [rowInScope, Bool.or_eq_true, hteacher]
  exact .inr (isIn_iff.mpr ⟨uid, rfl, huid⟩)

/-! ### What one effect does to the rows -/

variable {credentials : Credentials} {i : Nat} {uid : Int} {uids : Finset Int} {effect : CreateEffect}

theorem CourseEffect.teachers_eq (h : CourseEffect credentials i uid effect) (store : Store) :
    (CreateEffect.apply store effect).teachers = store.teachers := by
  cases h with
  | inside h => cases h <;> rfl
  | _ => rfl

/-- A course stays led by one of the teachers, or comes to be led by one. -/
theorem CourseEffect.courseLed (h : CourseEffect credentials i uid effect) (huid : uid ∈ uids)
    {courseId : Int} (hled : CourseLed courseId uids store) :
    CourseLed courseId uids (CreateEffect.apply store effect) := by
  cases h with
  | course other name =>
      obtain ⟨row, old, hrow, hold, hin⟩ := hled
      by_cases hsame : courseId = other
      · subst hsame
        exact ⟨_, uid, Table.find_upsert_self _ _ _ _, by rw [hrow]; rfl, huid⟩
      · refine ⟨row, old, ?_, hold, hin⟩
        exact (Table.find_upsert_of_ne _ hsame _ _).trans hrow
  | addCourse => exact hled
  | inside h => cases h <;> exact hled

theorem courseLed_course (huid : uid ∈ uids) (store : Store) (courseId : Int) (name : String) :
    CourseLed courseId uids
      (store.write (.course courseId (some name) (.int uid) none "api")) := by
  refine ⟨_, uid, Table.find_upsert_self _ _ _ _, ?_, huid⟩
  cases store.courses.find courseId <;> rfl

theorem lessonTaught_class (huid : uid ∈ uids) (store : Store) (lessonId : String)
    (courseId startTime endTime : Int) (title : String) :
    LessonTaught lessonId uids
      (store.write (.lesson lessonId (classRow courseId uid startTime endTime title))) := by
  refine ⟨_, uid, Table.find_upsert_self _ _ _ _, ?_, huid⟩
  cases store.lessons.find lessonId <;> rfl

theorem LessonEffect.lessonTaught (h : LessonEffect credentials i uid effect) (huid : uid ∈ uids)
    {lessonId : String} (htaught : LessonTaught lessonId uids store) :
    LessonTaught lessonId uids (CreateEffect.apply store effect) := by
  cases h with
  | lesson other courseId startTime endTime title =>
      by_cases hsame : lessonId = other
      · subst hsame
        exact lessonTaught_class huid store lessonId courseId startTime endTime title
      · obtain ⟨row, old, hrow, hold, hin⟩ := htaught
        refine ⟨row, old, ?_, hold, hin⟩
        exact (Table.find_upsert_of_ne _ hsame _ _).trans hrow
  | activity other activityId =>
      obtain ⟨row, old, hrow, hold, hin⟩ := htaught
      by_cases hsame : lessonId = other
      · subst hsame
        refine ⟨_, old, Table.find_upsert_self _ _ _ _, ?_, hin⟩
        rw [hrow]
        exact hold
      · refine ⟨row, old, ?_, hold, hin⟩
        exact (Table.find_upsert_of_ne _ hsame _ _).trans hrow
  | _ => exact htaught

theorem CourseEffect.lessonTaught (h : CourseEffect credentials i uid effect) (huid : uid ∈ uids)
    {lessonId : String} (htaught : LessonTaught lessonId uids store) :
    LessonTaught lessonId uids (CreateEffect.apply store effect) := by
  cases h with
  | inside h => exact h.lessonTaught huid htaught
  | _ => exact htaught

end Rows

/-! ### Every class is recorded with its teacher -/

/-- The partner of a lesson row is the row that the class was recorded with, for a teacher of the
session. -/
def RecordsClass (may : Int → Prop) (effect partner : CreateEffect) : Prop :=
  ∀ lessonId row, effect = .write (.lesson lessonId row) →
    ∃ courseId teacherUid startTime endTime title, may teacherUid ∧
      partner = .write (.lesson lessonId (classRow courseId teacherUid startTime endTime title))

section Partners

variable (p : Platform) (credentials : Credentials) (answers : Answers) {may : Int → Prop}

theorem partnered_of_no_lesson {α : Type} {s : CreateScript α}
    (h : ∀ effect ∈ s.writes, ∀ lessonId row, effect ≠ .write (.lesson lessonId row)) :
    s.Partnered (RecordsClass may) :=
  Script.Partnered.of_emits fun effect heffect lessonId row hrow =>
    absurd hrow (h effect heffect lessonId row)

/-- A homework activity goes into the row of its class. -/
theorem mem_createHomework {i j : Nat} {courseId teacherUid : Int} {unitId : Option Int}
    {lesson : PlanLesson} {classId : Option String} {lessonId : String} {row : LessonRow}
    (h : .write (.lesson lessonId row) ∈
      (createHomework p credentials answers i j courseId teacherUid unitId lesson classId).writes) :
    classId = some lessonId := by
  have hemits : (createHomework p credentials answers i j courseId teacherUid unitId lesson
      classId).Emits fun effect => ∀ lessonId row, effect = .write (.lesson lessonId row) →
        classId = some lessonId := by
    unfold createHomework
    split
    · refine (Script.Emits.lift _).bind fun startTime _ => (Script.Emits.lift _).bind fun endTime _ =>
        (callClassIn_emits credentials answers ?_).bind fun answer _ => ?_
      · intro lessonId row hrow
        cases hrow
      cases answer with
      | error message =>
          refine Script.Emits.tell fun lessonId row hrow => ?_
          cases hrow
      | ok activityId =>
          refine Script.Emits.bind ?_ fun _ _ => Script.Emits.tell fun lessonId row hrow => ?_
          · cases classId with
            | none => exact Script.Emits.pure _
            | some key =>
                refine onStore_emits fun w hw lessonId row hrow => ?_
                rw [mem_upsertActivity p hw] at hrow
                cases hrow
                rfl
          · cases hrow
    · exact Script.Emits.pure _
  exact hemits _ h lessonId row rfl

/-- A class that was recorded has its row among the writes. -/
theorem recordClass_writes {courseId teacherUid startTime endTime : Int} {lesson : PlanLesson}
    {lessonId : String}
    (h : (recordClass p courseId teacherUid startTime endTime lesson (some lessonId)).Succeeds) :
    .write (.lesson lessonId (classRow courseId teacherUid startTime endTime lesson.title)) ∈
      (recordClass p courseId teacherUid startTime endTime lesson (some lessonId)).writes := by
  have hstore : (upsertLesson p lessonId (some courseId) (.string lesson.title) (.int startTime)
      (.int endTime) (.int teacherUid) none "api").Succeeds := h
  obtain ⟨w, hw⟩ := Script.succeeds_commit.mp hstore
  have hmem := Script.mem_writes_commit.mpr hw
  rw [← mem_upsertClass p hmem]
  exact List.mem_map_of_mem hmem

/-- What follows a created class: its row, its line, and its homework under the same key. -/
theorem recordedLesson_partnered (i : Nat) (courseId : Int) {teacherUid : Int} (huid : may teacherUid)
    (unitId : Option Int) (lesson : PlanLesson) (j : Nat) (startTime endTime : Int) (text : String)
    (key : Option String) :
    (recordClass p courseId teacherUid startTime endTime lesson key >>= fun _ =>
      Script.tell (.created (.lesson i j) (.lesson lesson.title text)) >>= fun _ =>
        createHomework p credentials answers i j courseId teacherUid unitId lesson key).Partnered
      (RecordsClass may) := by
  intro effect heffect
  rcases Script.mem_writes_bind_iff.mp heffect with hrecord | ⟨_, hrecorded, htail⟩
  · refine ⟨effect, heffect, fun lessonId row hrow => ?_⟩
    obtain ⟨text', hkey⟩ : ∃ text', key = some text' := by
      cases key with
      | none => cases hrecord
      | some text' => exact ⟨text', rfl⟩
    subst hkey
    obtain ⟨w, hw, rfl⟩ := List.mem_map.mp hrecord
    rw [mem_upsertClass p hw] at hrow ⊢
    cases hrow
    exact ⟨_, teacherUid, _, _, _, huid, rfl⟩
  · rcases Script.mem_writes_bind_iff.mp htail with hline | ⟨_, _, hhomework⟩
    · rw [Script.tell_writes, List.mem_singleton] at hline
      refine ⟨effect, heffect, fun lessonId row hrow => ?_⟩
      rw [hline] at hrow
      cases hrow
    · by_cases hrow : ∃ lessonId row, effect = .write (.lesson lessonId row)
      · obtain ⟨lessonId, row, rfl⟩ := hrow
        obtain rfl := mem_createHomework p credentials answers hhomework
        refine ⟨_, Script.mem_writes_bind (recordClass_writes p ⟨_, hrecorded⟩), ?_⟩
        intro lessonId' row' hrow
        cases hrow
        exact ⟨_, teacherUid, _, _, _, huid, rfl⟩
      · exact ⟨effect, heffect, fun lessonId row h => absurd ⟨lessonId, row, h⟩ hrow⟩

theorem createLesson_partnered (i : Nat) (courseId : Int) {teacherUid : Int} (huid : may teacherUid)
    (unitId : Option Int) (lesson : PlanLesson) (j : Nat) :
    (createLesson p credentials answers i courseId teacherUid unitId lesson j).Partnered
      (RecordsClass may) := by
  have hquiet : ∀ {α : Type} (r : Except PyError α),
      (Script.lift r : CreateScript α).Partnered (RecordsClass may) :=
    fun r => Script.Partnered.of_emits (Script.Emits.lift r)
  unfold createLesson
  refine (hquiet _).bind fun startTime _ => (hquiet _).bind fun endTime _ =>
    Script.Partnered.bind (partnered_of_no_lesson fun effect heffect lessonId row hrow => ?_)
      fun answer _ => ?_
  · rw [createClassroom, callClassIn, List.mem_singleton] at heffect
    rw [heffect] at hrow
    cases hrow
  cases answer with
  | error message =>
      refine partnered_of_no_lesson fun effect heffect lessonId row hrow => ?_
      rw [Script.tell_writes, List.mem_singleton] at heffect
      rw [heffect] at hrow
      cases hrow
  | ok result =>
      exact (hquiet _).bind fun classId _ => (hquiet _).bind fun text _ =>
        recordedLesson_partnered p credentials answers i courseId huid unitId lesson j startTime endTime
          text _

theorem fillCourse_partnered (i : Nat) (course : PlanCourse) {teacherUid : Int}
    (huid : may teacherUid) (courseId : Int) :
    (fillCourse p credentials answers i course teacherUid courseId).Partnered (RecordsClass may) := by
  unfold fillCourse
  refine Script.Partnered.bind (partnered_of_no_lesson fun effect heffect lessonId row hrow => ?_)
    fun _ _ => Script.Partnered.bind
      (partnered_of_no_lesson fun effect heffect lessonId row hrow => ?_)
      fun unitId _ => Script.Partnered.each fun entry _ =>
        createLesson_partnered p credentials answers i courseId huid unitId entry.1 entry.2
  · obtain ⟨w, hw, rfl⟩ := List.mem_map.mp heffect
    rw [mem_upsertCourse p hw] at hrow
    cases hrow
  · have hunit : (createCourseUnit credentials answers i course courseId).Emits
        fun effect => ∀ lessonId row, effect ≠ .write (.lesson lessonId row) := by
      unfold createCourseUnit
      split
      · exact Script.Emits.pure _
      · refine (callClassIn_emits credentials answers fun _ _ h => ?_).bind fun answer _ => ?_
        · cases h
        cases answer with
        | error message =>
            refine (Script.Emits.tell fun _ _ h => ?_).bind fun _ _ => Script.Emits.pure _
            cases h
        | ok unitId => exact Script.Emits.pure _
    exact hunit effect heffect lessonId row hrow

theorem createCourse_partnered (course : PlanCourse) (i : Nat)
    (hmay : ∀ uid, course.authorized? = some uid → may uid) :
    (createCourse p credentials answers course i).Partnered (RecordsClass may) := by
  cases huid : course.authorized? with
  | none =>
      obtain ⟨line, hline⟩ := createCourse_of_unauthorized p credentials answers i huid
      rw [hline]
      refine Script.Partnered.of_emits (Script.Emits.tell fun lessonId row hrow => ?_)
      cases hrow
  | some teacherUid =>
      have hteacher := hmay teacherUid huid
      rw [createCourse_of_authorized p credentials answers i huid]
      split
      · refine Script.Partnered.bind (Script.Partnered.of_emits (Script.Emits.tell fun _ _ h => ?_))
          fun _ _ => fillCourse_partnered p credentials answers i course hteacher _
        cases h
      · refine Script.Partnered.bind (Script.Partnered.of_emits (callClassIn_emits credentials answers
          fun _ _ h => ?_)) fun answer _ => ?_
        · cases h
        cases answer with
        | error message =>
            refine Script.Partnered.of_emits (Script.Emits.tell fun _ _ h => ?_)
            cases h
        | ok courseId =>
            refine Script.Partnered.bind (Script.Partnered.of_emits (Script.Emits.tell fun _ _ h => ?_))
              fun _ _ => fillCourse_partnered p credentials answers i course hteacher courseId
            cases h

end Partners

/-! ### The request -/

section Request

variable (p : Platform) (answers : Answers) (store : Store) (session : Session) (form : CreateForm)

/-- The courses of a checked plan have teachers that the session may create for. -/
theorem mayTeach_of_checked {courses : List PlanCourse} {notes : List String} {course : PlanCourse}
    {i : Nat} {uid : Int} (hplan : checkedPlan store session form = .ok (courses, notes))
    (hcourse : (course, i) ∈ courses.zipIdx) (huid : course.authorized? = some uid) :
    session.mayTeach store uid = true := by
  obtain ⟨plan, _, hplan⟩ := bind_eq_ok.mp hplan
  obtain ⟨chosen, _, hplan⟩ := bind_eq_ok.mp hplan
  have hcourses : courses = (enforceTeacherScope chosen session store).1 :=
    (congrArg Prod.fst (Except.ok.inj hplan)).symm
  have hmem : course ∈ courses := List.fst_mem_of_mem_zipIdx hcourse
  exact mayTeach_of_enforced (hcourses ▸ hmem) huid

theorem createExecute_partnered :
    (createExecute p answers store (some session) form).Partnered
      (RecordsClass fun uid => session.mayTeach store uid = true) := by
  unfold createExecute
  refine (Script.Partnered.of_emits (Script.Emits.lift _)).bind fun checked hchecked =>
    (Script.Partnered.of_emits (Script.Emits.lift _)).bind fun own _ =>
      Script.Partnered.bind (Script.Partnered.each fun entry hentry => ?_) fun _ _ =>
        Script.Partnered.of_emits (Script.Emits.pure _)
  have hplan : checkedPlan store session form = .ok (checked.1, checked.2) := hchecked
  exact createCourse_partnered p own answers entry.1 entry.2 fun uid huid =>
    mayTeach_of_checked store session form hplan hentry huid

variable {store session}

theorem mem_scopeTeachers_of_mayTeach (hrole : session.role ≠ .owner) {uid : Int}
    (h : session.mayTeach store uid = true) : uid ∈ store.scopeTeachers (scopeFor session store) := by
  unfold Session.mayTeach at h
  cases hr : session.role with
  | owner => exact absurd hr hrole
  | manager =>
      rw [hr] at h
      exact of_decide_eq_true h
  | teacher =>
      rw [hr] at h
      have hown : session.teacherUid = some uid := of_decide_eq_true h
      rw [scopeFor, hr, hown]
      exact Finset.mem_singleton_self uid

/-- Scopes of managers and teachers do not depend on the store. -/
theorem scopeFor_eq (hrole : session.role ≠ .owner) (store' : Store) :
    scopeFor session store' = scopeFor session store := by
  unfold scopeFor
  cases hr : session.role with
  | owner => exact absurd hr hrole
  | manager => rfl
  | teacher => rfl

theorem scopeTeachers_of_teachers {scope : Scope} {store' : Store}
    (h : store'.teachers = store.teachers) : store'.scopeTeachers scope = store.scopeTeachers scope := by
  have hbranches : store'.teachersOfBranches = store.teachersOfBranches := by
    funext branchIds
    rw [Store.teachersOfBranches, h, Store.teachersOfBranches]
  rw [Store.scopeTeachers, Store.teacherUidsInScope, hbranches, Store.scopeTeachers,
    Store.teacherUidsInScope]

/-- Every effect is a line about a course or one for a teacher of the session. -/
theorem effect_of_session {effect : CreateEffect}
    (h : effect ∈ (createExecute p answers store (some session) form).writes) :
    (∃ i line, effect = .error (.course i) line) ∨
      ∃ i uid, session.mayTeach store uid = true ∧
        CourseEffect ⟨session.sid, session.secret⟩ i uid effect := by
  obtain ⟨courses, notes, course, i, hplan, hcourse, ⟨line, hline⟩ | ⟨uid, huid, heffect⟩⟩ :=
    mem_createExecute h
  · exact .inl ⟨i, line, hline⟩
  · exact .inr ⟨i, uid, mayTeach_of_checked store session form hplan hcourse huid, heffect⟩

theorem createExecute_teachers :
    (store.create (createExecute p answers store (some session) form)).teachers = store.teachers := by
  refine Script.exec_frame Store.teachers fun current effect heffect => ?_
  rcases effect_of_session p answers form heffect with ⟨i, line, rfl⟩ | ⟨i, uid, _, h⟩
  · rfl
  · exact h.teachers_eq current

variable {p answers form}

/-- A course that the request records stays led by a teacher of the session. -/
theorem recorded_course (hrole : session.role ≠ .owner) {courseId : Int} {name : Option String}
    {teacherUid : SqlValue} {teacherName : Option String} {createdVia : String}
    (h : .write (.course courseId name teacherUid teacherName createdVia) ∈
      (createExecute p answers store (some session) form).writes) :
    CourseLed courseId (store.scopeTeachers (scopeFor session store))
      (store.create (createExecute p answers store (some session) form)) := by
  refine Script.exec_of_mem h (CourseLed courseId _) (fun current => ?_)
    fun current hled effect heffect => ?_
  · rcases effect_of_session p answers form h with ⟨i, line, hline⟩ | ⟨i, uid, huid, hcourse⟩
    · cases hline
    · cases hcourse with
      | course => exact courseLed_course (mem_scopeTeachers_of_mayTeach hrole huid) current courseId _
      | inside h => cases h
  · rcases effect_of_session p answers form heffect with ⟨i, line, rfl⟩ | ⟨i, uid, huid, hcourse⟩
    · exact hled
    · exact hcourse.courseLed (mem_scopeTeachers_of_mayTeach hrole huid) hled

/-- A lesson that the request records stays taught by a teacher of the session. -/
theorem recorded_lesson (hrole : session.role ≠ .owner) {lessonId : String} {row : LessonRow}
    (h : .write (.lesson lessonId row) ∈
      (createExecute p answers store (some session) form).writes) :
    LessonTaught lessonId (store.scopeTeachers (scopeFor session store))
      (store.create (createExecute p answers store (some session) form)) := by
  obtain ⟨_, hpartner, hrecords⟩ := createExecute_partnered p answers store session form _ h
  obtain ⟨courseId, teacherUid, startTime, endTime, title, hmay, rfl⟩ := hrecords lessonId row rfl
  refine Script.exec_of_mem hpartner (LessonTaught lessonId _) (fun current => ?_)
    fun current htaught effect heffect => ?_
  · exact lessonTaught_class (mem_scopeTeachers_of_mayTeach hrole hmay) current lessonId courseId
      startTime endTime title
  · rcases effect_of_session p answers form heffect with ⟨i, line, rfl⟩ | ⟨i, uid, huid, hcourse⟩
    · exact htaught
    · exact hcourse.lessonTaught (mem_scopeTeachers_of_mayTeach hrole huid) htaught

end Request

/-- Whatever the plan and the form say and however the calls end, a teacher creates under the own uid
and a manager for the teachers of the branch, and what was recorded is visible to them. -/
theorem createExecute_within_scope (p : Platform) (answers : Answers) (store : Store)
    (session : Session) (form : CreateForm)
    (hrole : session.role = .teacher ∨ session.role = .manager) :
    let script := createExecute p answers store (some session) form
    let after := store.create script
    (∀ place credentials body, .call place credentials body ∈ script.writes →
      ∃ courses notes course uid, checkedPlan store session form = .ok (courses, notes) ∧
        courses[place.courseIndex]? = some course ∧ course.authorized? = some uid ∧
        session.TeachesFor store uid ∧ body.For uid) ∧
    (∀ courseId name teacherUid teacherName createdVia,
      .write (.course courseId name teacherUid teacherName createdVia) ∈ script.writes →
        ∃ row, (courseId, row) ∈ courses after (scopeFor session after)) ∧
    (∀ lessonId row, .write (.lesson lessonId row) ∈ script.writes →
      ∃ row, (lessonId, row) ∈ lessons after (scopeFor session after) none) := by
  intro script after
  have hnotOwner : session.role ≠ .owner := by
    rcases hrole with h | h <;> rw [h] <;> exact Role.noConfusion
  have hscope : (scopeFor session store).filtered = true := scopeFor_filtered hnotOwner
  have hteachers : after.scopeTeachers (scopeFor session store) =
      store.scopeTeachers (scopeFor session store) :=
    scopeTeachers_of_teachers (createExecute_teachers p answers form)
  have hscopes : scopeFor session after = scopeFor session store := scopeFor_eq hnotOwner after
  rw [hscopes]
  refine ⟨fun place credentials body hcall => ?_, ?_, ?_⟩
  · obtain ⟨courses, notes, course, i, hplan, hcourse, ⟨line, hline⟩ | ⟨uid, huid, heffect⟩⟩ :=
      mem_createExecute hcall
    · cases hline
    · have hmay := mayTeach_of_checked store session form hplan hcourse huid
      have hindex : place.courseIndex = i ∧ body.For uid := by
        cases heffect with
        | addCourse => exact ⟨rfl, rfl⟩
        | inside h => cases h <;> exact ⟨rfl, by trivial⟩
      refine ⟨courses, notes, course, uid, hplan, ?_, huid, teachesFor_of_mayTeach hmay, hindex.2⟩
      rw [hindex.1]
      exact List.mk_mem_zipIdx_iff_getElem?.mp hcourse
  · intro courseId name teacherUid teacherName createdVia hwrite
    have hled := recorded_course hnotOwner hwrite
    exact visible_of_courseLed hscope (hteachers ▸ hled)
  · intro lessonId row hwrite
    have htaught := recorded_lesson hnotOwner hwrite
    exact visible_of_lessonTaught hscope (hteachers ▸ htaught)

/-- Teacher 20001, who posts a plan for teacher 20007. -/
def kim : Session := ⟨"100", "default", .teacher, some 1, "kim", none, some 20001, none⟩

def forAnother : CreateForm where
  plan := .ok [⟨"고2 수학", none, [], some 20007, none, none⟩]
  field _ := none

def allRefusedBut (place : Place) (value : PyValue) : Answers := fun other =>
  if other = place then .data value else .refused "denied"

theorem createExecute_within_scope_kim :
    ∃ row, (500, row) ∈ courses
      (Store.create .empty
        (createExecute .plain (allRefusedBut (.course 0) (.int 500)) .empty (some kim) forAnother))
      (.forTeacher (some 20001)) := by
  have hwrite : .write (.course 500 (some "고2 수학") (.int 20001) none "api") ∈
      (createExecute .plain (allRefusedBut (.course 0) (.int 500)) .empty (some kim)
        forAnother).writes := by
    have hthird : (createExecute .plain (allRefusedBut (.course 0) (.int 500)) .empty (some kim)
        forAnother).writes[2]? =
          some (.write (.course 500 (some "고2 수학") (.int 20001) none "api")) := rfl
    exact List.mem_of_getElem? hthird
  exact (createExecute_within_scope .plain (allRefusedBut (.course 0) (.int 500)) .empty kim forAnother
    (.inl rfl)).2.1 500 _ _ _ _ hwrite

end ClassinDashboard

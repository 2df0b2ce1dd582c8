import ClassinDashboard.CreateReadback
import ClassinDashboard.CreateReturns

/-!
What a create request does to the view of the record table. It writes no record, but it makes the
teachers of its courses their main teachers, and with the main teacher goes the view of a course.
-/

namespace ClassinDashboard

open Py Sql

/-- The main teacher of a course, where the store knows one. -/
def mainTeacher (store : Store) (courseId : Int) : Option Int :=
  (store.courses.find courseId).bind fun row => row.teacherUid.toInt?

theorem leadsCourse_iff {store : Store} {uid courseId : Int} :
    LeadsCourse store uid courseId ↔ mainTeacher store courseId = some uid := by
  simp only [LeadsCourse, mainTeacher, Option.bind_eq_some_iff]

/-! ### Views under a change of main teachers -/

/-- The second store differs from the first one in main teachers, names and new courses at most. -/
structure SameButLeads (store store' : Store) : Prop where
  records : store'.lessonRecords = store.lessonRecords
  teachers : store'.teachers = store.teachers
  branches : ∀ courseId, branchOf store' courseId = branchOf store courseId

/-- Some recorded lesson is of the course. -/
def HasRecords (store : Store) (courseId : Int) : Prop :=
  ∃ record : LessonRecord, store.lessonRecords.find (record.lessonId, record.studentUid) =
    some record.cells ∧ record.course = some courseId

/-- A course with records passes only between teachers who have taught in it. -/
def LeadKept (store : Store) (courseId : Int) (before after : Option Int) : Prop :=
  before ≠ after → HasRecords store courseId →
    ∀ uid, before = some uid ∨ after = some uid → TaughtCourse store uid courseId

/-- Every scope shows the same records. -/
def SameViews (store store' : Store) : Prop :=
  ∀ scope record, record ∈ lessonRecords store' scope .none ↔ record ∈ lessonRecords store scope .none

section Views

variable {store store' : Store}

theorem mem_courseIdsLedBy_iff {uids : Finset Int} {courseId : Int} :
    courseId ∈ store.courseIdsLedBy uids ↔ isIn (mainTeacher store courseId) uids = true := by
  simp only [Store.mem_courseIdsLedBy, isIn_iff, mainTeacher, Option.bind_eq_some_iff]
  constructor
  · rintro ⟨row, hrow, uid, huid, hmem⟩
    exact ⟨uid, ⟨row, hrow, huid⟩, hmem⟩
  · rintro ⟨uid, ⟨row, hrow, huid⟩, hmem⟩
    exact ⟨row, hrow, uid, huid, hmem⟩

theorem mem_courseIdsOfBranches_branchOf {branchIds : Finset Int} {courseId : Int} :
    courseId ∈ store.courseIdsOfBranches branchIds ↔
      isIn (branchOf store courseId) branchIds = true := by
  simp only [Store.mem_courseIdsOfBranches, isIn_iff, branchOf, Option.bind_eq_some_iff]
  constructor
  · rintro ⟨row, hrow, branchId, hbranch, hmem⟩
    exact ⟨branchId, ⟨row, hrow, hbranch⟩, hmem⟩
  · rintro ⟨branchId, ⟨row, hrow, hbranch⟩, hmem⟩
    exact ⟨row, hrow, branchId, hbranch, hmem⟩

theorem mem_courseIdsTaughtBy_iff {uids : Finset Int} {courseId : Int} :
    courseId ∈ store.courseIdsTaughtBy uids ↔ ∃ uid ∈ uids, TaughtCourse store uid courseId := by
  simp only [Store.mem_courseIdsTaughtBy, isIn_iff, TaughtCourse]
  constructor
  · rintro ⟨key, cells, hrow, hcourse, uid, huid, hmem⟩
    exact ⟨uid, hmem, key, cells, hrow, hcourse, huid⟩
  · rintro ⟨uid, hmem, key, cells, hrow, hcourse, huid⟩
    exact ⟨key, cells, hrow, hcourse, uid, huid, hmem⟩

theorem SameButLeads.taught (h : SameButLeads store store') :
    store'.courseIdsTaughtBy = store.courseIdsTaughtBy := by
  funext uids
  rw [Store.courseIdsTaughtBy, h.records, Store.courseIdsTaughtBy]

theorem SameButLeads.ofBranches (h : SameButLeads store store') :
    store'.courseIdsOfBranches = store.courseIdsOfBranches := by
  funext branchIds
  ext courseId
  rw [mem_courseIdsOfBranches_branchOf, h.branches, ← mem_courseIdsOfBranches_branchOf]

theorem SameButLeads.teachersOfBranches (h : SameButLeads store store') :
    store'.teachersOfBranches = store.teachersOfBranches := by
  funext branchIds
  rw [Store.teachersOfBranches, h.teachers, Store.teachersOfBranches]

/-- Led or taught by some teachers, as before. -/
theorem led_or_taught_iff (h : SameButLeads store store') {courseId : Int}
    (hkept : LeadKept store courseId (mainTeacher store courseId) (mainTeacher store' courseId))
    (hrecords : HasRecords store courseId) (uids : Finset Int) :
    (courseId ∈ store'.courseIdsLedBy uids ∨ courseId ∈ store'.courseIdsTaughtBy uids) ↔
      (courseId ∈ store.courseIdsLedBy uids ∨ courseId ∈ store.courseIdsTaughtBy uids) := by
  rw [h.taught, mem_courseIdsLedBy_iff, mem_courseIdsLedBy_iff, mem_courseIdsTaughtBy_iff]
  by_cases hsame : mainTeacher store courseId = mainTeacher store' courseId
  · rw [hsame]
  · have htaught : ∀ value, value = mainTeacher store courseId ∨ value = mainTeacher store' courseId →
        isIn value uids = true → ∃ uid ∈ uids, TaughtCourse store uid courseId := by
      intro value hvalue hin
      obtain ⟨uid, huid, hmem⟩ := isIn_iff.mp hin
      refine ⟨uid, hmem, hkept hsame hrecords uid ?_⟩
      rcases hvalue with hvalue | hvalue
      · exact .inl (hvalue ▸ huid)
      · exact .inr (hvalue ▸ huid)
    constructor
    · rintro (hled | htaught')
      · exact .inr (htaught _ (.inr rfl) hled)
      · exact .inr htaught'
    · rintro (hled | htaught')
      · exact .inr (htaught _ (.inl rfl) hled)
      · exact .inr htaught'

theorem SameButLeads.teacherUidsInScope (h : SameButLeads store store') :
    store'.teacherUidsInScope = store.teacherUidsInScope := by
  funext scope
  rw [Store.teacherUidsInScope, h.teachersOfBranches, Store.teacherUidsInScope]

/-- The courses of a branch scope, as before. -/
theorem branchCourses_iff (h : SameButLeads store store') {courseId : Int}
    (hkept : LeadKept store courseId (mainTeacher store courseId) (mainTeacher store' courseId))
    (hrecords : HasRecords store courseId) (branchIds uids : Finset Int) :
    courseId ∈ store'.courseIdsOfBranches branchIds ∪ store'.courseIdsLedBy uids
        ∪ store'.courseIdsTaughtBy uids ↔
      courseId ∈ store.courseIdsOfBranches branchIds ∪ store.courseIdsLedBy uids
        ∪ store.courseIdsTaughtBy uids := by
  rw [h.ofBranches]
  simp only [Finset.mem_union, or_assoc, led_or_taught_iff h hkept hrecords uids]

theorem courseIdsInScope_iff (h : SameButLeads store store') {courseId : Int}
    (hkept : LeadKept store courseId (mainTeacher store courseId) (mainTeacher store' courseId))
    (hrecords : HasRecords store courseId) (scope : Scope) :
    courseId ∈ (store'.courseIdsInScope scope).getD ∅ ↔
      courseId ∈ (store.courseIdsInScope scope).getD ∅ := by
  have hteachers (uids : Finset Int) : courseId ∈ store'.courseIdsLedBy uids
      ∪ store'.courseIdsTaughtBy uids ↔ courseId ∈ store.courseIdsLedBy uids
        ∪ store.courseIdsTaughtBy uids := by
    rw [Finset.mem_union, Finset.mem_union]
    exact led_or_taught_iff h hkept hrecords uids
  obtain ⟨branchIds, teacherUids⟩ := scope
  unfold Store.courseIdsInScope
  rw [h.teacherUidsInScope]
  cases branchIds with
  | none =>
      cases teacherUids with
      | none => exact Iff.rfl
      | some uids => exact hteachers uids
  | some branchIds =>
      cases teacherUids with
      | none => exact branchCourses_iff h hkept hrecords branchIds _
      | some uids =>
          simp only [Option.map_some, meet, Option.getD_some, Finset.mem_inter]
          exact and_congr (branchCourses_iff h hkept hrecords branchIds _) (hteachers uids)

/-- A record is in scope as before, where its course is. -/
theorem inScope_kept (h : SameButLeads store store')
    (hkept : ∀ courseId,
      LeadKept store courseId (mainTeacher store courseId) (mainTeacher store' courseId))
    {record : LessonRecord} (hrecord : store.lessonRecords.find (record.lessonId, record.studentUid) =
      some record.cells) (scope : Scope) :
    record.inScope (store'.scopeKeys scope) = record.inScope (store.scopeKeys scope) := by
  unfold Store.scopeKeys
  by_cases hall : scope.unrestricted = true
  · rw [if_pos hall, if_pos hall]
  · rw [if_neg hall, if_neg hall, h.teacherUidsInScope, LessonRecord.inScope, LessonRecord.inScope,
      rowInScope, rowInScope]
    congr 1
    rw [Bool.eq_iff_iff, isIn_iff, isIn_iff]
    refine exists_congr fun courseId => and_congr_right fun hcourse => ?_
    exact courseIdsInScope_iff h (hkept courseId) ⟨record, hrecord, hcourse⟩ scope

/-- A record shown to a teacher who does not lead its course is of a course they have taught in. -/
theorem taught_of_shown (h : store'.lessonRecords = store.lessonRecords) {record : LessonRecord}
    (hrecord : store.lessonRecords.find (record.lessonId, record.studentUid) = some record.cells)
    {courseId uid : Int} (hcourse : record.course = some courseId)
    (hlead : mainTeacher store' courseId ≠ some uid)
    (hshown : record.inScope (store'.scopeKeys (.forTeacher (some uid))) = true) :
    TaughtCourse store uid courseId := by
  rcases inScope_forTeacher_iff.mp hshown with ⟨other, hother, hled | htaught⟩ | hteacher
  · obtain rfl := Option.some.inj (hcourse.symm.trans hother)
    exact absurd (leadsCourse_iff.mp hled) hlead
  · obtain rfl := Option.some.inj (hcourse.symm.trans hother)
    obtain ⟨key, cells, hrow, hcells⟩ := htaught
    exact ⟨key, cells, h ▸ hrow, hcells⟩
  · exact ⟨_, record.cells, hrecord, hcourse, hteacher⟩

theorem shown_of_lead {record : LessonRecord} {courseId uid : Int}
    (hcourse : record.course = some courseId) (hlead : mainTeacher store courseId = some uid) :
    record.inScope (store.scopeKeys (.forTeacher (some uid))) = true :=
  inScope_forTeacher_iff.mpr (.inl ⟨courseId, hcourse, .inl (leadsCourse_iff.mpr hlead)⟩)

/-- The views are the same exactly when every course with records passes between teachers who have
taught in it. -/
theorem sameViews_iff (h : SameButLeads store store') :
    SameViews store store' ↔ ∀ courseId,
      LeadKept store courseId (mainTeacher store courseId) (mainTeacher store' courseId) := by
  constructor
  · intro hviews courseId hmoved ⟨record, hrecord, hcourse⟩ uid huid
    have hmatches : RecordFilter.none.matches record = true := rfl
    have hview : record.inScope (store'.scopeKeys (.forTeacher (some uid))) = true ↔
        record.inScope (store.scopeKeys (.forTeacher (some uid))) = true := by
      have hmem := hviews (.forTeacher (some uid)) record
      simpa only [mem_lessonRecords, h.records, hrecord, hmatches, true_and] using hmem
    rcases huid with hbefore | hafter
    · have hlead : mainTeacher store' courseId ≠ some uid := fun hafter =>
        hmoved (hbefore.trans hafter.symm)
      exact taught_of_shown h.records hrecord hcourse hlead
        (hview.mpr (shown_of_lead hcourse hbefore))
    · have hlead : mainTeacher store courseId ≠ some uid := fun hbefore =>
        hmoved (hbefore.trans hafter.symm)
      exact taught_of_shown rfl hrecord hcourse hlead (hview.mp (shown_of_lead hcourse hafter))
  · intro hkept scope record
    simp only [mem_lessonRecords, h.records]
    refine and_congr_right fun hrecord => ?_
    rw [inScope_kept h hkept hrecord scope]

end Views

/-! ### The teachers that a request assigns -/

/-- The course and the teacher of a course row. -/
def CreateEffect.assigns : CreateEffect → Option (Int × Int)
  | write (.course courseId _ (.int teacherUid) _ _) => some (courseId, teacherUid)
  | _ => none

/-- The main teacher after some assignments: the last one of the course counts. -/
def mainAfter (assigned : List (Int × Int)) (courseId : Int) (before : Option Int) : Option Int :=
  assigned.foldl (fun main pair => if pair.1 = courseId then some pair.2 else main) before

section Assignments

variable (p : Platform) (answers : Answers)

/-- What a course of the checked plan assigns: its id, posted or answered, and its teacher, where the
store takes both. -/
def courseAssigns (course : PlanCourse) (i : Nat) : Option (Int × Int) :=
  course.authorized?.bind fun teacherUid =>
    match courseOutcome answers course i with
    | .ok (.ok courseId) =>
        if SqlValue.inRange courseId && SqlValue.inRange teacherUid then some (courseId, teacherUid)
        else none
    | _ => none

/-- The assignments of a plan, up to the first course that the request does not get through. -/
def assignments (courses : List PlanCourse) : List (Int × Int) :=
  (Script.through (fun entry => courseReturns p answers entry.1 entry.2) courses.zipIdx).flatMap
    fun entry => (courseAssigns answers entry.1 entry.2).toList

/-- The assignments of a posted form. -/
def formAssignments (store : Store) (session : Session) (form : CreateForm) : List (Int × Int) :=
  match checkedPlan store session form with
  | .ok (courses, _) => assignments p answers courses
  | .error _ => []

variable (credentials : Credentials)

theorem LessonEffect.assigns_eq {credentials : Credentials} {i : Nat} {uid : Int}
    {effect : CreateEffect} (h : LessonEffect credentials i uid effect) : effect.assigns = none := by
  cases h <;> rfl

theorem assigns_of_lessonEffects {i : Nat} {uid : Int} {s : CreateScript Unit}
    (h : s.Emits (LessonEffect credentials i uid)) :
    s.writes.filterMap CreateEffect.assigns = [] :=
  List.filterMap_eq_nil_iff.mpr fun effect heffect => (h effect heffect).assigns_eq

/-- The row of a course is written first, if the store takes it. -/
theorem upsertCourse_assigned (courseId teacherUid : Int) (name : String) :
    (onStore (upsertCourse p courseId (.string name) (.int teacherUid) .none "api")).writes.filterMap
        CreateEffect.assigns =
      if SqlValue.inRange courseId && SqlValue.inRange teacherUid then [(courseId, teacherUid)]
      else [] := by
  have hstore : (upsertCourse p courseId (.string name) (.int teacherUid) .none "api").Succeeds ↔
      (SqlValue.inRange courseId && SqlValue.inRange teacherUid) = true := by
    rw [upsertCourse_succeeds, Bool.and_eq_true]
    exact ⟨fun h => ⟨h.1, h.2.2.1⟩, fun h => ⟨h.1, rfl, h.2, rfl⟩⟩
  have hspec : Script.Spec (fun w => (CreateEffect.write w).assigns)
      (upsertCourse p courseId (.string name) (.int teacherUid) .none "api") _
      (if SqlValue.inRange courseId && SqlValue.inRange teacherUid then
        (some (courseId, teacherUid)).toList else []) :=
    Script.Spec.commit (Script.succeeds_commit.symm.trans hstore) fun w hw => by
      rw [mem_upsertCourse p (Script.mem_writes_commit.mpr hw)]
      rfl
  exact (List.filterMap_map ..).trans hspec.writes_eq

theorem fillCourse_assigned (i : Nat) (course : PlanCourse) (teacherUid courseId : Int) :
    (fillCourse p credentials answers i course teacherUid courseId).writes.filterMap
        CreateEffect.assigns =
      if SqlValue.inRange courseId && SqlValue.inRange teacherUid then [(courseId, teacherUid)]
      else [] := by
  unfold fillCourse
  have hrest : ((createCourseUnit credentials answers i course courseId) >>= fun unitId =>
      Script.each course.lessons.zipIdx fun entry => createLesson p credentials answers i courseId
        teacherUid unitId entry.1 entry.2).Emits (LessonEffect credentials i teacherUid) :=
    (createCourseUnit_emits credentials answers i courseId teacherUid course).bind fun unitId _ =>
      Script.Emits.each fun entry _ =>
        createLesson_emits p credentials answers i entry.2 courseId teacherUid unitId entry.1
  rw [Script.writes_bind_unit, List.filterMap_append, upsertCourse_assigned]
  refine (congrArg _ ?_).trans (List.append_nil _)
  split
  · exact assigns_of_lessonEffects credentials hrest
  · rfl

theorem createCourse_assigned (course : PlanCourse) (i : Nat) :
    (createCourse p credentials answers course i).writes.filterMap CreateEffect.assigns =
      (courseAssigns answers course i).toList := by
  unfold courseAssigns
  cases huid : course.authorized? with
  | none =>
      obtain ⟨line, hline⟩ := createCourse_of_unauthorized p credentials answers i huid
      rw [hline]
      rfl
  | some teacherUid =>
      rw [createCourse_of_authorized p credentials answers i huid, Option.bind_some]
      unfold courseOutcome
      cases course.existingCourseId.filter (· ≠ 0) with
      | some courseId =>
          simp only [Script.bind_of_ok (Script.tell_result _), Script.tell_writes,
            List.filterMap_append, fillCourse_assigned]
          split <;> rfl
      | none =>
          simp only [addCourse]
          rcases houtcome : (answers (.course i)).outcome courseIdOf with e | message | courseId
          · rw [Script.bind_of_error ((callClassIn_result ..).trans houtcome)]
            rfl
          · rw [Script.bind_of_ok ((callClassIn_result ..).trans houtcome)]
            rfl
          · rw [Script.bind_of_ok ((callClassIn_result ..).trans houtcome)]
            simp only [Script.bind_of_ok (Script.tell_result _), Script.tell_writes,
              List.filterMap_append, fillCourse_assigned]
            split <;> rfl

theorem createExecute_assigned (store : Store) (session : Session) (form : CreateForm) :
    (createExecute p answers store (some session) form).writes.filterMap CreateEffect.assigns =
      formAssignments p answers store session form := by
  have hclient : clientFor store session none = .ok ⟨session.sid, session.secret⟩ := rfl
  unfold createExecute formAssignments
  cases hplan : checkedPlan store session form with
  | error e => simp only [hplan, Script.lift_error_bind, Script.lift_writes, List.filterMap_nil]
  | ok checked =>
      have hspec : Script.Spec CreateEffect.assigns
          (Script.each checked.1.zipIdx fun entry =>
            createCourse p ⟨session.sid, session.secret⟩ answers entry.1 entry.2) _ _ :=
        Script.Spec.each fun entry _ =>
          ⟨createCourse_succeeds p answers _, createCourse_assigned p answers _ entry.1 entry.2⟩
      simp only [hplan, hclient, Script.lift_ok_bind, Script.writes_bind_pure]
      exact hspec.writes_eq

end Assignments

/-! ### The store after a request -/

section After

variable {credentials : Credentials} {i : Nat} {uid : Int} {effect : CreateEffect}

/-- One effect changes the main teacher of the course it assigns, and of no other. -/
theorem mainTeacher_apply (h : CourseEffect credentials i uid effect) (store : Store)
    (courseId : Int) :
    mainTeacher (CreateEffect.apply store effect) courseId =
      mainAfter effect.assigns.toList courseId (mainTeacher store courseId) := by
  cases h with
  | addCourse => rfl
  | inside h => cases h <;> rfl
  | course other name =>
      have hfind : (CreateEffect.apply store
          (.write (.course other (some name) (.int uid) none "api"))).courses.find courseId = _ :=
        Table.find_upsert store.courses other courseId _ _
      by_cases hsame : courseId = other
      · subst hsame
        rw [mainTeacher, hfind, if_pos rfl]
        have hafter : mainAfter (CreateEffect.write (.course courseId (some name) (.int uid) none
            "api")).assigns.toList courseId (mainTeacher store courseId) = some uid := if_pos rfl
        rw [hafter]
        cases store.courses.find courseId <;> rfl
      · rw [mainTeacher, hfind, if_neg hsame]
        exact (if_neg (Ne.symm hsame)).symm

theorem branchOf_apply (h : CourseEffect credentials i uid effect) (store : Store) (courseId : Int) :
    branchOf (CreateEffect.apply store effect) courseId = branchOf store courseId := by
  cases h with
  | addCourse => rfl
  | inside h => cases h <;> rfl
  | course other name =>
      exact branchOf_write_course store other (some name) (.int uid) none "api" courseId

theorem records_apply (h : CourseEffect credentials i uid effect) (store : Store) :
    (CreateEffect.apply store effect).lessonRecords = store.lessonRecords := by
  cases h with
  | inside h => cases h <;> rfl
  | _ => rfl

/-- What effects of a request do in sequence. -/
theorem mainTeacher_foldl {effects : List CreateEffect}
    (h : ∀ effect ∈ effects, ∀ store courseId, mainTeacher (CreateEffect.apply store effect) courseId =
      mainAfter effect.assigns.toList courseId (mainTeacher store courseId))
    (store : Store) (courseId : Int) :
    mainTeacher (effects.foldl CreateEffect.apply store) courseId =
      mainAfter (effects.filterMap CreateEffect.assigns) courseId (mainTeacher store courseId) := by
  induction effects generalizing store with
  | nil => rfl
  | cons effect effects ih =>
      rw [List.foldl_cons, ih (fun e he => h e (List.mem_cons_of_mem _ he)),
        h effect List.mem_cons_self, List.filterMap_cons]
      cases effect.assigns <;> rfl

variable (p : Platform) (answers : Answers) (store : Store) (session : Session) (form : CreateForm)

theorem sameButLeads_create :
    SameButLeads store (store.create (createExecute p answers store (some session) form)) where
  records := Script.exec_frame Store.lessonRecords fun current effect heffect => by
    obtain ⟨_, _, _, _, _, _, ⟨line, rfl⟩ | ⟨uid, _, h⟩⟩ := mem_createExecute heffect
    · rfl
    · exact records_apply h current
  teachers := createExecute_teachers p answers form
  branches courseId := Script.exec_frame (branchOf · courseId) fun current effect heffect => by
    obtain ⟨_, _, _, _, _, _, ⟨line, rfl⟩ | ⟨uid, _, h⟩⟩ := mem_createExecute heffect
    · rfl
    · exact branchOf_apply h current courseId

theorem mainTeacher_create (courseId : Int) :
    mainTeacher (store.create (createExecute p answers store (some session) form)) courseId =
      mainAfter (formAssignments p answers store session form) courseId
        (mainTeacher store courseId) := by
  rw [← createExecute_assigned]
  refine mainTeacher_foldl (fun effect heffect current courseId => ?_) store courseId
  obtain ⟨_, _, _, _, _, _, ⟨line, rfl⟩ | ⟨uid, _, h⟩⟩ := mem_createExecute heffect
  · rfl
  · exact mainTeacher_apply h current courseId

/-- A create request leaves every view of the record table as it is exactly when no course with
records passes to or from a teacher who has taught in none of its recorded lessons. -/
theorem createExecute_sameViews_iff :
    SameViews store (store.create (createExecute p answers store (some session) form)) ↔
      ∀ courseId, LeadKept store courseId (mainTeacher store courseId)
        (mainAfter (formAssignments p answers store session form) courseId
          (mainTeacher store courseId)) := by
  rw [sameViews_iff (sameButLeads_create p answers store session form)]
  simp only [mainTeacher_create]

end After

/-- A course of teacher 20007 with one recorded lesson. -/
def ledCourse : Store :=
  (Store.empty.write (.course 500 (some "고2 수학") (.int 20007) none "api")).write
    (.record "9" 41 [(.courseId, .int 500), (.teacherUid, .int 20007)])

/-- A plan that reuses the course, without a lesson. -/
def reuseCourse : CreateForm where
  plan := .ok [⟨"고2 수학", none, [], none, some 500, none⟩]
  field _ := none

theorem ledCourse_not_taught : ¬TaughtCourse ledCourse 20001 500 := by
  rintro ⟨key, cells, hrow, _, hteacher⟩
  have hmem : (key, cells) ∈ ledCourse.lessonRecords.rows := (Table.mem_rows_iff _ _ _).mpr hrow
  have hrows : ledCourse.lessonRecords.rows = [(("9", 41),
      patch emptyCells [(.courseId, .int 500), (.teacherUid, .int 20007)])] := rfl
  rw [hrows, List.mem_singleton] at hmem
  cases hmem
  exact absurd (Option.some.inj hteacher) (by decide)

/-- Another teacher takes the course over by reusing it. -/
theorem reused_course_taken :
    mainTeacher ledCourse 500 = some 20007 ∧
      ¬SameViews ledCourse (ledCourse.create
        (createExecute .plain (fun _ => .refused "denied") ledCourse (some kim) reuseCourse)) := by
  refine ⟨by decide, fun hviews => ?_⟩
  have hkept := (sameViews_iff (sameButLeads_create .plain (fun _ => .refused "denied") ledCourse kim
    reuseCourse)).mp hviews 500
  have hafter : mainTeacher (ledCourse.create (createExecute .plain (fun _ => .refused "denied")
      ledCourse (some kim) reuseCourse)) 500 = some 20001 := by decide
  have hrecords : HasRecords ledCourse 500 :=
    ⟨⟨"9", 41, patch emptyCells [(.courseId, .int 500), (.teacherUid, .int 20007)]⟩, rfl, rfl⟩
  refine ledCourse_not_taught (hkept ?_ hrecords 20001 (.inr hafter))
  rw [hafter]
  decide

end ClassinDashboard

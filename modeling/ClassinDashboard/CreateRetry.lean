import ClassinDashboard.CreateReadback
import ClassinDashboard.CreateReport
import ClassinDashboard.School

/-!
The create form submitted again. The calls that a submit makes depend on the checked plan and on the
answers only, so a row of submits asks the school for the courses, classes and activities of each in
turn. A course has a key; nothing else has.
-/

namespace ClassinDashboard

open Py Sql

/-! ### What a submit asks for -/

section Requests

variable (p : Platform) (courses : List PlanCourse) (a : Attempt)

/-- What the calls that are carried out ask for. -/
def Attempt.asks {α : Type} (kind : WriteCall → Option α) (calls : List (Place × WriteCall)) : List α :=
  (a.performed calls).filterMap kind

def Attempt.courseRequests : List (Option String × SchoolCourse) :=
  a.asks WriteCall.course? (planCalls p a.answers courses)

def Attempt.classRequests : List (Option String × SchoolClass) :=
  a.asks WriteCall.class? (planCalls p a.answers courses)

def Attempt.activityRequests : List (Option String × SchoolActivity) :=
  a.asks WriteCall.activity? (planCalls p a.answers courses)

/-- One of the classes of the plan is created. -/
def Attempt.CreatesClass : Prop :=
  ∃ place body, (place, body) ∈ planCalls p a.answers courses ∧ a.performs place = true ∧
    body.class?.isSome = true

/-- Every call that the plan wants is made and answered with data, and the request returns. -/
structure Attempt.Full : Prop where
  returns : ∀ course i, (course, i) ∈ courses.zipIdx → courseReturns p a.answers course i = true
  course : ∀ course i, (course, i) ∈ courses.zipIdx → course.authorized?.isSome = true →
    ∃ courseId, courseOutcome a.answers course i = .ok (.ok courseId)
  unit : ∀ course i, (course, i) ∈ courses.zipIdx → course.authorized?.isSome = true →
    course.lessons ≠ [] → ∃ unitId, unitId ≠ 0 ∧ unitOutcome a.answers i course = .ok (some unitId)
  lesson : ∀ course i, (course, i) ∈ courses.zipIdx → course.authorized?.isSome = true →
    ∀ lesson j, (lesson, j) ∈ course.lessons.zipIdx →
      ∃ classId, (a.answers (.lesson i j)).outcome classIdOf = .ok (.ok classId)
  homework : ∀ course i, (course, i) ∈ courses.zipIdx → course.authorized?.isSome = true →
    ∀ lesson j, (lesson, j) ∈ course.lessons.zipIdx → lesson.homework.isSome = true →
      ∃ activityId, (a.answers (.homework i j)).outcome activityIdOf = .ok (.ok activityId)

end Requests

/-- The course that the plan wants to be created, with its key. -/
def plannedCourse? (p : Platform) (course : PlanCourse) : Option (Option String × SchoolCourse) :=
  course.authorized?.bind fun teacherUid =>
    if (course.existingCourseId.filter (· ≠ 0)).isSome then none
    else (courseBody p course teacherUid).course?

def plannedCourses (p : Platform) (courses : List PlanCourse) : List (Option String × SchoolCourse) :=
  courses.filterMap (plannedCourse? p)

/-! ### Submits in a row -/

/-- The store of the dashboard and the school in ClassIn. -/
structure World where
  store : Store
  school : School

/-- The form is submitted once for each attempt. -/
inductive Posts (p : Platform) (session : Session) (form : CreateForm) : World → List Attempt → World → Prop
  | nil (w : World) : Posts p session form w [] w
  | cons {w w' : World} {school : School} {a : Attempt} {attempts : List Attempt}
      (hrun : School.Run a w.school (requests (createExecute p a.answers w.store (some session) form))
        school)
      (hrest : Posts p session form
        ⟨w.store.create (createExecute p a.answers w.store (some session) form), school⟩ attempts w') :
      Posts p session form w (a :: attempts) w'

section Posts

variable {p : Platform} {session : Session} {form : CreateForm} {w w' : World} {attempts : List Attempt}
  {courses : List PlanCourse} {notes : List String}

/-- The check of the plan reads nothing that a submit writes. -/
theorem checkedPlan_of_teachers {store store' : Store} (h : store'.teachers = store.teachers) :
    checkedPlan store' session form = checkedPlan store session form := by
  have hcheck : ∀ plan, enforceTeacherScope plan session store' =
      enforceTeacherScope plan session store := by
    intro plan
    unfold enforceTeacherScope
    cases hrole : session.role with
    | owner => rfl
    | teacher => rfl
    | manager =>
        have hnotOwner : session.role ≠ .owner := by
          rw [hrole]
          exact Role.noConfusion
        have hteachers : store'.scopeTeachers (scopeFor session store) =
            store.scopeTeachers (scopeFor session store) := scopeTeachers_of_teachers h
        have hscope : scopeFor session store' = scopeFor session store := scopeFor_eq hnotOwner store'
        unfold Store.scopeTeachers at hteachers
        simp only [hscope, hteachers]
  unfold checkedPlan
  simp only [hcheck]

/-- A part of the school after the submits: what each of them asks for, in turn. -/
theorem createsAll_of_posts {β : Type} (part : School → Registry Int String β)
    (kind : WriteCall → Option (Option String × β))
    (hrun : ∀ {a : Attempt} {s s' : School} {calls : List (Place × WriteCall)},
      School.Run a s calls s' → (part s).CreatesAll (a.asks kind calls) (part s'))
    (hplan : checkedPlan w.store session form = .ok (courses, notes))
    (h : Posts p session form w attempts w') :
    (part w.school).CreatesAll
      (attempts.flatMap fun a => a.asks kind (planCalls p a.answers courses)) (part w'.school) := by
  induction h with
  | nil w => exact .nil _
  | @cons w w' school a attempts hfirst _ ih =>
      rw [requests_createExecute hplan] at hfirst
      have hteachers : (w.store.create (createExecute p a.answers w.store (some session) form)).teachers =
          w.store.teachers := createExecute_teachers p a.answers form
      exact (hrun hfirst).append (ih ((checkedPlan_of_teachers hteachers).trans hplan))

theorem Posts.courses_subset (h : Posts p session form w attempts w') :
    w.school.courses.entries ⊆ w'.school.courses.entries := by
  induction h with
  | nil w => exact List.Subset.refl _
  | cons hrun _ ih => exact List.Subset.trans hrun.courses.subset ih

end Posts

/-! ### Which calls have keys -/

section Calls

variable {p : Platform} {courses : List PlanCourse} {a : Attempt}

/-- A call for a course with its id is that of the unit, or one of those for a lesson. -/
theorem mem_fillCalls {answers : Answers} {i : Nat} {course : PlanCourse} {teacherUid courseId : Int}
    {place : Place} {body : WriteCall}
    (h : (place, body) ∈ fillCalls p answers i course teacherUid courseId) :
    (∃ first rest, body = unitBody courseId first rest) ∨
      ∃ unitId lesson j, (place, body) ∈ lessonCalls p answers i courseId teacherUid unitId lesson j ∧
        lessonCalls p answers i courseId teacherUid unitId lesson j ⊆
          fillCalls p answers i course teacherUid courseId := by
  unfold fillCalls at h ⊢
  split at h
  · rename_i hrange
    rw [if_pos hrange]
    rcases List.mem_append.mp h with hcall | hcall
    · unfold unitCalls at hcall
      split at hcall
      · exact absurd hcall List.not_mem_nil
      · exact .inl ⟨_, _, (Prod.mk.inj (List.mem_singleton.mp hcall)).2⟩
    · cases hunit : unitOutcome answers i course with
      | error e =>
          rw [hunit] at hcall
          exact absurd hcall List.not_mem_nil
      | ok unitId =>
          rw [hunit] at hcall
          obtain ⟨⟨lesson, j⟩, hlesson, hcall⟩ := List.mem_flatMap.mp hcall
          refine .inr ⟨unitId, lesson, j, hcall, fun _ hmem => List.mem_append_right _ ?_⟩
          exact List.mem_flatMap.mpr ⟨_, hlesson, hmem⟩
  · exact absurd h List.not_mem_nil

/-- A call of a plan is `addCourse`, the unit of a course, or one of those for a lesson. -/
theorem mem_planCalls {answers : Answers} {place : Place} {body : WriteCall}
    (h : (place, body) ∈ planCalls p answers courses) :
    (∃ course teacherUid, body = courseBody p course teacherUid) ∨
      (∃ courseId first rest, body = unitBody courseId first rest) ∨
      ∃ i courseId teacherUid unitId lesson j,
        (place, body) ∈ lessonCalls p answers i courseId teacherUid unitId lesson j ∧
        lessonCalls p answers i courseId teacherUid unitId lesson j ⊆ planCalls p answers courses := by
  obtain ⟨⟨course, i⟩, hcourse, hcall⟩ := List.mem_flatMap.mp h
  have hsub : courseCalls p answers course i ⊆ planCalls p answers courses := fun _ hmem =>
    List.mem_flatMap.mpr ⟨_, hcourse, hmem⟩
  dsimp only at hcall
  unfold courseCalls at hcall hsub
  cases huid : course.authorized? with
  | none =>
      rw [huid] at hcall
      exact absurd hcall List.not_mem_nil
  | some teacherUid =>
      simp only [huid] at hcall hsub
      rcases List.mem_append.mp hcall with hcall | hcall
      · split at hcall
        · exact absurd hcall List.not_mem_nil
        · exact .inl ⟨course, teacherUid, (Prod.mk.inj (List.mem_singleton.mp hcall)).2⟩
      rcases houtcome : courseOutcome answers course i with e | message | courseId
      · rw [houtcome] at hcall
        exact absurd hcall List.not_mem_nil
      · rw [houtcome] at hcall
        exact absurd hcall List.not_mem_nil
      · simp only [houtcome] at hcall hsub
        rcases mem_fillCalls hcall with ⟨first, rest, hbody⟩ | ⟨unitId, lesson, j, hlesson, hfill⟩
        · exact .inr (.inl ⟨courseId, first, rest, hbody⟩)
        · have hplan := List.Subset.trans hfill (List.append_subset.mp hsub).2
          exact .inr (.inr ⟨i, courseId, teacherUid, unitId, lesson, j, hlesson, hplan⟩)

/-- The calls for a lesson: its class, and its homework after a class that was created. -/
theorem mem_lessonCalls {answers : Answers} {i : Nat} {courseId teacherUid : Int}
    {unitId : Option Int} {lesson : PlanLesson} {j : Nat} {place : Place} {body : WriteCall}
    (h : (place, body) ∈ lessonCalls p answers i courseId teacherUid unitId lesson j) :
    (.lesson i j, lessonBody courseId teacherUid unitId lesson) ∈
        lessonCalls p answers i courseId teacherUid unitId lesson j ∧
      (body = lessonBody courseId teacherUid unitId lesson ∨
        (∃ classId, (answers (.lesson i j)).outcome classIdOf = .ok (.ok classId)) ∧
          ∃ unit homework, body = homeworkBody courseId unit teacherUid lesson homework) := by
  unfold lessonCalls at h ⊢
  split at h
  · rename_i htimes
    rw [if_pos htimes]
    refine ⟨List.mem_cons_self, ?_⟩
    rcases List.mem_cons.mp h with heq | h
    · exact .inl (Prod.mk.inj heq).2
    split at h
    · rename_i classId houtcome
      refine .inr ⟨⟨classId, houtcome⟩, ?_⟩
      split at h
      · unfold homeworkCalls at h
        split at h
        · split at h
          · exact ⟨_, _, (Prod.mk.inj (List.mem_singleton.mp h)).2⟩
          · exact absurd h List.not_mem_nil
        · exact absurd h List.not_mem_nil
      · exact absurd h List.not_mem_nil
    · exact absurd h List.not_mem_nil
  · exact absurd h List.not_mem_nil

/-- Only data is read. -/
theorem data_of_outcome {α : Type} {answer : Answer} {read : PyValue → Except PyError α} {x : α}
    (h : answer.outcome read = .ok (.ok x)) : ∃ value, answer = .data value ∧ read value = .ok x := by
  cases answer with
  | refused message => cases h
  | failed e => cases h
  | data value =>
      obtain ⟨_, hread, hsame⟩ := map_eq_ok.mp h
      cases hsame
      exact ⟨value, rfl, hread⟩

theorem performs_of_outcome {α : Type} {place : Place} {read : PyValue → Except PyError α} {x : α}
    (h : (a.answers place).outcome read = .ok (.ok x)) : a.performs place = true := by
  obtain ⟨value, hanswer, _⟩ := data_of_outcome h
  rw [Attempt.performs, hanswer]

theorem mem_asks {α : Type} {kind : WriteCall → Option α} {calls : List (Place × WriteCall)}
    {request : α} :
    request ∈ a.asks kind calls ↔
      ∃ place body, (place, body) ∈ calls ∧ a.performs place = true ∧ kind body = some request := by
  unfold Attempt.asks Attempt.performed
  simp only [List.mem_filterMap, List.mem_map, List.mem_filter, Prod.exists]
  constructor
  · rintro ⟨body, ⟨place, _, ⟨hcall, hperforms⟩, rfl⟩, hkind⟩
    exact ⟨place, _, hcall, hperforms, hkind⟩
  · rintro ⟨place, body, hcall, hperforms, hkind⟩
    exact ⟨body, ⟨place, body, ⟨hcall, hperforms⟩, rfl⟩, hkind⟩

theorem courseBody_keyed (hmd5 : ∀ s, p.md5Hex s ≠ "") (course : PlanCourse) (teacherUid : Int) :
    ∃ key, courseBody p course teacherUid =
      .addCourse course.courseName (some teacherUid) (some key) := by
  have hidentity : courseIdentity p course ≠ "" := by
    intro h
    unfold courseIdentity at h
    rw [String.ofList_eq_empty_iff, List.take_eq_nil_iff] at h
    exact hmd5 _ (String.toList_eq_nil_iff.mp (h.resolve_left (by decide)))
  refine ⟨String.ofList ((courseIdentity p course).toList.take 32), ?_⟩
  rw [courseBody, Option.filter_some, if_pos (decide_eq_true hidentity)]
  rfl

/-- Courses are asked for under a key. -/
theorem courseRequests_keyed (hmd5 : ∀ s, p.md5Hex s ≠ "") :
    ∀ request ∈ a.courseRequests p courses, request.1.isSome = true := by
  intro request hrequest
  obtain ⟨place, body, hcall, _, hkind⟩ := mem_asks.mp hrequest
  rcases mem_planCalls hcall with ⟨course, teacherUid, rfl⟩ | ⟨_, _, _, rfl⟩ |
    ⟨_, _, _, _, _, _, hlesson, _⟩
  · obtain ⟨key, hkey⟩ := courseBody_keyed hmd5 course teacherUid
    rw [hkey] at hkind
    rw [← Option.some.inj hkind]
    rfl
  · cases hkind
  · rcases (mem_lessonCalls hlesson).2 with rfl | ⟨_, _, _, rfl⟩
    · cases hkind
    · cases hkind

/-- Classes are asked for without one. -/
theorem classRequests_unkeyed : ∀ request ∈ a.classRequests p courses, request.1 = none := by
  intro request hrequest
  obtain ⟨place, body, hcall, _, hkind⟩ := mem_asks.mp hrequest
  rcases mem_planCalls hcall with ⟨_, _, rfl⟩ | ⟨_, _, _, rfl⟩ | ⟨_, _, _, _, _, _, hlesson, _⟩
  · cases hkind
  · cases hkind
  · rcases (mem_lessonCalls hlesson).2 with rfl | ⟨_, _, _, rfl⟩
    · rw [← Option.some.inj hkind]
    · cases hkind

theorem activityRequests_unkeyed : ∀ request ∈ a.activityRequests p courses, request.1 = none := by
  intro request hrequest
  obtain ⟨place, body, _, _, hkind⟩ := mem_asks.mp hrequest
  cases body with
  | createActivity => rw [← Option.some.inj hkind]
  | _ => cases hkind

theorem classRequests_eq_nil : a.classRequests p courses = [] ↔ ¬a.CreatesClass p courses := by
  rw [List.eq_nil_iff_forall_not_mem]
  constructor
  · rintro h ⟨place, body, hcall, hperforms, hclass⟩
    obtain ⟨request, hrequest⟩ := Option.isSome_iff_exists.mp hclass
    exact h request (mem_asks.mpr ⟨place, body, hcall, hperforms, hrequest⟩)
  · intro h request hrequest
    obtain ⟨place, body, hcall, hperforms, hkind⟩ := mem_asks.mp hrequest
    exact h ⟨place, body, hcall, hperforms, hkind ▸ rfl⟩

/-- Homework comes after a class of the same submit. -/
theorem activityRequests_eq_nil (h : ¬a.CreatesClass p courses) : a.activityRequests p courses = [] := by
  rw [List.eq_nil_iff_forall_not_mem]
  intro request hrequest
  obtain ⟨place, body, hcall, _, hkind⟩ := mem_asks.mp hrequest
  rcases mem_planCalls hcall with ⟨_, _, rfl⟩ | ⟨_, _, _, rfl⟩ |
    ⟨i, courseId, teacherUid, unitId, lesson, j, hlesson, hsub⟩
  · cases hkind
  · cases hkind
  · obtain ⟨hclass, rfl | ⟨⟨classId, houtcome⟩, _⟩⟩ := mem_lessonCalls hlesson
    · cases hkind
    · exact h ⟨_, _, hsub hclass, performs_of_outcome houtcome, rfl⟩

/-! ### A submit where everything works -/

theorem flatMap_zipIdx {α β : Type} (f : α → List β) (xs : List α) :
    (xs.zipIdx.flatMap fun entry => f entry.1) = xs.flatMap f := by
  rw [← List.flatMap_map Prod.fst f xs.zipIdx, List.zipIdx_map_fst]

theorem asks_append {α : Type} (a : Attempt) (kind : WriteCall → Option α)
    (calls calls' : List (Place × WriteCall)) :
    a.asks kind (calls ++ calls') = a.asks kind calls ++ a.asks kind calls' := by
  unfold Attempt.asks Attempt.performed
  rw [List.filter_append, List.map_append, List.filterMap_append]

theorem asks_flatMap {α β : Type} (a : Attempt) (kind : WriteCall → Option α) (xs : List β)
    (calls : β → List (Place × WriteCall)) :
    a.asks kind (xs.flatMap calls) = xs.flatMap fun x => a.asks kind (calls x) := by
  induction xs with
  | nil => rfl
  | cons x xs ih => rw [List.flatMap_cons, asks_append, ih, List.flatMap_cons]

theorem asks_cons {α : Type} {kind : WriteCall → Option α} {place : Place} {body : WriteCall}
    {calls : List (Place × WriteCall)} (h : a.performs place = true) :
    a.asks kind ((place, body) :: calls) = (kind body).toList ++ a.asks kind calls := by
  unfold Attempt.asks
  rw [performed_cons, if_pos h, List.filterMap_cons]
  cases kind body <;> rfl

/-- What the calls for a lesson and its homework ask for. -/
def lessonAsks {α : Type} (kind : WriteCall → Option α) (courseId teacherUid unit : Int)
    (lesson : PlanLesson) : List α :=
  (kind (lessonBody courseId teacherUid (some unit) lesson)).toList
    ++ (lesson.homework.bind fun homework =>
      kind (homeworkBody courseId unit teacherUid lesson homework)).toList

/-- The calls for a lesson that is created with its homework. -/
theorem asks_lessonCalls {α : Type} {kind : WriteCall → Option α} {i : Nat} {courseId teacherUid unit : Int}
    {lesson : PlanLesson} {j : Nat} (hunit : unit ≠ 0)
    (hreturns : lessonReturns p a.answers i courseId teacherUid (some unit) lesson j = true)
    (hlesson : ∃ classId, (a.answers (.lesson i j)).outcome classIdOf = .ok (.ok classId))
    (hhomework : lesson.homework.isSome = true →
      ∃ activityId, (a.answers (.homework i j)).outcome activityIdOf = .ok (.ok activityId)) :
    a.asks kind (lessonCalls p a.answers i courseId teacherUid (some unit) lesson j) =
      lessonAsks kind courseId teacherUid unit lesson := by
  obtain ⟨classId, houtcome⟩ := hlesson
  have hfilter : (some unit).filter (· ≠ 0) = some unit := by
    rw [Option.filter_some, if_pos (decide_eq_true hunit)]
  unfold lessonReturns at hreturns
  cases hstart : lesson.startAt.timestamp with
  | error e =>
      rw [hstart] at hreturns
      cases hreturns
  | ok startTime =>
      cases hend : lesson.endAt.timestamp with
      | error e =>
          rw [hstart, hend] at hreturns
          cases hreturns
      | ok endTime =>
          simp only [hstart, hend, houtcome, Bool.and_eq_true] at hreturns
          obtain ⟨hrecorded, hwork⟩ := hreturns
          have hrecordable : recordable p courseId teacherUid lesson classId = true := by
            unfold recordable
            rw [seconds_eq hstart, seconds_eq hend, Bool.and_eq_true]
            exact hrecorded
          have htimes : (lesson.startAt.timestamp.isOk && lesson.endAt.timestamp.isOk) = true := by
            rw [hstart, hend]
            rfl
          unfold lessonCalls lessonAsks
          rw [if_pos htimes, asks_cons (performs_of_outcome houtcome), houtcome]
          simp only [hrecordable, if_true]
          unfold homeworkCalls
          cases hplanned : lesson.homework with
          | none => rfl
          | some homework =>
              rw [homeworkReturns, hplanned, hfilter] at hwork
              simp only [Bool.and_eq_true] at hwork
              obtain ⟨activityId, hactivity⟩ := hhomework (hplanned ▸ rfl)
              simp only [hfilter, hwork.1.1, hwork.1.2, Bool.and_self, if_true]
              rw [asks_cons (performs_of_outcome hactivity)]
              exact congrArg (_ ++ ·) (List.append_nil _)

theorem asks_unitCalls {α : Type} {kind : WriteCall → Option α}
    (hunits : ∀ courseId name content flag, kind (.createUnit courseId name content flag) = none)
    (i : Nat) (course : PlanCourse) (courseId : Int) : a.asks kind (unitCalls i course courseId) = [] := by
  rw [List.eq_nil_iff_forall_not_mem]
  intro request hrequest
  obtain ⟨place, body, hcall, _, hkind⟩ := mem_asks.mp hrequest
  unfold unitCalls at hcall
  split at hcall
  · exact absurd hcall List.not_mem_nil
  · rw [(Prod.mk.inj (List.mem_singleton.mp hcall)).2, unitBody, hunits] at hkind
    cases hkind

/-- What a full submit asks for in a course that has its id. -/
theorem Attempt.Full.asks_fillCalls {α : Type} {kind : WriteCall → Option α} (h : a.Full p courses)
    (hunits : ∀ courseId name content flag, kind (.createUnit courseId name content flag) = none)
    {course : PlanCourse} {i : Nat} (hcourse : (course, i) ∈ courses.zipIdx) {teacherUid courseId : Int}
    (huid : course.authorized? = some teacherUid)
    (hreturns : fillReturns p a.answers i course teacherUid courseId = true) :
    ∃ unit, a.asks kind (fillCalls p a.answers i course teacherUid courseId) =
      course.lessons.flatMap (lessonAsks kind courseId teacherUid unit) := by
  have hsome : course.authorized?.isSome = true := huid ▸ rfl
  unfold fillReturns at hreturns
  obtain ⟨hrange, hrest⟩ := (Bool.and_eq_true _ _).mp hreturns
  unfold fillCalls
  rw [if_pos hrange, asks_append, asks_unitCalls hunits, List.nil_append]
  cases hlessons : course.lessons with
  | nil =>
      refine ⟨0, ?_⟩
      cases unitOutcome a.answers i course <;> rfl
  | cons first rest =>
      have hne : course.lessons ≠ [] := hlessons ▸ List.cons_ne_nil first rest
      obtain ⟨unit, hunit, houtcome⟩ := h.unit course i hcourse hsome hne
      simp only [houtcome] at hrest ⊢
      have hlesson : ∀ entry ∈ course.lessons.zipIdx,
          a.asks kind (lessonCalls p a.answers i courseId teacherUid (some unit) entry.1 entry.2) =
            lessonAsks kind courseId teacherUid unit entry.1 := by
        rintro ⟨lesson, j⟩ hentry
        exact asks_lessonCalls hunit (List.all_eq_true.mp hrest _ hentry)
          (h.lesson course i hcourse hsome lesson j hentry)
          (h.homework course i hcourse hsome lesson j hentry)
      refine ⟨unit, ?_⟩
      rw [← hlessons, Script.through_of_all hrest, asks_flatMap, List.flatMap_congr hlesson]
      exact flatMap_zipIdx (lessonAsks kind courseId teacherUid unit) course.lessons

/-- What a full submit asks for, course by course. -/
theorem Attempt.Full.asks_courseCalls {α : Type} {kind : WriteCall → Option α} (h : a.Full p courses)
    (hunits : ∀ courseId name content flag, kind (.createUnit courseId name content flag) = none)
    {course : PlanCourse} {i : Nat} (hcourse : (course, i) ∈ courses.zipIdx) {teacherUid courseId : Int}
    (huid : course.authorized? = some teacherUid)
    (hid : courseOutcome a.answers course i = .ok (.ok courseId)) :
    ∃ unit, a.asks kind (courseCalls p a.answers course i) =
      (if (course.existingCourseId.filter (· ≠ 0)).isSome then []
        else (kind (courseBody p course teacherUid)).toList) ++
      course.lessons.flatMap (lessonAsks kind courseId teacherUid unit) := by
  have hreturns := h.returns course i hcourse
  unfold courseReturns at hreturns
  simp only [huid, hid] at hreturns
  obtain ⟨unit, hfill⟩ := h.asks_fillCalls hunits hcourse huid hreturns
  refine ⟨unit, ?_⟩
  unfold courseCalls
  simp only [huid, hid]
  rw [asks_append, hfill]
  refine congrArg (· ++ _) ?_
  unfold courseOutcome at hid
  cases hexisting : course.existingCourseId.filter (· ≠ 0) with
  | some posted => rfl
  | none =>
      rw [hexisting] at hid
      exact (asks_cons (performs_of_outcome hid)).trans (List.append_nil _)

/-- No course ends a full submit. -/
theorem Attempt.Full.planCalls_eq (h : a.Full p courses) :
    planCalls p a.answers courses =
      courses.zipIdx.flatMap fun entry => courseCalls p a.answers entry.1 entry.2 := by
  have hall : courses.zipIdx.all (fun entry => courseReturns p a.answers entry.1 entry.2) = true :=
    List.all_eq_true.mpr fun entry hentry => h.returns entry.1 entry.2 hentry
  rw [planCalls, Script.through_of_all hall]

theorem Attempt.Full.asks_planCalls {α : Type} {kind : WriteCall → Option α} (h : a.Full p courses) :
    a.asks kind (planCalls p a.answers courses) =
      courses.zipIdx.flatMap fun entry => a.asks kind (courseCalls p a.answers entry.1 entry.2) := by
  rw [h.planCalls_eq, asks_flatMap]

theorem courseCalls_of_unauthorized {answers : Answers} {course : PlanCourse} {i : Nat}
    (huid : course.authorized? = none) : courseCalls p answers course i = [] := by
  unfold courseCalls
  rw [huid]

/-- A full submit asks for the planned courses. -/
theorem Attempt.Full.courseRequests_eq (h : a.Full p courses) :
    a.courseRequests p courses = plannedCourses p courses := by
  have hentry : ∀ entry ∈ courses.zipIdx,
      a.asks WriteCall.course? (courseCalls p a.answers entry.1 entry.2) =
        (plannedCourse? p entry.1).toList := by
    rintro ⟨course, i⟩ hcourse
    unfold plannedCourse?
    cases huid : course.authorized? with
    | none => rw [courseCalls_of_unauthorized huid]; rfl
    | some teacherUid =>
        obtain ⟨courseId, hid⟩ := h.course course i hcourse (huid ▸ rfl)
        have hunits : ∀ courseId name content flag,
            (WriteCall.createUnit courseId name content flag).course? = none := fun _ _ _ _ => rfl
        obtain ⟨unit, hcalls⟩ := h.asks_courseCalls hunits hcourse huid hid
        have hlessons : ∀ lesson ∈ course.lessons,
            lessonAsks WriteCall.course? courseId teacherUid unit lesson = [] := by
          intro lesson _
          unfold lessonAsks
          cases lesson.homework <;> rfl
        rw [hcalls, List.flatMap_eq_nil_iff.mpr hlessons, List.append_nil, Option.bind_some]
        split <;> rfl
  unfold Attempt.courseRequests plannedCourses
  rw [h.asks_planCalls, List.flatMap_congr hentry, List.filterMap_eq_flatMap_toList]
  exact flatMap_zipIdx (fun course => (plannedCourse? p course).toList) courses

/-- Two full submits with the same course ids ask for the same, but for units. -/
theorem Attempt.Full.asks_congr {α : Type} {kind : WriteCall → Option α} {b : Attempt}
    (ha : a.Full p courses) (hb : b.Full p courses)
    (hunits : ∀ courseId name content flag, kind (.createUnit courseId name content flag) = none)
    (hfree : ∀ courseId teacherUid unit unit',
      lessonAsks kind courseId teacherUid unit = lessonAsks kind courseId teacherUid unit')
    (hsame : ∀ course i, (course, i) ∈ courses.zipIdx →
      courseId? a.answers course i = courseId? b.answers course i) :
    a.asks kind (planCalls p a.answers courses) = b.asks kind (planCalls p b.answers courses) := by
  rw [ha.asks_planCalls, hb.asks_planCalls]
  refine List.flatMap_congr ?_
  rintro ⟨course, i⟩ hcourse
  cases huid : course.authorized? with
  | none => rw [courseCalls_of_unauthorized huid, courseCalls_of_unauthorized huid]; rfl
  | some teacherUid =>
      obtain ⟨courseId, hid⟩ := ha.course course i hcourse (huid ▸ rfl)
      obtain ⟨courseId', hid'⟩ := hb.course course i hcourse (huid ▸ rfl)
      obtain rfl : courseId = courseId' := by
        have hids := hsame course i hcourse
        unfold courseId? at hids
        rw [huid, hid, hid'] at hids
        exact Option.some.inj hids
      obtain ⟨unit, hcalls⟩ := ha.asks_courseCalls hunits hcourse huid hid
      obtain ⟨unit', hcalls'⟩ := hb.asks_courseCalls hunits hcourse huid hid'
      rw [hcalls, hcalls', hfree courseId teacherUid unit unit']

theorem lessonAsks_class (courseId teacherUid unit unit' : Int) :
    lessonAsks WriteCall.class? courseId teacherUid unit =
      lessonAsks WriteCall.class? courseId teacherUid unit' := by
  funext lesson
  unfold lessonAsks
  cases lesson.homework <;> rfl

theorem lessonAsks_activity (courseId teacherUid unit unit' : Int) :
    lessonAsks WriteCall.activity? courseId teacherUid unit =
      lessonAsks WriteCall.activity? courseId teacherUid unit' := by
  funext lesson
  unfold lessonAsks
  cases lesson.homework <;> rfl

/-- A full submit calls `addCourse` for every new course. -/
theorem Attempt.Full.addCourse_mem (h : a.Full p courses) {course : PlanCourse} {i : Nat}
    (hcourse : (course, i) ∈ courses.zipIdx) {teacherUid : Int}
    (huid : course.authorized? = some teacherUid)
    (hnew : course.existingCourseId.filter (· ≠ 0) = none) :
    (.course i, courseBody p course teacherUid) ∈ planCalls p a.answers courses := by
  rw [h.planCalls_eq]
  refine List.mem_flatMap.mpr ⟨_, hcourse, ?_⟩
  simp only [courseCalls, huid, hnew]
  exact List.mem_cons_self

end Calls

/-! ### One full submit among others -/

/-- The same courses with their ids, and as many classes and activities of each kind. -/
structure School.SameEntities (s t : School) : Prop where
  courses : s.courses.entries.Perm t.courses.entries
  classes : s.classes.bodies.Perm t.classes.bodies
  activities : s.activities.bodies.Perm t.activities.bodies

theorem flatMap_perm_iff {α β : Type} {f : α → List β} {before after : List α} {x : α} :
    ((before ++ x :: after).flatMap f).Perm (f x) ↔ ∀ y ∈ before ++ after, f y = [] := by
  rw [List.flatMap_append, List.flatMap_cons]
  constructor
  · intro h
    have hlength := h.length_eq
    simp only [List.length_append] at hlength
    have hbefore : before.flatMap f = [] := List.eq_nil_of_length_eq_zero (by omega)
    have hafter : after.flatMap f = [] := List.eq_nil_of_length_eq_zero (by omega)
    intro y hy
    rcases List.mem_append.mp hy with hy | hy
    · exact List.flatMap_eq_nil_iff.mp hbefore y hy
    · exact List.flatMap_eq_nil_iff.mp hafter y hy
  · intro h
    have hbefore : before.flatMap f = [] :=
      List.flatMap_eq_nil_iff.mpr fun y hy => h y (List.mem_append_left _ hy)
    have hafter : after.flatMap f = [] :=
      List.flatMap_eq_nil_iff.mpr fun y hy => h y (List.mem_append_right _ hy)
    rw [hbefore, hafter, List.nil_append, List.append_nil]

section Retry

variable {p : Platform} {session : Session} {form : CreateForm} {start w w' : World}
  {attempts : List Attempt} {courses : List PlanCourse} {notes : List String}

/-- The id that a submit was answered for a new course is the id of the course with its key. -/
theorem named_of_posts (hplan : checkedPlan w.store session form = .ok (courses, notes))
    (h : Posts p session form w attempts w') {a : Attempt} (ha : a ∈ attempts) {place : Place}
    {name : String} {mainTeacherUid : Option Int} {key : String} {id : Int}
    (hcall : (place, .addCourse name mainTeacherUid (some key)) ∈ planCalls p a.answers courses)
    (hid : (a.answers place).outcome courseIdOf = .ok (.ok id)) :
    ∃ entry ∈ w'.school.courses.entries, entry.key = some key ∧ entry.id = id := by
  induction h with
  | nil w => exact absurd ha List.not_mem_nil
  | @cons w w' school first attempts hrun hrest ih =>
      have hteachers : (w.store.create
          (createExecute p first.answers w.store (some session) form)).teachers = w.store.teachers :=
        createExecute_teachers p first.answers form
      have hnext := (checkedPlan_of_teachers hteachers).trans hplan
      rcases List.mem_cons.mp ha with rfl | ha
      · rw [requests_createExecute hplan] at hrun
        obtain ⟨value, hanswer, hread⟩ := data_of_outcome hid
        obtain ⟨entry, hentry, hkey, hentryId⟩ := hrun.named hcall hanswer hread
        exact ⟨entry, hrest.courses_subset hentry, hkey, hentryId⟩
      · exact ih hnext ha

/-- Where a course of one key has one id, two full submits of two runs have the same course ids. -/
theorem courseId?_eq_of_names (hmd5 : ∀ s, p.md5Hex s ≠ "")
    (hplan : checkedPlan start.store session form = .ok (courses, notes)) {attempts' : List Attempt}
    (h : Posts p session form start attempts w) (h' : Posts p session form start attempts' w')
    (hnames : Registry.SameNames w.school.courses w'.school.courses) {a b : Attempt}
    (ha : a ∈ attempts) (hb : b ∈ attempts') (hfull : a.Full p courses) (hfull' : b.Full p courses)
    {course : PlanCourse} {i : Nat} (hcourse : (course, i) ∈ courses.zipIdx) :
    courseId? a.answers course i = courseId? b.answers course i := by
  cases huid : course.authorized? with
  | none => rw [courseId?, huid, courseId?, huid]; rfl
  | some teacherUid =>
      obtain ⟨courseId, hid⟩ := hfull.course course i hcourse (huid ▸ rfl)
      obtain ⟨courseId', hid'⟩ := hfull'.course course i hcourse (huid ▸ rfl)
      have hsame : courseId = courseId' := by
        cases hexisting : course.existingCourseId.filter (· ≠ 0) with
        | some posted =>
            rw [courseOutcome, hexisting] at hid hid'
            exact Except.ok.inj (Except.ok.inj (hid.symm.trans hid'))
        | none =>
            have hcall := hfull.addCourse_mem hcourse huid hexisting
            have hcall' := hfull'.addCourse_mem hcourse huid hexisting
            rw [courseOutcome, hexisting] at hid hid'
            obtain ⟨key, hkey⟩ := courseBody_keyed hmd5 course teacherUid
            rw [hkey] at hcall hcall'
            obtain ⟨entry, hentry, hentryKey, hentryId⟩ := named_of_posts hplan h ha hcall hid
            obtain ⟨other, hother, hotherKey, hotherId⟩ := named_of_posts hplan h' hb hcall' hid'
            rw [← hentryId, ← hotherId]
            exact hnames entry hentry other hother (hentryKey ▸ rfl)
              (hentryKey.trans hotherKey.symm)
      rw [courseId?, huid, hid, courseId?, huid, hid', hsame]

/-- In a part of the school without keys, the submits leave what the full one alone leaves exactly
when the others create nothing there. -/
theorem bodies_perm_once {β : Type} {part : School → Registry Int String β}
    {kind : WriteCall → Option (Option String × β)}
    (hrun : ∀ {a : Attempt} {s s' : School} {calls : List (Place × WriteCall)},
      School.Run a s calls s' → (part s).CreatesAll (a.asks kind calls) (part s'))
    (hkeys : ∀ a : Attempt, ∀ request ∈ a.asks kind (planCalls p a.answers courses), request.1 = none)
    (hplan : checkedPlan start.store session form = .ok (courses, notes))
    {before after : List Attempt} {full single : Attempt}
    (hretried : Posts p session form start (before ++ full :: after) w)
    (honce : Posts p session form start [single] w')
    (hsame : full.asks kind (planCalls p full.answers courses) =
      single.asks kind (planCalls p single.answers courses)) :
    (part w.school).bodies.Perm (part w'.school).bodies ↔
      ∀ a ∈ before ++ after, a.asks kind (planCalls p a.answers courses) = [] := by
  have hunkeyed : ∀ attempts : List Attempt, ∀ request ∈
      attempts.flatMap fun a => a.asks kind (planCalls p a.answers courses), request.1 = none := by
    intro attempts request hrequest
    obtain ⟨a, _, hmem⟩ := List.mem_flatMap.mp hrequest
    exact hkeys a request hmem
  rw [Registry.bodies_perm_iff (createsAll_of_posts part kind hrun hplan hretried)
    (createsAll_of_posts part kind hrun hplan honce) (hunkeyed _) (hunkeyed _), List.flatMap_singleton,
    ← hsame, List.map_flatMap, flatMap_perm_iff]
  exact forall₂_congr fun a _ => List.map_eq_nil_iff

/-- The form is submitted any number of times, once with everything working. What is then in ClassIn
is what one such submit leaves exactly when no other submit got a class created, and the first course
that was created under a key is the first one of the plan. -/
theorem resubmit_sameEntities_iff (p : Platform) (hmd5 : ∀ s, p.md5Hex s ≠ "") (session : Session)
    (form : CreateForm) (start retried once : World) (before after : List Attempt) (full single : Attempt)
    (courses : List PlanCourse) (notes : List String)
    (hplan : checkedPlan start.store session form = .ok (courses, notes))
    (hfull : full.Full p courses) (hsingle : single.Full p courses)
    (hretried : Posts p session form start (before ++ full :: after) retried)
    (honce : Posts p session form start [single] once)
    (hnames : Registry.SameNames retried.school.courses once.school.courses) :
    retried.school.SameEntities once.school ↔
      (∀ a ∈ before ++ after, ¬a.CreatesClass p courses) ∧
      ∀ key, ¬start.school.courses.Used key →
        Registry.firstBody ((before ++ full :: after).flatMap (Attempt.courseRequests p courses)) key =
          Registry.firstBody (plannedCourses p courses) key := by
  have hids : ∀ course i, (course, i) ∈ courses.zipIdx →
      courseId? full.answers course i = courseId? single.answers course i := fun course i hcourse =>
    courseId?_eq_of_names hmd5 hplan hretried honce hnames
      (List.mem_append_right _ List.mem_cons_self) List.mem_cons_self hfull hsingle hcourse
  have hkeyed : ∀ attempts : List Attempt,
      ∀ request ∈ attempts.flatMap (Attempt.courseRequests p courses), request.1.isSome = true := by
    intro attempts request hrequest
    obtain ⟨a, _, hmem⟩ := List.mem_flatMap.mp hrequest
    exact courseRequests_keyed hmd5 request hmem
  have hentries := Registry.entries_perm_iff
    (createsAll_of_posts School.courses WriteCall.course? School.Run.courses hplan hretried)
    (createsAll_of_posts School.courses WriteCall.course? School.Run.courses hplan honce)
    (hkeyed _) (hkeyed _) hnames
  have hfirst : [single].flatMap (Attempt.courseRequests p courses) = plannedCourses p courses := by
    rw [List.flatMap_singleton, hsingle.courseRequests_eq]
  have hcourses : retried.school.courses.entries.Perm once.school.courses.entries ↔ _ :=
    hfirst ▸ hentries
  have hclasses : retried.school.classes.bodies.Perm once.school.classes.bodies ↔
      ∀ a ∈ before ++ after, a.classRequests p courses = [] :=
    bodies_perm_once School.Run.classes (fun _ => classRequests_unkeyed) hplan hretried honce
      (hfull.asks_congr hsingle (fun _ _ _ _ => rfl) lessonAsks_class hids)
  have hactivities : retried.school.activities.bodies.Perm once.school.activities.bodies ↔
      ∀ a ∈ before ++ after, a.activityRequests p courses = [] :=
    bodies_perm_once School.Run.activities (fun _ => activityRequests_unkeyed) hplan hretried honce
      (hfull.asks_congr hsingle (fun _ _ _ _ => rfl) lessonAsks_activity hids)
  constructor
  · intro h
    exact ⟨fun a ha => classRequests_eq_nil.mp (hclasses.mp h.classes a ha), hcourses.mp h.courses⟩
  · rintro ⟨hnone, hkeys⟩
    exact
      { courses := hcourses.mpr hkeys
        classes := hclasses.mpr fun a ha => classRequests_eq_nil.mpr (hnone a ha)
        activities := hactivities.mpr fun a ha => activityRequests_eq_nil (hnone a ha) }

end Retry

/-! ### A plan of one lesson, submitted twice -/

/-- With the key of the course of the plan. -/
def mathPlatform : Platform := { Platform.plain with md5Hex := fun _ => "8f4293543d3ca6ac906605c50a67787c" }

def emptySchool : School := ⟨⟨[], List.nodup_nil⟩, ⟨[], List.nodup_nil⟩, ⟨[], List.nodup_nil⟩⟩

/-- Everything is created. -/
def allCreated : Attempt where
  answers
    | .course _ => .data (.int 500)
    | .unit _ => .data (.object [("unitId", .int 600)])
    | .lesson _ _ => .data (.object [("classId", .int 10)])
    | .homework _ _ => .data (.object [("activityId", .int 70)])
  lost _ := false

/-- The class is refused. -/
def classRefused : Attempt where
  answers
    | .course _ => .data (.int 500)
    | .unit _ => .data (.object [("unitId", .int 601)])
    | _ => .refused "denied"
  lost _ := false

/-- The class is created, and its homework is refused. -/
def homeworkRefused : Attempt where
  answers
    | .course _ => .data (.int 500)
    | .unit _ => .data (.object [("unitId", .int 602)])
    | .lesson _ _ => .data (.object [("classId", .int 9)])
    | .homework _ _ => .refused "denied"
  lost _ := false

theorem checkedPlan_mathPlan (store : Store) :
    checkedPlan store principal (submitted [mathPlan]) = .ok ([mathPlan], []) := rfl

/-- The calls for the plan in the course 500. -/
def mathCalls (unitId : Int) : List (Place × WriteCall) :=
  [(.course 0, .addCourse "수학" (some 7) (some "8f4293543d3ca6ac906605c50a67787c")),
    (.unit 0, .createUnit 500 "대시보드 등록 - 2026-05-06" "" 2),
    (.lesson 0 0, .createClass 500 "1강" 7 1778061600 1778061600 (some unitId) none),
    (.homework 0 0, .createActivity 500 unitId 2 "워크북" 7 (some 1778061600) none)]

theorem allCreated_calls : planCalls mathPlatform allCreated.answers [mathPlan] = mathCalls 600 := by
  decide

theorem homeworkRefused_calls :
    planCalls mathPlatform homeworkRefused.answers [mathPlan] = mathCalls 602 := by
  decide

theorem classRefused_calls :
    planCalls mathPlatform classRefused.answers [mathPlan] = (mathCalls 601).take 3 := by
  decide

theorem allCreated_full : allCreated.Full mathPlatform [mathPlan] where
  returns course i h := by
    obtain ⟨rfl, rfl⟩ : course = mathPlan ∧ i = 0 := by simpa using h
    decide
  course course i h _ := by
    obtain ⟨rfl, rfl⟩ : course = mathPlan ∧ i = 0 := by simpa using h
    exact ⟨500, rfl⟩
  unit course i h _ _ := by
    obtain ⟨rfl, rfl⟩ : course = mathPlan ∧ i = 0 := by simpa using h
    exact ⟨600, by decide, rfl⟩
  lesson course i _ _ _ _ _ := ⟨.int 10, rfl⟩
  homework course i _ _ _ _ _ _ := ⟨70, rfl⟩

/-- The calls of a submit of the plan, wherever the store is. -/
theorem mathPlan_run {a : Attempt} {s s' : School} {calls : List (Place × WriteCall)} (store : Store)
    (hcalls : planCalls mathPlatform a.answers [mathPlan] = calls) (h : School.Run a s calls s') :
    School.Run a s
      (requests (createExecute mathPlatform a.answers store (some principal) (submitted [mathPlan]))) s' := by
  rw [requests_createExecute (checkedPlan_mathPlan store), hcalls]
  exact h

/-- The course of the plan. -/
def mathEntry : Registry.Entry Int String SchoolCourse :=
  ⟨500, some "8f4293543d3ca6ac906605c50a67787c", ⟨"수학", some 7⟩⟩

def mathClass : SchoolClass := ⟨500, "1강", 7, 1778061600, 1778061600⟩

def mathActivity : SchoolActivity := ⟨500, 2, "워크북", 7, some 1778061600, none⟩

def mathSchool (classes : Registry Int String SchoolClass) (activities : Registry Int String SchoolActivity) :
    School :=
  ⟨⟨[mathEntry], List.nodup_singleton 500⟩, classes, activities⟩

theorem addCourse_fresh {a : Attempt} (hanswer : a.answers (.course 0) = .data (.int 500)) :
    emptySchool.Serves a (.course 0)
      (.addCourse "수학" (some 7) (some "8f4293543d3ca6ac906605c50a67787c"))
      (mathSchool emptySchool.classes emptySchool.activities) := by
  refine .of_data hanswer rfl (.addCourse (.fresh _ List.not_mem_nil ?_))
  rintro key - ⟨entry, hentry, -⟩
  exact absurd hentry List.not_mem_nil

theorem addCourse_known {a : Attempt} (hanswer : a.answers (.course 0) = .data (.int 500))
    (classes : Registry Int String SchoolClass) (activities : Registry Int String SchoolActivity) :
    (mathSchool classes activities).Serves a (.course 0)
      (.addCourse "수학" (some 7) (some "8f4293543d3ca6ac906605c50a67787c"))
      (mathSchool classes activities) := by
  have hknown : (mathSchool classes activities).courses.Creates mathEntry.key ⟨"수학", some 7⟩
      mathEntry.id (mathSchool classes activities).courses :=
    .known _ (List.mem_singleton_self mathEntry) rfl
  exact .of_data hanswer rfl (.addCourse hknown)

/-- After its course, a submit where everything is created makes a class and an activity. -/
theorem allCreated_run {s : School} {classes : Registry Int String SchoolClass}
    {activities : Registry Int String SchoolActivity}
    (hcourse : s.Serves allCreated (.course 0)
      (.addCourse "수학" (some 7) (some "8f4293543d3ca6ac906605c50a67787c"))
      (mathSchool classes activities))
    (hclass : 10 ∉ classes.entries.map Registry.Entry.id)
    (hactivity : 70 ∉ activities.entries.map Registry.Entry.id) :
    School.Run allCreated s (mathCalls 600) (mathSchool
      (classes.insert ⟨10, none, mathClass⟩ hclass)
      (activities.insert ⟨70, none, mathActivity⟩ hactivity)) := by
  refine .cons hcourse (.cons (.of_data rfl rfl (.createUnit 500 _ _ _ 600))
    (.cons (.of_data rfl rfl (.createClass (.fresh _ hclass ?_)))
      (.cons (.of_data rfl rfl (.createActivity (.fresh _ hactivity ?_))) (.nil _))))
  · exact fun _ h => nomatch h
  · exact fun _ h => nomatch h

/-- A first submit of the plan where everything is created. -/
theorem allCreated_once :
    Posts mathPlatform principal (submitted [mathPlan]) ⟨.empty, emptySchool⟩ [allCreated]
      ⟨Store.empty.create (createExecute mathPlatform allCreated.answers .empty (some principal)
          (submitted [mathPlan])),
        mathSchool (emptySchool.classes.insert ⟨10, none, mathClass⟩ List.not_mem_nil)
          (emptySchool.activities.insert ⟨70, none, mathActivity⟩ List.not_mem_nil)⟩ :=
  .cons (mathPlan_run .empty allCreated_calls
    (allCreated_run (addCourse_fresh rfl) List.not_mem_nil List.not_mem_nil)) (.nil _)

/-- The key of the plan is asked for by every submit. -/
theorem mathPlan_requests :
    [classRefused, allCreated].flatMap (Attempt.courseRequests mathPlatform [mathPlan]) =
        [(mathEntry.key, mathEntry.body), (mathEntry.key, mathEntry.body)] ∧
      plannedCourses mathPlatform [mathPlan] = [(mathEntry.key, mathEntry.body)] := by
  refine ⟨?_, by decide⟩
  simp only [List.flatMap_cons, List.flatMap_nil, Attempt.courseRequests, classRefused_calls,
    allCreated_calls]
  rfl

/-- The class is refused at first, and everything is created when the form is submitted again. -/
theorem resubmit_sameEntities_classRefused :
    ∃ retried once : World,
      Posts mathPlatform principal (submitted [mathPlan]) ⟨.empty, emptySchool⟩
        [classRefused, allCreated] retried ∧
      Posts mathPlatform principal (submitted [mathPlan]) ⟨.empty, emptySchool⟩ [allCreated] once ∧
      retried.school.SameEntities once.school := by
  have hrefused : School.Run classRefused emptySchool ((mathCalls 601).take 3)
      (mathSchool emptySchool.classes emptySchool.activities) :=
    .cons (addCourse_fresh rfl) (.cons (.of_data rfl rfl (.createUnit 500 _ _ _ 601))
      (.cons (.refused rfl) (.nil _)))
  have hsecond := allCreated_run
    (addCourse_known (a := allCreated) rfl emptySchool.classes emptySchool.activities)
    List.not_mem_nil List.not_mem_nil
  have hretried : Posts mathPlatform principal (submitted [mathPlan]) ⟨.empty, emptySchool⟩
      ([classRefused] ++ allCreated :: []) ⟨_, _⟩ :=
    .cons (mathPlan_run .empty classRefused_calls hrefused)
      (.cons (mathPlan_run _ allCreated_calls hsecond) (.nil _))
  have hmd5 : ∀ s, mathPlatform.md5Hex s ≠ "" := by
    intro s
    show "8f4293543d3ca6ac906605c50a67787c" ≠ ""
    decide
  refine ⟨_, _, hretried, allCreated_once, (resubmit_sameEntities_iff mathPlatform hmd5 principal
    (submitted [mathPlan]) _ _ _ _ _ allCreated allCreated [mathPlan] [] rfl allCreated_full
    allCreated_full hretried allCreated_once ?_).mpr ⟨?_, ?_⟩⟩
  · intro entry hentry other hother _ _
    rw [List.mem_singleton.mp hentry, List.mem_singleton.mp hother]
  · intro a ha
    obtain rfl := List.mem_singleton.mp ha
    refine classRequests_eq_nil.mp ?_
    rw [Attempt.classRequests, classRefused_calls]
    rfl
  · intro key _
    show Registry.firstBody ([classRefused, allCreated].flatMap _) key = _
    rw [mathPlan_requests.1, mathPlan_requests.2]
    show Registry.firstBody ((some _, _) :: (some _, _) :: []) key =
      Registry.firstBody ((some _, _) :: []) key
    rw [Registry.firstBody_cons, Registry.firstBody_cons]
    split <;> rfl

/-- The homework is refused at first. When the form is submitted again, the course is found under its
key, and the class is created a second time. -/
theorem resubmit_duplicates_class :
    ∃ retried once : World,
      Posts mathPlatform principal (submitted [mathPlan]) ⟨.empty, emptySchool⟩
        [homeworkRefused, allCreated] retried ∧
      Posts mathPlatform principal (submitted [mathPlan]) ⟨.empty, emptySchool⟩ [allCreated] once ∧
      allCreated.Full mathPlatform [mathPlan] ∧
      retried.school.courses.entries = once.school.courses.entries ∧
      retried.school.classes.bodies.length = 2 ∧ once.school.classes.bodies.length = 1 ∧
      ¬retried.school.SameEntities once.school := by
  have hrefused : School.Run homeworkRefused emptySchool (mathCalls 602)
      (mathSchool (emptySchool.classes.insert
        ⟨9, none, mathClass⟩ List.not_mem_nil) emptySchool.activities) :=
    .cons (addCourse_fresh rfl) (.cons (.of_data rfl rfl (.createUnit 500 _ _ _ 602))
      (.cons (.of_data rfl rfl (.createClass (.fresh _ List.not_mem_nil fun _ h => nomatch h)))
        (.cons (.refused rfl) (.nil _))))
  have hsecond := allCreated_run
    (addCourse_known (a := allCreated) rfl (emptySchool.classes.insert
      ⟨9, none, mathClass⟩ List.not_mem_nil) emptySchool.activities)
    (by decide) List.not_mem_nil
  have hretried : Posts mathPlatform principal (submitted [mathPlan]) ⟨.empty, emptySchool⟩
      [homeworkRefused, allCreated] ⟨_, _⟩ :=
    .cons (mathPlan_run .empty homeworkRefused_calls hrefused)
      (.cons (mathPlan_run _ allCreated_calls hsecond) (.nil _))
  refine ⟨_, _, hretried, allCreated_once, allCreated_full, rfl, rfl, rfl, fun h => ?_⟩
  exact absurd h.classes.length_eq (by decide)

end ClassinDashboard

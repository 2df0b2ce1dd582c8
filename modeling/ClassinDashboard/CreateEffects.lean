import ClassinDashboard.IngestBinding
import ClassinDashboard.RoutesCreate

/-!
What a create request can do: besides the lines of its report it makes calls and writes rows, all of
them for the teacher of a course that is not blocked.
-/

namespace ClassinDashboard

open Py Sql

/-- The row that a created class is recorded with. -/
def classRow (courseId teacherUid startTime endTime : Int) (title : String) : LessonRow where
  courseId := courseId
  title := title
  startTime := .int startTime
  endTime := .int endTime
  teacherUid := .int teacherUid
  homeworkActivityId := none
  createdVia := "api"

/-- The row that adds a homework activity to a class. -/
def activityRow (activityId : Int) : LessonRow where
  courseId := none
  title := none
  startTime := .null
  endTime := .null
  teacherUid := .null
  homeworkActivityId := activityId
  createdVia := "api"

/-- The calls, the writes and the lines for the lessons of a course. -/
inductive LessonEffect (credentials : Credentials) (i : Nat) (teacherUid : Int) : CreateEffect → Prop
  | createUnit (courseId : Int) (name : String) :
      LessonEffect credentials i teacherUid
        (.call (.unit i) credentials (.createUnit courseId name "" 2))
  | createClass (j : Nat) (courseId : Int) (name : String) (startTime endTime : Int)
      (unitId : Option Int) :
      LessonEffect credentials i teacherUid
        (.call (.lesson i j) credentials
          (.createClass courseId name teacherUid startTime endTime unitId none))
  | createActivity (j : Nat) (courseId unitId : Int) (name : String) (startTime endTime : Option Int) :
      LessonEffect credentials i teacherUid
        (.call (.homework i j) credentials
          (.createActivity courseId unitId activityHomework name teacherUid startTime endTime))
  | lesson (classId : String) (courseId startTime endTime : Int) (title : String) :
      LessonEffect credentials i teacherUid
        (.write (.lesson classId (classRow courseId teacherUid startTime endTime title)))
  | activity (classId : String) (activityId : Int) :
      LessonEffect credentials i teacherUid (.write (.lesson classId (activityRow activityId)))
  | created (place : Place) (line : Created) :
      LessonEffect credentials i teacherUid (.created place line)
  | error (place : Place) (line : CreateError) :
      LessonEffect credentials i teacherUid (.error place line)

/-- What is done for a course with a teacher. -/
inductive CourseEffect (credentials : Credentials) (i : Nat) (teacherUid : Int) : CreateEffect → Prop
  | addCourse (name : String) (identity : Option String) :
      CourseEffect credentials i teacherUid
        (.call (.course i) credentials (.addCourse name (some teacherUid) identity))
  | course (courseId : Int) (name : String) :
      CourseEffect credentials i teacherUid
        (.write (.course courseId (some name) (.int teacherUid) none "api"))
  | inside {effect : CreateEffect} (h : LessonEffect credentials i teacherUid effect) :
      CourseEffect credentials i teacherUid effect

section Effects

variable (p : Platform) (credentials : Credentials) (answers : Answers)

/-! ### Store methods -/

theorem onStore_emits {α : Type} {P : CreateEffect → Prop} {s : StoreScript α}
    (h : ∀ w ∈ s.writes, P (.write w)) : (onStore s).Emits P :=
  Script.Emits.mapWrites h

theorem bindInteger_int {n : Int} {cell : SqlValue} (h : p.bindInteger (.int n) = .ok cell) :
    cell = .int n := by
  have hfits : fits (some n) = true := (bindInteger_isOk p).mp ⟨cell, h⟩
  exact (Except.ok.inj ((bindInteger_of_fits p hfits).symm.trans h)).symm

theorem bindInt_eq {n cell : Option Int} (h : bindInt n = .ok cell) : cell = n := by
  have hfits : fits n = true := bindInt_isOk.mp ⟨cell, h⟩
  exact (Except.ok.inj ((bindInt_of_fits hfits).symm.trans h)).symm

theorem mem_upsertCourse {courseId teacherUid : Int} {name : String} {w : Write}
    (h : w ∈ (upsertCourse p courseId (.string name) (.int teacherUid) .none "api").writes) :
    w = .course courseId (some name) (.int teacherUid) none "api" := by
  obtain ⟨key, hkey, h⟩ := bind_eq_ok.mp (Script.mem_writes_commit.mp h)
  obtain ⟨name', hname, h⟩ := bind_eq_ok.mp h
  obtain ⟨uid, huid, h⟩ := bind_eq_ok.mp h
  obtain ⟨teacherName, hteacher, h⟩ := bind_eq_ok.mp h
  rw [← Except.ok.inj h, bindKey_eq hkey, ← Except.ok.inj hname, bindInteger_int p huid,
    ← Except.ok.inj hteacher]

theorem mem_upsertClass {courseId teacherUid startTime endTime : Int} {classId title : String}
    {w : Write}
    (h : w ∈ (upsertLesson p classId (some courseId) (.string title) (.int startTime) (.int endTime)
      (.int teacherUid) none "api").writes) :
    w = .lesson classId (classRow courseId teacherUid startTime endTime title) := by
  obtain ⟨course, hcourse, h⟩ := bind_eq_ok.mp (Script.mem_writes_commit.mp h)
  obtain ⟨title', htitle, h⟩ := bind_eq_ok.mp h
  obtain ⟨first, hfirst, h⟩ := bind_eq_ok.mp h
  obtain ⟨last, hlast, h⟩ := bind_eq_ok.mp h
  obtain ⟨uid, huid, h⟩ := bind_eq_ok.mp h
  obtain ⟨activity, hactivity, h⟩ := bind_eq_ok.mp h
  rw [← Except.ok.inj h, bindInt_eq hcourse, ← Except.ok.inj htitle, bindInteger_int p hfirst,
    bindInteger_int p hlast, bindInteger_int p huid, bindInt_eq hactivity]
  rfl

theorem mem_upsertActivity {activityId : Int} {classId : String} {w : Write}
    (h : w ∈ (upsertLesson p classId none .none .none .none .none (some activityId) "api").writes) :
    w = .lesson classId (activityRow activityId) := by
  obtain ⟨course, hcourse, h⟩ := bind_eq_ok.mp (Script.mem_writes_commit.mp h)
  obtain ⟨title, htitle, h⟩ := bind_eq_ok.mp h
  obtain ⟨first, hfirst, h⟩ := bind_eq_ok.mp h
  obtain ⟨last, hlast, h⟩ := bind_eq_ok.mp h
  obtain ⟨uid, huid, h⟩ := bind_eq_ok.mp h
  obtain ⟨activity, hactivity, h⟩ := bind_eq_ok.mp h
  rw [← Except.ok.inj h, ← Except.ok.inj hcourse, ← Except.ok.inj htitle, ← Except.ok.inj hfirst,
    ← Except.ok.inj hlast, ← Except.ok.inj huid, bindInt_eq hactivity]
  rfl

/-! ### The route, step by step -/

theorem callClassIn_emits {α : Type} {P : CreateEffect → Prop} {place : Place} {body : WriteCall}
    {read : PyValue → Except PyError α} (h : P (.call place credentials body)) :
    (callClassIn credentials answers place body read).Emits P := by
  intro effect heffect
  rw [callClassIn, List.mem_singleton] at heffect
  exact heffect ▸ h

variable (i j : Nat) (courseId teacherUid : Int)

theorem createHomework_emits (unitId : Option Int) (lesson : PlanLesson) (classId : Option String) :
    (createHomework p credentials answers i j courseId teacherUid unitId lesson classId).Emits
      (LessonEffect credentials i teacherUid) := by
  unfold createHomework
  split
  · refine (Script.Emits.lift _).bind fun startTime _ => (Script.Emits.lift _).bind fun endTime _ =>
      (callClassIn_emits credentials answers (.createActivity ..)).bind fun answer _ => ?_
    cases answer with
    | error message => exact Script.Emits.tell (.error ..)
    | ok activityId =>
        refine Script.Emits.bind ?_ fun _ _ => Script.Emits.tell (.created _ _)
        cases classId with
        | none => exact Script.Emits.pure _
        | some key =>
            refine onStore_emits fun w hw => ?_
            rw [mem_upsertActivity p hw]
            exact .activity key activityId
  · exact Script.Emits.pure _

theorem createLesson_emits (unitId : Option Int) (lesson : PlanLesson) :
    (createLesson p credentials answers i courseId teacherUid unitId lesson j).Emits
      (LessonEffect credentials i teacherUid) := by
  unfold createLesson
  refine (Script.Emits.lift _).bind fun startTime _ => (Script.Emits.lift _).bind fun endTime _ =>
    (callClassIn_emits credentials answers (.createClass ..)).bind fun answer _ => ?_
  cases answer with
  | error message => exact Script.Emits.tell (.error ..)
  | ok result =>
      refine (Script.Emits.lift _).bind fun classId _ => (Script.Emits.lift _).bind fun text _ =>
        Script.Emits.bind ?_ fun _ _ => (Script.Emits.tell (.created ..)).bind fun _ _ =>
          createHomework_emits p credentials answers i j courseId teacherUid unitId lesson _
      unfold recordClass
      split
      · refine onStore_emits fun w hw => ?_
        rw [mem_upsertClass p hw]
        exact .lesson ..
      · exact Script.Emits.pure _

theorem createCourseUnit_emits (course : PlanCourse) :
    (createCourseUnit credentials answers i course courseId).Emits
      (LessonEffect credentials i teacherUid) := by
  unfold createCourseUnit
  split
  · exact Script.Emits.pure _
  · refine (callClassIn_emits credentials answers (.createUnit ..)).bind fun answer _ => ?_
    cases answer with
    | error message => exact (Script.Emits.tell (.error ..)).bind fun _ _ => Script.Emits.pure _
    | ok unitId => exact Script.Emits.pure _

theorem fillCourse_emits (course : PlanCourse) :
    (fillCourse p credentials answers i course teacherUid courseId).Emits
      (CourseEffect credentials i teacherUid) := by
  unfold fillCourse
  refine Script.Emits.bind (onStore_emits fun w hw => ?_) fun _ _ =>
    ((createCourseUnit_emits credentials answers i courseId teacherUid course).mono
      fun _ => .inside).bind fun unitId _ => Script.Emits.each fun entry _ =>
        (createLesson_emits p credentials answers i entry.2 courseId teacherUid unitId entry.1).mono
          fun _ => .inside
  rw [mem_upsertCourse p hw]
  exact .course courseId course.courseName

/-- The effects of a course without a teacher, or blocked: one line of the report. -/
theorem createCourse_of_unauthorized {course : PlanCourse} (h : course.authorized? = none) :
    ∃ line, createCourse p credentials answers course i = Script.tell (.error (.course i) line) := by
  unfold PlanCourse.authorized? at h
  unfold createCourse
  cases hblocked : course.blockedReason.filter (· ≠ "") with
  | some reason => exact ⟨_, rfl⟩
  | none =>
      rw [hblocked] at h
      simp only at h
      rw [h]
      exact ⟨_, rfl⟩

/-- A course with a teacher: it is reused, or asked for first. -/
theorem createCourse_of_authorized {course : PlanCourse} {teacherUid : Int}
    (h : course.authorized? = some teacherUid) :
    createCourse p credentials answers course i =
      match course.existingCourseId.filter (· ≠ 0) with
      | some courseId =>
          Script.tell (.created (.course i) (.reusedCourse course.courseName courseId)) >>= fun _ =>
            fillCourse p credentials answers i course teacherUid courseId
      | none =>
          addCourse credentials answers (.course i) course.courseName teacherUid
              (courseIdentity p course) >>= fun
            | .error message => Script.tell (.error (.course i) (.course course.courseName message))
            | .ok courseId =>
                Script.tell (.created (.course i) (.course course.courseName courseId)) >>= fun _ =>
                  fillCourse p credentials answers i course teacherUid courseId := by
  obtain ⟨hblocked, huid, hne⟩ := authorized?_eq_some.mp h
  have hfilter : course.teacherUid.filter (· ≠ 0) = some teacherUid := by
    rw [huid, Option.filter_some, if_pos (decide_eq_true hne)]
  unfold createCourse
  rewrite [hblocked, hfilter]
  rfl

theorem createCourse_emits {course : PlanCourse} {teacherUid : Int}
    (h : course.authorized? = some teacherUid) :
    (createCourse p credentials answers course i).Emits (CourseEffect credentials i teacherUid) := by
  rw [createCourse_of_authorized p credentials answers i h]
  split
  · exact (Script.Emits.tell (.inside (.created ..))).bind fun _ _ =>
      fillCourse_emits p credentials answers i _ teacherUid course
  · have hne := (authorized?_eq_some.mp h).2.2
    have hcall : CourseEffect credentials i teacherUid
        (.call (.course i) credentials (.addCourse course.courseName
          ((some teacherUid).filter (· ≠ 0)) (((some (courseIdentity p course)).filter (· ≠ "")).map
            fun s => String.ofList (s.toList.take 32)))) := by
      rw [Option.filter_some, if_pos (decide_eq_true hne)]
      exact .addCourse ..
    refine (callClassIn_emits credentials answers hcall).bind fun answer _ => ?_
    cases answer with
    | error message => exact Script.Emits.tell (.inside (.error ..))
    | ok courseId =>
        exact (Script.Emits.tell (.inside (.created ..))).bind fun _ _ =>
          fillCourse_emits p credentials answers i courseId teacherUid course

end Effects

/-- What a request does: a line about a course, or an effect for the teacher of one that the role
check lets through. -/
theorem mem_createExecute {p : Platform} {answers : Answers} {store : Store} {session : Session}
    {form : CreateForm} {effect : CreateEffect}
    (h : effect ∈ (createExecute p answers store (some session) form).writes) :
    ∃ courses notes course i, checkedPlan store session form = .ok (courses, notes) ∧
      (course, i) ∈ courses.zipIdx ∧
      ((∃ line, effect = .error (.course i) line) ∨
        ∃ teacherUid, course.authorized? = some teacherUid ∧
          CourseEffect ⟨session.sid, session.secret⟩ i teacherUid effect) := by
  revert effect
  show (createExecute p answers store (some session) form).Emits _
  unfold createExecute
  refine (Script.Emits.lift _).bind fun checked hchecked => (Script.Emits.lift _).bind fun own hown =>
    Script.Emits.bind (Script.Emits.each fun entry hentry => ?_) fun _ _ => Script.Emits.pure _
  have hself : own = ⟨session.sid, session.secret⟩ := (Except.ok.inj hown).symm
  rw [hself]
  have hplan : checkedPlan store session form = .ok (checked.1, checked.2) := hchecked
  cases huid : entry.1.authorized? with
  | none =>
      obtain ⟨line, hline⟩ := createCourse_of_unauthorized p ⟨session.sid, session.secret⟩ answers
        entry.2 huid
      rw [hline]
      exact Script.Emits.tell ⟨_, _, _, _, hplan, hentry, .inl ⟨line, rfl⟩⟩
  | some teacherUid =>
      exact (createCourse_emits p ⟨session.sid, session.secret⟩ answers entry.2 huid).mono
        fun effect heffect => ⟨_, _, _, _, hplan, hentry, .inr ⟨teacherUid, huid, heffect⟩⟩

end ClassinDashboard

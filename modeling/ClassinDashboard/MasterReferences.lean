import ClassinDashboard.DeliveryOrder
import ClassinDashboard.Provisions

/-!
References into the master tables. No foreign key is declared: that a lesson has its course, and a row
of attendance its lesson and its student, rests on the order in which each request commits. The
order of one request survives all that others commit in between.
-/

namespace ClassinDashboard

open Py Sql InFlight

/-- A row of a master table. -/
inductive Master
  | course (courseId : Int)
  | lesson (lessonId : String)
  | student (uid : Int)

def Store.has (store : Store) : Master → Bool
  | .course courseId => (store.courses.find courseId).isSome
  | .lesson lessonId => (store.lessons.find lessonId).isSome
  | .student uid => (store.students.find uid).isSome

def Store.held (store : Store) : Set Master := {m | store.has m = true}

/-- The references that the program keeps. A course id of 0 is no course. -/
structure Store.Linked (store : Store) : Prop where
  lessons : ∀ {lessonId row courseId}, store.lessons.find lessonId = some row →
    nonzero row.courseId = some courseId → store.has (.course courseId) = true
  attended : ∀ {lessonId uid}, cellAt store.records (lessonId, uid) .attendance ≠ .null →
    store.has (.lesson lessonId) = true ∧ store.has (.student uid) = true
  submitted : ∀ {lessonId uid}, cellAt store.records (lessonId, uid) .homeworkSubmitted ≠ .null →
    store.has (.student uid) = true

/-! ### What a write refers to and what it brings -/

def Write.needs : Write → Set Master
  | .record lessonId uid fields =>
      {m | (fields.lookup .attendance).isSome = true ∧ (m = .lesson lessonId ∨ m = .student uid) ∨
        (fields.lookup .homeworkSubmitted).isSome = true ∧ m = .student uid}
  | .lesson _ row => {m | ∃ courseId, nonzero row.courseId = some courseId ∧ m = .course courseId}
  | _ => ∅

def Write.brings : Write → Set Master
  | .course courseId .. => {.course courseId}
  | .lesson lessonId _ => {.lesson lessonId}
  | .student uid .. => {.student uid}
  | _ => ∅

/-- Writes that refer to master rows, and writes that bring them. -/
def writeProvision : Provision Write Master := ⟨Write.needs, Write.brings⟩

section Writes

variable (store : Store)

/-- A write takes no master row away and adds what it brings. -/
theorem held_write (w : Write) : store.held ∪ w.brings ⊆ (store.write w).held := by
  intro m hm
  rcases hm with hold | hnew
  · have hold : store.has m = true := hold
    show (store.write w).has m = true
    cases w with
    | course courseId =>
        cases m with
        | course courseId' => exact (Table.isSome_find_upsert ..).mpr (.inl hold)
        | _ => exact hold
    | lesson lessonId row =>
        cases m with
        | lesson lessonId' => exact (Table.isSome_find_upsert ..).mpr (.inl hold)
        | _ => exact hold
    | student uid name named =>
        cases m with
        | student uid' => exact (Table.isSome_find_upsert ..).mpr (.inl hold)
        | _ => exact hold
    | courseBranch courseId branchId =>
        cases m with
        | course courseId' => exact (Table.isSome_find_modify ..).trans hold
        | _ => exact hold
    | _ => exact hold
  · cases w with
    | course courseId =>
        obtain rfl := Set.mem_singleton_iff.mp hnew
        exact (Table.isSome_find_upsert ..).mpr (.inr rfl)
    | lesson lessonId row =>
        obtain rfl := Set.mem_singleton_iff.mp hnew
        exact (Table.isSome_find_upsert ..).mpr (.inr rfl)
    | student uid name named =>
        obtain rfl := Set.mem_singleton_iff.mp hnew
        exact (Table.isSome_find_upsert ..).mpr (.inr rfl)
    | _ => exact absurd hnew (Set.notMem_empty m)

variable {store}

/-- A cell of a record after a write is the one from before, or the write sets its column. -/
theorem cellAt_write {w : Write} {key : RecordKey} {c : Column}
    (h : cellAt (store.write w).records key c ≠ .null) :
    cellAt store.records key c ≠ .null ∨
      ∃ fields, w = .record key.1 key.2 fields ∧ (fields.lookup c).isSome = true := by
  rw [records_write] at h
  cases w with
  | record lessonId uid fields =>
      simp only [Write.asPatch, Option.map_some, Option.getD_some, cellAt_applyPatch] at h
      split at h
      · rename_i hkey
        subst hkey
        cases hset : fields.lookup c with
        | none =>
            rw [hset] at h
            exact .inl h
        | some cell => exact .inr ⟨fields, rfl, by rw [hset]; rfl⟩
      · exact .inl h
  | _ => exact .inl h

/-- The course of a lesson row after a write is the one from before, or the write names it. -/
theorem lesson_write {w : Write} {lessonId : String} {row : LessonRow} {courseId : Int}
    (hrow : (store.write w).lessons.find lessonId = some row)
    (hcourse : nonzero row.courseId = some courseId) :
    (∃ old, store.lessons.find lessonId = some old ∧ nonzero old.courseId = some courseId) ∨
      .course courseId ∈ w.needs := by
  cases w with
  | lesson key new =>
      replace hrow : (store.lessons.upsert key new fun old => old.merge new).find lessonId = some row := hrow
      rw [Table.find_upsert] at hrow
      split at hrow
      · rename_i hkey
        subst hkey
        cases hold : store.lessons.find lessonId with
        | none =>
            rw [hold] at hrow
            cases hrow
            exact .inr ⟨courseId, hcourse, rfl⟩
        | some old =>
            rw [hold] at hrow
            obtain rfl := Option.some.inj hrow
            cases hnew : new.courseId with
            | none =>
                simp only [Option.map_some, Option.getD_some, LessonRow.merge, hnew, Option.none_or] at hcourse
                exact .inl ⟨old, rfl, hcourse⟩
            | some id =>
                simp only [Option.map_some, Option.getD_some, LessonRow.merge, hnew, Option.some_or] at hcourse
                exact .inr ⟨courseId, hnew ▸ hcourse, rfl⟩
      · exact .inl ⟨row, hrow, hcourse⟩
  | _ => exact .inl ⟨row, hrow, hcourse⟩

/-- A write that finds what it refers to keeps the references. -/
theorem linked_write {w : Write} (h : store.Linked) (hneeds : w.needs ⊆ store.held) :
    (store.write w).Linked := by
  have hkeeps {m : Master} (hm : store.has m = true) : (store.write w).has m = true :=
    held_write store w (.inl hm)
  have hneeded {m : Master} (hm : m ∈ w.needs) : (store.write w).has m = true := hkeeps (hneeds hm)
  constructor
  · intro lessonId row courseId hrow hcourse
    rcases lesson_write hrow hcourse with ⟨old, hold, hcourse⟩ | hnew
    · exact hkeeps (h.lessons hold hcourse)
    · exact hneeded hnew
  · intro lessonId uid hcell
    rcases cellAt_write hcell with hold | ⟨fields, rfl, hset⟩
    · exact ⟨hkeeps (h.attended hold).1, hkeeps (h.attended hold).2⟩
    · exact ⟨hneeded (.inl ⟨hset, .inl rfl⟩), hneeded (.inl ⟨hset, .inr rfl⟩)⟩
  · intro lessonId uid hcell
    rcases cellAt_write hcell with hold | ⟨fields, rfl, hset⟩
    · exact hkeeps (h.submitted hold)
    · exact hneeded (.inr ⟨hset, rfl⟩)

end Writes

/-! ### What one request commits -/

section Handlers

variable (p : Platform) {held : Set Master}

/-- A record needs its lesson and its student where it sets the attendance, and its student where it
sets that homework was submitted. -/
theorem served_upsertLessonRecord {lessonId : String} {uid : Int} {fields : List (Column × PyValue)}
    (hattended : (fields.lookup .attendance).isSome = true → .lesson lessonId ∈ held ∧ .student uid ∈ held)
    (hsubmitted : (fields.lookup .homeworkSubmitted).isSome = true → .student uid ∈ held) :
    writeProvision.Served held (upsertLessonRecord p lessonId uid fields).writes := by
  refine Provision.Served.of_mem fun w hw => ?_
  obtain ⟨key, hkey, hwrite⟩ := bind_eq_ok.mp (Script.mem_writes_commit.mp hw)
  obtain ⟨cells, hcells, hwrite⟩ := bind_eq_ok.mp hwrite
  have hset {c : Column} (h : (cells.lookup c).isSome = true) : (fields.lookup c).isSome = true := by
    rw [lookup_bindFields p hcells] at h
    cases hvalue : fields.lookup c with
    | none =>
        rw [hvalue] at h
        exact h
    | some value => rfl
  rw [← Except.ok.inj hwrite, bindKey_eq hkey]
  rintro m (⟨h, rfl | rfl⟩ | ⟨h, rfl⟩)
  · exact (hattended (hset h)).1
  · exact (hattended (hset h)).2
  · exact hsubmitted (hset h)

theorem served_ensureStudent (uid : Int) (name : PyValue) :
    writeProvision.Served held (ensureStudent p uid name).writes := by
  refine Provision.Served.of_mem fun w hw => ?_
  obtain ⟨_, _, rfl⟩ := mem_writes_ensureStudent hw
  exact Set.empty_subset _

theorem brought_ensureStudent {uid : Int} {name : PyValue} {u : Unit}
    (h : (ensureStudent p uid name).result = .ok u) :
    .student uid ∈ writeProvision.brought (ensureStudent p uid name).writes := by
  refine Provision.mem_brought_commit h fun w hw => ?_
  obtain ⟨_, _, rfl⟩ := mem_writes_ensureStudent hw
  exact Set.mem_singleton _

theorem served_upsertTeacher (uid : Int) (name : PyValue) :
    writeProvision.Served held (upsertTeacher p uid name).writes := by
  refine Provision.Served.of_mem fun w hw => ?_
  obtain ⟨_, rfl⟩ := mem_writes_upsertTeacher hw
  exact Set.empty_subset _

section Rows

variable {courseId : Int} {name teacherUid teacherName title startTime endTime : PyValue}
  {createdVia lessonId : String} {course homeworkActivityId : Option Int}

theorem served_upsertCourse : writeProvision.Served held
    (upsertCourse p courseId name teacherUid teacherName createdVia).writes := by
  refine Provision.Served.of_mem fun w hw => ?_
  obtain ⟨_, _, _, rfl⟩ := mem_writes_upsertCourse hw
  exact Set.empty_subset _

theorem brought_upsertCourse {u : Unit}
    (h : (upsertCourse p courseId name teacherUid teacherName createdVia).result = .ok u) :
    .course courseId ∈
      writeProvision.brought (upsertCourse p courseId name teacherUid teacherName createdVia).writes := by
  refine Provision.mem_brought_commit h fun w hw => ?_
  obtain ⟨_, _, _, rfl⟩ := mem_writes_upsertCourse hw
  exact Set.mem_singleton _

/-- A lesson row needs the course it names. -/
theorem served_upsertLesson (h : ∀ id, nonzero course = some id → .course id ∈ held) :
    writeProvision.Served held (upsertLesson p lessonId course title startTime endTime teacherUid
      homeworkActivityId createdVia).writes := by
  refine Provision.Served.of_mem fun w hw => ?_
  obtain ⟨course', hcourse, hw⟩ := bind_eq_ok.mp (Script.mem_writes_commit.mp hw)
  obtain ⟨_, _, hw⟩ := bind_eq_ok.mp hw
  obtain ⟨_, _, hw⟩ := bind_eq_ok.mp hw
  obtain ⟨_, _, hw⟩ := bind_eq_ok.mp hw
  obtain ⟨_, _, hw⟩ := bind_eq_ok.mp hw
  obtain ⟨_, _, hw⟩ := bind_eq_ok.mp hw
  rw [← Except.ok.inj hw, bindInt_eq hcourse]
  rintro m ⟨id, hid, rfl⟩
  exact h id hid

theorem brought_upsertLesson {u : Unit} (h : (upsertLesson p lessonId course title startTime endTime
      teacherUid homeworkActivityId createdVia).result = .ok u) :
    .lesson lessonId ∈ writeProvision.brought (upsertLesson p lessonId course title startTime endTime
      teacherUid homeworkActivityId createdVia).writes := by
  refine Provision.mem_brought_commit h fun w hw => ?_
  obtain ⟨_, rfl⟩ := mem_writes_upsertLesson hw
  exact Set.mem_singleton _

end Rows

/-- A member of the attendance list brings its student; the lesson is there before the list. -/
theorem served_ingestMember {event : AttendanceEvent} {teacher : Option AttendanceMember}
    {member : AttendanceMember} (h : .lesson (lessonKey event.toBaseEvent none) ∈ held) :
    writeProvision.Served held (ingestMember p event teacher member).writes := by
  unfold ingestMember
  split
  · refine (served_ensureStudent p _ _).bind fun _ hstudent =>
      (Provision.Served.lift _).bind fun fields hfields => ?_
    have hbrought := brought_ensureStudent p hstudent
    exact served_upsertLessonRecord p (fun _ => ⟨.inl (.inl h), .inl (.inr hbrought)⟩)
      fun _ => .inl (.inr hbrought)
  · split
    · exact served_upsertTeacher p _ _
    · trivial

theorem served_ingestAttendance (event : AttendanceEvent) :
    writeProvision.Served held (ingestAttendance p event).writes := by
  refine Provision.Served.bind ?_ fun _ hcourse => Provision.Served.bind
    (served_upsertLesson p fun id hid => ?_) fun _ hlesson => Provision.Served.each fun member _ =>
      served_ingestMember p (.inr (brought_upsertLesson p hlesson))
  · unfold ingestCourse
    split
    · exact served_upsertCourse p
    · trivial
  · -- the course was upserted just before, under the same condition
    right
    unfold ingestCourse at hcourse ⊢
    rw [hid] at hcourse ⊢
    exact brought_upsertCourse p hcourse

/-- What a handler writes refers to nothing that it has not written before. -/
theorem served_handle (event : Event) : writeProvision.Served held (handle p event).writes := by
  cases event with
  | attendance event => exact served_ingestAttendance p event
  | «end» event =>
      refine (Provision.Served.lift _).bind fun totals _ => Provision.Served.each fun uid _ =>
        served_upsertLessonRecord p (fun h => ?_) fun h => ?_
      all_goals
        obtain ⟨value, hvalue⟩ := Option.isSome_iff_exists.mp h
        have hmem := Table.mem_of_lookup hvalue
        simp [EndTotals.fields] at hmem
  | homeworkSubmit event =>
      unfold handle ingestHomeworkSubmit
      dsimp only
      split
      · refine (served_ensureStudent p _ _).bind fun _ hstudent =>
          served_upsertLessonRecord p (fun h => ?_) fun _ => .inr (brought_ensureStudent p hstudent)
        cases h
      · trivial
  | homeworkScore event =>
      unfold handle ingestHomeworkScore
      dsimp only
      split
      · refine served_upsertLessonRecord p (fun h => ?_) fun h => ?_ <;> cases h
      · trivial
  | rating event =>
      unfold handle
      dsimp only
      split
      · exact served_upsertTeacher p _ _
      · trivial
  | _ => trivial

/-! ### What the assignments of the admin screen and a sync commit -/

theorem setCourseBranch_needs (courseId : Int) (branchId : Option Int) :
    (setCourseBranch courseId branchId).Emits fun w => w.needs = ∅ := by
  intro w hw
  obtain ⟨_, rfl⟩ := mem_writes_setCourseBranch hw
  rfl

theorem setTeacherBranch_needs (uid : Int) (branchId : Option Int) :
    (setTeacherBranch uid branchId).Emits fun w => w.needs = ∅ := by
  intro w hw
  obtain ⟨_, rfl⟩ := mem_writes_setTeacherBranch hw
  rfl

/-- Assignments refer to branches alone. -/
theorem assign_needs {setter : Int → Option Int → StoreScript Unit}
    (h : ∀ target branchId, (setter target branchId).Emits fun w => w.needs = ∅)
    (form : List (String × String)) (start : String) :
    (assign form start setter).Emits fun w => w.needs = ∅ := by
  refine (Script.Emits.each fun field _ => ?_).bind fun _ _ => Script.Emits.pure _
  unfold assignItem
  cases suffixOf start field.1 with
  | none => exact Script.Emits.pure _
  | some rest =>
      refine (Script.Emits.lift _).bind fun target _ => ?_
      cases target with
      | none => exact Script.Emits.pure _
      | some target => exact (Script.Emits.lift _).bind fun branchId _ => h target branchId

variable (service : ClassIn) (credentials : Credentials)

theorem served_syncClass {courseId : Int} (h : .course courseId ∈ held) (row : Fields) :
    writeProvision.Served held (syncClass p courseId row).writes := by
  unfold syncClass
  split
  · trivial
  · refine (Provision.Served.lift _).bind fun key _ => served_upsertLesson p fun id hid => ?_
    obtain rfl := Option.some.inj (Option.filter_eq_some_iff.mp hid).1
    exact .inl h

theorem served_syncCourse (branchId : Option Int) (row : Fields) :
    writeProvision.Served held (syncCourse service credentials p branchId row).writes := by
  refine (Provision.Served.lift _).bind fun courseId _ => ?_
  cases courseId with
  | none => trivial
  | some courseId =>
      refine (served_upsertCourse p).bind fun _ hcourse => Provision.Served.bind ?_ fun _ _ =>
        (Provision.Served.lift _).bind fun classes _ => Provision.Served.each fun row _ => ?_
      · cases branchId with
        | none => trivial
        | some branchId =>
            refine Provision.Served.of_mem fun w hw => ?_
            rw [show writeProvision.needs w = ∅ from setCourseBranch_needs courseId (some branchId) w hw]
            exact Set.empty_subset _
      · exact served_syncClass p (.inl (.inl (.inr (brought_upsertCourse p hcourse)))) row

theorem served_syncMasters (branchId : Option Int) :
    writeProvision.Served held (syncMasters service credentials p branchId).writes := by
  refine (Provision.Served.lift _).bind fun courses _ =>
    (Provision.Served.each fun row _ => served_syncCourse p service credentials branchId row).bind
      fun _ _ => (Provision.Served.lift _).bind fun students _ => Provision.Served.bind
        (Provision.Served.each fun row _ => ?_) fun _ _ => (Provision.Served.lift _).bind
          fun teachers _ => Provision.Served.bind (Provision.Served.each fun row _ => ?_) fun _ _ => trivial
  · refine (Provision.Served.lift _).bind fun uid _ => ?_
    cases uid with
    | none => trivial
    | some uid => exact served_ensureStudent p uid _
  · refine (Provision.Served.lift _).bind fun uid _ => ?_
    cases uid with
    | none => trivial
    | some uid => exact served_upsertTeacher p uid _

end Handlers

/-! ### What a create request commits -/

def CreateEffect.write? : CreateEffect → Option Write
  | .write w => some w
  | _ => none

def effectProvision : Provision CreateEffect Master := writeProvision.pull CreateEffect.write?

section Create

variable (p : Platform) (credentials : Credentials) (answers : Answers) {held : Set Master}

theorem served_onStore {α : Type} {s : StoreScript α} (h : writeProvision.Served held s.writes) :
    effectProvision.Served held (onStore s).writes :=
  (Provision.served_map (g := CreateEffect.write) fun _ => rfl).mpr h

/-- What was written on the store was brought. -/
theorem brought_onStore {α : Type} {s : StoreScript α} {m : Master}
    (h : m ∈ writeProvision.brought s.writes) : m ∈ effectProvision.brought (onStore s).writes := by
  obtain ⟨w, hw, hm⟩ := h
  exact ⟨.write w, List.mem_map_of_mem hw, w, rfl, hm⟩

/-- A line of the report or a call. -/
theorem served_silent {α : Type} {s : CreateScript α} (h : s.Emits fun effect => effect.write? = none) :
    effectProvision.Served held s.writes :=
  Provision.Served.of_mem fun effect heffect => Provision.pull_needless (h effect heffect)

theorem served_call {α : Type} (place : Place) (body : WriteCall) (read : PyValue → Except PyError α) :
    effectProvision.Served held (callClassIn credentials answers place body read).writes :=
  served_silent (callClassIn_emits credentials answers rfl)

theorem served_createHomework (i j : Nat) (courseId teacherUid : Int) (unitId : Option Int)
    (lesson : PlanLesson) (classId : Option String) :
    effectProvision.Served held
      (createHomework p credentials answers i j courseId teacherUid unitId lesson classId).writes := by
  unfold createHomework
  split
  · refine (Provision.Served.lift _).bind fun startTime _ => (Provision.Served.lift _).bind
      fun endTime _ => (served_call credentials answers ..).bind fun answer _ => ?_
    cases answer with
    | error message => exact served_silent (Script.Emits.tell rfl)
    | ok activityId =>
        refine Provision.Served.bind ?_ fun _ _ => served_silent (Script.Emits.tell rfl)
        cases classId with
        | none => trivial
        | some key => exact served_onStore (served_upsertLesson p fun _ hid => nomatch hid)
  · trivial

/-- The lessons of a course are recorded when the course is. -/
theorem served_createLesson {courseId : Int} (h : .course courseId ∈ held) (i j : Nat) (teacherUid : Int)
    (unitId : Option Int) (lesson : PlanLesson) :
    effectProvision.Served held
      (createLesson p credentials answers i courseId teacherUid unitId lesson j).writes := by
  unfold createLesson
  refine (Provision.Served.lift _).bind fun startTime _ => (Provision.Served.lift _).bind
    fun endTime _ => (served_call credentials answers ..).bind fun answer _ => ?_
  cases answer with
  | error message => exact served_silent (Script.Emits.tell rfl)
  | ok result =>
      refine (Provision.Served.lift _).bind fun classId _ => (Provision.Served.lift _).bind fun text _ =>
        Provision.Served.bind ?_ fun _ _ => Provision.Served.bind (served_silent (Script.Emits.tell rfl))
          fun _ _ => served_createHomework p credentials answers i j courseId teacherUid unitId lesson _
      unfold recordClass
      split
      · refine served_onStore (served_upsertLesson p fun id hid => ?_)
        obtain rfl := Option.some.inj (Option.filter_eq_some_iff.mp hid).1
        exact .inl (.inl (.inl (.inl (.inl h))))
      · trivial

theorem served_fillCourse (i : Nat) (course : PlanCourse) (teacherUid courseId : Int) :
    effectProvision.Served held
      (fillCourse p credentials answers i course teacherUid courseId).writes := by
  unfold fillCourse
  refine (served_onStore (served_upsertCourse p)).bind fun _ hcourse => Provision.Served.bind ?_
    fun unitId _ => Provision.Served.each fun entry _ => served_createLesson p credentials answers
      (.inl (.inr (brought_onStore (brought_upsertCourse p hcourse)))) i entry.2 teacherUid unitId entry.1
  unfold createCourseUnit
  split
  · trivial
  · refine (served_call credentials answers ..).bind fun answer _ => ?_
    cases answer with
    | error message => exact Provision.Served.bind (served_silent (Script.Emits.tell rfl)) fun _ _ => trivial
    | ok unitId => trivial

theorem served_createCourse (course : PlanCourse) (i : Nat) :
    effectProvision.Served held (createCourse p credentials answers course i).writes := by
  unfold createCourse
  split
  · exact served_silent (Script.Emits.tell rfl)
  · split
    · exact served_silent (Script.Emits.tell rfl)
    · split
      · exact Provision.Served.bind (served_silent (Script.Emits.tell rfl)) fun _ _ =>
          served_fillCourse p credentials answers i course _ _
      · refine (served_call credentials answers ..).bind fun answer _ => ?_
        cases answer with
        | error message => exact served_silent (Script.Emits.tell rfl)
        | ok courseId =>
            exact Provision.Served.bind (served_silent (Script.Emits.tell rfl)) fun _ _ =>
              served_fillCourse p credentials answers i course _ courseId

theorem served_createExecute (store : Store) (session : Option Session) (form : CreateForm) :
    effectProvision.Served held (createExecute p answers store session form).writes := by
  cases session with
  | none => trivial
  | some session =>
      exact (Provision.Served.lift _).bind fun checked _ => (Provision.Served.lift _).bind fun own _ =>
        Provision.Served.bind (Provision.Served.each fun entry _ =>
          served_createCourse p own answers entry.1 entry.2) fun _ _ => trivial

end Create

/-! ### What any request commits -/

def Commit.write? : Commit → Option Write
  | .statement (.write w) => some w
  | _ => none

def commitProvision : Provision Commit Master := writeProvision.pull Commit.write?

section Commits

variable {store : Store} {held : Set Master}

theorem served_writes {writes : List Write} (h : writeProvision.Served held writes) :
    commitProvision.Served held (writes.map fun w => .statement (.write w)) :=
  (Provision.served_map (g := fun w => Commit.statement (.write w)) fun _ => rfl).mpr h

theorem served_statements {writes : List Write} (h : writeProvision.Served held writes) :
    commitProvision.Served held ((writes.map Statement.write).map .statement) := by
  rw [List.map_map]
  exact served_writes h

/-- Commits without a write of the tables need nothing. -/
theorem served_other {queue : List Commit} (h : ∀ k ∈ queue, k.write? = none) :
    commitProvision.Served held queue :=
  Provision.Served.of_mem fun k hk => Provision.pull_needless (h k hk)

end Commits

section Requests

variable (d : Deployment) (store : Store) (session : Option Session) {held : Set Master}

theorem served_webhook (body : Loads) : commitProvision.Served held (webhookCommits d body) := by
  rcases webhookCommits_cases d body with hnone | ⟨payload, hraw⟩ | ⟨payload, event, row, _, _, hevent⟩
  · rw [hnone]
    trivial
  · rw [hraw]
    exact ⟨Provision.pull_needless rfl, trivial⟩
  · rw [hevent]
    exact ⟨Provision.pull_needless rfl, Provision.pull_needless rfl, served_writes (served_handle _ event)⟩

theorem served_branches (request : BranchRequest) :
    commitProvision.Served held
      ((request.statements d.platform d.pbkdf2 store session).map .statement) := by
  have hassign {script : StoreScript Nat} (h : ∀ w ∈ script.writes, w.needs = ∅) :
      commitProvision.Served held ((adminAssign session script).map .statement) := by
    unfold adminAssign
    split
    · trivial
    · refine served_statements (Provision.Served.of_mem fun w hw => ?_)
      show w.needs ⊆ held
      rw [h w hw]
      exact Set.empty_subset _
  have hother {statements : List Statement} (h : ∀ s ∈ statements, ∀ w, s ≠ .write w) :
      commitProvision.Served held (statements.map .statement) := by
    refine served_other fun k hk => ?_
    obtain ⟨s, hs, rfl⟩ := List.mem_map.mp hk
    cases s with
    | write w => exact absurd rfl (h _ hs w)
    | _ => rfl
  cases request with
  | addBranch name sid secret =>
      refine hother fun s hs w hw => ?_
      subst hw
      change Statement.write w ∈ adminBranchAdd session name sid secret at hs
      unfold adminBranchAdd at hs
      split at hs
      · exact absurd hs List.not_mem_nil
      · split at hs
        · exact absurd hs List.not_mem_nil
        · cases List.mem_singleton.mp hs
  | removeBranch branchId =>
      refine hother fun s hs w hw => ?_
      subst hw
      change Statement.write w ∈ adminBranchDelete session branchId at hs
      unfold adminBranchDelete at hs
      split at hs
      · exact absurd hs List.not_mem_nil
      · split at hs
        · cases List.mem_singleton.mp hs
        · exact absurd hs List.not_mem_nil
  | courseBranch form => exact hassign (assign_needs setCourseBranch_needs form _)
  | teacherBranch form => exact hassign (assign_needs setTeacherBranch_needs form _)
  | createUser salt form =>
      refine hother fun s hs w hw => ?_
      subst hw
      obtain ⟨write, _, hs⟩ := List.mem_filterMap.mp hs
      cases write <;> cases hs
  | sync service =>
      show commitProvision.Served held ((syncStatements d.platform store session service).map .statement)
      unfold syncStatements
      split
      · trivial
      · split
        · split
          · trivial
          · exact served_statements (served_syncMasters d.platform service _ _)
        · trivial

/-- Whatever a request commits, it commits after what that refers to. -/
theorem served_commits (request : WebRequest) :
    commitProvision.Served held (request.commits d store session) := by
  cases request with
  | branches cookie request => exact served_branches d store session request
  | account cookie request =>
      refine served_other fun k hk => ?_
      obtain ⟨w, _, rfl⟩ := List.mem_map.mp hk
      cases w <;> rfl
  | create cookie form answers =>
      have heffects : effectProvision.Served held (createExecute d.platform answers store session form).writes :=
        served_createExecute d.platform answers store session form
      rw [effectProvision, ← Provision.served_filterMap] at heffects
      show commitProvision.Served held (List.filterMap CreateEffect.commit? _)
      rw [commitProvision, ← Provision.served_filterMap, List.filterMap_filterMap]
      have hsame : (fun effect : CreateEffect => effect.commit?.bind Commit.write?) = CreateEffect.write? := by
        funext effect
        cases effect <;> rfl
      rw [hsame]
      exact heffects
  | notifySend cookie form =>
      refine served_other fun k hk => ?_
      obtain ⟨effect, _, hk⟩ := List.mem_filterMap.mp hk
      cases effect with
      | record row =>
          cases hk
          rfl
      | send message => cases hk
  | webhook body => exact served_webhook d body
  | _ => trivial

end Requests

/-! ### Runs -/

section Runs

variable (d : Deployment)

/-- The tables that references go from and to. -/
def Store.SameTables (store other : Store) : Prop :=
  other.records = store.records ∧ other.courses = store.courses ∧ other.lessons = store.lessons ∧
    other.students = store.students

theorem Store.SameTables.has {store other : Store} (h : store.SameTables other) (m : Master) :
    other.has m = store.has m := by
  obtain ⟨_, hcourses, hlessons, hstudents⟩ := h
  cases m with
  | course courseId => rw [Store.has, Store.has, hcourses]
  | lesson lessonId => rw [Store.has, Store.has, hlessons]
  | student uid => rw [Store.has, Store.has, hstudents]

theorem Store.SameTables.linked {store other : Store} (h : store.SameTables other) (hlinked : store.Linked) :
    other.Linked := by
  refine ⟨fun hrow hcourse => ?_, fun hcell => ?_, fun hcell => ?_⟩
  · rw [h.has]
    exact hlinked.lessons (h.2.2.1 ▸ hrow) hcourse
  · rw [h.has, h.has]
    exact hlinked.attended (h.1 ▸ hcell)
  · rw [h.has]
    exact hlinked.submitted (h.1 ▸ hcell)

theorem sameTables_run {s : Statement} (h : ∀ w, s ≠ .write w) (store : Store) :
    store.SameTables (s.run store) := by
  cases s with
  | write w => exact absurd rfl (h w)
  | upsertBranch name sid secret =>
      show store.SameTables (upsertBranch store name sid secret)
      unfold upsertBranch
      split <;> exact ⟨rfl, rfl, rfl, rfl⟩
  | deleteBranch branchId =>
      show store.SameTables (deleteBranch store branchId).2
      unfold deleteBranch
      split <;> exact ⟨rfl, rfl, rfl, rfl⟩
  | createUser row =>
      rw [Statement.run]
      split <;> exact ⟨rfl, rfl, rfl, rfl⟩

/-- A commit is a write of the tables or leaves them alone. -/
theorem commit_cases (app : App) (k : Commit) :
    (∃ w, k.write? = some w ∧ (app.apply k).1.site.store = app.site.store.write w) ∨
      k.write? = none ∧ app.site.store.SameTables (app.apply k).1.site.store := by
  cases k with
  | statement s =>
      cases s with
      | write w => exact .inl ⟨w, rfl, rfl⟩
      | _ => exact .inr ⟨rfl, sameTables_run (fun _ h => by cases h) _⟩
  | account w => cases w <;> exact .inr ⟨rfl, rfl, rfl, rfl, rfl⟩
  | _ => exact .inr ⟨rfl, rfl, rfl, rfl, rfl⟩

/-- A commit takes no master row away and adds what it brings. -/
theorem held_commit (app : App) (k : Commit) :
    app.site.store.held ∪ commitProvision.brings k ⊆ (app.apply k).1.site.store.held := by
  rcases commit_cases app k with ⟨w, hwrite, hstore⟩ | ⟨hnone, hsame⟩
  · rw [hstore]
    rintro m (hm | ⟨w', hw', hm⟩)
    · exact held_write _ w (.inl hm)
    · obtain rfl := Option.some.inj (hwrite.symm.trans hw')
      exact held_write _ w (.inr hm)
  · rintro m (hm | ⟨w, hw, _⟩)
    · exact (hsame.has m).trans hm
    · cases hnone.symm.trans hw

theorem linked_commit {app : App} {k : Commit} (h : app.site.store.Linked)
    (hneeds : commitProvision.needs k ⊆ app.site.store.held) : (app.apply k).1.site.store.Linked := by
  rcases commit_cases app k with ⟨w, hwrite, hstore⟩ | ⟨_, hsame⟩
  · rw [hstore]
    exact linked_write h fun m hm => hneeds ⟨w, hwrite, hm⟩
  · exact hsame.linked h

/-- Referential integrity: whatever requests are in flight, every lesson has its course, every row of
attendance its lesson and its student, and every submitted homework its student. -/
theorem references_hold (app : App) (hstart : app.site.store.Linked) (actions : List (Action Visit)) :
    ((dashboard d).run app.idle actions).shared.site.store.Linked := by
  have hinvariant : Invariant (dashboard d) (fun _ _ => True) (fun app => app.site.store.Linked)
      fun app => commitProvision.Served app.site.store.held := by
    apply Provision.invariant
    · intro app visit
      exact (congrArg Store.held (store_accept d app visit)).ge
    · exact held_commit
    · intro app visit hlinked _
      refine ⟨?_, served_commits d _ _ visit.request⟩
      rwa [← store_accept d app visit] at hlinked
    · exact fun hlinked hneeds => linked_commit hlinked hneeds
  exact (hinvariant.run_any ⟨hstart, fun _ hqueue => absurd hqueue List.not_mem_nil⟩ actions).shared

end Runs

/-- The references at a moment when the messages of a lesson, each posted twice, are half worked off. -/
theorem oneLesson_linked :
    ((dashboard kimsDeployment).run (App.start kimsSchool .empty 0).idle
      (posted (oneLesson ++ oneLesson.reverse)
        (List.replicate 5 (List.range 8)).flatten)).shared.site.store.Linked :=
  references_hold kimsDeployment (App.start kimsSchool .empty 0)
    ⟨fun hrow => (nomatch hrow), fun hcell => absurd rfl hcell, fun hcell => absurd rfl hcell⟩ _

end ClassinDashboard

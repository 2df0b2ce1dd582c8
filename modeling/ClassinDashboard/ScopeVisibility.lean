import ClassinDashboard.IngestRun
import ClassinDashboard.Scope

/-!
What a scope shows of the record table. A course comes into scope with its assignment, its main
teacher, or any one lesson that a teacher in scope taught in it; with the course come all its rows.
-/

namespace ClassinDashboard

open Py Sql

variable (store : Store)

/-! ### Ways into a scope -/

/-- The teacher belongs to the branch. -/
def TeacherOfBranch (teacherUid branchId : Int) : Prop :=
  ∃ row, store.teachers.find teacherUid = some row ∧ row.branchId = some branchId

/-- The teacher is the main teacher of the course. -/
def LeadsCourse (teacherUid courseId : Int) : Prop :=
  ∃ row, store.courses.find courseId = some row ∧ row.teacherUid.toInt? = some teacherUid

/-- The teacher taught a recorded lesson of the course. -/
def TaughtCourse (teacherUid courseId : Int) : Prop :=
  ∃ key cells, store.lessonRecords.find key = some cells ∧
    (cells .courseId).toInt? = some courseId ∧ (cells .teacherUid).toInt? = some teacherUid

/-- The course of a row. -/
def LessonRecord.course (record : LessonRecord) : Option Int := (record.cells .courseId).toInt?

/-- The teacher of a row. -/
def LessonRecord.teacher (record : LessonRecord) : Option Int := (record.cells .teacherUid).toInt?

theorem isIn_singleton {value : Option Int} {n : Int} :
    isIn value (some n).toFinset = true ↔ value = some n := by
  simp [isIn_iff]

variable {store}

theorem isIn_teachersOfBranches {value : Option Int} {branchId : Int} :
    isIn value (store.teachersOfBranches (some branchId).toFinset) = true ↔
      ∃ teacherUid, value = some teacherUid ∧ TeacherOfBranch store teacherUid branchId := by
  rw [isIn_iff]
  simp only [Store.mem_teachersOfBranches, isIn_singleton, TeacherOfBranch]

theorem mem_courseIdsLedBy_branch {courseId branchId : Int} :
    courseId ∈ store.courseIdsLedBy (store.teachersOfBranches (some branchId).toFinset) ↔
      ∃ teacherUid, TeacherOfBranch store teacherUid branchId ∧
        LeadsCourse store teacherUid courseId := by
  simp only [Store.mem_courseIdsLedBy, isIn_teachersOfBranches]
  constructor
  · rintro ⟨row, hrow, teacherUid, hlead, hteacher⟩
    exact ⟨teacherUid, hteacher, row, hrow, hlead⟩
  · rintro ⟨teacherUid, hteacher, row, hrow, hlead⟩
    exact ⟨row, hrow, teacherUid, hlead, hteacher⟩

theorem mem_courseIdsTaughtBy_branch {courseId branchId : Int} :
    courseId ∈ store.courseIdsTaughtBy (store.teachersOfBranches (some branchId).toFinset) ↔
      ∃ teacherUid, TeacherOfBranch store teacherUid branchId ∧
        TaughtCourse store teacherUid courseId := by
  simp only [Store.mem_courseIdsTaughtBy, isIn_teachersOfBranches]
  constructor
  · rintro ⟨key, cells, hrow, hcourse, teacherUid, htaught, hteacher⟩
    exact ⟨teacherUid, hteacher, key, cells, hrow, hcourse, htaught⟩
  · rintro ⟨teacherUid, hteacher, key, cells, hrow, hcourse, htaught⟩
    exact ⟨key, cells, hrow, hcourse, teacherUid, htaught, hteacher⟩

theorem mem_courseIdsOfBranches_iff {courseId branchId : Int} :
    courseId ∈ store.courseIdsOfBranches (some branchId).toFinset ↔
      branchOf store courseId = some branchId := by
  simp only [Store.mem_courseIdsOfBranches, isIn_singleton, branchOf, Option.bind_eq_some_iff]

/-- The rows a branch scope shows: by their teacher, or by their course, which its assignment, its
main teacher or one lesson of a teacher of the branch brings in. -/
theorem inScope_forBranch_iff {record : LessonRecord} {branchId : Int} :
    record.inScope (store.scopeKeys (.forBranch (some branchId))) = true ↔
      (∃ courseId, record.course = some courseId ∧
        (branchOf store courseId = some branchId ∨
          ∃ teacherUid, TeacherOfBranch store teacherUid branchId ∧
            (LeadsCourse store teacherUid courseId ∨ TaughtCourse store teacherUid courseId))) ∨
      ∃ teacherUid, record.teacher = some teacherUid ∧
        TeacherOfBranch store teacherUid branchId := by
  have hkeys : store.scopeKeys (.forBranch (some branchId)) =
      some (store.courseIdsOfBranches (some branchId).toFinset
        ∪ store.courseIdsLedBy (store.teachersOfBranches (some branchId).toFinset)
        ∪ store.courseIdsTaughtBy (store.teachersOfBranches (some branchId).toFinset),
        store.teachersOfBranches (some branchId).toFinset) := rfl
  rw [hkeys, LessonRecord.inScope, rowInScope, Bool.or_eq_true, isIn_teachersOfBranches, isIn_iff]
  refine or_congr (exists_congr fun courseId => and_congr_right fun _ => ?_) Iff.rfl
  rw [Finset.mem_union, Finset.mem_union, mem_courseIdsOfBranches_iff, mem_courseIdsLedBy_branch,
    mem_courseIdsTaughtBy_branch, or_assoc, ← exists_or]
  simp only [and_or_left]

/-- The rows a teacher scope shows. -/
theorem inScope_forTeacher_iff {record : LessonRecord} {teacherUid : Int} :
    record.inScope (store.scopeKeys (.forTeacher (some teacherUid))) = true ↔
      (∃ courseId, record.course = some courseId ∧
        (LeadsCourse store teacherUid courseId ∨ TaughtCourse store teacherUid courseId)) ∨
      record.teacher = some teacherUid := by
  have hkeys : store.scopeKeys (.forTeacher (some teacherUid)) =
      some (store.courseIdsLedBy (some teacherUid).toFinset
        ∪ store.courseIdsTaughtBy (some teacherUid).toFinset, (some teacherUid).toFinset) := rfl
  rw [hkeys, LessonRecord.inScope, rowInScope, Bool.or_eq_true, isIn_singleton, isIn_iff]
  refine or_congr (exists_congr fun courseId => and_congr_right fun _ => ?_) Iff.rfl
  rw [Finset.mem_union]
  simp only [Store.mem_courseIdsLedBy, Store.mem_courseIdsTaughtBy, isIn_singleton, LeadsCourse,
    TaughtCourse]

/-! ### The visibility rule -/

/-- No row of a course of another branch, unless a teacher of the branch has to do with it. -/
def BranchRule (store : Store) (entitled : LessonRecord → Int → Int → Prop) : Prop :=
  ∀ branchId filter, ∀ record ∈ lessonRecords store (.forBranch (some branchId)) filter,
    ∀ courseId other, record.course = some courseId → branchOf store courseId = some other →
      other ≠ branchId → entitled record courseId branchId

/-- Every row is of a lesson or a course that the teacher has to do with. -/
def TeacherRule (store : Store) (entitled : LessonRecord → Int → Prop) : Prop :=
  ∀ teacherUid filter, ∀ record ∈ lessonRecords store (.forTeacher (some teacherUid)) filter,
    entitled record teacherUid

/-- The row's own teacher or the course's main teacher belongs to the branch. -/
def TaughtOrLedFrom (store : Store) (record : LessonRecord) (courseId branchId : Int) : Prop :=
  ∃ teacherUid, TeacherOfBranch store teacherUid branchId ∧
    (record.teacher = some teacherUid ∨ LeadsCourse store teacherUid courseId)

/-- The row was taught by the teacher or belongs to a course of which they are the main teacher. -/
def TaughtOrLedBy (store : Store) (record : LessonRecord) (teacherUid : Int) : Prop :=
  record.teacher = some teacherUid ∨
    ∃ courseId, record.course = some courseId ∧ LeadsCourse store teacherUid courseId

/-- A row in scope has to do with the branch, or the teacher, through its own teacher, the main
teacher of its course, or some other recorded lesson of its course. -/
theorem scopes_obey_visibility (store : Store) :
    BranchRule store (fun record courseId branchId =>
      TaughtOrLedFrom store record courseId branchId ∨
        ∃ teacherUid, TeacherOfBranch store teacherUid branchId ∧
          TaughtCourse store teacherUid courseId) ∧
    TeacherRule store (fun record teacherUid =>
      TaughtOrLedBy store record teacherUid ∨
        ∃ courseId, record.course = some courseId ∧ TaughtCourse store teacherUid courseId) := by
  constructor
  · intro branchId filter record hrecord courseId other hcourse hassigned hother
    obtain ⟨_, _, hscope⟩ := mem_lessonRecords.mp hrecord
    rcases inScope_forBranch_iff.mp hscope with ⟨c, hc, h⟩ | ⟨teacherUid, hteacher, hbranch⟩
    · obtain rfl := Option.some.inj (hcourse.symm.trans hc)
      rcases h with h | ⟨teacherUid, hbranch, hled | htaught⟩
      · exact absurd (Option.some.inj (hassigned.symm.trans h)) hother
      · exact Or.inl ⟨teacherUid, hbranch, Or.inr hled⟩
      · exact Or.inr ⟨teacherUid, hbranch, htaught⟩
    · exact Or.inl ⟨teacherUid, hbranch, Or.inl hteacher⟩
  · intro teacherUid filter record hrecord
    obtain ⟨_, _, hscope⟩ := mem_lessonRecords.mp hrecord
    rcases inScope_forTeacher_iff.mp hscope with ⟨courseId, hcourse, hled | htaught⟩ | hteacher
    · exact Or.inl (Or.inr ⟨courseId, hcourse, hled⟩)
    · exact Or.inr ⟨courseId, hcourse, htaught⟩
    · exact Or.inl (Or.inl hteacher)

/-- An attendance of one student, taught by a teacher. -/
def taughtLesson (id : String) (classId teacherUid : Int) : PyValue := .object
  [("Cmd", .string "Attendance"), ("_id", .string id), ("ClassID", .int classId),
    ("CourseID", .int 10), ("Data", .list [.object [("Uid", .int 9), ("AttendanceTime", .int 60)],
      .object [("Uid", .int teacherUid), ("Identity", .int 3)]])]

/-- A course of the second branch. Teacher 8 taught its first lesson, and teacher 7 of the first
branch stood in for the second. -/
def substituted : Store := Store.empty.runOps .plain
  [.deliver (taughtLesson "a" 1 8), .deliver (taughtLesson "b" 2 7), .write (.courseBranch 10 (some 2)),
    .write (.teacherBranch 7 (some 1))]

theorem cell_of_map {key : String × Int} {cells : Cells} {c : Column} {value : SqlValue}
    (hfind : store.lessonRecords.find key = some cells)
    (h : (store.lessonRecords.find key).map (fun cells => cells c) = some value) :
    cells c = value := by
  rw [hfind] at h
  exact Option.some.inj h

/-- The row of the first lesson: teacher 8, course 10. -/
theorem substituted_first : ∃ record : LessonRecord,
    substituted.lessonRecords.find (record.lessonId, record.studentUid) = some record.cells ∧
      record.course = some 10 ∧ record.teacher = some 8 := by
  obtain ⟨cells, hcells⟩ : ∃ cells, substituted.lessonRecords.find ("1", 9) = some cells :=
    Option.isSome_iff_exists.mp (by decide)
  have hcourse : cells .courseId = .int 10 := cell_of_map hcells (by decide)
  have hteacher : cells .teacherUid = .int 8 := cell_of_map hcells (by decide)
  refine ⟨⟨"1", 9, cells⟩, hcells, ?_, ?_⟩
  · exact congrArg SqlValue.toInt? hcourse
  · exact congrArg SqlValue.toInt? hteacher

/-- Teacher 7 taught the second lesson of the course. -/
theorem substituted_taught : TaughtCourse substituted 7 10 := by
  obtain ⟨cells, hcells⟩ : ∃ cells, substituted.lessonRecords.find ("2", 9) = some cells :=
    Option.isSome_iff_exists.mp (by decide)
  have hcourse : cells .courseId = .int 10 := cell_of_map hcells (by decide)
  have hteacher : cells .teacherUid = .int 7 := cell_of_map hcells (by decide)
  exact ⟨_, cells, hcells, congrArg SqlValue.toInt? hcourse, congrArg SqlValue.toInt? hteacher⟩

/-- Nobody is the main teacher of the course. -/
theorem substituted_not_led (teacherUid : Int) : ¬LeadsCourse substituted teacherUid 10 := by
  rintro ⟨row, hrow, hlead⟩
  have hnone : (substituted.courses.find 10).map (fun row => row.teacherUid) = some .null := by
    decide
  rw [hrow] at hnone
  have hnull : row.teacherUid = .null := Option.some.inj hnone
  rw [hnull] at hlead
  cases hlead

/-- One substitute lesson shows the other lessons of the course to the branch and to the teacher. -/
theorem substitute_opens_course :
    Reachable .plain substituted ∧
      ¬BranchRule substituted (TaughtOrLedFrom substituted) ∧
      ¬TeacherRule substituted (TaughtOrLedBy substituted) := by
  obtain ⟨record, hrecord, hcourse, hteacher⟩ := substituted_first
  have hmatches : RecordFilter.none.matches record = true := rfl
  refine ⟨⟨_, rfl⟩, fun hrule => ?_, fun hrule => ?_⟩
  · have hbranch : TeacherOfBranch substituted 7 1 := ⟨⟨none, some 1⟩, by decide, rfl⟩
    have hscope := inScope_forBranch_iff.mpr
      (Or.inl ⟨10, hcourse, Or.inr ⟨7, hbranch, Or.inr substituted_taught⟩⟩)
    have hassigned : branchOf substituted 10 = some 2 := by decide
    obtain ⟨teacherUid, ⟨row, hrow, hof⟩, h | h⟩ := hrule 1 .none record
      (mem_lessonRecords.mpr ⟨hrecord, hmatches, hscope⟩) 10 2 hcourse hassigned (by decide)
    · obtain rfl := Option.some.inj (hteacher.symm.trans h)
      have height : substituted.teachers.find 8 = some ⟨none, none⟩ := by decide
      rw [height] at hrow
      obtain rfl := Option.some.inj hrow
      cases hof
    · exact substituted_not_led teacherUid h
  · have hscope := inScope_forTeacher_iff.mpr (Or.inl ⟨10, hcourse, Or.inr substituted_taught⟩)
    rcases hrule 7 .none record (mem_lessonRecords.mpr ⟨hrecord, hmatches, hscope⟩) with
      h | ⟨courseId, hc, hlead⟩
    · exact absurd (Option.some.inj (hteacher.symm.trans h)) (by decide)
    · obtain rfl := Option.some.inj (hcourse.symm.trans hc)
      exact substituted_not_led 7 hlead

end ClassinDashboard

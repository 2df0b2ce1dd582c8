import ClassinDashboard.Store
import Mathlib.Data.Finset.Lattice.Basic

/-!
View scopes and the scoped reads of the store. A scope names branches, teachers or neither; a row is
in scope when its course or its teacher is.
-/

namespace ClassinDashboard

open Py Sql

/-- Which slice of the school a request may read; both `none` is everything. -/
structure Scope where
  branchIds : Option (Finset Int)
  teacherUids : Option (Finset Int)
  deriving DecidableEq

namespace Scope

def all : Scope := ⟨none, none⟩

def unrestricted (scope : Scope) : Bool := scope.branchIds.isNone && scope.teacherUids.isNone

/-- A missing branch id yields a scope that matches nothing. -/
def forBranch (branchId : Option Int) : Scope := ⟨some branchId.toFinset, none⟩

def forTeacher (teacherUid : Option Int) : Scope := ⟨none, some teacherUid.toFinset⟩

end Scope

/-- `set.intersection` of the sets that are there. -/
def meet : Option (Finset Int) → Option (Finset Int) → Option (Finset Int)
  | none, b => b
  | a, none => a
  | some a, some b => some (a ∩ b)

/-- `value in ids`, where `None` is in no set of ids. -/
def isIn (value : Option Int) (ids : Finset Int) : Bool := value.any fun n => n ∈ ids

@[simp] theorem isIn_iff {value : Option Int} {ids : Finset Int} :
    isIn value ids = true ↔ ∃ n, value = some n ∧ n ∈ ids := by
  cases value <;> simp [isIn]

/-- The branch a course is assigned to. -/
def branchOf (store : Store) (courseId : Int) : Option Int :=
  (store.courses.find courseId).bind (·.branchId)

/-- Inserting or merging a course keeps every assignment. -/
theorem branchOf_write_course (store : Store) (courseId : Int) (name : Option String)
    (teacherUid : SqlValue) (teacherName : Option String) (createdVia : String) (other : Int) :
    branchOf (store.write (.course courseId name teacherUid teacherName createdVia)) other =
      branchOf store other := by
  simp only [branchOf, Store.write]
  by_cases hother : other = courseId
  · subst hother
    rw [Table.find_upsert_self]
    cases store.courses.find other <;> rfl
  · rw [Table.find_upsert_of_ne _ hother]

/-- The keys of the rows with a property. -/
theorem mem_keys_filter {κ ν : Type} [DecidableEq κ] (table : Table κ ν) (selects : ν → Bool) {key : κ} :
    key ∈ ((table.rows.filter fun row => selects row.2).map Prod.fst).toFinset ↔
      ∃ row, table.find key = some row ∧ selects row = true := by
  simp only [List.mem_toFinset, List.mem_map, List.mem_filter]
  constructor
  · rintro ⟨⟨k, row⟩, ⟨hrow, hselects⟩, rfl⟩
    exact ⟨row, (Table.mem_rows_iff _ _ _).mp hrow, hselects⟩
  · rintro ⟨row, hrow, hselects⟩
    exact ⟨(key, row), ⟨(Table.mem_rows_iff _ _ _).mpr hrow, hselects⟩, rfl⟩

namespace Store

variable (store : Store)

/-- The uids of the teachers of some branches. -/
def teachersOfBranches (branchIds : Finset Int) : Finset Int :=
  ((store.teachers.rows.filter fun t => isIn t.2.branchId branchIds).map Prod.fst).toFinset

def teacherUidsInScope (scope : Scope) : Option (Finset Int) :=
  meet (scope.branchIds.map store.teachersOfBranches) scope.teacherUids

/-- The courses in which one of the teachers has taught a recorded lesson. -/
def courseIdsTaughtBy (teacherUids : Finset Int) : Finset Int :=
  ((store.lessonRecords.rows.filter fun r => isIn (r.2 .teacherUid).toInt? teacherUids).filterMap
    fun r => (r.2 .courseId).toInt?).toFinset

/-- The courses whose main teacher is one of the teachers. -/
def courseIdsLedBy (teacherUids : Finset Int) : Finset Int :=
  ((store.courses.rows.filter fun c => isIn c.2.teacherUid.toInt? teacherUids).map
    Prod.fst).toFinset

def courseIdsOfBranches (branchIds : Finset Int) : Finset Int :=
  ((store.courses.rows.filter fun c => isIn c.2.branchId branchIds).map Prod.fst).toFinset

/-- Course ids the scope may read: assigned to the branch, or led or taught by its teachers. -/
def courseIdsInScope (scope : Scope) : Option (Finset Int) :=
  meet
    (scope.branchIds.map fun branchIds =>
      let teachers := (store.teacherUidsInScope ⟨some branchIds, none⟩).getD ∅
      store.courseIdsOfBranches branchIds ∪ store.courseIdsLedBy teachers
        ∪ store.courseIdsTaughtBy teachers)
    (scope.teacherUids.map fun uids => store.courseIdsLedBy uids ∪ store.courseIdsTaughtBy uids)

/-- The course ids and teacher uids that a row may match. -/
def scopeKeys (scope : Scope) : Option (Finset Int × Finset Int) :=
  if scope.unrestricted then none
  else some ((store.courseIdsInScope scope).getD ∅, (store.teacherUidsInScope scope).getD ∅)

theorem mem_teachersOfBranches {branchIds : Finset Int} {uid : Int} :
    uid ∈ store.teachersOfBranches branchIds ↔
      ∃ row, store.teachers.find uid = some row ∧ isIn row.branchId branchIds = true :=
  mem_keys_filter store.teachers fun row => isIn row.branchId branchIds

theorem mem_courseIdsOfBranches {branchIds : Finset Int} {courseId : Int} :
    courseId ∈ store.courseIdsOfBranches branchIds ↔
      ∃ row, store.courses.find courseId = some row ∧ isIn row.branchId branchIds = true :=
  mem_keys_filter store.courses fun row => isIn row.branchId branchIds

theorem mem_courseIdsLedBy {uids : Finset Int} {courseId : Int} :
    courseId ∈ store.courseIdsLedBy uids ↔
      ∃ row, store.courses.find courseId = some row ∧ isIn row.teacherUid.toInt? uids = true :=
  mem_keys_filter store.courses fun row => isIn row.teacherUid.toInt? uids

theorem mem_courseIdsTaughtBy {uids : Finset Int} {courseId : Int} :
    courseId ∈ store.courseIdsTaughtBy uids ↔
      ∃ key cells, store.lessonRecords.find key = some cells ∧
        (cells .courseId).toInt? = some courseId ∧ isIn (cells .teacherUid).toInt? uids = true := by
  simp only [courseIdsTaughtBy, List.mem_toFinset, List.mem_filterMap, List.mem_filter]
  constructor
  · rintro ⟨⟨key, cells⟩, ⟨hrow, hteacher⟩, hcourse⟩
    exact ⟨key, cells, (Table.mem_rows_iff _ _ _).mp hrow, hcourse, hteacher⟩
  · rintro ⟨key, cells, hrow, hcourse, hteacher⟩
    exact ⟨(key, cells), ⟨(Table.mem_rows_iff _ _ _).mpr hrow, hteacher⟩, hcourse⟩

end Store

/-! ### Scoped reads -/

/-- A row is in scope when its course or its teacher is. -/
def rowInScope (courseId teacherUid : Option Int) : Option (Finset Int × Finset Int) → Bool
  | none => true
  | some (courseIds, teacherUids) => isIn courseId courseIds || isIn teacherUid teacherUids

/-- The optional arguments of `lesson_records`. -/
structure RecordFilter where
  courseId : Option Int
  studentUid : Option Int
  teacherUid : Option Int
  since : Option String
  untilDate : Option String

def RecordFilter.none : RecordFilter := ⟨.none, .none, .none, .none, .none⟩

/-- `lesson_date >= since`; NULL is no date. -/
def onOrAfter (cell : SqlValue) (since : String) : Bool :=
  cell.toText?.any fun date => since ≤ date

def before (cell : SqlValue) (date : String) : Bool := cell.toText?.any fun d => d < date

/-- The WHERE clause; an empty date adds none. -/
def RecordFilter.matches (filter : RecordFilter) (record : LessonRecord) : Bool :=
  (filter.courseId.all fun id => record.cells .courseId = .int id)
    && (filter.studentUid.all fun uid => record.studentUid = uid)
    && (filter.teacherUid.all fun uid => record.cells .teacherUid = .int uid)
    && ((filter.since.filter (· ≠ "")).all fun date => onOrAfter (record.cells .lessonDate) date)
    && ((filter.untilDate.filter (· ≠ "")).all fun date => before (record.cells .lessonDate) date)

/-- The order of `ORDER BY lesson_date DESC`, NULL last. -/
def laterFirst (a b : LessonRecord) : Bool :=
  match (a.cells .lessonDate).toText?, (b.cells .lessonDate).toText? with
  | some a, some b => b ≤ a
  | none, some _ => false
  | _, none => true

def LessonRecord.inScope (record : LessonRecord) (allowed : Option (Finset Int × Finset Int)) : Bool :=
  rowInScope (record.cells .courseId).toInt? (record.cells .teacherUid).toInt? allowed

/-- The rows of the record table. -/
def Store.allRecords (store : Store) : List LessonRecord :=
  store.lessonRecords.rows.map fun row => ⟨row.1.1, row.1.2, row.2⟩

def lessonRecords (store : Store) (scope : Scope) (filter : RecordFilter) : List LessonRecord :=
  ((store.allRecords.filter filter.matches).mergeSort laterFirst).filter fun record =>
    record.inScope (store.scopeKeys scope)

theorem mem_allRecords {store : Store} {record : LessonRecord} :
    record ∈ store.allRecords ↔
      store.lessonRecords.find (record.lessonId, record.studentUid) = some record.cells := by
  rw [← Table.mem_rows_iff, Store.allRecords, List.mem_map]
  constructor
  · rintro ⟨⟨⟨lessonId, uid⟩, cells⟩, hrow, rfl⟩
    exact hrow
  · intro hrow
    exact ⟨_, hrow, rfl⟩

theorem mem_lessonRecords {store : Store} {scope : Scope} {filter : RecordFilter}
    {record : LessonRecord} :
    record ∈ lessonRecords store scope filter ↔
      store.lessonRecords.find (record.lessonId, record.studentUid) = some record.cells ∧
        filter.matches record = true ∧ record.inScope (store.scopeKeys scope) = true := by
  simp only [lessonRecords, List.mem_filter, List.mem_mergeSort, mem_allRecords, and_assoc]

def studentUidsInScope (store : Store) (scope : Scope) : Option (Finset Int) :=
  if scope.unrestricted then none
  else some ((lessonRecords store scope .none).map LessonRecord.studentUid).toFinset

/-- Students that appear in records in scope. -/
def students (store : Store) (scope : Scope) : List (Int × StudentRow) :=
  match studentUidsInScope store scope with
  | none => store.students.rows
  | some uids => store.students.rows.filter fun s => s.1 ∈ uids

def lessons (store : Store) (scope : Scope) (courseId : Option Int) : List (String × LessonRow) :=
  (store.lessons.rows.filter fun l => courseId.all fun id => l.2.courseId = some id).filter fun l =>
    rowInScope l.2.courseId l.2.teacherUid.toInt? (store.scopeKeys scope)

@[simp] theorem inScope_all (store : Store) (record : LessonRecord) :
    record.inScope (store.scopeKeys .all) = true := rfl

end ClassinDashboard

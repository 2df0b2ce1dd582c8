import ClassinDashboard.Metrics
import ClassinDashboard.ScopeVisibility

/-!
A scope hides rows of the missing-homework list and changes nothing about the rows that it shows. The
evidence for a lesson comes from the records of other students and from the lesson itself; where a
lesson belongs to one course, whoever sees one record of it sees all of its evidence.
-/

namespace ClassinDashboard

open Py Sql

variable {store : Store}

/-! ### What is visible together -/

/-- The records of a lesson and the lesson itself are of one course. -/
def OneCourseEach (store : Store) : Prop :=
  ∀ lessonId, ∃ courseId : Int,
    (∀ record ∈ store.allRecords, record.lessonId = lessonId →
      (record.cells .courseId).toInt? = some courseId) ∧
    ∀ lesson, store.lessons.find lessonId = some lesson → lesson.courseId = some courseId

/-- The courses that the teachers of a scope have taught are in the scope. -/
theorem taught_in_scope {scope : Scope} {uid courseId : Int}
    (huid : uid ∈ (store.teacherUidsInScope scope).getD ∅)
    (htaught : ∀ uids : Finset Int, uid ∈ uids → courseId ∈ store.courseIdsTaughtBy uids) :
    courseId ∈ (store.courseIdsInScope scope).getD ∅ := by
  obtain ⟨branchIds, teacherUids⟩ := scope
  cases branchIds with
  | none =>
      cases teacherUids with
      | none => cases huid
      | some uids => exact Finset.mem_union_right _ (htaught uids huid)
  | some branchIds =>
      cases teacherUids with
      | none => exact Finset.mem_union_right _ (htaught _ huid)
      | some uids =>
          obtain ⟨hbranch, hteacher⟩ := Finset.mem_inter.mp huid
          exact Finset.mem_inter.mpr ⟨Finset.mem_union_right _ (htaught _ hbranch),
            Finset.mem_union_right _ (htaught _ hteacher)⟩

/-- A record that is visible, be it by its teacher only, is of a course of the scope. -/
theorem course_of_visible {scope : Scope} {record : LessonRecord} {courseId : Int}
    (hrecord : record ∈ store.allRecords)
    (hcourse : (record.cells .courseId).toInt? = some courseId)
    (hvisible : record.inScope (store.scopeKeys scope) = true) {teacherUid : Option Int} :
    rowInScope (some courseId) teacherUid (store.scopeKeys scope) = true := by
  unfold LessonRecord.inScope at hvisible
  unfold Store.scopeKeys at hvisible ⊢
  by_cases hall : scope.unrestricted = true
  · rw [if_pos hall]
    rfl
  · rw [if_neg hall] at hvisible ⊢
    rw [rowInScope, Bool.or_eq_true, isIn_iff, isIn_iff, hcourse] at hvisible
    rw [rowInScope, Bool.or_eq_true, isIn_iff]
    refine .inl ⟨courseId, rfl, ?_⟩
    rcases hvisible with ⟨n, hn, hmem⟩ | ⟨uid, huid, hmem⟩
    · cases hn
      exact hmem
    · exact taught_in_scope hmem fun uids huids => store.mem_courseIdsTaughtBy.mpr
        ⟨_, record.cells, mem_allRecords.mp hrecord, hcourse, isIn_iff.mpr ⟨uid, huid, huids⟩⟩

/-! ### Nothing about a visible row is hidden -/

/-- Whether a lesson has homework is the same for all who see one of its records. -/
theorem lessonsWithHomework_visible {scope : Scope} (hcourses : OneCourseEach store)
    {record : LessonRecord} (hrecord : record ∈ store.allRecords)
    (hvisible : record.inScope (store.scopeKeys scope) = true) :
    record.lessonId ∈ lessonsWithHomework store scope ↔
      record.lessonId ∈ lessonsWithHomework store .all := by
  obtain ⟨courseId, hrecords, hlesson⟩ := hcourses record.lessonId
  have hscope {teacherUid : Option Int} :
      rowInScope (some courseId) teacherUid (store.scopeKeys scope) = true :=
    course_of_visible hrecord (hrecords record hrecord rfl) hvisible
  simp only [lessonsWithHomework, List.mem_append, List.mem_map, List.mem_filter, mem_lessonRecords,
    lessons]
  refine or_congr (exists_congr fun other => ?_) (exists_congr fun lesson => ?_)
  · refine and_congr_left fun hid => and_congr_left fun _ => and_congr_right fun hfind =>
      and_congr_right fun _ => ?_
    have hother := hrecords other (mem_allRecords.mpr hfind) hid
    rw [LessonRecord.inScope, hother]
    exact iff_of_true hscope rfl
  · refine and_congr_left fun hid => and_congr_left fun _ => and_congr_right fun hrow => ?_
    obtain ⟨lessonId, row⟩ := lesson
    cases hid
    have hcourse := hlesson row ((Table.mem_rows_iff _ _ _).mp hrow.1)
    simp only [hcourse]
    exact iff_of_true hscope rfl

theorem lookup_filter_of_mem {κ ρ : Type} [DecidableEq κ] {keep : κ × ρ → Bool} {key : κ}
    (hkeep : ∀ row, keep (key, row) = true) (rows : List (κ × ρ)) :
    (rows.filter keep).lookup key = rows.lookup key := by
  induction rows with
  | nil => rfl
  | cons row rows ih =>
      obtain ⟨k, r⟩ := row
      by_cases hk : key = k
      · subst hk
        rw [List.filter_cons_of_pos (hkeep r), List.lookup_cons_self, List.lookup_cons_self]
      · rw [List.lookup_cons, beq_false_of_ne hk, ← ih, List.filter_cons]
        split
        · rw [List.lookup_cons, beq_false_of_ne hk]
        · rfl

/-- The student of a visible record is among the students. -/
theorem students_lookup_visible {scope : Scope} {record : LessonRecord}
    (hrecord : record ∈ store.allRecords)
    (hvisible : record.inScope (store.scopeKeys scope) = true) :
    (students store scope).lookup record.studentUid =
      (students store .all).lookup record.studentUid := by
  have hall : students store .all = store.students.rows := rfl
  rw [hall]
  unfold students studentUidsInScope
  split
  · rfl
  · rename_i uids huids
    split at huids
    · cases huids
    · cases huids
      refine lookup_filter_of_mem (fun row => ?_) _
      rw [decide_eq_true_eq, List.mem_toFinset]
      refine List.mem_map.mpr ⟨record, mem_lessonRecords.mpr
        ⟨mem_allRecords.mp hrecord, ?_, hvisible⟩, rfl⟩
      rfl

/-- The missing-homework list of a scope is the list of all, without the rows that the scope hides. -/
theorem missingHomeworkRows_scope (store : Store) (scope : Scope) (since : String)
    (hcourses : OneCourseEach store) :
    missingHomeworkRows store scope since =
      (missingHomeworkRows store .all since).filter fun row =>
        row.record.inScope (store.scopeKeys scope) := by
  have hrows : lessonRecords store scope { RecordFilter.none with since := some since } =
      (lessonRecords store .all { RecordFilter.none with since := some since }).filter fun record =>
        record.inScope (store.scopeKeys scope) := by
    simp only [lessonRecords, inScope_all, List.filter_true]
  have hstored (record : LessonRecord) (h : record ∈ lessonRecords store .all
      { RecordFilter.none with since := some since }) : record ∈ store.allRecords :=
    mem_allRecords.mpr (mem_lessonRecords.mp h).1
  simp only [missingHomeworkRows, hrows, List.filter_map, List.filter_filter]
  generalize lessonRecords store .all { RecordFilter.none with since := some since } = rows at hstored
  have hlisted : (rows.filter fun record =>
      decide (record.lessonId ∈ lessonsWithHomework store scope ∧
        record.cells .homeworkSubmitted ≠ .int 1) && record.inScope (store.scopeKeys scope)) =
      rows.filter fun record => record.inScope (store.scopeKeys scope) &&
        decide (record.lessonId ∈ lessonsWithHomework store .all ∧
          record.cells .homeworkSubmitted ≠ .int 1) := by
    refine List.filter_congr fun record hrecord => ?_
    cases hvisible : record.inScope (store.scopeKeys scope) with
    | false => rw [Bool.and_false, Bool.false_and]
    | true =>
        simp only [Bool.and_true, Bool.true_and,
          lessonsWithHomework_visible hcourses (hstored record hrecord) hvisible]
  rw [hlisted]
  refine List.map_congr_left fun record hrecord => ?_
  obtain ⟨hmem, hkept⟩ := List.mem_filter.mp hrecord
  rw [students_lookup_visible (hstored record hmem) (Bool.and_eq_true_iff.mp hkept).1]

/-- What teacher 7, who stood in for one lesson of a course, is shown of the course's homework. -/
theorem substituted_missingHomework :
    missingHomeworkRows substituted (.forTeacher (some 7)) "2026-01-01" =
      (missingHomeworkRows substituted .all "2026-01-01").filter fun row =>
        row.record.inScope (substituted.scopeKeys (.forTeacher (some 7))) := by
  refine missingHomeworkRows_scope substituted (.forTeacher (some 7)) "2026-01-01" fun lessonId => ?_
  have hrecords : ∀ record ∈ substituted.allRecords,
      (record.cells .courseId).toInt? = some 10 := by decide
  have hlessons : ∀ lesson ∈ substituted.lessons.rows, lesson.2.courseId = some 10 := by
    decide
  refine ⟨10, fun record hrecord _ => hrecords record hrecord, fun lesson hlesson => ?_⟩
  exact hlessons _ ((Table.mem_rows_iff _ _ _).mpr hlesson)

end ClassinDashboard

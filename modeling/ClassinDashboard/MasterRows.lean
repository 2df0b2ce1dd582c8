import ClassinDashboard.MergeHistory
import ClassinDashboard.MissingCounts

/-!
The master tables. Whatever calls webhooks, syncs, creates and the admin screens make, in any order:
a column of a course, a lesson or a teacher is the last value that was supplied for it and is not
NULL, the branch is what was assigned last, and a student keeps the first name that is not empty. A
sync that is repeated with the same answers changes nothing.
-/

namespace ClassinDashboard

open Py Sql

/-! ### What an upsert says -/

structure CourseCall where
  name : Option String
  teacherUid : SqlValue
  teacherName : Option String
  createdVia : String

/-- The name of an `ensure_student`, and whether it counts as one. -/
structure StudentCall where
  name : Option String
  named : Bool

theorem coalesce_assoc (a b c : SqlValue) : (a.coalesce b).coalesce c = a.coalesce (b.coalesce c) := by
  cases a <;> rfl

theorem coalesce_self (a : SqlValue) : a.coalesce a = a := by cases a <;> rfl

theorem coalesce_coalesce (a b : SqlValue) : a.coalesce (a.coalesce b) = a.coalesce b := by
  rw [← coalesce_assoc, coalesce_self]

theorem coalesce_eq (a b : SqlValue) : a.coalesce b = if a = .null then b else a := by
  cases a <;> rfl

theorem or_eq {α : Type} [DecidableEq α] (a b : Option α) : a.or b = if a = none then b else a := by
  cases a <;> rfl

theorem or_or_self {α : Type} (a b : Option α) : a.or (a.or b) = a.or b := by
  cases a <;> rfl

/-- `upsert_course` and `set_course_branch`. -/
def courseMerging : Merging CourseRow CourseCall (Option Int) where
  insert call := ⟨call.name, call.teacherUid, call.teacherName, call.createdVia, none⟩
  merge row call := row.merge call.name call.teacherUid call.teacherName
  assign row branchId := { row with branchId }
  both call later :=
    ⟨later.name.or call.name, later.teacherUid.coalesce call.teacherUid,
      later.teacherName.or call.teacherName, call.createdVia⟩
  merge_merge row call later := by simp [CourseRow.merge, coalesce_assoc, Option.or_assoc]
  merge_self row call := by simp [CourseRow.merge, coalesce_coalesce, or_or_self]
  merge_insert call := by simp [CourseRow.merge, coalesce_self]
  assign_assign _ _ _ := rfl
  merge_assign _ _ _ := rfl

/-- `upsert_lesson`; a lesson is assigned nothing. -/
def lessonMerging : Merging LessonRow LessonRow Empty where
  insert row := row
  merge := LessonRow.merge
  assign row _ := row
  both := LessonRow.merge
  merge_merge row call later := by simp [LessonRow.merge, coalesce_assoc, Option.or_assoc]
  merge_self row call := by simp [LessonRow.merge, coalesce_coalesce, or_or_self]
  merge_insert call := by simp [LessonRow.merge, coalesce_self]
  assign_assign _ _ _ := rfl
  merge_assign _ _ _ := rfl

/-- `upsert_teacher` and `set_teacher_branch`. -/
def teacherMerging : Merging TeacherRow (Option String) (Option Int) where
  insert name := ⟨name, none⟩
  merge row name := { row with name := name.or row.name }
  assign row branchId := { row with branchId }
  both name later := later.or name
  merge_merge row name later := by simp [Option.or_assoc]
  merge_self row name := by simp [or_or_self]
  merge_insert name := by simp
  assign_assign _ _ _ := rfl
  merge_assign _ _ _ := rfl

/-- The name of a student is still to be filled in. -/
def nameless (name : Option String) : Bool := name = none || name = some ""

theorem backfill_eq (row : StudentRow) (name : Option String) (named : Bool) :
    row.backfill name named = if named && nameless row.name then { row with name } else row := rfl

/-- `ensure_student`. -/
def studentMerging : Merging StudentRow StudentCall Empty where
  insert call := ⟨call.name, none⟩
  merge row call := row.backfill call.name call.named
  assign row _ := row
  both call later :=
    if call.named && (!nameless call.name || !later.named) then call else later
  merge_merge row call later := by
    obtain ⟨name, named⟩ := call
    obtain ⟨name', named'⟩ := later
    cases hrow : nameless row.name with
    | false => simp [backfill_eq, hrow]
    | true =>
        cases hcall : nameless name <;> cases named <;> cases named' <;>
          simp [backfill_eq, hrow, hcall]
  merge_self row call := by
    simp only [backfill_eq]
    cases call.named <;> cases hrow : nameless row.name <;> simp [hrow]
  merge_insert call := by
    simp only [backfill_eq]
    split <;> rfl
  assign_assign _ _ _ := rfl
  merge_assign _ _ _ := rfl

/-! ### The calls on each table -/

def Write.onCourses : Write → Option (Int × Change CourseCall (Option Int))
  | .course courseId name teacherUid teacherName createdVia =>
      some (courseId, .merge ⟨name, teacherUid, teacherName, createdVia⟩)
  | .courseBranch courseId branchId => some (courseId, .assign branchId)
  | _ => none

def Write.onLessons : Write → Option (String × Change LessonRow Empty)
  | .lesson lessonId row => some (lessonId, .merge row)
  | _ => none

def Write.onTeachers : Write → Option (Int × Change (Option String) (Option Int))
  | .teacher uid name => some (uid, .merge name)
  | .teacherBranch uid branchId => some (uid, .assign branchId)
  | _ => none

def Write.onStudents : Write → Option (Int × Change StudentCall Empty)
  | .student uid name named => some (uid, .merge ⟨name, named⟩)
  | _ => none

/-- A table that follows the calls on it through a run of writes. -/
theorem view_run {κ ρ ν β : Type} [DecidableEq κ] (m : Merging ρ ν β) {view : Store → Table κ ρ}
    {on : Write → Option (κ × Change ν β)}
    (h : ∀ store w, view (store.write w) = (on w).elim (view store) (m.apply (view store)))
    (ws : List Write) (store : Store) :
    view (ws.foldl Store.write store) = (ws.filterMap on).foldl m.apply (view store) := by
  induction ws generalizing store with
  | nil => rfl
  | cons w ws ih =>
      rw [List.foldl_cons, ih, h, List.filterMap_cons]
      cases on w <;> rfl

theorem courses_run (ws : List Write) (store : Store) : (ws.foldl Store.write store).courses =
    (ws.filterMap Write.onCourses).foldl courseMerging.apply store.courses :=
  view_run courseMerging (fun _ w => by cases w <;> rfl) ws store

theorem lessons_run (ws : List Write) (store : Store) : (ws.foldl Store.write store).lessons =
    (ws.filterMap Write.onLessons).foldl lessonMerging.apply store.lessons :=
  view_run lessonMerging (fun _ w => by cases w <;> rfl) ws store

theorem teachers_run (ws : List Write) (store : Store) : (ws.foldl Store.write store).teachers =
    (ws.filterMap Write.onTeachers).foldl teacherMerging.apply store.teachers :=
  view_run teacherMerging (fun _ w => by cases w <;> rfl) ws store

theorem students_run (ws : List Write) (store : Store) : (ws.foldl Store.write store).students =
    (ws.filterMap Write.onStudents).foldl studentMerging.apply store.students :=
  view_run studentMerging (fun _ w => by cases w <;> rfl) ws store

/-! ### The law of each table -/

structure CourseLaw (changes : List (Change CourseCall (Option Int))) (row : CourseRow) : Prop where
  name : row.name = lastKnown none ((merges changes).map (·.name))
  teacherUid : row.teacherUid = lastKnown .null ((merges changes).map (·.teacherUid))
  teacherName : row.teacherName = lastKnown none ((merges changes).map (·.teacherName))
  createdVia : (merges changes).head?.map (·.createdVia) = some row.createdVia
  branchId : row.branchId = lastAssigned none changes

structure LessonLaw (changes : List (Change LessonRow Empty)) (row : LessonRow) : Prop where
  courseId : row.courseId = lastKnown none ((merges changes).map (·.courseId))
  title : row.title = lastKnown none ((merges changes).map (·.title))
  startTime : row.startTime = lastKnown .null ((merges changes).map (·.startTime))
  endTime : row.endTime = lastKnown .null ((merges changes).map (·.endTime))
  teacherUid : row.teacherUid = lastKnown .null ((merges changes).map (·.teacherUid))
  homeworkActivityId :
    row.homeworkActivityId = lastKnown none ((merges changes).map (·.homeworkActivityId))
  createdVia : (merges changes).head?.map (·.createdVia) = some row.createdVia

structure TeacherLaw (changes : List (Change (Option String) (Option Int))) (row : TeacherRow) :
    Prop where
  name : row.name = lastKnown none (merges changes)
  branchId : row.branchId = lastAssigned none changes

/-- The first name that is not empty, or the first of all when every one is empty. -/
def firstName (names : List (Option String)) : Option (Option String) :=
  (names.find? fun name => !nameless name).or names.head?

def StudentLaw (changes : List (Change StudentCall Empty)) (row : StudentRow) : Prop :=
  firstName ((merges changes).map (·.name)) = some row.name

/-- The rows of the table are those of the keys that were upserted, and follow the law of their own
history. -/
def Obeys {κ ρ ν β : Type} [DecidableEq κ] (law : List (Change ν β) → ρ → Prop) (t : Table κ ρ)
    (calls : List (κ × Change ν β)) : Prop :=
  ∀ k, match t.find k with
    | none => merges (changesOf k calls) = []
    | some row => law (changesOf k calls) row

theorem obeys_run {κ ρ ν β : Type} [DecidableEq κ] {m : Merging ρ ν β}
    {law : List (Change ν β) → ρ → Prop} {calls : List (κ × Change ν β)}
    (h : ∀ k row, m.history (changesOf k calls) = some row → law (changesOf k calls) row) :
    Obeys law (calls.foldl m.apply Table.empty) calls := by
  intro k
  have hfind : (calls.foldl m.apply Table.empty).find k = m.history (changesOf k calls) :=
    m.find_run calls Table.empty k
  split
  · rename_i hnone
    exact m.history_eq_none_iff.mp (hfind.symm.trans hnone)
  · rename_i row hrow
    exact h k row (hfind.symm.trans hrow)

theorem courseLaw_of_history {changes : List (Change CourseCall (Option Int))} {row : CourseRow}
    (h : courseMerging.history changes = some row) : CourseLaw changes row where
  name := Merging.known_column CourseRow.name CourseCall.name
    (fun _ => rfl) (fun _ _ => or_eq _ _) (fun _ _ => rfl) h
  teacherUid := Merging.known_column CourseRow.teacherUid CourseCall.teacherUid
    (fun _ => rfl) (fun _ _ => coalesce_eq _ _) (fun _ _ => rfl) h
  teacherName := Merging.known_column CourseRow.teacherName CourseCall.teacherName
    (fun _ => rfl) (fun _ _ => or_eq _ _) (fun _ _ => rfl) h
  createdVia := Merging.first_column CourseRow.createdVia CourseCall.createdVia
    (fun _ => rfl) (fun _ _ => rfl) (fun _ _ => rfl) h
  branchId := Merging.assigned_column CourseRow.branchId
    (fun _ => rfl) (fun _ _ => rfl) (fun _ _ => rfl) h

theorem lessonLaw_of_history {changes : List (Change LessonRow Empty)} {row : LessonRow}
    (h : lessonMerging.history changes = some row) : LessonLaw changes row where
  courseId := Merging.known_column LessonRow.courseId LessonRow.courseId
    (fun _ => rfl) (fun _ _ => or_eq _ _) (fun _ _ => rfl) h
  title := Merging.known_column LessonRow.title LessonRow.title
    (fun _ => rfl) (fun _ _ => or_eq _ _) (fun _ _ => rfl) h
  startTime := Merging.known_column LessonRow.startTime LessonRow.startTime
    (fun _ => rfl) (fun _ _ => coalesce_eq _ _) (fun _ _ => rfl) h
  endTime := Merging.known_column LessonRow.endTime LessonRow.endTime
    (fun _ => rfl) (fun _ _ => coalesce_eq _ _) (fun _ _ => rfl) h
  teacherUid := Merging.known_column LessonRow.teacherUid LessonRow.teacherUid
    (fun _ => rfl) (fun _ _ => coalesce_eq _ _) (fun _ _ => rfl) h
  homeworkActivityId := Merging.known_column LessonRow.homeworkActivityId LessonRow.homeworkActivityId
    (fun _ => rfl) (fun _ _ => or_eq _ _) (fun _ _ => rfl) h
  createdVia := Merging.first_column LessonRow.createdVia LessonRow.createdVia
    (fun _ => rfl) (fun _ _ => rfl) (fun _ _ => rfl) h

theorem teacherLaw_of_history {changes : List (Change (Option String) (Option Int))} {row : TeacherRow}
    (h : teacherMerging.history changes = some row) : TeacherLaw changes row where
  name := by
    have hname : row.name = lastKnown none ((merges changes).map id) :=
      Merging.known_column TeacherRow.name id (fun _ => rfl) (fun _ _ => or_eq _ _)
        (fun _ _ => rfl) h
    rwa [List.map_id] at hname
  branchId := Merging.assigned_column TeacherRow.branchId
    (fun _ => rfl) (fun _ _ => rfl) (fun _ _ => rfl) h

/-- Names as `ensure_student` declares them: text or `None`. -/
def StudentCall.Typed (call : StudentCall) : Prop := call.named = !nameless call.name

theorem firstName_concat (names : List (Option String)) (name : Option String) :
    firstName (names ++ [name]) =
      some (((firstName names).map fun old => if nameless old then
        if nameless name then old else name else old).getD name) := by
  unfold firstName
  rw [List.find?_append]
  cases hfind : names.find? fun n => !nameless n with
  | some old =>
      have hold := List.find?_some hfind
      rw [Bool.not_eq_true'] at hold
      simp [hold]
  | none =>
      cases names with
      | nil => cases h : nameless name <;> simp [h]
      | cons first names =>
          have hfirst : nameless first = true := by
            simpa using List.find?_eq_none.mp hfind first List.mem_cons_self
          cases h : nameless name <;> simp [h, hfirst]

theorem studentLaw_of_history {changes : List (Change StudentCall Empty)} {row : StudentRow}
    (htyped : ∀ call ∈ merges changes, call.Typed) (h : studentMerging.history changes = some row) :
    StudentLaw changes row := by
  induction changes using List.reverseRecOn generalizing row with
  | nil => cases h
  | append_singleton changes c ih =>
      rw [Merging.history_concat] at h
      cases c with
      | assign b => cases b
      | merge call =>
          rw [merges_concat_merge] at htyped
          have hcall : call.named = !nameless call.name :=
            htyped call (List.mem_append_right _ (List.mem_singleton_self _))
          unfold StudentLaw
          rw [merges_concat_merge, List.map_append, List.map_singleton, firstName_concat]
          cases hrow : studentMerging.history changes with
          | none =>
              rw [hrow] at h
              cases h
              rw [studentMerging.history_eq_none_iff.mp hrow]
              rfl
          | some old =>
              rw [hrow] at h
              cases h
              have hold := ih (fun call hcall => htyped call (List.mem_append_left _ hcall)) hrow
              rw [hold]
              show some (if nameless old.name then if nameless call.name then old.name else call.name
                else old.name) = some (old.backfill call.name call.named).name
              rw [backfill_eq, hcall]
              cases nameless old.name <;> cases nameless call.name <;> rfl

/-- The calls of `ensure_student` pass a name as it is declared. -/
def StudentsTyped (ws : List Write) : Prop :=
  ∀ uid name named, .student uid name named ∈ ws → (⟨name, named⟩ : StudentCall).Typed

/-- So they do wherever the name is a str or `None`. -/
theorem typed_ensureStudent {p : Platform} {uid key : Int} {value : PyValue} {name : Option String}
    {named : Bool} (hvalue : value = .none ∨ ∃ s, value = .str s)
    (h : .student key name named ∈ (ensureStudent p uid value).writes) :
    (⟨name, named⟩ : StudentCall).Typed := by
  obtain ⟨_, _, h⟩ := bind_eq_ok.mp (Script.mem_writes_commit.mp h)
  obtain ⟨text, htext, h⟩ := bind_eq_ok.mp h
  cases h
  rcases hvalue with rfl | ⟨s, rfl⟩
  · cases htext
    rfl
  · cases s with
    | lone points surrogate => cases htext
    | text s =>
        cases htext
        have hempty : s.isEmpty = nameless (some s) := by
          rw [Bool.eq_iff_iff, String.isEmpty_iff]
          simp [nameless]
        exact congrArg not hempty

/-! ### Repeating a sync -/

theorem anchored_append {ν β : Type} {changes later : List (Change ν β)} (h : Anchored changes)
    (hlater : Anchored later) : Anchored (changes ++ later) := by
  cases changes with
  | nil => exact hlater
  | cons c changes => exact h

theorem anchored_of_merges {ν β : Type} {changes : List (Change ν β)}
    (h : ∀ c ∈ changes, c.isAssign = false) : Anchored changes := by
  cases changes with
  | nil => rfl
  | cons c changes => simp [Anchored, h c List.mem_cons_self]

section Anchors

variable {κ ν β α γ : Type} [DecidableEq κ] (on : Write → Option (κ × Change ν β))

/-- No row is assigned to before the script has written it. -/
def Anchors (s : StoreScript α) : Prop := ∀ k, Anchored (changesOf k (s.writes.filterMap on))

variable {on}

theorem mem_changesOf_writes {ws : List Write} {k : κ} {c : Change ν β}
    (h : c ∈ changesOf k (ws.filterMap on)) : ∃ w ∈ ws, on w = some (k, c) := by
  obtain ⟨⟨key, c'⟩, hcall, hkey⟩ := List.mem_filterMap.mp h
  obtain ⟨w, hw, hon⟩ := List.mem_filterMap.mp hcall
  split at hkey
  · rename_i heq
    cases heq
    cases hkey
    exact ⟨w, hw, hon⟩
  · cases hkey

theorem Anchors.lift (r : Except PyError α) : Anchors on (Script.lift r : StoreScript α) := fun _ => rfl

theorem Anchors.pure (a : α) : Anchors on (Pure.pure a : StoreScript α) := fun _ => rfl

theorem Anchors.bind {s : StoreScript α} {next : α → StoreScript γ} (hs : Anchors on s)
    (hnext : ∀ a, s.result = .ok a → Anchors on (next a)) : Anchors on (s >>= next) := by
  intro k
  cases hresult : s.result with
  | ok a =>
      rw [Script.bind_of_ok hresult]
      show Anchored (changesOf k ((s.writes ++ (next a).writes).filterMap on))
      rw [List.filterMap_append, changesOf_append]
      exact anchored_append (hs k) (hnext a hresult k)
  | error e =>
      rw [Script.bind_of_error hresult]
      exact hs k

theorem Anchors.each {xs : List α} {body : α → StoreScript Unit} (h : ∀ x ∈ xs, Anchors on (body x)) :
    Anchors on (Script.each xs body) := by
  induction xs with
  | nil => exact Anchors.pure ()
  | cons x xs ih =>
      exact (h x List.mem_cons_self).bind fun _ _ => ih fun y hy => h y (List.mem_cons_of_mem _ hy)

/-- A script that assigns nothing. -/
theorem Anchors.of_emits {s : StoreScript α}
    (h : s.Emits fun w => ∀ call, on w = some call → call.2.isAssign = false) : Anchors on s := by
  intro k
  apply anchored_of_merges
  intro c hc
  obtain ⟨w, hw, hon⟩ := mem_changesOf_writes hc
  exact h w hw _ hon

/-- A script that writes one row and goes on about that row alone. -/
theorem Anchors.of_first {s : StoreScript Unit} {next : Unit → StoreScript γ} {k : κ}
    (hs : s.Emits fun w => ∃ new, on w = some (k, .merge new))
    (hwritten : s.Succeeds → s.writes ≠ [])
    (hnext : (next ()).Emits fun w => ∀ call, on w = some call → call.1 = k) :
    Anchors on (s >>= next) := by
  intro k'
  cases hresult : s.result with
  | error e =>
      rw [Script.bind_of_error hresult]
      refine Anchors.of_emits (fun w hw call hcall => ?_) k'
      obtain ⟨new, hnew⟩ := hs w hw
      cases hnew.symm.trans hcall
      rfl
  | ok a =>
      rw [Script.bind_of_ok hresult]
      show Anchored (changesOf k' ((s.writes ++ (next ()).writes).filterMap on))
      by_cases hk : k = k'
      · subst hk
        cases hwrites : s.writes with
        | nil => exact absurd hwrites (hwritten ⟨a, hresult⟩)
        | cons w ws =>
            obtain ⟨new, hw⟩ := hs w (hwrites ▸ List.mem_cons_self)
            rw [List.cons_append, List.filterMap_cons, hw, changesOf, List.filterMap_cons, if_pos rfl]
            rfl
      · have hnone : changesOf k' ((s.writes ++ (next ()).writes).filterMap on) = [] := by
          refine List.eq_nil_iff_forall_not_mem.mpr fun c hc => ?_
          obtain ⟨w, hw, hon⟩ := mem_changesOf_writes hc
          rcases List.mem_append.mp hw with hw | hw
          · obtain ⟨new, hnew⟩ := hs w hw
            cases hnew.symm.trans hon
            exact hk rfl
          · exact hk (hnext w hw _ hon).symm
        rw [hnone]
        rfl

end Anchors

section Sync

variable (p : Platform) (service : ClassIn) (credentials : Credentials)

theorem syncStudent_emits (row : Fields) :
    (syncStudent p row).Emits fun w => w.onCourses = none ∧ w.onTeachers = none := by
  refine (Script.Emits.lift _).bind fun uid _ => ?_
  cases uid with
  | none => exact Script.Emits.pure _
  | some uid =>
      intro w hw
      obtain ⟨name, named, rfl⟩ := mem_writes_ensureStudent hw
      exact ⟨rfl, rfl⟩

theorem syncTeacher_emits (row : Fields) : (syncTeacher p row).Emits fun w =>
    w.onCourses = none ∧ ∀ call, w.onTeachers = some call → call.2.isAssign = false := by
  refine (Script.Emits.lift _).bind fun uid _ => ?_
  cases uid with
  | none => exact Script.Emits.pure _
  | some uid =>
      intro w hw
      obtain ⟨name, rfl⟩ := mem_writes_upsertTeacher hw
      refine ⟨rfl, ?_⟩
      rintro call ⟨⟩
      rfl

theorem syncClasses_emits (courseId : Int) : (syncClasses service credentials p courseId).Emits
    fun w => w.onCourses = none ∧ w.onTeachers = none := by
  refine (Script.Emits.lift _).bind fun classes _ => Script.Emits.each fun row _ w hw => ?_
  obtain ⟨lessonId, lesson, rfl⟩ := syncClass_emits courseId row w hw
  exact ⟨rfl, rfl⟩

theorem tagCourse_emits (courseId : Int) (branchId : Option Int) :
    (tagCourse courseId branchId).Emits fun w =>
      (∀ call, w.onCourses = some call → call.1 = courseId) ∧ w.onTeachers = none := by
  cases branchId with
  | none => exact Script.Emits.pure _
  | some branchId =>
      intro w hw
      obtain ⟨branch, rfl⟩ := mem_writes_setCourseBranch hw
      refine ⟨?_, rfl⟩
      rintro call ⟨⟩
      rfl

/-- A course is written before it is tagged, and nothing tags another. -/
theorem syncCourse_opens (branchId : Option Int) (row : Fields) :
    Anchors Write.onCourses (syncCourse service credentials p branchId row) := by
  refine (Anchors.lift _).bind fun courseId _ => ?_
  cases courseId with
  | none => exact Anchors.pure _
  | some courseId =>
      have hrest : (tagCourse courseId branchId >>= fun _ =>
          syncClasses service credentials p courseId).Emits fun w =>
            ∀ call, w.onCourses = some call → call.1 = courseId := by
        refine Script.Emits.bind ?_ fun _ _ => ?_
        · exact (tagCourse_emits courseId branchId).mono fun w hw => hw.1
        · refine (syncClasses_emits p service credentials courseId).mono fun w hw call hcall => ?_
          rw [hw.1] at hcall
          cases hcall
      refine Anchors.of_first (fun w hw => ?_) Script.writes_ne_nil_of_commit hrest
      obtain ⟨name, uid, teacher, rfl⟩ := mem_writes_upsertCourse hw
      exact ⟨_, rfl⟩

theorem syncCourse_teachers (branchId : Option Int) (row : Fields) :
    (syncCourse service credentials p branchId row).Emits fun w => w.onTeachers = none := by
  refine (Script.Emits.lift _).bind fun courseId _ => ?_
  cases courseId with
  | none => exact Script.Emits.pure _
  | some courseId =>
      refine Script.Emits.bind (fun w hw => ?_) fun _ _ => Script.Emits.bind ?_ fun _ _ => ?_
      · obtain ⟨name, uid, teacher, rfl⟩ := mem_writes_upsertCourse hw
        rfl
      · exact (tagCourse_emits courseId branchId).mono fun w hw => hw.2
      · exact (syncClasses_emits p service credentials courseId).mono fun w hw => hw.2

theorem syncMasters_opens (branchId : Option Int) :
    Anchors Write.onCourses (syncMasters service credentials p branchId) := by
  refine (Anchors.lift _).bind fun _ _ => Anchors.bind (Anchors.each fun row _ => ?_) fun _ _ =>
    (Anchors.lift _).bind fun _ _ => Anchors.bind (Anchors.each fun row _ => ?_) fun _ _ =>
      (Anchors.lift _).bind fun _ _ => Anchors.bind (Anchors.each fun row _ => ?_) fun _ _ => Anchors.pure _
  · exact syncCourse_opens p service credentials branchId row
  · exact Anchors.of_emits ((syncStudent_emits p row).mono fun w hw call hcall => by
      rw [hw.1] at hcall
      cases hcall)
  · exact Anchors.of_emits ((syncTeacher_emits p row).mono fun w hw call hcall => by
      rw [hw.1] at hcall
      cases hcall)

theorem syncMasters_teachers (branchId : Option Int) :
    Anchors Write.onTeachers (syncMasters service credentials p branchId) := by
  apply Anchors.of_emits
  refine (Script.Emits.lift _).bind fun _ _ => Script.Emits.bind (Script.Emits.each fun row _ => ?_)
    fun _ _ => (Script.Emits.lift _).bind fun _ _ =>
      Script.Emits.bind (Script.Emits.each fun row _ => ?_) fun _ _ =>
        (Script.Emits.lift _).bind fun _ _ =>
          Script.Emits.bind (Script.Emits.each fun row _ => ?_) fun _ _ => Script.Emits.pure _
  · refine (syncCourse_teachers p service credentials branchId row).mono fun w hw call hcall => ?_
    rw [hw] at hcall
    cases hcall
  · refine (syncStudent_emits p row).mono fun w hw call hcall => ?_
    rw [hw.2] at hcall
    cases hcall
  · exact (syncTeacher_emits p row).mono fun w hw => hw.2

/-- The writes that only the master tables see. -/
theorem frame_masters {ws : List Write} (h : ∀ w ∈ ws, w.asPatch = none) (store : Store) :
    ws.foldl Store.write store =
      { store with
        courses := (ws.foldl Store.write store).courses
        lessons := (ws.foldl Store.write store).lessons
        teachers := (ws.foldl Store.write store).teachers
        students := (ws.foldl Store.write store).students } := by
  induction ws generalizing store with
  | nil => rfl
  | cons w ws ih =>
      rw [List.foldl_cons, ih fun v hv => h v (List.mem_cons_of_mem _ hv)]
      have hw := h w List.mem_cons_self
      cases w with
      | record lessonId studentUid fields => cases hw
      | _ => rfl

/-- A script repeated on its own outcome, when it writes the master tables alone and assigns to no
course and no teacher before it has written the row. -/
theorem exec_exec {α : Type} {s : StoreScript α} (hrecords : NoRecord s)
    (hcourses : Anchors Write.onCourses s) (hteachers : Anchors Write.onTeachers s) (store : Store) :
    (store.exec s).exec s = store.exec s := by
  have hempty {κ ν : Type} [DecidableEq κ] {on : Write → Option (κ × Change ν Empty)} :
      Anchors on s := Anchors.of_emits fun w _ call _ => by
    cases h : call.2 with
    | merge new => rfl
    | assign b => cases b
  show s.writes.foldl Store.write (s.writes.foldl Store.write store) = s.writes.foldl Store.write store
  rw [frame_masters hrecords (s.writes.foldl Store.write store)]
  simp only [courses_run, lessons_run, teachers_run, students_run]
  rw [Merging.run_twice _ hcourses, Merging.run_twice _ hempty, Merging.run_twice _ hteachers,
    Merging.run_twice _ hempty]
  simp only [← courses_run, ← lessons_run, ← teachers_run, ← students_run]

end Sync

/-- The master rows after any calls, and a sync that is repeated. -/
theorem masters_merge :
    (∀ ws : List Write, let store := ws.foldl Store.write Store.empty
      Obeys CourseLaw store.courses (ws.filterMap Write.onCourses) ∧
        Obeys LessonLaw store.lessons (ws.filterMap Write.onLessons) ∧
        Obeys TeacherLaw store.teachers (ws.filterMap Write.onTeachers) ∧
        (StudentsTyped ws → Obeys StudentLaw store.students (ws.filterMap Write.onStudents))) ∧
    ∀ (p : Platform) (service : ClassIn) (credentials : Credentials) (branchId : Option Int)
      (store : Store), let sync := syncMasters service credentials p branchId
      (store.exec sync).exec sync = store.exec sync := by
  refine ⟨fun ws => ⟨?_, ?_, ?_, fun htyped => ?_⟩, fun p service credentials branchId store => ?_⟩
  · rw [courses_run]
    exact obeys_run fun _ _ => courseLaw_of_history
  · rw [lessons_run]
    exact obeys_run fun _ _ => lessonLaw_of_history
  · rw [teachers_run]
    exact obeys_run fun _ _ => teacherLaw_of_history
  · rw [students_run]
    refine obeys_run fun uid row h => studentLaw_of_history (fun call hcall => ?_) h
    obtain ⟨change, hchange, hmerged⟩ := List.mem_filterMap.mp hcall
    obtain ⟨w, hw, hon⟩ := mem_changesOf_writes hchange
    cases w with
    | student uid' name named =>
        cases hon
        cases hmerged
        exact htyped _ name named hw
    | _ => cases hon
  · exact exec_exec (syncMasters_noRecord service credentials branchId)
      (syncMasters_opens p service credentials branchId)
      (syncMasters_teachers p service credentials branchId) store

/-- A student whose first name was empty, and a course that was tagged before it was there. -/
def lateNames : List Write :=
  [.courseBranch 5 (some 1), .student 7 (some "") false, .course 5 (some "수학") .null none "webhook",
    .student 7 (some "김하늘") true, .courseBranch 5 (some 2), .student 7 (some "이바다") true,
    .course 5 none (.int 9) none "api"]

theorem lateNames_typed : StudentsTyped lateNames := by
  intro uid name named h
  simp only [lateNames, List.mem_cons, reduceCtorEq, Write.student.injEq, List.not_mem_nil,
    false_or, or_false] at h
  rcases h with ⟨_, rfl, rfl⟩ | ⟨_, rfl, rfl⟩ | ⟨_, rfl, rfl⟩ <;> rfl

theorem masters_merge_lateNames :
    Obeys StudentLaw (lateNames.foldl Store.write Store.empty).students
        (lateNames.filterMap Write.onStudents) ∧
      (lateNames.foldl Store.write Store.empty).students.find 7 = some ⟨some "김하늘", none⟩ ∧
      (lateNames.foldl Store.write Store.empty).courses.find 5 =
        some ⟨some "수학", .int 9, none, "webhook", some 2⟩ :=
  ⟨(masters_merge.1 lateNames).2.2.2 lateNames_typed, by decide, by decide⟩

end ClassinDashboard

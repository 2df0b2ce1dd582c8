import ClassinDashboard.ScopeVisibility

/-!
How scopes compose. A row shows by its course or by its teacher, while two scopes together meet
their courses and their teachers apart, so a row could show in one by its course, in the other by
its teacher, and in neither way in both. The courses that the teachers of a scope have taught close
the gap: a row that shows by its teacher shows by its course, when it has one.
-/

namespace ClassinDashboard

open Py Sql

/-! ### Keys -/

section Keys

variable {value courseId teacherUid : Option Int} {ids ids' : Finset Int}

theorem isIn_inter :
    isIn value (ids ∩ ids') = true ↔ isIn value ids = true ∧ isIn value ids' = true := by
  cases value with
  | none => simp only [isIn, Option.any_none, Bool.false_eq_true, false_and]
  | some n => simp only [isIn, Option.any_some, decide_eq_true_eq, Finset.mem_inter]

theorem isIn_union :
    isIn value (ids ∪ ids') = true ↔ isIn value ids = true ∨ isIn value ids' = true := by
  cases value with
  | none => simp only [isIn, Option.any_none, Bool.false_eq_true, or_false]
  | some n => simp only [isIn, Option.any_some, decide_eq_true_eq, Finset.mem_union]

/-- A row that shows by its teacher shows by its course, when it has one. -/
def ByCourse (courseId teacherUid : Option Int) (keys : Finset Int × Finset Int) : Prop :=
  isIn teacherUid keys.2 = true → courseId.isSome → isIn courseId keys.1 = true

variable {keys keys' : Finset Int × Finset Int}

theorem ByCourse.rowInScope_some {n : Int} (h : ByCourse (some n) teacherUid keys) :
    rowInScope (some n) teacherUid (some keys) = true ↔ isIn (some n) keys.1 = true := by
  rw [rowInScope, Bool.or_eq_true]
  exact ⟨fun hshown => hshown.elim id fun hteacher => h hteacher rfl, Or.inl⟩

theorem rowInScope_none :
    rowInScope none teacherUid (some keys) = true ↔ isIn teacherUid keys.2 = true := by
  rw [rowInScope, isIn, Option.any_none, Bool.false_or]

theorem ByCourse.inf (h : ByCourse courseId teacherUid keys)
    (h' : ByCourse courseId teacherUid keys') :
    ByCourse courseId teacherUid (keys ⊓ keys') := by
  intro hteacher hcourse
  obtain ⟨hleft, hright⟩ := isIn_inter.mp hteacher
  exact isIn_inter.mpr ⟨h hleft hcourse, h' hright hcourse⟩

/-- Keys met apart show the rows that both show. -/
theorem ByCourse.rowInScope_inf (h : ByCourse courseId teacherUid keys)
    (h' : ByCourse courseId teacherUid keys') :
    rowInScope courseId teacherUid (some (keys ⊓ keys')) = true ↔
      rowInScope courseId teacherUid (some keys) = true ∧
        rowInScope courseId teacherUid (some keys') = true := by
  cases courseId with
  | none =>
      rw [rowInScope_none, rowInScope_none, rowInScope_none, Prod.snd_inf, Finset.inf_eq_inter,
        isIn_inter]
  | some n =>
      rw [h.rowInScope_some, h'.rowInScope_some, (h.inf h').rowInScope_some, Prod.fst_inf,
        Finset.inf_eq_inter, isIn_inter]

/-- Keys joined apart show the rows that either shows. -/
theorem rowInScope_sup :
    rowInScope courseId teacherUid (some (keys ⊔ keys')) = true ↔
      rowInScope courseId teacherUid (some keys) = true ∨
        rowInScope courseId teacherUid (some keys') = true := by
  simp only [rowInScope, Bool.or_eq_true]
  rw [Prod.fst_sup, Prod.snd_sup, Finset.sup_eq_union, Finset.sup_eq_union, isIn_union, isIn_union]
  exact or_or_or_comm

end Keys

/-! ### The keys of a scope -/

namespace Store

variable (store : Store)

/-- The courses of some branches: assigned to them, or led or taught by their teachers. -/
def courseIdsUnderBranches (branchIds : Finset Int) : Finset Int :=
  store.courseIdsOfBranches branchIds ∪ store.courseIdsLedBy (store.teachersOfBranches branchIds)
    ∪ store.courseIdsTaughtBy (store.teachersOfBranches branchIds)

/-- The courses that some teachers led or taught. -/
def courseIdsUnderTeachers (teacherUids : Finset Int) : Finset Int :=
  store.courseIdsLedBy teacherUids ∪ store.courseIdsTaughtBy teacherUids

def branchKeys (branchIds : Finset Int) : Finset Int × Finset Int :=
  (store.courseIdsUnderBranches branchIds, store.teachersOfBranches branchIds)

def teacherKeys (teacherUids : Finset Int) : Finset Int × Finset Int :=
  (store.courseIdsUnderTeachers teacherUids, teacherUids)

variable {store}

theorem scopeKeys_branch (branchIds : Finset Int) :
    store.scopeKeys ⟨some branchIds, none⟩ = some (store.branchKeys branchIds) := rfl

theorem scopeKeys_teacher (teacherUids : Finset Int) :
    store.scopeKeys ⟨none, some teacherUids⟩ = some (store.teacherKeys teacherUids) := rfl

theorem scopeKeys_both (branchIds teacherUids : Finset Int) :
    store.scopeKeys ⟨some branchIds, some teacherUids⟩ =
      some (store.branchKeys branchIds ⊓ store.teacherKeys teacherUids) := rfl

theorem scopeKeys_fst {scope : Scope} {courseIds : Finset Int}
    (h : store.courseIdsInScope scope = some courseIds) :
    ∃ teacherUids, store.scopeKeys scope = some (courseIds, teacherUids) := by
  match scope, h with
  | ⟨some branchIds, none⟩, h => exact ⟨_, congrArg (fun ids => some (ids, _)) (Option.some.inj h)⟩
  | ⟨none, some teacherUids⟩, h => exact ⟨_, congrArg (fun ids => some (ids, _)) (Option.some.inj h)⟩
  | ⟨some branchIds, some teacherUids⟩, h =>
      exact ⟨_, congrArg (fun ids => some (ids, _)) (Option.some.inj h)⟩

theorem teachersOfBranches_union (branchIds branchIds' : Finset Int) :
    store.teachersOfBranches (branchIds ∪ branchIds') =
      store.teachersOfBranches branchIds ∪ store.teachersOfBranches branchIds' := by
  ext uid
  simp only [mem_teachersOfBranches, Finset.mem_union, isIn_union, and_or_left, exists_or]

theorem courseIdsOfBranches_union (branchIds branchIds' : Finset Int) :
    store.courseIdsOfBranches (branchIds ∪ branchIds') =
      store.courseIdsOfBranches branchIds ∪ store.courseIdsOfBranches branchIds' := by
  ext courseId
  simp only [mem_courseIdsOfBranches, Finset.mem_union, isIn_union, and_or_left, exists_or]

theorem courseIdsLedBy_union (uids uids' : Finset Int) :
    store.courseIdsLedBy (uids ∪ uids') =
      store.courseIdsLedBy uids ∪ store.courseIdsLedBy uids' := by
  ext courseId
  simp only [mem_courseIdsLedBy, Finset.mem_union, isIn_union, and_or_left, exists_or]

theorem courseIdsTaughtBy_union (uids uids' : Finset Int) :
    store.courseIdsTaughtBy (uids ∪ uids') =
      store.courseIdsTaughtBy uids ∪ store.courseIdsTaughtBy uids' := by
  ext courseId
  simp only [mem_courseIdsTaughtBy, Finset.mem_union, isIn_union, and_or_left, exists_or]

/-- The keys of two groups of branches are the keys of each, joined. -/
theorem branchKeys_union (branchIds branchIds' : Finset Int) :
    store.branchKeys (branchIds ∪ branchIds') =
      store.branchKeys branchIds ⊔ store.branchKeys branchIds' := by
  refine Prod.ext ?_ (teachersOfBranches_union branchIds branchIds')
  show store.courseIdsUnderBranches (branchIds ∪ branchIds') =
    store.courseIdsUnderBranches branchIds ∪ store.courseIdsUnderBranches branchIds'
  simp only [courseIdsUnderBranches]
  rw [teachersOfBranches_union, courseIdsOfBranches_union, courseIdsLedBy_union,
    courseIdsTaughtBy_union, Finset.union_union_union_comm (store.courseIdsOfBranches branchIds),
    Finset.union_union_union_comm]

end Store

/-! ### Rows of the store -/

variable {store : Store} {record : LessonRecord}

/-- The course of a row is among those its teacher has taught. -/
theorem taught_of_teacher (hrecord : record ∈ store.allRecords) {uids : Finset Int}
    (hteacher : isIn record.teacher uids = true) (hcourse : record.course.isSome) :
    isIn record.course (store.courseIdsTaughtBy uids) = true := by
  obtain ⟨courseId, hid⟩ := Option.isSome_iff_exists.mp hcourse
  refine isIn_iff.mpr ⟨courseId, hid, (store.mem_courseIdsTaughtBy).mpr ?_⟩
  exact ⟨_, record.cells, mem_allRecords.mp hrecord, hid, hteacher⟩

theorem byCourse_branch (hrecord : record ∈ store.allRecords) (branchIds : Finset Int) :
    ByCourse record.course record.teacher (store.branchKeys branchIds) :=
  fun hteacher hcourse => isIn_union.mpr (Or.inr (taught_of_teacher hrecord hteacher hcourse))

theorem byCourse_teacher (hrecord : record ∈ store.allRecords) (teacherUids : Finset Int) :
    ByCourse record.course record.teacher (store.teacherKeys teacherUids) :=
  fun hteacher hcourse => isIn_union.mpr (Or.inr (taught_of_teacher hrecord hteacher hcourse))

/-- Every restricted scope shows the rows of its teachers by their courses too. -/
theorem byCourse_scopeKeys (hrecord : record ∈ store.allRecords) {scope : Scope}
    {keys : Finset Int × Finset Int} (h : store.scopeKeys scope = some keys) :
    ByCourse record.course record.teacher keys := by
  match scope, h with
  | ⟨some branchIds, none⟩, h =>
      rw [Store.scopeKeys_branch] at h
      obtain rfl := Option.some.inj h
      exact byCourse_branch hrecord branchIds
  | ⟨none, some teacherUids⟩, h =>
      rw [Store.scopeKeys_teacher] at h
      obtain rfl := Option.some.inj h
      exact byCourse_teacher hrecord teacherUids
  | ⟨some branchIds, some teacherUids⟩, h =>
      rw [Store.scopeKeys_both] at h
      obtain rfl := Option.some.inj h
      exact (byCourse_branch hrecord branchIds).inf (byCourse_teacher hrecord teacherUids)

/-- A row is in a scope of branches and teachers when it is in the scope of each. -/
theorem inScope_both (hrecord : record ∈ store.allRecords) (branchIds teacherUids : Finset Int) :
    record.inScope (store.scopeKeys ⟨some branchIds, some teacherUids⟩) = true ↔
      record.inScope (store.scopeKeys ⟨some branchIds, none⟩) = true ∧
        record.inScope (store.scopeKeys ⟨none, some teacherUids⟩) = true := by
  rw [Store.scopeKeys_both, Store.scopeKeys_branch, Store.scopeKeys_teacher]
  exact (byCourse_branch hrecord branchIds).rowInScope_inf (byCourse_teacher hrecord teacherUids)

/-- A row is in the scope of two groups of branches when it is in the scope of one. -/
theorem inScope_union (branchIds branchIds' : Finset Int) :
    record.inScope (store.scopeKeys ⟨some (branchIds ∪ branchIds'), none⟩) = true ↔
      record.inScope (store.scopeKeys ⟨some branchIds, none⟩) = true ∨
        record.inScope (store.scopeKeys ⟨some branchIds', none⟩) = true := by
  rw [Store.scopeKeys_branch, Store.branchKeys_union]
  exact rowInScope_sup

/-- A row in scope that has a course is of a course in scope. -/
theorem course_in_scope (hrecord : record ∈ store.allRecords) (hcourse : record.course.isSome)
    {scope : Scope} {courseIds : Finset Int} (hids : store.courseIdsInScope scope = some courseIds)
    (h : record.inScope (store.scopeKeys scope) = true) : isIn record.course courseIds = true := by
  obtain ⟨teacherUids, hkeys⟩ := Store.scopeKeys_fst hids
  rw [hkeys, LessonRecord.inScope, rowInScope, Bool.or_eq_true] at h
  exact h.elim id fun hteacher => byCourse_scopeKeys hrecord hkeys hteacher hcourse

/-! ### Reads under composed scopes -/

/-- A read under branches and teachers is the read under the branches without the rows that the
teachers' scope does not show, in the same order. -/
theorem lessonRecords_both (branchIds teacherUids : Finset Int) (filter : RecordFilter) :
    lessonRecords store ⟨some branchIds, some teacherUids⟩ filter =
      (lessonRecords store ⟨some branchIds, none⟩ filter).filter fun record =>
        record.inScope (store.scopeKeys ⟨none, some teacherUids⟩) := by
  rw [lessonRecords, lessonRecords, List.filter_filter]
  apply List.filter_congr
  intro record hrecord
  have hstored : record ∈ store.allRecords := List.mem_of_mem_filter (List.mem_mergeSort.mp hrecord)
  rw [Bool.eq_iff_iff, Bool.and_eq_true, and_comm]
  exact inScope_both hstored branchIds teacherUids

/-- The rows a read returns. -/
def recordsShown (store : Store) (scope : Scope) (filter : RecordFilter) : Set LessonRecord :=
  {record | record ∈ lessonRecords store scope filter}

theorem mem_recordsShown {scope : Scope} {filter : RecordFilter} :
    record ∈ recordsShown store scope filter ↔
      (record ∈ store.allRecords ∧ filter.matches record = true) ∧
        record.inScope (store.scopeKeys scope) = true := by
  rw [recordsShown, Set.mem_ofPred_eq, mem_lessonRecords, mem_allRecords, and_assoc]

/-- Where every row carries a course, branches and teachers together show what each shows, two
groups of branches what either shows, and no scope a row of a course it may not read. -/
theorem scopes_compose (store : Store)
    (hcourse : ∀ record ∈ store.allRecords, record.course.isSome)
    (branchIds branchIds' teacherUids : Finset Int) (filter : RecordFilter) :
    recordsShown store ⟨some branchIds, some teacherUids⟩ filter =
        recordsShown store ⟨some branchIds, none⟩ filter ∩
          recordsShown store ⟨none, some teacherUids⟩ filter ∧
      recordsShown store ⟨some (branchIds ∪ branchIds'), none⟩ filter =
        recordsShown store ⟨some branchIds, none⟩ filter ∪
          recordsShown store ⟨some branchIds', none⟩ filter ∧
      ∀ scope courseIds, store.courseIdsInScope scope = some courseIds →
        ∀ record ∈ lessonRecords store scope filter, isIn record.course courseIds = true := by
  refine ⟨?_, ?_, ?_⟩
  · ext record
    rw [Set.mem_inter_iff, mem_recordsShown, mem_recordsShown, mem_recordsShown, ← and_and_left]
    exact and_congr_right fun hrow => inScope_both hrow.1 branchIds teacherUids
  · ext record
    rw [Set.mem_union, mem_recordsShown, mem_recordsShown, mem_recordsShown, ← and_or_left,
      inScope_union]
  · intro scope courseIds hids record hrecord
    obtain ⟨⟨hstored, _⟩, hscope⟩ := mem_recordsShown.mp hrecord
    exact course_in_scope hstored (hcourse record hstored) hids hscope

theorem substituted_courses : ∀ record ∈ substituted.allRecords, record.course.isSome := by
  have hall : substituted.allRecords.all (fun record => record.course.isSome) = true := by
    decide
  exact List.all_eq_true.mp hall

/-- Branch 1 and teacher 8 share no teacher; the lesson of teacher 8 shows by its course, which a
teacher of branch 1 has taught too. -/
theorem scopes_compose_substituted :
    (recordsShown substituted ⟨some {1}, some {8}⟩ .none).Nonempty ∧
      recordsShown substituted ⟨some {1}, some {8}⟩ .none =
        recordsShown substituted ⟨some {1}, none⟩ .none ∩
          recordsShown substituted ⟨none, some {8}⟩ .none ∧
      recordsShown substituted ⟨some ({1} ∪ {2}), none⟩ .none =
        recordsShown substituted ⟨some {1}, none⟩ .none ∪
          recordsShown substituted ⟨some {2}, none⟩ .none ∧
      ∀ scope courseIds, substituted.courseIdsInScope scope = some courseIds →
        ∀ record ∈ lessonRecords substituted scope .none, isIn record.course courseIds = true := by
  refine ⟨?_, scopes_compose substituted substituted_courses {1} {2} {8} .none⟩
  obtain ⟨record, hrecord, hcourse, hteacher⟩ := substituted_first
  have hbranch : TeacherOfBranch substituted 7 1 := ⟨⟨none, some 1⟩, by decide, rfl⟩
  have hstored := mem_allRecords.mpr hrecord
  have hone : (⟨some {1}, none⟩ : Scope) = .forBranch (some 1) := rfl
  have height : (⟨none, some {8}⟩ : Scope) = .forTeacher (some 8) := rfl
  refine ⟨record, mem_recordsShown.mpr ⟨⟨hstored, rfl⟩, (inScope_both hstored {1} {8}).mpr ⟨?_, ?_⟩⟩⟩
  · rw [hone, inScope_forBranch_iff]
    exact Or.inl ⟨10, hcourse, Or.inr ⟨7, hbranch, Or.inr substituted_taught⟩⟩
  · rw [height, inScope_forTeacher_iff]
    exact Or.inr hteacher

end ClassinDashboard

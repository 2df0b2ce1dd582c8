import ClassinDashboard.IngestRecords
import ClassinDashboard.Reads

/-!
When a sync steals no course. The credentials of the call fall back to the session's, the branch tag
does not: with a filter on a branch that has no credentials of its own, every course that the sync
gets to is moved to that branch.
-/

namespace ClassinDashboard

open Py Sql

/-- The branch has a SID and a secret, and these are them. -/
def OwnCredentials (store : Store) (branchId : Option Int) (credentials : Credentials) : Prop :=
  ∃ id branch, branchId = some id ∧ store.branches.find id = some branch ∧
    branch.credentials = some credentials

/-! ### The courses a sync gets to -/

section Reached

variable (service : ClassIn) (credentials : Credentials) (p : Platform)

/-- The statements on the course of a row are accepted. -/
def courseAccepted (courseId : Int) (row : Fields) : Bool :=
  SqlValue.inRange courseId && storable (pick row ["courseName", "course_name", "name"])
    && storable (pick row ["mainTeacherUid", "teacherUid"])

/-- The statement on a class is accepted. -/
def classAccepted (row : Fields) : Bool :=
  match pick row ["classId", "class_id", "id"] with
  | .none => true
  | lessonId =>
      (p.strOf lessonId).encode.isOk && storable (pick row ["className", "class_name", "name"])
        && storable (pick row ["beginTime", "begin_time", "startTime"])
        && storable (pick row ["endTime", "end_time"])
        && storable (pick row ["teacherUid", "teacher_uid"])

/-- The sync goes on after the classes of a course. -/
def classesReturn (courseId : Int) : Bool :=
  match courseClasses service credentials courseId with
  | .ok classes => classes.all (classAccepted p)
  | .error _ => false

/-- The course that a row of the course list is synced as. -/
def rowCourse (row : Fields) : Option Int :=
  match pickId row ["courseId", "course_id", "id"] with
  | .ok (some courseId) => if courseAccepted courseId row then some courseId else none
  | _ => none

/-- The sync goes on after a row of the course list. -/
def rowReturns (row : Fields) : Bool :=
  match pickId row ["courseId", "course_id", "id"] with
  | .error _ => false
  | .ok none => true
  | .ok (some courseId) =>
      courseAccepted courseId row && classesReturn service credentials p courseId

/-- The courses of a list that the sync gets to: up to the first row that raises. -/
def reachedCourses (rows : List Fields) : List Int :=
  (Script.through (rowReturns service credentials p) rows).filterMap rowCourse

end Reached

/-! ### Assignments -/

theorem branchOf_congr {store other : Store} (h : store.courses = other.courses) (courseId : Int) :
    branchOf store courseId = branchOf other courseId := by
  rw [branchOf, branchOf, h]

section Assigns

variable {store : Store} {branchId : Option Int} {ok ok' : Bool} {ids ids' : List Int}

/-- The script returns exactly when `ok` holds, and it assigns the listed courses, and no others, to
the branch, if there is one. -/
structure Assigns {α : Type} (store : Store) (s : StoreScript α) (branchId : Option Int) (ok : Bool)
    (ids : List Int) : Prop where
  returns : s.Succeeds ↔ ok = true
  assigned : ∀ other, branchOf (store.exec s) other =
    if branchId.isSome = true ∧ other ∈ ids then branchId else branchOf store other

theorem Assigns.pure : Assigns store (pure () : StoreScript Unit) branchId true [] :=
  ⟨⟨fun _ => rfl, fun _ => Script.succeeds_pure ()⟩, fun other => by simp [Store.exec, Script.exec]⟩

theorem Assigns.error {α : Type} (e : PyError) :
    Assigns store (Script.lift (.error e) : StoreScript α) branchId false [] :=
  ⟨⟨fun h => absurd h (Script.not_succeeds_error e), fun h => absurd h Bool.false_ne_true⟩,
    fun other => by simp [Store.exec, Script.exec]⟩

/-- A script that leaves the course table alone. -/
theorem Assigns.quiet {α : Type} {s : StoreScript α} (h : s.Succeeds ↔ ok = true)
    (hcourses : (store.exec s).courses = store.courses) : Assigns store s branchId ok [] :=
  ⟨h, fun other => by simp [branchOf, hcourses]⟩

theorem Assigns.seq {β : Type} {s : StoreScript Unit} {k : Unit → StoreScript β}
    (h : Assigns store s branchId ok ids)
    (hk : ok = true → Assigns (store.exec s) (k ()) branchId ok' ids') :
    Assigns store (s >>= k) branchId (ok && ok') (ids ++ if ok then ids' else []) := by
  refine ⟨?_, fun other => ?_⟩
  · rw [Script.succeeds_bind_unit, h.returns, Bool.and_eq_true]
    exact and_congr_right fun hok => (hk hok).returns
  · have hexec := Script.exec_bind_unit Store.write s k store
    unfold Store.exec at *
    rw [hexec]
    by_cases hok : ok = true
    · rw [if_pos (h.returns.mpr hok)]
      have hnext := (hk hok).assigned other
      have hfirst := h.assigned other
      unfold Store.exec at hnext hfirst
      simp only [hnext, hfirst, if_pos hok, List.mem_append]
      split_ifs <;> tauto
    · rw [if_neg fun hs => hok (h.returns.mp hs), if_neg hok, List.append_nil]
      exact h.assigned other

/-- Nothing runs after a raise. -/
theorem Assigns.stop {β : Type} {s : StoreScript Unit} (k : Unit → StoreScript β)
    (h : Assigns store s branchId false ids) : Assigns store (s >>= k) branchId false ids := by
  have hseq : Assigns store (s >>= k) branchId (false && false) (ids ++ if false then [] else []) :=
    h.seq fun hf => absurd hf Bool.false_ne_true
  rwa [ite_self, List.append_nil] at hseq

theorem Assigns.each {α : Type} {l : List α} {body : α → StoreScript Unit} {good : α → Bool}
    {out : α → List Int}
    (h : ∀ x ∈ l, ∀ store, Assigns store (body x) branchId (good x) (out x)) (store : Store) :
    Assigns store (Script.each l body) branchId (l.all good)
      ((Script.through good l).flatMap out) := by
  induction l generalizing store with
  | nil => exact Assigns.pure
  | cons x l ih =>
      have htail := ih fun y hy => h y (List.mem_cons_of_mem _ hy)
      have hseq : Assigns store (body x >>= fun _ => Script.each l body) _ _ _ :=
        (h x List.mem_cons_self store).seq fun _ => htail _
      rw [Script.each, List.all_cons, Script.through, List.flatMap_cons]
      cases hx : good x with
      | false => simpa [hx] using hseq
      | true => simpa [hx] using hseq

end Assigns

/-! ### One course -/

section Course

variable (service : ClassIn) (credentials : Credentials) (p : Platform) (store : Store)

/-- Assigning a course that exists. -/
theorem branchOf_write_courseBranch {courseId : Int}
    (hexists : (store.courses.find courseId).isSome = true) (branchId : Option Int) (other : Int) :
    branchOf (store.write (.courseBranch courseId branchId)) other =
      if other = courseId then branchId else branchOf store other := by
  simp only [branchOf, Store.write]
  by_cases hother : other = courseId
  · obtain ⟨row, hrow⟩ := Option.isSome_iff_exists.mp hexists
    rw [if_pos hother, hother, Table.find_modify_self, hrow]
    rfl
  · rw [if_neg hother, Table.find_modify_of_ne _ hother]

theorem inRange_of_accepted {courseId : Int} {row : Fields}
    (h : courseAccepted courseId row = true) : SqlValue.inRange courseId = true := by
  rw [courseAccepted, Bool.and_eq_true, Bool.and_eq_true] at h
  exact h.1.1

/-- The course is accepted and keeps its assignment, or refused. -/
theorem upsertCourse_assigns (branchId : Option Int) (courseId : Int) (row : Fields) :
    let script := upsertCourse p courseId (pick row ["courseName", "course_name", "name"])
      (pick row ["mainTeacherUid", "teacherUid"]) .none "api"
    Assigns store script branchId (courseAccepted courseId row) [] ∧
      (courseAccepted courseId row = true →
        ((store.exec script).courses.find courseId).isSome = true) := by
  intro script
  have hok : script.Succeeds ↔ courseAccepted courseId row = true := by
    rw [upsertCourse_succeeds, courseAccepted, Bool.and_eq_true, Bool.and_eq_true, and_assoc]
    exact and_congr_right fun _ => and_congr_right fun _ => and_iff_left rfl
  refine ⟨⟨hok, fun other => ?_⟩, fun haccepted => ?_⟩
  · simp only [List.not_mem_nil, and_false, if_false]
    apply Script.exec_frame fun store => branchOf store other
    intro current w hw
    obtain ⟨text, uid, teacher, rfl⟩ := mem_writes_upsertCourse hw
    exact branchOf_write_course current courseId text uid teacher "api" other
  · obtain ⟨w, hw⟩ := Script.succeeds_commit.mp (hok.mpr haccepted)
    obtain ⟨text, uid, teacher, rfl⟩ := mem_writes_upsertCourse (Script.mem_writes_commit.mpr hw)
    have hexec : store.exec script = store.write (.course courseId text uid teacher "api") := by
      show Script.exec _ (Script.commit _) _ = _
      rw [hw]
      rfl
    rw [hexec]
    simp only [Store.write, Table.find_upsert_self, Option.isSome_some]

/-- Tagging a course that exists. -/
theorem tagCourse_assigns {branchId : Option Int} (hbranch : fits branchId = true) {courseId : Int}
    (hcourse : SqlValue.inRange courseId = true)
    (hexists : (store.courses.find courseId).isSome = true) :
    Assigns store (tagCourse courseId branchId) branchId true [courseId] := by
  cases branchId with
  | none =>
      exact ⟨by simp [tagCourse], fun other => by simp [tagCourse, Store.exec, Script.exec]⟩
  | some id =>
      have htag : tagCourse courseId (some id) = Script.tell (.courseBranch courseId (some id)) := by
        simp only [tagCourse, setCourseBranch, bindInt_of_fits hbranch, bindKey_of_inRange hcourse]
        rfl
      rw [htag]
      refine ⟨by simp, fun other => ?_⟩
      have hwrite := branchOf_write_courseBranch store hexists (some id) other
      simp only [Option.isSome_some, true_and, List.mem_singleton]
      exact hwrite

/-- The statement on one class: only the lesson table is written. -/
theorem upsertClass_assigns (branchId : Option Int) {courseId : Int}
    (hcourse : SqlValue.inRange courseId = true)
    (lessonId title startTime endTime teacherUid : PyValue) :
    Assigns store (Script.lift (p.strOf lessonId).encode >>= fun key =>
        upsertLesson p key (some courseId) title startTime endTime teacherUid none "api") branchId
      ((p.strOf lessonId).encode.isOk && storable title && storable startTime && storable endTime
        && storable teacherUid) [] := by
  cases (p.strOf lessonId).encode with
  | error e => exact Assigns.error e
  | ok key =>
      rw [Script.lift_ok_bind]
      apply Assigns.quiet
      · have hkey : (Except.ok key : Except PyError String).isOk = true := rfl
        have hid : fits (some courseId) = true := hcourse
        have hnone : fits none = true := rfl
        rw [upsertLesson_succeeds]
        simp only [hkey, hid, hnone, true_and, and_true, Bool.true_and, Bool.and_eq_true, and_assoc]
      · apply Script.exec_frame Store.courses
        intro current w hw
        obtain ⟨row, rfl⟩ := mem_writes_upsertLesson hw
        rfl

theorem syncClass_assigns (branchId : Option Int) {courseId : Int}
    (hcourse : SqlValue.inRange courseId = true) (row : Fields) (store : Store) :
    Assigns store (syncClass p courseId row) branchId (classAccepted p row) [] := by
  unfold syncClass classAccepted
  cases pick row ["classId", "class_id", "id"] with
  | none => exact Assigns.pure
  | _ => exact upsertClass_assigns p store branchId hcourse _ _ _ _ _

theorem syncClasses_assigns (branchId : Option Int) {courseId : Int}
    (hcourse : SqlValue.inRange courseId = true) :
    Assigns store (syncClasses service credentials p courseId) branchId
      (classesReturn service credentials p courseId) [] := by
  unfold syncClasses classesReturn
  cases courseClasses service credentials courseId with
  | error e => exact Assigns.error e
  | ok classes =>
      have hloop := Assigns.each (l := classes)
        (fun row _ store => syncClass_assigns p branchId hcourse row store) store
      rwa [List.flatMap_eq_nil_iff.mpr fun _ _ => rfl] at hloop

/-- One row of the course list. -/
theorem syncCourse_assigns {branchId : Option Int} (hbranch : fits branchId = true) (row : Fields)
    (store : Store) :
    Assigns store (syncCourse service credentials p branchId row) branchId
      (rowReturns service credentials p row) (rowCourse row).toList := by
  unfold syncCourse rowReturns rowCourse
  cases hid : pickId row ["courseId", "course_id", "id"] with
  | error e => exact Assigns.error e
  | ok id =>
      cases id with
      | none => exact Assigns.pure
      | some courseId =>
          rw [Script.lift_ok_bind]
          dsimp only
          obtain ⟨hupsert, hexists⟩ := upsertCourse_assigns p store branchId courseId row
          cases haccepted : courseAccepted courseId row with
          | false =>
              rw [haccepted] at hupsert
              exact hupsert.stop _
          | true =>
              rw [haccepted] at hupsert hexists
              have hrange := inRange_of_accepted haccepted
              have htag := tagCourse_assigns _ hbranch hrange (hexists rfl)
              exact hupsert.seq fun _ => htag.seq fun _ =>
                syncClasses_assigns service credentials p _ branchId hrange

end Course

/-! ### The whole sync -/

section Sync

variable (service : ClassIn) (credentials : Credentials) (p : Platform)

/-- The reads after the courses: students and teachers. -/
def syncMembers (courses : List Fields) : StoreScript Nat := do
  let students ← Script.lift (studentList service credentials)
  Script.each students (syncStudent p)
  let teachers ← Script.lift (teacherList service credentials)
  Script.each teachers (syncTeacher p)
  pure (countIds courses ["courseId", "course_id", "id"]
    + (courses.map (countClasses service credentials)).sum
    + countIds students ["studentUid", "student_uid", "uid", "id"]
    + countIds teachers ["teacherUid", "teacher_uid", "uid", "id"])

theorem syncStudent_keeps (row : Fields) :
    Script.Keeps Store.write Store.courses (syncStudent p row) := by
  apply (Script.Keeps.lift _).bind
  intro uid
  cases uid with
  | none => exact fun _ => rfl
  | some uid =>
      apply Script.Keeps.commit
      intro w hw state
      obtain ⟨name, named, rfl⟩ := mem_writes_ensureStudent (Script.mem_writes_commit.mpr hw)
      rfl

theorem syncTeacher_keeps (row : Fields) :
    Script.Keeps Store.write Store.courses (syncTeacher p row) := by
  apply (Script.Keeps.lift _).bind
  intro uid
  cases uid with
  | none => exact fun _ => rfl
  | some uid =>
      apply Script.Keeps.commit
      intro w hw state
      obtain ⟨name, rfl⟩ := mem_writes_upsertTeacher (Script.mem_writes_commit.mpr hw)
      rfl

theorem syncMembers_keeps (courses : List Fields) :
    Script.Keeps Store.write Store.courses (syncMembers service credentials p courses) := by
  apply (Script.Keeps.lift _).bind
  intro students
  apply (Script.Keeps.each fun row _ => syncStudent_keeps p row).bind
  intro _
  apply (Script.Keeps.lift _).bind
  intro teachers
  exact (Script.Keeps.each fun row _ => syncTeacher_keeps p row).bind fun _ _ => rfl

/-- The courses that a sync with these credentials gets to. -/
def syncedCourses : List Int :=
  match courseList service credentials with
  | .ok rows => reachedCourses service credentials p rows
  | .error _ => []

/-- A sync assigns the courses it gets to, and no others. -/
theorem branchOf_syncMasters {branchId : Option Int} (hbranch : fits branchId = true) (store : Store)
    (other : Int) :
    branchOf (store.exec (syncMasters service credentials p branchId)) other =
      if branchId.isSome = true ∧ other ∈ syncedCourses service credentials p then branchId
      else branchOf store other := by
  unfold syncMasters syncedCourses
  cases courseList service credentials with
  | error e => simp [Store.exec, Script.exec]
  | ok rows =>
      have hloop := Assigns.each (l := rows)
        (fun row _ store => syncCourse_assigns service credentials p hbranch row store) store
      have hids : (Script.through (rowReturns service credentials p) rows).flatMap
          (fun row => (rowCourse row).toList) = reachedCourses service credentials p rows := by
        rw [reachedCourses, List.filterMap_eq_flatMap_toList]
      rw [hids] at hloop
      rw [Script.lift_ok_bind, ← hloop.assigned other]
      show branchOf (store.exec (Script.each rows (syncCourse service credentials p branchId) >>=
        fun _ => syncMembers service credentials p rows)) other = _
      have hexec := Script.exec_bind_unit Store.write
        (Script.each rows (syncCourse service credentials p branchId))
        (fun _ => syncMembers service credentials p rows) store
      refine branchOf_congr ?_ other
      unfold Store.exec
      rw [hexec]
      split
      · exact syncMembers_keeps service credentials p rows _
      · rfl

end Sync

/-! ### The request -/

section Request

variable (service : ClassIn) (p : Platform) (store : Store) (session : Session)

/-- A sync request of the session changes the branch of a course only when the course list was
fetched with the own SID and secret of the new branch. -/
def StealsNoCourse : Prop :=
  ∀ courseId,
    branchOf (dashboardSync service p store (some session)).2 courseId ≠ branchOf store courseId →
    ∃ credentials, clientFor store session session.branchFilter = .ok credentials ∧
      OwnCredentials store (branchOf (dashboardSync service p store (some session)).2 courseId)
        credentials

/-- The courses that a sync request of the session gets to. -/
def requestedCourses : List Int :=
  match clientFor store session session.branchFilter with
  | .ok credentials => syncedCourses service credentials p
  | .error _ => []

variable {store session}

theorem clientFor_of_own {credentials : Credentials}
    (h : OwnCredentials store session.branchFilter credentials)
    (hfits : fits session.branchFilter = true) :
    clientFor store session session.branchFilter = .ok credentials := by
  obtain ⟨id, branch, hid, hbranch, hown⟩ := h
  rw [hid] at hfits ⊢
  have hkey : bindKey id = .ok id := bindKey_of_inRange hfits
  simp only [clientFor, getBranch, hkey, Except.map, hbranch, Option.bind_some, hown,
    Option.getD_some]

theorem fits_of_clientFor {credentials : Credentials}
    (h : clientFor store session session.branchFilter = .ok credentials) :
    fits session.branchFilter = true := by
  cases hfilter : session.branchFilter with
  | none => rfl
  | some id =>
      rw [hfilter] at h
      obtain ⟨branch, hbranch, _⟩ := map_eq_ok.mp h
      obtain ⟨key, hkey, _⟩ := map_eq_ok.mp hbranch
      exact bindKey_isOk.mp ⟨key, hkey⟩

/-- After a request of an owner, the courses it gets to are in the filtered branch. -/
theorem branchOf_dashboardSync (hrole : session.role = .owner) (courseId : Int) :
    branchOf (dashboardSync service p store (some session)).2 courseId =
      if session.branchFilter.isSome = true ∧ courseId ∈ requestedCourses service p store session
      then session.branchFilter else branchOf store courseId := by
  unfold dashboardSync requestedCourses
  simp only [hrole, if_true]
  cases hclient : clientFor store session session.branchFilter with
  | error e => simp
  | ok credentials =>
      exact branchOf_syncMasters service credentials p (fits_of_clientFor hclient) store _

/-- Without a client there is nothing to get to. -/
theorem clientFor_of_requested {courseId : Int}
    (h : courseId ∈ requestedCourses service p store session) :
    ∃ credentials, clientFor store session session.branchFilter = .ok credentials := by
  unfold requestedCourses at h
  cases hclient : clientFor store session session.branchFilter with
  | error e =>
      rw [hclient] at h
      cases h
  | ok credentials => exact ⟨credentials, rfl⟩

/-- What an owner's request gets to is in the filtered branch already, or that branch has credentials
of its own. -/
theorem branchOf_of_stealsNoCourse (hrole : session.role = .owner)
    (h : StealsNoCourse service p store session) (hfilter : session.branchFilter ≠ none)
    (hown : ¬∃ credentials, OwnCredentials store session.branchFilter credentials) :
    ∀ courseId ∈ requestedCourses service p store session,
      branchOf store courseId = session.branchFilter := by
  intro courseId hcourse
  by_contra hother
  have hmoved : branchOf (dashboardSync service p store (some session)).2 courseId =
      session.branchFilter := by
    rw [branchOf_dashboardSync service p hrole,
      if_pos ⟨Option.isSome_iff_ne_none.mpr hfilter, hcourse⟩]
  obtain ⟨credentials, _, hcredentials⟩ := h courseId (by rw [hmoved]; exact Ne.symm hother)
  rw [hmoved] at hcredentials
  exact hown ⟨credentials, hcredentials⟩

/-- A course that an owner's request moves is one it gets to, and moves to the filtered branch. -/
theorem moved_of_changed (hrole : session.role = .owner) {courseId : Int}
    (hchanged : branchOf (dashboardSync service p store (some session)).2 courseId ≠
      branchOf store courseId) :
    session.branchFilter.isSome = true ∧ courseId ∈ requestedCourses service p store session ∧
      branchOf (dashboardSync service p store (some session)).2 courseId =
        session.branchFilter := by
  rw [branchOf_dashboardSync service p hrole] at hchanged ⊢
  by_cases hreached : session.branchFilter.isSome = true ∧
      courseId ∈ requestedCourses service p store session
  · exact ⟨hreached.1, hreached.2, if_pos hreached⟩
  · rw [if_neg hreached] at hchanged
    exact absurd rfl hchanged

/-- A request steals no course exactly when it is not an owner's, has no filter, filters a branch
with credentials of its own, or gets only to courses that are in that branch already. -/
theorem stealsNoCourse_iff :
    StealsNoCourse service p store session ↔
      session.role ≠ .owner ∨ session.branchFilter = none ∨
        (∃ credentials, OwnCredentials store session.branchFilter credentials) ∨
        ∀ courseId ∈ requestedCourses service p store session,
          branchOf store courseId = session.branchFilter := by
  by_cases hrole : session.role = .owner
  · constructor
    · intro h
      by_cases hfilter : session.branchFilter = none
      · exact Or.inr (Or.inl hfilter)
      · by_cases hown : ∃ credentials, OwnCredentials store session.branchFilter credentials
        · exact Or.inr (Or.inr (Or.inl hown))
        · exact Or.inr (Or.inr (Or.inr
            (branchOf_of_stealsNoCourse service p hrole h hfilter hown)))
    · intro h courseId hchanged
      obtain ⟨hsome, hrequested, hmoved⟩ := moved_of_changed service p hrole hchanged
      rw [hmoved] at hchanged ⊢
      rcases h with h | h | ⟨credentials, hown⟩ | h
      · exact absurd hrole h
      · rw [h] at hsome
        cases hsome
      · obtain ⟨other, hclient⟩ := clientFor_of_requested service p hrequested
        exact ⟨credentials, clientFor_of_own hown (fits_of_clientFor hclient), hown⟩
      · exact absurd (h courseId hrequested).symm hchanged
  · refine ⟨fun _ => Or.inl hrole, fun _ courseId hchanged => ?_⟩
    have hsame : (dashboardSync service p store (some session)).2 = store := by
      simp only [dashboardSync, if_neg hrole]
    rw [hsame] at hchanged
    exact absurd rfl hchanged

end Request

/-- Two branches without credentials of their own, and a course of the second. -/
def twoBranches : Store :=
  let branches := (AutoTable.empty.insert ⟨"A", none, none⟩).insert ⟨"B", none, none⟩
  (({ Store.empty with branches } : Store).write (.course 10 (some "수학") .null none "api")).write
    (.courseBranch 10 (some 2))

/-- An owner who filters on the first branch. -/
def filteringOwner : Session :=
  ⟨"sid", "secret", .owner, none, "owner", none, none, some 1⟩

/-- A school whose course list has one course. -/
def oneCourse : ClassIn := fun _ call =>
  if call.action = "getCourseList" then .ok (.list [.object [("courseId", .int 10)]])
  else .error (.classInError 102)

/-- The course is moved to the first branch with the session's credentials. -/
theorem fallback_sync_steals_course :
    ¬∀ (service : ClassIn) (store : Store) (session : Session), session.role = .owner →
      StealsNoCourse service .plain store session := by
  intro h
  have hmoved : branchOf (dashboardSync oneCourse .plain twoBranches (some filteringOwner)).2 10 =
      some 1 := by decide
  have hbefore : branchOf twoBranches 10 = some 2 := by decide
  obtain ⟨credentials, _, id, branch, hid, hbranch, hown⟩ :=
    h oneCourse twoBranches filteringOwner rfl 10 (by rw [hmoved, hbefore]; decide)
  rw [hmoved] at hid
  obtain rfl := Option.some.inj hid
  have hfirst : twoBranches.branches.find 1 = some ⟨"A", none, none⟩ := by decide
  rw [hfirst] at hbranch
  obtain rfl := Option.some.inj hbranch
  cases hown

end ClassinDashboard

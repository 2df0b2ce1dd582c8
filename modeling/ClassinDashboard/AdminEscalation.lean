import ClassinDashboard.RoutesAdmin
import ClassinDashboard.ScopeVisibility

/-!
What a manager can see through the accounts they manage. An account shows the slice of its teacher,
and the form names that teacher freely; the manager's own slice is that of a branch. The accounts
stay inside the branch as long as the teachers they name do.
-/

namespace ClassinDashboard

open Py Sql

/-! ### Teachers inside a branch scope -/

namespace Store

variable (store : Store)

/-- The teachers of a branch scope. -/
def branchTeachers (branchId : Option Int) : Finset Int :=
  (store.teacherUidsInScope (.forBranch branchId)).getD ∅

/-- The courses of a branch scope. -/
def branchCourses (branchId : Option Int) : Finset Int :=
  (store.courseIdsInScope (.forBranch branchId)).getD ∅

end Store

/-- The teacher belongs to the branch, or all that the teacher has recorded lessons in or is the
main teacher of is among the courses of the branch scope anyway. -/
def Within (store : Store) (branchId : Option Int) (teacherUid : Int) : Prop :=
  teacherUid ∈ store.branchTeachers branchId ∨
    ∀ record ∈ store.allRecords,
      (record.teacher = some teacherUid →
        ∃ courseId ∈ store.branchCourses branchId, record.course = some courseId) ∧
      ∀ courseId, record.course = some courseId → LeadsCourse store teacherUid courseId →
        courseId ∈ store.branchCourses branchId

variable {store : Store}

theorem inScope_forBranch {branchId : Option Int} {record : LessonRecord} :
    record.inScope (store.scopeKeys (.forBranch branchId)) = true ↔
      (∃ courseId, record.course = some courseId ∧ courseId ∈ store.branchCourses branchId) ∨
        ∃ teacherUid, record.teacher = some teacherUid ∧
          teacherUid ∈ store.branchTeachers branchId := by
  have hkeys : store.scopeKeys (.forBranch branchId) =
      some (store.branchCourses branchId, store.branchTeachers branchId) := rfl
  rw [hkeys, LessonRecord.inScope, rowInScope, Bool.or_eq_true, isIn_iff, isIn_iff]
  rfl

theorem mem_branchCourses_of_leads {branchId : Option Int} {teacherUid courseId : Int}
    (hteacher : teacherUid ∈ store.branchTeachers branchId)
    (hlead : LeadsCourse store teacherUid courseId) : courseId ∈ store.branchCourses branchId := by
  obtain ⟨row, hrow, hmain⟩ := hlead
  exact Finset.mem_union_left _ (Finset.mem_union_right _ ((store.mem_courseIdsLedBy).mpr
    ⟨row, hrow, isIn_iff.mpr ⟨teacherUid, hmain, hteacher⟩⟩))

theorem mem_branchCourses_of_taught {branchId : Option Int} {teacherUid courseId : Int}
    (hteacher : teacherUid ∈ store.branchTeachers branchId)
    (htaught : TaughtCourse store teacherUid courseId) :
    courseId ∈ store.branchCourses branchId := by
  obtain ⟨key, cells, hrow, hcourse, htaught⟩ := htaught
  exact Finset.mem_union_right _ ((store.mem_courseIdsTaughtBy).mpr
    ⟨key, cells, hrow, hcourse, isIn_iff.mpr ⟨teacherUid, htaught, hteacher⟩⟩)

/-- The course of a recorded lesson was taught by the lesson's teacher. -/
theorem taughtCourse_of_record {record : LessonRecord} {teacherUid courseId : Int}
    (hrecord : record ∈ store.allRecords) (hcourse : record.course = some courseId)
    (hteacher : record.teacher = some teacherUid) : TaughtCourse store teacherUid courseId :=
  ⟨_, record.cells, mem_allRecords.mp hrecord, hcourse, hteacher⟩

/-- The slice of a teacher of the branch lies in the slice of the branch. -/
theorem inScope_of_member {branchId : Option Int} {teacherUid : Int} {record : LessonRecord}
    (hmember : teacherUid ∈ store.branchTeachers branchId)
    (hscope : record.inScope (store.scopeKeys (.forTeacher (some teacherUid))) = true) :
    record.inScope (store.scopeKeys (.forBranch branchId)) = true := by
  rw [inScope_forBranch]
  rcases inScope_forTeacher_iff.mp hscope with ⟨courseId, hcourse, hled | htaught⟩ | hteacher
  · exact Or.inl ⟨courseId, hcourse, mem_branchCourses_of_leads hmember hled⟩
  · exact Or.inl ⟨courseId, hcourse, mem_branchCourses_of_taught hmember htaught⟩
  · exact Or.inr ⟨teacherUid, hteacher, hmember⟩

/-- A teacher is within a branch exactly when the teacher's slice lies in the slice of the branch. -/
theorem within_iff {branchId : Option Int} {teacherUid : Int} :
    Within store branchId teacherUid ↔
      ∀ record ∈ store.allRecords,
        record.inScope (store.scopeKeys (.forTeacher (some teacherUid))) = true →
        record.inScope (store.scopeKeys (.forBranch branchId)) = true := by
  constructor
  · rintro (hmember | hcourses) record hrecord hscope
    · exact inScope_of_member hmember hscope
    · rw [inScope_forBranch]
      left
      rcases inScope_forTeacher_iff.mp hscope with ⟨courseId, hcourse, hled | htaught⟩ | hteacher
      · exact ⟨courseId, hcourse, (hcourses record hrecord).2 courseId hcourse hled⟩
      · -- the lesson that brought the course in is itself recorded
        obtain ⟨key, cells, hrow, hc, ht⟩ := htaught
        obtain ⟨c, hmem, hc'⟩ :=
          (hcourses ⟨key.1, key.2, cells⟩ (mem_allRecords.mpr hrow)).1 ht
        obtain rfl := Option.some.inj (hc.symm.trans hc')
        exact ⟨courseId, hcourse, hmem⟩
      · obtain ⟨courseId, hmem, hcourse⟩ := (hcourses record hrecord).1 hteacher
        exact ⟨courseId, hcourse, hmem⟩
  · intro h
    by_cases hmember : teacherUid ∈ store.branchTeachers branchId
    · exact Or.inl hmember
    · right
      intro record hrecord
      have hshown := h record hrecord
      rw [inScope_forTeacher_iff, inScope_forBranch] at hshown
      constructor
      · intro hteacher
        rcases hshown (Or.inr hteacher) with ⟨c, hc, hmem⟩ | ⟨t, ht, hmem⟩
        · exact ⟨c, hmem, hc⟩
        · obtain rfl := Option.some.inj (hteacher.symm.trans ht)
          exact absurd hmem hmember
      · intro courseId hcourse hled
        rcases hshown (Or.inl ⟨courseId, hcourse, Or.inl hled⟩) with ⟨c, hc, hmem⟩ | ⟨t, ht, hmem⟩
        · obtain rfl := Option.some.inj (hcourse.symm.trans hc)
          exact hmem
        · exact mem_branchCourses_of_taught hmem (taughtCourse_of_record hrecord hcourse ht)

/-- An account without a teacher sees nothing. -/
theorem not_inScope_forTeacher_none (record : LessonRecord) :
    record.inScope (store.scopeKeys (.forTeacher none)) = false := by
  have hkeys : store.scopeKeys (.forTeacher none) =
      some (store.courseIdsLedBy ∅ ∪ store.courseIdsTaughtBy ∅, ∅) := rfl
  rw [Bool.eq_false_iff, hkeys, LessonRecord.inScope, rowInScope, ne_eq, Bool.or_eq_true, isIn_iff,
    isIn_iff]
  simp [Store.mem_courseIdsLedBy, Store.mem_courseIdsTaughtBy]

/-! ### Runs of account requests -/

/-- The store, and the accounts that have got their password from the session. -/
structure AccountRun where
  store : Store
  passworded : List Int

/-- The account that a write gives a password to. -/
def UserWrite.passworded (store : Store) : UserWrite → List Int
  | .create _ => [store.users.seq + 1]
  | .password userId _ => [userId]
  | .active _ _ => []

namespace AccountRun

def write (run : AccountRun) (w : UserWrite) : AccountRun :=
  ⟨run.store.writeUser w, run.passworded ++ w.passworded run.store⟩

variable (pbkdf2 : Pbkdf2) (m : Session)

def step (run : AccountRun) (request : AccountRequest) : AccountRun :=
  Script.exec write (manageAccount pbkdf2 run.store (some m) request) run

def steps (run : AccountRun) (requests : List AccountRequest) : AccountRun :=
  requests.foldl (step pbkdf2 m) run

end AccountRun

/-- Whatever a login to one of the accounts shows, the session sees. -/
def StaysInScope (pbkdf2 : Pbkdf2) (settings : Credentials) (m : Session) (run : AccountRun) : Prop :=
  ∀ username password session,
    loginLocalUser pbkdf2 settings run.store username password = .ok (.granted session) →
    (∃ userId ∈ run.passworded, session.userId = some userId) →
    ∀ filter, lessonRecords run.store (scopeFor session run.store) filter ⊆
      lessonRecords run.store (scopeFor m run.store) filter

/-- The teacher of an account that the request creates or resets is within the manager's branch. -/
def RequestWithin (store : Store) (m : Session) : AccountRequest → Prop
  | .create _ form => ∀ teacherUid, Admits store m form (some teacherUid) →
      Within store m.branchId teacherUid
  | .active _ _ => True
  | .password _ userId password => stripText password ≠ "" →
      ∀ target, managedUser store m userId = some target →
        ∀ teacherUid, target.teacherUid = some teacherUid →
          Within store m.branchId teacherUid

/-- Every request of the run, in the store that it meets. -/
def RunWithin (pbkdf2 : Pbkdf2) (m : Session) (run : AccountRun) : List AccountRequest → Prop
  | [] => True
  | request :: requests =>
      RequestWithin run.store m request ∧ RunWithin pbkdf2 m (run.step pbkdf2 m request) requests

section Run

variable (pbkdf2 : Pbkdf2) {m : Session}

/-- Account writes leave the records, the courses and the teachers alone. -/
theorem within_writeUser (w : UserWrite) {branchId : Option Int} {teacherUid : Int} :
    Within (store.writeUser w) branchId teacherUid ↔ Within store branchId teacherUid := by
  cases w <;> exact Iff.rfl

/-- The accounts with a password from the session are teacher accounts within its branch. -/
def Tame (m : Session) (run : AccountRun) : Prop :=
  ∀ id row, (id, row) ∈ run.store.users.rows → (id : Int) ∈ run.passworded →
    row.role = .teacher ∧
      ∀ teacherUid, row.teacherUid = some teacherUid → Within run.store m.branchId teacherUid

theorem Tame.create {run : AccountRun} (h : Tame m run) {row : UserRow} (hrole : row.role = .teacher)
    (hwithin : ∀ teacherUid, row.teacherUid = some teacherUid →
      Within run.store m.branchId teacherUid) : Tame m (run.write (.create row)) := by
  intro id row' hrow hid
  simp only [within_writeUser, AccountRun.write]
  rcases List.mem_append.mp hrow with hold | hnew
  · -- the key of an old row is below the new one
    have hle := run.store.users.ids_le _ hold
    rcases List.mem_append.mp hid with hid | hid
    · exact h id row' hold hid
    · have heq := List.mem_singleton.mp hid
      dsimp only at hle
      omega
  · cases List.mem_singleton.mp hnew
    exact ⟨hrole, hwithin⟩

/-- An update that keeps role and teacher, of any account whose row is tame. -/
theorem Tame.update {run : AccountRun} (h : Tame m run) {w : UserWrite} {userId : Int}
    {f : UserRow → UserRow}
    (hwrite : (run.store.writeUser w).users = updateUser run.store.users userId f)
    (hkeeps : ∀ row, (f row).role = row.role ∧ (f row).teacherUid = row.teacherUid)
    (hnew : ∀ id row, (id, row) ∈ run.store.users.rows → (id : Int) ∈ w.passworded run.store →
      row.role = .teacher ∧
        ∀ teacherUid, row.teacherUid = some teacherUid → Within run.store m.branchId teacherUid) :
    Tame m (run.write w) := by
  intro id row hrow hid
  simp only [within_writeUser, AccountRun.write] at hrow ⊢
  rw [hwrite] at hrow
  obtain ⟨⟨id', old⟩, hold, heq⟩ := List.mem_map.mp hrow
  obtain ⟨rfl, rfl⟩ := Prod.mk.inj heq
  have htame : old.role = .teacher ∧
      ∀ teacherUid, old.teacherUid = some teacherUid → Within run.store m.branchId teacherUid := by
    rcases List.mem_append.mp hid with hid | hid
    · exact h id' old hold hid
    · exact hnew id' old hold hid
  dsimp only
  split
  · rw [(hkeeps old).1, (hkeeps old).2]
    exact htame
  · exact htame

/-- One request keeps the accounts tame. -/
theorem Tame.step (hrole : m.role = .manager) {run : AccountRun} (h : Tame m run)
    {request : AccountRequest} (hwithin : RequestWithin run.store m request) :
    Tame m (run.step pbkdf2 m request) := by
  have hnone {script : AccountScript AdminResponse} (hw : script.writes = []) :
      Tame m (Script.exec AccountRun.write script run) := by
    rw [Script.exec, hw]
    exact h
  have hone {script : AccountScript AdminResponse} {w : UserWrite} (hw : script.writes = [w])
      (htame : Tame m (run.write w)) : Tame m (Script.exec AccountRun.write script run) := by
    rw [Script.exec, hw]
    exact htame
  unfold AccountRun.step
  cases request with
  | create salt form =>
      rcases adminUserCreate_cases pbkdf2 hrole salt form with hw | ⟨teacherUid, hadmits, hw⟩
      · exact hnone hw
      · refine hone hw (h.create rfl fun uid huid => ?_)
        dsimp only at huid
        subst huid
        exact hwithin uid hadmits
  | active userId active =>
      rcases adminUserActive_cases m userId active with hw | hw
      · exact hnone hw
      · refine hone hw (h.update (f := fun row => { row with active := active ≠ 0 }) rfl
          (fun row => ⟨rfl, rfl⟩) fun id row _ hid => ?_)
        cases hid
  | password salt userId password =>
      rcases adminUserPassword_cases pbkdf2 hrole salt userId password with
        hw | ⟨hfilled, ⟨target, htarget⟩, hw⟩
      · exact hnone hw
      · refine hone hw (h.update (f := fun row => { row with
            passwordHash := hashPassword pbkdf2 salt (stripText password) }) rfl
          (fun row => ⟨rfl, rfl⟩) fun id row hrow hid => ?_)
        obtain ⟨hfind, hteacher, _⟩ := managedUser_manager hrole htarget
        obtain ⟨n, hn, hmem⟩ := AutoTable.mem_of_find hfind
        have hid : (id : Int) = userId := List.mem_singleton.mp hid
        obtain rfl : n = id := by omega
        obtain rfl := AutoTable.row_unique hmem hrow
        exact ⟨hteacher, hwithin hfilled target htarget⟩

theorem Tame.steps (hrole : m.role = .manager) {run : AccountRun} (h : Tame m run)
    {requests : List AccountRequest} (hwithin : RunWithin pbkdf2 m run requests) :
    Tame m (run.steps pbkdf2 m requests) := by
  induction requests generalizing run with
  | nil => exact h
  | cons request requests ih => exact ih (h.step pbkdf2 hrole hwithin.1) hwithin.2

/-- A login to a tame account shows no more than the manager sees. -/
theorem Tame.staysInScope (settings : Credentials) (hrole : m.role = .manager) {run : AccountRun}
    (h : Tame m run) : StaysInScope pbkdf2 settings m run := by
  intro username password session hlogin ⟨userId, hpassworded, huserId⟩ filter record hrecord
  obtain ⟨id, user, hrow, _, _, hid, hsessionRole, _, hteacherUid, _⟩ := granted_login pbkdf2 hlogin
  obtain rfl := Option.some.inj (huserId.symm.trans hid)
  obtain ⟨hteacher, hwithin⟩ := h id user hrow hpassworded
  have hscope : scopeFor session run.store = .forTeacher user.teacherUid := by
    simp only [scopeFor, hsessionRole, hteacher, hteacherUid]
  have hown : scopeFor m run.store = .forBranch m.branchId := by
    simp only [scopeFor, hrole]
  rw [hscope] at hrecord
  rw [hown]
  obtain ⟨hfind, hmatches, hin⟩ := mem_lessonRecords.mp hrecord
  refine mem_lessonRecords.mpr ⟨hfind, hmatches, ?_⟩
  cases huid : user.teacherUid with
  | none =>
      rw [huid, not_inScope_forTeacher_none] at hin
      cases hin
  | some teacherUid =>
      rw [huid] at hin
      exact within_iff.mp (hwithin teacherUid huid) record (mem_allRecords.mpr hfind) hin

/-- In a run whose requests name teachers within the manager's branch, no login to an account that
the manager created or reset shows more than the manager sees. -/
theorem managed_logins_stay_in_scope (settings : Credentials) (hrole : m.role = .manager)
    (store : Store) (requests : List AccountRequest)
    (hwithin : RunWithin pbkdf2 m ⟨store, []⟩ requests) :
    StaysInScope pbkdf2 settings m (AccountRun.steps pbkdf2 m ⟨store, []⟩ requests) := by
  have hinit : Tame m ⟨store, []⟩ := by
    intro id row _ hid
    cases hid
  exact (hinit.steps pbkdf2 hrole hwithin).staysInScope pbkdf2 settings hrole

end Run

/-- Two branches, and a lesson of a teacher of the second. -/
def schoolOfTwo : Store :=
  { Store.empty.runOps .plain
      [.deliver (taughtLesson "a" 1 8), .write (.teacherBranch 8 (some 2))] with
    branches := (AutoTable.empty.insert ⟨"A", none, none⟩).insert ⟨"B", none, none⟩ }

def managerOf (branchId : Int) : Session :=
  ⟨"sid", "secret", .manager, some 1, "kim", some branchId, none, none⟩

/-- A new account for teacher 8. -/
def createForEight : AccountRequest := .create [] ⟨"lee", "pw", "teacher", "", "8"⟩

/-- The manager of the teacher's own branch creates the account and resets its password. -/
theorem ownTeacher_stays_in_scope :
    StaysInScope (fun _ salt _ => salt) ⟨"sid", "secret"⟩ (managerOf 2)
      (AccountRun.steps (fun _ salt _ => salt) (managerOf 2) ⟨schoolOfTwo, []⟩
        [createForEight, .password [] 1 "new"]) := by
  refine managed_logins_stay_in_scope _ _ rfl _ _ ⟨?_, ?_, trivial⟩
  · intro uid hadmits
    have hint : intOrNone "8" = .ok (some 8) := by decide
    cases hint.symm.trans hadmits.teacher
    exact Or.inl (by decide)
  · intro _ target htarget uid huid
    have hfind := (managedUser_manager rfl htarget).1
    have height : (AccountRun.step (fun _ salt _ => salt) (managerOf 2) ⟨schoolOfTwo, []⟩
        createForEight).store.users.find 1 = some ⟨"lee", "pbkdf2$200000$$", .teacher, some 2, some 8,
          true⟩ := by decide
    cases height.symm.trans hfind
    cases huid
    exact Or.inl (by decide)

/-- The account that the manager of the first branch gets for teacher 8. -/
def spyAccount (pbkdf2 : Pbkdf2) : UserRow :=
  ⟨"lee", hashPassword pbkdf2 [] "pw", .teacher, some 1, some 8, true⟩

theorem spy_login (pbkdf2 : Pbkdf2) (settings : Credentials) :
    loginLocalUser pbkdf2 settings (schoolOfTwo.writeUser (.create (spyAccount pbkdf2))) "lee" "pw" =
      .ok (.granted (sessionOf settings (some ⟨"A", none, none⟩) 1 (spyAccount pbkdf2))) := by
  have huser : getUserByUsername (schoolOfTwo.writeUser (.create (spyAccount pbkdf2))) "lee" =
      some (1, spyAccount pbkdf2) := rfl
  have hverify : verifyPassword pbkdf2 (spyAccount pbkdf2).passwordHash "pw" = .ok true :=
    verifyPassword_hashPassword pbkdf2 [] "pw"
  simp only [loginLocalUser, huser, hverify]
  rfl

/-- The manager of the other branch creates an account for the teacher and sees the teacher's lessons
through it. -/
theorem foreignTeacher_account_escalates :
    ¬∃ pbkdf2 settings, ∀ m store requests, m.role = .manager →
      StaysInScope pbkdf2 settings m (AccountRun.steps pbkdf2 m ⟨store, []⟩ requests) := by
  rintro ⟨pbkdf2, settings, h⟩
  have hrun : AccountRun.steps pbkdf2 (managerOf 1) ⟨schoolOfTwo, []⟩ [createForEight] =
      ⟨schoolOfTwo.writeUser (.create (spyAccount pbkdf2)), [1]⟩ := rfl
  have hstays := h (managerOf 1) schoolOfTwo [createForEight] rfl
  rw [hrun] at hstays
  obtain ⟨cells, hcells⟩ : ∃ cells, schoolOfTwo.lessonRecords.find ("1", 9) = some cells :=
    Option.isSome_iff_exists.mp (by decide)
  have hteacher : cells .teacherUid = .int 8 := cell_of_map hcells (by decide)
  let record : LessonRecord := ⟨"1", 9, cells⟩
  have hmatches : RecordFilter.none.matches record = true := rfl
  have hshown : record ∈ lessonRecords (schoolOfTwo.writeUser (.create (spyAccount pbkdf2)))
      (.forTeacher (some 8)) .none := by
    rw [mem_lessonRecords, inScope_forTeacher_iff]
    exact ⟨hcells, hmatches, Or.inr (congrArg SqlValue.toInt? hteacher)⟩
  have hseen := hstays "lee" "pw" _ (spy_login pbkdf2 settings) ⟨1, List.mem_cons_self, rfl⟩ .none
    hshown
  obtain ⟨_, _, hscope⟩ := mem_lessonRecords.mp hseen
  have hcourses : schoolOfTwo.branchCourses (some 1) = ∅ := by decide
  have hteachers : schoolOfTwo.branchTeachers (some 1) = ∅ := by decide
  rcases inScope_forBranch.mp hscope with ⟨courseId, _, hmem⟩ | ⟨teacherUid, _, hmem⟩
  · have hmem : courseId ∈ schoolOfTwo.branchCourses (some 1) := hmem
    rw [hcourses] at hmem
    exact Finset.notMem_empty _ hmem
  · have hmem : teacherUid ∈ schoolOfTwo.branchTeachers (some 1) := hmem
    rw [hteachers] at hmem
    exact Finset.notMem_empty _ hmem

end ClassinDashboard

import ClassinDashboard.RoutesBranches
import ClassinDashboard.Runs

/-!
Branch ids of courses, teachers and accounts. Requests run concurrently and commit statement by
statement, so between any two statements of one request a branch may be deleted by another.
-/

namespace ClassinDashboard

open Py Sql

/-- A branch id names a branch, or is NULL. -/
def BranchIn (store : Store) (branchId : Option Int) : Prop :=
  ∀ id, branchId = some id → branchExists store id = true

/-- Every branch id in `courses`, `teachers` and `users` is the id of a branch. -/
structure BranchRefsExist (store : Store) : Prop where
  courses : ∀ courseId row, store.courses.find courseId = some row → BranchIn store row.branchId
  teachers : ∀ uid row, store.teachers.find uid = some row → BranchIn store row.branchId
  users : ∀ id row, (id, row) ∈ store.users.rows → BranchIn store row.branchId

/-- The branch that a statement writes into a row is there at that moment. -/
def Statement.NamesBranch (store : Store) : Statement → Prop
  | .write (.courseBranch courseId branchId) =>
      (store.courses.find courseId).isSome → BranchIn store branchId
  | .write (.teacherBranch uid branchId) =>
      (store.teachers.find uid).isSome → BranchIn store branchId
  | .createUser row => getUserByUsername store row.username = none → BranchIn store row.branchId
  | _ => True

/-! ### Any number of sessions at once -/

/-- The store, the sessions by token, and what the requests in flight have still to commit. -/
structure Office where
  store : Store
  sessions : String → Option Session
  running : List (List Statement)

inductive OfficeAction
  /-- A request comes in under the session of a token. -/
  | request (token : String) (request : BranchRequest)
  /-- A request in flight commits its next statement. -/
  | commit (index : Nat)
  /-- An owner switches the branch filter. -/
  | branchScope (token branchId : String)

variable (p : Platform) (pbkdf2 : Pbkdf2)

/-- The branch switch of an owner. -/
def switchFilter (session : Session) (branchId : String) : Session :=
  if session.role = .owner then
    match branchFilterOf branchId with
    | .ok filter => { session with branchFilter := filter }
    | .error _ => session
  else session

/-- The next statement of a request in flight. -/
def Office.next (office : Office) (index : Nat) : Option Statement :=
  office.running[index]?.bind List.head?

def Office.step (office : Office) : OfficeAction → Office
  | .request token request =>
      { office with
        running := office.running
          ++ [request.statements p pbkdf2 office.store (office.sessions token)] }
  | .commit index =>
      match office.next index with
      | none => office
      | some statement =>
          { office with
            store := statement.run office.store
            running := office.running.modify index List.tail }
  | .branchScope token branchId =>
      { office with
        sessions := Function.update office.sessions token
          ((office.sessions token).map fun session => switchFilter session branchId) }

/-- Whatever an action commits names a branch that is there. -/
def OfficeAction.NamesBranch (office : Office) : OfficeAction → Prop
  | .commit index => ∀ statement, office.next index = some statement →
      statement.NamesBranch office.store
  | .request _ _ | .branchScope _ _ => True

/-! ### One statement -/

theorem branchExists_iff {store : Store} {id : Int} :
    branchExists store id = true ↔ ∃ n row, (n, row) ∈ store.branches.rows ∧ (n : Int) = id := by
  simp [branchExists]

/-- Branches that stay keep every reference to them. -/
theorem BranchIn.mono {store store' : Store} {branchId : Option Int} (h : BranchIn store branchId)
    (hstay : ∀ id, branchExists store id = true → branchExists store' id = true) :
    BranchIn store' branchId := fun id hid => hstay id (h id hid)

theorem branchIn_none (store : Store) : BranchIn store none := fun _ h => nomatch h

/-- A statement that leaves the branches and writes no branch id but NULL or an old one. -/
theorem BranchRefsExist.of_rows {store store' : Store} (h : BranchRefsExist store)
    (hstay : ∀ id, branchExists store id = true → branchExists store' id = true)
    (hcourses : ∀ courseId row, store'.courses.find courseId = some row →
      BranchIn store' row.branchId ∨
        ∃ courseId old, store.courses.find courseId = some old ∧ old.branchId = row.branchId)
    (hteachers : ∀ uid row, store'.teachers.find uid = some row →
      BranchIn store' row.branchId ∨
        ∃ uid old, store.teachers.find uid = some old ∧ old.branchId = row.branchId)
    (husers : ∀ id row, (id, row) ∈ store'.users.rows →
      BranchIn store' row.branchId ∨
        ∃ id old, (id, old) ∈ store.users.rows ∧ old.branchId = row.branchId) :
    BranchRefsExist store' := by
  refine ⟨fun courseId row hrow => ?_, fun uid row hrow => ?_, fun id row hrow => ?_⟩
  · rcases hcourses courseId row hrow with hin | ⟨courseId', old, hold, hbranch⟩
    · exact hin
    · exact hbranch ▸ (h.courses courseId' old hold).mono hstay
  · rcases hteachers uid row hrow with hin | ⟨uid', old, hold, hbranch⟩
    · exact hin
    · exact hbranch ▸ (h.teachers uid' old hold).mono hstay
  · rcases husers id row hrow with hin | ⟨id', old, hold, hbranch⟩
    · exact hin
    · exact hbranch ▸ (h.users id' old hold).mono hstay

section Statements

variable {store : Store}

/-- A row after an update is the updated one, with the branch it was given, or was there before. -/
theorem branch_of_modify {κ ρ : Type} [DecidableEq κ] (branch : ρ → Option Int) {table : Table κ ρ}
    {key key' : κ} {row : ρ} {f : ρ → ρ} {branchId : Option Int}
    (hrow : (table.modify key f).find key' = some row) (hf : ∀ row, branch (f row) = branchId) :
    ((table.find key).isSome ∧ branch row = branchId) ∨ table.find key' = some row := by
  by_cases hkey : key' = key
  · rw [hkey, Table.find_modify_self] at hrow
    obtain ⟨old, hold, rfl⟩ := Option.map_eq_some_iff.mp hrow
    exact Or.inl ⟨Option.isSome_of_mem hold, hf old⟩
  · rw [Table.find_modify_of_ne table hkey] at hrow
    exact Or.inr hrow

theorem refs_courseBranch_iff (h : BranchRefsExist store) (courseId : Int) (branchId : Option Int) :
    BranchRefsExist (store.write (.courseBranch courseId branchId)) ↔
      (Statement.write (.courseBranch courseId branchId)).NamesBranch store := by
  have hfind : (store.write (.courseBranch courseId branchId)).courses.find courseId =
      (store.courses.find courseId).map fun row => { row with branchId } :=
    Table.find_modify_self ..
  constructor
  · intro hafter hsome
    obtain ⟨row, hrow⟩ := Option.isSome_iff_exists.mp hsome
    rw [hrow] at hfind
    exact hafter.courses courseId _ hfind
  · intro hnames
    refine h.of_rows (fun _ hid => hid) (fun key row hrow => ?_)
      (fun uid row hrow => Or.inr ⟨uid, row, hrow, rfl⟩) (fun id row hrow => Or.inr ⟨id, row, hrow, rfl⟩)
    rcases branch_of_modify CourseRow.branchId hrow fun _ => rfl with ⟨hsome, hbranch⟩ | hold
    · exact Or.inl (hbranch ▸ hnames hsome)
    · exact Or.inr ⟨key, row, hold, rfl⟩

theorem refs_teacherBranch_iff (h : BranchRefsExist store) (uid : Int) (branchId : Option Int) :
    BranchRefsExist (store.write (.teacherBranch uid branchId)) ↔
      (Statement.write (.teacherBranch uid branchId)).NamesBranch store := by
  have hfind : (store.write (.teacherBranch uid branchId)).teachers.find uid =
      (store.teachers.find uid).map fun row => { row with branchId } :=
    Table.find_modify_self ..
  constructor
  · intro hafter hsome
    obtain ⟨row, hrow⟩ := Option.isSome_iff_exists.mp hsome
    rw [hrow] at hfind
    exact hafter.teachers uid _ hfind
  · intro hnames
    refine h.of_rows (fun _ hid => hid) (fun courseId row hrow => Or.inr ⟨courseId, row, hrow, rfl⟩)
      (fun key row hrow => ?_) (fun id row hrow => Or.inr ⟨id, row, hrow, rfl⟩)
    rcases branch_of_modify TeacherRow.branchId hrow fun _ => rfl with ⟨hsome, hbranch⟩ | hold
    · exact Or.inl (hbranch ▸ hnames hsome)
    · exact Or.inr ⟨key, row, hold, rfl⟩

/-- An upsert inserts a row without a branch, or leaves the branch of the row that was there. -/
theorem branch_of_upsert {κ ρ : Type} [DecidableEq κ] (branch : ρ → Option Int) {table : Table κ ρ}
    {key key' : κ} {new row : ρ} {f : ρ → ρ}
    (hrow : (table.upsert key new f).find key' = some row) (hnew : branch new = none)
    (hf : ∀ row, branch (f row) = branch row) :
    branch row = none ∨ ∃ key old, table.find key = some old ∧ branch old = branch row := by
  by_cases hkey : key' = key
  · rw [hkey, Table.find_upsert_self] at hrow
    cases hfind : table.find key with
    | none =>
        rw [hfind] at hrow
        cases hrow
        exact Or.inl hnew
    | some old =>
        rw [hfind] at hrow
        cases hrow
        exact Or.inr ⟨key, old, hfind, (hf old).symm⟩
  · rw [Table.find_upsert_of_ne table hkey] at hrow
    exact Or.inr ⟨key', row, hrow, rfl⟩

/-- The other writes put a row in without a branch, or leave the branch of a row. -/
theorem refs_write_iff (h : BranchRefsExist store) (w : Write) :
    BranchRefsExist (store.write w) ↔ (Statement.write w).NamesBranch store := by
  have hnone {row : Option Int} (hrow : row = none) : BranchIn (store.write w) row :=
    hrow ▸ branchIn_none _
  cases w with
  | courseBranch courseId branchId => exact refs_courseBranch_iff h courseId branchId
  | teacherBranch uid branchId => exact refs_teacherBranch_iff h uid branchId
  | record lessonId uid fields => exact iff_of_true ⟨h.courses, h.teachers, h.users⟩ trivial
  | student uid name named => exact iff_of_true ⟨h.courses, h.teachers, h.users⟩ trivial
  | lesson lessonId row => exact iff_of_true ⟨h.courses, h.teachers, h.users⟩ trivial
  | course courseId name teacherUid teacherName createdVia =>
      refine iff_of_true (h.of_rows (fun _ hid => hid) (fun key row hrow => ?_)
        (fun uid row hrow => Or.inr ⟨uid, row, hrow, rfl⟩)
        fun id row hrow => Or.inr ⟨id, row, hrow, rfl⟩) trivial
      exact (branch_of_upsert CourseRow.branchId hrow rfl fun _ => rfl).imp_left hnone
  | teacher uid name =>
      refine iff_of_true (h.of_rows (fun _ hid => hid)
        (fun courseId row hrow => Or.inr ⟨courseId, row, hrow, rfl⟩) (fun key row hrow => ?_)
        fun id row hrow => Or.inr ⟨id, row, hrow, rfl⟩) trivial
      exact (branch_of_upsert TeacherRow.branchId hrow rfl fun _ => rfl).imp_left hnone

/-- Adding a branch takes none away. -/
theorem branchExists_upsertBranch {name : String} {sid secret : Option String} {id : Int}
    (h : branchExists store id = true) : branchExists (upsertBranch store name sid secret) id = true := by
  obtain ⟨n, row, hrow, hid⟩ := branchExists_iff.mp h
  rw [branchExists_iff, upsertBranch]
  split
  · exact ⟨n, _, List.mem_map.mpr ⟨(n, row), hrow, rfl⟩, hid⟩
  · exact ⟨n, row, List.mem_append_left _ hrow, hid⟩

theorem refs_upsertBranch (h : BranchRefsExist store) (name : String) (sid secret : Option String) :
    BranchRefsExist (upsertBranch store name sid secret) := by
  have hcourses : (upsertBranch store name sid secret).courses = store.courses := by
    unfold upsertBranch
    split <;> rfl
  have hteachers : (upsertBranch store name sid secret).teachers = store.teachers := by
    unfold upsertBranch
    split <;> rfl
  have husers : (upsertBranch store name sid secret).users = store.users := by
    unfold upsertBranch
    split <;> rfl
  refine h.of_rows (fun _ => branchExists_upsertBranch) ?_ ?_ ?_
  · intro courseId row hrow
    rw [hcourses] at hrow
    exact Or.inr ⟨courseId, row, hrow, rfl⟩
  · intro uid row hrow
    rw [hteachers] at hrow
    exact Or.inr ⟨uid, row, hrow, rfl⟩
  · intro id row hrow
    rw [husers] at hrow
    exact Or.inr ⟨id, row, hrow, rfl⟩

theorem branchUsed_eq_false {branchId : Int} (h : branchUsed store branchId = false) :
    (∀ courseId row, store.courses.find courseId = some row → row.branchId ≠ some branchId) ∧
      (∀ uid row, store.teachers.find uid = some row → row.branchId ≠ some branchId) ∧
      ∀ id row, (id, row) ∈ store.users.rows → row.branchId ≠ some branchId := by
  simp only [branchUsed, Bool.or_eq_false_iff, List.any_eq_false, decide_eq_true_eq] at h
  obtain ⟨⟨hcourses, hteachers⟩, husers⟩ := h
  refine ⟨fun courseId row hrow => ?_, fun uid row hrow => ?_, fun id row hrow => husers _ hrow⟩
  · exact hcourses _ ((Table.mem_rows_iff _ _ _).mpr hrow)
  · exact hteachers _ ((Table.mem_rows_iff _ _ _).mpr hrow)

/-- Deletion checks all three tables, in the same transaction. -/
theorem refs_deleteBranch (h : BranchRefsExist store) (branchId : Int) :
    BranchRefsExist (deleteBranch store branchId).2 := by
  unfold deleteBranch
  cases hused : branchUsed store branchId with
  | true => exact h
  | false =>
      obtain ⟨hcourses, hteachers, husers⟩ := branchUsed_eq_false hused
      have hstay {id : Option Int} (hin : BranchIn store id) (hother : id ≠ some branchId) :
          BranchIn (deleteBranch store branchId).2 id := by
        rintro b rfl
        obtain ⟨n, row, hrow, hid⟩ := branchExists_iff.mp (hin b rfl)
        have hne : (n : Int) ≠ branchId := by
          rw [hid]
          simpa using hother
        simp only [deleteBranch, hused, Bool.false_eq_true, if_false]
        refine branchExists_iff.mpr ⟨n, row, List.mem_filter.mpr ⟨hrow, ?_⟩, hid⟩
        simpa using hne
      simp only [deleteBranch, hused, Bool.false_eq_true, if_false] at hstay ⊢
      exact ⟨fun courseId row hrow => hstay (h.courses courseId row hrow) (hcourses courseId row hrow),
        fun uid row hrow => hstay (h.teachers uid row hrow) (hteachers uid row hrow),
        fun id row hrow => hstay (h.users id row hrow) (husers id row hrow)⟩

theorem refs_createUser_iff (h : BranchRefsExist store) (row : UserRow) :
    BranchRefsExist ((Statement.createUser row).run store) ↔
      (Statement.createUser row).NamesBranch store := by
  simp only [Statement.run, Statement.NamesBranch]
  cases hname : getUserByUsername store row.username with
  | some entry => exact iff_of_true h fun h => nomatch h
  | none =>
      constructor
      · intro hafter _
        exact hafter.users (store.users.seq + 1) row
          (List.mem_append_right _ (List.mem_singleton.mpr rfl))
      · intro hnames
        refine h.of_rows (fun _ hid => hid) (fun key row hrow => Or.inr ⟨key, row, hrow, rfl⟩)
          (fun key row hrow => Or.inr ⟨key, row, hrow, rfl⟩) fun id new hnew => ?_
        rcases List.mem_append.mp hnew with hold | hnew
        · exact Or.inr ⟨id, new, hold, rfl⟩
        · cases List.mem_singleton.mp hnew
          exact Or.inl (hnames rfl)

/-- A statement keeps every reference to a branch exactly when it names one that is there. -/
theorem refs_statement_iff (h : BranchRefsExist store) (statement : Statement) :
    BranchRefsExist (statement.run store) ↔ statement.NamesBranch store := by
  cases statement with
  | write w => exact refs_write_iff h w
  | upsertBranch name sid secret => exact iff_of_true (refs_upsertBranch h name sid secret) trivial
  | deleteBranch branchId => exact iff_of_true (refs_deleteBranch h branchId) trivial
  | createUser row => exact refs_createUser_iff h row

end Statements

/-! ### Interleaved requests -/

variable {p pbkdf2}

theorem refs_step_iff {office : Office} (h : BranchRefsExist office.store) (action : OfficeAction) :
    BranchRefsExist (office.step p pbkdf2 action).store ↔ action.NamesBranch office := by
  cases action with
  | request token request => exact iff_of_true h trivial
  | branchScope token branchId => exact iff_of_true h trivial
  | commit index =>
      simp only [Office.step, OfficeAction.NamesBranch]
      cases office.next index with
      | none => exact iff_of_true h fun _ h => nomatch h
      | some statement =>
          simp only [Option.some.injEq, forall_eq']
          exact refs_statement_iff h statement

/-- However the requests of any sessions interleave, no branch reference dangles at any moment exactly
when every statement names a branch that is there when it is committed. -/
theorem branchRefs_run_iff (p : Platform) (pbkdf2 : Pbkdf2) (store : Store)
    (sessions : String → Option Session) (hstore : BranchRefsExist store)
    (actions : List OfficeAction) :
    Runs.Always (Office.step p pbkdf2) (fun office => BranchRefsExist office.store)
        ⟨store, sessions, []⟩ actions ↔
      Runs.EachStep (Office.step p pbkdf2) (fun office action => action.NamesBranch office)
        ⟨store, sessions, []⟩ actions :=
  Runs.always_iff_eachStep (fun _ action h => refs_step_iff h action) hstore

theorem branchRefs_empty : BranchRefsExist .empty where
  courses _ _ h := nomatch h
  teachers _ _ h := nomatch h
  users _ _ h := absurd h List.not_mem_nil

/-- One owner, without an account. -/
def ownerOnly : String → Option Session := fun token =>
  if token = "o" then some ⟨"sid", "secret", .owner, none, "owner", none, none, none⟩ else none

/-- A course of no branch. -/
def unassignedCourse : Store := Store.empty.write (.course 3 (some "수학") .null none "webhook")

/-- A branch is added, gets the course, and is deleted again. -/
def assignAndDelete : List OfficeAction :=
  [.request "o" (.addBranch "본관" "" ""), .commit 0,
    .request "o" (.courseBranch [("course_branch_3", "1")]), .commit 1,
    .request "o" (.removeBranch 1), .commit 2]

theorem branchRefs_assignAndDelete :
    (((assignAndDelete.take 4).foldl (Office.step .plain fun _ _ _ => [])
        ⟨unassignedCourse, ownerOnly, []⟩).store.courses.find 3).map CourseRow.branchId = some (some 1) ∧
      Runs.Always (Office.step .plain fun _ _ _ => []) (fun office => BranchRefsExist office.store)
        ⟨unassignedCourse, ownerOnly, []⟩ assignAndDelete := by
  refine ⟨by decide, (branchRefs_run_iff .plain (fun _ _ _ => []) unassignedCourse ownerOnly
    ((refs_write_iff branchRefs_empty _).mpr trivial) assignAndDelete).mpr ?_⟩
  refine ⟨trivial, fun statement h => ?_, trivial, fun statement h => ?_, trivial, fun statement h => ?_,
    trivial⟩
  · cases h
    trivial
  · cases h
    intro _ id hid
    cases hid
    decide
  · cases h
    trivial

/-- The form of the assignment screen, with a branch that was never there. -/
def assignToMissing : List OfficeAction :=
  [.request "o" (.courseBranch [("course_branch_3", "99")]), .commit 0]

theorem assigned_branch_missing :
    BranchRefsExist unassignedCourse ∧
      ¬Runs.Always (Office.step .plain fun _ _ _ => []) (fun office => BranchRefsExist office.store)
        ⟨unassignedCourse, ownerOnly, []⟩ assignToMissing := by
  constructor
  · exact (refs_write_iff branchRefs_empty _).mpr trivial
  · intro h
    have hafter := Runs.always_iff_prefix.mp h assignToMissing (List.prefix_refl _)
    have hcourse : (assignToMissing.foldl (Office.step .plain fun _ _ _ => [])
        ⟨unassignedCourse, ownerOnly, []⟩).store.courses.find 3 =
          some ⟨some "수학", .null, none, "webhook", some 99⟩ := by decide
    have hmissing := hafter.courses 3 _ hcourse 99 rfl
    revert hmissing
    decide

end ClassinDashboard

import ClassinDashboard.Reads
import ClassinDashboard.Sessions

/-!
Branches of the admin screen: adding and deleting them, and assigning courses and teachers to them in
bulk from the fields of a form.
-/

namespace ClassinDashboard

open Py Sql

/-! ### The table of branches -/

/-- `INSERT ... ON CONFLICT(name) DO UPDATE`; credentials that are not given stay. -/
def upsertBranch (store : Store) (name : String) (sid secret : Option String) : Store :=
  if store.branches.rows.any fun b => b.2.name = name then
    { store with
      branches := store.branches.skip.update fun _ row =>
        if row.name = name then { row with sid := sid.or row.sid, secret := secret.or row.secret }
        else row }
  else { store with branches := store.branches.insert ⟨name, sid, secret⟩ }

/-- A course, a teacher or an account is assigned to the branch. -/
def branchUsed (store : Store) (branchId : Int) : Bool :=
  (store.courses.rows.any fun c => c.2.branchId = some branchId)
    || (store.teachers.rows.any fun t => t.2.branchId = some branchId)
    || store.users.rows.any fun u => u.2.branchId = some branchId

/-- Delete a branch only when nothing is assigned to it; whether it was deleted. -/
def deleteBranch (store : Store) (branchId : Int) : Bool × Store :=
  if branchUsed store branchId then (false, store)
  else (true, { store with branches := store.branches.delete fun id _ => (id : Int) = branchId })

/-! ### Bulk assignment -/

/-- `key.removeprefix(prefix)` of a key that starts with it. -/
def suffixOf (start key : String) : Option String :=
  if start.toList.isPrefixOf key.toList then
    some (String.ofList (key.toList.drop start.toList.length))
  else none

/-- One field of the form. -/
def assignItem (start : String) (setter : Int → Option Int → StoreScript Unit)
    (item : String × String) : StoreScript Unit :=
  match suffixOf start item.1 with
  | none => pure ()
  | some rest => do
      match ← Script.lift (intOrNone rest) with
      | none => pure ()
      | some target => do
          let branchId ← Script.lift (intOrNone item.2)
          setter target branchId

/-- The field names a target. -/
def assigns (start : String) (item : String × String) : Bool :=
  match (suffixOf start item.1).map intOrNone with
  | some (.ok (some _)) => true
  | _ => false

/-- Every field of the form that starts with the prefix; the number of assignments. -/
def assign (form : List (String × String)) (start : String)
    (setter : Int → Option Int → StoreScript Unit) : StoreScript Nat := do
  Script.each form (assignItem start setter)
  pure (form.countP (assigns start))

def assignCourses (form : List (String × String)) : StoreScript Nat :=
  assign form "course_branch_" setCourseBranch

def assignTeachers (form : List (String × String)) : StoreScript Nat :=
  assign form "teacher_branch_" setTeacherBranch

/-! ### Statements -/

/-- A statement that a request commits on its own. -/
inductive Statement
  | write (w : Write)
  | upsertBranch (name : String) (sid secret : Option String)
  | deleteBranch (branchId : Int)
  /-- The insert of an account, which its unique username may refuse. -/
  | createUser (row : UserRow)

def Statement.run (store : Store) : Statement → Store
  | .write w => store.write w
  | .upsertBranch name sid secret => ClassinDashboard.upsertBranch store name sid secret
  | .deleteBranch branchId => (ClassinDashboard.deleteBranch store branchId).2
  | .createUser row =>
      if (getUserByUsername store row.username).isSome then store else store.writeUser (.create row)

/-- The insert of a new account; nothing else is written when one is created. -/
def UserWrite.statement? : UserWrite → Option Statement
  | .create row => some (.createUser row)
  | .active _ _ | .password _ _ => none

/-- A request that works on branches or on what is assigned to them. -/
inductive BranchRequest
  | addBranch (name sid secret : String)
  | removeBranch (branchId : Int)
  | courseBranch (form : List (String × String))
  | teacherBranch (form : List (String × String))
  | createUser (salt : List UInt8) (form : UserForm)
  | sync (service : ClassIn)

variable (p : Platform) (pbkdf2 : Pbkdf2) (store : Store) (session : Option Session)

/-- A blank form field is no credential. -/
def filled (text : String) : Option String := some (stripText text) |>.filter (· ≠ "")

/-- `POST /admin/branch/add`. -/
def adminBranchAdd (name sid secret : String) : List Statement :=
  match guard session [.owner] with
  | .error _ => []
  | .ok _ =>
      if stripText name = "" then []
      else [.upsertBranch (stripText name) (filled sid) (filled secret)]

/-- `POST /admin/branch/delete`. -/
def adminBranchDelete (branchId : Int) : List Statement :=
  match guard session [.owner] with
  | .error _ => []
  | .ok _ => if SqlValue.inRange branchId then [.deleteBranch branchId] else []

/-- `POST /admin/course/branch` and `POST /admin/teacher/branch`. -/
def adminAssign (script : StoreScript Nat) : List Statement :=
  match guard session [.owner] with
  | .error _ => []
  | .ok _ => script.writes.map .write

/-- The statements of a sync: the filter is read once, when the request comes in. -/
def syncStatements (service : ClassIn) : List Statement :=
  match session with
  | none => []
  | some session =>
      if session.role = .owner then
        match clientFor store session session.branchFilter with
        | .error _ => []
        | .ok credentials =>
            (syncMasters service credentials p session.branchFilter).writes.map .write
      else []

/-- The statements a request is going to commit, in order. -/
def BranchRequest.statements : BranchRequest → List Statement
  | .addBranch name sid secret => adminBranchAdd session name sid secret
  | .removeBranch branchId => adminBranchDelete session branchId
  | .courseBranch form => adminAssign session (assignCourses form)
  | .teacherBranch form => adminAssign session (assignTeachers form)
  | .createUser salt form =>
      (adminUserCreate pbkdf2 store session salt form).writes.filterMap UserWrite.statement?
  | .sync service => syncStatements p store session service

end ClassinDashboard

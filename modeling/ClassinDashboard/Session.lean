import ClassinDashboard.Scope

/-! Sessions, the scope derived from one, and the ClassIn credentials a session calls with. -/

namespace ClassinDashboard

open Py Sql

structure Session where
  sid : String
  secret : String
  role : Role
  userId : Option Int
  username : String
  branchId : Option Int
  teacherUid : Option Int
  /-- The owner's branch switch. -/
  branchFilter : Option Int

/-- The SID and secret that a ClassIn call is signed with. -/
structure Credentials where
  sid : String
  secret : String
  deriving DecidableEq

def branchExists (store : Store) (branchId : Int) : Bool :=
  store.branches.rows.any fun b => (b.1 : Int) = branchId

/-- The scope of a session: everything or the filtered branch for owners, the own branch for
managers, the own uid for teachers. -/
def scopeFor (session : Session) (store : Store) : Scope :=
  match session.role with
  | .owner =>
      match session.branchFilter with
      | none => .all
      | some branchId => if branchExists store branchId then .forBranch (some branchId) else .all
  | .manager => .forBranch session.branchId
  | .teacher => .forTeacher session.teacherUid

def getBranch (store : Store) (branchId : Option Int) : Except PyError (Option BranchRow) :=
  match branchId with
  | none => .ok none
  | some id => (bindKey id).map store.branches.find

/-- Both the SID and the secret of a branch, when neither is empty. -/
def BranchRow.credentials (branch : BranchRow) : Option Credentials :=
  match branch.sid.filter (· ≠ ""), branch.secret.filter (· ≠ "") with
  | some sid, some secret => some ⟨sid, secret⟩
  | _, _ => none

/-- The branch's own credentials win over the session's when both are set. -/
def clientFor (store : Store) (session : Session) (branchId : Option Int) :
    Except PyError Credentials :=
  (getBranch store branchId).map fun branch =>
    (branch.bind BranchRow.credentials).getD ⟨session.sid, session.secret⟩

end ClassinDashboard

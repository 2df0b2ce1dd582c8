import ClassinDashboard.CreateEffects
import ClassinDashboard.Reads
import ClassinDashboard.RoutesBranches

/-!
Which account the calls of a request are signed with. A sync asks the account of the selected branch
alone; a create request asks the account of the session, whatever branch is selected.
-/

namespace ClassinDashboard

open Py Sql

/-- The SID and secret of the branch that the switch selects, when it has both, else the session's. -/
def accountOf (store : Store) (session : Session) : Credentials :=
  ((session.branchFilter.bind store.branches.find).bind BranchRow.credentials).getD
    ⟨session.sid, session.secret⟩

theorem clientFor_eq_account {store : Store} {session : Session} {credentials : Credentials}
    (h : clientFor store session session.branchFilter = .ok credentials) :
    credentials = accountOf store session := by
  obtain ⟨branch, hbranch, rfl⟩ := map_eq_ok.mp h
  have hrow : branch = session.branchFilter.bind store.branches.find := by
    unfold getBranch at hbranch
    cases hfilter : session.branchFilter with
    | none =>
        rw [hfilter] at hbranch
        exact (Except.ok.inj hbranch).symm
    | some branchId =>
        rw [hfilter] at hbranch
        obtain ⟨key, hkey, hfind⟩ := map_eq_ok.mp hbranch
        rw [← hfind, bindKey_eq hkey, Option.bind_some]
  rw [accountOf, hrow]

/-! ### Sync -/

/-- Every call goes to one account: a service that answers that account alike, and every other one
with whatever it likes, makes no difference. -/
def SignedWith {α : Type} (run : ClassIn → α) (credentials : Credentials) : Prop :=
  ∀ service service', service credentials = service' credentials → run service = run service'

section Sync

variable {service service' : ClassIn} {credentials : Credentials}

theorem readRows_congr (h : service credentials = service' credentials) :
    readRows service credentials = readRows service' credentials := by
  funext call keys
  rw [readRows, readRows, tryCall, tryCall, h]

theorem courseClasses_congr (h : service credentials = service' credentials) :
    courseClasses service credentials = courseClasses service' credentials := by
  funext courseId
  rw [courseClasses, courseClasses, readRows_congr h]

variable (p : Platform)

theorem syncCourse_congr (h : service credentials = service' credentials) :
    syncCourse service credentials p = syncCourse service' credentials p := by
  have hclasses : syncClasses service credentials p = syncClasses service' credentials p := by
    funext courseId
    rw [syncClasses, syncClasses, courseClasses_congr h]
  funext branchId row
  simp only [syncCourse, hclasses]

theorem syncMasters_congr (h : service credentials = service' credentials) :
    syncMasters service credentials p = syncMasters service' credentials p := by
  have hcount : countClasses service credentials = countClasses service' credentials := by
    funext row
    simp only [countClasses, courseClasses_congr h]
  funext branchId
  simp only [syncMasters, courseList, studentList, teacherList, readRows_congr h, syncCourse_congr p h,
    hcount]

theorem dashboardSync_signed (store : Store) (session : Session) :
    SignedWith (fun service => dashboardSync service p store (some session))
      (accountOf store session) := by
  intro service service' h
  simp only [dashboardSync]
  cases hclient : clientFor store session session.branchFilter with
  | error e => rfl
  | ok credentials =>
      have hmasters := syncMasters_congr p (clientFor_eq_account hclient ▸ h)
      simp only [hmasters]

end Sync

/-! ### Create -/

section Create

variable (p : Platform) (answers : Answers) {store : Store} {session : Session}

theorem createExecute_signed {form : CreateForm} {place : Place} {credentials : Credentials}
    {body : WriteCall}
    (h : .call place credentials body ∈ (createExecute p answers store (some session) form).writes) :
    credentials = ⟨session.sid, session.secret⟩ := by
  obtain ⟨_, _, _, _, _, _, ⟨line, hline⟩ | ⟨teacherUid, _, heffect⟩⟩ := mem_createExecute h
  · cases hline
  · cases heffect with
    | addCourse => rfl
    | inside h => cases h <;> rfl

/-- A plan of one course to be asked for, whatever else the form holds. -/
def mathCourse : CreateForm where
  plan := .ok [⟨"수학", none, [], some 7, none, none⟩]
  field _ := none

theorem checkedPlan_mathCourse (hrole : session.role = .owner) :
    checkedPlan store session mathCourse = .ok ([⟨"수학", none, [], some 7, none, none⟩], []) := by
  have hchecked : checkedPlan store session mathCourse =
      .ok (enforceTeacherScope [⟨"수학", none, [], some 7, none, none⟩] session store) := rfl
  rw [hchecked, enforceTeacherScope, hrole]

theorem mathCourse_calls (hrole : session.role = .owner) :
    ∃ body, .call (.course 0) ⟨session.sid, session.secret⟩ body ∈
      (createExecute p answers store (some session) mathCourse).writes := by
  have hclient : clientFor store session none = .ok ⟨session.sid, session.secret⟩ := rfl
  unfold createExecute
  simp only [checkedPlan_mathCourse hrole, hclient, Script.lift_ok_bind]
  have hcourse : ∃ body, .call (.course 0) ⟨session.sid, session.secret⟩ body ∈
      (createCourse p ⟨session.sid, session.secret⟩ answers
        ⟨"수학", none, [], some 7, none, none⟩ 0).writes := by
    rw [createCourse_of_authorized p _ answers 0 rfl]
    exact ⟨_, Script.mem_writes_bind (List.mem_singleton_self _)⟩
  obtain ⟨body, hbody⟩ := hcourse
  exact ⟨body, Script.mem_writes_bind (Script.mem_writes_bind hbody)⟩

end Create

/-- Every call of sync and create goes to the account of the selected branch, or to the session's
where there is none. -/
def SameAccount (p : Platform) (answers : Answers) (store : Store) (session : Session) : Prop :=
  SignedWith (fun service => dashboardSync service p store (some session)) (accountOf store session) ∧
    ∀ form place credentials body,
      .call place credentials body ∈ (createExecute p answers store (some session) form).writes →
        credentials = accountOf store session

theorem own_of_sameAccount {p : Platform} {answers : Answers} {store : Store} {session : Session}
    (hrole : session.role = .owner) (h : SameAccount p answers store session) :
    accountOf store session = ⟨session.sid, session.secret⟩ := by
  obtain ⟨body, hbody⟩ : ∃ body, .call (.course 0) ⟨session.sid, session.secret⟩ body ∈
      (createExecute p answers store (some session) mathCourse).writes :=
    mathCourse_calls p answers hrole
  exact (h.2 _ _ _ _ hbody).symm

/-- Sync and create use one account exactly when the selected branch has none of its own, or the one
that the session has. -/
theorem sameAccount_iff (p : Platform) (answers : Answers) (store : Store) (session : Session)
    (hrole : session.role = .owner) :
    SameAccount p answers store session ↔
      accountOf store session = ⟨session.sid, session.secret⟩ := by
  refine ⟨own_of_sameAccount hrole, fun hsame => ?_⟩
  refine ⟨dashboardSync_signed p store session, fun form place credentials body hcall => ?_⟩
  rw [createExecute_signed p answers hcall, hsame]

/-- An owner of the default account who has selected branch 1. -/
def annexOwner : Session := ⟨"100", "default", .owner, none, "원장", none, none, some 1⟩

/-- A school whose branch 1 is a ClassIn account of its own. -/
def annexSchool : Store := upsertBranch .empty "분관" (some "200") (some "annex")

theorem sameAccount_emptySchool :
    accountOf .empty annexOwner = ⟨"100", "default"⟩ ∧
      SameAccount .plain (fun _ => .refused "") .empty annexOwner :=
  ⟨rfl, (sameAccount_iff .plain (fun _ => .refused "") .empty annexOwner rfl).mpr rfl⟩

theorem annex_created_in_default :
    ¬SameAccount .plain (fun _ => .refused "") annexSchool annexOwner := by
  intro h
  have hsame := own_of_sameAccount rfl h
  have hsid : (accountOf annexSchool annexOwner).sid = "100" := congrArg Credentials.sid hsame
  exact absurd hsid (by decide)

end ClassinDashboard

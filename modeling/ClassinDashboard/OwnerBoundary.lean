import ClassinDashboard.IngestRecords
import ClassinDashboard.SessionAccounts

/-!
What only owners decide: the branches, the branch of every course and teacher, and the accounts of
owners and managers. Requests under the sessions of managers and teachers, visitors without a session
and the webhook leave all of it as it is, in whatever order their commits interleave.
-/

namespace ClassinDashboard

open Py Sql InFlight

/-- The branch a teacher is assigned to. -/
def teacherBranchOf (store : Store) (uid : Int) : Option Int :=
  (store.teachers.find uid).bind (·.branchId)

/-- The part of the database that is an owner's to change. A course or teacher that is not there has no
branch. -/
structure OwnerPart where
  branches : List (Nat × BranchRow)
  courseBranch : Int → Option Int
  teacherBranch : Int → Option Int
  accounts : List (Nat × UserRow)

def ownerPart (store : Store) : OwnerPart where
  branches := store.branches.rows
  courseBranch := branchOf store
  teacherBranch := teacherBranchOf store
  accounts := store.users.rows.filter fun entry => entry.2.role ≠ .teacher

/-- Nobody is logged in as an owner. -/
def NoOwnerSession (app : App) : Prop :=
  ∀ token stored, app.site.sessions token = some stored → stored.session.role ≠ .owner

/-- A request that is not a login as an owner. -/
def GrantsNoOwner (d : Deployment) (app : App) (visit : Visit) : Prop :=
  ∀ session, Grants d app.site.store session visit.request → session.role ≠ .owner

/-! ### Modest commits -/

/-- A write that assigns no branch. -/
def Write.Unassigning : Write → Prop
  | .courseBranch _ _ | .teacherBranch _ _ => False
  | .record .. | .student .. | .course .. | .lesson .. | .teacher .. => True

/-- There is an account of a teacher with the id. -/
def TeacherAccount (store : Store) (userId : Int) : Prop :=
  ∃ (id : Nat) (row : UserRow), (id : Int) = userId ∧ (id, row) ∈ store.users.rows ∧ row.role = .teacher

/-- A commit that stays out of the owner's part. -/
def Modest (store : Store) : Commit → Prop
  | .statement (.write w) => w.Unassigning
  | .statement (.upsertBranch ..) | .statement (.deleteBranch _) => False
  | .statement (.createUser row) | .account (.create row) => row.role = .teacher
  | .account (.active userId _) | .account (.password userId _) => TeacherAccount store userId
  | .raw _ | .event _ | .notification _ => True

theorem Modest.mono {before after : Store} {k : Commit} (h : Modest before k)
    (hkept : AccountsKept before after) : Modest after k := by
  have hteacher {userId : Int} (h : TeacherAccount before userId) : TeacherAccount after userId := by
    obtain ⟨id, row, hid, hrow, hrole⟩ := h
    obtain ⟨row', hrow', hsame⟩ := hkept id row hrow
    refine ⟨id, row', hid, hrow', ?_⟩
    rw [← hrole]
    exact congrArg (fun identity => identity.2.1) hsame
  cases k with
  | account w =>
      cases w with
      | create row => exact h
      | active userId active => exact hteacher h
      | password userId hash => exact hteacher h
  | statement s => cases s <;> exact h
  | _ => exact h

theorem ownerPart_write {store : Store} {w : Write} (h : w.Unassigning) :
    ownerPart (store.write w) = ownerPart store := by
  cases w with
  | courseBranch courseId branchId => exact h.elim
  | teacherBranch uid branchId => exact h.elim
  | course courseId name teacherUid teacherName createdVia =>
      have hbranch : branchOf (store.write (.course courseId name teacherUid teacherName createdVia)) =
          branchOf store :=
        funext (branchOf_write_course store courseId name teacherUid teacherName createdVia)
      simp only [ownerPart, hbranch]
      rfl
  | teacher uid name =>
      have hbranch : teacherBranchOf (store.write (.teacher uid name)) = teacherBranchOf store := by
        funext other
        simp only [teacherBranchOf, Store.write]
        by_cases hother : other = uid
        · subst hother
          rw [Table.find_upsert_self]
          cases store.teachers.find other <;> rfl
        · rw [Table.find_upsert_of_ne _ hother]
      simp only [ownerPart, hbranch]
      rfl
  | _ => rfl

/-- Rows that are changed but stay out of a selection. -/
theorem filter_map_kept {α : Type} {l : List α} {change : α → α} {selects : α → Bool}
    (h : ∀ x ∈ l, change x = x ∨ selects x = false ∧ selects (change x) = false) :
    (l.map change).filter selects = l.filter selects := by
  induction l with
  | nil => rfl
  | cons x l ih =>
      have hrest := ih fun y hy => h y (List.mem_cons_of_mem _ hy)
      rw [List.map_cons, List.filter_cons, List.filter_cons, hrest]
      rcases h x List.mem_cons_self with hsame | ⟨hout, hout'⟩
      · rw [hsame]
      · rw [hout, hout', if_neg Bool.false_ne_true, if_neg Bool.false_ne_true]

theorem ownerPart_updateUser {store : Store} {userId : Int} (h : TeacherAccount store userId)
    {f : UserRow → UserRow} (hf : ∀ row, (f row).role = row.role) :
    ownerPart { store with users := updateUser store.users userId f } = ownerPart store := by
  obtain ⟨id, row, hid, hrow, hrole⟩ := h
  have haccounts : (updateUser store.users userId f).rows.filter (fun entry => entry.2.role ≠ .teacher) =
      store.users.rows.filter fun entry => entry.2.role ≠ .teacher := by
    refine filter_map_kept fun entry hentry => ?_
    by_cases hsame : (entry.1 : Int) = userId
    · -- ids are unique, so this is the account of the teacher
      right
      obtain ⟨id', row'⟩ := entry
      obtain rfl : id' = id := by
        have := hsame.trans hid.symm
        exact Int.ofNat.inj this
      obtain rfl := AutoTable.row_unique hentry hrow
      simp [hsame, hf, hrole]
    · exact .inl (Prod.ext rfl (if_neg hsame))
  unfold ownerPart
  exact congrArg (OwnerPart.mk _ _ _) haccounts

theorem ownerPart_createUser {store : Store} {row : UserRow} (h : row.role = .teacher) :
    ownerPart (store.writeUser (.create row)) = ownerPart store := by
  have haccounts : (store.users.insert row).rows.filter (fun entry => entry.2.role ≠ .teacher) =
      store.users.rows.filter fun entry => entry.2.role ≠ .teacher := by
    rw [AutoTable.insert, List.filter_append]
    simp [h]
  unfold ownerPart
  exact congrArg (OwnerPart.mk _ _ _) haccounts

theorem ownerPart_apply {app : App} {k : Commit} (h : Modest app.site.store k) :
    ownerPart (app.apply k).1.site.store = ownerPart app.site.store := by
  cases k with
  | raw payload => rfl
  | event row => rfl
  | notification row => rfl
  | account w =>
      cases w with
      | create row => exact ownerPart_createUser h
      | active userId active => exact ownerPart_updateUser h fun _ => rfl
      | password userId hash => exact ownerPart_updateUser h fun _ => rfl
  | statement s =>
      cases s with
      | write w => exact ownerPart_write h
      | upsertBranch name sid secret => exact h.elim
      | deleteBranch branchId => exact h.elim
      | createUser row =>
          show ownerPart ((Statement.createUser row).run app.site.store) = _
          rw [Statement.run]
          split
          · rfl
          · exact ownerPart_createUser h

/-! ### What requests commit without an owner -/

section Requests

variable {d : Deployment} {store : Store}

/-- A message writes records and rows, never an assignment. -/
theorem handle_unassigning (p : Platform) (event : Event) :
    (handle p event).Emits Write.Unassigning := by
  have hrecord (lessonId : String) (uid : Int) (fields : List (Column × PyValue)) :
      (upsertLessonRecord p lessonId uid fields).Emits Write.Unassigning := by
    refine Script.Emits.commit fun w hw => ?_
    obtain ⟨key, _, hw⟩ := bind_eq_ok.mp hw
    obtain ⟨cells, _, hw⟩ := bind_eq_ok.mp hw
    cases hw
    trivial
  have hstudent (uid : Int) (name : PyValue) : (ensureStudent p uid name).Emits Write.Unassigning := by
    intro w hw
    obtain ⟨_, _, rfl⟩ := mem_writes_ensureStudent hw
    trivial
  have hteacher (uid : Int) (name : PyValue) : (upsertTeacher p uid name).Emits Write.Unassigning := by
    intro w hw
    obtain ⟨_, rfl⟩ := mem_writes_upsertTeacher hw
    trivial
  cases event with
  | attendance event =>
      refine Script.Emits.bind ?_ fun _ _ => Script.Emits.bind ?_ fun _ _ =>
        Script.Emits.each fun member _ => ?_
      · unfold ingestCourse
        split
        · intro w hw
          obtain ⟨_, _, _, rfl⟩ := mem_writes_upsertCourse hw
          trivial
        · exact Script.Emits.pure _
      · intro w hw
        obtain ⟨_, rfl⟩ := mem_writes_upsertLesson hw
        trivial
      · unfold ingestMember
        split
        · exact (hstudent _ _).bind fun _ _ => (Script.Emits.lift _).bind fun _ _ => hrecord _ _ _
        · split
          · exact hteacher _ _
          · exact Script.Emits.pure _
  | «end» event =>
      exact (Script.Emits.lift _).bind fun totals _ => Script.Emits.each fun uid _ => hrecord _ _ _
  | homeworkSubmit event =>
      change (ingestHomeworkSubmit p event).Emits _
      unfold ingestHomeworkSubmit
      split
      · exact (hstudent _ _).bind fun _ _ => hrecord _ _ _
      · exact Script.Emits.pure _
  | homeworkScore event =>
      change (ingestHomeworkScore p event).Emits _
      unfold ingestHomeworkScore
      split
      · exact hrecord _ _ _
      · exact Script.Emits.pure _
  | rating event =>
      simp only [handle]
      split
      · exact hteacher _ _
      · exact Script.Emits.pure _
  | answerSheetScore event => exact Script.Emits.pure _
  | generic event => exact Script.Emits.pure _

theorem modest_webhook (body : Loads) : ∀ k ∈ webhookCommits d body, Modest store k := by
  rcases webhookCommits_cases d body with hnone | ⟨payload, hraw⟩ | ⟨payload, event, row, _, _, hall⟩
  · rw [hnone]
    exact fun _ hk => absurd hk List.not_mem_nil
  · rw [hraw]
    intro k hk
    cases List.mem_singleton.mp hk
    trivial
  · rw [hall]
    intro k hk
    rcases List.mem_cons.mp hk with rfl | hk
    · trivial
    · rcases List.mem_cons.mp hk with rfl | hk
      · trivial
      · obtain ⟨w, hw, rfl⟩ := List.mem_map.mp hk
        exact handle_unassigning d.platform event w hw

theorem modest_create (answers : Answers) (session : Option Session) (form : CreateForm) :
    ∀ k ∈ (createExecute d.platform answers store session form).writes.filterMap CreateEffect.commit?,
      Modest store k := by
  intro k hk
  rcases create_commit hk with ⟨_, _, _, rfl⟩ | ⟨_, _, rfl⟩ <;> trivial

theorem modest_notifySend (session : Option Session) (form : List (String × String)) :
    ∀ k ∈ (notifySend session form).writes.filterMap NotifyEffect.commit?, Modest store k := by
  intro k hk
  obtain ⟨effect, _, hcommit⟩ := List.mem_filterMap.mp hk
  obtain ⟨row, _, rfl⟩ := Option.map_eq_some_iff.mp hcommit
  trivial

/-- The check of an owner's route turns everybody else away. -/
theorem guard_owner_error {session : Option Session} (h : ∀ s, session = some s → s.role ≠ .owner) :
    ∃ denied, guard session [.owner] = .error denied := by
  cases session with
  | none => exact ⟨_, rfl⟩
  | some session => exact ⟨_, by rw [guard_eq, if_neg fun hmem => h session rfl (List.mem_singleton.mp hmem)]⟩

/-- The check of a route for owners and managers, when it is no owner. -/
theorem guard_cases {session : Option Session} (h : ∀ s, session = some s → s.role ≠ .owner) :
    (∃ denied, guard session [.owner, .manager] = .error denied) ∨
      ∃ s, session = some s ∧ s.role = .manager := by
  cases session with
  | none => exact .inl ⟨_, rfl⟩
  | some session =>
      cases hrole : session.role with
      | owner => exact absurd hrole (h session rfl)
      | manager => exact .inr ⟨session, rfl, hrole⟩
      | teacher => exact .inl ⟨_, by rw [guard_eq, hrole, if_neg (by decide)]⟩

/-- Without an owner, the only account that is inserted is a teacher's. -/
theorem adminUserCreate_teacher {session : Option Session} (salt : List UInt8) (form : UserForm)
    (h : ∀ s, session = some s → s.role ≠ .owner) :
    ∀ w ∈ (adminUserCreate d.pbkdf2 store session salt form).writes,
      ∃ row, w = .create row ∧ row.role = .teacher := by
  rcases guard_cases h with ⟨denied, hdenied⟩ | ⟨m, rfl, hrole⟩
  · rw [adminUserCreate, hdenied]
    exact fun _ hw => absurd hw List.not_mem_nil
  · intro w hw
    rcases @adminUserCreate_cases d.pbkdf2 store _ hrole salt form with hnone | ⟨_, _, hwrites⟩
    · rw [hnone] at hw
      cases hw
    · rw [hwrites, List.mem_singleton] at hw
      exact ⟨_, hw, rfl⟩

theorem modest_branches (request : BranchRequest) {session : Option Session}
    (h : ∀ s, session = some s → s.role ≠ .owner) :
    ∀ k ∈ (request.statements d.platform d.pbkdf2 store session).map Commit.statement,
      Modest store k := by
  obtain ⟨denied, hdenied⟩ := guard_owner_error h
  have hnone {statements : List Statement} (hnil : statements = []) :
      ∀ k ∈ statements.map Commit.statement, Modest store k := by
    rw [hnil]
    exact fun _ hk => absurd hk List.not_mem_nil
  cases request with
  | addBranch name sid secret =>
      exact hnone (by simp only [BranchRequest.statements, adminBranchAdd, hdenied])
  | removeBranch branchId =>
      exact hnone (by simp only [BranchRequest.statements, adminBranchDelete, hdenied])
  | courseBranch form => exact hnone (by simp only [BranchRequest.statements, adminAssign, hdenied])
  | teacherBranch form => exact hnone (by simp only [BranchRequest.statements, adminAssign, hdenied])
  | createUser salt form =>
      intro k hk
      obtain ⟨statement, hstatement, rfl⟩ := List.mem_map.mp hk
      obtain ⟨w, hw, hsome⟩ := List.mem_filterMap.mp hstatement
      obtain ⟨row, rfl, hrole⟩ := adminUserCreate_teacher salt form h w hw
      cases hsome
      exact hrole
  | sync service =>
      refine hnone ?_
      unfold BranchRequest.statements syncStatements
      cases session with
      | none => rfl
      | some session => exact if_neg (h session rfl)

theorem modest_account (request : AccountRequest) {session : Option Session}
    (h : ∀ s, session = some s → s.role ≠ .owner) :
    ∀ k ∈ (manageAccount d.pbkdf2 store session request).writes.map UserWrite.commit, Modest store k := by
  have hmanaged {s : Session} (hrole : s.role = .manager) {userId : Int} {target : UserRow}
      (htarget : managedUser store s userId = some target) : TeacherAccount store userId := by
    obtain ⟨hfind, hteacher, _⟩ := managedUser_manager hrole htarget
    obtain ⟨id, hid, hrow⟩ := AutoTable.mem_of_find hfind
    exact ⟨id, target, hid, hrow, hteacher⟩
  intro k hk
  obtain ⟨w, hw, rfl⟩ := List.mem_map.mp hk
  cases request with
  | create salt form =>
      obtain ⟨row, rfl, hrole⟩ := adminUserCreate_teacher salt form h w hw
      exact hrole
  | active userId active =>
      rcases guard_cases h with ⟨denied, hdenied⟩ | ⟨m, rfl, hrole⟩
      · simp only [manageAccount, adminUserActive, hdenied] at hw
        cases hw
      · rw [manageAccount, adminUserActive_writes] at hw
        split at hw
        · rename_i hpermitted
          cases List.mem_singleton.mp hw
          obtain ⟨target, htarget⟩ := Option.ne_none_iff_exists'.mp hpermitted.2.1
          exact hmanaged hrole htarget
        · cases hw
  | password salt userId password =>
      rcases guard_cases h with ⟨denied, hdenied⟩ | ⟨m, rfl, hrole⟩
      · simp only [manageAccount, adminUserPassword, hdenied] at hw
        cases hw
      · rcases @adminUserPassword_cases d.pbkdf2 store _ hrole salt userId password with
          hnone | ⟨_, ⟨target, htarget⟩, hwrites⟩
        · rw [manageAccount, hnone] at hw
          cases hw
        · rw [manageAccount, hwrites, List.mem_singleton] at hw
          subst hw
          exact hmanaged hrole htarget

/-- Whatever comes in without a session of an owner commits modestly. -/
theorem modest_commits {app : App} (h : NoOwnerSession app) (request : WebRequest) :
    ∀ k ∈ request.commits d app.site.store (lookUp d app.site request).1, Modest app.site.store k := by
  have hsession : ∀ s, (lookUp d app.site request).1 = some s → s.role ≠ .owner := by
    intro s hs
    unfold lookUp at hs
    split at hs
    · obtain ⟨token, _, stored, hstored, _, rfl⟩ := currentSession_eq_some.mp hs
      exact h token stored hstored
    · cases hs
  cases request with
  | branches cookie request => exact modest_branches request hsession
  | account cookie request => exact modest_account request hsession
  | create cookie form answers => exact modest_create answers _ form
  | notifySend cookie form => exact modest_notifySend _ form
  | webhook body => exact modest_webhook body
  | _ => exact fun _ hk => absurd hk List.not_mem_nil

end Requests

/-! ### Runs -/

section Runs

variable {d : Deployment}

theorem noOwnerSession_accept {app : App} {visit : Visit} (h : NoOwnerSession app)
    (hok : GrantsNoOwner d app visit) : NoOwnerSession (app.accept d visit).1 := by
  intro token stored hstored
  rcases sessions_accept hstored with
    ⟨old, hold, rfl | ⟨howner, _⟩⟩ | hgranted
  · exact h token stored hold
  · exact absurd howner (h token old hold)
  · exact hok _ hgranted

theorem ownerPart_invariant (part : OwnerPart) :
    Invariant (dashboard d) (GrantsNoOwner d)
      (fun app => NoOwnerSession app ∧ ownerPart app.site.store = part)
      (Each fun app k => Modest app.site.store k) := by
  apply Invariant.ofEach
  · intro app visit hP hok
    refine ⟨⟨noOwnerSession_accept hP.1 hok, ?_⟩, ?_⟩
    · exact (congrArg ownerPart (store_accept d app visit)).trans hP.2
    · intro k hk
      have hmodest := @modest_commits d ⟨app.site.after visit.wait, app.history⟩ hP.1 visit.request k hk
      exact (store_accept d app visit).symm ▸ hmodest
  · intro app visit k hP hok hk
    exact (store_accept d app visit).symm ▸ hk
  · intro app k hP hk
    refine ⟨fun token stored hstored => ?_, (ownerPart_apply hk).trans hP.2⟩
    exact hP.1 token stored ((sessions_apply app k) ▸ hstored)
  · intro app k other hP hk hother
    exact hother.mono (accountsKept_apply app k)

/-- While no owner logs in, nothing that managers, teachers, visitors and the webhook do, however their
requests interleave, gives anyone an owner's session or changes a branch, an assignment of a course or
teacher, or an account that is not a teacher's. -/
theorem owner_part_untouched (d : Deployment) (store : Store) (history : AutoTable NotificationRow)
    (now : ℚ) (actions : List (Action Visit))
    (h : Runs.EachStep (dashboard d).step (fun state action => action.Meets (GrantsNoOwner d) state)
      (App.start store history now).idle actions) :
    NoOwnerSession ((dashboard d).run (App.start store history now).idle actions).shared ∧
      ownerPart ((dashboard d).run (App.start store history now).idle actions).shared.site.store =
        ownerPart store := by
  have hstart : Holds (fun app => NoOwnerSession app ∧ ownerPart app.site.store = ownerPart store)
      (Each fun app k => Modest app.site.store k) (App.start store history now).idle := by
    refine ⟨⟨fun token stored hstored => ?_, rfl⟩, fun queue hqueue => ?_⟩
    · cases hstored
    · cases hqueue
  exact ((ownerPart_invariant (ownerPart store)).run hstart h).shared

end Runs

/-! A teacher logs in and asks for the removal of a branch, while a message comes in. -/

def kimAtWork : List (Action Visit) :=
  [.arrive ⟨0, .login "b" ⟨"kim", "", "", "pw"⟩ (.ok (false, "")) "k"⟩,
    .arrive ⟨1, .branches (cookieOf "k") (.removeBranch 1)⟩,
    .arrive ⟨0, .webhook (.value (.dict []))⟩,
    .commit 2, .commit 1]

theorem kim_leaves_owner_part :
    NoOwnerSession ((dashboard kimsDeployment).run (App.start kimsSchool .empty 0).idle kimAtWork).shared ∧
      ownerPart ((dashboard kimsDeployment).run
        (App.start kimsSchool .empty 0).idle kimAtWork).shared.site.store = ownerPart kimsSchool := by
  refine owner_part_untouched kimsDeployment kimsSchool .empty 0 kimAtWork
    ⟨fun session h => ?_, fun session h => ?_, fun session h => ?_, trivial, trivial, trivial⟩
  · have hgranted : Except.ok (.granted (sessionOf fixedSettings.classin none 1
        ⟨"kim", "pbkdf2$1$$", .teacher, none, some 5, true⟩)) =
      (.ok (.granted session) : Except PyError LoginResult) := h
    cases hgranted
    decide
  · cases h
  · cases h

end ClassinDashboard

import ClassinDashboard.AccountLifetime
import ClassinDashboard.AppPages
import ClassinDashboard.SessionAccounts

/-!
The ids of accounts and sessions. An account is bound before it is inserted, so that its branch and its
teacher fit into their columns, and a session has the ids of its account: however the requests
interleave, the top bar of a page can look up what its session names.
-/

namespace ClassinDashboard

open Py Sql InFlight

def AccountsFit (store : Store) : Prop := ∀ entry ∈ store.users.rows, entry.2.Fits

/-- A commit that inserts an account inserts one that fits. -/
def Commit.Fits : Commit → Prop
  | .statement (.createUser row) | .account (.create row) => row.Fits
  | _ => True

theorem forall_inRange_of_fits {n : Option Int} (h : fits n = true) :
    ∀ id ∈ n, SqlValue.inRange id = true := by
  intro id hid
  cases hid
  exact h

/-- The session of an account, or of an owner without one. -/
theorem SessionFaithful.fits {store : Store} {session : Session} (h : SessionFaithful store session)
    (haccounts : AccountsFit store) : session.Fits := by
  cases huser : session.userId with
  | none =>
      obtain ⟨-, hbranch, hteacher⟩ := h.bootstrap huser
      rw [← Option.isNone_iff_eq_none] at hbranch hteacher
      constructor
      · intro n hn
        rw [hn] at hbranch
        cases hbranch
      · intro _ n hn
        rw [hn] at hteacher
        cases hteacher
  | some userId =>
      obtain ⟨id, row, -, hrow, hsame⟩ := h.account userId huser
      obtain ⟨hbranch, hteacher⟩ := haccounts (id, row) hrow
      simp only [UserRow.identity, Prod.mk.injEq] at hsame
      obtain ⟨-, -, hbranchId, hteacherUid⟩ := hsame
      exact ⟨hbranchId ▸ forall_inRange_of_fits hbranch,
        fun _ => hteacherUid ▸ forall_inRange_of_fits hteacher⟩

/-! ### Commits -/

section Commits

variable {d : Deployment}

theorem fits_of_createUser {store : Store} {session : Option Session} {request : BranchRequest}
    {row : UserRow} (h : .createUser row ∈ request.statements d.platform d.pbkdf2 store session) :
    row.Fits := by
  have hwrites {ws : List Write} : .createUser row ∉ ws.map Statement.write := by
    intro hmem
    obtain ⟨w, -, hw⟩ := List.mem_map.mp hmem
    cases hw
  cases request with
  | addBranch name sid secret =>
      rw [BranchRequest.statements, adminBranchAdd] at h
      split at h
      · cases h
      · split at h
        · cases h
        · cases List.mem_singleton.mp h
  | removeBranch branchId =>
      rw [BranchRequest.statements, adminBranchDelete] at h
      split at h
      · cases h
      · split at h
        · cases List.mem_singleton.mp h
        · cases h
  | courseBranch form | teacherBranch form =>
      rw [BranchRequest.statements, adminAssign] at h
      split at h
      · cases h
      · exact absurd h hwrites
  | createUser salt form =>
      obtain ⟨w, hw, hstatement⟩ := List.mem_filterMap.mp h
      rcases adminUserCreate_inserts store session salt form with hnone | ⟨row', hcreate, -, hfits⟩
      · rw [hnone] at hw
        cases hw
      · rw [hcreate] at hw
        obtain rfl := List.mem_singleton.mp hw
        cases hstatement
        exact hfits
  | sync service =>
      rw [BranchRequest.statements] at h
      unfold syncStatements at h
      split at h
      · cases h
      · split at h
        · split at h
          · cases h
          · exact absurd h hwrites
        · cases h

theorem commits_fit (store : Store) (session : Option Session) (request : WebRequest) :
    ∀ k ∈ request.commits d store session, k.Fits := by
  intro k hk
  rcases mem_commits_cases d store session hk with ⟨cookie, account, rfl, w, hw, rfl⟩ |
    ⟨cookie, branch, rfl, statement, hstatement, rfl⟩ | hother
  · rcases manageAccount_writes store session account with hnone | ⟨row, hwrites, -, hfits⟩ |
      ⟨userId, active, changed, rfl, hwrites⟩ | ⟨salt, userId, password, hash, rfl, hwrites⟩
    · rw [hnone] at hw
      cases hw
    · rw [hwrites] at hw
      cases List.mem_singleton.mp hw
      exact hfits
    · rw [hwrites] at hw
      cases List.mem_singleton.mp hw
      trivial
    · rw [hwrites] at hw
      cases List.mem_singleton.mp hw
      trivial
  · cases statement with
    | createUser row => exact fits_of_createUser hstatement
    | _ => trivial
  · cases k with
    | account w => exact absurd trivial hother
    | statement s =>
        cases s with
        | createUser row => exact absurd trivial hother
        | _ => trivial
    | _ => trivial

theorem accountsFit_apply {app : App} {k : Commit} (h : AccountsFit app.site.store) (hk : k.Fits) :
    AccountsFit (app.apply k).1.site.store := by
  have hinsert {row : UserRow} (hrow : row.Fits) :
      ∀ entry ∈ (app.site.store.users.insert row).rows, entry.2.Fits := by
    intro entry hentry
    rcases List.mem_append.mp hentry with hold | hnew
    · exact h entry hold
    · rw [List.mem_singleton.mp hnew]
      exact hrow
  have hupdate (userId : Int) (f : UserRow → UserRow) (hf : ∀ row : UserRow, row.Fits → (f row).Fits) :
      ∀ entry ∈ (updateUser app.site.store.users userId f).rows, entry.2.Fits := by
    intro entry hentry
    obtain ⟨old, hold, rfl⟩ := List.mem_map.mp hentry
    show UserRow.Fits (if (old.1 : Int) = userId then f old.2 else old.2)
    split
    · exact hf old.2 (h old hold)
    · exact h old hold
  cases k with
  | statement s =>
      intro entry hentry
      change entry ∈ (s.run app.site.store).users.rows at hentry
      rcases users_run s app.site.store with hsame | ⟨row, rfl, -, hinserted⟩
      · rw [hsame] at hentry
        exact h entry hentry
      · rw [hinserted] at hentry
        exact hinsert hk entry hentry
  | account w =>
      cases w with
      | create row => exact hinsert hk
      | active userId active => exact hupdate userId _ fun _ hrow => hrow
      | password userId hash => exact hupdate userId _ fun _ hrow => hrow
  | _ => exact h

end Commits

/-! ### Runs -/

/-- However requests interleave, the ids of every session of the process fit into their columns. -/
theorem sessions_fit {d : Deployment} {app : App} (hsessions : SessionsFaithful app)
    (haccounts : AccountsFit app.site.store) (actions : List (Action Visit)) :
    ∀ token stored, ((dashboard d).run app.idle actions).shared.site.sessions token = some stored →
      stored.session.Fits := by
  have hinvariant : Invariant (dashboard d) (fun _ _ => True) (fun app => AccountsFit app.site.store)
      (Each fun _ k => k.Fits) := by
    apply Invariant.ofEach
    · intro app visit hfit _
      refine ⟨?_, commits_fit _ _ visit.request⟩
      show AccountsFit (app.accept d visit).1.site.store
      rwa [store_accept]
    · exact fun _ _ hk => hk
    · exact fun hfit hk => accountsFit_apply hfit hk
    · exact fun _ _ hother => hother
  have hfit : AccountsFit ((dashboard d).run app.idle actions).shared.site.store :=
    (hinvariant.run_any ⟨haccounts, fun _ hqueue => absurd hqueue List.not_mem_nil⟩ actions).shared
  have hfaithful : SessionsFaithful ((dashboard d).run app.idle actions).shared :=
    (sessionsFaithful_invariant.run_any ⟨hsessions, fun _ _ => trivial⟩ actions).shared
  exact fun token stored hstored => (hfaithful token stored hstored).fits hfit

end ClassinDashboard

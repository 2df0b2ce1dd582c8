import ClassinDashboard.App

/-!
Accounts while requests interleave. Two requests may find the same username free; only the first insert
is taken. An account that no request deactivates or gives another password can be logged in to with the
password it was created with.
-/

namespace ClassinDashboard

open Py Sql InFlight

/-! ### Requests that leave an account alone -/

/-- A request that neither deactivates the account nor sets its password. -/
def WebRequest.LeavesAccount (userId : Int) : WebRequest → Prop
  | .account _ (.active target _) | .account _ (.password _ target _) => target ≠ userId
  | _ => True

/-- A commit that neither deactivates the account nor sets its password. -/
def Commit.LeavesAccount (userId : Int) : Commit → Prop
  | .account (.active target _) | .account (.password target _) => target ≠ userId
  | _ => True

/-- A commit to the accounts. -/
def Commit.OfAccounts : Commit → Prop
  | .account _ | .statement (.createUser _) => True
  | _ => False

/-- The insert of an account without a look at its username. -/
def Commit.Unchecked : Commit → Prop
  | .account (.create _) => True
  | _ => False

section Requests

variable (d : Deployment) (store : Store) (session : Option Session)

/-- What commits an account request makes. -/
theorem account_commits (cookie : Option String) (request : AccountRequest) :
    ∀ k ∈ (manageAccount d.pbkdf2 store session request).writes.map UserWrite.commit,
      ¬k.Unchecked ∧ ∀ userId, (WebRequest.account cookie request).LeavesAccount userId →
        k.LeavesAccount userId := by
  intro k hk
  rcases manageAccount_writes store session request with hnone | ⟨row, hwrites, _⟩ |
    ⟨userId, active, changed, rfl, hwrites⟩ | ⟨salt, userId, password, hash, rfl, hwrites⟩
  · rw [hnone] at hk
    cases hk
  · rw [hwrites] at hk
    cases List.mem_singleton.mp hk
    exact ⟨id, fun _ _ => trivial⟩
  · rw [hwrites] at hk
    cases List.mem_singleton.mp hk
    exact ⟨id, fun _ h => h⟩
  · rw [hwrites] at hk
    cases List.mem_singleton.mp hk
    exact ⟨id, fun _ h => h⟩

/-- Only requests that manage accounts or branches commit to the accounts. -/
theorem mem_commits_cases {request : WebRequest} {k : Commit} (h : k ∈ request.commits d store session) :
    (∃ cookie account, request = .account cookie account ∧
      ∃ w ∈ (manageAccount d.pbkdf2 store session account).writes, k = w.commit) ∨
    (∃ cookie branch, request = .branches cookie branch ∧
      ∃ s ∈ branch.statements d.platform d.pbkdf2 store session, k = .statement s) ∨
    ¬k.OfAccounts := by
  cases request with
  | account cookie account =>
      obtain ⟨w, hw, rfl⟩ := List.mem_map.mp h
      exact .inl ⟨cookie, account, rfl, w, hw, rfl⟩
  | branches cookie branch =>
      obtain ⟨s, hs, rfl⟩ := List.mem_map.mp h
      exact .inr (.inl ⟨cookie, branch, rfl, s, hs, rfl⟩)
  | create cookie form answers =>
      right; right
      rcases create_commit h with ⟨_, _, _, rfl⟩ | ⟨_, _, rfl⟩ <;> exact id
  | notifySend cookie form =>
      obtain ⟨effect, _, hcommit⟩ := List.mem_filterMap.mp h
      obtain ⟨row, _, rfl⟩ := Option.map_eq_some_iff.mp hcommit
      exact .inr (.inr id)
  | webhook body =>
      right; right
      change k ∈ webhookCommits d body at h
      rcases webhookCommits_cases d body with hnone | ⟨payload, hraw⟩ | ⟨payload, event, row, _, _, hall⟩
      · rw [hnone] at h
        cases h
      · rw [hraw] at h
        cases List.mem_singleton.mp h
        exact id
      · rw [hall] at h
        rcases List.mem_cons.mp h with rfl | h
        · exact id
        · rcases List.mem_cons.mp h with rfl | h
          · exact id
          · obtain ⟨w, _, rfl⟩ := List.mem_map.mp h
            exact id
  | _ => exact absurd h List.not_mem_nil

theorem mem_commits {request : WebRequest} {k : Commit} (h : k ∈ request.commits d store session) :
    ¬k.Unchecked ∧ ∀ userId, request.LeavesAccount userId → k.LeavesAccount userId := by
  rcases mem_commits_cases d store session h with ⟨cookie, account, rfl, w, hw, rfl⟩ |
    ⟨_, _, _, statement, _, rfl⟩ | hother
  · exact account_commits d store session cookie account _ (List.mem_map_of_mem hw)
  · exact ⟨id, fun _ _ => trivial⟩
  · cases k with
    | account w => exact absurd trivial hother
    | _ => exact ⟨id, fun _ _ => trivial⟩

end Requests

/-! ### Usernames -/

section Runs

variable (d : Deployment)

/-- No two accounts have the same username. -/
def DistinctUsernames (store : Store) : Prop := (store.users.rows.map (·.2.username)).Nodup

theorem usernames_updateUser (users : AutoTable UserRow) (userId : Int) {f : UserRow → UserRow}
    (hf : ∀ row, (f row).username = row.username) :
    (updateUser users userId f).rows.map (·.2.username) = users.rows.map (·.2.username) := by
  show (users.rows.map _).map _ = _
  rw [List.map_map]
  refine List.map_congr_left fun entry _ => ?_
  show (if (entry.1 : Int) = userId then f entry.2 else entry.2).username = _
  split
  · exact hf _
  · rfl

theorem users_run (statement : Statement) (store : Store) :
    (statement.run store).users = store.users ∨
      ∃ row, statement = .createUser row ∧ getUserByUsername store row.username = none ∧
        (statement.run store).users = store.users.insert row := by
  cases statement with
  | write w => exact .inl (write_users store w)
  | upsertBranch name sid secret =>
      left
      show (ClassinDashboard.upsertBranch store name sid secret).users = _
      unfold ClassinDashboard.upsertBranch
      split <;> rfl
  | deleteBranch branchId =>
      left
      show (ClassinDashboard.deleteBranch store branchId).2.users = _
      unfold ClassinDashboard.deleteBranch
      split <;> rfl
  | createUser row =>
      rw [Statement.run]
      split
      · exact .inl rfl
      · rename_i hfree
        exact .inr ⟨row, rfl, Option.not_isSome_iff_eq_none.mp hfree, rfl⟩

/-- What a commit does to the accounts. -/
theorem users_apply (app : App) {k : Commit} (h : ¬k.Unchecked) :
    (app.apply k).1.site.store.users = app.site.store.users ∨
      (∃ row, getUserByUsername app.site.store row.username = none ∧
        (app.apply k).1.site.store.users = app.site.store.users.insert row) ∨
      ∃ userId f, (∀ row, (f row).username = row.username) ∧
        (∀ id, k.LeavesAccount id → userId ≠ id) ∧
        (app.apply k).1.site.store.users = updateUser app.site.store.users userId f := by
  cases k with
  | statement s =>
      rcases users_run s app.site.store with hsame | ⟨row, _, hfree, hinsert⟩
      · exact .inl hsame
      · exact .inr (.inl ⟨row, hfree, hinsert⟩)
  | account w =>
      cases w with
      | create row => exact absurd trivial h
      | active userId active =>
          exact .inr (.inr ⟨userId, fun row => { row with active }, fun _ => rfl, fun _ h => h, rfl⟩)
      | password userId hash =>
          exact .inr (.inr ⟨userId, fun row => { row with passwordHash := hash }, fun _ => rfl,
            fun _ h => h, rfl⟩)
  | _ => exact .inl rfl

theorem distinct_apply {app : App} {k : Commit} (h : DistinctUsernames app.site.store) (hk : ¬k.Unchecked) :
    DistinctUsernames (app.apply k).1.site.store := by
  unfold DistinctUsernames at h ⊢
  rcases users_apply app hk with hsame | ⟨row, hfree, hinsert⟩ | ⟨userId, f, hf, _, hupdate⟩
  · rwa [hsame]
  · rw [hinsert, AutoTable.insert, List.map_append, List.nodup_append]
    refine ⟨h, List.nodup_singleton _, fun name hname other hother => ?_⟩
    obtain ⟨entry, hentry, rfl⟩ := List.mem_map.mp hname
    obtain rfl := List.mem_singleton.mp hother
    have hne := List.find?_eq_none.mp hfree entry hentry
    simpa using hne
  · rwa [hupdate, usernames_updateUser _ _ hf]

theorem distinct_run (app : App) (h : DistinctUsernames app.site.store) (actions : List (Action Visit)) :
    DistinctUsernames ((dashboard d).run app.idle actions).shared.site.store := by
  have hinvariant : Invariant (dashboard d) (fun _ _ => True) (fun app => DistinctUsernames app.site.store)
      (Each fun _ k => ¬k.Unchecked) := by
    apply Invariant.ofEach
    · intro app visit hP _
      refine ⟨?_, fun k hk => (mem_commits d _ _ hk).1⟩
      show DistinctUsernames (app.accept d visit).1.site.store
      rwa [store_accept]
    · exact fun _ _ hk => hk
    · exact fun hP hk => distinct_apply hP hk
    · exact fun _ _ hother => hother
  exact (hinvariant.run_any ⟨h, fun _ hqueue => by cases hqueue⟩ actions).shared

/-- With distinct usernames, the account of a username is the one that has it. -/
theorem find_of_distinct {store : Store} (h : DistinctUsernames store) {id : Nat} {row : UserRow}
    (hrow : (id, row) ∈ store.users.rows) : getUserByUsername store row.username = some (id, row) := by
  unfold getUserByUsername
  unfold DistinctUsernames at h
  cases hfound : store.users.rows.find? fun entry => entry.2.username = row.username with
  | none =>
      have hne := List.find?_eq_none.mp hfound _ hrow
      simp at hne
  | some found =>
      have hname : found.2.username = row.username := by simpa using List.find?_some hfound
      rw [List.inj_on_of_nodup_map h (List.mem_of_find?_eq_some hfound) hrow hname]

/-- However requests interleave, two that create an account under the same username among them: at every
moment a login under the username of an account reaches that account and no other. -/
theorem username_reaches_its_account (app : App) (h : DistinctUsernames app.site.store)
    (actions : List (Action Visit)) :
    ∀ id row, (id, row) ∈ ((dashboard d).run app.idle actions).shared.site.store.users.rows →
      getUserByUsername ((dashboard d).run app.idle actions).shared.site.store row.username =
        some (id, row) :=
  fun _ _ hrow => find_of_distinct (distinct_run d app h actions) hrow

/-- Two requests of an owner for an account under one username, both in flight. -/
def twoLees : List (Action Visit) :=
  [.arrive ⟨0, .login "a" ⟨"", "", "", "open"⟩ (.ok (false, "")) "o"⟩,
    .arrive ⟨1, .account (cookieOf "o") (.create [] ⟨"lee", "pw", "teacher", "1", "5"⟩)⟩,
    .arrive ⟨1, .account (cookieOf "o") (.create [] ⟨"lee", "other", "manager", "1", ""⟩)⟩,
    .commit 2, .commit 1]

/-- What is left when both requests have been handled. -/
def storeWithLee : Store :=
  ((dashboard kimsDeployment).run (App.start kimsSchool .empty 0).idle twoLees).shared.site.store

theorem lee_reached_once :
    ∃ id row, row.username = "lee" ∧ getUserByUsername storeWithLee "lee" = some (id, row) := by
  have hcreated : (storeWithLee.users.rows.any fun entry => entry.2.username = "lee") = true := by
    decide +kernel
  obtain ⟨⟨id, row⟩, hrow, hname⟩ := List.any_eq_true.mp hcreated
  have hname' : row.username = "lee" := of_decide_eq_true hname
  have hreached := username_reaches_its_account kimsDeployment (App.start kimsSchool .empty 0)
    (List.nodup_singleton _) twoLees id row hrow
  rw [hname'] at hreached
  exact ⟨id, row, hname', hreached⟩

/-! ### Logging in -/

theorem user_apply {app : App} {k : Commit} {username : String} {id : Nat} {row : UserRow}
    (h : getUserByUsername app.site.store username = some (id, row)) (hk : ¬k.Unchecked)
    (hleaves : k.LeavesAccount id) :
    getUserByUsername (app.apply k).1.site.store username = some (id, row) := by
  unfold getUserByUsername at h ⊢
  rcases users_apply app hk with hsame | ⟨other, _, hinsert⟩ | ⟨userId, f, hf, htarget, hupdate⟩
  · rwa [hsame]
  · rw [hinsert, AutoTable.insert, List.find?_append, h]
    rfl
  · rw [hupdate]
    show (app.site.store.users.rows.map _).find? _ = _
    have hname (entry : Nat × UserRow) :
        (if (entry.1 : Int) = userId then f entry.2 else entry.2).username = entry.2.username := by
      split
      · exact hf _
      · rfl
    rw [List.find?_map]
    have hsame : (fun entry : Nat × UserRow => decide (entry.2.username = username)) ∘
        (fun entry : Nat × UserRow => (entry.1, if (entry.1 : Int) = userId then f entry.2 else entry.2)) =
          fun entry => decide (entry.2.username = username) := by
      funext entry
      simp only [Function.comp_apply, hname]
    have hother : (id : Int) ≠ userId := fun hid => htarget id hleaves hid.symm
    rw [hsame, h]
    show some (id, if (id : Int) = userId then f row else row) = _
    rw [if_neg hother]

/-- An account stays the account of its username while no request deactivates it or sets its password. -/
theorem user_run {app : App} {username : String} {id : Nat} {row : UserRow}
    (h : getUserByUsername app.site.store username = some (id, row)) {actions : List (Action Visit)}
    (hleaves : ∀ visit, .arrive visit ∈ actions → visit.request.LeavesAccount id) :
    getUserByUsername ((dashboard d).run app.idle actions).shared.site.store username = some (id, row) := by
  have hinvariant : Invariant (dashboard d) (fun _ visit => visit.request.LeavesAccount id)
      (fun app => getUserByUsername app.site.store username = some (id, row))
      (Each fun _ k => ¬k.Unchecked ∧ k.LeavesAccount id) := by
    apply Invariant.ofEach
    · intro app visit hP hok
      refine ⟨?_, fun k hk => ?_⟩
      · show getUserByUsername (app.accept d visit).1.site.store username = _
        rwa [store_accept]
      · obtain ⟨hchecked, hcommit⟩ := mem_commits d _ _ hk
        exact ⟨hchecked, hcommit id hok⟩
    · exact fun _ _ hk => hk
    · exact fun hP hk => user_apply hP hk.1 hk.2
    · exact fun _ _ hother => hother
  exact (hinvariant.run_of_mem ⟨h, fun _ hqueue => by cases hqueue⟩ hleaves).shared

/-- Whatever else is going on, an account that no request deactivates or gives another password is
logged in to with the password that it was created with, under its own role, branch and teacher. -/
theorem registered_account_logs_in (app : App) {username password : String} {salt : List UInt8} {id : Nat}
    {row : UserRow} (h : getUserByUsername app.site.store username = some (id, row))
    (hactive : row.active = true) (hhash : row.passwordHash = hashPassword d.pbkdf2 salt password)
    (hbranch : ∀ n ∈ row.branchId, SqlValue.inRange n = true) (actions : List (Action Visit))
    (hleaves : ∀ visit, .arrive visit ∈ actions → visit.request.LeavesAccount id) :
    let store := ((dashboard d).run app.idle actions).shared.site.store
    loginLocalUser d.pbkdf2 d.settings.classin store username password =
      .ok (.granted (sessionOf d.settings.classin (row.branchId.bind store.branches.find) id row)) := by
  intro store
  have hfound : getBranch store row.branchId = .ok (row.branchId.bind store.branches.find) := by
    cases hid : row.branchId with
    | none => rfl
    | some n =>
        rw [getBranch, bindKey_of_inRange (hbranch n hid)]
        rfl
  rw [loginLocalUser, user_run d h hleaves]
  simp only [hactive, hhash, verifyPassword_hashPassword, Bool.not_true, Bool.false_eq_true, if_false]
  rw [hfound]
  rfl

/-- An account of a branch, made with the password that it logs in with. -/
def leesAccount : UserRow :=
  ⟨"lee", hashPassword (fun _ _ _ => []) [] "pw", .teacher, some 1, some 5, true⟩

/-- The school with a branch that has its own SID, and that account. -/
def leesSchool : Store :=
  (upsertBranch kimsSchool "본관" (some "100") (some "s")).writeUser (.create leesAccount)

theorem lee_logs_in :
    let store := ((dashboard kimsDeployment).run (App.start leesSchool .empty 0).idle twoLees).shared.site.store
    store.branches.find 1 = some ⟨"본관", some "100", some "s"⟩ ∧
      loginLocalUser kimsDeployment.pbkdf2 kimsDeployment.settings.classin store "lee" "pw" =
        .ok (.granted (sessionOf kimsDeployment.settings.classin (store.branches.find 1) 2 leesAccount)) := by
  have hfound : getUserByUsername leesSchool "lee" = some (2, leesAccount) := rfl
  have hhash : leesAccount.passwordHash = hashPassword kimsDeployment.pbkdf2 [] "pw" := rfl
  have hbranch : ∀ n ∈ leesAccount.branchId, SqlValue.inRange n = true := by decide
  refine ⟨by decide +kernel, registered_account_logs_in kimsDeployment (App.start leesSchool .empty 0)
    hfound rfl hhash hbranch twoLees fun visit hvisit => ?_⟩
  simp only [twoLees, List.mem_cons, Action.arrive.injEq, List.not_mem_nil, reduceCtorEq, or_false] at hvisit
  rcases hvisit with rfl | rfl | rfl <;> trivial

end Runs

end ClassinDashboard

import ClassinDashboard.App

/-!
Sessions and the accounts they were granted for. The role, the branch and the teacher of an account are
written once, when it is inserted, and a session copies them when it is granted; so a session carries
what its account row holds at every moment, whatever runs at the same time.
-/

namespace ClassinDashboard

open Py Sql InFlight

/-- The columns of an account that no statement writes after the insert. -/
def UserRow.identity (row : UserRow) : String × Role × Option Int × Option Int :=
  (row.username, row.role, row.branchId, row.teacherUid)

/-- Every account is still there, with its identity. -/
def AccountsKept (before after : Store) : Prop :=
  ∀ id row, (id, row) ∈ before.users.rows →
    ∃ row', (id, row') ∈ after.users.rows ∧ row'.identity = row.identity

/-- A session is that of an account as its row is, or one of an owner without an account; only owners
have switched branches. -/
structure SessionFaithful (store : Store) (session : Session) : Prop where
  account : ∀ userId, session.userId = some userId → ∃ (id : Nat) (row : UserRow), (id : Int) = userId ∧
    (id, row) ∈ store.users.rows ∧
      row.identity = (session.username, session.role, session.branchId, session.teacherUid)
  bootstrap : session.userId = none →
    session.role = .owner ∧ session.branchId = none ∧ session.teacherUid = none
  filter : session.branchFilter ≠ none → session.role = .owner

def SessionsFaithful (app : App) : Prop :=
  ∀ token stored, app.site.sessions token = some stored →
    SessionFaithful app.site.store stored.session

/-! ### Accounts -/

theorem AccountsKept.refl (store : Store) : AccountsKept store store :=
  fun _ row h => ⟨row, h, rfl⟩

theorem AccountsKept.trans {a b c : Store} (h : AccountsKept a b) (h' : AccountsKept b c) :
    AccountsKept a c := by
  intro id row hrow
  obtain ⟨row', hrow', hsame⟩ := h id row hrow
  obtain ⟨row'', hrow'', hsame'⟩ := h' id row' hrow'
  exact ⟨row'', hrow'', hsame'.trans hsame⟩

theorem AccountsKept.of_users {before after : Store} (h : after.users = before.users) :
    AccountsKept before after := by
  intro id row hrow
  exact ⟨row, h ▸ hrow, rfl⟩

theorem accountsKept_writeUser (store : Store) (w : UserWrite) : AccountsKept store (store.writeUser w) := by
  have hupdate (userId : Int) (f : UserRow → UserRow) (hf : ∀ row, (f row).identity = row.identity) :
      AccountsKept store { store with users := updateUser store.users userId f } := by
    intro id row hrow
    refine ⟨_, mem_updateUser.mpr ⟨row, hrow, rfl⟩, ?_⟩
    split
    · exact hf row
    · rfl
  cases w with
  | create row => exact fun id old hold => ⟨old, List.mem_append_left _ hold, rfl⟩
  | active userId active => exact hupdate userId _ fun _ => rfl
  | password userId hash => exact hupdate userId _ fun _ => rfl

theorem users_upsertBranch (store : Store) (name : String) (sid secret : Option String) :
    (upsertBranch store name sid secret).users = store.users := by
  unfold upsertBranch
  split <;> rfl

theorem users_deleteBranch (store : Store) (branchId : Int) :
    (deleteBranch store branchId).2.users = store.users := by
  unfold deleteBranch
  split <;> rfl

theorem accountsKept_statement (store : Store) (s : Statement) : AccountsKept store (s.run store) := by
  cases s with
  | write w => exact .of_users (users_write store w)
  | upsertBranch name sid secret => exact .of_users (users_upsertBranch store name sid secret)
  | deleteBranch branchId => exact .of_users (users_deleteBranch store branchId)
  | createUser row =>
      rw [Statement.run]
      split
      · exact .refl store
      · exact accountsKept_writeUser store (.create row)

theorem accountsKept_apply (app : App) (k : Commit) :
    AccountsKept app.site.store (app.apply k).1.site.store := by
  cases k with
  | statement s => exact accountsKept_statement app.site.store s
  | account w => exact accountsKept_writeUser app.site.store w
  | raw payload => exact .of_users rfl
  | event row => exact .of_users rfl
  | notification row => exact .of_users rfl

/-! ### What a request does to the sessions -/

section Sessions

variable {d : Deployment} {site : Site} {token : String} {stored : StoredSession}

/-- Looking a session up adds none. -/
theorem sessions_currentSession {cookie : Option String}
    (h : (currentSession d.serializer d.settings site cookie).2.sessions token = some stored) :
    site.sessions token = some stored := by
  rw [currentSession, Sessions.resolve] at h
  cases htoken : Sessions.tokenOf d.serializer cookie with
  | none =>
      rw [htoken] at h
      exact h
  | some other =>
      rw [htoken] at h
      cases hother : site.sessions other with
      | none =>
          simp only [hother] at h
          exact h
      | some old =>
          simp only [hother] at h
          split at h
          · by_cases hsame : token = other
            · simp only [hsame, Function.update_self] at h
              cases h
            · simpa only [Function.update_of_ne hsame] using h
          · exact h

theorem sessions_logout {cookie : Option String}
    (h : (logout d.serializer site cookie).sessions token = some stored) :
    site.sessions token = some stored := by
  rw [logout, Sessions.destroy] at h
  cases htoken : Sessions.tokenOf d.serializer cookie with
  | none =>
      rw [htoken] at h
      exact h
  | some other =>
      simp only [htoken] at h
      by_cases hsame : token = other
      · rw [hsame, Function.update_self] at h
        cases h
      · rwa [Function.update_of_ne hsame] at h

/-- The session was there before, but for the branch filter of an owner. -/
def SameButFilter (old stored : StoredSession) : Prop :=
  stored = old ∨ old.session.role = .owner ∧
    ∃ filter, stored = { old with session := { old.session with branchFilter := filter } }

theorem sessions_setBranchScope {cookie : Option String} {branchId : String}
    (h : (setBranchScope d.serializer d.settings site cookie branchId).sessions token = some stored) :
    ∃ old, site.sessions token = some old ∧ SameButFilter old stored := by
  have hkept {stored : StoredSession}
      (h : (currentSession d.serializer d.settings site cookie).2.sessions token = some stored) :
      ∃ old, site.sessions token = some old ∧ SameButFilter old stored :=
    ⟨stored, sessions_currentSession h, .inl rfl⟩
  unfold setBranchScope at h
  dsimp only at h
  split at h
  · rename_i session other hsession hother
    split at h
    · rename_i howner
      split at h
      · rename_i filter _
        by_cases hsame : token = other
        · -- the session that was resolved is the one under this token
          obtain ⟨found, hfound, live, hlive, _, rfl⟩ := currentSession_eq_some.mp hsession
          obtain rfl : other = found := Option.some.inj (hother.symm.trans hfound)
          subst hsame
          simp only [Sessions.setFilter, Function.update_self] at h
          obtain ⟨old, hold, rfl⟩ := Option.map_eq_some_iff.mp h
          have hbefore := sessions_currentSession hold
          obtain rfl := Option.some.inj (hlive.symm.trans hbefore)
          exact ⟨live, hbefore, .inr ⟨howner, filter, rfl⟩⟩
        · simp only [Sessions.setFilter, Function.update_of_ne hsame] at h
          exact hkept h
      · exact hkept h
    · exact hkept h
  · exact hkept h

theorem sessions_loginSubmit {ip : String} {form : LoginForm}
    {probe : Except PyError (Bool × String)} {fresh : String}
    (h : (loginSubmit d.pbkdf2 d.serializer d.settings site ip form probe fresh).2.sessions token =
      some stored) :
    site.sessions token = some stored ∨
      loginResult d.pbkdf2 d.settings site.store form probe = .ok (.granted stored.session) := by
  unfold loginSubmit at h
  dsimp only at h
  split at h
  · exact .inl h
  · split at h
    · exact .inl h
    · split at h
      · exact .inl h
      · exact .inl h
      · rename_i session hgranted
        simp only [Sessions.create] at h
        by_cases hsame : token = fresh
        · rw [hsame, Function.update_self] at h
          cases h
          exact .inr hgranted
        · rw [Function.update_of_ne hsame] at h
          exact .inl h

/-- A login that is granted the session. -/
def Grants (d : Deployment) (store : Store) (session : Session) : WebRequest → Prop
  | .login _ form probe _ => loginResult d.pbkdf2 d.settings store form probe = .ok (.granted session)
  | _ => False

/-- A session after a request was there before it, or the request is the login that it was granted to. -/
theorem sessions_enter {app : App} {request : WebRequest}
    (h : (app.enter d request).sessions token = some stored) :
    (∃ old, app.site.sessions token = some old ∧ SameButFilter old stored) ∨
      Grants d app.site.store stored.session request := by
  have hlookUp (request : WebRequest)
      (h : (lookUp d app.site request).2.sessions token = some stored) :
      (∃ old, app.site.sessions token = some old ∧ SameButFilter old stored) ∨
        Grants d app.site.store stored.session request := by
    refine .inl ⟨stored, ?_, .inl rfl⟩
    unfold lookUp at h
    split at h
    · exact sessions_currentSession h
    · exact h
  cases request with
  | login ip form probe fresh =>
      rcases sessions_loginSubmit h with hold | hgranted
      · exact .inl ⟨stored, hold, .inl rfl⟩
      · exact .inr hgranted
  | logout cookie => exact .inl ⟨stored, sessions_logout h, .inl rfl⟩
  | branchScope cookie branchId => exact .inl (sessions_setBranchScope h)
  | branches cookie request => exact hlookUp (.branches cookie request) h
  | account cookie request => exact hlookUp (.account cookie request) h
  | create cookie form answers => exact hlookUp (.create cookie form answers) h
  | notifySend cookie form => exact hlookUp (.notifySend cookie form) h
  | webhook body => exact hlookUp (.webhook body) h
  | page cookie => exact hlookUp (.page cookie) h

theorem sessions_accept {app : App} {visit : Visit}
    (h : (app.accept d visit).1.site.sessions token = some stored) :
    (∃ old, app.site.sessions token = some old ∧ SameButFilter old stored) ∨
      Grants d app.site.store stored.session visit.request :=
  @sessions_enter d token stored ⟨app.site.after visit.wait, app.history⟩ visit.request h

end Sessions

/-! ### Step by step -/

section Steps

variable {d : Deployment}

theorem SessionFaithful.mono {before after : Store} {session : Session}
    (h : SessionFaithful before session) (hkept : AccountsKept before after) :
    SessionFaithful after session where
  account userId hid := by
    obtain ⟨id, row, hrow, hmem, hsame⟩ := h.account userId hid
    obtain ⟨row', hmem', hsame'⟩ := hkept id row hmem
    exact ⟨id, row', hrow, hmem', hsame'.trans hsame⟩
  bootstrap := h.bootstrap
  filter := h.filter

theorem SessionFaithful.sameButFilter {store : Store} {old stored : StoredSession}
    (h : SessionFaithful store old.session) (hsame : SameButFilter old stored) :
    SessionFaithful store stored.session := by
  rcases hsame with rfl | ⟨howner, filter, rfl⟩
  · exact h
  · exact ⟨h.account, h.bootstrap, fun _ => howner⟩

/-- The session of an account is made of its row. -/
theorem sessionOf_of_granted {credentials : Credentials} {store : Store} {username password : String}
    {session : Session}
    (h : loginLocalUser d.pbkdf2 credentials store username password = .ok (.granted session)) :
    ∃ userId user branch, (userId, user) ∈ store.users.rows ∧
      session = sessionOf credentials branch userId user := by
  rw [loginLocalUser] at h
  cases huser : getUserByUsername store username with
  | none =>
      rw [huser] at h
      cases h
  | some entry =>
      obtain ⟨userId, user⟩ := entry
      simp only [huser] at h
      split at h
      · cases h
      · obtain ⟨verified, _, hsession⟩ := bind_eq_ok.mp h
        cases verified with
        | false => cases hsession
        | true =>
            obtain ⟨branch, _, hsession⟩ := bind_eq_ok.mp hsession
            cases hsession
            exact ⟨userId, user, branch, List.mem_of_find?_eq_some huser, rfl⟩

/-- A login grants the session of an account as its row is, or that of an owner. -/
theorem sessionFaithful_of_granted {store : Store} {form : LoginForm}
    {probe : Except PyError (Bool × String)} {session : Session}
    (h : loginResult d.pbkdf2 d.settings store form probe = .ok (.granted session)) :
    SessionFaithful store session := by
  have howner (credentials : Credentials) (name : String) :
      SessionFaithful store (ownerSession credentials name) :=
    ⟨fun _ hid => (Option.some_ne_none _ hid.symm).elim, fun _ => ⟨rfl, rfl, rfl⟩,
      fun hfilter => (hfilter rfl).elim⟩
  unfold loginResult at h
  dsimp only at h
  split at h
  · obtain ⟨userId, user, branch, hmem, rfl⟩ := sessionOf_of_granted h
    refine ⟨fun id hid => ?_, fun hnone => ?_, fun hfilter => (hfilter rfl).elim⟩
    · exact ⟨userId, user, Option.some.inj hid, hmem, rfl⟩
    · cases hnone
  · split at h
    · obtain ⟨matched, _, h⟩ := map_eq_ok.mp h
      split at h
      · cases h
      · split at h
        · cases h
        · cases h
          exact howner _ _
    · unfold loginCredentials at h
      split at h
      · cases h
      · obtain ⟨⟨ok, reason⟩, _, h⟩ := map_eq_ok.mp h
        cases ok
        · cases h
        · cases h
          exact howner _ _

theorem sessionsFaithful_accept {app : App} (h : SessionsFaithful app) (visit : Visit) :
    SessionsFaithful (app.accept d visit).1 := by
  intro token stored hstored
  rw [store_accept]
  rcases sessions_accept hstored with
    ⟨old, hold, hsame⟩ | hgranted
  · exact (h token old hold).sameButFilter hsame
  · unfold Grants at hgranted
    split at hgranted
    · exact sessionFaithful_of_granted hgranted
    · exact hgranted.elim

theorem sessions_apply (app : App) (k : Commit) :
    (app.apply k).1.site.sessions = app.site.sessions := by
  cases k <;> rfl

theorem sessionsFaithful_apply {app : App} (h : SessionsFaithful app) (k : Commit) :
    SessionsFaithful (app.apply k).1 := by
  intro token stored hstored
  rw [sessions_apply] at hstored
  exact (h token stored hstored).mono (accountsKept_apply app k)

theorem sessionsFaithful_invariant :
    Invariant (dashboard d) (fun _ _ => True) SessionsFaithful (fun _ _ => True) where
  accept h _ := ⟨sessionsFaithful_accept h _, trivial⟩
  accept_stable _ _ _ := trivial
  apply h _ := ⟨sessionsFaithful_apply h _, trivial⟩
  apply_stable _ _ _ := trivial

end Steps

/-- However the requests of a process interleave: every session carries what its account row holds or is
an owner's without an account, and whatever comes after, no account goes or becomes another one. -/
theorem sessions_mirror_accounts (d : Deployment) (store : Store) (history : AutoTable NotificationRow)
    (now : ℚ) (actions more : List (Action Visit)) :
    SessionsFaithful ((dashboard d).run (App.start store history now).idle actions).shared ∧
      AccountsKept ((dashboard d).run (App.start store history now).idle actions).shared.site.store
        ((dashboard d).run (App.start store history now).idle (actions ++ more)).shared.site.store := by
  constructor
  · have hstart : Holds SessionsFaithful (fun _ _ => True) (App.start store history now).idle := by
      refine ⟨fun token stored hstored => ?_, fun _ _ => trivial⟩
      cases hstored
    exact (sessionsFaithful_invariant.run_any hstart actions).shared
  · rw [InFlight.System.run_append]
    exact (dashboard d).run_rel (R := fun a b => AccountsKept a.site.store b.site.store)
      (fun app => .refl app.site.store) (fun h h' => h.trans h')
      (fun app visit => .of_users (congrArg Store.users (store_accept d app visit)))
      accountsKept_apply _ more

end ClassinDashboard

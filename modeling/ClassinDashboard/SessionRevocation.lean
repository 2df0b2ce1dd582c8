import ClassinDashboard.Runs
import ClassinDashboard.Sessions

/-!
Sessions of deactivated accounts. The active flag is read when an account logs in; the session it gets
is served until it expires or is logged out, whatever becomes of the account.
-/

namespace ClassinDashboard

open Py Sql

/-- A request to the site. A page request may write anything but accounts. -/
inductive Request
  | login (ip : String) (form : LoginForm) (probe : Except PyError (Bool × String)) (token : String)
  | logout (cookie : Option String)
  | branchScope (cookie : Option String) (branchId : String)
  | account (cookie : Option String) (request : AccountRequest)
  | page (cookie : Option String) (writes : List Write)

/-- A request, and how long after the one before it comes. -/
structure Arrival where
  wait : ℚ≥0
  request : Request

variable (pbkdf2 : Pbkdf2) (serializer : Serializer) (settings : Settings)

def Site.after (site : Site) (wait : ℚ≥0) : Site := { site with now := site.now + wait }

/-- Run a handler under the session of a cookie; without one it redirects to the login page. -/
def underSession (site : Site) (cookie : Option String) (handler : Session → Store → Store) : Site :=
  let (session, site) := currentSession serializer settings site cookie
  match session with
  | none => site
  | some session => { site with store := handler session site.store }

def Site.serve (site : Site) : Request → Site
  | .login ip form probe token => (loginSubmit pbkdf2 serializer settings site ip form probe token).2
  | .logout cookie => ClassinDashboard.logout serializer site cookie
  | .branchScope cookie branchId => setBranchScope serializer settings site cookie branchId
  | .account cookie request =>
      underSession serializer settings site cookie fun session store =>
        (manageAccount pbkdf2 store (some session) request).exec Store.writeUser store
  | .page cookie writes =>
      underSession serializer settings site cookie fun _ store => writes.foldl Store.write store

def Site.step (site : Site) (arrival : Arrival) : Site :=
  (site.after arrival.wait).serve pbkdf2 serializer settings arrival.request

/-- The session that a request is served under. -/
def Site.servedUnder (site : Site) (arrival : Arrival) : Option Session :=
  match arrival.request with
  | .login .. | .logout _ => none
  | .branchScope cookie _ | .account cookie _ | .page cookie _ =>
      (currentSession serializer settings (site.after arrival.wait) cookie).1

/-- The account of the session, when it is one of an account, is active. -/
def accountActive (store : Store) (session : Session) : Prop :=
  ∀ (userId : Nat) (row : UserRow), session.userId = some (userId : Int) →
    (userId, row) ∈ store.users.rows → row.active = true

/-- Whatever request comes next, it is not served under a deactivated account. -/
def NoneActsDeactivated (site : Site) : Prop :=
  ∀ arrival session, site.servedUnder serializer settings arrival = some session →
    accountActive site.store session

/-- A session under a token that has not expired. -/
def Site.live (site : Site) (token : String) (session : Session) : Prop :=
  ∃ stored, site.sessions token = some stored ∧ stored.expired settings.ttl site.now = false ∧
    stored.session = session

/-- The account that a request deactivates. -/
def Site.deactivates (site : Site) : Request → Option Int
  | .account cookie (.active userId active) =>
      match (currentSession serializer settings site cookie).1 with
      | none => none
      | some session =>
          if (session.role ∈ [Role.owner, Role.manager] ∧ managedUser site.store session userId ≠ none
              ∧ SqlValue.inRange userId = true) ∧ active = 0 then some userId
          else none
  | _ => none

/-- An account is deactivated only while it has no live session. -/
def DeactivatesIdle (site : Site) (arrival : Arrival) : Prop :=
  ∀ userId, (site.after arrival.wait).deactivates serializer settings arrival.request = some userId →
    ∀ token session, (site.after arrival.wait).live settings token session →
      session.userId ≠ some userId

/-! ### Live sessions -/

theorem elapsed_mono {now now' since : ℚ} (h : now ≤ now') :
    PyFloat.le (elapsed now since) (elapsed now' since) := PyFloat.ofRat_mono (by linarith)

/-- What has expired stays expired. -/
theorem expired_mono {ttl : Int} {stored : StoredSession} {now now' : ℚ} (h : now ≤ now')
    (hexpired : stored.expired ttl now = true) : stored.expired ttl now' = true :=
  PyFloat.intLt_of_le (elapsed_mono h) hexpired

variable {pbkdf2 serializer settings}

theorem live_of_after {site : Site} {wait : ℚ≥0} {token : String} {session : Session}
    (h : (site.after wait).live settings token session) : site.live settings token session := by
  obtain ⟨stored, hstored, hlive, rfl⟩ := h
  refine ⟨stored, hstored, ?_, rfl⟩
  rw [Bool.eq_false_iff] at hlive ⊢
  intro hexpired
  have hwait : site.now ≤ site.now + wait := le_add_of_nonneg_right wait.2
  exact hlive (expired_mono hwait hexpired)

/-- A cookie has a session when its token has a live one, and then nothing is dropped. -/
theorem currentSession_eq_some {site : Site} {cookie : Option String} {session : Session} :
    (currentSession serializer settings site cookie).1 = some session ↔
      ∃ token, Sessions.tokenOf serializer cookie = some token ∧
        site.live settings token session := by
  rw [currentSession, Sessions.resolve]
  cases htoken : Sessions.tokenOf serializer cookie with
  | none => simp
  | some token =>
      simp only [Option.some.injEq, exists_eq_left', Site.live]
      cases hstored : site.sessions token with
      | none => simp
      | some stored =>
          cases hexpired : stored.expired settings.ttl site.now <;> simp [hexpired]

/-- Looking a session up drops expired sessions only. -/
theorem live_currentSession {site : Site} {cookie : Option String} {token : String}
    {session : Session} :
    (currentSession serializer settings site cookie).2.live settings token session ↔
      site.live settings token session := by
  rw [currentSession, Sessions.resolve]
  cases htoken : Sessions.tokenOf serializer cookie with
  | none => exact Iff.rfl
  | some other =>
      cases hstored : site.sessions other with
      | none => simp only [hstored, Site.live]
      | some stored =>
          cases hexpired : stored.expired settings.ttl site.now with
          | false => simp only [hstored, hexpired, Bool.false_eq_true, if_false, Site.live]
          | true =>
              simp only [hstored, hexpired, if_true, Site.live]
              by_cases hsame : token = other
              · subst hsame
                simp [hstored, hexpired]
              · simp only [Function.update_of_ne hsame]

theorem tokenOf_dumps (token : String) :
    Sessions.tokenOf serializer (some (serializer.dumps token)) = some token := by
  simp [Sessions.tokenOf, Option.filter, serializer.dumps_ne_empty token, serializer.loads_dumps]

/-- Every account with a live session is active. -/
def LiveActive (settings : Settings) (site : Site) : Prop :=
  ∀ token session, site.live settings token session → accountActive site.store session

theorem servedUnder_live {site : Site} {arrival : Arrival} {session : Session}
    (h : site.servedUnder serializer settings arrival = some session) :
    ∃ token, (site.after arrival.wait).live settings token session := by
  unfold Site.servedUnder at h
  split at h
  · cases h
  · cases h
  all_goals
    obtain ⟨token, _, hlive⟩ := currentSession_eq_some.mp h
    exact ⟨token, hlive⟩

theorem noneActsDeactivated_iff {site : Site} :
    NoneActsDeactivated serializer settings site ↔ LiveActive settings site := by
  constructor
  · intro h token session hlive
    refine h ⟨0, .page (some (serializer.dumps token)) []⟩ session ?_
    have hnow : site.after 0 = site := by simp [Site.after]
    show (currentSession serializer settings (site.after 0) _).1 = some session
    rw [hnow]
    exact currentSession_eq_some.mpr ⟨token, tokenOf_dumps token, hlive⟩
  · intro h arrival session hserved
    obtain ⟨token, hlive⟩ := servedUnder_live hserved
    exact h token session (live_of_after hlive)

/-! ### What a request does to the accounts -/

theorem createUser_writes {store : Store} {salt : List UInt8} {username password : String}
    {role : Role} {branchId teacherUid : Option Int} {w : UserWrite}
    (h : w ∈ (createUser pbkdf2 store salt username password role branchId teacherUid).writes) :
    ∃ row : UserRow, row.active = true ∧ w = .create row := by
  rcases createUser_cases pbkdf2 salt username password role branchId teacherUid with
    hnone | ⟨_, _, _, hwrites⟩
  · rw [hnone] at h
    cases h
  · rw [hwrites, List.mem_singleton] at h
    exact ⟨_, rfl, h⟩

theorem adminUserCreate_writes (store : Store) (session : Session) (salt : List UInt8)
    (form : UserForm) :
    ∀ w ∈ (adminUserCreate pbkdf2 store (some session) salt form).writes,
      ∃ row, w = .create row ∧ row.active = true := by
  rw [adminUserCreate]
  split
  · simp
  · dsimp only
    split
    · simp
    · split
      · simp
      · cases intOrNone form.branchId with
        | error e => simp
        | ok branch =>
            rw [Script.lift_ok_bind]
            split
            · simp
            · split
              · simp
              · cases intOrNone form.teacherUid with
                | error e => simp
                | ok teacherUid =>
                    rw [Script.lift_ok_bind, Script.writes_bind_pure]
                    intro w hw
                    obtain ⟨row, hrow, rfl⟩ := createUser_writes hw
                    exact ⟨row, rfl, hrow⟩

theorem adminUserPassword_writes (store : Store) (session : Session) (salt : List UInt8)
    (userId : Int) (password : String) :
    ∀ w ∈ (adminUserPassword pbkdf2 store (some session) salt userId password).writes,
      ∃ id hash, w = .password id hash := by
  rw [adminUserPassword]
  split
  · simp
  · split
    · simp
    · split
      · simp
      · rw [Script.writes_bind_pure, setUserPassword]
        intro w hw
        obtain ⟨id, _, hid⟩ := bind_eq_ok.mp (Script.mem_writes_commit.mp hw)
        exact ⟨id, _, (pure_eq_ok.mp hid).symm⟩

theorem guard_eq (session : Session) (roles : List Role) :
    guard (some session) roles =
      if session.role ∈ roles then .ok session
      else .error (.forbidden ("이 화면은 " ++ " / ".intercalate (roles.map roleLabel)
        ++ " 권한이 필요합니다.")) := by
  by_cases h : session.role ∈ roles <;> simp [guard, requireRole, h]

/-- The one write that can deactivate, and when it is made. -/
theorem adminUserActive_writes (store : Store) (session : Session) (userId active : Int) :
    (adminUserActive store (some session) userId active).writes =
      if session.role ∈ [Role.owner, Role.manager] ∧ managedUser store session userId ≠ none ∧
          SqlValue.inRange userId = true then [.active userId (active ≠ 0)] else [] := by
  rw [adminUserActive, guard_eq]
  by_cases hrole : session.role ∈ [Role.owner, Role.manager]
  · simp only [hrole, if_true, true_and]
    cases hmanaged : managedUser store session userId with
    | none => simp
    | some target =>
        dsimp only
        rw [Script.writes_bind_pure, setUserActive, bindKey]
        by_cases hrange : SqlValue.inRange userId = true
        · rw [if_pos hrange, if_pos ⟨by simp, hrange⟩]
          rfl
        · rw [if_neg hrange, if_neg fun h => hrange h.2]
          rfl
  · simp only [hrole, if_false, false_and]
    rfl

theorem mem_updateUser {users : AutoTable UserRow} {userId : Int} {f : UserRow → UserRow} {id : Nat}
    {row : UserRow} :
    (id, row) ∈ (updateUser users userId f).rows ↔
      ∃ old, (id, old) ∈ users.rows ∧ row = if (id : Int) = userId then f old else old := by
  simp only [updateUser, AutoTable.update, List.mem_map, Prod.mk.injEq, Prod.exists]
  constructor
  · rintro ⟨_, old, hold, rfl, rfl⟩
    exact ⟨old, hold, rfl⟩
  · rintro ⟨old, hold, rfl⟩
    exact ⟨id, old, hold, rfl, rfl⟩

/-- Writes that never turn an account off. -/
def UserWrite.keepsActive : UserWrite → Prop
  | .create row => row.active = true
  | .active _ value => value = true
  | .password _ _ => True

theorem accountActive_writeUser {store : Store} {session : Session} {w : UserWrite}
    (hw : w.keepsActive) (h : accountActive store session) :
    accountActive (store.writeUser w) session := by
  intro userId row hid hrow
  cases w with
  | create new =>
      rcases List.mem_append.mp hrow with hold | hnew
      · exact h userId row hid hold
      · cases List.mem_singleton.mp hnew
        exact hw
  | active id active =>
      obtain ⟨old, hold, rfl⟩ := mem_updateUser.mp hrow
      split
      · exact hw
      · exact h userId old hid hold
  | password id hash =>
      obtain ⟨old, hold, rfl⟩ := mem_updateUser.mp hrow
      have := h userId old hid hold
      split <;> exact this

/-- A request that does not deactivate leaves every active account active. -/
theorem accountActive_manageAccount {store : Store} {session actor : Session}
    {request : AccountRequest}
    (hkeeps : ∀ w ∈ (manageAccount pbkdf2 store (some actor) request).writes, w.keepsActive)
    (h : accountActive store session) :
    accountActive ((manageAccount pbkdf2 store (some actor) request).exec Store.writeUser store)
      session :=
  Script.exec_induct (fun current => accountActive current session) h
    fun _ hcurrent w hw => accountActive_writeUser (hkeeps w hw) hcurrent

theorem users_write (store : Store) (w : Write) : (store.write w).users = store.users := by
  cases w <;> rfl

theorem users_foldl_write (store : Store) (writes : List Write) :
    (writes.foldl Store.write store).users = store.users := by
  induction writes generalizing store with
  | nil => rfl
  | cons w writes ih => rw [List.foldl_cons, ih, users_write]

/-! ### Step by step -/

/-- Whether the account is active depends on nothing else in the session. -/
theorem accountActive_congr {store : Store} {session other : Session}
    (h : session.userId = other.userId) (hactive : accountActive store session) :
    accountActive store other := by
  intro userId row hid
  rw [← h] at hid
  exact hactive userId row hid

/-- Sessions of the same accounts, and accounts no less active. -/
theorem LiveActive.of_live {before after : Site} (h : LiveActive settings before)
    (hlive : ∀ token session, after.live settings token session →
      ∃ old, before.live settings token old ∧ old.userId = session.userId)
    (hstore : ∀ session, accountActive before.store session → accountActive after.store session) :
    LiveActive settings after := by
  intro token session hsession
  obtain ⟨old, hold, hid⟩ := hlive token session hsession
  exact hstore session (accountActive_congr hid (h token old hold))

theorem LiveActive.after {site : Site} (h : LiveActive settings site) (wait : ℚ≥0) :
    LiveActive settings (site.after wait) :=
  h.of_live (fun _ session hlive => ⟨session, live_of_after hlive, rfl⟩) fun _ hactive => hactive

/-- A session is granted to an active account or to none. -/
theorem accountActive_of_granted {store : Store} {form : LoginForm}
    {probe : Except PyError (Bool × String)} {session : Session}
    (h : loginResult pbkdf2 settings store form probe = .ok (.granted session)) :
    accountActive store session := by
  have howner (credentials : Credentials) (name : String) :
      accountActive store (ownerSession credentials name) := by
    intro userId row hid
    cases hid
  unfold loginResult at h
  dsimp only at h
  split at h
  · obtain ⟨id, user, huser, _, hactive, hid, _⟩ := granted_login _ h
    intro userId row hid' hrow
    rw [hid, Option.some.injEq, Nat.cast_inj] at hid'
    subst hid'
    rw [AutoTable.row_unique hrow huser]
    exact hactive
  · split at h
    · obtain ⟨matched, _, h⟩ := map_eq_ok.mp h
      split at h
      · cases h
      · split at h
        · cases h
        · cases h
          exact howner _ _
    · unfold loginCredentials at h
      split at h
      · cases h
      · obtain ⟨⟨ok, reason⟩, _, h⟩ := map_eq_ok.mp h
        cases ok
        · cases h
        · cases h
          exact howner _ _

/-- Put another session, or none, under a token. -/
theorem LiveActive.update {site : Site} (h : LiveActive settings site) (throttle : LoginThrottle)
    {token : String} {value : Option StoredSession}
    (hvalue : ∀ stored, value = some stored → stored.expired settings.ttl site.now = false →
      accountActive site.store stored.session) :
    LiveActive settings
      { site with throttle, sessions := Function.update site.sessions token value } := by
  rintro token' session ⟨stored, hstored, hlive, rfl⟩
  by_cases htoken : token' = token
  · subst htoken
    have hvalue' : value = some stored := by simpa using hstored
    exact hvalue stored hvalue' hlive
  · have hold : site.sessions token' = some stored := by
      simpa [Function.update_of_ne htoken] using hstored
    exact h token' _ ⟨stored, hold, hlive, rfl⟩

theorem LiveActive.loginSubmit {site : Site} (h : LiveActive settings site) (ip : String)
    (form : LoginForm) (probe : Except PyError (Bool × String)) (token : String) :
    LiveActive settings (loginSubmit pbkdf2 serializer settings site ip form probe token).2 := by
  have hsame (throttle : LoginThrottle) : LiveActive settings { site with throttle } := h
  unfold ClassinDashboard.loginSubmit
  dsimp only
  split
  · exact hsame _
  · split
    · exact hsame _
    · split
      · exact hsame _
      · exact hsame _
      · rename_i session hgranted
        refine h.update _ fun stored hstored _ => ?_
        cases hstored
        exact accountActive_of_granted hgranted

theorem LiveActive.logout {site : Site} (h : LiveActive settings site) (cookie : Option String) :
    LiveActive settings (logout serializer site cookie) := by
  rw [ClassinDashboard.logout, Sessions.destroy]
  cases Sessions.tokenOf serializer cookie with
  | none => exact h
  | some token =>
      refine h.update _ fun stored hstored => ?_
      cases hstored

theorem LiveActive.currentSession {site : Site} (h : LiveActive settings site)
    (cookie : Option String) :
    LiveActive settings (currentSession serializer settings site cookie).2 :=
  h.of_live (fun _ session hlive => ⟨session, live_currentSession.mp hlive, rfl⟩)
    fun _ hactive => hactive

/-- The switch changes the filter of a session, not its account. -/
theorem LiveActive.setBranchScope {site : Site} (h : LiveActive settings site)
    (cookie : Option String) (branchId : String) :
    LiveActive settings (setBranchScope serializer settings site cookie branchId) := by
  have hcurrent : LiveActive settings (ClassinDashboard.currentSession serializer settings site cookie).2 :=
    h.currentSession cookie
  unfold ClassinDashboard.setBranchScope
  dsimp only
  split
  · split
    · split
      · refine hcurrent.update _ fun stored hstored hlive => ?_
        obtain ⟨old, hold, rfl⟩ := Option.map_eq_some_iff.mp hstored
        exact accountActive_congr rfl (hcurrent _ old.session ⟨old, hold, hlive, rfl⟩)
      · exact hcurrent
    · exact hcurrent
  · exact hcurrent

theorem accountActive_deactivate {store : Store} {session : Session} {userId : Int} {id : Nat}
    {row : UserRow} (hid : (id : Int) = userId) (hrow : (id, row) ∈ store.users.rows)
    (h : accountActive store session) :
    accountActive (store.writeUser (.active userId false)) session ↔
      session.userId ≠ some userId := by
  constructor
  · intro hactive hsession
    have hoff : (id, { row with active := false }) ∈
        (store.writeUser (.active userId false)).users.rows :=
      mem_updateUser.mpr ⟨row, hrow, (if_pos hid).symm⟩
    have := hactive id _ (hsession.trans (congrArg some hid.symm)) hoff
    cases this
  · intro hother id' row' hid' hrow'
    obtain ⟨old, hold, rfl⟩ := mem_updateUser.mp hrow'
    rw [if_neg fun h => hother (hid'.trans (congrArg some h))]
    exact h id' old hid' hold

theorem exists_of_managedUser {store : Store} {session : Session} {userId : Int}
    (h : managedUser store session userId ≠ none) :
    ∃ id row, ((id : Nat) : Int) = userId ∧ (id, row) ∈ store.users.rows := by
  unfold managedUser at h
  cases hfind : store.users.find userId with
  | none => simp [hfind] at h
  | some row =>
      obtain ⟨id, hid, hrow⟩ := AutoTable.mem_of_find hfind
      exact ⟨id, row, hid, hrow⟩

/-- A request under a session, with what it writes to the accounts. -/
theorem serve_account {site : Site} {cookie : Option String} {actor : Session}
    (h : (currentSession serializer settings site cookie).1 = some actor)
    (request : AccountRequest) :
    site.serve pbkdf2 serializer settings (.account cookie request) =
      { (currentSession serializer settings site cookie).2 with
        store := (manageAccount pbkdf2 site.store (some actor) request).exec Store.writeUser
          site.store } := by
  simp only [Site.serve, underSession, h]
  rfl

theorem serve_account_none {site : Site} {cookie : Option String}
    (h : (currentSession serializer settings site cookie).1 = none) (request : AccountRequest) :
    site.serve pbkdf2 serializer settings (.account cookie request) =
      (currentSession serializer settings site cookie).2 := by
  simp only [Site.serve, underSession, h]

/-- The only request that can leave a deactivated account with a live session. -/
theorem liveActive_setActive_iff {site : Site} (h : LiveActive settings site)
    (cookie : Option String) (userId active : Int) :
    LiveActive settings
        (site.serve pbkdf2 serializer settings (.account cookie (.active userId active))) ↔
      ∀ id, site.deactivates serializer settings (.account cookie (.active userId active)) = some id →
        ∀ token session, site.live settings token session → session.userId ≠ some id := by
  have hcurrent : LiveActive settings (ClassinDashboard.currentSession serializer settings site cookie).2 :=
    h.currentSession cookie
  cases hsession : (currentSession serializer settings site cookie).1 with
  | none =>
      rw [serve_account_none hsession]
      simp only [Site.deactivates, hsession, reduceCtorEq, false_implies, implies_true, iff_true]
      exact hcurrent
  | some actor =>
      rw [serve_account hsession, manageAccount, Script.exec, adminUserActive_writes]
      simp only [Site.deactivates, hsession]
      by_cases hwrites : actor.role ∈ [Role.owner, Role.manager] ∧
          managedUser site.store actor userId ≠ none ∧ SqlValue.inRange userId = true
      · rw [if_pos hwrites, List.foldl_cons, List.foldl_nil]
        by_cases hactive : active = 0
        · subst hactive
          obtain ⟨id, row, hid, hrow⟩ := exists_of_managedUser hwrites.2.1
          rw [if_pos ⟨hwrites, rfl⟩, show decide ((0 : Int) ≠ 0) = false from rfl]
          constructor
          · rintro hafter _ ⟨⟩ token session hlive
            have hactive := hafter token session (live_currentSession.mpr hlive)
            exact (accountActive_deactivate hid hrow (h token session hlive)).mp hactive
          · intro hidle token session hlive
            have hlive := live_currentSession.mp hlive
            exact (accountActive_deactivate hid hrow (h token session hlive)).mpr
              (hidle userId rfl token session hlive)
        · rw [if_neg fun h => hactive h.2, decide_eq_true hactive]
          have hkeeps : (UserWrite.active userId true).keepsActive := rfl
          refine ⟨fun _ _ h => (Option.some_ne_none _ h.symm).elim, fun _ => ?_⟩
          exact hcurrent.of_live (fun _ session hlive => ⟨session, hlive, rfl⟩)
            fun _ => accountActive_writeUser hkeeps
      · rw [if_neg hwrites, if_neg fun h => hwrites h.1]
        exact ⟨fun _ _ h => (Option.some_ne_none _ h.symm).elim, fun _ => hcurrent⟩

/-- Every other account request keeps the accounts as active as they were. -/
theorem LiveActive.account {site : Site} (h : LiveActive settings site) (cookie : Option String)
    {request : AccountRequest}
    (hkeeps : ∀ actor, ∀ w ∈ (manageAccount pbkdf2 site.store (some actor) request).writes,
      w.keepsActive) :
    LiveActive settings (site.serve pbkdf2 serializer settings (.account cookie request)) := by
  have hcurrent : LiveActive settings (ClassinDashboard.currentSession serializer settings site cookie).2 :=
    h.currentSession cookie
  cases hsession : (ClassinDashboard.currentSession serializer settings site cookie).1 with
  | none =>
      rw [serve_account_none hsession]
      exact hcurrent
  | some actor =>
      rw [serve_account hsession]
      exact hcurrent.of_live (fun _ session hlive => ⟨session, hlive, rfl⟩)
        fun _ => accountActive_manageAccount (hkeeps actor)

theorem LiveActive.page {site : Site} (h : LiveActive settings site) (cookie : Option String)
    (writes : List Write) :
    LiveActive settings (site.serve pbkdf2 serializer settings (.page cookie writes)) := by
  have hcurrent : LiveActive settings (ClassinDashboard.currentSession serializer settings site cookie).2 :=
    h.currentSession cookie
  simp only [Site.serve, underSession]
  split
  · exact hcurrent
  · refine hcurrent.of_live (fun _ session hlive => ⟨session, hlive, rfl⟩) fun session hactive => ?_
    unfold accountActive
    rw [users_foldl_write]
    exact hactive

/-- One request keeps all live sessions those of active accounts exactly when it does not deactivate
an account that has one. -/
theorem liveActive_step_iff {site : Site} (h : LiveActive settings site) (arrival : Arrival) :
    LiveActive settings (site.step pbkdf2 serializer settings arrival) ↔
      DeactivatesIdle serializer settings site arrival := by
  have hafter := h.after arrival.wait
  have hidle (hnone : (site.after arrival.wait).deactivates serializer settings arrival.request = none) :
      DeactivatesIdle serializer settings site arrival := by
    intro userId hsome
    rw [hnone] at hsome
    cases hsome
  rw [Site.step]
  obtain ⟨wait, request⟩ := arrival
  cases request with
  | login ip form probe token => exact iff_of_true (hafter.loginSubmit ip form probe token) (hidle rfl)
  | logout cookie => exact iff_of_true (hafter.logout cookie) (hidle rfl)
  | branchScope cookie branchId =>
      exact iff_of_true (hafter.setBranchScope cookie branchId) (hidle rfl)
  | page cookie writes => exact iff_of_true (hafter.page cookie writes) (hidle rfl)
  | account cookie request =>
      cases request with
      | create salt form =>
          refine iff_of_true (hafter.account cookie fun actor w hw => ?_) (hidle rfl)
          obtain ⟨row, rfl, hrow⟩ := adminUserCreate_writes _ actor salt form w hw
          exact hrow
      | password salt userId password =>
          refine iff_of_true (hafter.account cookie fun actor w hw => ?_) (hidle rfl)
          obtain ⟨id, hash, rfl⟩ := adminUserPassword_writes _ actor salt userId password w hw
          trivial
      | active userId active => exact liveActive_setActive_iff hafter cookie userId active

/-- In a run from the start of the process, no request could at any point be served under a
deactivated account exactly when no account was deactivated while it had a live session. -/
theorem noneActsDeactivated_run_iff (pbkdf2 : Pbkdf2) (serializer : Serializer)
    (settings : Settings) (store : Store) (now : ℚ) (arrivals : List Arrival) :
    Runs.Always (Site.step pbkdf2 serializer settings) (NoneActsDeactivated serializer settings)
        (Site.start store now) arrivals ↔
      Runs.EachStep (Site.step pbkdf2 serializer settings) (DeactivatesIdle serializer settings)
        (Site.start store now) arrivals := by
  have hstart : LiveActive settings (Site.start store now) := by
    rintro token session ⟨stored, hstored, _⟩
    cases hstored
  refine Runs.always_iff_eachStep ?_ (noneActsDeactivated_iff.mpr hstart)
  intro site arrival h
  rw [noneActsDeactivated_iff] at h ⊢
  exact liveActive_step_iff h arrival

/-! A deactivated account that goes on. -/

/-- A signer that marks what it signed. -/
def Serializer.plain : Serializer where
  dumps token := String.ofList ('s' :: token.toList)
  loads cookie :=
    match cookie.toList with
    | 's' :: token => some (String.ofList token)
    | _ => none
  loads_dumps token := by simp
  dumps_ne_empty token h := by
    have := congrArg String.toList h
    simp at this

def fixedSettings : Settings := ⟨true, "open", ⟨"sid", "secret"⟩, 12⟩

/-- A school with one account, whose password hash is that of a key derivation returning nothing. -/
def kimsSchool : Store :=
  Store.empty.writeUser (.create ⟨"kim", "pbkdf2$1$$", .teacher, none, some 5, true⟩)

def cookieOf (token : String) : Option String := some (Serializer.plain.dumps token)

/-- The owner and kim log in, and the owner deactivates kim. -/
def kimDeactivated : List Arrival :=
  [⟨0, .login "a" ⟨"", "", "", "open"⟩ (.ok (false, "")) "o"⟩,
    ⟨0, .login "b" ⟨"kim", "", "", "pw"⟩ (.ok (false, "")) "k"⟩,
    ⟨0, .account (cookieOf "o") (.active 1 0)⟩]

def kimsSite : Site :=
  kimDeactivated.foldl (Site.step (fun _ _ _ => []) .plain fixedSettings) (.start kimsSchool 0)

theorem kim_acts_deactivated :
    ¬Runs.Always (Site.step (fun _ _ _ => []) .plain fixedSettings)
      (NoneActsDeactivated .plain fixedSettings) (.start kimsSchool 0) kimDeactivated := by
  intro h
  have hsite : NoneActsDeactivated .plain fixedSettings kimsSite :=
    Runs.always_iff_prefix.mp h kimDeactivated (List.prefix_refl _)
  have hserved : (kimsSite.servedUnder .plain fixedSettings ⟨0, .page (cookieOf "k") []⟩).map
      (·.userId) = some (some 1) := by decide +kernel
  obtain ⟨session, hsession, hid⟩ := Option.map_eq_some_iff.mp hserved
  have hrow : (1, ⟨"kim", "pbkdf2$1$$", .teacher, none, some 5, false⟩) ∈ kimsSite.store.users.rows := by
    decide +kernel
  cases hsite _ session hsession 1 _ hid hrow

end ClassinDashboard

import ClassinDashboard.App

/-!
How long a session lives. Expired sessions are dropped only when their cookie is looked up; a table of
sessions that never drops anything, and is asked for the age of what it finds, serves every request the
same.
-/

namespace ClassinDashboard

open Py Sql InFlight

section Keeping

variable (d : Deployment)

/-- The session of a cookie in a table that keeps everything: the one stored under its token, while it is
not older than the limit. -/
def kept (site : Site) (cookie : Option String) : Option Session :=
  (Sessions.tokenOf d.serializer cookie).bind fun token =>
    ((site.sessions token).filter fun stored => !stored.expired d.settings.ttl site.now).map (·.session)

def keptLookUp (site : Site) (request : WebRequest) : Option Session :=
  request.cookie?.bind (kept d site)

/-- The branch switch on a table that keeps everything. -/
def keepingBranchScope (site : Site) (cookie : Option String) (branchId : String) : Site :=
  match kept d site cookie, Sessions.tokenOf d.serializer cookie with
  | some session, some token =>
      if session.role = .owner then
        match branchFilterOf branchId with
        | .ok filter => { site with sessions := site.sessions.setFilter token filter }
        | .error _ => site
      else site
  | _, _ => site

/-- What a request does to a table that keeps everything: only a login, a logout and a branch switch
change it. -/
def App.enterKeeping (app : App) : WebRequest → Site
  | .login ip form probe token =>
      (loginSubmit d.pbkdf2 d.serializer d.settings app.site ip form probe token).2
  | .logout cookie => ClassinDashboard.logout d.serializer app.site cookie
  | .branchScope cookie branchId => keepingBranchScope d app.site cookie branchId
  | _ => app.site

def App.acceptKeeping (app : App) (visit : Visit) : App × List Commit :=
  let app := { app with site := app.site.after visit.wait }
  ({ app with site := app.enterKeeping d visit.request },
    visit.request.commits d app.site.store (keptLookUp d app.site visit.request))

/-- The process with a table that keeps everything. -/
def keepingDashboard : System App Visit Commit := ⟨App.acceptKeeping d, App.apply⟩

end Keeping

/-! ### The tables agree on what has not expired -/

section Agree

variable {d : Deployment}

/-- The same session, or a session that was dropped after it expired. -/
def Forgets (ttl : Int) (now : ℚ) (stored book : Option StoredSession) : Prop :=
  stored = book ∨ stored = none ∧ ∃ old, book = some old ∧ old.expired ttl now = true

structure Agrees (ttl : Int) (site book : Site) : Prop where
  store : site.store = book.store
  throttle : site.throttle = book.throttle
  now : site.now = book.now
  sessions : ∀ token, Forgets ttl site.now (site.sessions token) (book.sessions token)

theorem Forgets.mono {ttl : Int} {now now' : ℚ} {stored book : Option StoredSession}
    (h : Forgets ttl now stored book) (hnow : now ≤ now') : Forgets ttl now' stored book := by
  rcases h with hsame | ⟨hnone, old, hold, hexpired⟩
  · exact .inl hsame
  · exact .inr ⟨hnone, old, hold, expired_mono hnow hexpired⟩

variable {site book : Site}

theorem Agrees.after (h : Agrees d.settings.ttl site book) (wait : ℚ≥0) :
    Agrees d.settings.ttl (site.after wait) (book.after wait) where
  store := h.store
  throttle := h.throttle
  now := by
    show site.now + wait = book.now + wait
    rw [h.now]
  sessions token := (h.sessions token).mono (le_add_of_nonneg_right wait.2)

/-- A cookie is the same session in both tables. -/
theorem Agrees.lookup (h : Agrees d.settings.ttl site book) (cookie : Option String) :
    (currentSession d.serializer d.settings site cookie).1 = kept d book cookie ∧
      Agrees d.settings.ttl (currentSession d.serializer d.settings site cookie).2 book := by
  unfold currentSession Sessions.resolve kept
  cases htoken : Sessions.tokenOf d.serializer cookie with
  | none => exact ⟨rfl, h⟩
  | some token =>
      rw [Option.bind_some, ← h.now]
      rcases h.sessions token with hsame | ⟨hnone, old, hold, hexpired⟩
      · rw [← hsame]
        cases hstored : site.sessions token with
        | none =>
            simp only [hstored]
            exact ⟨rfl, h⟩
        | some stored =>
            simp only [hstored]
            cases hexpired : stored.expired d.settings.ttl site.now with
            | false => exact ⟨by simp [hexpired], h⟩
            | true =>
                simp only [if_true]
                refine ⟨by simp [hexpired], h.store, h.throttle, h.now, fun other => ?_⟩
                by_cases hother : other = token
                · subst hother
                  exact .inr ⟨Function.update_self .., stored, hsame ▸ hstored, hexpired⟩
                · show Forgets _ _ (Function.update site.sessions token none other) _
                  rw [Function.update_of_ne hother]
                  exact h.sessions other
      · simp only [hnone, hold]
        exact ⟨by simp [hexpired], h⟩

theorem Agrees.update (h : Agrees d.settings.ttl site book) (token : String)
    {stored book' : Option StoredSession} (hstored : Forgets d.settings.ttl site.now stored book') :
    Agrees d.settings.ttl { site with sessions := Function.update site.sessions token stored }
      { book with sessions := Function.update book.sessions token book' } := by
  refine ⟨h.store, h.throttle, h.now, fun other => ?_⟩
  show Forgets _ _ (Function.update site.sessions token stored other)
    (Function.update book.sessions token book' other)
  by_cases hother : other = token
  · subst hother
    rw [Function.update_self, Function.update_self]
    exact hstored
  · rw [Function.update_of_ne hother, Function.update_of_ne hother]
    exact h.sessions other

theorem Agrees.setFilter (h : Agrees d.settings.ttl site book) (token : String) (filter : Option Int) :
    Agrees d.settings.ttl { site with sessions := site.sessions.setFilter token filter }
      { book with sessions := book.sessions.setFilter token filter } := by
  refine h.update token ?_
  rcases h.sessions token with hsame | ⟨hnone, old, hold, hexpired⟩
  · exact .inl (congrArg _ hsame)
  · rw [hnone, hold]
    exact .inr ⟨rfl, _, rfl, hexpired⟩

theorem Agrees.branchScope (h : Agrees d.settings.ttl site book) (cookie : Option String)
    (branchId : String) :
    Agrees d.settings.ttl (setBranchScope d.serializer d.settings site cookie branchId)
      (keepingBranchScope d book cookie branchId) := by
  obtain ⟨hsession, hagrees⟩ := h.lookup cookie
  unfold setBranchScope keepingBranchScope
  rw [← hsession]
  generalize currentSession d.serializer d.settings site cookie = found at hagrees
  obtain ⟨session, site'⟩ := found
  dsimp only at hagrees ⊢
  cases session with
  | none => exact hagrees
  | some session =>
      cases Sessions.tokenOf d.serializer cookie with
      | none => exact hagrees
      | some token =>
          dsimp only
          split
          · cases branchFilterOf branchId with
            | ok filter => exact hagrees.setFilter token filter
            | error e => exact hagrees
          · exact hagrees

theorem Agrees.login (h : Agrees d.settings.ttl site book) (ip : String) (form : LoginForm)
    (probe : Except PyError (Bool × String)) (token : String) :
    Agrees d.settings.ttl (loginSubmit d.pbkdf2 d.serializer d.settings site ip form probe token).2
      (loginSubmit d.pbkdf2 d.serializer d.settings book ip form probe token).2 := by
  obtain ⟨store, sessions, throttle, now⟩ := site
  obtain ⟨store', books, throttle', now'⟩ := book
  obtain ⟨hstore, hthrottle, hnow, hsessions⟩ := h
  dsimp only at hstore hthrottle hnow
  subst hstore hthrottle hnow
  have hagrees (throttle : LoginThrottle) :
      Agrees d.settings.ttl ⟨store, sessions, throttle, now⟩ ⟨store, books, throttle, now⟩ :=
    ⟨rfl, rfl, rfl, hsessions⟩
  unfold loginSubmit
  dsimp only
  generalize throttle.lockedSeconds ip now = locked
  obtain ⟨locked, throttle⟩ := locked
  cases locked with
  | error e => exact hagrees throttle
  | ok seconds =>
      dsimp only
      split
      · exact hagrees throttle
      · cases loginResult d.pbkdf2 d.settings store form probe with
        | error e => exact hagrees throttle
        | ok result =>
            cases result with
            | refused message => exact hagrees _
            | granted session => exact (hagrees _).update token (.inl rfl)

theorem Agrees.logout (h : Agrees d.settings.ttl site book) (cookie : Option String) :
    Agrees d.settings.ttl (ClassinDashboard.logout d.serializer site cookie)
      (ClassinDashboard.logout d.serializer book cookie) := by
  unfold ClassinDashboard.logout Sessions.destroy
  cases Sessions.tokenOf d.serializer cookie with
  | none => exact h
  | some token => exact h.update token (.inl rfl)

/-- A request commits the same over both tables, and they still agree. -/
theorem Agrees.enter (h : Agrees d.settings.ttl site book) (history : AutoTable NotificationRow)
    (request : WebRequest) :
    Agrees d.settings.ttl (App.enter d ⟨site, history⟩ request) (App.enterKeeping d ⟨book, history⟩ request) ∧
      (lookUp d site request).1 = keptLookUp d book request := by
  have hlookUp (request : WebRequest) : (lookUp d site request).1 = keptLookUp d book request ∧
      Agrees d.settings.ttl (lookUp d site request).2 book := by
    unfold lookUp keptLookUp
    cases request.cookie? with
    | none => exact ⟨rfl, h⟩
    | some cookie => exact h.lookup cookie
  refine ⟨?_, (hlookUp request).1⟩
  cases request with
  | login ip form probe token => exact h.login ip form probe token
  | logout cookie => exact h.logout cookie
  | branchScope cookie branchId => exact h.branchScope cookie branchId
  | _ => exact (hlookUp _).2

end Agree

/-! ### Runs -/

/-- The processes agree on all but expired sessions. -/
def AppAgrees (d : Deployment) (app book : App) : Prop :=
  Agrees d.settings.ttl app.site book.site ∧ app.history = book.history

theorem AppAgrees.apply {d : Deployment} {app book : App} (h : AppAgrees d app book) (k : Commit) :
    AppAgrees d (app.apply k).1 (book.apply k).1 ∧ (app.apply k).2 = (book.apply k).2 := by
  obtain ⟨⟨store, sessions, throttle, now⟩, history⟩ := app
  obtain ⟨⟨store', books, throttle', now'⟩, history'⟩ := book
  obtain ⟨⟨hstore, hthrottle, hnow, hsessions⟩, hhistory⟩ := h
  dsimp only at hstore hthrottle hnow hhistory
  subst hstore hthrottle hnow hhistory
  refine ⟨⟨⟨?_, ?_, ?_, ?_⟩, ?_⟩, ?_⟩ <;> cases k <;> first | rfl | exact hsessions

theorem AppAgrees.accept {d : Deployment} {app book : App} (h : AppAgrees d app book) (visit : Visit) :
    AppAgrees d (app.accept d visit).1 (book.acceptKeeping d visit).1 ∧
      (app.accept d visit).2 = (book.acceptKeeping d visit).2 := by
  obtain ⟨site, history⟩ := app
  obtain ⟨book, history'⟩ := book
  obtain ⟨hsite, hhistory⟩ := h
  obtain rfl : history = history' := hhistory
  obtain ⟨hagrees, hsession⟩ := (hsite.after visit.wait).enter history visit.request
  refine ⟨⟨hagrees, rfl⟩, ?_⟩
  show visit.request.commits d site.store _ = visit.request.commits d book.store _
  rw [hsession, hsite.store]

/-- Dropping expired sessions is invisible: over a table that keeps every session there ever was and
only asks how old it is, the process commits the same to the database and the history, has the same in
flight, and takes every cookie for the same session, whatever comes in and however it interleaves. -/
theorem expiry_unobserved (d : Deployment) (app : App) (actions : List (Action Visit)) :
    ((dashboard d).run app.idle actions).running = ((keepingDashboard d).run app.idle actions).running ∧
      ((dashboard d).run app.idle actions).shared.site.store =
        ((keepingDashboard d).run app.idle actions).shared.site.store ∧
      ((dashboard d).run app.idle actions).shared.history =
        ((keepingDashboard d).run app.idle actions).shared.history ∧
      ∀ cookie, (currentSession d.serializer d.settings
          ((dashboard d).run app.idle actions).shared.site cookie).1 =
        kept d ((keepingDashboard d).run app.idle actions).shared.site cookie := by
  have hstart : AppAgrees d app.idle.shared app.idle.shared :=
    ⟨⟨rfl, rfl, rfl, fun _ => .inl rfl⟩, rfl⟩
  obtain ⟨hagrees, hrunning⟩ := (dashboard d).run_related (keepingDashboard d) (AppAgrees d)
    (fun visit h => h.accept visit) (fun k h => h.apply k) hstart rfl actions
  exact ⟨hrunning, hagrees.1.store, hagrees.2, fun cookie => (hagrees.1.lookup cookie).1⟩

end ClassinDashboard

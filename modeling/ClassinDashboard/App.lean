import ClassinDashboard.CreateEffects
import ClassinDashboard.InFlight
import ClassinDashboard.IngestRecords
import ClassinDashboard.RoutesCreate
import ClassinDashboard.RoutesNotify
import ClassinDashboard.RoutesWebhook
import ClassinDashboard.SessionRevocation

/-!
The whole process: every route over one store, one session table and one brake. A request reads what it
decides on when it comes in and works on sessions in that moment; what it writes to the database it
commits statement by statement, with the commits of other requests in between.
-/

namespace ClassinDashboard

open Py Sql

/-- What a process is started with. -/
structure Deployment where
  platform : Platform
  pbkdf2 : Pbkdf2
  serializer : Serializer
  settings : Settings
  webhookSafekey : String

structure App where
  site : Site
  history : AutoTable NotificationRow

/-- A deployment of kim's school, without a SafeKey. -/
def kimsDeployment : Deployment := ⟨.plain, fun _ _ _ => [], .plain, fixedSettings, ""⟩

/-- A process that has just started on a database. -/
def App.start (store : Store) (history : AutoTable NotificationRow) (now : ℚ) : App :=
  ⟨.start store now, history⟩

def App.setStore (app : App) (store : Store) : App := { app with site := { app.site with store } }

@[simp] theorem setStore_store (app : App) (store : Store) :
    (app.setStore store).site.store = store := rfl

@[simp] theorem setStore_sessions (app : App) (store : Store) :
    (app.setStore store).site.sessions = app.site.sessions := rfl

@[simp] theorem setStore_history (app : App) (store : Store) :
    (app.setStore store).history = app.history := rfl

/-! ### Commits -/

inductive Commit
  /-- A line of the raw log. -/
  | raw (payload : PyValue)
  /-- The event insert; a message that was seen before ends its request. -/
  | event (row : EventRow)
  | statement (s : Statement)
  | account (w : UserWrite)
  | notification (row : NotificationRow)

def App.apply (app : App) : Commit → App × Bool
  | .raw payload =>
      (app.setStore { app.site.store with rawLog := app.site.store.rawLog ++ [payload] }, true)
  | .event row =>
      (app.setStore (insertEvent app.site.store row).2, (insertEvent app.site.store row).1)
  | .statement s => (app.setStore (s.run app.site.store), true)
  | .account w => (app.setStore (app.site.store.writeUser w), true)
  | .notification row => ({ app with history := app.history.insert row }, true)

/-- The insert of an account meets the unique username when it is committed. -/
def UserWrite.commit : UserWrite → Commit
  | .create row => .statement (.createUser row)
  | w => .account w

def CreateEffect.commit? : CreateEffect → Option Commit
  | .write w => some (.statement (.write w))
  | _ => none

def NotifyEffect.row? : NotifyEffect → Option NotificationRow
  | .record row => some row
  | .send _ => none

def NotifyEffect.commit? (effect : NotifyEffect) : Option Commit := effect.row?.map .notification

/-! ### Requests -/

inductive WebRequest
  | login (ip : String) (form : LoginForm) (probe : Except PyError (Bool × String)) (token : String)
  | logout (cookie : Option String)
  | branchScope (cookie : Option String) (branchId : String)
  | branches (cookie : Option String) (request : BranchRequest)
  | account (cookie : Option String) (request : AccountRequest)
  | create (cookie : Option String) (form : CreateForm) (answers : Answers)
  | notifySend (cookie : Option String) (form : List (String × String))
  | webhook (body : Loads)
  /-- A page that only reads. -/
  | page (cookie : Option String)

/-- A request, and how long after the one before it comes in. -/
structure Visit where
  wait : ℚ≥0
  request : WebRequest

section Serve

variable (d : Deployment)

/-- What the message of a payload commits. -/
def messageCommits (raw : PyValue) : List Commit :=
  match readEvent d.platform raw with
  | .ok (event, row) => .event row :: (handle d.platform event).writes.map fun w => .statement (.write w)
  | .error _ => []

/-- The raw log first; then the message, when its SafeKey is right. -/
def webhookCommits : Loads → List Commit
  | .value raw =>
      if raw.encodable then
        .raw raw ::
          match if d.webhookSafekey = "" then Except.ok true
            else verifyWebhookSafekey d.platform raw d.webhookSafekey with
          | .ok true => messageCommits d raw
          | .ok false | .error _ => []
      else []
  | .jsonDecodeError | .unicodeDecodeError => []

/-- What a request under a session, or under none, is going to commit. -/
def WebRequest.commits (store : Store) (session : Option Session) : WebRequest → List Commit
  | .branches _ request => (request.statements d.platform d.pbkdf2 store session).map .statement
  | .account _ request => (manageAccount d.pbkdf2 store session request).writes.map UserWrite.commit
  | .create _ form answers =>
      (createExecute d.platform answers store session form).writes.filterMap CreateEffect.commit?
  | .notifySend _ form => (ClassinDashboard.notifySend session form).writes.filterMap NotifyEffect.commit?
  | .webhook body => webhookCommits d body
  | .login .. | .logout _ | .branchScope .. | .page _ => []

/-- The cookie that a request looks its session up by. -/
def WebRequest.cookie? : WebRequest → Option (Option String)
  | .branches cookie _ | .account cookie _ | .create cookie _ _ | .notifySend cookie _ | .page cookie =>
      some cookie
  | .login .. | .logout _ | .branchScope .. | .webhook _ => none

/-- The session of a request, and the site without the one that has expired. -/
def lookUp (site : Site) (request : WebRequest) : Option Session × Site :=
  match request.cookie? with
  | some cookie => currentSession d.serializer d.settings site cookie
  | none => (none, site)

/-- What a request does to the sessions and the brake. -/
def App.enter (app : App) : WebRequest → Site
  | .login ip form probe token =>
      (loginSubmit d.pbkdf2 d.serializer d.settings app.site ip form probe token).2
  | .logout cookie => ClassinDashboard.logout d.serializer app.site cookie
  | .branchScope cookie branchId => setBranchScope d.serializer d.settings app.site cookie branchId
  | request => (lookUp d app.site request).2

def App.accept (app : App) (visit : Visit) : App × List Commit :=
  let app := { app with site := app.site.after visit.wait }
  ({ app with site := app.enter d visit.request },
    visit.request.commits d app.site.store (lookUp d app.site visit.request).1)

/-- The process as a system of requests in flight. -/
def dashboard : InFlight.System App Visit Commit := ⟨App.accept d, App.apply⟩

/-- What comes in works on sessions and the brake alone. -/
theorem store_accept (app : App) (visit : Visit) :
    (app.accept d visit).1.site.store = app.site.store := by
  show (App.enter d ⟨app.site.after visit.wait, app.history⟩ visit.request).store = app.site.store
  generalize hsite : app.site.after visit.wait = site
  have hstore : site.store = app.site.store := by
    rw [← hsite]
    rfl
  rw [← hstore]
  have hlookUp (request : WebRequest) : (lookUp d site request).2.store = site.store := by
    unfold lookUp
    split <;> rfl
  cases visit.request with
  | login ip form probe token =>
      simp only [App.enter, loginSubmit]
      split
      · rfl
      · split
        · rfl
        · split <;> rfl
  | logout cookie => rfl
  | branchScope cookie branchId =>
      simp only [App.enter, setBranchScope]
      split
      · split
        · split <;> rfl
        · rfl
      · rfl
  | _ => exact hlookUp _

/-- Nothing is in flight. -/
def App.idle (app : App) : InFlight.State App Commit := ⟨app, []⟩

end Serve

/-! ### A request that nothing comes between is its handler -/

section Alone

variable {d : Deployment} {app : App}

theorem alone_foldl {queue : List Commit} (h : ∀ k ∈ queue, ∀ row, k ≠ .event row) :
    (dashboard d).alone app queue = queue.foldl (fun app k => (app.apply k).1) app := by
  refine (dashboard d).alone_eq_foldl fun k hk app => ?_
  cases k with
  | event row => exact absurd rfl (h _ hk row)
  | _ => rfl

theorem foldl_statements (statements : List Statement) :
    (statements.map Commit.statement).foldl (fun app k => (app.apply k).1) app =
      app.setStore (statements.foldl Statement.run app.site.store) := by
  induction statements generalizing app with
  | nil => rfl
  | cons s statements ih =>
      rw [List.map_cons, List.foldl_cons, ih]
      rfl

theorem alone_statements (statements : List Statement) :
    (dashboard d).alone app (statements.map .statement) =
      app.setStore (statements.foldl Statement.run app.site.store) := by
  rw [alone_foldl, foldl_statements]
  rintro k hk row rfl
  obtain ⟨s, _, hs⟩ := List.mem_map.mp hk
  cases hs

theorem alone_writes (writes : List Write) :
    (dashboard d).alone app (writes.map fun w => .statement (.write w)) =
      app.setStore (writes.foldl Store.write app.site.store) := by
  have hmap : (writes.map fun w => Commit.statement (.write w)) =
      (writes.map Statement.write).map Commit.statement := by
    rw [List.map_map]
    rfl
  rw [hmap, alone_statements, List.foldl_map]
  rfl

/-- The webhook endpoint. -/
theorem alone_webhook (body : Loads) :
    (dashboard d).alone app (webhookCommits d body) =
      app.setStore (classinWebhook d.platform d.webhookSafekey app.site.store body).2 := by
  have hmessage (app : App) (raw : PyValue) : (dashboard d).alone app (messageCommits d raw) =
      app.setStore (ingest d.platform app.site.store raw).2 := by
    unfold messageCommits
    cases hread : readEvent d.platform raw with
    | error e =>
        rw [ingest_refused d.platform hread]
        rfl
    | ok admitted =>
        obtain ⟨event, row⟩ := admitted
        cases hdup : app.site.store.events.isDuplicate row.msgId with
        | true =>
            have hinsert := EventLog.insertOrIgnore_duplicate _ _ hdup
            rw [ingest_duplicate d.platform hread hdup]
            show (if ((dashboard d).apply app (.event row)).2 = true then _ else _) = _
            simp only [dashboard, App.apply, insertEvent, hinsert, Bool.false_eq_true, if_false]
        | false =>
            have hinsert := (EventLog.insertOrIgnore_fresh _ row hdup).1
            rw [ingest_fresh d.platform hread hdup]
            show (if ((dashboard d).apply app (.event row)).2 = true then _ else _) = _
            have hgoes : ((dashboard d).apply app (.event row)).2 = true := hinsert
            rw [if_pos hgoes, alone_writes]
            rfl
  cases body with
  | jsonDecodeError => rfl
  | unicodeDecodeError => rfl
  | value raw =>
      simp only [webhookCommits, classinWebhook]
      by_cases hencodable : raw.encodable = true
      · rw [if_pos hencodable, appendRaw_of_encodable _ hencodable]
        show (dashboard d).alone (app.apply (.raw raw)).1 _ = _
        unfold receive
        dsimp only
        cases (if d.webhookSafekey = "" then Except.ok true
          else verifyWebhookSafekey d.platform raw d.webhookSafekey) with
        | error e => rfl
        | ok verified =>
            cases verified with
            | false => rfl
            | true =>
                dsimp only
                rw [hmessage]
                show App.setStore _ (ingest d.platform _ raw).2 = _
                simp only [App.apply, setStore_store]
                cases ingest d.platform { app.site.store with rawLog := app.site.store.rawLog ++ [raw] }
                  raw with
                | mk result store => cases result <;> rfl
      · rw [if_neg hencodable, appendRaw, if_neg hencodable]
        rfl

/-- The sync. -/
theorem alone_sync (session : Option Session) (service : ClassIn) :
    (dashboard d).alone app ((syncStatements d.platform app.site.store session service).map .statement) =
      app.setStore (dashboardSync service d.platform app.site.store session).2 := by
  rw [alone_statements]
  unfold syncStatements dashboardSync
  cases session with
  | none => rfl
  | some session =>
      dsimp only
      split
      · cases clientFor app.site.store session session.branchFilter with
        | error e => rfl
        | ok credentials =>
            rw [List.foldl_map]
            rfl
      · rfl

/-- The create request. -/
theorem alone_create (session : Option Session) (form : CreateForm) (answers : Answers) :
    (dashboard d).alone app ((createExecute d.platform answers app.site.store session form).writes.filterMap
      CreateEffect.commit?) =
      app.setStore (app.site.store.create
        (createExecute d.platform answers app.site.store session form)) := by
  rw [alone_foldl]
  · unfold Store.create Script.exec
    generalize (createExecute d.platform answers app.site.store session form).writes = effects
    induction effects generalizing app with
    | nil => rfl
    | cons effect effects ih =>
        cases effect with
        | write w => exact ih
        | _ => exact ih
  · rintro k hk row rfl
    obtain ⟨effect, _, heffect⟩ := List.mem_filterMap.mp hk
    cases effect <;> cases heffect

/-- The three shapes of what a webhook request commits. -/
theorem webhookCommits_cases (d : Deployment) (body : Loads) :
    webhookCommits d body = [] ∨ (∃ payload, webhookCommits d body = [.raw payload]) ∨
      ∃ payload event row, readEvent d.platform payload = .ok (event, row) ∧ row.payload = payload ∧
        webhookCommits d body = .raw payload :: .event row ::
          (handle d.platform event).writes.map fun w => .statement (.write w) := by
  have hmessage (raw : PyValue) : messageCommits d raw = [] ∨
      ∃ event row, readEvent d.platform raw = .ok (event, row) ∧ row.payload = raw ∧
        messageCommits d raw = .event row ::
          (handle d.platform event).writes.map fun w => .statement (.write w) := by
    unfold messageCommits
    cases hread : readEvent d.platform raw with
    | error e => exact .inl rfl
    | ok read =>
        obtain ⟨event, row⟩ := read
        exact .inr ⟨event, row, rfl, payload_of_readEvent hread, rfl⟩
  cases body with
  | jsonDecodeError => exact .inl rfl
  | unicodeDecodeError => exact .inl rfl
  | value raw =>
      unfold webhookCommits
      dsimp only
      split
      · right
        split
        · rcases hmessage raw with hnone | ⟨event, row, hread, hrow, hsome⟩
          · exact .inl ⟨raw, by rw [hnone]⟩
          · exact .inr ⟨raw, event, row, hread, hrow, by rw [hsome]⟩
        · exact .inl ⟨raw, rfl⟩
        · exact .inl ⟨raw, rfl⟩
      · exact .inl rfl

/-- A create request writes courses and lessons. -/
theorem create_commit {store : Store} {session : Option Session} {form : CreateForm} {answers : Answers}
    {k : Commit} (h : k ∈ (createExecute d.platform answers store session form).writes.filterMap
      CreateEffect.commit?) :
    (∃ courseId name teacherUid, k = .statement (.write (.course courseId name teacherUid none "api"))) ∨
      ∃ lessonId row, k = .statement (.write (.lesson lessonId row)) := by
  obtain ⟨effect, heffect, hcommit⟩ := List.mem_filterMap.mp h
  cases session with
  | none => cases heffect
  | some session =>
      obtain ⟨_, _, _, _, _, _, ⟨line, rfl⟩ | ⟨_, _, heffect⟩⟩ := mem_createExecute heffect
      · cases hcommit
      · cases heffect with
        | addCourse name identity => cases hcommit
        | course courseId name => exact .inl ⟨_, _, _, (Option.some.inj hcommit).symm⟩
        | inside heffect =>
            cases heffect with
            | lesson classId courseId startTime endTime title =>
                exact .inr ⟨_, _, (Option.some.inj hcommit).symm⟩
            | activity classId activityId => exact .inr ⟨_, _, (Option.some.inj hcommit).symm⟩
            | _ => cases hcommit

/-- The ids of an account fit into their columns. -/
def UserRow.Fits (row : UserRow) : Prop := fits row.branchId = true ∧ fits row.teacherUid = true

/-- An account is inserted under a username that was free when the request came in, once it is bound. -/
theorem adminUserCreate_inserts {pbkdf2 : Pbkdf2} (store : Store) (session : Option Session)
    (salt : List UInt8) (form : UserForm) :
    (adminUserCreate pbkdf2 store session salt form).writes = [] ∨
      ∃ row, (adminUserCreate pbkdf2 store session salt form).writes = [.create row] ∧
        getUserByUsername store row.username = none ∧ row.Fits := by
  rw [adminUserCreate]
  split
  · exact .inl rfl
  · dsimp only
    split
    · exact .inl rfl
    · split
      · exact .inl rfl
      · rename_i role _
        cases intOrNone form.branchId with
        | error e => exact .inl rfl
        | ok branch =>
            rw [Script.lift_ok_bind]
            split
            · exact .inl rfl
            · split
              · exact .inl rfl
              · cases intOrNone form.teacherUid with
                | error e => exact .inl rfl
                | ok teacherUid =>
                    rw [Script.lift_ok_bind, Script.writes_bind_pure]
                    rcases createUser_cases pbkdf2 salt (stripText form.username)
                      (stripText form.password) role _ teacherUid with hnone |
                        ⟨hbranch, hteacher, hfree, hwrites⟩
                    · exact .inl hnone
                    · exact .inr ⟨_, hwrites, hfree, hbranch, hteacher⟩

/-- An account request commits one write at most: it inserts an account, or changes the one it names. -/
theorem manageAccount_writes {pbkdf2 : Pbkdf2} (store : Store) (session : Option Session)
    (request : AccountRequest) :
    (manageAccount pbkdf2 store session request).writes = [] ∨
      (∃ row, (manageAccount pbkdf2 store session request).writes = [.create row] ∧
        getUserByUsername store row.username = none ∧ row.Fits) ∨
      (∃ userId active changed, request = .active userId active ∧
        (manageAccount pbkdf2 store session request).writes = [.active userId changed]) ∨
      ∃ salt userId password hash, request = .password salt userId password ∧
        (manageAccount pbkdf2 store session request).writes = [.password userId hash] := by
  cases request with
  | create salt form =>
      rcases adminUserCreate_inserts store session salt form with hnone | hcreate
      · exact .inl hnone
      · exact .inr (.inl hcreate)
  | active userId active =>
      cases session with
      | none => exact .inl rfl
      | some session =>
          rw [manageAccount, adminUserActive_writes]
          split
          · exact .inr (.inr (.inl ⟨_, _, _, rfl, rfl⟩))
          · exact .inl rfl
  | password salt userId password =>
      rw [manageAccount, adminUserPassword]
      split
      · exact .inl rfl
      · split
        · exact .inl rfl
        · split
          · exact .inl rfl
          · rw [Script.writes_bind_pure, setUserPassword]
            cases hkey : bindKey userId with
            | error e => exact .inl rfl
            | ok key =>
                obtain rfl := bindKey_eq hkey
                exact .inr (.inr (.inr ⟨_, _, _, _, rfl, rfl⟩))

/-- An account request: the username that was free is still free when the insert comes. -/
theorem alone_account (session : Option Session) (request : AccountRequest) :
    (dashboard d).alone app
      ((manageAccount d.pbkdf2 app.site.store session request).writes.map UserWrite.commit) =
      app.setStore ((manageAccount d.pbkdf2 app.site.store session request).exec Store.writeUser
        app.site.store) := by
  unfold Script.exec
  rcases manageAccount_writes app.site.store session request with hnone | ⟨row, hwrites, hfree, _⟩ |
    ⟨_, _, _, _, hwrites⟩ | ⟨_, _, _, _, _, hwrites⟩
  · rw [hnone]
    rfl
  · rw [hwrites]
    show app.setStore ((Statement.createUser row).run app.site.store) = _
    rw [Statement.run, hfree]
    rfl
  · rw [hwrites]
    rfl
  · rw [hwrites]
    rfl

/-- The notifications of a form that is sent. -/
theorem alone_notifySend (session : Option Session) (form : List (String × String)) :
    (dashboard d).alone app ((notifySend session form).writes.filterMap NotifyEffect.commit?) =
      { app with
        history := ((notifySend session form).writes.filterMap NotifyEffect.row?).foldl
          AutoTable.insert app.history } := by
  rw [alone_foldl]
  · generalize (notifySend session form).writes = effects
    induction effects generalizing app with
    | nil => rfl
    | cons effect effects ih =>
        cases effect with
        | record row => exact ih
        | send message => exact ih
  · rintro k hk row rfl
    obtain ⟨effect, _, heffect⟩ := List.mem_filterMap.mp hk
    cases effect <;> cases heffect

end Alone

end ClassinDashboard

import ClassinDashboard.PyArith
import ClassinDashboard.RoutesAdmin
import Mathlib.Data.NNRat.Defs

/-!
The in-memory sessions behind the signed cookie, the brake on password guessing, and the login,
logout and branch switch requests. Times are readings of the wall clock; the signer of the cookie is
a parameter that reads back what it signed.
-/

namespace ClassinDashboard

open Py Sql

/-! ### Sessions -/

structure Serializer where
  dumps : String → String
  /-- `none` is a bad signature. -/
  loads : String → Option String
  loads_dumps : ∀ token, loads (dumps token) = some token
  dumps_ne_empty : ∀ token, dumps token ≠ ""

structure StoredSession where
  session : Session
  createdAt : ℚ

/-- The difference of two clock readings, as a double. -/
def elapsed (now since : ℚ) : PyFloat := .ofRat (now - since)

def StoredSession.expired (ttl : Int) (now : ℚ) (stored : StoredSession) : Bool :=
  PyFloat.intLt ttl (elapsed now stored.createdAt)

/-- The sessions by token. -/
abbrev Sessions := String → Option StoredSession

namespace Sessions

variable (serializer : Serializer) (ttl : Int) (sessions : Sessions)

/-- Store a session under a new token. -/
def create (token : String) (now : ℚ) (session : Session) : Sessions :=
  Function.update sessions token (some ⟨session, now⟩)

/-- The token in a cookie. -/
def tokenOf (cookie : Option String) : Option String :=
  (cookie.filter (· ≠ "")).bind serializer.loads

/-- The session of a cookie; an expired one is dropped. -/
def resolve (now : ℚ) (cookie : Option String) : Option Session × Sessions :=
  match tokenOf serializer cookie with
  | none => (none, sessions)
  | some token =>
      match sessions token with
      | none => (none, sessions)
      | some stored =>
          if stored.expired ttl now then (none, Function.update sessions token none)
          else (some stored.session, sessions)

def destroy (cookie : Option String) : Sessions :=
  match tokenOf serializer cookie with
  | none => sessions
  | some token => Function.update sessions token none

end Sessions

/-! ### Login -/

/-- How often an address failed, and when it last did. -/
abbrev LoginThrottle := String → Option (Nat × ℚ)

namespace LoginThrottle

def maxFailures : Nat := 5

def lockoutSeconds : ℚ := 60

/-- The seconds an address is locked for; a lock that ran out is forgotten. -/
def lockedSeconds (throttle : LoginThrottle) (ip : String) (now : ℚ) :
    Except PyError Int × LoginThrottle :=
  let (count, last) := (throttle ip).getD (0, 0)
  if count < maxFailures then (.ok 0, throttle)
  else
    let remaining := PyFloat.sub (.fin lockoutSeconds) (elapsed now last)
    if PyFloat.intLt 0 remaining then (remaining.toInt.map (· + 1), throttle)
    else (.ok 0, Function.update throttle ip none)

def recordFailure (throttle : LoginThrottle) (ip : String) (now : ℚ) : LoginThrottle :=
  Function.update throttle ip (some (((throttle ip).getD (0, 0)).1 + 1, now))

def reset (throttle : LoginThrottle) (ip : String) : LoginThrottle :=
  Function.update throttle ip none

end LoginThrottle

structure Settings where
  /-- `auth_mode == "fixed"`. -/
  fixedMode : Bool
  accessPassword : String
  /-- The server's own SID and secret. -/
  classin : Credentials
  sessionTtlHours : Int

def Settings.ttl (settings : Settings) : Int := settings.sessionTtlHours * 3600

structure LoginForm where
  username : String
  sid : String
  secret : String
  password : String

/-- A session of an owner without an account. -/
def ownerSession (credentials : Credentials) (username : String) : Session :=
  ⟨credentials.sid, credentials.secret, .owner, none, username, none, none, none⟩

/-- Whether the access password is set and matches. -/
def accessGranted (settings : Settings) (password : String) : Except PyError Bool :=
  if settings.accessPassword = "" then .ok false
  else compareDigest password.toList settings.accessPassword.toList

/-- The shared access password. -/
def loginFixed (settings : Settings) (password : String) : Except PyError LoginResult :=
  (accessGranted settings password).map fun matched =>
    if !matched then .refused "접속 비밀번호가 올바르지 않습니다."
    else if settings.classin.sid = "" || settings.classin.secret = "" then
      .refused "서버에 ClassIn 자격증명이 설정되지 않았습니다 (.env 확인)."
    else .granted (ownerSession settings.classin "owner")

/-- SID and secret; `probe` is what ClassIn says to them. -/
def loginCredentials (probe : Except PyError (Bool × String)) (sid secret : String) :
    Except PyError LoginResult :=
  if sid = "" || secret = "" then .ok (.refused "SID와 secret을 입력해 주세요.")
  else probe.map fun (ok, reason) =>
    if ok then .granted (ownerSession ⟨sid, secret⟩ ("SID " ++ sid)) else .refused reason

/-- The resolution order of a login: local account, access password, credentials. -/
def loginResult (pbkdf2 : Pbkdf2) (settings : Settings) (store : Store) (form : LoginForm)
    (probe : Except PyError (Bool × String)) : Except PyError LoginResult :=
  let username := stripText form.username
  if username ≠ "" then loginLocalUser pbkdf2 settings.classin store username form.password
  else if settings.fixedMode then loginFixed settings form.password
  else loginCredentials probe (stripText form.sid) (stripText form.secret)

/-- `int(branch_id) if branch_id.strip().isdigit() else None`. -/
def branchFilterOf (branchId : String) : Except PyError (Option Int) :=
  if isDigitText (strip branchId.toList) then
    match intText branchId.toList with
    | some n => .ok (some n)
    | none => .error .valueError
  else .ok none

/-! ### Requests -/

/-- What a process serves requests from, and the reading of the clock. -/
structure Site where
  store : Store
  sessions : Sessions
  throttle : LoginThrottle
  now : ℚ

/-- A process that has just started has no sessions. -/
def Site.start (store : Store) (now : ℚ) : Site := ⟨store, fun _ => none, fun _ => none, now⟩

inductive LoginResponse
  | locked (seconds : Int)
  | refused (message : String)
  | redirect (cookie : String)

variable (pbkdf2 : Pbkdf2) (serializer : Serializer) (settings : Settings)

/-- `POST /login`; the token of a new session is drawn at random. -/
def loginSubmit (site : Site) (ip : String) (form : LoginForm)
    (probe : Except PyError (Bool × String)) (token : String) :
    Except PyError LoginResponse × Site :=
  let (locked, throttle) := site.throttle.lockedSeconds ip site.now
  let site := { site with throttle }
  match locked with
  | .error e => (.error e, site)
  | .ok seconds =>
      if seconds ≠ 0 then (.ok (.locked seconds), site)
      else
        match loginResult pbkdf2 settings site.store form probe with
        | .error e => (.error e, site)
        | .ok (.refused message) =>
            (.ok (.refused message), { site with throttle := throttle.recordFailure ip site.now })
        | .ok (.granted session) =>
            (.ok (.redirect (serializer.dumps token)),
              { site with
                throttle := throttle.reset ip
                sessions := site.sessions.create token site.now session })

/-- `GET /logout`. -/
def logout (site : Site) (cookie : Option String) : Site :=
  { site with sessions := site.sessions.destroy serializer cookie }

/-- `current_session`: who a cookie is, and the sessions without the one that has expired. -/
def currentSession (site : Site) (cookie : Option String) : Option Session × Site :=
  let (session, sessions) := site.sessions.resolve serializer settings.ttl site.now cookie
  (session, { site with sessions })

/-- Switch the branch filter of the session under a token. -/
def Sessions.setFilter (sessions : Sessions) (token : String) (filter : Option Int) : Sessions :=
  Function.update sessions token ((sessions token).map fun stored =>
    { stored with session := { stored.session with branchFilter := filter } })

/-- `POST /scope/branch`: the owner's switch. -/
def setBranchScope (site : Site) (cookie : Option String) (branchId : String) : Site :=
  let (session, site) := currentSession serializer settings site cookie
  match session, Sessions.tokenOf serializer cookie with
  | some session, some token =>
      if session.role = .owner then
        match branchFilterOf branchId with
        | .ok filter => { site with sessions := site.sessions.setFilter token filter }
        | .error _ => site
      else site
  | _, _ => site

end ClassinDashboard

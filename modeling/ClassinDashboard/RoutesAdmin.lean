import ClassinDashboard.Accounts
import ClassinDashboard.IngestBinding

/-!
Account management of the admin screen. An owner manages every account, a manager the teacher
accounts of the own branch. The int fields of a form are parsed by the framework, and a form that
does not have them is refused before it gets here; ids that a form may leave open come as text.
-/

namespace ClassinDashboard

open Py Sql

/-! ### Guards -/

def roleLabel : Role → String
  | .owner => "원장/대표"
  | .manager => "관장"
  | .teacher => "선생님"

/-- What an admin form is answered with. -/
inductive AdminResponse
  | login
  | forbidden (message : String)
  /-- Back to the admin screen, with a message or an error. -/
  | back (msg err : String)
  deriving DecidableEq

/-- The refusal of a session whose role is not among the roles. -/
def requireRole (session : Session) (roles : List Role) : Option AdminResponse :=
  if session.role ∈ roles then none
  else some (.forbidden ("이 화면은 " ++ " / ".intercalate (roles.map roleLabel) ++ " 권한이 필요합니다."))

/-- The session and its role. -/
def guard (session : Option Session) (roles : List Role) : Except AdminResponse Session :=
  match session with
  | none => .error .login
  | some session =>
      match requireRole session roles with
      | some denied => .error denied
      | none => .ok session

/-- `ROLES`, by the text of a role. -/
def Role.ofText? : String → Option Role
  | "owner" => some .owner
  | "manager" => some .manager
  | "teacher" => some .teacher
  | _ => none

/-- The int of a form field, none when it does not look like one. `int` still raises on a text of
several signs or of digits that are not decimal. -/
def intOrNone (value : String) : Except PyError (Option Int) :=
  let value := strip value.toList
  if isDigitText (stripLeft (· = '-') value) then
    match intText value with
    | some n => .ok (some n)
    | none => .error .valueError
  else .ok none

/-! ### Accounts -/

/-- The form of a new account. -/
structure UserForm where
  username : String
  password : String
  role : String
  branchId : String
  teacherUid : String

/-- The account, if the session may manage it. -/
def managedUser (store : Store) (session : Session) (userId : Int) : Option UserRow :=
  match store.users.find userId with
  | none => none
  | some target =>
      if session.role = .owner then some target
      else if target.role = .teacher && target.branchId = session.branchId then some target
      else none

variable (pbkdf2 : Pbkdf2) (store : Store) (session : Option Session)

/-- `POST /admin/user/create`. A manager creates teacher accounts of the own branch only. -/
def adminUserCreate (salt : List UInt8) (form : UserForm) : AccountScript AdminResponse :=
  match guard session [.owner, .manager] with
  | .error denied => pure denied
  | .ok session =>
      let username := stripText form.username
      let password := stripText form.password
      if username = "" || password = "" then pure (.back "" "아이디와 비밀번호를 입력하세요.")
      else
        match Role.ofText? form.role with
        | none => pure (.back "" "알 수 없는 역할입니다.")
        | some role => do
            let branch ← Script.lift (intOrNone form.branchId)
            if session.role = .manager && role ≠ .teacher then
              pure (.back "" "관장은 선생님 계정만 생성할 수 있습니다.")
            else if (getUserByUsername store username).isSome then
              pure (.back "" "이미 있는 아이디입니다.")
            else do
              let teacherUid ← Script.lift (intOrNone form.teacherUid)
              createUser pbkdf2 store salt username password role
                (if session.role = .manager then session.branchId else branch) teacherUid
              pure (.back ("계정 「" ++ username ++ "」을 만들었습니다.") "")

/-- `POST /admin/user/active`. -/
def adminUserActive (userId active : Int) : AccountScript AdminResponse :=
  match guard session [.owner, .manager] with
  | .error denied => pure denied
  | .ok session =>
      match managedUser store session userId with
      | none => pure (.back "" "권한 범위 밖의 계정입니다.")
      | some _ => do
          setUserActive userId (active ≠ 0)
          pure (.back "계정 상태를 변경했습니다." "")

/-- `POST /admin/user/password`. -/
def adminUserPassword (salt : List UInt8) (userId : Int) (password : String) :
    AccountScript AdminResponse :=
  match guard session [.owner, .manager] with
  | .error denied => pure denied
  | .ok session =>
      if stripText password = "" then pure (.back "" "새 비밀번호를 입력하세요.")
      else
        match managedUser store session userId with
        | none => pure (.back "" "권한 범위 밖의 계정입니다.")
        | some _ => do
            setUserPassword pbkdf2 salt userId (stripText password)
            pure (.back "비밀번호를 재설정했습니다." "")

/-- A request for account management; each hash draws a salt of its own. -/
inductive AccountRequest
  | create (salt : List UInt8) (form : UserForm)
  | active (userId active : Int)
  | password (salt : List UInt8) (userId : Int) (password : String)

def manageAccount : AccountRequest → AccountScript AdminResponse
  | .create salt form => adminUserCreate pbkdf2 store session salt form
  | .active userId active => adminUserActive store session userId active
  | .password salt userId password => adminUserPassword pbkdf2 store session salt userId password

/-! ### What a manager's requests write -/

variable {store}

/-- The form of an account that a manager gets to create, and the teacher it names. -/
structure Admits (store : Store) (m : Session) (form : UserForm) (teacherUid : Option Int) :
    Prop where
  username : stripText form.username ≠ ""
  password : stripText form.password ≠ ""
  role : form.role = "teacher"
  branch : ∃ branch, intOrNone form.branchId = .ok branch
  unused : getUserByUsername store (stripText form.username) = none
  teacher : intOrNone form.teacherUid = .ok teacherUid
  branch_fits : fits m.branchId = true
  teacher_fits : fits teacherUid = true

theorem role_ofText? {text : String} {role : Role} (h : Role.ofText? text = some role) :
    text = match role with
      | .owner => "owner"
      | .manager => "manager"
      | .teacher => "teacher" := by
  unfold Role.ofText? at h
  split at h <;> cases h <;> rfl

theorem guard_manager {m : Session} (h : m.role = .manager) :
    guard (some m) [.owner, .manager] = .ok m := by
  simp [guard, requireRole, h]

theorem managedUser_manager {m : Session} (h : m.role = .manager) {userId : Int} {target : UserRow}
    (htarget : managedUser store m userId = some target) :
    store.users.find userId = some target ∧ target.role = .teacher ∧
      target.branchId = m.branchId := by
  unfold managedUser at htarget
  cases hfind : store.users.find userId with
  | none =>
      rw [hfind] at htarget
      cases htarget
  | some row =>
      simp only [hfind, h, reduceCtorEq, ↓reduceIte, Bool.and_eq_true, decide_eq_true_eq,
        Option.ite_none_right_eq_some] at htarget
      obtain ⟨⟨hrole, hbranch⟩, hrow⟩ := htarget
      cases hrow
      exact ⟨rfl, hrole, hbranch⟩

/-- Both ids fit, and the username is free. -/
theorem createUser_cases (salt : List UInt8) (username password : String) (role : Role)
    (branchId teacherUid : Option Int) :
    (createUser pbkdf2 store salt username password role branchId teacherUid).writes = [] ∨
      fits branchId = true ∧ fits teacherUid = true ∧ getUserByUsername store username = none ∧
        (createUser pbkdf2 store salt username password role branchId teacherUid).writes =
          [.create ⟨username, hashPassword pbkdf2 salt password, role, branchId, teacherUid,
            true⟩] := by
  rw [createUser]
  by_cases hb : fits branchId = true
  · by_cases ht : fits teacherUid = true
    · cases hfree : getUserByUsername store username with
      | some entry =>
          rw [bindInt_of_fits hb, bindInt_of_fits ht]
          exact Or.inl rfl
      | none =>
          rw [bindInt_of_fits hb, bindInt_of_fits ht]
          exact Or.inr ⟨hb, ht, rfl, rfl⟩
    · left
      rw [bindInt_of_fits hb]
      cases hbind : bindInt teacherUid with
      | ok t => exact absurd (bindInt_isOk.mp ⟨t, hbind⟩) ht
      | error e => rfl
  · left
    cases hbind : bindInt branchId with
    | ok b => exact absurd (bindInt_isOk.mp ⟨b, hbind⟩) hb
    | error e => rfl

/-- A manager's creation is refused, or it inserts a teacher account of the manager's branch. -/
theorem adminUserCreate_cases {m : Session} (hrole : m.role = .manager) (salt : List UInt8)
    (form : UserForm) :
    (adminUserCreate pbkdf2 store (some m) salt form).writes = [] ∨
      ∃ teacherUid, Admits store m form teacherUid ∧
        (adminUserCreate pbkdf2 store (some m) salt form).writes =
          [.create ⟨stripText form.username, hashPassword pbkdf2 salt (stripText form.password),
            .teacher, m.branchId, teacherUid, true⟩] := by
  rw [adminUserCreate, guard_manager hrole]
  simp only [hrole, ↓reduceIte, decide_true, Bool.true_and]
  split
  · exact Or.inl rfl
  · rename_i hfilled
    simp only [Bool.or_eq_true, decide_eq_true_eq, not_or] at hfilled
    split
    · exact Or.inl rfl
    · rename_i role hofText
      cases hbranch : intOrNone form.branchId with
      | error e => exact Or.inl rfl
      | ok branch =>
          rw [Script.lift_ok_bind]
          split
          · exact Or.inl rfl
          · rename_i hteacher
            simp only [ne_eq, decide_not, Bool.not_eq_true', decide_eq_false_iff_not,
              Decidable.not_not] at hteacher
            subst hteacher
            split
            · exact Or.inl rfl
            · cases hint : intOrNone form.teacherUid with
              | error e => exact Or.inl rfl
              | ok teacherUid =>
                  rw [Script.lift_ok_bind, Script.writes_bind_pure]
                  rcases createUser_cases pbkdf2 salt (stripText form.username)
                    (stripText form.password) .teacher m.branchId teacherUid with
                    hnone | ⟨hb, ht, hfree, hwrites⟩
                  · exact Or.inl hnone
                  · exact Or.inr ⟨teacherUid, ⟨hfilled.1, hfilled.2, role_ofText? hofText,
                      ⟨branch, hbranch⟩, hfree, hint, hb, ht⟩, hwrites⟩

theorem adminUserActive_cases (m : Session) (userId active : Int) :
    (adminUserActive store (some m) userId active).writes = [] ∨
      (adminUserActive store (some m) userId active).writes = [.active userId (active ≠ 0)] := by
  rw [adminUserActive]
  split
  · exact Or.inl rfl
  · split
    · exact Or.inl rfl
    · rw [Script.writes_bind_pure, setUserActive]
      cases hkey : bindKey userId with
      | error e => exact Or.inl rfl
      | ok key =>
          rw [bindKey_eq hkey]
          exact Or.inr rfl

/-- A manager's reset is refused, or it sets the password of an account the manager manages. -/
theorem adminUserPassword_cases {m : Session} (hrole : m.role = .manager) (salt : List UInt8)
    (userId : Int) (password : String) :
    (adminUserPassword pbkdf2 store (some m) salt userId password).writes = [] ∨
      stripText password ≠ "" ∧ (∃ target, managedUser store m userId = some target) ∧
        (adminUserPassword pbkdf2 store (some m) salt userId password).writes =
          [.password userId (hashPassword pbkdf2 salt (stripText password))] := by
  rw [adminUserPassword, guard_manager hrole]
  dsimp only
  split
  · exact Or.inl rfl
  · rename_i hfilled
    split
    · exact Or.inl rfl
    · rename_i target htarget
      rw [Script.writes_bind_pure, setUserPassword]
      cases hkey : bindKey userId with
      | error e => exact Or.inl rfl
      | ok key =>
          rw [bindKey_eq hkey]
          exact Or.inr ⟨hfilled, ⟨target, htarget⟩, rfl⟩

end ClassinDashboard

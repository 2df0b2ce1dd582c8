import ClassinDashboard.PyText
import ClassinDashboard.Session

/-!
Local accounts: the stored password hash, the `users` table and the login of an account. The key
derivation is arbitrary; only the text that a hash is stored as is fixed.
-/

namespace ClassinDashboard

open Py Sql

/-! ### Password hashes -/

/-- PBKDF2-HMAC-SHA256 of a password, a salt and an iteration count. -/
abbrev Pbkdf2 := String → List UInt8 → Nat → List UInt8

def hexDigit (n : Nat) : Char := Char.ofNat (if n < 10 then 48 + n else 87 + n)

/-- `bytes.hex()`. -/
def hex (bytes : List UInt8) : List Char :=
  bytes.flatMap fun b => [hexDigit (b.toNat / 16), hexDigit (b.toNat % 16)]

def hexValue (c : Char) : Option Nat :=
  if '0' ≤ c ∧ c ≤ '9' then some (c.toNat - 48)
  else if 'a' ≤ c ∧ c ≤ 'f' then some (c.toNat - 87)
  else if 'A' ≤ c ∧ c ≤ 'F' then some (c.toNat - 55)
  else none

/-- `bytes.fromhex(text)`, which skips ASCII blanks between bytes; `none` is its `ValueError`. -/
def fromHex : List Char → Option (List UInt8)
  | [] => some []
  | [c] => if inRanges [(0x9, 0xd), (0x20, 0x20)] c then some [] else none
  | c :: d :: rest =>
      if inRanges [(0x9, 0xd), (0x20, 0x20)] c then fromHex (d :: rest)
      else do
        let high ← hexValue c
        let low ← hexValue d
        let bytes ← fromHex rest
        pure (UInt8.ofNat (16 * high + low) :: bytes)

def pbkdf2Iterations : Nat := 200000

variable (pbkdf2 : Pbkdf2)

/-- `pbkdf2$iters$salt_hex$hash_hex`; the salt is random. -/
def hashPassword (salt : List UInt8) (password : String) : String :=
  String.ofList (['$'].intercalate ["pbkdf2".toList, Nat.toDigits 10 pbkdf2Iterations, hex salt,
    hex (pbkdf2 password salt pbkdf2Iterations)])

/-- `hmac.compare_digest` of two texts. -/
def compareDigest (a b : List Char) : Except PyError Bool :=
  if (a ++ b).all fun c => c.toNat < 128 then .ok (a = b) else .error .typeError

/-- Check a password against a stored hash. A malformed hash is a mismatch. -/
def verifyPassword (stored password : String) : Except PyError Bool :=
  match stored.toList.splitOn '$' with
  | [scheme, iters, saltHex, hashHex] =>
      if scheme ≠ "pbkdf2".toList then .ok false
      else match fromHex saltHex, intText iters with
        | some salt, some n =>
            if n < -2 ^ 63 then .error .overflowError
            else if n < 1 then .ok false
            else if n < 2 ^ 31 then compareDigest (hex (pbkdf2 password salt n.toNat)) hashHex
            else .error .overflowError
        | _, _ => .ok false
  | _ => .ok false

theorem hexValue_hexDigit {n : Nat} (h : n < 16) : hexValue (hexDigit n) = some n := by
  revert h
  revert n
  decide

/-- A digit is neither a blank nor a separator, and it is ASCII. -/
theorem hexDigit_plain {n : Nat} (h : n < 16) :
    inRanges [(0x9, 0xd), (0x20, 0x20)] (hexDigit n) = false ∧ hexDigit n ≠ '$' ∧
      (hexDigit n).toNat < 128 := by
  revert h
  revert n
  decide

theorem mem_hex {bytes : List UInt8} {c : Char} (h : c ∈ hex bytes) :
    ∃ n, n < 16 ∧ c = hexDigit n := by
  obtain ⟨b, _, hc⟩ := List.mem_flatMap.mp h
  have hb := b.toNat_lt
  simp only [List.mem_cons, List.not_mem_nil, or_false] at hc
  rcases hc with rfl | rfl
  · exact ⟨_, by omega, rfl⟩
  · exact ⟨_, by omega, rfl⟩

theorem fromHex_hex (bytes : List UInt8) : fromHex (hex bytes) = some bytes := by
  induction bytes with
  | nil => rfl
  | cons b bytes ih =>
      have hb := b.toNat_lt
      have hhigh : b.toNat / 16 < 16 := by omega
      have hlow : b.toNat % 16 < 16 := Nat.mod_lt _ (by decide)
      have hbyte : 16 * (b.toNat / 16) + b.toNat % 16 = b.toNat := Nat.div_add_mod _ _
      show fromHex (hexDigit (b.toNat / 16) :: hexDigit (b.toNat % 16) :: hex bytes) = _
      rw [fromHex, (hexDigit_plain hhigh).1, hexValue_hexDigit hhigh, hexValue_hexDigit hlow, ih]
      simp only [Bool.false_eq_true, ↓reduceIte, Option.bind_eq_bind, Option.bind_some, hbyte,
        UInt8.ofNat_toNat]
      rfl

/-- The password that a hash was made of verifies, whatever the key derivation. -/
theorem verifyPassword_hashPassword (salt : List UInt8) (password : String) :
    verifyPassword pbkdf2 (hashPassword pbkdf2 salt password) password = .ok true := by
  have hsplit : (hashPassword pbkdf2 salt password).toList.splitOn '$' =
      ["pbkdf2".toList, Nat.toDigits 10 pbkdf2Iterations, hex salt,
        hex (pbkdf2 password salt pbkdf2Iterations)] := by
    have hplain (bytes : List UInt8) : '$' ∉ hex bytes := by
      intro hmem
      obtain ⟨n, hn, hc⟩ := mem_hex hmem
      exact (hexDigit_plain hn).2.1 hc.symm
    rw [hashPassword, String.toList_ofList]
    refine List.splitOn_intercalate _ ?_ (by simp)
    simp only [List.mem_cons, List.not_mem_nil, or_false]
    rintro text (rfl | rfl | rfl | rfl)
    · decide
    · decide
    · exact hplain _
    · exact hplain _
  have hiters : intText (Nat.toDigits 10 pbkdf2Iterations) = some (pbkdf2Iterations : Int) := by
    decide
  have hascii (bytes : List UInt8) : (hex bytes ++ hex bytes).all (fun c => c.toNat < 128) = true := by
    simp only [List.all_append, Bool.and_self, List.all_eq_true, decide_eq_true_eq]
    intro c hc
    obtain ⟨n, hn, rfl⟩ := mem_hex hc
    exact (hexDigit_plain hn).2.2
  rw [verifyPassword, hsplit]
  simp only [fromHex_hex, hiters, ne_eq, not_true_eq_false, ↓reduceIte]
  rw [if_neg (by decide), if_neg (by decide), if_pos (by decide), Int.toNat_natCast, compareDigest, if_pos (hascii _),
    decide_eq_true rfl]

/-! ### The table of accounts -/

/-- The statements on `users`. -/
inductive UserWrite
  | create (row : UserRow)
  | active (userId : Int) (active : Bool)
  | password (userId : Int) (passwordHash : String)

/-- Update the account of an id. -/
def updateUser (users : AutoTable UserRow) (userId : Int) (f : UserRow → UserRow) :
    AutoTable UserRow :=
  users.update fun id row => if (id : Int) = userId then f row else row

def Store.writeUser (store : Store) : UserWrite → Store
  | .create row => { store with users := store.users.insert row }
  | .active userId active =>
      { store with users := updateUser store.users userId fun row => { row with active } }
  | .password userId passwordHash =>
      { store with users := updateUser store.users userId fun row => { row with passwordHash } }

/-- A handler that only writes accounts. -/
abbrev AccountScript (α : Type) := Script UserWrite PyError α

/-- The account of a username, with its id. -/
def getUserByUsername (store : Store) (username : String) : Option (Nat × UserRow) :=
  store.users.rows.find? fun entry => entry.2.username = username

/-- Insert an account; its username is unique. -/
def createUser (store : Store) (salt : List UInt8) (username password : String) (role : Role)
    (branchId teacherUid : Option Int) : AccountScript Unit := Script.commit do
  let passwordHash := hashPassword pbkdf2 salt password
  let branchId ← bindInt branchId
  let teacherUid ← bindInt teacherUid
  if (getUserByUsername store username).isSome then throw .integrityError
  pure (.create { username, passwordHash, role, branchId, teacherUid, active := true })

def setUserActive (userId : Int) (active : Bool) : AccountScript Unit := Script.commit do
  let userId ← bindKey userId
  pure (.active userId active)

def setUserPassword (salt : List UInt8) (userId : Int) (password : String) : AccountScript Unit :=
  Script.commit do
    let userId ← bindKey userId
    pure (.password userId (hashPassword pbkdf2 salt password))

/-! ### Login -/

def badLogin : String := "아이디 또는 비밀번호가 올바르지 않습니다."

inductive LoginResult
  | refused (message : String)
  | granted (session : Session)

/-- The session of an account: role and scope come from its row, the ClassIn credentials from its
branch or else from the server. -/
def sessionOf (settings : Credentials) (branch : Option BranchRow) (userId : Nat) (user : UserRow) :
    Session :=
  let credentials := (branch.bind BranchRow.credentials).getD settings
  ⟨credentials.sid, credentials.secret, user.role, some userId, user.username, user.branchId,
    user.teacherUid, none⟩

/-- Local account to session, or an error message. -/
def loginLocalUser (settings : Credentials) (store : Store) (username password : String) :
    Except PyError LoginResult :=
  match getUserByUsername store username with
  | none => .ok (.refused badLogin)
  | some (userId, user) =>
      if !user.active then .ok (.refused badLogin)
      else do
        if ← verifyPassword pbkdf2 user.passwordHash password then
          let branch ← getBranch store user.branchId
          pure (.granted (sessionOf settings branch userId user))
        else pure (.refused badLogin)

/-- Who gets a session: the account of the username, with its own role, branch and teacher. -/
theorem granted_login {settings : Credentials} {store : Store} {username password : String}
    {session : Session}
    (h : loginLocalUser pbkdf2 settings store username password = .ok (.granted session)) :
    ∃ userId user, (userId, user) ∈ store.users.rows ∧ user.username = username ∧
      user.active = true ∧ session.userId = some (userId : Int) ∧ session.role = user.role ∧
      session.branchId = user.branchId ∧ session.teacherUid = user.teacherUid ∧
      session.branchFilter = none := by
  rw [loginLocalUser] at h
  cases huser : getUserByUsername store username with
  | none =>
      rw [huser] at h
      cases h
  | some entry =>
      obtain ⟨userId, user⟩ := entry
      simp only [huser] at h
      have hname : user.username = username := by simpa using List.find?_some huser
      refine ⟨userId, user, List.mem_of_find?_eq_some huser, hname, ?_⟩
      cases hactive : user.active with
      | false =>
          simp only [hactive, Bool.not_false, ↓reduceIte] at h
          cases h
      | true =>
          simp only [hactive, Bool.not_true, Bool.false_eq_true, ↓reduceIte] at h
          obtain ⟨verified, _, hsession⟩ := bind_eq_ok.mp h
          cases verified with
          | false => cases hsession
          | true =>
              obtain ⟨branch, _, hsession⟩ := bind_eq_ok.mp hsession
              cases hsession
              exact ⟨rfl, rfl, rfl, rfl, rfl, rfl⟩

end ClassinDashboard

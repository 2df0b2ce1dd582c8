import ClassinDashboard.PyDateTime
import ClassinDashboard.PyLockout
import ClassinDashboard.SessionRevocation

/-!
The brake on password guessing over whole runs of login requests. Per address it is a lock of five
failures and sixty seconds, in exact arithmetic, which on readings of the clock is the arithmetic of
the doubles. An evaluation that raises is neither a failure nor a success to it.
-/

namespace ClassinDashboard

open Py Sql

/-! ### The brake in exact arithmetic -/

/-- How the brake is asked, and what it keeps. -/
abbrev AskBrake := LoginThrottle → String → ℚ → Except PyError Int × LoginThrottle

/-- `locked_seconds` without a rounding error. -/
def LoginThrottle.exactLockedSeconds : AskBrake := fun throttle ip now =>
  let (count, last) := (throttle ip).getD (0, 0)
  if count < maxFailures then (.ok 0, throttle)
  else
    let remaining := lockoutSeconds - (now - last)
    if 0 < remaining then (.ok (⌊remaining⌋ + 1), throttle)
    else (.ok 0, Function.update throttle ip none)

/-- A login request, with what it is evaluated on. -/
structure LoginAttempt where
  ip : String
  time : ℚ
  store : Store
  form : LoginForm
  probe : Except PyError (Bool × String)
  token : String

/-- A login request and its response. -/
structure LoginEntry where
  attempt : LoginAttempt
  response : Except PyError LoginResponse

variable (ask : AskBrake) (pbkdf2 : Pbkdf2) (serializer : Serializer) (settings : Settings)

/-- `POST /login` under either arithmetic. -/
def loginSubmitIn (site : Site) (ip : String) (form : LoginForm)
    (probe : Except PyError (Bool × String)) (token : String) :
    Except PyError LoginResponse × Site :=
  let (locked, throttle) := ask site.throttle ip site.now
  let site := { site with throttle }
  match locked with
  | .error e => (.error e, site)
  | .ok seconds =>
      if seconds ≠ 0 then (.ok (.locked seconds), site)
      else
        match loginResult pbkdf2 settings site.store form probe with
        | .error e => (.error e, site)
        | .ok (.refused message) =>
            (.ok (.refused message), { site with throttle := throttle.recordFailure ip site.now })
        | .ok (.granted session) =>
            (.ok (.redirect (serializer.dumps token)),
              { site with
                throttle := throttle.reset ip
                sessions := site.sessions.create token site.now session })

theorem loginSubmit_eq : loginSubmit pbkdf2 serializer settings =
    loginSubmitIn LoginThrottle.lockedSeconds pbkdf2 serializer settings := rfl

/-- One attempt, at its time and on the store of that time. -/
def Site.attempt (site : Site) (a : LoginAttempt) : Except PyError LoginResponse × Site :=
  loginSubmitIn ask pbkdf2 serializer settings { site with store := a.store, now := a.time } a.ip a.form
    a.probe a.token

/-- The attempts of a run with their responses. -/
def loginLog (site : Site) : List LoginAttempt → List LoginEntry
  | [] => []
  | a :: attempts =>
      ⟨a, (site.attempt ask pbkdf2 serializer settings a).1⟩ ::
        loginLog (site.attempt ask pbkdf2 serializer settings a).2 attempts

/-- How a response looks to a lock. -/
def LoginEntry.seen (e : LoginEntry) : Lockout.Entry ℚ where
  time := e.attempt.time
  verdict := match e.response with
    | .ok (.locked _) => .held
    | .ok (.refused _) => .failed
    | .ok (.redirect _) => .passed
    | .error _ => .broken

/-- The attempts from an address. -/
def attemptsFrom (ip : String) (entries : List LoginEntry) : List (Lockout.Entry ℚ) :=
  (entries.filter fun e => e.attempt.ip = ip).map LoginEntry.seen

/-- The evaluation of an attempt returns: no stored hash is out of bounds, both passwords are ASCII,
the probe of ClassIn has an answer. -/
def LoginAttempt.Settled (a : LoginAttempt) : Prop :=
  if stripText a.form.username ≠ "" then
    ∀ userId user, getUserByUsername a.store (stripText a.form.username) = some (userId, user) →
      user.active = true → ∃ matched, verifyPassword pbkdf2 user.passwordHash a.form.password = .ok matched ∧
        (matched = true → ∃ branch, getBranch a.store user.branchId = .ok branch)
  else if settings.fixedMode then
    settings.accessPassword = "" ∨
      ∀ c ∈ a.form.password.toList ++ settings.accessPassword.toList, c.toNat < 128
  else stripText a.form.sid = "" ∨ stripText a.form.secret = "" ∨ ∃ answer, a.probe = .ok answer

/-! ### What an evaluation returns -/

section Evaluation

variable {pbkdf2 : Pbkdf2} {settings : Settings} {a : LoginAttempt}

theorem loginLocalUser_isOk {credentials : Credentials} {store : Store} {username password : String} :
    (∃ result, loginLocalUser pbkdf2 credentials store username password = .ok result) ↔
      ∀ userId user, getUserByUsername store username = some (userId, user) → user.active = true →
        ∃ matched, verifyPassword pbkdf2 user.passwordHash password = .ok matched ∧
          (matched = true → ∃ branch, getBranch store user.branchId = .ok branch) := by
  rw [loginLocalUser]
  cases huser : getUserByUsername store username with
  | none =>
      refine iff_of_true ⟨_, rfl⟩ fun _ _ h => ?_
      cases h
  | some found =>
      obtain ⟨userId, user⟩ := found
      cases hactive : user.active with
      | false =>
          refine iff_of_true ⟨.refused badLogin, by simp [hactive]⟩ fun _ _ heq h => ?_
          obtain ⟨rfl, rfl⟩ := Prod.mk.inj (Option.some.inj heq)
          exact absurd hactive (by simp [h])
      | true =>
          have hrest (matched : Bool) : (∃ result, (if matched then do
                let branch ← getBranch store user.branchId
                pure (.granted (sessionOf credentials branch userId user))
              else pure (.refused badLogin) : Except PyError LoginResult) = .ok result) ↔
              (matched = true → ∃ branch, getBranch store user.branchId = .ok branch) := by
            cases matched with
            | false =>
                refine iff_of_true ⟨_, rfl⟩ fun h => ?_
                cases h
            | true =>
                rw [if_pos rfl, bind_isOk, forall_prop_of_true rfl]
                exact exists_congr fun branch => and_iff_left ⟨_, rfl⟩
          simp only [hactive, Bool.not_true, Bool.false_eq_true, if_false]
          rw [bind_isOk]
          simp only [hrest]
          constructor
          · rintro h _ _ heq -
            obtain ⟨rfl, rfl⟩ := Prod.mk.inj (Option.some.inj heq)
            exact h
          · exact fun h => h userId user rfl hactive

theorem loginFixed_isOk {password : String} : (∃ result, loginFixed settings password = .ok result) ↔
    settings.accessPassword = "" ∨
      ∀ c ∈ password.toList ++ settings.accessPassword.toList, c.toNat < 128 := by
  rw [loginFixed, map_isOk, accessGranted]
  by_cases hset : settings.accessPassword = ""
  · rw [if_pos hset]
    exact iff_of_true ⟨_, rfl⟩ (.inl hset)
  · have hall : ((password.toList ++ settings.accessPassword.toList).all fun c => c.toNat < 128) = true ↔
        ∀ c ∈ password.toList ++ settings.accessPassword.toList, c.toNat < 128 := by
      simp only [List.all_eq_true, decide_eq_true_iff]
    rw [if_neg hset, compareDigest, or_iff_right hset, ← hall]
    split
    · rename_i hascii
      exact iff_of_true ⟨_, rfl⟩ hascii
    · rename_i hascii
      refine iff_of_false ?_ hascii
      rintro ⟨result, h⟩
      cases h

theorem loginCredentials_isOk {probe : Except PyError (Bool × String)} {sid secret : String} :
    (∃ result, loginCredentials probe sid secret = .ok result) ↔
      sid = "" ∨ secret = "" ∨ ∃ answer, probe = .ok answer := by
  rw [loginCredentials]
  by_cases hblank : sid = "" ∨ secret = ""
  · rw [if_pos (by simpa using hblank)]
    exact iff_of_true ⟨_, rfl⟩ (hblank.imp_right .inl)
  · rw [if_neg (by simpa using hblank), map_isOk, ← or_assoc, or_iff_right hblank]

theorem settled_iff : a.Settled pbkdf2 settings ↔
    ∃ result, loginResult pbkdf2 settings a.store a.form a.probe = .ok result := by
  rw [LoginAttempt.Settled, loginResult]
  split
  · exact loginLocalUser_isOk.symm
  · split
    · exact loginFixed_isOk.symm
    · exact loginCredentials_isOk.symm

end Evaluation

/-! ### The brake is a lock per address -/

/-- The lock of one address. -/
abbrev BrakeLock := Lockout.Lock ℚ

def BrakeLock.closed (lock : BrakeLock) (now : ℚ) : Bool :=
  Lockout.Lock.closed LoginThrottle.maxFailures LoginThrottle.lockoutSeconds lock now

/-- What an attempt is answered under a lock. -/
def LoginAttempt.answer (lock : BrakeLock) (a : LoginAttempt) : Except PyError LoginResponse :=
  if lock.closed a.time then
    .ok (.locked (⌊LoginThrottle.lockoutSeconds - (a.time - (lock.getD (0, 0)).2)⌋ + 1))
  else (loginResult pbkdf2 settings a.store a.form a.probe).map fun
    | .refused message => .refused message
    | .granted _ => .redirect (serializer.dumps a.token)

section Lock

variable {throttle : LoginThrottle} {ip : String} {now : ℚ}

theorem count_getD (lock : BrakeLock) : (lock.getD (0, 0)).1 = (lock.map Prod.fst).getD 0 := by
  cases lock <;> rfl

theorem exists_of_closed {lock : BrakeLock} (h : lock.closed now = true) :
    ∃ kept, lock = some kept ∧ LoginThrottle.maxFailures ≤ kept.1 ∧
      0 < LoginThrottle.lockoutSeconds - (now - kept.2) := by
  cases lock with
  | none => cases h
  | some kept =>
      obtain ⟨hcount, hlast⟩ := Bool.and_eq_true_iff.mp (show (_ && _) = true from h)
      have hlast := of_decide_eq_true hlast
      exact ⟨kept, rfl, of_decide_eq_true hcount, by linarith⟩

theorem exactLockedSeconds_closed (h : BrakeLock.closed (throttle ip) now = true) :
    throttle.exactLockedSeconds ip now = (.ok (⌊LoginThrottle.lockoutSeconds -
      (now - ((throttle ip).getD (0, 0)).2)⌋ + 1), throttle) := by
  obtain ⟨kept, hkept, hcount, hremaining⟩ := exists_of_closed h
  rw [LoginThrottle.exactLockedSeconds, hkept, Option.getD_some]
  simp only [if_neg (not_lt.mpr hcount), if_pos hremaining]

theorem exactLockedSeconds_open (h : BrakeLock.closed (throttle ip) now = false) :
    throttle.exactLockedSeconds ip now = (.ok 0,
      Function.update throttle ip (Lockout.Lock.opened LoginThrottle.maxFailures (throttle ip))) := by
  rw [LoginThrottle.exactLockedSeconds]
  cases hkept : throttle ip with
  | none =>
      have hsame : Function.update throttle ip none = throttle := by
        rw [← hkept, Function.update_eq_self]
      show (_, throttle) = (_, Function.update throttle ip none)
      rw [hsame]
  | some kept =>
      rw [hkept] at h
      have hopen : (decide (LoginThrottle.maxFailures ≤ kept.1) &&
          decide (now < kept.2 + LoginThrottle.lockoutSeconds)) = false := h
      rw [Option.getD_some, Lockout.Lock.opened]
      by_cases hcount : kept.1 < LoginThrottle.maxFailures
      · rw [Option.filter_some_pos (by simpa using hcount), ← hkept, Function.update_eq_self]
        simp only [if_pos hcount]
      · have hover : ¬ 0 < LoginThrottle.lockoutSeconds - (now - kept.2) := by
          rw [decide_eq_true (not_lt.mp hcount), Bool.true_and, decide_eq_false_iff_not] at hopen
          linarith
        rw [Option.filter_some_neg (by simpa using hcount)]
        simp only [if_neg hcount, if_neg hover]

end Lock

section Step

/-- An attempt is answered by the lock of its address, and moves that lock only. -/
theorem attempt_eq (site : Site) (a : LoginAttempt) :
    (site.attempt LoginThrottle.exactLockedSeconds pbkdf2 serializer settings a).1 =
        a.answer pbkdf2 serializer settings (site.throttle a.ip) ∧
      (site.attempt LoginThrottle.exactLockedSeconds pbkdf2 serializer settings a).2.throttle =
        Function.update site.throttle a.ip (Lockout.Lock.next LoginThrottle.maxFailures
          (site.throttle a.ip)
            (LoginEntry.seen ⟨a, a.answer pbkdf2 serializer settings (site.throttle a.ip)⟩)) := by
  rw [LoginAttempt.answer, Site.attempt, loginSubmitIn]
  cases hclosed : BrakeLock.closed (site.throttle a.ip) a.time with
  | true =>
      have hseconds : ⌊LoginThrottle.lockoutSeconds - (a.time - ((site.throttle a.ip).getD (0, 0)).2)⌋ + 1 ≠
          0 := by
        obtain ⟨kept, hkept, -, hremaining⟩ := exists_of_closed hclosed
        rw [hkept, Option.getD_some]
        have hfloor := Int.floor_nonneg.mpr hremaining.le
        omega
      simp only [exactLockedSeconds_closed hclosed, if_pos hseconds, if_true]
      exact ⟨trivial, (Function.update_eq_self _ _).symm⟩
  | false =>
      simp only [exactLockedSeconds_open hclosed, ne_eq, not_true_eq_false, if_false,
        Bool.false_eq_true]
      cases loginResult pbkdf2 settings a.store a.form a.probe with
      | error e => exact ⟨rfl, rfl⟩
      | ok result =>
          cases result with
          | refused message =>
              refine ⟨rfl, ?_⟩
              show Function.update (Function.update _ _ _) _ _ = _
              rw [Function.update_idem, Function.update_self, count_getD]
              rfl
          | granted session =>
              refine ⟨rfl, ?_⟩
              exact Function.update_idem ..

variable {pbkdf2 : Pbkdf2} {serializer : Serializer} {settings : Settings}

theorem seen_held_iff (lock : BrakeLock) (a : LoginAttempt) :
    (LoginEntry.seen ⟨a, a.answer pbkdf2 serializer settings lock⟩).verdict = .held ↔
      lock.closed a.time = true := by
  rw [LoginAttempt.answer]
  cases hclosed : lock.closed a.time with
  | true => exact iff_of_true rfl rfl
  | false =>
      refine iff_of_false ?_ Bool.false_ne_true
      rw [if_neg Bool.false_ne_true]
      cases loginResult pbkdf2 settings a.store a.form a.probe with
      | error e => exact nofun
      | ok result => cases result <;> exact nofun

theorem seen_unbroken (serializer : Serializer) {a : LoginAttempt} (h : a.Settled pbkdf2 settings)
    (lock : BrakeLock) :
    (LoginEntry.seen ⟨a, a.answer pbkdf2 serializer settings lock⟩).verdict ≠ .broken := by
  obtain ⟨result, hresult⟩ := settled_iff.mp h
  rw [LoginAttempt.answer, hresult]
  split
  · exact nofun
  · cases result <;> exact nofun

end Step

/-! ### Runs -/

section Runs

variable {pbkdf2 : Pbkdf2} {serializer : Serializer} {settings : Settings} {ip : String}
  {attempts : List LoginAttempt}

/-- What a run says of one address is what its lock does. -/
theorem runs_attemptsFrom (site : Site) : Lockout.Runs LoginThrottle.maxFailures
    LoginThrottle.lockoutSeconds (site.throttle ip) (attemptsFrom ip
      (loginLog LoginThrottle.exactLockedSeconds pbkdf2 serializer settings site attempts)) := by
  induction attempts generalizing site with
  | nil => exact trivial
  | cons a attempts ih =>
      obtain ⟨hanswer, hthrottle⟩ := attempt_eq pbkdf2 serializer settings site a
      have hrest := ih (site.attempt LoginThrottle.exactLockedSeconds pbkdf2 serializer settings a).2
      rw [hthrottle] at hrest
      rw [loginLog, hanswer, attemptsFrom]
      by_cases hip : a.ip = ip
      · subst hip
        rw [List.filter_cons_of_pos (by simp), List.map_cons]
        rw [Function.update_self] at hrest
        exact ⟨seen_held_iff _ a, hrest⟩
      · rw [List.filter_cons_of_neg (by simpa using hip)]
        rw [Function.update_of_ne (Ne.symm hip)] at hrest
        exact hrest

/-- Attempts from elsewhere make no difference to an address. -/
theorem filter_loginLog {site site' : Site} (h : site.throttle ip = site'.throttle ip) :
    (loginLog LoginThrottle.exactLockedSeconds pbkdf2 serializer settings site attempts).filter
        (fun e => e.attempt.ip = ip) =
      loginLog LoginThrottle.exactLockedSeconds pbkdf2 serializer settings site'
        (attempts.filter fun a => a.ip = ip) := by
  induction attempts generalizing site site' with
  | nil => rfl
  | cons a attempts ih =>
      obtain ⟨hanswer, hthrottle⟩ := attempt_eq pbkdf2 serializer settings site a
      rw [loginLog]
      by_cases hip : a.ip = ip
      · subst hip
        obtain ⟨hanswer', hthrottle'⟩ := attempt_eq pbkdf2 serializer settings site' a
        rw [List.filter_cons_of_pos (by simp), List.filter_cons_of_pos (by simp), loginLog, hanswer,
          hanswer', h]
        congr 1
        apply ih
        rw [hthrottle, hthrottle', h, Function.update_self, Function.update_self]
      · rw [List.filter_cons_of_neg (by simpa using hip), List.filter_cons_of_neg (by simpa using hip)]
        apply ih
        rw [hthrottle, Function.update_of_ne (Ne.symm hip), h]

theorem attempt_mem_loginLog {site : Site} {e : LoginEntry}
    (h : e ∈ loginLog LoginThrottle.exactLockedSeconds pbkdf2 serializer settings site attempts) :
    e.attempt ∈ attempts ∧ ∃ lock, e.response = e.attempt.answer pbkdf2 serializer settings lock := by
  induction attempts generalizing site with
  | nil => cases h
  | cons a attempts ih =>
      rcases List.mem_cons.mp h with rfl | hrest
      · exact ⟨List.mem_cons_self, _, (attempt_eq pbkdf2 serializer settings site a).1⟩
      · obtain ⟨hmem, hresponse⟩ := ih hrest
        exact ⟨List.mem_cons_of_mem _ hmem, hresponse⟩

theorem map_attempt_loginLog (attempts : List LoginAttempt) (site : Site) :
    (loginLog LoginThrottle.exactLockedSeconds pbkdf2 serializer settings site attempts).map
      LoginEntry.attempt = attempts := by
  induction attempts generalizing site with
  | nil => rfl
  | cons a attempts ih => rw [loginLog, List.map_cons, ih]

theorem pairwise_attemptsFrom {site : Site} (hsorted : attempts.Pairwise fun a b => a.time ≤ b.time) :
    (attemptsFrom ip (loginLog LoginThrottle.exactLockedSeconds pbkdf2 serializer settings site
      attempts)).Pairwise fun a b => a.time ≤ b.time := by
  rw [attemptsFrom, List.pairwise_map]
  apply List.Pairwise.filter
  rw [← map_attempt_loginLog attempts site, List.pairwise_map] at hsorted
  exact hsorted

end Runs

/-- From the start of a process, the brake on an address holds in every run in which the attempts from
there have an evaluation that returns, and attempts from elsewhere change nothing about it. -/
theorem loginBrake_holds (pbkdf2 : Pbkdf2) (serializer : Serializer) (settings : Settings) (store : Store)
    (now : ℚ) {attempts : List LoginAttempt} (hsorted : attempts.Pairwise fun a b => a.time ≤ b.time)
    (ip : String) (hsettled : ∀ a ∈ attempts, a.ip = ip → a.Settled pbkdf2 settings) :
    let log := loginLog LoginThrottle.exactLockedSeconds pbkdf2 serializer settings (.start store now)
    Lockout.Holds LoginThrottle.maxFailures LoginThrottle.lockoutSeconds (attemptsFrom ip (log attempts)) ∧
      (log attempts).filter (fun e => e.attempt.ip = ip) = log (attempts.filter fun a => a.ip = ip) := by
  intro log
  refine ⟨?_, filter_loginLog rfl⟩
  apply Lockout.holds_of_runs (by decide) (runs_attemptsFrom (.start store now))
    (pairwise_attemptsFrom hsorted)
  intro seen hseen
  obtain ⟨e, he, rfl⟩ := List.mem_map.mp hseen
  obtain ⟨hmem, hip⟩ := List.mem_filter.mp he
  obtain ⟨hattempt, lock, hresponse⟩ := attempt_mem_loginLog hmem
  have hunbroken := seen_unbroken serializer (hsettled e.attempt hattempt (of_decide_eq_true hip)) lock
  rw [← hresponse] at hunbroken
  exact hunbroken

/-- One guess of the access password each second. -/
def guesses (password : String) (count : Nat) : List LoginAttempt :=
  (List.range count).map fun second : Nat =>
    ⟨"a", (second : ℚ), .empty, ⟨"", "", "", password⟩, .ok (false, ""), "t"⟩

example : (loginLog LoginThrottle.exactLockedSeconds (fun _ _ _ => []) .plain fixedSettings
    (.start .empty 0) (guesses "shut" 7)).map (fun e => e.seen.verdict) =
      [.failed, .failed, .failed, .failed, .failed, .held, .held] := by decide +kernel

theorem loginBrake_holds_guesses :
    let log := loginLog LoginThrottle.exactLockedSeconds (fun _ _ _ => []) .plain fixedSettings
      (.start .empty 0)
    Lockout.Holds LoginThrottle.maxFailures LoginThrottle.lockoutSeconds
        (attemptsFrom "a" (log (guesses "shut" 7))) ∧
      (log (guesses "shut" 7)).filter (fun e => e.attempt.ip = "a") =
        log ((guesses "shut" 7).filter fun a => a.ip = "a") := by
  apply loginBrake_holds
  · decide
  · intro a ha _
    obtain ⟨second, -, rfl⟩ := List.mem_map.mp ha
    have hblank : ¬stripText "" ≠ "" := by decide
    rw [LoginAttempt.Settled, if_neg hblank]
    have hascii : ∀ c ∈ "shut".toList ++ fixedSettings.accessPassword.toList, c.toNat < 128 := by
      decide
    exact .inr hascii

/-- The comparison raises on a password that is not ASCII, so no such guess counts. -/
theorem unbraked_guesses : ¬∀ attempts : List LoginAttempt,
    (attempts.Pairwise fun a b => a.time ≤ b.time) → ∀ ip,
      Lockout.Holds LoginThrottle.maxFailures LoginThrottle.lockoutSeconds (attemptsFrom ip
        (loginLog LoginThrottle.exactLockedSeconds (fun _ _ _ => []) .plain fixedSettings
          (.start .empty 0) attempts)) := by
  intro h
  have hwindow := (h (guesses "비번" 6) (by decide) "a").window 0 (by decide)
  exact absurd hwindow (by decide +kernel)

/-! ### Readings of the clock -/

/-- A number of seconds as the clock gives it: from 2004 to 2038 a double has 22 binary digits after
the point. -/
def ClockReading (t : ℚ) : Prop := ∃ n : ℕ, n < 2 ^ 53 ∧ t = n / 2 ^ 22

/-- The brake keeps readings up to a time. -/
def LoginThrottle.ReadBefore (throttle : LoginThrottle) (now : ℚ) : Prop :=
  ∀ ip kept, throttle ip = some kept → ClockReading kept.2 ∧ kept.2 ≤ now

section Doubles

variable {now last : ℚ}

/-- Between readings the doubles compute without an error. -/
theorem remaining_eq (hnow : ClockReading now) (hlast : ClockReading last) (h : last ≤ now) :
    PyFloat.sub (.fin LoginThrottle.lockoutSeconds) (elapsed now last) =
      .fin (LoginThrottle.lockoutSeconds - (now - last)) := by
  obtain ⟨n, hn, rfl⟩ := hnow
  obtain ⟨m, hm, rfl⟩ := hlast
  have hle : m ≤ n := by
    have hscaled := (div_le_div_iff_of_pos_right (by norm_num)).mp h
    exact_mod_cast hscaled
  have helapsed : (n : ℚ) / 2 ^ 22 - m / 2 ^ 22 = ((n - m : Int) : ℚ) / 2 ^ 22 := by
    push_cast
    ring
  have hremaining : LoginThrottle.lockoutSeconds - ((n - m : Int) : ℚ) / 2 ^ 22 =
      ((60 * 2 ^ 22 - (n - m) : Int) : ℚ) / 2 ^ 22 := by
    rw [LoginThrottle.lockoutSeconds]
    push_cast
    ring
  have hsmall {k : Int} (hlow : -2 ^ 53 < k) (hhigh : k < 2 ^ 53) : |(k : ℚ)| < 2 ^ 53 := by
    rw [abs_lt]
    constructor <;> exact_mod_cast ‹_›
  rw [elapsed, helapsed, PyFloat.ofRat_dyadic (by decide) (hsmall (by omega) (by omega)), PyFloat.sub,
    PyFloat.neg, PyFloat.add, ← sub_eq_add_neg, hremaining,
    PyFloat.ofRat_dyadic (by decide) (hsmall (by omega) (by omega))]

theorem lockedSeconds_eq {throttle : LoginThrottle} (hnow : ClockReading now)
    (hkept : throttle.ReadBefore now) (ip : String) :
    throttle.lockedSeconds ip now = throttle.exactLockedSeconds ip now := by
  rw [LoginThrottle.lockedSeconds, LoginThrottle.exactLockedSeconds]
  cases hip : throttle ip with
  | none => rfl
  | some kept =>
      obtain ⟨hreading, hle⟩ := hkept ip kept hip
      simp only [Option.getD_some, remaining_eq hnow hreading hle, PyFloat.intLt, Int.cast_zero,
        decide_eq_true_iff]
      split
      · rfl
      · split
        · rename_i hremaining
          rw [PyFloat.toInt, if_neg (not_lt.mpr hremaining.le)]
          rfl
        · rfl

variable {pbkdf2 : Pbkdf2} {serializer : Serializer} {settings : Settings}

theorem attempt_doubles {site : Site} {a : LoginAttempt} (hreading : ClockReading a.time)
    (hkept : site.throttle.ReadBefore a.time) :
    site.attempt LoginThrottle.lockedSeconds pbkdf2 serializer settings a =
      site.attempt LoginThrottle.exactLockedSeconds pbkdf2 serializer settings a := by
  simp only [Site.attempt, loginSubmitIn, lockedSeconds_eq hreading hkept]

theorem readBefore_attempt {site : Site} {a : LoginAttempt} (hreading : ClockReading a.time)
    (hkept : site.throttle.ReadBefore a.time) {later : ℚ} (hlater : a.time ≤ later) :
    (site.attempt LoginThrottle.exactLockedSeconds pbkdf2 serializer settings a).2.throttle.ReadBefore
      later := by
  intro ip kept hip
  rw [(attempt_eq pbkdf2 serializer settings site a).2] at hip
  have hold {ip : String} (h : site.throttle ip = some kept) : ClockReading kept.2 ∧ kept.2 ≤ later :=
    ⟨(hkept ip kept h).1, (hkept ip kept h).2.trans hlater⟩
  by_cases hsame : ip = a.ip
  · subst hsame
    rw [Function.update_self] at hip
    rcases Lockout.Lock.of_next_eq_some hip with h | h
    · exact hold h
    · rw [h]
      exact ⟨hreading, hlater⟩
  · rw [Function.update_of_ne hsame] at hip
    exact hold hip

/-- At readings of the clock, in order, the requests of the source are answered as in exact
arithmetic. -/
theorem loginLog_doubles {site : Site} {attempts : List LoginAttempt}
    (hreadings : ∀ a ∈ attempts, ClockReading a.time)
    (hsorted : attempts.Pairwise fun a b => a.time ≤ b.time)
    (hkept : ∀ a ∈ attempts, site.throttle.ReadBefore a.time) :
    loginLog LoginThrottle.lockedSeconds pbkdf2 serializer settings site attempts =
      loginLog LoginThrottle.exactLockedSeconds pbkdf2 serializer settings site attempts := by
  induction attempts generalizing site with
  | nil => rfl
  | cons a attempts ih =>
      obtain ⟨hlater, hrest⟩ := List.pairwise_cons.mp hsorted
      have hreading := hreadings a List.mem_cons_self
      have hfirst := hkept a List.mem_cons_self
      rw [loginLog, loginLog, attempt_doubles hreading hfirst]
      congr 1
      apply ih (fun b hb => hreadings b (List.mem_cons_of_mem _ hb)) hrest
      exact fun b hb => readBefore_attempt hreading hfirst (hlater b hb)

end Doubles

end ClassinDashboard

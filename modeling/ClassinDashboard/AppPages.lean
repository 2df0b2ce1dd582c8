import ClassinDashboard.LessonDay
import ClassinDashboard.RoutesAdmin

/-!
What the pages of the dashboard are rendered with: the filters that show a start or a date in Korean
time, and the top bar of a session. A start in the last nine hours of the calendar has no day in Korea,
and both filters raise there.
-/

namespace ClassinDashboard

open Py Sql

variable (reader : DateReader)

/-! ### Filters -/

/-- `int(value)` of a cell. -/
def intOfCell : SqlValue → Except PyError Int
  | .null => .error .typeError
  | .int n => .ok n
  | .real x => x.toInt
  | .text s =>
      match intText s.toList with
      | some n => .ok n
      | none => .error .valueError

/-- `datetime.fromtimestamp(ts, tz=KST)`: a `time_t` has 64 bits, a year outside the calendar is a
`ValueError` (or an `OSError`, beyond the years of a C int), and the way from UTC to Korea is an addition
that overflows. -/
def fromTimestampKst (ts : Int) : Except PyError Moment :=
  if !SqlValue.inRange ts then .error .overflowError
  else
    match DateTime.ofTimestamp? ts, koreanDay ts with
    | none, _ => .error .valueError
    | some _, none => .error .overflowError
    | some _, some day =>
        let second := ((ts + 32400) % 86400).toNat
        .ok ⟨day, second / 3600, second / 60 % 60, by omega, by omega⟩

/-- The last second that has a day in Korea, and the first one that has none. -/
example : (fromTimestampKst 253402268399).toOption.isSome = true ∧
    fromTimestampKst 253402268400 = .error .overflowError := by decide

/-- `_ts_kst`: it catches `TypeError`, `ValueError` and `OSError`. -/
def tsKst (value : SqlValue) : Except PyError String :=
  if !cellTruthy value then .ok "—"
  else
    match (intOfCell value).bind fromTimestampKst with
    | .ok m =>
        .ok (reader.strftime m.day ++ " " ++ zeroPad 2 m.clock.hour ++ ":" ++ zeroPad 2 m.clock.minute)
    | .error .overflowError => .error .overflowError
    | .error _ => .ok "—"

/-- `_date_kst` of a cell of a TEXT column. -/
def cellDateKst (value : SqlValue) : Except PyError String := dateKst reader value.toText?

/-! ### The top bar -/

/-- The branches by name. -/
def branches (store : Store) : List (Nat × BranchRow) :=
  store.branches.rows.mergeSort fun a b => a.2.name ≤ b.2.name

def getTeacher (store : Store) (uid : Option Int) : Except PyError (Option TeacherRow) :=
  match uid with
  | none => .ok none
  | some uid => (bindKey uid).map store.teachers.find

structure SessionView where
  sid : String
  role : Role
  username : String
  roleLabel : String
  scopeLabel : String
  branches : List (Nat × BranchRow)
  branchFilter : Option Int
  isOwner : Bool
  isAdmin : Bool

/-- What a session is told it sees. -/
def scopeLabel (store : Store) (session : Session) (home : Option BranchRow) : Except PyError String :=
  match session.role with
  | .owner => .ok (roleLabel .owner)
  | .manager => .ok (home.elim "미지정 관" BranchRow.name ++ " · 관장")
  | .teacher =>
      (getTeacher store session.teacherUid).map fun teacher =>
        ((teacher.bind TeacherRow.name).filter (· ≠ "")).getD session.username ++ " 선생님"

/-- `_session_view` -/
def sessionView (store : Store) (session : Session) : Except PyError SessionView := do
  let home ← getBranch store session.branchId
  let scopeLabel ← scopeLabel store session home
  pure
    { sid := session.sid
      role := session.role
      username := session.username
      roleLabel := roleLabel session.role
      scopeLabel
      branches := if session.role = .teacher then [] else branches store
      branchFilter := session.branchFilter
      isOwner := session.role = .owner
      isAdmin := session.role ≠ .teacher }

/-- Where a page request goes. -/
inductive PageResponse (α : Type)
  | login
  | forbidden (view : SessionView) (message : String)
  /-- A teacher is sent to the own page. -/
  | ownPage (teacherUid : Option Int)
  | page (view : SessionView) (data : α)

/-- A page, whose template the filters may make raise. -/
def render {α : Type} (store : Store) (session : Session) (data : Except PyError α) :
    Except PyError (PageResponse α) := do
  let view ← sessionView store session
  let data ← data
  pure (.page view data)

def forbidden {α : Type} (store : Store) (session : Session) (message : String) :
    Except PyError (PageResponse α) := do
  let view ← sessionView store session
  pure (.forbidden view message)

/-! ### What can be shown -/

/-- Reading back what `isoformat` wrote. -/
def DateReader.ReadsBack : Prop :=
  ∀ ts t, DateTime.ofTimestamp? ts = some t → reader.fromIso (t.isoformat "T" "+00:00") = .ok t

/-- Nine hours before the end of the calendar, UTC. -/
def lastKoreanStart : Int := 253402268400

/-- The start in a cell is not in the hours between the ends of the two calendars. -/
def DateShown (cell : SqlValue) : Prop := ∀ ts, StoredAs cell ts → ts < lastKoreanStart

/-- The same for a cell that may hold anything; a number that is no `time_t` is not shown either. -/
def StartShown (cell : SqlValue) : Prop :=
  cellTruthy cell = true → intOfCell cell ≠ .error .overflowError ∧
    ∀ ts, intOfCell cell = .ok ts → SqlValue.inRange ts = true ∧
      (ts < lastKoreanStart ∨ DateTime.ofTimestamp? ts = none)

/-- The ids of a session fit into a column. -/
structure Session.Fits (session : Session) : Prop where
  branchId : ∀ n ∈ session.branchId, SqlValue.inRange n = true
  teacherUid : session.role = .teacher → ∀ n ∈ session.teacherUid, SqlValue.inRange n = true

section Shown

variable {reader} {ts : Int} {t : DateTime} {cell : SqlValue}

theorem koreanDay_isSome (ht : DateTime.ofTimestamp? ts = some t) :
    (∃ day, koreanDay ts = some day) ↔ ts < lastKoreanStart := by
  obtain ⟨day, hday, rfl⟩ := Option.map_eq_some_iff.mp ht
  have hordinal := Date.ordinal_ofOrdinal? hday
  have hpos := day.pos
  have hmax := day.le_max
  unfold maxOrdinal epochOrdinal at *
  unfold lastKoreanStart
  constructor
  · intro h
    obtain ⟨korean, h⟩ := h
    have hkorean := Date.ordinal_ofOrdinal? h
    have hend := korean.le_max
    unfold maxOrdinal epochOrdinal at *
    omega
  · intro h
    refine ⟨_, dif_pos ?_⟩
    unfold maxOrdinal epochOrdinal
    omega

/-- The day on the screen is the Korean one, or none. -/
theorem dayIn_kst_isOk (ht : DateTime.ofTimestamp? ts = some t) (machine : DateTime → UtcOffset) :
    (∃ day, dayIn machine .kst t = .ok day) ↔ ts < lastKoreanStart := by
  rw [← koreanDay_isSome ht]
  have hshifted : (t.wallMicroseconds + 60000000 * (UtcOffset.kst.minutes - UtcOffset.utc.minutes))
      / 86400000000 = (ts + 32400) / 86400 := by
    rw [DateTime.wallMicroseconds_ofTimestamp? ht]
    simp only [UtcOffset.kst, UtcOffset.utc]
    omega
  simp only [dayIn, DateTime.offset_ofTimestamp? ht, Option.getD_some, hshifted, koreanDay]
  cases Date.ofOrdinal? ((ts + 32400) / 86400 + epochOrdinal) <;> simp

/-- The filter of dates raises for nothing else. -/
theorem cellDateKst_isOk (hreads : reader.ReadsBack) (hcell : IsoCell cell) :
    (∃ text, cellDateKst reader cell = .ok text) ↔ DateShown cell := by
  rcases hcell with rfl | ⟨ts, hstored⟩
  · refine iff_of_true ⟨_, rfl⟩ fun ts hts => ?_
    obtain ⟨-, s, -, hnull⟩ := hts
    cases hnull
  · have hone : DateShown cell ↔ ts < lastKoreanStart := by
      refine ⟨fun h => h ts hstored, fun h other hother => ?_⟩
      obtain ⟨-, s, hs, hcell⟩ := hstored
      obtain ⟨-, s', hs', hcell'⟩ := hother
      obtain ⟨t, ht, rfl⟩ := DateTime.utcIsoformat_eq_ok.mp hs
      obtain ⟨t', ht', rfl⟩ := DateTime.utcIsoformat_eq_ok.mp hs'
      have htext := SqlValue.text.inj (hcell.symm.trans hcell')
      have hsame := hreads ts t ht
      rw [htext, hreads other t' ht'] at hsame
      have hwall := DateTime.wallMicroseconds_ofTimestamp? ht
      have hwall' := DateTime.wallMicroseconds_ofTimestamp? ht'
      rw [Except.ok.inj hsame] at hwall'
      omega
    obtain ⟨-, s, hs, rfl⟩ := hstored
    obtain ⟨t, ht, rfl⟩ := DateTime.utcIsoformat_eq_ok.mp hs
    have hfilled : (some (t.isoformat "T" "+00:00")).filter (· ≠ "") = some (t.isoformat "T" "+00:00") :=
      Option.filter_eq_some_iff.mpr ⟨rfl, decide_eq_true (isoformat_ne_empty t)⟩
    rw [hone, ← dayIn_kst_isOk ht reader.machine, cellDateKst, SqlValue.toText?, dateKst, hfilled]
    simp only [hreads ts t ht]
    exact map_isOk

theorem fromTimestampKst_overflows : fromTimestampKst ts = .error .overflowError ↔
    ¬(SqlValue.inRange ts = true ∧ (ts < lastKoreanStart ∨ DateTime.ofTimestamp? ts = none)) := by
  unfold fromTimestampKst
  cases hrange : SqlValue.inRange ts with
  | false => simp
  | true =>
      cases ht : DateTime.ofTimestamp? ts with
      | none => simp
      | some t =>
          rw [← koreanDay_isSome ht]
          cases koreanDay ts <;> simp

theorem tsKst_overflows :
    (∃ text, tsKst reader cell = .ok text) ↔
      (cellTruthy cell = true → (intOfCell cell).bind fromTimestampKst ≠ .error .overflowError) := by
  unfold tsKst
  cases cellTruthy cell with
  | false => simp
  | true =>
      cases (intOfCell cell).bind fromTimestampKst with
      | ok m => simp
      | error e => cases e <;> simp

/-- The filter of starts raises for nothing else. -/
theorem tsKst_isOk : (∃ text, tsKst reader cell = .ok text) ↔ StartShown cell := by
  rw [tsKst_overflows, StartShown]
  refine imp_congr_right fun _ => ?_
  cases intOfCell cell with
  | error e => exact iff_of_eq (by simp [Except.bind])
  | ok ts =>
      have hbind : (Except.ok ts : Except PyError Int).bind fromTimestampKst = fromTimestampKst ts := rfl
      rw [hbind, ne_eq, fromTimestampKst_overflows, not_not]
      simp only [reduceCtorEq, not_false_eq_true, true_and, ne_eq, Except.ok.injEq, forall_eq']

end Shown

section TopBar

variable {store : Store} {s : Session}

theorem getBranch_isOk {branchId : Option Int} :
    (∃ row, getBranch store branchId = .ok row) ↔ ∀ n ∈ branchId, SqlValue.inRange n = true := by
  cases branchId with
  | none => exact iff_of_true ⟨none, rfl⟩ fun _ h => (nomatch h)
  | some n =>
      rw [getBranch, map_isOk, bindKey_isOk]
      simp

theorem getTeacher_isOk {uid : Option Int} :
    (∃ row, getTeacher store uid = .ok row) ↔ ∀ n ∈ uid, SqlValue.inRange n = true := by
  cases uid with
  | none => exact iff_of_true ⟨none, rfl⟩ fun _ h => (nomatch h)
  | some n =>
      rw [getTeacher, map_isOk, bindKey_isOk]
      simp

theorem scopeLabel_isOk {home : Option BranchRow} : (∃ label, scopeLabel store s home = .ok label) ↔
    (s.role = .teacher → ∀ n ∈ s.teacherUid, SqlValue.inRange n = true) := by
  unfold scopeLabel
  cases hrole : s.role with
  | owner => exact iff_of_true ⟨_, rfl⟩ fun h => (nomatch h)
  | manager => exact iff_of_true ⟨_, rfl⟩ fun h => (nomatch h)
  | teacher =>
      refine (map_isOk.trans getTeacher_isOk).trans ?_
      exact ⟨fun h _ => h, fun h => h rfl⟩

theorem sessionView_isOk : (∃ view, sessionView store s = .ok view) ↔ s.Fits := by
  constructor
  · intro h
    obtain ⟨view, h⟩ := h
    obtain ⟨home, hhome, h⟩ := bind_eq_ok.mp h
    obtain ⟨label, hlabel, -⟩ := bind_eq_ok.mp h
    exact ⟨getBranch_isOk.mp ⟨home, hhome⟩, scopeLabel_isOk.mp ⟨label, hlabel⟩⟩
  · intro h
    obtain ⟨home, hhome⟩ := getBranch_isOk.mpr h.branchId
    obtain ⟨label, hlabel⟩ := scopeLabel_isOk.mpr h.teacherUid
    exact ⟨_, bind_eq_ok.mpr ⟨home, hhome, bind_eq_ok.mpr ⟨label, hlabel, rfl⟩⟩⟩

theorem render_eq_ok {α : Type} {data : Except PyError α} {response : PageResponse α} :
    render store s data = .ok response ↔
      ∃ view x, sessionView store s = .ok view ∧ data = .ok x ∧ response = .page view x := by
  constructor
  · intro h
    obtain ⟨view, hview, h⟩ := bind_eq_ok.mp h
    obtain ⟨x, hx, h⟩ := bind_eq_ok.mp h
    exact ⟨view, x, hview, hx, (pure_eq_ok.mp h).symm⟩
  · intro h
    obtain ⟨view, x, hview, hx, rfl⟩ := h
    exact bind_eq_ok.mpr ⟨view, hview, bind_eq_ok.mpr ⟨x, hx, rfl⟩⟩

theorem render_isOk {α : Type} {data : Except PyError α} :
    (∃ page, render store s data = .ok page) ↔ s.Fits ∧ ∃ x, data = .ok x := by
  rw [← sessionView_isOk]
  constructor
  · intro h
    obtain ⟨page, h⟩ := h
    obtain ⟨view, x, hview, hx, -⟩ := render_eq_ok.mp h
    exact ⟨⟨view, hview⟩, x, hx⟩
  · intro h
    obtain ⟨⟨view, hview⟩, x, hx⟩ := h
    exact ⟨_, render_eq_ok.mpr ⟨view, x, hview, hx, rfl⟩⟩

theorem forbidden_isOk {α : Type} {message : String} :
    (∃ page : PageResponse α, forbidden store s message = .ok page) ↔ s.Fits := by
  rw [← sessionView_isOk]
  exact map_isOk

end TopBar

end ClassinDashboard

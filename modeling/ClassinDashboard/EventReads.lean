import ClassinDashboard.Scope
import ClassinDashboard.SqlFilter

/-!
The reads with a limit: the event list and the notification history. Both apply `LIMIT` in SQL and
the scope afterwards; the history fetches more rows than it answers, the event list does not.
-/

namespace ClassinDashboard

open Py Sql

/-- The optional arguments of `events` beside its limit. -/
structure EventFilter where
  cmd : Option PyStr
  courseId : Option Int
  classId : Option Int
  studentUid : Option Int
  teacherUid : Option Int

def EventFilter.none : EventFilter := ⟨.none, .none, .none, .none, .none⟩

/-- The WHERE clause. -/
def EventFilter.matches (filter : EventFilter) (row : EventRow) : Bool :=
  (filter.cmd.all fun cmd => cmd = .text row.cmd)
    && (filter.courseId.all fun id => row.courseId = some id)
    && (filter.classId.all fun id => row.classId = some id)
    && (filter.studentUid.all fun uid => row.studentUid = some uid)
    && (filter.teacherUid.all fun uid => row.teacherUid = some uid)

/-- Bind the parameters of the WHERE clause, in their order. -/
def EventFilter.bind (filter : EventFilter) : Except PyError Unit := do
  let _ ← filter.cmd.mapM PyStr.encode
  let _ ← bindInt filter.courseId
  let _ ← bindInt filter.classId
  let _ ← bindInt filter.studentUid
  let _ ← bindInt filter.teacherUid
  pure ()

/-- Every argument is one SQLite takes: UTF-8 text and 64-bit ints. -/
def EventFilter.bindable (filter : EventFilter) : Bool :=
  (filter.cmd.all fun cmd => cmd.encode.isOk)
    && filter.courseId.all SqlValue.inRange && filter.classId.all SqlValue.inRange
    && filter.studentUid.all SqlValue.inRange && filter.teacherUid.all SqlValue.inRange

structure NotificationRow where
  eventType : String
  provider : String
  status : String
  studentUid : Option Int
  studentName : Option String
  message : Option String
  error : Option String
  deriving DecidableEq

def EventRow.inScope (row : EventRow) (allowed : Option (Finset Int × Finset Int)) : Bool :=
  rowInScope row.courseId row.teacherUid allowed

/-- `SELECT ... ORDER BY id DESC`: ids grow. -/
def newestEvents (store : Store) (filter : EventFilter) : List (Nat × EventRow) :=
  (store.events.table.rows.filter fun entry => filter.matches entry.2).reverse

def events (store : Store) (filter : EventFilter) (scope : Scope) (limit : Int) :
    Except PyError (List (Nat × EventRow)) := do
  filter.bind
  let limit ← bindKey limit
  let allowed := store.scopeKeys scope
  pure ((limitTo limit (newestEvents store filter)).filter fun entry => entry.2.inScope allowed)

def newestNotifications (history : AutoTable NotificationRow) : List (Nat × NotificationRow) :=
  history.rows.reverse

/-- `rows[:limit]`; a negative limit counts from the end. -/
def sliceTo {α : Type} (limit : Int) (rows : List α) : List α :=
  if limit < 0 then rows.take (rows.length - limit.natAbs) else rows.take limit.toNat

@[simp] theorem sliceTo_natCast {α : Type} (n : Nat) (rows : List α) :
    sliceTo n rows = rows.take n := by
  rw [sliceTo, if_neg (by omega), Int.toNat_natCast]

def notificationHistory (store : Store) (history : AutoTable NotificationRow) (scope : Scope)
    (limit : Int) : Except PyError (List (Nat × NotificationRow)) :=
  match studentUidsInScope store scope with
  | none => (bindKey limit).map fun n => limitTo n (newestNotifications history)
  | some uids =>
      (bindKey (max (limit * 10) 1000)).map fun n =>
        sliceTo limit ((limitTo n (newestNotifications history)).filter fun entry =>
          isIn entry.2.studentUid uids)

/-! ### What the reads are for -/

def eventVisible (store : Store) (scope : Scope) (entry : Nat × EventRow) : Bool :=
  entry.2.inScope (store.scopeKeys scope)

/-- Every matching event the scope may read, newest first. -/
def visibleEvents (store : Store) (filter : EventFilter) (scope : Scope) : List (Nat × EventRow) :=
  (newestEvents store filter).filter (eventVisible store scope)

def notificationVisible (store : Store) (scope : Scope) (entry : Nat × NotificationRow) : Bool :=
  match studentUidsInScope store scope with
  | none => true
  | some uids => isIn entry.2.studentUid uids

/-- Every notification of a student in scope, newest first. -/
def visibleNotifications (store : Store) (history : AutoTable NotificationRow) (scope : Scope) :
    List (Nat × NotificationRow) :=
  (newestNotifications history).filter (notificationVisible store scope)

/-- The rows `notification_history` fetches to answer `n`. -/
def fetchedNotifications (scope : Scope) (n : Nat) : Nat :=
  if scope.unrestricted then n else max (n * 10) 1000

/-! ### When they return the newest rows in scope -/

theorem bind_isOk_iff (filter : EventFilter) : filter.bind = .ok () ↔ filter.bindable = true := by
  obtain ⟨cmd, courseId, classId, studentUid, teacherUid⟩ := filter
  have hint (n : Option Int) : (∃ m, bindInt n = .ok m) ↔ n.all SqlValue.inRange = true := by
    cases n with
    | none => simp [bindInt]
    | some n =>
        simp only [bindInt, Option.all_some]
        split <;> simp_all
  have hcmd : (∃ s, cmd.mapM PyStr.encode = .ok s) ↔
      (cmd.all fun cmd => cmd.encode.isOk) = true := by
    cases cmd with
    | none => exact ⟨fun _ => rfl, fun _ => ⟨none, rfl⟩⟩
    | some cmd => cases cmd <;> simp [PyStr.encode, Except.isOk, Except.toBool]
  simp only [EventFilter.bind, EventFilter.bindable, Bool.and_eq_true, ← hcmd, ← hint, bind_eq_ok]
  constructor
  · rintro ⟨s, hs, a, ha, b, hb, c, hc, d, hd, _⟩
    exact ⟨⟨⟨⟨⟨s, hs⟩, a, ha⟩, b, hb⟩, c, hc⟩, d, hd⟩
  · rintro ⟨⟨⟨⟨⟨s, hs⟩, a, ha⟩, b, hb⟩, c, hc⟩, d, hd⟩
    exact ⟨s, hs, a, ha, b, hb, c, hc, d, hd, rfl⟩

/-- The event list limits before it filters, so its window is exactly as long as the limit. -/
theorem events_exact_iff (store : Store) (filter : EventFilter) (scope : Scope) (n : Nat) :
    events store filter scope n = .ok ((visibleEvents store filter scope).take n) ↔
      filter.bindable = true ∧ SqlValue.inRange n = true ∧
        windowSuffices (eventVisible store scope) (newestEvents store filter) n n := by
  simp only [events, bind_eq_ok, pure_eq_ok, bindKey_eq_ok, visibleEvents, ← bind_isOk_iff]
  rw [← filter_window_iff]
  constructor
  · rintro ⟨⟨⟩, hbind, _, ⟨hrange, rfl⟩, hrows⟩
    rw [limitTo_natCast] at hrows
    exact ⟨hbind, hrange, hrows⟩
  · rintro ⟨hbind, hrange, hrows⟩
    refine ⟨(), hbind, n, ⟨hrange, rfl⟩, ?_⟩
    rw [limitTo_natCast]
    exact hrows

/-- The history fetches a larger window first, and cuts to the limit after filtering. -/
theorem notifications_exact_iff (store : Store) (history : AutoTable NotificationRow) (scope : Scope)
    (n : Nat) :
    notificationHistory store history scope n =
        .ok ((visibleNotifications store history scope).take n) ↔
      SqlValue.inRange (fetchedNotifications scope n) = true ∧
        windowSuffices (notificationVisible store scope) (newestNotifications history)
          (fetchedNotifications scope n) n := by
  rw [notificationHistory, visibleNotifications, fetchedNotifications]
  cases hscope : scope.unrestricted with
  | true =>
      have huids : studentUidsInScope store scope = none := if_pos hscope
      have hall (entry : Nat × NotificationRow) : notificationVisible store scope entry = true := by
        simp only [notificationVisible, huids]
      have hsuffices : windowSuffices (notificationVisible store scope)
          (newestNotifications history) n n := windowSuffices_of_all n fun entry _ => hall entry
      simp only [huids, map_eq_ok, bindKey_eq_ok, if_true]
      constructor
      · rintro ⟨_, ⟨hrange, rfl⟩, _⟩
        exact ⟨hrange, hsuffices⟩
      · rintro ⟨hrange, _⟩
        refine ⟨n, ⟨hrange, rfl⟩, ?_⟩
        rw [limitTo_natCast, List.filter_eq_self.mpr fun entry _ => hall entry]
  | false =>
      have huids : ∃ uids, studentUidsInScope store scope = some uids :=
        ⟨_, if_neg (by rw [hscope]; exact Bool.false_ne_true)⟩
      obtain ⟨uids, huids⟩ := huids
      have hvisible : notificationVisible store scope = fun entry => isIn entry.2.studentUid uids := by
        funext entry
        simp only [notificationVisible, huids]
      have hfetched : max ((n : Int) * 10) 1000 = ((max (n * 10) 1000 : Nat) : Int) := by
        push_cast
        rfl
      simp only [huids, map_eq_ok, bindKey_eq_ok, Bool.false_eq_true, if_false, hvisible, hfetched]
      rw [← take_filter_window_iff]
      constructor
      · rintro ⟨_, ⟨hrange, rfl⟩, hrows⟩
        rw [limitTo_natCast, sliceTo_natCast] at hrows
        exact ⟨hrange, hrows⟩
      · rintro ⟨hrange, hrows⟩
        refine ⟨_, ⟨hrange, rfl⟩, ?_⟩
        rw [limitTo_natCast, sliceTo_natCast]
        exact hrows

/-- Both limited reads return the newest rows in scope exactly when their arguments bind and the
window that was fetched before filtering holds enough rows in scope, or all there are. -/
theorem limitedReads_exact_iff (store : Store) (history : AutoTable NotificationRow)
    (filter : EventFilter) (scope : Scope) (n m : Nat) :
    (events store filter scope n = .ok ((visibleEvents store filter scope).take n) ∧
        notificationHistory store history scope m =
          .ok ((visibleNotifications store history scope).take m)) ↔
      (filter.bindable = true ∧ SqlValue.inRange n = true ∧
        windowSuffices (eventVisible store scope) (newestEvents store filter) n n) ∧
      SqlValue.inRange (fetchedNotifications scope m) = true ∧
        windowSuffices (notificationVisible store scope) (newestNotifications history)
          (fetchedNotifications scope m) m :=
  and_congr (events_exact_iff store filter scope n) (notifications_exact_iff store history scope m)

/-- An event of a teacher, with nothing else in it. -/
def ratingOf (teacherUid : Int) : EventRow := ⟨"Rating", none, none, none, none, some teacherUid, .none⟩

/-- Teacher 5 was rated before teacher 6 was. -/
def twoRatings : Store := (insertEvent (insertEvent .empty (ratingOf 5)).2 (ratingOf 6)).2

/-- Teacher 5 asks for the last event and is shown none: the last event of all is teacher 6's. -/
theorem last_event_lost :
    ¬events twoRatings .none (.forTeacher (some 5)) 1 =
      .ok ((visibleEvents twoRatings .none (.forTeacher (some 5))).take 1) := by
  intro h
  have hlength := congrArg (fun r => r.toOption.map List.length) h
  revert hlength
  decide

end ClassinDashboard

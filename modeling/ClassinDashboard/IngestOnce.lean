import ClassinDashboard.IngestRecords

/-!
Redeliveries have no effect. A message id that was delivered without a raise is in the event table
from then on, and a payload with such an id writes nothing. Only the key that the event table would
have given the ignored row is spent.
-/

namespace ClassinDashboard

open Py Sql

/-! ### Contents -/

/-- The contents of the tables that ingest writes. -/
structure Contents where
  events : List EventRow
  lessonRecords : Table (String × Int) Cells
  courses : Table Int CourseRow
  lessons : Table String LessonRow
  students : Table Int StudentRow
  teachers : Table Int TeacherRow

def Store.contents (store : Store) : Contents where
  events := store.events.rows
  lessonRecords := store.lessonRecords
  courses := store.courses
  lessons := store.lessons
  students := store.students
  teachers := store.teachers

section Congruence

variable {store other : Store}

theorem contents_write (h : store.contents = other.contents) (w : Write) :
    (store.write w).contents = (other.write w).contents := by
  have hfields := h
  simp only [Store.contents, Contents.mk.injEq] at hfields
  obtain ⟨hevents, hrecords, hcourses, hlessons, hstudents, hteachers⟩ := hfields
  cases w <;>
    simp only [Store.contents, Store.write, hevents, hrecords, hcourses, hlessons, hstudents,
      hteachers]

theorem contents_exec {α : Type} (s : StoreScript α) (h : store.contents = other.contents) :
    (store.exec s).contents = (other.exec s).contents := by
  unfold Store.exec Script.exec
  generalize s.writes = ws
  induction ws generalizing store other with
  | nil => exact h
  | cons w ws ih => exact ih (contents_write h w)

theorem seen_of_contents (h : store.contents = other.contents) :
    store.events.seen = other.events.seen := by
  have hrows : store.events.rows = other.events.rows := congrArg Contents.events h
  have hseen (log : EventLog) : log.seen = log.rows.filterMap EventRow.msgId := by
    rw [EventLog.seen, msgIds, EventLog.rows, List.filterMap_map]
    rfl
  rw [hseen, hseen, hrows]

theorem isDuplicate_of_contents (h : store.contents = other.contents) (msgId : Option String) :
    store.events.isDuplicate msgId = other.events.isDuplicate msgId := by
  unfold EventLog.isDuplicate
  rw [seen_of_contents h]

variable (p : Platform)

/-- An ingest sees the contents only. -/
theorem contents_ingest (h : store.contents = other.contents) (raw : PyValue) :
    (ingest p store raw).2.contents = (ingest p other raw).2.contents := by
  rcases ingest_cases p store raw with ⟨e, hread⟩ | ⟨event, row, hread, hdup⟩ |
    ⟨event, row, hread, hfresh⟩
  · rw [ingest_refused p hread, ingest_refused p hread]
    exact h
  · have hdup' := hdup
    rw [isDuplicate_of_contents h] at hdup'
    rw [ingest_duplicate p hread hdup, ingest_duplicate p hread hdup']
    exact h
  · have hfresh' := hfresh
    rw [isDuplicate_of_contents h] at hfresh'
    rw [ingest_fresh p hread hfresh, ingest_fresh p hread hfresh']
    apply contents_exec
    have hrows : store.events.rows = other.events.rows := congrArg Contents.events h
    simp only [Store.contents, Contents.mk.injEq] at h ⊢
    refine ⟨?_, h.2⟩
    rw [EventLog.rows_insertOrIgnore _ _ hfresh, EventLog.rows_insertOrIgnore _ _ hfresh', hrows]

end Congruence

/-! ### Redeliveries -/

variable (p : Platform)

/-- The payloads without every later occurrence of a message id, given the ids delivered so far. -/
def dropRedelivered : List PyStr → List PyValue → List PyValue
  | _, [] => []
  | delivered, raw :: raws =>
      match messageId p raw with
      | none => raw :: dropRedelivered delivered raws
      | some id =>
          if id ∈ delivered then dropRedelivered delivered raws
          else raw :: dropRedelivered (id :: delivered) raws

/-- The first occurrence of every message id is ingested without a raise. -/
def firstsReturn : Store → List PyStr → List PyValue → Bool
  | _, _, [] => true
  | store, delivered, raw :: raws =>
      match messageId p raw with
      | none => firstsReturn (ingest p store raw).2 delivered raws
      | some id =>
          if id ∈ delivered then firstsReturn (ingest p store raw).2 delivered raws
          else (ingest p store raw).1.isOk && firstsReturn (ingest p store raw).2 (id :: delivered) raws

/-- The ids delivered so far are in the event table. -/
def Delivered (store : Store) (delivered : List PyStr) : Prop :=
  ∀ id ∈ delivered, ∃ m ∈ store.events.seen, id = .text m

theorem seen_subset_ingest (store : Store) (raw : PyValue) :
    store.events.seen ⊆ (ingest p store raw).2.events.seen := by
  intro m hm
  rw [ingest_seen]
  cases readEvent p raw with
  | error e => exact hm
  | ok admitted =>
      dsimp only
      split
      · exact hm
      · exact List.mem_append_left _ hm

theorem Delivered.ingest {p : Platform} {store : Store} {delivered : List PyStr}
    (h : Delivered store delivered) (raw : PyValue) :
    Delivered (ingest p store raw).2 delivered := by
  intro id hid
  obtain ⟨m, hm, hmid⟩ := h id hid
  exact ⟨m, seen_subset_ingest p store raw hm, hmid⟩

/-- A message id that is ingested without a raise is in the event table afterwards. -/
theorem seen_of_returns {store : Store} {raw : PyValue} {id : PyStr} {cmd : String}
    (hid : messageId p raw = some id) (h : (ingest p store raw).1 = .ok cmd) :
    ∃ m ∈ (ingest p store raw).2.events.seen, id = .text m := by
  cases hread : readEvent p raw with
  | error e =>
      rw [ingest_refused p hread] at h
      cases h
  | ok admitted =>
      obtain ⟨event, row⟩ := admitted
      have hrow := msgId_of_readEvent hread
      rw [hid] at hrow
      obtain ⟨m, hm, htext⟩ := Option.map_eq_some_iff.mp hrow.symm
      refine ⟨m, ?_, htext.symm⟩
      rw [ingest_seen, hread]
      dsimp only
      split
      · rename_i hdup
        obtain ⟨m', hm', hmm'⟩ := (EventLog.isDuplicate_iff _ _).mp hdup
        rw [hm] at hmm'
        exact Option.some.inj hmm' ▸ hm'
      · rw [hm]
        exact List.mem_append_right _ List.mem_cons_self

/-- A payload whose id is in the event table changes no contents, even if it is not valid. -/
theorem contents_ingest_redelivered {store : Store} {raw : PyValue} {m : String}
    (hid : messageId p raw = some (.text m)) (hseen : m ∈ store.events.seen) :
    (ingest p store raw).2.contents = store.contents := by
  cases hread : readEvent p raw with
  | error e => rw [ingest_refused p hread]
  | ok admitted =>
      obtain ⟨event, row⟩ := admitted
      have hrow := msgId_of_readEvent hread
      rw [hid] at hrow
      obtain ⟨m', hm', htext⟩ := Option.map_eq_some_iff.mp hrow.symm
      cases htext
      have hdup : store.events.isDuplicate row.msgId = true :=
        (EventLog.isDuplicate_iff _ _).mpr ⟨m, hseen, hm'⟩
      rw [ingest_duplicate p hread hdup]
      rfl

theorem contents_dropRedelivered {store other : Store} {delivered : List PyStr}
    (raws : List PyValue) (h : store.contents = other.contents) (hseen : Delivered store delivered)
    (hfirsts : firstsReturn p store delivered raws = true) :
    (store.deliverAll p raws).contents =
      (other.deliverAll p (dropRedelivered p delivered raws)).contents := by
  induction raws generalizing store other delivered with
  | nil => exact h
  | cons raw raws ih =>
      have hboth := contents_ingest p h raw
      have hkept := hseen.ingest (p := p) raw
      unfold firstsReturn at hfirsts
      unfold dropRedelivered
      cases hid : messageId p raw with
      | none =>
          simp only [hid] at hfirsts ⊢
          exact ih hboth hkept hfirsts
      | some id =>
          simp only [hid] at hfirsts ⊢
          by_cases hold : id ∈ delivered
          · rw [if_pos hold] at hfirsts ⊢
            obtain ⟨m, hm, rfl⟩ := hseen id hold
            exact ih ((contents_ingest_redelivered p hid hm).trans h) hkept hfirsts
          · rw [if_neg hold, Bool.and_eq_true] at hfirsts
            rw [if_neg hold]
            refine ih hboth ?_ hfirsts.2
            intro id' hid'
            rcases List.mem_cons.mp hid' with rfl | hid'
            · cases hresult : (ingest p store raw).1 with
              | ok cmd => exact seen_of_returns p hid hresult
              | error e =>
                  rw [hresult] at hfirsts
                  cases hfirsts.1
            · exact hkept id' hid'

/-- Deleting every later occurrence of a message id from a list of payloads leaves the contents of
every table as they were. -/
theorem redeliveries_have_no_effect (store : Store) (raws : List PyValue)
    (hfirsts : firstsReturn p store [] raws = true) :
    (store.deliverAll p (dropRedelivered p [] raws)).contents = (store.deliverAll p raws).contents :=
  (contents_dropRedelivered p raws rfl (fun _ hid => absurd hid List.not_mem_nil) hfirsts).symm

/-- The attendance of one student in one lesson. -/
def oneAttendance (id : String) (seconds : Int) : PyValue := .object
  [("Cmd", .string "Attendance"), ("_id", .string id), ("ClassID", .int 5), ("CourseID", .int 3),
    ("Data", .list [.object [("Uid", .int 9), ("AttendanceTime", .int seconds)]])]

/-- The older attendance comes once more after the newer one. -/
theorem staleAttendance_redelivered :
    (Store.empty.deliverAll .plain [oneAttendance "a" 60, oneAttendance "b" 3600]).contents =
        (Store.empty.deliverAll .plain
          [oneAttendance "a" 60, oneAttendance "b" 3600, oneAttendance "a" 60]).contents ∧
      cellAt (Store.empty.deliverAll .plain
        [oneAttendance "a" 60, oneAttendance "b" 3600, oneAttendance "a" 60]).records ("5", 9)
          .attendanceSeconds = .int 3600 :=
  ⟨redeliveries_have_no_effect .plain Store.empty
    [oneAttendance "a" 60, oneAttendance "b" 3600, oneAttendance "a" 60] (by decide), by decide⟩

/-- A bare event with a message id. -/
def bareEvent (id : String) : PyValue := .object [("Cmd", .string "Ping"), ("_id", .string id)]

/-- The redelivery spends a key of the event table: the next event gets 3 instead of 2. -/
theorem redelivery_spends_event_key :
    firstsReturn .plain Store.empty [] [bareEvent "a", bareEvent "a", bareEvent "b"] = true ∧
      (Store.empty.deliverAll .plain (dropRedelivered .plain []
        [bareEvent "a", bareEvent "a", bareEvent "b"])).events.table.rows ≠
      (Store.empty.deliverAll .plain
        [bareEvent "a", bareEvent "a", bareEvent "b"]).events.table.rows := by
  refine ⟨by decide, fun hrows => ?_⟩
  have hkeys := congrArg (List.map Prod.fst) hrows
  exact absurd hkeys (by decide)

end ClassinDashboard

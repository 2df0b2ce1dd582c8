import ClassinDashboard.IngestPatches

/-!
When an ingest that raises leaves the normalized tables alone. The event row is committed before the
handler runs, so a raise inside the handler keeps the row, and the message counts as seen from then
on. Only a payload that is refused before the row, or one that the handler takes to its end, is safe.
-/

namespace ClassinDashboard

open Py Sql

variable (p : Platform)

/-- The payload is refused before anything is written, was seen before, or has an event that its
handler takes to the end. -/
def SafeToRetry (store : Store) (raw : PyValue) : Prop :=
  ∀ event row, readEvent p raw = .ok (event, row) →
    store.events.isDuplicate row.msgId = true ∨ event.processable p = true

/-- A fresh event of a payload that is safe to retry is handled to the end. -/
theorem SafeToRetry.processable {store : Store} {raw : PyValue} (h : SafeToRetry p store raw)
    {event : Event} {row : EventRow} (hread : readEvent p raw = .ok (event, row))
    (hfresh : store.events.isDuplicate row.msgId = false) : event.processable p = true := by
  rcases h event row hread with hdup | hok
  · rw [hfresh] at hdup
    cases hdup
  · exact hok

/-- A delivery inserted the message and ran its handler to the end. -/
def Applied (ops : List Op) (m : String) : Prop :=
  ∃ before raw after event row, ops = before ++ Op.deliver raw :: after ∧
    readEvent p raw = .ok (event, row) ∧ row.msgId = some m ∧
    (Store.empty.runOps p before).events.isDuplicate row.msgId = false ∧
    (handle p event).Succeeds

theorem Applied.append {p : Platform} {ops : List Op} {m : String} (h : Applied p ops m)
    (op : Op) : Applied p (ops ++ [op]) m := by
  obtain ⟨before, raw, after, event, row, rfl, hrest⟩ := h
  exact ⟨before, raw, after ++ [op], event, row, by simp, hrest⟩

/-- A fresh message adds its row to the event table, whatever its handler does. -/
theorem normalized_ne_of_fresh {store : Store} {raw : PyValue} {event : Event} {row : EventRow}
    (h : readEvent p raw = .ok (event, row)) (hfresh : store.events.isDuplicate row.msgId = false) :
    (ingest p store raw).2.normalized ≠ store.normalized := by
  intro heq
  have hrows := congrArg (fun n : Normalized => n.events.table.rows.length) heq
  simp only [Store.normalized, ingest_fresh p h hfresh, exec_events,
    (EventLog.insertOrIgnore_fresh store.events row hfresh).2, AutoTable.insert,
    List.length_append, List.length_singleton] at hrows
  omega

/-- One delivery of a run: what it adds to the seen messages it also applies. -/
theorem seen_applied_step {ops : List Op} {op : Op}
    (hseen : ∀ m ∈ (Store.empty.runOps p ops).events.seen, Applied p ops m)
    (hsafe : ∀ raw, op = .deliver raw → SafeToRetry p (Store.empty.runOps p ops) raw) :
    ∀ m ∈ (Store.empty.runOps p (ops ++ [op])).events.seen, Applied p (ops ++ [op]) m := by
  intro m hm
  rw [Store.runOps_snoc] at hm
  cases op with
  | write w =>
      rw [Store.step, write_events] at hm
      exact (hseen m hm).append _
  | deliver raw =>
      rcases mem_seen_ingest p hm with hm | ⟨event, row, hread, hfresh, hm⟩
      · exact (hseen m hm).append _
      · have hok := (hsafe raw rfl).processable p hread hfresh
        exact ⟨ops, raw, [], event, row, rfl, hread, hm, hfresh,
          (handle_spec p (Event.admitted hread)).returns.mpr hok⟩

/-- In a run all of whose deliveries are safe to retry, every message in the event table has been
applied. -/
theorem seen_applied_run (ops : List Op)
    (hsafe : ∀ before raw after, ops = before ++ Op.deliver raw :: after →
      SafeToRetry p (Store.empty.runOps p before) raw) :
    ∀ m ∈ (Store.empty.runOps p ops).events.seen, Applied p ops m := by
  induction ops using List.reverseRecOn with
  | nil =>
      intro m hm
      cases hm
  | append_singleton ops op ih =>
      apply seen_applied_step
      · apply ih
        rintro before raw after rfl
        exact hsafe before raw (after ++ [op]) (by simp)
      · rintro raw rfl
        exact hsafe ops raw [] rfl

/-! ### One ingest -/

/-- A raise that leaves the tables alone is a raise before the event row. -/
theorem safeToRetry_of_atomic {store : Store} {raw : PyValue}
    (hatomic : (∃ e, (ingest p store raw).1 = .error e) →
      (ingest p store raw).2.normalized = store.normalized) : SafeToRetry p store raw := by
  intro event row hread
  cases hdup : store.events.isDuplicate row.msgId with
  | true => exact Or.inl rfl
  | false =>
      right
      apply (ingest_returns p hread hdup).mp
      cases hresult : (ingest p store raw).1 with
      | ok cmd => exact ⟨cmd, rfl⟩
      | error e => exact absurd (hatomic ⟨e, hresult⟩) (normalized_ne_of_fresh p hread hdup)

theorem atomic_of_safeToRetry {store : Store} {raw : PyValue} (hsafe : SafeToRetry p store raw)
    (hraises : ∃ e, (ingest p store raw).1 = .error e) :
    (ingest p store raw).2.normalized = store.normalized := by
  obtain ⟨e, he⟩ := hraises
  rcases ingest_cases p store raw with ⟨e', hread⟩ | ⟨event, row, hread, hdup⟩ |
    ⟨event, row, hread, hfresh⟩
  · rw [ingest_refused p hread]
  · rw [ingest_duplicate p hread hdup] at he
    cases he
  · obtain ⟨cmd, hcmd⟩ := (ingest_returns p hread hfresh).mpr (hsafe.processable p hread hfresh)
    rw [he] at hcmd
    cases hcmd

/-- An ingest that raises changes nothing exactly when the payload is safe to retry; and in a run all
of whose deliveries are safe to retry, every message in the event table has been applied. -/
theorem ingest_all_or_nothing_iff :
    (∀ (store : Store) (raw : PyValue),
      ((∃ e, (ingest p store raw).1 = .error e) →
        (ingest p store raw).2.normalized = store.normalized) ↔ SafeToRetry p store raw) ∧
    (∀ ops : List Op,
      (∀ before raw after, ops = before ++ Op.deliver raw :: after →
        SafeToRetry p (Store.empty.runOps p before) raw) →
      ∀ m ∈ (Store.empty.runOps p ops).events.seen, Applied p ops m) := by
  constructor
  · intro store raw
    exact ⟨safeToRetry_of_atomic p, atomic_of_safeToRetry p⟩
  · exact seen_applied_run p

/-- An attendance event whose class start is in milliseconds: it has no date. -/
def millisecondAttendance : PyValue := .object
  [("Cmd", .string "Attendance"), ("_id", .string "m1"), ("ClassID", .int 5),
    ("ClassStartTime", .int 1756803600000),
    ("Data", .list [.object [("Uid", .int 9), ("AttendanceTime", .int 3000)]])]

/-- It raises after its row is committed, and its redelivery is a duplicate: the student never gets a
row. -/
theorem millisecondAttendance_half_applied :
    (ingest .plain Store.empty millisecondAttendance).1 = .error .valueError ∧
      (ingest .plain Store.empty millisecondAttendance).2.normalized ≠ Store.empty.normalized ∧
      (ingest .plain (ingest .plain Store.empty millisecondAttendance).2
        millisecondAttendance).1 = .ok "Attendance" ∧
      (ingest .plain (ingest .plain Store.empty millisecondAttendance).2
        millisecondAttendance).2.lessonRecords.rows.length = 0 := by
  refine ⟨by decide, ?_, by decide, by decide⟩
  intro heq
  have hrows := congrArg (fun n : Normalized => n.events.table.rows.length) heq
  exact absurd hrows (by decide)

end ClassinDashboard

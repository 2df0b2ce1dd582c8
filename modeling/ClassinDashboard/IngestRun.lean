import ClassinDashboard.Ingest

/-!
What one ingest can do, and runs of deliveries. A payload is refused before anything is written,
skipped as a duplicate, or inserted and handled; only the last case writes, and its writes are those
of the handler, whatever the store holds.
-/

namespace ClassinDashboard

open Py Sql

/-! ### Frames -/

section Frames

variable (store : Store) (w : Write)

@[simp] theorem write_events : (store.write w).events = store.events := by cases w <;> rfl

@[simp] theorem write_rawLog : (store.write w).rawLog = store.rawLog := by cases w <;> rfl

@[simp] theorem write_branches : (store.write w).branches = store.branches := by cases w <;> rfl

@[simp] theorem write_users : (store.write w).users = store.users := by cases w <;> rfl

@[simp] theorem exec_events {α : Type} (s : StoreScript α) : (store.exec s).events = store.events :=
  Script.exec_frame Store.events fun current w _ => write_events current w

end Frames

/-! ### The event insert -/

namespace EventLog

variable (log : EventLog) (row : EventRow)

theorem insertOrIgnore_duplicate (h : log.isDuplicate row.msgId = true) :
    log.insertOrIgnore row = (false, ⟨log.table.skip, log.msgIds_nodup⟩) := by
  rw [insertOrIgnore, dif_pos h]

theorem insertOrIgnore_fresh (h : log.isDuplicate row.msgId = false) :
    (log.insertOrIgnore row).1 = true ∧
      (log.insertOrIgnore row).2.table = log.table.insert row := by
  rw [insertOrIgnore, dif_neg (by rw [h]; exact Bool.false_ne_true)]
  exact ⟨rfl, rfl⟩

theorem rows_insertOrIgnore (h : log.isDuplicate row.msgId = false) :
    (log.insertOrIgnore row).2.rows = log.rows ++ [row] := by
  rw [rows, (insertOrIgnore_fresh log row h).2]
  simp [AutoTable.insert, rows]

theorem seen_insertOrIgnore :
    (log.insertOrIgnore row).2.seen =
      if log.isDuplicate row.msgId then log.seen else log.seen ++ row.msgId.toList := by
  cases h : log.isDuplicate row.msgId with
  | true =>
      rw [insertOrIgnore_duplicate log row h, if_pos rfl]
      rfl
  | false =>
      rw [seen, (insertOrIgnore_fresh log row h).2, msgIds_insert, if_neg Bool.false_ne_true]
      rfl

theorem isDuplicate_iff (msgId : Option String) :
    log.isDuplicate msgId = true ↔ ∃ m ∈ log.seen, msgId = some m := by
  cases msgId with
  | none => simp [isDuplicate]
  | some m => simp [isDuplicate]

end EventLog

/-! ### The three outcomes of an ingest -/

section Outcomes

variable (p : Platform) {store : Store} {raw : PyValue} {event : Event} {row : EventRow}

theorem ingest_refused {e : PyError} (h : readEvent p raw = .error e) :
    ingest p store raw = (.error e, store) := by
  rw [ingest, h]

theorem ingest_duplicate (h : readEvent p raw = .ok (event, row))
    (hdup : store.events.isDuplicate row.msgId = true) :
    ingest p store raw = (.ok event.cmd,
      { store with events := ⟨store.events.table.skip, store.events.msgIds_nodup⟩ }) := by
  rw [ingest, h]
  simp only [insertEvent, EventLog.insertOrIgnore_duplicate _ _ hdup]

/-- A fresh message: the event row is committed first, and stays when the handler raises. -/
theorem ingest_fresh (h : readEvent p raw = .ok (event, row))
    (hfresh : store.events.isDuplicate row.msgId = false) :
    ingest p store raw = ((handle p event).result.map fun _ => event.cmd,
      ({ store with events := (store.events.insertOrIgnore row).2 } : Store).exec (handle p event)) := by
  have hinsert : insertEvent store row =
      (true, { store with events := (store.events.insertOrIgnore row).2 }) := by
    rw [insertEvent, ← (EventLog.insertOrIgnore_fresh store.events row hfresh).1]
  rw [ingest, h]
  simp only [hinsert]

/-- A payload is refused, or it is a duplicate, or it is fresh. -/
theorem ingest_cases (store : Store) (raw : PyValue) :
    (∃ e, readEvent p raw = .error e) ∨
      (∃ event row, readEvent p raw = .ok (event, row) ∧
        store.events.isDuplicate row.msgId = true) ∨
      ∃ event row, readEvent p raw = .ok (event, row) ∧
        store.events.isDuplicate row.msgId = false := by
  cases hread : readEvent p raw with
  | error e => exact Or.inl ⟨e, rfl⟩
  | ok admitted =>
      obtain ⟨event, row⟩ := admitted
      cases hdup : store.events.isDuplicate row.msgId with
      | true => exact Or.inr (Or.inl ⟨event, row, rfl, hdup⟩)
      | false => exact Or.inr (Or.inr ⟨event, row, rfl, hdup⟩)

/-- What holds of the store holds after an ingest when a fresh message keeps it. A duplicate only uses
up a row id. -/
theorem ingest_keeps {P : Store → Prop} (h : P store)
    (hskip : P { store with events := ⟨store.events.table.skip, store.events.msgIds_nodup⟩ })
    (hfresh : ∀ event row, readEvent p raw = .ok (event, row) →
      store.events.isDuplicate row.msgId = false → P (ingest p store raw).2) :
    P (ingest p store raw).2 := by
  rcases ingest_cases p store raw with ⟨e, hread⟩ | ⟨event, row, hread, hdup⟩ |
    ⟨event, row, hread, hfirst⟩
  · rw [ingest_refused p hread]
    exact h
  · rw [ingest_duplicate p hread hdup]
    exact hskip
  · exact hfresh event row hread hfirst

theorem ingest_seen (store : Store) (raw : PyValue) :
    (ingest p store raw).2.events.seen =
      match readEvent p raw with
      | .ok (_, row) =>
          if store.events.isDuplicate row.msgId then store.events.seen
          else store.events.seen ++ row.msgId.toList
      | .error _ => store.events.seen := by
  rcases ingest_cases p store raw with ⟨e, hread⟩ | ⟨event, row, hread, hdup⟩ |
    ⟨event, row, hread, hfresh⟩
  · rw [ingest_refused p hread, hread]
  · rw [ingest_duplicate p hread hdup, hread]
    simp only [hdup, ↓reduceIte]
    rfl
  · rw [ingest_fresh p hread hfresh, exec_events, hread]
    show (store.events.insertOrIgnore row).2.seen = _
    rw [EventLog.seen_insertOrIgnore]

/-- A fresh message with an id is seen from then on, and nothing else is new. -/
theorem mem_seen_ingest {m : String} (hm : m ∈ (ingest p store raw).2.events.seen) :
    m ∈ store.events.seen ∨ ∃ event row, readEvent p raw = .ok (event, row) ∧
      store.events.isDuplicate row.msgId = false ∧ row.msgId = some m := by
  rw [ingest_seen] at hm
  rcases ingest_cases p store raw with ⟨e, hread⟩ | ⟨event, row, hread, hdup⟩ |
    ⟨event, row, hread, hfresh⟩
  · rw [hread] at hm
    exact Or.inl hm
  · simp only [hread, hdup, ↓reduceIte] at hm
    exact Or.inl hm
  · simp only [hread, hfresh, Bool.false_eq_true, ↓reduceIte, List.mem_append,
      Option.mem_toList] at hm
    rcases hm with hm | hm
    · exact Or.inl hm
    · exact Or.inr ⟨event, row, hread, hfresh, hm⟩

end Outcomes

/-! ### Runs -/

/-- What the rest of the program does to the store between deliveries: any of its committed writes. -/
inductive Op
  | deliver (raw : PyValue)
  | write (w : Write)

variable (p : Platform)

def Store.step (store : Store) : Op → Store
  | .deliver raw => (ingest p store raw).2
  | .write w => store.write w

def Store.runOps (store : Store) (ops : List Op) : Store := ops.foldl (Store.step p) store

/-- A run of deliveries alone. -/
def Store.deliverAll (store : Store) (raws : List PyValue) : Store :=
  raws.foldl (fun store raw => (ingest p store raw).2) store

/-- The states a run of deliveries and writes leads to from an empty store. -/
def Reachable (store : Store) : Prop := ∃ ops, store = Store.empty.runOps p ops

theorem Store.runOps_append (store : Store) (ops ops' : List Op) :
    store.runOps p (ops ++ ops') = (store.runOps p ops).runOps p ops' :=
  List.foldl_append

@[simp] theorem Store.runOps_nil (store : Store) : store.runOps p [] = store := rfl

theorem Store.runOps_snoc (store : Store) (ops : List Op) (op : Op) :
    store.runOps p (ops ++ [op]) = (store.runOps p ops).step p op := by
  rw [Store.runOps_append]
  rfl

end ClassinDashboard

import ClassinDashboard.IngestPatches

/-!
Which events erase stored cells. The record statement has no COALESCE: a column that the event names
but has no value for becomes NULL in every row the event writes.
-/

namespace ClassinDashboard

open Py Sql

variable (p : Platform)

/-- The columns for which an event has no value, on the row of one student. -/
def Event.lacks : Event → Int → Column → Bool
  | .attendance event, _, c =>
      match c with
      | .courseId => event.courseID.isNone
      | .courseName => event.courseName.isNone
      | .className => event.className.isNone
      | .lessonDate => (nonzero (orInt event.classStartTime event.actionTime)).isNone
      | .classStart => event.classStartTime.isNone
      | .classEnd => event.classEndTime.isNone
      | .teacherUid => event.teacher.isNone
      | .teacherName => (event.teacher.bind (·.name)).isNone
      | _ => false
  | .end event, uid, c =>
      match endTotals p event with
      | .error _ => false
      | .ok totals =>
          match c with
          | .courseId => event.courseID.isNone
          | .cameraMinutes => totals.camera.lookup uid = some .nan
          | .handRaise => totals.hands.lookup uid = some .nan
          | .trophy => totals.trophy.lookup uid = some .nan
          | _ => false
  | .homeworkSubmit event, _, c =>
      match c with
      | .courseId => event.courseID.isNone
      | _ => false
  | .homeworkScore event, _, c =>
      match c with
      | .courseId => event.courseID.isNone
      | .homeworkScore => event.data.scorePercent = none ∨ event.data.scorePercent = some .nan
      | _ => false
  | _, _, _ => false

/-- The students whose rows an event writes. -/
def Event.students (event : Event) : List Int := (event.recordFields p).map Prod.fst

/-- The payload is refused, was seen before, or names no column that it lacks a value for in a row
where that column is stored. -/
def KeepsCells (store : Store) (raw : PyValue) : Prop :=
  ∀ event row, readEvent p raw = .ok (event, row) →
    store.events.isDuplicate row.msgId = true ∨
      ∀ uid ∈ event.students p, ∀ c, event.lacks p uid c = true →
        ∀ cells, store.records (event.lessonKey, uid) = some cells → cells c = .null

theorem blank_ofInt? (n : Option Int) : blank (.ofInt? n) = n.isNone := by cases n <;> rfl

theorem blank_ofText? (s : Option String) : blank (.ofText? s) = s.isNone := by cases s <;> rfl

theorem iso_isNone {ts : Option Int} {date : Option String} (h : iso ts = .ok date) :
    date.isNone = (nonzero ts).isNone := by
  unfold iso at h
  cases hts : nonzero ts with
  | none =>
      rw [hts] at h
      cases h
      rfl
  | some n =>
      rw [hts] at h
      obtain ⟨s, _, rfl⟩ := map_eq_ok.mp h
      rfl

theorem blank_float (x : PyFloat) : blank (.float x) = decide (some x = some PyFloat.nan) := by
  cases x <;> simp [blank]

theorem blank_ofFloat? (x : Option PyFloat) :
    blank (.ofFloat? x) = decide (x = none ∨ x = some PyFloat.nan) := by
  cases x with
  | none => rfl
  | some x => simp [PyValue.ofFloat?, blank_float]

/-- The blank values among the fields of a student are the columns the event lacks. -/
theorem SetBy.any_blank {p : Platform} {event : Event} {uid : Int}
    {fields : List (Column × PyValue)} (h : SetBy p event uid fields) (c : Column) :
    (fields.lookup c).any blank = event.lacks p uid c := by
  cases h with
  | @attendance event member fields _ _ _ set =>
      obtain ⟨date, hdate, set⟩ := bind_eq_ok.mp set
      obtain ⟨label, _, set⟩ := bind_eq_ok.mp set
      cases set
      cases c with
      | courseId | classStart | classEnd => exact blank_ofInt? _
      | teacherUid => exact (blank_ofInt? _).trans Option.isNone_map
      | courseName | className | teacherName => exact blank_ofText? _
      | lessonDate => exact (blank_ofText? _).trans (iso_isNone hdate)
      | _ => rfl
  | @«end» event totals uid read _ _ =>
      simp only [Event.lacks, read, EndTotals.fields]
      cases totals.camera.lookup uid <;> cases totals.hands.lookup uid <;>
        cases totals.trophy.lookup uid <;> cases totals.poll.lookup uid <;>
        cases c <;> first | rfl | exact blank_ofInt? _ | exact blank_float _
  | @homeworkSubmit event uid _ _ =>
      cases c with
      | courseId => exact blank_ofInt? event.courseID
      | _ => rfl
  | @homeworkScore event uid _ =>
      cases c with
      | courseId => exact blank_ofInt? event.courseID
      | homeworkScore => exact blank_ofFloat? event.data.scorePercent
      | _ => rfl

/-- A student's patch puts NULL exactly into the columns the event lacks. -/
theorem bound_null_iff {event : Event} {uid : Int} {fields : List (Column × PyValue)}
    (h : SetBy p event uid fields) (hadmitted : event.Admitted) (c : Column) :
    (bound p fields).lookup c = some .null ↔ event.lacks p uid c = true := by
  obtain ⟨htyped, cells, hcells⟩ := h.binds hadmitted
  have hbound : bound p fields = cells := by
    rw [bound, hcells]
    rfl
  rw [hbound, lookup_bindFields p hcells, ← h.any_blank]
  cases hvalue : fields.lookup c with
  | none => simp
  | some value =>
      rw [Option.bind_some, Option.any_some,
        ← bind_typed_null p (htyped _ (Table.mem_of_lookup hvalue))]
      cases c.type.bind p value <;> simp [Except.toOption]

/-! ### One cell through a list of patches -/

section Cell

variable {records : Records} {key : RecordKey} {c : Column} {changes : List RecordPatch}

/-- A stored cell stays stored when no patch of its row puts NULL there. -/
theorem cellAt_foldl_ne_null
    (hpatches : ∀ change ∈ changes, change.1 = key → change.2.lookup c ≠ some .null)
    (hcell : cellAt records key c ≠ .null) :
    cellAt (changes.foldl applyPatch records) key c ≠ .null := by
  induction changes generalizing records with
  | nil => exact hcell
  | cons change changes ih =>
      refine ih (fun change' h => hpatches change' (List.mem_cons_of_mem _ h)) ?_
      rw [cellAt_applyPatch]
      by_cases hkey : key = change.1
      · rw [if_pos hkey]
        have hne := hpatches change List.mem_cons_self hkey.symm
        cases hlookup : change.2.lookup c with
        | none => exact hcell
        | some cell =>
            intro hnull
            rw [Option.getD_some] at hnull
            exact hne (hlookup.trans (congrArg some hnull))
      · rw [if_neg hkey]
        exact hcell

/-- A cell is erased when every patch of its row puts NULL there, and there is one. -/
theorem cellAt_foldl_eq_null
    (hpatches : ∀ change ∈ changes, change.1 = key → change.2.lookup c = some .null)
    (hone : cellAt records key c = .null ∨ ∃ change ∈ changes, change.1 = key) :
    cellAt (changes.foldl applyPatch records) key c = .null := by
  induction changes generalizing records with
  | nil =>
      rcases hone with hone | ⟨_, h, _⟩
      · exact hone
      · cases h
  | cons change changes ih =>
      refine ih (fun change' h => hpatches change' (List.mem_cons_of_mem _ h)) ?_
      by_cases hkey : key = change.1
      · left
        rw [cellAt_applyPatch, if_pos hkey, hpatches change List.mem_cons_self hkey.symm]
        rfl
      · rw [cellAt_applyPatch, if_neg hkey]
        rcases hone with hone | ⟨change', hmem, hsame⟩
        · exact Or.inl hone
        · rcases List.mem_cons.mp hmem with rfl | hmem
          · exact absurd hsame.symm hkey
          · exact Or.inr ⟨change', hmem, hsame⟩

end Cell

/-! ### One ingest -/

/-- Every cell that is stored before the ingest is stored after it. -/
def RetainsCells (store : Store) (raw : PyValue) : Prop :=
  ∀ key c, cellAt store.records key c ≠ .null → cellAt (ingest p store raw).2.records key c ≠ .null

theorem mem_patches {event : Event} {change : RecordPatch} (h : change ∈ event.patches p) :
    ∃ uid fields, (uid, fields) ∈ event.recordFields p ∧
      change = ((event.lessonKey, uid), bound p fields) := by
  obtain ⟨⟨uid, fields⟩, hmem, rfl⟩ := List.mem_map.mp h
  exact ⟨uid, fields, hmem, rfl⟩

theorem retainsCells_of_keepsCells {store : Store} {raw : PyValue} (h : KeepsCells p store raw) :
    RetainsCells p store raw := by
  intro key c hcell
  refine ingest_keeps p (P := fun after => cellAt after.records key c ≠ .null) hcell hcell
    fun event row hread hfresh => ?_
  have hkeeps := (h event row hread).resolve_left (by rw [hfresh]; exact Bool.false_ne_true)
  rw [records_ingest p hread hfresh]
  apply cellAt_foldl_ne_null _ hcell
  intro change hchange hkey hnull
  obtain ⟨uid, fields, hmem, rfl⟩ := mem_patches p hchange
  have hlacks := (bound_null_iff p (setBy_of_mem p hmem) (Event.admitted hread) c).mp hnull
  have hstored := hkeeps uid (List.mem_map_of_mem hmem) c hlacks
  subst hkey
  unfold cellAt at hcell
  cases hrow : store.records (event.lessonKey, uid) with
  | none =>
      rw [hrow] at hcell
      exact hcell rfl
  | some cells =>
      rw [hrow] at hcell
      exact hcell (hstored cells hrow)

theorem keepsCells_of_retainsCells {store : Store} {raw : PyValue} (h : RetainsCells p store raw) :
    KeepsCells p store raw := by
  intro event row hread
  cases hdup : store.events.isDuplicate row.msgId with
  | true => exact Or.inl rfl
  | false =>
      right
      intro uid huid c hlacks cells hrow
      by_contra hcell
      have hbefore : cellAt store.records (event.lessonKey, uid) c ≠ .null := by
        rw [cellAt, hrow]
        exact hcell
      have hafter := h _ c hbefore
      rw [records_ingest p hread hdup] at hafter
      obtain ⟨⟨_, fields⟩, hmem, rfl⟩ := List.mem_map.mp huid
      refine hafter (cellAt_foldl_eq_null (fun change hchange hkey => ?_)
        (Or.inr ⟨_, List.mem_map_of_mem hmem, rfl⟩))
      obtain ⟨uid', fields', hmem', rfl⟩ := mem_patches p hchange
      obtain rfl := (Prod.mk.inj hkey).2
      exact (bound_null_iff p (setBy_of_mem p hmem') (Event.admitted hread) c).mpr hlacks

/-! ### Runs -/

/-- A delivery that erases no cell, or a write on another table. -/
def KeepsCellsOp (store : Store) : Op → Prop
  | .deliver raw => KeepsCells p store raw
  | .write w => w.asPatch = none

section Run

variable {store : Store} {key : RecordKey} {c : Column}

theorem retainsCells_step {op : Op} (h : KeepsCellsOp p store op)
    (hcell : cellAt store.records key c ≠ .null) :
    cellAt (store.step p op).records key c ≠ .null := by
  cases op with
  | deliver raw => exact retainsCells_of_keepsCells p h key c hcell
  | write w =>
      have hother : w.asPatch = none := h
      rw [Store.step, records_write, hother]
      exact hcell

/-- A stored cell stays stored in a run whose steps all keep the cells. -/
theorem retainsCells_run {ops : List Op}
    (h : ∀ before op after, ops = before ++ op :: after →
      KeepsCellsOp p (store.runOps p before) op)
    (hcell : cellAt store.records key c ≠ .null) :
    cellAt (store.runOps p ops).records key c ≠ .null := by
  induction ops generalizing store with
  | nil => exact hcell
  | cons op ops ih =>
      have hstep : KeepsCellsOp p store op := h [] op ops rfl
      apply ih _ (retainsCells_step p hstep hcell)
      intro before op' after heq
      exact h (op :: before) op' after (by rw [heq, List.cons_append])

end Run

/-- An ingest erases no stored cell exactly when the event lacks no value for one; and in a run whose
steps all meet that condition, a cell that is stored at the start is stored at the end. -/
theorem ingest_retains_iff :
    (∀ (store : Store) (raw : PyValue), RetainsCells p store raw ↔ KeepsCells p store raw) ∧
    (∀ (store : Store) (ops : List Op),
      (∀ before op after, ops = before ++ op :: after →
        KeepsCellsOp p (store.runOps p before) op) →
      ∀ key c, cellAt store.records key c ≠ .null →
        cellAt (store.runOps p ops).records key c ≠ .null) := by
  constructor
  · intro store raw
    exact ⟨keepsCells_of_retainsCells p, retainsCells_of_keepsCells p⟩
  · intro store ops h key c hcell
    exact retainsCells_run p h hcell

/-- A lesson of a course, with one student. -/
def courseAttendance : PyValue := .object
  [("Cmd", .string "Attendance"), ("_id", .string "a"), ("ClassID", .int 5), ("CourseID", .int 3),
    ("Data", .list [.object [("Uid", .int 9), ("AttendanceTime", .int 60)]])]

/-- The homework of the student, without the course. -/
def courselessSubmit : PyValue := .object
  [("Cmd", .string "HomeworkSubmit"), ("_id", .string "b"), ("ClassID", .int 5),
    ("Data", .object [("ActivityId", .int 77), ("StudentInfo", .object [("StudentUid", .int 9)])])]

theorem courselessSubmit_erases_course :
    ¬∀ store, Reachable .plain store → ∀ raw, RetainsCells .plain store raw := by
  intro h
  have hreach : Reachable .plain (Store.empty.runOps .plain [.deliver courseAttendance]) := ⟨_, rfl⟩
  have hbefore : cellAt (Store.empty.runOps .plain [.deliver courseAttendance]).records ("5", 9)
      .courseId = .int 3 := by decide
  refine h _ hreach courselessSubmit ("5", 9) .courseId ?_ (by decide)
  rw [hbefore]
  exact SqlValue.noConfusion

end ClassinDashboard

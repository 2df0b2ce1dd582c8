import ClassinDashboard.IngestConvergence
import ClassinDashboard.Metrics

/-!
When the missing-homework list is exact. A submit flips one flag on the row of its lesson key, which
is the class id it carries or a key made of the activity, and whatever activity it is for. So the
list tells who has submitted something under the lesson, not who has submitted its homework.
-/

namespace ClassinDashboard

open Py Sql

variable (p : Platform)

/-! ### Runs of events and homework creations -/

inductive HomeworkOp
  | deliver (raw : PyValue)
  /-- A created lesson is stored under its class id. -/
  | createClassroom (classId : String) (courseId : Option Int)
      (title startTime endTime teacherUid : PyValue)
  /-- A created homework is stored on its lesson. -/
  | createActivity (classId : String) (activityId : Int)

def Store.homeworkStep (store : Store) : HomeworkOp → Store
  | .deliver raw => (ingest p store raw).2
  | .createClassroom classId courseId title startTime endTime teacherUid =>
      store.exec (upsertLesson p classId courseId title startTime endTime teacherUid none "api")
  | .createActivity classId activityId =>
      store.exec (upsertLesson p classId none .none .none .none .none (some activityId) "api")

def homeworkRun (ops : List HomeworkOp) : Store := ops.foldl (Store.homeworkStep p) Store.empty

/-! ### Submits in the event table -/

/-- The submit that a payload is. -/
def submitOf (raw : PyValue) : Option HomeworkSubmitEvent :=
  match eventOf p raw with
  | some (.homeworkSubmit event) => some event
  | _ => none

/-- The submits that were ingested. -/
def Store.submits (store : Store) : List HomeworkSubmitEvent :=
  store.events.rows.filterMap fun row => submitOf p row.payload

def HomeworkSubmitEvent.studentUid (event : HomeworkSubmitEvent) : Option Int :=
  (Event.homeworkSubmit event).studentUid

/-- The student submitted the activity. -/
def Submitted (store : Store) (activityId studentUid : Int) : Prop :=
  ∃ event ∈ store.submits p, event.studentUid = some studentUid ∧ event.data.activityId = activityId

/-- The student submitted some activity under a lesson key. -/
def SubmittedUnder (store : Store) (lessonId : String) (studentUid : Int) : Prop :=
  ∃ event ∈ store.submits p, event.studentUid = some studentUid ∧
    SqlValue.inRange event.data.activityId = true ∧
    lessonKey event.toBaseEvent (some event.data.activityId) = lessonId

instance (store : Store) (activityId studentUid : Int) :
    Decidable (Submitted p store activityId studentUid) :=
  inferInstanceAs (Decidable (∃ event ∈ store.submits p, _ ∧ _))

instance (store : Store) (lessonId : String) (studentUid : Int) :
    Decidable (SubmittedUnder p store lessonId studentUid) :=
  inferInstanceAs (Decidable (∃ event ∈ store.submits p, _ ∧ _ ∧ _))

/-! ### The flag -/

/-- The flag of a student's row. -/
def flagged (store : Store) (lessonId : String) (studentUid : Int) : Prop :=
  cellAt store.records (lessonId, studentUid) .homeworkSubmitted = .int 1

/-- A submit of a known student is one patch, when its activity can be stored. -/
theorem patches_submit (submit : HomeworkSubmitEvent) :
    (Event.homeworkSubmit submit).patches p =
      if SqlValue.inRange submit.data.activityId then
        submit.studentUid.toList.map fun uid =>
          ((lessonKey submit.toBaseEvent (some submit.data.activityId), uid), bound p submit.fields)
      else [] := by
  rw [Event.patches, recordFields_homeworkSubmit]
  split
  · exact List.map_map
  · rfl

theorem lookup_submitted {event : HomeworkSubmitEvent} {uid : Int}
    (h : SetBy p (.homeworkSubmit event) uid event.fields)
    (hadmitted : (Event.homeworkSubmit event).Admitted) :
    (bound p event.fields).lookup .homeworkSubmitted = some (.int 1) := by
  obtain ⟨_, cells, hcells⟩ := h.binds hadmitted
  have hbound : bound p event.fields = cells := by
    rw [bound, hcells]
    rfl
  rw [hbound, lookup_bindFields p hcells]
  rfl

/-- Only a submit sets the flag. -/
theorem lookup_flag_of_kind {event : Event} {change : RecordPatch}
    (hkind : event.kind ≠ some .homeworkSubmit) (h : change ∈ event.patches p) :
    change.2.lookup .homeworkSubmitted = none := by
  obtain ⟨w, hw, rfl⟩ := List.mem_map.mp h
  cases hlookup : (bound p w.2).lookup .homeworkSubmitted with
  | none => rfl
  | some cell =>
      obtain ⟨value, hvalue, _⟩ := lookup_bound p hlookup
      rcases (setBy_of_mem p hw).columns.1 _ (Table.mem_of_lookup hvalue) with hc | hc
      · cases hc
      · exact absurd hc.symm hkind

/-- The submits that set a flag. -/
def HomeworkSubmitEvent.flags (submit : HomeworkSubmitEvent) (lessonId : String) (uid : Int) : Prop :=
  submit.studentUid = some uid ∧ SqlValue.inRange submit.data.activityId = true ∧
    lessonKey submit.toBaseEvent (some submit.data.activityId) = lessonId

/-- The patch of a submit sets the flag of one row. -/
theorem cellAt_submit {submit : HomeworkSubmitEvent}
    (hadmitted : (Event.homeworkSubmit submit).Admitted) (records : Records) (lessonId : String) (uid : Int) :
    cellAt (((Event.homeworkSubmit submit).patches p).foldl applyPatch records) (lessonId, uid)
        .homeworkSubmitted = .int 1 ↔
      cellAt records (lessonId, uid) .homeworkSubmitted = .int 1 ∨ submit.flags lessonId uid := by
  rw [patches_submit]
  unfold HomeworkSubmitEvent.flags
  by_cases hrange : SqlValue.inRange submit.data.activityId = true
  · rw [if_pos hrange]
    cases hstudent : submit.studentUid with
    | none => simp
    | some student =>
        have hset := lookup_submitted p (.homeworkSubmit hstudent hrange) hadmitted
        simp only [Option.toList_some, List.map_cons, List.map_nil, List.foldl_cons, List.foldl_nil,
          cellAt_applyPatch, hset, Option.getD_some, Option.some.injEq, hrange, true_and,
          Prod.mk.injEq]
        by_cases hkey : lessonId = lessonKey submit.toBaseEvent (some submit.data.activityId) ∧
            uid = student
        · rw [if_pos hkey]
          exact ⟨fun _ => Or.inr ⟨hkey.2.symm, hkey.1.symm⟩, fun _ => rfl⟩
        · rw [if_neg hkey]
          refine (or_iff_left ?_).symm
          rintro ⟨rfl, rfl⟩
          exact hkey ⟨rfl, rfl⟩
  · rw [if_neg hrange]
    refine (or_iff_left ?_).symm
    rintro ⟨_, h, _⟩
    exact hrange h

/-- What a fresh event does to the flag. -/
theorem flagged_ingest {store : Store} {raw : PyValue} {event : Event} {row : EventRow}
    (hread : readEvent p raw = .ok (event, row))
    (hfresh : store.events.isDuplicate row.msgId = false) (lessonId : String) (uid : Int) :
    flagged (ingest p store raw).2 lessonId uid ↔ flagged store lessonId uid ∨
      ∃ submit, event = .homeworkSubmit submit ∧ submit.flags lessonId uid := by
  unfold flagged
  rw [records_ingest p hread hfresh]
  by_cases hkind : event.kind = some .homeworkSubmit
  · cases event with
    | homeworkSubmit submit =>
        rw [cellAt_submit p (Event.admitted hread)]
        simp only [Event.homeworkSubmit.injEq, exists_eq_left']
    | _ => cases hkind
  · rw [cellAt_foldl_of_lookup_none fun change hchange => lookup_flag_of_kind p hkind hchange]
    refine (or_iff_left ?_).symm
    rintro ⟨submit, rfl, _⟩
    exact hkind rfl

/-! ### The invariant -/

/-- The flag of every row tells whether its student submitted something under its lesson key. -/
def FlagsExact (store : Store) : Prop :=
  ∀ lessonId uid, flagged store lessonId uid ↔ SubmittedUnder p store lessonId uid

theorem submits_ingest_fresh {store : Store} {raw : PyValue} {event : Event} {row : EventRow}
    (hread : readEvent p raw = .ok (event, row))
    (hfresh : store.events.isDuplicate row.msgId = false) :
    (ingest p store raw).2.submits p = store.submits p ++ (submitOf p raw).toList := by
  have hpayload : row.payload = raw := payload_of_readEvent hread
  rw [Store.submits, ingest_fresh p hread hfresh, exec_events]
  show List.filterMap _ (store.events.insertOrIgnore row).2.rows = _
  rw [EventLog.rows_insertOrIgnore _ _ hfresh, List.filterMap_append]
  simp only [List.filterMap_cons, List.filterMap_nil, hpayload, Store.submits]
  cases submitOf p raw <;> rfl

theorem flagsExact_ingest {store : Store} (h : FlagsExact p store) (raw : PyValue) :
    FlagsExact p (ingest p store raw).2 := by
  refine ingest_keeps p (P := FlagsExact p) h h fun event row hread hfresh lessonId uid => ?_
  have hevent := eventOf_of_readEvent hread
  rw [flagged_ingest p hread hfresh, h lessonId uid, SubmittedUnder, SubmittedUnder,
    submits_ingest_fresh p hread hfresh, submitOf, hevent]
  simp only [List.mem_append, or_and_right, exists_or]
  apply or_congr Iff.rfl
  cases event <;> simp [HomeworkSubmitEvent.flags]

/-- A step that leaves the records and the events leaves the flags exact. -/
theorem flagsExact_of_frame {store store' : Store} (hrecords : store'.records = store.records)
    (hevents : store'.events = store.events) (h : FlagsExact p store) : FlagsExact p store' := by
  unfold FlagsExact flagged SubmittedUnder Store.submits at *
  rw [hrecords, hevents]
  exact h

/-- A statement on lessons touches neither records nor events. -/
theorem exec_upsertLesson (store : Store) (lessonId : String) (courseId : Option Int)
    (title startTime endTime teacherUid : PyValue) (activityId : Option Int) (createdVia : String) :
    (store.exec (upsertLesson p lessonId courseId title startTime endTime teacherUid activityId
        createdVia)).records = store.records ∧
      (store.exec (upsertLesson p lessonId courseId title startTime endTime teacherUid activityId
        createdVia)).events = store.events := by
  refine ⟨Script.exec_frame Store.records fun current w hw => ?_, exec_events _ _⟩
  have hw := mem_writes_upsertLesson hw
  obtain ⟨row, rfl⟩ := hw
  rfl

theorem flagsExact_step {store : Store} (h : FlagsExact p store) (op : HomeworkOp) :
    FlagsExact p (store.homeworkStep p op) := by
  cases op with
  | deliver raw => exact flagsExact_ingest p h raw
  | createClassroom classId courseId title startTime endTime teacherUid =>
      obtain ⟨hrecords, hevents⟩ := exec_upsertLesson p store classId courseId title startTime endTime
        teacherUid none "api"
      exact flagsExact_of_frame p hrecords hevents h
  | createActivity classId activityId =>
      obtain ⟨hrecords, hevents⟩ := exec_upsertLesson p store classId none .none .none .none .none
        (some activityId) "api"
      exact flagsExact_of_frame p hrecords hevents h

theorem flagsExact_run (ops : List HomeworkOp) : FlagsExact p (homeworkRun p ops) := by
  induction ops using List.reverseRecOn with
  | nil =>
      intro lessonId uid
      constructor
      · intro hflag
        cases hflag
      · rintro ⟨event, hevent, _⟩
        cases hevent
  | append_singleton ops op ih =>
      rw [homeworkRun, List.foldl_append]
      exact flagsExact_step p ih op

/-! ### The list -/

/-- The student is on the missing-homework list of a lesson. -/
def Listed (store : Store) (since lessonId : String) (studentUid : Int) : Prop :=
  ∃ row ∈ missingHomeworkRows store .all since,
    row.record.lessonId = lessonId ∧ row.record.studentUid = studentUid

/-- The activity of the homework that is known for a lesson. -/
def Store.homeworkOf (store : Store) (lessonId : String) : Option Int :=
  (store.lessons.find lessonId).bind (·.homeworkActivityId)

/-- The student has a record for the lesson in the window. -/
def inWindow (store : Store) (since lessonId : String) (studentUid : Int) : Bool :=
  (store.lessonRecords.find (lessonId, studentUid)).any fun cells =>
    onOrAfter (cells .lessonDate) since

theorem matches_since {since : String} {record : LessonRecord}
    (h : onOrAfter (record.cells .lessonDate) since = true) :
    ({ RecordFilter.none with since := some since } : RecordFilter).matches record = true := by
  have hsince : ((some since).filter (· ≠ "")).all
      (fun date => onOrAfter (record.cells .lessonDate) date) = true := by
    cases hfilter : (some since).filter (· ≠ "") with
    | none => rfl
    | some date =>
        obtain rfl := Option.some.inj (Option.filter_eq_some_iff.mp hfilter).1
        exact h
  simp only [RecordFilter.matches, RecordFilter.none, Option.all_none, Option.filter_none, hsince,
    Bool.and_self]

theorem record_of_inWindow {store : Store} {since lessonId : String} {uid : Int}
    (h : inWindow store since lessonId uid = true) :
    ∃ cells, store.lessonRecords.find (lessonId, uid) = some cells ∧
      onOrAfter (cells .lessonDate) since = true := by
  unfold inWindow at h
  cases hfind : store.lessonRecords.find (lessonId, uid) with
  | none =>
      rw [hfind] at h
      cases h
  | some cells =>
      rw [hfind] at h
      exact ⟨cells, rfl, h⟩

/-- A lesson with a known homework is a lesson with homework, submits or not. -/
theorem mem_lessonsWithHomework {store : Store} {lessonId : String} {activityId : Int}
    (h : store.homeworkOf lessonId = some activityId) :
    lessonId ∈ lessonsWithHomework store .all := by
  obtain ⟨lesson, hlesson, hactivity⟩ := Option.bind_eq_some_iff.mp h
  refine List.mem_append_right _ (List.mem_map.mpr ⟨(lessonId, lesson), ?_, rfl⟩)
  simp only [lessons, Option.all_none, List.mem_filter, and_true]
  refine ⟨⟨(Table.mem_rows_iff _ _ _).mpr hlesson, rfl⟩, ?_⟩
  rw [hactivity]
  rfl

/-- A student in the window of a lesson with homework is listed unless flagged. -/
theorem listed_iff {store : Store} {since lessonId : String} {uid activityId : Int}
    (hhomework : store.homeworkOf lessonId = some activityId)
    (hwindow : inWindow store since lessonId uid = true) :
    Listed store since lessonId uid ↔ ¬flagged store lessonId uid := by
  have hwith := mem_lessonsWithHomework hhomework
  obtain ⟨cells, hrecord, hdate⟩ := record_of_inWindow hwindow
  have hflag : flagged store lessonId uid ↔ cells .homeworkSubmitted = .int 1 := by
    rw [flagged, cellAt, Store.records, hrecord]
    rfl
  rw [hflag]
  constructor
  · rintro ⟨row, hrow, rfl, rfl⟩ hsubmitted
    obtain ⟨record, hmem, rfl⟩ := List.mem_map.mp hrow
    obtain ⟨hstored, hkept⟩ := List.mem_filter.mp hmem
    have hfind := (mem_lessonRecords.mp hstored).1
    rw [hrecord] at hfind
    simp only [decide_eq_true_eq] at hkept
    exact hkept.2 (Option.some.inj hfind ▸ hsubmitted)
  · intro hsubmitted
    have hmem : (⟨lessonId, uid, cells⟩ : LessonRecord) ∈
        lessonRecords store .all { RecordFilter.none with since := some since } :=
      mem_lessonRecords.mpr ⟨hrecord, matches_since hdate, inScope_all store _⟩
    refine ⟨_, List.mem_map_of_mem (List.mem_filter.mpr ⟨hmem, ?_⟩), rfl, rfl⟩
    simp only [decide_eq_true_eq]
    exact ⟨hwith, hsubmitted⟩

/-- For a lesson with a known homework and a student with a record in the window, the list is exact
just when having submitted something under the lesson key is having submitted the homework. -/
theorem missingHomework_exact_iff (ops : List HomeworkOp) (since lessonId : String)
    (studentUid activityId : Int)
    (hhomework : (homeworkRun p ops).homeworkOf lessonId = some activityId)
    (hwindow : inWindow (homeworkRun p ops) since lessonId studentUid = true) :
    (Listed (homeworkRun p ops) since lessonId studentUid ↔
        ¬Submitted p (homeworkRun p ops) activityId studentUid) ↔
      (SubmittedUnder p (homeworkRun p ops) lessonId studentUid ↔
        Submitted p (homeworkRun p ops) activityId studentUid) := by
  rw [listed_iff hhomework hwindow, flagsExact_run p ops lessonId studentUid]
  exact not_iff_not

/-- A lesson with one student, and a homework created on it. -/
def lessonWithHomework : List HomeworkOp :=
  [.deliver (.object [("Cmd", .string "Attendance"), ("_id", .string "a"), ("ClassID", .int 555),
      ("ClassStartTime", .int 1756803600),
      ("Data", .list [.object [("Uid", .int 9), ("AttendanceTime", .int 3600)]])]),
    .createActivity "555" 777]

/-- The submit of that homework, in its lesson. -/
def submitInLesson : HomeworkOp :=
  .deliver (.object [("Cmd", .string "HomeworkSubmit"), ("_id", .string "c"), ("ClassID", .int 555),
    ("Data", .object [("ActivityId", .int 777), ("StudentInfo", .object [("StudentUid", .int 9)])])])

theorem lessonWithHomework_exact :
    let store := homeworkRun .plain (lessonWithHomework ++ [submitInLesson])
    (Listed store "2025-09-01" "555" 9 ↔ ¬Submitted .plain store 777 9) ∧ Submitted .plain store 777 9 := by
  intro store
  have hsubmitted : Submitted .plain store 777 9 := by decide
  have hunder : SubmittedUnder .plain store "555" 9 := by decide
  exact ⟨(missingHomework_exact_iff .plain (lessonWithHomework ++ [submitInLesson]) "2025-09-01" "555" 9 777
    (by decide) (by decide)).mpr (iff_of_true hunder hsubmitted), hsubmitted⟩

/-- The submit of that homework, without the lesson it belongs to. -/
def classlessSubmit : HomeworkOp :=
  .deliver (.object [("Cmd", .string "HomeworkSubmit"), ("_id", .string "b"),
    ("Data", .object [("ActivityId", .int 777), ("StudentInfo", .object [("StudentUid", .int 9)])])])

/-- After it the student is still listed. -/
theorem classlessSubmit_still_listed :
    ¬∀ (ops : List HomeworkOp) (since lessonId : String) (studentUid activityId : Int),
      (homeworkRun .plain ops).homeworkOf lessonId = some activityId →
      inWindow (homeworkRun .plain ops) since lessonId studentUid = true →
      (Listed (homeworkRun .plain ops) since lessonId studentUid ↔
        ¬Submitted .plain (homeworkRun .plain ops) activityId studentUid) := by
  intro h
  let store := homeworkRun .plain (lessonWithHomework ++ [classlessSubmit])
  have hhomework : store.homeworkOf "555" = some 777 := by decide
  have hwindow : inWindow store "2025-09-01" "555" 9 = true := by decide
  have hflag : cellAt store.records ("555", 9) .homeworkSubmitted ≠ .int 1 := by decide
  have hsubmitted : Submitted .plain store 777 9 := by decide
  exact (h _ _ _ _ _ hhomework hwindow).mp ((listed_iff hhomework hwindow).mpr hflag) hsubmitted

end ClassinDashboard

import ClassinDashboard.IngestBinding
import Mathlib.Tactic.FinCases

/-!
Lesson records as a partial map from (lesson, student) to cells, and an event as the list of patches
it applies to that map. The handlers refine this view: what they commit to the `lesson_records`
table is exactly the list of patches, cut where the handler raises.
-/

namespace ClassinDashboard

open Py Sql

/-! ### The abstract map -/

abbrev RecordKey := String × Int

abbrev Records := RecordKey → Option Cells

/-- The columns that one write sets on one record. -/
abbrev RecordPatch := RecordKey × List (Column × SqlValue)

def applyPatch (records : Records) (change : RecordPatch) : Records :=
  Function.update records change.1 (some (patch ((records change.1).getD emptyCells) change.2))

theorem applyPatch_self (records : Records) (key : RecordKey) (fields : List (Column × SqlValue)) :
    applyPatch records (key, fields) key = some (patch ((records key).getD emptyCells) fields) :=
  Function.update_self ..

theorem applyPatch_of_ne (records : Records) {key key' : RecordKey} (h : key' ≠ key)
    (fields : List (Column × SqlValue)) : applyPatch records (key, fields) key' = records key' :=
  Function.update_of_ne h ..

/-- The value of a column, NULL where there is no row. -/
def cellAt (records : Records) (key : RecordKey) (c : Column) : SqlValue :=
  ((records key).getD emptyCells) c

theorem cellAt_applyPatch (records : Records) (change : RecordPatch) (key : RecordKey) (c : Column) :
    cellAt (applyPatch records change) key c =
      if key = change.1 then (change.2.lookup c).getD (cellAt records key c)
      else cellAt records key c := by
  by_cases hkey : key = change.1
  · rw [if_pos hkey, hkey, cellAt, applyPatch, Function.update_self]
    rfl
  · rw [if_neg hkey, cellAt, applyPatch, Function.update_of_ne hkey]
    rfl

/-- A cell that no patch sets stays as it is. -/
theorem cellAt_foldl_of_lookup_none {changes : List RecordPatch} {c : Column}
    (h : ∀ change ∈ changes, change.2.lookup c = none) (records : Records) (key : RecordKey) :
    cellAt (changes.foldl applyPatch records) key c = cellAt records key c := by
  induction changes generalizing records with
  | nil => rfl
  | cons change changes ih =>
      rw [List.foldl_cons, ih (fun other ho => h other (List.mem_cons_of_mem _ ho)),
        cellAt_applyPatch, h change List.mem_cons_self, Option.getD_none, ite_self]

def Store.records (store : Store) : Records := store.lessonRecords.find

/-- The record patch of a write, if it is one. -/
def Write.asPatch : Write → Option RecordPatch
  | .record lessonId studentUid fields => some ((lessonId, studentUid), fields)
  | _ => none

theorem records_write (store : Store) (w : Write) :
    (store.write w).records = (w.asPatch.map (applyPatch store.records)).getD store.records := by
  cases w with
  | record lessonId studentUid fields =>
      funext key
      show (upsertCells store.lessonRecords (lessonId, studentUid) fields).find key = _
      rw [upsertCells]
      by_cases hkey : key = (lessonId, studentUid)
      · subst hkey
        rw [Table.find_upsert_self]
        simp only [Write.asPatch, Option.map_some, Option.getD_some, applyPatch_self, Store.records]
        cases store.lessonRecords.find (lessonId, studentUid) <;> rfl
      · rw [Table.find_upsert_of_ne _ hkey]
        exact (applyPatch_of_ne store.records hkey fields).symm
  | _ => rfl

/-- The table after a script is the map after its patches. -/
theorem records_exec {α : Type} (store : Store) (s : StoreScript α) :
    (store.exec s).records = (s.writes.filterMap Write.asPatch).foldl applyPatch store.records := by
  unfold Store.exec Script.exec
  generalize s.writes = ws
  induction ws generalizing store with
  | nil => rfl
  | cons w ws ih =>
      rw [List.foldl_cons, ih, records_write, List.filterMap_cons]
      cases w.asPatch <;> rfl

/-! ### What the handlers accept -/

/-- A timestamp that has a date. -/
def dated (ts : Option Int) : Bool :=
  (nonzero ts).all fun ts => -62135596800 ≤ ts && ts ≤ 253402300799

theorem iso_isOk (ts : Option Int) : (∃ s, iso ts = .ok s) ↔ dated ts = true := by
  unfold iso dated
  cases nonzero ts with
  | none => simp
  | some ts =>
      simp only [Option.all_some, Bool.and_eq_true, decide_eq_true_eq, ← utcIsoformat_isOk]
      cases utcIsoformat ts <;> simp [Except.map]

theorem natAbs_sub_le {a b : Int} (ha : SqlValue.inRange a = true) (hb : SqlValue.inRange b = true) :
    (a - b).natAbs ≤ 2 ^ 64 := by
  simp only [SqlValue.inRange, Bool.and_eq_true, decide_eq_true_eq] at ha hb
  omega

/-- Class times that fit a cell are close enough for their difference to be a float. -/
theorem attendanceLabel_isOk (seconds : Int) (firstIn : Option Int) {classStart classEnd : Option Int}
    (hstart : fits classStart = true) (hend : fits classEnd = true) :
    ∃ label, attendanceLabel seconds firstIn classStart classEnd = .ok label := by
  unfold attendanceLabel
  by_cases hseconds : seconds ≤ 0
  · exact ⟨_, if_pos hseconds⟩
  rw [if_neg hseconds]
  dsimp only
  refine dite _ (fun hlate => ⟨_, if_pos hlate⟩) fun hlate => ?_
  rw [if_neg hlate]
  cases hs : nonzero classStart with
  | none => exact ⟨_, rfl⟩
  | some start =>
      cases he : nonzero classEnd with
      | none => exact ⟨_, rfl⟩
      | some stop =>
          obtain rfl := (Option.filter_eq_some_iff.mp hs).1
          obtain rfl := (Option.filter_eq_some_iff.mp he).1
          obtain ⟨x, hx⟩ := PyFloat.ofInt_isOk (natAbs_sub_le hend hstart)
          exact ⟨_, by simp only [hx]; rfl⟩

theorem attendanceFields_isOk (event : AttendanceEvent) (teacher : Option AttendanceMember)
    (member : AttendanceMember) (hstart : fits event.classStartTime = true)
    (hend : fits event.classEndTime = true) :
    (∃ fields, attendanceFields event teacher member = .ok fields) ↔
      dated (orInt event.classStartTime event.actionTime) = true := by
  obtain ⟨label, hlabel⟩ := attendanceLabel_isOk member.attendanceTime member.firstInTime hstart hend
  rw [← iso_isOk]
  unfold attendanceFields
  rw [hlabel]
  cases iso (orInt event.classStartTime event.actionTime) with
  | error e => simp [bind, Except.bind]
  | ok lessonDate => simp [bind, Except.bind, pure, Except.pure]

theorem typed_ofInt? (n : Option Int) : typed .integer (.ofInt? n) = true := by cases n <;> rfl

theorem typed_ofText? (s : Option String) : typed .text (.ofText? s) = true := by cases s <;> rfl

theorem typed_ofFloat? (x : Option PyFloat) : typed .real (.ofFloat? x) = true := by cases x <;> rfl

theorem fitsCell_ofInt? (n : Option Int) : fitsCell (.ofInt? n) = fits n := by cases n <;> rfl

@[simp] theorem fitsCell_ofText? (s : Option String) : fitsCell (.ofText? s) = true := by
  cases s <;> rfl

@[simp] theorem fitsCell_ofFloat? (x : Option PyFloat) : fitsCell (.ofFloat? x) = true := by
  cases x <;> rfl

theorem typed_attendanceFields {event : AttendanceEvent} {teacher : Option AttendanceMember}
    {member : AttendanceMember} {fields : List (Column × PyValue)}
    (h : attendanceFields event teacher member = .ok fields) : Typed fields := by
  obtain ⟨lessonDate, _, h⟩ := bind_eq_ok.mp h
  obtain ⟨label, _, h⟩ := bind_eq_ok.mp h
  cases h
  intro field hfield
  fin_cases hfield <;> first | exact typed_ofInt? _ | exact typed_ofText? _ | rfl

/-! ### An event as patches -/

/-- What an admitted payload promises about its ids: each of them was bound. -/
structure Event.Admitted (event : Event) : Prop where
  course : fits event.base.courseID = true
  classId : fits event.base.classID = true
  student : fits event.studentUid = true
  teacher : fits event.teacherUid = true

theorem readEvent_eq_ok {p : Platform} {raw : PyValue} {event : Event} {row : EventRow}
    (h : readEvent p raw = .ok (event, row)) :
    parseEvent p raw = .ok event ∧
      eventRow event.cmd raw (messageId p raw) event.base.courseID event.base.classID
        event.studentUid event.teacherUid = .ok row := by
  obtain ⟨parsed, hparse, h⟩ := bind_eq_ok.mp h
  obtain ⟨r, hrow, h⟩ := bind_eq_ok.mp h
  cases h
  exact ⟨hparse, hrow⟩

theorem eventOf_of_readEvent {p : Platform} {raw : PyValue} {event : Event} {row : EventRow}
    (h : readEvent p raw = .ok (event, row)) : eventOf p raw = some event := by
  rw [eventOf, (readEvent_eq_ok h).1]
  rfl

/-- The row of an event keeps the payload and the id, and every id of it is bound. -/
theorem eventRow_eq_ok {cmd : String} {payload : PyValue} {msgId : Option PyStr}
    {courseId classId studentUid teacherUid : Option Int} {row : EventRow}
    (h : eventRow cmd payload msgId courseId classId studentUid teacherUid = .ok row) :
    msgId.mapM PyStr.encode = .ok row.msgId ∧ row.payload = payload ∧ fits courseId = true ∧
      fits classId = true ∧ fits studentUid = true ∧ fits teacherUid = true := by
  obtain ⟨id, hid, h⟩ := bind_eq_ok.mp h
  obtain ⟨course, hcourse, h⟩ := bind_eq_ok.mp h
  obtain ⟨lesson, hlesson, h⟩ := bind_eq_ok.mp h
  obtain ⟨student, hstudent, h⟩ := bind_eq_ok.mp h
  obtain ⟨teacher, hteacher, h⟩ := bind_eq_ok.mp h
  split at h
  · cases h
    exact ⟨hid, rfl, bindInt_isOk.mp ⟨_, hcourse⟩, bindInt_isOk.mp ⟨_, hlesson⟩,
      bindInt_isOk.mp ⟨_, hstudent⟩, bindInt_isOk.mp ⟨_, hteacher⟩⟩
  · cases h

/-- The id in the row of a payload is the text of the payload's id. -/
theorem msgId_of_readEvent {p : Platform} {raw : PyValue} {event : Event} {row : EventRow}
    (h : readEvent p raw = .ok (event, row)) :
    messageId p raw = row.msgId.map PyStr.text := by
  obtain ⟨hencoded, _⟩ := eventRow_eq_ok (readEvent_eq_ok h).2
  rcases hid : messageId p raw with _ | ⟨text | ⟨points, hpoints⟩⟩
  · rw [hid] at hencoded
    rw [← Except.ok.inj hencoded]
    rfl
  · rw [hid] at hencoded
    rw [← Except.ok.inj hencoded]
    rfl
  · rw [hid] at hencoded
    cases hencoded

/-- The row keeps the payload itself. -/
theorem payload_of_readEvent {p : Platform} {raw : PyValue} {event : Event} {row : EventRow}
    (h : readEvent p raw = .ok (event, row)) : row.payload = raw :=
  (eventRow_eq_ok (readEvent_eq_ok h).2).2.1

theorem Event.admitted {p : Platform} {raw : PyValue} {event : Event} {row : EventRow}
    (h : readEvent p raw = .ok (event, row)) : event.Admitted := by
  obtain ⟨_, _, hcourse, hclass, hstudent, hteacher⟩ := eventRow_eq_ok (readEvent_eq_ok h).2
  exact ⟨hcourse, hclass, hstudent, hteacher⟩

variable (p : Platform)

/-- The cells of fields that a statement accepts. -/
def bound (fields : List (Column × PyValue)) : List (Column × SqlValue) :=
  (bindFields p fields).toOption.getD []

/-- One record statement: the whole patch, or nothing. -/
theorem upsertLessonRecord_spec {fields : List (Column × PyValue)} (h : Typed fields)
    (lessonId : String) (uid : Int) :
    Script.Spec Write.asPatch (upsertLessonRecord p lessonId uid fields)
      (SqlValue.inRange uid && fields.all fun field => fitsCell field.2)
      (if SqlValue.inRange uid && fields.all fun field => fitsCell field.2 then
        [((lessonId, uid), bound p fields)] else []) := by
  refine Script.Spec.commit (w := some ((lessonId, uid), bound p fields)) ?_ ?_
  · rw [Bool.and_eq_true, List.all_eq_true, ← bindFields_isOk p h, ← bindKey_isOk]
    simp only [bind_isOk, pure_eq_ok, exists_eq', and_true, exists_and_right]
  · intro w hw
    obtain ⟨k, hk, hw⟩ := bind_eq_ok.mp hw
    obtain ⟨cells, hcells, hw⟩ := bind_eq_ok.mp hw
    cases hw
    rw [bound, hcells, bindKey_eq hk]
    rfl

/-! ### The statements on the other tables -/

section OtherTables

variable {p : Platform} {uid courseId : Int} {name : PyValue} {branchId : Option Int}

theorem ensureStudent_succeeds :
    (ensureStudent p uid name).Succeeds ↔ SqlValue.inRange uid = true ∧ storable name = true := by
  simp only [ensureStudent, Script.succeeds_commit, bind_isOk, pure_eq_ok, exists_eq', and_true,
    exists_and_right, bindKey_isOk, bindText_isOk]

theorem mem_writes_ensureStudent {w : Write} (hw : w ∈ (ensureStudent p uid name).writes) :
    ∃ text named, w = .student uid text named := by
  obtain ⟨key, hkey, hw⟩ := bind_eq_ok.mp (Script.mem_writes_commit.mp hw)
  obtain ⟨text, _, hw⟩ := bind_eq_ok.mp hw
  cases hw
  exact ⟨text, _, by rw [bindKey_eq hkey]⟩

theorem upsertTeacher_succeeds :
    (upsertTeacher p uid name).Succeeds ↔ SqlValue.inRange uid = true ∧ storable name = true := by
  simp only [upsertTeacher, Script.succeeds_commit, bind_isOk, pure_eq_ok, exists_eq', and_true,
    exists_and_right, bindKey_isOk, bindText_isOk]

theorem mem_writes_upsertTeacher {w : Write} (hw : w ∈ (upsertTeacher p uid name).writes) :
    ∃ text, w = .teacher uid text := by
  obtain ⟨key, hkey, hw⟩ := bind_eq_ok.mp (Script.mem_writes_commit.mp hw)
  obtain ⟨text, _, hw⟩ := bind_eq_ok.mp hw
  cases hw
  exact ⟨text, by rw [bindKey_eq hkey]⟩

theorem mem_writes_setCourseBranch {w : Write} (hw : w ∈ (setCourseBranch courseId branchId).writes) :
    ∃ branchId, w = .courseBranch courseId branchId := by
  obtain ⟨branch, _, hw⟩ := bind_eq_ok.mp (Script.mem_writes_commit.mp hw)
  obtain ⟨key, hkey, hw⟩ := bind_eq_ok.mp hw
  cases hw
  exact ⟨branch, by rw [bindKey_eq hkey]⟩

theorem mem_writes_setTeacherBranch {w : Write} (hw : w ∈ (setTeacherBranch uid branchId).writes) :
    ∃ branchId, w = .teacherBranch uid branchId := by
  obtain ⟨branch, _, hw⟩ := bind_eq_ok.mp (Script.mem_writes_commit.mp hw)
  obtain ⟨key, hkey, hw⟩ := bind_eq_ok.mp hw
  cases hw
  exact ⟨branch, by rw [bindKey_eq hkey]⟩

end OtherTables

theorem ensureStudent_spec (uid : Int) (name : Option String) :
    Script.Spec Write.asPatch (ensureStudent p uid (.ofText? name)) (SqlValue.inRange uid) [] := by
  apply Script.Spec.other
  · rw [ensureStudent_succeeds, storable_ofText?]
    exact and_iff_left rfl
  · intro w hw
    obtain ⟨text, named, rfl⟩ := mem_writes_ensureStudent hw
    rfl

theorem upsertTeacher_spec (uid : Int) (name : Option String) :
    Script.Spec Write.asPatch (upsertTeacher p uid (.ofText? name)) (SqlValue.inRange uid) [] := by
  apply Script.Spec.other
  · rw [upsertTeacher_succeeds, storable_ofText?]
    exact and_iff_left rfl
  · intro w hw
    obtain ⟨text, rfl⟩ := mem_writes_upsertTeacher hw
    rfl

section UpsertCourse

variable {p : Platform} {courseId : Int} {name teacherUid teacherName : PyValue} {createdVia : String}

theorem upsertCourse_succeeds :
    (upsertCourse p courseId name teacherUid teacherName createdVia).Succeeds ↔
      SqlValue.inRange courseId = true ∧ storable name = true ∧ storable teacherUid = true ∧
        storable teacherName = true := by
  simp only [upsertCourse, Script.succeeds_commit, bind_isOk, pure_eq_ok, exists_eq', and_true,
    exists_and_right, bindKey_isOk, bindText_isOk, bindInteger_isOk_iff]

theorem mem_writes_upsertCourse {w : Write}
    (hw : w ∈ (upsertCourse p courseId name teacherUid teacherName createdVia).writes) :
    ∃ text uid teacher, w = .course courseId text uid teacher createdVia := by
  obtain ⟨key, hkey, hw⟩ := bind_eq_ok.mp (Script.mem_writes_commit.mp hw)
  obtain ⟨text, _, hw⟩ := bind_eq_ok.mp hw
  obtain ⟨uid, _, hw⟩ := bind_eq_ok.mp hw
  obtain ⟨teacher, _, hw⟩ := bind_eq_ok.mp hw
  cases hw
  exact ⟨text, uid, teacher, by rw [bindKey_eq hkey]⟩

end UpsertCourse

theorem upsertCourse_spec (courseId : Int) (name : Option String) (createdVia : String) :
    Script.Spec Write.asPatch (upsertCourse p courseId (.ofText? name) .none .none createdVia)
      (SqlValue.inRange courseId) [] := by
  apply Script.Spec.other
  · rw [upsertCourse_succeeds, storable_ofText?]
    exact and_iff_left ⟨rfl, rfl, rfl⟩
  · intro w hw
    obtain ⟨text, uid, teacher, rfl⟩ := mem_writes_upsertCourse hw
    rfl

section UpsertLesson

variable {p : Platform} {lessonId : String} {courseId : Option Int}
  {title startTime endTime teacherUid : PyValue} {activityId : Option Int} {createdVia : String}

theorem upsertLesson_succeeds :
    (upsertLesson p lessonId courseId title startTime endTime teacherUid activityId
      createdVia).Succeeds ↔
      fits courseId = true ∧ storable title = true ∧ storable startTime = true ∧
        storable endTime = true ∧ storable teacherUid = true ∧ fits activityId = true := by
  simp only [upsertLesson, Script.succeeds_commit, bind_isOk, pure_eq_ok, exists_eq', and_true,
    exists_and_right, bindInt_isOk, bindText_isOk, bindInteger_isOk_iff]

theorem mem_writes_upsertLesson {w : Write} (hw : w ∈ (upsertLesson p lessonId courseId title
    startTime endTime teacherUid activityId createdVia).writes) : ∃ row, w = .lesson lessonId row := by
  obtain ⟨_, _, hw⟩ := bind_eq_ok.mp (Script.mem_writes_commit.mp hw)
  obtain ⟨_, _, hw⟩ := bind_eq_ok.mp hw
  obtain ⟨_, _, hw⟩ := bind_eq_ok.mp hw
  obtain ⟨_, _, hw⟩ := bind_eq_ok.mp hw
  obtain ⟨_, _, hw⟩ := bind_eq_ok.mp hw
  obtain ⟨_, _, hw⟩ := bind_eq_ok.mp hw
  cases hw
  exact ⟨_, rfl⟩

end UpsertLesson

/-- The lesson statement of an attendance event; its course id was bound before. -/
theorem upsertLesson_spec {courseId : Option Int} (hcourse : fits courseId = true)
    (lessonId : String) (title : Option String) (startTime endTime : Option Int)
    (createdVia : String) :
    Script.Spec Write.asPatch (upsertLesson p lessonId courseId (.ofText? title) (.ofInt? startTime)
      (.ofInt? endTime) .none none createdVia) (fits startTime && fits endTime) [] := by
  apply Script.Spec.other
  · rw [upsertLesson_succeeds, storable_ofText?, storable_ofInt?, storable_ofInt?, Bool.and_eq_true]
    constructor
    · rintro ⟨_, _, hstart, hend, _⟩
      exact ⟨hstart, hend⟩
    · rintro ⟨hstart, hend⟩
      exact ⟨hcourse, rfl, hstart, hend, rfl, rfl⟩
  · intro w hw
    obtain ⟨row, rfl⟩ := mem_writes_upsertLesson hw
    rfl

end ClassinDashboard

import ClassinDashboard.IngestRecords
import Mathlib.Data.List.TakeWhile

/-!
The handlers as lists of patches. For an admitted event, the record writes of its handler are exactly
the patches of the event, and the handler returns exactly when nothing was cut from them.
-/

namespace ClassinDashboard

open Py Sql

variable (p : Platform)

/-! ### What an event sets -/

/-- A member of the list whose statements are all accepted. -/
def AttendanceEvent.memberFits (event : AttendanceEvent) (member : AttendanceMember) : Bool :=
  if member.isStudent then
    SqlValue.inRange member.uid && dated (orInt event.classStartTime event.actionTime)
      && SqlValue.inRange member.attendanceTime && fits (event.teacher.map (·.uid))
  else !member.isTeacher || SqlValue.inRange member.uid

/-- The fields of one member: only students have a row. -/
def AttendanceEvent.memberFields (event : AttendanceEvent) (member : AttendanceMember) :
    List (Int × List (Column × PyValue)) :=
  if member.isStudent then
    ((attendanceFields event event.teacher member).toOption.map fun fields =>
      (member.uid, fields)).toList
  else []

/-- A student whose totals are all accepted. -/
def EndTotals.uidFits (totals : EndTotals) (courseID : Option Int) (uid : Int) : Bool :=
  SqlValue.inRange uid && (totals.fields courseID uid).all fun field => fitsCell field.2

/-- The fields that an event sets, student by student, up to where its handler raises. -/
def Event.recordFields : Event → List (Int × List (Column × PyValue))
  | .attendance event =>
      if fits event.classStartTime && fits event.classEndTime then
        (event.data.takeWhile event.memberFits).flatMap event.memberFields
      else []
  | .end event =>
      match endTotals p event with
      | .ok totals =>
          ((p.setOrder totals.uids).takeWhile (totals.uidFits event.courseID)).flatMap
            fun uid => [(uid, totals.fields event.courseID uid)]
      | .error _ => []
  | .homeworkSubmit event =>
      match event.data.studentInfo with
      | some ⟨some uid, _⟩ =>
          if SqlValue.inRange event.data.activityId then [(uid, event.fields)] else []
      | _ => []
  | .homeworkScore event =>
      match event.data.studentInfo with
      | some ⟨some uid, _⟩ => [(uid, event.fields)]
      | _ => []
  | .answerSheetScore _ | .rating _ | .generic _ => []

/-- The row key that the handler of an event uses. -/
def Event.lessonKey : Event → String
  | .homeworkSubmit event => ClassinDashboard.lessonKey event.toBaseEvent (some event.data.activityId)
  | .homeworkScore event => ClassinDashboard.lessonKey event.toBaseEvent (some event.data.activityId)
  | event => ClassinDashboard.lessonKey event.base none

/-- The patches that an event applies to the record map. -/
def Event.patches (event : Event) : List RecordPatch :=
  (event.recordFields p).map fun w => ((event.lessonKey, w.1), bound p w.2)

/-- Nothing in the event makes its handler raise. -/
def Event.processable : Event → Bool
  | .attendance event =>
      fits event.classStartTime && fits event.classEndTime && event.data.all event.memberFits
  | .end event =>
      match endTotals p event with
      | .ok totals => totals.uids.all (totals.uidFits event.courseID)
      | .error _ => false
  | .homeworkSubmit event =>
      match event.data.studentInfo with
      | some ⟨some _, _⟩ => SqlValue.inRange event.data.activityId
      | _ => true
  | .homeworkScore _ | .answerSheetScore _ | .rating _ | .generic _ => true

/-- Where the fields of a student come from. -/
inductive SetBy : Event → Int → List (Column × PyValue) → Prop
  | attendance {event : AttendanceEvent} {member : AttendanceMember} {fields}
      (student : member ∈ event.data ∧ member.isStudent = true)
      (times : (fits event.classStartTime && fits event.classEndTime) = true)
      (accepted : event.memberFits member = true)
      (set : attendanceFields event event.teacher member = .ok fields) :
      SetBy (.attendance event) member.uid fields
  | «end» {event : EndEvent} {totals : EndTotals} {uid : Int} (read : endTotals p event = .ok totals)
      (counted : uid ∈ totals.uids) (accepted : totals.uidFits event.courseID uid = true) :
      SetBy (.end event) uid (totals.fields event.courseID uid)
  | homeworkSubmit {event : HomeworkSubmitEvent} {uid : Int}
      (student : (Event.homeworkSubmit event).studentUid = some uid)
      (accepted : SqlValue.inRange event.data.activityId = true) :
      SetBy (.homeworkSubmit event) uid event.fields
  | homeworkScore {event : HomeworkScoreEvent} {uid : Int}
      (student : (Event.homeworkScore event).studentUid = some uid) :
      SetBy (.homeworkScore event) uid event.fields

section RecordFields

variable {p : Platform} {uid : Int} {fields : List (Column × PyValue)}

theorem mem_memberFields {event : AttendanceEvent} {member : AttendanceMember}
    (h : (uid, fields) ∈ event.memberFields member) :
    member.isStudent = true ∧ uid = member.uid ∧
      attendanceFields event event.teacher member = .ok fields := by
  unfold AttendanceEvent.memberFields at h
  split at h
  · rename_i hstudent
    cases hfields : attendanceFields event event.teacher member with
    | error e =>
        rw [hfields] at h
        cases h
    | ok set =>
        rw [hfields] at h
        cases List.mem_singleton.mp h
        exact ⟨hstudent, rfl, rfl⟩
  · cases h

theorem recordFields_homeworkSubmit (event : HomeworkSubmitEvent) :
    (Event.homeworkSubmit event).recordFields p =
      if SqlValue.inRange event.data.activityId then
        (Event.homeworkSubmit event).studentUid.toList.map fun uid => (uid, event.fields)
      else [] := by
  simp only [Event.recordFields, Event.studentUid]
  rcases event.data.studentInfo with _ | ⟨_ | uid, name⟩
  · exact (ite_self _).symm
  · exact (ite_self _).symm
  · rfl

theorem recordFields_homeworkScore (event : HomeworkScoreEvent) :
    (Event.homeworkScore event).recordFields p =
      (Event.homeworkScore event).studentUid.toList.map fun uid => (uid, event.fields) := by
  simp only [Event.recordFields, Event.studentUid]
  rcases event.data.studentInfo with _ | ⟨_ | uid, name⟩ <;> rfl

end RecordFields

theorem setBy_of_mem {event : Event} {uid : Int} {fields : List (Column × PyValue)}
    (h : (uid, fields) ∈ event.recordFields p) : SetBy p event uid fields := by
  cases event with
  | attendance event =>
      simp only [Event.recordFields] at h
      split at h
      · rename_i htimes
        obtain ⟨member, hmember, h⟩ := List.mem_flatMap.mp h
        obtain ⟨hstudent, rfl, hfields⟩ := mem_memberFields h
        have hdata := (List.takeWhile_prefix _).subset hmember
        exact .attendance ⟨hdata, hstudent⟩ htimes (List.mem_takeWhile_imp hmember) hfields
      · cases h
  | «end» event =>
      simp only [Event.recordFields] at h
      cases htotals : endTotals p event with
      | error e =>
          rw [htotals] at h
          cases h
      | ok totals =>
          rw [htotals] at h
          obtain ⟨student, hstudent, h⟩ := List.mem_flatMap.mp h
          have hcounted := (p.mem_setOrder _ _).mp ((List.takeWhile_prefix _).subset hstudent)
          cases List.mem_singleton.mp h
          exact .end htotals hcounted (List.mem_takeWhile_imp hstudent)
  | homeworkSubmit event =>
      rw [recordFields_homeworkSubmit] at h
      obtain ⟨hactivity, h⟩ := List.mem_ite_nil_right.mp h
      obtain ⟨student, hstudent, heq⟩ := List.mem_map.mp h
      cases heq
      exact .homeworkSubmit (Option.mem_toList.mp hstudent) hactivity
  | homeworkScore event =>
      rw [recordFields_homeworkScore] at h
      obtain ⟨student, hstudent, heq⟩ := List.mem_map.mp h
      cases heq
      exact .homeworkScore (Option.mem_toList.mp hstudent)
  | _ => cases h

/-! ### Typed fields -/

theorem typed_endFields (totals : EndTotals) (courseID : Option Int) (uid : Int) :
    Typed (totals.fields courseID uid) := by
  intro field hfield
  simp only [EndTotals.fields, List.mem_cons, List.mem_append, List.mem_map, List.cons_append,
    List.append_assoc] at hfield
  rcases hfield with rfl | ⟨_, _, rfl⟩ | ⟨_, _, rfl⟩ | ⟨_, _, rfl⟩ | ⟨_, _, rfl⟩
  · exact typed_ofInt? courseID
  all_goals rfl

theorem typed_submitFields (event : HomeworkSubmitEvent) : Typed event.fields := by
  intro field hfield
  fin_cases hfield <;> first | exact typed_ofInt? _ | rfl

theorem typed_scoreFields (event : HomeworkScoreEvent) : Typed event.fields := by
  intro field hfield
  fin_cases hfield
  · exact typed_ofInt? _
  · exact typed_ofFloat? _

/-! ### Attendance -/

section Attendance

variable (event : AttendanceEvent) (member : AttendanceMember)

theorem fitsCell_attendanceFields {fields : List (Column × PyValue)}
    (h : attendanceFields event event.teacher member = .ok fields)
    (hcourse : fits event.courseID = true) (hstart : fits event.classStartTime = true)
    (hend : fits event.classEndTime = true) :
    fields.all (fun field => fitsCell field.2) =
      (SqlValue.inRange member.attendanceTime && fits (event.teacher.map (·.uid))) := by
  obtain ⟨lessonDate, hdate, h⟩ := bind_eq_ok.mp h
  obtain ⟨label, hlabel, h⟩ := bind_eq_ok.mp h
  cases h
  simp [fitsCell_ofInt?, hcourse, hstart, hend]
  rfl

/-- The patch of one student, or nothing for anyone else. -/
def memberPatches : List RecordPatch :=
  (event.memberFields member).map fun w => ((lessonKey event.toBaseEvent none, w.1), bound p w.2)

theorem ingestMember_spec (hcourse : fits event.courseID = true)
    (hstart : fits event.classStartTime = true) (hend : fits event.classEndTime = true) :
    Script.Spec Write.asPatch (ingestMember p event event.teacher member) (event.memberFits member)
      (if event.memberFits member then memberPatches p event member else []) := by
  unfold ingestMember AttendanceEvent.memberFits memberPatches AttendanceEvent.memberFields
  cases hstudent : member.isStudent with
  | true =>
      have hfields := attendanceFields_isOk event event.teacher member hstart hend
      have hensure := ensureStudent_spec p member.uid member.name
      simp only [if_true]
      cases hattendance : attendanceFields event event.teacher member with
      | error e =>
          have hdated : dated (orInt event.classStartTime event.actionTime) = false := by
            rw [Bool.eq_false_iff]
            intro hd
            obtain ⟨fields, hok⟩ := hfields.mpr hd
            rw [hattendance] at hok
            cases hok
          rw [Script.lift_error_bind, hdated]
          simpa using hensure.seq (k := fun _ => Script.lift (.error e))
            fun _ => Script.Spec.error e
      | ok fields =>
          have hdated := hfields.mp ⟨fields, hattendance⟩
          have hcells := fitsCell_attendanceFields event member hattendance hcourse hstart hend
          have hupsert := upsertLessonRecord_spec p (typed_attendanceFields hattendance)
            (lessonKey event.toBaseEvent none) member.uid
          rw [Script.lift_ok_bind, hdated]
          rw [hcells] at hupsert
          have hseq := hensure.seq (k := fun _ => upsertLessonRecord p
            (lessonKey event.toBaseEvent none) member.uid fields) fun _ => hupsert
          cases huid : SqlValue.inRange member.uid with
          | false => simpa [huid] using hseq
          | true => simpa [huid, Except.toOption] using hseq
  | false =>
      cases hteacher : member.isTeacher with
      | true => simpa using upsertTeacher_spec p member.uid member.name
      | false => simpa using Script.Spec.pure

theorem ingestCourse_spec (hcourse : fits event.courseID = true) :
    Script.Spec Write.asPatch (ingestCourse p event) true [] := by
  unfold ingestCourse
  cases hnonzero : nonzero event.courseID with
  | none => exact Script.Spec.pure
  | some courseID =>
      have hid := (Option.filter_eq_some_iff.mp hnonzero).1
      rw [hid, fits, Option.all_some] at hcourse
      have hspec := upsertCourse_spec p courseID event.courseName "webhook"
      rwa [hcourse] at hspec

theorem ingestAttendance_spec (hcourse : fits event.courseID = true) :
    Script.Spec Write.asPatch (ingestAttendance p event) ((Event.attendance event).processable p)
      ((Event.attendance event).patches p) := by
  have hlesson := upsertLesson_spec p hcourse (lessonKey event.toBaseEvent none) event.className
    event.classStartTime event.classEndTime "webhook"
  have hpatches : (Event.attendance event).patches p =
      if fits event.classStartTime && fits event.classEndTime then
        (event.data.takeWhile event.memberFits).flatMap (memberPatches p event)
      else [] := by
    simp only [Event.patches, Event.recordFields]
    split
    · exact List.map_flatMap
    · rfl
  have hloop (hfits : (fits event.classStartTime && fits event.classEndTime) = true) :=
    Script.Spec.each_takeWhile (l := event.data) fun member _ =>
      ingestMember_spec p event member hcourse (Bool.and_eq_true_iff.mp hfits).1
        (Bool.and_eq_true_iff.mp hfits).2
  rw [hpatches]
  exact (ingestCourse_spec p event hcourse).seq fun _ => hlesson.seq hloop

end Attendance

/-! ### End and homework -/

theorem ingestEnd_spec (event : EndEvent) :
    Script.Spec Write.asPatch (ingestEnd p event) ((Event.end event).processable p)
      ((Event.end event).patches p) := by
  unfold ingestEnd
  simp only [Event.processable, Event.patches, Event.recordFields]
  cases htotals : endTotals p event with
  | error e =>
      rw [Script.lift_error_bind]
      exact Script.Spec.error e
  | ok totals =>
      rw [Script.lift_ok_bind]
      have hloop := Script.Spec.each_takeWhile (l := p.setOrder totals.uids) fun uid _ =>
        upsertLessonRecord_spec p (typed_endFields totals event.courseID uid)
          (lessonKey event.toBaseEvent none) uid
      have hall : (p.setOrder totals.uids).all (totals.uidFits event.courseID) =
          totals.uids.all (totals.uidFits event.courseID) := by
        rw [Bool.eq_iff_iff]
        simp only [List.all_eq_true, p.mem_setOrder]
      simp only [List.map_flatMap, List.map_cons, List.map_nil]
      rw [← hall]
      exact hloop

theorem fitsCell_submitFields {event : HomeworkSubmitEvent} (hcourse : fits event.courseID = true) :
    event.fields.all (fun field => fitsCell field.2) = SqlValue.inRange event.data.activityId := by
  have hlate : fitsCell (.int (if event.data.isSubmitLate = some true then 1 else 0)) = true := by
    split <;> rfl
  have hone : fitsCell (.int 1) = true := rfl
  simp only [HomeworkSubmitEvent.fields, List.all_cons, List.all_nil, fitsCell_ofInt?, hcourse,
    hlate, hone, Bool.true_and, Bool.and_true]
  rfl

theorem fitsCell_scoreFields {event : HomeworkScoreEvent} (hcourse : fits event.courseID = true) :
    event.fields.all (fun field => fitsCell field.2) = true := by
  simp [HomeworkScoreEvent.fields, fitsCell_ofInt?, hcourse]

theorem ingestHomeworkSubmit_spec (event : HomeworkSubmitEvent)
    (h : (Event.homeworkSubmit event).Admitted) :
    Script.Spec Write.asPatch (ingestHomeworkSubmit p event)
      ((Event.homeworkSubmit event).processable p) ((Event.homeworkSubmit event).patches p) := by
  have hcells : event.fields.all _ = _ := fitsCell_submitFields h.course
  have hstudent := h.student
  simp only [Event.studentUid] at hstudent
  unfold ingestHomeworkSubmit
  simp only [Event.processable, Event.patches, Event.recordFields]
  rcases hinfo : event.data.studentInfo with _ | ⟨_ | uid, name⟩
  · exact Script.Spec.pure
  · exact Script.Spec.pure
  · rw [hinfo] at hstudent
    have huid : SqlValue.inRange uid = true := hstudent
    have hupsert := upsertLessonRecord_spec p (typed_submitFields event)
      (lessonKey event.toBaseEvent (some event.data.activityId)) uid
    rw [hcells, huid, Bool.true_and] at hupsert
    have hseq := (ensureStudent_spec p uid name).seq (k := fun _ => patchLessonRecord p
      (lessonKey event.toBaseEvent (some event.data.activityId)) uid event.fields) fun _ => hupsert
    rw [huid, Bool.true_and] at hseq
    cases hactivity : SqlValue.inRange event.data.activityId with
    | false =>
        rw [hactivity] at hseq
        exact hseq
    | true =>
        rw [hactivity] at hseq
        exact hseq

theorem ingestHomeworkScore_spec (event : HomeworkScoreEvent)
    (h : (Event.homeworkScore event).Admitted) :
    Script.Spec Write.asPatch (ingestHomeworkScore p event)
      ((Event.homeworkScore event).processable p) ((Event.homeworkScore event).patches p) := by
  have hcells : event.fields.all _ = _ := fitsCell_scoreFields h.course
  have hstudent := h.student
  simp only [Event.studentUid] at hstudent
  unfold ingestHomeworkScore
  simp only [Event.processable, Event.patches, Event.recordFields]
  rcases hinfo : event.data.studentInfo with _ | ⟨_ | uid, name⟩
  · exact Script.Spec.pure
  · exact Script.Spec.pure
  · rw [hinfo] at hstudent
    have huid : SqlValue.inRange uid = true := hstudent
    have hupsert := upsertLessonRecord_spec p (typed_scoreFields event)
      (lessonKey event.toBaseEvent (some event.data.activityId)) uid
    rw [hcells, huid] at hupsert
    exact hupsert

theorem ingestRating_spec (event : RatingEvent) (h : (Event.rating event).Admitted) :
    Script.Spec Write.asPatch (handle p (.rating event)) true [] := by
  simp only [handle]
  cases hnonzero : nonzero event.tuid with
  | none => exact Script.Spec.pure
  | some tuid =>
      have hteacher : fits event.tuid = true := h.teacher
      rw [(Option.filter_eq_some_iff.mp hnonzero).1, fits, Option.all_some] at hteacher
      have hspec := upsertTeacher_spec p tuid none
      rwa [hteacher] at hspec

/-- The handler of an admitted event returns exactly when the event is processable, and its record
writes are the patches of the event. -/
theorem handle_spec {event : Event} (h : event.Admitted) :
    Script.Spec Write.asPatch (handle p event) (event.processable p) (event.patches p) := by
  cases event with
  | attendance event => exact ingestAttendance_spec p event h.course
  | «end» event => exact ingestEnd_spec p event
  | homeworkSubmit event => exact ingestHomeworkSubmit_spec p event h
  | homeworkScore event => exact ingestHomeworkScore_spec p event h
  | rating event => exact ingestRating_spec p event h
  | answerSheetScore event => exact Script.Spec.pure
  | generic event => exact Script.Spec.pure

/-- The fields of a student are typed, and those of an admitted event are all accepted. -/
theorem SetBy.binds {p : Platform} {event : Event} {uid : Int} {fields : List (Column × PyValue)}
    (h : SetBy p event uid fields) (hadmitted : event.Admitted) :
    Typed fields ∧ ∃ cells, bindFields p fields = .ok cells := by
  have htyped : Typed fields := by
    cases h with
    | attendance _ _ _ set => exact typed_attendanceFields set
    | «end» _ _ _ => exact typed_endFields _ _ _
    | homeworkSubmit _ _ => exact typed_submitFields _
    | homeworkScore _ => exact typed_scoreFields _
  refine ⟨htyped, (bindFields_isOk p htyped).mpr ?_⟩
  rw [← List.all_eq_true]
  cases h with
  | @attendance event member fields student times accepted set =>
      obtain ⟨hstart, hend⟩ := Bool.and_eq_true_iff.mp times
      rw [fitsCell_attendanceFields event member set hadmitted.course hstart hend]
      rw [AttendanceEvent.memberFits, if_pos student.2] at accepted
      simp only [Bool.and_eq_true] at accepted ⊢
      exact ⟨accepted.1.2, accepted.2⟩
  | «end» _ _ accepted => exact (Bool.and_eq_true_iff.mp accepted).2
  | homeworkSubmit _ accepted => exact (fitsCell_submitFields hadmitted.course).trans accepted
  | homeworkScore _ => exact fitsCell_scoreFields hadmitted.course

/-! ### The record table after an ingest -/

theorem records_ingest {store : Store} {raw : PyValue} {event : Event} {row : EventRow}
    (h : readEvent p raw = .ok (event, row)) (hfresh : store.events.isDuplicate row.msgId = false) :
    (ingest p store raw).2.records = (event.patches p).foldl applyPatch store.records := by
  rw [ingest_fresh p h hfresh, records_exec, (handle_spec p (Event.admitted h)).writes_eq]
  rfl

theorem ingest_returns {store : Store} {raw : PyValue} {event : Event} {row : EventRow}
    (h : readEvent p raw = .ok (event, row)) (hfresh : store.events.isDuplicate row.msgId = false) :
    (∃ cmd, (ingest p store raw).1 = .ok cmd) ↔ event.processable p = true := by
  rw [ingest_fresh p h hfresh, ← (handle_spec p (Event.admitted h)).returns]
  simp only [map_eq_ok, Script.Succeeds]
  constructor
  · rintro ⟨_, a, ha, _⟩
    exact ⟨a, ha⟩
  · rintro ⟨a, ha⟩
    exact ⟨event.cmd, a, ha, rfl⟩

end ClassinDashboard

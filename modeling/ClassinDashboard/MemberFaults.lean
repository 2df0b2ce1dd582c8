import ClassinDashboard.MemberOrder

/-!
Attendance members that are not valid. The payload is validated as a whole before anything is stored,
so one bad element of the list loses the message; and the members are stored one after the other, so a
member whose values no column takes loses those behind it.
-/

namespace ClassinDashboard

open Py Sql

/-- What an Attendance message says beside its list of members. -/
structure Envelope where
  front : Fields
  back : Fields
  noData : ∀ item ∈ front, item.1 ≠ .text "Data"
  attendance : ((PyValue.get (front ++ back) "Cmd").orElse (PyValue.get (front ++ back) "cmd")).orElse
    (.str (.text "")) = .str (.text "Attendance")

namespace Envelope

variable (env : Envelope)

def items (members : List PyValue) : Fields :=
  env.front ++ (.text "Data", .list members) :: env.back

/-- The message with a list of members. -/
def message (members : List PyValue) : PyValue := .dict (env.items members)

theorem lookup_items (members : List PyValue) {name : String} (hname : name ≠ "Data") :
    (env.items members).lookup (.text name) = (env.front ++ env.back).lookup (.text name) := by
  have hne : (PyStr.text name == PyStr.text "Data") = false :=
    beq_eq_false_iff_ne.mpr fun heq => hname (PyStr.text.inj heq)
  rw [items, List.lookup_append, List.lookup_append, List.lookup_cons, hne]

theorem lookup_members (members : List PyValue) :
    (env.items members).lookup (.text "Data") = some (.list members) :=
  lookup_data env.noData

/-- Every Attendance message with a list of members is an envelope with that list. -/
theorem exists_envelope {items : Fields} {members : List PyValue}
    (hdata : items.lookup (.text "Data") = some (.list members))
    (hcmd : ((PyValue.get items "Cmd").orElse (PyValue.get items "cmd")).orElse (.str (.text "")) =
      .str (.text "Attendance")) : ∃ env : Envelope, env.message members = .dict items := by
  obtain ⟨front, back, rfl, hfront⟩ := List.lookup_eq_some_iff.mp hdata
  have hnoData : ∀ item ∈ front, item.1 ≠ .text "Data" := by
    intro item hitem heq
    have := hfront item hitem
    simp [heq] at this
  have hget (name : String) (hname : name ≠ "Data") :
      PyValue.get (front ++ back) name = PyValue.get (front ++ (.text "Data", .list members) :: back) name := by
    have hne : (PyStr.text name == PyStr.text "Data") = false :=
      beq_eq_false_iff_ne.mpr fun heq => hname (PyStr.text.inj heq)
    rw [PyValue.get, PyValue.get, List.lookup_append, List.lookup_append, List.lookup_cons, hne]
  refine ⟨⟨front, back, hnoData, ?_⟩, rfl⟩
  rw [hget _ (by decide), hget _ (by decide)]
  exact hcmd

end Envelope

section Reading

variable (p : Platform) (env : Envelope)

/-- The message without its members, when it is valid. -/
def Envelope.base? : Option AttendanceEvent := attendanceEvent p (env.items [])

variable {p env} {members : List PyValue}

/-- The members matter to the validation of a message one by one. -/
theorem attendanceEvent_items : attendanceEvent p (env.items members) =
    (env.base? p).bind fun base =>
      (members.mapM (attendanceMember p)).map fun data => { base with data } := by
  have hothers (name : String) (hname : name ≠ "Data") :
      (env.items members).lookup (.text name) = (env.items []).lookup (.text name) := by
    rw [env.lookup_items members hname, env.lookup_items [] hname]
  have hread (members : List PyValue) :
      withDefault (listOf (attendanceMember p)) [] (env.items members) "Data" =
        members.mapM (attendanceMember p) := by
    rw [withDefault, env.lookup_members]
    rfl
  unfold Envelope.base? attendanceEvent
  simp (disch := decide) only [baseEvent_congr hothers, optional_congr hothers, hread]
  cases baseEvent p (env.items []) with
  | none => rfl
  | some base =>
      cases optional p.str (env.items []) "ClassName" with
      | none => rfl
      | some className =>
          cases optional p.int (env.items []) "ClassStartTime" with
          | none => rfl
          | some start =>
              cases optional p.int (env.items []) "ClassEndTime" with
              | none => rfl
              | some stop =>
                  cases optional p.int (env.items []) "ActivityID" with
                  | none => rfl
                  | some activity =>
                      cases optional p.int (env.items []) "AttendanceStudentNum" with
                      | none => rfl
                      | some present =>
                          cases optional p.int (env.items []) "ClassStudentNum" with
                          | none => rfl
                          | some expected => cases members.mapM (attendanceMember p) <;> rfl

theorem parseEvent_message {event : Event} : parseEvent p (env.message members) = .ok event ↔
    ∃ base data, env.base? p = some base ∧ members.mapM (attendanceMember p) = some data ∧
      event = .attendance { base with data } := by
  have hcmd : ((PyValue.get (env.items members) "Cmd").orElse (PyValue.get (env.items members)
      "cmd")).orElse (.str (.text "")) = .str (.text "Attendance") := by
    rw [PyValue.get, PyValue.get, env.lookup_items _ (by decide), env.lookup_items _ (by decide)]
    exact env.attendance
  rw [Envelope.message, parseEvent_dict, hcmd, known, attendanceEvent_items]
  constructor
  · rintro ⟨_, h⟩
    obtain ⟨event', hread, rfl⟩ := Option.map_eq_some_iff.mp h
    obtain ⟨base, hbase, hread⟩ := Option.bind_eq_some_iff.mp hread
    obtain ⟨data, hdata, rfl⟩ := Option.map_eq_some_iff.mp hread
    exact ⟨base, data, hbase, hdata, rfl⟩
  · rintro ⟨base, data, hbase, hdata, rfl⟩
    refine ⟨rfl, ?_⟩
    rw [hbase, hdata]
    rfl

theorem messageId_message : messageId p (env.message members) = messageId p (env.message []) := by
  rw [Envelope.message, Envelope.message, messageId, messageId, PyValue.get, PyValue.get,
    env.lookup_items _ (by decide), env.lookup_items _ (by decide)]

theorem encodable_message : (env.message members).encodable =
    ((env.message []).encodable && members.all PyValue.encodable) := by
  rw [Envelope.message, Envelope.message, PyValue.encodable, PyValue.encodable, Envelope.items,
    Envelope.items]
  induction env.front with
  | nil =>
      rw [List.nil_append, List.nil_append, PyValue.encodableItems, PyValue.encodableItems,
        PyValue.encodable, PyValue.encodable, encodableList_eq_all, encodableList_eq_all]
      simp [Bool.and_comm]
  | cons item front ih =>
      obtain ⟨key, value⟩ := item
      cases key with
      | text s =>
          rw [List.cons_append, List.cons_append, PyValue.encodableItems, PyValue.encodableItems, ih,
            Bool.and_assoc]
      | lone points h => rfl

/-- The row of a message binds when its ids do and its text is text. -/
theorem eventRow_isOk {cmd : String} {payload : PyValue} {msgId : Option PyStr}
    {courseId classId studentUid teacherUid : Option Int} :
    (∃ row, eventRow cmd payload msgId courseId classId studentUid teacherUid = .ok row) ↔
      (∃ id, msgId.mapM PyStr.encode = .ok id) ∧ fits courseId = true ∧ fits classId = true ∧
        fits studentUid = true ∧ fits teacherUid = true ∧ payload.encodable = true := by
  unfold eventRow
  simp only [bind_isOk]
  cases payload.encodable <;>
    simp [bindInt_isOk, pure, Except.pure, throw, throwThe, MonadExceptOf.throw]

end Reading

/-! ### What a student's element leaves -/

section Marks

variable {p : Platform} {event : AttendanceEvent} {teacher : Option AttendanceMember}

/-- What the record of a student says of the member itself. -/
def AttendanceEvent.mark (event : AttendanceEvent) (member : AttendanceMember) : Int × Option String :=
  (member.attendanceTime, (attendanceLabel member.attendanceTime member.firstInTime
    event.classStartTime event.classEndTime).toOption)

/-- The cell that the record statement of a member sets in a column. -/
def memberCell (p : Platform) (event : AttendanceEvent) (teacher : Option AttendanceMember)
    (member : AttendanceMember) (c : Column) : Option SqlValue :=
  (attendanceFields event teacher member).toOption.bind fun fields =>
    (fields.lookup c).bind fun value => (c.type.bind p value).toOption

/-- The cell depends on the event and the teacher only in the fields that an attendance reads. -/
theorem attendanceFields_eq (event : AttendanceEvent) (teacher : Option AttendanceMember)
    (member : AttendanceMember) : (attendanceFields event teacher member).toOption =
      (iso (orInt event.classStartTime event.actionTime)).toOption.bind fun lessonDate =>
        (event.mark member).2.map fun label =>
          [(.courseId, .ofInt? event.courseID), (.courseName, .ofText? event.courseName),
            (.className, .ofText? event.className), (.lessonDate, .ofText? lessonDate),
            (.classStart, .ofInt? event.classStartTime), (.classEnd, .ofInt? event.classEndTime),
            (.attendance, .ofText? (some label)), (.attendanceSeconds, .int (event.mark member).1),
            (.teacherUid, .ofInt? (teacher.map (·.uid))),
            (.teacherName, .ofText? (teacher.bind (·.name)))] := by
  unfold attendanceFields AttendanceEvent.mark
  cases iso (orInt event.classStartTime event.actionTime) with
  | error e => rfl
  | ok lessonDate =>
      cases attendanceLabel member.attendanceTime member.firstInTime event.classStartTime
        event.classEndTime <;> rfl

theorem memberCell_of_mark {member other : AttendanceMember} (h : event.mark member = event.mark other)
    (c : Column) : memberCell p event teacher member c = memberCell p event teacher other c := by
  rw [memberCell, memberCell, attendanceFields_eq, attendanceFields_eq, h]

theorem memberCell_teacher {teacher' : Option AttendanceMember} {member : AttendanceMember} {c : Column}
    (hc : c ∉ teacherColumns) :
    memberCell p event teacher member c = memberCell p event teacher' member c := by
  rw [memberCell, memberCell, attendanceFields_eq, attendanceFields_eq]
  cases (iso (orInt event.classStartTime event.actionTime)).toOption with
  | none => rfl
  | some lessonDate =>
      cases (event.mark member).2 with
      | none => rfl
      | some label => cases c <;> first | rfl | exact absurd (by decide) hc

/-- A student whose statements are all accepted. -/
structure Accepted (event : AttendanceEvent) (member : AttendanceMember) : Prop where
  course : fits event.courseID = true
  times : fits event.classStartTime = true ∧ fits event.classEndTime = true
  student : member.isStudent = true
  fits : event.memberFits member = true

section Accepted

variable {member : AttendanceMember} (h : Accepted event member)

include h

theorem Accepted.exists_fields : ∃ fields cells, attendanceFields event event.teacher member = .ok fields ∧
    bindFields p fields = .ok cells ∧ bound p fields = cells := by
  have hfits := h.fits
  rw [AttendanceEvent.memberFits, if_pos h.student] at hfits
  simp only [Bool.and_eq_true] at hfits
  obtain ⟨fields, hfields⟩ :=
    (attendanceFields_isOk event event.teacher member h.times.1 h.times.2).mpr hfits.1.1.2
  have hall := fitsCell_attendanceFields event member hfields h.course h.times.1 h.times.2
  rw [hfits.1.2, hfits.2] at hall
  obtain ⟨cells, hcells⟩ := (bindFields_isOk p (typed_attendanceFields hfields)).mpr
    (List.all_eq_true.mp hall)
  refine ⟨fields, cells, hfields, hcells, ?_⟩
  rw [bound, hcells]
  rfl

/-- The one patch of an accepted student. -/
theorem Accepted.memberPatches_eq : ∃ cells, memberPatches p event member =
      [((lessonKey event.toBaseEvent none, member.uid), cells)] ∧
    ∀ c, cells.lookup c = memberCell p event event.teacher member c := by
  obtain ⟨fields, cells, hfields, hcells, hbound⟩ := h.exists_fields (p := p)
  refine ⟨cells, ?_, fun c => ?_⟩
  · rw [memberPatches, AttendanceEvent.memberFields, if_pos h.student, hfields]
    show [((lessonKey event.toBaseEvent none, member.uid), bound p fields)] = _
    rw [hbound]
  · rw [lookup_bindFields p hcells, memberCell, hfields]
    rfl

theorem Accepted.exists_label : ∃ lessonDate label, (event.mark member).2 = some label ∧
    attendanceFields event event.teacher member =
      .ok [(.courseId, .ofInt? event.courseID), (.courseName, .ofText? event.courseName),
        (.className, .ofText? event.className), (.lessonDate, .ofText? lessonDate),
        (.classStart, .ofInt? event.classStartTime), (.classEnd, .ofInt? event.classEndTime),
        (.attendance, .ofText? (some label)), (.attendanceSeconds, .int member.attendanceTime),
        (.teacherUid, .ofInt? (event.teacher.map (·.uid))),
        (.teacherName, .ofText? (event.teacher.bind (·.name)))] := by
  obtain ⟨fields, _, hfields, _⟩ := h.exists_fields (p := .plain)
  obtain ⟨lessonDate, hdate, hset⟩ := bind_eq_ok.mp hfields
  obtain ⟨label, hlabel, hset⟩ := bind_eq_ok.mp hset
  cases hset
  refine ⟨lessonDate, label, ?_, hfields⟩
  rw [AttendanceEvent.mark, hlabel]
  rfl

/-- What the member itself puts in the record tells its mark. -/
theorem Accepted.memberCell_mark :
    memberCell p event event.teacher member .attendanceSeconds = some (.int member.attendanceTime) ∧
      ∃ label, (event.mark member).2 = some label ∧
        memberCell p event event.teacher member .attendance = some (.text label) := by
  obtain ⟨lessonDate, label, hlabel, hfields⟩ := h.exists_label
  have hfits := h.fits
  rw [AttendanceEvent.memberFits, if_pos h.student] at hfits
  simp only [Bool.and_eq_true] at hfits
  have hseconds := bindInteger_of_fits p (n := some member.attendanceTime) hfits.1.2
  constructor
  · rw [memberCell, hfields]
    exact congrArg Except.toOption hseconds
  · refine ⟨label, hlabel, ?_⟩
    rw [memberCell, hfields]
    rfl

theorem Accepted.memberCell_teacher :
    memberCell p event event.teacher member .teacherUid =
        some (intCell (event.teacher.map (·.uid))) ∧
      memberCell p event event.teacher member .teacherName =
        some (textCell (event.teacher.bind (·.name))) := by
  obtain ⟨lessonDate, label, hlabel, hfields⟩ := h.exists_label
  have hfits := h.fits
  rw [AttendanceEvent.memberFits, if_pos h.student] at hfits
  simp only [Bool.and_eq_true] at hfits
  have huid := bindInteger_of_fits p (n := event.teacher.map (·.uid)) hfits.2
  constructor
  · rw [memberCell, hfields]
    exact congrArg Except.toOption huid
  · rw [memberCell, hfields]
    cases event.teacher.bind (·.name) <;> rfl

end Accepted

end Marks

/-! ### The record of a key after a run of patches -/

theorem cellAt_foldl_of_ne {changes : List RecordPatch} {key : RecordKey}
    (h : ∀ change ∈ changes, change.1 ≠ key) (records : Records) (c : Column) :
    cellAt (changes.foldl applyPatch records) key c = cellAt records key c := by
  induction changes generalizing records with
  | nil => rfl
  | cons change changes ih =>
      rw [List.foldl_cons, ih fun later hlater => h later (List.mem_cons_of_mem _ hlater),
        cellAt_applyPatch, if_neg (h change List.mem_cons_self).symm]

/-- Patches of a key that agree on a column set it once and for all. -/
theorem cellAt_foldl_agree {changes : List RecordPatch} {key : RecordKey} {c : Column}
    {cell : Option SqlValue} (hall : ∀ change ∈ changes, change.1 = key → change.2.lookup c = cell)
    (hsome : ∃ change ∈ changes, change.1 = key) (records : Records) :
    cellAt (changes.foldl applyPatch records) key c = cell.getD (cellAt records key c) := by
  induction changes using List.reverseRecOn with
  | nil => simp at hsome
  | append_singleton changes last ih =>
      rw [List.foldl_concat, cellAt_applyPatch]
      have hbefore : (∃ change ∈ changes, change.1 = key) →
          cellAt (changes.foldl applyPatch records) key c = cell.getD (cellAt records key c) :=
        ih fun change hchange => hall change (List.mem_append_left _ hchange)
      by_cases hlast : key = last.1
      · rw [if_pos hlast, hall last (List.mem_append_right _ List.mem_cons_self) hlast.symm]
        by_cases hearlier : ∃ change ∈ changes, change.1 = key
        · rw [hbefore hearlier]
          cases cell <;> rfl
        · rw [cellAt_foldl_of_ne fun change hchange heq => hearlier ⟨change, hchange, heq⟩]
      · rw [if_neg hlast]
        obtain ⟨change, hchange, hkey⟩ := hsome
        rcases List.mem_append.mp hchange with hchange | hchange
        · exact hbefore ⟨change, hchange, hkey⟩
        · rw [List.mem_singleton.mp hchange] at hkey
          exact absurd hkey.symm hlast

/-! ### The records that a message leaves -/

/-- The members up to the first whose values no column takes. -/
def AttendanceEvent.reached (event : AttendanceEvent) : List AttendanceMember :=
  if fits event.classStartTime && fits event.classEndTime then event.data.takeWhile event.memberFits
  else []

section Records

variable {p : Platform} {event : AttendanceEvent} {store : Store} {raw : PyValue} {row : EventRow}

theorem accepted_of_reached (hcourse : fits event.courseID = true) {member : AttendanceMember}
    (hreached : member ∈ event.reached) (hstudent : member.isStudent = true) :
    member ∈ event.data ∧ Accepted event member := by
  unfold AttendanceEvent.reached at hreached
  obtain ⟨htimes, hmember⟩ := List.mem_ite_nil_right.mp hreached
  exact ⟨(List.takeWhile_prefix _).subset hmember, hcourse, Bool.and_eq_true_iff.mp htimes, hstudent,
    List.mem_takeWhile_imp hmember⟩

/-- The patches of an attendance are those of the students that are reached. -/
theorem mem_attendancePatches {change : RecordPatch} :
    change ∈ (Event.attendance event).patches p ↔
      ∃ member ∈ event.reached, member.isStudent = true ∧ change ∈ memberPatches p event member := by
  have hpatches : (Event.attendance event).patches p = event.reached.flatMap (memberPatches p event) := by
    simp only [Event.patches, Event.recordFields, AttendanceEvent.reached]
    split
    · exact List.map_flatMap
    · rfl
  rw [hpatches, List.mem_flatMap]
  refine exists_congr fun member => and_congr_right fun _ => (and_iff_right_of_imp fun hchange => ?_).symm
  obtain ⟨⟨uid, fields⟩, hfields, _⟩ := List.mem_map.mp hchange
  exact (mem_memberFields hfields).1

/-- The record of a uid, when the students of that uid who are reached carry one mark. -/
theorem cellAt_ingest (hread : readEvent p raw = .ok (.attendance event, row))
    (hfresh : store.events.isDuplicate row.msgId = false) {student : AttendanceMember}
    (hstudent : student.isStudent = true) (hreached : student ∈ event.reached)
    (hagree : ∀ other ∈ event.reached, other.isStudent = true → other.uid = student.uid →
      event.mark other = event.mark student) (c : Column) :
    cellAt (ingest p store raw).2.records (lessonKey event.toBaseEvent none, student.uid) c =
      (memberCell p event event.teacher student c).getD
        (cellAt store.records (lessonKey event.toBaseEvent none, student.uid) c) := by
  have hcourse : fits event.courseID = true := (Event.admitted hread).course
  rw [records_ingest p hread hfresh]
  apply cellAt_foldl_agree
  · intro change hchange hkey
    obtain ⟨other, hother, hotherStudent, hmem⟩ := mem_attendancePatches.mp hchange
    obtain ⟨cells, hcells, hlookup⟩ :=
      (accepted_of_reached hcourse hother hotherStudent).2.memberPatches_eq (p := p)
    rw [hcells, List.mem_singleton] at hmem
    subst hmem
    rw [hlookup c, memberCell_of_mark (hagree other hother hotherStudent (congrArg Prod.snd hkey))]
  · obtain ⟨cells, hcells, _⟩ := (accepted_of_reached hcourse hreached hstudent).2.memberPatches_eq (p := p)
    exact ⟨_, mem_attendancePatches.mpr ⟨student, hreached, hstudent, by
      rw [hcells]
      exact List.mem_singleton_self _⟩, rfl⟩

/-- No student of the uid is reached. -/
theorem cellAt_ingest_of_unreached (hread : readEvent p raw = .ok (.attendance event, row))
    (hfresh : store.events.isDuplicate row.msgId = false) {uid : Int}
    (h : ∀ other ∈ event.reached, other.isStudent = true → other.uid ≠ uid) (c : Column) :
    cellAt (ingest p store raw).2.records (lessonKey event.toBaseEvent none, uid) c =
      cellAt store.records (lessonKey event.toBaseEvent none, uid) c := by
  have hcourse : fits event.courseID = true := (Event.admitted hread).course
  rw [records_ingest p hread hfresh]
  apply cellAt_foldl_of_ne
  intro change hchange hkey
  obtain ⟨other, hother, hstudent, hmem⟩ := mem_attendancePatches.mp hchange
  obtain ⟨cells, hcells, _⟩ := (accepted_of_reached hcourse hother hstudent).2.memberPatches_eq (p := p)
  rw [hcells, List.mem_singleton] at hmem
  subst hmem
  exact h other hother hstudent (congrArg Prod.snd hkey)

end Records

/-! ### One element and the others -/

/-- The valid members of a list. -/
def validMembers (p : Platform) (members : List PyValue) : List AttendanceMember :=
  members.filterMap (attendanceMember p)

/-- The message has an id that the event table has not seen. -/
def Unseen (p : Platform) (store : Store) (env : Envelope) : Prop :=
  ∀ m, messageId p (env.message []) = some (.text m) → m ∉ store.events.seen

/-- The record of an element is the one that the element alone leaves, but for the teacher, who is the
first of the valid teachers. -/
structure ElementKept (p : Platform) (store : Store) (env : Envelope) (members : List PyValue)
    (element : PyValue) (member : AttendanceMember) (base : AttendanceEvent) : Prop where
  alone : ∃ cmd, (ingest p store (env.message [element])).1 = .ok cmd
  cells : ∀ c ∉ teacherColumns,
    cellAt (ingest p store (env.message members)).2.records
        (lessonKey base.toBaseEvent none, member.uid) c =
      cellAt (ingest p store (env.message [element])).2.records
        (lessonKey base.toBaseEvent none, member.uid) c
  teacher : let teacher := (validMembers p members).find? (·.isTeacher)
    cellAt (ingest p store (env.message members)).2.records
        (lessonKey base.toBaseEvent none, member.uid) .teacherUid =
      intCell (teacher.map (·.uid)) ∧
    cellAt (ingest p store (env.message members)).2.records
        (lessonKey base.toBaseEvent none, member.uid) .teacherName =
      textCell (teacher.bind (·.name))

/-- The message is stored, and with it the record of every element that is a student. -/
structure MembersKept (p : Platform) (store : Store) (env : Envelope) (members : List PyValue) :
    Prop where
  stored : ∃ row, row.payload = env.message members ∧
    (ingest p store (env.message members)).2.events.rows = store.events.rows ++ [row]
  kept : ∀ element ∈ members, ∀ member, attendanceMember p element = some member →
    member.isStudent = true →
      ∃ base, env.base? p = some base ∧ ElementKept p store env members element member base

/-- What it takes: every element is a valid member, the message and its ids are ones that the event
table takes, and the members are stored up to the last student, two of whom with one uid say the same. -/
structure Faultless (p : Platform) (env : Envelope) (members : List PyValue) (base : AttendanceEvent) :
    Prop where
  envelope : env.base? p = some base
  elements : ∀ element ∈ members, (attendanceMember p element).isSome
  id : ∃ id, (messageId p (env.message [])).mapM PyStr.encode = .ok id
  ids : fits base.courseID = true ∧ fits base.classID = true
  text : (env.message members).encodable = true
  reached : let event : AttendanceEvent := { base with data := validMembers p members }
    ∀ student ∈ event.data, student.isStudent = true →
      ∃ other ∈ event.reached, other.isStudent = true ∧ other.uid = student.uid
  agree : let event : AttendanceEvent := { base with data := validMembers p members }
    ∀ student ∈ event.data, ∀ other ∈ event.data, student.isStudent = true → other.isStudent = true →
      other.uid = student.uid → event.mark other = event.mark student

section Kept

variable {p : Platform} {env : Envelope} {members : List PyValue} {base : AttendanceEvent}

theorem mapM_eq_some_iff {α β : Type} {f : α → Option β} {xs : List α} {ys : List β} :
    xs.mapM f = some ys ↔ (∀ x ∈ xs, (f x).isSome) ∧ ys = xs.filterMap f := by
  induction xs generalizing ys with
  | nil =>
      rw [List.mapM_nil]
      exact ⟨fun h => ⟨fun _ hx => absurd hx List.not_mem_nil, (Option.some.inj h).symm⟩,
        fun h => congrArg some h.2.symm⟩
  | cons x xs ih =>
      rw [List.mapM_cons, List.forall_mem_cons, List.filterMap_cons]
      cases hx : f x with
      | none =>
          constructor
          · intro h
            cases h
          · rintro ⟨⟨h, _⟩, _⟩
            cases h
      | some y =>
          change ((xs.mapM f).bind fun rest => some (y :: rest)) = some ys ↔ _
          constructor
          · intro h
            obtain ⟨rest, hrest, h⟩ := Option.bind_eq_some_iff.mp h
            cases h
            obtain ⟨hall, rfl⟩ := ih.mp hrest
            exact ⟨⟨rfl, hall⟩, rfl⟩
          · rintro ⟨⟨_, hall⟩, rfl⟩
            exact Option.bind_eq_some_iff.mpr ⟨_, ih.mpr ⟨hall, rfl⟩, rfl⟩

/-- A message is read exactly when everything in it is. -/
theorem readEvent_message {event : Event} : (∃ row, readEvent p (env.message members) = .ok (event, row)) ↔
    ∃ base, env.base? p = some base ∧ (∀ element ∈ members, (attendanceMember p element).isSome) ∧
      event = .attendance { base with data := validMembers p members } ∧
      (∃ id, (messageId p (env.message [])).mapM PyStr.encode = .ok id) ∧
      fits base.courseID = true ∧ fits base.classID = true ∧ (env.message members).encodable = true := by
  constructor
  · rintro ⟨row, hread⟩
    obtain ⟨hparse, hrow⟩ := readEvent_eq_ok hread
    obtain ⟨base, data, hbase, hdata, rfl⟩ := parseEvent_message.mp hparse
    obtain ⟨hvalid, rfl⟩ := mapM_eq_some_iff.mp hdata
    obtain ⟨hid, hcourse, hclass, _, _, htext⟩ := eventRow_isOk.mp ⟨row, hrow⟩
    rw [messageId_message] at hid
    exact ⟨base, hbase, hvalid, rfl, hid, hcourse, hclass, htext⟩
  · rintro ⟨base, hbase, hvalid, rfl, hid, hcourse, hclass, htext⟩
    have hparse := parseEvent_message.mpr
      ⟨base, validMembers p members, hbase, mapM_eq_some_iff.mpr ⟨hvalid, rfl⟩, rfl⟩
    have hmessage : messageId p (env.message members) = messageId p (env.message []) := messageId_message
    rw [← hmessage] at hid
    have hrow : ∃ row, eventRow (Event.attendance { base with data := validMembers p members }).cmd
        (env.message members) (messageId p (env.message members)) base.courseID base.classID none none =
          .ok row := eventRow_isOk.mpr ⟨hid, hcourse, hclass, rfl, rfl, htext⟩
    obtain ⟨row, hrow⟩ := hrow
    refine ⟨row, ?_⟩
    rw [readEvent_of_parse hparse]
    exact map_eq_ok.mpr ⟨row, hrow, rfl⟩

theorem fresh_of_unseen {store : Store} (hunseen : Unseen p store env) {event : Event} {row : EventRow}
    (hread : readEvent p (env.message members) = .ok (event, row)) :
    store.events.isDuplicate row.msgId = false := by
  rw [Bool.eq_false_iff]
  intro hdup
  obtain ⟨m, hm, hid⟩ := (EventLog.isDuplicate_iff _ _).mp hdup
  have hmessage := msgId_of_readEvent hread
  rw [messageId_message, hid] at hmessage
  exact hunseen m hmessage hm

section Alone

variable {element : PyValue} {member : AttendanceMember}

/-- The event of an element alone. -/
def aloneEvent (base : AttendanceEvent) (member : AttendanceMember) : AttendanceEvent :=
  { base with data := [member] }

theorem validMembers_singleton (h : attendanceMember p element = some member) :
    validMembers p [element] = [member] := by
  simp [validMembers, h]

theorem not_isTeacher_of_isStudent (h : member.isStudent = true) : member.isTeacher = false := by
  simp only [AttendanceMember.isStudent, List.mem_cons, List.not_mem_nil, or_false,
    decide_eq_true_eq] at h
  simp only [AttendanceMember.isTeacher]
  rcases h with h | h | h <;> rw [h] <;> decide

theorem aloneEvent_teacher (h : member.isStudent = true) : (aloneEvent base member).teacher = none := by
  simp [aloneEvent, AttendanceEvent.teacher, not_isTeacher_of_isStudent h]

theorem reached_of_processable (h : (Event.attendance (aloneEvent base member)).processable p = true) :
    member ∈ (aloneEvent base member).reached := by
  obtain ⟨⟨hstart, hend⟩, hmembers⟩ := processable_attendance.mp h
  have hfits := hmembers member (List.mem_singleton_self _)
  rw [AttendanceEvent.reached, hstart, hend]
  show member ∈ [member].takeWhile (aloneEvent base member).memberFits
  simp [hfits]

/-- What an element alone leaves in its record, when nothing raises. -/
theorem cellAt_alone {store : Store} {row : EventRow} (hstudent : member.isStudent = true)
    (hread : readEvent p (env.message [element]) = .ok (.attendance (aloneEvent base member), row))
    (hfresh : store.events.isDuplicate row.msgId = false)
    (hok : (Event.attendance (aloneEvent base member)).processable p = true) (c : Column) :
    cellAt (ingest p store (env.message [element])).2.records
        (lessonKey base.toBaseEvent none, member.uid) c =
      (memberCell p base none member c).getD
        (cellAt store.records (lessonKey base.toBaseEvent none, member.uid) c) := by
  have hcell := cellAt_ingest hread hfresh hstudent (reached_of_processable hok) ?_ c
  · rw [aloneEvent_teacher hstudent] at hcell
    exact hcell
  · intro other hother _ _
    have hdata := (accepted_of_reached (Event.admitted hread).course hother ‹_›).1
    rw [List.mem_singleton.mp hdata]

end Alone

/-- An element alone is stored when a student with its uid and its mark is. -/
theorem alone_processable {data : List AttendanceMember} {member other : AttendanceMember}
    (hstudent : member.isStudent = true) (hother : Accepted { base with data } other)
    (huid : other.uid = member.uid) (hseconds : other.attendanceTime = member.attendanceTime) :
    (Event.attendance (aloneEvent base member)).processable p = true := by
  have hfits := hother.fits
  rw [AttendanceEvent.memberFits, if_pos hother.student, huid, hseconds] at hfits
  simp only [Bool.and_eq_true] at hfits
  refine processable_attendance.mpr ⟨hother.times, fun other' hother' => ?_⟩
  obtain rfl := List.mem_singleton.mp hother'
  rw [AttendanceEvent.memberFits, if_pos hstudent, aloneEvent_teacher hstudent]
  simp only [Bool.and_eq_true]
  exact ⟨hfits.1, rfl⟩

/-- An element of a message that is read is read alone. -/
theorem readEvent_alone (h : Faultless p env members base) {element : PyValue}
    (helement : element ∈ members) {member : AttendanceMember}
    (hmember : attendanceMember p element = some member) :
    ∃ row, readEvent p (env.message [element]) = .ok (.attendance (aloneEvent base member), row) := by
  have htext : (env.message [element]).encodable = true := by
    have hall := h.text
    rw [encodable_message, Bool.and_eq_true, List.all_eq_true] at hall
    rw [encodable_message, hall.1, List.all_cons, hall.2 element helement]
    rfl
  refine readEvent_message.mpr ⟨base, h.envelope, by simp [hmember], ?_, h.id, h.ids.1, h.ids.2, htext⟩
  rw [validMembers_singleton hmember]
  rfl

theorem kept_of_faultless {store : Store} (hunseen : Unseen p store env)
    (h : Faultless p env members base) : MembersKept p store env members := by
  obtain ⟨row, hread⟩ := readEvent_message.mpr
    ⟨base, h.envelope, h.elements, rfl, h.id, h.ids.1, h.ids.2, h.text⟩
  have hfresh := fresh_of_unseen hunseen hread
  have hadmitted := (Event.admitted hread).course
  refine ⟨⟨row, payload_of_readEvent hread, ?_⟩, fun element helement member hmember hstudent =>
    ⟨base, h.envelope, ?_⟩⟩
  · rw [ingest_fresh p hread hfresh, exec_events, EventLog.rows_insertOrIgnore _ _ hfresh]
  have hdata : member ∈ validMembers p members := List.mem_filterMap.mpr ⟨element, helement, hmember⟩
  obtain ⟨other, hreached, hotherStudent, huid⟩ := h.reached member hdata hstudent
  obtain ⟨hotherData, haccepted⟩ := accepted_of_reached hadmitted hreached hotherStudent
  have hmark := h.agree member hdata other hotherData hstudent hotherStudent huid
  have hwhole (c : Column) : cellAt (ingest p store (env.message members)).2.records
      (lessonKey base.toBaseEvent none, member.uid) c =
        (memberCell p base ((validMembers p members).find? (·.isTeacher)) member c).getD
          (cellAt store.records (lessonKey base.toBaseEvent none, member.uid) c) := by
    have hcell := cellAt_ingest hread hfresh hotherStudent hreached (fun third hthird hthirdStudent hsame =>
      h.agree other hotherData third (accepted_of_reached hadmitted hthird hthirdStudent).1 hotherStudent
        hthirdStudent hsame) c
    rw [memberCell_of_mark hmark, huid] at hcell
    exact hcell
  have hok : (Event.attendance (aloneEvent base member)).processable p = true :=
    alone_processable hstudent haccepted huid (congrArg Prod.fst hmark)
  obtain ⟨row', hread'⟩ := readEvent_alone h helement hmember
  have hfresh' := fresh_of_unseen hunseen hread'
  have hteacher : memberCell p base ((validMembers p members).find? (·.isTeacher)) member .teacherUid =
      some (intCell (((validMembers p members).find? (·.isTeacher)).map (·.uid))) ∧
    memberCell p base ((validMembers p members).find? (·.isTeacher)) member .teacherName =
      some (textCell (((validMembers p members).find? (·.isTeacher)).bind (·.name))) := by
    have hcells := haccepted.memberCell_teacher (p := p)
    rw [memberCell_of_mark hmark, memberCell_of_mark hmark] at hcells
    exact hcells
  refine ⟨(ingest_returns p hread' hfresh').mpr hok, fun c hc => ?_, ?_, ?_⟩
  · rw [hwhole, cellAt_alone hstudent hread' hfresh' hok, memberCell_teacher hc]
  · rw [hwhole, hteacher.1]
    rfl
  · rw [hwhole, hteacher.2]
    rfl

/-! ### What the empty store shows -/

theorem unseen_empty : Unseen p Store.empty env := fun _ _ hm => absurd hm List.not_mem_nil

theorem read_of_stored (h : MembersKept p Store.empty env members) :
    ∃ event row, readEvent p (env.message members) = .ok (event, row) := by
  obtain ⟨row, _, hrows⟩ := h.stored
  cases hread : readEvent p (env.message members) with
  | error e =>
      rw [ingest_refused p hread] at hrows
      cases hrows
  | ok admitted => exact ⟨admitted.1, admitted.2, rfl⟩

/-- The record of a member tells its mark. -/
def TellsMark (records : Records) (base : AttendanceEvent) (member : AttendanceMember) : Prop :=
  cellAt records (lessonKey base.toBaseEvent none, member.uid) .attendanceSeconds =
      .int member.attendanceTime ∧
    ∃ label, (base.mark member).2 = some label ∧
      cellAt records (lessonKey base.toBaseEvent none, member.uid) .attendance = .text label

theorem tellsMark_of_kept {element : PyValue} {member : AttendanceMember}
    (hmember : attendanceMember p element = some member) (hstudent : member.isStudent = true)
    (hbase : env.base? p = some base) (h : ElementKept p Store.empty env members element member base) :
    TellsMark (ingest p Store.empty (env.message members)).2.records base member := by
  obtain ⟨cmd, hreturns⟩ := h.alone
  cases hread : readEvent p (env.message [element]) with
  | error e =>
      rw [ingest_refused p hread] at hreturns
      cases hreturns
  | ok admitted =>
      obtain ⟨event, row⟩ := admitted
      obtain ⟨base', hbase', _, rfl, _⟩ := readEvent_message.mp ⟨row, hread⟩
      cases hbase.symm.trans hbase'
      rw [validMembers_singleton hmember] at hread
      change readEvent p _ = .ok (.attendance (aloneEvent base member), row) at hread
      have hfresh := fresh_of_unseen unseen_empty hread
      have hok := (ingest_returns p hread hfresh).mp ⟨cmd, hreturns⟩
      have haccepted := (accepted_of_reached (Event.admitted hread).course
        (reached_of_processable hok) hstudent).2
      obtain ⟨hseconds, label, hlabel, hattendance⟩ := haccepted.memberCell_mark (p := p)
      rw [aloneEvent_teacher hstudent] at hseconds hattendance
      constructor
      · rw [h.cells _ (by decide), cellAt_alone hstudent hread hfresh hok]
        exact congrArg (Option.getD · _) hseconds
      · refine ⟨label, hlabel, ?_⟩
        rw [h.cells _ (by decide), cellAt_alone hstudent hread hfresh hok]
        exact congrArg (Option.getD · _) hattendance

theorem faultless_of_kept (h : MembersKept p Store.empty env members) :
    ∃ base, Faultless p env members base := by
  obtain ⟨event, row, hread⟩ := read_of_stored h
  obtain ⟨base, hbase, helements, rfl, hid, hcourse, hclass, htext⟩ := readEvent_message.mp ⟨row, hread⟩
  have hfresh := fresh_of_unseen unseen_empty hread
  have hcells (student : AttendanceMember) (hdata : student ∈ validMembers p members)
      (hstudent : student.isStudent = true) :
      TellsMark (ingest p Store.empty (env.message members)).2.records base student := by
    obtain ⟨element, helement, hmember⟩ := List.mem_filterMap.mp hdata
    obtain ⟨base', hbase', hkept⟩ := h.kept element helement student hmember hstudent
    cases hbase.symm.trans hbase'
    exact tellsMark_of_kept hmember hstudent hbase hkept
  refine ⟨base, hbase, helements, hid, ⟨hcourse, hclass⟩, htext, ?_, ?_⟩
  · intro event student hdata hstudent
    by_contra hnone
    have hcell := cellAt_ingest_of_unreached hread hfresh
      (fun other hother hotherStudent huid => hnone ⟨other, hother, hotherStudent, huid⟩)
      .attendanceSeconds
    rw [show lessonKey event.toBaseEvent none = lessonKey base.toBaseEvent none from rfl,
      (hcells student hdata hstudent).1] at hcell
    cases hcell
  · intro event student hdata other hother hstudent hotherStudent huid
    obtain ⟨hseconds, label, hlabel, hattendance⟩ := hcells student hdata hstudent
    have hsame := hcells other hother hotherStudent
    rw [TellsMark, huid] at hsame
    obtain ⟨hseconds', label', hlabel', hattendance'⟩ := hsame
    have htime : other.attendanceTime = student.attendanceTime :=
      SqlValue.int.inj (hseconds'.symm.trans hseconds)
    have htext : label' = label := SqlValue.text.inj (hattendance'.symm.trans hattendance)
    refine Prod.ext htime ?_
    show (base.mark other).2 = (base.mark student).2
    rw [hlabel, hlabel', htext]

end Kept

/-- A message keeps the record of every student among its elements, in whatever state it arrives,
exactly when nothing about it is faulty. -/
theorem membersKept_iff (p : Platform) (env : Envelope) (members : List PyValue) :
    (∀ store, Unseen p store env → MembersKept p store env members) ↔
      ∃ base, Faultless p env members base :=
  ⟨fun h => faultless_of_kept (h Store.empty unseen_empty),
    fun ⟨_, h⟩ _ hunseen => kept_of_faultless hunseen h⟩

/-- An attendance of lesson 5. -/
def lessonFive : Envelope where
  front := [(.text "Cmd", .string "Attendance"), (.text "_id", .string "m1"), (.text "ClassID", .int 5)]
  back := []
  noData := by decide
  attendance := rfl

/-- An element whose uid is no number. -/
def namelessElement : PyValue := .object [("Uid", .string "abc")]

/-- A student who is alone in the list is kept. -/
theorem student_kept : MembersKept .plain .empty lessonFive [listedMember 9 1] :=
  (membersKept_iff .plain lessonFive [listedMember 9 1]).mpr
    ⟨readMembers [], rfl, by decide, ⟨some "m1", rfl⟩, ⟨rfl, rfl⟩, by decide,
      by decide, by decide⟩ .empty unseen_empty

/-- With an element that is not valid behind it, the message is refused and nothing is stored. -/
theorem invalid_element_loses_student :
    (ingest .plain .empty (lessonFive.message [listedMember 9 1, namelessElement])).2 = .empty ∧
      ¬∀ (p : Platform) (store : Store) (env : Envelope) (members : List PyValue),
        Unseen p store env → MembersKept p store env members := by
  have hread : readEvent .plain (lessonFive.message [listedMember 9 1, namelessElement]) =
      .error .validationError := rfl
  have hrefused : ingest .plain .empty (lessonFive.message [listedMember 9 1, namelessElement]) =
      (.error .validationError, .empty) := ingest_refused .plain hread
  refine ⟨congrArg Prod.snd hrefused, fun hall => ?_⟩
  obtain ⟨row, _, hrows⟩ := (hall .plain .empty lessonFive [listedMember 9 1, namelessElement]
    unseen_empty).stored
  rw [hrefused] at hrows
  cases hrows

end ClassinDashboard

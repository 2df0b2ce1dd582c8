import ClassinDashboard.IngestConvergence

/-!
The order of the members in an attendance message. What a member of the list writes is keyed by its
uid, so members with different uids can change places. Only the teacher whom the students' rows name is
picked by position: the first teacher or co-teacher of the list.
-/

namespace ClassinDashboard

open Py Sql

variable (p : Platform)

/-! ### Payloads with permuted members -/

/-- The second payload is the first one with the list under `Data` permuted. -/
def DataPermuted (raw raw' : PyValue) : Prop :=
  ∃ front back : Fields, ∃ members members' : List PyValue,
    (∀ item ∈ front, item.1 ≠ .text "Data") ∧ members.Perm members' ∧
    raw = .dict (front ++ (.text "Data", .list members) :: back) ∧
    raw' = .dict (front ++ (.text "Data", .list members') :: back)

section Payloads

variable {p : Platform} {front back : Fields} {members members' : List PyValue}

theorem encodableList_eq_all (items : List PyValue) :
    PyValue.encodableList items = items.all PyValue.encodable := by
  induction items with
  | nil => rfl
  | cons item items ih => rw [PyValue.encodableList, ih, List.all_cons]

theorem encodable_permuted (hperm : members.Perm members') :
    (PyValue.dict (front ++ (.text "Data", .list members) :: back)).encodable =
      (PyValue.dict (front ++ (.text "Data", .list members') :: back)).encodable := by
  have hlist : (PyValue.list members).encodable = (PyValue.list members').encodable := by
    rw [PyValue.encodable, PyValue.encodable, encodableList_eq_all, encodableList_eq_all,
      hperm.all_eq]
  rw [PyValue.encodable, PyValue.encodable]
  induction front with
  | nil => rw [List.nil_append, List.nil_append, PyValue.encodableItems, PyValue.encodableItems, hlist]
  | cons item front ih =>
      obtain ⟨key, value⟩ := item
      cases key with
      | text s =>
          rw [List.cons_append, List.cons_append, PyValue.encodableItems, PyValue.encodableItems, ih]
      | lone points h => rfl

/-- Every other field is read alike. -/
theorem lookup_permuted {key : PyStr} (hkey : key ≠ .text "Data") :
    (front ++ (.text "Data", .list members) :: back).lookup key =
      (front ++ (.text "Data", .list members') :: back).lookup key := by
  have hne : (key == PyStr.text "Data") = false := beq_eq_false_iff_ne.mpr hkey
  rw [List.lookup_append, List.lookup_append, List.lookup_cons, List.lookup_cons, hne]

theorem lookup_data (hfront : ∀ item ∈ front, item.1 ≠ .text "Data") :
    (front ++ (.text "Data", .list members) :: back).lookup (.text "Data") = some (.list members) := by
  have hnone : front.lookup (.text "Data") = none := by
    rw [List.lookup_eq_none_iff]
    intro item hitem
    exact bne_iff_ne.mpr (hfront item hitem).symm
  rw [List.lookup_append, hnone, List.lookup_cons_self]
  rfl

/-- The members are valid in one order when they are in the other, and are read in that order. -/
theorem mapM_perm {α β : Type} {f : α → Option β} {xs xs' : List α} (hperm : xs.Perm xs') :
    ∀ {ys : List β}, xs.mapM f = some ys → ∃ ys', xs'.mapM f = some ys' ∧ ys.Perm ys' := by
  induction hperm with
  | nil => exact fun h => ⟨_, h, .refl _⟩
  | cons x _ ih =>
      intro ys h
      rw [List.mapM_cons] at h
      obtain ⟨y, hy, h⟩ := Option.bind_eq_some_iff.mp h
      obtain ⟨rest, hrest, h⟩ := Option.bind_eq_some_iff.mp h
      obtain ⟨rest', hrest', hperm⟩ := ih hrest
      cases h
      exact ⟨y :: rest', by rw [List.mapM_cons, hy, hrest']; rfl, hperm.cons y⟩
  | swap x x' xs =>
      intro ys h
      rw [List.mapM_cons, List.mapM_cons] at h
      obtain ⟨y, hy, h⟩ := Option.bind_eq_some_iff.mp h
      obtain ⟨tail, htail, h⟩ := Option.bind_eq_some_iff.mp h
      obtain ⟨y', hy', htail⟩ := Option.bind_eq_some_iff.mp htail
      obtain ⟨rest, hrest, htail⟩ := Option.bind_eq_some_iff.mp htail
      cases htail
      cases h
      exact ⟨y' :: y :: rest, by rw [List.mapM_cons, List.mapM_cons, hy, hy', hrest]; rfl, .swap ..⟩
  | trans _ _ ih ih' =>
      intro ys h
      obtain ⟨middle, hmiddle, hperm⟩ := ih h
      obtain ⟨last, hlast, hperm'⟩ := ih' hmiddle
      exact ⟨last, hlast, hperm.trans hperm'⟩

/-! ### Reading the payload -/

section Fields

variable {items items' : Fields} {α : Type}
  (hothers : ∀ name, name ≠ "Data" → items'.lookup (.text name) = items.lookup (.text name))

include hothers

theorem get_congr {name : String} (hname : name ≠ "Data") :
    PyValue.get items' name = PyValue.get items name := by
  rw [PyValue.get, PyValue.get, hothers name hname]

theorem optional_congr (v : Validator α) {name : String} (hname : name ≠ "Data") :
    optional v items' name = optional v items name := by
  rw [optional, optional, hothers name hname]

theorem withDefault_congr (v : Validator α) (default : α) {name : String} (hname : name ≠ "Data") :
    withDefault v default items' name = withDefault v default items name := by
  rw [withDefault, withDefault, hothers name hname]

theorem baseEvent_congr : baseEvent p items' = baseEvent p items := by
  simp (disch := decide) only [baseEvent, optional_congr hothers, withDefault_congr hothers]

/-- A valid attendance stays valid when its members are permuted. -/
theorem attendanceEvent_permuted {event : AttendanceEvent}
    (hdata : items.lookup (.text "Data") = some (.list members))
    (hdata' : items'.lookup (.text "Data") = some (.list members')) (hperm : members.Perm members')
    (h : attendanceEvent p items = some event) :
    ∃ data, event.data.Perm data ∧ attendanceEvent p items' = some { event with data } := by
  have hread {items : Fields} {members : List PyValue}
      (hdata : items.lookup (.text "Data") = some (.list members)) :
      withDefault (listOf (attendanceMember p)) [] items "Data" =
        members.mapM (attendanceMember p) := by
    rw [withDefault, hdata]
    rfl
  unfold attendanceEvent at h ⊢
  simp (disch := decide) only [baseEvent_congr hothers, optional_congr hothers, hread hdata']
  rw [hread hdata] at h
  obtain ⟨base, hbase, h⟩ := Option.bind_eq_some_iff.mp h
  obtain ⟨className, hclassName, h⟩ := Option.bind_eq_some_iff.mp h
  obtain ⟨classStartTime, hstart, h⟩ := Option.bind_eq_some_iff.mp h
  obtain ⟨classEndTime, hend, h⟩ := Option.bind_eq_some_iff.mp h
  obtain ⟨activityID, hactivity, h⟩ := Option.bind_eq_some_iff.mp h
  obtain ⟨present, hpresent, h⟩ := Option.bind_eq_some_iff.mp h
  obtain ⟨expected, hexpected, h⟩ := Option.bind_eq_some_iff.mp h
  obtain ⟨data, hmembers, h⟩ := Option.bind_eq_some_iff.mp h
  obtain ⟨data', hmembers', hperm'⟩ := mapM_perm hperm hmembers
  cases h
  refine ⟨data', hperm', ?_⟩
  rw [hbase, hclassName, hstart, hend, hactivity, hpresent, hexpected, hmembers']
  rfl

end Fields

/-- What a valid attendance payload looks like. -/
theorem known_attendance {cmd : PyValue} {items : Fields} {event : AttendanceEvent} :
    known p cmd items = some (.attendance event) ↔
      cmd = .str (.text "Attendance") ∧ attendanceEvent p items = some event := by
  constructor
  · intro h
    unfold known at h
    split at h
    · obtain ⟨found, hfound, heq⟩ := Option.map_eq_some_iff.mp h
      cases heq
      exact ⟨rfl, hfound⟩
    all_goals
      obtain ⟨_, _, heq⟩ := Option.map_eq_some_iff.mp h
      cases heq
  · rintro ⟨rfl, h⟩
    rw [known, h]
    rfl

theorem parseEvent_dict {items : Fields} {event : Event} :
    parseEvent p (.dict items) = .ok event ↔
      (((PyValue.get items "Cmd").orElse (PyValue.get items "cmd")).orElse
        (.str (.text ""))).hashable = true ∧
      known p (((PyValue.get items "Cmd").orElse (PyValue.get items "cmd")).orElse
        (.str (.text ""))) items = some event := by
  rw [parseEvent]
  split
  · rename_i hhashable
    rw [hhashable]
    split
    · rename_i found hfound
      simp [hfound]
    · rename_i hnone
      simp [hnone]
  · rename_i hhashable
    simp [hhashable]

/-- The row of a payload, which no parameter of the statement looks into. -/
theorem eventRow_payload {payload payload' : PyValue}
    (hencodable : payload.encodable = payload'.encodable) (cmd : String) (msgId : Option PyStr)
    (courseId classId studentUid teacherUid : Option Int) :
    eventRow cmd payload' msgId courseId classId studentUid teacherUid =
      (eventRow cmd payload msgId courseId classId studentUid teacherUid).map fun row =>
        { row with payload := payload' } := by
  unfold eventRow
  rw [hencodable]
  cases msgId.mapM PyStr.encode with
  | error e => rfl
  | ok id =>
      cases bindInt courseId with
      | error e => rfl
      | ok course =>
          cases bindInt classId with
          | error e => rfl
          | ok lesson =>
              cases bindInt studentUid with
              | error e => rfl
              | ok student =>
                  cases bindInt teacherUid with
                  | error e => rfl
                  | ok teacher => cases payload'.encodable <;> rfl

theorem readEvent_of_parse {raw : PyValue} {event : Event} (h : parseEvent p raw = .ok event) :
    readEvent p raw = (eventRow event.cmd raw (messageId p raw) event.base.courseID
      event.base.classID event.studentUid event.teacherUid).map fun row => (event, row) := by
  rw [readEvent, h]
  rfl

/-- The permuted payload is the same event with its members permuted, and the row that the event
table gets is the same but for the payload. -/
theorem readEvent_permuted {raw raw' : PyValue} (hpermuted : DataPermuted raw raw')
    {event : AttendanceEvent} (h : eventOf p raw = some (.attendance event)) :
    ∃ data, event.data.Perm data ∧ eventOf p raw' = some (.attendance { event with data }) ∧
      readEvent p raw' = (readEvent p raw).map fun admitted =>
        (.attendance { event with data }, { admitted.2 with payload := raw' }) := by
  obtain ⟨front, back, members, members', hfront, hperm, rfl, rfl⟩ := hpermuted
  have hothers (name : String) (hname : name ≠ "Data") :
      (front ++ (.text "Data", .list members') :: back).lookup (.text name) =
        (front ++ (.text "Data", .list members) :: back).lookup (.text name) :=
    lookup_permuted fun heq => hname (PyStr.text.inj heq)
  have hparse : parseEvent p (.dict (front ++ (.text "Data", .list members) :: back)) =
      .ok (.attendance event) := by
    cases hparse : parseEvent p (.dict (front ++ (.text "Data", .list members) :: back)) with
    | error e =>
        rw [eventOf, hparse] at h
        cases h
    | ok found =>
        rw [eventOf, hparse] at h
        rw [Option.some.inj h]
  obtain ⟨hhashable, hknown⟩ := parseEvent_dict.mp hparse
  obtain ⟨hcmd, hread⟩ := known_attendance.mp hknown
  obtain ⟨data, hdata, hread'⟩ := attendanceEvent_permuted hothers (lookup_data hfront)
    (lookup_data hfront) hperm hread
  have hparse' : parseEvent p (.dict (front ++ (.text "Data", .list members') :: back)) =
      .ok (.attendance { event with data }) := by
    rw [parseEvent_dict, get_congr hothers (by decide), get_congr hothers (by decide)]
    exact ⟨hhashable, known_attendance.mpr ⟨hcmd, hread'⟩⟩
  have hid : messageId p (.dict (front ++ (.text "Data", .list members') :: back)) =
      messageId p (.dict (front ++ (.text "Data", .list members) :: back)) := by
    rw [messageId, messageId, get_congr hothers (by decide)]
  refine ⟨data, hdata, by rw [eventOf, hparse']; rfl, ?_⟩
  rw [readEvent_of_parse hparse, readEvent_of_parse hparse', hid,
    eventRow_payload (encodable_permuted hperm)]
  change ((eventRow (Event.attendance event).cmd _ _ event.courseID event.classID none none).map _).map
    _ = ((eventRow (Event.attendance event).cmd _ _ event.courseID event.classID none none).map _).map _
  cases eventRow (Event.attendance event).cmd _ _ event.courseID event.classID none none with
  | error e => rfl
  | ok row => rfl

end Payloads

/-! ### The tables as maps -/

/-- What the tables answer, without the order of their rows. -/
structure Finds where
  records : Records
  students : Int → Option StudentRow
  teachers : Int → Option TeacherRow
  courses : Int → Option CourseRow
  lessons : String → Option LessonRow

def Store.finds (store : Store) : Finds where
  records := store.records
  students := store.students.find
  teachers := store.teachers.find
  courses := store.courses.find
  lessons := store.lessons.find

/-- An upsert on the answers of a table. -/
def upserted {κ ρ : Type} [DecidableEq κ] (rows : κ → Option ρ) (key : κ) (new : ρ) (f : ρ → ρ) :
    κ → Option ρ :=
  Function.update rows key (some (((rows key).map f).getD new))

theorem upserted_comm {κ ρ : Type} [DecidableEq κ] {rows : κ → Option ρ} {key key' : κ}
    (h : key ≠ key') {new new' : ρ} {f f' : ρ → ρ} :
    upserted (upserted rows key new f) key' new' f' =
      upserted (upserted rows key' new' f') key new f := by
  rw [upserted, upserted, upserted, upserted, Function.update_of_ne h.symm, Function.update_of_ne h,
    Function.update_comm h.symm]

theorem find_upsert_eq {κ ρ : Type} [DecidableEq κ] (t : Table κ ρ) (key : κ) (new : ρ) (f : ρ → ρ) :
    (t.upsert key new f).find = upserted t.find key new f := by
  funext other
  rw [Table.find_upsert, upserted, Function.update_apply]

/-- What a member of an attendance list writes. -/
def Finds.write (v : Finds) : Write → Finds
  | .record lessonId uid fields =>
      { v with records := applyPatch v.records ((lessonId, uid), fields) }
  | .student uid name named =>
      { v with students := upserted v.students uid ⟨name, none⟩ fun row => row.backfill name named }
  | .teacher uid name =>
      { v with
        teachers := upserted v.teachers uid ⟨name, none⟩
          fun row => { row with name := name.or row.name } }
  | _ => v

/-- The uid that a write of a member is keyed by. -/
def Write.memberUid : Write → Option Int
  | .record _ uid _ => some uid
  | .student uid _ _ => some uid
  | .teacher uid _ => some uid
  | _ => none

theorem finds_write {store : Store} {w : Write} {uid : Int} (h : w.memberUid = some uid) :
    (store.write w).finds = store.finds.write w := by
  cases w with
  | record lessonId student fields =>
      have hrecords := records_write store (.record lessonId student fields)
      simp only [Store.finds, hrecords]
      rfl
  | student student name named =>
      simp only [Store.finds, Store.write, find_upsert_eq]
      rfl
  | teacher teacher name =>
      simp only [Store.finds, Store.write, find_upsert_eq]
      rfl
  | _ => cases h

/-- Writes of members with different uids can change places. -/
theorem finds_write_comm {a b : Write} {uid uid' : Int} (ha : a.memberUid = some uid)
    (hb : b.memberUid = some uid') (hne : uid ≠ uid') (v : Finds) :
    (v.write a).write b = (v.write b).write a := by
  cases a <;> cases ha <;> cases b <;> cases hb <;> simp only [Finds.write]
  · rw [applyPatch_comm fun hsame => absurd (congrArg Prod.snd hsame) hne]
  · rw [upserted_comm hne]
  · rw [upserted_comm hne]

/-! ### The members of a list -/

section Members

variable {p : Platform} {event : AttendanceEvent} {teacher teacher' : Option AttendanceMember}

theorem memberUid_of_mem_writes {member : AttendanceMember} {w : Write}
    (h : w ∈ (ingestMember p event teacher member).writes) : w.memberUid = some member.uid := by
  unfold ingestMember at h
  split at h
  · rcases Script.mem_writes_bind_iff.mp h with h | ⟨_, _, h⟩
    · obtain ⟨text, named, rfl⟩ := mem_writes_ensureStudent h
      rfl
    · rcases Script.mem_writes_bind_iff.mp h with h | ⟨fields, _, h⟩
      · cases h
      · obtain ⟨key, hkey, h⟩ := bind_eq_ok.mp (Script.mem_writes_commit.mp h)
        obtain ⟨cells, _, h⟩ := bind_eq_ok.mp h
        cases h
        exact congrArg some (bindKey_eq hkey)
  · split at h
    · obtain ⟨text, rfl⟩ := mem_writes_upsertTeacher h
      rfl
    · cases h

/-- What the writes of a list of members make of the tables. -/
def Finds.members (p : Platform) (event : AttendanceEvent) (teacher : Option AttendanceMember)
    (v : Finds) (data : List AttendanceMember) : Finds :=
  data.foldl (fun v member => (ingestMember p event teacher member).writes.foldl Finds.write v) v

/-- Members with distinct uids may come in any order. -/
theorem members_perm {data data' : List AttendanceMember} (hperm : data.Perm data')
    (hdistinct : (data.map AttendanceMember.uid).Nodup) (v : Finds) :
    v.members p event teacher data = v.members p event teacher data' := by
  refine hperm.foldl_eq' (fun member hmember other hother v => ?_) v
  by_cases hsame : member = other
  · rw [hsame]
  · have hne : member.uid ≠ other.uid := fun huid =>
      hsame (List.inj_on_of_nodup_map hdistinct hmember hother huid)
    refine foldl_foldl_comm Finds.write (fun a ha b hb v => ?_) v
    exact finds_write_comm (memberUid_of_mem_writes ha) (memberUid_of_mem_writes hb) hne v

theorem finds_foldl_write {ws : List Write} (h : ∀ w ∈ ws, ∃ uid, w.memberUid = some uid)
    (store : Store) : (ws.foldl Store.write store).finds = ws.foldl Finds.write store.finds := by
  induction ws generalizing store with
  | nil => rfl
  | cons w ws ih =>
      rw [List.forall_mem_cons] at h
      obtain ⟨⟨uid, huid⟩, hrest⟩ := h
      rw [List.foldl_cons, List.foldl_cons, ih hrest, finds_write huid]

/-- A loop over members none of whom raises. -/
theorem finds_exec_each {data : List AttendanceMember}
    (h : ∀ member ∈ data, (ingestMember p event teacher member).Succeeds) (store : Store) :
    (store.exec (Script.each data (ingestMember p event teacher))).finds =
      store.finds.members p event teacher data := by
  have heach : Script.each data (ingestMember p event teacher) =
      ⟨data.flatMap fun member => (ingestMember p event teacher member).writes, .ok ()⟩ := by
    refine Script.each_eq fun member hmember => ?_
    obtain ⟨_, hresult⟩ := h member hmember
    rw [← hresult]
  rw [Store.exec, Script.exec, heach, finds_foldl_write, List.foldl_flatMap]
  · rfl
  · intro w hw
    obtain ⟨member, _, hw⟩ := List.mem_flatMap.mp hw
    exact ⟨member.uid, memberUid_of_mem_writes hw⟩

/-! ### The teacher of the list -/

/-- Two columns aside, the same record map. -/
def AgreeBut (columns : List Column) (records records' : Records) : Prop :=
  ∀ key, ((records key).isSome = (records' key).isSome) ∧
    ∀ c ∉ columns, cellAt records key c = cellAt records' key c

theorem AgreeBut.applyPatch {columns : List Column} {records records' : Records}
    (h : AgreeBut columns records records') (key : RecordKey)
    {fields fields' : List (Column × SqlValue)}
    (hfields : ∀ c ∉ columns, fields.lookup c = fields'.lookup c) :
    AgreeBut columns (applyPatch records (key, fields)) (ClassinDashboard.applyPatch records' (key, fields')) := by
  intro other
  refine ⟨?_, fun c hc => ?_⟩
  · by_cases hkey : other = key
    · rw [hkey, applyPatch_self, applyPatch_self]
      rfl
    · rw [applyPatch_of_ne records hkey, applyPatch_of_ne records' hkey]
      exact (h other).1
  · rw [cellAt_applyPatch, cellAt_applyPatch, hfields c hc, (h other).2 c hc]

/-- The columns that name the teacher of a lesson. -/
def teacherColumns : List Column := [.teacherUid, .teacherName]

/-- The same tables, but for the teacher whom the records name. -/
structure SameButTeacher (v v' : Finds) : Prop where
  records : AgreeBut teacherColumns v.records v'.records
  students : v.students = v'.students
  teachers : v.teachers = v'.teachers
  courses : v.courses = v'.courses
  lessons : v.lessons = v'.lessons

theorem SameButTeacher.refl (v : Finds) : SameButTeacher v v :=
  ⟨fun _ => ⟨rfl, fun _ _ => rfl⟩, rfl, rfl, rfl, rfl⟩

theorem SameButTeacher.record {v v' : Finds} (h : SameButTeacher v v') (lessonId : String) (uid : Int)
    {fields fields' : List (Column × SqlValue)}
    (hfields : ∀ c ∉ teacherColumns, fields.lookup c = fields'.lookup c) :
    SameButTeacher (v.write (.record lessonId uid fields)) (v'.write (.record lessonId uid fields')) :=
  ⟨h.records.applyPatch (lessonId, uid) hfields, h.students, h.teachers, h.courses, h.lessons⟩

theorem SameButTeacher.foldl {v v' : Finds} (h : SameButTeacher v v') (ws : List Write) :
    SameButTeacher (ws.foldl Finds.write v) (ws.foldl Finds.write v') := by
  induction ws generalizing v v' with
  | nil => exact h
  | cons w ws ih =>
      refine ih ?_
      cases w with
      | record lessonId uid fields => exact h.record lessonId uid fun _ _ => rfl
      | student uid name named =>
          refine ⟨h.records, ?_, h.teachers, h.courses, h.lessons⟩
          simp only [Finds.write, h.students]
      | teacher uid name =>
          refine ⟨h.records, h.students, ?_, h.courses, h.lessons⟩
          simp only [Finds.write, h.teachers]
      | _ => exact h

/-- The statements of a student who raises nothing. -/
theorem writes_student {member : AttendanceMember} (hstudent : member.isStudent = true)
    (h : (ingestMember p event teacher member).Succeeds) :
    ∃ fields cells, attendanceFields event teacher member = .ok fields ∧
      bindFields p fields = .ok cells ∧ (ingestMember p event teacher member).writes =
        (ensureStudent p member.uid (.ofText? member.name)).writes ++
          [.record (lessonKey event.toBaseEvent none) member.uid cells] := by
  rw [ingestMember, if_pos hstudent] at h ⊢
  obtain ⟨hensure, hrest⟩ := Script.succeeds_bind_unit.mp h
  obtain ⟨fields, hfields, hupsert⟩ := Script.succeeds_bind.mp hrest
  obtain ⟨w, hw⟩ := Script.succeeds_commit.mp hupsert
  have hbound := hw
  obtain ⟨key, hkey, hbound⟩ := bind_eq_ok.mp hbound
  obtain ⟨cells, hcells, hbound⟩ := bind_eq_ok.mp hbound
  cases hbound
  refine ⟨fields, cells, hfields, hcells, ?_⟩
  rw [Script.writes_bind_unit, if_pos hensure]
  rw [Script.lift_result] at hfields
  rw [hfields, Script.lift_ok_bind, upsertLessonRecord, hw, Script.commit_ok, Script.tell_writes,
    bindKey_eq hkey]

/-- Only two columns of a student's row depend on the teacher. -/
theorem lookup_attendanceFields {member : AttendanceMember} {fields fields' : List (Column × PyValue)}
    (h : attendanceFields event teacher member = .ok fields)
    (h' : attendanceFields event teacher' member = .ok fields') {c : Column}
    (hc : c ∉ teacherColumns) : fields.lookup c = fields'.lookup c := by
  obtain ⟨lessonDate, hdate, h⟩ := bind_eq_ok.mp h
  obtain ⟨label, hlabel, h⟩ := bind_eq_ok.mp h
  obtain ⟨lessonDate', hdate', h'⟩ := bind_eq_ok.mp h'
  obtain ⟨label', hlabel', h'⟩ := bind_eq_ok.mp h'
  rw [hdate] at hdate'
  rw [hlabel] at hlabel'
  cases hdate'
  cases hlabel'
  cases h
  cases h'
  cases c <;> first | rfl | exact absurd (by decide) hc

theorem SameButTeacher.member {v v' : Finds} (hsame : SameButTeacher v v') {member : AttendanceMember}
    (h : (ingestMember p event teacher member).Succeeds)
    (h' : (ingestMember p event teacher' member).Succeeds) :
    SameButTeacher ((ingestMember p event teacher member).writes.foldl Finds.write v)
      ((ingestMember p event teacher' member).writes.foldl Finds.write v') := by
  by_cases hstudent : member.isStudent = true
  · obtain ⟨fields, cells, hfields, hcells, hwrites⟩ := writes_student hstudent h
    obtain ⟨fields', cells', hfields', hcells', hwrites'⟩ := writes_student hstudent h'
    rw [hwrites, hwrites', List.foldl_append, List.foldl_append]
    refine (hsame.foldl _).record _ _ fun c hc => ?_
    rw [lookup_bindFields p hcells, lookup_bindFields p hcells',
      lookup_attendanceFields hfields hfields' hc]
  · rw [ingestMember, ingestMember, if_neg hstudent, if_neg hstudent]
    exact hsame.foldl _

theorem SameButTeacher.members {v v' : Finds} (hsame : SameButTeacher v v')
    {data : List AttendanceMember}
    (h : ∀ member ∈ data, (ingestMember p event teacher member).Succeeds)
    (h' : ∀ member ∈ data, (ingestMember p event teacher' member).Succeeds) :
    SameButTeacher (v.members p event teacher data) (v'.members p event teacher' data) := by
  induction data generalizing v v' with
  | nil => exact hsame
  | cons member data ih =>
      rw [List.forall_mem_cons] at h h'
      exact ih (hsame.member h.1 h'.1) h.2 h'.2

/-- The cell of an optional text. -/
def textCell : Option String → SqlValue
  | some s => .text s
  | none => .null

/-- The row of a student names the teacher of the list. -/
theorem teacher_of_members {data : List AttendanceMember}
    (hdistinct : (data.map AttendanceMember.uid).Nodup) {member : AttendanceMember}
    (hmember : member ∈ data) (hstudent : member.isStudent = true)
    (h : (ingestMember p event teacher member).Succeeds) (v : Finds) :
    cellAt (v.members p event teacher data).records (lessonKey event.toBaseEvent none, member.uid)
        .teacherUid = intCell (teacher.map (·.uid)) ∧
      cellAt (v.members p event teacher data).records (lessonKey event.toBaseEvent none, member.uid)
        .teacherName = textCell (teacher.bind (·.name)) := by
  obtain ⟨fields, cells, hfields, hcells, hwrites⟩ := writes_student hstudent h
  -- The member may as well come last.
  have hlast : data.Perm (data.erase member ++ [member]) :=
    (List.perm_cons_erase hmember).trans (List.perm_append_singleton _ _).symm
  rw [members_perm hlast hdistinct, Finds.members, List.foldl_append, List.foldl_cons, List.foldl_nil,
    hwrites, List.foldl_append, List.foldl_cons, List.foldl_nil]
  have hcell (v : Finds) (c : Column) {value : PyValue} {cell : SqlValue}
      (hvalue : fields.lookup c = some value) (hbind : c.type.bind p value = .ok cell) :
      cellAt (v.write (.record (lessonKey event.toBaseEvent none) member.uid cells)).records
        (lessonKey event.toBaseEvent none, member.uid) c = cell := by
    simp only [Finds.write, cellAt_applyPatch, ↓reduceIte, lookup_bindFields p hcells, hvalue,
      Option.bind_some, hbind]
    rfl
  have hfits := (bindFields_isOk p (typed_attendanceFields hfields)).mp ⟨cells, hcells⟩
  obtain ⟨lessonDate, _, hset⟩ := bind_eq_ok.mp hfields
  obtain ⟨label, _, hset⟩ := bind_eq_ok.mp hset
  cases hset
  constructor
  · refine hcell _ .teacherUid rfl (bindInteger_of_fits p ?_)
    rw [← fitsCell_ofInt?]
    exact hfits (.teacherUid, .ofInt? (teacher.map (·.uid))) (by simp)
  · refine hcell _ .teacherName rfl ?_
    cases teacher.bind (·.name) <;> rfl

end Members

/-! ### Permuted messages -/

section Permuted

variable {p : Platform} {event : AttendanceEvent} {data : List AttendanceMember}

theorem processable_attendance : (Event.attendance event).processable p = true ↔
    (fits event.classStartTime = true ∧ fits event.classEndTime = true) ∧
      ∀ member ∈ event.data, event.memberFits member = true := by
  rw [Event.processable, Bool.and_eq_true, Bool.and_eq_true, List.all_eq_true]

/-- A list that raises nothing in one order raises nothing in any. -/
theorem processable_permuted (hperm : event.data.Perm data)
    (h : (Event.attendance event).processable p = true) :
    (Event.attendance { event with data }).processable p = true := by
  obtain ⟨htimes, hmembers⟩ := processable_attendance.mp h
  refine processable_attendance.mpr ⟨htimes, fun member hmember => ?_⟩
  have hfits := hmembers member (hperm.mem_iff.mpr hmember)
  unfold AttendanceEvent.memberFits at hfits ⊢
  split
  · rename_i hstudent
    rw [if_pos hstudent] at hfits
    simp only [Bool.and_eq_true] at hfits ⊢
    refine ⟨hfits.1, ?_⟩
    cases hteacher : ({ event with data } : AttendanceEvent).teacher with
    | none => rfl
    | some teacher =>
        have hlisted : teacher ∈ data := List.mem_of_find?_eq_some hteacher
        have hteaches : teacher.isTeacher = true := List.find?_some hteacher
        have hfits := hmembers teacher (hperm.mem_iff.mpr hlisted)
        unfold AttendanceEvent.memberFits at hfits
        split at hfits
        · simp only [Bool.and_eq_true] at hfits
          exact hfits.1.1.1
        · rw [hteaches] at hfits
          exact hfits
  · rename_i hstudent
    rw [if_neg hstudent] at hfits
    exact hfits

theorem members_succeed (hcourse : fits event.courseID = true)
    (h : (Event.attendance event).processable p = true) :
    ∀ member ∈ event.data, (ingestMember p event event.teacher member).Succeeds := by
  obtain ⟨⟨hstart, hend⟩, hmembers⟩ := processable_attendance.mp h
  exact fun member hmember =>
    (ingestMember_spec p event member hcourse hstart hend).returns.mpr (hmembers member hmember)

/-- The course and the lesson of an attendance, before its members. -/
def attendanceHead (p : Platform) (event : AttendanceEvent) : StoreScript Unit :=
  ingestCourse p event >>= fun _ =>
    upsertLesson p (lessonKey event.toBaseEvent none) event.courseID (.ofText? event.className)
      (.ofInt? event.classStartTime) (.ofInt? event.classEndTime) .none none "webhook"

theorem exec_attendance {store : Store} (hadmitted : (Event.attendance event).Admitted)
    (h : (Event.attendance event).processable p = true) :
    (store.exec (handle p (.attendance event))).finds =
      (store.exec (attendanceHead p event)).finds.members p event event.teacher event.data := by
  have hsucceeds := (handle_spec p hadmitted).returns.mpr h
  obtain ⟨hcourse, hrest⟩ := Script.succeeds_bind_unit.mp hsucceeds
  obtain ⟨hlesson, _⟩ := Script.succeeds_bind_unit.mp hrest
  have hhead : store.exec (handle p (.attendance event)) = (store.exec (attendanceHead p event)).exec
      (Script.each event.data (ingestMember p event event.teacher)) := by
    simp only [handle, ingestAttendance, attendanceHead, Store.exec]
    rw [Script.exec_bind_unit, if_pos hcourse, Script.exec_bind_unit, if_pos hlesson,
      Script.exec_bind_unit, if_pos hcourse]
  rw [hhead, finds_exec_each (members_succeed hadmitted.course h)]

/-- The event table is no part of what the handlers write. -/
theorem finds_exec_events (store : Store) (events : EventLog) (s : StoreScript Unit) :
    ({ store with events } : Store).exec s = { store.exec s with events } := by
  unfold Store.exec Script.exec
  generalize s.writes = ws
  induction ws generalizing store with
  | nil => rfl
  | cons w ws ih =>
      rw [List.foldl_cons, List.foldl_cons, ← ih]
      cases w <;> rfl

/-- What a fresh attendance that raises nothing makes of the tables. -/
theorem finds_ingest_attendance {store : Store} {raw : PyValue} {row : EventRow}
    (hread : readEvent p raw = .ok (.attendance event, row))
    (hfresh : store.events.isDuplicate row.msgId = false)
    (h : (Event.attendance event).processable p = true) :
    (ingest p store raw).2.finds =
      (store.exec (attendanceHead p event)).finds.members p event event.teacher event.data := by
  rw [ingest_fresh p hread hfresh, finds_exec_events, ← exec_attendance (Event.admitted hread) h]
  rfl

/-- Two fresh attendances with the same members. -/
theorem finds_ingest_permuted {store : Store} {raw raw' : PyValue} {row row' : EventRow}
    (hdata : event.data.Perm data) (hdistinct : (event.data.map AttendanceMember.uid).Nodup)
    (hprocessable : (Event.attendance event).processable p = true)
    (hread : readEvent p raw = .ok (.attendance event, row))
    (hread' : readEvent p raw' = .ok (.attendance { event with data }, row'))
    (hfresh : store.events.isDuplicate row.msgId = false)
    (hfresh' : store.events.isDuplicate row'.msgId = false) :
    SameButTeacher (ingest p store raw).2.finds (ingest p store raw').2.finds ∧
      (({ event with data } : AttendanceEvent).teacher = event.teacher →
        (ingest p store raw).2.finds = (ingest p store raw').2.finds) := by
  have hprocessable' := processable_permuted hdata hprocessable
  rw [finds_ingest_attendance hread hfresh hprocessable,
    finds_ingest_attendance hread' hfresh' hprocessable']
  change SameButTeacher _ (((store.exec (attendanceHead p event)).finds.members p event
      ({ event with data } : AttendanceEvent).teacher data)) ∧ (_ → _ =
    ((store.exec (attendanceHead p event)).finds.members p event
      ({ event with data } : AttendanceEvent).teacher data))
  rw [← members_perm hdata hdistinct]
  have hsucceeds := members_succeed (Event.admitted hread).course hprocessable
  have hsucceeds' := members_succeed (Event.admitted hread').course hprocessable'
  refine ⟨(SameButTeacher.refl _).members hsucceeds fun member hmember =>
    hsucceeds' member (hdata.mem_iff.mp hmember), fun hteacher => ?_⟩
  rw [hteacher]

/-- The order of the members is immaterial to an attendance that raises nothing, except that the
records of its students name the first teacher or co-teacher of the list. -/
theorem ingest_permuted (p : Platform) (store : Store) (raw raw' : PyValue) (event : AttendanceEvent)
    (hpermuted : DataPermuted raw raw') (hevent : eventOf p raw = some (.attendance event))
    (hdistinct : (event.data.map AttendanceMember.uid).Nodup)
    (hprocessable : (Event.attendance event).processable p = true) :
    (∃ data, event.data.Perm data ∧ eventOf p raw' = some (.attendance { event with data }) ∧
      SameButTeacher (ingest p store raw).2.finds (ingest p store raw').2.finds ∧
      (({ event with data } : AttendanceEvent).teacher = event.teacher →
        (ingest p store raw).2.finds = (ingest p store raw').2.finds)) ∧
    ∀ row, readEvent p raw = .ok (.attendance event, row) →
      store.events.isDuplicate row.msgId = false →
        ∀ member ∈ event.data, member.isStudent = true →
          cellAt (ingest p store raw).2.records (lessonKey event.toBaseEvent none, member.uid)
              .teacherUid = intCell (event.teacher.map (·.uid)) ∧
            cellAt (ingest p store raw).2.records (lessonKey event.toBaseEvent none, member.uid)
              .teacherName = textCell (event.teacher.bind (·.name)) := by
  constructor
  · obtain ⟨data, hdata, hevent', hread'⟩ := readEvent_permuted hpermuted hevent
    refine ⟨data, hdata, hevent', ?_⟩
    rcases ingest_cases p store raw with ⟨e, hread⟩ | ⟨found, row, hread, hdup⟩ |
      ⟨found, row, hread, hfresh⟩
    · rw [hread] at hread'
      rw [ingest_refused p hread, ingest_refused p hread']
      exact ⟨.refl _, fun _ => rfl⟩
    · rw [hread] at hread'
      have hdup' : store.events.isDuplicate ({ row with payload := raw' } : EventRow).msgId = true := hdup
      rw [ingest_duplicate p hread hdup, ingest_duplicate p hread' hdup']
      exact ⟨.refl _, fun _ => rfl⟩
    · obtain rfl : found = .attendance event := by
        rw [eventOf_of_readEvent hread] at hevent
        exact Option.some.inj hevent
      rw [hread] at hread'
      have hfresh' : store.events.isDuplicate ({ row with payload := raw' } : EventRow).msgId = false :=
        hfresh
      exact finds_ingest_permuted hdata hdistinct hprocessable hread hread' hfresh hfresh'
  · intro row hread hfresh member hmember hstudent
    have hsucceeds := members_succeed (Event.admitted hread).course hprocessable member hmember
    have hcells := teacher_of_members hdistinct hmember hstudent hsucceeds
      (store.exec (attendanceHead p event)).finds
    rwa [← finds_ingest_attendance hread hfresh hprocessable] at hcells

end Permuted

/-- An attendance of lesson 5. -/
def attendanceOf (members : List PyValue) : PyValue :=
  .dict ([(.text "Cmd", .string "Attendance"), (.text "ClassID", .int 5)] ++
    (.text "Data", .list members) :: [])

def listedMember (uid identity : Int) : PyValue :=
  .object [("Uid", .int uid), ("Identity", .int identity), ("AttendanceTime", .int 60)]

theorem attendanceOf_permuted {members members' : List PyValue} (h : members.Perm members') :
    DataPermuted (attendanceOf members) (attendanceOf members') :=
  ⟨_, [], members, members', by decide, h, rfl, rfl⟩

/-- The members of an attendance of lesson 5, as they are read. -/
def readMembers (members : List (Int × Int)) : AttendanceEvent where
  cmd := "Attendance"
  classID := some 5
  courseID := none
  courseName := none
  actionTime := none
  timeStamp := none
  safeKey := none
  className := none
  classStartTime := none
  classEndTime := none
  data := members.map fun member => ⟨member.1, none, some member.2, 60, none, none⟩

/-- A student and a teacher in either order. -/
theorem studentAndTeacher_permuted : ∃ data,
    (readMembers [(9, 1), (7, 3)]).data.Perm data ∧
      SameButTeacher
        (ingest .plain .empty (attendanceOf [listedMember 9 1, listedMember 7 3])).2.finds
        (ingest .plain .empty (attendanceOf [listedMember 7 3, listedMember 9 1])).2.finds := by
  obtain ⟨⟨data, hdata, _, hsame, _⟩, _⟩ := ingest_permuted .plain .empty
    (attendanceOf [listedMember 9 1, listedMember 7 3])
    (attendanceOf [listedMember 7 3, listedMember 9 1]) (readMembers [(9, 1), (7, 3)])
    (attendanceOf_permuted (.swap ..)) rfl (by decide) (by decide)
  exact ⟨data, hdata, hsame⟩

/-- With a co-teacher before or after the teacher, the student's record names the one or the other. -/
theorem coTeacher_first :
    ¬∀ (p : Platform) (store : Store) (raw raw' : PyValue) (event : AttendanceEvent),
      DataPermuted raw raw' → eventOf p raw = some (.attendance event) →
        (event.data.map AttendanceMember.uid).Nodup →
          (ingest p store raw).2.finds = (ingest p store raw').2.finds := by
  intro hall
  have hfinds := hall .plain .empty
    (attendanceOf [listedMember 8 4, listedMember 7 3, listedMember 9 1])
    (attendanceOf [listedMember 7 3, listedMember 8 4, listedMember 9 1])
    (readMembers [(8, 4), (7, 3), (9, 1)]) (attendanceOf_permuted (.swap ..)) rfl (by decide)
  have hcells := congrArg (fun v : Finds => cellAt v.records ("5", 9) .teacherUid) hfinds
  exact absurd hcells (by decide)

end ClassinDashboard

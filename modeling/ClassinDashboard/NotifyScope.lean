import ClassinDashboard.RoutesNotify
import ClassinDashboard.ScopeVisibility
import Mathlib.Data.List.ReduceOption

/-!
Whom the notifications of a form are about. A send request reads the uids from the names of the
form's fields and never looks at the scope of its session.
-/

namespace ClassinDashboard

open Py Sql

/-! ### The messages of a form -/

/-- A message field whose name does not end in a uid. -/
def Malformed (field : String × String) : Prop :=
  ∃ suffix, suffixOf "message_" field.1 = some suffix ∧ intText suffix.toList = none

/-- The uid that a message field with a text is named after. -/
def addressee (field : String × String) : Option Int :=
  (suffixOf "message_" field.1).bind fun suffix =>
    if stripText field.2 = "" then none else intText suffix.toList

theorem intOf_string (text : String) : intOf (.string text) =
    match intText text.toList with
    | some n => .ok n
    | none => .error .valueError := rfl

/-- One field has a message unless its name is malformed. -/
theorem outgoingMessage_isOk {form : List (String × String)} {field : String × String} :
    (∃ message, outgoingMessage form field = .ok message) ↔ ¬Malformed field := by
  unfold outgoingMessage Malformed
  cases suffixOf "message_" field.1 with
  | none => simp
  | some suffix =>
      simp only [intOf_string, bind_isOk, Option.some.injEq, exists_eq_left']
      cases intText suffix.toList <;> simp [pure_eq_ok]

theorem addressee_outgoingMessage {form : List (String × String)} {field : String × String}
    {message : Option OutgoingMessage} (h : outgoingMessage form field = .ok message) :
    message.map OutgoingMessage.studentUid = addressee field := by
  unfold outgoingMessage at h
  unfold addressee
  cases hsuffix : suffixOf "message_" field.1 with
  | none =>
      rw [hsuffix] at h
      cases h
      rfl
  | some suffix =>
      rw [hsuffix] at h
      simp only [intOf_string] at h
      obtain ⟨uid, huid, h⟩ := bind_eq_ok.mp h
      cases htext : intText suffix.toList with
      | none =>
          rw [htext] at huid
          cases huid
      | some n =>
          rw [htext] at huid
          cases huid
          rw [← pure_eq_ok.mp h, Option.bind_some, htext]
          split <;> rfl

/-- The messages of a form are about the uids of its filled message fields. -/
theorem addressees_messages {form fields : List (String × String)}
    {messages : List (Option OutgoingMessage)}
    (h : fields.mapM (outgoingMessage form) = .ok messages) :
    messages.reduceOption.map OutgoingMessage.studentUid = fields.filterMap addressee := by
  have hmessages := mapM_eq_ok.mp h
  clear h
  induction hmessages with
  | nil => rfl
  | @cons field message fields messages hfield _ ih =>
      rw [List.filterMap_cons, ← addressee_outgoingMessage hfield]
      cases message with
      | none => rwa [List.reduceOption_cons_of_none]
      | some message =>
          rw [List.reduceOption_cons_of_some, List.map_cons, ih]
          rfl

/-! ### What is recorded -/

/-- The record of a message that is not sent anywhere. -/
def dryRecord (eventType : String) (message : OutgoingMessage) : NotifyEffect :=
  .record ⟨eventType, "dry_run", "dry_run", some message.studentUid, some message.studentName,
    some message.message, none⟩

theorem dispatchMessage_dry (eventType provider : String)
    (sender : Option (OutgoingMessage → Except String Unit)) (message : OutgoingMessage) :
    dispatchMessage eventType true sender provider message =
      if SqlValue.inRange message.studentUid then ⟨[dryRecord eventType message], .ok true⟩
      else ⟨[], .error .overflowError⟩ := by
  cases sender <;>
    cases hrange : SqlValue.inRange message.studentUid <;>
    simp only [dispatchMessage, appendNotification, bindInt, hrange, if_true, Bool.false_eq_true,
      if_false] <;>
    rfl

/-- A dry run records the messages up to the first uid that SQLite does not take. -/
theorem dispatch_dry (eventType provider : String)
    (sender : Option (OutgoingMessage → Except String Unit)) (messages : List OutgoingMessage) :
    (dispatch eventType true sender provider messages).writes =
      (messages.takeWhile fun message => SqlValue.inRange message.studentUid).map
        (dryRecord eventType) := by
  induction messages with
  | nil => rfl
  | cons message messages ih =>
      rw [dispatch, dispatchMessage_dry, List.takeWhile_cons]
      cases SqlValue.inRange message.studentUid with
      | false =>
          rw [if_neg Bool.false_ne_true, if_neg Bool.false_ne_true, Script.bind_of_error rfl,
            List.map_nil]
      | true =>
          rw [if_pos rfl, if_pos rfl, Script.bind_of_ok rfl, Script.writes_bind_return, ih,
            List.map_cons, List.singleton_append]

theorem messages_isOk {form : List (String × String)} :
    (∃ messages, form.mapM (outgoingMessage form) = .ok messages) ↔
      ∀ field ∈ form, ¬Malformed field := by
  rw [mapM_isOk]
  exact forall₂_congr fun _ _ => outgoingMessage_isOk

/-- A form with a malformed field is refused before anything is recorded. -/
theorem notifySend_malformed (session : Session) {form : List (String × String)}
    (h : ∃ field ∈ form, Malformed field) : (notifySend (some session) form).writes = [] := by
  obtain ⟨field, hfield, hmalformed⟩ := h
  unfold notifySend
  cases hmessages : form.mapM (outgoingMessage form) with
  | error e => rw [Script.bind_of_error (Script.lift_result _), Script.lift_writes]
  | ok messages => exact absurd hmalformed (messages_isOk.mp ⟨messages, hmessages⟩ field hfield)

/-- Any other form is recorded up to the first uid that SQLite does not take. -/
theorem notifySend_writes (session : Session) {form : List (String × String)}
    (h : ∀ field ∈ form, ¬Malformed field) : ∃ messages,
      form.mapM (outgoingMessage form) = .ok messages ∧
      (notifySend (some session) form).writes =
        (messages.reduceOption.takeWhile fun message => SqlValue.inRange message.studentUid).map
          (dryRecord "missing_homework") := by
  obtain ⟨messages, hmessages⟩ := messages_isOk.mpr h
  refine ⟨messages, hmessages, ?_⟩
  unfold notifySend
  rw [hmessages, Script.bind_of_ok (Script.lift_result _), Script.lift_writes, List.nil_append,
    Script.writes_bind_return, dispatch_dry]

theorem notifySend_uids (session : Session) {form : List (String × String)}
    (h : ∀ field ∈ form, ¬Malformed field) :
    (notifySend (some session) form).writes.map NotifyEffect.studentUid =
      ((form.filterMap addressee).takeWhile SqlValue.inRange).map some := by
  obtain ⟨messages, hmessages, hwrites⟩ := notifySend_writes session h
  rw [hwrites, ← addressees_messages hmessages, List.takeWhile_map, List.map_map, List.map_map]
  rfl

/-! ### Whom they are about -/

/-- A record of the student is visible. -/
def VisibleStudent (store : Store) (scope : Scope) (uid : Int) : Prop :=
  ∃ record ∈ lessonRecords store scope .none, record.studentUid = uid

/-- Every notification of a form is about a student of the sender's scope. -/
def NotifiesWithin (store : Store) (session : Session) (form : List (String × String)) : Prop :=
  ∀ effect ∈ (notifySend (some session) form).writes, ∃ uid, effect.studentUid = some uid ∧
    VisibleStudent store (scopeFor session store) uid

/-- A send request stays within its scope exactly when one of its fields is malformed, so that nothing
is recorded, or the form itself names nobody else. -/
theorem notifies_within_iff (store : Store) (session : Session) (form : List (String × String)) :
    NotifiesWithin store session form ↔ (∃ field ∈ form, Malformed field) ∨
      ∀ uid ∈ (form.filterMap addressee).takeWhile SqlValue.inRange,
        VisibleStudent store (scopeFor session store) uid := by
  unfold NotifiesWithin
  by_cases hmalformed : ∃ field ∈ form, Malformed field
  · rw [notifySend_malformed session hmalformed]
    exact iff_of_true (fun _ h => absurd h List.not_mem_nil) (.inl hmalformed)
  · have hfine : ∀ field ∈ form, ¬Malformed field := fun field hfield h => hmalformed ⟨field, hfield, h⟩
    have hwrites := List.forall_mem_map (l := (notifySend (some session) form).writes)
      (f := NotifyEffect.studentUid)
      (P := fun student => ∃ uid, student = some uid ∧
        VisibleStudent store (scopeFor session store) uid)
    rw [or_iff_right hmalformed, ← hwrites, notifySend_uids session hfine, List.forall_mem_map]
    simp only [Option.some.injEq, exists_eq_left']

/-- The attendance of one student in a lesson of a course, taught by a teacher. -/
def attendedLesson (id : String) (classId courseId studentUid teacherUid : Int) : PyValue := .object
  [("Cmd", .string "Attendance"), ("_id", .string id), ("ClassID", .int classId),
    ("CourseID", .int courseId), ("Data", .list [.object [("Uid", .int studentUid),
      ("AttendanceTime", .int 60)], .object [("Uid", .int teacherUid), ("Identity", .int 3)]])]

/-- Teacher 20001 teaches student 10001, and teacher 20007 student 10007. -/
def twoTeachersStore : Store := Store.empty.runOps .plain
  [.deliver (attendedLesson "a" 1 10 10001 20001), .deliver (attendedLesson "b" 2 20 10007 20007)]

def teacherKim : Session := ⟨"100", "default", .teacher, some 1, "kim", none, some 20001, none⟩

/-- The other teacher's student. -/
def strangerForm : List (String × String) :=
  [("name_10007", "박민수"), ("message_10007", "숙제를 아직 제출하지 않았어요.")]

/-- A teacher notifies a student that only another teacher's records show. -/
theorem stranger_notified :
    ¬∀ (store : Store) (session : Session) (form : List (String × String)),
      session.role ∈ [Role.manager, Role.teacher] → NotifiesWithin store session form := by
  intro h
  have huids : (notifySend (some teacherKim) strangerForm).writes.map NotifyEffect.studentUid =
      [some 10007] := by decide
  obtain ⟨effect, heffect, huid⟩ : ∃ effect ∈ (notifySend (some teacherKim) strangerForm).writes,
      effect.studentUid = some 10007 := List.mem_map.mp (huids ▸ List.mem_singleton.mpr rfl)
  obtain ⟨uid, hsame, record, hrecord, hstudent⟩ :=
    h twoTeachersStore teacherKim strangerForm (by decide) effect heffect
  cases huid.symm.trans hsame
  obtain ⟨hfind, _, hscope⟩ := mem_lessonRecords.mp hrecord
  have hinvisible : ∀ record ∈ twoTeachersStore.allRecords, record.studentUid = 10007 →
      record.inScope (twoTeachersStore.scopeKeys (scopeFor teacherKim twoTeachersStore)) = false := by
    decide
  rw [hinvisible record (mem_allRecords.mpr hfind) hstudent] at hscope
  cases hscope

end ClassinDashboard

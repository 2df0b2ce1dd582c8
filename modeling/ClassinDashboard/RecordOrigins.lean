import ClassinDashboard.IngestConvergence

/-!
Where the rows of the record table come from. A row exists exactly when an event of the run that was
applied writes it; the attendance of a lesson writes the rows of students only, but the end of a lesson
writes a row for everyone it has a total for.
-/

namespace ClassinDashboard

open Py Sql

variable (p : Platform)

/-! ### The events that are applied -/

/-- The events of a run that are handled: valid, and not seen before. -/
def appliedEvents (store : Store) : List PyValue → List Event
  | [] => []
  | raw :: raws =>
      (match readEvent p raw with
        | .ok (event, row) => if store.events.isDuplicate row.msgId then [] else [event]
        | .error _ => [])
        ++ appliedEvents (ingest p store raw).2 raws

theorem eventOf_of_applied {store : Store} {raws : List PyValue} {event : Event}
    (h : event ∈ appliedEvents p store raws) : event ∈ raws.filterMap (eventOf p) := by
  induction raws generalizing store with
  | nil => cases h
  | cons raw raws ih =>
      rw [appliedEvents] at h
      rw [List.mem_filterMap]
      rcases List.mem_append.mp h with h | h
      · cases hread : readEvent p raw with
        | error e =>
            rw [hread] at h
            cases h
        | ok admitted =>
            obtain ⟨found, row⟩ := admitted
            rw [hread] at h
            obtain ⟨_, h⟩ := List.mem_ite_nil_left.mp h
            rw [List.mem_singleton.mp h]
            exact ⟨raw, List.mem_cons_self, eventOf_of_readEvent hread⟩
      · obtain ⟨other, hother, heq⟩ := List.mem_filterMap.mp (ih h)
        exact ⟨other, List.mem_cons_of_mem _ hother, heq⟩

/-- The record map after a run is the one before it with the patches of the applied events. -/
theorem records_applied (store : Store) (raws : List PyValue) :
    (store.deliverAll p raws).records =
      ((appliedEvents p store raws).flatMap (Event.patches p)).foldl applyPatch store.records := by
  induction raws generalizing store with
  | nil => rfl
  | cons raw raws ih =>
      rw [Store.deliverAll, List.foldl_cons, ← Store.deliverAll, ih, appliedEvents,
        List.flatMap_append, List.foldl_append]
      congr 1
      rcases ingest_cases p store raw with ⟨e, hread⟩ | ⟨event, row, hread, hdup⟩ |
        ⟨event, row, hread, hfresh⟩
      · rw [ingest_refused p hread, hread]
        rfl
      · rw [ingest_duplicate p hread hdup, hread]
        simp [hdup]
        rfl
      · rw [records_ingest p hread hfresh, hread]
        simp [hfresh]

theorem isSome_applyPatch (records : Records) (change : RecordPatch) (key : RecordKey) :
    (applyPatch records change key).isSome = true ↔ (records key).isSome = true ∨ change.1 = key := by
  obtain ⟨changed, fields⟩ := change
  by_cases hkey : key = changed
  · subst hkey
    simp [applyPatch_self]
  · rw [applyPatch_of_ne records hkey]
    simp [Ne.symm hkey]

theorem isSome_foldl_applyPatch (changes : List RecordPatch) (records : Records) (key : RecordKey) :
    (changes.foldl applyPatch records key).isSome = true ↔
      (records key).isSome = true ∨ ∃ change ∈ changes, change.1 = key := by
  induction changes generalizing records with
  | nil => simp
  | cons change changes ih =>
      rw [List.foldl_cons, ih, isSome_applyPatch, List.exists_mem_cons_iff, or_assoc]

/-- A row exists after a run exactly when an applied event wrote it, or it was there before. -/
theorem record_exists_iff (store : Store) (raws : List PyValue) (key : RecordKey) :
    ((store.deliverAll p raws).lessonRecords.find key).isSome = true ↔
      (store.lessonRecords.find key).isSome = true ∨
        ∃ event ∈ appliedEvents p store raws, key ∈ event.keys p := by
  change ((store.deliverAll p raws).records key).isSome = true ↔ _
  rw [records_applied, isSome_foldl_applyPatch]
  refine or_congr Iff.rfl ?_
  simp only [List.mem_flatMap, Event.patches, Event.keys, List.mem_map]
  constructor
  · rintro ⟨_, ⟨event, hevent, w, hw, rfl⟩, rfl⟩
    exact ⟨event, hevent, w, hw, rfl⟩
  · rintro ⟨event, hevent, w, hw, rfl⟩
    exact ⟨_, ⟨event, hevent, w, hw, rfl⟩, rfl⟩

/-! ### Who has a row -/

/-- The members that an attendance lists. -/
def Event.members : Event → List AttendanceMember
  | .attendance event => event.data
  | _ => []

/-- The valid attendance events of a lesson name a uid, and never as a student; no homework of the
lesson is the uid's. -/
structure NeverStudent (raws : List PyValue) (lessonId : String) (uid : Int) : Prop where
  mentioned : ∃ event ∈ raws.filterMap (eventOf p), event.lessonKey = lessonId ∧
    ∃ member ∈ event.members, member.uid = uid
  nonStudent : ∀ event ∈ raws.filterMap (eventOf p), event.lessonKey = lessonId →
    ∀ member ∈ event.members, member.uid = uid → member.isStudent = false
  noHomework : ∀ event ∈ raws.filterMap (eventOf p),
    event.kind = some .homeworkSubmit ∨ event.kind = some .homeworkScore →
      event.lessonKey = lessonId → event.studentUid ≠ some uid

/-- One who is never a student of a lesson has no row exactly when no applied end of the lesson counts
anything for the uid. -/
theorem neverStudent_no_row_iff (raws : List PyValue) (lessonId : String) (uid : Int)
    (h : NeverStudent p raws lessonId uid) :
    (Store.empty.deliverAll p raws).lessonRecords.find (lessonId, uid) = none ↔
      ∀ event ∈ appliedEvents p Store.empty raws, event.kind = some .end →
        (lessonId, uid) ∉ event.keys p := by
  rw [← Option.not_isSome_iff_eq_none, record_exists_iff]
  constructor
  · intro hnone event hevent _ hkey
    exact hnone (.inr ⟨event, hevent, hkey⟩)
  · rintro hend (hold | ⟨event, hevent, hkey⟩)
    · cases hold
    · have hvalid := eventOf_of_applied p hevent
      obtain ⟨⟨student, fields⟩, hw, heq⟩ := List.mem_map.mp hkey
      obtain ⟨hlesson, rfl⟩ := Prod.mk.inj heq
      have hset : SetBy p event student fields := setBy_of_mem p hw
      cases hset with
      | attendance student _ _ _ =>
          have hnot := h.nonStudent _ hvalid hlesson _ student.1 rfl
          rw [student.2] at hnot
          cases hnot
      | «end» _ _ _ => exact hend _ hevent rfl hkey
      | homeworkSubmit student _ => exact h.noHomework _ hvalid (.inl rfl) hlesson student
      | homeworkScore student => exact h.noHomework _ hvalid (.inr rfl) hlesson student

/-- A lesson with a student and a teacher. -/
def taughtClass : PyValue := .object
  [("Cmd", .string "Attendance"), ("_id", .string "a"), ("ClassID", .int 5), ("CourseID", .int 3),
    ("Data", .list [.object [("Uid", .int 9), ("Identity", .int 1), ("AttendanceTime", .int 60)],
      .object [("Uid", .int 7), ("Identity", .int 3)]])]

/-- The end of the lesson, in which one of the two raised a hand. -/
def handRaised (uid : String) : PyValue := .object
  [("Cmd", .string "End"), ("_id", .string "b"), ("ClassID", .int 5), ("CourseID", .int 3),
    ("Data", .object [("handsupEnd", .object [(uid, .object [("Total", .int 2)])])])]

theorem studentRaises_no_row :
    (Store.empty.deliverAll .plain [taughtClass, handRaised "9"]).lessonRecords.find ("5", 7) = none :=
  (neverStudent_no_row_iff .plain [taughtClass, handRaised "9"] "5" 7
    ⟨by decide +kernel, by decide +kernel, by decide +kernel⟩).mpr (by decide +kernel)

/-- The teacher raises a hand and becomes a row. -/
theorem teacherRaises_row :
    ¬∀ (p : Platform) (raws : List PyValue) (lessonId : String) (uid : Int),
      NeverStudent p raws lessonId uid →
        (Store.empty.deliverAll p raws).lessonRecords.find (lessonId, uid) = none := by
  intro hall
  have hnone := hall .plain [taughtClass, handRaised "7"] "5" 7
    ⟨by decide, by decide, by decide⟩
  have hsome : ((Store.empty.deliverAll .plain
      [taughtClass, handRaised "7"]).lessonRecords.find ("5", 7)).isSome = true := by
    decide +kernel
  rw [hnone] at hsome
  cases hsome

end ClassinDashboard

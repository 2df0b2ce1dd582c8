import ClassinDashboard.IngestPatches
import Mathlib.Data.List.Pairwise

/-!
The order of arrival does not matter to the record table. Each kind of event owns its columns and
`course_id` is the only shared one, so the patches of two events commute wherever they meet.
-/

namespace ClassinDashboard

open Py Sql

variable (p : Platform)

/-! ### Kinds and the columns they own -/

inductive Kind
  | attendance | «end» | homeworkSubmit | homeworkScore
  deriving DecidableEq

/-- The kind of an event that writes records. -/
def Event.kind : Event → Option Kind
  | .attendance _ => some .attendance
  | .end _ => some .end
  | .homeworkSubmit _ => some .homeworkSubmit
  | .homeworkScore _ => some .homeworkScore
  | _ => none

/-- The kind of event that writes a column; every kind writes `course_id`. -/
def Column.kind : Column → Option Kind
  | courseId => none
  | courseName | className | lessonDate | classStart | classEnd | attendance | attendanceSeconds
  | teacherUid | teacherName => some .attendance
  | cameraMinutes | handRaise | trophy | poll => some .end
  | homeworkSubmitted | homeworkLate | homeworkActivityId => some .homeworkSubmit
  | homeworkScore => some .homeworkScore

/-- An event sets columns of its own kind beside the course id, and that to its own course. -/
theorem SetBy.columns {p : Platform} {event : Event} {uid : Int}
    {fields : List (Column × PyValue)} (h : SetBy p event uid fields) :
    (∀ field ∈ fields, field.1 = .courseId ∨ field.1.kind = event.kind) ∧
      fields.lookup .courseId = some (.ofInt? event.base.courseID) := by
  cases h with
  | attendance _ _ _ set =>
      obtain ⟨_, _, set⟩ := bind_eq_ok.mp set
      obtain ⟨_, _, set⟩ := bind_eq_ok.mp set
      cases set
      refine ⟨fun field hfield => ?_, rfl⟩
      fin_cases hfield <;> first | exact Or.inl rfl | exact Or.inr rfl
  | «end» _ _ _ =>
      refine ⟨fun field hfield => ?_, rfl⟩
      simp only [EndTotals.fields, List.mem_cons, List.mem_append, List.mem_map, List.cons_append,
        List.append_assoc] at hfield
      rcases hfield with rfl | ⟨_, _, rfl⟩ | ⟨_, _, rfl⟩ | ⟨_, _, rfl⟩ | ⟨_, _, rfl⟩
      · exact Or.inl rfl
      all_goals exact Or.inr rfl
  | homeworkSubmit _ _ =>
      refine ⟨fun field hfield => ?_, rfl⟩
      fin_cases hfield <;> first | exact Or.inl rfl | exact Or.inr rfl
  | homeworkScore _ =>
      refine ⟨fun field hfield => ?_, rfl⟩
      fin_cases hfield <;> first | exact Or.inl rfl | exact Or.inr rfl

/-- A bound column is a column of the fields, with its value bound. -/
theorem lookup_bound {fields : List (Column × PyValue)} {c : Column} {cell : SqlValue}
    (h : (bound p fields).lookup c = some cell) :
    ∃ value, fields.lookup c = some value ∧ c.type.bind p value = .ok cell := by
  unfold bound at h
  cases hbind : bindFields p fields with
  | error e =>
      rw [hbind] at h
      cases h
  | ok cells =>
      simp only [hbind, Except.toOption, Option.getD_some] at h
      rw [lookup_bindFields p hbind c] at h
      obtain ⟨value, hvalue, h⟩ := Option.bind_eq_some_iff.mp h
      refine ⟨value, hvalue, ?_⟩
      cases hcell : c.type.bind p value with
      | error e => simp [hcell, Except.toOption] at h
      | ok bound => simpa [hcell, Except.toOption] using h

/-- Fields of two events of different kinds and the same course commute on any row. -/
theorem patch_comm_of_kind {event other : Event} {uid uid' : Int}
    {fields others : List (Column × PyValue)} (h : SetBy p event uid fields)
    (h' : SetBy p other uid' others) (hkind : event.kind ≠ other.kind)
    (hcourse : event.base.courseID = other.base.courseID) (row : Cells) :
    patch (patch row (bound p fields)) (bound p others) =
      patch (patch row (bound p others)) (bound p fields) := by
  apply patch_comm
  intro c
  cases hleft : (bound p fields).lookup c with
  | none => exact Or.inl rfl
  | some cell =>
      cases hright : (bound p others).lookup c with
      | none => exact Or.inr (Or.inl rfl)
      | some cell' =>
          obtain ⟨value, hvalue, hcell⟩ := lookup_bound p hleft
          obtain ⟨value', hvalue', hcell'⟩ := lookup_bound p hright
          have hshared : c = .courseId := by
            have hmem := h.columns.1 _ (Table.mem_of_lookup hvalue)
            have hmem' := h'.columns.1 _ (Table.mem_of_lookup hvalue')
            rcases hmem with hc | hk
            · exact hc
            · rcases hmem' with hc | hk'
              · exact hc
              · exact absurd (hk.symm.trans hk') hkind
          subst hshared
          rw [h.columns.2] at hvalue
          rw [h'.columns.2, ← hcourse] at hvalue'
          rw [Option.some.inj (hvalue.symm.trans hvalue'), hcell'] at hcell
          exact Or.inr (Or.inr (congrArg some (Except.ok.inj hcell.symm)))

/-! ### Two events -/

/-- The rows that an event writes. -/
def Event.keys (event : Event) : List RecordKey :=
  (event.recordFields p).map fun w => (event.lessonKey, w.1)

/-- Two payloads of one kind write different rows, and two that write rows of one lesson name the
same course. -/
def Compatible (raw other : PyValue) : Prop :=
  ∀ a ∈ eventOf p raw, ∀ b ∈ eventOf p other,
    (a.kind = b.kind → ∀ key ∈ a.keys p, key ∉ b.keys p) ∧
    (a.lessonKey = b.lessonKey → a.keys p ≠ [] → b.keys p ≠ [] →
      a.base.courseID = b.base.courseID)

instance : DecidableRel (Compatible p) := fun raw other =>
  inferInstanceAs (Decidable (∀ a ∈ eventOf p raw, ∀ b ∈ eventOf p other,
    (a.kind = b.kind → ∀ key ∈ a.keys p, key ∉ b.keys p) ∧
    (a.lessonKey = b.lessonKey → a.keys p ≠ [] → b.keys p ≠ [] →
      a.base.courseID = b.base.courseID)))

instance : Std.Symm (Compatible p) where
  symm raw other h a ha b hb := by
    obtain ⟨hkeys, hcourse⟩ := h b hb a ha
    refine ⟨fun hk key hkey hkey' => hkeys hk.symm key hkey' hkey, fun hl hne hne' => ?_⟩
    exact (hcourse hl.symm hne' hne).symm

theorem applyPatch_comm {a b : RecordPatch}
    (h : a.1 = b.1 → ∀ row : Cells, patch (patch row a.2) b.2 = patch (patch row b.2) a.2)
    (records : Records) :
    applyPatch (applyPatch records a) b = applyPatch (applyPatch records b) a := by
  unfold applyPatch
  by_cases hkey : a.1 = b.1
  · rw [hkey, Function.update_self, Function.update_self, Function.update_idem,
      Function.update_idem, Option.getD_some, Option.getD_some, h hkey]
  · rw [Function.update_of_ne (Ne.symm hkey), Function.update_of_ne hkey,
      Function.update_comm (Ne.symm hkey)]

/-- The effect of a fresh payload on the record map. -/
def effect (records : Records) (raw : PyValue) : Records :=
  match readEvent p raw with
  | .ok (event, _) => (event.patches p).foldl applyPatch records
  | .error _ => records

theorem effect_comm {raw other : PyValue} (h : Compatible p raw other) (records : Records) :
    effect p (effect p records raw) other = effect p (effect p records other) raw := by
  unfold effect
  cases hraw : readEvent p raw with
  | error e => rfl
  | ok admitted =>
      cases hother : readEvent p other with
      | error e => rfl
      | ok admitted' =>
          obtain ⟨event, row⟩ := admitted
          obtain ⟨event', row'⟩ := admitted'
          obtain ⟨hkeys, hcourse⟩ := h event (eventOf_of_readEvent hraw) event'
            (eventOf_of_readEvent hother)
          apply foldl_foldl_comm applyPatch
          intro a ha b hb s
          obtain ⟨w, hw, rfl⟩ := List.mem_map.mp ha
          obtain ⟨w', hw', rfl⟩ := List.mem_map.mp hb
          apply applyPatch_comm
          intro hsame cells
          replace hsame : (event.lessonKey, w.1) = (event'.lessonKey, w'.1) := hsame
          have hmem : (event.lessonKey, w.1) ∈ event.keys p := List.mem_map_of_mem hw
          have hmem' : (event.lessonKey, w.1) ∈ event'.keys p := by
            rw [hsame]
            exact List.mem_map_of_mem hw'
          refine patch_comm_of_kind p (setBy_of_mem p hw) (setBy_of_mem p hw')
            (fun hkind => hkeys hkind _ hmem hmem') ?_ cells
          exact hcourse (Prod.mk.inj hsame).1 (List.ne_nil_of_mem hmem) (List.ne_nil_of_mem hmem')

/-! ### A list of events -/

/-- The message ids of a list of payloads are distinct and none of them was seen. -/
structure Fresh (store : Store) (raws : List PyValue) : Prop where
  distinct : (raws.filterMap (messageId p)).Nodup
  unseen : ∀ m, PyStr.text m ∈ raws.filterMap (messageId p) → m ∉ store.events.seen

theorem Fresh.perm {p : Platform} {store : Store} {raws raws' : List PyValue}
    (h : Fresh p store raws) (hperm : raws.Perm raws') : Fresh p store raws' :=
  have hids := hperm.filterMap (messageId p)
  ⟨hids.nodup_iff.mp h.distinct, fun m hm => h.unseen m (hids.mem_iff.mpr hm)⟩

theorem Fresh.head {p : Platform} {store : Store} {raw : PyValue} {raws : List PyValue}
    (h : Fresh p store (raw :: raws)) {event : Event} {row : EventRow}
    (hread : readEvent p raw = .ok (event, row)) : store.events.isDuplicate row.msgId = false := by
  have hid := msgId_of_readEvent hread
  cases hm : row.msgId with
  | none => rfl
  | some m =>
      rw [hm] at hid
      have hunseen := h.unseen m (by rw [List.filterMap_cons, hid]; exact List.mem_cons_self)
      simpa [EventLog.isDuplicate] using hunseen

theorem Fresh.tail {p : Platform} {store : Store} {raw : PyValue} {raws : List PyValue}
    (h : Fresh p store (raw :: raws)) : Fresh p (ingest p store raw).2 raws := by
  have hdistinct := h.distinct
  have hunseen := h.unseen
  rw [List.filterMap_cons] at hdistinct hunseen
  refine ⟨?_, fun m hm hseen => ?_⟩
  · split at hdistinct
    · exact hdistinct
    · exact (List.nodup_cons.mp hdistinct).2
  · have hold : m ∉ store.events.seen := by
      refine hunseen m ?_
      split
      · exact hm
      · exact List.mem_cons_of_mem _ hm
    rcases mem_seen_ingest p hseen with hseen | ⟨event, row, hread, _, hid⟩
    · exact hold hseen
    · rw [msgId_of_readEvent hread, hid] at hdistinct
      exact (List.nodup_cons.mp hdistinct).1 hm

theorem records_ingest_fresh {store : Store} {raw : PyValue} {raws : List PyValue}
    (h : Fresh p store (raw :: raws)) :
    (ingest p store raw).2.records = effect p store.records raw := by
  unfold effect
  cases hread : readEvent p raw with
  | error e => rw [ingest_refused p hread]
  | ok admitted => exact records_ingest p hread (h.head hread)

theorem records_deliverAll {store : Store} {raws : List PyValue} (h : Fresh p store raws) :
    (store.deliverAll p raws).records = raws.foldl (effect p) store.records := by
  induction raws generalizing store with
  | nil => rfl
  | cons raw raws ih =>
      rw [Store.deliverAll, List.foldl_cons, List.foldl_cons, ← records_ingest_fresh p h]
      exact ih h.tail

/-- The order of arrival does not matter: any permutation of fresh, pairwise compatible payloads
leaves the same rows in the record table. They need not even return: what a handler writes before it
raises does not depend on the store either. -/
theorem lessonRecords_perm {store : Store} {raws raws' : List PyValue} (hperm : raws.Perm raws')
    (hfresh : Fresh p store raws) (hcompatible : raws.Pairwise (Compatible p)) :
    (store.deliverAll p raws).lessonRecords.rows.Perm
      (store.deliverAll p raws').lessonRecords.rows := by
  apply Table.rows_perm_of_find
  show (store.deliverAll p raws).records = (store.deliverAll p raws').records
  rw [records_deliverAll p hfresh, records_deliverAll p (hfresh.perm hperm)]
  apply hperm.foldl_eq'
  intro raw hraw other hother records
  by_cases hne : raw = other
  · rw [hne]
  · exact effect_comm p (hcompatible.forall hraw hother hne) records

/-- One lesson of one student, told by all four kinds. -/
def oneLesson : List PyValue :=
  [.object [("Cmd", .string "Attendance"), ("_id", .string "a"), ("ClassID", .int 5),
      ("CourseID", .int 3), ("Data", .list [.object [("Uid", .int 9), ("AttendanceTime", .int 60)]])],
    .object [("Cmd", .string "End"), ("_id", .string "b"), ("ClassID", .int 5), ("CourseID", .int 3),
      ("Data", .object [("awardEnd", .object [("9", .object [("Total", .int 2)])])])],
    .object [("Cmd", .string "HomeworkSubmit"), ("_id", .string "c"), ("ClassID", .int 5),
      ("CourseID", .int 3), ("Data", .object [("ActivityId", .int 77),
        ("StudentInfo", .object [("StudentUid", .int 9)])])],
    .object [("Cmd", .string "HomeworkScore"), ("_id", .string "d"), ("ClassID", .int 5),
      ("CourseID", .int 3), ("Data", .object [("ActivityId", .int 77), ("Score", .int 80),
        ("StudentInfo", .object [("StudentUid", .int 9)])])]]

theorem oneLesson_converges :
    (Store.empty.deliverAll .plain oneLesson).lessonRecords.rows.length = 1 ∧
      (Store.empty.deliverAll .plain oneLesson).lessonRecords.rows.Perm
        (Store.empty.deliverAll .plain oneLesson.reverse).lessonRecords.rows :=
  ⟨by decide +kernel, lessonRecords_perm .plain (List.reverse_perm _).symm
    ⟨by decide +kernel, fun _ _ => List.not_mem_nil⟩ (by decide +kernel)⟩

end ClassinDashboard

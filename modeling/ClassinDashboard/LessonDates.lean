import ClassinDashboard.IngestConvergence
import ClassinDashboard.PyIsoTime
import ClassinDashboard.ReadNoninterference
import ClassinDashboard.RecordRetention

/-!
The dates of lessons as they are stored: the UTC text of a start, or NULL. Every run of deliveries
keeps them so, and the window and the order of the record table, which compare texts, are those of the
instants.
-/

namespace ClassinDashboard

open Py Sql

/-! ### Stored dates -/

/-- The cell of a lesson that starts at a timestamp. -/
def StoredAs (cell : SqlValue) (ts : Int) : Prop :=
  ts ≠ 0 ∧ ∃ s, utcIsoformat ts = .ok s ∧ cell = .text s

/-- A lesson without a start is undated. -/
def IsoCell (cell : SqlValue) : Prop := cell = .null ∨ ∃ ts, StoredAs cell ts

/-- All dates are as an ingest writes them. -/
def Store.IsoDates (store : Store) : Prop :=
  ∀ key, IsoCell (cellAt store.records key .lessonDate)

/-- A start that is stored is not zero. -/
theorem iso_of_some {ts : Int} {s : String} (h : iso (some ts) = .ok (some s)) :
    ts ≠ 0 ∧ utcIsoformat ts = .ok s := by
  unfold iso at h
  cases hts : nonzero (some ts) with
  | none =>
      rw [hts] at h
      cases h
  | some n =>
      rw [hts] at h
      obtain ⟨hn, hne⟩ := Option.filter_eq_some_iff.mp hts
      cases hn
      obtain ⟨s', hs, heq⟩ := map_eq_ok.mp h
      cases heq
      exact ⟨by simpa using hne, hs⟩

/-- The cell that an ingest makes of a start. -/
theorem isoCell_iso {ts : Option Int} {date : Option String} (h : iso ts = .ok date) :
    IsoCell ((date.map SqlValue.text).getD .null) := by
  unfold iso at h
  cases hts : nonzero ts with
  | none =>
      rw [hts] at h
      cases h
      exact .inl rfl
  | some n =>
      rw [hts] at h
      obtain ⟨s, hs, rfl⟩ := map_eq_ok.mp h
      obtain ⟨-, hne⟩ := Option.filter_eq_some_iff.mp hts
      exact .inr ⟨n, by simpa using hne, s, hs, rfl⟩

/-- The dates that one event writes. -/
theorem isoCell_patch {p : Platform} {event : Event} {change : RecordPatch}
    (h : change ∈ event.patches p) {cell : SqlValue}
    (hcell : change.2.lookup .lessonDate = some cell) : IsoCell cell := by
  obtain ⟨uid, fields, hmem, rfl⟩ := mem_patches p h
  obtain ⟨value, hvalue, hbind⟩ := lookup_bound p hcell
  have hset := setBy_of_mem p hmem
  have hkind := (hset.columns.1 _ (Table.mem_of_lookup hvalue)).resolve_left fun h => nomatch h
  cases hset with
  | attendance _ _ _ set =>
      obtain ⟨date, hdate, set⟩ := bind_eq_ok.mp set
      obtain ⟨_, _, set⟩ := bind_eq_ok.mp set
      cases set
      cases hvalue
      have hiso := isoCell_iso hdate
      cases date <;> cases hbind <;> exact hiso
  | «end» _ _ _ => cases hkind
  | homeworkSubmit _ _ => cases hkind
  | homeworkScore _ => cases hkind

/-- What holds of a cell and of all that is written into its column holds of the cell afterwards. -/
theorem cellAt_foldl_keeps {P : SqlValue → Prop} {c : Column} {key : RecordKey}
    {changes : List RecordPatch} {records : Records} (hcell : P (cellAt records key c))
    (h : ∀ change ∈ changes, ∀ cell, change.2.lookup c = some cell → P cell) :
    P (cellAt (changes.foldl applyPatch records) key c) := by
  induction changes generalizing records with
  | nil => exact hcell
  | cons change changes ih =>
      apply ih _ fun other hother => h other (List.mem_cons_of_mem _ hother)
      rw [cellAt_applyPatch]
      split
      · cases hlookup : change.2.lookup c with
        | none => exact hcell
        | some cell => exact h change List.mem_cons_self cell hlookup
      · exact hcell

/-- A write of the program outside an ingest: on another table. -/
def Op.sparesRecords : Op → Prop
  | .deliver _ => True
  | .write w => w.asPatch = none

section Runs

variable {p : Platform} {store : Store}

/-- What holds of all cells of a column and of all that an event writes there holds after a step. -/
theorem cells_step {P : SqlValue → Prop} {c : Column}
    (hwrites : ∀ event : Event, ∀ change ∈ event.patches p, ∀ cell, change.2.lookup c = some cell → P cell)
    {op : Op} (hop : op.sparesRecords) (h : ∀ key, P (cellAt store.records key c)) (key : RecordKey) :
    P (cellAt (store.step p op).records key c) := by
  cases op with
  | deliver raw =>
      refine ingest_keeps p (P := fun after => P (cellAt after.records key c))
        (h key) (h key) fun event row hread hfresh => ?_
      rw [records_ingest p hread hfresh]
      exact cellAt_foldl_keeps (h key) (hwrites event)
  | write w =>
      have hother : w.asPatch = none := hop
      rw [Store.step, records_write, hother]
      exact h key

theorem cells_run {P : SqlValue → Prop} {c : Column}
    (hwrites : ∀ event : Event, ∀ change ∈ event.patches p, ∀ cell, change.2.lookup c = some cell → P cell)
    {ops : List Op} (hops : ∀ op ∈ ops, op.sparesRecords) (h : ∀ key, P (cellAt store.records key c)) :
    ∀ key, P (cellAt (store.runOps p ops).records key c) := by
  induction ops generalizing store with
  | nil => exact h
  | cons op ops ih =>
      obtain ⟨hop, hrest⟩ := List.forall_mem_cons.mp hops
      exact ih hrest (cells_step hwrites hop h)

/-- Every run of the program keeps the dates as an ingest writes them. -/
theorem isoDates_run {ops : List Op} (hops : ∀ op ∈ ops, op.sparesRecords) (h : store.IsoDates) :
    (store.runOps p ops).IsoDates :=
  cells_run (fun _ _ hchange _ => isoCell_patch hchange) hops h

theorem isoDates_empty : Store.empty.IsoDates := fun _ => .inl rfl

end Runs

/-! ### The window -/

section Window

variable {cutoff : DateTime} {ts : Int}

/-- Stored texts compare with the text of a cutoff as the instants do. -/
theorem isoformat_le_iff (hutc : cutoff.offset = some .utc) {s : String} (h : utcIsoformat ts = .ok s) :
    cutoff.isoformat "T" "+00:00" ≤ s ↔ cutoff.wallMicroseconds ≤ 1000000 * ts := by
  obtain ⟨t, ht, rfl⟩ := DateTime.utcIsoformat_eq_ok.mp h
  rw [← not_lt, DateTime.isoformat_lt (DateTime.offset_ofTimestamp? ht) hutc,
    DateTime.wallMicroseconds_ofTimestamp? ht, not_lt]

theorem utcIsoformat_le {a b : Int} {s t : String} (hs : utcIsoformat a = .ok s)
    (ht : utcIsoformat b = .ok t) : s ≤ t ↔ a ≤ b := by
  obtain ⟨first, hfirst, rfl⟩ := DateTime.utcIsoformat_eq_ok.mp hs
  rw [isoformat_le_iff (DateTime.offset_ofTimestamp? hfirst) ht,
    DateTime.wallMicroseconds_ofTimestamp? hfirst]
  omega

theorem StoredAs.unique {cell : SqlValue} {a b : Int} (ha : StoredAs cell a) (hb : StoredAs cell b) :
    a = b := by
  obtain ⟨-, s, hs, rfl⟩ := ha
  obtain ⟨-, t, ht, heq⟩ := hb
  cases heq
  exact le_antisymm ((utcIsoformat_le hs ht).mp le_rfl) ((utcIsoformat_le ht hs).mp le_rfl)

/-- The window takes the dated records that start at the cutoff or later. -/
theorem onOrAfter_iff (hutc : cutoff.offset = some .utc) {cell : SqlValue} (h : IsoCell cell) :
    onOrAfter cell (cutoff.isoformat "T" "+00:00") = true ↔
      ∃ ts, StoredAs cell ts ∧ cutoff.wallMicroseconds ≤ 1000000 * ts := by
  rcases h with rfl | ⟨start, hstart⟩
  · constructor
    · intro h
      cases h
    · rintro ⟨ts, ⟨-, s, -, hcell⟩, -⟩
      cases hcell
  · obtain ⟨-, s, hs, rfl⟩ := id hstart
    have hwindow : onOrAfter (.text s) (cutoff.isoformat "T" "+00:00") = true ↔
        cutoff.wallMicroseconds ≤ 1000000 * start := by
      rw [← isoformat_le_iff hutc hs]
      exact decide_eq_true_iff
    rw [hwindow]
    constructor
    · exact fun h => ⟨start, hstart, h⟩
    · rintro ⟨ts, hts, h⟩
      rw [hstart.unique hts]
      exact h

theorem isoformat_ne_empty (t : DateTime) : t.isoformat "T" "+00:00" ≠ "" := by
  intro h
  have hlength := congrArg (fun s => s.toList.length) h
  simp only [DateTime.isoformat, String.toList_append, List.length_append, Date.length_isoformat,
    String.toList_empty, List.length_nil] at hlength
  omega

/-- The one condition of a window. -/
theorem matches_since_iff {since : String} (hne : since ≠ "") {record : LessonRecord} :
    ({ RecordFilter.none with since := some since } : RecordFilter).matches record = true ↔
      onOrAfter (record.cells .lessonDate) since = true := by
  have hsince : (some since).filter (· ≠ "") = some since :=
    Option.filter_eq_some_iff.mpr ⟨rfl, decide_eq_true hne⟩
  simp only [RecordFilter.matches, RecordFilter.none, hsince, Option.all_none, Option.all_some,
    Option.filter_none, Bool.true_and, Bool.and_true]

/-- The order of the records is that of their starts. -/
theorem laterFirst_stored {a b : LessonRecord} {first second : Int} (h : laterFirst a b = true)
    (ha : StoredAs (a.cells .lessonDate) first) (hb : StoredAs (b.cells .lessonDate) second) :
    second ≤ first := by
  obtain ⟨-, s, hs, hsa⟩ := ha
  obtain ⟨-, t, ht, htb⟩ := hb
  rw [laterFirst, hsa, htb] at h
  exact (utcIsoformat_le ht hs).mp (of_decide_eq_true h)

theorem pairwise_lessonRecords (store : Store) (scope : Scope) (filter : RecordFilter) :
    (lessonRecords store scope filter).Pairwise fun a b => laterFirst a b = true :=
  (List.pairwise_mergeSort laterFirst_trans laterFirst_total _).filter _

theorem nodup_lessonRecords (store : Store) (scope : Scope) (filter : RecordFilter) :
    (lessonRecords store scope filter).Nodup := by
  have hall : store.allRecords.Nodup := by
    have hkeys : (store.allRecords.map fun r => (r.lessonId, r.studentUid)).Nodup := by
      rw [Store.allRecords, List.map_map]
      exact store.lessonRecords.keys_nodup
    exact hkeys.of_map _
  exact ((List.mergeSort_perm _ _).nodup_iff.mpr (hall.filter _)).filter _

theorem mem_windowRecords {store : Store} {scope : Scope} {record : LessonRecord}
    (hutc : cutoff.offset = some .utc) (hdates : store.IsoDates) :
    record ∈ windowRecords store scope (cutoff.isoformat "T" "+00:00") ↔
      record ∈ store.allRecords ∧ record.inScope (store.scopeKeys scope) = true ∧
        ∃ ts, StoredAs (record.cells .lessonDate) ts ∧ cutoff.wallMicroseconds ≤ 1000000 * ts := by
  rw [windowRecords, mem_lessonRecords, matches_since_iff (isoformat_ne_empty cutoff), mem_allRecords]
  refine and_congr_right fun hrow => ?_
  have hcell : IsoCell (record.cells .lessonDate) := by
    have hcell := hdates (record.lessonId, record.studentUid)
    rw [cellAt, Store.records, hrow] at hcell
    exact hcell
  rw [and_comm, onOrAfter_iff hutc hcell]

end Window

/-- A stored start compares with a cutoff as the instants do; and the window of a cutoff is the
in-scope records from it on, each once, the latest first. -/
theorem window_exact (cutoff : DateTime) (hutc : cutoff.offset = some .utc) :
    (∀ ts s, iso (some ts) = .ok (some s) →
      (cutoff.isoformat "T" "+00:00" ≤ s ↔ cutoff.wallMicroseconds ≤ 1000000 * ts)) ∧
    ∀ (store : Store) (scope : Scope), store.IsoDates →
      let rows := windowRecords store scope (cutoff.isoformat "T" "+00:00")
      rows.Nodup ∧
      (∀ record, record ∈ rows ↔ record ∈ store.allRecords ∧
        record.inScope (store.scopeKeys scope) = true ∧
          ∃ ts, StoredAs (record.cells .lessonDate) ts ∧ cutoff.wallMicroseconds ≤ 1000000 * ts) ∧
      rows.Pairwise fun a b => ∀ first second, StoredAs (a.cells .lessonDate) first →
        StoredAs (b.cells .lessonDate) second → second ≤ first := by
  constructor
  · intro ts s h
    exact isoformat_le_iff hutc (iso_of_some h).2
  · intro store scope hdates rows
    refine ⟨nodup_lessonRecords _ _ _, fun record => ?_, ?_⟩
    · exact mem_windowRecords hutc hdates
    · exact (pairwise_lessonRecords _ _ _).imp fun h first second => laterFirst_stored h

/-- Midnight of 6 May 2026 and half a second. -/
def halfPastMidnight : DateTime :=
  ⟨⟨.sixthOfMay2026, .onHour 0 (by decide)⟩, 500000, by decide, some .utc⟩

/-- At midnight the text without a fraction comes before the cutoff, one second later after it. -/
example : ¬ halfPastMidnight.isoformat "T" "+00:00" ≤ "2026-05-06T00:00:00+00:00" ∧
    halfPastMidnight.isoformat "T" "+00:00" ≤ "2026-05-06T00:00:01+00:00" := by decide

/-- An attendance of a lesson at one second past midnight. -/
def midnightAttendance : PyValue := .object
  [("Cmd", .string "Attendance"), ("_id", .string "a"), ("ClassID", .int 5), ("CourseID", .int 3),
    ("ClassStartTime", .int 1778025601),
    ("Data", .list [.object [("Uid", .int 9), ("AttendanceTime", .int 60)]])]

example : (windowRecords (Store.empty.runOps .plain [.deliver midnightAttendance]) .all
    (halfPastMidnight.isoformat "T" "+00:00")).map LessonRecord.studentUid = [9] := by decide +kernel

/-- An attendance of a lesson of a course, taught by one teacher. -/
def attendanceAt (id : String) (classId courseId startTime : Int) (uids : List Int) : PyValue := .object
  [("Cmd", .string "Attendance"), ("_id", .string id), ("ClassID", .int classId),
    ("CourseID", .int courseId), ("ClassStartTime", .int startTime),
    ("Data", .list (.object [("Uid", .int 20), ("Identity", .int 3)] ::
      uids.map fun uid => .object [("Uid", .int uid), ("AttendanceTime", .int 60)]))]

/-- The score of a homework of a lesson. -/
def scoreOf (id : String) (classId uid score : Int) : PyValue := .object
  [("Cmd", .string "HomeworkScore"), ("_id", .string id), ("ClassID", .int classId),
    ("Data", .object [("ActivityId", .int 77), ("Score", .int score),
      ("StudentInfo", .object [("StudentUid", .int uid)])])]

/-- The messages of lessons of two courses in four weeks, the first one on 28 April. -/
def mayMessages : List PyValue :=
  [attendanceAt "c" 7 4 1777417200 [9, 12], attendanceAt "b" 6 3 1778666400 [9, 10, 11],
    attendanceAt "a" 5 3 1778025601 [9, 10], attendanceAt "d" 8 4 1779271200 [10], scoreOf "e" 6 9 80]

def mayLessons : List Op := mayMessages.map .deliver

theorem mayLessons_spare : ∀ op ∈ mayLessons, op.sparesRecords := by
  simp [mayLessons, mayMessages, Op.sparesRecords]

/-- The records of a filter, in the order of the table. -/
theorem matching_perm (store : Store) (scope : Scope) (filter : RecordFilter) :
    (lessonRecords store scope filter).Perm
      ((store.allRecords.filter filter.matches).filter fun record => record.inScope (store.scopeKeys scope)) :=
  (List.mergeSort_perm _ _).filter _

theorem window_exact_midnight :
    let store := Store.empty.runOps .plain mayLessons
    let rows := windowRecords store .all (halfPastMidnight.isoformat "T" "+00:00")
    (rows.map fun record => (record.lessonId, record.studentUid)).Perm
        [("6", 9), ("6", 10), ("6", 11), ("5", 9), ("5", 10), ("8", 10)] ∧
      ∀ record, record ∈ rows ↔ record ∈ store.allRecords ∧
        record.inScope (store.scopeKeys .all) = true ∧
          ∃ ts, StoredAs (record.cells .lessonDate) ts ∧
            halfPastMidnight.wallMicroseconds ≤ 1000000 * ts :=
  ⟨((matching_perm _ _ _).map _).trans (List.Perm.of_eq (by decide +kernel)),
    ((window_exact halfPastMidnight rfl).2 _ .all (isoDates_run mayLessons_spare isoDates_empty)).2.1⟩

end ClassinDashboard

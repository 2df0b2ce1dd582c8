import ClassinDashboard.CreateEffects
import ClassinDashboard.MissingHomework
import ClassinDashboard.RoutesBranches

/-!
The two views of missing homework. The figures of a student count the rows whose flag is 0; the list
takes the rows whose flag is not 1. No writer ever sets a flag to 0: a submit sets it to 1, and
nothing else touches it. So the figure is always 0, and the list is what it counts only where it is
empty.
-/

namespace ClassinDashboard

open Py Sql

/-! ### Runs -/

inductive DashboardOp
  /-- A webhook message is ingested. -/
  | deliver (raw : PyValue)
  | create (answers : Answers) (session : Option Session) (form : CreateForm)
  /-- A sync, or another request of the branch screen. -/
  | manage (session : Option Session) (request : BranchRequest)

variable (p : Platform) (pbkdf2 : Pbkdf2)

def Store.dashboardStep (store : Store) : DashboardOp → Store
  | .deliver raw => (ingest p store raw).2
  | .create answers session form => store.create (createExecute p answers store session form)
  | .manage session request => (request.statements p pbkdf2 store session).foldl Statement.run store

def dashboardRun (ops : List DashboardOp) : Store := ops.foldl (Store.dashboardStep p pbkdf2) Store.empty

/-! ### What is no record -/

/-- A statement that leaves the records and the events alone. -/
def Statement.Quiet : Statement → Prop
  | .write w => w.asPatch = none
  | _ => True

theorem records_of_quiet {store : Store} {w : Write} (h : w.asPatch = none) :
    (store.write w).records = store.records := by
  rw [records_write, h]
  rfl

theorem Statement.Quiet.frame {statement : Statement} (h : statement.Quiet) (store : Store) :
    (statement.run store).records = store.records ∧ (statement.run store).events = store.events := by
  cases statement with
  | write w => exact ⟨records_of_quiet h, write_events store w⟩
  | upsertBranch name sid secret =>
      show (ClassinDashboard.upsertBranch store name sid secret).records = _ ∧
        (ClassinDashboard.upsertBranch store name sid secret).events = _
      unfold ClassinDashboard.upsertBranch
      split <;> exact ⟨rfl, rfl⟩
  | deleteBranch branchId =>
      show (ClassinDashboard.deleteBranch store branchId).2.records = _ ∧
        (ClassinDashboard.deleteBranch store branchId).2.events = _
      unfold ClassinDashboard.deleteBranch
      split <;> exact ⟨rfl, rfl⟩
  | createUser row =>
      simp only [Statement.run]
      split <;> exact ⟨rfl, rfl⟩

theorem frame_statements {statements : List Statement} (h : ∀ s ∈ statements, s.Quiet) (store : Store) :
    (statements.foldl Statement.run store).records = store.records ∧
      (statements.foldl Statement.run store).events = store.events := by
  induction statements generalizing store with
  | nil => exact ⟨rfl, rfl⟩
  | cons statement statements ih =>
      have hfirst := (h statement List.mem_cons_self).frame store
      have hrest := ih (fun s hs => h s (List.mem_cons_of_mem _ hs)) (statement.run store)
      exact ⟨hrest.1.trans hfirst.1, hrest.2.trans hfirst.2⟩

section Emits

variable {p}

/-- The script writes no record. -/
abbrev NoRecord {α : Type} (s : StoreScript α) : Prop := s.Emits fun w => w.asPatch = none

/-- A class that is synced writes the lesson table only. -/
theorem syncClass_emits (courseId : Int) (row : Fields) :
    (syncClass p courseId row).Emits fun w => ∃ lessonId lesson, w = .lesson lessonId lesson := by
  unfold syncClass
  split
  · exact Script.Emits.pure _
  · exact (Script.Emits.lift _).bind fun key _ w hw => ⟨key, mem_writes_upsertLesson hw⟩

theorem syncClass_noRecord (courseId : Int) (row : Fields) : NoRecord (syncClass p courseId row) := by
  intro w hw
  obtain ⟨lessonId, lesson, rfl⟩ := syncClass_emits courseId row w hw
  rfl

theorem setCourseBranch_noRecord (courseId : Int) (branchId : Option Int) :
    NoRecord (setCourseBranch courseId branchId) := by
  intro w hw
  obtain ⟨branch, rfl⟩ := mem_writes_setCourseBranch hw
  rfl

theorem setTeacherBranch_noRecord (uid : Int) (branchId : Option Int) :
    NoRecord (setTeacherBranch uid branchId) := by
  intro w hw
  obtain ⟨branch, rfl⟩ := mem_writes_setTeacherBranch hw
  rfl

theorem syncCourse_noRecord (service : ClassIn) (credentials : Credentials) (branchId : Option Int)
    (row : Fields) : NoRecord (syncCourse service credentials p branchId row) := by
  refine (Script.Emits.lift _).bind fun courseId _ => ?_
  cases courseId with
  | none => exact Script.Emits.pure _
  | some courseId =>
      refine Script.Emits.bind (fun w hw => ?_) fun _ _ => Script.Emits.bind ?_ fun _ _ =>
        (Script.Emits.lift _).bind fun classes _ =>
          Script.Emits.each fun row _ => syncClass_noRecord courseId row
      · obtain ⟨name, uid, teacher, rfl⟩ := mem_writes_upsertCourse hw
        rfl
      · cases branchId with
        | none => exact Script.Emits.pure _
        | some branchId => exact setCourseBranch_noRecord courseId (some branchId)

theorem syncStudent_noRecord (row : Fields) : NoRecord (syncStudent p row) := by
  refine (Script.Emits.lift _).bind fun uid _ => ?_
  cases uid with
  | none => exact Script.Emits.pure _
  | some uid =>
      intro w hw
      obtain ⟨name, named, rfl⟩ := mem_writes_ensureStudent hw
      rfl

theorem syncTeacher_noRecord (row : Fields) : NoRecord (syncTeacher p row) := by
  refine (Script.Emits.lift _).bind fun uid _ => ?_
  cases uid with
  | none => exact Script.Emits.pure _
  | some uid =>
      intro w hw
      obtain ⟨name, rfl⟩ := mem_writes_upsertTeacher hw
      rfl

theorem syncMasters_noRecord (service : ClassIn) (credentials : Credentials) (branchId : Option Int) :
    NoRecord (syncMasters service credentials p branchId) := by
  refine (Script.Emits.lift _).bind fun courses _ =>
    (Script.Emits.each fun row _ => syncCourse_noRecord service credentials branchId row).bind
      fun _ _ => (Script.Emits.lift _).bind fun students _ =>
        (Script.Emits.each fun row _ => syncStudent_noRecord row).bind fun _ _ =>
          (Script.Emits.lift _).bind fun teachers _ =>
            (Script.Emits.each fun row _ => syncTeacher_noRecord row).bind fun _ _ =>
              Script.Emits.pure _

theorem assign_noRecord {setter : Int → Option Int → StoreScript Unit}
    (h : ∀ target branchId, NoRecord (setter target branchId)) (form : List (String × String))
    (start : String) : NoRecord (assign form start setter) := by
  refine (Script.Emits.each fun item _ => ?_).bind fun _ _ => Script.Emits.pure _
  unfold assignItem
  cases suffixOf start item.1 with
  | none => exact Script.Emits.pure _
  | some rest =>
      refine (Script.Emits.lift _).bind fun target _ => ?_
      cases target with
      | none => exact Script.Emits.pure _
      | some target => exact (Script.Emits.lift _).bind fun branchId _ => h target branchId

end Emits

theorem quiet_of_noRecord {α : Type} {script : StoreScript α} (h : NoRecord script) :
    ∀ s ∈ script.writes.map Statement.write, s.Quiet := by
  intro s hs
  obtain ⟨w, hw, rfl⟩ := List.mem_map.mp hs
  exact h w hw

theorem adminAssign_quiet (session : Option Session) {script : StoreScript Nat}
    (h : NoRecord script) : ∀ s ∈ adminAssign session script, s.Quiet := by
  intro s hs
  unfold adminAssign at hs
  split at hs
  · exact absurd hs List.not_mem_nil
  · exact quiet_of_noRecord h s hs

theorem syncStatements_quiet (store : Store) (session : Option Session) (service : ClassIn) :
    ∀ s ∈ syncStatements p store session service, s.Quiet := by
  intro s hs
  unfold syncStatements at hs
  split at hs
  · exact absurd hs List.not_mem_nil
  · split at hs
    · split at hs
      · exact absurd hs List.not_mem_nil
      · exact quiet_of_noRecord (syncMasters_noRecord service _ _) s hs
    · exact absurd hs List.not_mem_nil

/-- No request of the branch screen writes a record. -/
theorem statements_quiet (store : Store) (session : Option Session) (request : BranchRequest) :
    ∀ s ∈ request.statements p pbkdf2 store session, s.Quiet := by
  intro s hs
  cases request with
  | addBranch name sid secret =>
      change s ∈ adminBranchAdd session name sid secret at hs
      unfold adminBranchAdd at hs
      split at hs
      · exact absurd hs List.not_mem_nil
      · split at hs
        · exact absurd hs List.not_mem_nil
        · rw [List.mem_singleton.mp hs]
          trivial
  | removeBranch branchId =>
      change s ∈ adminBranchDelete session branchId at hs
      unfold adminBranchDelete at hs
      split at hs
      · exact absurd hs List.not_mem_nil
      · split at hs
        · rw [List.mem_singleton.mp hs]
          trivial
        · exact absurd hs List.not_mem_nil
  | courseBranch form =>
      exact adminAssign_quiet session (assign_noRecord setCourseBranch_noRecord form _) s hs
  | teacherBranch form =>
      exact adminAssign_quiet session (assign_noRecord setTeacherBranch_noRecord form _) s hs
  | createUser salt form =>
      obtain ⟨w, _, hstatement⟩ := List.mem_filterMap.mp hs
      cases w with
      | create row => rw [← Option.some.inj hstatement]; trivial
      | _ => cases hstatement
  | sync service => exact syncStatements_quiet p store session service s hs

/-- Creating courses and lessons writes no record. -/
theorem frame_create (answers : Answers) (store : Store) (session : Option Session) (form : CreateForm) :
    (store.create (createExecute p answers store session form)).records = store.records ∧
      (store.create (createExecute p answers store session form)).events = store.events := by
  cases session with
  | none => exact ⟨rfl, rfl⟩
  | some session =>
      have hframe : ∀ current : Store, ∀ effect ∈
          (createExecute p answers store (some session) form).writes,
          (CreateEffect.apply current effect).records = current.records ∧
            (CreateEffect.apply current effect).events = current.events := by
        intro current effect heffect
        obtain ⟨_, _, _, _, _, _, ⟨line, rfl⟩ | ⟨_, _, hcourse⟩⟩ := mem_createExecute heffect
        · exact ⟨rfl, rfl⟩
        · cases hcourse with
          | inside h => cases h <;> exact ⟨rfl, rfl⟩
          | _ => exact ⟨rfl, rfl⟩
      exact ⟨Script.exec_frame Store.records fun current effect h => (hframe current effect h).1,
        Script.exec_frame Store.events fun current effect h => (hframe current effect h).2⟩

/-! ### The flag -/

/-- A flag is 1, or unknown. -/
def FlagsKnown (store : Store) : Prop :=
  ∀ lessonId uid, cellAt store.records (lessonId, uid) .homeworkSubmitted = .null ∨
    flagged store lessonId uid

/-- Patches that set a column to one value leave a cell, or set it to that value. -/
theorem cellAt_foldl_or {changes : List RecordPatch} {c : Column} {value : SqlValue}
    (h : ∀ change ∈ changes, change.2.lookup c = none ∨ change.2.lookup c = some value)
    (records : Records) (key : RecordKey) :
    cellAt (changes.foldl applyPatch records) key c = cellAt records key c ∨
      cellAt (changes.foldl applyPatch records) key c = value := by
  induction changes generalizing records with
  | nil => exact .inl rfl
  | cons change changes ih =>
      have hstep : cellAt (applyPatch records change) key c = cellAt records key c ∨
          cellAt (applyPatch records change) key c = value := by
        rw [cellAt_applyPatch]
        split
        · rcases h change List.mem_cons_self with hnone | hsome
          · exact .inl (by rw [hnone]; rfl)
          · exact .inr (by rw [hsome]; rfl)
        · exact .inl rfl
      rw [List.foldl_cons]
      rcases ih (fun other ho => h other (List.mem_cons_of_mem _ ho)) (applyPatch records change) with
        hrest | hrest
      · rcases hstep with hold | hset
        · exact .inl (hrest.trans hold)
        · exact .inr (hrest.trans hset)
      · exact .inr hrest

/-- Every patch of an event sets the flag to 1 or leaves it. -/
theorem lookup_flag {event : Event} (hadmitted : event.Admitted) {change : RecordPatch}
    (h : change ∈ event.patches p) :
    change.2.lookup .homeworkSubmitted = none ∨
      change.2.lookup .homeworkSubmitted = some (.int 1) := by
  by_cases hkind : event.kind = some .homeworkSubmit
  · cases event with
    | homeworkSubmit submit =>
        rw [patches_submit] at h
        split at h
        · rename_i hrange
          obtain ⟨uid, hstudent, rfl⟩ := List.mem_map.mp h
          exact .inr (lookup_submitted p (.homeworkSubmit (Option.mem_toList.mp hstudent) hrange)
            hadmitted)
        · exact absurd h List.not_mem_nil
    | _ => cases hkind
  · exact .inl (lookup_flag_of_kind p hkind h)

theorem flagsKnown_ingest {store : Store} (h : FlagsKnown store) (raw : PyValue) :
    FlagsKnown (ingest p store raw).2 := by
  refine ingest_keeps p (P := FlagsKnown) h h fun event row hread hfresh lessonId uid => ?_
  unfold flagged
  rw [records_ingest p hread hfresh]
  rcases cellAt_foldl_or (fun change => lookup_flag p (Event.admitted hread)) store.records
    (lessonId, uid) with hsame | hset
  · rw [hsame]
    exact h lessonId uid
  · exact .inr hset

/-- What holds of the records and the events holds after a step that leaves both. -/
theorem flags_of_frame {store store' : Store} (hrecords : store'.records = store.records)
    (hevents : store'.events = store.events) (h : FlagsExact p store ∧ FlagsKnown store) :
    FlagsExact p store' ∧ FlagsKnown store' := by
  refine ⟨flagsExact_of_frame p hrecords hevents h.1, ?_⟩
  unfold FlagsKnown flagged at *
  rw [hrecords]
  exact h.2

theorem flags_step {store : Store} (h : FlagsExact p store ∧ FlagsKnown store) (op : DashboardOp) :
    FlagsExact p (store.dashboardStep p pbkdf2 op) ∧ FlagsKnown (store.dashboardStep p pbkdf2 op) := by
  cases op with
  | deliver raw => exact ⟨flagsExact_ingest p h.1 raw, flagsKnown_ingest p h.2 raw⟩
  | create answers session form =>
      obtain ⟨hrecords, hevents⟩ := frame_create p answers store session form
      exact flags_of_frame p hrecords hevents h
  | manage session request =>
      obtain ⟨hrecords, hevents⟩ := frame_statements (statements_quiet p pbkdf2 store session request)
        store
      exact flags_of_frame p hrecords hevents h

theorem flags_run (ops : List DashboardOp) :
    FlagsExact p (dashboardRun p pbkdf2 ops) ∧ FlagsKnown (dashboardRun p pbkdf2 ops) := by
  induction ops using List.reverseRecOn with
  | nil => exact ⟨flagsExact_run p [], fun _ _ => .inl rfl⟩
  | append_singleton ops op ih =>
      rw [dashboardRun, List.foldl_append]
      exact flags_step p pbkdf2 ih op

/-! ### The two views -/

section Views

variable {p} {store : Store} {scope : Scope} {since : String} {uid : Int} {rows : List LessonRecord}

/-- No row is flagged as missing. -/
theorem homeworkMissing_eq_zero (h : FlagsKnown store)
    (hrows : ∀ record ∈ rows, store.records (record.lessonId, record.studentUid) = some record.cells) :
    homeworkMissing rows = 0 := by
  refine List.countP_eq_zero.mpr fun record hrecord => ?_
  have hcell : cellAt store.records (record.lessonId, record.studentUid) .homeworkSubmitted =
      record.cells .homeworkSubmitted := by
    rw [cellAt, hrows record hrecord]
    rfl
  have hflag := h record.lessonId record.studentUid
  unfold flagged at hflag
  rw [hcell] at hflag
  rcases hflag with hnull | hone
  · rw [hnull]
    decide
  · rw [hone]
    decide

/-- The rows of a student are the student's rows of the window. -/
theorem mem_perStudent {all : List LessonRecord} (h : (uid, rows) ∈ perStudent all) :
    rows = all.filter fun record => record.studentUid = uid := by
  obtain ⟨other, _, heq⟩ := List.mem_map.mp h
  obtain ⟨rfl, rfl⟩ := Prod.mk.inj heq
  rfl

/-- The list has no row of a student exactly when every lesson with homework is flagged. -/
theorem countP_missing_eq_zero_iff (hrows : rows =
    (windowRecords store scope since).filter fun record => record.studentUid = uid) :
    (missingHomeworkRows store scope since).countP (fun row => row.record.studentUid = uid) = 0 ↔
      ∀ record ∈ rows, record.lessonId ∈ lessonsWithHomework store scope →
        record.cells .homeworkSubmitted = .int 1 := by
  have hcount : (missingHomeworkRows store scope since).countP
      (fun row => row.record.studentUid = uid) = 0 ↔
        ∀ record ∈ windowRecords store scope since, record.lessonId ∈ lessonsWithHomework store scope →
          record.cells .homeworkSubmitted ≠ .int 1 → record.studentUid ≠ uid := by
    rw [List.countP_eq_zero]
    simp only [missingHomeworkRows, List.forall_mem_map, List.mem_filter, decide_eq_true_eq,
      windowRecords, and_imp]
  rw [hcount, hrows]
  constructor
  · intro h record hrecord hlesson
    obtain ⟨hmem, huid⟩ := List.mem_filter.mp hrecord
    by_contra hflag
    exact h record hmem hlesson hflag (of_decide_eq_true huid)
  · intro h record hmem hlesson hflag huid
    exact hflag (h record (List.mem_filter.mpr ⟨hmem, decide_eq_true huid⟩) hlesson)

/-- A row of a student is stored. -/
theorem stored_of_perStudent (h : (uid, rows) ∈ perStudent (windowRecords store scope since)) :
    ∀ record ∈ rows, store.records (record.lessonId, record.studentUid) = some record.cells ∧
      record.studentUid = uid := by
  intro record hrecord
  rw [mem_perStudent h] at hrecord
  obtain ⟨hmem, huid⟩ := List.mem_filter.mp hrecord
  exact ⟨(mem_lessonRecords.mp hmem).1, of_decide_eq_true huid⟩

end Views

/-- No run leaves a student with missing homework in the figures. -/
theorem homeworkMissing_of_run (ops : List DashboardOp) {scope : Scope} {since : String} {uid : Int}
    {rows : List LessonRecord} {metrics : StudentMetrics}
    (hstudent : (uid, rows) ∈ perStudent (windowRecords (dashboardRun p pbkdf2 ops) scope since))
    (hmetrics : studentMetrics rows = .ok metrics) : metrics.homeworkMissing = 0 := by
  obtain ⟨average, _, rfl⟩ := map_eq_ok.mp hmetrics
  exact homeworkMissing_eq_zero (flags_run p pbkdf2 ops).2
    fun record hrecord => (stored_of_perStudent hstudent record hrecord).1

/-- After any run, the missing homework in a student's figures is the number of rows on the list
exactly when the student has submitted something under every lesson of the window with homework. -/
theorem homeworkViews_agree_iff (ops : List DashboardOp) (scope : Scope) (since : String) (uid : Int)
    (rows : List LessonRecord) (metrics : StudentMetrics)
    (hstudent : (uid, rows) ∈ perStudent (windowRecords (dashboardRun p pbkdf2 ops) scope since))
    (hmetrics : studentMetrics rows = .ok metrics) :
    metrics.homeworkMissing = (missingHomeworkRows (dashboardRun p pbkdf2 ops) scope since).countP
        (fun row => row.record.studentUid = uid) ↔
      ∀ record ∈ rows, record.lessonId ∈ lessonsWithHomework (dashboardRun p pbkdf2 ops) scope →
        SubmittedUnder p (dashboardRun p pbkdf2 ops) record.lessonId uid := by
  rw [homeworkMissing_of_run p pbkdf2 ops hstudent hmetrics, eq_comm,
    countP_missing_eq_zero_iff (mem_perStudent hstudent)]
  refine forall₂_congr fun record hrecord => imp_congr_right fun _ => ?_
  obtain ⟨hfind, huid⟩ := stored_of_perStudent hstudent record hrecord
  rw [← (flags_run p pbkdf2 ops).1 record.lessonId uid, flagged, cellAt, ← huid, hfind]
  rfl

/-! ### A class of two students, one of whom submits the homework -/

def oneSubmits : List DashboardOp :=
  [.deliver (.object [("Cmd", .string "Attendance"), ("_id", .string "a"), ("ClassID", .int 555),
      ("ClassStartTime", .int 1756803600),
      ("Data", .list [.object [("Uid", .int 8), ("AttendanceTime", .int 3600)],
        .object [("Uid", .int 9), ("AttendanceTime", .int 3600)]])]),
    .deliver (.object [("Cmd", .string "HomeworkSubmit"), ("_id", .string "b"), ("ClassID", .int 555),
      ("Data", .object [("ActivityId", .int 777), ("StudentInfo", .object [("StudentUid", .int 8)])])])]

def oneSubmitted : Store := dashboardRun .plain (fun _ _ _ => []) oneSubmits

/-- Every row is of the one class, and none has a score. -/
theorem oneSubmitted_rows : ∀ record ∈ windowRecords oneSubmitted .all "2025-09-01",
    record.lessonId = "555" ∧ record.cells .homeworkScore = .null := by
  have hrows : ∀ entry ∈ oneSubmitted.lessonRecords.rows,
      entry.1.1 = "555" ∧ entry.2 .homeworkScore = .null := by decide
  intro record hrecord
  exact hrows _ ((Table.mem_rows_iff _ _ _).mpr (mem_lessonRecords.mp hrecord).1)

/-- Without scores there is no average that could fail. -/
theorem figures_of_unscored {rows : List LessonRecord}
    (h : ∀ record ∈ rows, record.cells .homeworkScore = .null) :
    ∃ metrics, studentMetrics rows = .ok metrics := by
  have hscores : scores rows = [] := by
    refine List.filter_eq_nil_iff.mpr fun cell hcell => ?_
    obtain ⟨record, hrecord, rfl⟩ := List.mem_map.mp hcell
    rw [h record hrecord]
    decide
  unfold studentMetrics
  rw [hscores]
  exact ⟨_, rfl⟩

/-- The figures of a student of the class. -/
theorem oneSubmitted_figures (uid : Int) (h : inWindow oneSubmitted "2025-09-01" "555" uid = true) :
    ∃ rows metrics record, (uid, rows) ∈ perStudent (windowRecords oneSubmitted .all "2025-09-01") ∧
      studentMetrics rows = .ok metrics ∧ record ∈ rows ∧ record.lessonId = "555" := by
  obtain ⟨cells, hrecord, hdate⟩ := record_of_inWindow h
  have hmem : (⟨"555", uid, cells⟩ : LessonRecord) ∈ windowRecords oneSubmitted .all "2025-09-01" :=
    mem_lessonRecords.mpr ⟨hrecord, matches_since hdate, inScope_all oneSubmitted _⟩
  have hgroup : (uid, (windowRecords oneSubmitted .all "2025-09-01").filter
      fun record => record.studentUid = uid) ∈
        perStudent (windowRecords oneSubmitted .all "2025-09-01") :=
    List.mem_map.mpr ⟨uid, List.mem_eraseDups.mpr (List.mem_map.mpr ⟨_, hmem, rfl⟩), rfl⟩
  obtain ⟨metrics, hmetrics⟩ := figures_of_unscored
    fun record hrecord => (oneSubmitted_rows record (List.mem_of_mem_filter hrecord)).2
  exact ⟨_, metrics, _, hgroup, hmetrics, List.mem_filter.mpr ⟨hmem, decide_eq_true rfl⟩, rfl⟩

theorem oneSubmits_views_agree :
    ∃ rows metrics, (8, rows) ∈ perStudent (windowRecords oneSubmitted .all "2025-09-01") ∧
      studentMetrics rows = .ok metrics ∧
      metrics.homeworkMissing = (missingHomeworkRows oneSubmitted .all "2025-09-01").countP
        (fun row => row.record.studentUid = 8) := by
  obtain ⟨rows, metrics, _, hstudent, hmetrics, _, _⟩ := oneSubmitted_figures 8 (by decide)
  have hsubmitted : SubmittedUnder .plain oneSubmitted "555" 8 := by decide
  refine ⟨rows, metrics, hstudent, hmetrics, (homeworkViews_agree_iff .plain (fun _ _ _ => [])
    oneSubmits .all "2025-09-01" 8 rows metrics hstudent hmetrics).mpr fun record hrecord _ => ?_⟩
  rw [mem_perStudent hstudent] at hrecord
  rw [(oneSubmitted_rows record (List.mem_of_mem_filter hrecord)).1]
  exact hsubmitted

/-- The submit makes it a lesson with homework. -/
theorem oneSubmitted_homework : "555" ∈ lessonsWithHomework oneSubmitted .all := by
  obtain ⟨rows, _, record, hstudent, _, hmem, hlesson⟩ := oneSubmitted_figures 8 (by decide)
  obtain ⟨hfind, huid⟩ := stored_of_perStudent hstudent record hmem
  have hactivity : cellAt oneSubmitted.records ("555", 8) .homeworkActivityId = .int 777 := by
    decide
  rw [hlesson, huid] at hfind
  rw [cellAt, hfind] at hactivity
  have hcell : record.cells .homeworkActivityId ≠ .null := by
    intro hnull
    exact absurd (hnull.symm.trans hactivity) (by decide)
  have hrecord : record ∈ lessonRecords oneSubmitted .all .none := by
    refine mem_lessonRecords.mpr ⟨?_, rfl, inScope_all oneSubmitted _⟩
    rw [hlesson, huid]
    exact hfind
  exact List.mem_append_left _ (List.mem_map.mpr
    ⟨record, List.mem_filter.mpr ⟨hrecord, decide_eq_true hcell⟩, hlesson⟩)

/-- The other student is on the list, and has no missing homework in the figures. -/
theorem homeworkViews_differ :
    ¬∀ (ops : List DashboardOp) (scope : Scope) (since : String) (uid : Int)
      (rows : List LessonRecord) (metrics : StudentMetrics),
      (uid, rows) ∈ perStudent (windowRecords (dashboardRun .plain (fun _ _ _ => []) ops) scope since) →
      studentMetrics rows = .ok metrics →
      metrics.homeworkMissing =
        (missingHomeworkRows (dashboardRun .plain (fun _ _ _ => []) ops) scope since).countP
          (fun row => row.record.studentUid = uid) := by
  intro h
  obtain ⟨rows, metrics, record, hstudent, hmetrics, hmem, hlesson⟩ :=
    oneSubmitted_figures 9 (by decide)
  have hsame := h oneSubmits .all "2025-09-01" 9 rows metrics hstudent hmetrics
  have hzero : metrics.homeworkMissing = 0 :=
    homeworkMissing_of_run .plain (fun _ _ _ => []) oneSubmits hstudent hmetrics
  have hunlisted := (countP_missing_eq_zero_iff (mem_perStudent hstudent)).mp (hsame.symm.trans hzero)
  have hflag : record.cells .homeworkSubmitted = .int 1 :=
    hunlisted record hmem (hlesson ▸ oneSubmitted_homework)
  obtain ⟨hfind, huid⟩ := stored_of_perStudent hstudent record hmem
  have hunknown : cellAt oneSubmitted.records ("555", 9) .homeworkSubmitted = .null := by
    decide
  rw [hlesson, huid] at hfind
  rw [cellAt, hfind] at hunknown
  exact absurd (hflag.symm.trans hunknown) (by decide)

end ClassinDashboard

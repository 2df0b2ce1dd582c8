import ClassinDashboard.DeliveryOrder
import ClassinDashboard.Pages
import ClassinDashboard.SessionIds
import ClassinDashboard.TeacherMinutes

/-!
Pages that return. What the handlers of the webhook store can be read back by the pages: dates are
dates, scores and times are numbers, and the data of an exam is an object. No interleaving of requests
stores anything else, so no page that reads these tables raises in a state the process can reach.
-/

namespace ClassinDashboard

open Py Sql InFlight

/-! ### What is stored -/

/-- A time is a 64-bit int. -/
def TimeCell (cell : SqlValue) : Prop := cell = .null ∨ ∃ n, SqlValue.inRange n = true ∧ cell = .int n

/-- What a column is read as. -/
def Column.ReadBack : Column → SqlValue → Prop
  | .lessonDate, cell => IsoCell cell
  | .homeworkScore, cell => cell = .null ∨ ∃ x, cell = .real x
  | .classStart, cell | .classEnd, cell => TimeCell cell
  | _, _ => True

/-- The event of an exam holds what the page of its student reads. -/
def EventRow.ReadsExam (row : EventRow) : Prop :=
  row.cmd = "AnswerSheetScore" → ∃ found, exam row.payload = .ok found

structure Store.Readable (store : Store) : Prop where
  cells : ∀ key (c : Column), c.ReadBack (cellAt store.records key c)
  exams : ∀ row ∈ store.events.rows, row.ReadsExam

/-- pydantic's `str` takes text alone. -/
def TextOnly (p : Platform) : Prop := ∀ value s, p.str value = some s → value = .str (.text s)

section Stored

variable {p : Platform}

/-- The cells that one event writes. -/
theorem readBack_patch {event : Event} {change : RecordPatch} (h : change ∈ event.patches p) {c : Column}
    {cell : SqlValue} (hcell : change.2.lookup c = some cell) : c.ReadBack cell := by
  have htime {n : Option Int} (hbind : p.bindInteger (.ofInt? n) = .ok cell) : TimeCell cell := by
    obtain ⟨bound, hbound, rfl⟩ := map_eq_ok.mp hbind
    cases n with
    | none =>
        cases hbound
        exact .inl rfl
    | some n =>
        rw [PyValue.ofInt?, SqlValue.bind] at hbound
        split at hbound
        · rename_i hrange
          cases hbound
          exact .inr ⟨n, hrange, rfl⟩
        · cases hbound
  have hscore {x : Option PyFloat} (hbind : p.bindReal (.ofFloat? x) = .ok cell) :
      cell = .null ∨ ∃ x, cell = .real x := by
    obtain ⟨bound, hbound, rfl⟩ := map_eq_ok.mp hbind
    cases x with
    | none =>
        cases hbound
        exact .inl rfl
    | some x =>
        cases x with
        | nan =>
            cases hbound
            exact .inl rfl
        | _ =>
            cases hbound
            exact .inr ⟨_, rfl⟩
  cases c with
  | lessonDate => exact isoCell_patch h hcell
  | homeworkScore | classStart | classEnd =>
      obtain ⟨uid, fields, hmem, rfl⟩ := mem_patches p h
      obtain ⟨value, hvalue, hbind⟩ := lookup_bound p hcell
      have hset := setBy_of_mem p hmem
      rcases hset.columns.1 _ (Table.mem_of_lookup hvalue) with hname | hkind
      · cases hname
      cases hset with
      | attendance _ _ _ set =>
          obtain ⟨_, _, set⟩ := bind_eq_ok.mp set
          obtain ⟨_, _, set⟩ := bind_eq_ok.mp set
          cases set
          cases hvalue <;> exact htime hbind
      | «end» _ _ _ => cases hkind
      | homeworkSubmit _ _ => cases hkind
      | homeworkScore _ => cases hvalue <;> exact hscore hbind
  | _ => trivial

theorem cmd_eventRow {cmd : String} {payload : PyValue} {msgId : Option PyStr}
    {courseId classId studentUid teacherUid : Option Int} {row : EventRow}
    (h : eventRow cmd payload msgId courseId classId studentUid teacherUid = .ok row) : row.cmd = cmd := by
  obtain ⟨_, _, h⟩ := bind_eq_ok.mp h
  obtain ⟨_, _, h⟩ := bind_eq_ok.mp h
  obtain ⟨_, _, h⟩ := bind_eq_ok.mp h
  obtain ⟨_, _, h⟩ := bind_eq_ok.mp h
  obtain ⟨_, _, h⟩ := bind_eq_ok.mp h
  split at h
  · cases h
    rfl
  · cases h

/-- Every model of an event reads the fields of the base. -/
theorem base_of_known {cmd : PyValue} {items : Fields} {event : Event} (h : known p cmd items = some event) :
    baseEvent p items = some event.base := by
  unfold known at h
  split at h <;> obtain ⟨e, he, rfl⟩ := Option.map_eq_some_iff.mp h
  case h_7 => exact he
  all_goals obtain ⟨base, hbase, he⟩ := Option.bind_eq_some_iff.mp he
  case h_1 =>
    iterate 7 obtain ⟨_, _, he⟩ := Option.bind_eq_some_iff.mp he
    cases he
    exact hbase
  case h_2 =>
    iterate 4 obtain ⟨_, _, he⟩ := Option.bind_eq_some_iff.mp he
    cases he
    exact hbase
  case h_6 =>
    iterate 2 obtain ⟨_, _, he⟩ := Option.bind_eq_some_iff.mp he
    cases he
    exact hbase
  all_goals
    obtain ⟨_, _, he⟩ := Option.bind_eq_some_iff.mp he
    cases he
    exact hbase

/-- A base names its command in the field that the model was chosen by. -/
theorem cmd_baseEvent (htext : TextOnly p) {items : Fields} {base : BaseEvent}
    (h : baseEvent p items = some base) (hcmd : base.cmd ≠ "") :
    PyValue.get items "Cmd" = .str (.text base.cmd) := by
  obtain ⟨_, _, h⟩ := Option.bind_eq_some_iff.mp h
  obtain ⟨cmd, hread, h⟩ := Option.bind_eq_some_iff.mp h
  iterate 6 obtain ⟨_, _, h⟩ := Option.bind_eq_some_iff.mp h
  cases h
  unfold withDefault at hread
  unfold PyValue.get
  cases hvalue : items.lookup (.text "Cmd") with
  | none =>
      rw [hvalue] at hread
      cases hread
      exact absurd rfl hcmd
  | some value =>
      rw [hvalue] at hread
      exact htext value cmd hread

/-- The data of an exam was validated as an object when its event came in. -/
theorem readsExam (htext : TextOnly p) {raw : PyValue} {event : Event} {row : EventRow}
    (h : readEvent p raw = .ok (event, row)) : row.ReadsExam := by
  intro hcmd
  obtain ⟨hparse, hrow⟩ := readEvent_eq_ok h
  rw [payload_of_readEvent h]
  rw [cmd_eventRow hrow, Event.cmd] at hcmd
  have hbase : event.base.cmd = "AnswerSheetScore" := by
    split at hcmd
    · exact absurd hcmd (by decide)
    · exact hcmd
  cases raw with
  | dict items =>
      unfold parseEvent at hparse
      dsimp only at hparse
      split at hparse
      · cases hknown : known p (((PyValue.get items "Cmd").orElse (PyValue.get items "cmd")).orElse
            (.str (.text ""))) items with
        | none =>
            rw [hknown] at hparse
            cases hparse
        | some found =>
            rw [hknown] at hparse
            obtain rfl := Except.ok.inj hparse
            have hfield := cmd_baseEvent htext (base_of_known hknown) (by rw [hbase]; decide)
            rw [hfield, hbase] at hknown
            obtain ⟨e, he, _⟩ := Option.map_eq_some_iff.mp hknown
            obtain ⟨_, _, he⟩ := Option.bind_eq_some_iff.mp he
            obtain ⟨data, hdata, _⟩ := Option.bind_eq_some_iff.mp he
            obtain ⟨value, hvalue, hdata⟩ := Option.bind_eq_some_iff.mp hdata
            cases value with
            | dict fields =>
                have hget : PyValue.get items "Data" = .dict fields := by
                  rw [PyValue.get, hvalue]
                  rfl
                have hdict : ∃ found, examData (.dict items) = .dict found := by
                  rw [examData, hget, PyValue.orElse]
                  split <;> exact ⟨_, rfl⟩
                obtain ⟨found, hfound⟩ := hdict
                rw [exam, hfound]
                exact ⟨_, rfl⟩
            | _ => cases hdata
      · cases hparse
  | _ => cases hparse

end Stored

/-! ### Runs -/

/-- A commit stores only what can be read back. -/
structure Commit.ReadBack (k : Commit) : Prop where
  cells : ∀ change, k.asPatch = some change →
    ∀ (c : Column) cell, change.2.lookup c = some cell → c.ReadBack cell
  exams : ∀ row, k = .event row → row.ReadsExam

section Runs

variable {d : Deployment}

theorem commits_readBack (htext : TextOnly d.platform) (store : Store) (session : Option Session)
    (request : WebRequest) : ∀ k ∈ request.commits d store session, k.ReadBack := by
  by_cases hwebhook : ∃ body, request = .webhook body
  · obtain ⟨body, rfl⟩ := hwebhook
    have hraw (payload : PyValue) : (Commit.raw payload).ReadBack :=
      ⟨fun _ h => (nomatch h), fun _ h => (nomatch h)⟩
    intro k hk
    change k ∈ webhookCommits d body at hk
    rcases webhookCommits_cases d body with hnone | ⟨payload, hone⟩ | ⟨payload, event, row, hread, _, hall⟩
    · rw [hnone] at hk
      exact absurd hk List.not_mem_nil
    · rw [hone] at hk
      rw [List.mem_singleton.mp hk]
      exact hraw payload
    · rw [hall] at hk
      rcases List.mem_cons.mp hk with rfl | hk
      · exact hraw payload
      · rcases List.mem_cons.mp hk with rfl | hk
        · refine ⟨fun _ h => (nomatch h), fun row' hrow => ?_⟩
          cases hrow
          exact readsExam htext hread
        · obtain ⟨w, hw, rfl⟩ := List.mem_map.mp hk
          refine ⟨fun change hchange c cell hcell => ?_, fun _ h => (nomatch h)⟩
          have hpatches := patchesOf_eq d.platform hread
          rw [patchesOf, hread] at hpatches
          change (handle d.platform event).writes.filterMap Write.asPatch = _ at hpatches
          have hmem : change ∈ (handle d.platform event).writes.filterMap Write.asPatch :=
            List.mem_filterMap.mpr ⟨w, hw, hchange⟩
          rw [hpatches] at hmem
          exact readBack_patch hmem hcell
  · intro k hk
    have hquiet := commits_quiet d store session request (fun body hbody => hwebhook ⟨body, hbody⟩) k hk
    refine ⟨fun change hchange => ?_, fun row hrow => ?_⟩
    · cases hquiet.2.symm.trans hchange
    · subst hrow
      exact hquiet.1.elim

theorem readable_commit {app : App} {k : Commit} (h : app.site.store.Readable) (hk : k.ReadBack) :
    (app.apply k).1.site.store.Readable := by
  constructor
  · intro key c
    rw [records_commit]
    cases hchange : k.asPatch with
    | none => exact h.cells key c
    | some change =>
        rw [Option.map_some, Option.getD_some, cellAt_applyPatch]
        split
        · cases hcell : change.2.lookup c with
          | none => exact h.cells key c
          | some cell => exact hk.cells change hchange c cell hcell
        · exact h.cells key c
  · intro row hrow
    rw [events_apply] at hrow
    rcases List.mem_append.mp hrow with hold | hnew
    · exact h.exams row hold
    · cases k with
      | event row' =>
          rw [Commit.logs] at hnew
          split at hnew
          · exact absurd hnew List.not_mem_nil
          · rw [List.mem_singleton.mp hnew]
            exact hk.exams row' rfl
      | _ => exact absurd hnew List.not_mem_nil

/-- Whatever requests are in flight, the tables hold what the pages can read. -/
theorem readable_run (htext : TextOnly d.platform) {app : App} (hstart : app.site.store.Readable)
    (actions : List (Action Visit)) : ((dashboard d).run app.idle actions).shared.site.store.Readable := by
  have hinvariant : Invariant (dashboard d) (fun _ _ => True) (fun app => app.site.store.Readable)
      (Each fun _ k => k.ReadBack) := by
    apply Invariant.ofEach
    · intro app visit hreadable _
      refine ⟨?_, commits_readBack htext _ _ visit.request⟩
      rwa [← store_accept d app visit] at hreadable
    · exact fun _ _ hk => hk
    · exact fun hreadable hk => readable_commit hreadable hk
    · exact fun _ _ hother => hother
  exact (hinvariant.run_any ⟨hstart, fun _ hqueue => absurd hqueue List.not_mem_nil⟩ actions).shared

end Runs

/-! ### What the pages read -/

section Reads

variable {isoDate : IsoDate} {store : Store} {scope : Scope} {filter : RecordFilter}

theorem isoDates_of_readable (h : store.Readable) : store.IsoDates := fun key => h.cells key .lessonDate

/-- A cell of a record that was read. -/
theorem cell_of_mem {row : LessonRecord} (hrow : row ∈ lessonRecords store scope filter) (c : Column) :
    row.cells c = cellAt store.records (row.lessonId, row.studentUid) c := by
  rw [cellAt, Store.records, (mem_lessonRecords.mp hrow).1]
  rfl

theorem scored_of_readable (h : store.Readable) : Scored (lessonRecords store scope filter) := by
  intro cell hcell
  obtain ⟨hmem, hne⟩ := List.mem_filter.mp hcell
  obtain ⟨row, hrow, rfl⟩ := List.mem_map.mp hmem
  rw [cell_of_mem hrow] at hne ⊢
  rcases h.cells (row.lessonId, row.studentUid) .homeworkScore with hnull | ⟨x, hx⟩
  · rw [hnull] at hne
    exact absurd hne (by decide)
  · exact ⟨x, by rw [hx]; rfl⟩

/-- The records of a student in a window are the student's among the records of the window. -/
theorem studentRecords_eq (uid : Int) (since : String) :
    studentRecords store scope uid since =
      (windowRecords store scope since).filter fun record => record.studentUid = uid := by
  have hmatches (record : LessonRecord) :
      RecordFilter.matches { RecordFilter.none with studentUid := some uid, since := some since } record =
        (decide (record.studentUid = uid) &&
          RecordFilter.matches { RecordFilter.none with since := some since } record) := by
    simp [RecordFilter.matches, RecordFilter.none]
  rw [studentRecords, windowRecords, lessonRecords, lessonRecords, List.filter_filter,
    filter_mergeSort laterFirst_trans laterFirst_total, filter_mergeSort laterFirst_trans laterFirst_total,
    List.filter_filter, List.filter_filter]
  congr 1
  refine List.filter_congr fun record _ => ?_
  rw [hmatches]
  cases record.inScope (store.scopeKeys scope) <;> simp

theorem dated_studentRecords (h : store.Readable) (hreads : ReadsDates isoDate) (uid : Int) (start : DateTime) :
    Dated isoDate (studentRecords store scope uid (start.isoformat "T" "+00:00")) := by
  intro row hrow
  rw [studentRecords_eq] at hrow
  exact dated_windowRecords (isoDates_of_readable h) hreads row (List.mem_of_mem_filter hrow)

theorem mem_of_mem_limitTo {α : Type} {n : Int} {rows : List α} {row : α} (h : row ∈ limitTo n rows) :
    row ∈ rows := by
  by_cases hn : n < 0
  · rwa [limitTo, if_pos hn] at h
  · rw [limitTo, if_neg hn] at h
    exact List.mem_of_mem_take h

/-- The events of a filter that can be bound. -/
theorem events_isOk (store : Store) (scope : Scope) {filter : EventFilter} (hbind : filter.bindable = true) :
    ∃ rows, events store filter scope 100 = .ok rows ∧
      ∀ entry ∈ rows, entry.2 ∈ store.events.rows ∧ filter.matches entry.2 = true := by
  have hrange : bindKey 100 = .ok 100 := bindKey_of_inRange (by decide)
  refine ⟨_, bind_eq_ok.mpr ⟨(), (bind_isOk_iff filter).mpr hbind, bind_eq_ok.mpr ⟨100, hrange, rfl⟩⟩, ?_⟩
  intro entry hentry
  have hnewest := mem_of_mem_limitTo (List.mem_of_mem_filter hentry)
  obtain ⟨hmem, hmatches⟩ := List.mem_filter.mp (List.mem_reverse.mp hnewest)
  exact ⟨List.mem_map_of_mem hmem, hmatches⟩

theorem studentDetail_isOk (h : store.Readable) (hreads : ReadsDates isoDate) {uid : Int}
    (huid : SqlValue.inRange uid = true) (start : DateTime) :
    ∃ detail, studentDetail isoDate store uid scope (start.isoformat "T" "+00:00") = .ok detail := by
  have hdated : Dated isoDate (studentRecords store scope uid (start.isoformat "T" "+00:00")) :=
    dated_studentRecords h hreads uid start
  have hscored : Scored (studentRecords store scope uid (start.isoformat "T" "+00:00")) := scored_of_readable h
  obtain ⟨metrics, hmetrics⟩ := studentMetrics_isOk.mpr hscored
  obtain ⟨attendance, hattendance, -⟩ := attendanceTrend_spec hdated
  obtain ⟨score, hscore⟩ := scoreTrend_isOk hdated hscored
  have hbind : (examEvents uid).bindable = true := by
    simp [EventFilter.bindable, examEvents, EventFilter.none, PyStr.encode, Except.isOk, Except.toBool, huid]
  obtain ⟨rows, hrows, hmem⟩ := events_isOk store scope hbind
  have hexams : ∃ exams, rows.mapM (fun entry => exam entry.2.payload) = .ok exams := by
    refine mapM_isOk.mpr fun entry hentry => ?_
    obtain ⟨hrow, hmatches⟩ := hmem entry hentry
    refine h.exams entry.2 hrow ?_
    simp [EventFilter.matches, examEvents, EventFilter.none] at hmatches
    exact hmatches.1.symm
  obtain ⟨exams, hexams⟩ := hexams
  refine ⟨_, bind_eq_ok.mpr ⟨uid, bindKey_of_inRange huid, bind_eq_ok.mpr ⟨rows, hrows,
    bind_eq_ok.mpr ⟨exams, hexams, bind_eq_ok.mpr ⟨metrics, hmetrics,
      bind_eq_ok.mpr ⟨attendance, hattendance, bind_eq_ok.mpr ⟨score, hscore, rfl⟩⟩⟩⟩⟩⟩⟩

end Reads

/-! ### The minutes of a teacher -/

/-- A row as it is stored: its times are 64-bit ints, and a date that is set can be read. -/
structure LessonRecord.Timed (isoDate : IsoDate) (row : LessonRecord) : Prop where
  start : TimeCell (row.cells .classStart)
  finish : TimeCell (row.cells .classEnd)
  date : ∀ date, row.date? = some date → ∃ day, isoDate date = .ok day

section Teachers

variable {isoDate : IsoDate} {row : LessonRecord} {rows : List LessonRecord}

/-- More minutes than lie between two 64-bit times. -/
def mostMinutes : ℚ := 2 ^ (59 : Int)

theorem minutes_within (h : row.Timed isoDate) :
    ∃ minutes, row.minutes = .ok minutes ∧ ∀ x ∈ minutes, x.Within mostMinutes := by
  have hnone : ∃ minutes, (.ok none : Except PyError (Option PyFloat)) = .ok minutes ∧
      ∀ x ∈ minutes, x.Within mostMinutes := ⟨none, rfl, fun _ hx => (nomatch hx)⟩
  rw [LessonRecord.minutes]
  rcases h.start with hstart | ⟨a, ha, hstart⟩ <;> rcases h.finish with hfinish | ⟨b, hb, hfinish⟩
  · rwa [hstart, hfinish]
  · rwa [hstart, hfinish]
  · rw [hstart, hfinish, cellTruthy, cellTruthy, Bool.and_false]
    exact hnone
  · rw [hstart, hfinish]
    by_cases hset : (cellTruthy (.int a) && cellTruthy (.int b)) = true
    · rw [if_pos hset]
      refine ⟨_, rfl, fun x hx => ?_⟩
      obtain rfl := Option.some.inj hx
      apply PyFloat.ofRat_within (by decide) (by decide)
      simp only [SqlValue.inRange, Bool.and_eq_true, decide_eq_true_eq] at ha hb
      have hdiff : |b - a| ≤ 2 ^ 64 := abs_le.mpr ⟨by omega, by omega⟩
      have hcast : |((b - a : Int) : ℚ)| ≤ 2 ^ 64 := by exact_mod_cast hdiff
      rw [abs_div]
      norm_num at hcast ⊢
      linarith
    · rwa [if_neg hset]

theorem round_of_within {bound : ℚ} {x : PyFloat} (h : x.Within bound) : ∃ n, x.round = .ok n := by
  obtain ⟨q, rfl, -⟩ := h
  exact ⟨_, rfl⟩

/-- However many lessons there are, their minutes sum up to a number. -/
theorem round_sumMinutes {minutes : List PyFloat} (h : ∀ x ∈ minutes, x.Within mostMinutes) :
    ∃ n, (sumMinutes minutes).round = .ok n := by
  have hzero : (PyFloat.fin 0).Within (2 ^ (113 : Int)) := ⟨0, rfl, by norm_num⟩
  have hmost : mostMinutes < 2 ^ ((113 : Int) - 53) := by norm_num [mostMinutes]
  exact round_of_within (PyFloat.foldl_add_within (by decide) (by decide) hmost h hzero)

theorem taughtTime_within (h : row.Timed isoDate) :
    ∃ time, taughtTime isoDate row = .ok time ∧ ∀ t ∈ time, t.1.Within mostMinutes := by
  obtain ⟨minutes, hminutes, hwithin⟩ := minutes_within h
  rw [taughtTime, hminutes]
  cases minutes with
  | none =>
      refine ⟨none, rfl, fun _ ht => ?_⟩
      cases ht
  | some minutes =>
      refine ⟨_, bind_eq_ok.mpr ⟨some minutes, rfl, bind_eq_ok.mpr ⟨_, week_eq h.date, rfl⟩⟩, fun t ht => ?_⟩
      obtain rfl := Option.some.inj ht
      exact hwithin minutes rfl

theorem weeklyMinutes_isOk {times : List (PyFloat × Option String)}
    (h : ∀ t ∈ times, t.1.Within mostMinutes) : ∃ weeks, weeklyMinutes times = .ok weeks := by
  refine mapM_isOk.mpr fun group hgroup => map_isOk.mpr (round_sumMinutes fun x hx => ?_)
  have hgroup := List.mem_mergeSort.mp (List.mem_of_mem_drop hgroup)
  obtain ⟨entry, hentry, rfl⟩ := List.mem_map.mp hx
  obtain ⟨t, ht, hdated⟩ := List.mem_filterMap.mp (mem_rows_of_mem_groupOn hgroup hentry)
  obtain ⟨week, -, rfl⟩ := Option.map_eq_some_iff.mp hdated
  exact h t ht

theorem teacherSummary_isOk (p : Platform) (registry : List (Int × TeacherRow)) (uid : SqlValue)
    (h : ∀ row ∈ rows, row.Timed isoDate) : ∃ s, teacherSummary isoDate p registry uid rows = .ok s := by
  have hfirst : ∀ row ∈ firstOfLessons rows, row.Timed isoDate := fun row hrow => h row (mem_of_mem_firsts hrow)
  obtain ⟨times, htimes⟩ := mapM_isOk.mpr fun row hrow =>
    (taughtTime_within (hfirst row hrow)).imp fun _ h => h.1
  have hwithin : ∀ t ∈ times.filterMap id, t.1.Within mostMinutes := by
    intro t ht
    obtain ⟨time, htime, rfl⟩ := List.mem_filterMap.mp ht
    obtain ⟨row, hrow, hread⟩ := exists_of_mem_mapM htimes htime
    obtain ⟨time', hread', hwithin⟩ := taughtTime_within (hfirst row hrow)
    cases hread.symm.trans hread'
    exact hwithin t rfl
  have hsum : ∀ x ∈ (times.filterMap id).map Prod.fst, x.Within mostMinutes := by
    intro x hx
    obtain ⟨t, ht, rfl⟩ := List.mem_map.mp hx
    exact hwithin t ht
  obtain ⟨minutes, hminutes⟩ := round_sumMinutes hsum
  obtain ⟨weekly, hweekly⟩ := weeklyMinutes_isOk hwithin
  have htaught : ∀ row ∈ firstOfLessons rows, ∃ lesson : TaughtLesson, (do
      let minutes ← roundMinutes (← row.minutes)
      pure ⟨row.lessonId, row.cells .className, row.cells .courseName, row.cells .lessonDate, minutes⟩) =
        (.ok lesson : Except PyError TaughtLesson) := by
    intro row hrow
    obtain ⟨minutes, hminutes, hwithin⟩ := minutes_within (hfirst row hrow)
    rw [hminutes]
    cases minutes with
    | none => exact ⟨_, rfl⟩
    | some x =>
        obtain ⟨n, hn⟩ := round_of_within (hwithin x rfl)
        have hround : roundMinutes (some x) = .ok (some n) := by
          rw [roundMinutes, Option.mapM_some, hn]
          rfl
        exact ⟨_, bind_eq_ok.mpr ⟨some x, rfl, bind_eq_ok.mpr ⟨some n, hround, rfl⟩⟩⟩
  obtain ⟨taught, htaught⟩ := mapM_isOk.mpr htaught
  exact ⟨_, bind_eq_ok.mpr ⟨times, htimes, bind_eq_ok.mpr ⟨minutes, hminutes,
    bind_eq_ok.mpr ⟨weekly, hweekly, bind_eq_ok.mpr ⟨taught, htaught, rfl⟩⟩⟩⟩⟩

theorem timed_windowRecords {store : Store} (h : store.Readable) (hreads : ReadsDates isoDate) (scope : Scope)
    (since : String) : ∀ row ∈ windowRecords store scope since, row.Timed isoDate := by
  intro row hrow
  have hnumber {key : String × Int} {c : Column} (htime : TimeCell (cellAt store.records key c)) :
      NumberCell (cellAt store.records key c) := by
    rcases htime with hnull | ⟨n, -, hn⟩
    · exact .inl hnull
    · exact .inr ⟨n, by rw [hn]; rfl⟩
  have htimes : store.NumberTimes :=
    ⟨fun key => hnumber (h.cells key .classStart), fun key => hnumber (h.cells key .classEnd)⟩
  constructor
  · rw [cell_of_mem hrow]
    exact h.cells _ .classStart
  · rw [cell_of_mem hrow]
    exact h.cells _ .classEnd
  · exact (timedRows_windowRecords hreads (isoDates_of_readable h) htimes scope since).date row hrow

theorem teachersSummary_isOk {store : Store} (h : store.Readable) (hreads : ReadsDates isoDate) (p : Platform)
    (scope : Scope) (since : String) : ∃ list, teachersSummary isoDate p store scope since = .ok list := by
  have htimed := timed_windowRecords h hreads scope since
  obtain ⟨out, hout⟩ := mapM_isOk.mpr fun group hgroup =>
    teacherSummary_isOk p (teachers store scope) group.1 fun row hrow =>
      htimed row (List.mem_of_mem_filter (mem_rows_of_mem_groupOn hgroup hrow))
  exact ⟨_, bind_eq_ok.mpr ⟨out, hout, rfl⟩⟩

/-- The lessons that a window shows of one teacher. -/
def lessonsTaught (store : Store) (scope : Scope) (since : String) (uid : Int) : List LessonRecord :=
  firstOfLessons ((windowRecords store scope since).filter fun row => row.cells .teacherUid = .int uid)

theorem dates_teacherSummary {p : Platform} {registry : List (Int × TeacherRow)} {uid : SqlValue}
    {s : TeacherSummary} (h : teacherSummary isoDate p registry uid rows = .ok s) {P : SqlValue → Prop} :
    s.uid = uid ∧ ((∀ l ∈ s.lessons, P l.date) ↔ ∀ row ∈ firstOfLessons rows, P (row.cells .lessonDate)) := by
  obtain ⟨times, -, h⟩ := bind_eq_ok.mp h
  obtain ⟨minutes, -, h⟩ := bind_eq_ok.mp h
  obtain ⟨weekly, -, h⟩ := bind_eq_ok.mp h
  obtain ⟨taught, htaught, h⟩ := bind_eq_ok.mp h
  obtain rfl := pure_eq_ok.mp h
  have hdate {row : LessonRecord} {l : TaughtLesson} (hl : (do
      let minutes ← roundMinutes (← row.minutes)
      pure ⟨row.lessonId, row.cells .className, row.cells .courseName, row.cells .lessonDate, minutes⟩) =
        (.ok l : Except PyError TaughtLesson)) : l.date = row.cells .lessonDate := by
    obtain ⟨_, -, hl⟩ := bind_eq_ok.mp hl
    obtain ⟨_, -, hl⟩ := bind_eq_ok.mp hl
    rw [← pure_eq_ok.mp hl]
  refine ⟨rfl, ?_⟩
  simp only [List.mem_mergeSort]
  constructor
  · intro hall row hrow
    obtain ⟨l, hl, hread⟩ := exists_mem_of_mapM htaught hrow
    rw [← hdate hread]
    exact hall l hl
  · intro hall l hl
    obtain ⟨row, hrow, hread⟩ := exists_of_mem_mapM htaught hl
    rw [hdate hread]
    exact hall row hrow

/-- The dates of the teacher that a page shows are those of the teacher's lessons in the window. -/
theorem dates_teachersSummary {p : Platform} {store : Store} {scope : Scope} {since : String}
    {list : List TeacherSummary} (h : teachersSummary isoDate p store scope since = .ok list) (uid : Int)
    {P : SqlValue → Prop} :
    (∀ l ∈ (list.find? fun t => t.uid = .int uid).elim [] TeacherSummary.lessons, P l.date) ↔
      ∀ row ∈ lessonsTaught store scope since uid, P (row.cells .lessonDate) := by
  obtain ⟨out, hout, h⟩ := bind_eq_ok.mp h
  obtain rfl := pure_eq_ok.mp h
  have hrows : ((windowRecords store scope since).filter fun r => r.cells .teacherUid ≠ .null).filter
      (fun row => row.cells .teacherUid = .int uid) =
        (windowRecords store scope since).filter fun row => row.cells .teacherUid = .int uid := by
    rw [List.filter_filter]
    refine List.filter_congr fun row _ => ?_
    by_cases huid : row.cells .teacherUid = .int uid <;> simp [huid]
  cases hfind : (out.mergeSort fun a b => decide (b.taughtMinutes ≤ a.taughtMinutes)).find? fun t =>
      t.uid = .int uid with
  | none =>
      refine iff_of_true (fun l hl => absurd hl List.not_mem_nil) fun row hrow => ?_
      have hrow := mem_of_mem_firsts hrow
      rw [← hrows] at hrow
      obtain ⟨hmem, huid⟩ := List.mem_filter.mp hrow
      rw [decide_eq_true_eq] at huid
      have hkey : SqlValue.int uid ∈ (groupOn (fun r => r.cells .teacherUid)
          ((windowRecords store scope since).filter fun r => r.cells .teacherUid ≠ .null)).map Prod.fst :=
        mem_keys_groupOn.mpr ⟨row, hmem, huid⟩
      obtain ⟨group, hgroup, hkey⟩ := List.mem_map.mp hkey
      obtain ⟨t, ht, hsummary⟩ := exists_mem_of_mapM hout hgroup
      have htuid := (dates_teacherSummary hsummary (P := P)).1
      have hnone := List.find?_eq_none.mp hfind t (List.mem_mergeSort.mpr ht)
      exact absurd (decide_eq_true (htuid.trans hkey)) hnone
  | some t =>
      have huid := List.find?_some hfind
      rw [decide_eq_true_eq] at huid
      obtain ⟨group, hgroup, hsummary⟩ := exists_of_mem_mapM hout
        (List.mem_mergeSort.mp (List.mem_of_find?_eq_some hfind))
      obtain ⟨htuid, hdates⟩ := dates_teacherSummary hsummary (P := P)
      obtain ⟨k, -, rfl⟩ := List.mem_map.mp hgroup
      obtain rfl := huid.symm.trans htuid
      rw [hrows] at hdates
      exact hdates

end Teachers

/-! ### What a page can show -/

/-- The scope lets a key through. -/
def LetThrough (allowed : Option (Finset Int)) (key : Int) : Prop := ∀ keys ∈ allowed, key ∈ keys

/-- The id of the course fits into a column, and its lessons start at times that Korea has. -/
structure CourseShown (store : Store) (scope : Scope) (courseId : Int) : Prop where
  key : SqlValue.inRange courseId = true
  starts : ∀ l ∈ lessons store scope (some courseId), StartShown l.2.startTime

/-- The uid of the student fits into a column, and the records from a date on are on days that Korea has. -/
structure StudentShown (store : Store) (scope : Scope) (since : String) (uid : Int) : Prop where
  key : SqlValue.inRange uid = true
  dates : ∀ row ∈ studentRecords store scope uid since, DateShown (row.cells .lessonDate)

/-- A score is either not there or one that `float` takes. -/
def Rating.Countable (p : Platform) (rating : Rating) : Prop :=
  isSome rating.score = true → ∃ x, p.floatOf rating.score = .ok x

/-- The uid of the teacher fits into a column, the scores of the evaluations can be averaged, and the
lessons in the window are on days that Korea has. -/
structure TeacherShown (p : Platform) (store : Store) (scope : Scope) (since : String) (uid : Int) : Prop where
  key : SqlValue.inRange uid = true
  scores : ∀ ratings, teacherRatings p store scope uid = .ok ratings → ∀ rating ∈ ratings, rating.Countable p
  dates : ∀ row ∈ lessonsTaught store scope since uid, DateShown (row.cells .lessonDate)

/-! ### The pages -/

section Pages

variable {reader : DateReader} {isoDate : IsoDate} {p : Platform} {store : Store} {session : Option Session}
  {cutoff : Int → DateTime}

theorem readsDates_of_readsBack (h : reader.ReadsBack) : ReadsDates reader.isoDate := by
  intro ts s hs
  obtain ⟨t, ht, rfl⟩ := DateTime.utcIsoformat_eq_ok.mp hs
  exact ⟨t.moment.day, by rw [DateReader.isoDate, h ts t ht]; rfl⟩

theorem ratingAverage_isOk {ratings : List Rating} :
    (∃ average, ratingAverage p ratings = .ok average) ↔ ∀ rating ∈ ratings, rating.Countable p := by
  have hscores : (∃ scores, ((ratings.map Rating.score).filter isSome).mapM p.floatOf = .ok scores) ↔
      ∀ rating ∈ ratings, rating.Countable p := by
    simp only [mapM_isOk, List.mem_filter, List.mem_map, and_imp, forall_exists_index,
      forall_apply_eq_imp_iff₂, Rating.Countable]
  rw [← hscores, ratingAverage]
  constructor
  · intro h
    obtain ⟨average, h⟩ := h
    obtain ⟨scores, hscores, -⟩ := bind_eq_ok.mp h
    exact ⟨scores, hscores⟩
  · intro h
    obtain ⟨scores, hscores⟩ := h
    by_cases hempty : scores.isEmpty = true
    · exact ⟨none, bind_eq_ok.mpr ⟨scores, hscores, if_pos hempty⟩⟩
    · exact ⟨_, bind_eq_ok.mpr ⟨scores, hscores, if_neg hempty⟩⟩

theorem dashboardHome_isOk (h : store.Readable) (hreads : reader.ReadsBack) (days : Int) :
    (∃ page, dashboardHome reader store session cutoff days = .ok page) ↔ ∀ s ∈ session, s.Fits := by
  cases session with
  | none => exact ⟨fun _ _ hs => (nomatch hs), fun _ => ⟨_, rfl⟩⟩
  | some s =>
      have hdated : Dated reader.isoDate (windowRecords store (scopeFor s store)
          (windowStart cutoff (clampDays days))) :=
        dated_windowRecords (isoDates_of_readable h) (readsDates_of_readsBack hreads)
      obtain ⟨data, hdata⟩ := (overview_isOk hdated).mpr (scored_of_readable h)
      simp only [Option.mem_some_iff, forall_eq']
      dsimp only [dashboardHome]
      rw [hdata]
      exact render_isOk.trans (and_iff_left ⟨_, rfl⟩)

theorem keptOut_iff {allowed : Option (Finset Int)} {key : Int} :
    (allowed.any fun keys => key ∉ keys) = true ↔ ¬LetThrough allowed key := by
  cases allowed <;> simp [LetThrough]

/-- A page behind the check of the scope. -/
theorem guarded_isOk {α : Type} {allowed : Option (Finset Int)} {key : Int} {s : Session} {message : String}
    {x : Except PyError (PageResponse α)} {shown : Prop} (hx : (∃ page, x = .ok page) ↔ s.Fits ∧ shown) :
    (∃ page, (if (allowed.any fun keys => key ∉ keys) then forbidden store s message else x) = .ok page) ↔
      s.Fits ∧ (LetThrough allowed key → shown) := by
  by_cases hout : (allowed.any fun keys => key ∉ keys) = true
  · rw [if_pos hout, forbidden_isOk]
    exact (and_iff_left fun hin => absurd hin (keptOut_iff.mp hout)).symm
  · rw [if_neg hout, hx]
    have hin := not_not.mp (mt keptOut_iff.mpr hout)
    exact and_congr_right fun _ => ⟨fun h _ => h, fun h => h hin⟩

theorem courseDetail_isOk (courseId : Int) :
    (∃ page, courseDetail reader store session courseId = .ok page) ↔ ∀ s ∈ session, s.Fits ∧
      (LetThrough (store.courseIdsInScope (scopeFor s store)) courseId →
        CourseShown store (scopeFor s store) courseId) := by
  cases session with
  | none => exact ⟨fun _ _ hs => (nomatch hs), fun _ => ⟨_, rfl⟩⟩
  | some s =>
      simp only [Option.mem_some_iff, forall_eq']
      refine guarded_isOk ?_
      constructor
      · intro h
        obtain ⟨page, h⟩ := h
        obtain ⟨key, hkey, h⟩ := bind_eq_ok.mp h
        obtain ⟨hfits, _, h⟩ := render_isOk.mp ⟨page, h⟩
        obtain ⟨starts, hstarts, -⟩ := bind_eq_ok.mp h
        obtain rfl := bindKey_eq hkey
        refine ⟨hfits, bindKey_isOk.mp ⟨_, hkey⟩, fun l hl => ?_⟩
        exact tsKst_isOk.mp (mapM_isOk.mp ⟨starts, hstarts⟩ l hl)
      · intro h
        obtain ⟨hfits, hkey, hstarts⟩ := h
        obtain ⟨starts, hstarts⟩ := mapM_isOk.mpr fun l hl => tsKst_isOk.mpr (hstarts l hl)
        refine bind_isOk.mpr ⟨courseId, bindKey_of_inRange hkey, ?_⟩
        exact render_isOk.mpr ⟨hfits, bind_isOk.mpr ⟨starts, hstarts, _, rfl⟩⟩

/-- What a detail that was found says of the student. -/
structure StudentDetail.Of (detail : StudentDetail) (store : Store) (scope : Scope) (since : String)
    (key : Int) : Prop where
  inRange : SqlValue.inRange key = true
  uid : detail.uid = key
  name : detail.name = displayName ((students store scope).lookup key) key
  rows : detail.rows = studentRecords store scope key since

theorem studentDetail_found {uid : Int} {scope : Scope} {since : String} {detail : StudentDetail}
    (h : studentDetail isoDate store uid scope since = .ok detail) : detail.Of store scope since uid := by
  obtain ⟨key, hkey, h⟩ := bind_eq_ok.mp h
  obtain rfl := bindKey_eq hkey
  iterate 5 obtain ⟨_, _, h⟩ := bind_eq_ok.mp h
  obtain rfl := pure_eq_ok.mp h
  exact ⟨bindKey_isOk.mp ⟨_, hkey⟩, rfl, rfl, rfl⟩

theorem isoCell_of_mem {scope : Scope} {filter : RecordFilter} (h : store.Readable) {row : LessonRecord}
    (hrow : row ∈ lessonRecords store scope filter) : IsoCell (row.cells .lessonDate) := by
  rw [cell_of_mem hrow]
  exact h.cells _ .lessonDate

theorem studentsView_isOk (h : store.Readable) (hreads : reader.ReadsBack) (uid : Option Int) (days : Int) :
    (∃ page, studentsView reader store session cutoff uid days = .ok page) ↔
      ∀ s ∈ session, s.Fits ∧ ∀ n ∈ uid, LetThrough (studentUidsInScope store (scopeFor s store)) n →
        StudentShown store (scopeFor s store) (windowStart cutoff 180) n := by
  cases session with
  | none => exact ⟨fun _ _ hs => (nomatch hs), fun _ => ⟨_, rfl⟩⟩
  | some s =>
      have hscored : Scored (windowRecords store (scopeFor s store) (windowStart cutoff (clampDays days))) :=
        scored_of_readable h
      obtain ⟨list, hlist⟩ := studentsSummary_isOk.mpr hscored
      simp only [Option.mem_some_iff, forall_eq']
      dsimp only [studentsView]
      rw [hlist]
      cases uid with
      | none => exact render_isOk.trans (and_congr_right fun _ => iff_of_true ⟨_, rfl⟩ fun _ hn => (nomatch hn))
      | some n =>
          simp only [Option.mem_some_iff, forall_eq']
          refine guarded_isOk ?_
          constructor
          · intro hpage
            obtain ⟨page, hpage⟩ := hpage
            obtain ⟨detail, hdetail, hpage⟩ := bind_eq_ok.mp hpage
            obtain ⟨hfits, _, hpage⟩ := render_isOk.mp ⟨page, hpage⟩
            obtain ⟨dates, hdates, -⟩ := bind_eq_ok.mp hpage
            have hfound := studentDetail_found hdetail
            rw [hfound.rows] at hdates
            refine ⟨hfits, hfound.inRange, fun row hrow => ?_⟩
            exact (cellDateKst_isOk hreads (isoCell_of_mem h hrow)).mp (mapM_isOk.mp ⟨dates, hdates⟩ row hrow)
          · intro hshown
            obtain ⟨hfits, hrange, hdates⟩ := hshown
            have hdetail : ∃ detail, studentDetail reader.isoDate store n (scopeFor s store)
                (windowStart cutoff 180) = .ok detail :=
              studentDetail_isOk h (readsDates_of_readsBack hreads) hrange (cutoff 180)
            obtain ⟨detail, hdetail⟩ := hdetail
            have hshow : ∀ row ∈ detail.rows,
                ∃ text, cellDateKst reader (row.cells .lessonDate) = .ok text := by
              intro row hrow
              rw [(studentDetail_found hdetail).rows] at hrow
              exact (cellDateKst_isOk hreads (isoCell_of_mem h hrow)).mpr (hdates row hrow)
            obtain ⟨dates, hdates⟩ := mapM_isOk.mpr hshow
            refine bind_isOk.mpr ⟨detail, hdetail, ?_⟩
            exact render_isOk.mpr ⟨hfits, bind_isOk.mpr ⟨dates, hdates, _, rfl⟩⟩

theorem teacherRatings_isOk {scope : Scope} {uid : Int} :
    (∃ ratings, teacherRatings p store scope uid = .ok ratings) ↔ SqlValue.inRange uid = true := by
  have hbind : (ratingEvents uid).bindable = SqlValue.inRange uid := by
    simp [EventFilter.bindable, ratingEvents, EventFilter.none, PyStr.encode, Except.isOk, Except.toBool]
  rw [teacherRatings, map_isOk, ← hbind]
  constructor
  · intro h
    obtain ⟨rows, h⟩ := h
    obtain ⟨_, hbound, -⟩ := bind_eq_ok.mp h
    exact (bind_isOk_iff _).mp hbound
  · intro h
    obtain ⟨rows, hrows, -⟩ := events_isOk store scope h
    exact ⟨rows, hrows⟩

/-- A teacher is sent to the own page from any other one. -/
def SeesTeacher (session : Session) (uid : Option Int) : Prop :=
  session.role = .teacher → uid = session.teacherUid

theorem teachersView_isOk (h : store.Readable) (hreads : reader.ReadsBack) (uid : Option Int) (days : Int) :
    (∃ page, teachersView p reader store session cutoff uid days = .ok page) ↔
      ∀ s ∈ session, SeesTeacher s uid → s.Fits ∧ ∀ n ∈ nonzero uid,
        TeacherShown p store (scopeFor s store) (windowStart cutoff (clampDays days)) n := by
  cases session with
  | none => exact ⟨fun _ _ hs => (nomatch hs), fun _ => ⟨_, rfl⟩⟩
  | some s =>
      simp only [Option.mem_some_iff, forall_eq']
      dsimp only [teachersView]
      by_cases hother : s.role = .teacher ∧ uid ≠ s.teacherUid
      · rw [if_pos hother]
        exact ⟨fun _ hsees => absurd (hsees hother.1) hother.2, fun _ => ⟨_, rfl⟩⟩
      · rw [if_neg hother]
        have hsees : SeesTeacher s uid := fun hrole => not_not.mp fun hne => hother ⟨hrole, hne⟩
        obtain ⟨list, hlist⟩ := teachersSummary_isOk h (readsDates_of_readsBack hreads) p (scopeFor s store)
          (windowStart cutoff (clampDays days))
        rw [hlist, forall_prop_of_true hsees]
        cases nonzero uid with
        | none =>
            exact render_isOk.trans (and_congr_right fun _ => iff_of_true ⟨_, rfl⟩ fun _ hn => (nomatch hn))
        | some n =>
            simp only [Option.mem_some_iff, forall_eq']
            have hshown := dates_teachersSummary hlist n
              (P := fun cell => ∃ text, cellDateKst reader cell = .ok text)
            have hdates :
                (∀ row ∈ lessonsTaught store (scopeFor s store) (windowStart cutoff (clampDays days)) n,
                  ∃ text, cellDateKst reader (row.cells .lessonDate) = .ok text) ↔
                ∀ row ∈ lessonsTaught store (scopeFor s store) (windowStart cutoff (clampDays days)) n,
                  DateShown (row.cells .lessonDate) :=
              forall₂_congr fun row hrow => cellDateKst_isOk hreads
                (isoCell_of_mem h (List.mem_of_mem_filter (mem_of_mem_firsts hrow)))
            rw [hdates, ← mapM_isOk] at hshown
            constructor
            · intro hpage
              obtain ⟨page, hpage⟩ := hpage
              obtain ⟨_, hsame, hpage⟩ := bind_eq_ok.mp hpage
              obtain rfl := Except.ok.inj hsame
              obtain ⟨ratings, hratings, hpage⟩ := bind_eq_ok.mp hpage
              obtain ⟨average, haverage, hpage⟩ := bind_eq_ok.mp hpage
              obtain ⟨hfits, _, hpage⟩ := render_isOk.mp ⟨page, hpage⟩
              obtain ⟨dates, hdates, -⟩ := bind_eq_ok.mp hpage
              refine ⟨hfits, teacherRatings_isOk.mp ⟨ratings, hratings⟩, fun ratings' hratings' => ?_,
                hshown.mp ⟨dates, hdates⟩⟩
              cases hratings.symm.trans hratings'
              exact ratingAverage_isOk.mp ⟨average, haverage⟩
            · intro hpage
              obtain ⟨hfits, hrange, hcounts, hdates⟩ := hpage
              obtain ⟨ratings, hratings⟩ := teacherRatings_isOk.mpr hrange
              obtain ⟨average, haverage⟩ := ratingAverage_isOk.mpr (hcounts ratings hratings)
              obtain ⟨dates, hdates⟩ := hshown.mpr hdates
              refine bind_isOk.mpr ⟨list, rfl, bind_isOk.mpr ⟨ratings, hratings,
                bind_isOk.mpr ⟨average, haverage, ?_⟩⟩⟩
              exact render_isOk.mpr ⟨hfits, bind_isOk.mpr ⟨dates, hdates, _, rfl⟩⟩

end Pages

/-- Whatever requests are in flight, the pages of the dashboard return for every session of the process;
but for a key out of range that the scope lets through, an evaluation of the shown teacher whose score is
no number, and a shown lesson that starts in the hours that Korea's calendar lacks. -/
theorem pages_return (d : Deployment) (reader : DateReader) (htext : TextOnly d.platform)
    (hreads : reader.ReadsBack) (app : App) (hstart : app.site.store.Readable)
    (hsessions : SessionsFaithful app) (haccounts : AccountsFit app.site.store)
    (actions : List (Action Visit)) (token : String) (cutoff : Int → DateTime) :
    let site := ((dashboard d).run app.idle actions).shared.site
    let store := site.store
    let session := (site.sessions token).map StoredSession.session
    (∀ days, ∃ page, dashboardHome reader store session cutoff days = .ok page) ∧
    (∀ courseId, (∃ page, courseDetail reader store session courseId = .ok page) ↔
      ∀ s ∈ session, LetThrough (store.courseIdsInScope (scopeFor s store)) courseId →
        CourseShown store (scopeFor s store) courseId) ∧
    (∀ uid days, (∃ page, studentsView reader store session cutoff uid days = .ok page) ↔
      ∀ s ∈ session, ∀ n ∈ uid, LetThrough (studentUidsInScope store (scopeFor s store)) n →
        StudentShown store (scopeFor s store) (windowStart cutoff 180) n) ∧
    ∀ uid days, (∃ page, teachersView d.platform reader store session cutoff uid days = .ok page) ↔
      ∀ s ∈ session, SeesTeacher s uid → ∀ n ∈ nonzero uid,
        TeacherShown d.platform store (scopeFor s store) (windowStart cutoff (clampDays days)) n := by
  intro site store session
  have hstored : store.Readable := readable_run htext hstart actions
  have hfits : ∀ s ∈ session, s.Fits := by
    intro s hs
    obtain ⟨stored, hfound, rfl⟩ := Option.map_eq_some_iff.mp hs
    exact sessions_fit hsessions haccounts actions token stored hfound
  have hfit {P : Session → Prop} : (∀ s ∈ session, s.Fits ∧ P s) ↔ ∀ s ∈ session, P s :=
    forall₂_congr fun s hs => and_iff_right (hfits s hs)
  refine ⟨fun days => (dashboardHome_isOk hstored hreads days).mpr hfits,
    fun courseId => (courseDetail_isOk courseId).trans hfit,
    fun uid days => (studentsView_isOk hstored hreads uid days).trans hfit, fun uid days => ?_⟩
  refine (teachersView_isOk hstored hreads uid days).trans (forall₂_congr fun s hs => ?_)
  exact imp_congr_right fun _ => and_iff_right (hfits s hs)

/-- A reader of texts in UTC. -/
def utcReader : DateReader where
  fromIso text :=
    match DateTime.ofUtcIso? text with
    | some t => .ok t
    | none => .error .valueError
  strftime day := day.isoformat
  machine _ := .utc

theorem utcReader_readsBack : utcReader.ReadsBack := by
  intro ts t ht
  unfold utcReader
  dsimp only
  rw [DateTime.ofUtcIso?_ofTimestamp? ht]

theorem textOnly_plain : TextOnly .plain := by
  intro value s h
  cases value with
  | str text =>
      cases text with
      | text t => exact congrArg (fun t => PyValue.str (.text t)) (Option.some.inj h)
      | lone _ _ => cases h
  | _ => cases h

theorem readable_kimsSchool : kimsSchool.Readable := by
  refine ⟨fun key c => ?_, fun _ hrow => (nomatch hrow)⟩
  cases c <;> first | trivial | exact .inl rfl

theorem fits_kimsSchool : AccountsFit kimsSchool := by
  unfold AccountsFit UserRow.Fits
  decide

/-- The lessons of four weeks, and an evaluation of their teacher. -/
def termMessages : List PyValue :=
  mayMessages ++ [.object [("Cmd", .string "Rating"), ("_id", .string "f"), ("TUID", .int 20),
    ("Comments", .object [("9", .object [("S2T", .object [("Score", .int 5)])])])]]

/-- The owner logs in, and these messages are worked off. -/
def termActions : List (Action Visit) :=
  .arrive ⟨0, .login "a" ⟨"", "", "", "open"⟩ (.ok (false, "")) "o"⟩ ::
    posted termMessages (List.replicate 16 (List.range 7)).flatten

def termSite : Site := ((dashboard kimsDeployment).run (App.start kimsSchool .empty 0).idle termActions).shared.site

def termStore : Store := termSite.store

theorem readable_term : termStore.Readable := by
  unfold termStore termSite
  exact readable_run textOnly_plain readable_kimsSchool termActions

/-- Records on days that a reader shows. -/
theorem dateShown_of_mem {reader : DateReader} {store : Store} {scope : Scope} {filter : RecordFilter}
    (h : store.Readable) (hreads : reader.ReadsBack)
    (hdates : ∀ row ∈ store.allRecords, (cellDateKst reader (row.cells .lessonDate)).toOption.isSome = true) :
    ∀ row ∈ lessonRecords store scope filter, DateShown (row.cells .lessonDate) := by
  intro row hrow
  have hmem := mem_allRecords.mpr (mem_lessonRecords.mp hrow).1
  exact (cellDateKst_isOk hreads (isoCell_of_mem h hrow)).mp (exists_ok (hdates row hmem))

/-- The pages of the owner who logged in. -/
theorem pages_return_term :
    let session := (termSite.sessions "o").map StoredSession.session
    (∃ s ∈ session, s.role = .owner ∧ s.branchFilter = none) ∧
    termStore.allRecords.length = 8 ∧
    (∀ days, ∃ page, dashboardHome utcReader termStore session (fun _ => halfPastMidnight) days = .ok page) ∧
    (∃ page, courseDetail utcReader termStore session 3 = .ok page) ∧
    (∃ page, studentsView utcReader termStore session (fun _ => halfPastMidnight) (some 9) 90 = .ok page) ∧
    ∃ page, teachersView .plain utcReader termStore session (fun _ => halfPastMidnight) (some 20) 90 =
      .ok page := by
  intro session
  have howner : ∃ s ∈ session, s.role = .owner ∧ s.branchFilter = none := by
    decide +kernel
  have hscope : ∀ s ∈ session, scopeFor s termStore = .all := by
    obtain ⟨s, hs, hrole, hfilter⟩ := howner
    intro s' hs'
    cases Option.mem_unique hs hs'
    rw [scopeFor, hrole, hfilter]
  have hstarts : ∀ l ∈ lessons termStore .all (some 3),
      (tsKst utcReader l.2.startTime).toOption.isSome = true := by
    decide +kernel
  have hdates : ∀ row ∈ termStore.allRecords,
      (cellDateKst utcReader (row.cells .lessonDate)).toOption.isSome = true := by
    decide +kernel
  have hscores : ∀ ratings ∈ (teacherRatings .plain termStore .all 20).toOption, ∀ rating ∈ ratings,
      (Platform.plain.floatOf rating.score).toOption.isSome = true := by
    decide +kernel
  have hpages := pages_return kimsDeployment utcReader textOnly_plain utcReader_readsBack
    (App.start kimsSchool .empty 0) readable_kimsSchool (fun _ _ h => nomatch h) fits_kimsSchool
    termActions "o" fun _ => halfPastMidnight
  rw [← termSite] at hpages
  obtain ⟨hhome, hcourse, hstudents, hteachers⟩ := hpages
  refine ⟨howner, by decide +kernel, hhome, (hcourse 3).mpr fun s hs _ => ?_,
    (hstudents (some 9) 90).mpr fun s hs n hn _ => ?_,
    (hteachers (some 20) 90).mpr fun s hs _ n hn => ?_⟩
  · show CourseShown termStore (scopeFor s termStore) 3
    rw [hscope s hs]
    exact ⟨by decide, fun l hl => tsKst_isOk.mp (exists_ok (hstarts l hl))⟩
  · show StudentShown termStore (scopeFor s termStore) _ n
    rw [hscope s hs]
    cases hn
    exact ⟨by decide, dateShown_of_mem readable_term utcReader_readsBack hdates⟩
  · show TeacherShown .plain termStore (scopeFor s termStore) _ n
    rw [hscope s hs]
    cases hn
    refine ⟨by decide, fun ratings hratings rating hrating _ => ?_, fun row hrow => ?_⟩
    · have hread : ratings ∈ (teacherRatings .plain termStore .all 20).toOption := by
        rw [hratings]
        rfl
      exact exists_ok (hscores ratings hread rating hrating)
    · exact dateShown_of_mem readable_term utcReader_readsBack hdates row
        (List.mem_of_mem_filter (mem_of_mem_firsts hrow))

end ClassinDashboard

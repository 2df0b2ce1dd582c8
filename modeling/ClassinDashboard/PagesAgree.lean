import ClassinDashboard.PagesReturn

/-!
Pages that agree. The list of students and the detail of one of them read windows of their own, and the
overview counts what the page of a course lists; a link of one page leads to a page that tells the same.
-/

namespace ClassinDashboard

open Py Sql

/-! ### Students -/

section Students

variable {isoDate : IsoDate} {store : Store} {scope : Scope} {since start : String}

/-- The rows of a list from a date on. -/
def rowsFrom (since : String) (rows : List LessonRecord) : List LessonRecord :=
  rows.filter fun row => onOrAfter (row.cells .lessonDate) since

theorem onOrAfter_of_le {cell : SqlValue} (h : start ≤ since) (hcell : onOrAfter cell since = true) :
    onOrAfter cell start = true := by
  unfold onOrAfter at hcell ⊢
  cases hdate : cell.toText? with
  | none =>
      rw [hdate] at hcell
      cases hcell
  | some date =>
      rw [hdate] at hcell
      exact decide_eq_true (h.trans (of_decide_eq_true hcell))

/-- A window that begins later holds the later rows of the wider one. -/
theorem windowRecords_narrow (hstart : start ≠ "") (hsince : since ≠ "") (hle : start ≤ since) :
    windowRecords store scope since = rowsFrom since (windowRecords store scope start) := by
  rw [rowsFrom, windowRecords, windowRecords, lessonRecords, lessonRecords, List.filter_filter,
    filter_mergeSort laterFirst_trans laterFirst_total, filter_mergeSort laterFirst_trans laterFirst_total,
    List.filter_filter, List.filter_filter]
  congr 1
  refine List.filter_congr fun record _ => ?_
  rw [Bool.eq_iff_iff]
  simp only [Bool.and_eq_true, matches_since_iff hstart, matches_since_iff hsince]
  constructor
  · intro h
    exact ⟨⟨h.2, h.1⟩, onOrAfter_of_le hle h.2⟩
  · intro h
    exact ⟨h.1.2, h.1.1⟩

theorem mem_studentsSummary {list : List StudentSummary} (h : studentsSummary store scope since = .ok list)
    {s : StudentSummary} (hs : s ∈ list) :
    s.name = displayName ((students store scope).lookup s.uid) s.uid ∧
      studentMetrics ((windowRecords store scope since).filter fun row => row.studentUid = s.uid) =
        .ok s.metrics := by
  obtain ⟨out, hout, rfl⟩ := studentsSummary_eq_ok.mp h
  obtain ⟨group, hgroup, hread⟩ := exists_of_mem_mapM hout (List.mem_mergeSort.mp hs)
  obtain ⟨metrics, hmetrics, rfl⟩ := map_eq_ok.mp hread
  refine ⟨rfl, ?_⟩
  rw [← mem_perStudent hgroup]
  exact hmetrics

theorem mem_uids_iff {list : List StudentSummary} (h : studentsSummary store scope since = .ok list)
    (uid : Int) :
    (∃ s ∈ list, s.uid = uid) ↔ ∃ row ∈ windowRecords store scope since, row.studentUid = uid := by
  obtain ⟨out, hout, rfl⟩ := studentsSummary_eq_ok.mp h
  have huids := summaries_uids hout
  rw [perStudent, keys_groupOn] at huids
  calc (∃ s ∈ out.mergeSort StudentSummary.before, s.uid = uid) ↔ uid ∈ out.map StudentSummary.uid := by
        simp only [List.mem_mergeSort, List.mem_map]
    _ ↔ ∃ row ∈ windowRecords store scope since, row.studentUid = uid := by
        rw [huids, List.mem_eraseDups, List.mem_map]

/-- What the detail of a student has in common with the list beside it, which begins later. -/
structure StudentDetail.Agrees (detail : StudentDetail) (list : List StudentSummary) (since : String) :
    Prop where
  listed : (∃ s ∈ list, s.uid = detail.uid) ↔ rowsFrom since detail.rows ≠ []
  name : ∀ s ∈ list, s.uid = detail.uid → s.name = detail.name
  metrics : ∀ s ∈ list, s.uid = detail.uid → studentMetrics (rowsFrom since detail.rows) = .ok s.metrics

theorem studentDetail_agrees (hstart : start ≠ "") (hsince : since ≠ "") (hle : start ≤ since)
    {list : List StudentSummary} (hlist : studentsSummary store scope since = .ok list) {uid : Int}
    {detail : StudentDetail} (hdetail : studentDetail isoDate store uid scope start = .ok detail) :
    detail.Agrees list since := by
  have hfound := studentDetail_found hdetail
  have hrows : rowsFrom since detail.rows =
      (windowRecords store scope since).filter fun row => row.studentUid = detail.uid := by
    rw [hfound.rows, hfound.uid, studentRecords_eq, windowRecords_narrow hstart hsince hle, rowsFrom, rowsFrom,
      List.filter_filter, List.filter_filter]
    exact List.filter_congr fun _ _ => Bool.and_comm _ _
  constructor
  · rw [mem_uids_iff hlist, hrows]
    simp only [ne_eq, List.filter_eq_nil_iff, decide_eq_true_eq, not_forall, not_not, exists_prop]
  · intro s hs huid
    obtain ⟨hname, -⟩ := mem_studentsSummary hlist hs
    rw [hname, huid, hfound.name, hfound.uid]
  · intro s hs huid
    obtain ⟨-, hmetrics⟩ := mem_studentsSummary hlist hs
    rw [hrows, ← huid]
    exact hmetrics

variable {reader : DateReader} {s : Session} {cutoff : Int → DateTime} {days : Int}

theorem studentsView_page {uid : Option Int} {view : SessionView} {page : StudentsPage}
    (h : studentsView reader store (some s) cutoff uid days = .ok (.page view page)) :
    sessionView store s = .ok view ∧
      studentsSummary store (scopeFor s store) (windowStart cutoff (clampDays days)) = .ok page.students ∧
      ∀ detail ∈ page.detail, ∃ n ∈ uid,
        studentDetail reader.isoDate store n (scopeFor s store) (windowStart cutoff 180) = .ok detail := by
  obtain ⟨list, hlist, h⟩ := bind_eq_ok.mp h
  cases uid with
  | none =>
      obtain ⟨_, _, hview, hdata, h⟩ := render_eq_ok.mp h
      cases h
      cases hdata
      exact ⟨hview, hlist, fun _ hd => (nomatch hd)⟩
  | some n =>
      dsimp only at h
      split at h
      · obtain ⟨_, _, h⟩ := bind_eq_ok.mp h
        cases h
      · obtain ⟨detail, hdetail, h⟩ := bind_eq_ok.mp h
        obtain ⟨_, _, hview, hdata, h⟩ := render_eq_ok.mp h
        cases h
        obtain ⟨dates, -, hdata⟩ := bind_eq_ok.mp hdata
        cases hdata
        refine ⟨hview, hlist, fun found hfound => ⟨n, rfl, ?_⟩⟩
        cases hfound
        exact hdetail

/-- A student of the list is in the scope. -/
theorem uid_in_scope {list : List StudentSummary} (hlist : studentsSummary store scope since = .ok list)
    {listed : StudentSummary} (hlisted : listed ∈ list) :
    ∀ uids ∈ studentUidsInScope store scope, listed.uid ∈ uids := by
  intro uids huids
  obtain ⟨row, hrow, huid⟩ := (mem_uids_iff hlist listed.uid).mp ⟨listed, hlisted, rfl⟩
  rw [studentUidsInScope] at huids
  split at huids
  · cases huids
  · cases huids
    obtain ⟨hfind, -, hscope⟩ := mem_lessonRecords.mp hrow
    refine List.mem_toFinset.mpr (List.mem_map.mpr ⟨row, ?_, huid⟩)
    exact mem_lessonRecords.mpr ⟨hfind, rfl, hscope⟩

end Students

/-- The page of the students tells of a student what its list tells, when the list begins no earlier than
the detail; and a request for a student of the list that returns gives that student's page. -/
theorem students_page_agrees (reader : DateReader) (store : Store) (s : Session) (cutoff : Int → DateTime)
    (uid : Option Int) (days : Int) (view : SessionView) (page : StudentsPage)
    (h : studentsView reader store (some s) cutoff uid days = .ok (.page view page)) :
    (windowStart cutoff 180 ≤ windowStart cutoff (clampDays days) →
      ∀ detail ∈ page.detail, detail.Agrees page.students (windowStart cutoff (clampDays days))) ∧
    ∀ listed ∈ page.students, ∀ response,
      studentsView reader store (some s) cutoff (some listed.uid) days = .ok response →
        ∃ own detail, response = .page view own ∧ own.students = page.students ∧
          own.detail = some detail ∧ detail.uid = listed.uid := by
  obtain ⟨hview, hlist, hdetail⟩ := studentsView_page h
  refine ⟨fun hwindow detail hd => ?_, fun listed hlisted response hresponse => ?_⟩
  · obtain ⟨n, -, hn⟩ := hdetail detail hd
    exact studentDetail_agrees (isoformat_ne_empty _) (isoformat_ne_empty _) hwindow hlist hn
  · have hin := uid_in_scope hlist hlisted
    obtain ⟨list, hlist', hresponse⟩ := bind_eq_ok.mp hresponse
    cases hlist.symm.trans hlist'
    dsimp only at hresponse
    rw [if_neg fun hout => keptOut_iff.mp hout hin] at hresponse
    obtain ⟨detail, hdetail, hresponse⟩ := bind_eq_ok.mp hresponse
    obtain ⟨view', own, hview', hown, rfl⟩ := render_eq_ok.mp hresponse
    cases hview.symm.trans hview'
    obtain ⟨dates, -, hown⟩ := bind_eq_ok.mp hown
    obtain rfl := pure_eq_ok.mp hown
    exact ⟨_, detail, rfl, rfl, rfl, (studentDetail_found hdetail).uid⟩

/-- The windows of a day in August 2026: the detail's begins on 5 February, the list's on the sixth of
May. -/
def augustCutoff (days : Int) : DateTime :=
  if days = 180 then
    { halfPastMidnight with
      moment := { halfPastMidnight.moment with day := ⟨739652, by decide, by decide⟩ } }
  else halfPastMidnight

/-- A student with a lesson before the list's window and two in it. -/
theorem students_page_agrees_august :
    let s : Session := ⟨"100", "default", .owner, none, "원장", none, none, none⟩
    let since := windowStart augustCutoff (clampDays 90)
    ∃ view page detail,
      studentsView utcReader termStore (some s) augustCutoff (some 9) 90 = .ok (.page view page) ∧
      page.detail = some detail ∧ detail.rows.length = 3 ∧ (rowsFrom since detail.rows).length = 2 ∧
      detail.Agrees page.students since ∧
      (∀ uid ∈ [9, 10, 11], ∃ listed ∈ page.students, listed.uid = uid) ∧
      ∀ listed ∈ page.students, ∀ response,
        studentsView utcReader termStore (some s) augustCutoff (some listed.uid) 90 = .ok response →
          ∃ own found, response = .page view own ∧ own.students = page.students ∧
            own.detail = some found ∧ found.uid = listed.uid := by
  intro s since
  have hscored : Scored (windowRecords termStore .all since) := scored_of_readable readable_term
  have hview : ∃ view, sessionView termStore s = .ok view :=
    sessionView_isOk.mpr ⟨fun _ h => (nomatch h), fun h => (nomatch h)⟩
  have hdetail : ∃ detail, studentDetail utcReader.isoDate termStore 9 .all (windowStart augustCutoff 180) =
      .ok detail :=
    studentDetail_isOk readable_term (readsDates_of_readsBack utcReader_readsBack) (by decide) (augustCutoff 180)
  have hshown : ∀ row ∈ termStore.allRecords,
      (cellDateKst utcReader (row.cells .lessonDate)).toOption.isSome = true := by
    decide +kernel
  obtain ⟨view, hview⟩ := hview
  obtain ⟨list, hlist⟩ := studentsSummary_isOk.mpr hscored
  obtain ⟨detail, hdetail⟩ := hdetail
  have hrows := (studentDetail_found hdetail).rows
  have hperm := matching_perm termStore .all
    { RecordFilter.none with studentUid := some 9, since := some (windowStart augustCutoff 180) }
  have hdates : ∃ dates, detail.rows.mapM (fun row => cellDateKst utcReader (row.cells .lessonDate)) =
      .ok dates := by
    refine mapM_isOk.mpr fun row hrow => ?_
    rw [hrows] at hrow
    exact exists_ok (hshown row (mem_allRecords.mpr (mem_lessonRecords.mp hrow).1))
  obtain ⟨dates, hdates⟩ := hdates
  have hpage : studentsView utcReader termStore (some s) augustCutoff (some 9) 90 =
      .ok (.page view ⟨list, some detail, dates⟩) :=
    bind_eq_ok.mpr ⟨list, hlist, bind_eq_ok.mpr ⟨detail, hdetail, render_eq_ok.mpr
      ⟨view, _, hview, bind_eq_ok.mpr ⟨dates, hdates, rfl⟩, rfl⟩⟩⟩
  have hwindow : windowStart augustCutoff 180 ≤ windowStart augustCutoff (clampDays 90) := by decide +kernel
  have huids : ∀ uid ∈ [9, 10, 11], ∃ record ∈ (termStore.allRecords.filter (RecordFilter.matches
      { RecordFilter.none with since := some since })).filter fun record =>
        record.inScope (termStore.scopeKeys .all), record.studentUid = uid := by
    decide +kernel
  obtain ⟨hagrees, hpages⟩ :=
    students_page_agrees utcReader termStore s augustCutoff (some 9) 90 view ⟨list, some detail, dates⟩ hpage
  refine ⟨view, _, detail, hpage, rfl, ?_, ?_, hagrees hwindow detail rfl, fun uid huid => ?_, hpages⟩
  · rw [hrows, studentRecords, hperm.length_eq]
    decide +kernel
  · rw [hrows, studentRecords, rowsFrom, (hperm.filter _).length_eq]
    decide +kernel
  · obtain ⟨record, hrecord, huid⟩ := huids uid huid
    exact (mem_uids_iff hlist uid).mpr ⟨record, (matching_perm ..).symm.subset hrecord, huid⟩

/-! ### Courses -/

section Courses

variable {store : Store} {scope : Scope}

/-- The number of a key among the counted ones. -/
theorem lookup_counted (ids : List Int) (k : Int) :
    (((groupOn id ids).map fun group => (group.1, group.2.length)).lookup k).getD 0 = ids.count k := by
  have hcounted : (groupOn id ids).map (fun group => (group.1, group.2.length)) =
      ids.eraseDups.map fun k => (k, ids.count k) := by
    rw [groupOn, List.map_id, List.map_map]
    refine List.map_congr_left fun k _ => ?_
    rw [Function.comp_apply, List.count, List.countP_eq_length_filter]
    rfl
  rw [hcounted]
  by_cases hk : k ∈ ids
  · rw [List.lookup_graph _ (List.mem_eraseDups.mpr hk)]
    rfl
  · have hnone : (ids.eraseDups.map fun k => (k, ids.count k)).lookup k = none := by
      rw [List.lookup_eq_none_iff]
      intro entry hentry
      obtain ⟨other, hother, rfl⟩ := List.mem_map.mp hentry
      rw [List.mem_eraseDups] at hother
      have hne : k ≠ other := by
        rintro rfl
        exact hk hother
      simpa using hne
    rw [hnone, List.count_eq_zero_of_not_mem hk]
    rfl

/-- The lessons with a course id of their own, by that id. -/
theorem count_courseIds {courseId : Int} (hne : courseId ≠ 0) :
    ((lessons store scope none).filterMap fun l => nonzero l.2.courseId).count courseId =
      (lessons store scope (some courseId)).length := by
  have hkey (id : Option Int) : (nonzero id == some courseId) = decide (id = some courseId) := by
    rw [Bool.eq_iff_iff, beq_iff_eq, decide_eq_true_eq, nonzero, Option.filter_eq_some_iff]
    exact and_iff_left (decide_eq_true hne)
  rw [List.count_filterMap, lessons, lessons, List.countP_eq_length_filter, List.filter_filter,
    List.filter_filter, List.filter_filter]
  refine congrArg List.length (List.filter_congr fun l _ => ?_)
  rw [hkey, Option.all_none, Option.all_some, Bool.and_true, Bool.and_comm]

theorem find_course {entry : Int × CourseRow} (h : entry ∈ courses store scope) :
    (courses store scope).find? (fun c => c.1 = entry.1) = some entry := by
  have hsub : (courses store scope).Sublist store.courses.rows.reverse := by
    rw [courses]
    split
    · exact List.Sublist.refl _
    · exact List.filter_sublist
  have hkeys : ((courses store scope).map Prod.fst).Nodup := by
    refine (hsub.map Prod.fst).nodup ?_
    rw [List.map_reverse]
    exact List.nodup_reverse.mpr store.courses.keys_nodup
  cases hfind : (courses store scope).find? fun c => c.1 = entry.1 with
  | none => exact absurd (decide_eq_true rfl) (List.find?_eq_none.mp hfind entry h)
  | some found =>
      have hkey := List.find?_some hfind
      rw [decide_eq_true_eq] at hkey
      rw [List.inj_on_of_nodup_map hkeys (List.mem_of_find?_eq_some hfind) h hkey]

/-- What the page of a course has in common with the overview that links to it. -/
structure CourseDetail.Agrees (page : CourseDetail) (home : DashboardHome) (entry : Int × CourseRow) :
    Prop where
  course : page.course = some entry
  lessons : entry.1 ≠ 0 → page.lessons.length = (home.lessonsByCourse.lookup entry.1).getD 0
  attended : (page.lessonStats.map fun lesson =>
    lesson.2.present + lesson.2.late + lesson.2.absent).sum ≤ page.recordCount

theorem sum_lessonStats_le (rows : List LessonRecord) :
    (((groupOn LessonRecord.lessonId rows).map fun group => (group.1, (⟨countAttendance group.2 present,
      countAttendance group.2 late, countAttendance group.2 absent⟩ : LessonStats))).map fun lesson =>
        lesson.2.present + lesson.2.late + lesson.2.absent).sum ≤ rows.length := by
  rw [List.map_map, ← sum_length_groupOn LessonRecord.lessonId rows]
  exact List.sum_le_sum fun group _ => countAttendance_le group.2

end Courses

/-- The page of a course of the overview, when it returns, lists as many lessons as the overview counts. -/
theorem course_pages_agree (reader : DateReader) (store : Store) (s : Session) (cutoff : Int → DateTime)
    (days : Int) (view : SessionView) (home : DashboardHome)
    (h : dashboardHome reader store (some s) cutoff days = .ok (.page view home)) :
    home.data.courseCount = home.courses.length ∧
    (home.lessonsByCourse.map Prod.snd).sum ≤ home.data.lessonCount ∧
    ∀ entry ∈ home.courses, ∀ response, courseDetail reader store (some s) entry.1 = .ok response →
      ∃ page, response = .page view page ∧ page.Agrees home entry := by
  obtain ⟨data, hdata, h⟩ := bind_eq_ok.mp h
  obtain ⟨_, _, hview, hhome, h⟩ := render_eq_ok.mp h
  cases h
  cases hhome
  iterate 3 obtain ⟨_, _, hdata⟩ := bind_eq_ok.mp hdata
  cases pure_eq_ok.mp hdata
  refine ⟨rfl, ?_, fun entry hentry response hresponse => ?_⟩
  · rw [List.map_map]
    exact (sum_length_groupOn id _).trans_le (List.length_filterMap_le _ _)
  · have hin : ∀ ids ∈ store.courseIdsInScope (scopeFor s store), entry.1 ∈ ids := by
      intro ids hids
      dsimp only at hentry
      rw [courses, Option.mem_def.mp hids] at hentry
      exact of_decide_eq_true (List.mem_filter.mp hentry).2
    dsimp only [courseDetail] at hresponse
    rw [if_neg fun hout => keptOut_iff.mp hout hin] at hresponse
    obtain ⟨key, hkey, hresponse⟩ := bind_eq_ok.mp hresponse
    obtain rfl := bindKey_eq hkey
    obtain ⟨view', page, hview', hpage, rfl⟩ := render_eq_ok.mp hresponse
    cases hview.symm.trans hview'
    obtain ⟨starts, -, hpage⟩ := bind_eq_ok.mp hpage
    obtain rfl := pure_eq_ok.mp hpage
    refine ⟨_, rfl, ?_⟩
    constructor
    · exact find_course hentry
    · intro hne
      dsimp only
      rw [lookup_counted, count_courseIds hne]
    · exact sum_lessonStats_le _

/-- The overview of two courses with two lessons each. -/
theorem course_pages_agree_august :
    let s : Session := ⟨"100", "default", .owner, none, "원장", none, none, none⟩
    ∃ view home, dashboardHome utcReader termStore (some s) augustCutoff 90 = .ok (.page view home) ∧
      home.courses.map Prod.fst = [3, 4] ∧ home.lessonsByCourse = [(4, 2), (3, 2)] ∧
      home.data.courseCount = home.courses.length ∧
      (home.lessonsByCourse.map Prod.snd).sum ≤ home.data.lessonCount ∧
      ∀ entry ∈ home.courses, ∀ response, courseDetail utcReader termStore (some s) entry.1 = .ok response →
        ∃ page, response = .page view page ∧ page.Agrees home entry := by
  intro s
  have hdated : Dated utcReader.isoDate
      (windowRecords termStore .all (windowStart augustCutoff (clampDays 90))) :=
    dated_windowRecords (isoDates_of_readable readable_term) (readsDates_of_readsBack utcReader_readsBack)
  have hview : ∃ view, sessionView termStore s = .ok view :=
    sessionView_isOk.mpr ⟨fun _ h => (nomatch h), fun h => (nomatch h)⟩
  obtain ⟨view, hview⟩ := hview
  obtain ⟨data, hdata⟩ := (overview_isOk hdated).mpr (scored_of_readable readable_term)
  have hcourses : (courses termStore (scopeFor s termStore)).map Prod.fst = [3, 4] := by decide +kernel
  have hcounts : ((groupOn id ((lessons termStore (scopeFor s termStore) none).filterMap fun l =>
      nonzero l.2.courseId)).map fun group => (group.1, group.2.length)) = [(4, 2), (3, 2)] := by
    decide +kernel
  have hhome : dashboardHome utcReader termStore (some s) augustCutoff 90 = .ok (.page view
      ⟨data, courses termStore (scopeFor s termStore),
        (groupOn id ((lessons termStore (scopeFor s termStore) none).filterMap fun l =>
          nonzero l.2.courseId)).map fun group => (group.1, group.2.length)⟩) :=
    bind_eq_ok.mpr ⟨data, hdata, render_eq_ok.mpr ⟨view, _, hview, rfl, rfl⟩⟩
  refine ⟨view, _, hhome, ?_, ?_,
    course_pages_agree utcReader termStore s augustCutoff 90 view _ hhome⟩
  · dsimp only
    exact hcourses
  · dsimp only
    exact hcounts

end ClassinDashboard

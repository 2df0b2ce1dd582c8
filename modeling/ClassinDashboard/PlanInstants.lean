import ClassinDashboard.AiParse
import ClassinDashboard.CreateCalls

/-!
The instants of a plan and the instants that are created from it. The preview shows wall clocks, so a
wall clock is meant as Korean time; the rules stamp it so, while the AI reader takes the offset of the
reply, or none. The plan goes through the JSON text of the preview page and its times are turned into
seconds on a machine in an arbitrary zone.
-/

namespace ClassinDashboard

open Py

/-! ### The posted plan -/

section Posted

variable (dateTime : Validator DateTime)

/-- A datetime of `plan_json`, as the plan is dumped and validated again. -/
def rereadTime (t : DateTime) : Except PyError DateTime :=
  match dateTime (.string (t.isoformat "T" "Z")) with
  | some t => .ok t
  | none => .error .validationError

def DatedHomework.reread (homework : DatedHomework) : Except PyError DatedHomework := do
  let dueAt ← homework.dueAt.mapM (rereadTime dateTime)
  pure { homework with dueAt }

def DatedLesson.reread (lesson : DatedLesson) : Except PyError DatedLesson := do
  let startAt ← rereadTime dateTime lesson.startAt
  let endAt ← rereadTime dateTime lesson.endAt
  let homework ← lesson.homework.mapM (DatedHomework.reread dateTime)
  pure { lesson with startAt, endAt, homework }

/-- `ParsePlan.model_validate(json.loads(json.dumps(plan.model_dump(mode="json"))))` -/
def DatedPlan.reread (plan : DatedPlan) : Except PyError DatedPlan := do
  let courses ← plan.courses.mapM fun entry => do
    let lessons ← entry.2.mapM (DatedLesson.reread dateTime)
    pure (entry.1, lessons)
  pure { plan with courses }

variable (zone : DateTime → Except PyError Int)

/-- What `create_execute` reads of a datetime, on a machine in the zone. -/
def planTime (t : DateTime) : PlanTime :=
  ⟨t.isoformat " " "+00:00", t.moment.day, t.timestamp zone⟩

def planLesson (lesson : DatedLesson) : PlanLesson where
  title := String.ofList lesson.title
  startAt := planTime zone lesson.startAt
  endAt := planTime zone lesson.endAt
  homework := lesson.homework.map fun homework =>
    ⟨String.ofList homework.title, homework.dueAt.map (planTime zone)⟩

def planCourse (entry : PlannedCourse × List DatedLesson) : PlanCourse where
  courseName := String.ofList entry.1.courseName
  teacherName := entry.1.teacherName.map String.ofList
  lessons := entry.2.map (planLesson zone)
  teacherUid := entry.1.teacherUid
  existingCourseId := entry.1.existingCourseId
  blockedReason := none

/-- The plan of the form that the preview page posts. -/
def DatedPlan.posted (plan : DatedPlan) : Except PyError (List PlanCourse) :=
  (plan.reread dateTime).map fun plan => plan.courses.map (planCourse zone)

end Posted

/-! ### The instants shown -/

/-- Every time of the lessons and of their homework. -/
def DatedPlan.times (plan : DatedPlan) : List DateTime :=
  plan.courses.flatMap fun entry => entry.2.flatMap DatedLesson.times

def DatedPlan.lesson? (plan : DatedPlan) (i j : Nat) : Option DatedLesson :=
  plan.courses[i]?.bind fun entry => entry.2[j]?

/-- The times that a call sends are the wall clocks of the lesson it is about, read as Korean time. A
homework is sent without a time of zero. -/
def DatedPlan.SendsShown (plan : DatedPlan) : Place × WriteCall → Prop
  | (.lesson i j, .createClass _ _ _ startTime endTime _ _) =>
      ∃ lesson, plan.lesson? i j = some lesson ∧ lesson.startAt.secondsAt .kst = .ok startTime ∧
        lesson.endAt.secondsAt .kst = .ok endTime
  | (.homework i j, .createActivity _ _ _ _ _ startTime endTime) =>
      ∃ lesson homework classEnd dueAt, plan.lesson? i j = some lesson ∧
        lesson.homework = some homework ∧ lesson.endAt.secondsAt .kst = .ok classEnd ∧
        startTime = (some classEnd).filter (· ≠ 0) ∧
        homework.dueAt.mapM (DateTime.secondsAt .kst) = .ok dueAt ∧ endTime = dueAt.filter (· ≠ 0)
  | (_, .createClass ..) | (_, .createActivity ..) => False
  | _ => True

/-- The instants created are the instants shown. The wall clock that the preview prints, to the minute,
is meant in Korean time. -/
structure DatedPlan.Shown (p : Platform) (dateTime : Validator DateTime) (plan : DatedPlan) : Prop where
  aware : ∀ t ∈ plan.times, t.isAware = true
  seconds : ∀ t ∈ plan.times, ∀ zone, (planTime zone t).timestamp = t.secondsAt .kst
  /-- Whatever is chosen on the page, and whoever posts it. -/
  sent : ∀ zone answers store session (form : CreateForm), form.plan = plan.posted dateTime zone →
    ∀ request ∈ requests (createExecute p answers store session form), plan.SendsShown request

/-! ### The posted plan is the plan -/

section Reread

variable {dateTime : Validator DateTime}

theorem rereadTime_self {t : DateTime} (h : dateTime (.string (t.isoformat "T" "Z")) = some t) :
    rereadTime dateTime t = .ok t := by
  rw [rereadTime, h]

theorem DatedLesson.reread_self {lesson : DatedLesson}
    (h : ∀ t ∈ lesson.times, dateTime (.string (t.isoformat "T" "Z")) = some t) :
    lesson.reread dateTime = .ok lesson := by
  have hstart := rereadTime_self (h lesson.startAt List.mem_cons_self)
  have hend := rereadTime_self (h lesson.endAt (List.mem_cons_of_mem _ List.mem_cons_self))
  have hhomework : lesson.homework.mapM (DatedHomework.reread dateTime) = .ok lesson.homework := by
    refine optionMapM_self fun homework hsome => ?_
    have hdue : homework.dueAt.mapM (rereadTime dateTime) = .ok homework.dueAt := by
      refine optionMapM_self fun dueAt hdueAt => rereadTime_self (h dueAt ?_)
      simp [times, hsome, hdueAt]
    rw [DatedHomework.reread, hdue]
    rfl
  rw [reread, hstart, hend]
  show (lesson.homework.mapM (DatedHomework.reread dateTime) >>= _) = _
  rw [hhomework]
  rfl

/-- A plan whose times are read back from their texts is posted as it is. -/
theorem DatedPlan.posted_eq {plan : DatedPlan} {zone : DateTime → Except PyError Int}
    (h : ∀ t ∈ plan.times, dateTime (.string (t.isoformat "T" "Z")) = some t) :
    plan.posted dateTime zone = .ok (plan.courses.map (planCourse zone)) := by
  have hcourses : (plan.courses.mapM fun entry => do
      let lessons ← entry.2.mapM (DatedLesson.reread dateTime)
      pure (entry.1, lessons)) = Except.ok plan.courses := by
    refine mapM_self fun entry hentry => ?_
    have hlessons : entry.2.mapM (DatedLesson.reread dateTime) = .ok entry.2 :=
      mapM_self fun lesson hlesson => DatedLesson.reread_self fun t ht =>
        h t (List.mem_flatMap.mpr ⟨entry, hentry, List.mem_flatMap.mpr ⟨lesson, hlesson, ht⟩⟩)
    rw [hlessons]
    rfl
  rw [posted, reread, hcourses]
  rfl

end Reread

/-! ### What is sent -/

section Sent

variable {p : Platform} {answers : Answers} {store : Store} {session : Session} {form : CreateForm}

theorem overrideTeacher_lessons {index : Nat} {course course' : PlanCourse}
    (h : overrideTeacher form index course = .ok course') : course'.lessons = course.lessons := by
  unfold overrideTeacher at h
  split at h
  · cases h
    rfl
  · split at h
    · cases h
    · cases h
      rfl

theorem enforceTeacherScope_lessons (courses : List PlanCourse) :
    (enforceTeacherScope courses session store).1.map PlanCourse.lessons =
      courses.map PlanCourse.lessons := by
  unfold enforceTeacherScope
  cases session.role with
  | owner => rfl
  | manager =>
      dsimp only
      rw [List.map_map]
      refine List.map_congr_left fun course _ => ?_
      show (checkBranch _ course).lessons = course.lessons
      unfold checkBranch
      split
      · rfl
      · split <;> rfl
  | teacher =>
      dsimp only
      rw [List.map_map, List.map_map]
      refine List.map_congr_left fun course _ => ?_
      show (ownTeacher session.teacherUid course).1.lessons = course.lessons
      unfold ownTeacher
      split
      · rfl
      · split <;> rfl

/-- Choosing and checking the teachers keeps the lessons. -/
theorem checkedPlan_lessons {posted courses : List PlanCourse} {notes : List String}
    (hposted : form.plan = .ok posted)
    (h : checkedPlan store session form = .ok (courses, notes)) :
    courses.map PlanCourse.lessons = posted.map PlanCourse.lessons := by
  obtain ⟨plan, hplan, hchecked⟩ := bind_eq_ok.mp h
  obtain ⟨chosen, hchosen, hscope⟩ := bind_eq_ok.mp hchecked
  have hcourses : courses = (enforceTeacherScope chosen session store).1 :=
    (congrArg Prod.fst (Except.ok.inj hscope)).symm
  cases Except.ok.inj (hposted.symm.trans hplan)
  have hentries : chosen.map PlanCourse.lessons =
      posted.zipIdx.map fun entry => entry.1.lessons :=
    mapM_frame (fun entry course hcourse => overrideTeacher_lessons hcourse) hchosen
  calc courses.map PlanCourse.lessons
      = chosen.map PlanCourse.lessons := by rw [hcourses, enforceTeacherScope_lessons]
    _ = (posted.zipIdx.map Prod.fst).map PlanCourse.lessons := by rw [hentries, List.map_map]; rfl
    _ = posted.map PlanCourse.lessons := by rw [List.zipIdx_map_fst]

variable {plan : DatedPlan} {zone : DateTime → Except PyError Int}

theorem planTime_seconds {t : DateTime} (h : t.timestamp zone = t.secondsAt .kst) :
    t.secondsAt .kst = .ok (planTime zone t).seconds := by
  obtain ⟨n, hn, _⟩ := t.secondsAt_near .kst
  rw [seconds_eq (h.trans hn), hn]

theorem homeworkCalls_shown {i j : Nat} {courseId teacherUid : Int} {unitId : Option Int}
    {lesson : DatedLesson} (hlesson : plan.lesson? i j = some lesson)
    (hseconds : ∀ t ∈ lesson.times, t.timestamp zone = t.secondsAt .kst)
    {request : Place × WriteCall}
    (h : request ∈ homeworkCalls i j courseId teacherUid unitId (planLesson zone lesson)) :
    plan.SendsShown request := by
  have hend := planTime_seconds
    (hseconds lesson.endAt (List.mem_cons_of_mem _ List.mem_cons_self))
  unfold homeworkCalls at h
  split at h
  · rename_i homework unitId hsome _
    obtain ⟨dated, hdated, rfl⟩ := Option.map_eq_some_iff.mp hsome
    split at h
    · rw [List.mem_singleton] at h
      subst h
      refine ⟨lesson, dated, _, dated.dueAt.map fun t => (planTime zone t).seconds, hlesson, hdated,
        hend, rfl, ?_, ?_⟩
      · cases hdue : dated.dueAt with
        | none => rfl
        | some t =>
            have ht : t ∈ lesson.times := by simp [DatedLesson.times, hdated, hdue]
            show (t.secondsAt .kst >>= fun n => pure (some n)) = _
            rw [planTime_seconds (hseconds t ht)]
            rfl
      · rw [Option.map_map]
        rfl
    · cases h
  · cases h

/-- The calls for a lesson whose times have the seconds of Korean time. -/
theorem lessonCalls_shown {i j : Nat} {courseId teacherUid : Int} {unitId : Option Int}
    {lesson : DatedLesson} (hlesson : plan.lesson? i j = some lesson)
    (hseconds : ∀ t ∈ lesson.times, t.timestamp zone = t.secondsAt .kst)
    {request : Place × WriteCall}
    (h : request ∈ lessonCalls p answers i courseId teacherUid unitId (planLesson zone lesson) j) :
    plan.SendsShown request := by
  have hstart := planTime_seconds (hseconds lesson.startAt List.mem_cons_self)
  have hend := planTime_seconds
    (hseconds lesson.endAt (List.mem_cons_of_mem _ List.mem_cons_self))
  unfold lessonCalls at h
  split at h
  · rcases List.mem_cons.mp h with rfl | h
    · exact ⟨lesson, hlesson, hstart, hend⟩
    · split at h
      · split at h
        · exact homeworkCalls_shown hlesson hseconds h
        · cases h
      · cases h
  · cases h

theorem mem_times {i j : Nat} {lesson : DatedLesson} (hlesson : plan.lesson? i j = some lesson)
    {t : DateTime} (ht : t ∈ lesson.times) : t ∈ plan.times := by
  obtain ⟨entry, hentry, hlesson⟩ := Option.bind_eq_some_iff.mp hlesson
  exact List.mem_flatMap.mpr ⟨entry, List.mem_of_getElem? hentry,
    List.mem_flatMap.mpr ⟨lesson, List.mem_of_getElem? hlesson, ht⟩⟩

/-- The calls for a course with the lessons of the plan, once it has an id. -/
theorem fillCalls_shown {course : PlanCourse} {entry : PlannedCourse × List DatedLesson} {i : Nat}
    {teacherUid courseId : Int} (hentry : plan.courses[i]? = some entry)
    (hlessons : course.lessons = entry.2.map (planLesson zone))
    (hseconds : ∀ t ∈ plan.times, t.timestamp zone = t.secondsAt .kst)
    {request : Place × WriteCall} (h : request ∈ fillCalls p answers i course teacherUid courseId) :
    plan.SendsShown request := by
  unfold fillCalls at h
  split at h
  · rcases List.mem_append.mp h with h | h
    · unfold unitCalls at h
      split at h
      · cases h
      · rw [List.mem_singleton.mp h]
        trivial
    · split at h
      · obtain ⟨⟨lesson, j⟩, hmem, h⟩ := List.mem_flatMap.mp h
        have hget := List.mem_zipIdx_iff_getElem?.mp (Script.mem_of_mem_through hmem)
        rw [hlessons, List.getElem?_map] at hget
        obtain ⟨dated, hdated, hplan⟩ := Option.map_eq_some_iff.mp hget
        have hlesson : plan.lesson? i j = some dated := by
          rw [DatedPlan.lesson?, hentry]
          exact hdated
        rw [← hplan] at h
        exact lessonCalls_shown hlesson (fun t ht => hseconds t (mem_times hlesson ht)) h
      · cases h
  · cases h

theorem courseCalls_shown {course : PlanCourse} {entry : PlannedCourse × List DatedLesson} {i : Nat}
    (hentry : plan.courses[i]? = some entry)
    (hlessons : course.lessons = entry.2.map (planLesson zone))
    (hseconds : ∀ t ∈ plan.times, t.timestamp zone = t.secondsAt .kst)
    {request : Place × WriteCall} (h : request ∈ courseCalls p answers course i) :
    plan.SendsShown request := by
  unfold courseCalls at h
  split at h
  · cases h
  · rcases List.mem_append.mp h with h | h
    · split at h
      · cases h
      · rw [List.mem_singleton.mp h]
        trivial
    · split at h
      · exact fillCalls_shown hentry hlessons hseconds h
      · cases h

/-- Where every time of the plan has the seconds of Korean time, so has every call. -/
theorem requests_shown {session : Option Session}
    (hposted : form.plan = .ok (plan.courses.map (planCourse zone)))
    (hseconds : ∀ t ∈ plan.times, t.timestamp zone = t.secondsAt .kst)
    {request : Place × WriteCall}
    (h : request ∈ requests (createExecute p answers store session form)) :
    plan.SendsShown request := by
  cases session with
  | none => cases h
  | some session =>
      cases hchecked : checkedPlan store session form with
      | error e =>
          simp only [createExecute, hchecked, Script.lift_error_bind] at h
          cases h
      | ok checked =>
          obtain ⟨courses, notes⟩ := checked
          rw [requests_createExecute hchecked] at h
          obtain ⟨⟨course, i⟩, hmem, h⟩ := List.mem_flatMap.mp h
          have hget := List.mem_zipIdx_iff_getElem?.mp (Script.mem_of_mem_through hmem)
          have hlessons := congrArg (fun lessons => lessons[i]?)
            (checkedPlan_lessons hposted hchecked)
          simp only [List.map_map, List.getElem?_map, hget, Option.map_some] at hlessons
          obtain ⟨entry, hentry, hcourse⟩ := Option.map_eq_some_iff.mp hlessons.symm
          exact courseCalls_shown hentry hcourse.symm hseconds h

end Sent

/-! ### Korean time -/

section Shown

variable {p : Platform} {dateTime : Validator DateTime} {similarity : Text → Text → Rat}
  {plan : DatedPlan}

/-- A plan shows its instants exactly when every time has the offset of Korean time. -/
theorem shown_iff_kst (hread : ∀ t ∈ plan.times, dateTime (.string (t.isoformat "T" "Z")) = some t) :
    plan.Shown p dateTime ↔ ∀ t ∈ plan.times, t.offset = some .kst := by
  constructor
  · intro hshown t ht
    exact DateTime.offset_eq_iff.mpr ⟨hshown.aware t ht, hshown.seconds t ht⟩
  · intro hoffset
    have hkst (t : DateTime) (ht : t ∈ plan.times) := DateTime.offset_eq_iff.mp (hoffset t ht)
    refine ⟨fun t ht => (hkst t ht).1, fun t ht => (hkst t ht).2, ?_⟩
    intro zone answers store session form hform request hrequest
    rw [DatedPlan.posted_eq hread] at hform
    exact requests_shown hform (fun t ht => (hkst t ht).2 zone) hrequest

/-- The lessons of a plan are those of the courses that were read. -/
theorem smartParseAi_lessons {reply : AiReply} {teacherRows : List (Int × TeacherRow)}
    {courseRows : List (Int × CourseRow)} {now : Date} {today : Today} {rawText : Text}
    (h : smartParseAi p dateTime similarity reply teacherRows courseRows now today rawText = .ok plan) :
    ∃ day courses notes sourceFormat,
      datedCourses p dateTime reply (storeTeachers teacherRows) (strip rawText) day =
        .ok (courses, notes, sourceFormat) ∧
      plan.courses.map Prod.snd = courses.map DatedCourse.lessons := by
  unfold smartParseAi at h
  dsimp only at h
  split at h
  · cases h
  · obtain ⟨day, _, h⟩ := bind_eq_ok.mp h
    obtain ⟨⟨courses, notes, sourceFormat⟩, hcourses, h⟩ := bind_eq_ok.mp h
    refine ⟨day, courses, notes, sourceFormat, hcourses, ?_⟩
    dsimp only at h
    split at h
    · cases h
    · obtain ⟨texts, _, h⟩ := bind_eq_ok.mp h
      obtain ⟨resolved, hresolved, h⟩ := bind_eq_ok.mp h
      cases pure_eq_ok.mp h
      have hlength := congrArg List.length (resolveEntities_lessons hresolved)
      simp only [List.length_map] at hlength
      exact List.map_snd_zip (by rw [List.length_map, hlength])

theorem forall_times {courses : List DatedCourse} {P : DateTime → Prop}
    (h : plan.courses.map Prod.snd = courses.map DatedCourse.lessons) :
    (∀ t ∈ plan.times, P t) ↔
      ∀ course ∈ courses, ∀ lesson ∈ course.lessons, ∀ t ∈ lesson.times, P t := by
  have htimes : plan.times =
      (courses.map DatedCourse.lessons).flatMap fun lessons => lessons.flatMap DatedLesson.times := by
    rw [← h, List.flatMap_map, DatedPlan.times]
  rw [htimes]
  simp only [List.forall_mem_flatMap, List.forall_mem_map]

/-- The times of the rules are whole minutes of Korean time. -/
theorem times_ofPlan (parsed : ParsePlan) :
    ∀ t ∈ (DatedPlan.ofPlan parsed).times, ∃ m, t = DateTime.kst m := by
  intro t ht
  obtain ⟨entry, hentry, ht⟩ := List.mem_flatMap.mp ht
  obtain ⟨lesson, hlesson, ht⟩ := List.mem_flatMap.mp ht
  obtain ⟨course, _, rfl⟩ := List.mem_map.mp hentry
  obtain ⟨parsedLesson, _, rfl⟩ := List.mem_map.mp hlesson
  rcases List.mem_cons.mp ht with rfl | ht
  · exact ⟨_, rfl⟩
  · rcases List.mem_cons.mp ht with rfl | ht
    · exact ⟨_, rfl⟩
    · obtain ⟨homework, hhomework, hdue⟩ := Option.bind_eq_some_iff.mp (Option.mem_toList.mp ht)
      obtain ⟨parsedHomework, _, rfl⟩ := Option.map_eq_some_iff.mp hhomework
      obtain ⟨m, _, rfl⟩ := Option.map_eq_some_iff.mp hdue
      exact ⟨m, rfl⟩

/-- What the rules read is created at the very minute that the preview prints. -/
theorem rules_seconds {reply : AiReply} {teacherRows : List (Int × TeacherRow)}
    {courseRows : List (Int × CourseRow)} {now : Date} {today : Today} {rawText : Text}
    (hrules : isCsv p (strip rawText) = true ∨ aiCourses p dateTime reply = none)
    (h : smartParseAi p dateTime similarity reply teacherRows courseRows now today rawText = .ok plan) :
    ∀ t ∈ plan.times, ∃ m, t = .kst m ∧ ∀ zone, (planTime zone t).timestamp =
      .ok (60 * ((m.minutes : Int) - 1440 * epochOrdinal - 540)) := by
  intro t ht
  rw [smartParseAi_of_rules hrules] at h
  obtain ⟨parsed, _, rfl⟩ := map_eq_ok.mp h
  obtain ⟨m, rfl⟩ := times_ofPlan parsed t ht
  exact ⟨m, rfl, fun zone => DateTime.secondsAt_kst m⟩

end Shown

/-- Every datetime of the reply that the AI reader takes has the offset of Korean time. -/
def ReplyInKst (p : Platform) (dateTime : Validator DateTime) (reply : AiReply) (rawText : Text) : Prop :=
  isCsv p (strip rawText) = false →
    ∀ courses notes, aiCourses p dateTime reply = some (courses, notes) →
      ∀ course ∈ courses, ∀ lesson ∈ course.lessons, ∀ t ∈ lesson.times, t.offset = some .kst

/-- The instants created from a plan are the instants shown exactly when the AI reader was not used,
or every datetime of its reply has the offset of Korean time. -/
theorem instants_shown_iff (p : Platform) (dateTime : Validator DateTime)
    (similarity : Text → Text → Rat) (reply : AiReply) (teacherRows : List (Int × TeacherRow))
    (courseRows : List (Int × CourseRow)) (now : Date) (today : Today) (rawText : Text)
    (plan : DatedPlan)
    (h : smartParseAi p dateTime similarity reply teacherRows courseRows now today rawText = .ok plan)
    (hread : ∀ t ∈ plan.times, dateTime (.string (t.isoformat "T" "Z")) = some t) :
    plan.Shown p dateTime ↔ ReplyInKst p dateTime reply rawText := by
  rw [shown_iff_kst hread]
  by_cases hrules : isCsv p (strip rawText) = true ∨ aiCourses p dateTime reply = none
  · have hreply : ReplyInKst p dateTime reply rawText := by
      intro hcsv courses notes hcourses
      rcases hrules with htable | hnone
      · rw [htable] at hcsv
        cases hcsv
      · rw [hnone] at hcourses
        cases hcourses
    refine ⟨fun _ => hreply, fun _ t ht => ?_⟩
    obtain ⟨m, rfl, _⟩ := rules_seconds hrules h t ht
    rfl
  · rw [not_or] at hrules
    obtain ⟨htable, hsome⟩ := hrules
    obtain ⟨⟨courses, notes⟩, hcourses⟩ := Option.ne_none_iff_exists'.mp hsome
    obtain ⟨day, read, texts, sourceFormat, hdated, hlessons⟩ := smartParseAi_lessons h
    rw [datedCourses, if_neg htable, freeTextCourses, hcourses] at hdated
    cases hdated
    rw [forall_times hlessons, ReplyInKst, hcourses]
    constructor
    · intro hkst _ courses' notes' hsame
      cases hsame
      exact hkst
    · intro hkst
      exact hkst (Bool.eq_false_iff.mpr htable) courses notes rfl

/-! ### A reply without an offset -/

def isoNumber (text : Text) (start width : Nat) : Option Nat := natText ((text.drop start).take width)

def isoOffset : Text → Option (Option UtcOffset)
  | [] => some none
  | ['Z'] => some (some .utc)
  | sign :: rest => do
      let minutes := 60 * (← isoNumber rest 0 2) + (← isoNumber rest 3 2)
      let signed : Int := if sign = '-' then -minutes else minutes
      if h : -1440 < signed ∧ signed < 1440 then some (some ⟨signed, h.1, h.2⟩) else none

theorem micros_lt {second : Nat} (h : second < 60) : 1000000 * second < 60000000 := by omega

/-- What pydantic makes of an ISO text to the second: without an offset it is naive. -/
def isoDateTime : Validator DateTime
  | .str (.text s) => do
      let text := s.toList
      let day ← Date.ofYmd? (← isoNumber text 0 4) (← isoNumber text 5 2) (← isoNumber text 8 2)
      let clock ← Clock.of? (← isoNumber text 11 2) (← isoNumber text 14 2)
      let second ← isoNumber text 17 2
      let offset ← isoOffset (text.drop 19)
      if h : second < 60 then some ⟨⟨day, clock⟩, 1000000 * second, micros_lt h, offset⟩ else none
  | _ => none

/-- A reply with one lesson. -/
def lessonReply (startAt endAt : String) : AiReply :=
  some (.ok (.object [("courses", .list [.object [("course_name", .string "수학"),
    ("lessons", .list [.object [("title", .string "1회차"), ("start_at", .string startAt),
      ("end_at", .string endAt)]])]])]))

def lessonText : Text := "수학 수요일 7-9시".toList

def parseReply (startAt endAt : String) : Except PyError DatedPlan :=
  smartParseAi .plain isoDateTime (fun _ _ => 0) (lessonReply startAt endAt) [] []
    .sixthOfMay2026 .missing lessonText

def sixMay (hour : Nat) (h : hour < 24) : Moment :=
  ⟨.sixthOfMay2026, .onHour hour h⟩

theorem instants_shown_iff_kst : ∃ plan,
    parseReply "2026-05-06T19:00:00+09:00" "2026-05-06T21:00:00+09:00" = .ok plan ∧
    plan.Shown .plain isoDateTime := by
  have hparsed : (parseReply "2026-05-06T19:00:00+09:00" "2026-05-06T21:00:00+09:00").toOption.map
      DatedPlan.times = some [.kst (sixMay 19 (by decide)), .kst (sixMay 21 (by decide))] := by
    decide
  obtain ⟨plan, hplan, htimes⟩ := exists_ok_of_map hparsed
  have hkst : ReplyInKst .plain isoDateTime
      (lessonReply "2026-05-06T19:00:00+09:00" "2026-05-06T21:00:00+09:00") lessonText := by
    have hread : ∀ found ∈ aiCourses .plain isoDateTime
        (lessonReply "2026-05-06T19:00:00+09:00" "2026-05-06T21:00:00+09:00"),
        ∀ course ∈ found.1, ∀ lesson ∈ course.lessons, ∀ t ∈ lesson.times, t.offset = some .kst := by
      decide
    intro _ courses notes hcourses
    exact hread (courses, notes) hcourses
  refine ⟨plan, hplan, (instants_shown_iff _ _ _ _ _ _ _ _ _ plan hplan ?_).mpr hkst⟩
  rw [htimes]
  decide

/-- A reply whose times have no offset is taken, and its times stay naive: the zone of the machine says
when the lesson starts. -/
theorem naive_reply_not_shown : ∃ plan,
    parseReply "2026-05-06T19:00:00" "2026-05-06T21:00:00" = .ok plan ∧
    (∀ t ∈ plan.times, isoDateTime (.string (t.isoformat "T" "Z")) = some t) ∧
    (∀ t ∈ plan.times, ∀ zone, (planTime zone t).timestamp = zone t) ∧
    ¬plan.Shown .plain isoDateTime := by
  have hparsed : (parseReply "2026-05-06T19:00:00" "2026-05-06T21:00:00").toOption.map
      DatedPlan.times = some [⟨sixMay 19 (by decide), 0, by decide, none⟩,
        ⟨sixMay 21 (by decide), 0, by decide, none⟩] := by
    decide
  obtain ⟨plan, hplan, htimes⟩ := exists_ok_of_map hparsed
  refine ⟨plan, hplan, ?_, ?_, fun hshown => ?_⟩
  · rw [htimes]
    decide
  · rw [htimes, List.forall_mem_cons, List.forall_mem_singleton]
    exact ⟨fun zone => rfl, fun zone => rfl⟩
  · have haware := hshown.aware
    rw [htimes] at haware
    revert haware
    decide

end ClassinDashboard

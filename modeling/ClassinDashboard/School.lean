import ClassinDashboard.CreateCalls
import ClassinDashboard.Registry

/-!
ClassIn as a create request meets it: a school that keeps what was created in it. A call under a key
that was used before is answered with the existing id; every other create call makes a new entity. A
call can be carried out although its answer never arrives.
-/

namespace ClassinDashboard

open Py Sql

structure SchoolCourse where
  name : String
  mainTeacherUid : Option Int
  deriving DecidableEq

/-- A class without its unit, which is no more than a heading of its course. -/
structure SchoolClass where
  courseId : Int
  name : String
  teacherUid : Int
  startTime : Int
  endTime : Int
  deriving DecidableEq

structure SchoolActivity where
  courseId : Int
  activityType : Int
  name : String
  teacherUid : Int
  startTime : Option Int
  endTime : Option Int
  deriving DecidableEq

structure School where
  courses : Registry Int String SchoolCourse
  classes : Registry Int String SchoolClass
  activities : Registry Int String SchoolActivity

/-! ### What a call asks for -/

namespace WriteCall

/-- The course that a call asks for, under its key. -/
def course? : WriteCall → Option (Option String × SchoolCourse)
  | addCourse name mainTeacherUid identity => some (identity, ⟨name, mainTeacherUid⟩)
  | _ => none

def class? : WriteCall → Option (Option String × SchoolClass)
  | createClass courseId name teacherUid startTime endTime _ identity =>
      some (identity, ⟨courseId, name, teacherUid, startTime, endTime⟩)
  | _ => none

/-- `createActivity` has no key. -/
def activity? : WriteCall → Option (Option String × SchoolActivity)
  | createActivity courseId _ activityType name teacherUid startTime endTime =>
      some (none, ⟨courseId, activityType, name, teacherUid, startTime, endTime⟩)
  | _ => none

/-- The data of an answer gives the id. -/
def Reads (value : PyValue) (id : Int) : WriteCall → Prop
  | addCourse .. => courseIdOf value = .ok id
  | createUnit .. => unitIdOf value = .ok id
  | createClass .. => classIdOf value = .ok (.int id)
  | createActivity .. => activityIdOf value = .ok id

end WriteCall

/-! ### What the school does -/

/-- The call is carried out, and `id` is the id of its answer. -/
inductive School.Performs (s : School) : WriteCall → Int → School → Prop
  | addCourse {name : String} {mainTeacherUid : Option Int} {identity : Option String} {id : Int}
      {courses : Registry Int String SchoolCourse}
      (h : s.courses.Creates identity ⟨name, mainTeacherUid⟩ id courses) :
      Performs s (.addCourse name mainTeacherUid identity) id { s with courses := courses }
  | createUnit (courseId : Int) (name content : String) (publishFlag id : Int) :
      Performs s (.createUnit courseId name content publishFlag) id s
  | createClass {courseId : Int} {name : String} {teacherUid startTime endTime : Int}
      {unitId : Option Int} {identity : Option String} {id : Int}
      {classes : Registry Int String SchoolClass}
      (h : s.classes.Creates identity ⟨courseId, name, teacherUid, startTime, endTime⟩ id classes) :
      Performs s (.createClass courseId name teacherUid startTime endTime unitId identity) id
        { s with classes := classes }
  | createActivity {courseId unitId activityType : Int} {name : String} {teacherUid : Int}
      {startTime endTime : Option Int} {id : Int} {activities : Registry Int String SchoolActivity}
      (h : s.activities.Creates none ⟨courseId, activityType, name, teacherUid, startTime, endTime⟩ id
        activities) :
      Performs s (.createActivity courseId unitId activityType name teacherUid startTime endTime) id
        { s with activities := activities }

/-- How ClassIn meets one submit of the form: how the calls end, and which of those that end with an
exception other than a `ClassInError` it has carried out all the same. -/
structure Attempt where
  answers : Answers
  lost : Place → Bool

/-- ClassIn carries out the call of the place, if it is made. -/
def Attempt.performs (a : Attempt) (place : Place) : Bool :=
  match a.answers place with
  | .refused _ => false
  | .failed _ => a.lost place
  | .data _ => true

/-- One call. -/
inductive School.Serves (s : School) (a : Attempt) (place : Place) (body : WriteCall) : School → Prop
  | refused (h : a.performs place = false) : Serves s a place body s
  | performed {id : Int} {s' : School} (h : a.performs place = true) (hstep : s.Performs body id s')
      (hread : ∀ value, a.answers place = .data value → body.Reads value id) : Serves s a place body s'

/-- A call that is answered with data. -/
theorem School.Serves.of_data {a : Attempt} {s s' : School} {place : Place} {body : WriteCall}
    {value : PyValue} {id : Int} (hanswer : a.answers place = .data value) (hread : body.Reads value id)
    (hperforms : s.Performs body id s') : s.Serves a place body s' := by
  refine .performed ?_ hperforms fun other hother => ?_
  · rw [Attempt.performs, hanswer]
  · cases hanswer.symm.trans hother
    exact hread

/-- The calls of a submit. -/
inductive School.Run (a : Attempt) : School → List (Place × WriteCall) → School → Prop
  | nil (s : School) : Run a s [] s
  | cons {s s' s'' : School} {place : Place} {body : WriteCall} {calls : List (Place × WriteCall)}
      (h : s.Serves a place body s') (hrest : Run a s' calls s'') :
      Run a s ((place, body) :: calls) s''

/-- The calls that are carried out. -/
def Attempt.performed (a : Attempt) (calls : List (Place × WriteCall)) : List WriteCall :=
  (calls.filter fun call => a.performs call.1).map Prod.snd

/-! ### Each registry sees its own requests -/

section Registries

variable {a : Attempt} {s s' : School} {calls : List (Place × WriteCall)}

theorem performed_cons (a : Attempt) (place : Place) (body : WriteCall)
    (calls : List (Place × WriteCall)) :
    a.performed ((place, body) :: calls) =
      if a.performs place = true then body :: a.performed calls else a.performed calls := by
  unfold Attempt.performed
  rw [List.filter_cons]
  split <;> rfl

/-- What a run does to a part of the school, from what a call does to it. -/
theorem createsAll_of_run {β : Type} (part : School → Registry Int String β)
    (asks : WriteCall → Option (Option String × β))
    (hstep : ∀ {s s' : School} {body : WriteCall} {id : Int}, s.Performs body id s' →
      match asks body with
      | some request => (part s).Creates request.1 request.2 id (part s')
      | none => part s' = part s)
    (h : School.Run a s calls s') :
    (part s).CreatesAll ((a.performed calls).filterMap asks) (part s') := by
  induction h with
  | nil s => exact .nil _
  | @cons s s' s'' place body calls hserves _ ih =>
      rw [performed_cons]
      cases hserves with
      | refused h =>
          rw [h, if_neg Bool.false_ne_true]
          exact ih
      | performed h hperforms _ =>
          have hpart := hstep hperforms
          rw [if_pos h, List.filterMap_cons]
          cases hasks : asks body with
          | none =>
              rw [hasks] at hpart
              exact hpart ▸ ih
          | some request =>
              rw [hasks] at hpart
              exact .cons hpart ih

theorem School.Run.courses (h : School.Run a s calls s') :
    s.courses.CreatesAll ((a.performed calls).filterMap WriteCall.course?) s'.courses := by
  refine createsAll_of_run School.courses WriteCall.course? (fun hperforms => ?_) h
  cases hperforms with
  | addCourse h => exact h
  | _ => rfl

theorem School.Run.classes (h : School.Run a s calls s') :
    s.classes.CreatesAll ((a.performed calls).filterMap WriteCall.class?) s'.classes := by
  refine createsAll_of_run School.classes WriteCall.class? (fun hperforms => ?_) h
  cases hperforms with
  | createClass h => exact h
  | _ => rfl

theorem School.Run.activities (h : School.Run a s calls s') :
    s.activities.CreatesAll ((a.performed calls).filterMap WriteCall.activity?) s'.activities := by
  refine createsAll_of_run School.activities WriteCall.activity? (fun hperforms => ?_) h
  cases hperforms with
  | createActivity h => exact h
  | _ => rfl

/-- The id that `addCourse` answers is the id of the course with the key. -/
theorem School.Run.named (h : School.Run a s calls s') {place : Place} {name : String}
    {mainTeacherUid : Option Int} {key : String} {value : PyValue} {id : Int}
    (hcall : (place, .addCourse name mainTeacherUid (some key)) ∈ calls)
    (hanswer : a.answers place = .data value) (hid : courseIdOf value = .ok id) :
    ∃ entry ∈ s'.courses.entries, entry.key = some key ∧ entry.id = id := by
  induction h with
  | nil s => exact absurd hcall List.not_mem_nil
  | @cons s s' s'' other body calls hserves hrest ih =>
      rcases List.mem_cons.mp hcall with heq | hcall
      · cases heq
        cases hserves with
        | refused h =>
            rw [Attempt.performs, hanswer] at h
            cases h
        | performed _ hperforms hread =>
            have hsame := hread value hanswer
            cases hperforms with
            | addCourse hcreates =>
                obtain ⟨entry, hentry, hkey, hentryId⟩ := hcreates.named
                obtain rfl := Except.ok.inj (hsame.symm.trans hid)
                exact ⟨entry, hrest.courses.subset hentry, hkey, hentryId⟩
      · exact ih hcall

end Registries

end ClassinDashboard

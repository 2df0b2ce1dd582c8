import ClassinDashboard.EventReads
import ClassinDashboard.PyGroups

/-! The scoped reads of the masters, and the number of events by command. -/

namespace ClassinDashboard

open Py Sql

/-- Courses in scope, newest first: rows are in the order in which they were created. -/
def courses (store : Store) (scope : Scope) : List (Int × CourseRow) :=
  match store.courseIdsInScope scope with
  | none => store.courses.rows.reverse
  | some ids => store.courses.rows.reverse.filter fun c => c.1 ∈ ids

def teachers (store : Store) (scope : Scope) : List (Int × TeacherRow) :=
  match store.teacherUidsInScope scope with
  | none => store.teachers.rows
  | some uids => store.teachers.rows.filter fun t => t.1 ∈ uids

def countCmds (rows : List EventRow) : List (String × Nat) :=
  (groupOn EventRow.cmd rows).map fun group => (group.1, group.2.length)

/-- Counted by the database without a scope, which sorts the groups, and row by row with one. -/
def countsByCmd (store : Store) (scope : Scope) : List (String × Nat) :=
  if scope.unrestricted then (countCmds store.events.rows).mergeSort fun a b => a.1 ≤ b.1
  else countCmds (store.events.rows.filter fun row => row.inScope (store.scopeKeys scope))

end ClassinDashboard

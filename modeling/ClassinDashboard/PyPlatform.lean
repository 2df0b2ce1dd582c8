import ClassinDashboard.PyValue
import ClassinDashboard.PyText

/-!
What stands outside the modelled code: pydantic's lax coercions, the number text of floats, the case
folding and hashing of text, and the iteration order of a set. Everything is stated for an arbitrary
platform.
-/

namespace Py

open Sql

/-- `int(value)`. -/
def intOf : PyValue → Except PyError Int
  | .bool b => .ok (if b then 1 else 0)
  | .int n => .ok n
  | .float x => x.toInt
  | .str (.text s) =>
      match intText s.toList with
      | some n => .ok n
      | none => .error .valueError
  | .str (.lone _ _) => .error .valueError
  | .none | .list _ | .dict _ => .error .typeError

structure Platform where
  /-- pydantic's lax `int`, `float`, `bool` and `str`: the validated value, or a rejection. A `str`
  with a lone surrogate is rejected, so that the result is text. -/
  int : PyValue → Option Int
  float : PyValue → Option PyFloat
  bool : PyValue → Option Bool
  str : PyValue → Option String
  /-- `float(text)`. -/
  floatText : String → Option PyFloat
  /-- `str(value)` of a float, a list or a dict; lone surrogates inside come out escaped. -/
  repr : PyValue → String
  /-- `text.lower()`. -/
  lower : String → String
  /-- `hashlib.md5(text.encode()).hexdigest()`. -/
  md5Hex : String → String
  /-- The text SQLite makes of a real in a TEXT column. -/
  realText : PyFloat → String
  /-- The number SQLite makes of a text that looks like one in an INTEGER column. -/
  numericText : String → Option SqlValue
  /-- The order in which a loop visits a set of ints. -/
  setOrder : List Int → List Int
  setOrder_perm : ∀ xs, (setOrder xs).Perm xs.dedup

namespace Platform

variable (p : Platform)

theorem mem_setOrder (xs : List Int) (x : Int) : x ∈ p.setOrder xs ↔ x ∈ xs := by
  rw [(p.setOrder_perm xs).mem_iff, List.mem_dedup]

/-- `str(value)`. -/
def strOf : PyValue → PyStr
  | .none => .text "None"
  | .bool b => .text (if b then "True" else "False")
  | .int n => .text (toString n)
  | .str s => s
  | value => .text (p.repr value)

/-- `float(value)`. -/
def floatOf : PyValue → Except PyError PyFloat
  | .bool b => .ok (.fin (if b then 1 else 0))
  | .int n => PyFloat.ofInt n
  | .float x => .ok x
  | .str (.text s) =>
      match p.floatText s with
      | some x => .ok x
      | none => .error .valueError
  | .str (.lone _ _) => .error .valueError
  | .none | .list _ | .dict _ => .error .typeError

/-- Bind a value to a TEXT column: numbers are stored as text. -/
def bindText (value : PyValue) : Except PyError (Option String) :=
  (SqlValue.bind value).map fun
    | .null => none
    | .int n => some (toString n)
    | .real x => some (p.realText x)
    | .text s => some s

/-- Bind a value to an INTEGER column: a text that looks like a number is stored as one, and a real
that is an int as that int. -/
def bindInteger (value : PyValue) : Except PyError SqlValue :=
  (SqlValue.bind value).map fun
    | .text s => (p.numericText s).getD (.text s)
    | .real (.fin q) => if q.den = 1 && SqlValue.inRange q.num then .int q.num else .real (.fin q)
    | cell => cell

/-- Bind a value to a REAL column: an int is stored as a double. -/
def bindReal (value : PyValue) : Except PyError SqlValue :=
  (SqlValue.bind value).map fun
    | .int n => .real (.ofRat n)
    | .text s =>
        match p.numericText s with
        | some (.int n) => .real (.ofRat n)
        | some cell => cell
        | none => .text s
    | cell => cell

/-- The coercions on the values they leave alone, and no number text at all. -/
def plain : Platform where
  int
    | .int n => some n
    | _ => none
  float
    | .int n => (PyFloat.ofInt n).toOption
    | .float x => some x
    | _ => none
  bool
    | .bool b => some b
    | _ => none
  str
    | .str (.text s) => some s
    | _ => none
  floatText _ := none
  repr _ := ""
  lower s := s
  md5Hex s := s
  realText _ := ""
  numericText _ := none
  setOrder := List.dedup
  setOrder_perm _ := List.Perm.refl _

end Platform
end Py

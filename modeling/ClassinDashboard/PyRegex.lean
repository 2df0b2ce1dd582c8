import ClassinDashboard.PyText

/-!
Regular expressions as `re` runs them: the matches of a pattern at a place are listed in the order a
backtracking matcher tries them, and the first one counts.
-/

namespace Py

/-- A place in a text: what lies before, nearest first, and what lies after. -/
structure Cursor where
  before : List Char
  after : List Char

inductive Regex
  /-- A character of a class. -/
  | one (accepts : Char → Bool)
  | empty
  | seq (first second : Regex)
  /-- The first alternative is tried first. -/
  | alt (first second : Regex)
  /-- As often as possible; an iteration that reads nothing ends the loop. -/
  | star (body : Regex)
  | group (index : Nat) (body : Regex)
  | notAhead (body : Regex)
  | notBehind (accepts : Char → Bool)
  /-- The start of the text. -/
  | start

/-- The texts of the groups, the latest first. -/
abbrev Groups := List (Nat × List Char)

namespace Regex

/-- The text between two places, the second of which is not earlier. -/
def between (start stop : Cursor) : List Char :=
  (stop.before.take (stop.before.length - start.before.length)).reverse

/-- Greedy iteration, at most `fuel` times. -/
def iterate (step : Cursor × Groups → List (Cursor × Groups)) :
    Nat → Cursor × Groups → List (Cursor × Groups)
  | 0, state => [state]
  | fuel + 1, state =>
      ((step state).filter fun next => next.1.after.length < state.1.after.length).flatMap
        (iterate step fuel) ++ [state]

/-- The places a match from this place can end at, in the order they are tried. -/
def run : Regex → Cursor × Groups → List (Cursor × Groups)
  | one accepts, (⟨before, after⟩, groups) =>
      match after with
      | c :: rest => if accepts c then [(⟨c :: before, rest⟩, groups)] else []
      | [] => []
  | empty, state => [state]
  | seq first second, state => (run first state).flatMap (run second)
  | alt first second, state => run first state ++ run second state
  | star body, state => iterate (run body) state.1.after.length state
  | group index body, state =>
      (run body state).map fun stop => (stop.1, (index, between state.1 stop.1) :: stop.2)
  | notAhead body, state => if (run body state).isEmpty then [state] else []
  | notBehind accepts, state => if state.1.before.head?.any accepts then [] else [state]
  | start, state => if state.1.before.isEmpty then [state] else []

/-! ### Notation of patterns -/

def all (parts : List Regex) : Regex := parts.foldr seq empty

def any (parts : List Regex) : Regex := parts.foldr alt (one fun _ => false)

/-- `r?` -/
def opt (r : Regex) : Regex := alt r empty

/-- `r{min,max}` -/
def times (r : Regex) (min max : Nat) : Regex :=
  all (List.replicate min r ++
    [(List.replicate (max - min) r).foldr (fun first rest => opt (seq first rest)) empty])

/-- The text itself. -/
def lit (text : String) : Regex := all (text.toList.map fun c => one (· = c))

/-- `[...]` -/
def oneOf (chars : String) : Regex := one (chars.toList.contains ·)

/-- `\d{min,max}` -/
def digits (min max : Nat) : Regex := times (one isDecimal) min max

/-- `\s*` -/
def blanks : Regex := star (one isSpace)

end Regex

/-- A match: the text before it, nearest character first, its own text and the text after it. -/
structure Match where
  before : List Char
  text : List Char
  after : List Char
  groups : Groups

namespace Match

/-- `hit.group(index)` -/
def group (hit : Match) (index : Nat) : Option (List Char) := hit.groups.lookup index

/-- `hit.start()` -/
def start (hit : Match) : Nat := hit.before.length

/-- `int(hit.group(index))` of a group of decimal digits. -/
def number (hit : Match) (index : Nat) : Nat :=
  ofDigits (((hit.group index).getD []).filterMap digitValue)

end Match

namespace Regex

variable (r : Regex)

/-- The match at a place. -/
def matchAt (place : Cursor) : Option Match :=
  (run r (place, [])).head?.map fun stop =>
    ⟨place.before, between place stop.1, stop.1.after, stop.2⟩

/-- The first match at the place or after it. -/
def searchFrom (before : List Char) : List Char → Option Match
  | [] => matchAt r ⟨before, []⟩
  | c :: rest => (matchAt r ⟨before, c :: rest⟩).or (searchFrom (c :: before) rest)

/-- `re.search` -/
def search (text : List Char) : Option Match := searchFrom r [] text

/-- `re.match` -/
def matchPrefix (text : List Char) : Option Match := matchAt r ⟨[], text⟩

/-- `re.fullmatch` -/
def fullMatch (text : List Char) : Bool :=
  (run r (⟨[], text⟩, [])).any fun stop => stop.1.after.isEmpty

/-- The matches from a place on. -/
def findFrom : Nat → Cursor → List Match
  | 0, _ => []
  | fuel + 1, place =>
      match searchFrom r place.before place.after with
      | none => []
      | some hit => hit :: findFrom fuel ⟨hit.text.reverse ++ hit.before, hit.after⟩

/-- `re.finditer`, for a pattern that does not match the empty text. -/
def findAll (text : List Char) : List Match := findFrom r (text.length + 1) ⟨[], text⟩

def substFrom (replacement : List Char) : Nat → Cursor → List Char
  | 0, place => place.after
  | fuel + 1, place =>
      match searchFrom r place.before place.after with
      | none => place.after
      | some hit =>
          (hit.before.take (hit.before.length - place.before.length)).reverse ++ replacement ++
            substFrom replacement fuel ⟨hit.text.reverse ++ hit.before, hit.after⟩

/-- `re.sub`, for a pattern that does not match the empty text. -/
def subst (replacement text : List Char) : List Char :=
  substFrom r replacement (text.length + 1) ⟨[], text⟩

example : (search (all [group 1 (digits 1 2), blanks, oneOf ":시"]) "수학 119 시".toList).map
    (fun hit => (hit.start, hit.number 1)) = some (4, 19) := by decide

end Regex
end Py

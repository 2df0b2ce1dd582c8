import Mathlib.Algebra.Order.Field.Power
import Mathlib.Data.List.Dedup
import Mathlib.Data.Rat.Floor
import Mathlib.Tactic.FieldSimp
import Mathlib.Tactic.GCongr
import Mathlib.Tactic.Linarith
import Mathlib.Tactic.Positivity

/-!
Python values as `json.loads` builds them, the exceptions the program meets, and SQLite cells.

A float is a double: finite values are kept as the rational they denote, and every operation rounds
to the nearest double as the hardware does.
-/

namespace Py

/-- The exceptions that can leave a modelled function. -/
inductive PyError
  | attributeError | typeError | valueError | overflowError | keyError
  | jsonDecodeError | unicodeDecodeError | unicodeEncodeError
  | validationError | programmingError | integrityError | csvError
  /-- `ClassInError`, with its errno. -/
  | classInError (errno : Int)
  deriving DecidableEq, Repr

/-- A code point that no UTF-8 text contains. -/
def isSurrogate (point : Nat) : Bool := 0xD800 ≤ point && point ≤ 0xDFFF

/-- A Python `str`: Unicode text, or code points among which there is a lone surrogate. -/
inductive PyStr
  | text (s : String)
  | lone (points : List Nat) (surrogate : points.any isSurrogate)
  deriving DecidableEq

namespace PyStr

def isEmpty : PyStr → Bool
  | text s => s.isEmpty
  | lone _ _ => false

/-- `s.encode("utf-8")`, which refuses lone surrogates. -/
def encode : PyStr → Except PyError String
  | text s => .ok s
  | lone _ _ => .error .unicodeEncodeError

end PyStr

/-! ### Doubles -/

inductive PyFloat
  | nan
  | inf (negative : Bool)
  | fin (q : ℚ)
  deriving DecidableEq

/-- The integer nearest to a rational, ties to the even one. -/
def roundHalfEven (q : ℚ) : Int :=
  let floor := ⌊q⌋
  let rest := q - floor
  if rest < 1 / 2 then floor
  else if 1 / 2 < rest then floor + 1
  else if floor % 2 = 0 then floor else floor + 1

theorem roundHalfEven_le (q : ℚ) : (roundHalfEven q : ℚ) ≤ q + 1 := by
  have hfloor := Int.floor_le q
  unfold roundHalfEven
  dsimp only
  split_ifs <;> push_cast <;> linarith

namespace PyFloat

/-- The exponent of the last place of the double nearest to a positive rational: 53 significant
bits, and never below the subnormal exponent. -/
def lastPlace (q : ℚ) : Int :=
  let guess : Int := (Nat.log2 q.num.natAbs : Int) - Nat.log2 q.den
  let e := if (2 : ℚ) ^ guess ≤ q then guess else guess - 1
  max (e - 52) (-1074)

/-- The double nearest to a rational; beyond the largest double it is an infinity. -/
def ofRat (q : ℚ) : PyFloat :=
  if q = 0 then fin 0
  else
    let unit := (2 : ℚ) ^ lastPlace |q|
    let value := roundHalfEven (|q| / unit) * unit
    if (2 : ℚ) ^ (1024 : Int) ≤ value then inf (q < 0)
    else fin (if q < 0 then -value else value)

/-- `float(n)` of an int, which raises where the double would be infinite. -/
def ofInt (n : Int) : Except PyError PyFloat :=
  match ofRat n with
  | inf _ => .error .overflowError
  | x => .ok x

/-- Multiplication by a positive constant. -/
def scale (factor : ℚ) : PyFloat → PyFloat
  | nan => nan
  | inf negative => inf negative
  | fin q => ofRat (q * factor)

/-- `round(x, 1)`. -/
def round1 : PyFloat → PyFloat
  | nan => nan
  | inf negative => inf negative
  | fin q => ofRat (roundHalfEven (q * 10) / 10)

/-- `int(x)` truncates towards zero. -/
def toInt : PyFloat → Except PyError Int
  | nan => .error .valueError
  | inf _ => .error .overflowError
  | fin q => .ok (if q < 0 then -⌊-q⌋ else ⌊q⌋)

/-- `n < x` for an int and a float, compared exactly. -/
def intLt (n : Int) : PyFloat → Bool
  | nan => false
  | inf negative => !negative
  | fin q => (n : ℚ) < q

theorem lastPlace_natCast_le {n k : Nat} (h : n ≤ 2 ^ k) : lastPlace n ≤ k := by
  have hlog : Nat.log2 n ≤ k := by
    by_cases hn : n = 0
    · subst hn
      exact Nat.zero_le _
    · have hlt : n < 2 ^ (k + 1) := lt_of_le_of_lt h (Nat.pow_lt_pow_right (by decide) (by omega))
      have := (Nat.log2_lt hn).mpr hlt
      omega
  unfold lastPlace
  simp only [Rat.num_natCast, Int.natAbs_natCast, Rat.den_natCast]
  have h1 : Nat.log2 1 = 0 := by decide
  split_ifs <;> omega

/-- Ints of moderate size are floats. -/
theorem ofInt_isOk {n : Int} (h : n.natAbs ≤ 2 ^ 64) : ∃ x, ofInt n = .ok x := by
  have habs : |(n : ℚ)| = (n.natAbs : ℚ) := by
    rw [Nat.cast_natAbs, Int.cast_abs]
  unfold ofInt ofRat
  by_cases hn : (n : ℚ) = 0
  · exact ⟨fin 0, by rw [if_pos hn]⟩
  · rw [if_neg hn]
    dsimp only
    have hplace : lastPlace |(n : ℚ)| ≤ 64 := by
      rw [habs]
      exact_mod_cast lastPlace_natCast_le h
    have hunit : (0 : ℚ) < 2 ^ lastPlace |(n : ℚ)| := by positivity
    have hunit_le : (2 : ℚ) ^ lastPlace |(n : ℚ)| ≤ 2 ^ (64 : Int) :=
      zpow_le_zpow_right₀ (by norm_num) hplace
    have habs_le : |(n : ℚ)| ≤ 2 ^ (64 : Int) := by
      rw [habs]
      exact_mod_cast h
    have hvalue : (roundHalfEven (|(n : ℚ)| / 2 ^ lastPlace |(n : ℚ)|) : ℚ)
        * 2 ^ lastPlace |(n : ℚ)| ≤ |(n : ℚ)| + 2 ^ lastPlace |(n : ℚ)| := by
      calc _ ≤ (|(n : ℚ)| / 2 ^ lastPlace |(n : ℚ)| + 1) * 2 ^ lastPlace |(n : ℚ)| := by
            gcongr
            exact roundHalfEven_le _
        _ = _ := by field_simp
    have hlt : ¬(2 : ℚ) ^ (1024 : Int) ≤ (roundHalfEven (|(n : ℚ)| / 2 ^ lastPlace |(n : ℚ)|) : ℚ)
        * 2 ^ lastPlace |(n : ℚ)| := by
      have hdouble : (2 : ℚ) ^ (64 : Int) + 2 ^ (64 : Int) = 2 ^ (65 : Int) := by norm_num
      have hbig : (2 : ℚ) ^ (65 : Int) < 2 ^ (1024 : Int) :=
        zpow_lt_zpow_right₀ (by norm_num) (by norm_num)
      intro hge
      have hle := hge.trans (hvalue.trans (add_le_add habs_le hunit_le))
      rw [hdouble] at hle
      exact absurd hle (not_le.mpr hbig)
    rw [if_neg hlt]
    exact ⟨_, rfl⟩

end PyFloat

/-! ### Values -/

inductive PyValue
  | none
  | bool (b : Bool)
  | int (n : Int)
  | float (x : PyFloat)
  | str (s : PyStr)
  | list (items : List PyValue)
  | dict (items : List (PyStr × PyValue))

/-- The items of a dict. -/
abbrev Fields := List (PyStr × PyValue)

namespace PyValue

def ofInt? : Option Int → PyValue
  | some n => .int n
  | Option.none => .none

def ofText? : Option String → PyValue
  | some s => .str (.text s)
  | Option.none => .none

def ofFloat? : Option PyFloat → PyValue
  | some x => .float x
  | Option.none => .none

/-- A dict with text keys. -/
def object (items : List (String × PyValue)) : PyValue :=
  dict (items.map fun item => (.text item.1, item.2))

def string (s : String) : PyValue := str (.text s)

def truthy : PyValue → Bool
  | none => false
  | bool b => b
  | int n => n ≠ 0
  | float x => x ≠ .fin 0
  | str s => !s.isEmpty
  | list items => !items.isEmpty
  | dict items => !items.isEmpty

/-- `a or b`. -/
def orElse (a b : PyValue) : PyValue := if a.truthy then a else b

/-- `items.get(key)` on the items of a dict. -/
def get (items : List (PyStr × PyValue)) (key : String) : PyValue :=
  (items.lookup (.text key)).getD .none

/-- `value.get(key)` on any object: only dicts have the method. -/
def getAttr (value : PyValue) (key : String) : Except PyError PyValue :=
  match value with
  | dict items => .ok (get items key)
  | _ => .error .attributeError

def isDict : PyValue → Bool
  | dict _ => true
  | _ => false

/-- A value that may be looked up as a dict key. -/
def hashable : PyValue → Bool
  | list _ | dict _ => false
  | _ => true

mutual
/-- Every string in the value, keys included, is text that UTF-8 encodes. -/
def encodable : PyValue → Bool
  | str (.lone _ _) => false
  | list items => encodableList items
  | dict items => encodableItems items
  | _ => true

def encodableList : List PyValue → Bool
  | [] => true
  | value :: rest => value.encodable && encodableList rest

def encodableItems : List (PyStr × PyValue) → Bool
  | [] => true
  | (.lone _ _, _) :: _ => false
  | (.text _, value) :: rest => value.encodable && encodableItems rest
end

/-- What a `for` loop visits: the items of a list, the keys of a dict, the characters of a string
(as opaque strings: no caller looks inside one). Numbers are not iterable. -/
def iterate : PyValue → Except PyError (List PyValue)
  | list items => .ok items
  | dict items => .ok (items.map fun item => .str item.1)
  | str (.text s) => .ok (s.toList.map fun c => .str (.text (String.singleton c)))
  | str (.lone points h) => .ok (points.map fun _ => .str (.lone points h))
  | _ => .error .typeError

end PyValue
end Py

namespace Sql

open Py

/-- A cell. -/
inductive SqlValue
  | null
  | int (n : Int)
  | real (x : PyFloat)
  | text (s : String)
  deriving DecidableEq

namespace SqlValue

/-- `COALESCE(new, old)`. -/
def coalesce : SqlValue → SqlValue → SqlValue
  | null, old => old
  | new, _ => new

/-- The range of an INTEGER cell. -/
def inRange (n : Int) : Bool := -2 ^ 63 ≤ n && n < 2 ^ 63

/-- Bind a Python value to a statement parameter. NaN has no cell of its own and becomes NULL. -/
def bind : PyValue → Except PyError SqlValue
  | .none => .ok null
  | .bool b => .ok (int (if b then 1 else 0))
  | .int n => if inRange n then .ok (int n) else .error .overflowError
  | .float .nan => .ok null
  | .float x => .ok (real x)
  | .str s => s.encode.map text
  | .list _ | .dict _ => .error .programmingError

/-- The int in a cell, when there is one. -/
def toInt? : SqlValue → Option Int
  | int n => some n
  | _ => none

def toText? : SqlValue → Option String
  | text s => some s
  | _ => none

end SqlValue

/-- Bind an int parameter that may be `None`. -/
def bindInt : Option Int → Except PyError (Option Int)
  | some n => if SqlValue.inRange n then .ok (some n) else .error .overflowError
  | none => .ok none

end Sql

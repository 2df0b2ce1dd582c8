import Mathlib.Algebra.Group.Nat.Defs
import Mathlib.Data.List.Basic
import Mathlib.Data.List.Infix
import Mathlib.Data.List.TakeWhile

/-!
Character classes and the number text of Python `str`. The tables are the ones of the Unicode
character database: decimal digits come in blocks of ten, listed by their zero.
-/

namespace Py

/-- What holds of the characters of a text is decided on them, not on all characters. -/
instance (priority := 2000) decidableForallMem {α : Type} (p : α → Prop) [DecidablePred p]
    (text : List α) : Decidable (∀ c ∈ text, p c) :=
  List.decidableBAll p text

/-- The code points of value zero among the decimal digits (category Nd). -/
def decimalZeros : List Nat :=
  [0x30, 0x660, 0x6f0, 0x7c0, 0x966, 0x9e6, 0xa66, 0xae6, 0xb66, 0xbe6, 0xc66, 0xce6, 0xd66, 0xde6,
    0xe50, 0xed0, 0xf20, 0x1040, 0x1090, 0x17e0, 0x1810, 0x1946, 0x19d0, 0x1a80, 0x1a90, 0x1b50,
    0x1bb0, 0x1c40, 0x1c50, 0xa620, 0xa8d0, 0xa900, 0xa9d0, 0xa9f0, 0xaa50, 0xabf0, 0xff10, 0x104a0,
    0x10d30, 0x11066, 0x110f0, 0x11136, 0x111d0, 0x112f0, 0x11450, 0x114d0, 0x11650, 0x116c0,
    0x11730, 0x118e0, 0x11950, 0x11c50, 0x11d50, 0x11da0, 0x16a60, 0x16ac0, 0x16b50, 0x1d7ce,
    0x1d7d8, 0x1d7e2, 0x1d7ec, 0x1d7f6, 0x1e140, 0x1e2f0, 0x1e950, 0x1fbf0]

/-- The value of a decimal digit; `\d` matches exactly the characters that have one. -/
def digitValue (c : Char) : Option Nat :=
  (decimalZeros.find? fun base => base ≤ c.toNat && c.toNat < base + 10).map (c.toNat - ·)

def isDecimal (c : Char) : Bool := (digitValue c).isSome

def inRanges (ranges : List (Nat × Nat)) (c : Char) : Bool :=
  ranges.any fun range => range.1 ≤ c.toNat && c.toNat ≤ range.2

/-- The digits that are not decimal: superscripts, circled digits and the like. -/
def otherDigits : List (Nat × Nat) :=
  [(0xb2, 0xb3), (0xb9, 0xb9), (0x1369, 0x1371), (0x19da, 0x19da), (0x2070, 0x2070),
    (0x2074, 0x2079), (0x2080, 0x2089), (0x2460, 0x2468), (0x2474, 0x247c), (0x2488, 0x2490),
    (0x24ea, 0x24ea), (0x24f5, 0x24fd), (0x24ff, 0x24ff), (0x2776, 0x277e), (0x2780, 0x2788),
    (0x278a, 0x2792), (0x10a40, 0x10a43), (0x10e60, 0x10e68), (0x11052, 0x1105a),
    (0x1f100, 0x1f10a)]

/-- `text.isdigit()`. -/
def isDigitText (text : List Char) : Bool :=
  !text.isEmpty && text.all fun c => isDecimal c || inRanges otherDigits c

/-- `c.isspace()`, which is also what `\s` matches. -/
def isSpace : Char → Bool :=
  inRanges [(0x9, 0xd), (0x1c, 0x20), (0x85, 0x85), (0xa0, 0xa0), (0x1680, 0x1680),
    (0x2000, 0x200a), (0x2028, 0x2029), (0x202f, 0x202f), (0x205f, 0x205f), (0x3000, 0x3000)]

def stripLeft (strips : Char → Bool) (text : List Char) : List Char := text.dropWhile strips

/-- `text.strip(chars)`, the set given by its predicate. -/
def stripChars (strips : Char → Bool) (text : List Char) : List Char :=
  (stripLeft strips (stripLeft strips text).reverse).reverse

/-- `text.strip()`. -/
def strip : List Char → List Char := stripChars isSpace

/-- `text.strip()` on a string. -/
def stripText (text : String) : String := String.ofList (strip text.toList)

/-- The blanks `int` skips around a number: the ASCII separators 1C to 1F are not among them. -/
def isIntSpace (c : Char) : Bool := isSpace c && !(inRanges [(0x1c, 0x1f)] c)

/-- The digits of an int literal; a single underscore may stand between two of them. -/
def intDigits : List Char → Option (List Nat)
  | [] => some []
  | '_' :: c :: rest => do
      let digit ← digitValue c
      let digits ← intDigits rest
      pure (digit :: digits)
  | c :: rest => do
      let digit ← digitValue c
      let digits ← intDigits rest
      pure (digit :: digits)

/-- The longest literal `int` converts. -/
def maxIntDigits : Nat := 4300

def ofDigits (digits : List Nat) : Nat := digits.foldl (fun acc digit => 10 * acc + digit) 0

/-- The number after the sign: it starts with a digit. -/
def natText (text : List Char) : Option Nat :=
  match text with
  | [] | '_' :: _ => none
  | _ => (intDigits text).bind fun digits =>
      if digits.length ≤ maxIntDigits then some (ofDigits digits) else none

/-- `int(text)`; `none` is the `ValueError` of a text that is no int literal. -/
def intText (text : List Char) : Option Int :=
  match stripChars isIntSpace text with
  | '-' :: digits => (natText digits).map fun n => -n
  | '+' :: digits => (natText digits).map fun n => n
  | digits => (natText digits).map fun n => n

theorem isDecimal_of_isSpace {c : Char} (h : isSpace c = true) : isDecimal c = false := by
  by_contra hc
  simp only [Bool.not_eq_false, isDecimal, digitValue, Option.isSome_map, List.find?_isSome,
    Bool.and_eq_true, decide_eq_true_eq] at hc
  obtain ⟨base, hbase, hle, hlt⟩ := hc
  have hdigits : ∀ base ∈ decimalZeros, ∀ value < 10, isSpace (Char.ofNat (base + value)) = false := by
    decide
  have hdigit := hdigits base hbase (c.toNat - base) (by omega)
  rw [Nat.add_sub_cancel' hle, Char.ofNat_toNat, h] at hdigit
  cases hdigit

/-! ### Stripped texts -/

theorem stripChars_eq_nil {strips : Char → Bool} {text : List Char} :
    stripChars strips text = [] ↔ ∀ c ∈ text, strips c = true := by
  rw [stripChars, List.reverse_eq_nil_iff, stripLeft, List.dropWhile_eq_nil_iff, stripLeft]
  simp only [List.mem_reverse]
  constructor
  · intro h c hc
    rw [← List.takeWhile_append_dropWhile (l := text) (p := strips), List.mem_append] at hc
    exact hc.elim List.mem_takeWhile_imp (h c)
  · exact fun h c hc => h c ((List.dropWhile_sublist strips).mem hc)

theorem stripChars_eq_self {strips : Char → Bool} {text : List Char}
    (h : ∀ c ∈ text, strips c = false) : stripChars strips text = text := by
  have hkeeps {text : List Char} (h : ∀ c ∈ text, strips c = false) : stripLeft strips text = text := by
    cases text with
    | nil => rfl
    | cons c text => exact List.dropWhile_cons_of_neg (by simp [h c List.mem_cons_self])
  rw [stripChars, hkeeps h, hkeeps fun c hc => h c (List.mem_reverse.mp hc), List.reverse_reverse]

theorem stripText_eq_empty {text : String} :
    stripText text = "" ↔ ∀ c ∈ text.toList, isSpace c = true := by
  rw [stripText, strip, String.ofList_eq_empty_iff, stripChars_eq_nil]

/-! ### The number text of an int -/

theorem digitValue_of_isDigit {c : Char} (h : c.isDigit = true) :
    digitValue c = some (c.toNat - '0'.toNat) := by
  obtain ⟨hlow, hhigh⟩ := Char.isDigit_iff_toNat.mp h
  have hascii : (decide (0x30 ≤ c.toNat) && decide (c.toNat < 0x30 + 10)) = true := by
    rw [Bool.and_eq_true, decide_eq_true_eq, decide_eq_true_eq]
    exact ⟨hlow, Nat.lt_succ_of_le hhigh⟩
  have hzeros : decimalZeros = 0x30 :: decimalZeros.tail := rfl
  have hfound : decimalZeros.find? (fun base => base ≤ c.toNat && c.toNat < base + 10) = some 0x30 := by
    rw [hzeros]
    exact List.find?_cons_of_pos hascii
  rw [digitValue, hfound]
  rfl

theorem intDigits_of_isDigit {text : List Char} (h : ∀ c ∈ text, c.isDigit = true) :
    intDigits text = some (text.map fun c => c.toNat - '0'.toNat) := by
  induction text with
  | nil => rfl
  | cons c text ih =>
      obtain ⟨hc, htext⟩ := List.forall_mem_cons.mp h
      have hline : c ≠ '_' := by
        rintro rfl
        cases hc
      rw [intDigits.eq_3 c text fun _ _ h _ => hline h, digitValue_of_isDigit hc, ih htext]
      rfl

/-- `int(str(n))` -/
theorem natText_toDigits {n : Nat} (h : n < 10 ^ maxIntDigits) :
    natText (Nat.toDigits 10 n) = some n := by
  have hdigits : ∀ c ∈ Nat.toDigits 10 n, c.isDigit = true :=
    fun c hc => Nat.isDigit_of_mem_toDigits (by decide) (by decide) hc
  have hlength : (Nat.toDigits 10 n).length ≤ maxIntDigits :=
    (Nat.length_toDigits_le_iff (by decide) (by decide)).mpr h
  have hvalue : ofDigits ((Nat.toDigits 10 n).map fun c => c.toNat - '0'.toNat) = n := by
    rw [ofDigits, List.foldl_map]
    exact Nat.ofDigitChars_ten_toDigits
  have hne : Nat.toDigits 10 n ≠ [] := Nat.toDigits_ne_nil
  generalize Nat.toDigits 10 n = text at hdigits hlength hvalue hne
  unfold natText
  split
  · exact absurd rfl hne
  · have hline := hdigits '_' List.mem_cons_self
    cases hline
  · rw [intDigits_of_isDigit hdigits, Option.bind_some, List.length_map, if_pos hlength, hvalue]

/-- `int(str(n))` -/
theorem intText_toString {n : Int} (h : n.natAbs < 10 ^ maxIntDigits) :
    intText (toString n).toList = some n := by
  have hdigits (m : Nat) : ∀ c ∈ Nat.toDigits 10 m, c.isDigit = true :=
    fun c hc => Nat.isDigit_of_mem_toDigits (by decide) (by decide) hc
  have hspace {c : Char} (hc : c.isDigit = true) : isIntSpace c = false := by
    obtain ⟨hlow, hhigh⟩ := Char.isDigit_iff_toNat.mp hc
    have hlow : 48 ≤ c.toNat := hlow
    have hhigh : c.toNat ≤ 57 := hhigh
    have hnone : isSpace c = false := by
      simp only [isSpace, inRanges, List.any_cons, List.any_nil, Bool.or_false, Bool.or_eq_false_iff,
        Bool.and_eq_false_iff, decide_eq_false_iff_not]
      omega
    rw [isIntSpace, hnone, Bool.false_and]
  cases n with
  | ofNat m =>
      have htext : (toString (Int.ofNat m)).toList = Nat.toDigits 10 m := Nat.toList_repr
      unfold intText
      rw [htext, stripChars_eq_self fun c hc => hspace (hdigits m c hc)]
      split
      · rename_i digits heq
        have hminus := hdigits m '-' (heq ▸ List.mem_cons_self)
        cases hminus
      · rename_i digits heq
        have hplus := hdigits m '+' (heq ▸ List.mem_cons_self)
        cases hplus
      · rw [natText_toDigits (show m < _ from h)]
        rfl
  | negSucc m =>
      have htext : (toString (Int.negSucc m)).toList = '-' :: Nat.toDigits 10 (m + 1) := by
        rw [← Nat.toList_repr]
        exact String.toList_append
      have hplain : ∀ c ∈ '-' :: Nat.toDigits 10 (m + 1), isIntSpace c = false := by
        rw [List.forall_mem_cons]
        exact ⟨by decide, fun c hc => hspace (hdigits _ c hc)⟩
      unfold intText
      rw [htext, stripChars_eq_self hplain]
      simp only
      rw [natText_toDigits (show m + 1 < _ from h)]
      rfl

/-! ### Parts of a text -/

/-- `part in text` -/
def contains (part text : List Char) : Bool := text.tails.any part.isPrefixOf

theorem contains_iff {part text : List Char} : contains part text = true ↔ part <:+: text := by
  rw [contains, List.any_eq_true, List.infix_iff_prefix_suffix]
  refine exists_congr fun rest => ?_
  rw [List.mem_tails, List.isPrefixOf_iff_prefix, and_comm]

theorem infix_stripLeft {strips : Char → Bool} {c : Char} {part text : List Char}
    (hc : strips c = false) : c :: part <:+: stripLeft strips text ↔ c :: part <:+: text := by
  induction text with
  | nil => rfl
  | cons d text ih =>
      cases hd : strips d with
      | false => rw [stripLeft, List.dropWhile_cons_of_neg (by simp [hd])]
      | true =>
          rw [stripLeft, List.dropWhile_cons_of_pos hd, List.infix_cons_iff]
          have hhead : ¬ c :: part <+: d :: text := by
            intro h
            rw [(List.cons_prefix_cons.mp h).1, hd] at hc
            cases hc
          exact ih.trans ⟨.inr, fun h => h.resolve_left hhead⟩

/-- Stripping takes no part away that has no blank at its ends. -/
theorem contains_strip {part : List Char} (text : List Char) (hne : part ≠ [])
    (hfirst : isSpace (part.head hne) = false) (hlast : isSpace (part.getLast hne) = false) :
    contains part (strip text) = contains part text := by
  have hfront : part.head hne :: part.tail = part := List.cons_head_tail hne
  have hback : part.getLast hne :: part.dropLast.reverse = part.reverse := by
    rw [← List.reverse_concat, List.dropLast_concat_getLast]
  rw [Bool.eq_iff_iff, contains_iff, contains_iff, strip, stripChars, ← List.reverse_infix,
    List.reverse_reverse, ← hback, infix_stripLeft hlast, hback, List.reverse_infix, ← hfront,
    infix_stripLeft hfirst]

/-- A text of one class of characters has no part with a character of another. -/
theorem contains_eq_false {accepts : Char → Bool} {part text : List Char}
    (htext : ∀ c ∈ text, accepts c = true) (hpart : part.all accepts = false) :
    contains part text = false := by
  rw [Bool.eq_false_iff]
  intro h
  have hall : part.all accepts = true :=
    List.all_eq_true.mpr fun c hc => htext c ((contains_iff.mp h).subset hc)
  rw [hpart] at hall
  cases hall

/-- Where `splitlines` breaks a line. -/
def isLineBreak : Char → Bool :=
  inRanges [(0xa, 0xd), (0x1c, 0x1e), (0x85, 0x85), (0x2028, 0x2029)]

/-- The lines of a text, the first of which has begun with `line`, last character first. -/
def linesFrom (line : List Char) : List Char → List (List Char)
  | [] => if line.isEmpty then [] else [line.reverse]
  | '\r' :: '\n' :: rest => line.reverse :: linesFrom [] rest
  | c :: rest => if isLineBreak c then line.reverse :: linesFrom [] rest else linesFrom (c :: line) rest

/-- `text.splitlines()` -/
def splitLines (text : List Char) : List (List Char) := linesFrom [] text

/-- `str(n)` -/
def decimal (n : Nat) : List Char := Nat.toDigits 10 n

example : intText "٤_2 ".toList = some 42 := by decide

example : intText "1__0".toList = none := by decide

end Py

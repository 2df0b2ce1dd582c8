import ClassinDashboard.ClockMarkers
import ClassinDashboard.LineLessons
import ClassinDashboard.PyReads
import ClassinDashboard.WeekdayDates

/-!
What the words at the head of a line have to do with what is read from the rest of it. Times, dates
and counts begin with a digit; a weekday list and the n-th week of a month can begin in the head and
end behind it.
-/

namespace Py.Regex

theorem opens_times {accepts : Char → Bool} {r : Regex} (h : Opens accepts r) (min max : Nat) :
    Opens accepts (times r (min + 1) max) := h.seq

/-- A pattern that does not look behind. -/
def unanchored : Regex → Bool
  | one _ | empty => true
  | seq first second | alt first second => unanchored first && unanchored second
  | star body | group _ body | notAhead body => unanchored body
  | notBehind _ | start => false

theorem blind_of_unanchored {r : Regex} (h : unanchored r = true) (behind : List Char) :
    Blind behind r := by
  induction r with
  | one _ => exact trivial
  | empty => exact trivial
  | seq first second ihfirst ihsecond =>
      obtain ⟨hfirst, hsecond⟩ := Bool.and_eq_true_iff.mp h
      exact ⟨ihfirst hfirst, ihsecond hsecond⟩
  | alt first second ihfirst ihsecond =>
      obtain ⟨hfirst, hsecond⟩ := Bool.and_eq_true_iff.mp h
      exact ⟨ihfirst hfirst, ihsecond hsecond⟩
  | star body ih => exact ih h
  | group index body ih => exact ih h
  | notAhead body ih => exact ih h
  | notBehind _ => cases h
  | start => cases h

@[simp] theorem group_behind (more : List Char) (hit : Match) (index : Nat) :
    (hit.behind more).group index = hit.group index := rfl

@[simp] theorem number_behind (more : List Char) (hit : Match) (index : Nat) :
    (hit.behind more).number index = hit.number index := rfl

end Py.Regex

namespace ClassinDashboard

open Py Py.Regex

/-- Nothing in the text is a digit. -/
def Undigited (text : Text) : Prop := ∀ c ∈ text, isDecimal c = false

instance (text : Text) : Decidable (Undigited text) :=
  inferInstanceAs (Decidable (∀ c ∈ text, isDecimal c = false))

theorem opens_digits (min max : Nat) : Opens isDecimal (digits (min + 1) max) :=
  opens_times (opens_one isDecimal) min max

section Digits

variable {u v : Text} {r : Regex}

theorem search_undigited (hu : Undigited u) (hopens : Opens isDecimal r)
    (hfree : unanchored r = true) :
    search r (u ++ v) = (search r v).map (Match.behind u.reverse) :=
  search_append (hopens.skips hu) (blind_of_unanchored hfree _)

theorem subst_undigited (hu : Undigited u) {replacement : Text} (hopens : Opens isDecimal r)
    (hfree : unanchored r = true) : subst r replacement (u ++ v) = u ++ subst r replacement v :=
  subst_append (hopens.skips hu) (blind_of_unanchored hfree _) hopens.not_nil

theorem stripTimes_append (hu : Undigited u) : stripTimes (u ++ v) = u ++ stripTimes v := by
  simp only [stripTimes, List.foldl_cons, List.foldl_nil]
  rw [subst_undigited hu, subst_undigited hu, subst_undigited hu]
  case hopens => exact (opens_digits 0 2).seq
  case hopens => exact (opens_digits 0 2).seq
  case hopens => exact (opens_digits 0 2).seq
  all_goals rfl

/-- The date of a stripped text is that of what follows words without digits. -/
theorem parseDate_append (hu : Undigited u) (hend : u.reverse.head?.any isClockChar = false)
    (hline : strip (u ++ v) = u ++ v) (hv : strip v = v) (year : Nat) :
    parseDate (u ++ v) year = parseDate v year := by
  simp only [parseDate, hline, hv]
  rw [search_undigited hu, search_undigited hu, stripTimes_append hu, search_append]
  case hopens => exact ((opens_digits 0 2).group 1).seq
  case hopens => exact ((opens_digits 3 4).group 1).seq
  case hskip => exact ((opens_digits 0 2).group 1).seq.notBehind_seq.skips hu
  case hblind => exact ⟨hend, blind_of_unanchored rfl _⟩
  case hfree => rfl
  case hfree => rfl
  generalize search (all _) v = dashed
  generalize search (all _) v = korean
  generalize search (all _) (stripTimes v) = short
  cases dashed <;> cases korean <;> cases short <;> rfl

theorem statedWeeks_append (hu : Undigited u) : statedWeeks (u ++ v) = statedWeeks v := by
  rw [statedWeeks, statedWeeks, search_undigited hu, Option.map_map]
  case hopens => exact ((opens_digits 0 2).group 1).seq
  case hfree => rfl
  rfl

theorem statedSessions_append (hu : Undigited u) : statedSessions (u ++ v) = statedSessions v := by
  rw [statedSessions, statedSessions, search_undigited hu, Option.map_map]
  case hopens => exact ((opens_digits 0 3).group 1).seq
  case hfree => rfl
  rfl

theorem readTimeRange_append {p : Platform} {shift : Bool} (hu : Undigited u)
    (hmarker : hasAmMarker p (u ++ v) = hasAmMarker p v) :
    readTimeRange p (u ++ v) shift = readTimeRange p v shift := by
  simp only [readTimeRange, readHourRange, hmarker]
  rw [search_undigited hu, search_undigited hu, search_undigited hu]
  case hopens => exact ((opens_digits 0 2).group 1).seq
  case hopens => exact ((opens_digits 0 2).group 1).seq
  case hopens => exact ((opens_digits 0 2).group 1).seq
  case hfree => rfl
  case hfree => rfl
  case hfree => rfl
  cases search clockRange v <;> cases search hourRange v <;> cases search hourToHour v <;> rfl

end Digits

/-! ### Words and blanks -/

/-- A character that a word does not have is in what follows the word. -/
theorem split_at_char {c : Char} {word more left right : Text} (hword : c ∉ word)
    (h : left ++ c :: right = word ++ more) :
    ∃ rest, left = word ++ rest ∧ more = rest ++ c :: right := by
  rcases List.append_eq_append_iff.mp h with ⟨rest, rfl, hrest⟩ | ⟨rest, rfl, hrest⟩
  · cases rest with
    | nil => exact ⟨[], by simp, by simpa using hrest.symm⟩
    | cons d rest =>
        obtain ⟨rfl, -⟩ : c = d ∧ right = rest ++ more := List.cons.inj hrest
        exact absurd (List.mem_append_right _ List.mem_cons_self) hword
  · exact ⟨rest, rfl, hrest⟩

/-- A word is in a text when it is before a character that it does not have or behind. -/
theorem contains_append_char {c : Char} {part : Text} (hne : part ≠ []) (hpart : c ∉ part)
    (left right : Text) :
    contains part (left ++ c :: right) = (contains part left || contains part right) := by
  rw [Bool.eq_iff_iff, Bool.or_eq_true, contains_iff, contains_iff, contains_iff]
  constructor
  · rintro ⟨before, after, h⟩
    rw [List.append_assoc] at h
    rcases List.append_eq_append_iff.mp h with ⟨more, rfl, hmore⟩ | ⟨more, rfl, hmore⟩
    · obtain ⟨rest, rfl, -⟩ := split_at_char hpart hmore.symm
      exact .inl ⟨before, rest, by rw [List.append_assoc]⟩
    · cases more with
      | nil =>
          obtain ⟨d, part, rfl⟩ := List.exists_cons_of_ne_nil hne
          obtain ⟨rfl, -⟩ : c = d ∧ right = part ++ after := List.cons.inj hmore
          exact absurd List.mem_cons_self hpart
      | cons d more =>
          obtain ⟨-, rfl⟩ : c = d ∧ right = more ++ (part ++ after) := List.cons.inj hmore
          exact .inr ⟨more, after, by rw [List.append_assoc]⟩
  · rintro (h | h)
    · exact h.trans ⟨[], c :: right, by simp⟩
    · exact h.trans ⟨left ++ [c], [], by simp⟩

theorem isClockChar_of_isSpace {c : Char} (h : isSpace c = true) : isClockChar c = false := by
  rw [isClockChar, isDecimal_of_isSpace h, Bool.false_or, decide_eq_false_iff_not]
  rintro rfl
  exact absurd h (by decide)

section Strip

variable {head lead rest : Text}

theorem stripLeft_append (hlead : ∀ c ∈ lead, isSpace c = true) (rest : Text) :
    stripLeft isSpace (lead ++ rest) = stripLeft isSpace rest :=
  List.dropWhile_append_of_pos hlead

theorem strip_append (hlead : ∀ c ∈ lead, isSpace c = true) (rest : Text) :
    strip (lead ++ rest) = strip rest := by
  rw [strip, stripChars, stripChars, stripLeft_append hlead]

/-- What is stripped has no blanks left. -/
theorem strip_strip (text : Text) : strip (strip text) = strip text := by
  have hfix {front text : Text} (h : front <+: stripLeft isSpace text) :
      stripLeft isSpace front = front := by
    cases front with
    | nil => rfl
    | cons c front =>
        obtain ⟨rest, hrest⟩ := h
        refine List.dropWhile_cons_of_neg fun hc => ?_
        have hhead := List.head?_dropWhile_not isSpace text
        rw [show text.dropWhile isSpace = c :: (front ++ rest) from hrest.symm] at hhead
        exact Bool.false_ne_true (hhead.symm.trans hc)
  have hprefix : strip text <+: stripLeft isSpace text := by
    rw [← List.reverse_suffix, strip, stripChars, List.reverse_reverse]
    exact List.dropWhile_suffix isSpace
  have houter : strip (strip text) = (stripLeft isSpace (strip text).reverse).reverse :=
    congrArg (fun front : Text => (stripLeft isSpace front.reverse).reverse) (hfix hprefix)
  rw [houter, strip, stripChars, List.reverse_reverse, hfix (List.prefix_refl _)]

/-- A line that begins with a word is stripped behind. -/
theorem strip_line {c : Char} (hc : isSpace c = false) {schedule : Text} (hne : strip schedule ≠ []) :
    strip (c :: (head ++ ' ' :: schedule)) =
      c :: head ++ ' ' :: schedule.takeWhile isSpace ++ strip schedule := by
  have hfront : stripLeft isSpace (c :: (head ++ ' ' :: schedule)) = c :: (head ++ ' ' :: schedule) :=
    List.dropWhile_cons_of_neg (by simp [hc])
  have hback : (stripLeft isSpace (stripLeft isSpace schedule).reverse).isEmpty = false := by
    rw [List.isEmpty_eq_false_iff]
    intro hnil
    exact hne (by rw [strip, stripChars, hnil, List.reverse_nil])
  have hsplit : c :: (head ++ ' ' :: schedule) =
      (c :: head ++ ' ' :: schedule.takeWhile isSpace) ++ stripLeft isSpace schedule := by
    simp [stripLeft, List.takeWhile_append_dropWhile]
  rw [strip, stripChars, hfront, hsplit, List.reverse_append, stripLeft, List.dropWhile_append,
    if_neg (by simpa [stripLeft] using hback), List.reverse_append, List.reverse_reverse]
  rfl

end Strip

/-! ### Markers -/

/-- Hangul, digits and the separators of dates and times. -/
def isUncased (c : Char) : Bool :=
  ('가' ≤ c && c ≤ '힣') || isDecimal c || " /-".toList.contains c

/-- The case of a text is that of its words, and some texts have none. -/
structure WordCase (p : Platform) : Prop extends p.PlainCase where
  words : ∀ left right, lower p (left ++ ' ' :: right) = lower p left ++ ' ' :: lower p right
  uncased : ∀ text, (∀ c ∈ text, isUncased c = true) → lower p text = text

theorem plain_wordCase : WordCase .plain where
  toPlainCase := plainCase_plain
  words left right := by
    have hplain (text : Text) : lower .plain text = text := String.toList_ofList
    rw [hplain, hplain, hplain]
  uncased text _ := String.toList_ofList

theorem hasAmMarker_append_blank {p : Platform} (hcase : WordCase p) (left right : Text) :
    hasAmMarker p (left ++ ' ' :: right) = (hasAmMarker p left || hasAmMarker p right) := by
  rw [hasAmMarker, hcase.words, contains_append_char (by decide) (by decide),
    contains_append_char (by decide) (by decide), hasAmMarker, hasAmMarker]
  cases contains "오전".toList left <;> cases contains "am".toList (lower p left) <;> simp

theorem hasAmMarker_uncased {p : Platform} (hcase : WordCase p) {text : Text}
    (h : ∀ c ∈ text, isUncased c = true) : hasAmMarker p text = hasAmMarker .plain text := by
  have hplain : lower .plain text = text := String.toList_ofList
  rw [hasAmMarker, hcase.uncased text h, hasAmMarker, hplain]

end ClassinDashboard

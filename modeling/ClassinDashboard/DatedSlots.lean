import ClassinDashboard.PyIsoTime
import ClassinDashboard.SlotTexts

/-!
A date before a range in one cell. The dashes of the date begin no range, and the date is read as if it
stood alone.
-/

namespace Py

theorem digitValue_digitChar {n : Nat} (h : n < 10) : digitValue (Nat.digitChar n) = some n := by
  have hdigits : ∀ n < 10, digitValue (Nat.digitChar n) = some n := by decide
  exact hdigits n h

theorem isDecimal_fixedDigits (width n : Nat) : ∀ c ∈ fixedDigits width n, isDecimal c = true := by
  induction width generalizing n with
  | zero => exact fun c hc => absurd hc List.not_mem_nil
  | succ width ih =>
      intro c hc
      rcases List.mem_append.mp hc with hc | hc
      · exact ih _ c hc
      · rw [List.mem_singleton.mp hc, isDecimal, digitValue_digitChar (Nat.mod_lt n (by decide))]
        rfl

/-- The number that the digits of a fixed width state. -/
theorem ofDigits_fixedDigits (width n : Nat) :
    ofDigits ((fixedDigits width n).filterMap digitValue) = n % 10 ^ width := by
  induction width generalizing n with
  | zero => rw [pow_zero, Nat.mod_one]; rfl
  | succ width ih =>
      have hlast := digitValue_digitChar (Nat.mod_lt n (show 0 < 10 by decide))
      rw [fixedDigits, List.filterMap_append, List.filterMap_cons_some hlast, List.filterMap_nil, ofDigits,
        List.foldl_append, ← ofDigits, ih, List.foldl_cons, List.foldl_nil, pow_succ, Nat.mul_comm (10 ^ width),
        Nat.mod_mul]
      omega

theorem Date.toList_isoformat (day : Date) : day.isoformat.toList =
    fixedDigits 4 day.year ++ '-' :: (fixedDigits 2 day.month ++ '-' :: fixedDigits 2 day.day) := by
  have hyear := day.year_le
  obtain ⟨-, -, hmonth, -, hday, -⟩ := day.ymd_spec
  have hday := hday.trans (daysInMonth_le day.year day.month)
  simp only [isoformat, String.toList_append]
  rw [toList_zeroPad (by decide) (by omega), toList_zeroPad (by decide) (by omega),
    toList_zeroPad (by decide) (by omega)]
  simp

/-- `date(d.year, d.month, d.day)` -/
theorem Date.ofYmd?_eq (day : Date) : Date.ofYmd? day.year day.month day.day = some day := by
  have hyear := day.year_le
  obtain ⟨hpos, hmonth, hmonth', hday, hday', hordinal⟩ := day.ymd_spec
  have hmax := day.le_max
  rw [ofYmd?, if_pos ⟨hpos, hyear, hmonth, hmonth', hday, hday'⟩, ← hordinal, ofOrdinal?,
    dif_pos ⟨by exact_mod_cast day.pos, by exact_mod_cast hmax⟩]
  exact congrArg some (ext_ordinal (Int.toNat_natCast _))

end Py

namespace ClassinDashboard

open Py Py.Regex

/-- What may follow the date: it goes on with no digit and, behind blanks, with no unit and no dash. -/
structure StandsApart (follow : Text) : Prop where
  digit : follow.head?.any isDecimal = false
  mark : (follow.dropWhile isSpace).head?.any (":시-~–—".toList.contains ·) = false

theorem standsApart_nil : StandsApart [] := ⟨rfl, rfl⟩

theorem standsApart_slot (first last : ClockText) : StandsApart (' ' :: slotText first last) := by
  refine ⟨show isDecimal ' ' = false by decide, ?_⟩
  rw [List.dropWhile_cons_of_pos (by decide), slotText_eq]
  rcases dropWhile_append_cases isSpace first.lead.text _ with ⟨-, hskip⟩ | ⟨c, hword, rest, hfront⟩
  · obtain ⟨c, rest, hdigits, hc⟩ := first.hour.head
    rw [hskip, hdigits, List.cons_append,
      List.dropWhile_cons_of_neg (Bool.eq_false_iff.mp (isSpace_of_isDecimal hc))]
    by_contra hmark
    have hplain := (plain_oneOf ":시-~–—" (by decide) (Bool.not_eq_false _ ▸ hmark)).1
    exact Bool.false_ne_true (hplain.symm.trans hc)
  · rw [hfront]
    exact first.lead.not_mem (fun c hc => isClockPart_of_oneOf ":시-~–—" (by decide) hc) c hword

section Date

variable {follow : Text} {r : Regex} {accepts : Char → Bool} {index : Nat}

/-- A number of the date is not the hour of a reading. -/
theorem not_begins_number (hfollow : StandsApart follow) {front : Text}
    (hfront : ∀ c ∈ front, isDecimal c = true) (hopens : Opens accepts r)
    (hplain : ∀ c, accepts c = true → c ∈ ":시-~–—".toList) :
    ¬Begins (seq (group index (digits 1 2)) (seq blanks r)) (front ++ follow) := by
  intro h
  have hrest := h.number hfront hfollow.digit hopens fun c hc =>
    plain_oneOf ":시-~–—" (by decide) (List.contains_iff_mem.mpr (hplain c hc))
  obtain ⟨c, rest, heq, hc⟩ := hrest.head hopens
  have hmark := hfollow.mark
  rw [heq] at hmark
  exact Bool.false_ne_true (hmark.symm.trans (List.contains_iff_mem.mpr (hplain c hc)))

/-- Nor is a number before a dash of the date, where the pattern goes on with a unit. -/
theorem not_begins_dashed {front : Text} (hfront : ∀ c ∈ front, isDecimal c = true)
    (hopens : Opens accepts r) (hplain : ∀ c, accepts c = true → c ∈ ":시".toList) :
    ¬Begins (seq (group index (digits 1 2)) (seq blanks r)) (front ++ '-' :: follow) := by
  intro h
  have hmarks : ":시".toList ⊆ ":시분-~–—".toList := by decide
  have hrest := h.number hfront (show isDecimal '-' = false by decide) hopens fun c hc =>
    plain_oneOf ":시" (by decide) (List.contains_iff_mem.mpr (hplain c hc))
  obtain ⟨c, rest, heq, hc⟩ := hrest.head hopens
  rw [List.dropWhile_cons_of_neg (by decide)] at heq
  obtain ⟨rfl, -⟩ := List.cons.inj heq
  exact absurd (hplain _ hc) (by decide)

theorem passes_date {day : Date} (hopens : Opens isDecimal r)
    (hdash : ∀ front : Text, (∀ c ∈ front, isDecimal c = true) → ∀ n : Nat, ∀ more : Text,
      (more = follow ∨ ∃ rest, more = '-' :: rest) →
        ¬Begins r (front ++ '-' :: (fixedDigits 2 n ++ more)))
    (hend : ∀ front : Text, (∀ c ∈ front, isDecimal c = true) → ¬Begins r (front ++ follow)) :
    Passes r day.isoformat.toList follow := by
  have hmark : isDecimal '-' = false := by decide
  have hday : Passes r (fixedDigits 2 day.day) follow :=
    .of_suffix (isDecimal_fixedDigits 2 day.day) fun front hfront _ => hend front hfront
  have hmonth : Passes r (fixedDigits 2 day.month ++ '-' :: fixedDigits 2 day.day) follow := by
    refine .append (.of_suffix (isDecimal_fixedDigits 2 day.month) fun front hfront _ => ?_)
      (hday.cons_opens hopens hmark)
    exact hdash front hfront _ follow (.inl rfl)
  rw [day.toList_isoformat]
  refine .append (.of_suffix (isDecimal_fixedDigits 4 day.year) fun front hfront _ => ?_)
    (hmonth.cons_opens hopens hmark)
  rw [List.cons_append, List.append_assoc]
  exact hdash front hfront _ _ (.inr ⟨_, rfl⟩)

theorem passes_date_unit {day : Date} (hfollow : StandsApart follow) (hopens : Opens accepts r)
    (hplain : ∀ c, accepts c = true → c ∈ ":시".toList) :
    Passes (seq (group index (digits 1 2)) (seq blanks r)) day.isoformat.toList follow := by
  have hmarks : ":시".toList ⊆ ":시-~–—".toList := by decide
  refine passes_date ((opens_digits 0 2).group index).seq (fun front hfront n more _ => ?_)
    fun front hfront => ?_
  · exact not_begins_dashed hfront hopens hplain
  · exact not_begins_number hfollow hfront hopens fun c hc => hmarks (hplain c hc)

theorem passes_date_dash {day : Date} (hfollow : StandsApart follow) :
    Passes hourRange day.isoformat.toList follow := by
  have hhour : "시".toList ⊆ ":시".toList := by decide
  have hhour' : "시".toList ⊆ ":시-~–—".toList := by decide
  refine passes_date ((opens_digits 0 2).group 1).seq (fun front hfront n more hmore hbegins => ?_)
    fun front hfront => ?_
  · have hdash := hbegins.number hfront (show isDecimal '-' = false by decide)
      (opens_one ("-~–—".toList.contains ·)).seq fun c hc => plain_oneOf _ (by decide) hc
    rw [List.dropWhile_cons_of_neg (by decide)] at hdash
    obtain ⟨c, rest, heq, -, hrest⟩ := hdash.tail
    obtain ⟨-, rfl⟩ := List.cons.inj heq
    have hnumber := hrest.drop readsOnly_blanks ((opens_digits 0 2).group 2).seq
      fun c hc => isSpace_of_isDecimal hc
    have hdigits := isDecimal_fixedDigits 2 n
    have hstart : (fixedDigits 2 n ++ more).dropWhile isSpace = fixedDigits 2 n ++ more :=
      List.dropWhile_cons_of_neg
        (Bool.eq_false_iff.mp (isSpace_of_isDecimal (hdigits _ List.mem_cons_self)))
    rw [hstart] at hnumber
    rcases hmore with rfl | ⟨rest, rfl⟩
    · exact not_begins_number hfollow hdigits opens_hourMark
        (fun c hc => hhour' (List.contains_iff_mem.mp hc)) hnumber
    · exact not_begins_dashed hdigits opens_hourMark
        (fun c hc => hhour (List.contains_iff_mem.mp hc)) hnumber
  · exact not_begins_number hfollow hfront (opens_one ("-~–—".toList.contains ·)).seq
      fun c hc => by simp_all

/-- The ranges of a cell are those behind its date. -/
theorem readTimeRange_dated {p : Platform} {day : Date} (hfollow : StandsApart follow)
    (hmarker : hasAmMarker p (day.isoformat.toList ++ follow) = hasAmMarker p follow) (shift : Bool) :
    readTimeRange p (day.isoformat.toList ++ follow) shift = readTimeRange p follow shift := by
  have hhour : "시".toList ⊆ ":시".toList := by decide
  have hclock : Passes clockRange day.isoformat.toList follow :=
    passes_date_unit hfollow (opens_one _).seq fun c hc => List.contains_iff_mem.mp hc
  have hhours : Passes hourToHour day.isoformat.toList follow :=
    passes_date_unit hfollow opens_hourMark fun c hc => hhour (List.contains_iff_mem.mp hc)
  simp only [readTimeRange, readHourRange, hmarker]
  rw [search_append hclock.skips (blind_of_unanchored rfl _),
    search_append (passes_date_dash hfollow).skips (blind_of_unanchored rfl _),
    search_append hhours.skips (blind_of_unanchored rfl _)]
  cases search clockRange follow <;> cases search hourRange follow <;>
    cases search hourToHour follow <;> rfl

end Date

/-! ### The cells -/

/-- The case of a text is that of its parts around a dash. -/
structure DashCase (p : Platform) : Prop extends WordCase p where
  dashes : ∀ left right, lower p (left ++ '-' :: right) = lower p left ++ '-' :: lower p right

theorem hasAmMarker_slotText {p : Platform} (hcase : DashCase p) (first last : ClockText) :
    hasAmMarker p (slotText first last) = (hasAmMarker p first.text || hasAmMarker p last.text) := by
  rw [slotText, hasAmMarker, hcase.dashes, contains_append_char (by decide) (by decide),
    contains_append_char (by decide) (by decide), hasAmMarker, hasAmMarker]
  cases contains "오전".toList first.text <;> cases contains "am".toList (lower p first.text) <;> simp

theorem hasAmMarker_date {p : Platform} (hcase : WordCase p) (day : Date) :
    hasAmMarker p day.isoformat.toList = false := by
  have hchars : ∀ c ∈ day.isoformat.toList, isDecimal c = true ∨ c = '-' := by
    intro c hc
    rw [day.toList_isoformat] at hc
    simp only [List.mem_append, List.mem_cons] at hc
    rcases hc with hc | rfl | hc | rfl | hc
    · exact .inl (isDecimal_fixedDigits _ _ c hc)
    · exact .inr rfl
    · exact .inl (isDecimal_fixedDigits _ _ c hc)
    · exact .inr rfl
    · exact .inl (isDecimal_fixedDigits _ _ c hc)
  have hplain : lower .plain day.isoformat.toList = day.isoformat.toList := String.toList_ofList
  have hclass : ∀ c ∈ day.isoformat.toList, (isDecimal c || c = '-') = true := fun c hc => by
    rcases hchars c hc with h | h <;> simp [h]
  rw [hasAmMarker_uncased hcase fun c hc => ?_, hasAmMarker, hplain,
    contains_eq_false hclass (by decide), contains_eq_false hclass (by decide),
    Bool.or_false]
  rcases hchars c hc with h | rfl
  · rw [isUncased, h, Bool.or_true, Bool.true_or]
  · rfl

/-- The date alone states no range. -/
theorem readTimeRange_date {p : Platform} (hcase : WordCase p) (day : Date) :
    readTimeRange p day.isoformat.toList false = none := by
  have hnil : hasAmMarker p [] = false := hasAmMarker_digits hcase.toPlainCase fun c hc =>
    absurd hc List.not_mem_nil
  have hmarker : hasAmMarker p (day.isoformat.toList ++ []) = hasAmMarker p [] := by
    rw [List.append_nil, hasAmMarker_date hcase, hnil]
  have halone := readTimeRange_dated standsApart_nil hmarker false
  rw [List.append_nil] at halone
  rw [halone]
  rfl

/-- A range behind the date is read as if it stood alone. -/
theorem readTimeRange_dateSlot {p : Platform} (hcase : WordCase p) (day : Date) (first last : ClockText) :
    readTimeRange p (day.isoformat.toList ++ ' ' :: slotText first last) false =
      readTimeRange p (slotText first last) false := by
  have hnil : hasAmMarker p [] = false := hasAmMarker_digits hcase.toPlainCase fun c hc =>
    absurd hc List.not_mem_nil
  have hblank : hasAmMarker p ([' '] ++ slotText first last) = hasAmMarker p (slotText first last) := by
    rw [show [' '] ++ slotText first last = [] ++ ' ' :: slotText first last from rfl,
      hasAmMarker_append_blank hcase, hnil, Bool.false_or]
  have hdated : hasAmMarker p (day.isoformat.toList ++ ' ' :: slotText first last) =
      hasAmMarker p (' ' :: slotText first last) := by
    rw [hasAmMarker_append_blank hcase, hasAmMarker_date hcase, Bool.false_or]
    exact hblank.symm
  rw [readTimeRange_dated (standsApart_slot first last) hdated]
  exact readTimeRange_append (by decide) hblank

section Parse

variable (day : Date)

theorem isSpace_fixedDigits (width n : Nat) {c : Char} (h : c ∈ fixedDigits width n) : isSpace c = false :=
  isSpace_of_isDecimal (isDecimal_fixedDigits width n c h)

theorem strip_dated (follow : Text) :
    ∃ rest, strip (day.isoformat.toList ++ follow) = day.isoformat.toList ++ rest := by
  have hne : day.isoformat.toList ≠ [] := by
    rw [day.toList_isoformat]
    exact List.cons_ne_nil _ _
  have hfirst : day.isoformat.toList.head?.any isSpace = false := by
    rw [day.toList_isoformat]
    exact isSpace_fixedDigits 4 day.year List.mem_cons_self
  have hlast : day.isoformat.toList.getLast?.any isSpace = false := by
    have hend : day.isoformat.toList.getLast? = some (Nat.digitChar (day.day % 10)) := by
      have hday : fixedDigits 2 day.day = fixedDigits 1 (day.day / 10) ++ [Nat.digitChar (day.day % 10)] :=
        rfl
      rw [day.toList_isoformat, hday]
      simp [List.getLast?_append, List.getLast?_cons]
    rw [hend]
    exact isSpace_fixedDigits 2 day.day (List.mem_append_right _ List.mem_cons_self)
  have hstrip := strip_around hne hfirst hlast [] follow
  rw [List.nil_append] at hstrip
  exact ⟨_, hstrip.trans (List.nil_append _)⟩

/-- A cell that begins with a date states this date. -/
theorem parseDate_dated (follow : Text) (year : Nat) :
    parseDate (day.isoformat.toList ++ follow) year = some day := by
  obtain ⟨rest, hstrip⟩ := strip_dated day follow
  have hfirst : First (all ([group 1 (digits 4 4)] ++ dateSeparator ++ [group 2 (digits 1 2)]
      ++ dateSeparator ++ [group 3 (digits 1 2)])) [] (fixedDigits 4 day.year ++ (['-'] ++
        (fixedDigits 2 day.month ++ (['-'] ++ (fixedDigits 2 day.day ++ []))))) rest []
          [(3, fixedDigits 2 day.day), (2, fixedDigits 2 day.month), (1, fixedDigits 4 day.year)] := by
    refine ((first_times (isDecimal_fixedDigits _ _) le_rfl le_rfl (.inl rfl)).group 1).seq
      (First.no_blanks ((first_one rfl).seq (First.no_blanks
        (((first_times (isDecimal_fixedDigits _ _) ?_ le_rfl (.inl rfl)).group 2).seq
          (First.no_blanks ((first_one rfl).seq (First.no_blanks
            (((first_times (isDecimal_fixedDigits _ _) ?_ le_rfl (.inl rfl)).group 3).seq first_empty)
              ?_)) ?_)) ?_)) ?_)
    · exact Nat.le_succ 1
    · exact Nat.le_succ 1
    · exact isSpace_fixedDigits 2 day.day List.mem_cons_self
    · exact show isSpace '-' = false by decide
    · exact isSpace_fixedDigits 2 day.month List.mem_cons_self
    · exact show isSpace '-' = false by decide
  have hhit := hfirst.search (.nil _ _)
  rw [List.nil_append] at hhit
  have hdate : (fixedDigits 4 day.year ++ (['-'] ++ (fixedDigits 2 day.month ++ (['-'] ++
      (fixedDigits 2 day.day ++ []))))) = day.isoformat.toList := by
    rw [day.toList_isoformat, List.append_nil]
    rfl
  rw [hdate] at hhit
  have hyear := day.year_le
  obtain ⟨-, -, hmonth, -, hday, -⟩ := day.ymd_spec
  have hday := hday.trans (daysInMonth_le day.year day.month)
  have hnumber {width n : Nat} (h : n < 10 ^ width) :
      ofDigits ((fixedDigits width n).filterMap digitValue) = n := by
    rw [ofDigits_fixedDigits, Nat.mod_eq_of_lt h]
  simp only [parseDate, hstrip, hhit, Match.number, Match.group, List.lookup_cons, Option.getD_some,
    Nat.reduceBEq]
  rw [hnumber (by omega), hnumber (by omega), hnumber (by omega), day.ofYmd?_eq]

end Parse

end ClassinDashboard

import ClassinDashboard.PyDateTime
import Mathlib.Data.String.Basic

/-!
The order of the texts that `isoformat` writes. A date is split into year, month and day, which
order as the dates do; a number padded to a width orders as a text the way it does as a number; so the
text of a UTC datetime orders the way its instant does, fraction or not.
-/

namespace Py

/-! ### Year, month and day -/

def daysInYear (year : Nat) : Nat := if isLeap year then 366 else 365

theorem daysBeforeYear_cycles {n400 n100 n4 n1 : Nat} (h100 : n100 ≤ 3) (h4 : n4 ≤ 24) (h1 : n1 ≤ 3) :
    daysBeforeYear (n400 * 400 + 1 + n100 * 100 + n4 * 4 + n1) =
      n400 * 146097 + n100 * 36524 + n4 * 1461 + n1 * 365 := by
  have hyear : n400 * 400 + 1 + n100 * 100 + n4 * 4 + n1 - 1 = n400 * 400 + n100 * 100 + n4 * 4 + n1 := by
    omega
  have hfour : (n400 * 400 + n100 * 100 + n4 * 4 + n1) / 4 = n400 * 100 + n100 * 25 + n4 := by omega
  have hhundred : (n400 * 400 + n100 * 100 + n4 * 4 + n1) / 100 = n400 * 4 + n100 := by omega
  have hall : (n400 * 400 + n100 * 100 + n4 * 4 + n1) / 400 = n400 := by omega
  simp only [daysBeforeYear, hyear, hfour, hhundred, hall]
  omega

theorem isLeap_cycles (n400 : Nat) {n100 n4 n1 : Nat} (h100 : n100 ≤ 3) (h4 : n4 ≤ 24) (h1 : n1 ≤ 3) :
    isLeap (n400 * 400 + 1 + n100 * 100 + n4 * 4 + n1) = true ↔ n1 = 3 ∧ (n4 = 24 → n100 = 3) := by
  simp only [isLeap, Bool.and_eq_true, Bool.or_eq_true, decide_eq_true_eq]
  omega

theorem daysBeforeYear_succ {year : Nat} (h : 0 < year) :
    daysBeforeYear (year + 1) = daysBeforeYear year + daysInYear year := by
  obtain ⟨y, rfl⟩ : ∃ y, year = y + 1 := ⟨year - 1, by omega⟩
  have hleap : isLeap (y + 1) = true ↔ 4 ∣ y + 1 ∧ (¬ 100 ∣ y + 1 ∨ 400 ∣ y + 1) := by
    simp only [isLeap, Bool.and_eq_true, Bool.or_eq_true, decide_eq_true_eq, Nat.dvd_iff_mod_eq_zero,
      ne_eq]
  have hle : y / 100 ≤ y / 4 := Nat.div_le_div_left (by decide) (by decide)
  simp only [daysBeforeYear, daysInYear, Nat.add_sub_cancel, Nat.succ_div, hleap]
  split_ifs <;> omega

theorem daysBeforeYear_mono {a b : Nat} (ha : 0 < a) (h : a ≤ b) :
    daysBeforeYear a ≤ daysBeforeYear b := by
  induction b, h using Nat.le_induction with
  | base => exact Nat.le_refl _
  | succ b hb ih =>
      rw [daysBeforeYear_succ (by omega)]
      omega

theorem daysInMonth_le (year month : Nat) : daysInMonth year month ≤ 31 := by
  unfold daysInMonth
  split
  · split <;> omega
  all_goals omega

theorem daysBeforeMonth_succ (year : Nat) {month : Nat} (h : 0 < month) :
    daysBeforeMonth year (month + 1) = daysBeforeMonth year month + daysInMonth year month := by
  obtain ⟨m, rfl⟩ : ∃ m, month = m + 1 := ⟨month - 1, by omega⟩
  rw [daysBeforeMonth, daysBeforeMonth, Nat.add_sub_cancel, Nat.add_sub_cancel, List.range_succ,
    List.map_append, List.sum_append, List.map_singleton, List.sum_singleton]

theorem daysBeforeMonth_mono (year : Nat) {a b : Nat} (ha : 0 < a) (h : a ≤ b) :
    daysBeforeMonth year a ≤ daysBeforeMonth year b := by
  induction b, h using Nat.le_induction with
  | base => exact Nat.le_refl _
  | succ b hb ih =>
      rw [daysBeforeMonth_succ year (by omega)]
      omega

theorem daysBeforeMonth_end (year : Nat) : daysBeforeMonth year 13 = daysInYear year := by
  simp only [daysBeforeMonth, daysInMonth, daysInYear, List.range, List.range.loop, List.map, List.sum_cons]
  cases isLeap year <;> rfl

namespace Date

/-- The year of a date and its day within that year. -/
theorem yearAndDay_spec (d : Date) :
    0 < d.yearAndDay.1 ∧ d.ordinal = daysBeforeYear d.yearAndDay.1 + d.yearAndDay.2 + 1 ∧
      d.yearAndDay.2 < daysInYear d.yearAndDay.1 := by
  have hpos := d.pos
  unfold yearAndDay
  obtain ⟨n, hn⟩ : ∃ n, d.ordinal = n + 1 := ⟨d.ordinal - 1, by omega⟩
  simp only [hn, Nat.add_sub_cancel]
  have h400 : n / 146097 * 146097 + n % 146097 = n := Nat.div_add_mod' n 146097
  have hlt400 : n % 146097 < 146097 := Nat.mod_lt n (by decide)
  generalize n / 146097 = n400 at *
  generalize n % 146097 = r400 at *
  have h100 : r400 / 36524 * 36524 + r400 % 36524 = r400 := Nat.div_add_mod' r400 36524
  have hlt100 : r400 % 36524 < 36524 := Nat.mod_lt r400 (by decide)
  generalize r400 / 36524 = n100 at *
  generalize r400 % 36524 = r100 at *
  have h4 : r100 / 1461 * 1461 + r100 % 1461 = r100 := Nat.div_add_mod' r100 1461
  have hlt4 : r100 % 1461 < 1461 := Nat.mod_lt r100 (by decide)
  generalize r100 / 1461 = n4 at *
  generalize r100 % 1461 = r4 at *
  have h1 : r4 / 365 * 365 + r4 % 365 = r4 := Nat.div_add_mod' r4 365
  have hlt1 : r4 % 365 < 365 := Nat.mod_lt r4 (by decide)
  generalize r4 / 365 = n1 at *
  generalize r4 % 365 = r1 at *
  split
  · rename_i hend
    -- the last day of a leap year: of four years, or of four hundred
    obtain ⟨b, c, hb, hc, hcentury, hyear⟩ : ∃ b c, b ≤ 3 ∧ c ≤ 24 ∧ (c = 24 → b = 3) ∧
        n400 * 400 + 1 + n100 * 100 + n4 * 4 + n1 - 1 = n400 * 400 + 1 + b * 100 + c * 4 + 3 := by
      by_cases h : n100 = 4
      · exact ⟨3, 24, by omega, by omega, fun _ => rfl, by omega⟩
      · have h1 : n1 = 4 := by simpa [h] using hend
        exact ⟨n100, n4, by omega, by omega, by omega, by omega⟩
    have hleap := (isLeap_cycles n400 hb hc (Nat.le_refl 3)).mpr ⟨rfl, hcentury⟩
    have hend : n1 = 4 ∨ n100 = 4 := by simpa using hend
    refine ⟨by omega, ?_, ?_⟩
    · rw [hyear, daysBeforeYear_cycles hb hc (Nat.le_refl 3)]
      omega
    · rw [hyear, daysInYear, if_pos hleap]
      exact Nat.lt_succ_self 365
  · rename_i hend
    have hb : n100 ≤ 3 := by simp at hend; omega
    have hc : n4 ≤ 24 := by omega
    have he : n1 ≤ 3 := by simp at hend; omega
    refine ⟨by omega, ?_, ?_⟩
    · rw [daysBeforeYear_cycles hb hc he]
      omega
    · unfold daysInYear
      split <;> omega
/-- The month of a day of the year, looked for from a month on, and the day of that month. -/
theorem monthAndDay_spec (year : Nat) {first : Nat} (count rest : Nat) (hfirst : 0 < first)
    (h : daysBeforeMonth year first + rest < daysBeforeMonth year (first + count)) :
    let found := monthAndDay year (List.range' first count) rest
    first ≤ found.1 ∧ found.1 < first + count ∧ 0 < found.2 ∧ found.2 ≤ daysInMonth year found.1 ∧
      daysBeforeMonth year first + rest + 1 = daysBeforeMonth year found.1 + found.2 := by
  induction count generalizing first rest with
  | zero =>
      rw [Nat.add_zero] at h
      omega
  | succ count ih =>
      simp only [List.range'_succ, monthAndDay]
      have hnext := daysBeforeMonth_succ year hfirst
      split
      · simp only
        omega
      · have hcount : first + 1 + count = first + (count + 1) := by omega
        have hrest := ih (rest - daysInMonth year first) (show 0 < first + 1 from Nat.zero_lt_succ _)
          (by rw [hcount]; omega)
        simp only at hrest
        omega

/-- A date is the day of its month of its year. -/
theorem ymd_spec (d : Date) : 0 < d.year ∧ 0 < d.month ∧ d.month ≤ 12 ∧ 0 < d.day ∧
    d.day ≤ daysInMonth d.year d.month ∧
      d.ordinal = daysBeforeYear d.year + daysBeforeMonth d.year d.month + d.day := by
  obtain ⟨hyear, hordinal, hlt⟩ := d.yearAndDay_spec
  have hfirst : daysBeforeMonth d.yearAndDay.1 1 = 0 := rfl
  have hmonth := monthAndDay_spec d.yearAndDay.1 12 d.yearAndDay.2 Nat.one_pos
    (by rw [hfirst, daysBeforeMonth_end]; omega)
  simp only at hmonth
  unfold day month year
  omega

theorem ordinal_le (d : Date) : daysBeforeYear d.year < d.ordinal ∧
    d.ordinal ≤ daysBeforeYear (d.year + 1) := by
  obtain ⟨hyear, hordinal, hlt⟩ := d.yearAndDay_spec
  have hnext : daysBeforeYear (d.year + 1) = daysBeforeYear d.year + daysInYear d.year :=
    daysBeforeYear_succ hyear
  unfold year at *
  omega

theorem year_le (d : Date) : d.year ≤ 9999 := by
  by_contra h
  have hmono := daysBeforeYear_mono (a := 10000) (b := d.year) (by decide) (by omega)
  have hlow := d.ordinal_le.1
  have hhigh := d.le_max
  have hend : daysBeforeYear 10000 = maxOrdinal := by decide
  omega

/-- Dates order by year, then month, then day. -/
theorem ordinal_lt_of_lex {a b : Date} (h : a.year < b.year ∨ a.year = b.year ∧
    (a.month < b.month ∨ a.month = b.month ∧ a.day < b.day)) : a.ordinal < b.ordinal := by
  obtain ⟨hya, hma, hma', hda, hda', hoa⟩ := a.ymd_spec
  obtain ⟨hyb, hmb, hmb', hdb, hdb', hob⟩ := b.ymd_spec
  rcases h with hyear | ⟨hyear, hmonth | ⟨hmonth, hday⟩⟩
  · have hmono := daysBeforeYear_mono (show 0 < a.year + 1 from Nat.zero_lt_succ _) hyear
    have hend := a.ordinal_le.2
    have hstart := b.ordinal_le.1
    omega
  · have hmono := daysBeforeMonth_mono a.year (show 0 < a.month + 1 from Nat.zero_lt_succ _) hmonth
    rw [daysBeforeMonth_succ _ hma] at hmono
    rw [← hyear] at hob
    omega
  · rw [← hyear, ← hmonth] at hob
    omega

theorem ordinal_eq_of_ymd {a b : Date} (hyear : a.year = b.year) (hmonth : a.month = b.month)
    (hday : a.day = b.day) : a.ordinal = b.ordinal := by
  rw [a.ymd_spec.2.2.2.2.2, b.ymd_spec.2.2.2.2.2, hyear, hmonth, hday]

theorem ordinal_lt_iff {a b : Date} : a.ordinal < b.ordinal ↔ a.year < b.year ∨ a.year = b.year ∧
    (a.month < b.month ∨ a.month = b.month ∧ a.day < b.day) := by
  refine ⟨fun h => ?_, ordinal_lt_of_lex⟩
  by_contra hlex
  by_cases hymd : a.year = b.year ∧ a.month = b.month ∧ a.day = b.day
  · have heq := ordinal_eq_of_ymd hymd.1 hymd.2.1 hymd.2.2
    omega
  · have hgt := ordinal_lt_of_lex (a := b) (b := a) (by omega)
    omega

end Date

/-! ### Numbers of a fixed width -/

/-- The last `width` digits of a number. -/
def fixedDigits : Nat → Nat → List Char
  | 0, _ => []
  | width + 1, n => fixedDigits width (n / 10) ++ [Nat.digitChar (n % 10)]

theorem fixedDigits_zero (width : Nat) : fixedDigits width 0 = List.replicate width '0' := by
  induction width with
  | zero => rfl
  | succ width ih =>
      rw [fixedDigits, Nat.zero_div, ih, List.replicate_succ']
      rfl

theorem length_fixedDigits (width n : Nat) : (fixedDigits width n).length = width := by
  induction width generalizing n with
  | zero => rfl
  | succ width ih => rw [fixedDigits, List.length_append, ih, List.length_singleton]

theorem toList_zeroPad {width n : Nat} (hwidth : 0 < width) (h : n < 10 ^ width) :
    (zeroPad width n).toList = fixedDigits width n := by
  have hlist : (zeroPad width n).toList =
      List.replicate (width - (Nat.toDigits 10 n).length) '0' ++ Nat.toDigits 10 n := by
    rw [zeroPad, String.toList_append, String.toList_ofList, ← String.length_toList]
    rw [show (toString n).toList = Nat.toDigits 10 n from Nat.toList_repr]
  rw [hlist]
  clear hlist
  obtain ⟨k, rfl⟩ : ∃ k, width = k + 1 := ⟨width - 1, by omega⟩
  clear hwidth
  induction k generalizing n with
  | zero =>
      rw [Nat.toDigits_of_lt_base (by omega), fixedDigits, Nat.mod_eq_of_lt (by omega)]
      rfl
  | succ k ih =>
      by_cases hn : n < 10
      · rw [Nat.toDigits_of_lt_base hn, fixedDigits, Nat.div_eq_of_lt hn, fixedDigits_zero,
          Nat.mod_eq_of_lt hn]
        rfl
      · rw [Nat.toDigits_of_base_le (by decide) (by omega), fixedDigits, ← ih (n := n / 10) (by omega),
          List.length_append, List.length_singleton, Nat.add_sub_add_right, List.append_assoc]

/-- Texts that begin with parts of one length order by these parts first. -/
theorem append_lt_append {a b x y : List Char} (h : a.length = b.length) :
    a ++ x < b ++ y ↔ a < b ∨ a = b ∧ x < y := by
  induction a generalizing b with
  | nil =>
      rw [List.length_nil, eq_comm, List.length_eq_zero_iff] at h
      rw [h]
      simp
  | cons c a ih =>
      cases b with
      | nil => cases h
      | cons d b =>
          rw [List.cons_append, List.cons_append, List.cons_lt_cons_iff, List.cons_lt_cons_iff,
            ih (Nat.succ.inj h), List.cons.injEq]
          tauto

theorem digitChar_lt {m n : Nat} (hm : m < 10) (hn : n < 10) :
    Nat.digitChar m < Nat.digitChar n ↔ m < n := by
  have hall : ∀ m < 10, ∀ n < 10, (Nat.digitChar m < Nat.digitChar n ↔ m < n) := by decide
  exact hall m hm n hn

theorem fixedDigits_inj {width m n : Nat} (hm : m < 10 ^ width) (hn : n < 10 ^ width)
    (h : fixedDigits width m = fixedDigits width n) : m = n := by
  induction width generalizing m n with
  | zero => omega
  | succ width ih =>
      rw [fixedDigits, fixedDigits] at h
      obtain ⟨hfront, hlast⟩ := List.append_inj h (by rw [length_fixedDigits, length_fixedDigits])
      have hdiv := ih (m := m / 10) (n := n / 10) (by omega) (by omega) hfront
      have hchar : Nat.digitChar (m % 10) = Nat.digitChar (n % 10) := (List.cons.inj hlast).1
      have hlow := (digitChar_lt (Nat.mod_lt m (by decide)) (Nat.mod_lt n (by decide))).not
      have hhigh := (digitChar_lt (Nat.mod_lt n (by decide)) (Nat.mod_lt m (by decide))).not
      have hle := hlow.mp (by rw [hchar]; exact lt_irrefl _)
      have hge := hhigh.mp (by rw [hchar]; exact lt_irrefl _)
      omega

theorem fixedDigits_lt {width m n : Nat} (hm : m < 10 ^ width) (hn : n < 10 ^ width) :
    fixedDigits width m < fixedDigits width n ↔ m < n := by
  induction width generalizing m n with
  | zero =>
      rw [pow_zero] at hm hn
      exact ⟨fun h => absurd h (List.not_lt_nil []), fun h => by omega⟩
  | succ width ih =>
      have hdiv := ih (m := m / 10) (n := n / 10) (by omega) (by omega)
      have heq : fixedDigits width (m / 10) = fixedDigits width (n / 10) ↔ m / 10 = n / 10 :=
        ⟨fixedDigits_inj (by omega) (by omega), fun h => by rw [h]⟩
      have hlast := digitChar_lt (Nat.mod_lt m (show 0 < 10 by decide)) (Nat.mod_lt n (by decide))
      rw [fixedDigits, fixedDigits, append_lt_append (by rw [length_fixedDigits, length_fixedDigits]),
        hdiv, heq, List.cons_lt_cons_iff, hlast]
      have hnil : ¬ ([] : List Char) < [] := List.not_lt_nil []
      simp only [hnil, and_false, or_false]
      omega

/-- Texts that begin with padded numbers order by the numbers first. -/
theorem zeroPad_append_lt {width m n : Nat} {x y : List Char} (hwidth : 0 < width)
    (hm : m < 10 ^ width) (hn : n < 10 ^ width) :
    (zeroPad width m).toList ++ x < (zeroPad width n).toList ++ y ↔ m < n ∨ m = n ∧ x < y := by
  have heq : fixedDigits width m = fixedDigits width n ↔ m = n :=
    ⟨fixedDigits_inj hm hn, fun h => by rw [h]⟩
  rw [toList_zeroPad hwidth hm, toList_zeroPad hwidth hn,
    append_lt_append (by rw [length_fixedDigits, length_fixedDigits]), fixedDigits_lt hm hn, heq]

/-- Texts that begin with one character order by what follows it. -/
theorem append_lt_self {a x y : List Char} : a ++ x < a ++ y ↔ x < y := by
  rw [append_lt_append rfl]
  simp

/-! ### Texts of dates and instants -/

theorem Date.isoformat_append_lt {a b : Date} {x y : List Char} :
    a.isoformat.toList ++ x < b.isoformat.toList ++ y ↔
      a.ordinal < b.ordinal ∨ a.ordinal = b.ordinal ∧ x < y := by
  have hya := a.year_le
  have hyb := b.year_le
  obtain ⟨-, -, hma, -, hda, hoa⟩ := a.ymd_spec
  obtain ⟨-, -, hmb, -, hdb, hob⟩ := b.ymd_spec
  have hda := hda.trans (daysInMonth_le a.year a.month)
  have hdb := hdb.trans (daysInMonth_le b.year b.month)
  simp only [isoformat, String.toList_append, List.append_assoc]
  rw [zeroPad_append_lt (by decide) (by omega) (by omega), append_lt_self,
    zeroPad_append_lt (by decide) (by omega) (by omega), append_lt_self,
    zeroPad_append_lt (by decide) (by omega) (by omega), Date.ordinal_lt_iff]
  have heq : a.ordinal = b.ordinal ↔ a.year = b.year ∧ a.month = b.month ∧ a.day = b.day := by
    refine ⟨fun h => ?_, fun h => ordinal_eq_of_ymd h.1 h.2.1 h.2.2⟩
    have hnot := (Date.ordinal_lt_iff (a := a) (b := b)).not.mp (by omega)
    have hnot' := (Date.ordinal_lt_iff (a := b) (b := a)).not.mp (by omega)
    omega
  rw [heq]
  by_cases h : x < y
  · simp only [h, and_true]
    omega
  · simp only [h, and_false, or_false]

theorem Date.isoformat_inj {a b : Date} (h : a.isoformat = b.isoformat) : a = b := by
  have hlow := (Date.isoformat_append_lt (a := a) (b := b) (x := []) (y := [])).not
  have hhigh := (Date.isoformat_append_lt (a := b) (b := a) (x := []) (y := [])).not
  have hle := hlow.mp (by rw [h]; exact lt_irrefl _)
  have hge := hhigh.mp (by rw [h]; exact lt_irrefl _)
  exact Date.ext_ordinal (by omega)

/-- Dates in the order of the calendar. -/
instance : LinearOrder Date :=
  { LinearOrder.lift' Date.ordinal fun _ _ => Date.ext_ordinal with toDecidableEq := inferInstance }

/-- The texts of dates have the same order. -/
theorem Date.isoformat_le {a b : Date} : a.isoformat ≤ b.isoformat ↔ a ≤ b := by
  have hlt := Date.isoformat_append_lt (a := b) (b := a) (x := []) (y := [])
  rw [List.append_nil, List.append_nil] at hlt
  rw [← not_lt, String.lt_iff_toList_lt, hlt, ← not_lt, not_iff_not]
  exact ⟨fun h => h.resolve_right fun hempty => absurd hempty.2 (lt_irrefl _), .inl⟩

theorem Date.length_isoformat (d : Date) : d.isoformat.toList.length = 10 := by
  have hyear := d.year_le
  obtain ⟨-, -, hmonth, -, hday, -⟩ := d.ymd_spec
  have hday := hday.trans (daysInMonth_le d.year d.month)
  simp only [isoformat, String.toList_append, List.length_append]
  rw [toList_zeroPad (by decide) (by omega), toList_zeroPad (by decide) (by omega),
    toList_zeroPad (by decide) (by omega), length_fixedDigits, length_fixedDigits, length_fixedDigits]
  rfl

namespace DateTime

/-- A fraction begins with a later character than an offset, so that no fraction comes first. -/
theorem fraction_lt {m n : Nat} (hm : m < 10 ^ 6) (hn : n < 10 ^ 6) :
    (if m = 0 then "" else "." ++ zeroPad 6 m).toList ++ "+00:00".toList <
      (if n = 0 then "" else "." ++ zeroPad 6 n).toList ++ "+00:00".toList ↔ m < n := by
  have hplus : "+00:00".toList = '+' :: "00:00".toList := by decide
  have hpoint (k : Nat) : ("." ++ zeroPad 6 k).toList = '.' :: (zeroPad 6 k).toList := by
    rw [String.toList_append]
    rfl
  have hfirst {x y : List Char} : '+' :: x < '.' :: y := List.cons_lt_cons_iff.mpr (.inl (by decide))
  rw [hplus]
  by_cases hm0 : m = 0 <;> by_cases hn0 : n = 0
  · rw [hm0, hn0]
    exact iff_of_false (lt_irrefl _) (lt_irrefl _)
  · rw [if_pos hm0, if_neg hn0, hpoint, String.toList_empty, List.nil_append, List.cons_append]
    exact iff_of_true hfirst (by omega)
  · rw [if_neg hm0, if_pos hn0, hpoint, String.toList_empty, List.nil_append, List.cons_append]
    exact iff_of_false (lt_asymm hfirst) (by omega)
  · rw [if_neg hm0, if_neg hn0, hpoint, hpoint, List.cons_append, List.cons_append,
      List.cons_lt_cons_iff, zeroPad_append_lt (by decide) hm hn]
    simp only [lt_irrefl, false_or, true_and, and_false, or_false]

/-- The text of a UTC datetime orders as its instant. -/
theorem isoformat_lt {a b : DateTime} (ha : a.offset = some .utc) (hb : b.offset = some .utc) :
    a.isoformat "T" "+00:00" < b.isoformat "T" "+00:00" ↔ a.wallMicroseconds < b.wallMicroseconds := by
  have hma := a.moment.clock.minute_lt
  have hmb := b.moment.clock.minute_lt
  have hha := a.moment.clock.hour_lt
  have hhb := b.moment.clock.hour_lt
  have hra := a.rest_lt
  have hrb := b.rest_lt
  rw [String.lt_iff_toList_lt]
  simp only [isoformat, ha, hb, UtcOffset.utc, if_true, String.toList_append, List.append_assoc]
  rw [Date.isoformat_append_lt, append_lt_self, zeroPad_append_lt (by decide) (by omega) (by omega),
    append_lt_self, zeroPad_append_lt (by decide) (by omega) (by omega), append_lt_self,
    zeroPad_append_lt (by decide) (by omega) (by omega), fraction_lt (by omega) (by omega)]
  simp only [wallMicroseconds, Moment.minutes, Clock.minutes]
  omega

/-- `datetime.fromtimestamp(ts, tz=utc)` of whole seconds; `none` is its `ValueError`. -/
def ofTimestamp? (ts : Int) : Option DateTime :=
  (Date.ofOrdinal? (ts / 86400 + epochOrdinal)).map fun day =>
    { moment := ⟨day, ⟨(ts % 86400).toNat / 3600, (ts % 86400).toNat / 60 % 60, by omega, by omega⟩⟩
      rest := (ts % 86400).toNat % 60 * 1000000
      rest_lt := by omega
      offset := some .utc }

theorem offset_ofTimestamp? {ts : Int} {t : DateTime} (h : ofTimestamp? ts = some t) :
    t.offset = some .utc := by
  obtain ⟨day, -, rfl⟩ := Option.map_eq_some_iff.mp h
  rfl

theorem wallMicroseconds_ofTimestamp? {ts : Int} {t : DateTime} (h : ofTimestamp? ts = some t) :
    t.wallMicroseconds = 1000000 * ts := by
  obtain ⟨day, hday, rfl⟩ := Option.map_eq_some_iff.mp h
  have hordinal := Date.ordinal_ofOrdinal? hday
  simp only [wallMicroseconds, Moment.minutes, Clock.minutes]
  omega

/-- The text that a timestamp is stored as is the one of its UTC datetime. -/
theorem utcIsoformat_eq_ok {ts : Int} {s : String} :
    utcIsoformat ts = .ok s ↔ ∃ t, ofTimestamp? ts = some t ∧ t.isoformat "T" "+00:00" = s := by
  rw [utcIsoformat, ofTimestamp?]
  cases Date.ofOrdinal? (ts / 86400 + epochOrdinal) with
  | none => simp
  | some day =>
      simp [isoformat, UtcOffset.utc]

end DateTime
end Py

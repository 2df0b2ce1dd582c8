import ClassinDashboard.PyIsoTime

/-!
Reading back the text of a UTC datetime: whatever `isoformat` writes to the second is read as the
datetime it was written from.
-/

namespace Py

/-! ### Numbers of a fixed width -/

/-- The number that ASCII digits write. -/
def fixedNumber (digits : List Char) : Option Nat :=
  if digits.all Char.isDigit then
    some (digits.foldl (fun n c => 10 * n + (c.toNat - '0'.toNat)) 0)
  else none

theorem digitChar_spec {n : Nat} (h : n < 10) :
    (Nat.digitChar n).isDigit = true ∧ (Nat.digitChar n).toNat - '0'.toNat = n := by
  have hall : ∀ n < 10, (Nat.digitChar n).isDigit = true ∧ (Nat.digitChar n).toNat - '0'.toNat = n := by
    decide
  exact hall n h

theorem fixedNumber_fixedDigits (width : Nat) {n : Nat} (h : n < 10 ^ width) :
    fixedNumber (fixedDigits width n) = some n := by
  have hread : (fixedDigits width n).all Char.isDigit = true ∧
      (fixedDigits width n).foldl (fun n c => 10 * n + (c.toNat - '0'.toNat)) 0 = n := by
    induction width generalizing n with
    | zero =>
        rw [pow_zero] at h
        exact ⟨rfl, (Nat.lt_one_iff.mp h).symm⟩
    | succ width ih =>
        obtain ⟨hdigits, hvalue⟩ := ih (n := n / 10) (by omega)
        obtain ⟨hlast, hlastValue⟩ := digitChar_spec (Nat.mod_lt n (show 0 < 10 by decide))
        constructor
        · rw [fixedDigits, List.all_append, hdigits, List.all_cons, hlast]
          rfl
        · rw [fixedDigits, List.foldl_append, hvalue, List.foldl_cons, List.foldl_nil, hlastValue]
          omega
  rw [fixedNumber, if_pos hread.1, hread.2]

/-! ### Dates and datetimes -/

theorem Date.ofYmd?_ymd (d : Date) : Date.ofYmd? d.year d.month d.day = some d := by
  have hyear := d.year_le
  obtain ⟨hpos, hmonth, hmonth', hday, hday', hordinal⟩ := d.ymd_spec
  have hvalid := d.pos
  have hmax := d.le_max
  have hfirst := d.yearAndDay_spec.1
  rw [Date.ofYmd?, if_pos ⟨hfirst, hyear, hmonth, hmonth', hday, hday'⟩, ← hordinal, Date.ofOrdinal?,
    dif_pos (by omega)]
  rfl

namespace DateTime

/-- The datetime in UTC that a text says to the second, as `isoformat` writes it. -/
def ofUtcIso? (text : String) : Option DateTime := do
  let number (start width : Nat) := fixedNumber ((text.toList.drop start).take width)
  let day ← Date.ofYmd? (← number 0 4) (← number 5 2) (← number 8 2)
  let clock ← Clock.of? (← number 11 2) (← number 14 2)
  let second ← number 17 2
  let found : Option DateTime :=
    if h : second < 60 then some ⟨⟨day, clock⟩, second * 1000000, by omega, some .utc⟩ else none
  found.filter fun t => t.isoformat "T" "+00:00" = text

theorem toList_isoformat {t : DateTime} (hutc : t.offset = some .utc) (hwhole : t.rest % 1000000 = 0) :
    (t.isoformat "T" "+00:00").toList =
      fixedDigits 4 t.moment.day.year ++ '-' :: (fixedDigits 2 t.moment.day.month ++
        '-' :: (fixedDigits 2 t.moment.day.day ++ 'T' :: (fixedDigits 2 t.moment.clock.hour ++
          ':' :: (fixedDigits 2 t.moment.clock.minute ++ ':' :: (fixedDigits 2 (t.rest / 1000000) ++
            "+00:00".toList))))) := by
  have hyear := t.moment.day.year_le
  obtain ⟨-, -, hmonth, -, hday, -⟩ := t.moment.day.ymd_spec
  have hday := hday.trans (daysInMonth_le t.moment.day.year t.moment.day.month)
  have hhour := t.moment.clock.hour_lt
  have hminute := t.moment.clock.minute_lt
  have hsecond := t.rest_lt
  simp only [isoformat, hutc, hwhole, UtcOffset.utc, if_true, Date.isoformat, String.toList_append,
    List.append_assoc]
  rw [toList_zeroPad (by decide) (by omega), toList_zeroPad (by decide) (by omega),
    toList_zeroPad (by decide) (by omega), toList_zeroPad (by decide) (by omega),
    toList_zeroPad (by decide) (by omega), toList_zeroPad (by decide) (by omega)]
  rfl

theorem ofUtcIso?_isoformat {t : DateTime} (hutc : t.offset = some .utc) (hwhole : t.rest % 1000000 = 0) :
    ofUtcIso? (t.isoformat "T" "+00:00") = some t := by
  have hyear := t.moment.day.year_le
  obtain ⟨-, -, hmonth, -, hday, -⟩ := t.moment.day.ymd_spec
  have hday := hday.trans (daysInMonth_le t.moment.day.year t.moment.day.month)
  have hhour := t.moment.clock.hour_lt
  have hminute := t.moment.clock.minute_lt
  have hsecond := t.rest_lt
  have hclock : Clock.of? t.moment.clock.hour t.moment.clock.minute = some t.moment.clock :=
    dif_pos ⟨hhour, hminute⟩
  have hrest : t.rest / 1000000 * 1000000 = t.rest := by omega
  have heq : (⟨⟨t.moment.day, t.moment.clock⟩, t.rest / 1000000 * 1000000, by omega,
      some .utc⟩ : DateTime) = t := by
    cases t
    simp only at hrest hutc
    simp only [hrest, hutc]
  have hnumbers := toList_isoformat hutc hwhole
  unfold ofUtcIso?
  rw [hnumbers]
  refine Option.bind_eq_some_iff.mpr ⟨_, fixedNumber_fixedDigits 4 (by omega), ?_⟩
  refine Option.bind_eq_some_iff.mpr ⟨_, fixedNumber_fixedDigits 2 (by omega), ?_⟩
  refine Option.bind_eq_some_iff.mpr ⟨_, fixedNumber_fixedDigits 2 (by omega), ?_⟩
  refine Option.bind_eq_some_iff.mpr ⟨_, t.moment.day.ofYmd?_ymd, ?_⟩
  refine Option.bind_eq_some_iff.mpr ⟨_, fixedNumber_fixedDigits 2 (by omega), ?_⟩
  refine Option.bind_eq_some_iff.mpr ⟨_, fixedNumber_fixedDigits 2 (by omega), ?_⟩
  refine Option.bind_eq_some_iff.mpr ⟨_, hclock, ?_⟩
  refine Option.bind_eq_some_iff.mpr ⟨_, fixedNumber_fixedDigits 2 (by omega), ?_⟩
  dsimp only
  rw [dif_pos (by omega), heq]
  exact Option.filter_eq_some_iff.mpr ⟨rfl, decide_eq_true rfl⟩

/-- The text of a timestamp is read as the timestamp's datetime. -/
theorem ofUtcIso?_ofTimestamp? {ts : Int} {t : DateTime} (h : ofTimestamp? ts = some t) :
    ofUtcIso? (t.isoformat "T" "+00:00") = some t := by
  have hutc := offset_ofTimestamp? h
  obtain ⟨day, -, rfl⟩ := Option.map_eq_some_iff.mp h
  exact ofUtcIso?_isoformat hutc (Nat.mul_mod_left _ _)

end DateTime
end Py

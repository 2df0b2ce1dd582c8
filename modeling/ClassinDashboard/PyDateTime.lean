import ClassinDashboard.PyArith
import ClassinDashboard.PyCalendar

/-!
Datetimes with microseconds and an offset from UTC, and their timestamps. Two offsets are at least a
minute apart, while rounding to a double and truncating move a timestamp by less than two seconds: a
wall clock has different timestamps under different offsets.
-/

namespace Py

/-! ### Rounding and truncation -/

namespace PyFloat

theorem roundHalfEven_near (q : ℚ) : |(roundHalfEven q : ℚ) - q| ≤ 1 := by
  have hfloor := Int.floor_le q
  have hceil := Int.lt_floor_add_one q
  have hlow : (⌊q⌋ : ℚ) ≤ roundHalfEven q := by exact_mod_cast floor_le_roundHalfEven q
  have hhigh : (roundHalfEven q : ℚ) ≤ ⌊q⌋ + 1 := by exact_mod_cast roundHalfEven_le_floor q
  rw [abs_le]
  constructor <;> linarith

/-- Below 53 binary digits the last place is not worth more than the place they end at. -/
theorem lastPlace_le {q : ℚ} {k : Nat} (hk : k ≤ 1074) (hpos : 0 < q) (h : q < 2 ^ 53 / 2 ^ k) :
    lastPlace q ≤ -k := by
  have hbound : (2 : ℚ) ^ 53 / 2 ^ k = (2 : ℚ) ^ (53 - k : Int) := by
    rw [zpow_sub₀ (by norm_num), zpow_natCast]
    rfl
  have hlead : (2 : ℚ) ^ leading q < 2 ^ (53 - k : Int) := (leading_spec hpos).1.trans_lt (hbound ▸ h)
  have hlt : leading q < 53 - k := (zpow_lt_zpow_iff_right₀ (by norm_num)).mp hlead
  rw [lastPlace_eq]
  omega

/-- Below 2 ^ 53 the last place is not worth more than one. -/
theorem lastPlace_nonpos {q : ℚ} (hpos : 0 < q) (h : q < 2 ^ 53) : lastPlace q ≤ 0 := by
  have hle := lastPlace_le (Nat.zero_le _) hpos (by rwa [pow_zero, div_one])
  exact_mod_cast hle

theorem magnitude_near {q : ℚ} (hpos : 0 < q) (h : q < 2 ^ 53) : |magnitude q - q| ≤ 1 := by
  have hunit : (0 : ℚ) < 2 ^ lastPlace q := by positivity
  have hone : (2 : ℚ) ^ lastPlace q ≤ 1 :=
    zpow_le_one_of_nonpos₀ (by norm_num) (lastPlace_nonpos hpos h)
  have hround := roundHalfEven_near (q / 2 ^ lastPlace q)
  calc |magnitude q - q|
      = |(roundHalfEven (q / 2 ^ lastPlace q) - q / 2 ^ lastPlace q) * 2 ^ lastPlace q| := by
        rw [sub_mul, div_mul_cancel₀ _ hunit.ne', magnitude]
    _ = |roundHalfEven (q / 2 ^ lastPlace q) - q / 2 ^ lastPlace q| * 2 ^ lastPlace q := by
        rw [abs_mul, abs_of_pos hunit]
    _ ≤ 1 * 1 := mul_le_mul hround hone hunit.le zero_le_one
    _ = 1 := one_mul 1

/-- No number of moderate size rounds to an infinity. -/
theorem lt_overflow {q : ℚ} (h : q < 2 ^ 53 + 1) : q < (2 : ℚ) ^ (1024 : Int) := by
  calc q < 2 ^ 53 + 1 := h
    _ < (2 : ℚ) ^ (54 : Int) := by norm_num
    _ < (2 : ℚ) ^ (1024 : Int) := zpow_lt_zpow_right₀ (by norm_num) (by norm_num)

/-- A number of moderate size has a finite double, at most one away. -/
theorem ofRat_near {q : ℚ} (h : |q| < 2 ^ 53) : ∃ x, ofRat q = fin x ∧ |x - q| ≤ 1 := by
  by_cases hq : q = 0
  · exact ⟨0, by rw [ofRat, if_pos hq], by simp [hq]⟩
  · have hnear := magnitude_near (abs_pos.mpr hq) h
    have hfinite : ¬(2 : ℚ) ^ (1024 : Int) ≤ magnitude |q| := by
      have hle := (abs_le.mp hnear).2
      exact not_le.mpr (lt_overflow (by linarith))
    refine ⟨_, by rw [ofRat_eq hq, if_neg hfinite], ?_⟩
    by_cases hneg : q < 0
    · rw [if_pos hneg]
      rw [abs_of_neg hneg] at hnear ⊢
      rw [abs_sub_comm] at hnear
      convert hnear using 2
      ring
    · rw [if_neg hneg]
      rw [abs_of_nonneg (not_lt.mp hneg)] at hnear ⊢
      exact hnear

theorem toInt_near (x : ℚ) : ∃ n, (fin x).toInt = .ok n ∧ |(n : ℚ) - x| < 1 := by
  refine ⟨_, rfl, ?_⟩
  rw [abs_lt]
  split
  · have hfloor := Int.floor_le (-x)
    have hceil := Int.lt_floor_add_one (-x)
    push_cast
    constructor <;> linarith
  · have hfloor := Int.floor_le x
    have hceil := Int.lt_floor_add_one x
    constructor <;> linarith

/-- A number of 53 binary digits, `k` of them after the point, is its own double. -/
theorem ofRat_dyadic {n : Int} {k : Nat} (hk : k ≤ 1074) (h : |(n : ℚ)| < 2 ^ 53) :
    ofRat (n / 2 ^ k) = fin (n / 2 ^ k) := by
  by_cases hn : (n : ℚ) / 2 ^ k = 0
  · rw [ofRat, if_pos hn, hn]
  · have hscale : (0 : ℚ) < 2 ^ k := by positivity
    have hpos := abs_pos.mpr hn
    have habs : |(n : ℚ) / 2 ^ k| = |(n : ℚ)| / 2 ^ k := by rw [abs_div, abs_of_pos hscale]
    have hsmall : |(n : ℚ) / 2 ^ k| < 2 ^ 53 / 2 ^ k := habs ▸ (div_lt_div_iff_of_pos_right hscale).mpr h
    have hunit : (0 : ℚ) < 2 ^ lastPlace |(n : ℚ) / 2 ^ k| := by positivity
    obtain ⟨j, hj⟩ := Int.le.dest (lastPlace_le hk hpos hsmall)
    have hplaces : |(n : ℚ) / 2 ^ k| / 2 ^ lastPlace |(n : ℚ) / 2 ^ k| = ((|n| * 2 ^ j : Int) : ℚ) := by
      have hexp : lastPlace |(n : ℚ) / 2 ^ k| = -((k + j : Nat) : Int) := by
        push_cast
        omega
      rw [hexp, zpow_neg, div_inv_eq_mul, zpow_natCast, habs, pow_add]
      push_cast
      field_simp
    have hexact : magnitude |(n : ℚ) / 2 ^ k| = |(n : ℚ) / 2 ^ k| := by
      rw [magnitude, hplaces, roundHalfEven_intCast, ← hplaces, div_mul_cancel₀ _ hunit.ne']
    have hfinite : ¬(2 : ℚ) ^ (1024 : Int) ≤ |(n : ℚ) / 2 ^ k| := by
      have hle : (2 : ℚ) ^ 53 / 2 ^ k ≤ 2 ^ 53 := div_le_self (by positivity) (one_le_pow₀ (by norm_num))
      exact not_le.mpr (lt_overflow (by linarith))
    rw [ofRat_eq hn, hexact, if_neg hfinite]
    split
    · rename_i hneg
      rw [abs_of_neg hneg, neg_neg]
    · rename_i hneg
      rw [abs_of_nonneg (not_lt.mp hneg)]

/-- An int of moderate size is its own double. -/
theorem ofRat_intCast {n : Int} (h : |(n : ℚ)| < 2 ^ 53) : ofRat n = fin n := by
  have hdyadic := ofRat_dyadic (k := 0) (Nat.zero_le _) h
  rwa [pow_zero, div_one] at hdyadic

theorem toInt_intCast (n : Int) : (fin n).toInt = .ok n := by
  rw [toInt]
  split
  · rw [← Int.cast_neg, Int.floor_intCast, neg_neg]
  · rw [Int.floor_intCast]

end PyFloat

/-! ### Datetimes -/

/-- An offset from UTC in whole minutes, less than a day either way. -/
structure UtcOffset where
  minutes : Int
  gt : -1440 < minutes
  lt : minutes < 1440
  deriving DecidableEq

/-- `timezone.utc`. -/
def UtcOffset.utc : UtcOffset := ⟨0, by decide, by decide⟩

/-- `timezone(timedelta(hours=9))`. -/
def UtcOffset.kst : UtcOffset := ⟨540, by decide, by decide⟩

/-- A `datetime`: its wall clock to the minute, the microseconds within that minute, and the offset
of the wall clock from UTC. A naive one has no offset. -/
structure DateTime where
  moment : Moment
  rest : Nat
  rest_lt : rest < 60000000
  offset : Option UtcOffset
  deriving DecidableEq

namespace UtcOffset

theorem ext_minutes {a b : UtcOffset} (h : a.minutes = b.minutes) : a = b := by
  cases a
  cases b
  simp only at h
  subst h
  rfl

/-- `+HH:MM`. -/
def text (o : UtcOffset) : String :=
  (if o.minutes < 0 then "-" else "+") ++ zeroPad 2 (o.minutes.natAbs / 60) ++ ":"
    ++ zeroPad 2 (o.minutes.natAbs % 60)

end UtcOffset

namespace DateTime

def isAware (t : DateTime) : Bool := t.offset.isSome

/-- A whole minute of Korean time. -/
def kst (moment : Moment) : DateTime := ⟨moment, 0, by decide, some .kst⟩

/-- Microseconds from the start of 1970 to the wall clock. -/
def wallMicroseconds (t : DateTime) : Int :=
  60000000 * ((t.moment.minutes : Int) - 1440 * epochOrdinal) + t.rest

/-- `int(t.timestamp())` if the wall clock is read under the offset: `timestamp` divides a whole number
of microseconds once. -/
def secondsAt (o : UtcOffset) (t : DateTime) : Except PyError Int :=
  (PyFloat.ofRat (((t.wallMicroseconds - 60000000 * o.minutes : Int) : ℚ) / 1000000)).toInt

/-- `int(t.timestamp())`. The wall clock of a naive datetime is read in the zone of the machine. -/
def timestamp (zone : DateTime → Except PyError Int) (t : DateTime) : Except PyError Int :=
  match t.offset with
  | some o => t.secondsAt o
  | none => zone t

/-- `t.isoformat(sep)`, where an offset of zero has a text of its own. -/
def isoformat (sep zero : String) (t : DateTime) : String :=
  let microsecond := t.rest % 1000000
  t.moment.day.isoformat ++ sep ++ zeroPad 2 t.moment.clock.hour ++ ":"
    ++ zeroPad 2 t.moment.clock.minute ++ ":" ++ zeroPad 2 (t.rest / 1000000)
    ++ (if microsecond = 0 then "" else "." ++ zeroPad 6 microsecond)
    ++ match t.offset with
      | none => ""
      | some o => if o.minutes = 0 then zero else o.text

theorem minutes_lt (m : Moment) : m.minutes < 1440 * (maxOrdinal + 1) := by
  have hday := m.day.le_max
  have hhour := m.clock.hour_lt
  have hminute := m.clock.minute_lt
  simp only [Moment.minutes, Clock.minutes]
  omega

/-- The exact number of seconds of a wall clock under an offset is of moderate size. -/
theorem abs_seconds_lt (t : DateTime) (o : UtcOffset) :
    |((t.wallMicroseconds - 60000000 * o.minutes : Int) : ℚ) / 1000000| < 2 ^ 53 := by
  have hmoment := minutes_lt t.moment
  have hrest := t.rest_lt
  have hgt := o.gt
  have hlt := o.lt
  have hbound : |t.wallMicroseconds - 60000000 * o.minutes| < 2 ^ 53 * 1000000 := by
    rw [abs_lt]
    simp only [wallMicroseconds, epochOrdinal, maxOrdinal] at hmoment ⊢
    omega
  rw [abs_div, abs_of_pos (by norm_num : (0 : ℚ) < 1000000), div_lt_iff₀ (by norm_num)]
  exact_mod_cast hbound

/-- The timestamp under an offset is less than two seconds away from the exact one. -/
theorem secondsAt_near (t : DateTime) (o : UtcOffset) :
    ∃ n, t.secondsAt o = .ok n ∧
      |(n : ℚ) - ((t.wallMicroseconds - 60000000 * o.minutes : Int) : ℚ) / 1000000| < 2 := by
  obtain ⟨x, hx, hnear⟩ := PyFloat.ofRat_near (abs_seconds_lt t o)
  obtain ⟨n, hn, htrunc⟩ := PyFloat.toInt_near x
  refine ⟨n, by rw [secondsAt, hx, hn], ?_⟩
  rw [abs_lt] at htrunc ⊢
  rw [abs_le] at hnear
  constructor <;> linarith

/-- A wall clock has a timestamp of its own under every offset. -/
theorem secondsAt_inj {t : DateTime} {a b : UtcOffset} : t.secondsAt a = t.secondsAt b ↔ a = b := by
  constructor
  · intro h
    obtain ⟨n, hn, hnear⟩ := secondsAt_near t a
    obtain ⟨m, hm, hnear'⟩ := secondsAt_near t b
    rw [hn, hm] at h
    cases h
    -- the two exact numbers of seconds are less than four apart, and whole minutes
    rw [abs_lt] at hnear hnear'
    push_cast at hnear hnear'
    have hlow : ((-1 : Int) : ℚ) < ((a.minutes - b.minutes : Int) : ℚ) := by
      push_cast
      linarith
    have hhigh : ((a.minutes - b.minutes : Int) : ℚ) < ((1 : Int) : ℚ) := by
      push_cast
      linarith
    have hlow := Int.cast_lt.mp hlow
    have hhigh := Int.cast_lt.mp hhigh
    exact UtcOffset.ext_minutes (by omega)
  · intro h
    rw [h]

/-- A whole minute of Korean time, in seconds and without rounding. -/
theorem secondsAt_kst (m : Moment) :
    (kst m).secondsAt .kst = .ok (60 * ((m.minutes : Int) - 1440 * epochOrdinal - 540)) := by
  have hseconds : (((kst m).wallMicroseconds - 60000000 * UtcOffset.kst.minutes : Int) : ℚ) / 1000000 =
      ((60 * ((m.minutes : Int) - 1440 * epochOrdinal - 540) : Int) : ℚ) := by
    simp only [wallMicroseconds, kst, UtcOffset.kst]
    push_cast
    ring
  have hsmall := abs_seconds_lt (kst m) .kst
  rw [hseconds] at hsmall
  rw [secondsAt, hseconds, PyFloat.ofRat_intCast hsmall, PyFloat.toInt_intCast]

/-- A datetime has an offset, and in every zone the timestamp that its wall clock has under another
one, exactly when the other one is its own. -/
theorem offset_eq_iff {t : DateTime} {o : UtcOffset} :
    t.offset = some o ↔ t.isAware = true ∧ ∀ zone, t.timestamp zone = t.secondsAt o := by
  rw [isAware]
  cases ho : t.offset with
  | none => exact ⟨fun h => (nomatch h), fun h => (nomatch h.1)⟩
  | some own =>
      have htimestamp (zone : DateTime → Except PyError Int) :
          t.timestamp zone = t.secondsAt own := by
        rw [timestamp, ho]
      simp only [htimestamp, secondsAt_inj, Option.some.injEq, Option.isSome_some, true_and,
        forall_const]

end DateTime

example : (DateTime.kst ⟨⟨739742, by decide, by decide⟩, ⟨19, 0, by decide, by decide⟩⟩).isoformat
    "T" "Z" = "2026-05-06T19:00:00+09:00" := by
  decide

end Py

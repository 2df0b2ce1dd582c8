import ClassinDashboard.PyScript
import ClassinDashboard.ScheduleText

/-!
What the markers of morning and afternoon do to the times of a text. The marker is looked for in the
whole text, and each hour is shifted by itself: the two readers agree on what they read, and differ
in when they shift it.
-/

namespace Py

/-- The case of a text has nothing to do with its blanks and its digits. -/
structure Platform.PlainCase (p : Platform) : Prop where
  strip : ∀ text, ClassinDashboard.lower p (strip text) = strip (ClassinDashboard.lower p text)
  digits : ∀ text, (∀ c ∈ text, isDecimal c = true) → ClassinDashboard.lower p text = text

namespace Regex

theorem fullMatch_digits {text : List Char} (h : fullMatch (digits 1 2) text = true) :
    ∀ c ∈ text, isDecimal c = true := by
  match text with
  | [] => exact fun c hc => absurd hc List.not_mem_nil
  | [c] =>
      simp only [fullMatch, digits, times, all, opt] at h
      simp_all [run]
  | [c, d] =>
      simp [fullMatch, digits, times, all, run, opt] at h
      simp_all
  | c :: d :: e :: rest => simp [fullMatch, digits, times, all, run, opt] at h

end Regex
end Py

namespace ClassinDashboard

open Py Py.Regex

/-! ### The markers of a text -/

section Markers

variable (p : Platform)

/-- The text says morning and does not say afternoon. -/
def saysMorning (text : Text) : Bool := hasAmMarker p text && !hasPmMarker p text

def saysAfternoon (text : Text) : Bool := hasPmMarker p text && !hasAmMarker p text

/-- The times are on the side of noon that the markers name. -/
def OnMarkedSide (text : Text) (times : List Clock) : Prop :=
  (saysAfternoon p text = true → ∀ time ∈ times, 12 ≤ time.hour) ∧
    (saysMorning p text = true → ∀ time ∈ times, time.hour < 12)

variable {p}

theorem hasAmMarker_strip (hcase : p.PlainCase) (text : Text) :
    hasAmMarker p (strip text) = hasAmMarker p text := by
  rw [hasAmMarker, hasAmMarker, hcase.strip,
    contains_strip text (by decide) (by decide) (by decide),
    contains_strip (lower p text) (by decide) (by decide) (by decide)]

theorem hasPmMarker_strip (hcase : p.PlainCase) (text : Text) :
    hasPmMarker p (strip text) = hasPmMarker p text := by
  rw [hasPmMarker, hasPmMarker, hcase.strip,
    contains_strip text (by decide) (by decide) (by decide),
    contains_strip (lower p text) (by decide) (by decide) (by decide)]

/-- A number alone carries no marker. -/
theorem hasAmMarker_digits (hcase : p.PlainCase) {text : Text} (h : ∀ c ∈ text, isDecimal c = true) :
    hasAmMarker p text = false := by
  rw [hasAmMarker, hcase.digits text h, contains_eq_false h (by decide),
    contains_eq_false h (by decide), Bool.or_false]

theorem hasPmMarker_digits (hcase : p.PlainCase) {text : Text} (h : ∀ c ∈ text, isDecimal c = true) :
    hasPmMarker p text = false := by
  rw [hasPmMarker, hcase.digits text h, contains_eq_false h (by decide),
    contains_eq_false h (by decide), Bool.or_false]

end Markers

/-! ### The two readers -/

inductive Reader
  /-- `_parse_clock` -/
  | clock
  /-- `_parse_time_range` -/
  | range
  deriving DecidableEq

/-- The start and the end of a slot. -/
def slotEnds {α : Type} : Option (α × α) → List α
  | none => []
  | some (first, last) => [first, last]

namespace Reader

variable (p : Platform) (academyShift : Bool) (reader : Reader) (text : Text)

/-- The clock readings that the reader finds. -/
def readings : List TimeReading :=
  match reader with
  | clock => (readClock p text academyShift).toList
  | range => slotEnds (readTimeRange p text academyShift)

/-- The times that the reader returns. -/
def times : Except PyError (List Clock) :=
  match reader with
  | clock => (parseClock p text academyShift).map Option.toList
  | range => (parseTimeRange p text academyShift).map slotEnds

/-- The hours as they stand in the text. -/
def hours : List Nat := (readings p false reader text).map TimeReading.hour

/-- A range with minutes is the one notation whose hours stay as they are without the shift. -/
def keepsHours : Bool :=
  match reader with
  | clock => false
  | range => (search clockRange text).isSome && !academyShift

variable {p academyShift reader text}

theorem times_eq : reader.times p academyShift text =
    (reader.readings p academyShift text).mapM academyTime := by
  cases reader with
  | clock =>
      rw [times, readings, parseClock]
      cases readClock p text academyShift with
      | none => rfl
      | some reading =>
          rw [Option.toList_some, List.mapM_cons, List.mapM_nil]
          simp only
          cases academyTime reading <;> rfl
  | range =>
      rw [times, readings, parseTimeRange]
      cases readTimeRange p text academyShift with
      | none => rfl
      | some slot =>
          rw [slotEnds, List.mapM_cons, List.mapM_cons, List.mapM_nil]
          simp only
          cases academyTime slot.1 with
          | error e => rfl
          | ok first => cases academyTime slot.2 <;> rfl

/-- Whatever is shifted, the hours read are those of the text. -/
theorem hours_readings :
    (reader.readings p academyShift text).map TimeReading.hour = reader.hours p text := by
  cases reader with
  | clock =>
      rw [hours, readings, readings, readClock, readClock]
      split
      · rfl
      · split
        · rfl
        · split <;> rfl
  | range =>
      rw [hours, readings, readings, readTimeRange, readTimeRange]
      cases search clockRange text with
      | some hit => rfl
      | none => rfl

theorem shift_range {reading : TimeReading} (h : reading ∈ range.readings p academyShift text) :
    reading.shift = (!range.keepsHours academyShift text && !hasAmMarker p text) := by
  rw [readings, readTimeRange] at h
  rw [keepsHours]
  cases hhit : search clockRange text with
  | some hit =>
      rw [hhit] at h
      rcases List.mem_pair.mp h with rfl | rfl <;> simp
  | none =>
      rw [hhit] at h
      simp only [readHourRange] at h
      cases hhours : (search hourRange text).or (search hourToHour text) with
      | none =>
          rw [hhours] at h
          cases h
      | some hit =>
          rw [hhours] at h
          rcases List.mem_pair.mp h with rfl | rfl <;> rfl

/-- A single reading is shifted by the marker for the afternoon, and not by that for the morning. -/
theorem shift_clock (hcase : p.PlainCase) {reading : TimeReading}
    (h : reading ∈ clock.readings p academyShift text)
    (hmarked : hasPmMarker p text = !hasAmMarker p text) : reading.shift = hasPmMarker p text := by
  rw [readings, readClock, hasPmMarker_strip hcase, hasAmMarker_strip hcase, ← hmarked] at h
  split at h
  · rw [List.mem_singleton.mp h]
    cases hasPmMarker p text <;> simp
  · split at h
    · rw [List.mem_singleton.mp h, Bool.or_self]
    · split at h
      · rename_i hdigits
        -- a number alone has no marker at all
        rw [← hasPmMarker_strip hcase, ← hasAmMarker_strip hcase,
          hasPmMarker_digits hcase (fullMatch_digits hdigits),
          hasAmMarker_digits hcase (fullMatch_digits hdigits)] at hmarked
        cases hmarked
      · cases h

/-- What a marker does: afternoon shifts every hour that the notation lets be shifted, morning none. -/
theorem shift_of_marked (hcase : p.PlainCase) (hmarked : hasPmMarker p text = !hasAmMarker p text)
    {reading : TimeReading} (h : reading ∈ reader.readings p academyShift text) :
    reading.shift = (hasPmMarker p text && !reader.keepsHours academyShift text) := by
  cases reader with
  | clock => rw [shift_clock hcase h hmarked, keepsHours, Bool.not_false, Bool.and_true]
  | range => rw [shift_range h, hmarked, Bool.and_comm]

end Reader

/-! ### Which marked hours come out on their side of noon -/

/-- The hour of a reading from 1 to 12. -/
theorem TimeReading.academyHour_of_le {reading : TimeReading} (hlow : 1 ≤ reading.hour)
    (hhigh : reading.hour ≤ 12) : reading.academyHour =
      if reading.shift = true ∧ reading.hour ≤ 9 then reading.hour + 12 else reading.hour := by
  unfold TimeReading.academyHour
  split <;> split <;> simp_all <;> omega

theorem hour_academyTime {reading : TimeReading} {time : Clock} (h : academyTime reading = .ok time) :
    time.hour = reading.academyHour := by
  unfold academyTime Clock.of? at h
  split at h
  · rename_i clock hclock
    cases h
    split at hclock
    · cases hclock
      rfl
    · cases hclock
  · cases h

/-- Afternoon hours are neither 10 nor 11, and are 12 in a range that keeps them; morning hours are
not 12. -/
def MarkedHoursFit (p : Platform) (academyShift : Bool) (reader : Reader) (text : Text) : Prop :=
  (saysAfternoon p text = true → ∀ hour ∈ reader.hours p text,
      hour = 12 ∨ reader.keepsHours academyShift text = false ∧ hour ≤ 9) ∧
    (saysMorning p text = true → ∀ hour ∈ reader.hours p text, hour ≠ 12)

instance (p : Platform) (academyShift : Bool) (reader : Reader) (text : Text) :
    Decidable (MarkedHoursFit p academyShift reader text) :=
  inferInstanceAs (Decidable (_ ∧ _))

section Sides

variable {p : Platform} {academyShift : Bool} {reader : Reader} {text : Text} {times : List Clock}

theorem forall_hour (h : reader.times p academyShift text = .ok times) {P : Nat → Prop} :
    (∀ time ∈ times, P time.hour) ↔ ∀ reading ∈ reader.readings p academyShift text,
      P reading.academyHour := by
  rw [Reader.times_eq] at h
  rw [← List.forall_mem_map (f := Clock.hour), mapM_frame (fun _ _ => hour_academyTime) h,
    List.forall_mem_map]

/-- Markers put every time on their side of noon exactly if the hours of the text fit them. -/
theorem onMarkedSide_iff (hcase : p.PlainCase) (htimes : reader.times p academyShift text = .ok times)
    (hhours : ∀ hour ∈ reader.hours p text, 1 ≤ hour ∧ hour ≤ 12) :
    OnMarkedSide p text times ↔ MarkedHoursFit p academyShift reader text := by
  have hreadings : (reader.readings p academyShift text).map TimeReading.hour = reader.hours p text :=
    Reader.hours_readings
  rw [← hreadings, List.forall_mem_map] at hhours
  rw [OnMarkedSide, MarkedHoursFit, ← hreadings]
  refine and_congr (forall_congr' fun hside => ?_) (forall_congr' fun hside => ?_)
  · obtain ⟨hpm, ham⟩ : hasPmMarker p text = true ∧ hasAmMarker p text = false := by
      simpa [saysAfternoon] using hside
    rw [forall_hour htimes, List.forall_mem_map]
    refine forall₂_congr fun reading hreading => ?_
    have hshift := Reader.shift_of_marked hcase (by rw [hpm, ham]; rfl) hreading
    obtain ⟨hlow, hhigh⟩ := hhours reading hreading
    rw [TimeReading.academyHour_of_le hlow hhigh, hshift, hpm, Bool.true_and]
    cases reader.keepsHours academyShift text with
    | false =>
        simp only [Bool.not_false, true_and]
        split <;> omega
    | true =>
        simp only [Bool.not_true, Bool.false_eq_true, Bool.true_eq_false, false_and, if_false, or_false]
        omega
  · obtain ⟨ham, hpm⟩ : hasAmMarker p text = true ∧ hasPmMarker p text = false := by
      simpa [saysMorning] using hside
    rw [forall_hour htimes (P := (· < 12)), List.forall_mem_map]
    refine forall₂_congr fun reading hreading => ?_
    have hshift := Reader.shift_of_marked hcase (by rw [hpm, ham]; rfl) hreading
    obtain ⟨hlow, hhigh⟩ := hhours reading hreading
    rw [TimeReading.academyHour_of_le hlow hhigh, hshift, hpm, Bool.false_and,
      if_neg fun h => Bool.false_ne_true h.1]
    omega

end Sides

/-- `plain` changes no letter. -/
theorem plainCase_plain : Platform.plain.PlainCase where
  strip text := by rw [lower, lower, Platform.plain, String.toList_ofList, String.toList_ofList]
  digits text _ := by rw [lower, Platform.plain, String.toList_ofList]

theorem onMarkedSide_evening :
    OnMarkedSide .plain "오후 7시~9시".toList
        [⟨19, 0, by decide, by decide⟩, ⟨21, 0, by decide, by decide⟩] := by
  have hfit : MarkedHoursFit .plain true .range "오후 7시~9시".toList := by decide
  exact (onMarkedSide_iff plainCase_plain (by decide) (by decide)).mpr hfit

/-- Noon is not before noon: `오전 12시` is read as twelve o'clock. -/
theorem morning_twelve_is_noon :
    ¬ ∀ (academyShift : Bool) (reader : Reader) (text : Text) (times : List Clock),
      reader.times .plain academyShift text = .ok times →
        (∀ hour ∈ reader.hours .plain text, 1 ≤ hour ∧ hour ≤ 12) → OnMarkedSide .plain text times := by
  intro h
  have hside := h false .clock "오전 12시".toList [⟨12, 0, by decide, by decide⟩] (by decide)
    (by decide)
  have hnoon := hside.2 (by decide) _ List.mem_cons_self
  exact absurd hnoon (by decide)

/-- Ten in the evening is read as ten in the morning, and a range with minutes is left as it stands. -/
example : ¬ MarkedHoursFit .plain true .clock "오후 10시".toList ∧
    ¬ MarkedHoursFit .plain false .range "오후 7:00-9:00".toList := by decide

end ClassinDashboard

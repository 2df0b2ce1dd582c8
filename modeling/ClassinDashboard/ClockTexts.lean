import ClassinDashboard.LinePrefix
import ClassinDashboard.PyTokens

/-!
Clock readings as they are written: an hour, its minutes or none, and words such as a marker around
them. What the reader of a single clock makes of each notation.
-/

namespace ClassinDashboard

open Py Py.Regex

/-! ### The notations -/

/-- A number of one or two digits. -/
structure ShortNumber where
  digits : Text
  decimal : ∀ c ∈ digits, isDecimal c = true
  nonempty : digits ≠ []
  short : digits.length ≤ 2

def ShortNumber.value (number : ShortNumber) : Nat := ofDigits (number.digits.filterMap digitValue)

/-- A character of the numbers, units and dashes of clock readings. -/
def isClockPart (c : Char) : Bool := isDecimal c || ":시분-~–—".toList.contains c

/-- Words beside a clock reading: a marker of morning or afternoon, with blanks around it, or nothing. -/
structure Words where
  text : Text
  plain : ∀ c ∈ text, isClockPart c = false

structure Blanks where
  text : Text
  blank : ∀ c ∈ text, isSpace c = true

/-- What states the minutes behind an hour: `:MM`, `시 MM`, `시 MM분`. -/
structure MinuteText where
  colon : Bool
  gap : Blanks
  number : ShortNumber
  /-- The blanks before `분`, where it follows. -/
  unit : Option Blanks
  lt : number.value < 60

namespace MinuteText

def mark (minute : MinuteText) : Char := if minute.colon then ':' else '시'

def unitText (minute : MinuteText) : Text :=
  match minute.unit with
  | none => []
  | some pad => pad.text ++ ['분']

def text (minute : MinuteText) : Text :=
  minute.mark :: (minute.gap.text ++ (minute.number.digits ++ minute.unitText))

end MinuteText

/-- A clock reading: `H:MM`, `H시`, `H시 MM분`, among words. -/
structure ClockText where
  lead : Words
  hour : ShortNumber
  space : Blanks
  /-- `none` is the bare hour, `H시`. -/
  minute : Option MinuteText
  tail : Words

namespace ClockText

/-- What follows the hour and its blanks. -/
def stem (clock : ClockText) : Text :=
  match clock.minute with
  | none => ['시']
  | some minute => minute.text

def rest (clock : ClockText) : Text := clock.space.text ++ clock.stem

def core (clock : ClockText) : Text := clock.hour.digits ++ clock.rest

def text (clock : ClockText) : Text := clock.lead.text ++ (clock.core ++ clock.tail.text)

section Reading

variable (p : Platform) (clock : ClockText)

/-- The minutes, zero where none are stated. -/
def minutes : Nat := clock.minute.elim 0 fun minute => minute.number.value

/-- Whether 1 to 9 o'clock means the evening: with minutes only where a marker says so. -/
def shift : Bool := hasPmMarker p clock.text || (clock.minute.isNone && !hasAmMarker p clock.text)

def reading : TimeReading := ⟨clock.hour.value, clock.minutes, clock.shift p⟩

end Reading
end ClockText

/-! ### Characters -/

theorem dropWhile_append_cons {class' : Char → Bool} {u : Text} {c : Char} (hu : ∀ d ∈ u, class' d = true)
    (hc : class' c = false) (v : Text) : (u ++ c :: v).dropWhile class' = c :: v := by
  rw [List.dropWhile_append_of_pos hu, List.dropWhile_cons_of_neg (Bool.eq_false_iff.mp hc)]

/-- A class skips the whole of a text, or stops within it. -/
theorem dropWhile_append_cases (class' : Char → Bool) (u v : Text) :
    ((∀ c ∈ u, class' c = true) ∧ (u ++ v).dropWhile class' = v.dropWhile class') ∨
      ∃ c ∈ u, ∃ rest, (u ++ v).dropWhile class' = c :: rest := by
  by_cases hall : ∀ c ∈ u, class' c = true
  · exact .inl ⟨hall, List.dropWhile_append_of_pos hall⟩
  · cases hrest : u.dropWhile class' with
    | nil => exact absurd (List.dropWhile_eq_nil_iff.mp hrest) hall
    | cons c rest =>
        have hmem : c ∈ u := (List.dropWhile_sublist class').mem (hrest ▸ List.mem_cons_self)
        refine .inr ⟨c, hmem, rest ++ v, ?_⟩
        rw [List.dropWhile_append, hrest]
        rfl

theorem isClockPart_of_isDecimal {c : Char} (h : isDecimal c = true) : isClockPart c = true := by
  rw [isClockPart, h, Bool.true_or]

theorem isSpace_of_isDecimal {c : Char} (h : isDecimal c = true) : isSpace c = false := by
  by_contra hc
  rw [isDecimal_of_isSpace (Bool.not_eq_false _ ▸ hc)] at h
  cases h

/-- The units and dashes are neither digits nor blanks. -/
theorem plain_oneOf (chars : String) (hchars : chars.toList ⊆ ":시분-~–—".toList) {c : Char}
    (h : chars.toList.contains c = true) : isDecimal c = false ∧ isSpace c = false := by
  have hmarks : ∀ c ∈ ":시분-~–—".toList, isDecimal c = false ∧ isSpace c = false := by decide
  exact hmarks c (hchars (List.contains_iff_mem.mp h))

theorem isClockPart_of_oneOf (chars : String) (hchars : chars.toList ⊆ ":시분-~–—".toList) {c : Char}
    (h : chars.toList.contains c = true) : isClockPart c = true :=
  Bool.or_eq_true_iff.mpr (.inr (List.contains_iff_mem.mpr (hchars (List.contains_iff_mem.mp h))))

theorem ShortNumber.head (number : ShortNumber) :
    ∃ c rest, number.digits = c :: rest ∧ isDecimal c = true := by
  obtain ⟨c, rest, hdigits⟩ := List.exists_cons_of_ne_nil number.nonempty
  exact ⟨c, rest, hdigits, number.decimal c (hdigits ▸ List.mem_cons_self)⟩

theorem ShortNumber.isSpace_head (number : ShortNumber) (after : Text) :
    (number.digits ++ after).head?.any isSpace = false := by
  obtain ⟨c, rest, hdigits, hc⟩ := number.head
  rw [hdigits]
  exact isSpace_of_isDecimal hc

theorem ShortNumber.first (number : ShortNumber) {before after : Text} {groups : Groups}
    (hafter : after.head?.any isDecimal = false) :
    First (Regex.digits 1 2) before number.digits after groups groups :=
  first_times number.decimal (List.length_pos_iff.mpr number.nonempty) number.short (.inr hafter)

theorem Words.not_mem {class' : Char → Bool} (words : Words)
    (hclass : ∀ c, class' c = true → isClockPart c = true) : ∀ c ∈ words.text, class' c = false := by
  intro c hc
  by_contra hother
  have hpart := hclass c (Bool.not_eq_false _ ▸ hother)
  rw [words.plain c hc] at hpart
  cases hpart

theorem Words.undigited (words : Words) : Undigited words.text :=
  words.not_mem fun _ => isClockPart_of_isDecimal

theorem Words.head {class' : Char → Bool} (words : Words)
    (hclass : ∀ c, class' c = true → isClockPart c = true) : words.text.head?.any class' = false := by
  cases htext : words.text with
  | nil => rfl
  | cons c rest => exact words.not_mem hclass c (htext ▸ List.mem_cons_self)

theorem Blanks.undigited (blanks : Blanks) : Undigited blanks.text :=
  fun c hc => isDecimal_of_isSpace (blanks.blank c hc)

/-- Blanks and then no digit. -/
theorem Blanks.isDecimal_head (blanks : Blanks) {text : Text} (h : text.head?.any isDecimal = false) :
    (blanks.text ++ text).head?.any isDecimal = false := by
  cases hblanks : blanks.text with
  | nil => exact h
  | cons c rest => exact blanks.undigited c (hblanks ▸ List.mem_cons_self)

namespace MinuteText

variable (minute : MinuteText)

theorem mark_cases : minute.mark = ':' ∨ minute.mark = '시' := by
  unfold mark
  split
  · exact .inl rfl
  · exact .inr rfl

theorem isDecimal_mark : isDecimal minute.mark = false := by
  rcases minute.mark_cases with h | h <;> rw [h] <;> decide

theorem isSpace_mark : isSpace minute.mark = false := by
  rcases minute.mark_cases with h | h <;> rw [h] <;> decide

theorem undigited_unitText : Undigited minute.unitText := by
  unfold unitText
  cases minute.unit with
  | none => exact fun c hc => absurd hc List.not_mem_nil
  | some pad =>
      intro c hc
      rcases List.mem_append.mp hc with hc | hc
      · exact pad.undigited c hc
      · rw [List.mem_singleton.mp hc]
        decide

theorem oneOf_mark : ":시".toList.contains minute.mark = true := by
  rcases minute.mark_cases with h | h <;> rw [h] <;> rfl

theorem isDecimal_behind (tail : Words) :
    (minute.unitText ++ tail.text).head?.any isDecimal = false := by
  unfold unitText
  cases minute.unit with
  | none => exact tail.head fun _ => isClockPart_of_isDecimal
  | some pad =>
      rw [List.append_assoc]
      exact pad.isDecimal_head (show isDecimal '분' = false by decide)

end MinuteText

/-! ### Blanks around a reading -/

theorem stripLeft_append_head {core : Text} (hne : core ≠ []) (hcore : core.head?.any isSpace = false)
    (lead : Text) : stripLeft isSpace (lead ++ core) = stripLeft isSpace lead ++ core := by
  obtain ⟨c, rest, rfl⟩ := List.exists_cons_of_ne_nil hne
  have hc : ¬isSpace c = true := Bool.eq_false_iff.mp hcore
  rw [stripLeft, List.dropWhile_append, List.dropWhile_cons_of_neg hc]
  split
  · rename_i hnil
    rw [stripLeft, List.isEmpty_iff.mp hnil, List.nil_append]
  · rfl

/-- A text that neither begins nor ends with a blank is stripped around. -/
theorem strip_around {core : Text} (hne : core ≠ []) (hfirst : core.head?.any isSpace = false)
    (hlast : core.getLast?.any isSpace = false) (lead tail : Text) :
    strip (lead ++ (core ++ tail)) =
      stripLeft isSpace lead ++ (core ++ (stripLeft isSpace tail.reverse).reverse) := by
  have hfront : core ++ tail ≠ [] := List.append_ne_nil_of_left_ne_nil hne tail
  have hhead : (core ++ tail).head?.any isSpace = false := by
    obtain ⟨c, rest, rfl⟩ := List.exists_cons_of_ne_nil hne
    exact hfirst
  rw [strip, stripChars, stripLeft_append_head hfront hhead, ← List.append_assoc, List.reverse_append,
    stripLeft_append_head]
  · simp
  · rw [List.reverse_append]
    exact List.append_ne_nil_of_left_ne_nil (List.reverse_eq_nil_iff.not.mpr hne) _
  · rw [List.reverse_append, List.head?_append, List.head?_reverse]
    cases hcore : core.getLast? with
    | none => exact absurd (List.getLast?_eq_none_iff.mp hcore) hne
    | some c =>
        rw [hcore] at hlast
        exact hlast

namespace ClockText

variable (clock : ClockText)

theorem core_ne_nil : clock.core ≠ [] := List.append_ne_nil_of_left_ne_nil clock.hour.nonempty _

theorem core_head : clock.core.head?.any isSpace = false := by
  obtain ⟨c, rest, hdigits, hc⟩ := clock.hour.head
  rw [core, hdigits]
  exact isSpace_of_isDecimal hc

theorem core_last : clock.core.getLast?.any isSpace = false := by
  obtain ⟨c, hlast, hc⟩ : ∃ c, clock.stem.getLast? = some c ∧ isSpace c = false := by
    unfold stem
    cases clock.minute with
    | none => exact ⟨'시', rfl, by decide⟩
    | some minute =>
        obtain ⟨c, hlast⟩ := Option.ne_none_iff_exists'.mp
          (List.getLast?_eq_none_iff.not.mpr minute.number.nonempty)
        have hc := isSpace_of_isDecimal (minute.number.decimal c (List.mem_of_getLast? hlast))
        unfold MinuteText.text MinuteText.unitText
        cases hunit : minute.unit with
        | none => exact ⟨c, by simp [hunit, List.getLast?_cons, List.getLast?_append, hlast], hc⟩
        | some pad =>
            exact ⟨'분', by simp [hunit, List.getLast?_cons, List.getLast?_append], by decide⟩
  simp [core, rest, List.getLast?_append, hlast, hc]

/-- The same reading without the blanks around it. -/
def stripped : ClockText :=
  { clock with
    lead := ⟨stripLeft isSpace clock.lead.text,
      fun c hc => clock.lead.plain c ((List.dropWhile_sublist _).mem hc)⟩
    tail := ⟨(stripLeft isSpace clock.tail.text.reverse).reverse,
      fun c hc => clock.tail.plain c
        (List.mem_reverse.mp ((List.dropWhile_sublist _).mem (List.mem_reverse.mp hc)))⟩ }

theorem strip_text : strip clock.text = clock.stripped.text :=
  strip_around clock.core_ne_nil clock.core_head clock.core_last _ _

/-! ### One reading in a cell -/

theorem passes_lead {r : Regex} (hopens : Opens isDecimal r) (after : Text) :
    Passes r clock.lead.text after := .of_opens hopens clock.lead.undigited

theorem text_of_minute {minute : MinuteText} (h : clock.minute = some minute) :
    clock.text = clock.lead.text ++ ((clock.hour.digits ++ (clock.space.text ++ ([minute.mark] ++
      (minute.gap.text ++ minute.number.digits)))) ++ (minute.unitText ++ clock.tail.text)) := by
  simp [text, core, rest, stem, h, MinuteText.text]

theorem search_minute {minute : MinuteText} (h : clock.minute = some minute) :
    ∃ hit, search (all [group 1 (digits 1 2), blanks, oneOf ":시", blanks, group 2 (digits 1 2)])
      clock.text = some hit ∧ hit.number 1 = clock.hour.value ∧
        hit.number 2 = minute.number.value := by
  have hfirst : First (all [group 1 (digits 1 2), blanks, oneOf ":시", blanks, group 2 (digits 1 2)])
      clock.lead.text.reverse (clock.hour.digits ++ (clock.space.text ++ ([minute.mark] ++
        (minute.gap.text ++ (minute.number.digits ++ []))))) (minute.unitText ++ clock.tail.text) []
          [(2, minute.number.digits), (1, clock.hour.digits)] := by
    refine ((clock.hour.first ?_).group 1).seq ((first_blanks clock.space.blank ?_).seq
      ((first_one ?_).seq ((first_blanks minute.gap.blank ?_).seq
        (((minute.number.first ?_).group 2).seq first_empty))))
    · rw [List.append_assoc]
      exact clock.space.isDecimal_head minute.isDecimal_mark
    · exact minute.isSpace_mark
    · exact minute.oneOf_mark
    · rw [List.append_nil]
      exact minute.number.isSpace_head _
    · exact minute.isDecimal_behind clock.tail
  have hhit := hfirst.search (clock.passes_lead ((opens_digits 0 2).group 1).seq _)
  rw [List.append_nil] at hhit
  rw [clock.text_of_minute h]
  exact ⟨_, hhit, rfl, rfl⟩

/-- A bare hour has no minutes to be found. -/
theorem search_hour (h : clock.minute = none) :
    search (all [group 1 (digits 1 2), blanks, oneOf ":시", blanks, group 2 (digits 1 2)])
        clock.text = none ∧
      ∃ hit, search (all [group 1 (digits 1 2), blanks, lit "시"]) clock.text = some hit ∧
        hit.number 1 = clock.hour.value := by
  have htext : clock.text = clock.lead.text ++ ((clock.hour.digits ++ (clock.space.text ++ ['시'])) ++
      clock.tail.text) := by
    simp [text, core, rest, stem, h]
  have hdecimal (more : Text) : (clock.space.text ++ '시' :: more).head?.any isDecimal = false :=
    clock.space.isDecimal_head (show isDecimal '시' = false by decide)
  have htail : Undigited (clock.space.text ++ '시' :: clock.tail.text) := by
    refine List.forall_mem_append.mpr ⟨clock.space.undigited, List.forall_mem_cons.mpr ⟨?_, ?_⟩⟩
    · decide
    · exact clock.tail.undigited
  have hopens : Opens isDecimal
      (all [group 1 (digits 1 2), blanks, oneOf ":시", blanks, group 2 (digits 1 2)]) :=
    ((opens_digits 0 2).group 1).seq
  constructor
  · rw [htext, List.append_assoc, List.append_assoc, List.singleton_append]
    refine search_eq_none (.append (clock.passes_lead hopens _) (.append ?_
      (.of_opens hopens htail))) fun hnil => ?_
    · refine .of_suffix clock.hour.decimal fun front hfront _ hbegins => ?_
      rw [List.append_nil] at hbegins
      have hrest := hbegins.number hfront (hdecimal _) (opens_one _).seq
        fun c hc => plain_oneOf _ (by decide) hc
      rw [dropWhile_append_cons clock.space.blank (by decide)] at hrest
      obtain ⟨c, rest, heq, -, hrest⟩ := hrest.tail
      obtain ⟨rfl, rfl⟩ := List.cons.inj heq
      have hminute := hrest.drop readsOnly_blanks ((opens_digits 0 2).group 2).seq
        fun c hc => isSpace_of_isDecimal hc
      obtain ⟨c, rest, heq, hc⟩ := hminute.head ((opens_digits 0 2).group 2).seq
      have hmem := (List.dropWhile_sublist isSpace).mem (heq ▸ List.mem_cons_self)
      rw [clock.tail.undigited c hmem] at hc
      cases hc
    · obtain ⟨c, rest, heq, -⟩ := hnil.head hopens
      cases heq
  · have hfirst : First (all [group 1 (digits 1 2), blanks, lit "시"]) clock.lead.text.reverse
        (clock.hour.digits ++ (clock.space.text ++ (['시'] ++ []))) clock.tail.text []
          [(1, clock.hour.digits)] := by
      refine ((clock.hour.first ?_).group 1).seq ((first_blanks clock.space.blank ?_).seq
        ((first_lit "시").seq first_empty))
      · rw [List.append_assoc]
        exact hdecimal _
      · exact show isSpace '시' = false by decide
    have hhit := hfirst.search (clock.passes_lead ((opens_digits 0 2).group 1).seq _)
    rw [htext]
    exact ⟨_, hhit, rfl⟩

/-- What the reader of a single clock makes of each notation. -/
theorem readClock_text {p : Platform} (hcase : p.PlainCase) :
    readClock p clock.text false = some (clock.reading p) := by
  have hminute : clock.stripped.minute = clock.minute := rfl
  have hhour : clock.stripped.hour = clock.hour := rfl
  simp only [readClock, hasPmMarker_strip hcase, hasAmMarker_strip hcase, Bool.false_and, Bool.or_false]
  rw [clock.strip_text, reading, minutes, shift]
  cases hm : clock.minute with
  | some minute =>
      obtain ⟨hit, hhit, hfirst, hsecond⟩ := clock.stripped.search_minute (hminute.trans hm)
      simp [hhit, hfirst, hsecond, hhour]
  | none =>
      obtain ⟨hnone, hit, hhit, hfirst⟩ := clock.stripped.search_hour (hminute.trans hm)
      simp [hnone, hhit, hfirst, hhour]

end ClockText

end ClassinDashboard

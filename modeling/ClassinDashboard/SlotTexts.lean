import ClassinDashboard.ClockTexts

/-!
Two clock readings with a dash between them, alone and behind a date: which of the three patterns of a
range finds what in them.
-/

namespace ClassinDashboard

open Py Py.Regex

/-- `s-e` -/
def slotText (first last : ClockText) : Text := first.text ++ '-' :: last.text

/-! ### Behind a reading -/

/-- What may follow a reading: nothing, or a dash and more. -/
def EndsReading (follow : Text) : Prop := ∀ c ∈ follow.head?, c = '-'

section Behind

variable {follow : Text}

theorem EndsReading.head {class' : Char → Bool} (h : EndsReading follow) (hdash : class' '-' = false) :
    follow.head?.any class' = false := by
  cases follow with
  | nil => rfl
  | cons c follow =>
      obtain rfl : c = '-' := h c rfl
      exact hdash

/-- Behind blanks and units comes a word or the dash. -/
theorem head_behind (words : Words) (class' skips : Char → Bool) (hfollow : EndsReading follow) (hskips : skips '-' = false)
    (hclass : ∀ c, class' c = true → isClockPart c = true) (hdash : class' '-' = false) :
    ((words.text ++ follow).dropWhile skips).head?.any class' = false := by
  have hstop : follow.dropWhile skips = follow := by
    cases follow with
    | nil => rfl
    | cons c follow =>
        obtain rfl : c = '-' := hfollow c rfl
        exact List.dropWhile_cons_of_neg (Bool.eq_false_iff.mp hskips)
  rcases dropWhile_append_cases skips words.text follow with ⟨-, hskip⟩ | ⟨c, hc, rest, hword⟩
  · rw [hskip, hstop]
    exact hfollow.head hdash
  · rw [hword]
    exact words.not_mem hclass c hc

/-- A dash behind blanks and units means that no word stands before it. -/
theorem blank_of_dash {words : Words} {skips : Char → Bool} (hskips : ∀ c ∈ words.text, skips c = true → isSpace c = true)
    (hdash : ((words.text ++ follow).dropWhile skips).head?.any ("-~–—".toList.contains ·) = true) :
    ∀ c ∈ words.text, isSpace c = true := by
  rcases dropWhile_append_cases skips words.text follow with ⟨hall, -⟩ | ⟨c, hc, rest, hword⟩
  · exact fun c hc => hskips c hc (hall c hc)
  · have hplain : "-~–—".toList.contains c = false :=
      words.not_mem (fun c hc => isClockPart_of_oneOf "-~–—" (by decide) hc) c hc
    rw [hword] at hdash
    exact absurd (hplain.symm.trans hdash) Bool.false_ne_true

end Behind

theorem MinuteText.isDecimal_follow (minute : MinuteText) (words : Words) {follow : Text}
    (hfollow : EndsReading follow) :
    (minute.unitText ++ (words.text ++ follow)).head?.any isDecimal = false := by
  have hunit := minute.isDecimal_behind words
  rw [← List.append_assoc]
  cases hbehind : minute.unitText ++ words.text with
  | nil => exact hfollow.head (by decide)
  | cons c rest =>
      rw [hbehind] at hunit
      exact hunit

/-! ### What the ranges read -/

/-- The minutes are stated with two digits. -/
def ClockText.FullMinutes (clock : ClockText) : Prop :=
  ∃ minute, clock.minute = some minute ∧ minute.number.digits.length = 2

/-- The hour is followed by `시`. -/
def ClockText.SaysHour (clock : ClockText) : Prop := ∀ minute ∈ clock.minute, minute.colon = false

/-- No word stands between the two readings. -/
def Adjoining (first last : ClockText) : Prop :=
  (∀ c ∈ first.tail.text, isSpace c = true) ∧ ∀ c ∈ last.lead.text, isSpace c = true

section Inversion

variable {clock : ClockText} {minute : MinuteText} {front follow : Text} {r : Regex}
  {accepts : Char → Bool}

theorem ClockText.stem_eq (clock : ClockText) : ∃ c more, clock.stem = c :: more ∧
    isDecimal c = false ∧ isSpace c = false := by
  unfold stem
  cases clock.minute with
  | none => exact ⟨_, [], rfl, by decide, by decide⟩
  | some minute => exact ⟨_, _, rfl, minute.isDecimal_mark, minute.isSpace_mark⟩

/-- Behind the digits of the hour the pattern goes on with its mark. -/
theorem begins_hour {index : Nat}
    (h : Begins (seq (group index (digits 1 2)) (seq blanks r)) (front ++ (clock.rest ++ follow)))
    (hfront : ∀ c ∈ front, isDecimal c = true) (hopens : Opens accepts r)
    (hother : ∀ c, accepts c = true → isDecimal c = false ∧ isSpace c = false) :
    Begins r (clock.stem ++ follow) := by
  obtain ⟨c, more, hstem, hdecimal, hspace⟩ := clock.stem_eq
  rw [ClockText.rest, hstem, List.append_assoc] at h
  have hmark := h.number hfront (clock.space.isDecimal_head hdecimal) hopens hother
  rw [List.cons_append, dropWhile_append_cons clock.space.blank hspace] at hmark
  rwa [hstem]

theorem begins_minute {i j : Nat}
    (h : Begins (seq (group i (digits 1 2)) (seq blanks (seq (oneOf ":시") (seq blanks
      (seq (group j (digits 2 2)) r))))) (front ++ (clock.rest ++ (clock.tail.text ++ follow))))
    (hfront : ∀ c ∈ front, isDecimal c = true) (hfollow : EndsReading follow) :
    ∃ minute, clock.minute = some minute ∧ minute.number.digits.length = 2 ∧
      Begins r (minute.unitText ++ (clock.tail.text ++ follow)) := by
  have hmark := begins_hour h hfront (opens_one _).seq fun c hc => plain_oneOf _ (by decide) hc
  obtain ⟨c, more, heq, -, hmore⟩ := hmark.tail
  have hdigits := hmore.drop readsOnly_blanks ((opens_digits 1 2).group j).seq
    fun c hc => isSpace_of_isDecimal hc
  obtain ⟨c, d, rest, htwo, hc, hd, hrest⟩ := hdigits.two
  cases hm : clock.minute with
  | none =>
      rw [ClockText.stem, hm] at heq
      obtain rfl : more = clock.tail.text ++ follow := (List.cons.inj heq).2.symm
      have hhead := head_behind clock.tail isDecimal isSpace hfollow (by decide)
        (fun _ => isClockPart_of_isDecimal) (by decide)
      rw [htwo] at hhead
      exact absurd (hhead.symm.trans hc) Bool.false_ne_true
  | some minute =>
      refine ⟨minute, rfl, ?_⟩
      rw [ClockText.stem, hm] at heq
      obtain rfl : more = minute.gap.text ++ (minute.number.digits ++
          (minute.unitText ++ (clock.tail.text ++ follow))) := by
        simpa [MinuteText.text] using (List.cons.inj heq).2.symm
      obtain ⟨e, back, hnumber, he⟩ := minute.number.head
      have hshort := minute.number.short
      rw [hnumber] at htwo hshort ⊢
      rw [List.cons_append, dropWhile_append_cons minute.gap.blank (isSpace_of_isDecimal he)] at htwo
      obtain ⟨-, htwo⟩ := List.cons.inj htwo
      cases back with
      | nil =>
          have hnone := minute.isDecimal_follow clock.tail hfollow
          rw [List.nil_append] at htwo
          rw [htwo] at hnone
          exact absurd (hnone.symm.trans hd) Bool.false_ne_true
      | cons f back =>
          obtain rfl : back = [] := List.eq_nil_of_length_eq_zero (by simpa using hshort)
          obtain ⟨-, rfl⟩ := List.cons.inj htwo
          exact ⟨rfl, hrest⟩

/-- A dash that the pattern finds behind blanks follows the reading. -/
theorem begins_dash {skips : Char → Bool} {more : Text}
    (h : Begins (seq dash r) ((clock.tail.text ++ '-' :: more).dropWhile skips))
    (hskips : ∀ c ∈ clock.tail.text, skips c = true → isSpace c = true)
    (hblank : ∀ c, isSpace c = true → skips c = true) (hdash : skips '-' = false) :
    (∀ c ∈ clock.tail.text, isSpace c = true) ∧ Begins r more := by
  obtain ⟨c, rest, heq, hc, hrest⟩ := h.tail
  have htail : ∀ c ∈ clock.tail.text, isSpace c = true :=
    blank_of_dash hskips (by rw [heq]; exact hc)
  rw [dropWhile_append_cons (fun c hc => hblank c (htail c hc)) hdash] at heq
  obtain ⟨-, rfl⟩ := List.cons.inj heq
  exact ⟨htail, hrest⟩

theorem begins_unit {more : Text}
    (h : Begins (seq blanks (seq (opt (lit "분")) (seq blanks (seq dash r))))
      (minute.unitText ++ (clock.tail.text ++ '-' :: more))) :
    (∀ c ∈ clock.tail.text, isSpace c = true) ∧ Begins r more := by
  let skips : Char → Bool := fun c => isSpace c || c = '분'
  have hunit : ReadsOnly skips (seq (seq blanks (opt (lit "분"))) blanks) := by
    have hblanks : ReadsOnly skips blanks := readsOnly_blanks.mono fun c hc => by simp [skips, hc]
    have hlit : ReadsOnly skips (lit "분") := by
      intro before text after hreads c hc
      rw [(reads_lit "분").mp hreads] at hc
      rw [List.mem_singleton.mp hc]
      exact Bool.or_true _
    exact (hblanks.seq hlit.opt).seq hblanks
  have hdash := h.assoc.assoc.drop hunit (opens_one ("-~–—".toList.contains ·)).seq fun c hc => by
    have hplain := (plain_oneOf "-~–—" (by decide) hc).2
    simp only [skips, hplain, Bool.false_or, decide_eq_false_iff_not]
    rintro rfl
    exact absurd hc (by decide)
  rw [List.dropWhile_append_of_pos] at hdash
  · refine begins_dash hdash (fun c hc hskip => ?_) (fun c hc => by simp [skips, hc]) (by decide)
    have hplain := clock.tail.plain c hc
    rcases Bool.or_eq_true_iff.mp hskip with hspace | hunit
    · exact hspace
    · rw [of_decide_eq_true hunit] at hplain
      exact absurd hplain (by decide)
  · unfold MinuteText.unitText
    cases minute.unit with
    | none => exact fun c hc => absurd hc List.not_mem_nil
    | some pad =>
        intro c hc
        rcases List.mem_append.mp hc with hc | hc
        · exact Bool.or_eq_true_iff.mpr (.inl (pad.blank c hc))
        · rw [List.mem_singleton.mp hc]
          exact Bool.or_true _

theorem begins_lead {index : Nat}
    (h : Begins (seq blanks (seq (group index (digits 1 2)) r)) (clock.text ++ follow)) :
    (∀ c ∈ clock.lead.text, isSpace c = true) ∧ Begins (seq (group index (digits 1 2)) r)
      (clock.hour.digits ++ (clock.rest ++ (clock.tail.text ++ follow))) := by
  have hopens : Opens isDecimal (seq (group index (digits 1 2)) r) := ((opens_digits 0 2).group index).seq
  have hnumber := h.drop readsOnly_blanks hopens fun c hc => isSpace_of_isDecimal hc
  have htext : clock.text ++ follow =
      clock.lead.text ++ (clock.hour.digits ++ (clock.rest ++ (clock.tail.text ++ follow))) := by
    simp [ClockText.text, ClockText.core]
  rw [htext] at hnumber
  rcases dropWhile_append_cases isSpace clock.lead.text
    (clock.hour.digits ++ (clock.rest ++ (clock.tail.text ++ follow))) with
    ⟨hblank, hskip⟩ | ⟨d, hd, more, hword⟩
  · obtain ⟨c, back, hdigits, hc⟩ := clock.hour.head
    rw [hskip, hdigits, List.cons_append,
      List.dropWhile_cons_of_neg (Bool.eq_false_iff.mp (isSpace_of_isDecimal hc))] at hnumber
    rw [hdigits]
    exact ⟨hblank, hnumber⟩
  · obtain ⟨c, rest, heq, hc⟩ := hnumber.head hopens
    rw [hword] at heq
    obtain ⟨rfl, -⟩ := List.cons.inj heq
    exact absurd ((clock.lead.undigited d hd).symm.trans hc) Bool.false_ne_true

end Inversion

section Ranges

variable {first last : ClockText} {minute : MinuteText} {front : Text} {r : Regex}

theorem endsReading_nil : EndsReading [] := by
  intro c hc
  cases hc

theorem endsReading_dash (more : Text) : EndsReading ('-' :: more) := by
  intro c hc
  exact (Option.some.inj hc).symm

theorem saysHour_of_stem {follow : Text} (h : Begins (seq (lit "시") r) (last.stem ++ follow)) :
    last.SaysHour := by
  obtain ⟨rest, heq, -⟩ := h.lit
  intro minute hminute
  rw [ClockText.stem, Option.mem_def.mp hminute] at heq
  have hmark : minute.mark = '시' := (List.cons.inj heq).1
  unfold MinuteText.mark at hmark
  split at hmark
  · cases hmark
  · rename_i hcolon
    exact Bool.eq_false_iff.mpr hcolon

theorem opens_hourMark : Opens ("시".toList.contains ·) (seq (lit "시") r) := by
  refine Opens.seq (Opens.seq ?_)
  rintro before text after ⟨c, hc, rfl⟩
  rw [of_decide_eq_true hc]
  rfl

/-- The second hour of a range of hours. -/
theorem begins_last {index : Nat}
    (h : Begins (seq blanks (seq (group index (digits 1 2)) (seq blanks (seq (lit "시") r)))) last.text) :
    (∀ c ∈ last.lead.text, isSpace c = true) ∧ last.SaysHour := by
  rw [← List.append_nil last.text] at h
  obtain ⟨hlead, hnumber⟩ := begins_lead h
  exact ⟨hlead, saysHour_of_stem (begins_hour hnumber last.hour.decimal opens_hourMark
    fun c hc => plain_oneOf _ (by decide) hc)⟩

/-- A range with minutes is read from the hour on, and has minutes on both sides. -/
theorem clockRange_hour (hfront : ∀ c ∈ front, isDecimal c = true)
    (h : Begins clockRange (front ++ (first.rest ++ (first.tail.text ++ '-' :: last.text)))) :
    Adjoining first last ∧ first.FullMinutes ∧ last.FullMinutes := by
  obtain ⟨minute, hminute, hfull, hunit⟩ := begins_minute h hfront (endsReading_dash _)
  obtain ⟨htail, hlast⟩ := begins_unit hunit
  rw [← List.append_nil last.text] at hlast
  obtain ⟨hlead, hnumber⟩ := begins_lead hlast
  obtain ⟨minute', hminute', hfull', -⟩ := begins_minute hnumber last.hour.decimal endsReading_nil
  exact ⟨⟨htail, hlead⟩, ⟨minute, hminute, hfull⟩, ⟨minute', hminute', hfull'⟩⟩

/-- A range of two hours with a unit between them has none before. -/
theorem hourToHour_hour (hfront : ∀ c ∈ front, isDecimal c = true)
    (h : Begins hourToHour (front ++ (first.rest ++ (first.tail.text ++ '-' :: last.text)))) :
    Adjoining first last ∧ first.minute = none ∧ last.SaysHour := by
  have hmark := begins_hour h hfront opens_hourMark fun c hc => plain_oneOf _ (by decide) hc
  obtain ⟨rest, heq, hrest⟩ := hmark.lit
  have hdash := hrest.drop readsOnly_blanks (opens_one ("-~–—".toList.contains ·)).seq
    fun c hc => (plain_oneOf _ (by decide) hc).2
  cases hm : first.minute with
  | none =>
      rw [ClockText.stem, hm] at heq
      obtain rfl : rest = first.tail.text ++ '-' :: last.text := (List.cons.inj heq).2.symm
      obtain ⟨htail, hlast⟩ := begins_dash hdash (fun c _ hc => hc) (fun c hc => hc) (by decide)
      obtain ⟨hlead, hhour⟩ := begins_last hlast
      exact ⟨⟨htail, hlead⟩, rfl, hhour⟩
  | some minute =>
      rw [ClockText.stem, hm] at heq
      obtain rfl : rest = minute.gap.text ++ (minute.number.digits ++
          (minute.unitText ++ (first.tail.text ++ '-' :: last.text))) := by
        simpa [MinuteText.text] using (List.cons.inj heq).2.symm
      obtain ⟨c, back, hdigits, hc⟩ := minute.number.head
      rw [hdigits, List.cons_append, dropWhile_append_cons minute.gap.blank (isSpace_of_isDecimal hc)] at hdash
      obtain ⟨d, more, heq, hd, -⟩ := hdash.tail
      obtain ⟨rfl, -⟩ := List.cons.inj heq
      exact absurd ((plain_oneOf _ (by decide) hd).1.symm.trans hc) Bool.false_ne_true

/-- No dash stands right behind an hour that has its unit. -/
theorem hourRange_hour (hfront : ∀ c ∈ front, isDecimal c = true) :
    ¬Begins hourRange (front ++ (first.rest ++ (first.tail.text ++ '-' :: last.text))) := by
  intro h
  have hdash := begins_hour h hfront (opens_one ("-~–—".toList.contains ·)).seq
    fun c hc => plain_oneOf _ (by decide) hc
  obtain ⟨c, rest, heq, hc, -⟩ := hdash.tail
  unfold ClockText.stem at heq
  cases hm : first.minute with
  | none =>
      rw [hm] at heq
      obtain ⟨rfl, -⟩ := List.cons.inj heq
      exact absurd hc (by decide)
  | some minute =>
      rw [hm] at heq
      obtain ⟨rfl, -⟩ := List.cons.inj heq
      rcases minute.mark_cases with hmark | hmark <;> rw [hmark] at hc <;> exact absurd hc (by decide)

/-- Behind the digits of the minutes comes a dash only where they have no unit. -/
theorem begins_minutes {index : Nat} {accepts : Char → Bool} (hfront : ∀ c ∈ front, isDecimal c = true)
    {more : Text} (h : Begins (seq (group index (digits 1 2)) (seq blanks r))
      (front ++ (minute.unitText ++ (first.tail.text ++ '-' :: more))))
    (hopens : Opens accepts r) (hplain : ∀ c, accepts c = true → c ∈ ":시-~–—".toList) :
    minute.unit = none ∧ Begins r ((first.tail.text ++ '-' :: more).dropWhile isSpace) := by
  have hnumber := h.number hfront (minute.isDecimal_follow first.tail (endsReading_dash more)) hopens
    fun c hc => plain_oneOf ":시-~–—" (by decide) (List.contains_iff_mem.mpr (hplain c hc))
  unfold MinuteText.unitText at hnumber
  cases hunit : minute.unit with
  | none =>
      rw [hunit] at hnumber
      exact ⟨rfl, hnumber⟩
  | some pad =>
      simp only [hunit] at hnumber
      rw [List.append_assoc, List.singleton_append, dropWhile_append_cons pad.blank (by decide)] at hnumber
      obtain ⟨c, rest, heq, hc⟩ := hnumber.head hopens
      obtain ⟨rfl, -⟩ := List.cons.inj heq
      exact absurd (hplain _ hc) (by decide)

/-- The minutes of the first reading may be taken for the hour of a range. -/
theorem hourRange_minute (hfront : ∀ c ∈ front, isDecimal c = true)
    (h : Begins hourRange (front ++ (minute.unitText ++ (first.tail.text ++ '-' :: last.text)))) :
    Adjoining first last ∧ minute.unit = none ∧ last.SaysHour := by
  obtain ⟨hunit, hdash⟩ := begins_minutes hfront h (opens_one ("-~–—".toList.contains ·)).seq
    fun c hc => by simp_all
  obtain ⟨htail, hlast⟩ := begins_dash hdash (fun c _ hc => hc) (fun c hc => hc) (by decide)
  obtain ⟨hlead, hhour⟩ := begins_last hlast
  exact ⟨⟨htail, hlead⟩, hunit, hhour⟩

/-- Nor is there another unit than that of the minutes. -/
theorem not_begins_minutes {index : Nat} {accepts : Char → Bool} {more : Text}
    (hfront : ∀ c ∈ front, isDecimal c = true) (hopens : Opens accepts r)
    (hplain : ∀ c, accepts c = true → c ∈ ":시".toList) :
    ¬Begins (seq (group index (digits 1 2)) (seq blanks r))
      (front ++ (minute.unitText ++ (first.tail.text ++ '-' :: more))) := by
  intro h
  have hdash : accepts '-' = false := by
    by_contra hc
    exact absurd (hplain '-' (Bool.not_eq_false _ ▸ hc)) (by decide)
  have hmarks : ":시".toList ⊆ ":시-~–—".toList := by decide
  obtain ⟨-, hrest⟩ := begins_minutes hfront h hopens fun c hc => hmarks (hplain c hc)
  obtain ⟨c, rest, heq, hc⟩ := hrest.head hopens
  have hhead := head_behind first.tail accepts isSpace (endsReading_dash more) (by decide)
    (fun c hc => isClockPart_of_oneOf ":시" (by decide)
      (List.contains_iff_mem.mpr (hplain c hc))) hdash
  rw [heq] at hhead
  exact Bool.false_ne_true (hhead.symm.trans hc)

theorem clockRange_minute (hfront : ∀ c ∈ front, isDecimal c = true) :
    ¬Begins clockRange (front ++ (minute.unitText ++ (first.tail.text ++ '-' :: last.text))) :=
  not_begins_minutes hfront (opens_one _).seq fun _ hc => List.contains_iff_mem.mp hc

theorem hourToHour_minute (hfront : ∀ c ∈ front, isDecimal c = true) :
    ¬Begins hourToHour (front ++ (minute.unitText ++ (first.tail.text ++ '-' :: last.text))) := by
  have hhour : "시".toList ⊆ ":시".toList := by decide
  exact not_begins_minutes hfront opens_hourMark fun _ hc => hhour (List.contains_iff_mem.mp hc)

theorem undashed_text (clock : ClockText) : ∀ c ∈ clock.text, "-~–—".toList.contains c = false := by
  have hwords (words : Words) : ∀ c ∈ words.text, "-~–—".toList.contains c = false :=
    words.not_mem fun c hc => isClockPart_of_oneOf _ (by decide) hc
  have hplain {c : Char} (hc : isDecimal c = true ∨ isSpace c = true) :
      "-~–—".toList.contains c = false := by
    by_contra hdash
    obtain ⟨hdecimal, hspace⟩ := plain_oneOf "-~–—" (by decide) (Bool.not_eq_false _ ▸ hdash)
    simp_all
  have hstem : ∀ c ∈ clock.stem, "-~–—".toList.contains c = false := by
    unfold ClockText.stem
    cases clock.minute with
    | none => decide
    | some minute =>
        intro c hc
        rcases List.mem_cons.mp hc with rfl | hc
        · rcases minute.mark_cases with hmark | hmark <;> rw [hmark] <;> decide
        · rcases List.mem_append.mp hc with hc | hc
          · exact hplain (.inr (minute.gap.blank c hc))
          · rcases List.mem_append.mp hc with hc | hc
            · exact hplain (.inl (minute.number.decimal c hc))
            · unfold MinuteText.unitText at hc
              split at hc
              · cases hc
              · rename_i pad _
                rcases List.mem_append.mp hc with hc | hc
                · exact hplain (.inr (pad.blank c hc))
                · rw [List.mem_singleton.mp hc]
                  decide
  intro c hc
  rcases List.mem_append.mp hc with hc | hc
  · exact hwords clock.lead c hc
  · rcases List.mem_append.mp hc with hc | hc
    · rcases List.mem_append.mp hc with hc | hc
      · exact hplain (.inl (clock.hour.decimal c hc))
      · rcases List.mem_append.mp hc with hc | hc
        · exact hplain (.inr (clock.space.blank c hc))
        · exact hstem c hc
    · exact hwords clock.tail c hc

section Passes

variable (hopens : Opens isDecimal r)

include hopens in
theorem passes_rest (hminute : ∀ minute ∈ first.minute, ∀ front : Text,
    (∀ c ∈ front, isDecimal c = true) →
      ¬Begins r (front ++ (minute.unitText ++ (first.tail.text ++ '-' :: last.text)))) :
    Passes r first.rest (first.tail.text ++ '-' :: last.text) := by
  refine .append (.of_opens hopens first.space.undigited) ?_
  unfold ClockText.stem
  cases hm : first.minute with
  | none => exact .of_opens hopens (by decide)
  | some minute =>
      have hgap : Undigited (minute.mark :: minute.gap.text) :=
        List.forall_mem_cons.mpr ⟨minute.isDecimal_mark, minute.gap.undigited⟩
      have hnumber : Passes r minute.number.digits
          (minute.unitText ++ (first.tail.text ++ '-' :: last.text)) :=
        .of_suffix minute.number.decimal fun front hfront _ => hminute minute hm front hfront
      have hall := Passes.append (.of_opens hopens hgap) (.append hnumber
        (.of_opens hopens minute.undigited_unitText))
      exact hall

include hopens in
theorem passes_end (hneeds : Needs ("-~–—".toList.contains ·) r) :
    Passes r (first.tail.text ++ '-' :: last.text) [] := by
  have hlast : Passes r last.text [] :=
    .of_needs hneeds (undashed_text last) fun c hc => absurd hc List.not_mem_nil
  exact .append (.of_opens hopens first.tail.undigited) (hlast.cons_opens hopens (by decide))

theorem slotText_eq : slotText first last = first.lead.text ++ (first.hour.digits ++
    (first.rest ++ (first.tail.text ++ '-' :: last.text))) := by
  simp [slotText, ClockText.text, ClockText.core]

include hopens in
theorem search_slot_eq_none (hneeds : Needs ("-~–—".toList.contains ·) r)
    (hhour : ∀ front : Text, (∀ c ∈ front, isDecimal c = true) →
      ¬Begins r (front ++ (first.rest ++ (first.tail.text ++ '-' :: last.text))))
    (hminute : ∀ minute ∈ first.minute, ∀ front : Text, (∀ c ∈ front, isDecimal c = true) →
      ¬Begins r (front ++ (minute.unitText ++ (first.tail.text ++ '-' :: last.text)))) :
    search r (slotText first last) = none := by
  have hnumber : Passes r first.hour.digits (first.rest ++ (first.tail.text ++ '-' :: last.text)) :=
    .of_suffix first.hour.decimal fun front hfront _ => hhour front hfront
  have hrest : Passes r (first.rest ++ (first.tail.text ++ '-' :: last.text)) [] :=
    .append (by rw [List.append_nil]; exact passes_rest hopens hminute) (passes_end hopens hneeds)
  have hcore : Passes r (first.hour.digits ++ (first.rest ++ (first.tail.text ++ '-' :: last.text))) [] :=
    .append (by rw [List.append_nil]; exact hnumber) hrest
  rw [slotText_eq]
  refine search_eq_none (.append (first.passes_lead hopens _) hcore) fun hnil => ?_
  obtain ⟨c, rest, heq, -⟩ := hnil.head hopens
  cases heq

end Passes

theorem needs_clockRange : Needs ("-~–—".toList.contains ·) clockRange :=
  (needs_one _).seq.seq.seq.seq.seq.seq.seq.seq

theorem needs_hourRange : Needs ("-~–—".toList.contains ·) hourRange := (needs_one _).seq.seq

theorem needs_hourToHour : Needs ("-~–—".toList.contains ·) hourToHour := (needs_one _).seq.seq.seq.seq

/-- Two readings with minutes, and no word between them. -/
def ClockPair (first last : ClockText) : Prop :=
  Adjoining first last ∧ first.FullMinutes ∧ last.FullMinutes

/-- Two bare hours; the second may have minutes that are not read. -/
def HourPair (first last : ClockText) : Prop :=
  Adjoining first last ∧ first.minute = none ∧ last.SaysHour

/-- The minutes of the first reading are taken for an hour. -/
def MinutePair (first last : ClockText) : Prop :=
  Adjoining first last ∧ (∃ minute, first.minute = some minute ∧ minute.unit = none) ∧ last.SaysHour

theorem search_clockRange_none (h : ¬ClockPair first last) :
    search clockRange (slotText first last) = none :=
  search_slot_eq_none ((opens_digits 0 2).group 1).seq needs_clockRange
    (fun _ hfront hbegins => h (clockRange_hour hfront hbegins))
    fun _ _ _ hfront => clockRange_minute hfront

theorem search_hourRange_none (h : ¬MinutePair first last) :
    search hourRange (slotText first last) = none :=
  search_slot_eq_none ((opens_digits 0 2).group 1).seq needs_hourRange
    (fun _ hfront => hourRange_hour hfront)
    fun minute hminute _ hfront hbegins => by
      obtain ⟨hadjoining, hunit, hhour⟩ := hourRange_minute hfront hbegins
      exact h ⟨hadjoining, ⟨minute, hminute, hunit⟩, hhour⟩

theorem search_hourToHour_none (h : ¬HourPair first last) :
    search hourToHour (slotText first last) = none :=
  search_slot_eq_none ((opens_digits 0 2).group 1).seq needs_hourToHour
    (fun _ hfront hbegins => h (hourToHour_hour hfront hbegins))
    fun _ _ _ hfront => hourToHour_minute hfront

end Ranges

/-! ### What the ranges find -/

section Found

variable {first last : ClockText} {minute : MinuteText} {r : Regex} {before text after : Text}
  {groups groups' : Groups}

theorem first_number (number : ShortNumber) (space : Blanks) {index : Nat} {c : Char}
    (hdecimal : isDecimal c = false) (hspace : isSpace c = false)
    (h : ∀ before, First r before (c :: text) after ((index, number.digits) :: groups) groups') :
    First (seq (group index (digits 1 2)) (seq blanks r)) before
      (number.digits ++ (space.text ++ c :: text)) after groups groups' := by
  refine ((number.first ?_).group index).seq ((first_blanks space.blank ?_).seq (h _))
  · rw [List.append_assoc]
    exact space.isDecimal_head hdecimal
  · exact hspace

theorem first_minute (number : ShortNumber) (space : Blanks) {i j : Nat} (hfull : minute.number.digits.length = 2)
    (h : ∀ before, First r before text after
      ((j, minute.number.digits) :: (i, number.digits) :: groups) groups') :
    First (seq (group i (digits 1 2)) (seq blanks (seq (oneOf ":시") (seq blanks
      (seq (group j (digits 2 2)) r))))) before
        (number.digits ++ (space.text ++ (minute.mark :: (minute.gap.text ++
          (minute.number.digits ++ text))))) after groups groups' := by
  refine first_number number space minute.isDecimal_mark minute.isSpace_mark fun before =>
    First.cons ((first_blanks minute.gap.blank ?_).seq
      (((first_times minute.number.decimal hfull.ge hfull.le (.inl hfull)).group j).seq (h _)))
        minute.oneOf_mark
  rw [List.append_assoc]
  exact minute.number.isSpace_head _

/-- Behind the minutes come their unit and blanks. -/
theorem first_unit {words : Words} (hwords : ∀ c ∈ words.text, isSpace c = true)
    (h : ∀ before, First r before ('-' :: text) after groups groups') :
    First (seq blanks (seq (opt (lit "분")) (seq blanks r))) before
      (minute.unitText ++ (words.text ++ '-' :: text)) after groups groups' := by
  have hdash : isSpace '-' = false := by decide
  unfold MinuteText.unitText
  split
  · refine (first_blanks hwords ?_).seq (((h _).no_blanks ?_).no_opt fun hunit => ?_)
    · exact hdash
    · exact hdash
    · obtain ⟨c, rest, heq, hc⟩ := hunit.head (opens_one _).seq
      obtain ⟨rfl, -⟩ := List.cons.inj heq
      exact absurd (of_decide_eq_true hc) (by decide)
  · rename_i pad _
    rw [List.append_assoc]
    refine (first_blanks pad.blank ?_).seq ((first_lit "분").opt.seq ((first_blanks hwords ?_).seq (h _)))
    · exact show isSpace '분' = false by decide
    · exact hdash

theorem first_end (minute : MinuteText) (words : Words) (groups : Groups) :
    ∃ text after, minute.unitText ++ words.text = text ++ after ∧
      ∀ before, First (all [blanks, opt (lit "분")]) before text after groups groups := by
  unfold MinuteText.unitText
  split
  case h_2 pad _ =>
    refine ⟨pad.text ++ (['분'] ++ []), words.text, rfl, fun before =>
      (first_blanks pad.blank ?_).seq ((first_lit "분").opt.seq first_empty)⟩
    exact show isSpace '분' = false by decide
  · refine ⟨words.text.takeWhile isSpace ++ [], words.text.dropWhile isSpace, ?_, fun before =>
      (first_blanks (fun c hc => List.mem_takeWhile_imp hc) ?_).seq
        (first_empty.no_opt fun hunit => ?_)⟩
    · rw [List.append_nil, List.takeWhile_append_dropWhile]
      rfl
    · have hstop := List.head?_dropWhile_not isSpace words.text
      cases hrest : words.text.dropWhile isSpace with
      | nil => rfl
      | cons c rest =>
          rw [hrest] at hstop
          exact hstop
    · obtain ⟨c, rest, heq, hc⟩ := hunit.head (opens_one _).seq
      have hmem := (List.dropWhile_sublist isSpace).mem (heq ▸ List.mem_cons_self)
      have hplain := words.plain c hmem
      rw [of_decide_eq_true hc] at hplain
      exact absurd hplain (by decide)

/-- What is found of two readings with minutes. -/
theorem search_clockRange {minute' : MinuteText} (hadjoining : Adjoining first last)
    (hminute : first.minute = some minute) (hminute' : last.minute = some minute')
    (hfull : minute.number.digits.length = 2) (hfull' : minute'.number.digits.length = 2) :
    ∃ hit, search clockRange (slotText first last) = some hit ∧
      hit.number 1 = first.hour.value ∧ hit.number 2 = minute.number.value ∧
        hit.number 3 = last.hour.value ∧ hit.number 4 = minute'.number.value := by
  obtain ⟨text, after, htext, hend⟩ := first_end minute' last.tail
    [(4, minute'.number.digits), (3, last.hour.digits), (2, minute.number.digits),
      (1, first.hour.digits)]
  have hfirst : First clockRange first.lead.text.reverse (first.hour.digits ++ (first.space.text ++
      (minute.mark :: (minute.gap.text ++ (minute.number.digits ++ (minute.unitText ++
        (first.tail.text ++ '-' :: (last.lead.text ++ (last.hour.digits ++ (last.space.text ++
          (minute'.mark :: (minute'.gap.text ++ (minute'.number.digits ++ text))))))))))))) after []
      [(4, minute'.number.digits), (3, last.hour.digits), (2, minute.number.digits),
        (1, first.hour.digits)] := by
    refine first_minute first.hour first.space hfull fun _ => first_unit hadjoining.1 fun _ =>
      First.cons ((first_blanks hadjoining.2 ?_).seq
        (first_minute last.hour last.space hfull' hend)) rfl
    rw [List.append_assoc]
    exact last.hour.isSpace_head _
  have hhit := hfirst.search (first.passes_lead ((opens_digits 0 2).group 1).seq _)
  have hslot : slotText first last = first.lead.text ++ ((first.hour.digits ++ (first.space.text ++
      (minute.mark :: (minute.gap.text ++ (minute.number.digits ++ (minute.unitText ++
        (first.tail.text ++ '-' :: (last.lead.text ++ (last.hour.digits ++ (last.space.text ++
          (minute'.mark :: (minute'.gap.text ++ (minute'.number.digits ++ text))))))))))))) ++ after) := by
    simp [slotText, ClockText.text, ClockText.core, ClockText.rest, ClockText.stem, hminute, hminute',
      MinuteText.text, ← htext]
  rw [hslot]
  exact ⟨_, hhit, rfl, rfl, rfl, rfl⟩

/-- The dash and the second hour. -/
theorem first_last (hlead : ∀ c ∈ last.lead.text, isSpace c = true) {index : Nat} :
    First (all [dash, blanks, group index (digits 1 2), blanks, lit "시"]) before
      (['-'] ++ (last.lead.text ++ (last.hour.digits ++ (last.space.text ++ (['시'] ++ []))))) after groups
        ((index, last.hour.digits) :: groups) := by
  refine (first_one rfl).seq ((first_blanks hlead ?_).seq (first_number last.hour last.space ?_ ?_
    fun _ => (first_lit "시").seq first_empty))
  · rw [List.append_assoc]
    exact last.hour.isSpace_head _
  · decide
  · decide

theorem stem_of_saysHour (h : last.SaysHour) : ∃ more, last.stem = '시' :: more := by
  unfold ClockText.stem
  cases hm : last.minute with
  | none => exact ⟨[], rfl⟩
  | some minute =>
      refine ⟨minute.gap.text ++ (minute.number.digits ++ minute.unitText), ?_⟩
      simp [MinuteText.text, MinuteText.mark, h minute hm]

/-- What is found of two bare hours. -/
theorem search_hourToHour (h : HourPair first last) :
    ∃ hit, search hourToHour (slotText first last) = some hit ∧
      hit.number 1 = first.hour.value ∧ hit.number 2 = last.hour.value := by
  obtain ⟨⟨htail, hlead⟩, hminute, hhour⟩ := h
  obtain ⟨more, hmore⟩ := stem_of_saysHour hhour
  have hstem : first.stem = ['시'] := by rw [ClockText.stem, hminute]
  have hfirst : First hourToHour first.lead.text.reverse (first.hour.digits ++ (first.space.text ++
      (['시'] ++ (first.tail.text ++ (['-'] ++ (last.lead.text ++ (last.hour.digits ++
        (last.space.text ++ (['시'] ++ []))))))))) (more ++ last.tail.text) []
          [(2, last.hour.digits), (1, first.hour.digits)] := by
    refine first_number first.hour first.space ?_ ?_ fun _ => (first_lit "시").seq
      ((first_blanks htail ?_).seq (first_last hlead))
    · decide
    · decide
    · exact show isSpace '-' = false by decide
  have hhit := hfirst.search (first.passes_lead ((opens_digits 0 2).group 1).seq _)
  have hslot : slotText first last = first.lead.text ++ ((first.hour.digits ++ (first.space.text ++
      (['시'] ++ (first.tail.text ++ (['-'] ++ (last.lead.text ++ (last.hour.digits ++
        (last.space.text ++ (['시'] ++ []))))))))) ++ (more ++ last.tail.text)) := by
    simp [slotText, ClockText.text, ClockText.core, ClockText.rest, hstem, hmore]
  rw [hslot]
  exact ⟨_, hhit, rfl, rfl⟩

/-- What is found where the minutes are taken for an hour. -/
theorem search_hourRange (hadjoining : Adjoining first last) (hminute : first.minute = some minute)
    (hunit : minute.unit = none) (hhour : last.SaysHour) :
    ∃ hit, search hourRange (slotText first last) = some hit ∧
      hit.number 1 = minute.number.value ∧ hit.number 2 = last.hour.value := by
  obtain ⟨htail, hlead⟩ := hadjoining
  obtain ⟨more, hmore⟩ := stem_of_saysHour hhour
  have hopens : Opens isDecimal hourRange := ((opens_digits 0 2).group 1).seq
  have hstem : first.stem = minute.mark :: (minute.gap.text ++ minute.number.digits) := by
    simp [ClockText.stem, hminute, MinuteText.text, MinuteText.unitText, hunit]
  let skipped : Text := first.lead.text ++ (first.hour.digits ++ (first.space.text ++
    minute.mark :: minute.gap.text))
  let text : Text := minute.number.digits ++ (first.tail.text ++ (['-'] ++ (last.lead.text ++
    (last.hour.digits ++ (last.space.text ++ (['시'] ++ []))))))
  have hslot : slotText first last = skipped ++ (text ++ (more ++ last.tail.text)) := by
    simp [slotText, ClockText.text, ClockText.core, ClockText.rest, hstem, hmore, skipped, text]
  have hfirst : First hourRange skipped.reverse text (more ++ last.tail.text) []
      [(2, last.hour.digits), (1, minute.number.digits)] := by
    refine ((minute.number.first ?_).group 1).seq ((first_blanks htail ?_).seq (first_last hlead))
    · have hfollow := minute.isDecimal_follow first.tail (endsReading_dash
        (last.lead.text ++ (last.hour.digits ++ (last.space.text ++ (['시'] ++ []))) ++
          (more ++ last.tail.text)))
      simpa [MinuteText.unitText, hunit] using hfollow
    · exact show isSpace '-' = false by decide
  have hskip : Passes hourRange skipped (text ++ (more ++ last.tail.text)) := by
    have hbehind : (first.space.text ++ minute.mark :: minute.gap.text) ++
        (text ++ (more ++ last.tail.text)) = first.rest ++ (first.tail.text ++ '-' :: last.text) := by
      simp [ClockText.text, ClockText.core, ClockText.rest, hstem, hmore, text]
    have hgap : Undigited (first.space.text ++ minute.mark :: minute.gap.text) :=
      List.forall_mem_append.mpr ⟨first.space.undigited,
        List.forall_mem_cons.mpr ⟨minute.isDecimal_mark, minute.gap.undigited⟩⟩
    refine .append (first.passes_lead hopens _) (.append ?_ (.of_opens hopens hgap))
    rw [hbehind]
    exact .of_suffix first.hour.decimal fun front hfront _ => hourRange_hour hfront
  rw [hslot]
  exact ⟨_, hfirst.search hskip, rfl, rfl⟩

end Found

/-! ### The range of two readings -/

section Slot

variable {p : Platform} {first last : ClockText}

/-- Two readings with minutes are read as they stand; a marker is not heeded. -/
theorem readTimeRange_clockPair (h : ClockPair first last) :
    readTimeRange p (slotText first last) false =
      some (⟨first.hour.value, first.minutes, false⟩, ⟨last.hour.value, last.minutes, false⟩) := by
  obtain ⟨hadjoining, ⟨minute, hminute, hfull⟩, minute', hminute', hfull'⟩ := h
  obtain ⟨hit, hhit, h1, h2, h3, h4⟩ := search_clockRange hadjoining hminute hminute' hfull hfull'
  simp [readTimeRange, hhit, h1, h2, h3, h4, ClockText.minutes, hminute, hminute']

/-- Minutes before the dash are an hour to the reader where the second reading is no pair to the first. -/
theorem readTimeRange_minutePair (hpair : ¬ClockPair first last) (h : MinutePair first last) :
    readTimeRange p (slotText first last) false =
      some (⟨first.minutes, 0, !hasAmMarker p (slotText first last)⟩,
        ⟨last.hour.value, 0, !hasAmMarker p (slotText first last)⟩) := by
  obtain ⟨hadjoining, ⟨minute, hminute, hunit⟩, hhour⟩ := h
  obtain ⟨hit, hhit, h1, h2⟩ := search_hourRange hadjoining hminute hunit hhour
  simp [readTimeRange, readHourRange, search_clockRange_none hpair, hhit, h1, h2, ClockText.minutes,
    hminute]

theorem readTimeRange_hourPair (h : HourPair first last) :
    readTimeRange p (slotText first last) false =
      some (⟨first.hour.value, 0, !hasAmMarker p (slotText first last)⟩,
        ⟨last.hour.value, 0, !hasAmMarker p (slotText first last)⟩) := by
  obtain ⟨hit, hhit, h1, h2⟩ := search_hourToHour h
  have hpair : ¬ClockPair first last := by
    rintro ⟨-, ⟨minute, hminute, -⟩, -⟩
    rw [h.2.1] at hminute
    cases hminute
  have hminutes : ¬MinutePair first last := by
    rintro ⟨-, ⟨minute, hminute, -⟩, -⟩
    rw [h.2.1] at hminute
    cases hminute
  simp [readTimeRange, readHourRange, search_clockRange_none hpair, search_hourRange_none hminutes,
    hhit, h1, h2]

theorem readTimeRange_eq_none (hclock : ¬ClockPair first last) (hminutes : ¬MinutePair first last)
    (hhours : ¬HourPair first last) : readTimeRange p (slotText first last) false = none := by
  simp [readTimeRange, readHourRange, search_clockRange_none hclock, search_hourRange_none hminutes,
    search_hourToHour_none hhours]

/-- A single reading is no range. -/
theorem readTimeRange_text (clock : ClockText) : readTimeRange p clock.text false = none := by
  have hsearch {r : Regex} (hneeds : Needs ("-~–—".toList.contains ·) r)
      (hopens : Opens isDecimal r) : search r clock.text = none := by
    refine search_eq_none (.of_needs hneeds (undashed_text clock) fun c hc =>
      absurd hc List.not_mem_nil) fun hnil => ?_
    obtain ⟨c, rest, heq, -⟩ := hnil.head hopens
    cases heq
  simp only [readTimeRange, readHourRange]
  rw [hsearch needs_clockRange ((opens_digits 0 2).group 1).seq,
    hsearch needs_hourRange ((opens_digits 0 2).group 1).seq,
    hsearch needs_hourToHour ((opens_digits 0 2).group 1).seq]
  rfl

end Slot

end ClassinDashboard

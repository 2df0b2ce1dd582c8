import ClassinDashboard.LinePrefix

/-!
The weekday lists and the n-th weeks of a line, as texts: what the patterns read, which of their
matches comes first, and what is left of a phrase that begins before a blank and ends behind it.
-/

namespace ClassinDashboard

open Py Py.Regex

def isHangul (c : Char) : Bool := '가' ≤ c && c ≤ '힣'

/-! ### Blanks around a mark -/

/-- Blanks, with a mark among them or without. -/
def Gap (mark : Char → Bool) (gap : Text) : Prop :=
  ∃ left middle right, gap = left ++ (middle ++ right) ∧ (∀ c ∈ left, isSpace c = true) ∧
    (middle = [] ∨ ∃ c, mark c = true ∧ middle = [c]) ∧ ∀ c ∈ right, isSpace c = true

/-- `\s*mark?\s*` -/
theorem reads_gap {mark : Char → Bool} {marked rest : Regex}
    (hmarked : ∀ before text after, Reads marked before text after ↔ ∃ c, mark c = true ∧ text = [c])
    {before text after : Text} :
    Reads (.seq blanks (.seq (opt marked) (.seq blanks rest))) before text after ↔
      ∃ gap last, text = gap ++ last ∧ Gap mark gap ∧ Reads rest (gap.reverse ++ before) last after := by
  constructor
  · rintro ⟨left, _, rfl, hleft, middle, _, rfl, hmiddle, right, last, rfl, hright, hlast⟩
    refine ⟨left ++ (middle ++ right), last, by simp, ⟨left, middle, right, rfl, reads_blanks.mp hleft,
      ?_, reads_blanks.mp hright⟩, by simpa using hlast⟩
    exact hmiddle.symm.imp id (hmarked _ _ _).mp
  · rintro ⟨_, last, rfl, ⟨left, middle, right, rfl, hleft, hmiddle, hright⟩, hlast⟩
    refine ⟨left, middle ++ (right ++ last), by simp, reads_blanks.mpr hleft, middle, right ++ last, rfl,
      ?_, right, last, rfl, reads_blanks.mpr hright, by simpa using hlast⟩
    exact hmiddle.symm.imp (hmarked _ _ _).mpr id

/-- What a gap is up to a blank in it is a gap. -/
theorem Gap.until_blank {mark : Char → Bool} (hmark : mark ' ' = false) {left right : Text}
    (h : Gap mark (left ++ ' ' :: right)) : Gap mark (left ++ [' ']) := by
  have hblanks {text : Text} (htext : ∀ c ∈ text, isSpace c = true) :
      ∀ c ∈ text ++ [' '], isSpace c = true := by
    intro c hc
    rcases List.mem_append.mp hc with hc | hc
    · exact htext c hc
    · rw [List.mem_singleton.mp hc]
      decide
  have hall {text : Text} (htext : ∀ c ∈ text, isSpace c = true) : Gap mark (text ++ [' ']) :=
    ⟨text ++ [' '], [], [], by simp, hblanks htext, .inl rfl, by simp⟩
  obtain ⟨first, middle, last, heq, hfirst, hmiddle, hlast⟩ := h
  rcases List.append_eq_append_iff.mp heq with ⟨more, rfl, -⟩ | ⟨more, rfl, hrest⟩
  · exact hall fun c hc => hfirst c (List.mem_append_left _ hc)
  · rcases hmiddle with rfl | ⟨d, hd, rfl⟩
    · rw [List.nil_append] at hrest
      refine hall fun c hc => (List.mem_append.mp hc).elim (hfirst c) fun hc => hlast c ?_
      rw [hrest]
      exact List.mem_append_left _ hc
    · cases more with
      | nil =>
          obtain ⟨rfl, -⟩ : d = ' ' ∧ last = right := List.cons.inj hrest
          rw [hmark] at hd
          cases hd
      | cons e more =>
          obtain ⟨rfl, hlast'⟩ : d = e ∧ last = more ++ ' ' :: right := List.cons.inj hrest
          refine ⟨first, [d], more ++ [' '], by simp, hfirst, .inr ⟨d, hd, rfl⟩, hblanks fun c hc => ?_⟩
          exact hlast c (hlast' ▸ List.mem_append_left _ hc)

/-! ### Weekday lists -/

def weekdayWord : Regex := all [one isWeekday, opt (lit "요일")]

def weekdayTokens : Regex :=
  all [weekdayWord, star (all [blanks, opt (oneOf "/,·、"), blanks, weekdayWord])]

theorem weekdayGroup_eq : weekdayGroup =
    all [notBehind isHangul, group 1 weekdayTokens, notHangulAhead] := rfl

def WeekdayWord (text : Text) : Prop := ∃ c, isWeekday c = true ∧ (text = [c] ∨ text = [c, '요', '일'])

/-- Further weekdays of a list. -/
inductive MoreWeekdays : Text → Prop
  | nil : MoreWeekdays []
  | cons {gap word rest : Text} : Gap ("/,·、".toList.contains ·) gap → WeekdayWord word →
      MoreWeekdays rest → MoreWeekdays (gap ++ (word ++ rest))

/-- Weekdays, with separators between them or not. -/
def Weekdays (text : Text) : Prop :=
  ∃ word more, text = word ++ more ∧ WeekdayWord word ∧ MoreWeekdays more

section Weekdays

variable {before text after : Text}

theorem reads_weekdayWord : Reads weekdayWord before text after ↔ WeekdayWord text := by
  constructor
  · rintro ⟨_, _, rfl, ⟨c, hc, rfl⟩, _, _, rfl, hday, rfl⟩
    refine ⟨c, hc, ?_⟩
    rcases reads_opt.mp hday with hday | rfl
    · rw [(reads_lit "요일").mp hday]
      exact .inr rfl
    · exact .inl rfl
  · rintro ⟨c, hc, rfl | rfl⟩
    · exact ⟨[c], [], rfl, ⟨c, hc, rfl⟩, [], [], rfl, .inr rfl, rfl⟩
    · exact ⟨[c], ['요', '일'], rfl, ⟨c, hc, rfl⟩, ['요', '일'], [], rfl,
        .inl ((reads_lit "요일").mpr rfl), rfl⟩

theorem reads_separated : Reads (all [blanks, opt (oneOf "/,·、"), blanks, weekdayWord]) before text after ↔
    ∃ gap word, text = gap ++ word ∧ Gap ("/,·、".toList.contains ·) gap ∧ WeekdayWord word := by
  have hgap : Reads (.seq blanks (.seq (opt (oneOf "/,·、")) (.seq blanks (all [weekdayWord])))) before
      text after ↔ _ := reads_gap fun _ _ _ => Iff.rfl
  refine hgap.trans ?_
  refine exists_congr fun gap => exists_congr fun word => and_congr_right fun _ => and_congr_right fun _ => ?_
  constructor
  · rintro ⟨_, _, rfl, hword, rfl⟩
    rw [List.append_nil]
    exact reads_weekdayWord.mp hword
  · exact fun h => ⟨word, [], (List.append_nil word).symm, reads_weekdayWord.mpr h, rfl⟩

theorem reads_moreWeekdays :
    Reads (star (all [blanks, opt (oneOf "/,·、"), blanks, weekdayWord])) before text after ↔
      MoreWeekdays text := by
  constructor
  · intro h
    induction h with
    | nil => exact .nil
    | cons _ hpiece _ ih =>
        obtain ⟨gap, word, rfl, hgap, hword⟩ := reads_separated.mp hpiece
        rw [List.append_assoc]
        exact .cons hgap hword ih
  · intro h
    induction h generalizing before with
    | nil => exact .nil _ _
    | @cons gap word rest hgap hword _ ih =>
        rw [← List.append_assoc]
        refine .cons ?_ (reads_separated.mpr ⟨gap, word, rfl, hgap, hword⟩) ih
        obtain ⟨c, -, rfl | rfl⟩ := hword <;> simp

theorem reads_weekdayTokens : Reads weekdayTokens before text after ↔ Weekdays text := by
  constructor
  · rintro ⟨word, _, rfl, hword, more, _, rfl, hmore, rfl⟩
    rw [List.append_nil]
    exact ⟨word, more, rfl, reads_weekdayWord.mp hword, reads_moreWeekdays.mp hmore⟩
  · rintro ⟨word, more, rfl, hword, hmore⟩
    exact ⟨word, more, rfl, reads_weekdayWord.mpr hword, more, [], (List.append_nil more).symm,
      reads_moreWeekdays.mpr hmore, rfl⟩

theorem reads_notHangulAhead : Reads notHangulAhead before text after ↔
    text = [] ∧ after.head?.any isHangul = false := by
  refine and_congr_right fun _ => ?_
  cases after with
  | nil => simp [hangul, Reads]
  | cons d after =>
      constructor
      · intro h
        by_contra hd
        exact h [d] after rfl ⟨d, by simpa [isHangul] using hd, rfl⟩
      · rintro h left right hleft ⟨c, hc, rfl⟩
        obtain ⟨rfl, -⟩ := List.cons.inj hleft
        exact Bool.false_ne_true (h.symm.trans hc)

theorem reads_weekdayGroup : Reads weekdayGroup before text after ↔
    before.head?.any isHangul = false ∧ Weekdays text ∧ after.head?.any isHangul = false := by
  rw [weekdayGroup_eq]
  constructor
  · rintro ⟨_, _, rfl, ⟨rfl, hbehind⟩, tokens, _, rfl, htokens, _, _, rfl, hahead, rfl⟩
    obtain ⟨rfl, hnone⟩ := reads_notHangulAhead.mp hahead
    simp only [List.append_nil, List.nil_append] at hnone htokens ⊢
    exact ⟨hbehind, reads_weekdayTokens.mp htokens, hnone⟩
  · rintro ⟨hbehind, hweekdays, hnone⟩
    exact ⟨[], text, rfl, ⟨rfl, hbehind⟩, text, [], (List.append_nil text).symm,
      reads_weekdayTokens.mpr hweekdays, [], [], rfl, reads_notHangulAhead.mpr ⟨rfl, hnone⟩, rfl⟩

/-- A token of weekdays is a list unless it is a single letter. -/
def isWeekdayList (token : Text) : Bool :=
  let letters := token.filter isWeekday
  let separated := (search (oneOf "/,·、") token).isSome || contains "요일".toList token
  !letters.isEmpty && (2 ≤ letters.length || separated)

theorem weekdayMatch_eq (text : Text) : weekdayMatch text =
    (findAll weekdayGroup text).find? fun hit => isWeekdayList ((hit.group 1).getD []) := rfl

theorem isWeekdayList_of_two {token : Text} (h : 2 ≤ (token.filter isWeekday).length) :
    isWeekdayList token = true := by
  have hne : (token.filter isWeekday).isEmpty = false := by
    rw [← Bool.not_eq_true, List.isEmpty_iff_length_eq_zero]
    omega
  simp [isWeekdayList, hne, h]

theorem length_weekdayWord {word : Text} (h : WeekdayWord word) :
    1 ≤ (word.filter isWeekday).length ∧ (word.length = 1 ∨ 2 ≤ (word.filter isWeekday).length) := by
  obtain ⟨c, hc, rfl | rfl⟩ := h
  · simp [hc]
  · have hlast : ['요', '일'].filter isWeekday = ['일'] := by decide
    rw [List.filter_cons_of_pos hc, hlast]
    simp

theorem isWeekdayList_iff {token : Text} (h : Weekdays token) :
    isWeekdayList token = true ↔ token.length ≠ 1 := by
  obtain ⟨word, more, rfl, hword, hmore⟩ := h
  obtain ⟨hletter, hword'⟩ := length_weekdayWord hword
  have hle := List.length_filter_le isWeekday word
  have hone : isWeekdayList (word ++ more) = true → (word ++ more).length ≠ 1 := by
    intro hlist hlength
    obtain ⟨d, hd⟩ := List.length_eq_one_iff.mp hlength
    obtain ⟨c, hc, hw⟩ := hword
    have hmem : c ∈ word ++ more := List.mem_append_left _ (by rcases hw with rfl | rfl <;> simp)
    rw [hd] at hmem hlist
    obtain rfl := List.mem_singleton.mp hmem
    have hsingle : ∀ letter ∈ weekdayChars, isWeekdayList [letter] = false := by decide
    rw [hsingle c (List.contains_iff_mem.mp hc)] at hlist
    cases hlist
  refine ⟨hone, fun hlength => isWeekdayList_of_two ?_⟩
  rw [List.filter_append, List.length_append]
  cases hmore with
  | nil =>
      rw [List.append_nil] at hlength
      have := hword'.resolve_left hlength
      omega
  | cons _ hnext _ =>
      have := (length_weekdayWord hnext).1
      simp only [List.filter_append, List.length_append]
      omega

/-- What the matches of the pattern hold. -/
theorem matchAt_weekdayGroup {hit : Match} (h : matchAt weekdayGroup ⟨before, text⟩ = some hit) :
    hit.group 1 = some hit.text ∧ Weekdays hit.text := by
  refine ⟨matchAt_guarded (weekdayGroup_eq ▸ h), ?_⟩
  exact (reads_weekdayGroup.mp (reads_of_matchAt h).2.2).2.1

/-- The first weekday list of a text is the first one of all its places. -/
theorem weekdayMatch_eq_firstAt (text : Text) : weekdayMatch text =
    firstAt (fun place => (matchAt weekdayGroup place).filter fun hit =>
      isWeekdayList ((hit.group 1).getD [])) [] text := by
  refine find?_findFrom (fun before text hit hhit hbad => ?_) (Nat.lt_succ_self _)
  obtain ⟨hgroup, hweekdays⟩ := matchAt_weekdayGroup hhit
  rw [hgroup, Option.getD_some] at hbad
  by_contra hlength
  exact Bool.false_ne_true (hbad.symm.trans ((isWeekdayList_iff hweekdays).mpr hlength))

/-- The single letter is what the matcher tries last. -/
theorem run_weekdayTokens (before text : Text) {c : Char} (hc : isWeekday c = true) (groups : Groups) :
    ∃ further, run weekdayTokens (⟨before, c :: text⟩, groups) =
        further ++ [(⟨c :: before, text⟩, groups)] ∧
      ∀ next ∈ further, next.1.after.length < text.length := by
  have hword : run weekdayWord (⟨before, c :: text⟩, groups) =
      run (lit "요일") (⟨c :: before, text⟩, groups) ++ [(⟨c :: before, text⟩, groups)] := by
    simp only [weekdayWord, all, List.foldr_cons, List.foldr_nil, run, hc, ↓reduceIte,
      List.flatMap_cons, List.flatMap_nil, List.append_nil, opt]
    rw [List.flatMap_singleton']
  have hrest (state : Cursor × Groups) : run (all [star (all [blanks, opt (oneOf "/,·、"), blanks,
      weekdayWord])]) state = iterate (run (all [blanks, opt (oneOf "/,·、"), blanks, weekdayWord]))
        state.1.after.length state := by
    simp only [all, List.foldr_cons, List.foldr_nil, run]
    rw [List.flatMap_singleton']
  obtain ⟨further, hfurther, hlt⟩ := iterate_last (run (all [blanks, opt (oneOf "/,·、"), blanks,
    weekdayWord])) text.length (⟨c :: before, text⟩, groups)
  refine ⟨(run (lit "요일") (⟨c :: before, text⟩, groups)).flatMap (run (all [star (all [blanks,
    opt (oneOf "/,·、"), blanks, weekdayWord])])) ++ further, ?_, fun next hnext => ?_⟩
  · rw [List.append_assoc, ← hfurther, ← hrest (⟨c :: before, text⟩, groups), ← List.flatMap_singleton
      (run (all [star (all [blanks, opt (oneOf "/,·、"), blanks, weekdayWord])])),
      ← List.flatMap_append, ← hword]
    rfl
  · rcases List.mem_append.mp hnext with hlong | hmore
    · obtain ⟨day, hday, hnext⟩ := List.mem_flatMap.mp hlong
      obtain ⟨word, after, htext, hat, hword⟩ := (reaches_run (lit "요일") _ day.1).mp ⟨day.2, hday⟩
      have hle := (reaches_run _ day).length_le hnext
      have hlength : day.1.after.length + 2 = text.length := by
        rw [show text = word ++ after from htext, hat, (reads_lit "요일").mp hword]
        simp [Cursor.past]
      omega
    · exact hlt next hmore

/-- Where the pattern can read more than a letter, its first match is a list. -/
theorem exists_weekdayList (token after : Text) (htext : text = token ++ after)
    (hreads : Reads weekdayGroup before token after) (hlength : token.length ≠ 1) :
    ∃ hit, matchAt weekdayGroup ⟨before, text⟩ = some hit ∧
      isWeekdayList ((hit.group 1).getD []) = true := by
  obtain ⟨hbehind, ⟨_, more, rfl, ⟨c, hc, hword⟩, -⟩, -⟩ := id (reads_weekdayGroup.mp hreads)
  obtain ⟨rest, hrest⟩ : ∃ rest, text = c :: rest := by
    rcases hword with rfl | rfl <;> exact ⟨_, htext⟩
  obtain ⟨further, hrun, hlt⟩ := run_weekdayTokens before rest hc []
  have hstates := run_guarded isHangul 1 weekdayTokens hangul ⟨before, text⟩ []
  rw [← notHangulAhead, ← weekdayGroup_eq, if_neg (by rw [hbehind]; decide), hrest, hrun, List.map_append,
    List.filter_append] at hstates
  obtain ⟨groups, hmem⟩ := (reaches_run weekdayGroup (⟨before, text⟩, []) _).mpr
    ⟨_, after, htext, rfl, hreads⟩
  rw [hrest, hstates, List.mem_append] at hmem
  -- the reading is no single letter, so that it is not the last state
  have hfurther := hmem.resolve_right fun hlast => by
    obtain ⟨next, hnext, heq⟩ := List.mem_map.mp (List.mem_filter.mp hlast).1
    obtain rfl := List.mem_singleton.mp hnext
    have hafter : rest = after := congrArg (fun state : Cursor × Groups => state.1.after) heq
    have := congrArg List.length (hrest.symm.trans htext)
    simp only [List.length_cons, List.length_append, hafter] at this hlength
    omega
  obtain ⟨stop, states, hcons⟩ := List.exists_cons_of_ne_nil (List.ne_nil_of_mem hfurther)
  have hstop := hcons.symm ▸ List.mem_cons_self (a := stop) (l := states)
  obtain ⟨next, hnext, rfl⟩ := List.mem_map.mp (List.mem_filter.mp hstop).1
  have hhit : ∃ hit, matchAt weekdayGroup ⟨before, text⟩ = some hit ∧ hit.after = next.1.after := by
    rw [matchAt, hrest, hstates, hcons]
    exact ⟨_, rfl, rfl⟩
  obtain ⟨hit, hhit, hafter⟩ := hhit
  obtain ⟨hgroup, hweekdays⟩ := matchAt_weekdayGroup hhit
  refine ⟨hit, hhit, ?_⟩
  rw [hgroup, Option.getD_some, isWeekdayList_iff hweekdays]
  have hlength' := congrArg List.length (hrest.symm.trans (reads_of_matchAt hhit).2.1)
  have := hlt next hnext
  simp only [List.length_cons, List.length_append, hafter] at hlength'
  omega

end Weekdays

/-! ### Phrases that a blank cuts -/

theorem blank_notMem_word {word : Text} (h : WeekdayWord word) : ' ' ∉ word := by
  obtain ⟨c, hc, hword⟩ := h
  have hne : c ≠ ' ' := by
    rintro rfl
    exact absurd hc (by decide)
  rcases hword with rfl | rfl <;> simp [hne.symm]

/-- Whatever weekday follows the blank, Monday could follow. -/
theorem MoreWeekdays.until_blank {text : Text} (h : MoreWeekdays text) {left right : Text}
    (htext : text = left ++ ' ' :: right) : MoreWeekdays (left ++ [' ', '월']) := by
  have hmonday : WeekdayWord ['월'] := ⟨'월', by decide, .inl rfl⟩
  induction h generalizing left with
  | nil => cases left <;> cases htext
  | @cons gap word rest hgap hword _ ih =>
      rcases List.append_eq_append_iff.mp htext with ⟨more, rfl, hmore⟩ | ⟨more, rfl, hmore⟩
      · obtain ⟨tail, rfl, rfl⟩ := split_at_char (blank_notMem_word hword) hmore.symm
        rw [List.append_assoc, List.append_assoc]
        exact .cons hgap hword (ih rfl)
      · cases more with
        | nil =>
            obtain ⟨tail, htail, rfl⟩ := split_at_char (blank_notMem_word hword)
              (show [] ++ ' ' :: right = word ++ rest from hmore)
            obtain ⟨rfl, -⟩ := List.append_eq_nil_iff.mp htail.symm
            obtain ⟨c, -, h | h⟩ := hword <;> cases h
        | cons d more =>
            obtain ⟨rfl, -⟩ : ' ' = d ∧ right = more ++ (word ++ rest) := List.cons.inj hmore
            rw [show left ++ [' ', '월'] = (left ++ [' ']) ++ (['월'] ++ []) by simp]
            exact .cons (hgap.until_blank (by decide)) hmonday .nil

theorem Weekdays.until_blank {left right : Text} (h : Weekdays (left ++ ' ' :: right)) :
    Weekdays (left ++ [' ', '월']) := by
  obtain ⟨word, more, heq, hword, hmore⟩ := h
  obtain ⟨rest, rfl, rfl⟩ := split_at_char (blank_notMem_word hword) heq
  exact ⟨word, rest ++ [' ', '월'], List.append_assoc _ _ _, hword, hmore.until_blank rfl⟩

theorem weekdaysIn_eq_nil_iff {text : Text} : weekdaysIn text = [] ↔ weekdayMatch text = none := by
  rw [weekdaysIn]
  cases hmatch : weekdayMatch text with
  | none => simp
  | some hit =>
      rw [weekdayMatch_eq] at hmatch
      have hlist := List.find?_some hmatch
      simp only [isWeekdayList, Bool.and_eq_true, Bool.not_eq_true', List.isEmpty_eq_false_iff] at hlist
      simp only [reduceCtorEq, iff_false]
      intro hnil
      have hperm := List.perm_insertionSort (· ≤ ·)
        (((((hit.group 1).getD []).filter isWeekday).map weekdayChars.idxOf).dedup)
      rw [hnil, List.nil_perm, List.dedup_eq_nil, List.map_eq_nil_iff] at hperm
      exact hlist.1 hperm

theorem not_hangul_of_isSpace {c : Char} (h : isSpace c = true) :
    isHangul c = false := by
  have htoNat : '가' ≤ c → 44032 ≤ c.toNat := id
  simp only [isSpace, inRanges, List.any_cons, List.any_nil, Bool.or_false, Bool.or_eq_true,
    Bool.and_eq_true, decide_eq_true_eq] at h
  by_contra hc
  simp only [isHangul, Bool.not_eq_false, Bool.and_eq_true, decide_eq_true_eq] at hc
  have := htoNat hc.1
  omega

/-- The places of a text before a blank and what follows it. -/
theorem split_head {head lead left right : Text} {c : Char} (hlead : ∀ d ∈ lead, isSpace d = true)
    (h : head ++ ' ' :: lead = left ++ c :: right) (hc : isSpace c = false) :
    ∃ rest, head = left ++ c :: rest ∧ right = rest ++ ' ' :: lead := by
  have hblank (hmem : c ∈ ' ' :: lead) : False := by
    rcases List.mem_cons.mp hmem with rfl | hmem
    · cases hc
    · rw [hlead c hmem] at hc
      cases hc
  rcases List.append_eq_append_iff.mp h with ⟨more, rfl, hmore⟩ | ⟨more, rfl, hmore⟩
  · exact (hblank (hmore ▸ List.mem_append_right _ List.mem_cons_self)).elim
  · cases more with
    | nil =>
        rw [List.nil_append] at hmore
        exact (hblank (hmore ▸ List.mem_cons_self)).elim
    | cons d more =>
        obtain ⟨rfl, rfl⟩ : c = d ∧ right = more ++ ' ' :: lead := List.cons.inj hmore
        exact ⟨more, rfl, rfl⟩

section Line

variable {head lead rest : Text}

/-- A list that begins in the head begins there when Monday follows. -/
theorem exists_weekdayList_monday {left right tail token after : Text} {c : Char}
    (htext : c :: (right ++ ' ' :: tail) = token ++ after)
    (hreads : Reads weekdayGroup left token after) (hlength : token.length ≠ 1) :
    ∃ hit, matchAt weekdayGroup ⟨left, c :: (right ++ [' ', '월'])⟩ = some hit ∧
      isWeekdayList ((hit.group 1).getD []) = true := by
  obtain ⟨hbehind, hweekdays, hahead⟩ := reads_weekdayGroup.mp hreads
  rw [← List.cons_append] at htext
  have hwithin (left' : Text) (hafter : after = left' ++ ' ' :: tail)
      (hword : c :: right = token ++ left') : ∃ hit,
        matchAt weekdayGroup ⟨left, c :: (right ++ [' ', '월'])⟩ = some hit ∧
          isWeekdayList ((hit.group 1).getD []) = true := by
    refine exists_weekdayList token (left' ++ [' ', '월']) ?_ ?_ hlength
    · rw [← List.cons_append, hword, List.append_assoc]
    · refine reads_weekdayGroup.mpr ⟨hbehind, hweekdays, ?_⟩
      rw [hafter] at hahead
      cases left' with
      | nil => exact hahead
      | cons d left' => exact hahead
  rcases List.append_eq_append_iff.mp htext with ⟨more, htoken, hmore⟩ | ⟨more, hword, hafter⟩
  · cases more with
    | nil =>
        refine hwithin [] ?_ ?_
        · simpa using hmore.symm
        · simpa using htoken.symm
    | cons d more =>
        obtain ⟨rfl, -⟩ : ' ' = d ∧ tail = more ++ after := List.cons.inj hmore
        refine exists_weekdayList (c :: right ++ [' ', '월']) [] (by simp) ?_ (by simp)
        exact reads_weekdayGroup.mpr ⟨hbehind, (htoken ▸ hweekdays).until_blank, rfl⟩
  · exact hwithin more hafter hword

/-- The head names no weekdays, not even with a weekday behind it: then the weekdays are those of the
rest. -/
theorem weekdaysIn_append (hhead : weekdaysIn (head ++ " 월".toList) = [])
    (hlead : ∀ c ∈ lead, isSpace c = true) :
    weekdaysIn (head ++ ' ' :: lead ++ rest) = weekdaysIn rest := by
  have hmatch : weekdayMatch (head ++ ' ' :: lead ++ rest) =
      (weekdayMatch rest).map (Match.behind (head ++ ' ' :: lead).reverse) := by
    rw [weekdayMatch_eq_firstAt, weekdayMatch_eq_firstAt]
    refine firstAt_append (fun left c right hsplit => ?_) (fun place => ?_)
    · rw [Option.eq_none_iff_forall_not_mem]
      intro hit hhit
      obtain ⟨hhit, hlist⟩ := Option.filter_eq_some_iff.mp hhit
      obtain ⟨hgroup, hweekdays⟩ := matchAt_weekdayGroup hhit
      rw [hgroup, Option.getD_some, isWeekdayList_iff hweekdays] at hlist
      obtain ⟨-, htext, hreads⟩ := reads_of_matchAt hhit
      have hc : isSpace c = false := by
        obtain ⟨word, more, hword, ⟨d, hd, hletter⟩, -⟩ := hweekdays
        have hspace : ∀ letter ∈ weekdayChars, isSpace letter = false := by decide
        have hcd : c = d := by
          rw [hword] at htext
          rcases hletter with rfl | rfl <;> exact (List.cons.inj htext).1
        exact hcd ▸ hspace d (List.contains_iff_mem.mp hd)
      obtain ⟨tail, rfl, rfl⟩ := split_head hlead hsplit hc
      rw [List.append_assoc, List.cons_append] at htext
      obtain ⟨monday, hmonday, hgood⟩ := exists_weekdayList_monday htext hreads hlist
      have hsome : (firstAt (fun place => (matchAt weekdayGroup place).filter fun hit =>
          isWeekdayList ((hit.group 1).getD [])) [] (left ++ c :: (tail ++ [' ', '월']))).isSome = true :=
        firstAt_isSome (Option.filter_eq_some_iff.mpr ⟨hmonday, hgood⟩)
      rw [← List.cons_append, ← List.append_assoc, ← weekdayMatch_eq_firstAt] at hsome
      rw [weekdaysIn_eq_nil_iff, show " 월".toList = [' ', '월'] from rfl] at hhead
      rw [hhead] at hsome
      cases hsome
    · have hlast : (head ++ ' ' :: lead).reverse.head?.any
          isHangul = false := by
        rw [List.reverse_append, List.reverse_cons]
        cases hreverse : lead.reverse with
        | nil => rfl
        | cons d more =>
            have hd := hlead d (List.mem_reverse.mp (hreverse ▸ List.mem_cons_self))
            exact not_hangul_of_isSpace hd
      have hblind : Blind (head ++ ' ' :: lead).reverse weekdayGroup :=
        ⟨hlast, blind_of_unanchored rfl _⟩
      rw [matchAt_behind hblind, Option.filter_map]
      rfl
  rw [weekdaysIn, weekdaysIn, hmatch]
  cases weekdayMatch rest <;> rfl

end Line

/-! ### The n-th week of a month -/

def weekWords : List Text := ["첫", "둘", "셋", "넷", "다섯"].map String.toList

/-- `첫째 주`, without the month. -/
def WeekPhrase (text : Text) : Prop :=
  ∃ word gap, text = word ++ (gap ++ ['주']) ∧ word ∈ weekWords ∧ Gap (· = '째') gap

theorem blank_notMem_weekWord {word : Text} (h : word ∈ weekWords) : ' ' ∉ word := by
  have hwords : ∀ word ∈ weekWords, ' ' ∉ word := by decide
  exact hwords word h

section WeekPhrases

variable {before text after : Text}

theorem reads_weekWord : Reads (any [lit "첫", lit "둘", lit "셋", lit "넷", lit "다섯"]) before text after ↔
    text ∈ weekWords := by
  simp [any, Reads, reads_lit, weekWords]

theorem reads_weekPhrase : Reads (all [group 2 (any [lit "첫", lit "둘", lit "셋", lit "넷", lit "다섯"]),
      blanks, opt (lit "째"), blanks, lit "주"]) before text after ↔ WeekPhrase text := by
  have hmark (before text after : Text) :
      Reads (lit "째") before text after ↔ ∃ c, decide (c = '째') = true ∧ text = [c] := by
    rw [reads_lit]
    simp
  constructor
  · rintro ⟨word, _, rfl, hword, hrest⟩
    obtain ⟨gap, last, rfl, hgap, _, _, rfl, hlast, rfl⟩ := (reads_gap hmark).mp hrest
    rw [(reads_lit "주").mp hlast]
    exact ⟨word, gap, by simp, reads_weekWord.mp hword, hgap⟩
  · rintro ⟨word, gap, rfl, hword, hgap⟩
    exact ⟨word, gap ++ ['주'], rfl, reads_weekWord.mpr hword, (reads_gap hmark).mpr
      ⟨gap, ['주'], rfl, hgap, ['주'], [], rfl, (reads_lit "주").mpr rfl, rfl⟩⟩

/-- Without a digit in front the month is left out. -/
theorem reads_nthWeek (h : text.head?.any isDecimal = false) :
    Reads nthWeek before text after ↔ WeekPhrase text := by
  have hphrase : Reads nthWeek before text after ↔ Reads (seq (opt (all [group 1 (digits 1 2), blanks,
      lit "월", blanks])) (all [group 2 (any [lit "첫", lit "둘", lit "셋", lit "넷", lit "다섯"]), blanks,
        opt (lit "째"), blanks, lit "주"])) before text after := Iff.rfl
  rw [hphrase]
  constructor
  · rintro ⟨month, phrase, rfl, hmonth, hread⟩
    rcases reads_opt.mp hmonth with hmonth | rfl
    · have hdigit : month.head?.any isDecimal = true :=
        ((opens_digits 0 2).group 1).seq _ _ _ hmonth
      cases month with
      | nil => cases hdigit
      | cons d month => exact absurd (h.symm.trans hdigit) Bool.false_ne_true
    · exact reads_weekPhrase.mp hread
  · exact fun h => ⟨[], text, rfl, .inr rfl, reads_weekPhrase.mpr h⟩

/-- Whatever phrase a blank cuts, a week could follow the blank. -/
theorem WeekPhrase.until_blank {left right : Text} (h : WeekPhrase (left ++ ' ' :: right)) :
    WeekPhrase (left ++ [' ', '주']) := by
  obtain ⟨word, gap, heq, hword, hgap⟩ := h
  obtain ⟨rest, rfl, hrest⟩ := split_at_char (blank_notMem_weekWord hword) heq
  have hmore : ∃ more, gap = rest ++ ' ' :: more := by
    rcases List.append_eq_append_iff.mp hrest with ⟨more, rfl, hmore⟩ | ⟨more, rfl, hmore⟩
    · cases more with
      | nil => cases hmore
      | cons d more =>
          cases more <;> cases hmore
    · cases more with
      | nil => cases hmore
      | cons d more =>
          obtain ⟨rfl, -⟩ : ' ' = d ∧ right = more ++ ['주'] := List.cons.inj hmore
          exact ⟨more, rfl⟩
  obtain ⟨more, rfl⟩ := hmore
  exact ⟨word, rest ++ [' '], by simp, hword, hgap.until_blank (by decide)⟩

end WeekPhrases

section Line

variable {head lead rest : Text}

/-- A phrase that begins in the head is one when a week follows. -/
theorem exists_weekPhrase_week {right tail token after : Text}
    (htext : right ++ ' ' :: tail = token ++ after) (hphrase : WeekPhrase token) :
    ∃ token after, right ++ [' ', '주'] = token ++ after ∧ WeekPhrase token := by
  rcases List.append_eq_append_iff.mp htext with ⟨more, rfl, hmore⟩ | ⟨more, rfl, -⟩
  · cases more with
    | nil =>
        rw [List.append_nil] at hphrase
        exact ⟨right, [' ', '주'], rfl, hphrase⟩
    | cons d more =>
        obtain ⟨rfl, -⟩ : ' ' = d ∧ tail = more ++ after := List.cons.inj hmore
        exact ⟨right ++ [' ', '주'], [], by simp, hphrase.until_blank⟩
  · exact ⟨token, more ++ [' ', '주'], List.append_assoc _ _ _, hphrase⟩

theorem undigited_line (hdigit : Undigited head) (hlead : ∀ c ∈ lead, isSpace c = true) :
    Undigited (head ++ ' ' :: lead) := by
  intro c hc
  rcases List.mem_append.mp hc with hc | hc
  · exact hdigit c hc
  · rcases List.mem_cons.mp hc with rfl | hc
    · decide
    · exact isDecimal_of_isSpace (hlead c hc)

/-- The head names no n-th week, not even with a week behind it: then the week is that of the rest. -/
theorem search_nthWeek_append (hdigit : Undigited head)
    (hhead : search nthWeek (head ++ " 주".toList) = none) (hlead : ∀ c ∈ lead, isSpace c = true) :
    search nthWeek (head ++ ' ' :: lead ++ rest) =
      (search nthWeek rest).map (Match.behind (head ++ ' ' :: lead).reverse) := by
  refine search_append (fun left c right hsplit => ?_) (blind_of_unanchored rfl _)
  rw [matchAt_eq_none_iff]
  intro token after htext hreads
  have hc : isDecimal c = false := by
    refine undigited_line hdigit hlead c ?_
    rw [hsplit]
    exact List.mem_append_right _ List.mem_cons_self
  have hfirst {token after rest : Text} (htext : c :: rest = token ++ after) :
      token.head?.any isDecimal = false := by
    cases token with
    | nil => rfl
    | cons d token =>
        obtain ⟨rfl, -⟩ : c = d ∧ rest = token ++ after := List.cons.inj htext
        exact hc
  have hphrase := (reads_nthWeek (hfirst htext)).mp hreads
  have hblank : isSpace c = false := by
    obtain ⟨word, gap, rfl, hword, -⟩ := hphrase
    have hwords : ∀ word ∈ weekWords, word.head?.any isSpace = false ∧ word ≠ [] := by decide
    obtain ⟨hspace, hne⟩ := hwords word hword
    cases word with
    | nil => exact absurd rfl hne
    | cons d word =>
        obtain ⟨rfl, -⟩ : c = d ∧ _ := List.cons.inj htext
        exact hspace
  obtain ⟨tail, rfl, rfl⟩ := split_head hlead hsplit hblank
  rw [List.append_assoc, List.cons_append, ← List.cons_append] at htext
  obtain ⟨token', after', htext', hphrase'⟩ := exists_weekPhrase_week htext hphrase
  have hsome : (matchAt nthWeek ⟨left.reverse ++ [], c :: tail ++ [' ', '주']⟩).isSome = true :=
    matchAt_isSome_iff.mpr ⟨token', after', htext', (reads_nthWeek (hfirst htext')).mpr hphrase'⟩
  obtain ⟨hit, hhit⟩ := Option.isSome_iff_exists.mp hsome
  have hfound := firstAt_isSome hhit
  rw [← List.append_assoc, ← searchFrom_eq_firstAt] at hfound
  have hnone : searchFrom nthWeek [] (left ++ c :: tail ++ [' ', '주']) = none := hhead
  rw [hnone] at hfound
  cases hfound

/-- A phrase in a text is one whatever follows. -/
theorem search_nthWeek_isSome {text : Text} (hdigit : Undigited text)
    (h : (search nthWeek text).isSome = true) (more : Text) :
    (search nthWeek (text ++ more)).isSome = true := by
  obtain ⟨hit, hhit⟩ := Option.isSome_iff_exists.mp h
  obtain ⟨skipped, -, htext, hreads⟩ := text_of_searchFrom hhit
  have hfirst : hit.text.head?.any isDecimal = false := by
    cases hword : hit.text with
    | nil => rfl
    | cons d word =>
        refine hdigit d ?_
        rw [htext, hword]
        simp
  have hsome : (matchAt nthWeek ⟨skipped.reverse ++ [], hit.text ++ (hit.after ++ more)⟩).isSome = true :=
    matchAt_isSome_iff.mpr ⟨hit.text, hit.after ++ more, rfl,
      (reads_nthWeek hfirst).mpr ((reads_nthWeek hfirst).mp hreads)⟩
  obtain ⟨hit', hhit'⟩ := Option.isSome_iff_exists.mp hsome
  have hfound := firstAt_isSome hhit'
  rw [← searchFrom_eq_firstAt] at hfound
  rw [htext, search, List.append_assoc, List.append_assoc]
  exact hfound

/-! ### The head of a line -/

/-- `숙제` and `과제` -/
def homeworkWords : List Text := ["숙제", "과제"].map String.toList

theorem isHomeworkLine_iff {line : Text} : isHomeworkLine line = true ↔
    ∃ word ∈ homeworkWords, ∃ after, line = word ++ after ∧ after.head?.any isHangul = false := by
  rw [isHomeworkLine, matchPrefix, matchAt_isSome_iff]
  have hwords (before text after : Text) :
      Reads (any [lit "숙제", lit "과제"]) before text after ↔ text ∈ homeworkWords := by
    simp [any, Reads, reads_lit, homeworkWords]
  constructor
  · rintro ⟨_, after, rfl, _, _, rfl, ⟨rfl, -⟩, word, _, rfl, hword, _, _, rfl, hahead, rfl⟩
    obtain ⟨rfl, hnone⟩ := reads_notHangulAhead.mp hahead
    exact ⟨word, (hwords _ _ _).mp hword, after, by simp, by simpa using hnone⟩
  · rintro ⟨word, hword, after, rfl, hnone⟩
    exact ⟨word, after, rfl, [], word, rfl, ⟨rfl, rfl⟩, word, [], (List.append_nil word).symm,
      (hwords _ _ _).mpr hword, [], [], rfl, reads_notHangulAhead.mpr ⟨rfl, hnone⟩, rfl⟩

/-- Whether a line is homework is up to its first word. -/
theorem isHomeworkLine_append (left right : Text) :
    isHomeworkLine (left ++ ' ' :: right) = isHomeworkLine left := by
  have hblank : ∀ word ∈ homeworkWords, ' ' ∉ word := by decide
  have hahead (rest : Text) : (rest ++ ' ' :: right).head?.any isHangul = rest.head?.any isHangul := by
    cases rest with
    | nil => exact (by decide : isHangul ' ' = false)
    | cons c rest => rfl
  rw [Bool.eq_iff_iff, isHomeworkLine_iff, isHomeworkLine_iff]
  constructor
  · rintro ⟨word, hword, after, htext, hnone⟩
    obtain ⟨rest, rfl, rfl⟩ := split_at_char (hblank word hword) htext
    exact ⟨word, hword, rest, rfl, hahead rest ▸ hnone⟩
  · rintro ⟨word, hword, rest, rfl, hnone⟩
    exact ⟨word, hword, rest ++ ' ' :: right, List.append_assoc _ _ _, (hahead rest).trans hnone⟩

end Line

end ClassinDashboard

import ClassinDashboard.PyRegex

/-!
What a pattern reads, apart from the order in which the matcher tries it, and what of the text around
it has no part in that: the text before a place, and a stretch in which no match begins.
-/

namespace Py

/-- The place after a text. -/
def Cursor.past (before text after : List Char) : Cursor := ⟨text.reverse ++ before, after⟩

/-- The same place of a text that has more before it. -/
def Cursor.behind (more : List Char) (place : Cursor) : Cursor := ⟨place.before ++ more, place.after⟩

/-- The same match of a text that has more before it. -/
def Match.behind (more : List Char) (hit : Match) : Match := { hit with before := hit.before ++ more }

namespace Regex

/-! ### The texts of a pattern -/

/-- A text cut into pieces, none of which is empty. -/
inductive Pieces (reads : List Char → List Char → List Char → Prop) :
    List Char → List Char → List Char → Prop
  | nil (before after : List Char) : Pieces reads before [] after
  | cons {before piece rest after : List Char} : piece ≠ [] → reads before piece (rest ++ after) →
      Pieces reads (piece.reverse ++ before) rest after → Pieces reads before (piece ++ rest) after

/-- The pattern can read the text, between what lies before it, nearest first, and what lies after. -/
def Reads : Regex → List Char → List Char → List Char → Prop
  | one accepts, _, text, _ => ∃ c, accepts c = true ∧ text = [c]
  | empty, _, text, _ => text = []
  | seq first second, before, text, after => ∃ left right, text = left ++ right ∧
      Reads first before left (right ++ after) ∧ Reads second (left.reverse ++ before) right after
  | alt first second, before, text, after => Reads first before text after ∨ Reads second before text after
  | star body, before, text, after => Pieces (Reads body) before text after
  | group _ body, before, text, after => Reads body before text after
  | notAhead body, before, text, after =>
      text = [] ∧ ∀ left right, after = left ++ right → ¬Reads body before left right
  | notBehind accepts, before, text, _ => text = [] ∧ before.head?.any accepts = false
  | start, before, text, _ => text = [] ∧ before = []

/-- What a list of states reaches from a place: the ends of the texts that it reads there. -/
def Reaches (reads : List Char → List Char → List Char → Prop) (place : Cursor)
    (states : List (Cursor × Groups)) : Prop :=
  ∀ stop, (∃ groups, (stop, groups) ∈ states) ↔ ∃ text after, place.after = text ++ after ∧
    stop = Cursor.past place.before text after ∧ reads place.before text after

theorem Reaches.length_le {reads : List Char → List Char → List Char → Prop} {place : Cursor}
    {states : List (Cursor × Groups)} (h : Reaches reads place states) {state : Cursor × Groups}
    (hstate : state ∈ states) : state.1.after.length ≤ place.after.length := by
  obtain ⟨text, after, hafter, hstop, -⟩ := (h state.1).mp ⟨state.2, hstate⟩
  rw [hafter, hstop, Cursor.past, List.length_append]
  exact Nat.le_add_left _ _

theorem reaches_iterate {reads : List Char → List Char → List Char → Prop}
    {step : Cursor × Groups → List (Cursor × Groups)}
    (hstep : ∀ state, Reaches reads state.1 (step state)) :
    ∀ (fuel : Nat) (state : Cursor × Groups), state.1.after.length ≤ fuel →
      Reaches (Pieces reads) state.1 (iterate step fuel state) := by
  intro fuel
  induction fuel with
  | zero =>
      intro state hfuel stop
      have hnil : state.1.after = [] := List.eq_nil_of_length_eq_zero (Nat.le_zero.mp hfuel)
      constructor
      · rintro ⟨groups, hmem⟩
        cases List.mem_singleton.mp hmem
        exact ⟨[], stop.after, rfl, rfl, .nil _ _⟩
      · rintro ⟨text, after, hafter, rfl, -⟩
        obtain ⟨rfl, -⟩ := List.append_eq_nil_iff.mp (hafter.symm.trans hnil)
        exact ⟨state.2, List.mem_singleton.mpr (by rw [← show _ = after from hafter]; rfl)⟩
  | succ fuel ih =>
      intro state hfuel stop
      simp only [iterate, List.mem_append, List.mem_flatMap, List.mem_filter, decide_eq_true_eq,
        List.mem_singleton]
      constructor
      · rintro ⟨groups, ⟨next, ⟨hnext, hlt⟩, hmem⟩ | hself⟩
        · obtain ⟨piece, rest, hpiece, hat, hreads⟩ := (hstep state next.1).mp ⟨next.2, hnext⟩
          obtain ⟨text, after, hafter, hstop, hpieces⟩ := (ih next (by omega) stop).mp ⟨groups, hmem⟩
          rw [hat] at hafter hstop hpieces hlt
          obtain rfl : _ = text ++ after := hafter
          refine ⟨piece ++ text, after, by rw [hpiece, List.append_assoc], ?_, .cons ?_ hreads hpieces⟩
          · simp [hstop, Cursor.past]
          · rintro rfl
            simp [hpiece, Cursor.past] at hlt
        · obtain ⟨rfl, rfl⟩ := hself
          exact ⟨[], _, rfl, rfl, .nil _ _⟩
      · rintro ⟨text, after, hafter, rfl, hpieces⟩
        cases hpieces with
        | nil =>
            refine ⟨state.2, .inr ?_⟩
            rw [List.nil_append] at hafter
            simp [Cursor.past, ← hafter]
        | @cons _ piece rest _ hne hreads hrest =>
            obtain ⟨groups, hnext⟩ := (hstep state (Cursor.past state.1.before piece (rest ++ after))).mpr
              ⟨piece, rest ++ after, by rw [hafter, List.append_assoc], rfl, hreads⟩
            have hpos := List.length_pos_iff.mpr hne
            have hlength : (rest ++ after).length < state.1.after.length := by
              simp only [hafter, List.length_append]
              omega
            obtain ⟨groups', hmem⟩ := (ih ⟨Cursor.past state.1.before piece (rest ++ after), groups⟩
              (by simp only [Cursor.past]; omega) _).mpr ⟨rest, after, rfl, rfl, hrest⟩
            refine ⟨groups', .inl ⟨_, ⟨hnext, hlength⟩, ?_⟩⟩
            simpa [Cursor.past] using hmem

theorem reaches_one (accepts : Char → Bool) (state : Cursor × Groups) :
    Reaches (Reads (one accepts)) state.1 (run (one accepts) state) := by
  obtain ⟨⟨before, after⟩, groups⟩ := state
  intro stop
  cases after with
  | nil =>
      simp only [run, List.not_mem_nil, exists_false, Reads, false_iff]
      rintro ⟨text, after, hafter, -, c, -, rfl⟩
      cases hafter
  | cons d rest =>
      by_cases hd : accepts d = true
      · simp only [run, hd, ↓reduceIte, List.mem_singleton, Reads]
        constructor
        · rintro ⟨groups', heq⟩
          cases heq
          exact ⟨[d], rest, rfl, rfl, d, hd, rfl⟩
        · rintro ⟨text, after, hafter, rfl, c, -, rfl⟩
          cases hafter
          exact ⟨groups, rfl⟩
      · simp only [run, hd, Bool.false_eq_true, ↓reduceIte, List.not_mem_nil, exists_false, Reads,
          false_iff]
        rintro ⟨text, after, hafter, -, c, hc, rfl⟩
        cases hafter
        exact hd hc

theorem reaches_seq {first second : Regex}
    (hfirst : ∀ state : Cursor × Groups, Reaches (Reads first) state.1 (run first state))
    (hsecond : ∀ state : Cursor × Groups, Reaches (Reads second) state.1 (run second state))
    (state : Cursor × Groups) :
    Reaches (Reads (seq first second)) state.1 (run (seq first second) state) := by
  obtain ⟨place, groups⟩ := state
  intro stop
  simp only [run, List.mem_flatMap, Reads]
  constructor
  · rintro ⟨groups', middle, hmiddle, hstop⟩
    obtain ⟨left, rest, hrest, hat, hleft⟩ := (hfirst ⟨place, groups⟩ middle.1).mp ⟨_, hmiddle⟩
    obtain ⟨right, after, hafter, rfl, hright⟩ := (hsecond middle stop).mp ⟨_, hstop⟩
    rw [hat] at hafter hright ⊢
    obtain rfl : rest = right ++ after := hafter
    exact ⟨left ++ right, after, by rw [hrest, List.append_assoc], by simp [Cursor.past],
      left, right, rfl, hleft, hright⟩
  · rintro ⟨text, after, hafter, rfl, left, right, rfl, hleft, hright⟩
    obtain ⟨groups', hmiddle⟩ := (hfirst ⟨place, groups⟩
      (Cursor.past place.before left (right ++ after))).mpr
        ⟨left, right ++ after, by rw [hafter, List.append_assoc], rfl, hleft⟩
    obtain ⟨groups'', hstop⟩ := (hsecond ⟨Cursor.past place.before left (right ++ after), groups'⟩
      _).mpr ⟨right, after, rfl, rfl, hright⟩
    exact ⟨groups'', _, hmiddle, by simpa [Cursor.past] using hstop⟩

/-- What reads nothing stays at its place where it holds, and goes nowhere else. -/
theorem reaches_here {reads : List Char → List Char → List Char → Prop} {state : Cursor × Groups}
    {states : List (Cursor × Groups)} {holds : Prop}
    (hreads : ∀ text after, state.1.after = text ++ after →
      (reads state.1.before text after ↔ text = [] ∧ holds))
    (hstates : ∀ stop, stop ∈ states ↔ stop = state ∧ holds) : Reaches reads state.1 states := by
  intro stop
  constructor
  · rintro ⟨groups, hmem⟩
    obtain ⟨rfl, hholds⟩ := (hstates _).mp hmem
    exact ⟨[], stop.after, rfl, rfl, (hreads [] stop.after rfl).mpr ⟨rfl, hholds⟩⟩
  · rintro ⟨text, after, hafter, rfl, h⟩
    obtain ⟨rfl, hholds⟩ := (hreads text after hafter).mp h
    have hplace : Cursor.past state.1.before [] after = state.1 := by
      rw [← show state.1.after = after from hafter]
      rfl
    rw [hplace]
    exact ⟨state.2, (hstates state).mpr ⟨rfl, hholds⟩⟩

/-- The matcher stops where a text ends that the pattern reads. -/
theorem reaches_run (r : Regex) : ∀ state : Cursor × Groups, Reaches (Reads r) state.1 (run r state) := by
  induction r with
  | one accepts => exact reaches_one accepts
  | empty =>
      intro state
      refine reaches_here (fun text after _ => (and_iff_left trivial).symm) fun stop => ?_
      rw [run, List.mem_singleton, and_true]
  | seq first second ihfirst ihsecond => exact reaches_seq ihfirst ihsecond
  | alt first second ihfirst ihsecond =>
      rintro ⟨place, groups⟩ stop
      simp only [run, List.mem_append, exists_or, Reads, and_or_left]
      exact or_congr (ihfirst _ stop) (ihsecond _ stop)
  | star body ih =>
      rintro ⟨place, groups⟩
      exact reaches_iterate ih _ _ le_rfl
  | group index body ih =>
      rintro ⟨place, groups⟩ stop
      rw [show Reads (group index body) = Reads body from rfl, ← ih ⟨place, groups⟩ stop]
      simp only [run, List.mem_map]
      constructor
      · rintro ⟨groups', next, hnext, heq⟩
        cases heq
        exact ⟨next.2, hnext⟩
      · rintro ⟨groups', hnext⟩
        exact ⟨_, _, hnext, rfl⟩
  | notAhead body ih =>
      intro state
      have hfails : (run body state).isEmpty = true ↔
          ∀ left right, state.1.after = left ++ right → ¬Reads body state.1.before left right := by
        rw [List.isEmpty_iff, List.eq_nil_iff_forall_not_mem]
        constructor
        · intro h left right hafter hreads
          obtain ⟨groups', hmem⟩ := (ih state (Cursor.past state.1.before left right)).mpr
            ⟨left, right, hafter, rfl, hreads⟩
          exact h _ hmem
        · intro h next hmem
          obtain ⟨left, right, hafter, -, hreads⟩ := (ih state next.1).mp ⟨_, hmem⟩
          exact h left right hafter hreads
      have hstates (stop : Cursor × Groups) : stop ∈ run (notAhead body) state ↔
          stop = state ∧ (run body state).isEmpty = true := by
        rw [run, List.mem_ite_nil_right, List.mem_singleton, and_comm]
      refine reaches_here (fun text after hafter => and_congr_right fun hnil => ?_) hstates
      rw [hfails, hafter, hnil, List.nil_append]
  | notBehind accepts =>
      intro state
      refine reaches_here (fun text after _ => Iff.rfl) fun stop => ?_
      rw [run, List.mem_ite_nil_left, List.mem_singleton, Bool.not_eq_true, and_comm]
  | start =>
      intro state
      refine reaches_here (fun text after _ => Iff.rfl) fun stop => ?_
      rw [run, List.mem_ite_nil_right, List.mem_singleton, List.isEmpty_iff, and_comm]

/-! ### Texts of the notation -/

theorem reads_blanks {before text after : List Char} :
    Reads blanks before text after ↔ ∀ c ∈ text, isSpace c = true := by
  constructor
  · intro h
    induction h with
    | nil => exact fun c hc => absurd hc List.not_mem_nil
    | cons _ hpiece _ ih =>
        obtain ⟨c, hc, rfl⟩ := hpiece
        exact List.forall_mem_cons.mpr ⟨hc, ih⟩
  · intro h
    induction text generalizing before with
    | nil => exact .nil _ _
    | cons c text ih =>
        obtain ⟨hc, htext⟩ := List.forall_mem_cons.mp h
        exact .cons (List.cons_ne_nil c []) ⟨c, hc, rfl⟩ (ih htext)

theorem reads_lit {before after : List Char} (part : String) {text : List Char} :
    Reads (lit part) before text after ↔ text = part.toList := by
  rw [lit]
  generalize part.toList = chars
  induction chars generalizing before text with
  | nil => rfl
  | cons c chars ih =>
      constructor
      · rintro ⟨left, right, rfl, ⟨d, hd, rfl⟩, hright⟩
        rw [of_decide_eq_true hd, ih.mp hright]
        rfl
      · rintro rfl
        exact ⟨[c], chars, rfl, ⟨c, decide_eq_true rfl, rfl⟩, ih.mpr rfl⟩

theorem reads_opt {r : Regex} {before text after : List Char} :
    Reads (opt r) before text after ↔ Reads r before text after ∨ text = [] := Iff.rfl

/-! ### Matches -/

theorem between_past (before text after after' : List Char) :
    between ⟨before, after⟩ (Cursor.past before text after') = text := by
  simp only [between, Cursor.past, List.length_append, List.length_reverse, Nat.add_sub_cancel_right]
  rw [List.take_left' (List.length_reverse), List.reverse_reverse]

variable {r : Regex} {before text : List Char} {hit : Match}

/-- A match is a text that the pattern reads. -/
theorem reads_of_matchAt (h : matchAt r ⟨before, text⟩ = some hit) :
    hit.before = before ∧ text = hit.text ++ hit.after ∧ Reads r before hit.text hit.after := by
  obtain ⟨stop, hstop, rfl⟩ := Option.map_eq_some_iff.mp h
  obtain ⟨text', after, hafter, hpast, hreads⟩ := (reaches_run r (⟨before, text⟩, []) stop.1).mp
    ⟨stop.2, List.mem_of_mem_head? hstop⟩
  simp only [hpast, between_past]
  exact ⟨trivial, hafter, hreads⟩

theorem matchAt_eq_none_iff : matchAt r ⟨before, text⟩ = none ↔
    ∀ left right, text = left ++ right → ¬Reads r before left right := by
  rw [matchAt, Option.map_eq_none_iff, List.head?_eq_none_iff, List.eq_nil_iff_forall_not_mem]
  constructor
  · intro h left right htext hreads
    obtain ⟨groups, hmem⟩ := (reaches_run r (⟨before, text⟩, []) (Cursor.past before left right)).mpr
      ⟨left, right, htext, rfl, hreads⟩
    exact h _ hmem
  · intro h stop hmem
    obtain ⟨left, right, htext, -, hreads⟩ := (reaches_run r (⟨before, text⟩, []) stop.1).mp ⟨_, hmem⟩
    exact h left right htext hreads

theorem matchAt_isSome_iff : (matchAt r ⟨before, text⟩).isSome = true ↔
    ∃ left right, text = left ++ right ∧ Reads r before left right := by
  rw [Option.isSome_iff_ne_none, ne_eq, matchAt_eq_none_iff]
  push Not
  rfl

/-! ### The order of matches -/

section Iterate

variable {step : Cursor × Groups → List (Cursor × Groups)}

theorem length_le_of_mem_iterate {fuel : Nat} {state stop : Cursor × Groups}
    (h : stop ∈ iterate step fuel state) : stop.1.after.length ≤ state.1.after.length := by
  induction fuel generalizing state with
  | zero => rw [List.mem_singleton.mp h]
  | succ fuel ih =>
      rcases List.mem_append.mp h with hfurther | hself
      · obtain ⟨next, hnext, hstop⟩ := List.mem_flatMap.mp hfurther
        exact (ih hstop).trans (of_decide_eq_true (List.mem_filter.mp hnext).2).le
      · rw [List.mem_singleton.mp hself]

/-- A greedy loop tries last what it has without going on, and all before that is further. -/
theorem iterate_last (step : Cursor × Groups → List (Cursor × Groups)) (fuel : Nat)
    (state : Cursor × Groups) : ∃ further, iterate step fuel state = further ++ [state] ∧
      ∀ next ∈ further, next.1.after.length < state.1.after.length := by
  cases fuel with
  | zero => exact ⟨[], rfl, by simp⟩
  | succ fuel =>
      refine ⟨_, rfl, fun stop hstop => ?_⟩
      obtain ⟨next, hnext, hstop⟩ := List.mem_flatMap.mp hstop
      exact (length_le_of_mem_iterate hstop).trans_lt (of_decide_eq_true (List.mem_filter.mp hnext).2)

end Iterate

/-- A group between two looks at the text around it. -/
theorem run_guarded (behind : Char → Bool) (index : Nat) (body ahead : Regex) (place : Cursor)
    (groups : Groups) :
    run (all [notBehind behind, group index body, notAhead ahead]) (place, groups) =
      if place.before.head?.any behind then []
      else ((run body (place, groups)).map fun stop =>
        (stop.1, (index, between place stop.1) :: stop.2)).filter fun stop => (run ahead stop).isEmpty := by
  have hfilter (states : List (Cursor × Groups)) : (states.flatMap fun state =>
      (if (run ahead state).isEmpty then [state] else []).flatMap fun state => [state]) =
        states.filter fun state => (run ahead state).isEmpty := by
    induction states with
    | nil => rfl
    | cons state states ih =>
        rw [List.flatMap_cons, ih, List.filter_cons]
        split <;> rfl
  simp only [all, List.foldr_cons, List.foldr_nil, run]
  split
  · rfl
  · rw [List.flatMap_singleton]
    exact hfilter _

theorem matchAt_guarded {behind : Char → Bool} {index : Nat} {body ahead : Regex} {before text : List Char}
    {hit : Match} (h : matchAt (all [notBehind behind, group index body, notAhead ahead])
      ⟨before, text⟩ = some hit) : hit.group index = some hit.text := by
  obtain ⟨stop, hstop, rfl⟩ := Option.map_eq_some_iff.mp h
  rw [run_guarded] at hstop
  split at hstop
  · cases hstop
  · obtain ⟨next, -, rfl⟩ := List.mem_map.mp (List.mem_filter.mp (List.mem_of_mem_head? hstop)).1
    simp [Match.group]

/-! ### The text before a place -/

/-- The pattern does not notice whether anything lies before the place, or this. -/
def Blind (behind : List Char) : Regex → Prop
  | one _ | empty => True
  | seq first second | alt first second => Blind behind first ∧ Blind behind second
  | star body | group _ body | notAhead body => Blind behind body
  | notBehind accepts => behind.head?.any accepts = false
  | start => behind = []

def behindState (more : List Char) (state : Cursor × Groups) : Cursor × Groups :=
  (state.1.behind more, state.2)

theorem between_behind (more : List Char) (first last : Cursor) :
    between (first.behind more) (last.behind more) = between first last := by
  simp only [between, Cursor.behind, List.length_append, Nat.add_sub_add_right]
  rw [List.take_append_of_le_length (Nat.sub_le _ _)]

theorem iterate_behind (more : List Char) {step : Cursor × Groups → List (Cursor × Groups)}
    (hstep : ∀ state, step (behindState more state) = (step state).map (behindState more)) :
    ∀ (fuel : Nat) (state : Cursor × Groups),
      iterate step fuel (behindState more state) = (iterate step fuel state).map (behindState more) := by
  intro fuel
  induction fuel with
  | zero => exact fun state => rfl
  | succ fuel ih =>
      intro state
      rw [iterate, iterate, hstep, List.map_append, List.filter_map, List.flatMap_map, List.map_flatMap]
      simp only [ih]
      rfl

theorem run_behind {more : List Char} (hblind : Blind more r) (state : Cursor × Groups) :
    run r (behindState more state) = (run r state).map (behindState more) := by
  induction r generalizing state with
  | one accepts =>
      obtain ⟨⟨before, after⟩, groups⟩ := state
      cases after with
      | nil => simp only [run, behindState, Cursor.behind, List.map_nil]
      | cons c rest =>
          simp only [run, behindState, Cursor.behind]
          split <;> simp [behindState, Cursor.behind]
  | empty => rfl
  | seq first second ihfirst ihsecond =>
      simp only [run]
      rw [ihfirst hblind.1, List.flatMap_map, List.map_flatMap]
      simp only [ihsecond hblind.2]
  | alt first second ihfirst ihsecond =>
      simp only [run]
      rw [ihfirst hblind.1, ihsecond hblind.2, List.map_append]
  | star body ih =>
      simp only [run]
      exact iterate_behind more (fun next => ih hblind next) _ _
  | group index body ih =>
      simp only [run]
      rw [ih hblind, List.map_map, List.map_map]
      exact congrArg (List.map · _) (funext fun next => by
        simp only [Function.comp_apply, behindState, between_behind])
  | notAhead body ih =>
      simp only [run]
      rw [ih hblind, List.isEmpty_map]
      split <;> rfl
  | notBehind accepts =>
      have hsame : (behindState more state).1.before.head?.any accepts =
          state.1.before.head?.any accepts := by
        obtain ⟨⟨before, after⟩, groups⟩ := state
        cases before with
        | nil => exact hblind
        | cons c before => rfl
      simp only [run]
      rw [hsame]
      split <;> rfl
  | start =>
      obtain rfl : more = [] := hblind
      have hsame : behindState [] = id := by
        funext state
        simp only [behindState, Cursor.behind, List.append_nil, id]
      rw [hsame, List.map_id, id]


theorem matchAt_behind {more : List Char} (hblind : Blind more r) (place : Cursor) :
    matchAt r (place.behind more) = (matchAt r place).map (Match.behind more) := by
  have hrun := run_behind hblind (place, [])
  rw [behindState] at hrun
  rw [matchAt, matchAt, hrun, List.head?_map, Option.map_map, Option.map_map]
  refine congrArg (Option.map · _) (funext fun stop => ?_)
  simp only [Function.comp_apply, behindState, between_behind, Match.behind]
  rfl

/-! ### The first place -/

/-- What is found at the place or at the first one after it. -/
def firstAt (find : Cursor → Option Match) (before : List Char) : List Char → Option Match
  | [] => find ⟨before, []⟩
  | c :: rest => (find ⟨before, c :: rest⟩).or (firstAt find (c :: before) rest)

theorem searchFrom_eq_firstAt (r : Regex) (before text : List Char) :
    searchFrom r before text = firstAt (matchAt r) before text := by
  induction text generalizing before with
  | nil => rfl
  | cons c text ih => rw [searchFrom, firstAt, ih]

/-- Nothing is found in the first text, when the second follows. -/
def Skips (find : Cursor → Option Match) (before skipped text : List Char) : Prop :=
  ∀ left c right, skipped = left ++ c :: right → find ⟨left.reverse ++ before, c :: (right ++ text)⟩ = none

section FirstAt

variable {find : Cursor → Option Match} {more skipped : List Char}

theorem firstAt_behind (h : ∀ place, find (place.behind more) = (find place).map (Match.behind more))
    (before text : List Char) :
    firstAt find (before ++ more) text = (firstAt find before text).map (Match.behind more) := by
  induction text generalizing before with
  | nil => exact h ⟨before, []⟩
  | cons c text ih =>
      have hhere : find ⟨before ++ more, c :: text⟩ =
          (find ⟨before, c :: text⟩).map (Match.behind more) := h ⟨before, _⟩
      rw [firstAt, firstAt, hhere, ← List.cons_append, ih, Option.map_or]

theorem firstAt_skip (h : Skips find before skipped text) :
    firstAt find before (skipped ++ text) = firstAt find (skipped.reverse ++ before) text := by
  induction skipped generalizing before with
  | nil => rfl
  | cons c skipped ih =>
      have hhere : find ⟨before, c :: (skipped ++ text)⟩ = none := h [] c skipped rfl
      rw [List.cons_append, firstAt, hhere, Option.none_or, ih, List.reverse_cons, List.append_assoc]
      · rfl
      · intro left d right hskipped
        have := h (c :: left) d right (by rw [hskipped, List.cons_append])
        rwa [List.reverse_cons, List.append_assoc] at this

/-- What is first behind a stretch in which nothing is found does not notice it. -/
theorem firstAt_append (hskip : Skips find [] skipped text)
    (hbehind : ∀ place, find (place.behind skipped.reverse) =
      (find place).map (Match.behind skipped.reverse)) :
    firstAt find [] (skipped ++ text) = (firstAt find [] text).map (Match.behind skipped.reverse) := by
  rw [firstAt_skip hskip, List.append_nil, ← firstAt_behind hbehind [] text, List.nil_append]

theorem firstAt_isSome {before : List Char} {left right : List Char} {hit : Match}
    (h : find ⟨left.reverse ++ before, right⟩ = some hit) :
    (firstAt find before (left ++ right)).isSome = true := by
  induction left generalizing before with
  | nil =>
      cases right <;> simp_all [firstAt]
  | cons c left ih =>
      rw [List.reverse_cons, List.append_assoc] at h
      have hlater : (firstAt find (c :: before) (left ++ right)).isSome = true := ih h
      rw [List.cons_append, firstAt, Option.isSome_or, hlater, Bool.or_true]

end FirstAt

theorem search_append {skipped : List Char} (hskip : Skips (matchAt r) [] skipped text)
    (hblind : Blind skipped.reverse r) :
    search r (skipped ++ text) = (search r text).map (Match.behind skipped.reverse) := by
  rw [search, search, searchFrom_eq_firstAt, searchFrom_eq_firstAt]
  exact firstAt_append hskip (matchAt_behind hblind)

/-- Every text of the pattern begins with a character of the class. -/
def Opens (accepts : Char → Bool) (r : Regex) : Prop :=
  ∀ before text after, Reads r before text after → text.head?.any accepts = true

theorem opens_one (accepts : Char → Bool) : Opens accepts (one accepts) := by
  rintro before text after ⟨c, hc, rfl⟩
  exact hc

theorem Opens.seq {accepts : Char → Bool} {first second : Regex} (h : Opens accepts first) :
    Opens accepts (seq first second) := by
  rintro before text after ⟨left, right, rfl, hleft, -⟩
  have hhead := h _ _ _ hleft
  cases left with
  | nil => cases hhead
  | cons c left => exact hhead

theorem Opens.notBehind_seq {accepts class' : Char → Bool} (h : Opens accepts r) :
    Opens accepts (Regex.seq (notBehind class') r) := by
  rintro before text after ⟨left, right, rfl, ⟨rfl, -⟩, hright⟩
  exact h _ _ _ hright

theorem Opens.group {accepts : Char → Bool} (h : Opens accepts r) (index : Nat) :
    Opens accepts (group index r) := h

theorem Opens.skips {accepts : Char → Bool} (h : Opens accepts r) {skipped : List Char}
    (hskipped : ∀ c ∈ skipped, accepts c = false) : Skips (matchAt r) before skipped text := by
  rintro left c right rfl
  rw [matchAt_eq_none_iff]
  intro first last htext hreads
  have hhead := h _ _ _ hreads
  cases first with
  | nil => cases hhead
  | cons d first =>
      obtain ⟨rfl, -⟩ := List.cons.inj htext
      have hc : accepts c = true := hhead
      rw [hskipped c (List.mem_append_right _ List.mem_cons_self)] at hc
      cases hc

/-! ### The first good match -/

/-- Where every match that is not good is one character long, the first good one is the first good
one of all places. -/
theorem find?_findFrom {good : Match → Bool} (hshort : ∀ before text hit,
    matchAt r ⟨before, text⟩ = some hit → good hit = false → hit.text.length = 1)
    {fuel : Nat} {before text : List Char} (hfuel : text.length < fuel) :
    (findFrom r fuel ⟨before, text⟩).find? good =
      firstAt (fun place => (matchAt r place).filter good) before text := by
  induction text generalizing fuel before with
  | nil =>
      cases fuel with
      | zero => cases hfuel
      | succ fuel =>
          rw [findFrom, firstAt, searchFrom]
          cases hhit : matchAt r ⟨before, []⟩ with
          | none => rfl
          | some hit =>
              have hgood : good hit = true := by
                by_contra hbad
                have hlength := hshort _ _ _ hhit (Bool.eq_false_iff.mpr hbad)
                have htext := (reads_of_matchAt hhit).2.1
                rw [(List.append_eq_nil_iff.mp htext.symm).1] at hlength
                cases hlength
              simp [hgood, Option.filter]
  | cons c text ih =>
      cases fuel with
      | zero => cases hfuel
      | succ fuel =>
          have hfuel : text.length < fuel := Nat.lt_of_succ_lt_succ hfuel
          rw [firstAt]
          cases hhit : matchAt r ⟨before, c :: text⟩ with
          | none =>
              have hnext : findFrom r (fuel + 1) ⟨before, c :: text⟩ =
                  findFrom r (fuel + 1) ⟨c :: before, text⟩ := by
                simp only [findFrom, searchFrom, hhit, Option.none_or]
              rw [hnext, ih (Nat.lt_succ_of_lt hfuel), Option.filter_none, Option.none_or]
          | some hit =>
              have hfind : findFrom r (fuel + 1) ⟨before, c :: text⟩ =
                  hit :: findFrom r fuel ⟨hit.text.reverse ++ hit.before, hit.after⟩ := by
                simp only [findFrom, searchFrom, hhit, Option.some_or]
              rw [hfind, List.find?_cons, Option.filter_some]
              cases hgood : good hit with
              | true => simp
              | false =>
                  -- a match that is not good takes one character, as no match does
                  obtain ⟨hbefore, htext, -⟩ := reads_of_matchAt hhit
                  obtain ⟨d, hd⟩ := List.length_eq_one_iff.mp (hshort _ _ _ hhit hgood)
                  rw [hd] at htext ⊢
                  obtain ⟨rfl, rfl⟩ : c = d ∧ text = hit.after := List.cons.inj htext
                  simp [hbefore, ih hfuel]

/-! ### Replacing -/

/-- Where a search finds a match. -/
theorem text_of_searchFrom (h : searchFrom r before text = some hit) : ∃ skipped,
    hit.before = skipped.reverse ++ before ∧ text = skipped ++ (hit.text ++ hit.after) ∧
      Reads r hit.before hit.text hit.after := by
  have hhere {before text : List Char} (h : matchAt r ⟨before, text⟩ = some hit) : ∃ skipped,
      hit.before = skipped.reverse ++ before ∧ text = skipped ++ (hit.text ++ hit.after) ∧
        Reads r hit.before hit.text hit.after := by
    obtain ⟨hbefore, htext, hreads⟩ := reads_of_matchAt h
    exact ⟨[], hbefore, htext, hbefore ▸ hreads⟩
  induction text generalizing before with
  | nil => exact hhere h
  | cons c text ih =>
      rw [searchFrom, Option.or_eq_some_iff] at h
      rcases h with h | ⟨-, h⟩
      · exact hhere h
      · obtain ⟨skipped, hbefore, htext, hreads⟩ := ih h
        exact ⟨c :: skipped, by simp [hbefore], by rw [htext, List.cons_append], hreads⟩

theorem substFrom_behind {more replacement : List Char} (hblind : Blind more r) (fuel : Nat)
    (place : Cursor) :
    substFrom r replacement fuel (place.behind more) = substFrom r replacement fuel place := by
  induction fuel generalizing place with
  | zero => rfl
  | succ fuel ih =>
      have hsearch : searchFrom r (place.behind more).before (place.behind more).after =
          (searchFrom r place.before place.after).map (Match.behind more) := by
        rw [searchFrom_eq_firstAt, searchFrom_eq_firstAt]
        exact firstAt_behind (matchAt_behind hblind) _ _
      rw [substFrom, substFrom, hsearch]
      cases searchFrom r place.before place.after with
      | none => rfl
      | some hit =>
          have hrest : substFrom r replacement fuel
              ⟨hit.text.reverse ++ (hit.before ++ more), hit.after⟩ =
                substFrom r replacement fuel ⟨hit.text.reverse ++ hit.before, hit.after⟩ := by
            rw [← List.append_assoc]
            exact ih ⟨_, _⟩
          simp only [Option.map_some, Match.behind, Cursor.behind, List.length_append,
            Nat.add_sub_add_right]
          rw [hrest, List.take_append_of_le_length (Nat.sub_le _ _)]

theorem substFrom_skip {skipped replacement : List Char} (h : Skips (matchAt r) before skipped text)
    (fuel : Nat) :
    substFrom r replacement fuel ⟨before, skipped ++ text⟩ =
      skipped ++ substFrom r replacement fuel ⟨skipped.reverse ++ before, text⟩ := by
  cases fuel with
  | zero => rfl
  | succ fuel =>
      rw [substFrom, substFrom]
      simp only [searchFrom_eq_firstAt, firstAt_skip h]
      simp only [← searchFrom_eq_firstAt]
      cases hhit : searchFrom r (skipped.reverse ++ before) text with
      | none => rfl
      | some hit =>
          obtain ⟨later, hbefore, -, -⟩ := text_of_searchFrom hhit
          have htake (front back : List Char) :
              (front ++ back).take ((front ++ back).length - back.length) = front := by
            rw [List.length_append, Nat.add_sub_cancel_right, List.take_left]
          simp only [hbefore]
          rw [htake, ← List.append_assoc, htake]
          simp

/-- Room for one more match than the text has characters is enough. -/
theorem substFrom_fuel {replacement : List Char} (hne : ∀ before after, ¬Reads r before [] after)
    {fuel fuel' : Nat} {place : Cursor} (hfuel : place.after.length < fuel)
    (hfuel' : place.after.length < fuel') :
    substFrom r replacement fuel place = substFrom r replacement fuel' place := by
  induction fuel generalizing fuel' place with
  | zero => cases hfuel
  | succ fuel ih =>
      obtain ⟨fuel', rfl⟩ := Nat.exists_eq_add_of_lt (Nat.zero_lt_of_lt hfuel')
      rw [Nat.zero_add] at hfuel' ⊢
      rw [substFrom, substFrom]
      cases hhit : searchFrom r place.before place.after with
      | none => rfl
      | some hit =>
          obtain ⟨skipped, -, htext, hreads⟩ := text_of_searchFrom hhit
          have hpos : 0 < hit.text.length := by
            rw [List.length_pos_iff]
            intro hnil
            exact hne _ _ (hnil ▸ hreads)
          have hlength : place.after.length = skipped.length + (hit.text.length + hit.after.length) := by
            rw [htext, List.length_append, List.length_append]
          simp only
          rw [ih (show hit.after.length < fuel by omega) (show hit.after.length < fuel' by omega)]

theorem Opens.not_nil {accepts : Char → Bool} (h : Opens accepts r) (before after : List Char) :
    ¬Reads r before [] after := by
  intro hreads
  cases h _ _ _ hreads

/-- A stretch without a match stays in front of what is replaced behind it. -/
theorem subst_append {skipped replacement : List Char} (hskip : Skips (matchAt r) [] skipped text)
    (hblind : Blind skipped.reverse r) (hne : ∀ before after, ¬Reads r before [] after) :
    subst r replacement (skipped ++ text) = skipped ++ subst r replacement text := by
  have hbehind : substFrom r replacement (text.length + 1) (Cursor.behind skipped.reverse ⟨[], text⟩) =
      substFrom r replacement (text.length + 1) ⟨[], text⟩ := substFrom_behind hblind _ _
  rw [subst, substFrom_skip hskip, List.append_nil, subst, ← hbehind]
  congr 1
  exact substFrom_fuel hne (by simp only [List.length_append]; omega) (Nat.lt_succ_self _)

end Regex
end Py

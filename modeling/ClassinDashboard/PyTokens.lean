import ClassinDashboard.PyReads

/-!
Patterns taken token by token. Where the next token rejects the characters of a token, the token takes
all it can, so that a text which the pattern can begin with is taken apart from the front. Where the
first try of each token is right, the tries make up the match.
-/

namespace Py.Regex

variable {r first second : Regex} {accepts reads : Char → Bool} {before text after : List Char}

/-! ### What a text begins with -/

/-- The text begins with a text of the pattern. -/
def Begins (r : Regex) (text : List Char) : Prop :=
  ∃ before left right, text = left ++ right ∧ Reads r before left right

/-- The texts of the pattern have characters of the class only. -/
def ReadsOnly (reads : Char → Bool) (r : Regex) : Prop :=
  ∀ before text after, Reads r before text after → ∀ c ∈ text, reads c = true

theorem readsOnly_one (accepts : Char → Bool) : ReadsOnly accepts (one accepts) := by
  rintro before text after ⟨c, hc, rfl⟩ d hd
  rw [List.mem_singleton.mp hd]
  exact hc

theorem readsOnly_empty (reads : Char → Bool) : ReadsOnly reads empty := by
  rintro before text after rfl c hc
  cases hc

theorem readsOnly_blanks : ReadsOnly isSpace blanks := fun _ _ _ h => reads_blanks.mp h

theorem ReadsOnly.seq (hfirst : ReadsOnly reads first) (hsecond : ReadsOnly reads second) :
    ReadsOnly reads (seq first second) := by
  rintro before text after ⟨left, right, rfl, hleft, hright⟩ c hc
  rcases List.mem_append.mp hc with hc | hc
  · exact hfirst _ _ _ hleft c hc
  · exact hsecond _ _ _ hright c hc

theorem ReadsOnly.opt (h : ReadsOnly reads r) : ReadsOnly reads (opt r) := by
  rintro before text after (hreads | rfl) c hc
  · exact h _ _ _ hreads c hc
  · cases hc

theorem ReadsOnly.mono {wider : Char → Bool} (h : ReadsOnly reads r)
    (hwider : ∀ c, reads c = true → wider c = true) : ReadsOnly wider r :=
  fun before text after hreads c hc => hwider c (h before text after hreads c hc)

theorem readsOnly_all {parts : List Regex} (h : ∀ part ∈ parts, ReadsOnly reads part) :
    ReadsOnly reads (all parts) := by
  induction parts with
  | nil => exact readsOnly_empty reads
  | cons part parts ih =>
      obtain ⟨hpart, hparts⟩ := List.forall_mem_cons.mp h
      exact hpart.seq (ih hparts)

theorem readsOnly_times (h : ReadsOnly reads r) (min max : Nat) : ReadsOnly reads (times r min max) := by
  have hloop (count : Nat) : ReadsOnly reads ((List.replicate count r).foldr
      (fun first rest => Regex.opt (Regex.seq first rest)) empty) := by
    induction count with
    | zero => exact readsOnly_empty reads
    | succ count ih => exact (h.seq ih).opt
  refine readsOnly_all fun part hpart => ?_
  rcases List.mem_append.mp hpart with hpart | hpart
  · rw [List.eq_of_mem_replicate hpart]
    exact h
  · rw [List.mem_singleton.mp hpart]
    exact hloop _

theorem readsOnly_digits (min max : Nat) : ReadsOnly isDecimal (digits min max) :=
  readsOnly_times (readsOnly_one isDecimal) min max

theorem Opens.behind (hsecond : Opens accepts second) (hfirst : ReadsOnly reads first) :
    Opens (fun c => reads c || accepts c) (Regex.seq first second) := by
  rintro before text after ⟨left, right, rfl, hleft, hright⟩
  cases left with
  | nil =>
      have hhead := hsecond _ _ _ hright
      cases right with
      | nil => cases hhead
      | cons c right => exact Bool.or_eq_true_iff.mpr (.inr hhead)
  | cons c left => exact Bool.or_eq_true_iff.mpr (.inl (hfirst _ _ _ hleft c List.mem_cons_self))

/-- Every text of the pattern has a character of the class. -/
def Needs (accepts : Char → Bool) (r : Regex) : Prop :=
  ∀ before text after, Reads r before text after → ∃ c ∈ text, accepts c = true

theorem Needs.seq (h : Needs accepts second) : Needs accepts (seq first second) := by
  rintro before text after ⟨left, right, rfl, -, hright⟩
  obtain ⟨c, hc, haccepts⟩ := h _ _ _ hright
  exact ⟨c, List.mem_append_right _ hc, haccepts⟩

theorem needs_one (accepts : Char → Bool) : Needs accepts (Regex.seq (one accepts) r) := by
  rintro before text after ⟨left, right, rfl, ⟨c, hc, rfl⟩, -⟩
  exact ⟨c, List.mem_append_left _ (List.mem_singleton_self c), hc⟩

namespace Begins

theorem head (h : Begins r text) (hopens : Opens accepts r) :
    ∃ c rest, text = c :: rest ∧ accepts c = true := by
  obtain ⟨before, left, right, rfl, hreads⟩ := h
  have hhead := hopens _ _ _ hreads
  cases left with
  | nil => cases hhead
  | cons c left => exact ⟨c, left ++ right, rfl, hhead⟩

/-- A token takes all that the next one rejects. -/
theorem drop (h : Begins (seq first second) text) (hfirst : ReadsOnly reads first)
    (hsecond : Opens accepts second) (hdisjoint : ∀ c, accepts c = true → reads c = false) :
    Begins second (text.dropWhile reads) := by
  obtain ⟨before, left, after, rfl, left, right, rfl, hleft, hright⟩ := h
  have hhead := hsecond _ _ _ hright
  cases right with
  | nil => cases hhead
  | cons c right =>
      refine ⟨_, c :: right, after, ?_, hright⟩
      rw [List.append_assoc, List.dropWhile_append_of_pos (hfirst _ _ _ hleft), List.cons_append,
        List.dropWhile_cons_of_neg (by rw [hdisjoint c hhead]; exact Bool.false_ne_true)]

/-- A token of one character takes it. -/
theorem tail (h : Begins (seq (one accepts) r) text) :
    ∃ c rest, text = c :: rest ∧ accepts c = true ∧ Begins r rest := by
  obtain ⟨before, left, after, rfl, left, right, rfl, ⟨c, hc, rfl⟩, hright⟩ := h
  exact ⟨c, right ++ after, rfl, hc, _, right, after, rfl, hright⟩

/-- A number takes its digits and the blanks behind it. -/
theorem number {index : Nat} (h : Begins (seq (group index (digits 1 2)) (seq blanks r)) (before ++ text))
    (hdigits : ∀ c ∈ before, isDecimal c = true) (htext : text.head?.any isDecimal = false)
    (hopens : Opens accepts r)
    (hother : ∀ c, accepts c = true → isDecimal c = false ∧ isSpace c = false) :
    Begins r (text.dropWhile isSpace) := by
  have hstop : text.dropWhile isDecimal = text := by
    cases text with
    | nil => rfl
    | cons c text => exact List.dropWhile_cons_of_neg (Bool.eq_false_iff.mp htext)
  have hblanks : Opens (fun c => isSpace c || accepts c) (seq blanks r) := hopens.behind readsOnly_blanks
  have hrest := h.drop (readsOnly_digits 1 2) hblanks fun c hc => by
    rcases Bool.or_eq_true_iff.mp hc with hc | hc
    · exact isDecimal_of_isSpace hc
    · exact (hother c hc).1
  rw [List.dropWhile_append_of_pos hdigits, hstop] at hrest
  exact hrest.drop readsOnly_blanks hopens fun c hc => (hother c hc).2

/-- A number of two digits takes two. -/
theorem two {index : Nat} (h : Begins (seq (group index (digits 2 2)) r) text) :
    ∃ c d rest, text = c :: d :: rest ∧ isDecimal c = true ∧ isDecimal d = true ∧ Begins r rest := by
  obtain ⟨before, left, after, rfl, left, right, rfl, ⟨front, back, rfl, ⟨c, hc, rfl⟩,
    middle, last, rfl, ⟨d, hd, rfl⟩, none, nothing, rfl, rfl, rfl⟩, hright⟩ := h
  exact ⟨c, d, right ++ after, rfl, hc, hd, _, right, after, rfl, hright⟩

theorem lit {part : String} (h : Begins (seq (Regex.lit part) r) text) :
    ∃ rest, text = part.toList ++ rest ∧ Begins r rest := by
  obtain ⟨before, left, after, rfl, left, right, rfl, hleft, hright⟩ := h
  rw [(reads_lit part).mp hleft]
  exact ⟨right ++ after, List.append_assoc _ _ _, _, right, after, rfl, hright⟩

theorem assoc {third : Regex} (h : Begins (seq first (seq second third)) text) :
    Begins (seq (seq first second) third) text := by
  obtain ⟨before, left, after, rfl, left, right, rfl, hleft, middle, right, rfl, hmiddle, hright⟩ := h
  refine ⟨before, left ++ (middle ++ right), after, rfl, left ++ middle, right, ?_,
    ⟨left, middle, rfl, ?_, ?_⟩, ?_⟩
  · rw [List.append_assoc]
  · rwa [← List.append_assoc]
  · exact hmiddle
  · rwa [List.reverse_append, List.append_assoc]

theorem needs (h : Begins r text) (hneeds : Needs accepts r) : ∃ c ∈ text, accepts c = true := by
  obtain ⟨before, left, right, rfl, hreads⟩ := h
  obtain ⟨c, hc, haccepts⟩ := hneeds _ _ _ hreads
  exact ⟨c, List.mem_append_left _ hc, haccepts⟩

end Begins

/-! ### Stretches without a match -/

/-- No text of the pattern begins in the stretch, when the second text follows. -/
def Passes (r : Regex) (skipped text : List Char) : Prop :=
  ∀ left c right, skipped = left ++ c :: right → ¬Begins r (c :: (right ++ text))

namespace Passes

variable {skipped more : List Char}

theorem nil (r : Regex) (text : List Char) : Passes r [] text := by
  intro left c right h
  cases left <;> cases h

theorem append (hfirst : Passes r skipped (more ++ text)) (hsecond : Passes r more text) :
    Passes r (skipped ++ more) text := by
  intro left c right h hbegins
  rcases List.append_eq_append_iff.mp h with ⟨rest, rfl, hrest⟩ | ⟨rest, hrest, hmore⟩
  · exact hsecond rest c right hrest hbegins
  · cases rest with
    | nil => exact hsecond [] c right hmore.symm hbegins
    | cons d rest =>
        obtain ⟨rfl, rfl⟩ : c = d ∧ right = rest ++ more := List.cons.inj hmore
        refine hfirst left c rest hrest ?_
        rwa [← List.append_assoc]

theorem cons {c : Char} (hc : ¬Begins r (c :: (skipped ++ text))) (h : Passes r skipped text) :
    Passes r (c :: skipped) text := by
  intro left d right heq
  cases left with
  | nil =>
      obtain ⟨rfl, rfl⟩ := List.cons.inj heq
      exact hc
  | cons e left => exact h left d right (List.cons.inj heq).2

theorem of_opens (h : Opens accepts r) (hskipped : ∀ c ∈ skipped, accepts c = false) :
    Passes r skipped text := by
  rintro left c right rfl hbegins
  obtain ⟨d, rest, heq, hd⟩ := hbegins.head h
  obtain ⟨rfl, -⟩ := List.cons.inj heq
  rw [hskipped c (List.mem_append_right _ List.mem_cons_self)] at hd
  cases hd

theorem cons_opens {c : Char} (h : Passes r skipped text) (hopens : Opens accepts r)
    (hc : accepts c = false) : Passes r (c :: skipped) text :=
  append (of_opens hopens (List.forall_mem_singleton.mpr hc)) h

theorem of_needs (h : Needs accepts r) (hskipped : ∀ c ∈ skipped, accepts c = false)
    (htext : ∀ c ∈ text, accepts c = false) : Passes r skipped text := by
  rintro left c right rfl hbegins
  obtain ⟨d, hd, haccepts⟩ := hbegins.needs h
  have hfalse : accepts d = false := by
    rcases List.mem_append.mp (show d ∈ c :: right ++ text from hd) with hd | hd
    · exact hskipped d (List.mem_append_right _ hd)
    · exact htext d hd
  rw [hfalse] at haccepts
  cases haccepts

theorem of_suffix {class' : Char → Bool} (hskipped : ∀ c ∈ skipped, class' c = true)
    (h : ∀ stretch, (∀ c ∈ stretch, class' c = true) → stretch ≠ [] → ¬Begins r (stretch ++ text)) :
    Passes r skipped text := by
  rintro left c right rfl
  exact h (c :: right) (fun d hd => hskipped d (List.mem_append_right _ hd)) (List.cons_ne_nil c right)

theorem skips (h : Passes r skipped text) : Skips (matchAt r) before skipped text := by
  intro left c right hskipped
  rw [matchAt_eq_none_iff]
  exact fun first last htext hreads => h left c right hskipped ⟨_, first, last, htext, hreads⟩

end Passes

theorem search_eq_none (h : Passes r text []) (hnil : ¬Begins r []) : search r text = none := by
  have hend : matchAt r ⟨text.reverse ++ [], []⟩ = none := by
    rw [matchAt_eq_none_iff]
    exact fun left right hright hreads => hnil ⟨_, left, right, hright, hreads⟩
  rw [search, searchFrom_eq_firstAt, ← List.append_nil text, firstAt_skip h.skips, firstAt]
  rwa [List.append_nil] at hend ⊢

/-! ### The first try -/

/-- What is tried first reads the text and finds the groups. -/
def First (r : Regex) (before text after : List Char) (groups groups' : Groups) : Prop :=
  (run r (⟨before, text ++ after⟩, groups)).head? = some (Cursor.past before text after, groups')

section First

variable {groups groups' groups'' : Groups} {left right : List Char}

theorem first_empty : First empty before [] after groups groups := rfl

theorem first_one {c : Char} (h : accepts c = true) :
    First (one accepts) before [c] after groups groups := by
  simp [First, run, h, Cursor.past]

theorem First.seq (hfirst : First first before left (right ++ after) groups groups')
    (hsecond : First second (left.reverse ++ before) right after groups' groups'') :
    First (seq first second) before (left ++ right) after groups groups'' := by
  rw [First] at hfirst hsecond ⊢
  rw [List.append_assoc, run]
  cases hstates : run first (⟨before, left ++ (right ++ after)⟩, groups) with
  | nil => simp [hstates] at hfirst
  | cons state states =>
      rw [hstates, List.head?_cons, Option.some_inj] at hfirst
      rw [List.flatMap_cons, List.head?_append, hfirst, Cursor.past, hsecond]
      simp [Cursor.past]

theorem First.cons {c : Char} (h : First r (c :: before) text after groups groups')
    (hc : accepts c = true) : First (Regex.seq (one accepts) r) before (c :: text) after groups groups' :=
  (first_one hc).seq h

theorem First.group (h : First r before text after groups groups') (index : Nat) :
    First (group index r) before text after groups ((index, text) :: groups') := by
  rw [First] at h ⊢
  rw [run, List.head?_map, h, Option.map_some, between_past]

theorem First.opt (h : First r before text after groups groups') :
    First (opt r) before text after groups groups' := by
  rw [First] at h ⊢
  rw [Regex.opt, run, List.head?_append, h]
  rfl

theorem first_lit (part : String) : First (lit part) before part.toList after groups groups := by
  rw [lit]
  induction part.toList generalizing before with
  | nil => exact first_empty
  | cons c chars ih => exact (first_one (decide_eq_true rfl)).seq ih

/-- What an optional token cannot read is left out. -/
theorem first_opt_empty (h : ¬Begins r after) :
    First (Regex.opt r) before [] after groups groups := by
  have hnone : run r (⟨before, after⟩, groups) = [] := by
    rw [List.eq_nil_iff_forall_not_mem]
    intro stop hstop
    obtain ⟨text, rest, hafter, -, hreads⟩ := (reaches_run r (⟨before, after⟩, groups) stop.1).mp
      ⟨stop.2, hstop⟩
    exact h ⟨before, text, rest, hafter, hreads⟩
  rw [First, Regex.opt, run, List.nil_append, hnone]
  rfl

theorem first_iterate (h : ∀ c ∈ text, accepts c = true) (hafter : after.head?.any accepts = false)
    {fuel : Nat} (hfuel : text.length ≤ fuel) (before : List Char) :
    (iterate (run (one accepts)) fuel (⟨before, text ++ after⟩, groups)).head? =
      some (Cursor.past before text after, groups) := by
  induction text generalizing before fuel with
  | nil =>
      cases fuel with
      | zero => rfl
      | succ fuel =>
          cases after with
          | nil => simp [iterate, run, Cursor.past]
          | cons c after =>
              have hc : accepts c = false := hafter
              simp [iterate, run, hc, Cursor.past]
  | cons c text ih =>
      obtain ⟨hc, htext⟩ := List.forall_mem_cons.mp h
      cases fuel with
      | zero => cases hfuel
      | succ fuel =>
          have hrest := ih htext (Nat.le_of_succ_le_succ hfuel) (c :: before)
          have hstep : run (one accepts) (⟨before, c :: (text ++ after)⟩, groups) =
              [(⟨c :: before, text ++ after⟩, groups)] := by
            simp only [run, hc, ↓reduceIte]
          rw [List.cons_append, iterate, hstep, List.filter_cons_of_pos (by simp), List.filter_nil,
            List.flatMap_cons, List.flatMap_nil, List.append_nil, List.head?_append, hrest]
          simp [Cursor.past]

theorem First.no_opt {rest : Regex} (h : First rest before text after groups groups')
    (hnone : ¬Begins r (text ++ after)) :
    First (Regex.seq (Regex.opt r) rest) before text after groups groups' :=
  (first_opt_empty hnone).seq h

/-- A loop over a class takes all it can. -/
theorem first_star (h : ∀ c ∈ text, accepts c = true) (hafter : after.head?.any accepts = false) :
    First (star (one accepts)) before text after groups groups :=
  first_iterate h hafter (by rw [List.length_append]; exact Nat.le_add_right _ _) before

theorem first_blanks (h : ∀ c ∈ text, isSpace c = true) (hafter : after.head?.any isSpace = false) :
    First blanks before text after groups groups := first_star h hafter

theorem First.no_blanks (h : First r before text after groups groups')
    (hspace : (text ++ after).head?.any isSpace = false) :
    First (Regex.seq blanks r) before text after groups groups' := by
  have hblanks : First blanks before [] (text ++ after) groups groups :=
    first_blanks (fun _ hc => absurd hc List.not_mem_nil) hspace
  exact hblanks.seq h

/-- A bounded loop over a class takes all it can. -/
theorem first_times (h : ∀ c ∈ text, accepts c = true) {min max : Nat} (hmin : min ≤ text.length)
    (hmax : text.length ≤ max) (hafter : text.length = max ∨ after.head?.any accepts = false) :
    First (times (one accepts) min max) before text after groups groups := by
  have hmore : ∀ (count : Nat) (text before : List Char), (∀ c ∈ text, accepts c = true) →
      text.length ≤ count → (text.length = count ∨ after.head?.any accepts = false) →
        First ((List.replicate count (one accepts)).foldr
          (fun first rest => Regex.opt (Regex.seq first rest)) empty) before text after groups groups := by
    intro count
    induction count with
    | zero =>
        intro text before _ hlength _
        rw [List.eq_nil_of_length_eq_zero (Nat.le_zero.mp hlength)]
        exact first_empty
    | succ count ih =>
        intro text before htext hlength hrest
        cases text with
        | nil =>
            refine first_opt_empty fun hbegins => ?_
            obtain ⟨c, rest, rfl, hc, -⟩ := hbegins.tail
            rcases hrest with hrest | hrest
            · cases hrest
            · exact Bool.false_ne_true (hrest.symm.trans hc)
        | cons c text =>
            obtain ⟨hc, htext⟩ := List.forall_mem_cons.mp htext
            exact ((first_one hc).seq (ih text (c :: before) htext (Nat.le_of_succ_le_succ hlength)
              (hrest.imp_left Nat.succ.inj))).opt
  rw [times]
  induction min generalizing max text before with
  | zero =>
      have hend : First empty (text.reverse ++ before) [] after groups groups := first_empty
      have hall := (hmore max text before h hmax hafter).seq hend
      rwa [List.append_nil] at hall
  | succ min ih =>
      cases text with
      | nil => cases hmin
      | cons c text =>
          obtain ⟨hc, htext⟩ := List.forall_mem_cons.mp h
          cases max with
          | zero => cases hmax
          | succ max =>
              rw [Nat.succ_sub_succ]
              exact (first_one hc).seq (ih htext (Nat.le_of_succ_le_succ hmin)
                (Nat.le_of_succ_le_succ hmax) (hafter.imp_left Nat.succ.inj))

theorem First.matchAt (h : First r before text after [] groups) :
    matchAt r ⟨before, text ++ after⟩ = some ⟨before, text, after, groups⟩ := by
  rw [First] at h
  rw [Regex.matchAt, h, Option.map_some, between_past]
  rfl

/-- The first match comes behind the stretch that has none. -/
theorem First.search {skipped : List Char} (hskip : Passes r skipped (text ++ after))
    (h : First r skipped.reverse text after [] groups) :
    search r (skipped ++ (text ++ after)) = some ⟨skipped.reverse, text, after, groups⟩ := by
  have hhere := h.matchAt
  rw [Regex.search, searchFrom_eq_firstAt, firstAt_skip hskip.skips, List.append_nil]
  cases htext : text ++ after with
  | nil =>
      rw [htext] at hhere
      exact hhere
  | cons c rest =>
      rw [htext] at hhere
      rw [firstAt, hhere, Option.some_or]

end First

end Py.Regex

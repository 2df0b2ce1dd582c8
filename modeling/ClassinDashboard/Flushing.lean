import ClassinDashboard.InFlight
import ClassinDashboard.SqlTable

/-!
Effects that are put off. A commit books an item, and the later commits of its queue carry out the
effects of the item one by one, with commits of other requests in between. Where the effects of different
items commute, flushing the queues gives, at every moment, what the booked items give one after the other.
-/

namespace InFlight

/-- A part of the state and the effects that change it, the items that were booked and what queues owe. -/
structure Deferral (σ κ α ε β : Type) where
  part : σ → α
  change : α → ε → α
  booked : σ → List β
  effects : β → List ε
  owed : List κ → List ε

namespace Deferral

variable {σ ι κ α ε β : Type} (d : Deferral σ κ α ε β)

/-- The part once every queue has carried out what it owes. -/
def flushed (state : State σ κ) : α := (state.running.flatMap d.owed).foldl d.change (d.part state.shared)

/-- Items one after the other. -/
def sequential (a : α) (items : List β) : α := (items.flatMap d.effects).foldl d.change a

/-- The effects of two items commute. -/
def Commute (b b' : β) : Prop :=
  ∀ e ∈ d.effects b, ∀ e' ∈ d.effects b', ∀ a, d.change (d.change a e) e' = d.change (d.change a e') e

instance : Std.Symm d.Commute where
  symm _ _ h e he e' he' a := (h e' he' e he a).symm

/-- What a commit does for the queue it is taken from. -/
inductive Move (s s' : σ) (queue queue' : List κ) : Prop
  | idle (hbooked : d.booked s' = d.booked s) (hpart : d.part s' = d.part s)
      (howed : d.owed queue' = d.owed queue)
  | carry (e : ε) (hbooked : d.booked s' = d.booked s) (hpart : d.part s' = d.change (d.part s) e)
      (howed : d.owed queue = e :: d.owed queue')
  | book (b : β) (hbooked : d.booked s' = d.booked s ++ [b]) (hpart : d.part s' = d.part s)
      (hnone : d.owed queue = []) (howed : d.owed queue' = d.effects b)

/-! ### Whose effects are owed -/

/-- What a queue owes is left of one item of the list, of which every item has one queue at most. -/
def Covered (items : List β) (running : List (List κ)) : Prop :=
  ∃ tagged : List (List κ × Option β), tagged.map Prod.fst = running ∧
    (∀ queue ∈ tagged, d.owed queue.1 <:+ queue.2.elim [] d.effects) ∧
      (tagged.filterMap Prod.snd).Subperm items

variable {d}

theorem Covered.nil : d.Covered [] [] :=
  ⟨[], rfl, fun _ hqueue => absurd hqueue List.not_mem_nil, List.Subperm.refl _⟩

/-- A queue that owes nothing needs no item. -/
theorem Covered.arrive {items : List β} {running : List (List κ)} {queue : List κ}
    (h : d.Covered items running) (hqueue : d.owed queue = []) : d.Covered items (running ++ [queue]) := by
  obtain ⟨tagged, hfst, howed, hitems⟩ := h
  refine ⟨tagged ++ [(queue, none)], ?_, ?_, ?_⟩
  · rw [List.map_append, hfst]
    rfl
  · intro other hother
    rcases List.mem_append.mp hother with hold | hnew
    · exact howed other hold
    · cases List.mem_singleton.mp hnew
      exact hqueue ▸ List.nil_suffix
  · rw [List.filterMap_append]
    exact (List.append_nil _).symm ▸ hitems

theorem Covered.split {items : List β} {front back : List (List κ)} {queue : List κ}
    (h : d.Covered items (front ++ queue :: back)) :
    ∃ tags tag tags', tags.map Prod.fst = front ∧ tags'.map Prod.fst = back ∧
      (∀ other ∈ tags ++ (queue, tag) :: tags', d.owed other.1 <:+ other.2.elim [] d.effects) ∧
        ((tags ++ (queue, tag) :: tags').filterMap Prod.snd).Subperm items := by
  obtain ⟨tagged, hfst, howed, hitems⟩ := h
  obtain ⟨tags, rest, rfl, hfront, hrest⟩ := List.map_eq_append_iff.mp hfst
  obtain ⟨⟨queue', tag⟩, tags', rfl, hqueue, hback⟩ := List.map_eq_cons_iff.mp hrest
  obtain rfl : queue' = queue := hqueue
  exact ⟨tags, tag, tags', hfront, hback, howed, hitems⟩

/-- A queue that has carried out some of its effects. -/
theorem Covered.carry {items : List β} {front back : List (List κ)} {queue queue' : List κ}
    (h : d.Covered items (front ++ queue :: back)) (howed : d.owed queue' <:+ d.owed queue) :
    d.Covered items (front ++ queue' :: back) := by
  obtain ⟨tags, tag, tags', rfl, rfl, hsuffix, hitems⟩ := h.split
  refine ⟨tags ++ (queue', tag) :: tags', by simp, ?_, ?_⟩
  · intro other hother
    rcases List.mem_append.mp hother with hfront | hback
    · exact hsuffix other (List.mem_append_left _ hfront)
    · rcases List.mem_cons.mp hback with rfl | hback
      · exact howed.trans (hsuffix _ (List.mem_append_right _ List.mem_cons_self))
      · exact hsuffix other (List.mem_append_right _ (List.mem_cons_of_mem _ hback))
  · rw [List.filterMap_append, List.filterMap_cons] at hitems ⊢
    exact hitems

/-- A queue that owes nothing and books an item. -/
theorem Covered.book {items : List β} {front back : List (List κ)} {queue queue' : List κ} {b : β}
    (h : d.Covered items (front ++ queue :: back)) (howed : d.owed queue' = d.effects b) :
    d.Covered (items ++ [b]) (front ++ queue' :: back) := by
  obtain ⟨tags, tag, tags', rfl, rfl, hsuffix, hitems⟩ := h.split
  refine ⟨tags ++ (queue', some b) :: tags', by simp, ?_, ?_⟩
  · intro other hother
    rcases List.mem_append.mp hother with hfront | hback
    · exact hsuffix other (List.mem_append_left _ hfront)
    · rcases List.mem_cons.mp hback with rfl | hback
      · exact howed ▸ List.suffix_refl _
      · exact hsuffix other (List.mem_append_right _ (List.mem_cons_of_mem _ hback))
  · have hothers : (tags.filterMap Prod.snd ++ tags'.filterMap Prod.snd).Subperm items := by
      refine List.Subperm.trans (List.Sublist.subperm ?_) hitems
      rw [List.filterMap_append]
      exact (List.Sublist.refl _).append ((List.sublist_cons_self _ _).filterMap _)
    rw [List.filterMap_append, List.filterMap_cons]
    show (tags.filterMap Prod.snd ++ b :: tags'.filterMap Prod.snd).Subperm (items ++ [b])
    exact (List.perm_middle.subperm_right.mpr ((List.subperm_cons b).mpr hothers)).trans
      (List.perm_append_singleton b items).symm.subperm

/-- Effects that different queues owe commute when the items do. -/
theorem Covered.commute {items : List β} {running : List (List κ)} (h : d.Covered items running)
    (hitems : items.Pairwise d.Commute) :
    running.Pairwise fun queue queue' => ∀ e ∈ d.owed queue, ∀ e' ∈ d.owed queue', ∀ a,
      d.change (d.change a e) e' = d.change (d.change a e') e := by
  obtain ⟨tagged, rfl, howed, l, hperm, hsublist⟩ := h
  have htags : (tagged.filterMap Prod.snd).Pairwise d.Commute :=
    (hperm.pairwise_iff fun {_ _} hcommute => Std.Symm.symm _ _ hcommute).mp (hitems.sublist hsublist)
  rw [List.pairwise_filterMap] at htags
  rw [List.pairwise_map]
  refine htags.imp_of_mem fun {queue queue'} hmem hmem' hcommute e he e' he' => ?_
  have heffect {other : List κ × Option β} (hother : other ∈ tagged) {x : ε} (hx : x ∈ d.owed other.1) :
      ∃ b, other.2 = some b ∧ x ∈ d.effects b := by
    have hx := (howed other hother).subset hx
    cases hb : other.2 with
    | none =>
        rw [hb] at hx
        cases hx
    | some b =>
        rw [hb] at hx
        exact ⟨b, rfl, hx⟩
  obtain ⟨b, hb, he⟩ := heffect hmem he
  obtain ⟨b', hb', he'⟩ := heffect hmem' he'
  exact hcommute b hb b' hb' e he e' he'

/-! ### Flushing -/

/-- The queues cover what was booked, and flushed they give what the items give one after the other. -/
def Settles (base : List β) (a : α) (state : State σ κ) : Prop :=
  ∃ items, d.booked state.shared = base ++ items ∧ d.Covered items state.running ∧
    (items.Pairwise d.Commute → d.flushed state = d.sequential a items)

theorem Settles.commit {base : List β} {a : α} {s s' : σ} {front back : List (List κ)}
    {queue queue' : List κ} (h : d.Settles base a ⟨s, front ++ queue :: back⟩)
    (hmove : d.Move s s' queue queue') : d.Settles base a ⟨s', front ++ queue' :: back⟩ := by
  obtain ⟨items, hbooked, hcovered, hflushed⟩ := h
  simp only [flushed, List.flatMap_append, List.flatMap_cons] at hflushed
  cases hmove with
  | idle hsame hpart howed =>
      refine ⟨items, hsame.trans hbooked, hcovered.carry (howed ▸ List.suffix_refl _), fun hitems => ?_⟩
      simp only [flushed, List.flatMap_append, List.flatMap_cons]
      rw [howed, hpart]
      exact hflushed hitems
  | carry e hsame hpart howed =>
      refine ⟨items, hsame.trans hbooked, hcovered.carry (howed ▸ List.suffix_cons _ _), fun hitems => ?_⟩
      have hcommute := (List.pairwise_append.mp (hcovered.commute hitems)).2.2
      -- the effect overtakes what the queues in front still owe
      have hovertake : (front.flatMap d.owed).foldl d.change (d.change (d.part s) e) =
          d.change ((front.flatMap d.owed).foldl d.change (d.part s)) e := by
        have hone : ∀ x ∈ front.flatMap d.owed, ∀ y ∈ [e], ∀ a,
            d.change (d.change a x) y = d.change (d.change a y) x := by
          intro x hx y hy
          obtain ⟨other, hother, hx⟩ := List.mem_flatMap.mp hx
          obtain rfl := List.mem_singleton.mp hy
          exact hcommute other hother queue List.mem_cons_self x hx y (howed ▸ List.mem_cons_self)
        exact (Sql.foldl_foldl_comm d.change hone (d.part s)).symm
      simp only [flushed, List.flatMap_append, List.flatMap_cons]
      rw [← hflushed hitems, howed, hpart, List.foldl_append, hovertake]
      simp only [List.foldl_append, List.cons_append, List.foldl_cons]
  | book b hbook hpart hnone howed =>
      have hcovered' := hcovered.book howed
      refine ⟨items ++ [b], by rw [hbook, hbooked, List.append_assoc], hcovered', fun hitems => ?_⟩
      have hold := hflushed (List.pairwise_append.mp hitems).1
      rw [hnone, List.nil_append, List.foldl_append] at hold
      have hcommute := (List.pairwise_append.mp (hcovered'.commute hitems)).2.1
      -- what the queues behind still owe overtakes the new effects
      have hovertake : ∀ before, (back.flatMap d.owed).foldl d.change ((d.effects b).foldl d.change before) =
          (d.effects b).foldl d.change ((back.flatMap d.owed).foldl d.change before) := by
        refine Sql.foldl_foldl_comm d.change fun x hx y hy => ?_
        obtain ⟨other, hother, hy⟩ := List.mem_flatMap.mp hy
        exact (List.pairwise_cons.mp hcommute).1 other hother x (howed ▸ hx) y hy
      simp only [flushed, sequential, List.flatMap_append, List.flatMap_cons, List.flatMap_nil,
        List.append_nil] at hold ⊢
      rw [List.foldl_append, List.foldl_append, List.foldl_append, hpart, howed, hovertake, hold]

/-- In a system whose requests owe nothing when they come in and whose commits all move so, flushing the
queues gives what the items booked since give one after the other. -/
theorem flushed_run {sys : System σ ι κ} {P : σ → Prop} {promise : σ → List κ → Prop}
    (hinv : Invariant sys (fun _ _ => True) P promise)
    (haccept : ∀ s request, d.booked (sys.accept s request).1 = d.booked s ∧
      d.part (sys.accept s request).1 = d.part s ∧ d.owed (sys.accept s request).2 = [])
    (happly : ∀ {s k rest}, P s → promise s (k :: rest) →
      d.Move s (sys.apply s k).1 (k :: rest) (sys.left s k rest))
    {base : List β} {a : α} {state : State σ κ} (hstate : Holds P promise state)
    (h : d.Settles base a state) (actions : List (Action ι)) :
    d.Settles base a (sys.run state actions) := by
  induction actions generalizing state with
  | nil => exact h
  | cons action actions ih =>
      refine ih (hinv.step hstate (by cases action <;> trivial)) ?_
      cases action with
      | arrive request =>
          obtain ⟨items, hbooked, hcovered, hflushed⟩ := h
          obtain ⟨hsame, hpart, howed⟩ := haccept state.shared request
          refine ⟨items, hsame.trans hbooked, hcovered.arrive howed, fun hitems => ?_⟩
          rw [← hflushed hitems, flushed, flushed, ← hpart]
          show ((state.running ++ [_]).flatMap d.owed).foldl _ _ = _
          rw [List.flatMap_append, List.flatMap_singleton, howed, List.append_nil]
          rfl
      | commit index =>
          rcases sys.step_commit state index with hsame | ⟨k, rest, hnext, hstep⟩
          · rw [hsame]
            exact h
          · obtain ⟨hindex, hget⟩ := List.getElem?_eq_some_iff.mp hnext
            have hmove := happly hstate.shared (hstate.running _ (List.mem_of_getElem? hnext))
            rw [hstep, List.set_eq_take_append_cons_drop, if_pos hindex]
            have hsplit : d.Settles base a
                ⟨state.shared, state.running.take index ++ (k :: rest) :: state.running.drop (index + 1)⟩ := by
              rw [← hget, List.getElem_cons_drop, List.take_append_drop]
              exact h
            exact hsplit.commit hmove

end Deferral

end InFlight

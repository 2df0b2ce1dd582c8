import Mathlib.Algebra.Order.Group.Defs
import Mathlib.Algebra.Order.Monoid.Unbundled.Basic
import Mathlib.Data.List.Induction

/-!
A lock that closes for a pause after a number of failures. What it keeps is a count and the time of
the last failure; what it promises is read off the list of attempts alone: between two closings every
attempt is let through, while it is closed none is, and no interval as long as the pause sees more
failures than the lock allows.
-/

namespace Lockout

inductive Verdict
  | held
  | passed
  | failed
  /-- Let through, but ended before it was known whether it passes. -/
  | broken
  deriving DecidableEq

/-- An attempt as seen from outside. -/
structure Entry (τ : Type) where
  time : τ
  verdict : Verdict

/-- How many failures there were, and when the last one was. -/
abbrev Lock (τ : Type) := Option (ℕ × τ)

section Counts

variable {τ : Type} {most : ℕ} {entries : List (Entry τ)} {e : Entry τ} {lock : Lock τ}

/-- Let through without passing. -/
def Entry.failing (e : Entry τ) : Bool := e.verdict = .failed || e.verdict = .broken

/-! ### Failures in a row -/

/-- One more verdict; after the last failure that is allowed, the next one is the first again. -/
def tally (most count : ℕ) : Verdict → ℕ
  | .held => count
  | .passed => 0
  | .failed | .broken => if count = most then 1 else count + 1

/-- The failures since the last success or the last lock that ran out. -/
def streak (most : ℕ) (entries : List (Entry τ)) : ℕ :=
  entries.foldl (fun count e => tally most count e.verdict) 0

def lastFailure (entries : List (Entry τ)) : Option τ :=
  (entries.filter Entry.failing).getLast?.map Entry.time

theorem streak_append (most : ℕ) (entries : List (Entry τ)) (e : Entry τ) :
    streak most (entries ++ [e]) = tally most (streak most entries) e.verdict := by
  rw [streak, List.foldl_append]
  rfl

theorem lastFailure_append_of_failing (h : e.failing = true) :
    lastFailure (entries ++ [e]) = some e.time := by
  rw [lastFailure, List.filter_append, List.filter_cons_of_pos h, List.filter_nil,
    List.getLast?_append, List.getLast?_singleton]
  rfl

theorem lastFailure_append_of_not_failing (h : e.failing = false) :
    lastFailure (entries ++ [e]) = lastFailure entries := by
  rw [lastFailure, List.filter_append, List.filter_cons_of_neg (by simp [h]), List.filter_nil,
    List.append_nil]
  rfl

/-! ### What the lock keeps -/

/-- What is left of the lock when an attempt is let through: a full count has run out. -/
def Lock.opened (most : ℕ) (lock : Lock τ) : Lock τ := lock.filter fun kept => kept.1 < most

def Lock.next (most : ℕ) (lock : Lock τ) (e : Entry τ) : Lock τ :=
  match e.verdict with
  | .held => lock
  | .passed => none
  | .failed => some (((lock.opened most).map Prod.fst).getD 0 + 1, e.time)
  | .broken => lock.opened most

/-- The time a lock keeps is one it kept before, or that of the attempt. -/
theorem Lock.of_next_eq_some {kept : ℕ × τ} (h : lock.next most e = some kept) :
    lock = some kept ∨ kept.2 = e.time := by
  unfold Lock.next at h
  cases hverdict : e.verdict with
  | held =>
      rw [hverdict] at h
      exact .inl h
  | passed =>
      rw [hverdict] at h
      cases h
  | failed =>
      rw [hverdict] at h
      cases h
      exact .inr rfl
  | broken =>
      rw [hverdict] at h
      exact .inl (Option.filter_eq_some_iff.mp h).1

/-- The lock keeps the count and the last failure of the list. -/
def Lock.Tallies (most : ℕ) (entries : List (Entry τ)) : Lock τ → Prop
  | none => streak most entries = 0
  | some (count, last) =>
      count ≤ most ∧ streak most entries = count ∧ lastFailure entries = some last

theorem Lock.Tallies.streak_le (h : lock.Tallies most entries) : streak most entries ≤ most := by
  cases lock with
  | none => exact h.trans_le (Nat.zero_le _)
  | some kept => exact h.2.1.trans_le h.1

theorem Lock.Tallies.exists_last (h : lock.Tallies most entries) (hpos : 0 < streak most entries) :
    ∃ last, lastFailure entries = some last := by
  cases lock with
  | none => exact absurd h hpos.ne'
  | some kept => exact ⟨_, h.2.2⟩

/-- A failure counts on from here. -/
theorem Lock.Tallies.counted (h : lock.Tallies most entries) :
    ((lock.opened most).map Prod.fst).getD 0 =
      if streak most entries = most then 0 else streak most entries := by
  cases lock with
  | none =>
      have hzero : streak most entries = 0 := h
      rw [hzero, ite_self]
      rfl
  | some kept =>
      obtain ⟨hle, hstreak, -⟩ := h
      rw [hstreak, Lock.opened]
      by_cases hfull : kept.1 = most
      · rw [if_pos hfull, Option.filter_some_neg (by simp [hfull])]
        rfl
      · have hlt : kept.1 < most := by omega
        rw [if_neg hfull, Option.filter_some_pos (by simp [hlt])]
        rfl

theorem Lock.Tallies.next (hmost : 0 < most) (h : lock.Tallies most entries)
    (hunbroken : e.verdict ≠ .broken) : (lock.next most e).Tallies most (entries ++ [e]) := by
  have hstreak := streak_append most entries e
  unfold Lock.next
  cases hverdict : e.verdict with
  | broken => exact absurd hverdict hunbroken
  | held =>
      rw [hverdict] at hstreak
      have hlast : lastFailure (entries ++ [e]) = lastFailure entries :=
        lastFailure_append_of_not_failing (by rw [Entry.failing, hverdict]; rfl)
      cases lock with
      | none => exact hstreak.trans h
      | some kept => exact ⟨h.1, hstreak.trans h.2.1, hlast.trans h.2.2⟩
  | passed =>
      rw [hverdict] at hstreak
      exact hstreak
  | failed =>
      rw [hverdict] at hstreak
      have hle := h.streak_le
      have hnext : streak most (entries ++ [e]) =
          (if streak most entries = most then 0 else streak most entries) + 1 := by
        rw [hstreak, tally]
        split <;> rfl
      refine ⟨?_, ?_, lastFailure_append_of_failing (by rw [Entry.failing, hverdict]; rfl)⟩
      · rw [h.counted]
        split <;> omega
      · rw [h.counted, hnext]

/-- After every prefix of a run the lock keeps what the prefix says. -/
theorem tallies_foldl (hmost : 0 < most) (hunbroken : ∀ e ∈ entries, e.verdict ≠ .broken) :
    Lock.Tallies most entries (entries.foldl (Lock.next most) none) := by
  induction entries using List.reverseRecOn with
  | nil => exact rfl
  | append_singleton entries e ih =>
      rw [List.foldl_append]
      exact (ih fun other h => hunbroken other (List.mem_append_left _ h)).next hmost
        (hunbroken e (List.mem_append_right _ List.mem_cons_self))

end Counts

section Times

variable {τ : Type} [AddCommGroup τ] [LinearOrder τ]

/-! ### What the lock promises -/

/-- An interval as long as the pause, open at its end. -/
def inWindow (pause start time : τ) : Bool := start ≤ time && time < start + pause

/-- The promises about a list of attempts. -/
structure Holds (most : ℕ) (pause : τ) (entries : List (Entry τ)) : Prop where
  window : ∀ start, (∀ e ∈ entries, e.verdict = .passed → inWindow pause start e.time = false) →
    entries.countP (fun e => e.failing && inWindow pause start e.time) ≤ most
  counting : ∀ before e after, entries = before ++ e :: after → streak most before < most →
    e.verdict ≠ .held
  locked : ∀ before e after last, entries = before ++ e :: after → streak most before = most →
    lastFailure before = some last → (e.verdict = .held ↔ e.time < last + pause)

def Lock.closed (most : ℕ) (pause : τ) (lock : Lock τ) (now : τ) : Bool :=
  lock.any fun kept => most ≤ kept.1 && now < kept.2 + pause

/-- The attempts of a run that starts with a lock. -/
def Runs (most : ℕ) (pause : τ) : Lock τ → List (Entry τ) → Prop
  | _, [] => True
  | lock, e :: entries =>
      (e.verdict = .held ↔ lock.closed most pause e.time = true) ∧
        Runs most pause (lock.next most e) entries

variable {most : ℕ} {pause : τ} {lock : Lock τ} {entries : List (Entry τ)} {e : Entry τ}

theorem runs_append {entries' : List (Entry τ)} : Runs most pause lock (entries ++ entries') ↔
    Runs most pause lock entries ∧ Runs most pause (entries.foldl (Lock.next most) lock) entries' := by
  induction entries generalizing lock with
  | nil => exact ⟨fun h => ⟨trivial, h⟩, fun h => h.2⟩
  | cons e entries ih => rw [List.cons_append, Runs, Runs, ih, List.foldl_cons, and_assoc]

/-- The lock is closed at a full count until the pause is over. -/
theorem Lock.Tallies.closed_iff (hmost : 0 < most) (h : lock.Tallies most entries) (now : τ) :
    lock.closed most pause now = true ↔ streak most entries = most ∧
      ∃ last, lastFailure entries = some last ∧ now < last + pause := by
  cases lock with
  | none =>
      have hzero : streak most entries = 0 := h
      refine ⟨fun h => (Bool.false_ne_true h).elim, fun h => ?_⟩
      omega
  | some kept =>
      obtain ⟨hle, hstreak, hlast⟩ := h
      rw [Lock.closed, Option.any_some, Bool.and_eq_true, decide_eq_true_iff, decide_eq_true_iff,
        hstreak, hlast]
      refine and_congr ⟨fun h => le_antisymm hle h, fun h => h.ge⟩ ?_
      exact ⟨fun h => ⟨_, rfl, h⟩, fun ⟨_, heq, h⟩ => Option.some.inj heq ▸ h⟩

/-- Whether an attempt of a run is held back. -/
theorem held_iff {before after : List (Entry τ)} (hmost : 0 < most)
    (hrun : Runs most pause none (before ++ e :: after))
    (hunbroken : ∀ e ∈ before, e.verdict ≠ .broken) :
    e.verdict = .held ↔ streak most before = most ∧
      ∃ last, lastFailure before = some last ∧ e.time < last + pause :=
  (runs_append.mp hrun).2.1.trans ((tallies_foldl hmost hunbroken).closed_iff hmost e.time)

omit [AddCommGroup τ] in
theorem times_le_lastFailure (hsorted : entries.Pairwise fun a b => a.time ≤ b.time) {last : τ}
    (hlast : lastFailure entries = some last) (he : e ∈ entries) (hfailing : e.failing = true) :
    e.time ≤ last := by
  obtain ⟨final, hfinal, rfl⟩ := Option.map_eq_some_iff.mp hlast
  obtain ⟨front, hfront⟩ := List.getLast?_eq_some_iff.mp hfinal
  have hmem : e ∈ front ++ [final] := hfront ▸ List.mem_filter.mpr ⟨he, hfailing⟩
  have hpairs : (front ++ [final]).Pairwise fun a b => a.time ≤ b.time := hfront ▸ hsorted.filter _
  rcases List.mem_append.mp hmem with hfirst | hend
  · exact (List.pairwise_append.mp hpairs).2.2 e hfirst final List.mem_cons_self
  · rw [List.mem_singleton.mp hend]

/-- The failures in a window. -/
abbrev failuresIn (pause start : τ) (entries : List (Entry τ)) : ℕ :=
  entries.countP fun e => e.failing && inWindow pause start e.time

theorem failuresIn_eq_zero {start : τ}
    (h : ∀ e ∈ entries, e.failing = true → e.time < start) : failuresIn pause start entries = 0 := by
  rw [failuresIn, List.countP_eq_zero]
  intro e he hin
  obtain ⟨hfailing, hwindow⟩ := Bool.and_eq_true_iff.mp hin
  have hstart := of_decide_eq_true (Bool.and_eq_true_iff.mp hwindow).1
  exact absurd (h e he hfailing) (not_lt.mpr hstart)

variable [IsOrderedAddMonoid τ]

/-- Up to the end of a window, the failures in it are among those in a row. -/
theorem failuresIn_le_streak (hmost : 0 < most) (hrun : Runs most pause none entries)
    (hsorted : entries.Pairwise fun a b => a.time ≤ b.time)
    (hunbroken : ∀ e ∈ entries, e.verdict ≠ .broken) {start : τ}
    (hpassed : ∀ e ∈ entries, e.verdict = .passed → inWindow pause start e.time = false)
    (hbefore : ∀ e ∈ entries, e.time < start + pause) :
    failuresIn pause start entries ≤ streak most entries := by
  induction entries using List.reverseRecOn with
  | nil => exact Nat.le_refl _
  | append_singleton entries e ih =>
      have hinit {P : Entry τ → Prop} (h : ∀ other ∈ entries ++ [e], P other) :
          (∀ other ∈ entries, P other) ∧ P e :=
        ⟨fun other hother => h other (List.mem_append_left _ hother),
          h e (List.mem_append_right _ List.mem_cons_self)⟩
      have hlast := (List.pairwise_append.mp hsorted).2.2
      have hle := ih (runs_append.mp hrun).1 (List.pairwise_append.mp hsorted).1 (hinit hunbroken).1
        (hinit hpassed).1 (hinit hbefore).1
      have hcount : failuresIn pause start (entries ++ [e]) = failuresIn pause start entries +
          if e.failing && inWindow pause start e.time then 1 else 0 := by
        rw [failuresIn, List.countP_append, List.countP_singleton]
      -- before the window there is nothing to count
      have hearly (h : e.time < start) : failuresIn pause start (entries ++ [e]) = 0 := by
        apply failuresIn_eq_zero
        intro other hother _
        rcases List.mem_append.mp hother with hfirst | hend
        · exact (hlast other hfirst e List.mem_cons_self).trans_lt h
        · rwa [List.mem_singleton.mp hend]
      rw [streak_append]
      cases hverdict : e.verdict with
      | broken => exact absurd hverdict (hinit hunbroken).2
      | held =>
          rw [hcount, Entry.failing, hverdict]
          exact hle
      | passed =>
          have hout := (hinit hpassed).2 hverdict
          rw [inWindow, decide_eq_true (hinit hbefore).2, Bool.and_true, decide_eq_false_iff_not,
            not_le] at hout
          rw [hearly hout]
          exact Nat.zero_le _
      | failed =>
          have hopen : ¬(streak most entries = most ∧
              ∃ last, lastFailure entries = some last ∧ e.time < last + pause) := by
            rw [← held_iff hmost hrun (hinit hunbroken).1, hverdict]
            exact nofun
          by_cases hfull : streak most entries = most
          · -- the lock has run out, so the failures it counted lie before the window
            obtain ⟨last, hkept⟩ := (tallies_foldl hmost (hinit hunbroken).1).exists_last (by omega)
            have hover : last + pause ≤ e.time := not_lt.mp fun h => hopen ⟨hfull, last, hkept, h⟩
            have hlt : last < start := lt_of_add_lt_add_right (hover.trans_lt (hinit hbefore).2)
            have hnone : failuresIn pause start entries = 0 := failuresIn_eq_zero fun other hother h =>
              (times_le_lastFailure (List.pairwise_append.mp hsorted).1 hkept hother h).trans_lt hlt
            rw [tally, if_pos hfull, hcount, hnone]
            split <;> omega
          · rw [tally, if_neg hfull, hcount]
            split <;> omega

theorem failuresIn_le (hmost : 0 < most) (hrun : Runs most pause none entries)
    (hsorted : entries.Pairwise fun a b => a.time ≤ b.time)
    (hunbroken : ∀ e ∈ entries, e.verdict ≠ .broken) {start : τ}
    (hpassed : ∀ e ∈ entries, e.verdict = .passed → inWindow pause start e.time = false) :
    failuresIn pause start entries ≤ most := by
  induction entries using List.reverseRecOn with
  | nil => exact Nat.zero_le _
  | append_singleton entries e ih =>
      have hinit {P : Entry τ → Prop} (h : ∀ other ∈ entries ++ [e], P other) :
          ∀ other ∈ entries, P other := fun other hother => h other (List.mem_append_left _ hother)
      by_cases hend : e.time < start + pause
      · have hbefore : ∀ other ∈ entries ++ [e], other.time < start + pause := by
          intro other hother
          rcases List.mem_append.mp hother with hfirst | hlast
          · exact ((List.pairwise_append.mp hsorted).2.2 other hfirst e List.mem_cons_self).trans_lt hend
          · rwa [List.mem_singleton.mp hlast]
        exact (failuresIn_le_streak hmost hrun hsorted hunbroken hpassed hbefore).trans
          (tallies_foldl hmost hunbroken).streak_le
      · have hout : (e.failing && inWindow pause start e.time) = false := by
          rw [inWindow, decide_eq_false hend, Bool.and_false, Bool.and_false]
        have hcount : failuresIn pause start (entries ++ [e]) = failuresIn pause start entries := by
          rw [failuresIn, List.countP_append, List.countP_singleton, hout]
          rfl
        rw [hcount]
        exact ih (runs_append.mp hrun).1 (List.pairwise_append.mp hsorted).1 (hinit hunbroken)
          (hinit hpassed)

/-- A run in order of time in which nothing breaks keeps the promises. -/
theorem holds_of_runs (hmost : 0 < most) (hrun : Runs most pause none entries)
    (hsorted : entries.Pairwise fun a b => a.time ≤ b.time)
    (hunbroken : ∀ e ∈ entries, e.verdict ≠ .broken) : Holds most pause entries where
  window start hpassed := failuresIn_le hmost hrun hsorted hunbroken hpassed
  counting before e after hsplit hstreak hheld := by
    subst hsplit
    have hbefore : ∀ e ∈ before, e.verdict ≠ .broken := fun e he =>
      hunbroken e (List.mem_append_left _ he)
    exact hstreak.ne ((held_iff hmost hrun hbefore).mp hheld).1
  locked before e after last hsplit hstreak hlast := by
    subst hsplit
    have hbefore : ∀ e ∈ before, e.verdict ≠ .broken := fun e he =>
      hunbroken e (List.mem_append_left _ he)
    rw [held_iff hmost hrun hbefore, hlast]
    constructor
    · rintro ⟨-, _, heq, h⟩
      exact Option.some.inj heq ▸ h
    · exact fun h => ⟨hstreak, last, rfl, h⟩

end Times

end Lockout

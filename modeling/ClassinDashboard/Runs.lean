import Mathlib.Data.List.Basic

/-!
Runs of a system that takes one step after another. A property that a step keeps exactly when it is
taken under a condition holds all along a run exactly when every step of the run meets the condition.
-/

namespace Runs

variable {σ ε : Type} (step : σ → ε → σ)

/-- The property holds in every state the run passes through. -/
def Always (P : σ → Prop) : σ → List ε → Prop
  | s, [] => P s
  | s, e :: events => P s ∧ Always P (step s e) events

/-- Every step of the run is taken under the condition. -/
def EachStep (ok : σ → ε → Prop) : σ → List ε → Prop
  | _, [] => True
  | s, e :: events => ok s e ∧ EachStep ok (step s e) events

variable {step} {P : σ → Prop} {ok : σ → ε → Prop}

theorem Always.init {s : σ} {events : List ε} (h : Always step P s events) : P s := by
  cases events with
  | nil => exact h
  | cons e events => exact h.1

/-- A step lemma lifts to runs. -/
theorem always_iff_eachStep (hstep : ∀ s e, P s → (P (step s e) ↔ ok s e)) {s : σ}
    {events : List ε} (hs : P s) : Always step P s events ↔ EachStep step ok s events := by
  induction events generalizing s with
  | nil => exact ⟨fun _ => trivial, fun _ => hs⟩
  | cons e events ih =>
      constructor
      · rintro ⟨_, hrest⟩
        have hnext : P (step s e) := hrest.init
        exact ⟨(hstep s e hs).mp hnext, (ih hnext).mp hrest⟩
      · rintro ⟨hok, hrest⟩
        have hnext : P (step s e) := (hstep s e hs).mpr hok
        exact ⟨hs, (ih hnext).mpr hrest⟩

/-- A property holds all along a run exactly when it holds after each of its prefixes. -/
theorem always_iff_prefix {s : σ} {events : List ε} :
    Always step P s events ↔ ∀ before, before <+: events → P (before.foldl step s) := by
  induction events generalizing s with
  | nil =>
      constructor
      · rintro h before hbefore
        rw [List.prefix_nil.mp hbefore]
        exact h
      · exact fun h => h [] (List.nil_prefix)
  | cons e events ih =>
      constructor
      · rintro ⟨hs, hrest⟩ before hbefore
        cases before with
        | nil => exact hs
        | cons d before =>
            obtain ⟨rfl, htail⟩ := List.cons_prefix_cons.mp hbefore
            exact ih.mp hrest before htail
      · intro h
        refine ⟨h [] List.nil_prefix, ih.mpr fun before hbefore => ?_⟩
        exact h (e :: before) (List.cons_prefix_cons.mpr ⟨rfl, hbefore⟩)

end Runs

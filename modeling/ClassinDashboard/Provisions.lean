import ClassinDashboard.InFlight
import ClassinDashboard.PyScript
import Mathlib.Data.Set.Basic

/-!
Commits that need what others have brought. A queue is served when every commit of it finds what it
needs, among what is held already and what the commits before it bring. What is held is never taken
away, so the commits of other queues cannot starve one that was served when it came in.
-/

namespace InFlight

structure Provision (κ ρ : Type) where
  needs : κ → Set ρ
  brings : κ → Set ρ

namespace Provision

variable {σ ι κ κ' ρ : Type} (d : Provision κ ρ)

/-- Every commit finds what it needs. -/
def Served (held : Set ρ) : List κ → Prop
  | [] => True
  | k :: rest => d.needs k ⊆ held ∧ Served (held ∪ d.brings k) rest

/-- What the commits of a queue bring. -/
def brought (queue : List κ) : Set ρ := {r | ∃ k ∈ queue, r ∈ d.brings k}

variable {d} {held held' : Set ρ} {queue more : List κ}

theorem brought_cons (k : κ) : d.brought (k :: queue) = d.brings k ∪ d.brought queue := by
  ext r
  simp only [brought, List.mem_cons, exists_eq_or_imp, Set.mem_ofPred_eq, Set.mem_union]

theorem Served.mono (h : d.Served held queue) (hsub : held ⊆ held') : d.Served held' queue := by
  induction queue generalizing held held' with
  | nil => trivial
  | cons k rest ih => exact ⟨h.1.trans hsub, ih h.2 (Set.union_subset_union_left _ hsub)⟩

theorem served_append : d.Served held (queue ++ more) ↔
    d.Served held queue ∧ d.Served (held ∪ d.brought queue) more := by
  induction queue generalizing held with
  | nil =>
      have hnone : d.brought [] = ∅ :=
        Set.eq_empty_of_forall_notMem fun r ⟨_, hk, _⟩ => absurd hk List.not_mem_nil
      rw [hnone, Set.union_empty]
      exact (and_iff_right trivial).symm
  | cons k rest ih => rw [List.cons_append, Served, Served, ih, brought_cons, Set.union_assoc, and_assoc]

/-- A queue is served by what holds all that it needs. -/
theorem Served.of_mem (h : ∀ k ∈ queue, d.needs k ⊆ held) : d.Served held queue := by
  induction queue generalizing held with
  | nil => trivial
  | cons k rest ih =>
      exact ⟨h k List.mem_cons_self, ih fun k hk =>
        (h k (List.mem_cons_of_mem _ hk)).trans Set.subset_union_left⟩

/-! ### Queues made from other queues -/

/-- What something needs and brings by the commit it stands for, if it stands for one. -/
def pull (d : Provision κ ρ) (f : κ' → Option κ) : Provision κ' ρ where
  needs x := {r | ∃ k, f x = some k ∧ r ∈ d.needs k}
  brings x := {r | ∃ k, f x = some k ∧ r ∈ d.brings k}

theorem served_filterMap {f : κ' → Option κ} {queue : List κ'} :
    d.Served held (queue.filterMap f) ↔ (d.pull f).Served held queue := by
  induction queue generalizing held with
  | nil => exact Iff.rfl
  | cons x queue ih =>
      cases hx : f x with
      | none =>
          have hneeds : (d.pull f).needs x = ∅ :=
            Set.eq_empty_of_forall_notMem fun r ⟨k, hk, _⟩ => by cases hx.symm.trans hk
          have hbrings : (d.pull f).brings x = ∅ :=
            Set.eq_empty_of_forall_notMem fun r ⟨k, hk, _⟩ => by cases hx.symm.trans hk
          rw [List.filterMap_cons_none hx, ih, Served, hneeds, hbrings, Set.union_empty]
          exact (and_iff_right (Set.empty_subset _)).symm
      | some k =>
          have hneeds : (d.pull f).needs x = d.needs k := by
            ext r
            exact ⟨fun ⟨k', hk, hr⟩ => Option.some.inj (hx.symm.trans hk) ▸ hr, fun hr => ⟨k, hx, hr⟩⟩
          have hbrings : (d.pull f).brings x = d.brings k := by
            ext r
            exact ⟨fun ⟨k', hk, hr⟩ => Option.some.inj (hx.symm.trans hk) ▸ hr, fun hr => ⟨k, hx, hr⟩⟩
          rw [List.filterMap_cons_some hx, Served, Served, ih, hneeds, hbrings]

/-- What stands for no commit needs nothing. -/
theorem pull_needless {f : κ' → Option κ} {x : κ'} (h : f x = none) : (d.pull f).needs x ⊆ held := by
  rintro r ⟨k, hk, _⟩
  cases h.symm.trans hk

/-- A queue of what stands for the commits of another one. -/
theorem served_map {f : κ' → Option κ} {g : κ → κ'} (h : ∀ k, f (g k) = some k) :
    (d.pull f).Served held (queue.map g) ↔ d.Served held queue := by
  have hsame : f ∘ g = some := funext h
  rw [← served_filterMap, List.filterMap_map, hsame, List.filterMap_some]

/-! ### Scripts -/

section Scripts

open Py

variable {ε α β : Type}

/-- What a script writes next finds what the writes before it brought. -/
theorem Served.bind {s : Script κ ε α} {next : α → Script κ ε β} (hs : d.Served held s.writes)
    (hnext : ∀ a, s.result = .ok a → d.Served (held ∪ d.brought s.writes) (next a).writes) :
    d.Served held (s >>= next).writes := by
  cases hresult : s.result with
  | error e =>
      rw [Script.bind_of_error hresult]
      exact hs
  | ok a =>
      rw [Script.bind_of_ok hresult]
      exact served_append.mpr ⟨hs, hnext a hresult⟩

/-- A loop whose iterations are served by what was held before it. -/
theorem Served.each {xs : List α} {body : α → Script κ ε Unit}
    (h : ∀ x ∈ xs, d.Served held (body x).writes) : d.Served held (Script.each xs body).writes := by
  induction xs generalizing held with
  | nil => trivial
  | cons x xs ih =>
      refine Served.bind (h x List.mem_cons_self) fun _ _ => ih fun y hy => ?_
      exact (h y (List.mem_cons_of_mem _ hy)).mono Set.subset_union_left

theorem Served.lift (r : Except ε α) : d.Served held (Script.lift r : Script κ ε α).writes := trivial

/-- A commit that went through has brought what it brings. -/
theorem mem_brought_commit {r : Except ε κ} {u : Unit} {x : ρ} (hdone : (Script.commit r).result = .ok u)
    (h : ∀ k ∈ (Script.commit r).writes, x ∈ d.brings k) : x ∈ d.brought (Script.commit r).writes := by
  obtain ⟨k, hk⟩ := List.exists_mem_of_ne_nil _ (Script.writes_ne_nil_of_commit ⟨u, hdone⟩)
  exact ⟨k, hk, h k hk⟩

end Scripts

/-! ### Runs -/

/-- Queues that are served when they come in are served until they end. -/
theorem invariant {sys : System σ ι κ} {ok : σ → ι → Prop} {P : σ → Prop} (held : σ → Set ρ)
    (haccept_held : ∀ s request, held s ⊆ held (sys.accept s request).1)
    (happly_held : ∀ s k, held s ∪ d.brings k ⊆ held (sys.apply s k).1)
    (haccept : ∀ {s request}, P s → ok s request →
      P (sys.accept s request).1 ∧ d.Served (held s) (sys.accept s request).2)
    (happly : ∀ {s k}, P s → d.needs k ⊆ held s → P (sys.apply s k).1) :
    Invariant sys ok P fun s => d.Served (held s) where
  accept hP hok := by
    obtain ⟨hP', hserved⟩ := haccept hP hok
    exact ⟨hP', hserved.mono (haccept_held _ _)⟩
  accept_stable _ _ hqueue := hqueue.mono (haccept_held _ _)
  apply := by
    intro s k rest hP hqueue
    refine ⟨happly hP hqueue.1, ?_⟩
    unfold System.left
    split
    · exact hqueue.2.mono (happly_held s k)
    · trivial
  apply_stable _ _ hother := hother.mono (Set.subset_union_left.trans (happly_held _ _))

end Provision

end InFlight

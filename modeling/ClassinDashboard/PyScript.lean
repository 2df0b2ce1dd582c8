import Mathlib.Data.List.Basic
import Mathlib.Data.List.Forall2

/-!
Straight-line programs that write as they go and may raise. A program of this kind commits every
write on its own, so what was written before a raise stays written: running it is running its list
of writes, and the raise only decides how long that list is.
-/

namespace Py

section Raise

variable {ε α β : Type}

/-- A sequence of two steps returns exactly when both do. -/
theorem bind_eq_ok {x : Except ε α} {f : α → Except ε β} {b : β} :
    x >>= f = .ok b ↔ ∃ a, x = .ok a ∧ f a = .ok b := by
  cases x with
  | error e =>
      constructor
      · rintro h
        cases h
      · rintro ⟨a, ha, _⟩
        cases ha
  | ok a =>
      constructor
      · exact fun h => ⟨a, rfl, h⟩
      · rintro ⟨a', ha, h⟩
        cases ha
        exact h

/-- Whether a sequence returns, step by step. -/
theorem bind_isOk {x : Except ε α} {f : α → Except ε β} :
    (∃ b, x >>= f = .ok b) ↔ ∃ a, x = .ok a ∧ ∃ b, f a = .ok b := by
  simp only [bind_eq_ok]
  constructor
  · rintro ⟨b, a, ha, hb⟩
    exact ⟨a, ha, b, hb⟩
  · rintro ⟨a, ha, b, hb⟩
    exact ⟨b, a, ha, hb⟩

theorem map_eq_ok {x : Except ε α} {f : α → β} {b : β} :
    x.map f = .ok b ↔ ∃ a, x = .ok a ∧ f a = b := by
  cases x <;> simp [Except.map]

theorem map_isOk {x : Except ε α} {f : α → β} :
    (∃ b, x.map f = .ok b) ↔ ∃ a, x = .ok a := by
  cases x <;> simp [Except.map]

theorem pure_eq_ok {a b : α} : (pure a : Except ε α) = .ok b ↔ a = b :=
  Except.ok.injEq a b ▸ Iff.rfl

/-- A value is there when something is seen of it. -/
theorem exists_ok_of_map {x : Except ε α} {f : α → β} {b : β} (h : x.toOption.map f = some b) :
    ∃ a, x = .ok a ∧ f a = b := by
  cases x with
  | error e => cases h
  | ok a => exact ⟨a, rfl, Option.some.inj h⟩

theorem exists_ok_of_any {x : Except ε α} {holds : α → Bool} (h : x.toOption.any holds = true) :
    ∃ a, x = .ok a ∧ holds a = true := by
  cases x with
  | error e => cases h
  | ok a => exact ⟨a, rfl, h⟩

theorem exists_ok {x : Except ε α} (h : x.toOption.isSome = true) : ∃ a, x = .ok a := by
  cases x with
  | error e => cases h
  | ok a => exact ⟨a, rfl⟩

variable {σ : Type} {step : σ → α → Except ε σ}

/-- A loop that returned has a property exactly when it had it before and every iteration keeps it. -/
theorem foldlM_iff {holds : σ → Prop} {keeps : α → Prop}
    (hstep : ∀ s a s', step s a = .ok s' → (holds s' ↔ holds s ∧ keeps a)) {xs : List α} {s s' : σ}
    (h : xs.foldlM step s = .ok s') : holds s' ↔ holds s ∧ ∀ x ∈ xs, keeps x := by
  induction xs generalizing s with
  | nil =>
      cases pure_eq_ok.mp h
      simp
  | cons x xs ih =>
      rw [List.foldlM_cons] at h
      obtain ⟨s₁, h₁, h⟩ := bind_eq_ok.mp h
      rw [ih h, hstep s x s₁ h₁, List.forall_mem_cons, and_assoc]

/-- A loop returns when every iteration does, whatever the state it meets. -/
theorem foldlM_isOk {returns : α → Prop} (hstep : ∀ s a, (∃ s', step s a = .ok s') ↔ returns a)
    {xs : List α} {s : σ} : (∃ s', xs.foldlM step s = .ok s') ↔ ∀ x ∈ xs, returns x := by
  induction xs generalizing s with
  | nil => exact ⟨fun _ _ hx => absurd hx List.not_mem_nil, fun _ => ⟨s, rfl⟩⟩
  | cons x xs ih =>
      rw [List.foldlM_cons, bind_isOk, List.forall_mem_cons, ← hstep s x]
      constructor
      · rintro ⟨s', hs', h⟩
        exact ⟨⟨s', hs'⟩, ih.mp h⟩
      · rintro ⟨⟨s', hs'⟩, h⟩
        exact ⟨s', hs', ih.mpr h⟩

/-- What holds of every exception of an iteration holds of the exception that ends the loop. -/
theorem foldlM_error {P : ε → Prop} (hstep : ∀ s a e, step s a = .error e → P e) {xs : List α} {s : σ}
    {e : ε} (h : xs.foldlM step s = .error e) : P e := by
  induction xs generalizing s with
  | nil => cases h
  | cons x xs ih =>
      rw [List.foldlM_cons] at h
      cases hx : step s x with
      | error e' =>
          rw [hx] at h
          cases h
          exact hstep s x e hx
      | ok s' =>
          rw [hx] at h
          exact ih h

/-- What no iteration changes, the loop does not change. -/
theorem foldlM_frame {τ : Type} {view : σ → τ}
    (hstep : ∀ s a s', step s a = .ok s' → view s' = view s) {xs : List α} {s s' : σ}
    (h : xs.foldlM step s = .ok s') : view s' = view s := by
  induction xs generalizing s with
  | nil => rw [pure_eq_ok.mp h]
  | cons x xs ih =>
      rw [List.foldlM_cons] at h
      obtain ⟨s₁, h₁, h⟩ := bind_eq_ok.mp h
      rw [ih h, hstep s x s₁ h₁]

/-- A loop whose every iteration appends an entry or nothing. -/
theorem foldlM_filterMap {τ : Type} {view : σ → List τ} {entry : α → Option τ}
    (hstep : ∀ s a s', step s a = .ok s' → view s' = view s ++ (entry a).toList) {xs : List α}
    {s s' : σ} (h : xs.foldlM step s = .ok s') : view s' = view s ++ xs.filterMap entry := by
  induction xs generalizing s with
  | nil => rw [pure_eq_ok.mp h, List.filterMap_nil, List.append_nil]
  | cons x xs ih =>
      rw [List.foldlM_cons] at h
      obtain ⟨s₁, h₁, h⟩ := bind_eq_ok.mp h
      rw [ih h, hstep s x s₁ h₁, List.append_assoc, List.filterMap_cons]
      cases entry x <;> rfl

/-- A loop whose every iteration appends one entry. -/
theorem foldlM_append {τ : Type} {view : σ → List τ} {entry : α → τ}
    (hstep : ∀ s a s', step s a = .ok s' → view s' = view s ++ [entry a]) {xs : List α} {s s' : σ}
    (h : xs.foldlM step s = .ok s') : view s' = view s ++ xs.map entry := by
  rw [← List.filterMap_eq_map]
  exact foldlM_filterMap (fun s a s' hs => hstep s a s' hs) h

/-- Every iteration of a loop that returned has returned. -/
theorem exists_step_of_mem {xs : List α} {s s' : σ} (h : xs.foldlM step s = .ok s') {x : α}
    (hx : x ∈ xs) : ∃ t t', step t x = .ok t' := by
  induction xs generalizing s with
  | nil => cases hx
  | cons y ys ih =>
      rw [List.foldlM_cons] at h
      obtain ⟨s₁, h₁, h⟩ := bind_eq_ok.mp h
      rcases List.mem_cons.mp hx with rfl | hx
      · exact ⟨s, s₁, h₁⟩
      · exact ih h hx

/-- A loop commutes with a change of its states and elements that its iterations commute with. -/
theorem foldlM_hom {view : σ → σ} {change : α → α}
    (hstep : ∀ s a, step (view s) (change a) = (step s a).map view) {xs : List α} {s : σ} :
    (xs.map change).foldlM step (view s) = (xs.foldlM step s).map view := by
  induction xs generalizing s with
  | nil => rfl
  | cons x xs ih =>
      rw [List.map_cons, List.foldlM_cons, List.foldlM_cons, hstep]
      cases hx : step s x with
      | error e => rfl
      | ok s' => exact ih

/-- A pass that returned and keeps a projection of every element. -/
theorem mapM_frame {τ : Type} {f : α → Except ε β} {before : α → τ} {after : β → τ}
    (hf : ∀ a b, f a = .ok b → after b = before a) {xs : List α} {ys : List β}
    (h : xs.mapM f = .ok ys) : ys.map after = xs.map before := by
  induction xs generalizing ys with
  | nil =>
      rw [List.mapM_nil] at h
      rw [← pure_eq_ok.mp h, List.map_nil, List.map_nil]
  | cons x xs ih =>
      rw [List.mapM_cons] at h
      obtain ⟨y, hy, h⟩ := bind_eq_ok.mp h
      obtain ⟨rest, hrest, h⟩ := bind_eq_ok.mp h
      rw [← pure_eq_ok.mp h, List.map_cons, List.map_cons, hf x y hy, ih hrest]

/-- A pass returns the list of what it returns for the elements, one after the other. -/
theorem mapM_eq_ok {f : α → Except ε β} {xs : List α} {ys : List β} :
    xs.mapM f = .ok ys ↔ List.Forall₂ (fun x y => f x = .ok y) xs ys := by
  induction xs generalizing ys with
  | nil => rw [List.mapM_nil, pure_eq_ok, List.forall₂_nil_left_iff, eq_comm]
  | cons x xs ih =>
      rw [List.mapM_cons, bind_eq_ok, List.forall₂_cons_left_iff]
      refine exists_congr fun y => ?_
      constructor
      · rintro ⟨hy, h⟩
        obtain ⟨ys', hys, h⟩ := bind_eq_ok.mp h
        exact ⟨ys', hy, ih.mp hys, (pure_eq_ok.mp h).symm⟩
      · rintro ⟨ys', hy, hys, rfl⟩
        exact ⟨hy, bind_eq_ok.mpr ⟨ys', ih.mpr hys, rfl⟩⟩

/-- A pass that leaves every element as it is. -/
theorem mapM_self {f : α → Except ε α} {xs : List α} (h : ∀ x ∈ xs, f x = .ok x) :
    xs.mapM f = .ok xs :=
  mapM_eq_ok.mpr (List.forall₂_same.mpr h)

theorem optionMapM_self {f : α → Except ε α} {o : Option α} (h : ∀ x, o = some x → f x = .ok x) :
    o.mapM f = .ok o := by
  cases o with
  | none => rfl
  | some x =>
      show (f x >>= fun y => pure (some y)) = .ok (some x)
      rw [h x rfl]
      rfl

/-- Every result of a pass is the result of an element. -/
theorem exists_of_mem_mapM {f : α → Except ε β} {xs : List α} {ys : List β} (h : xs.mapM f = .ok ys)
    {y : β} (hy : y ∈ ys) : ∃ x ∈ xs, f x = .ok y := by
  induction mapM_eq_ok.mp h with
  | nil => cases hy
  | @cons x y' xs ys hx hrest ih =>
      rcases List.mem_cons.mp hy with rfl | hy
      · exact ⟨x, List.mem_cons_self, hx⟩
      · obtain ⟨x', hx', hfx'⟩ := ih (mapM_eq_ok.mpr hrest) hy
        exact ⟨x', List.mem_cons_of_mem _ hx', hfx'⟩

/-- Every element of a pass that returned has its result among the results. -/
theorem exists_mem_of_mapM {f : α → Except ε β} {xs : List α} {ys : List β} (h : xs.mapM f = .ok ys)
    {x : α} (hx : x ∈ xs) : ∃ y ∈ ys, f x = .ok y := by
  induction mapM_eq_ok.mp h with
  | nil => cases hx
  | @cons x' y xs ys hy hrest ih =>
      rcases List.mem_cons.mp hx with rfl | hx
      · exact ⟨y, List.mem_cons_self, hy⟩
      · obtain ⟨y', hy', hfx⟩ := ih (mapM_eq_ok.mpr hrest) hx
        exact ⟨y', List.mem_cons_of_mem _ hy', hfx⟩

/-- A pass returns when every element has a result. -/
theorem mapM_isOk {f : α → Except ε β} {xs : List α} :
    (∃ ys, xs.mapM f = .ok ys) ↔ ∀ x ∈ xs, ∃ y, f x = .ok y := by
  induction xs with
  | nil => exact ⟨fun _ _ hx => absurd hx List.not_mem_nil, fun _ => ⟨[], List.mapM_nil⟩⟩
  | cons x xs ih =>
      rw [List.mapM_cons, bind_isOk, List.forall_mem_cons, ← ih]
      constructor
      · rintro ⟨y, hy, h⟩
        obtain ⟨ys, hys, _⟩ := bind_isOk.mp h
        exact ⟨⟨y, hy⟩, ys, hys⟩
      · rintro ⟨⟨y, hy⟩, ys, hys⟩
        exact ⟨y, hy, bind_isOk.mpr ⟨ys, hys, _, rfl⟩⟩

/-- A loop whose iterations only add what they compute from their element is a pass over the
elements, and the additions after it. -/
theorem foldlM_eq_mapM {τ : Type} {entry : α → Except ε τ} {add : σ → τ → σ}
    (hstep : ∀ s a, step s a = (entry a).map (add s)) (xs : List α) (s : σ) :
    xs.foldlM step s = (xs.mapM entry).map fun entries => entries.foldl add s := by
  induction xs generalizing s with
  | nil => rfl
  | cons x xs ih =>
      rw [List.foldlM_cons, List.mapM_cons, hstep]
      cases entry x with
      | error e => rfl
      | ok t =>
          change xs.foldlM step (add s t) = _
          rw [ih]
          cases xs.mapM entry <;> rfl

end Raise

/-- A finished run of such a program: the writes in order and how it ended. -/
structure Script (ω ε α : Type) where
  writes : List ω
  result : Except ε α

namespace Script

variable {ω ε α β σ : Type}

/-- Commit one write. -/
def tell (w : ω) : Script ω ε Unit := ⟨[w], .ok ()⟩

/-- A computation that writes nothing and may raise. -/
def lift (r : Except ε α) : Script ω ε α := ⟨[], r⟩

/-- One statement: its parameters are bound first, and a failed binding writes nothing. -/
def commit (r : Except ε ω) : Script ω ε Unit :=
  match r with
  | .ok w => tell w
  | .error e => lift (.error e)

def bind (s : Script ω ε α) (next : α → Script ω ε β) : Script ω ε β :=
  match s.result with
  | .ok a => ⟨s.writes ++ (next a).writes, (next a).result⟩
  | .error e => ⟨s.writes, .error e⟩

instance : Monad (Script ω ε) where
  pure a := ⟨[], .ok a⟩
  bind := bind

/-- `for x in xs: body(x)`: the first iteration that raises ends the loop. -/
def each (xs : List α) (body : α → Script ω ε Unit) : Script ω ε Unit :=
  match xs with
  | [] => pure ()
  | x :: xs => body x >>= fun _ => each xs body

/-- The script as a part of one with writes of more kinds. -/
def mapWrites {ω' : Type} (f : ω → ω') (s : Script ω ε α) : Script ω' ε α := ⟨s.writes.map f, s.result⟩

/-- A loop whose iterations all return writes what they write. -/
theorem each_eq {xs : List α} {body : α → Script ω ε Unit} {out : α → List ω}
    (h : ∀ x ∈ xs, body x = ⟨out x, .ok ()⟩) : each xs body = ⟨xs.flatMap out, .ok ()⟩ := by
  induction xs with
  | nil => rfl
  | cons x xs ih =>
      rw [each, h x List.mem_cons_self, ih fun y hy => h y (List.mem_cons_of_mem _ hy)]
      rfl

/-- The state after the script: its writes, one by one. -/
def exec (apply : σ → ω → σ) (s : Script ω ε α) (state : σ) : σ := s.writes.foldl apply state

/-- The script ended without raising. -/
def Succeeds (s : Script ω ε α) : Prop := ∃ a, s.result = .ok a

instance (s : Script ω ε α) : Decidable s.Succeeds :=
  match h : s.result with
  | .ok a => isTrue ⟨a, h⟩
  | .error _ => isFalse fun ⟨_, ha⟩ => by rw [h] at ha; cases ha

@[simp] theorem pure_writes (a : α) : (pure a : Script ω ε α).writes = [] := rfl
@[simp] theorem pure_result (a : α) : (pure a : Script ω ε α).result = .ok a := rfl
@[simp] theorem tell_writes (w : ω) : (tell w : Script ω ε Unit).writes = [w] := rfl
@[simp] theorem tell_result (w : ω) : (tell w : Script ω ε Unit).result = .ok () := rfl
@[simp] theorem lift_writes (r : Except ε α) : (lift r : Script ω ε α).writes = [] := rfl
@[simp] theorem lift_result (r : Except ε α) : (lift r : Script ω ε α).result = r := rfl

@[simp] theorem commit_ok (w : ω) : (commit (.ok w) : Script ω ε Unit) = tell w := rfl

theorem mem_writes_commit {r : Except ε ω} {w : ω} : w ∈ (commit r).writes ↔ r = .ok w := by
  cases r with
  | ok v => simp [eq_comm]
  | error e => simp [commit]

theorem succeeds_commit {r : Except ε ω} : (commit r).Succeeds ↔ ∃ w, r = .ok w := by
  cases r with
  | ok w => exact ⟨fun _ => ⟨w, rfl⟩, fun _ => ⟨(), rfl⟩⟩
  | error e =>
      constructor
      · rintro ⟨a, ha⟩
        cases ha
      · rintro ⟨w, hw⟩
        cases hw

theorem writes_ne_nil_of_commit {r : Except ε ω} (h : (commit r).Succeeds) : (commit r).writes ≠ [] := by
  obtain ⟨w, hw⟩ := succeeds_commit.mp h
  exact List.ne_nil_of_mem (mem_writes_commit.mpr hw)

theorem bind_of_ok {s : Script ω ε α} {next : α → Script ω ε β} {a : α} (h : s.result = .ok a) :
    s >>= next = ⟨s.writes ++ (next a).writes, (next a).result⟩ := by
  show bind s next = _
  rw [bind, h]

theorem bind_of_error {s : Script ω ε α} {next : α → Script ω ε β} {e : ε}
    (h : s.result = .error e) : s >>= next = ⟨s.writes, .error e⟩ := by
  show bind s next = _
  rw [bind, h]

/-- What the first script writes stays written. -/
theorem mem_writes_bind {s : Script ω ε α} {next : α → Script ω ε β} {w : ω} (h : w ∈ s.writes) :
    w ∈ (s >>= next).writes := by
  cases hresult : s.result with
  | ok a =>
      rw [bind_of_ok hresult]
      exact List.mem_append_left _ h
  | error e =>
      rw [bind_of_error hresult]
      exact h

@[simp] theorem lift_ok_bind (a : α) (next : α → Script ω ε β) :
    (lift (.ok a) >>= next : Script ω ε β) = next a := rfl

@[simp] theorem lift_error_bind (e : ε) (next : α → Script ω ε β) :
    (lift (.error e) >>= next : Script ω ε β) = lift (.error e) := rfl

theorem not_succeeds_error (e : ε) : ¬(lift (.error e) : Script ω ε α).Succeeds := by
  rintro ⟨a, ha⟩
  cases ha

theorem succeeds_bind {s : Script ω ε α} {next : α → Script ω ε β} :
    (s >>= next).Succeeds ↔ ∃ a, s.result = .ok a ∧ (next a).Succeeds := by
  cases h : s.result with
  | ok a => simp [Succeeds, bind_of_ok h]
  | error e => simp [Succeeds, bind_of_error h]

/-- After a script that returns nothing, the next one runs exactly when it did not raise. -/
theorem writes_bind_unit (s : Script ω ε Unit) (next : Unit → Script ω ε β) :
    (s >>= next).writes = s.writes ++ if s.Succeeds then (next ()).writes else [] := by
  cases h : s.result with
  | ok a => rw [bind_of_ok h, if_pos ⟨a, h⟩]
  | error e =>
      have hfail : ¬s.Succeeds := by
        rintro ⟨a, ha⟩
        rw [h] at ha
        cases ha
      rw [bind_of_error h, if_neg hfail, List.append_nil]

/-- Naming its result writes nothing. -/
theorem writes_bind_return (s : Script ω ε α) (f : α → β) :
    (s >>= fun a => (pure (f a) : Script ω ε β)).writes = s.writes := by
  cases h : s.result with
  | ok a => rw [bind_of_ok h, pure_writes, List.append_nil]
  | error e => rw [bind_of_error h]

/-- A value returned at the end writes nothing. -/
@[simp] theorem writes_bind_pure (s : Script ω ε Unit) (b : β) :
    (s >>= fun _ => (pure b : Script ω ε β)).writes = s.writes := by
  exact writes_bind_return s fun _ => b

theorem mem_writes_bind_iff {s : Script ω ε α} {next : α → Script ω ε β} {w : ω} :
    w ∈ (s >>= next).writes ↔ w ∈ s.writes ∨ ∃ a, s.result = .ok a ∧ w ∈ (next a).writes := by
  cases h : s.result with
  | ok a => simp [bind_of_ok h]
  | error e => simp [bind_of_error h]

theorem succeeds_bind_unit {s : Script ω ε Unit} {next : Unit → Script ω ε β} :
    (s >>= next).Succeeds ↔ s.Succeeds ∧ (next ()).Succeeds := by
  rw [succeeds_bind]
  constructor
  · rintro ⟨a, ha, hnext⟩
    exact ⟨⟨a, ha⟩, hnext⟩
  · rintro ⟨⟨a, ha⟩, hnext⟩
    exact ⟨a, ha, hnext⟩

@[simp] theorem succeeds_tell (w : ω) : (tell w : Script ω ε Unit).Succeeds := ⟨(), rfl⟩
@[simp] theorem succeeds_pure (a : α) : (pure a : Script ω ε α).Succeeds := ⟨a, rfl⟩

/-- What every write preserves, the whole script preserves, wherever it stopped. -/
theorem exec_induct {apply : σ → ω → σ} {s : Script ω ε α} {state : σ} (motive : σ → Prop)
    (init : motive state)
    (step : ∀ current, motive current → ∀ w ∈ s.writes, motive (apply current w)) :
    motive (s.exec apply state) := by
  unfold exec
  generalize s.writes = ws at step
  induction ws generalizing state with
  | nil => exact init
  | cons w ws ih =>
      exact ih (step state init w List.mem_cons_self)
        (fun current hc v hv => step current hc v (List.mem_cons_of_mem _ hv))

theorem exec_bind_ok (apply : σ → ω → σ) {s : Script ω ε α} {next : α → Script ω ε β} {a : α}
    (h : s.result = .ok a) (state : σ) :
    exec apply (s >>= next) state = exec apply (next a) (exec apply s state) := by
  rw [bind_of_ok h]
  exact List.foldl_append

/-- The second script runs in the state the first one left, if that one returned. -/
theorem exec_bind_unit (apply : σ → ω → σ) (s : Script ω ε Unit) (next : Unit → Script ω ε β)
    (state : σ) :
    exec apply (s >>= next) state =
      if s.Succeeds then exec apply (next ()) (exec apply s state) else exec apply s state := by
  by_cases h : s.Succeeds
  · obtain ⟨_, ha⟩ := h
    rw [if_pos ⟨_, ha⟩, exec_bind_ok apply ha]
  · rw [if_neg h]
    unfold exec
    rw [writes_bind_unit, if_neg h, List.append_nil]

/-- A projection that no write touches is left alone. -/
theorem exec_frame {τ : Type} {apply : σ → ω → σ} {s : Script ω ε α} {state : σ} (view : σ → τ)
    (frame : ∀ current, ∀ w ∈ s.writes, view (apply current w) = view current) :
    view (s.exec apply state) = view state :=
  exec_induct (fun current => view current = view state) rfl
    (fun current hc w hw => (frame current w hw).trans hc)

/-- The script leaves a projection of the state alone. -/
def Keeps {τ : Type} (apply : σ → ω → σ) (view : σ → τ) (s : Script ω ε α) : Prop :=
  ∀ state, view (exec apply s state) = view state

section Keeps

variable {τ : Type} {apply : σ → ω → σ} {view : σ → τ}

theorem Keeps.lift (r : Except ε α) : Keeps apply view (Script.lift r : Script ω ε α) :=
  fun _ => rfl

theorem Keeps.commit {r : Except ε ω}
    (h : ∀ w, r = .ok w → ∀ state, view (apply state w) = view state) :
    Keeps apply view (Script.commit r) := by
  intro state
  cases r with
  | ok w => exact h w rfl state
  | error e => rfl

theorem Keeps.bind {s : Script ω ε α} {next : α → Script ω ε β} (hs : Keeps apply view s)
    (hnext : ∀ a, Keeps apply view (next a)) : Keeps apply view (s >>= next) := by
  intro state
  cases hresult : s.result with
  | ok a =>
      rw [exec_bind_ok apply hresult, hnext a, hs]
  | error e =>
      rw [bind_of_error hresult]
      exact hs state

theorem Keeps.each {xs : List α} {body : α → Script ω ε Unit}
    (h : ∀ x ∈ xs, Keeps apply view (body x)) : Keeps apply view (each xs body) := by
  induction xs with
  | nil => exact fun _ => rfl
  | cons x xs ih =>
      exact (h x List.mem_cons_self).bind fun _ => ih fun y hy => h y (List.mem_cons_of_mem _ hy)

end Keeps

/-! ### What is written -/

/-- Every write of the script has the property. -/
def Emits (P : ω → Prop) (s : Script ω ε α) : Prop := ∀ w ∈ s.writes, P w

section Emits

variable {P : ω → Prop}

theorem Emits.lift (r : Except ε α) : Emits P (Script.lift r : Script ω ε α) :=
  fun _ hw => absurd hw List.not_mem_nil

theorem Emits.pure (a : α) : Emits P (Pure.pure a : Script ω ε α) :=
  fun _ hw => absurd hw List.not_mem_nil

theorem Emits.tell {w : ω} (h : P w) : Emits P (Script.tell w : Script ω ε Unit) := by
  intro v hv
  rw [tell_writes, List.mem_singleton] at hv
  exact hv ▸ h

theorem Emits.commit {r : Except ε ω} (h : ∀ w, r = .ok w → P w) : Emits P (Script.commit r) :=
  fun _ hw => h _ (mem_writes_commit.mp hw)

theorem Emits.mapWrites {ω' : Type} {Q : ω' → Prop} {f : ω → ω'} {s : Script ω ε α}
    (h : Emits (fun w => Q (f w)) s) : Emits Q (s.mapWrites f) := by
  intro w hw
  obtain ⟨v, hv, rfl⟩ := List.mem_map.mp hw
  exact h v hv

theorem Emits.mono {Q : ω → Prop} {s : Script ω ε α} (h : Emits P s) (hPQ : ∀ w, P w → Q w) :
    Emits Q s := fun w hw => hPQ w (h w hw)

theorem Emits.bind {s : Script ω ε α} {next : α → Script ω ε β} (hs : Emits P s)
    (hnext : ∀ a, s.result = .ok a → Emits P (next a)) : Emits P (s >>= next) := by
  intro w hw
  cases hresult : s.result with
  | ok a =>
      rw [bind_of_ok hresult, List.mem_append] at hw
      exact hw.elim (hs w) (hnext a hresult w)
  | error e =>
      rw [bind_of_error hresult] at hw
      exact hs w hw

theorem Emits.each {xs : List α} {body : α → Script ω ε Unit}
    (h : ∀ x ∈ xs, Emits P (body x)) : Emits P (Script.each xs body) := by
  induction xs with
  | nil => exact Emits.pure ()
  | cons x xs ih =>
      exact (h x List.mem_cons_self).bind fun _ _ => ih fun y hy => h y (List.mem_cons_of_mem _ hy)

end Emits

/-- Every write has a partner among the writes. -/
def Partnered (rel : ω → ω → Prop) (s : Script ω ε α) : Prop := ∀ w ∈ s.writes, ∃ v ∈ s.writes, rel w v

section Partnered

variable {rel : ω → ω → Prop}

theorem Partnered.of_emits {s : Script ω ε α} (h : Emits (fun w => rel w w) s) : Partnered rel s :=
  fun w hw => ⟨w, hw, h w hw⟩

theorem Partnered.bind {s : Script ω ε α} {next : α → Script ω ε β} (hs : Partnered rel s)
    (hnext : ∀ a, s.result = .ok a → Partnered rel (next a)) : Partnered rel (s >>= next) := by
  intro w hw
  rcases mem_writes_bind_iff.mp hw with hw | ⟨a, ha, hw⟩
  · obtain ⟨v, hv, hrel⟩ := hs w hw
    exact ⟨v, mem_writes_bind hv, hrel⟩
  · obtain ⟨v, hv, hrel⟩ := hnext a ha w hw
    exact ⟨v, mem_writes_bind_iff.mpr (.inr ⟨a, ha, hv⟩), hrel⟩

theorem Partnered.each {xs : List α} {body : α → Script ω ε Unit}
    (h : ∀ x ∈ xs, Partnered rel (body x)) : Partnered rel (Script.each xs body) := by
  induction xs with
  | nil => exact Partnered.of_emits (Emits.pure ())
  | cons x xs ih =>
      exact (h x List.mem_cons_self).bind fun _ _ => ih fun y hy => h y (List.mem_cons_of_mem _ hy)

end Partnered

/-- What a write establishes and every write keeps, the script has established in the end. -/
theorem exec_of_mem {apply : σ → ω → σ} {s : Script ω ε α} {state : σ} {w : ω} (hw : w ∈ s.writes)
    (motive : σ → Prop) (establish : ∀ current, motive (apply current w))
    (keep : ∀ current, motive current → ∀ v ∈ s.writes, motive (apply current v)) :
    motive (s.exec apply state) := by
  obtain ⟨before, after, hwrites⟩ := List.append_of_mem hw
  have htail : ∀ v ∈ after, v ∈ s.writes := by
    intro v hv
    rw [hwrites]
    exact List.mem_append_right _ (List.mem_cons_of_mem _ hv)
  unfold exec
  rw [hwrites, List.foldl_append, List.foldl_cons]
  generalize before.foldl apply state = current
  have hinit := establish current
  generalize apply current w = current at hinit
  clear hwrites
  induction after generalizing current with
  | nil => exact hinit
  | cons v after ih =>
      exact ih (fun u hu => htail u (List.mem_cons_of_mem _ hu)) _
        (keep current hinit v (htail v List.mem_cons_self))

/-! ### Specifications -/

section Spec

variable {τ : Type}

/-- The script returns exactly when `ok` holds, and its writes of the sort at hand are `out`. -/
structure Spec (sort : ω → Option τ) (s : Script ω ε α) (ok : Bool) (out : List τ) : Prop where
  returns : s.Succeeds ↔ ok = true
  writes_eq : s.writes.filterMap sort = out

variable {sort : ω → Option τ} {s : Script ω ε Unit} {k : Unit → Script ω ε β} {ok ok' : Bool}
  {out out' : List τ}

theorem Spec.pure : Spec sort (pure () : Script ω ε Unit) true [] :=
  ⟨⟨fun _ => rfl, fun _ => succeeds_pure ()⟩, rfl⟩

theorem Spec.error (e : ε) : Spec sort (lift (.error e) : Script ω ε α) false [] :=
  ⟨⟨fun h => absurd h (not_succeeds_error e), fun h => absurd h Bool.false_ne_true⟩, rfl⟩

/-- A statement that is accepted makes one write. -/
theorem Spec.commit {r : Except ε ω} {w : Option τ} (hok : (∃ w, r = .ok w) ↔ ok = true)
    (hsort : ∀ v, r = .ok v → sort v = w) :
    Spec sort (commit r) ok (if ok then w.toList else []) := by
  refine ⟨succeeds_commit.trans hok, ?_⟩
  cases r with
  | error e =>
      have hfail : ok = false := by
        rw [Bool.eq_false_iff]
        intro h
        obtain ⟨w, hw⟩ := hok.mpr h
        cases hw
      rw [hfail]
      rfl
  | ok v =>
      rw [if_pos (hok.mp ⟨v, rfl⟩), commit_ok, tell_writes, List.filterMap_cons, hsort v rfl]
      cases w <;> rfl

/-- A script that writes something else. -/
theorem Spec.other {s : Script ω ε α} (hok : s.Succeeds ↔ ok = true)
    (hsort : ∀ w ∈ s.writes, sort w = none) : Spec sort s ok [] :=
  ⟨hok, List.filterMap_eq_nil_iff.mpr hsort⟩

/-- The second script runs only where the first one returned. -/
theorem Spec.seq (h : Spec sort s ok out) (hk : ok = true → Spec sort (k ()) ok' out') :
    Spec sort (s >>= k) (ok && ok') (out ++ if ok then out' else []) := by
  refine ⟨?_, ?_⟩
  · rw [succeeds_bind_unit, h.returns, Bool.and_eq_true]
    exact and_congr_right fun hok => (hk hok).returns
  · rw [writes_bind_unit, List.filterMap_append, h.writes_eq]
    by_cases hok : ok = true
    · rw [if_pos (h.returns.mpr hok), if_pos hok, (hk hok).writes_eq]
    · rw [if_neg (fun hs => hok (h.returns.mp hs)), if_neg hok]
      rfl

/-- The part of a list up to and including the first element that fails. -/
def through (good : α → Bool) : List α → List α
  | [] => []
  | x :: l => x :: if good x then through good l else []

theorem mem_of_mem_through {good : α → Bool} {l : List α} {x : α} (h : x ∈ through good l) :
    x ∈ l := by
  induction l with
  | nil => exact h
  | cons y l ih =>
      rw [through, List.mem_cons] at h
      rcases h with rfl | h
      · exact List.mem_cons_self
      · split at h
        · exact List.mem_cons_of_mem y (ih h)
        · cases h

theorem through_of_all {good : α → Bool} {l : List α} (h : l.all good = true) : through good l = l := by
  induction l with
  | nil => rfl
  | cons x l ih =>
      rw [List.all_cons, Bool.and_eq_true] at h
      rw [through, if_pos h.1, ih h.2]

/-- A loop goes on as long as its iterations return. -/
theorem Spec.each {l : List α} {body : α → Script ω ε Unit} {good : α → Bool} {out : α → List τ}
    (h : ∀ x ∈ l, Spec sort (body x) (good x) (out x)) :
    Spec sort (each l body) (l.all good) ((through good l).flatMap out) := by
  induction l with
  | nil => exact Spec.pure
  | cons x l ih =>
      have htail := ih fun y hy => h y (List.mem_cons_of_mem _ hy)
      have hseq : Spec sort (body x >>= fun _ => Script.each l body) _ _ :=
        (h x List.mem_cons_self).seq fun _ => htail
      rw [Script.each, List.all_cons, through, List.flatMap_cons]
      refine ⟨hseq.returns, hseq.writes_eq.trans ?_⟩
      cases good x <;> rfl

theorem flatMap_through {good : α → Bool} {out : α → List τ} (l : List α) :
    ((through good l).flatMap fun x => if good x then out x else []) =
      (l.takeWhile good).flatMap out := by
  induction l with
  | nil => rfl
  | cons x l ih =>
      rw [through, List.flatMap_cons, List.takeWhile_cons]
      cases hx : good x with
      | false => rfl
      | true => simp only [if_true, List.flatMap_cons, ih]

/-- A loop whose iterations write all or nothing. -/
theorem Spec.each_takeWhile {l : List α} {body : α → Script ω ε Unit} {good : α → Bool}
    {out : α → List τ}
    (h : ∀ x ∈ l, Spec sort (body x) (good x) (if good x then out x else [])) :
    Spec sort (Script.each l body) (l.all good) ((l.takeWhile good).flatMap out) := by
  rw [← flatMap_through]
  exact Spec.each h

end Spec

end Script
end Py

import ClassinDashboard.Runs
import Mathlib.Algebra.BigOperators.Group.List.Basic
import Mathlib.Algebra.Order.Group.Multiset
import Mathlib.Data.List.Induction

/-!
Requests in flight. A request is admitted in one step, which may touch the shared state, and leaves a
queue of commits; the queues of different requests are worked off in any interleaving. A commit may end
its request. What a queue promises has to survive every commit of the others.
-/

namespace InFlight

structure System (σ ι κ : Type) where
  /-- The state after a request came in, and what it is going to commit. -/
  accept : σ → ι → σ × List κ
  /-- The state after a commit, and whether the request goes on. -/
  apply : σ → κ → σ × Bool

structure State (σ κ : Type) where
  shared : σ
  running : List (List κ)

inductive Action (ι : Type)
  | arrive (request : ι)
  | commit (index : Nat)

variable {σ ι κ : Type}

namespace System

variable (sys : System σ ι κ)

/-- What a request has still to do after its next commit. -/
def left (s : σ) (k : κ) (rest : List κ) : List κ := if (sys.apply s k).2 then rest else []

def step (state : State σ κ) : Action ι → State σ κ
  | .arrive request =>
      ⟨(sys.accept state.shared request).1,
        state.running ++ [(sys.accept state.shared request).2]⟩
  | .commit index =>
      match state.running[index]? with
      | some (k :: rest) =>
          ⟨(sys.apply state.shared k).1, state.running.set index (sys.left state.shared k rest)⟩
      | some [] | none => state

def run (state : State σ κ) (actions : List (Action ι)) : State σ κ := actions.foldl sys.step state

/-- A queue worked off without anything between its commits. -/
def alone (s : σ) : List κ → σ
  | [] => s
  | k :: rest => if (sys.apply s k).2 then alone (sys.apply s k).1 rest else (sys.apply s k).1

theorem run_append (state : State σ κ) (actions more : List (Action ι)) :
    sys.run state (actions ++ more) = sys.run (sys.run state actions) more := List.foldl_append

/-- The two ways a commit of the schedule can go. -/
theorem step_commit (state : State σ κ) (index : Nat) :
    sys.step state (.commit index) = state ∨
      ∃ k rest, state.running[index]? = some (k :: rest) ∧
        sys.step state (.commit index) =
          ⟨(sys.apply state.shared k).1, state.running.set index (sys.left state.shared k rest)⟩ := by
  rw [step]
  cases hqueue : state.running[index]? with
  | none => exact .inl rfl
  | some queue =>
      cases queue with
      | nil => exact .inl rfl
      | cons k rest => exact .inr ⟨k, rest, rfl, rfl⟩

/-- Commits that never end their request are applied one after the other. -/
theorem alone_eq_foldl {s : σ} {queue : List κ} (h : ∀ k ∈ queue, ∀ s, (sys.apply s k).2 = true) :
    sys.alone s queue = queue.foldl (fun s k => (sys.apply s k).1) s := by
  induction queue generalizing s with
  | nil => rfl
  | cons k rest ih =>
      rw [alone, if_pos (h k List.mem_cons_self s), List.foldl_cons]
      exact ih fun k hk => h k (List.mem_cons_of_mem _ hk)

/-! ### What every step keeps to -/

/-- A reflexive and transitive relation between the states before and after every step holds between
any two moments of a run. -/
theorem run_rel {R : σ → σ → Prop} (hrefl : ∀ s, R s s) (htrans : ∀ {a b c}, R a b → R b c → R a c)
    (haccept : ∀ s request, R s (sys.accept s request).1) (happly : ∀ s k, R s (sys.apply s k).1)
    (state : State σ κ) (actions : List (Action ι)) :
    R state.shared (sys.run state actions).shared := by
  induction actions generalizing state with
  | nil => exact hrefl _
  | cons action actions ih =>
      refine htrans ?_ (ih (sys.step state action))
      cases action with
      | arrive request => exact haccept _ _
      | commit index =>
          rcases sys.step_commit state index with hsame | ⟨k, rest, _, hstep⟩
          · rw [hsame]
            exact hrefl _
          · rw [hstep]
            exact happly _ _

/-- A commit is in its queue, behind others that never end their request. -/
def Waits (k : κ) (rest : List κ) (index : Nat) (state : State σ κ) : Prop :=
  ∃ front, (∀ k' ∈ front, ∀ s, (sys.apply s k').2 = true) ∧ state.running[index]? = some (front ++ k :: rest)

/-- A step leaves a commit in its queue or carries it out. -/
theorem waits_step {k : κ} {rest : List κ} {index : Nat} {state : State σ κ}
    (h : sys.Waits k rest index state) (action : Action ι) :
    sys.Waits k rest index (sys.step state action) ∨
      (sys.step state action).shared = (sys.apply state.shared k).1 := by
  obtain ⟨front, hgoes, hqueue⟩ := h
  cases action with
  | arrive request =>
      refine .inl ⟨front, hgoes, ?_⟩
      show (state.running ++ [_])[index]? = _
      rw [List.getElem?_append_left (List.getElem?_eq_some_iff.mp hqueue).1, hqueue]
  | commit other =>
      rcases sys.step_commit state other with hsame | ⟨k', rest', hnext, hstep⟩
      · rw [hsame]
        exact .inl ⟨front, hgoes, hqueue⟩
      · rw [hstep]
        by_cases hindex : other = index
        · subst hindex
          rw [hqueue] at hnext
          cases front with
          | nil =>
              obtain ⟨rfl, rfl⟩ := List.cons.inj (Option.some.inj hnext)
              exact .inr rfl
          | cons first front =>
              obtain ⟨rfl, rfl⟩ := List.cons.inj (Option.some.inj hnext)
              refine .inl ⟨front, fun k hk => hgoes k (List.mem_cons_of_mem _ hk), ?_⟩
              show (state.running.set other _)[other]? = _
              rw [List.getElem?_set_self (List.getElem?_eq_some_iff.mp hqueue).1, left,
                if_pos (hgoes first List.mem_cons_self _)]
              rfl
        · refine .inl ⟨front, hgoes, ?_⟩
          show (state.running.set other _)[index]? = _
          rw [List.getElem?_set_ne hindex, hqueue]

/-- What a commit brings about and every step keeps is so when the commit is no longer in its queue. -/
theorem reached {Q : σ → Prop} {k : κ} {rest : List κ} {index : Nat}
    (haccept : ∀ {s} request, Q s → Q (sys.accept s request).1)
    (happly : ∀ {s} k, Q s → Q (sys.apply s k).1) (hreach : ∀ s, Q (sys.apply s k).1) {state : State σ κ}
    (h : sys.Waits k rest index state ∨ Q state.shared) (actions : List (Action ι)) :
    sys.Waits k rest index (sys.run state actions) ∨ Q (sys.run state actions).shared := by
  induction actions generalizing state with
  | nil => exact h
  | cons action actions ih =>
      refine ih ?_
      rcases h with hwaits | hQ
      · rcases sys.waits_step hwaits action with hstill | hdone
        · exact .inl hstill
        · right
          rw [hdone]
          exact hreach _
      · right
        cases action with
        | arrive request => exact haccept request hQ
        | commit other =>
            rcases sys.step_commit state other with hsame | ⟨k', _, _, hstep⟩
            · rwa [hsame]
            · rw [hstep]
              exact happly k' hQ

/-- Two systems that queue and commit the same, from related states, stay related. -/
theorem run_related {τ : Type} (other : System τ ι κ) (R : σ → τ → Prop)
    (haccept : ∀ {s t} request, R s t → R (sys.accept s request).1 (other.accept t request).1 ∧
      (sys.accept s request).2 = (other.accept t request).2)
    (happly : ∀ {s t} k, R s t → R (sys.apply s k).1 (other.apply t k).1 ∧
      (sys.apply s k).2 = (other.apply t k).2)
    {state : State σ κ} {state' : State τ κ} (h : R state.shared state'.shared)
    (hrunning : state.running = state'.running) (actions : List (Action ι)) :
    R (sys.run state actions).shared (other.run state' actions).shared ∧
      (sys.run state actions).running = (other.run state' actions).running := by
  induction actions generalizing state state' with
  | nil => exact ⟨h, hrunning⟩
  | cons action actions ih =>
      cases action with
      | arrive request =>
          obtain ⟨hshared, hqueue⟩ := haccept request h
          refine ih hshared ?_
          show state.running ++ [_] = state'.running ++ [_]
          rw [hrunning, hqueue]
      | commit index =>
          obtain ⟨s, running⟩ := state
          obtain ⟨t, running'⟩ := state'
          obtain rfl := hrunning
          cases hqueue : running[index]? with
          | none =>
              refine ih ?_ ?_ <;> simp only [step, hqueue]
              exact h
          | some queue =>
              cases queue with
              | nil =>
                  refine ih ?_ ?_ <;> simp only [step, hqueue]
                  exact h
              | cons k rest =>
                  obtain ⟨hshared, hflag⟩ := happly k h
                  refine ih ?_ ?_ <;> simp only [step, hqueue]
                  · exact hshared
                  · rw [left, left, hflag]

end System

/-! ### Invariants -/

/-- An action meets a condition on the requests that come in. -/
def Action.Meets (ok : σ → ι → Prop) (state : State σ κ) : Action ι → Prop
  | .arrive request => ok state.shared request
  | .commit _ => True

/-- The property holds of the shared state, and every queue keeps its promise. -/
structure Holds (P : σ → Prop) (promise : σ → List κ → Prop) (state : State σ κ) : Prop where
  shared : P state.shared
  running : ∀ queue ∈ state.running, promise state.shared queue

/-- A property with the promise of a queue that its own commits need and those of the others keep. -/
structure Invariant (sys : System σ ι κ) (ok : σ → ι → Prop) (P : σ → Prop)
    (promise : σ → List κ → Prop) : Prop where
  accept : ∀ {s request}, P s → ok s request →
    P (sys.accept s request).1 ∧ promise (sys.accept s request).1 (sys.accept s request).2
  accept_stable : ∀ {s request queue}, P s → ok s request → promise s queue →
    promise (sys.accept s request).1 queue
  apply : ∀ {s k rest}, P s → promise s (k :: rest) →
    P (sys.apply s k).1 ∧ promise (sys.apply s k).1 (sys.left s k rest)
  apply_stable : ∀ {s k rest queue}, P s → promise s (k :: rest) → promise s queue →
    promise (sys.apply s k).1 queue

/-- A promise made by each commit of the queue on its own. -/
def Each (promise : σ → κ → Prop) (s : σ) (queue : List κ) : Prop := ∀ k ∈ queue, promise s k

section Rules

variable {sys : System σ ι κ} {ok : σ → ι → Prop} {P : σ → Prop}

theorem Each.left {promise : σ → κ → Prop} {s s' : σ} {k : κ} {rest : List κ}
    (h : Each promise s' rest) : Each promise s' (sys.left s k rest) := by
  unfold System.left
  split
  · exact h
  · exact fun _ hk => absurd hk List.not_mem_nil

/-- A commit by commit promise is stable when each step keeps it for each commit. -/
theorem Invariant.ofEach {promise : σ → κ → Prop}
    (accept : ∀ {s request}, P s → ok s request →
      P (sys.accept s request).1 ∧ ∀ k ∈ (sys.accept s request).2, promise (sys.accept s request).1 k)
    (accept_stable : ∀ {s request k}, P s → ok s request → promise s k →
      promise (sys.accept s request).1 k)
    (apply : ∀ {s k}, P s → promise s k → P (sys.apply s k).1)
    (apply_stable : ∀ {s k other}, P s → promise s k → promise s other →
      promise (sys.apply s k).1 other) :
    Invariant sys ok P (Each promise) where
  accept hP hok := accept hP hok
  accept_stable hP hok hqueue k hk := accept_stable hP hok (hqueue k hk)
  apply := by
    intro s k rest hP hqueue
    have hk := hqueue k List.mem_cons_self
    exact ⟨apply hP hk, Each.left fun other hother =>
      apply_stable hP hk (hqueue other (List.mem_cons_of_mem _ hother))⟩
  apply_stable hP hqueue hother k hk :=
    apply_stable hP (hqueue _ List.mem_cons_self) (hother k hk)

/-- What all queues look like, when they come in and after every commit. -/
theorem Invariant.ofShape {shape : List κ → Prop} (nil : shape [])
    (tail : ∀ {k rest}, shape (k :: rest) → shape rest)
    (accept : ∀ s request, shape (sys.accept s request).2) :
    Invariant sys ok (fun _ => True) fun _ => shape where
  accept _ _ := ⟨trivial, accept _ _⟩
  accept_stable _ _ hqueue := hqueue
  apply := by
    intro s k rest _ hqueue
    refine ⟨trivial, ?_⟩
    unfold System.left
    split
    · exact tail hqueue
    · exact nil
  apply_stable _ _ hother := hother

variable {promise : σ → List κ → Prop}

/-- One action keeps the property and all promises. -/
theorem Invariant.step (h : Invariant sys ok P promise) {state : State σ κ} {action : Action ι}
    (hstate : Holds P promise state) (hok : action.Meets ok state) :
    Holds P promise (sys.step state action) := by
  cases action with
  | arrive request =>
      obtain ⟨hP, hqueue⟩ := h.accept hstate.shared hok
      refine ⟨hP, fun queue hmem => ?_⟩
      rcases List.mem_append.mp hmem with hold | hnew
      · exact h.accept_stable hstate.shared hok (hstate.running queue hold)
      · cases List.mem_singleton.mp hnew
        exact hqueue
  | commit index =>
      rcases sys.step_commit state index with hsame | ⟨k, rest, hnext, hstep⟩
      · rw [hsame]
        exact hstate
      · have hnow := hstate.running _ (List.mem_of_getElem? hnext)
        obtain ⟨hP, hrest⟩ := h.apply hstate.shared hnow
        rw [hstep]
        refine ⟨hP, fun queue hmem => ?_⟩
        rcases List.mem_or_eq_of_mem_set hmem with hold | rfl
        · exact h.apply_stable hstate.shared hnow (hstate.running queue hold)
        · exact hrest

/-- An invariant holds after every run whose requests all meet the condition. -/
theorem Invariant.run (h : Invariant sys ok P promise) {state : State σ κ} {actions : List (Action ι)}
    (hstate : Holds P promise state)
    (hok : Runs.EachStep sys.step (fun state action => action.Meets ok state) state actions) :
    Holds P promise (sys.run state actions) := by
  induction actions generalizing state with
  | nil => exact hstate
  | cons action actions ih => exact ih (h.step hstate hok.1) hok.2

/-- An invariant that looks at the requests alone holds after every run of such requests. -/
theorem Invariant.run_of_mem {ok : ι → Prop} (h : Invariant sys (fun _ request => ok request) P promise)
    {state : State σ κ} {actions : List (Action ι)} (hstate : Holds P promise state)
    (hok : ∀ request, .arrive request ∈ actions → ok request) :
    Holds P promise (sys.run state actions) := by
  induction actions generalizing state with
  | nil => exact hstate
  | cons action actions ih =>
      refine ih (h.step hstate ?_) fun request hrequest => hok request (List.mem_cons_of_mem _ hrequest)
      cases action with
      | arrive request => exact hok request List.mem_cons_self
      | commit index => trivial

/-- An invariant that asks nothing of the requests holds after every run. -/
theorem Invariant.run_any (h : Invariant sys (fun _ _ => True) P promise) {state : State σ κ}
    (hstate : Holds P promise state) (actions : List (Action ι)) :
    Holds P promise (sys.run state actions) := h.run_of_mem hstate fun _ _ => trivial

end Rules

/-! ### What was committed -/

/-- A state before anything was committed. -/
def State.untraced (state : State σ κ) : State (σ × List κ) κ := ⟨(state.shared, []), state.running⟩

namespace System

variable (sys : System σ ι κ)

/-- The system that also keeps what was committed, in order. -/
def traced : System (σ × List κ) ι κ where
  accept s request := (((sys.accept s.1 request).1, s.2), (sys.accept s.1 request).2)
  apply s k := (((sys.apply s.1 k).1, s.2 ++ [k]), (sys.apply s.1 k).2)

/-- The trace is only kept, never looked at. -/
theorem traced_step {state : State (σ × List κ) κ} {s : σ} (h : state.shared.1 = s) (action : Action ι) :
    (sys.traced.step state action).shared.1 = (sys.step ⟨s, state.running⟩ action).shared ∧
      (sys.traced.step state action).running = (sys.step ⟨s, state.running⟩ action).running := by
  subst h
  cases action with
  | arrive request => exact ⟨rfl, rfl⟩
  | commit index =>
      simp only [step]
      cases state.running[index]? with
      | none => exact ⟨rfl, rfl⟩
      | some queue => cases queue <;> exact ⟨rfl, rfl⟩

theorem traced_run (state : State σ κ) (actions : List (Action ι)) :
    (sys.traced.run state.untraced actions).shared.1 = (sys.run state actions).shared ∧
      (sys.traced.run state.untraced actions).running = (sys.run state actions).running := by
  induction actions using List.reverseRecOn with
  | nil => exact ⟨rfl, rfl⟩
  | append_singleton actions action ih =>
      rw [run_append, run_append]
      obtain ⟨hshared, hrunning⟩ := sys.traced_step ih.1 action
      rw [ih.2] at hshared hrunning
      exact ⟨hshared, hrunning⟩

/-- What only commits change is made by the commits of the trace, in their order. -/
theorem traced_foldl {α : Type} (part : σ → α) (change : α → κ → α)
    (haccept : ∀ s request, part (sys.accept s request).1 = part s)
    (happly : ∀ s k, part (sys.apply s k).1 = change (part s) k) (state : State σ κ)
    (actions : List (Action ι)) :
    part (sys.traced.run state.untraced actions).shared.1 =
      (sys.traced.run state.untraced actions).shared.2.foldl change (part state.shared) := by
  induction actions using List.reverseRecOn with
  | nil => rfl
  | append_singleton actions action ih =>
      rw [run_append]
      generalize sys.traced.run state.untraced actions = now at ih
      cases action with
      | arrive request => exact (haccept _ _).trans ih
      | commit index =>
          show part (sys.traced.step now (.commit index)).shared.1 =
            (sys.traced.step now (.commit index)).shared.2.foldl change (part state.shared)
          rcases sys.traced.step_commit now index with hsame | ⟨k, rest, _, hstep⟩
          · rw [hsame]
            exact ih
          · rw [hstep]
            show part (sys.apply now.shared.1 k).1 = (now.shared.2 ++ [k]).foldl change (part state.shared)
            rw [happly, ih, List.foldl_append]
            rfl

end System

/-! ### Ledgers -/

section Ledger

variable (sys : System σ ι κ) {ν : Type} (R : Multiset ν → Multiset ν → Prop)
  (booked covered : σ → Multiset ν) (owed : List κ → Multiset ν)

/-- What is booked, with what the queues have still to book, against what covers it. -/
def Ledger (state : State σ κ) : Prop :=
  R (booked state.shared + (state.running.map owed).sum) (covered state.shared)

variable {sys R booked covered owed}

/-- The sum over the queues, with one of them replaced. -/
theorem sum_map_set {queues : List (List κ)} {index : Nat} {queue : List κ}
    (h : queues[index]? = some queue) :
    ∃ others, (queues.map owed).sum = owed queue + others ∧
      ∀ queue', ((queues.set index queue').map owed).sum = owed queue' + others := by
  induction queues generalizing index with
  | nil => cases h
  | cons first queues ih =>
      cases index with
      | zero =>
          cases h
          exact ⟨(queues.map owed).sum, rfl, fun _ => rfl⟩
      | succ index =>
          obtain ⟨others, hsum, hset⟩ := ih h
          refine ⟨owed first + others, ?_, fun queue' => ?_⟩
          · rw [List.map_cons, List.sum_cons, hsum, add_left_comm]
          · rw [List.set_cons_succ, List.map_cons, List.sum_cons, hset, add_left_comm]

/-- A ledger that every request and every commit balances is balanced all along a run. -/
theorem Ledger.run [IsTrans (Multiset ν) R] {P : σ → Prop} {promise : σ → List κ → Prop}
    (hadd : ∀ {a b} c, R a b → R (a + c) (b + c))
    (hinv : Invariant sys (fun _ _ => True) P promise)
    (haccept : ∀ {s} request, P s → ∃ gain, covered (sys.accept s request).1 = covered s + gain ∧
      R (booked (sys.accept s request).1 + owed (sys.accept s request).2) (booked s + gain))
    (happly : ∀ {s k rest}, P s → promise s (k :: rest) →
      ∃ gain, covered (sys.apply s k).1 = covered s + gain ∧
        R (booked (sys.apply s k).1 + owed (sys.left s k rest)) (booked s + owed (k :: rest) + gain))
    {state : State σ κ} (hstate : Holds P promise state) (h : Ledger R booked covered owed state)
    (actions : List (Action ι)) :
    Ledger R booked covered owed (sys.run state actions) := by
  induction actions generalizing state with
  | nil => exact h
  | cons action actions ih =>
      refine ih (hinv.step hstate (by cases action <;> trivial)) ?_
      unfold Ledger at h ⊢
      cases action with
      | arrive request =>
          obtain ⟨gain, hgain, hbalance⟩ := haccept request hstate.shared
          exact calc
            booked (sys.accept state.shared request).1
                  + ((state.running ++ [(sys.accept state.shared request).2]).map owed).sum
                = booked (sys.accept state.shared request).1 + owed (sys.accept state.shared request).2
                    + (state.running.map owed).sum := by
                  rw [List.map_append, List.sum_append, List.map_singleton, List.sum_singleton,
                    add_assoc, add_comm (owed _)]
            R _ (booked state.shared + gain + (state.running.map owed).sum) := hadd _ hbalance
            _ = booked state.shared + (state.running.map owed).sum + gain := add_right_comm _ _ _
            R _ (covered state.shared + gain) := hadd _ h
            _ = _ := hgain.symm
      | commit index =>
          rcases sys.step_commit state index with hsame | ⟨k, rest, hnext, hstep⟩
          · rw [hsame]
            exact h
          · obtain ⟨gain, hgain, hbalance⟩ :=
              happly hstate.shared (hstate.running _ (List.mem_of_getElem? hnext))
            obtain ⟨others, hsum, hset⟩ := sum_map_set hnext
            rw [hsum] at h
            rw [hstep, hset]
            exact calc
              booked (sys.apply state.shared k).1 + (owed (sys.left state.shared k rest) + others)
                  = booked (sys.apply state.shared k).1 + owed (sys.left state.shared k rest) + others :=
                    (add_assoc _ _ _).symm
              R _ (booked state.shared + owed (k :: rest) + gain + others) := hadd _ hbalance
              _ = booked state.shared + (owed (k :: rest) + others) + gain := by
                rw [add_right_comm, add_assoc (booked state.shared)]
              R _ (covered state.shared + gain) := hadd _ h
              _ = _ := hgain.symm

end Ledger

end InFlight

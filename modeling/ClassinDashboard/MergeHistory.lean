import ClassinDashboard.SqlTable
import Mathlib.Data.List.Induction
import Mathlib.Data.List.TakeWhile

/-!
Histories of a table whose upserts merge into the row that is there, and which has a column that only
an update assigns. What a row holds is read off the history of its key, one law for each kind of
column; a history that is told again changes nothing.
-/

namespace Sql

/-- One statement about a row: an upsert, or an assignment of the column no upsert sets. -/
inductive Change (ν β : Type)
  | merge (new : ν)
  | assign (b : β)

namespace Change

variable {ν β : Type}

def isAssign : Change ν β → Bool
  | merge _ => false
  | assign _ => true

def merged : Change ν β → Option ν
  | merge new => some new
  | assign _ => none

def assigned : Change ν β → Option β
  | merge _ => none
  | assign b => some b

end Change

/-- How a table takes its statements. Two merges are one merge of what they say together, and saying
the same thing twice is saying it once. -/
structure Merging (ρ ν β : Type) where
  insert : ν → ρ
  merge : ρ → ν → ρ
  assign : ρ → β → ρ
  both : ν → ν → ν
  merge_merge : ∀ r a b, merge (merge r a) b = merge r (both a b)
  merge_self : ∀ r a, merge (merge r a) a = merge r a
  merge_insert : ∀ a, merge (insert a) a = insert a
  assign_assign : ∀ r a b, assign (assign r a) b = assign r b
  merge_assign : ∀ r a b, merge (assign r b) a = assign (merge r a) b

section Known

variable {φ : Type} [DecidableEq φ]

/-- The last value that is known, or the value that stands for none. -/
def lastKnown (unknown : φ) (values : List φ) : φ :=
  (values.filter fun value => value ≠ unknown).getLast?.getD unknown

@[simp] theorem lastKnown_nil (unknown : φ) : lastKnown unknown [] = unknown := rfl

theorem lastKnown_concat (unknown : φ) (values : List φ) (value : φ) :
    lastKnown unknown (values ++ [value]) =
      if value = unknown then lastKnown unknown values else value := by
  unfold lastKnown
  rw [List.filter_append]
  by_cases h : value = unknown
  · simp [h]
  · simp [h]

end Known

variable {ρ ν β : Type}

/-- The upserts of a history. -/
def merges (changes : List (Change ν β)) : List ν := changes.filterMap Change.merged

/-- The last assignment since there was a row to assign to. -/
def lastAssigned (unassigned : β) (changes : List (Change ν β)) : β :=
  ((changes.dropWhile Change.isAssign).filterMap Change.assigned).getLast?.getD unassigned

/-- There was a row before the first assignment. -/
def Anchored (changes : List (Change ν β)) : Prop := changes.head?.all fun c => !c.isAssign

theorem merges_concat_merge (changes : List (Change ν β)) (new : ν) :
    merges (changes ++ [.merge new]) = merges changes ++ [new] := by
  rw [merges, List.filterMap_append]
  rfl

theorem merges_concat_assign (changes : List (Change ν β)) (b : β) :
    merges (changes ++ [.assign b]) = merges changes := by
  rw [merges, List.filterMap_append]
  exact List.append_nil _

theorem dropWhile_isAssign_eq_nil_iff {changes : List (Change ν β)} :
    changes.dropWhile Change.isAssign = [] ↔ merges changes = [] := by
  rw [List.dropWhile_eq_nil_iff, merges, List.filterMap_eq_nil_iff]
  refine forall₂_congr fun c _ => ?_
  cases c <;> simp [Change.isAssign, Change.merged]

theorem lastAssigned_of_merges_eq_nil {changes : List (Change ν β)} (h : merges changes = [])
    (unassigned : β) : lastAssigned unassigned changes = unassigned := by
  rw [lastAssigned, dropWhile_isAssign_eq_nil_iff.mpr h]
  rfl

theorem lastAssigned_concat_merge (unassigned : β) (changes : List (Change ν β)) (new : ν) :
    lastAssigned unassigned (changes ++ [.merge new]) = lastAssigned unassigned changes := by
  unfold lastAssigned
  rw [List.dropWhile_append]
  split
  · rename_i h
    rw [List.isEmpty_iff] at h
    rw [h]
    rfl
  · rw [List.filterMap_append]
    congr 2
    exact List.append_nil _

theorem lastAssigned_concat_assign (unassigned : β) {changes : List (Change ν β)}
    (h : merges changes ≠ []) (b : β) : lastAssigned unassigned (changes ++ [.assign b]) = b := by
  unfold lastAssigned
  rw [List.dropWhile_append, if_neg, List.filterMap_append]
  · simp [Change.assigned]
  · rwa [List.isEmpty_iff, dropWhile_isAssign_eq_nil_iff]

namespace Merging

variable (m : Merging ρ ν β)

/-- One statement about the row of its key. -/
def step (row : Option ρ) : Change ν β → Option ρ
  | .merge new => some ((row.map fun r => m.merge r new).getD (m.insert new))
  | .assign b => row.map fun r => m.assign r b

/-- The row after a history that began without one. -/
def history (changes : List (Change ν β)) : Option ρ := changes.foldl m.step none

theorem history_concat (changes : List (Change ν β)) (c : Change ν β) :
    m.history (changes ++ [c]) = m.step (m.history changes) c := List.foldl_concat ..

/-- There is a row once an upsert was made. -/
theorem isSome_foldl (row : Option ρ) (changes : List (Change ν β)) :
    (changes.foldl m.step row).isSome ↔ row.isSome ∨ merges changes ≠ [] := by
  induction changes using List.reverseRecOn with
  | nil => simp [merges]
  | append_singleton changes c ih =>
      rw [List.foldl_concat]
      cases c with
      | merge new => simp [step, merges_concat_merge]
      | assign b => rw [step, Option.isSome_map, ih, merges_concat_assign]

theorem history_eq_none_iff {changes : List (Change ν β)} :
    m.history changes = none ↔ merges changes = [] := by
  rw [← Option.not_isSome_iff_eq_none, history, isSome_foldl]
  simp

/-! ### The columns of a row -/

section Columns

variable {m} {φ : Type} (field : ρ → φ) (value : ν → φ)

/-- A column that an upsert fills in where it has a value. -/
theorem known_column [DecidableEq φ] {unknown : φ} (hinsert : ∀ a, field (m.insert a) = value a)
    (hmerge : ∀ r a, field (m.merge r a) = if value a = unknown then field r else value a)
    (hassign : ∀ r b, field (m.assign r b) = field r) {changes : List (Change ν β)} {row : ρ}
    (h : m.history changes = some row) :
    field row = lastKnown unknown ((merges changes).map value) := by
  induction changes using List.reverseRecOn generalizing row with
  | nil => cases h
  | append_singleton changes c ih =>
      rw [history_concat] at h
      cases c with
      | merge new =>
          rw [merges_concat_merge, List.map_append, List.map_singleton, lastKnown_concat]
          cases hrow : m.history changes with
          | none =>
              rw [hrow] at h
              cases h
              show field (m.insert new) = _
              rw [m.history_eq_none_iff.mp hrow, hinsert]
              split
              · assumption
              · rfl
          | some old =>
              rw [hrow] at h
              cases h
              show field (m.merge old new) = _
              rw [hmerge, ih hrow]
      | assign b =>
          obtain ⟨old, hrow, rfl⟩ := Option.map_eq_some_iff.mp h
          rw [merges_concat_assign, hassign, ih hrow]

/-- A column that only the insert sets. -/
theorem first_column (hinsert : ∀ a, field (m.insert a) = value a)
    (hmerge : ∀ r a, field (m.merge r a) = field r) (hassign : ∀ r b, field (m.assign r b) = field r)
    {changes : List (Change ν β)} {row : ρ} (h : m.history changes = some row) :
    (merges changes).head?.map value = some (field row) := by
  induction changes using List.reverseRecOn generalizing row with
  | nil => cases h
  | append_singleton changes c ih =>
      rw [history_concat] at h
      cases c with
      | merge new =>
          rw [merges_concat_merge, List.head?_append]
          cases hrow : m.history changes with
          | none =>
              rw [hrow] at h
              cases h
              rw [m.history_eq_none_iff.mp hrow]
              exact congrArg some (hinsert new).symm
          | some old =>
              rw [hrow] at h
              cases h
              show _ = some (field (m.merge old new))
              rw [hmerge, ← ih hrow]
              cases hhead : (merges changes).head? with
              | none =>
                  have hnil := m.history_eq_none_iff.mpr (List.head?_eq_none_iff.mp hhead)
                  cases hnil.symm.trans hrow
              | some first => rfl
      | assign b =>
          obtain ⟨old, hrow, rfl⟩ := Option.map_eq_some_iff.mp h
          rw [merges_concat_assign, hassign, ih hrow]

/-- The column that no upsert touches. -/
theorem assigned_column (field : ρ → β) {unassigned : β}
    (hinsert : ∀ a, field (m.insert a) = unassigned)
    (hmerge : ∀ r a, field (m.merge r a) = field r) (hassign : ∀ r b, field (m.assign r b) = b)
    {changes : List (Change ν β)} {row : ρ} (h : m.history changes = some row) :
    field row = lastAssigned unassigned changes := by
  induction changes using List.reverseRecOn generalizing row with
  | nil => cases h
  | append_singleton changes c ih =>
      rw [history_concat] at h
      cases c with
      | merge new =>
          rw [lastAssigned_concat_merge]
          cases hrow : m.history changes with
          | none =>
              rw [hrow] at h
              cases h
              rw [lastAssigned_of_merges_eq_nil (m.history_eq_none_iff.mp hrow)]
              exact hinsert new
          | some old =>
              rw [hrow] at h
              cases h
              exact (hmerge old new).trans (ih hrow)
      | assign b =>
          obtain ⟨old, hrow, rfl⟩ := Option.map_eq_some_iff.mp h
          have hmerges : merges changes ≠ [] := fun hnil => by
            rw [m.history_eq_none_iff.mpr hnil] at hrow
            cases hrow
          rw [lastAssigned_concat_assign _ hmerges, hassign]

end Columns

/-! ### Telling a history again -/

/-- One statement about a row that is there. -/
def act (r : ρ) : Change ν β → ρ
  | .merge new => m.merge r new
  | .assign b => m.assign r b

theorem foldl_step_some (changes : List (Change ν β)) (r : ρ) :
    changes.foldl m.step (some r) = some (changes.foldl m.act r) := by
  induction changes generalizing r with
  | nil => rfl
  | cons c changes ih =>
      cases c with
      | merge new => exact ih (m.merge r new)
      | assign b => exact ih (m.assign r b)

/-- The effect of one merge and one assignment, where there were any. -/
def effect (new : Option ν) (b : Option β) (r : ρ) : ρ :=
  b.elim (new.elim r (m.merge r)) (m.assign (new.elim r (m.merge r)))

/-- A history has the effect of one merge and one assignment. -/
theorem exists_effect (changes : List (Change ν β)) :
    ∃ new b, ∀ r, changes.foldl m.act r = m.effect new b r := by
  induction changes with
  | nil => exact ⟨none, none, fun _ => rfl⟩
  | cons c changes ih =>
      obtain ⟨new, b, h⟩ := ih
      cases c with
      | merge first =>
          refine ⟨some (new.elim first (m.both first)), b, fun r => ?_⟩
          rw [List.foldl_cons, h]
          cases new <;> cases b <;> simp [effect, act, m.merge_merge]
      | assign first =>
          refine ⟨new, some (b.getD first), fun r => ?_⟩
          rw [List.foldl_cons, h]
          cases new <;> cases b <;> simp [effect, act, m.merge_assign, m.assign_assign]

theorem effect_effect (new : Option ν) (b : Option β) (r : ρ) :
    m.effect new b (m.effect new b r) = m.effect new b r := by
  cases new <;> cases b <;> simp [effect, m.merge_assign, m.assign_assign, m.merge_self]

theorem foldl_act_twice (changes : List (Change ν β)) (r : ρ) :
    changes.foldl m.act (changes.foldl m.act r) = changes.foldl m.act r := by
  obtain ⟨new, b, h⟩ := m.exists_effect changes
  rw [h, h, effect_effect]

/-- A history told twice is told once, unless it began by assigning to a row that was not there. -/
theorem foldl_step_twice {changes : List (Change ν β)} (h : Anchored changes) (row : Option ρ) :
    changes.foldl m.step (changes.foldl m.step row) = changes.foldl m.step row := by
  cases row with
  | some r => rw [foldl_step_some, foldl_step_some, foldl_act_twice]
  | none =>
      cases changes with
      | nil => rfl
      | cons c changes =>
          cases c with
          | assign b => simp [Anchored, Change.isAssign] at h
          | merge new =>
              -- the first upsert finds what it has just inserted
              have hfirst : m.step none (.merge new) = some (m.act (m.insert new) (.merge new)) :=
                congrArg some (m.merge_insert new).symm
              have hrun : ((Change.merge new : Change ν β) :: changes).foldl m.step none =
                  some (((Change.merge new : Change ν β) :: changes).foldl m.act (m.insert new)) := by
                rw [List.foldl_cons, hfirst, foldl_step_some, List.foldl_cons]
              rw [hrun, foldl_step_some, foldl_act_twice]

/-! ### The table -/

variable {κ : Type} [DecidableEq κ]

/-- One statement on the table. -/
def apply (t : Table κ ρ) (call : κ × Change ν β) : Table κ ρ :=
  match call.2 with
  | .merge new => t.upsert call.1 (m.insert new) fun r => m.merge r new
  | .assign b => t.modify call.1 fun r => m.assign r b

end Merging

variable {κ : Type} [DecidableEq κ]

/-- The history of a key. -/
def changesOf (k : κ) (calls : List (κ × Change ν β)) : List (Change ν β) :=
  calls.filterMap fun call => if call.1 = k then some call.2 else none

theorem changesOf_append (k : κ) (calls later : List (κ × Change ν β)) :
    changesOf k (calls ++ later) = changesOf k calls ++ changesOf k later := List.filterMap_append

theorem mem_merges_changesOf {calls : List (κ × Change ν β)} {k : κ} {new : ν}
    (h : (k, Change.merge new) ∈ calls) : new ∈ merges (changesOf k calls) :=
  List.mem_filterMap.mpr ⟨.merge new, List.mem_filterMap.mpr ⟨_, h, if_pos rfl⟩, rfl⟩

namespace Merging

variable (m : Merging ρ ν β)

theorem find_apply (t : Table κ ρ) (call : κ × Change ν β) (k : κ) :
    (m.apply t call).find k = if call.1 = k then m.step (t.find k) call.2 else t.find k := by
  obtain ⟨key, c⟩ := call
  cases c with
  | merge new =>
      rw [apply, Table.find_upsert]
      by_cases h : k = key
      · rw [if_pos h, if_pos h.symm, h]
        rfl
      · rw [if_neg h, if_neg (Ne.symm h)]
  | assign b =>
      rw [apply, Table.find_modify]
      by_cases h : k = key
      · rw [if_pos h, if_pos h.symm, h]
        rfl
      · rw [if_neg h, if_neg (Ne.symm h)]

/-- The row of a key depends on the history of the key alone. -/
theorem find_run (calls : List (κ × Change ν β)) (t : Table κ ρ) (k : κ) :
    (calls.foldl m.apply t).find k = (changesOf k calls).foldl m.step (t.find k) := by
  induction calls generalizing t with
  | nil => rfl
  | cons call calls ih =>
      rw [List.foldl_cons, ih, find_apply, changesOf, changesOf, List.filterMap_cons]
      by_cases h : call.1 = k
      · rw [if_pos h, if_pos h, List.foldl_cons]
      · rw [if_neg h, if_neg h]

/-- A statement about a row that is there adds no row. -/
theorem keys_apply {t : Table κ ρ} {call : κ × Change ν β}
    (h : call.2.isAssign ∨ (t.find call.1).isSome) :
    (m.apply t call).rows.map Prod.fst = t.rows.map Prod.fst := by
  obtain ⟨key, c⟩ := call
  cases c with
  | merge new =>
      show (t.upsert key (m.insert new) fun r => m.merge r new).rows.map Prod.fst = _
      rw [Table.upsert_of_isSome (h.resolve_left Bool.false_ne_true), Table.keys_modify]
  | assign b => exact Table.keys_modify ..

theorem keys_run {calls : List (κ × Change ν β)} {t : Table κ ρ}
    (h : ∀ call ∈ calls, call.2.isAssign ∨ (t.find call.1).isSome) :
    (calls.foldl m.apply t).rows.map Prod.fst = t.rows.map Prod.fst := by
  induction calls generalizing t with
  | nil => rfl
  | cons call calls ih =>
      rw [List.foldl_cons, ih, keys_apply m (h call List.mem_cons_self)]
      intro later hlater
      refine (h later (List.mem_cons_of_mem _ hlater)).imp id fun hsome => ?_
      have hrun := (m.isSome_foldl (t.find later.1) (changesOf later.1 [call])).mpr (.inl hsome)
      rwa [← find_run] at hrun

/-- Calls made twice leave the table of the calls made once, its rows in the same order. -/
theorem run_twice {calls : List (κ × Change ν β)} (h : ∀ k, Anchored (changesOf k calls))
    (t : Table κ ρ) : calls.foldl m.apply (calls.foldl m.apply t) = calls.foldl m.apply t := by
  apply Table.ext_find
  · apply keys_run
    rintro ⟨key, c⟩ hcall
    cases c with
    | assign b => exact .inl rfl
    | merge new =>
        refine .inr ?_
        rw [find_run]
        exact (m.isSome_foldl _ _).mpr (.inr (List.ne_nil_of_mem (mem_merges_changesOf hcall)))
  · funext k
    rw [find_run, find_run, foldl_step_twice m (h k)]

end Merging
end Sql

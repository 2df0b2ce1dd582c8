import Mathlib.Algebra.GroupWithZero.Nat
import Mathlib.Data.Finset.Sort
import Mathlib.Data.List.Induction
import Mathlib.Data.List.Nodup

/-!
Lists grouped by a key, as a dictionary of lists groups them: the keys in the order of their first
occurrence, and under each key its entries in the order of the list.
-/

namespace Py

section Groups

variable {α κ : Type} [DecidableEq κ]

/-- The values of a list in the order of their first occurrence, each with the entries that have it. -/
def groupOn (key : α → κ) (rows : List α) : List (κ × List α) :=
  (rows.map key).eraseDups.map fun k => (k, rows.filter fun row => key row = k)

/-- `groups.setdefault(k, []).append(row)` -/
def addTo (k : κ) (row : α) : List (κ × List α) → List (κ × List α)
  | [] => [(k, [row])]
  | group :: groups =>
      if group.1 = k then (group.1, group.2 ++ [row]) :: groups else group :: addTo k row groups

theorem eraseDups_append_singleton (keys : List κ) (k : κ) :
    (keys ++ [k]).eraseDups = if k ∈ keys then keys.eraseDups else keys.eraseDups ++ [k] := by
  rw [List.eraseDups_append]
  by_cases hk : k ∈ keys <;> simp [List.removeAll, hk, List.eraseDups_cons]

theorem nodup_eraseDups (keys : List κ) : keys.eraseDups.Nodup := by
  induction keys using List.reverseRecOn with
  | nil => exact List.nodup_nil
  | append_singleton keys k ih =>
      rw [eraseDups_append_singleton]
      split
      · exact ih
      · rename_i hk
        rw [List.nodup_append]
        refine ⟨ih, List.nodup_singleton k, ?_⟩
        rintro a ha b hb rfl
        exact hk (List.mem_eraseDups.mp (List.mem_singleton.mp hb ▸ ha))

/-- A row of a key that is there goes to the end of the entries of that key. -/
theorem addTo_of_mem {k : κ} {row : α} {entries : κ → List α} {keys : List κ} (hnodup : keys.Nodup)
    (hk : k ∈ keys) : addTo k row (keys.map fun key => (key, entries key)) =
      keys.map fun key => (key, entries key ++ if key = k then [row] else []) := by
  induction keys with
  | nil => exact absurd hk List.not_mem_nil
  | cons key keys ih =>
      obtain ⟨hkey, hnodup⟩ := List.nodup_cons.mp hnodup
      rw [List.map_cons, List.map_cons, addTo]
      by_cases heq : key = k
      · have htail : keys.map (fun key => (key, entries key)) =
            keys.map fun key => (key, entries key ++ if key = k then [row] else []) := by
          refine List.map_congr_left fun other hother => ?_
          rw [if_neg, List.append_nil]
          rintro rfl
          exact hkey (heq ▸ hother)
        rw [if_pos heq, if_pos heq, htail]
      · rw [if_neg heq, if_neg heq, List.append_nil,
          ih hnodup ((List.mem_cons.mp hk).resolve_left (Ne.symm heq))]

theorem addTo_of_not_mem {k : κ} {row : α} {groups : List (κ × List α)}
    (hk : k ∉ groups.map Prod.fst) : addTo k row groups = groups ++ [(k, [row])] := by
  induction groups with
  | nil => rfl
  | cons group groups ih =>
      rw [List.map_cons, List.mem_cons, not_or] at hk
      rw [addTo, if_neg (Ne.symm hk.1), ih hk.2, List.cons_append]

/-- One more row goes to the group of its key. -/
theorem groupOn_append_singleton (key : α → κ) (rows : List α) (row : α) :
    groupOn key (rows ++ [row]) = addTo (key row) row (groupOn key rows) := by
  have hfilter (k : κ) : (rows ++ [row]).filter (fun r => key r = k) =
      rows.filter (fun r => key r = k) ++ if k = key row then [row] else [] := by
    rw [List.filter_append, List.filter_singleton]
    by_cases hk : k = key row
    · simp [hk]
    · simp [hk, Ne.symm hk]
  simp only [groupOn, List.map_append, List.map_singleton, eraseDups_append_singleton, hfilter]
  by_cases hk : key row ∈ rows.map key
  · rw [if_pos hk, addTo_of_mem (nodup_eraseDups _) (List.mem_eraseDups.mpr hk)]
  · have hkeys : key row ∉ ((rows.map key).eraseDups.map
        fun k => (k, rows.filter fun r => key r = k)).map Prod.fst := by
      rw [List.map_map, List.mem_map]
      rintro ⟨k, hmem, heq⟩
      exact hk (List.mem_eraseDups.mp ((show k = key row from heq) ▸ hmem))
    have hnone : rows.filter (fun r => key r = key row) = [] := by
      rw [List.filter_eq_nil_iff]
      intro r hr heq
      exact hk (List.mem_map.mpr ⟨r, hr, of_decide_eq_true heq⟩)
    rw [if_neg hk, addTo_of_not_mem hkeys, List.map_append, List.map_singleton, hnone,
      if_pos rfl, List.nil_append]
    congr 1
    refine List.map_congr_left fun k hmem => ?_
    rw [if_neg, List.append_nil]
    rintro rfl
    exact hk (List.mem_eraseDups.mp hmem)

theorem keys_groupOn (key : α → κ) (rows : List α) :
    (groupOn key rows).map Prod.fst = (rows.map key).eraseDups := by
  rw [groupOn, List.map_map]
  exact List.map_id _

theorem nodup_keys_groupOn (key : α → κ) (rows : List α) :
    ((groupOn key rows).map Prod.fst).Nodup := by
  rw [keys_groupOn]
  exact nodup_eraseDups _

theorem mem_keys_groupOn {key : α → κ} {rows : List α} {k : κ} :
    k ∈ (groupOn key rows).map Prod.fst ↔ ∃ row ∈ rows, key row = k := by
  rw [keys_groupOn, List.mem_eraseDups, List.mem_map]

theorem ne_nil_of_mem_groupOn {key : α → κ} {rows : List α} {group : κ × List α}
    (h : group ∈ groupOn key rows) : group.2 ≠ [] := by
  obtain ⟨k, hk, rfl⟩ := List.mem_map.mp h
  obtain ⟨row, hrow, hkey⟩ := List.mem_map.mp (List.mem_eraseDups.mp hk)
  exact List.ne_nil_of_mem (List.mem_filter.mpr ⟨hrow, decide_eq_true hkey⟩)

theorem sum_countP_addTo (counts : α → Bool) (k : κ) (row : α) (groups : List (κ × List α)) :
    ((addTo k row groups).map fun group => group.2.countP counts).sum =
      (groups.map fun group => group.2.countP counts).sum + if counts row then 1 else 0 := by
  induction groups with
  | nil => simp [addTo, List.countP_singleton]
  | cons group groups ih =>
      rw [addTo]
      split
      · rw [List.map_cons, List.map_cons, List.sum_cons, List.sum_cons, List.countP_append,
          List.countP_singleton]
        omega
      · rw [List.map_cons, List.map_cons, List.sum_cons, List.sum_cons, ih]
        omega

/-- Every row is counted in one group. -/
theorem sum_countP_groupOn (key : α → κ) (counts : α → Bool) (rows : List α) :
    ((groupOn key rows).map fun group => group.2.countP counts).sum = rows.countP counts := by
  induction rows using List.reverseRecOn with
  | nil => rfl
  | append_singleton rows row ih =>
      rw [groupOn_append_singleton, sum_countP_addTo, ih, List.countP_append, List.countP_singleton]

theorem sum_length_groupOn (key : α → κ) (rows : List α) :
    ((groupOn key rows).map fun group => group.2.length).sum = rows.length := by
  have h := sum_countP_groupOn key (fun _ => true) rows
  simpa only [List.countP_true] using h

theorem mem_rows_of_mem_groupOn {key : α → κ} {rows : List α} {group : κ × List α}
    (h : group ∈ groupOn key rows) : group.2 ⊆ rows := by
  obtain ⟨k, -, rfl⟩ := List.mem_map.mp h
  exact List.filter_subset_self rows

end Groups

section Keys

variable {α β κ ν : Type} [DecidableEq κ] [DecidableEq ν]

theorem eraseDups_map {name : κ → ν} (hname : Function.Injective name) (keys : List κ) :
    (keys.map name).eraseDups = keys.eraseDups.map name := by
  induction keys using List.reverseRecOn with
  | nil => rfl
  | append_singleton keys k ih =>
      rw [List.map_append, List.map_singleton, eraseDups_append_singleton, eraseDups_append_singleton,
        ih]
      by_cases hk : k ∈ keys
      · rw [if_pos hk, if_pos (List.mem_map_of_mem hk)]
      · rw [if_neg hk, if_neg ((List.mem_map_of_injective hname).not.mpr hk), List.map_append,
          List.map_singleton]

theorem groupOn_map (f : α → β) (key : β → κ) (rows : List α) :
    groupOn key (rows.map f) =
      (groupOn (fun row => key (f row)) rows).map fun group => (group.1, group.2.map f) := by
  rw [groupOn, groupOn, List.map_map, List.map_map]
  refine List.map_congr_left fun k _ => ?_
  rw [List.filter_map]
  rfl

/-- Other names for the keys make the same groups. -/
theorem groupOn_rename {name : κ → ν} (hname : Function.Injective name) (key : α → κ) (rows : List α) :
    groupOn (fun row => name (key row)) rows =
      (groupOn key rows).map fun group => (name group.1, group.2) := by
  have hkeys : rows.map (fun row => name (key row)) = (rows.map key).map name := by
    rw [List.map_map]
    rfl
  rw [groupOn, hkeys, eraseDups_map hname, groupOn, List.map_map, List.map_map]
  refine List.map_congr_left fun k _ => ?_
  simp only [Function.comp_apply, hname.eq_iff]

/-- Groups in the order of their keys. -/
theorem mergeSort_groupOn {κ : Type} [LinearOrder κ] (key : α → κ) (rows : List α) :
    ((groupOn key rows).mergeSort fun a b => decide (a.1 ≤ b.1)) =
      (rows.map key).toFinset.sort.map fun k => (k, rows.filter fun row => key row = k) := by
  have hsort : (rows.map key).eraseDups.mergeSort (fun a b => decide (a ≤ b)) =
      (rows.map key).toFinset.sort := by
    have hperm := List.mergeSort_perm (rows.map key).eraseDups fun a b => decide (a ≤ b)
    have hnodup := hperm.nodup_iff.mpr (nodup_eraseDups _)
    have hset : ((rows.map key).eraseDups.mergeSort fun a b => decide (a ≤ b)).toFinset =
        (rows.map key).toFinset := by
      ext k
      rw [List.mem_toFinset, hperm.mem_iff, List.mem_eraseDups, List.mem_toFinset]
    rw [← hset, eq_comm, List.toFinset_sort _ hnodup]
    exact List.pairwise_mergeSort' (· ≤ ·) _
  rw [groupOn, ← hsort, eq_comm]
  apply List.map_mergeSort
  intro a _ b _
  rfl

/-- The first entry of every group. -/
def firsts (key : α → κ) (rows : List α) : List α :=
  (groupOn key rows).filterMap fun group => group.2.head?

theorem keys_firsts (key : α → κ) (rows : List α) :
    (firsts key rows).map key = (rows.map key).eraseDups := by
  rw [firsts, groupOn, List.filterMap_map, List.map_filterMap]
  conv_rhs => rw [← List.filterMap_some (l := (rows.map key).eraseDups)]
  refine List.filterMap_congr fun k hk => ?_
  obtain ⟨row, hrow, hkey⟩ := List.mem_map.mp (List.mem_eraseDups.mp hk)
  show ((rows.filter fun row => key row = k).head?).map key = some k
  cases hhead : (rows.filter fun row => key row = k).head? with
  | none =>
      have hnone := List.head?_eq_none_iff.mp hhead
      exact absurd (decide_eq_true hkey) (List.filter_eq_nil_iff.mp hnone row hrow)
  | some first =>
      have hfirst := (List.mem_filter.mp (List.mem_of_head? hhead)).2
      exact congrArg some (of_decide_eq_true hfirst)

theorem mem_of_mem_firsts {key : α → κ} {rows : List α} {row : α} (h : row ∈ firsts key rows) :
    row ∈ rows := by
  obtain ⟨group, hgroup, hhead⟩ := List.mem_filterMap.mp h
  exact mem_rows_of_mem_groupOn hgroup (List.mem_of_head? hhead)

/-- What the rows of a key agree on is seen in the first one. -/
theorem toFinset_firsts [DecidableEq β] {key : α → κ} {f : α → β} {rows : List α}
    (hagree : ∀ a ∈ rows, ∀ b ∈ rows, key a = key b → f a = f b) :
    ((firsts key rows).map f).toFinset = (rows.map f).toFinset := by
  ext value
  rw [List.mem_toFinset, List.mem_toFinset, List.mem_map, List.mem_map]
  constructor
  · rintro ⟨row, hrow, rfl⟩
    exact ⟨row, mem_of_mem_firsts hrow, rfl⟩
  · rintro ⟨row, hrow, rfl⟩
    have hkey : key row ∈ (firsts key rows).map key := by
      rw [keys_firsts, List.mem_eraseDups]
      exact List.mem_map_of_mem hrow
    obtain ⟨first, hfirst, heq⟩ := List.mem_map.mp hkey
    exact ⟨first, hfirst, hagree _ (mem_of_mem_firsts hfirst) _ hrow heq⟩

end Keys

end Py

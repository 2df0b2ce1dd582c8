import Mathlib.Data.List.Nodup
import Mathlib.Data.List.Perm.Basic
import Mathlib.Logic.Function.Basic

/-!
Tables with a primary key, in row order, and tables whose key SQLite numbers itself. Only statements
that keep the key unique are offered. A row of dynamic columns is a function on the columns, and a
statement that sets some of them is a patch.
-/

namespace Sql

structure Table (κ ρ : Type) where
  rows : List (κ × ρ)
  keys_nodup : (rows.map Prod.fst).Nodup

namespace Table

variable {κ ρ : Type} [DecidableEq κ]

def empty : Table κ ρ := ⟨[], List.nodup_nil⟩

/-- The row stored under a key. -/
def find (t : Table κ ρ) (k : κ) : Option ρ := t.rows.lookup k

/-- Rewrite the row of a key in place. -/
def setRow (k : κ) (f : ρ → ρ) : List (κ × ρ) → List (κ × ρ) :=
  List.map fun entry => if entry.1 = k then (entry.1, f entry.2) else entry

theorem keys_setRow (k : κ) (f : ρ → ρ) (rows : List (κ × ρ)) :
    (setRow k f rows).map Prod.fst = rows.map Prod.fst := by
  rw [setRow, List.map_map]
  apply List.map_congr_left
  intro entry _
  simp only [Function.comp_apply]
  split <;> rfl

/-- `UPDATE ... WHERE key = k`: nothing happens when the key is absent. -/
def modify (t : Table κ ρ) (k : κ) (f : ρ → ρ) : Table κ ρ :=
  ⟨setRow k f t.rows, by rw [keys_setRow]; exact t.keys_nodup⟩

/-- `INSERT ... ON CONFLICT(key) DO UPDATE`: the new row, or the old one updated in place. -/
def upsert (t : Table κ ρ) (k : κ) (new : ρ) (f : ρ → ρ) : Table κ ρ :=
  if h : k ∈ t.rows.map Prod.fst then t.modify k f
  else ⟨t.rows ++ [(k, new)], by
    rw [List.map_append, List.nodup_append]
    refine ⟨t.keys_nodup, List.nodup_singleton _, ?_⟩
    intro a ha b hb
    simp only [List.map_cons, List.map_nil, List.mem_singleton] at hb
    rintro rfl
    exact h (hb ▸ ha)⟩

theorem lookup_setRow (k : κ) (f : ρ → ρ) (rows : List (κ × ρ)) (k' : κ) :
    (setRow k f rows).lookup k' = if k' = k then (rows.lookup k).map f else rows.lookup k' := by
  induction rows with
  | nil => simp [setRow]
  | cons entry rows ih =>
      obtain ⟨a, r⟩ := entry
      simp only [setRow, List.map_cons] at ih ⊢
      by_cases ha : a = k
      · subst ha
        by_cases hk : k' = a
        · subst hk
          simp
        · simp only [hk, ↓reduceIte, List.lookup_cons, beq_eq_false_iff_ne.mpr hk]
          simpa [hk] using ih
      · by_cases hk : k' = k
        · subst hk
          have hne : (k' == a) = false := beq_eq_false_iff_ne.mpr (Ne.symm ha)
          simp only [ha, ↓reduceIte, List.lookup_cons, hne]
          simpa using ih
        · simp only [ha, hk, ↓reduceIte, List.lookup_cons]
          split
          · rfl
          · simpa [hk] using ih

theorem find_modify (t : Table κ ρ) (k k' : κ) (f : ρ → ρ) :
    (t.modify k f).find k' = if k' = k then (t.find k).map f else t.find k' :=
  lookup_setRow k f t.rows k'

@[simp] theorem find_modify_self (t : Table κ ρ) (k : κ) (f : ρ → ρ) :
    (t.modify k f).find k = (t.find k).map f := by
  rw [find_modify, if_pos rfl]

theorem find_modify_of_ne (t : Table κ ρ) {k k' : κ} (h : k' ≠ k) (f : ρ → ρ) :
    (t.modify k f).find k' = t.find k' := by
  rw [find_modify, if_neg h]

theorem isSome_find_modify (t : Table κ ρ) (k k' : κ) (f : ρ → ρ) :
    ((t.modify k f).find k').isSome = (t.find k').isSome := by
  by_cases hk : k' = k
  · rw [hk, find_modify_self, Option.isSome_map]
  · rw [find_modify_of_ne t hk]

theorem mem_keys_iff (t : Table κ ρ) (k : κ) :
    k ∈ t.rows.map Prod.fst ↔ (t.find k).isSome := by
  unfold find
  induction t.rows with
  | nil => simp
  | cons entry rows ih =>
      obtain ⟨a, r⟩ := entry
      by_cases hk : k = a
      · simp [hk]
      · simp [List.lookup_cons, beq_eq_false_iff_ne.mpr hk, hk, ← ih]

theorem keys_modify (t : Table κ ρ) (k : κ) (f : ρ → ρ) :
    (t.modify k f).rows.map Prod.fst = t.rows.map Prod.fst := keys_setRow k f t.rows

theorem upsert_of_isSome {t : Table κ ρ} {k : κ} (h : (t.find k).isSome) (new : ρ) (f : ρ → ρ) :
    t.upsert k new f = t.modify k f := dif_pos ((mem_keys_iff t k).mpr h)

/-- What an upsert stores under its own key and leaves under every other. -/
theorem find_upsert (t : Table κ ρ) (k k' : κ) (new : ρ) (f : ρ → ρ) :
    (t.upsert k new f).find k' =
      if k' = k then some (((t.find k).map f).getD new) else t.find k' := by
  unfold upsert
  split
  · rename_i h
    obtain ⟨old, hold⟩ := Option.isSome_iff_exists.mp ((mem_keys_iff t k).mp h)
    rw [find_modify, hold]
    rfl
  · rename_i h
    have hnone : t.rows.lookup k = none :=
      Option.not_isSome_iff_eq_none.mp (fun hs => h ((mem_keys_iff t k).mpr hs))
    by_cases hk : k' = k
    · subst hk
      simp [find, List.lookup_append, hnone]
    · simp [find, List.lookup_append, List.lookup_cons, beq_eq_false_iff_ne.mpr hk, hk]

@[simp] theorem find_upsert_self (t : Table κ ρ) (k : κ) (new : ρ) (f : ρ → ρ) :
    (t.upsert k new f).find k = some (((t.find k).map f).getD new) := by
  rw [find_upsert, if_pos rfl]

theorem find_upsert_of_ne (t : Table κ ρ) {k k' : κ} (h : k' ≠ k) (new : ρ) (f : ρ → ρ) :
    (t.upsert k new f).find k' = t.find k' := by
  rw [find_upsert, if_neg h]

theorem isSome_find_upsert (t : Table κ ρ) (k k' : κ) (new : ρ) (f : ρ → ρ) :
    ((t.upsert k new f).find k').isSome ↔ (t.find k').isSome ∨ k = k' := by
  by_cases hk : k' = k
  · rw [hk, find_upsert_self]
    exact iff_of_true rfl (.inr rfl)
  · rw [find_upsert_of_ne t hk]
    exact (or_iff_left (Ne.symm hk)).symm

/-- The rows of a table are exactly what `find` returns. -/
theorem mem_rows_iff (t : Table κ ρ) (k : κ) (r : ρ) : (k, r) ∈ t.rows ↔ t.find k = some r := by
  have hnodup := t.keys_nodup
  unfold find
  revert hnodup
  induction t.rows with
  | nil => simp
  | cons entry rows ih =>
      obtain ⟨a, s⟩ := entry
      intro hnodup
      simp only [List.map_cons, List.nodup_cons] at hnodup
      by_cases hk : k = a
      · subst hk
        have hmem : (k, r) ∉ rows := fun hm => hnodup.1 (List.mem_map.mpr ⟨_, hm, rfl⟩)
        simp [hmem, eq_comm]
      · simp [List.lookup_cons, beq_eq_false_iff_ne.mpr hk, hk, ih hnodup.2]

theorem mem_of_lookup {l : List (κ × ρ)} {k : κ} {r : ρ} (h : l.lookup k = some r) : (k, r) ∈ l := by
  obtain ⟨before, after, rfl, _⟩ := List.lookup_eq_some_iff.mp h
  exact List.mem_append_right _ List.mem_cons_self

/-- Tables that answer alike have the same rows. -/
theorem rows_perm_of_find {t u : Table κ ρ} (h : t.find = u.find) : t.rows.Perm u.rows := by
  have hnodup (v : Table κ ρ) : v.rows.Nodup := v.keys_nodup.of_map Prod.fst
  rw [List.perm_ext_iff_of_nodup (hnodup t) (hnodup u)]
  rintro ⟨k, r⟩
  rw [mem_rows_iff, mem_rows_iff, h]

/-- Tables with the same keys in the same order that answer alike are the same. -/
theorem ext_find {t u : Table κ ρ} (hkeys : t.rows.map Prod.fst = u.rows.map Prod.fst)
    (hfind : t.find = u.find) : t = u := by
  obtain ⟨rows, hnodup⟩ := t
  obtain ⟨rows', hnodup'⟩ := u
  have hlength : rows.length = rows'.length := by simpa using congrArg List.length hkeys
  have hrows : rows = rows' := by
    apply List.ext_getElem hlength
    intro i hi hi'
    have hkey : rows[i].1 = rows'[i].1 := by
      have hget := List.getElem_of_eq hkeys (i := i) (by simpa using hi)
      simpa using hget
    have hrow := (mem_rows_iff ⟨rows, hnodup⟩ rows[i].1 rows[i].2).mp (List.getElem_mem hi)
    have hrow' := (mem_rows_iff ⟨rows', hnodup'⟩ rows'[i].1 rows'[i].2).mp (List.getElem_mem hi')
    rw [hfind, hkey] at hrow
    exact Prod.ext hkey (Option.some.inj (hrow.symm.trans hrow'))
  subst hrows
  rfl

end Table

/-- Two blocks of statements commute when each statement of one commutes with each of the other. -/
theorem foldl_foldl_comm {σ ω : Type} (f : σ → ω → σ) {xs ys : List ω}
    (h : ∀ x ∈ xs, ∀ y ∈ ys, ∀ s, f (f s x) y = f (f s y) x) (s : σ) :
    ys.foldl f (xs.foldl f s) = xs.foldl f (ys.foldl f s) := by
  have hone (x : ω) (hx : x ∈ xs) (s : σ) : ys.foldl f (f s x) = f (ys.foldl f s) x := by
    replace h := h x hx
    induction ys generalizing s with
    | nil => rfl
    | cons y ys ih =>
        rw [List.foldl_cons, List.foldl_cons, h y List.mem_cons_self s]
        exact ih _ fun z hz => h z (List.mem_cons_of_mem _ hz)
  induction xs generalizing s with
  | nil => rfl
  | cons x xs ih =>
      rw [List.foldl_cons, List.foldl_cons, ← hone x List.mem_cons_self s]
      exact ih (fun z hz => h z (List.mem_cons_of_mem _ hz)) _
        fun z hz => hone z (List.mem_cons_of_mem _ hz)

/-! ### Dynamic columns -/

section Patch

variable {χ ν : Type} [DecidableEq χ]

/-- Set the named columns. -/
def patch (row : χ → ν) (fields : List (χ × ν)) : χ → ν := fun c => (fields.lookup c).getD (row c)

/-- Two patches that agree wherever both set a column commute. -/
theorem patch_comm (row : χ → ν) {fields others : List (χ × ν)}
    (h : ∀ c, fields.lookup c = none ∨ others.lookup c = none ∨ fields.lookup c = others.lookup c) :
    patch (patch row fields) others = patch (patch row others) fields := by
  funext c
  simp only [patch]
  rcases h c with h | h | h
  · rw [h, Option.getD_none, Option.getD_none]
  · rw [h, Option.getD_none, Option.getD_none]
  · rw [h]

end Patch

/-! ### Keys numbered by the table -/

/-- A table with an `AUTOINCREMENT` key, in key order. `seq` is the last key handed out. -/
structure AutoTable (ρ : Type) where
  rows : List (Nat × ρ)
  seq : Nat
  ids_le : ∀ entry ∈ rows, entry.1 ≤ seq
  ids_sorted : (rows.map Prod.fst).Pairwise (· < ·)

namespace AutoTable

variable {ρ : Type}

def empty : AutoTable ρ := ⟨[], 0, by simp, List.Pairwise.nil⟩

/-- Insert under the next key. -/
def insert (t : AutoTable ρ) (row : ρ) : AutoTable ρ where
  rows := t.rows ++ [(t.seq + 1, row)]
  seq := t.seq + 1
  ids_le entry hentry := by
    rcases List.mem_append.mp hentry with hold | hnew
    · have := t.ids_le entry hold
      omega
    · cases List.mem_singleton.mp hnew
      exact Nat.le_refl _
  ids_sorted := by
    rw [List.map_append, List.pairwise_append]
    refine ⟨t.ids_sorted, List.pairwise_singleton _ _, ?_⟩
    intro a ha b hb
    obtain ⟨entry, hentry, rfl⟩ := List.mem_map.mp ha
    have hle := t.ids_le entry hentry
    rw [List.map_singleton, List.mem_singleton] at hb
    omega

/-- `INSERT OR IGNORE` that hits a unique index: no row, but the key is spent. -/
def skip (t : AutoTable ρ) : AutoTable ρ where
  rows := t.rows
  seq := t.seq + 1
  ids_le entry hentry := Nat.le_succ_of_le (t.ids_le entry hentry)
  ids_sorted := t.ids_sorted

/-- Rewrite rows in place. -/
def update (t : AutoTable ρ) (f : Nat → ρ → ρ) : AutoTable ρ where
  rows := t.rows.map fun entry => (entry.1, f entry.1 entry.2)
  seq := t.seq
  ids_le entry hentry := by
    obtain ⟨old, hold, rfl⟩ := List.mem_map.mp hentry
    exact t.ids_le old hold
  ids_sorted := by
    rw [List.map_map]
    exact t.ids_sorted

/-- `DELETE`: the keys of deleted rows are not handed out again. -/
def delete (t : AutoTable ρ) (gone : Nat → ρ → Bool) : AutoTable ρ where
  rows := t.rows.filter fun entry => !gone entry.1 entry.2
  seq := t.seq
  ids_le entry hentry := t.ids_le entry (List.mem_filter.mp hentry).1
  ids_sorted := t.ids_sorted.sublist (List.filter_sublist.map Prod.fst)

def find (t : AutoTable ρ) (id : Int) : Option ρ := (t.rows.find? fun entry => entry.1 = id).map (·.2)

theorem mem_of_find {t : AutoTable ρ} {id : Int} {row : ρ} (h : t.find id = some row) :
    ∃ n : Nat, (n : Int) = id ∧ (n, row) ∈ t.rows := by
  obtain ⟨⟨n, r⟩, hentry, rfl⟩ := Option.map_eq_some_iff.mp h
  have hid := List.find?_some hentry
  exact ⟨n, by simpa using hid, List.mem_of_find?_eq_some hentry⟩

/-- Keys are unique. -/
theorem row_unique {t : AutoTable ρ} {id : Nat} {row row' : ρ} (h : (id, row) ∈ t.rows)
    (h' : (id, row') ∈ t.rows) : row = row' := by
  have hinj := List.inj_on_of_nodup_map (t.ids_sorted.imp fun hlt => Nat.ne_of_lt hlt) h h' rfl
  exact congrArg Prod.snd hinj

end AutoTable
end Sql

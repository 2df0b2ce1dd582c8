import Mathlib.Data.List.Basic

/-!
What a filter keeps of rows that were limited, sorted or edited. A read that filters after `LIMIT`
sees a window of the newest rows only; one that filters after `ORDER BY` sees the rows it keeps in
the order they would have without the others; and edits of rows it does not keep show nowhere.
-/

namespace Sql

variable {α : Type}

/-! ### `LIMIT` -/

/-- The rows that `LIMIT n` leaves; a negative limit is no limit. -/
def limitTo (n : Int) (rows : List α) : List α := if n < 0 then rows else rows.take n.toNat

@[simp] theorem limitTo_natCast (n : Nat) (rows : List α) : limitTo n rows = rows.take n := by
  rw [limitTo, if_neg (by omega), Int.toNat_natCast]

/-- A window of `m` rows holds the first `n` that are kept, or all that are. -/
def windowSuffices (keep : α → Bool) (rows : List α) (m n : Nat) : Prop :=
  n ≤ (rows.take m).countP keep ∨ ∀ row ∈ rows.drop m, keep row = false

instance (keep : α → Bool) (rows : List α) (m n : Nat) : Decidable (windowSuffices keep rows m n) :=
  inferInstanceAs (Decidable (_ ∨ _))

theorem filter_window (keep : α → Bool) (rows : List α) (m : Nat) :
    rows.filter keep = (rows.take m).filter keep ++ (rows.drop m).filter keep := by
  rw [← List.filter_append, List.take_append_drop]

/-- The first rows kept in the window are the first rows kept at all exactly when it suffices. -/
theorem take_filter_window_iff {keep : α → Bool} {rows : List α} {m n : Nat} :
    ((rows.take m).filter keep).take n = (rows.filter keep).take n ↔
      windowSuffices keep rows m n := by
  rw [filter_window keep rows m, windowSuffices, List.countP_eq_length_filter]
  generalize hw : (rows.take m).filter keep = window
  have hrest : (∀ row ∈ rows.drop m, keep row = false) ↔ (rows.drop m).filter keep = [] := by
    rw [List.filter_eq_nil_iff]
    exact forall₂_congr fun row _ => (Bool.not_eq_true _).symm.to_iff
  rw [hrest]
  generalize (rows.drop m).filter keep = rest
  rw [List.take_append]
  constructor
  · intro h
    by_cases hn : n ≤ window.length
    · exact Or.inl hn
    · -- the window is too short, so nothing of the rest may follow it
      right
      have hnil : rest.take (n - window.length) = [] := by simpa using h
      rcases List.take_eq_nil_iff.mp hnil with hzero | hrest
      · omega
      · exact hrest
  · rintro (hn | rfl)
    · rw [Nat.sub_eq_zero_of_le hn, List.take_zero, List.append_nil]
    · rw [List.take_nil, List.append_nil]

/-- A window that was not cut again. -/
theorem filter_window_iff {keep : α → Bool} {rows : List α} {n : Nat} :
    (rows.take n).filter keep = (rows.filter keep).take n ↔ windowSuffices keep rows n n := by
  rw [← take_filter_window_iff]
  have hlength : ((rows.take n).filter keep).length ≤ n :=
    Nat.le_trans (List.length_filter_le _ _) (List.length_take_le _ _)
  rw [List.take_of_length_le hlength]

/-- Where every row is kept, a window of `n` rows suffices. -/
theorem windowSuffices_of_all {keep : α → Bool} {rows : List α} (n : Nat)
    (hkeep : ∀ row ∈ rows, keep row = true) : windowSuffices keep rows n n := by
  rw [← filter_window_iff, List.filter_eq_self.mpr hkeep]
  exact List.filter_eq_self.mpr fun row hrow => hkeep row (List.mem_of_mem_take hrow)

/-! ### `ORDER BY` -/

section Order

variable {le : α → α → Bool}

theorem takeWhile_append_split {keep : α → Bool} {before after : List α}
    (hbefore : ∀ b ∈ before, keep b = true) (hafter : ∀ b ∈ after, keep b = false) :
    (before ++ after).takeWhile keep = before ∧ (before ++ after).dropWhile keep = after := by
  rw [List.takeWhile_append_of_pos hbefore, List.dropWhile_append_of_pos hbefore]
  cases after with
  | nil => simp
  | cons b after =>
      have hb : keep b = false := hafter b List.mem_cons_self
      simp [hb]

/-- One more row goes before the first row it may precede. -/
theorem mergeSort_cons_eq (htrans : ∀ a b c, le a b → le b c → le a c)
    (htotal : ∀ a b, le a b || le b a) (a : α) (l : List α) :
    (a :: l).mergeSort le = (l.mergeSort le).takeWhile (fun b => !le a b)
      ++ a :: (l.mergeSort le).dropWhile (fun b => !le a b) := by
  obtain ⟨before, after, hcons, hsort, hbefore⟩ := List.mergeSort_cons htrans htotal a l
  have hsorted := List.pairwise_mergeSort htrans htotal (a :: l)
  rw [hcons] at hsorted
  have hafter : ∀ b ∈ after, (!le a b) = false := by
    intro b hb
    have hle := (List.pairwise_cons.mp (List.pairwise_append.mp hsorted).2.1).1 b hb
    rw [hle, Bool.not_true]
  obtain ⟨htake, hdrop⟩ := takeWhile_append_split hbefore hafter
  rw [hcons, hsort, htake, hdrop]

/-- Filtering commutes with the sort. -/
theorem filter_mergeSort (htrans : ∀ a b c, le a b → le b c → le a c)
    (htotal : ∀ a b, le a b || le b a) (keep : α → Bool) (l : List α) :
    (l.mergeSort le).filter keep = (l.filter keep).mergeSort le := by
  induction l with
  | nil => simp
  | cons a l ih =>
      obtain ⟨before, after, hcons, hsort, hbefore⟩ := List.mergeSort_cons htrans htotal a l
      have hsorted := List.pairwise_mergeSort htrans htotal (a :: l)
      rw [hcons] at hsorted
      rw [hsort, List.filter_append] at ih
      rw [hcons, List.filter_append, List.filter_cons, List.filter_cons]
      cases hkeep : keep a with
      | false => simpa using ih
      | true =>
          -- both sides put the row where the sorted rest splits
          have hle : ∀ b ∈ after.filter keep, (!le a b) = false := by
            intro b hb
            have hle := (List.pairwise_cons.mp (List.pairwise_append.mp hsorted).2.1).1 b
              (List.mem_filter.mp hb).1
            rw [hle, Bool.not_true]
          obtain ⟨htake, hdrop⟩ := takeWhile_append_split
            (fun b hb => hbefore b (List.mem_filter.mp hb).1) hle
          rw [if_pos rfl, if_pos rfl, mergeSort_cons_eq htrans htotal, ← ih, htake, hdrop]

end Order

/-! ### Edits -/

/-- Rows are added, changed and deleted, each of them out of reach before and after. -/
inductive Edits (out : α → Bool) (rows : List α) : List α → Prop
  | refl : Edits out rows rows
  | add {before after : List α} {row : α} (hrow : out row = true)
      (h : Edits out rows (before ++ after)) : Edits out rows (before ++ row :: after)
  | change {before after : List α} {old new : α} (hold : out old = true) (hnew : out new = true)
      (h : Edits out rows (before ++ old :: after)) : Edits out rows (before ++ new :: after)
  | delete {before after : List α} {row : α} (hrow : out row = true)
      (h : Edits out rows (before ++ row :: after)) : Edits out rows (before ++ after)

/-- A filter that keeps none of the rows out of reach keeps the same rows after the edits. -/
theorem Edits.filter_eq {out keep : α → Bool} {rows rows' : List α} (h : Edits out rows rows')
    (hkeep : ∀ row, out row = true → keep row = false) : rows'.filter keep = rows.filter keep := by
  induction h with
  | refl => rfl
  | add hrow _ ih =>
      rw [← ih, List.filter_append, List.filter_append, List.filter_cons_of_neg]
      rw [hkeep _ hrow]
      exact Bool.false_ne_true
  | change hold hnew _ ih =>
      rw [← ih, List.filter_append, List.filter_append, List.filter_cons_of_neg,
        List.filter_cons_of_neg]
      · rw [hkeep _ hold]
        exact Bool.false_ne_true
      · rw [hkeep _ hnew]
        exact Bool.false_ne_true
  | delete hrow _ ih =>
      rw [← ih, List.filter_append, List.filter_append, List.filter_cons_of_neg]
      rw [hkeep _ hrow]
      exact Bool.false_ne_true

end Sql

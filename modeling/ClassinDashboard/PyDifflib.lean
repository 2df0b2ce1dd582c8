import Mathlib.Algebra.Order.Field.Rat
import Mathlib.Data.List.Infix
import Mathlib.Tactic.Linarith
import Mathlib.Tactic.Positivity

/-!
`difflib.SequenceMatcher` without a junk filter, over any type of elements: the longest matching block of
two windows, the blocks before and after it, and the ratio of what matches. The ratio is at most 1, and 1
for equal sequences only; what matches is a common subsequence; and a block that both sequences share is
a lower bound for it.
-/

namespace Py

namespace SequenceMatcher

variable {α : Type} [DecidableEq α]

/-- A block of equal elements in both sequences. -/
structure Match where
  a : Nat
  b : Nat
  size : Nat
deriving DecidableEq, Repr

/-- `autojunk`: an element that is too frequent in a long second sequence does not start a match. -/
def live (b : List α) (x : α) : Bool := !(200 ≤ b.length && b.length / 100 + 1 < b.count x)

/-! ### The longest block -/

section Longest

variable (live : α → Bool) (b : List α)

/-- The lengths of the matches that end at one element of the first sequence, from those that end at
the element before it. -/
def nextRow (x : α) (row : List Nat) : List Nat :=
  List.zipWith (fun y k => if y = x ∧ live y then k + 1 else 0) b (0 :: row)

/-- A row of lengths, from its `j`-th entry on; a match has to be longer than the best one so far. -/
def scanRow (i : Nat) : Nat → List Nat → Match → Match
  | _, [], best => best
  | j, k :: row, best =>
      scanRow i (j + 1) row (if best.size < k then ⟨i + 1 - k, j + 1 - k, k⟩ else best)

/-- The rows of the elements from the `i`-th on. -/
def longestFrom (i : Nat) (row : List Nat) : List α → Match → Match
  | [], best => best
  | x :: a, best => longestFrom (i + 1) (nextRow live b x row) a (scanRow i 0 (nextRow live b x row) best)

/-- The longest match of live elements. -/
def longestLive (a : List α) : Match := longestFrom live b 0 (b.map fun _ => 0) a ⟨0, 0, 0⟩

end Longest

/-- Extend a match by equal elements before it. -/
def extendLeft (a b : List α) : Nat → Nat → Nat → Match
  | i + 1, j + 1, size =>
      if a[i]? = b[j]? then extendLeft a b i j (size + 1) else ⟨i + 1, j + 1, size⟩
  | i, j, size => ⟨i, j, size⟩

/-- How many elements two sequences start with in common. -/
def commonPrefix : List α → List α → Nat
  | x :: a, y :: b => if x = y then commonPrefix a b + 1 else 0
  | _, _ => 0

/-- Extend a match by equal elements after it. -/
def extendRight (a b : List α) (m : Match) : Match :=
  { m with size := m.size + commonPrefix (a.drop (m.a + m.size)) (b.drop (m.b + m.size)) }

def findLongestMatch (live : α → Bool) (a b : List α) : Match :=
  let m := longestLive live b a
  extendRight a b (extendLeft a b m.a m.b m.size)

/-! ### All blocks -/

def Match.shift (a b : Nat) (m : Match) : Match := { m with a := a + m.a, b := b + m.b }

/-- The blocks of two windows: those before the longest one, itself and those after it. Windows get
shorter, so their length is fuel enough. -/
def matchingBlocks (live : α → Bool) : Nat → List α → List α → List Match
  | 0, _, _ => []
  | fuel + 1, a, b =>
      let m := findLongestMatch live a b
      if m.size = 0 then []
      else matchingBlocks live fuel (a.take m.a) (b.take m.b) ++ m ::
        (matchingBlocks live fuel (a.drop (m.a + m.size)) (b.drop (m.b + m.size))).map
          (Match.shift (m.a + m.size) (m.b + m.size))

def matchingSize (blocks : List Match) : Nat := (blocks.map Match.size).sum

def blocks (a b : List α) : List Match := matchingBlocks (live b) (a.length + 1) a b

/-- `SequenceMatcher(None, a, b).ratio()`. -/
def ratio (a b : List α) : Rat :=
  if a.length + b.length = 0 then 1
  else 2 * matchingSize (blocks a b) / (a.length + b.length : Nat)

example : blocks "abxcd".toList "abcd".toList = [⟨0, 0, 2⟩, ⟨3, 2, 2⟩] := by decide

/-! ### What the rows hold -/

section Rows

variable (live : α → Bool)

/-- How many live elements two sequences start with in common. -/
def run : List α → List α → Nat
  | x :: xs, y :: ys => if x = y ∧ live x then run xs ys + 1 else 0
  | _, _ => 0

/-- The runs of one prefix with the prefixes of a sequence that are longer than `ys`; prefixes are read
backwards. -/
def runs (xs : List α) : List α → List α → List Nat
  | _, [] => []
  | ys, y :: b => run live xs (y :: ys) :: runs xs (y :: ys) b

variable {live}

theorem run_nil_left (ys : List α) : run live [] ys = 0 := rfl

theorem run_nil_right (xs : List α) : run live xs [] = 0 := by
  cases xs <;> rfl

theorem runs_nil (ys b : List α) : runs live [] ys b = b.map fun _ => 0 := by
  induction b generalizing ys with
  | nil => rfl
  | cons y b ih => rw [runs, ih, List.map_cons, run_nil_left]

theorem zipWith_runs (x : α) (xs ys b : List α) :
    List.zipWith (fun y k => if y = x ∧ live y then k + 1 else 0) b (run live xs ys :: runs live xs ys b) =
      runs live (x :: xs) ys b := by
  induction b generalizing ys with
  | nil => rfl
  | cons y b ih =>
      rw [runs, List.zipWith_cons_cons, ih, runs, run]
      by_cases hsame : y = x
      · rw [hsame]
      · rw [if_neg fun h => hsame h.1, if_neg fun h => hsame h.1.symm]

/-- The rows are the runs that end at the element of the row. -/
theorem nextRow_runs (x : α) (xs b : List α) :
    nextRow live b x (runs live xs [] b) = runs live (x :: xs) [] b := by
  rw [nextRow, ← zipWith_runs x xs [] b, run_nil_right]

theorem runs_append (xs ys b c : List α) :
    runs live xs ys (b ++ c) = runs live xs ys b ++ runs live xs (b.reverse ++ ys) c := by
  induction b generalizing ys with
  | nil => rfl
  | cons y b ih => rw [List.cons_append, runs, ih, runs, List.reverse_cons, List.append_assoc]; rfl

theorem length_runs (xs ys b : List α) : (runs live xs ys b).length = b.length := by
  induction b generalizing ys with
  | nil => rfl
  | cons y b ih => rw [runs, List.length_cons, ih, List.length_cons]

theorem mem_runs {xs ys b : List α} {k : Nat} (h : k ∈ runs live xs ys b) :
    ∃ zs, zs <:+ b.reverse ++ ys ∧ k = run live xs zs := by
  induction b generalizing ys with
  | nil => cases h
  | cons y b ih =>
      rw [List.reverse_cons, List.append_assoc]
      rcases List.mem_cons.mp h with rfl | h
      · exact ⟨y :: ys, List.suffix_append _ _, rfl⟩
      · exact ih h

theorem run_mem_runs (live : α → Bool) (xs : List α) {b c : List α} (hc : c ≠ []) (h : c <+: b) :
    run live xs c.reverse ∈ runs live xs [] b := by
  obtain ⟨rest, rfl⟩ := h
  rw [runs_append]
  refine List.mem_append_left _ ?_
  obtain ⟨init, last, rfl⟩ := List.eq_nil_or_concat c |>.resolve_left hc
  rw [List.concat_eq_append, runs_append, List.reverse_append]
  refine List.mem_append_right _ ?_
  rw [List.append_nil]
  exact List.mem_cons_self

theorem run_le (live : α → Bool) (xs ys : List α) : run live xs ys ≤ xs.length ∧ run live xs ys ≤ ys.length := by
  induction xs generalizing ys with
  | nil => exact ⟨Nat.le_refl _, Nat.zero_le _⟩
  | cons x xs ih =>
      cases ys with
      | nil => exact ⟨Nat.zero_le _, Nat.le_refl _⟩
      | cons y ys =>
          rw [run, List.length_cons, List.length_cons]
          split
          · exact ⟨Nat.succ_le_succ (ih ys).1, Nat.succ_le_succ (ih ys).2⟩
          · exact ⟨Nat.zero_le _, Nat.zero_le _⟩

theorem take_run (xs ys : List α) : xs.take (run live xs ys) = ys.take (run live xs ys) := by
  induction xs generalizing ys with
  | nil => rw [run_nil_left, List.take_zero, List.take_zero]
  | cons x xs ih =>
      cases ys with
      | nil => rw [run_nil_right, List.take_zero, List.take_zero]
      | cons y ys =>
          rw [run]
          split
          · rename_i h
            rw [List.take_succ_cons, List.take_succ_cons, h.1, ih]
          · rfl

/-- A run is at most the live elements that either side starts with. -/
theorem run_le_self (xs ys : List α) :
    run live xs ys ≤ run live xs xs ∧ run live xs ys ≤ run live ys ys := by
  induction xs generalizing ys with
  | nil => exact ⟨Nat.le_refl _, Nat.zero_le _⟩
  | cons x xs ih =>
      cases ys with
      | nil => exact ⟨Nat.zero_le _, Nat.le_refl _⟩
      | cons y ys =>
          simp only [run, true_and]
          split
          · rename_i h
            rw [if_pos h.2, if_pos (h.1 ▸ h.2)]
            exact ⟨Nat.succ_le_succ (ih ys).1, Nat.succ_le_succ (ih ys).2⟩
          · exact ⟨Nat.zero_le _, Nat.zero_le _⟩

/-- A live block that both sides start with is not longer than the run. -/
theorem length_le_run {w : List α} (hlive : ∀ x ∈ w, live x = true) (xs ys : List α) :
    w.length ≤ run live (w ++ xs) (w ++ ys) := by
  induction w with
  | nil => exact Nat.zero_le _
  | cons x w ih =>
      rw [List.cons_append, List.cons_append, run, if_pos ⟨rfl, hlive x List.mem_cons_self⟩]
      exact Nat.succ_le_succ (ih fun y hy => hlive y (List.mem_cons_of_mem _ hy))

end Rows

/-! ### The scan -/

section Scan

theorem scanRow_append (i j : Nat) (row row' : List Nat) (best : Match) :
    scanRow i j (row ++ row') best = scanRow i (j + row.length) row' (scanRow i j row best) := by
  induction row generalizing j best with
  | nil => rfl
  | cons k row ih =>
      rw [List.cons_append, scanRow, ih, scanRow, List.length_cons, Nat.add_assoc, Nat.add_comm 1]

theorem size_le_scanRow (i j : Nat) (row : List Nat) (best : Match) :
    best.size ≤ (scanRow i j row best).size := by
  induction row generalizing j best with
  | nil => exact Nat.le_refl _
  | cons k row ih =>
      rw [scanRow]
      refine Nat.le_trans ?_ (ih _ _)
      split
      · rename_i h
        exact Nat.le_of_lt h
      · exact Nat.le_refl _

theorem le_scanRow {row : List Nat} {k : Nat} (h : k ∈ row) (i j : Nat) (best : Match) :
    k ≤ (scanRow i j row best).size := by
  induction row generalizing j best with
  | nil => cases h
  | cons first row ih =>
      rw [scanRow]
      rcases List.mem_cons.mp h with rfl | h
      · refine Nat.le_trans ?_ (size_le_scanRow _ _ _ _)
        split
        · exact Nat.le_refl _
        · rename_i hlt
          exact Nat.le_of_not_lt hlt
      · exact ih h _ _

/-- A row without a longer match changes nothing. -/
theorem scanRow_eq_self {row : List Nat} {best : Match} (h : ∀ k ∈ row, k ≤ best.size) (i j : Nat) :
    scanRow i j row best = best := by
  induction row generalizing j with
  | nil => rfl
  | cons k row ih =>
      rw [scanRow, if_neg (Nat.not_lt.mpr (h k List.mem_cons_self))]
      exact ih (fun k' hk' => h k' (List.mem_cons_of_mem _ hk')) _

variable {live : α → Bool} {P : Match → Prop}

/-- What holds of the best match so far and of the match that ends at each entry holds after a row. -/
theorem scanRow_runs {xs ys b : List α} {best : Match} (hbest : P best)
    (hrun : ∀ zs, zs <:+ b.reverse ++ ys → ys.length < zs.length →
      P ⟨xs.length - run live xs zs, zs.length - run live xs zs, run live xs zs⟩) {i : Nat}
    (hi : xs.length = i + 1) : P (scanRow i ys.length (runs live xs ys b) best) := by
  induction b generalizing ys best with
  | nil => exact hbest
  | cons y b ih =>
      have hrest : (y :: b).reverse ++ ys = b.reverse ++ (y :: ys) := by
        rw [List.reverse_cons, List.append_assoc]
        rfl
      rw [hrest] at hrun
      rw [runs, scanRow]
      refine ih ?_ fun zs hzs hlength => hrun zs hzs (Nat.lt_of_succ_lt hlength)
      split
      · have hhere := hrun (y :: ys) (List.suffix_append _ _) (Nat.lt_succ_self _)
        rwa [hi, List.length_cons] at hhere
      · exact hbest

end Scan

/-! ### Blocks are blocks -/

/-- A match inside both sequences, of equal elements. -/
structure Match.Valid (a b : List α) (m : Match) : Prop where
  a_le : m.a + m.size ≤ a.length
  b_le : m.b + m.size ≤ b.length
  same : (a.drop m.a).take m.size = (b.drop m.b).take m.size

section Valid

variable {live : α → Bool} {a b : List α}

omit [DecidableEq α] in
/-- The end of a prefix, read backwards. -/
theorem take_drop_prefix {xs : List α} (h : xs <:+ a.reverse) {k : Nat} (hk : k ≤ xs.length) :
    (a.drop (xs.length - k)).take k = (xs.take k).reverse ∧ xs.length ≤ a.length := by
  obtain ⟨rest, hrest⟩ := h
  have ha : a = xs.reverse ++ rest.reverse := by
    rw [← List.reverse_append, hrest, List.reverse_reverse]
  rw [ha]
  have hdrop : xs.reverse.drop (xs.length - k) = (xs.take k).reverse := by
    rw [List.drop_reverse, Nat.sub_sub_self hk]
  constructor
  · rw [List.drop_append_of_le_length (by rw [List.length_reverse]; omega), hdrop,
      List.take_left' (by rw [List.length_reverse, List.length_take, Nat.min_eq_left hk])]
  · rw [List.length_append, List.length_reverse]
    omega

theorem valid_run {xs ys : List α} (hxs : xs <:+ a.reverse) (hys : ys <:+ b.reverse) :
    Match.Valid a b ⟨xs.length - run live xs ys, ys.length - run live xs ys, run live xs ys⟩ := by
  obtain ⟨hx, hy⟩ := run_le live xs ys
  obtain ⟨ha, hale⟩ := take_drop_prefix hxs hx
  obtain ⟨hb, hble⟩ := take_drop_prefix hys hy
  refine ⟨?_, ?_, ?_⟩
  · show xs.length - run live xs ys + run live xs ys ≤ _
    rwa [Nat.sub_add_cancel hx]
  · show ys.length - run live xs ys + run live xs ys ≤ _
    rwa [Nat.sub_add_cancel hy]
  · show (a.drop _).take _ = (b.drop _).take _
    rw [ha, hb, take_run]

/-- What holds of the best match so far and of every match that ends later holds of the longest. -/
theorem longestFrom_runs {P : Match → Prop} {best : Match} {xs : List α} (hbest : P best)
    (hrun : ∀ zs ys, zs <:+ a.reverse ++ xs → xs.length < zs.length → ys <:+ b.reverse →
      P ⟨zs.length - run live zs ys, ys.length - run live zs ys, run live zs ys⟩) :
    P (longestFrom live b xs.length (runs live xs [] b) a best) := by
  induction a generalizing xs best with
  | nil => exact hbest
  | cons x a ih =>
      have hrest : (x :: a).reverse ++ xs = a.reverse ++ (x :: xs) := by
        rw [List.reverse_cons, List.append_assoc]
        rfl
      rw [hrest] at hrun
      rw [longestFrom, nextRow_runs]
      refine ih ?_ fun zs ys hzs hlength hys => hrun zs ys hzs (Nat.lt_of_succ_lt hlength) hys
      show P (scanRow xs.length ([] : List α).length (runs live (x :: xs) [] b) best)
      refine scanRow_runs hbest (fun ys hys _ => ?_) List.length_cons
      rw [List.append_nil] at hys
      exact hrun (x :: xs) ys (List.suffix_append _ _) (Nat.lt_succ_self _) hys

theorem longestLive_valid (live : α → Bool) (a b : List α) : (longestLive live b a).Valid a b := by
  have hrow : (b.map fun _ => 0) = runs live [] [] b := (runs_nil [] b).symm
  rw [longestLive, hrow]
  show Match.Valid a b (longestFrom live b ([] : List α).length (runs live [] [] b) a ⟨0, 0, 0⟩)
  refine longestFrom_runs ⟨Nat.zero_le _, Nat.zero_le _, rfl⟩ fun zs ys hzs _ hys => ?_
  rw [List.append_nil] at hzs
  exact valid_run hzs hys

theorem extendLeft_valid {i j size : Nat} (h : Match.Valid a b ⟨i, j, size⟩) :
    (extendLeft a b i j size).Valid a b ∧ size ≤ (extendLeft a b i j size).size := by
  induction i generalizing j size with
  | zero => exact ⟨h, Nat.le_refl _⟩
  | succ i ih =>
      cases j with
      | zero => exact ⟨h, Nat.le_refl _⟩
      | succ j =>
          rw [extendLeft]
          split
          · rename_i hsame
            have hlonger : Match.Valid a b ⟨i, j, size + 1⟩ := by
              obtain ⟨ha, hb, hblock⟩ := h
              dsimp only at ha hb hblock
              refine ⟨by dsimp only; omega, by dsimp only; omega, ?_⟩
              dsimp only
              have hi : i < a.length := by omega
              have hj : j < b.length := by omega
              rw [List.getElem?_eq_getElem hi, List.getElem?_eq_getElem hj] at hsame
              rw [List.drop_eq_getElem_cons hi, List.drop_eq_getElem_cons hj, List.take_succ_cons,
                List.take_succ_cons, hblock, Option.some.inj hsame]
            obtain ⟨hvalid, hsize⟩ := ih hlonger
            exact ⟨hvalid, Nat.le_trans (Nat.le_succ _) hsize⟩
          · exact ⟨h, Nat.le_refl _⟩

theorem commonPrefix_spec (xs ys : List α) :
    commonPrefix xs ys ≤ xs.length ∧ commonPrefix xs ys ≤ ys.length ∧
      xs.take (commonPrefix xs ys) = ys.take (commonPrefix xs ys) := by
  induction xs generalizing ys with
  | nil => exact ⟨Nat.le_refl _, Nat.zero_le _, rfl⟩
  | cons x xs ih =>
      cases ys with
      | nil => exact ⟨Nat.zero_le _, Nat.le_refl _, rfl⟩
      | cons y ys =>
          rw [commonPrefix]
          split
          · rename_i hsame
            obtain ⟨hx, hy, htake⟩ := ih ys
            refine ⟨Nat.succ_le_succ hx, Nat.succ_le_succ hy, ?_⟩
            rw [List.take_succ_cons, List.take_succ_cons, hsame, htake]
          · exact ⟨Nat.zero_le _, Nat.zero_le _, rfl⟩

theorem extendRight_valid {m : Match} (h : m.Valid a b) : (extendRight a b m).Valid a b := by
  obtain ⟨ha, hb, htake⟩ := commonPrefix_spec (a.drop (m.a + m.size)) (b.drop (m.b + m.size))
  rw [List.length_drop] at ha hb
  have hale := h.a_le
  have hble := h.b_le
  refine ⟨?_, ?_, ?_⟩
  · show m.a + (m.size + _) ≤ _
    omega
  · show m.b + (m.size + _) ≤ _
    omega
  · show (a.drop m.a).take (m.size + _) = (b.drop m.b).take (m.size + _)
    rw [List.take_add, List.take_add, h.same, List.drop_drop, List.drop_drop, htake]

theorem findLongestMatch_valid (live : α → Bool) (a b : List α) : (findLongestMatch live a b).Valid a b :=
  extendRight_valid (extendLeft_valid (longestLive_valid live a b)).1

end Valid

/-! ### The longest block is not shorter than another live block -/

section Longest

variable {live : α → Bool} {a b : List α}

theorem size_le_longestFrom (i : Nat) (row : List Nat) (best : Match) :
    best.size ≤ (longestFrom live b i row a best).size := by
  induction a generalizing i row best with
  | nil => exact Nat.le_refl _
  | cons x a ih => exact Nat.le_trans (size_le_scanRow _ _ _ _) (ih _ _ _)

theorem run_le_longestFrom {xs zs ys : List α} (hzs : zs <:+ a.reverse ++ xs)
    (hlength : xs.length < zs.length) (hys : ys <:+ b.reverse) (hne : ys ≠ []) (best : Match) :
    run live zs ys ≤ (longestFrom live b xs.length (runs live xs [] b) a best).size := by
  induction a generalizing xs best with
  | nil => exact absurd hzs.length_le (Nat.not_le.mpr hlength)
  | cons x a ih =>
      have hrest : (x :: a).reverse ++ xs = a.reverse ++ (x :: xs) := by
        rw [List.reverse_cons, List.append_assoc]
        rfl
      rw [hrest] at hzs
      rw [longestFrom, nextRow_runs]
      by_cases hlonger : (x :: xs).length < zs.length
      · exact ih hzs hlonger _
      · -- the row of this element
        have hsame : zs = x :: xs := by
          have hle : zs.length ≤ (x :: xs).length := Nat.not_lt.mp hlonger
          have hsuffix := List.suffix_of_suffix_length_le hzs (List.suffix_append _ _) hle
          exact hsuffix.eq_of_length (Nat.le_antisymm hle hlength)
        subst hsame
        have hprefix : ys.reverse <+: b := List.reverse_suffix.mp (by rwa [List.reverse_reverse])
        have hmem := run_mem_runs live (x :: xs) (List.reverse_ne_nil_iff.mpr hne) hprefix
        rw [List.reverse_reverse] at hmem
        exact Nat.le_trans (le_scanRow hmem _ _ _) (size_le_longestFrom _ _ _)

theorem size_le_findLongestMatch : (longestLive live b a).size ≤ (findLongestMatch live a b).size :=
  Nat.le_trans (extendLeft_valid (longestLive_valid live a b)).2 (Nat.le_add_right _ _)

theorem length_le_findLongestMatch {w : List α} (hlive : ∀ x ∈ w, live x = true) (ha : w <:+: a)
    (hb : w <:+: b) : w.length ≤ (findLongestMatch live a b).size := by
  obtain ⟨p, s, rfl⟩ := ha
  obtain ⟨q, t, rfl⟩ := hb
  refine Nat.le_trans ?_ size_le_findLongestMatch
  rcases List.eq_nil_or_concat w with rfl | ⟨init, last, hw⟩
  · exact Nat.zero_le _
  · have hsuffix (p s : List α) : w.reverse ++ p.reverse <:+ (p ++ w ++ s).reverse := by
      rw [List.reverse_append, List.reverse_append]
      exact List.suffix_append _ _
    have hne (p : List α) : w.reverse ++ p.reverse ≠ [] := by
      rw [hw]
      simp
    have hrow : ((q ++ w ++ t).map fun _ => 0) = runs live [] [] (q ++ w ++ t) := (runs_nil [] _).symm
    calc w.length = w.reverse.length := List.length_reverse.symm
      _ ≤ run live (w.reverse ++ p.reverse) (w.reverse ++ q.reverse) :=
        length_le_run (fun x hx => hlive x (List.mem_reverse.mp hx)) _ _
      _ ≤ (longestFrom live (q ++ w ++ t) ([] : List α).length (runs live [] [] (q ++ w ++ t))
            (p ++ w ++ s) ⟨0, 0, 0⟩).size := by
        refine run_le_longestFrom ?_ (show ([] : List α).length < _ from List.length_pos_of_ne_nil (hne p))
          (hsuffix q t) (hne q) _
        rw [List.append_nil]
        exact hsuffix p s
      _ = (longestLive live (q ++ w ++ t) (p ++ w ++ s)).size := by
        rw [longestLive, hrow]
        rfl

end Longest

/-! ### What matches is a common subsequence -/

section Common

variable {live : α → Bool}

theorem matchingSize_around (before after : List Match) (m : Match) (i j : Nat) :
    matchingSize (before ++ m :: after.map (Match.shift i j)) =
      matchingSize before + (m.size + matchingSize after) := by
  simp only [matchingSize, List.map_append, List.sum_append, List.map_cons, List.sum_cons, List.map_map]
  rfl

omit [DecidableEq α] in
theorem take_block_drop (l : List α) (i k : Nat) :
    l.take i ++ ((l.drop i).take k ++ l.drop (i + k)) = l := by
  rw [← List.drop_drop, List.take_append_drop, List.take_append_drop]

theorem exists_common (live : α → Bool) (fuel : Nat) (a b : List α) :
    ∃ l : List α, l.length = matchingSize (matchingBlocks live fuel a b) ∧ l.Sublist a ∧ l.Sublist b := by
  induction fuel generalizing a b with
  | zero => exact ⟨[], rfl, List.nil_sublist _, List.nil_sublist _⟩
  | succ fuel ih =>
      rw [matchingBlocks]
      have hvalid := findLongestMatch_valid live a b
      generalize findLongestMatch live a b = m at hvalid
      split
      · exact ⟨[], rfl, List.nil_sublist _, List.nil_sublist _⟩
      · obtain ⟨before, hbefore, hbeforeA, hbeforeB⟩ := ih (a.take m.a) (b.take m.b)
        obtain ⟨after, hafter, hafterA, hafterB⟩ := ih (a.drop (m.a + m.size)) (b.drop (m.b + m.size))
        refine ⟨before ++ ((a.drop m.a).take m.size ++ after), ?_, ?_, ?_⟩
        · have hblock : ((a.drop m.a).take m.size).length = m.size := by
            have hle := hvalid.a_le
            rw [List.length_take, List.length_drop]
            omega
          rw [List.length_append, List.length_append, hbefore, hafter, hblock, matchingSize_around]
        · have hblocks := hbeforeA.append ((List.Sublist.refl ((a.drop m.a).take m.size)).append hafterA)
          rwa [take_block_drop] at hblocks
        · have hblocks := hbeforeB.append ((List.Sublist.refl ((b.drop m.b).take m.size)).append hafterB)
          rwa [take_block_drop, ← hvalid.same] at hblocks

/-- Every unit of fuel beyond the length of the first window is left over. -/
theorem matchingBlocks_fuel {fuel fuel' : Nat} {a : List α} (h : a.length < fuel) (h' : a.length < fuel')
    (b : List α) : matchingBlocks live fuel a b = matchingBlocks live fuel' a b := by
  induction fuel generalizing fuel' a b with
  | zero => exact absurd h (Nat.not_lt_zero _)
  | succ fuel ih =>
      cases fuel' with
      | zero => exact absurd h' (Nat.not_lt_zero _)
      | succ fuel' =>
          rw [matchingBlocks, matchingBlocks]
          have hvalid := findLongestMatch_valid live a b
          generalize findLongestMatch live a b = m at hvalid
          have hle := hvalid.a_le
          split
          · rfl
          · have htake : (a.take m.a).length < a.length := by
              rw [List.length_take]
              omega
            have hdrop : (a.drop (m.a + m.size)).length < a.length := by
              rw [List.length_drop]
              omega
            rw [ih (Nat.lt_of_lt_of_le htake (Nat.le_of_lt_succ h))
                (Nat.lt_of_lt_of_le htake (Nat.le_of_lt_succ h')),
              ih (Nat.lt_of_lt_of_le hdrop (Nat.le_of_lt_succ h))
                (Nat.lt_of_lt_of_le hdrop (Nat.le_of_lt_succ h'))]

theorem length_le_matchingSize {a b w : List α} (hlive : ∀ x ∈ w, live x = true) (ha : w <:+: a)
    (hb : w <:+: b) (fuel : Nat) : w.length ≤ matchingSize (matchingBlocks live (fuel + 1) a b) := by
  have hsize := length_le_findLongestMatch hlive ha hb
  rw [matchingBlocks]
  generalize findLongestMatch live a b = m at hsize
  split
  · rename_i hzero
    exact Nat.le_trans hsize (by rw [hzero]; exact Nat.zero_le _)
  · rw [matchingSize_around]
    omega

end Common

/-! ### The ratio -/

section Ratio

variable (a b : List α)

/-- What matches is a common subsequence, and the ratio is its share of both sequences. -/
theorem ratio_common : ∃ l : List α, l.Sublist a ∧ l.Sublist b ∧
    (a.length + b.length : Nat) * ratio a b = 2 * l.length := by
  obtain ⟨l, hlength, ha, hb⟩ := exists_common (live b) (a.length + 1) a b
  refine ⟨l, ha, hb, ?_⟩
  rw [ratio, blocks, ← hlength]
  split
  · rename_i hzero
    have hl : l.length = 0 := by
      have := ha.length_le
      omega
    rw [hzero, hl]
    norm_num
  · rename_i hne
    have hpos : ((a.length + b.length : Nat) : Rat) ≠ 0 := Nat.cast_ne_zero.mpr hne
    rw [mul_div_cancel₀ _ hpos]

theorem ratio_nonneg : 0 ≤ ratio a b := by
  rw [ratio]
  split
  · exact zero_le_one
  · positivity

theorem ratio_le_one : ratio a b ≤ 1 := by
  obtain ⟨l, ha, hb, hratio⟩ := ratio_common a b
  rcases Nat.eq_zero_or_pos (a.length + b.length) with hzero | hpos
  · rw [ratio, if_pos hzero]
  · have hle : (2 * l.length : Rat) ≤ (a.length + b.length : Nat) := by
      have := ha.length_le
      have := hb.length_le
      exact_mod_cast (by omega : 2 * l.length ≤ a.length + b.length)
    have hposQ : (0 : Rat) < (a.length + b.length : Nat) := Nat.cast_pos.mpr hpos
    refine le_of_mul_le_mul_left ?_ hposQ
    rw [hratio, mul_one]
    exact hle

variable {a b}

/-- Only equal sequences match completely. -/
theorem eq_of_ratio_eq_one (h : ratio a b = 1) : a = b := by
  obtain ⟨l, ha, hb, hratio⟩ := ratio_common a b
  rw [h, mul_one] at hratio
  have hlength : a.length + b.length = 2 * l.length := by exact_mod_cast hratio
  have hla := ha.length_le
  have hlb := hb.length_le
  have hsame := ha.eq_of_length (by omega)
  rw [← hsame]
  exact hb.eq_of_length (by omega)

/-- A live block of both sequences is matched, or one at least as long is. -/
theorem length_le_ratio {w : List α} (hlive : ∀ x ∈ w, live b x = true) (ha : w <:+: a) (hb : w <:+: b) :
    2 * w.length ≤ (a.length + b.length : Nat) * ratio a b := by
  have hsize := length_le_matchingSize hlive ha hb a.length
  rw [ratio]
  split
  · rename_i hzero
    have := ha.length_le
    rw [mul_one]
    exact_mod_cast (by omega : 2 * w.length ≤ a.length + b.length)
  · rename_i hne
    have hpos : ((a.length + b.length : Nat) : Rat) ≠ 0 := Nat.cast_ne_zero.mpr hne
    rw [mul_div_cancel₀ _ hpos]
    exact_mod_cast Nat.mul_le_mul_left 2 hsize

end Ratio

/-! ### A sequence and itself -/

section Self

variable {live : α → Bool}

/-- Off the diagonal, no row of a sequence with itself has a match longer than what was met before. -/
theorem scanRow_diagonal {x : α} {xs : List α} (a : List α) {best : Match} (hdiagonal : best.a = best.b)
    (hbest : ∀ zs, zs <:+ xs → run live zs zs ≤ best.size) :
    (scanRow xs.length 0 (runs live (x :: xs) [] ((x :: xs).reverse ++ a)) best).a =
        (scanRow xs.length 0 (runs live (x :: xs) [] ((x :: xs).reverse ++ a)) best).b ∧
      ∀ zs, zs <:+ x :: xs →
        run live zs zs ≤ (scanRow xs.length 0 (runs live (x :: xs) [] ((x :: xs).reverse ++ a)) best).size := by
  have hsplit : runs live (x :: xs) [] ((x :: xs).reverse ++ a) =
      runs live (x :: xs) [] xs.reverse ++ run live (x :: xs) (x :: xs) ::
        runs live (x :: xs) (x :: xs) a := by
    rw [List.reverse_cons, List.append_assoc, runs_append, List.reverse_reverse, List.append_nil]
    rfl
  have hbefore : ∀ k ∈ runs live (x :: xs) [] xs.reverse, k ≤ best.size := by
    intro k hk
    obtain ⟨zs, hzs, rfl⟩ := mem_runs hk
    rw [List.reverse_reverse, List.append_nil] at hzs
    exact Nat.le_trans (run_le_self _ _).2 (hbest zs hzs)
  have hlength : (runs live (x :: xs) [] xs.reverse).length = xs.length := by
    rw [length_runs, List.length_reverse]
  rw [hsplit, scanRow_append, scanRow_eq_self hbefore, hlength, Nat.zero_add, scanRow]
  have hafter (best' : Match) (h : run live (x :: xs) (x :: xs) ≤ best'.size) :
      ∀ k ∈ runs live (x :: xs) (x :: xs) a, k ≤ best'.size := by
    intro k hk
    obtain ⟨zs, _, rfl⟩ := mem_runs hk
    exact Nat.le_trans (run_le_self _ _).1 h
  have hall {best' : Match} (hgrown : best.size ≤ best'.size)
      (h : run live (x :: xs) (x :: xs) ≤ best'.size) : ∀ zs, zs <:+ x :: xs → run live zs zs ≤ best'.size := by
    intro zs hzs
    rcases List.suffix_cons_iff.mp hzs with rfl | hzs
    · exact h
    · exact Nat.le_trans (hbest zs hzs) hgrown
  split
  · rename_i hlonger
    rw [scanRow_eq_self (hafter _ (Nat.le_refl _))]
    exact ⟨rfl, hall (Nat.le_of_lt hlonger) (Nat.le_refl _)⟩
  · rename_i hshorter
    have hle := Nat.not_lt.mp hshorter
    rw [scanRow_eq_self (hafter _ hle)]
    exact ⟨hdiagonal, hall (Nat.le_refl _) hle⟩

theorem longestFrom_diagonal {xs a : List α} {best : Match} (hdiagonal : best.a = best.b)
    (hbest : ∀ zs, zs <:+ xs → run live zs zs ≤ best.size) :
    (longestFrom live (xs.reverse ++ a) xs.length (runs live xs [] (xs.reverse ++ a)) a best).a =
      (longestFrom live (xs.reverse ++ a) xs.length (runs live xs [] (xs.reverse ++ a)) a best).b := by
  induction a generalizing xs best with
  | nil => exact hdiagonal
  | cons x a ih =>
      have hall : xs.reverse ++ x :: a = (x :: xs).reverse ++ a := by
        rw [List.reverse_cons, List.append_assoc]
        rfl
      rw [longestFrom, nextRow_runs, hall]
      obtain ⟨hdiagonal', hbest'⟩ := scanRow_diagonal a hdiagonal hbest
      exact ih hdiagonal' hbest'

theorem longestLive_diagonal (a : List α) : (longestLive live a a).a = (longestLive live a a).b := by
  have hrow : (a.map fun _ => 0) = runs live [] [] a := (runs_nil [] a).symm
  have hnone : ∀ zs : List α, zs <:+ [] → run live zs zs ≤ 0 := by
    intro zs hzs
    rw [List.suffix_nil.mp hzs]
    exact Nat.le_refl _
  rw [longestLive, hrow]
  show (longestFrom live (([] : List α).reverse ++ a) ([] : List α).length _ a ⟨0, 0, 0⟩).a = _
  exact longestFrom_diagonal rfl hnone

theorem extendLeft_diagonal (a : List α) (i size : Nat) :
    extendLeft a a i i size = ⟨0, 0, i + size⟩ := by
  induction i generalizing size with
  | zero => rw [Nat.zero_add]; rfl
  | succ i ih => rw [extendLeft, if_pos rfl, ih, Nat.add_right_comm, Nat.add_assoc]

theorem commonPrefix_self (a : List α) : commonPrefix a a = a.length := by
  induction a with
  | nil => rfl
  | cons x a ih => rw [commonPrefix, if_pos rfl, ih, List.length_cons]

/-- A sequence is its own longest match, popular elements included. -/
theorem findLongestMatch_self (a : List α) : findLongestMatch live a a = ⟨0, 0, a.length⟩ := by
  have hle := (longestLive_valid live a a).a_le
  unfold findLongestMatch
  dsimp only
  rw [← longestLive_diagonal a, extendLeft_diagonal, extendRight, Nat.zero_add, commonPrefix_self,
    List.length_drop, Nat.add_sub_cancel' hle]

theorem ratio_self (a : List α) : ratio a a = 1 := by
  rcases List.eq_nil_or_concat a with rfl | ⟨_, _, hne⟩
  · rfl
  · have hpos : 0 < a.length := by
      rw [hne, List.concat_eq_append, List.length_append]
      exact Nat.succ_pos _
    have hsize : matchingSize (blocks a a) = a.length := by
      obtain ⟨l, hlength, hl, _⟩ := exists_common (live a) (a.length + 1) a a
      refine Nat.le_antisymm (hlength ▸ hl.length_le) ?_
      rw [blocks, matchingBlocks, findLongestMatch_self, if_neg (Nat.ne_of_gt hpos), matchingSize_around]
      dsimp only
      omega
    have hcast : ((a.length + a.length : Nat) : Rat) ≠ 0 := Nat.cast_ne_zero.mpr (by omega)
    rw [ratio, if_neg (by omega), hsize, div_eq_one_iff_eq hcast]
    rw [Nat.cast_add, two_mul]

/-- Equal sequences, and no others, match completely. -/
theorem ratio_eq_one_iff {a b : List α} : ratio a b = 1 ↔ a = b := by
  refine ⟨eq_of_ratio_eq_one, fun h => ?_⟩
  rw [h]
  exact ratio_self b

end Self

end SequenceMatcher

end Py

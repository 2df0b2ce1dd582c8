import ClassinDashboard.PyValue

/-!
Arithmetic of doubles, that rounding to the nearest double is monotone, and that sums of bounded doubles
stay finite.
-/

namespace Py

theorem roundHalfEven_intCast (n : Int) : roundHalfEven n = n := by
  simp [roundHalfEven]

theorem floor_le_roundHalfEven (q : ℚ) : ⌊q⌋ ≤ roundHalfEven q := by
  unfold roundHalfEven
  dsimp only
  split_ifs <;> omega

theorem roundHalfEven_le_floor (q : ℚ) : roundHalfEven q ≤ ⌊q⌋ + 1 := by
  unfold roundHalfEven
  dsimp only
  split_ifs <;> omega

theorem roundHalfEven_mono {q r : ℚ} (h : q ≤ r) : roundHalfEven q ≤ roundHalfEven r := by
  rcases (Int.floor_mono h).lt_or_eq with hlt | heq
  · calc roundHalfEven q ≤ ⌊q⌋ + 1 := roundHalfEven_le_floor q
      _ ≤ ⌊r⌋ := hlt
      _ ≤ roundHalfEven r := floor_le_roundHalfEven r
  · -- between two neighbouring ints only the rest decides
    unfold roundHalfEven
    dsimp only
    rw [heq]
    have hrest : q - ⌊r⌋ ≤ r - ⌊r⌋ := by linarith
    split_ifs <;> first | omega | linarith

namespace PyFloat

def neg : PyFloat → PyFloat
  | nan => nan
  | inf negative => inf !negative
  | fin q => fin (-q)

def add : PyFloat → PyFloat → PyFloat
  | nan, _ | _, nan => nan
  | inf a, inf b => if a = b then inf a else nan
  | inf a, fin _ => inf a
  | fin _, inf b => inf b
  | fin a, fin b => ofRat (a + b)

def sub (x y : PyFloat) : PyFloat := add x (neg y)

/-- `x < y`. -/
def lt : PyFloat → PyFloat → Bool
  | nan, _ | _, nan => false
  | inf a, inf b => a && !b
  | inf a, fin _ => a
  | fin _, inf b => !b
  | fin a, fin b => a < b

/-- `round(x, digits)`. -/
def roundTo (digits : Nat) : PyFloat → PyFloat
  | nan => nan
  | inf negative => inf negative
  | fin q => ofRat (roundHalfEven (q * 10 ^ digits) / 10 ^ digits)

/-- `round(x)`. -/
def round : PyFloat → Except PyError Int
  | nan => .error .valueError
  | inf _ => .error .overflowError
  | fin q => .ok (roundHalfEven q)

/-- The exponent of the leading binary digit. -/
def leading (q : ℚ) : Int :=
  let guess : Int := (Nat.log2 q.num.natAbs : Int) - Nat.log2 q.den
  if (2 : ℚ) ^ guess ≤ q then guess else guess - 1

theorem lastPlace_eq (q : ℚ) : lastPlace q = max (leading q - 52) (-1074) := rfl

/-- A positive rational lies between two neighbouring powers of two. -/
theorem leading_spec {q : ℚ} (h : 0 < q) :
    (2 : ℚ) ^ leading q ≤ q ∧ q < (2 : ℚ) ^ (leading q + 1) := by
  have hnum : 0 < q.num := Rat.num_pos.mpr h
  have hn : q.num.natAbs ≠ 0 := by omega
  have hd : q.den ≠ 0 := q.den_ne_zero
  have hq : q = (q.num.natAbs : ℚ) / q.den := by
    conv_lhs => rw [← Rat.num_div_den q]
    rw [Nat.cast_natAbs, abs_of_pos hnum]
  have hdpos : (0 : ℚ) < q.den := by positivity
  have hnlo : (2 : ℚ) ^ Nat.log2 q.num.natAbs ≤ q.num.natAbs := by
    exact_mod_cast Nat.log2_self_le hn
  have hnhi : (q.num.natAbs : ℚ) < 2 ^ (Nat.log2 q.num.natAbs + 1) := by
    exact_mod_cast Nat.lt_log2_self
  have hdlo : (2 : ℚ) ^ Nat.log2 q.den ≤ q.den := by exact_mod_cast Nat.log2_self_le hd
  have hdhi : (q.den : ℚ) < 2 ^ (Nat.log2 q.den + 1) := by exact_mod_cast Nat.lt_log2_self
  have htwo : (2 : ℚ) ≠ 0 := by norm_num
  -- one binary digit below and above the guess
  have hlow : (2 : ℚ) ^ ((Nat.log2 q.num.natAbs : Int) - Nat.log2 q.den - 1) ≤ q := by
    rw [zpow_sub₀ htwo, zpow_sub₀ htwo, zpow_natCast, zpow_natCast, zpow_one, div_div]
    refine le_trans ?_ hq.ge
    apply div_le_div₀ (by positivity) hnlo hdpos
    rw [← pow_succ]
    exact hdhi.le
  have hhigh : q < (2 : ℚ) ^ ((Nat.log2 q.num.natAbs : Int) - Nat.log2 q.den + 1) := by
    rw [zpow_add₀ htwo, zpow_sub₀ htwo, zpow_natCast, zpow_natCast, zpow_one, div_mul_eq_mul_div,
      ← pow_succ]
    refine lt_of_le_of_lt hq.le ?_
    exact div_lt_div₀ hnhi hdlo (by positivity) (by positivity)
  unfold leading
  dsimp only
  split_ifs with hguess
  · exact ⟨hguess, hhigh⟩
  · refine ⟨hlow, ?_⟩
    rw [sub_add_cancel]
    exact not_le.mp hguess

theorem leading_mono {q r : ℚ} (hq : 0 < q) (h : q ≤ r) : leading q ≤ leading r := by
  by_contra hlt
  have hstep : leading r + 1 ≤ leading q := by omega
  have hpow : (2 : ℚ) ^ (leading r + 1) ≤ 2 ^ leading q := zpow_le_zpow_right₀ (by norm_num) hstep
  have hr := (leading_spec (hq.trans_le h)).2
  have hq := (leading_spec hq).1
  linarith

theorem lastPlace_mono {q r : ℚ} (hq : 0 < q) (h : q ≤ r) : lastPlace q ≤ lastPlace r := by
  have := leading_mono hq h
  rw [lastPlace_eq, lastPlace_eq]
  omega

/-- The rounded absolute value, before overflow is looked at. -/
def magnitude (q : ℚ) : ℚ := roundHalfEven (q / (2 : ℚ) ^ lastPlace q) * (2 : ℚ) ^ lastPlace q

theorem ofRat_eq {q : ℚ} (h : q ≠ 0) :
    ofRat q = if (2 : ℚ) ^ (1024 : Int) ≤ magnitude |q| then inf (q < 0)
      else fin (if q < 0 then -magnitude |q| else magnitude |q|) := by
  rw [ofRat, if_neg h]
  rfl

/-- A power of two that is not below the last place is a number of last places. -/
theorem zpow_eq_places {q : ℚ} {n : Int} (hn : lastPlace q ≤ n) :
    ∃ k : ℕ, (2 : ℚ) ^ n = ((2 ^ k : Int) : ℚ) * 2 ^ lastPlace q := by
  obtain ⟨k, hk⟩ := Int.le.dest hn
  refine ⟨k, ?_⟩
  rw [← hk, zpow_add₀ (by norm_num), zpow_natCast, mul_comm]
  push_cast
  rfl

/-- Rounding does not go past a power of two on the way up. -/
theorem magnitude_le {q : ℚ} {n : Int} (hn : lastPlace q ≤ n)
    (hle : q ≤ (2 : ℚ) ^ n) : magnitude q ≤ (2 : ℚ) ^ n := by
  have hunit : (0 : ℚ) < 2 ^ lastPlace q := by positivity
  obtain ⟨k, hpow⟩ := zpow_eq_places hn
  rw [hpow] at hle ⊢
  have hround : roundHalfEven (q / 2 ^ lastPlace q) ≤ (2 ^ k : Int) := by
    rw [← roundHalfEven_intCast (2 ^ k)]
    exact roundHalfEven_mono ((div_le_iff₀ hunit).mpr hle)
  unfold magnitude
  gcongr

/-- Nor on the way down. -/
theorem le_magnitude {q : ℚ} {n : Int} (hn : lastPlace q ≤ n) (hle : (2 : ℚ) ^ n ≤ q) :
    (2 : ℚ) ^ n ≤ magnitude q := by
  have hunit : (0 : ℚ) < 2 ^ lastPlace q := by positivity
  obtain ⟨k, hpow⟩ := zpow_eq_places hn
  rw [hpow] at hle ⊢
  have hround : (2 ^ k : Int) ≤ roundHalfEven (q / 2 ^ lastPlace q) := by
    rw [← roundHalfEven_intCast (2 ^ k)]
    exact roundHalfEven_mono ((le_div_iff₀ hunit).mpr hle)
  unfold magnitude
  gcongr

theorem magnitude_mono {q r : ℚ} (hq : 0 < q) (h : q ≤ r) : magnitude q ≤ magnitude r := by
  rcases (lastPlace_mono hq h).lt_or_eq with hlt | heq
  · -- the power of two that begins the binade of `r` lies between
    have hplace : lastPlace r = leading r - 52 := by
      rw [lastPlace_eq] at hlt ⊢
      rw [lastPlace_eq] at hlt
      omega
    have hleading : leading q + 1 ≤ leading r := by
      rw [hplace, lastPlace_eq] at hlt
      omega
    have hbelow : q ≤ (2 : ℚ) ^ leading r :=
      (leading_spec hq).2.le.trans (zpow_le_zpow_right₀ (by norm_num) hleading)
    calc magnitude q ≤ (2 : ℚ) ^ leading r := magnitude_le (by omega) hbelow
      _ ≤ magnitude r := le_magnitude (by omega) (leading_spec (hq.trans_le h)).1
  · have hunit : (0 : ℚ) < 2 ^ lastPlace r := by positivity
    have hround : roundHalfEven (q / 2 ^ lastPlace r) ≤ roundHalfEven (r / 2 ^ lastPlace r) :=
      roundHalfEven_mono (by gcongr)
    unfold magnitude
    rw [heq]
    gcongr

theorem magnitude_nonneg {q : ℚ} (hq : 0 < q) : 0 ≤ magnitude q := by
  have hunit : (0 : ℚ) < 2 ^ lastPlace q := by positivity
  have hround : (0 : Int) ≤ roundHalfEven (q / 2 ^ lastPlace q) := by
    rw [← roundHalfEven_intCast 0]
    exact roundHalfEven_mono (by push_cast; positivity)
  unfold magnitude
  positivity

/-- The order of doubles, on which NaN does not take part. -/
def le : PyFloat → PyFloat → Prop
  | inf true, nan => False
  | inf true, _ => True
  | nan, _ => False
  | _, nan => False
  | _, inf false => True
  | fin a, fin b => a ≤ b
  | _, _ => False

theorem ofRat_of_pos {q : ℚ} (h : 0 < q) :
    ofRat q = if (2 : ℚ) ^ (1024 : Int) ≤ magnitude q then inf false else fin (magnitude q) := by
  rw [ofRat_eq h.ne', abs_of_pos h, decide_eq_false h.not_gt, if_neg h.not_gt]

theorem ofRat_of_neg {q : ℚ} (h : q < 0) :
    ofRat q = if (2 : ℚ) ^ (1024 : Int) ≤ magnitude (-q) then inf true
      else fin (-magnitude (-q)) := by
  rw [ofRat_eq h.ne, abs_of_neg h, decide_eq_true h, if_pos h]

theorem le_ofRat_of_nonneg {q : ℚ} (h : 0 ≤ q) : le (fin 0) (ofRat q) := by
  rcases h.eq_or_lt with rfl | hpos
  · exact le_refl (0 : ℚ)
  · rw [ofRat_of_pos hpos]
    split
    · trivial
    · exact magnitude_nonneg hpos

theorem ofRat_le_of_nonpos {q : ℚ} (h : q ≤ 0) : le (ofRat q) (fin 0) := by
  rcases h.eq_or_lt with rfl | hneg
  · exact le_refl (0 : ℚ)
  · rw [ofRat_of_neg hneg]
    split
    · trivial
    · exact neg_nonpos.mpr (magnitude_nonneg (neg_pos.mpr hneg))

theorem le.trans {x y z : PyFloat} (hxy : le x y) (hyz : le y z) : le x z := by
  cases x with
  | nan => cases hxy
  | inf a =>
      cases y with
      | nan => cases a <;> cases hxy
      | inf b => cases a <;> cases b <;> cases z <;> trivial
      | fin y => cases a <;> cases z <;> trivial
  | fin x =>
      cases y with
      | nan => cases hxy
      | inf b =>
          cases b with
          | true => cases hxy
          | false =>
              cases z with
              | inf c => cases c <;> trivial
              | nan | fin _ => cases hyz
      | fin y =>
          cases z with
          | nan => cases hyz
          | inf c => cases c <;> trivial
          | fin z => exact le_trans hxy hyz

/-- Rounding to the nearest double is monotone. -/
theorem ofRat_mono {q r : ℚ} (h : q ≤ r) : le (ofRat q) (ofRat r) := by
  by_cases hq : 0 < q
  · have hmag := magnitude_mono hq h
    rw [ofRat_of_pos hq, ofRat_of_pos (hq.trans_le h)]
    split_ifs with hbig hbig' hbig'
    · trivial
    · exact absurd (hbig.trans hmag) hbig'
    · trivial
    · exact hmag
  · by_cases hr : r < 0
    · have hmag := magnitude_mono (neg_pos.mpr hr) (neg_le_neg h)
      rw [ofRat_of_neg (h.trans_lt hr), ofRat_of_neg hr]
      split_ifs with hbig hbig' hbig'
      · trivial
      · trivial
      · exact absurd (hbig'.trans hmag) hbig
      · exact neg_le_neg hmag
    · exact (ofRat_le_of_nonpos (not_lt.mp hq)).trans (le_ofRat_of_nonneg (not_lt.mp hr))

theorem intLt_of_le {n : Int} {x y : PyFloat} (h : le x y) (hlt : intLt n x = true) :
    intLt n y = true := by
  cases x with
  | nan => cases hlt
  | inf a =>
      cases a with
      | true => cases hlt
      | false =>
          cases y with
          | inf b => cases b <;> trivial
          | nan | fin _ => cases h
  | fin q =>
      cases y with
      | nan => cases h
      | inf b => cases b <;> trivial
      | fin r =>
          have hq : (n : ℚ) < q := of_decide_eq_true hlt
          exact decide_eq_true (hq.trans_le h)

/-! ### Sums that do not overflow -/

theorem leading_le {q : ℚ} {n : Int} (hq : 0 < q) (h : q < (2 : ℚ) ^ (n + 1)) : leading q ≤ n := by
  by_contra hlt
  have hstep : n + 1 ≤ leading q := by omega
  have hpow : (2 : ℚ) ^ (n + 1) ≤ 2 ^ leading q := zpow_le_zpow_right₀ (by norm_num) hstep
  exact absurd (hpow.trans (leading_spec hq).1) h.not_ge

/-- What is less than half a place above a power of two is rounded down to it. -/
theorem magnitude_le_of_lt {q : ℚ} {n : Int} (hn : -1022 ≤ n) (hq : 0 < q)
    (h : q < (2 : ℚ) ^ n + 2 ^ (n - 53)) : magnitude q ≤ (2 : ℚ) ^ n := by
  have htwo : (2 : ℚ) ≠ 0 := by norm_num
  have hhalf : (2 : ℚ) ^ (n - 53) ≤ 2 ^ n := zpow_le_zpow_right₀ (by norm_num) (by omega)
  have hleading : leading q ≤ n := by
    apply leading_le hq
    rw [zpow_add₀ htwo, zpow_one]
    linarith
  have hplace : lastPlace q ≤ n := by
    rw [lastPlace_eq]
    omega
  rcases le_or_gt q (2 ^ n) with hle | hgt
  · exact magnitude_le hplace hle
  · -- above the power the places are those of its binade
    have hexact : leading q = n := by
      refine le_antisymm hleading (not_lt.mp fun hlt => ?_)
      have hpow : (2 : ℚ) ^ (leading q + 1) ≤ 2 ^ n := zpow_le_zpow_right₀ (by norm_num) hlt
      exact absurd ((leading_spec hq).2.trans_le hpow) hgt.not_gt
    have hlast : lastPlace q = n - 52 := by
      rw [lastPlace_eq]
      omega
    have hunit : (0 : ℚ) < 2 ^ (n - 52) := by positivity
    have hplaces : (2 : ℚ) ^ n = 2 ^ 52 * 2 ^ (n - 52) := by
      rw [zpow_sub₀ htwo]
      field_simp
    have hlow : ((2 ^ 52 : Int) : ℚ) ≤ q / 2 ^ (n - 52) := by
      rw [le_div_iff₀ hunit]
      push_cast
      linarith
    have hhigh : q / 2 ^ (n - 52) < (2 ^ 52 : Int) + 1 / 2 := by
      have hsplit : (2 : ℚ) ^ (n - 52) = 2 * 2 ^ (n - 53) := by
        rw [show n - 52 = 1 + (n - 53) by omega, zpow_add₀ htwo, zpow_one]
      rw [div_lt_iff₀ hunit]
      push_cast
      linarith
    have hfloor : ⌊q / (2 : ℚ) ^ (n - 52)⌋ = 2 ^ 52 := by
      rw [Int.floor_eq_iff]
      exact ⟨hlow, by linarith⟩
    have hround : roundHalfEven (q / 2 ^ (n - 52)) = 2 ^ 52 := by
      unfold roundHalfEven
      dsimp only
      rw [hfloor, if_pos (by linarith)]
    rw [magnitude, hlast, hround, hplaces]
    push_cast
    exact le_refl _

/-- A number is finite and within a bound. -/
def Within (bound : ℚ) (x : PyFloat) : Prop := ∃ q, x = fin q ∧ |q| ≤ bound

theorem ofRat_within {q : ℚ} {n : Int} (hlow : -1022 ≤ n) (hhigh : n < 1024)
    (h : |q| < (2 : ℚ) ^ n + 2 ^ (n - 53)) : Within (2 ^ n) (ofRat q) := by
  by_cases hq : q = 0
  · subst hq
    exact ⟨0, rfl, by rw [abs_zero]; positivity⟩
  · have hpos : 0 < |q| := abs_pos.mpr hq
    have hmag := magnitude_le_of_lt hlow hpos h
    have hmax : (2 : ℚ) ^ n < 2 ^ (1024 : Int) := zpow_lt_zpow_right₀ (by norm_num) hhigh
    rw [ofRat_eq hq, if_neg (hmag.trans_lt hmax).not_ge]
    refine ⟨_, rfl, ?_⟩
    split
    · rwa [abs_neg, abs_of_nonneg (magnitude_nonneg hpos)]
    · rwa [abs_of_nonneg (magnitude_nonneg hpos)]

/-- Numbers below half a place of a power of two never sum up past it, however many they are. -/
theorem foldl_add_within {n : Int} (hlow : -1022 ≤ n) (hhigh : n < 1024) {bound : ℚ}
    (hbound : bound < 2 ^ (n - 53)) {xs : List PyFloat} (hxs : ∀ x ∈ xs, Within bound x)
    {total : PyFloat} (htotal : Within (2 ^ n) total) : Within (2 ^ n) (xs.foldl add total) := by
  induction xs generalizing total with
  | nil => exact htotal
  | cons x xs ih =>
      obtain ⟨q, rfl, hq⟩ := hxs x List.mem_cons_self
      obtain ⟨sum, rfl, hsum⟩ := htotal
      refine ih (fun y hy => hxs y (List.mem_cons_of_mem _ hy)) ?_
      apply ofRat_within hlow hhigh
      calc |sum + q| ≤ |sum| + |q| := abs_add_le sum q
        _ < 2 ^ n + 2 ^ (n - 53) := by linarith

end PyFloat
end Py

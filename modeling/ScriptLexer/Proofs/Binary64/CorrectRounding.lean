/-
# Correct rounding

`RoundsTo` says when a rational number is rounded correctly: to the nearest finite number, of two
equally near ones to that with the even significand, and to infinity from the midpoint on between
the largest finite number and the power of two above it.

A number is rounded correctly exactly if it lies in the range of the magnitude that it is rounded to
(`roundsTo_iff`).  So there is one way to do it (`RoundsTo.unique`), and it is what is done to a
ratio of natural numbers (`roundsTo_ofRatio`).
-/
import ScriptLexer.Proofs.Binary64.Value
import Mathlib.Algebra.Order.Ring.Abs

namespace ScriptLexer.Binary64

/-- The number `x` is the nonnegative rational number `q`, rounded correctly. -/
structure RoundsTo (q : ℚ) (x : Binary64) : Prop where
  /-- The sign is clear, that of zero included. -/
  sign : x.isNegative = false
  /-- What lies at or above the midpoint between the largest finite number and the next power of two
  is rounded to infinity. -/
  overflow : 2 ^ 1024 - 2 ^ 970 ≤ q → x = infinity
  /-- Anything below is rounded to a finite number. -/
  finite : q < 2 ^ 1024 - 2 ^ 970 → x.IsFinite
  /-- No finite number is nearer. -/
  nearest : q < 2 ^ 1024 - 2 ^ 970 → ∀ y : Binary64, y.IsFinite →
    |q - x.value| ≤ |q - y.value|
  /-- If another one is as near, then the significand is even. -/
  even : q < 2 ^ 1024 - 2 ^ 970 → ∀ y : Binary64, y.IsFinite →
    y.value ≠ x.value → |q - y.value| = |q - x.value| → x.significand % 2 = 0
  /-- What lies at or below half the least positive number is rounded to zero. -/
  underflow : q ≤ 1 / 2 ^ 1075 → x = zero

/-! ## Distances in halves of a unit -/

lemma dist_mul (q v : ℚ) : |q - v| * halvesInOne = |q * halvesInOne - v * halvesInOne| := by
  rw [← sub_mul, abs_mul, abs_of_pos halvesInOne_pos]

lemma dist_le_iff (q v w : ℚ) : |q - v| ≤ |q - w| ↔
    |q * halvesInOne - v * halvesInOne| ≤ |q * halvesInOne - w * halvesInOne| := by
  rw [← dist_mul, ← dist_mul, mul_le_mul_iff_left₀ halvesInOne_pos]

lemma dist_eq_iff (q v w : ℚ) : |q - v| = |q - w| ↔
    |q * halvesInOne - v * halvesInOne| = |q * halvesInOne - w * halvesInOne| := by
  rw [← dist_mul, ← dist_mul, mul_left_inj' halvesInOne_pos.ne']

section Midpoint

variable {y a b : ℚ}

/-- Of two numbers the larger is as near as the smaller exactly from their midpoint on. -/
lemma dist_le_iff_of_lt (h : a < b) : |y - 2 * b| ≤ |y - 2 * a| ↔ a + b ≤ y := by
  have hpos : 0 < 4 * (b - a) := by linarith
  have hfactor : (y - 2 * a) ^ 2 - (y - 2 * b) ^ 2 = 4 * (b - a) * (y - (a + b)) := by ring
  rw [← sq_le_sq, ← sub_nonneg, hfactor, mul_nonneg_iff_of_pos_left hpos, sub_nonneg]

lemma dist_le_iff_of_gt (h : a < b) : |y - 2 * a| ≤ |y - 2 * b| ↔ y ≤ a + b := by
  have hpos : 0 < 4 * (b - a) := by linarith
  have hfactor : (y - 2 * b) ^ 2 - (y - 2 * a) ^ 2 = 4 * (b - a) * (a + b - y) := by ring
  rw [← sq_le_sq, ← sub_nonneg, hfactor, mul_nonneg_iff_of_pos_left hpos, sub_nonneg]

lemma dist_eq_iff_of_lt (h : a < b) : |y - 2 * a| = |y - 2 * b| ↔ y = a + b := by
  rw [le_antisymm_iff, dist_le_iff_of_gt h, dist_le_iff_of_lt h, ← le_antisymm_iff]

end Midpoint

namespace InBasin

variable {y : ℚ} {r s : Nat}

/-- What rounds to a magnitude is as near to it as to any other finite one, and if another is as
near, then the rank is even. -/
lemma dist_le (h : InBasin y r) (hr : r < infinityRank) (hne : s ≠ r) :
    |y - 2 * units r| ≤ |y - 2 * units s| ∧
      (|y - 2 * units s| = |y - 2 * units r| → r % 2 = 0) := by
  rcases Nat.lt_or_gt_of_ne hne with hlt | hgt
  · -- no smaller magnitude is nearer than the next smaller one
    obtain ⟨p, rfl⟩ : ∃ p, r = p + 1 := ⟨r - 1, by omega⟩
    have hunits := cast_units_lt hlt
    have hsmaller := cast_units_le (show s ≤ p by omega)
    rw [dist_le_iff_of_lt hunits, dist_eq_iff_of_lt hunits]
    rcases h.lower p rfl with hlower | ⟨hlower, heven⟩
    · exact ⟨by linarith, fun heq => by linarith⟩
    · exact ⟨by linarith, fun _ => heven⟩
  · have hunits := cast_units_lt hgt
    have hlarger := cast_units_le (show r + 1 ≤ s by omega)
    rw [dist_le_iff_of_gt hunits, eq_comm, dist_eq_iff_of_lt hunits]
    rcases h.upper hr with hupper | ⟨hupper, heven⟩
    · exact ⟨by linarith, fun heq => by linarith⟩
    · exact ⟨by linarith, fun _ => heven⟩

end InBasin

/-! ## The two ends of the scale -/

/-- The midpoint between the largest finite number and the next power of two, in halves of a
unit. -/
lemma overflow_mul : (2 ^ 1024 - 2 ^ 970) * halvesInOne
    = units (infinityRank - 1) + units infinityRank := by
  have hlargest : units (infinityRank - 1) = (2 * binade - 1) * 2 ^ 2045 :=
    units_grid (s := 2045) (m := 2 * binade - 1) (Or.inr (by decide)) (by decide)
  have hnext : units infinityRank = 2 * binade * 2 ^ 2045 :=
    units_grid (s := 2045) (m := 2 * binade) (Or.inr (by decide)) le_rfl
  have hpow : (2 : ℚ) ^ 1024 = 2 ^ 54 * 2 ^ 970 := pow_add 2 54 970
  have hscale : (2 : ℚ) ^ 2045 = 2 ^ 970 * halvesInOne := pow_add 2 970 1075
  have hbinade : ((2 * binade - 1 : ℕ) : ℚ) = 2 ^ 53 - 1 := by
    rw [Nat.cast_sub (by decide)]
    norm_num [binade_eq]
  rw [hlargest, hnext, Nat.cast_mul, Nat.cast_mul, hbinade, Nat.cast_pow, Nat.cast_ofNat, hscale,
    hpow, Nat.cast_mul, binade_eq]
  generalize (2 : ℚ) ^ 970 = p
  push_cast
  ring

/-- What rounds to infinity is what lies at or above this midpoint. -/
lemma InBasin.rank_lt_iff {y : ℚ} {r : Nat} (h : InBasin y r) :
    r < infinityRank ↔ y < (2 ^ 1024 - 2 ^ 970) * halvesInOne := by
  rw [overflow_mul]
  have hodd : (infinityRank - 1) % 2 = 1 := by decide
  constructor
  · intro hr
    have hle := cast_units_le (show r ≤ infinityRank - 1 by omega)
    have hle' := cast_units_le (show r + 1 ≤ infinityRank by omega)
    rcases h.upper hr with hupper | ⟨hupper, heven⟩
    · linarith
    · -- on the midpoint itself the rank would be odd
      have hlt := cast_units_lt (show r < infinityRank - 1 by omega)
      linarith
  · intro hy
    by_contra hr
    obtain rfl : r = infinityRank := Nat.le_antisymm h.rank_le (Nat.not_lt.1 hr)
    rcases h.lower (infinityRank - 1) rfl with hlower | ⟨hlower, -⟩ <;> linarith

lemma InBasin.rank_eq_zero {y : ℚ} {r : Nat} (h : InBasin y r) (hy : y ≤ 1) : r = 0 := by
  by_contra hr
  obtain ⟨p, rfl⟩ : ∃ p, r = p + 1 := ⟨r - 1, by omega⟩
  have hone : units 1 = 1 := units_of_lt (by decide)
  have hle := cast_units_le (show 1 ≤ p + 1 by omega)
  have hpos : (0 : ℚ) ≤ units p := Nat.cast_nonneg _
  rw [hone, Nat.cast_one] at hle
  rcases h.lower p rfl with hlower | ⟨hlower, heven⟩
  · linarith
  · -- only the least positive number has the midpoint at its lower end, and its rank is odd
    have hp : p = 0 := by
      by_contra hne
      have hle' := cast_units_le (show 1 ≤ p by omega)
      rw [hone, Nat.cast_one] at hle'
      linarith
    omega

/-! ## Correct rounding and the scale -/

section RoundsTo

variable {q : ℚ} {x : Binary64}

lemma dist_le_dist_neg {y v : ℚ} (hy : 0 ≤ y) (hv : 0 ≤ v) : |y - v| ≤ |y - -v| := by
  rw [sub_neg_eq_add, abs_of_nonneg (add_nonneg hy hv), abs_le]
  constructor <;> linarith

lemma dist_magnitude_le (hq : 0 ≤ q) (z : Binary64) :
    |q * halvesInOne - 2 * units z.rank| ≤ |q * halvesInOne - z.value * halvesInOne| := by
  cases hs : z.isNegative with
  | false => rw [value_mul_of_nonneg hs]
  | true =>
    rw [value_mul_of_neg hs]
    exact dist_le_dist_neg (mul_nonneg hq halvesInOne_pos.le) (by positivity)

/-- What rounds to a magnitude other than zero is nearer to it than to its negative. -/
lemma InBasin.dist_lt {y : ℚ} {r : Nat} (h : InBasin y r) (hr : r ≠ 0) :
    |y - 2 * units r| < |y - -(2 * units r)| := by
  obtain ⟨p, rfl⟩ : ∃ p, r = p + 1 := ⟨r - 1, by omega⟩
  have hsmaller : (0 : ℚ) ≤ units p := Nat.cast_nonneg _
  have hpos := cast_units_lt (Nat.lt_succ_self p)
  have hy : (units (p + 1) : ℚ) ≤ y := by
    rcases h.lower p rfl with hlower | ⟨hlower, -⟩ <;> linarith
  rw [sub_neg_eq_add, abs_of_pos (a := y + _) (by linarith), abs_lt]
  constructor <;> linarith

/-- What lies in the range of a finite magnitude is rounded to it: no finite number is nearer, and
if one is as near then the rank is even. -/
lemma InBasin.nearest (h : InBasin (q * halvesInOne) x.rank) (hsign : x.isNegative = false)
    (hq : 0 ≤ q) (hx : x.rank < infinityRank) (z : Binary64) :
    |q - x.value| ≤ |q - z.value| ∧
      (z.value ≠ x.value → |q - z.value| = |q - x.value| → x.rank % 2 = 0) := by
  have hmagnitude := dist_magnitude_le hq z
  rw [dist_le_iff, dist_eq_iff, value_mul_of_nonneg hsign]
  by_cases hrank : z.rank = x.rank
  · rw [hrank] at hmagnitude
    refine ⟨hmagnitude, fun hne heq => ?_⟩
    by_cases hzero : x.rank = 0
    · rw [hzero]
    · -- the other number of this magnitude is farther away
      have hlt := h.dist_lt hzero
      cases hs : z.isNegative with
      | true =>
        rw [value_mul_of_neg hs, hrank] at heq
        exact absurd heq hlt.ne'
      | false =>
        have hvalue : z.value * halvesInOne = x.value * halvesInOne := by
          rw [value_mul_of_nonneg hs, value_mul_of_nonneg hsign, hrank]
        exact absurd (mul_right_cancel₀ halvesInOne_pos.ne' hvalue) hne
  · obtain ⟨hle, heven⟩ := h.dist_le hx hrank
    refine ⟨hle.trans hmagnitude, fun _ heq => heven (le_antisymm ?_ hle)⟩
    exact heq ▸ hmagnitude

/-- No finite magnitude is nearer than that which a number is rounded to, and if one is as near then
the rank is even. -/
lemma RoundsTo.dist_le (h : RoundsTo q x) (hlt : q < 2 ^ 1024 - 2 ^ 970) {s : Nat}
    (hs : s < infinityRank) (hne : s ≠ x.rank) :
    |q * halvesInOne - 2 * units x.rank| ≤ |q * halvesInOne - 2 * units s| ∧
      (|q * halvesInOne - 2 * units s| = |q * halvesInOne - 2 * units x.rank| →
        x.rank % 2 = 0) := by
  have hfinite : (ofRank s).IsFinite := by rwa [isFinite_iff, rank_ofRank hs.le]
  have hvalue := value_mul_of_nonneg (isNegative_ofRank hs.le)
  rw [rank_ofRank hs.le] at hvalue
  have hle := h.nearest hlt (ofRank s) hfinite
  have heven := h.even hlt (ofRank s) hfinite
  rw [dist_le_iff, hvalue, value_mul_of_nonneg h.sign] at hle
  rw [dist_eq_iff, hvalue, value_mul_of_nonneg h.sign, significand_mod_two] at heven
  refine ⟨hle, heven fun heq => hne ?_⟩
  have hunits : (2 * units s : ℚ) = 2 * units x.rank := by
    rw [← hvalue, heq, value_mul_of_nonneg h.sign]
  exact units_strictMono.injective (Nat.cast_injective (mul_left_cancel₀ two_ne_zero hunits))

/-- What is rounded to a number lies in the range of its magnitude. -/
lemma RoundsTo.inBasin (h : RoundsTo q x) : InBasin (q * halvesInOne) x.rank := by
  rcases lt_or_ge q (2 ^ 1024 - 2 ^ 970) with hlt | hge
  · -- neither neighbour of the magnitude is nearer
    have hx := isFinite_iff.1 (h.finite hlt)
    refine ⟨fun s hs => ?_, fun _ => ?_, hx.le⟩
    · obtain ⟨hle, heven⟩ := h.dist_le hlt (show s < infinityRank by omega) (by omega)
      have hunits := cast_units_lt (show s < x.rank by omega)
      rw [dist_le_iff_of_lt hunits] at hle
      rw [dist_eq_iff_of_lt hunits, eq_comm] at heven
      exact hle.lt_or_eq.imp_right fun heq => ⟨heq, heven heq⟩
    · rcases Nat.lt_or_ge (x.rank + 1) infinityRank with hnext | hlast
      · obtain ⟨hle, heven⟩ := h.dist_le hlt hnext (Nat.succ_ne_self _)
        have hunits := cast_units_lt (Nat.lt_succ_self x.rank)
        rw [dist_le_iff_of_gt hunits] at hle
        rw [eq_comm, dist_eq_iff_of_lt hunits] at heven
        exact hle.lt_or_eq.imp_right fun heq => ⟨heq, heven heq⟩
      · -- above the largest finite number lies infinity
        obtain hrank : x.rank = infinityRank - 1 := by omega
        have hnext : x.rank + 1 = infinityRank := by omega
        rw [hnext, hrank, ← overflow_mul]
        exact Or.inl (mul_lt_mul_of_pos_right hlt halvesInOne_pos)
  · have hx : x.rank = infinityRank := by
      rw [h.overflow hge, ← ofRank_infinityRank, rank_ofRank le_rfl]
    have hmid := mul_le_mul_of_nonneg_right hge halvesInOne_pos.le
    rw [overflow_mul] at hmid
    rw [hx]
    refine ⟨fun s hs => ?_, fun hlt => absurd hlt (Nat.lt_irrefl _), le_rfl⟩
    obtain rfl : s = infinityRank - 1 := by omega
    exact hmid.lt_or_eq.imp_right fun heq => ⟨heq, by decide⟩

/-- **To round correctly is to find the range of the scale.**  A number with a clear sign is what
`q` is rounded to exactly if `q` lies in the range of its magnitude. -/
theorem roundsTo_iff (hq : 0 ≤ q) :
    RoundsTo q x ↔ x.isNegative = false ∧ InBasin (q * halvesInOne) x.rank := by
  constructor
  · exact fun h => ⟨h.sign, h.inBasin⟩
  · rintro ⟨hsign, h⟩
    have hlt_iff : x.rank < infinityRank ↔ q < 2 ^ 1024 - 2 ^ 970 := by
      rw [h.rank_lt_iff, mul_lt_mul_iff_left₀ halvesInOne_pos]
    refine ⟨hsign, fun hge => ?_, fun hlt => isFinite_iff.2 (hlt_iff.2 hlt), fun hlt z _ => ?_,
      fun hlt z _ => ?_, fun hle => ?_⟩
    · have hrank : x.rank = infinityRank :=
        Nat.le_antisymm h.rank_le (Nat.not_lt.1 fun hlt => (hlt_iff.1 hlt).not_ge hge)
      rw [← ofRank_rank hsign, hrank, ofRank_infinityRank]
    · exact (h.nearest hsign hq (hlt_iff.2 hlt) z).1
    · rw [significand_mod_two]
      exact (h.nearest hsign hq (hlt_iff.2 hlt) z).2
    · have hone : q * halvesInOne ≤ 1 := by
        rw [← le_div_iff₀ halvesInOne_pos]
        exact hle
      rw [← ofRank_rank hsign, h.rank_eq_zero hone, ofRank_zero]

/-- There is one number that a rational number is rounded to. -/
theorem RoundsTo.unique {x' : Binary64} (h : RoundsTo q x) (h' : RoundsTo q x') : x = x' := by
  rw [← ofRank_rank h.sign, ← ofRank_rank h'.sign, h.inBasin.unique h'.inBasin]

lemma RoundsTo.of_between {p y : ℚ} (hp : RoundsTo p x) (hq : RoundsTo q x) (hpos : 0 ≤ p)
    (hpy : p ≤ y) (hyq : y ≤ q) : RoundsTo y x := by
  have hscale := halvesInOne_pos.le
  refine (roundsTo_iff (hpos.trans hpy)).2 ⟨hp.sign, hp.inBasin.of_between hq.inBasin ?_ ?_⟩
  · exact mul_le_mul_of_nonneg_right hpy hscale
  · exact mul_le_mul_of_nonneg_right hyq hscale

end RoundsTo

/-- A ratio of natural numbers is rounded correctly. -/
theorem roundsTo_ofRatio (n : Nat) {d : Nat} (hd : 0 < d) :
    RoundsTo (n / d : ℚ) (ofRatio n d) := by
  have hbasin := inBasin_nearestRank (n := n) hd
  have hq : (0 : ℚ) ≤ n / d := div_nonneg n.cast_nonneg d.cast_nonneg
  rw [roundsTo_iff hq, ofRatio, rank_ofRank hbasin.rank_le]
  exact ⟨isNegative_ofRank hbasin.rank_le, hbasin⟩

end ScriptLexer.Binary64

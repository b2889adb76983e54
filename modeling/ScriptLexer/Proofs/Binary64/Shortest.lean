/-
# The shortest decimal

A finite number is written as the shortest decimal that is rounded to it, and as the nearest one of
those that end where it ends (`isShortest_decimalOfRank`).

The search goes over the grids, from the coarsest one down.  On one grid it looks at the two
neighbours of the magnitude only, and this is enough because a basin has no gaps
(`Basin.Proper.contains_eq_false`, `Basin.Proper.nearestOn_le`).  It comes to an end because the
finest grid is finer than any basin (`gridStep_zero_lt`), and no grid is left out above the one it
begins with (`Basin.Proper.shortest_eq`).  A point of a grid lies in the basin exactly if it is
rounded to the number (`roundsTo_gridPoint`).
-/
import ScriptLexer.Proofs.Binary64.CorrectRounding
import ScriptLexer.Proofs.Decimal

namespace ScriptLexer.Binary64

/-! ## The grids -/

/-- The decimal that lies `k` steps from zero on the grid of `10 ^ (i - 324)`. -/
def gridPoint (i k : Nat) : Decimal := ⟨k, (i : Nat) - (finestPlaces : Int)⟩

lemma gridStep_pos (i : Nat) : 0 < gridStep i := by
  have htwo : ∀ n, 0 < Nat.pow 2 n := fun n => Nat.two_pow_pos n
  exact Nat.mul_pos (Nat.pow_pos (by decide)) (htwo 1075)

lemma gridStep_eq (i : Nat) : gridStep i = 10 ^ i * gridStep 0 := by
  rw [gridStep, gridStep]
  generalize Nat.pow 2 1075 = n
  exact congrArg (10 ^ i * ·) (Nat.one_mul n).symm

/-- How many steps of the finest grid there are in one. -/
def stepsInOne : ℚ := 10 ^ finestPlaces

lemma stepsInOne_pos : 0 < stepsInOne := pow_pos (by norm_num) finestPlaces

lemma cast_gridStep (i : Nat) : (gridStep i : ℚ) = 10 ^ i * halvesInOne := by
  rw [gridStep, halvesInOne]
  generalize 1075 = n
  rw [Nat.pow_eq, Nat.pow_eq, Nat.cast_mul, Nat.cast_pow, Nat.cast_pow, Nat.cast_ofNat,
    Nat.cast_ofNat]

lemma value_gridPoint_mul (i k : Nat) :
    (gridPoint i k).value * halvesInOne = (k * gridStep i : ℕ) / stepsInOne := by
  have hten : (10 : ℚ) ≠ 0 := by norm_num
  rw [gridPoint, Decimal.value, zpow_sub₀ hten, zpow_natCast, zpow_natCast, Nat.cast_mul,
    cast_gridStep, stepsInOne, mul_div_assoc', div_mul_eq_mul_div, mul_assoc]

/-! ## The points of a grid in a basin -/

namespace Basin

variable {b : Basin} {x step d k : Nat}

/-- The magnitude of a basin lies between its ends, and no end is at zero. -/
structure Proper (b : Basin) : Prop where
  lower_pos : 0 < b.lower
  lower_lt : b.lower < b.value
  lt_upper : b.value < b.upper

lemma contains_iff : b.contains x = true ↔
    (b.lower < x ∨ b.lower = x ∧ b.closed = true) ∧
      (x < b.upper ∨ x = b.upper ∧ b.closed = true) := by
  rw [contains]
  cases b.closed <;> simp [Nat.le_iff_lt_or_eq]

/-- A basin has no gaps: it holds what lies between a point of it and its magnitude. -/
lemma Proper.contains_of_between (hb : b.Proper) {y : Nat} (h : b.contains x = true)
    (hy : x ≤ y ∧ y ≤ b.value ∨ b.value ≤ y ∧ y ≤ x) : b.contains y = true := by
  have hlower := hb.lower_lt
  have hupper := hb.lt_upper
  rw [contains_iff] at h ⊢
  grind

/-- What is found on a grid is one of the two neighbours of the magnitude, and the other is not in
the basin or not nearer. -/
lemma nearestOn_eq_some (h : b.nearestOn step = some d) :
    b.contains (d * step) = true ∧
      (d = b.value / step ∧ (b.contains ((d + 1) * step) = true →
          b.value - d * step < (d + 1) * step - b.value) ∨
        d = b.value / step + 1 ∧ (b.contains (b.value / step * step) = true →
          d * step - b.value ≤ b.value - b.value / step * step)) := by
  simp only [nearestOn, ← Nat.succ_mul] at h
  split at h
  next hlow hhigh =>
    split at h
    next hlt =>
      obtain rfl := Option.some.inj h
      exact ⟨hlow, Or.inl ⟨rfl, fun _ => hlt⟩⟩
    next hge =>
      obtain rfl := Option.some.inj h
      exact ⟨hhigh, Or.inr ⟨rfl, fun _ => Nat.not_lt.1 hge⟩⟩
  next hlow hhigh =>
    obtain rfl := Option.some.inj h
    exact ⟨hlow, Or.inl ⟨rfl, fun hcontains => absurd (hhigh.symm.trans hcontains) (by decide)⟩⟩
  next hlow hhigh =>
    obtain rfl := Option.some.inj h
    exact ⟨hhigh, Or.inr ⟨rfl, fun hcontains => absurd (hlow.symm.trans hcontains) (by decide)⟩⟩
  next => exact absurd h (by simp)

lemma neighbours (b : Basin) (hstep : 0 < step) :
    b.value / step * step ≤ b.value ∧ b.value < (b.value / step + 1) * step :=
  ⟨Nat.div_mul_le_self _ _, Nat.lt_mul_of_div_lt (Nat.lt_succ_self _) hstep⟩

/-- If a point of a grid is in the basin, then so is the neighbour of the magnitude on the same
side. -/
lemma Proper.contains_neighbour (hb : b.Proper) (hstep : 0 < step)
    (hk : b.contains (k * step) = true) :
    k * step ≤ b.value / step * step ∧ b.contains (b.value / step * step) = true ∨
      (b.value / step + 1) * step ≤ k * step ∧
        b.contains ((b.value / step + 1) * step) = true := by
  obtain ⟨hbelow, habove⟩ := b.neighbours hstep
  rcases Nat.lt_or_ge (b.value / step) k with hlt | hge
  · have hle : (b.value / step + 1) * step ≤ k * step := Nat.mul_le_mul_right step hlt
    exact Or.inr ⟨hle, hb.contains_of_between hk (Or.inr ⟨habove.le, hle⟩)⟩
  · have hle : k * step ≤ b.value / step * step := Nat.mul_le_mul_right step hge
    exact Or.inl ⟨hle, hb.contains_of_between hk (Or.inl ⟨hle, hbelow⟩)⟩

/-- If neither neighbour of the magnitude is in the basin, then no point of the grid is. -/
lemma Proper.contains_eq_false (hb : b.Proper) (hstep : 0 < step) (h : b.nearestOn step = none)
    (k : Nat) : b.contains (k * step) = false := by
  simp only [nearestOn, ← Nat.succ_mul] at h
  split at h
  next => split at h <;> exact absurd h (by simp)
  next => exact absurd h (by simp)
  next => exact absurd h (by simp)
  next hlow hhigh =>
    by_contra hk
    rw [Bool.not_eq_false] at hk
    rcases hb.contains_neighbour hstep hk with ⟨-, hcontains⟩ | ⟨-, hcontains⟩
    · exact absurd (hlow.symm.trans hcontains) (by decide)
    · exact absurd (hhigh.symm.trans hcontains) (by decide)

/-- No point of the grid in the basin is nearer than the one found, and none that is as near is
larger. -/
lemma Proper.nearestOn_le (hb : b.Proper) (hstep : 0 < step) (h : b.nearestOn step = some d)
    (hk : b.contains (k * step) = true) :
    ((d * step : ℕ) - (b.value : ℤ)).natAbs ≤ ((k * step : ℕ) - (b.value : ℤ)).natAbs ∧
      (((d * step : ℕ) - (b.value : ℤ)).natAbs = ((k * step : ℕ) - (b.value : ℤ)).natAbs →
        k * step ≤ d * step) := by
  obtain ⟨hbelow, habove⟩ := b.neighbours hstep
  obtain ⟨-, ⟨rfl, hother⟩ | ⟨rfl, hother⟩⟩ := nearestOn_eq_some h
  · -- the lower neighbour was found
    rcases hb.contains_neighbour hstep hk with ⟨hle, -⟩ | ⟨hle, hcontains⟩
    · omega
    · have hlt := hother hcontains
      omega
  · -- the upper neighbour was found
    rcases hb.contains_neighbour hstep hk with ⟨hle, hcontains⟩ | ⟨hle, -⟩
    · have hlt := hother hcontains
      omega
    · omega

/-- A grid that is finer than the lower half of the basin has a point in it. -/
lemma Proper.nearestOn_ne_none (hb : b.Proper) (hstep : 0 < step)
    (hfine : step < b.value - b.lower) : b.nearestOn step ≠ none := by
  intro h
  obtain ⟨hbelow, habove⟩ := b.neighbours hstep
  have hupper := hb.lt_upper
  have hcontains : b.contains (b.value / step * step) = true := by
    rw [Nat.succ_mul] at habove
    exact contains_iff.2 ⟨Or.inl (by omega), Or.inl (by omega)⟩
  rw [hb.contains_eq_false hstep h] at hcontains
  exact Bool.noConfusion hcontains

/-! ## The coarsest grid -/

/-- The search for a grid goes down from the coarsest one and ends with the first that has a point
in the basin. -/
lemma shortestUpTo_eq (h : b.nearestOn (gridStep 0) ≠ none) (n : Nat) :
    ∃ i d, b.shortestUpTo n = gridPoint i d ∧ b.nearestOn (gridStep i) = some d ∧
      ∀ j, i < j → j ≤ n → b.nearestOn (gridStep j) = none := by
  induction n with
  | zero =>
    obtain ⟨d, hd⟩ := Option.ne_none_iff_exists'.1 h
    refine ⟨0, d, ?_, hd, fun j hj hle => absurd hj (Nat.not_lt.2 hle)⟩
    rw [shortestUpTo, hd, Option.getD_some, gridPoint, Nat.cast_zero, zero_sub]
  | succ n ih =>
    rw [shortestUpTo]
    split
    next d hd => exact ⟨n + 1, d, rfl, hd, fun j hj hle => absurd hj (Nat.not_lt.2 hle)⟩
    next hnone =>
      obtain ⟨i, d, hshortest, hd, hcoarser⟩ := ih
      refine ⟨i, d, hshortest, hd, fun j hj hle => ?_⟩
      rcases Nat.le_succ_iff.1 hle with hle | rfl
      · exact hcoarser j hj hle
      · exact hnone

/-- A grid beyond the bound of the search is too coarse for a positive point below the upper end. -/
lemma upper_lt_gridStep {j : Nat} (h : (b.upper / gridStep 0).log2 / 3 < j) :
    b.upper < gridStep j := by
  have hlog : b.upper / gridStep 0 < 2 ^ ((b.upper / gridStep 0).log2 + 1) := Nat.lt_log2_self
  have hpow : 2 ^ ((b.upper / gridStep 0).log2 + 1) ≤ 10 ^ j :=
    calc 2 ^ ((b.upper / gridStep 0).log2 + 1) ≤ 2 ^ (3 * j) :=
          Nat.pow_le_pow_right (by decide) (by omega)
      _ = 8 ^ j := Nat.pow_mul 2 3 j
      _ ≤ 10 ^ j := Nat.pow_le_pow_left (by decide) j
  rw [gridStep_eq]
  exact Nat.lt_mul_of_div_lt (hlog.trans_le hpow) (gridStep_pos 0)

/-- The shortest decimal is found on a grid, and no coarser one has a point in the basin. -/
lemma Proper.shortest_eq (hb : b.Proper) (hfine : gridStep 0 < b.value - b.lower) :
    ∃ i d, b.shortest = gridPoint i d ∧ b.nearestOn (gridStep i) = some d ∧
      ∀ j, i < j → ∀ k, b.contains (k * gridStep j) = false := by
  obtain ⟨i, d, hshortest, hd, hcoarser⟩ :=
    shortestUpTo_eq (hb.nearestOn_ne_none (gridStep_pos 0) hfine)
      ((b.upper / gridStep 0).log2 / 3)
  refine ⟨i, d, hshortest, hd, fun j hj k => ?_⟩
  rcases Nat.lt_or_ge ((b.upper / gridStep 0).log2 / 3) j with hlt | hge
  · by_contra hk
    rw [Bool.not_eq_false, contains_iff] at hk
    have hupper := upper_lt_gridStep hlt
    have hlower := hb.lower_pos
    -- only zero is left, and it lies below the basin
    have hzero : k = 0 := by
      by_contra hne
      have hle : 1 * gridStep j ≤ k * gridStep j :=
        Nat.mul_le_mul_right _ (Nat.one_le_iff_ne_zero.2 hne)
      omega
    rw [hzero, Nat.zero_mul] at hk
    omega
  · exact hb.contains_eq_false (gridStep_pos j) (hcoarser j hj hge) k

end Basin

/-! ## The basin of a rank -/

section Rank

variable {r : Nat} {x : Binary64}

lemma proper_basin (hr : 0 < r) : (basin r).Proper := by
  have hten : ∀ n, 0 < Nat.pow 10 n := fun n => Nat.pow_pos (by decide)
  have hpow := hten finestPlaces
  have hlower : units (r - 1) < units r := units_strictMono (by omega)
  have hupper : units r < units (r + 1) := units_strictMono (Nat.lt_succ_self r)
  constructor
  · exact Nat.mul_pos (by omega) hpow
  · exact Nat.mul_lt_mul_of_pos_right (by omega) hpow
  · exact Nat.mul_lt_mul_of_pos_right (by omega) hpow

lemma gridStep_zero_lt (hr : 0 < r) : gridStep 0 < (basin r).value - (basin r).lower := by
  have hlower : units (r - 1) < units r := units_strictMono (by omega)
  have hfine : gridStep 0 < Nat.pow 10 finestPlaces := by decide +kernel
  have hwidth : (basin r).value - (basin r).lower
      = (2 * units r - (units (r - 1) + units r)) * Nat.pow 10 finestPlaces :=
    (Nat.sub_mul _ _ _).symm
  rw [hwidth]
  exact hfine.trans_le (Nat.le_mul_of_pos_left _ (by omega))

section Ends

variable (m n : Nat)

lemma cast_mul_pow : ((m * Nat.pow 10 finestPlaces : ℕ) : ℚ) = m * stepsInOne := by
  rw [stepsInOne, Nat.cast_mul, Nat.pow_eq, Nat.cast_pow, Nat.cast_ofNat]

lemma lt_div_stepsInOne : (m : ℚ) < n / stepsInOne ↔ m * Nat.pow 10 finestPlaces < n := by
  rw [lt_div_iff₀ stepsInOne_pos, ← cast_mul_pow, Nat.cast_lt]

lemma div_stepsInOne_lt : n / stepsInOne < (m : ℚ) ↔ n < m * Nat.pow 10 finestPlaces := by
  rw [div_lt_iff₀ stepsInOne_pos, ← cast_mul_pow, Nat.cast_lt]

lemma div_stepsInOne_eq : n / stepsInOne = (m : ℚ) ↔ n = m * Nat.pow 10 finestPlaces := by
  rw [div_eq_iff stepsInOne_pos.ne', ← cast_mul_pow, Nat.cast_inj]

end Ends

lemma contains_basin (hr : 0 < r) (hfinite : r < infinityRank) (n : Nat) :
    (basin r).contains n = true ↔ InBasin (n / stepsInOne) r := by
  obtain ⟨p, rfl⟩ : ∃ p, r = p + 1 := ⟨r - 1, by omega⟩
  have hclosed : (basin (p + 1)).closed = true ↔ (p + 1) % 2 = 0 := beq_iff_eq
  have hlower := lt_div_stepsInOne (units p + units (p + 1)) n
  have hlower' := div_stepsInOne_eq (units p + units (p + 1)) n
  have hupper := div_stepsInOne_lt (units (p + 1) + units (p + 1 + 1)) n
  have hupper' := div_stepsInOne_eq (units (p + 1) + units (p + 1 + 1)) n
  rw [Nat.cast_add] at hlower hlower' hupper hupper'
  rw [Basin.contains_iff, hclosed]
  constructor
  · rintro ⟨hlow, hhigh⟩
    refine ⟨fun s hs => ?_, fun _ => ?_, hfinite.le⟩
    · obtain rfl := Nat.succ_inj.1 hs
      rw [hlower, eq_comm, hlower', eq_comm]
      exact hlow
    · rw [hupper, hupper']
      exact hhigh
  · intro h
    have hlow := h.lower p rfl
    have hhigh := h.upper hfinite
    rw [hlower, eq_comm, hlower', eq_comm] at hlow
    rw [hupper, hupper'] at hhigh
    exact ⟨hlow, hhigh⟩

lemma value_nonneg (d : Decimal) : 0 ≤ d.value :=
  mul_nonneg d.coefficient.cast_nonneg (zpow_nonneg (by norm_num) _)

/-- A point of a grid is rounded to a number exactly if it lies in the basin of its magnitude. -/
lemma roundsTo_gridPoint (hsign : x.isNegative = false) (hpos : 0 < x.rank)
    (hfinite : x.rank < infinityRank) (i k : Nat) :
    RoundsTo (gridPoint i k).value x ↔ (basin x.rank).contains (k * gridStep i) = true := by
  rw [roundsTo_iff (value_nonneg _), contains_basin hpos hfinite, value_gridPoint_mul,
    and_iff_right hsign]

lemma dist_gridPoint (hsign : x.isNegative = false) (i k : Nat) :
    |(gridPoint i k).value - x.value| * (halvesInOne * stepsInOne)
      = ((k * gridStep i : ℕ) - ((basin x.rank).value : ℤ)).natAbs := by
  have hscale : 0 < halvesInOne * stepsInOne := mul_pos halvesInOne_pos stepsInOne_pos
  have hvalue : ((basin x.rank).value : ℚ) = x.value * halvesInOne * stepsInOne := by
    rw [value_mul_of_nonneg hsign, basin, cast_mul_pow, Nat.cast_mul, Nat.cast_ofNat]
  have hpoint : ((k * gridStep i : ℕ) : ℚ) = (gridPoint i k).value * halvesInOne * stepsInOne := by
    rw [value_gridPoint_mul, div_mul_cancel₀ _ stepsInOne_pos.ne']
  rw [← abs_of_pos hscale, ← abs_mul, Nat.cast_natAbs, Int.cast_abs, Int.cast_sub,
    Int.cast_natCast, Int.cast_natCast, hvalue, hpoint, sub_mul, ← mul_assoc, ← mul_assoc]

end Rank

/-! ## The shortest decimal -/

/-- The decimal `d` is the shortest one that is rounded to `x`. -/
structure IsShortest (x : Binary64) (d : Decimal) : Prop where
  /-- It is rounded to the number. -/
  rounds : RoundsTo d.value x
  /-- No decimal that is rounded to the number has fewer digits. -/
  fewest : ∀ d' : Decimal, RoundsTo d'.value x →
    (Nat.toDigits 10 d.coefficient).length ≤ (Nat.toDigits 10 d'.coefficient).length
  /-- Of those that end at the same place none is nearer to the number, and none that is as near is
  larger. -/
  nearest : ∀ d' : Decimal, RoundsTo d'.value x → d'.exponent = d.exponent →
    |d.value - x.value| ≤ |d'.value - x.value| ∧
      (|d.value - x.value| = |d'.value - x.value| → d'.value ≤ d.value)

section IsShortest

variable {x : Binary64} {d d' : Decimal}

/-- A decimal that ends no sooner than at the finest grid is a point of a grid. -/
lemma eq_gridPoint {i : Nat} (h : d.exponent = (i : Nat) - (finestPlaces : Int)) :
    d = gridPoint i d.coefficient := by
  rw [gridPoint, ← h]

lemma decimalOfRank_eq {r : Nat} (hr : 0 < r) :
    ∃ i k, decimalOfRank r = gridPoint i k ∧ (basin r).nearestOn (gridStep i) = some k ∧
      ∀ j, i < j → ∀ k, (basin r).contains (k * gridStep j) = false := by
  rw [decimalOfRank, if_neg hr.ne']
  exact (proper_basin hr).shortest_eq (gridStep_zero_lt hr)

lemma roundsTo_decimalOfRank (hsign : x.isNegative = false) (hfinite : x.rank < infinityRank) :
    RoundsTo (decimalOfRank x.rank).value x := by
  rcases Nat.eq_zero_or_pos x.rank with hzero | hpos
  · have hvalue : (decimalOfRank x.rank).value = 0 := by
      rw [decimalOfRank, if_pos hzero, Decimal.value, Nat.cast_zero, zero_mul]
    have hunits := cast_units_lt (Nat.lt_succ_self 0)
    rw [units_zero, Nat.cast_zero] at hunits
    rw [hvalue, roundsTo_iff le_rfl, hzero, zero_mul]
    refine ⟨hsign, fun s hs => absurd hs (Nat.succ_ne_zero s), fun _ => Or.inl ?_, Nat.zero_le _⟩
    rw [units_zero, Nat.cast_zero, zero_add]
    exact hunits
  · obtain ⟨i, k, hdecimal, hnearest, -⟩ := decimalOfRank_eq hpos
    rw [hdecimal, roundsTo_gridPoint hsign hpos hfinite]
    exact (Basin.nearestOn_eq_some hnearest).1

/-- No decimal that is rounded to a positive number ends sooner than the one that is found. -/
theorem exponent_le_decimalOfRank (hpos : 0 < x.rank) (hfinite : x.rank < infinityRank)
    (h : RoundsTo d.value x) : d.exponent ≤ (decimalOfRank x.rank).exponent := by
  obtain ⟨i, k, hdecimal, -, hcoarser⟩ := decimalOfRank_eq hpos
  have hexponent : (decimalOfRank x.rank).exponent = (i : Nat) - (finestPlaces : Int) := by
    rw [hdecimal, gridPoint]
  by_contra hlt
  obtain ⟨j, hj⟩ : ∃ j : Nat, d.exponent = (j : Nat) - (finestPlaces : Int) :=
    ⟨(d.exponent + finestPlaces).toNat, by omega⟩
  have hcontains := h
  rw [eq_gridPoint hj, roundsTo_gridPoint h.sign hpos hfinite, hcoarser j (by omega)] at hcontains
  exact Bool.noConfusion hcontains

/-- Of the decimals that are rounded to a number, one that ends last of all has the fewest digits:
between it and one with fewer digits lies a power of ten. -/
lemma length_toDigits_le (hlast : ∀ d' : Decimal, RoundsTo d'.value x → d'.exponent ≤ d.exponent)
    (h : RoundsTo d.value x) (h' : RoundsTo d'.value x) :
    (Nat.toDigits 10 d.coefficient).length ≤ (Nat.toDigits 10 d'.coefficient).length := by
  obtain ⟨n, hn⟩ : ∃ n, (Nat.toDigits 10 d'.coefficient).length = n := ⟨_, rfl⟩
  have hnpos : 0 < n := hn ▸ Nat.length_toDigits_pos
  rw [hn, Nat.length_toDigits_le_iff (by decide) hnpos]
  by_contra hlt
  have hupper : (10 ^ n : ℚ) ≤ d.coefficient := by exact_mod_cast Nat.not_lt.1 hlt
  have hlower : (d'.coefficient : ℚ) ≤ 10 ^ n := by
    exact_mod_cast ((Nat.length_toDigits_le_iff (by decide) hnpos).1 hn.le).le
  have hten : (0 : ℚ) < 10 := by norm_num
  have hexponent : (10 : ℚ) ^ d'.exponent ≤ 10 ^ d.exponent :=
    zpow_le_zpow_right₀ (by norm_num) (hlast d' h')
  have hvalue : (⟨1, n + d.exponent⟩ : Decimal).value = 10 ^ n * 10 ^ d.exponent := by
    rw [Decimal.value, Nat.cast_one, one_mul, zpow_add₀ hten.ne', zpow_natCast]
  have hbetween : RoundsTo (⟨1, n + d.exponent⟩ : Decimal).value x := by
    refine h'.of_between h (value_nonneg d') ?_ ?_
    · rw [hvalue]
      exact mul_le_mul hlower hexponent (zpow_pos hten _).le (pow_pos hten n).le
    · rw [hvalue]
      exact mul_le_mul_of_nonneg_right hupper (zpow_pos hten _).le
  have hle : (n : ℤ) + d.exponent ≤ d.exponent := hlast _ hbetween
  omega

/-- **Shortest decimals.**  The decimal that a finite number is written as is the shortest one that
is rounded to it. -/
theorem isShortest_decimalOfRank (hsign : x.isNegative = false) (hfinite : x.IsFinite) :
    IsShortest x (decimalOfRank x.rank) := by
  have hrank := isFinite_iff.1 hfinite
  have hrounds := roundsTo_decimalOfRank hsign hrank
  rcases Nat.eq_zero_or_pos x.rank with hzero | hpos
  · have hdecimal : decimalOfRank x.rank = ⟨0, 0⟩ := if_pos hzero
    have hvalue : (decimalOfRank x.rank).value = x.value := by
      have hscaled := value_mul_of_nonneg hsign
      rw [hzero, units_zero, Nat.cast_zero, mul_zero, mul_eq_zero_iff_right halvesInOne_pos.ne']
        at hscaled
      rw [hdecimal, Decimal.value, Nat.cast_zero, zero_mul, hscaled]
    refine ⟨hrounds, fun d' _ => ?_, fun d' _ _ => ?_⟩
    · rw [hdecimal]
      exact Nat.length_toDigits_pos
    · rw [hvalue, sub_self, abs_zero]
      refine ⟨abs_nonneg _, fun heq => ?_⟩
      rw [eq_comm, abs_eq_zero, sub_eq_zero] at heq
      exact heq.le
  · obtain ⟨i, k, hdecimal, hnearest, -⟩ := decimalOfRank_eq hpos
    refine ⟨hrounds, fun d' h' => ?_, fun d' h' hexponent => ?_⟩
    · exact length_toDigits_le (fun _ h => exponent_le_decimalOfRank hpos hrank h) hrounds h'
    · have hscale : 0 < halvesInOne * stepsInOne := mul_pos halvesInOne_pos stepsInOne_pos
      have hgrid : d' = gridPoint i d'.coefficient :=
        eq_gridPoint (by rw [hexponent, hdecimal, gridPoint])
      rw [hgrid, roundsTo_gridPoint hsign hpos hrank] at h'
      obtain ⟨hle, htie⟩ := (proper_basin hpos).nearestOn_le (gridStep_pos i) hnearest h'
      rw [hgrid, hdecimal, ← mul_le_mul_iff_left₀ hscale, ← mul_left_inj' hscale.ne',
        dist_gridPoint hsign, dist_gridPoint hsign, Nat.cast_le, Nat.cast_inj,
        ← mul_le_mul_iff_left₀ halvesInOne_pos, value_gridPoint_mul, value_gridPoint_mul,
        div_le_div_iff_of_pos_right stepsInOne_pos, Nat.cast_le]
      exact ⟨hle, htie⟩

end IsShortest

/-- One digit is enough for the least positive number. -/
example : decimalOfRank 1 = ⟨5, -324⟩ := by decide +kernel

end ScriptLexer.Binary64

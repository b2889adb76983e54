/-
# Rounding to the scale

Around every magnitude lie the numbers that round to it: those up to the midpoints to its two
neighbours, the midpoints themselves included if the rank is even.  Infinity takes all that is left
above.  Every number lies in one of these ranges and in one only (`InBasin.unique`), and
`nearestRank` finds it (`inBasin_nearestRank`).

Numbers are counted in halves of a unit, so that the midpoint of two neighbours is the sum of their
units.
-/
import ScriptLexer.Proofs.Binary64.Scale
import Mathlib.Algebra.Order.Field.Rat
import Mathlib.Tactic.Linarith
import Mathlib.Tactic.NormNum

namespace ScriptLexer.Binary64

/-- How many halves of a unit there are in one. -/
def halvesInOne : ℚ := 2 ^ 1075

lemma halvesInOne_pos : 0 < halvesInOne := pow_pos two_pos 1075

/-- The number of `y` halves of a unit rounds to the magnitude of rank `r`. -/
structure InBasin (y : ℚ) (r : Nat) : Prop where
  /-- It is not below the midpoint to the next smaller magnitude, and on it only if the rank is
  even. -/
  lower : ∀ s, s + 1 = r → (units s + units r : ℚ) < y ∨ (units s + units r : ℚ) = y ∧ r % 2 = 0
  /-- It is not above the midpoint to the next larger magnitude, and on it only if the rank is
  even. -/
  upper : r < infinityRank →
    y < (units r + units (r + 1) : ℚ) ∨ y = (units r + units (r + 1) : ℚ) ∧ r % 2 = 0
  /-- There is no rank above that of infinity. -/
  rank_le : r ≤ infinityRank

lemma cast_units_lt {r s : Nat} (h : r < s) : (units r : ℚ) < units s :=
  Nat.cast_lt.2 (units_strictMono h)

lemma cast_units_le {r s : Nat} (h : r ≤ s) : (units r : ℚ) ≤ units s :=
  Nat.cast_le.2 (units_strictMono.monotone h)

namespace InBasin

variable {y : ℚ} {b r s : Nat}

/-- What lies at or above a magnitude, but not beyond the midpoint, rounds to it. -/
lemma of_below (hle : b ≤ infinityRank) (hlow : 2 * units b ≤ y)
    (hmid : b < infinityRank →
      y < (units b + units (b + 1) : ℚ) ∨ y = (units b + units (b + 1) : ℚ) ∧ b % 2 = 0) :
    InBasin y b := by
  refine ⟨fun s hs => Or.inl ?_, hmid, hle⟩
  have hlt := cast_units_lt (show s < b by omega)
  linarith

/-- What lies below a magnitude, but not below the midpoint, rounds to it. -/
lemma of_above (hle : b + 1 ≤ infinityRank) (hhigh : y < 2 * units (b + 1))
    (hmid : (units b + units (b + 1) : ℚ) < y ∨
      (units b + units (b + 1) : ℚ) = y ∧ (b + 1) % 2 = 0) :
    InBasin y (b + 1) := by
  refine ⟨fun s hs => ?_, fun _ => Or.inl ?_, hle⟩
  · obtain rfl : s = b := by omega
    exact hmid
  · have hlt := cast_units_lt (Nat.lt_succ_self (b + 1))
    linarith

lemma not_lt (hr : InBasin y r) (hs : InBasin y s) : ¬ r < s := by
  intro hlt
  obtain ⟨p, rfl⟩ : ∃ p, s = p + 1 := ⟨s - 1, by omega⟩
  have hsmaller := cast_units_le (show r ≤ p by omega)
  have hlarger := cast_units_le (show r + 1 ≤ p + 1 by omega)
  rcases hr.upper (Nat.lt_of_lt_of_le hlt hs.rank_le) with hupper | ⟨hupper, hreven⟩
  · rcases hs.lower p rfl with hlower | ⟨hlower, -⟩ <;> linarith
  · rcases hs.lower p rfl with hlower | ⟨hlower, hseven⟩
    · linarith
    · -- the number is the midpoint of two neighbours, and only one of them has an even rank
      have hunits : (units p : ℚ) = units r := by linarith
      have hrank : p = r := units_strictMono.injective (Nat.cast_injective hunits)
      omega

lemma of_between {x z : ℚ} (hx : InBasin x r) (hz : InBasin z r) (hxy : x ≤ y) (hyz : y ≤ z) :
    InBasin y r := by
  refine ⟨fun s hs => ?_, fun hr => ?_, hx.rank_le⟩
  · rcases hx.lower s hs with hlt | ⟨heq, heven⟩
    · exact Or.inl (hlt.trans_le hxy)
    · exact (heq.le.trans hxy).lt_or_eq.imp_right fun heq => ⟨heq, heven⟩
  · rcases hz.upper hr with hlt | ⟨heq, heven⟩
    · exact Or.inl (hyz.trans_lt hlt)
    · exact (hyz.trans heq.le).lt_or_eq.imp_right fun heq => ⟨heq, heven⟩

/-- A number rounds to one magnitude only. -/
lemma unique (hr : InBasin y r) (hs : InBasin y s) : r = s :=
  Nat.le_antisymm (Nat.not_lt.1 (hs.not_lt hr)) (Nat.not_lt.1 (hr.not_lt hs))

end InBasin

/-! ## The rank that is found -/

/-- Halves of a unit in the ratio of two natural numbers. -/
def halfUnits (numerator denominator : Nat) : ℚ := numerator / denominator * halvesInOne

section Ratio

variable {n d : Nat}

/-- The numerator in units of the scale, as it is compared with the magnitudes. -/
lemma halfUnits_mul (hd : 0 < d) : halfUnits n d * d = 2 * (n * Nat.pow 2 1074 : ℕ) := by
  have hne : (d : ℚ) ≠ 0 := Nat.cast_ne_zero.2 hd.ne'
  have hcast : ∀ k, ((n * Nat.pow 2 k : ℕ) : ℚ) = n * 2 ^ k := fun k => by
    rw [Nat.pow_eq, Nat.cast_mul, Nat.cast_pow, Nat.cast_ofNat]
  rw [halfUnits, halvesInOne, div_mul_eq_mul_div, div_mul_cancel₀ _ hne, pow_succ, ← mul_assoc,
    mul_comm, hcast 1074]

lemma lt_halfUnits_iff (hd : 0 < d) (m : Nat) :
    (m : ℚ) < halfUnits n d ↔ m * d < 2 * (n * Nat.pow 2 1074) := by
  have hpos : (0 : ℚ) < d := Nat.cast_pos.2 hd
  rw [← mul_lt_mul_iff_left₀ hpos, halfUnits_mul hd, ← Nat.cast_mul, ← Nat.cast_ofNat,
    ← Nat.cast_mul, Nat.cast_lt]

lemma halfUnits_lt_iff (hd : 0 < d) (m : Nat) :
    halfUnits n d < m ↔ 2 * (n * Nat.pow 2 1074) < m * d := by
  have hpos : (0 : ℚ) < d := Nat.cast_pos.2 hd
  rw [← mul_lt_mul_iff_left₀ hpos, halfUnits_mul hd, ← Nat.cast_mul, ← Nat.cast_ofNat,
    ← Nat.cast_mul, Nat.cast_lt]

/-- The rank that is found is that to which the ratio rounds. -/
theorem inBasin_nearestRank (hd : 0 < d) : InBasin (halfUnits n d) (nearestRank n d) := by
  obtain ⟨scaled, hscaled⟩ : ∃ scaled, n * Nat.pow 2 1074 = scaled := ⟨_, rfl⟩
  rw [nearestRank, hscaled]
  dsimp only
  set b := rankBelow (scaled / d) with hb
  obtain ⟨hfloor, hceil⟩ := units_rankBelow (scaled / d)
  rw [← hb] at hfloor hceil
  -- the ratio lies between the magnitudes of two neighbouring ranks
  have hlow : (2 * units b : ℚ) ≤ halfUnits n d := by
    have hmul : units b * d ≤ scaled := (Nat.le_div_iff_mul_le hd).1 hfloor
    have hnot : ¬ halfUnits n d < ((2 * units b : ℕ) : ℚ) := by
      rw [halfUnits_lt_iff hd, hscaled]
      have := Nat.mul_assoc 2 (units b) d
      omega
    exact_mod_cast not_lt.1 hnot
  have hhigh : halfUnits n d < 2 * units (b + 1) := by
    have hmul : scaled < units (b + 1) * d := (Nat.div_lt_iff_lt_mul hd).1 hceil
    have hlt : halfUnits n d < ((2 * units (b + 1) : ℕ) : ℚ) := by
      rw [halfUnits_lt_iff hd, hscaled]
      have := Nat.mul_assoc 2 (units (b + 1)) d
      omega
    exact_mod_cast hlt
  have hlt := lt_halfUnits_iff hd (n := n) (units b + units (b + 1))
  have hgt := halfUnits_lt_iff hd (n := n) (units b + units (b + 1))
  rw [hscaled, Nat.cast_add] at hlt hgt
  split
  next hinfinite =>
    -- nothing lies above the range of infinity
    have hle := cast_units_le hinfinite
    exact .of_below le_rfl (by linarith) fun h => absurd h (Nat.lt_irrefl _)
  next hfinite =>
  split
  next hbelow => exact .of_below (by omega) hlow fun _ => Or.inl (hgt.2 hbelow)
  next hnotbelow =>
  split
  next habove => exact .of_above (by omega) hhigh (Or.inl (hlt.2 habove))
  next hnotabove =>
    -- the ratio is the midpoint
    have hmid : halfUnits n d = units b + units (b + 1) :=
      le_antisymm (not_lt.1 fun h => hnotabove (hlt.1 h)) (not_lt.1 fun h => hnotbelow (hgt.1 h))
    rcases Nat.mod_two_eq_zero_or_one b with heven | hodd
    · rw [heven, Nat.add_zero]
      exact .of_below (by omega) hlow fun _ => Or.inr ⟨hmid, heven⟩
    · rw [hodd]
      exact .of_above (by omega) hhigh (Or.inr ⟨hmid.symm, by omega⟩)

end Ratio

end ScriptLexer.Binary64

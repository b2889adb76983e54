/-
# The scale of magnitudes

The magnitudes of the format are numbered in increasing order by their ranks.  Between two powers of
two they lie on a grid: from rank `s * binade + binade` to rank `s * binade + 2 * binade` they are
the multiples of `2 ^ s` units, both ends included, and below that the multiples of one unit
(`units_grid`).  From this follows what a step in the scale is worth (`units_succ`), that the scale
increases (`units_strictMono`), and that `rankBelow` finds the place of a number in it
(`units_rankBelow`).
-/
import ScriptLexer.Binary64.Nearest
import Mathlib.Order.Monotone.Basic
import Mathlib.Tactic.Ring

namespace ScriptLexer.Binary64

lemma binade_eq : binade = 2 ^ 52 := rfl

lemma binade_pos : 0 < binade := Nat.two_pow_pos 52

lemma units_of_lt {r : Nat} (h : r < binade) : units r = r := by
  rw [units, if_pos h]

lemma units_add {s f : Nat} (hf : f < binade) :
    units ((s + 1) * binade + f) = (binade + f) * 2 ^ s := by
  have hle : ¬ (s + 1) * binade + f < binade := by
    rw [Nat.not_lt, Nat.add_mul, Nat.one_mul]
    omega
  have hdiv : ((s + 1) * binade + f) / binade = s + 1 := by
    rw [Nat.mul_comm, Nat.mul_add_div binade_pos, Nat.div_eq_of_lt hf, Nat.add_zero]
  have hmod : ((s + 1) * binade + f) % binade = f := by
    rw [Nat.mul_comm, Nat.mul_add_mod, Nat.mod_eq_of_lt hf]
  rw [units, if_neg hle, hdiv, hmod, Nat.add_sub_cancel, Nat.pow_eq]

/-- From one power of two to the next the magnitudes are multiples of one step, and so they are
from zero on below the first of these powers. -/
lemma units_grid {s m : Nat} (hlow : s = 0 ∨ binade ≤ m) (hhigh : m ≤ 2 * binade) :
    units (s * binade + m) = m * 2 ^ s := by
  rcases Nat.lt_or_ge m binade with hm | hm
  · obtain rfl : s = 0 := hlow.resolve_right (Nat.not_le.2 hm)
    rw [Nat.zero_mul, Nat.zero_add, units_of_lt hm, Nat.pow_zero, Nat.mul_one]
  obtain ⟨f, rfl⟩ := Nat.exists_eq_add_of_le hm
  rcases Nat.lt_or_ge f binade with hf | hf
  · have hrank : s * binade + (binade + f) = (s + 1) * binade + f := by ring
    rw [hrank, units_add hf]
  · -- the upper end is the lower end of the next binade
    obtain rfl : f = binade := by omega
    have hrank : s * binade + (binade + binade) = (s + 1 + 1) * binade + 0 := by ring
    rw [hrank, units_add binade_pos, Nat.pow_succ]
    ring

/-- Every rank has its place in a grid, below the upper end. -/
lemma exists_grid (r : Nat) :
    ∃ m, r = (r / binade - 1) * binade + m ∧ (r / binade - 1 = 0 ∨ binade ≤ m) ∧
      m < 2 * binade := by
  have hdiv := Nat.div_add_mod' r binade
  have hmod := Nat.mod_lt r binade_pos
  rcases hq : r / binade with _ | s
  · refine ⟨r, by simp, Or.inl rfl, ?_⟩
    rw [hq] at hdiv
    omega
  · refine ⟨binade + r % binade, ?_, Or.inr (Nat.le_add_right _ _), by omega⟩
    rw [hq] at hdiv
    rw [Nat.add_sub_cancel, ← Nat.add_assoc, ← Nat.succ_mul]
    exact hdiv.symm

/-- What a step in the scale is worth. -/
lemma units_succ (r : Nat) : units (r + 1) = units r + 2 ^ (r / binade - 1) := by
  obtain ⟨m, hr, hlow, hhigh⟩ := exists_grid r
  generalize r / binade - 1 = s at hr hlow ⊢
  rw [hr, Nat.add_assoc, units_grid hlow hhigh.le,
    units_grid (hlow.imp_right fun h => Nat.le_succ_of_le h) hhigh, Nat.succ_mul]

lemma units_strictMono : StrictMono units := by
  refine strictMono_nat_of_lt_succ fun r => ?_
  rw [units_succ]
  exact Nat.lt_add_of_pos_right (Nat.two_pow_pos _)

lemma units_zero : units 0 = 0 := units_of_lt binade_pos

/-! ## The place of a number in the scale -/

/-- A number is at least the magnitude below it, and less than the next. -/
lemma units_rankBelow (x : Nat) : units (rankBelow x) ≤ x ∧ x < units (rankBelow x + 1) := by
  set s := x.log2 - 52 with hs
  have hpos : 0 < 2 ^ s := Nat.two_pow_pos s
  have hlow : s = 0 ∨ binade ≤ x / 2 ^ s := by
    rcases Nat.eq_zero_or_pos s with hzero | hspos
    · exact Or.inl hzero
    · have hx : x ≠ 0 := by
        rintro rfl
        simp at hs
        omega
      have hlog : 52 + s = x.log2 := by omega
      refine Or.inr ((Nat.le_div_iff_mul_le hpos).2 ?_)
      rw [binade_eq, ← Nat.pow_add, hlog]
      exact Nat.log2_self_le hx
  have hhigh : x / 2 ^ s < 2 * binade := by
    have hlog : x.log2 + 1 ≤ 53 + s := by omega
    refine (Nat.div_lt_iff_lt_mul hpos).2 ?_
    have hpow : 2 * binade * 2 ^ s = 2 ^ (53 + s) := by
      rw [binade_eq, Nat.pow_add]
      rfl
    rw [hpow]
    exact Nat.lt_of_lt_of_le Nat.lt_log2_self (Nat.pow_le_pow_right (by decide) hlog)
  have hrank : rankBelow x = s * binade + x / 2 ^ s := rfl
  rw [hrank, Nat.add_assoc, units_grid hlow hhigh.le,
    units_grid (hlow.imp_right fun h => Nat.le_succ_of_le h) hhigh]
  exact ⟨Nat.div_mul_le_self x _, Nat.lt_mul_of_div_lt (Nat.lt_succ_self _) hpos⟩

end ScriptLexer.Binary64

/-
# The values of numbers

The bits of a number are a sign, eleven bits of exponent and fifty-two of fraction, and what number
they stand for is read off these fields (`value`).  The scale of magnitudes numbers these values:
but for the sign, the value of a number is that of its rank (`value_mul_of_nonneg`,
`value_mul_of_neg`).
-/
import ScriptLexer.Proofs.Binary64.Rounding

namespace ScriptLexer.Binary64

/-! ## The fields of a number -/

/-- The eleven bits of the exponent. -/
def exponentField (x : Binary64) : Nat := x.bits.toNat / 2 ^ 52 % 2 ^ 11

/-- The fifty-two bits of the fraction. -/
def fractionField (x : Binary64) : Nat := x.bits.toNat % 2 ^ 52

/-- The number is finite: its exponent is not the largest of all. -/
def IsFinite (x : Binary64) : Prop := x.exponentField < 2047

/-- The significand as a whole number: the fraction, with a leading one unless the exponent is the
least of all. -/
def significand (x : Binary64) : Nat :=
  if x.exponentField = 0 then x.fractionField else 2 ^ 52 + x.fractionField

/-- The value of a finite number.  The least two exponents are worth the same. -/
def value (x : Binary64) : ℚ :=
  (if x.isNegative then -1 else 1) * (x.significand * 2 ^ max 1 x.exponentField / 2 ^ 1075)

/-- The number zero with a clear sign. -/
def zero : Binary64 := ⟨0x0000000000000000#64⟩

instance : DecidablePred IsFinite := fun _ => inferInstanceAs (Decidable (_ < _))

/-! ## Fields and ranks -/

section Fields

variable {x : Binary64} {r : Nat}

lemma rank_eq (x : Binary64) : x.rank = x.bits.toNat % 2 ^ 63 := rfl

lemma infinityRank_eq : infinityRank = 2047 * 2 ^ 52 := rfl

lemma exponentField_eq (x : Binary64) : x.exponentField = x.rank / binade := by
  rw [exponentField, rank_eq, binade_eq]
  omega

lemma fractionField_eq (x : Binary64) : x.fractionField = x.rank % binade := by
  rw [fractionField, rank_eq, binade_eq]
  omega

lemma isFinite_iff : x.IsFinite ↔ x.rank < infinityRank := by
  rw [IsFinite, exponentField_eq, Nat.div_lt_iff_lt_mul binade_pos]
  rfl

lemma significand_mod_two (x : Binary64) : x.significand % 2 = x.rank % 2 := by
  have hfraction := fractionField_eq x
  rw [binade_eq] at hfraction
  rw [significand]
  split <;> omega

lemma rank_ofRank (h : r ≤ infinityRank) : (ofRank r).rank = r := by
  have hlt : r < 2 ^ 64 := by
    rw [infinityRank_eq] at h
    omega
  rw [rank_eq, ofRank, BitVec.toNat_ofNat, Nat.mod_eq_of_lt hlt]
  rw [infinityRank_eq] at h
  omega

lemma isNegative_ofRank (h : r ≤ infinityRank) : (ofRank r).isNegative = false := by
  rw [infinityRank_eq] at h
  have hlt : ¬ 2 ^ 63 ≤ r % 2 ^ 64 := by omega
  rw [isNegative, ofRank, BitVec.msb_eq_decide, BitVec.toNat_ofNat]
  exact decide_eq_false hlt

lemma ofRank_rank (h : x.isNegative = false) : ofRank x.rank = x := by
  have hlt : x.bits.toNat < 2 ^ 63 := by
    rw [isNegative, BitVec.msb_eq_decide] at h
    exact Nat.not_le.1 (of_decide_eq_false h)
  rw [rank_eq, Nat.mod_eq_of_lt hlt, ofRank, BitVec.ofNat_toNat, BitVec.setWidth_eq]

lemma ofRank_zero : ofRank 0 = zero := rfl

lemma ofRank_infinityRank : ofRank infinityRank = infinity := rfl

/-- The value of a number in halves of a unit, but for the sign. -/
lemma significand_mul (x : Binary64) :
    x.significand * 2 ^ max 1 x.exponentField = 2 * units x.rank := by
  rw [significand, units, exponentField_eq, fractionField_eq]
  rcases Nat.lt_or_ge x.rank binade with hlt | hge
  · rw [Nat.div_eq_of_lt hlt, Nat.mod_eq_of_lt hlt, if_pos rfl, if_pos hlt, Nat.mul_comm]
    rfl
  · have hpos : 1 ≤ x.rank / binade := Nat.div_pos hge binade_pos
    rw [if_neg (Nat.one_le_iff_ne_zero.1 hpos), if_neg (Nat.not_lt.2 hge), max_eq_right hpos,
      Nat.pow_eq, binade_eq]
    obtain ⟨e, he⟩ : ∃ e, x.rank / 2 ^ 52 = e + 1 := ⟨x.rank / 2 ^ 52 - 1, by
      rw [binade_eq] at hpos
      omega⟩
    rw [he, Nat.add_sub_cancel, Nat.pow_succ]
    ring

end Fields

/-! ## Values in halves of a unit -/

/-- The value of a number with a clear sign, in halves of a unit. -/
lemma value_mul_of_nonneg {x : Binary64} (h : x.isNegative = false) :
    x.value * halvesInOne = 2 * units x.rank := by
  have hmul : (x.significand * 2 ^ max 1 x.exponentField : ℚ) = 2 * units x.rank := by
    exact_mod_cast significand_mul x
  rw [value, h, hmul, if_neg Bool.false_ne_true, one_mul]
  exact div_mul_cancel₀ _ halvesInOne_pos.ne'

lemma value_mul_of_neg {x : Binary64} (h : x.isNegative = true) :
    x.value * halvesInOne = -(2 * units x.rank) := by
  have hmul : (x.significand * 2 ^ max 1 x.exponentField : ℚ) = 2 * units x.rank := by
    exact_mod_cast significand_mul x
  rw [value, h, hmul, if_pos rfl, neg_one_mul, neg_mul]
  exact congrArg Neg.neg (div_mul_cancel₀ _ halvesInOne_pos.ne')

end ScriptLexer.Binary64

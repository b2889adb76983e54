/-
# Decimal notation

The digits of a numeral denote an exact rational number: the digits before the point count from one
place to the next ten times as much, and those behind it a tenth each.  The positional notation of a
decimal number is a numeral, and the number is what its digits denote, wherever the point falls
(`Decimal.numeral_positional`).
-/
import ScriptLexer.Decimal
import ScriptLexer.Proofs.Segment.Rules
import Mathlib.Algebra.Order.Field.Rat
import Mathlib.Tactic.Ring

namespace ScriptLexer

/-! ## The number that digits denote -/

/-- The value of a digit. -/
def digitValue (c : Char) : Nat := c.toNat - '0'.toNat

/-- The number that the digits before a point denote. -/
def wholeValue (ds : List Char) : ℚ := ds.foldl (fun x c => 10 * x + digitValue c) 0

/-- The number that the digits behind a point denote. -/
def fractionValue (ds : List Char) : ℚ := ds.foldr (fun c x => (digitValue c + x) / 10) 0

/-- The number that a numeral denotes. -/
def numeralValue (whole fraction : List Char) : ℚ := wholeValue whole + fractionValue fraction

lemma fractionValue_cons (c : Char) (cs : List Char) :
    fractionValue (c :: cs) = (digitValue c + fractionValue cs) / 10 := rfl

lemma ofDigitChars_cons (c : Char) (cs : List Char) (v : Nat) :
    Nat.ofDigitChars 10 (c :: cs) v = Nat.ofDigitChars 10 cs (10 * v + digitValue c) := by
  rw [Nat.ofDigitChars_cons, digitValue]

lemma cast_ofDigitChars (ds : List Char) (v : Nat) :
    (Nat.ofDigitChars 10 ds v : ℚ) = ds.foldl (fun (x : ℚ) c => 10 * x + digitValue c) v := by
  induction ds generalizing v with
  | nil => rw [Nat.ofDigitChars_nil, List.foldl_nil]
  | cons c cs ih =>
    rw [ofDigitChars_cons, ih, List.foldl_cons, Nat.cast_add, Nat.cast_mul, Nat.cast_ofNat]

/-- Digits that are read behind a number denote a fraction of it. -/
lemma ofDigitChars_div (fs : List Char) (v : Nat) :
    (Nat.ofDigitChars 10 fs v : ℚ) / 10 ^ fs.length = v + fractionValue fs := by
  induction fs generalizing v with
  | nil => simp [fractionValue]
  | cons c cs ih =>
    rw [ofDigitChars_cons, List.length_cons, pow_succ, ← div_div, ih, fractionValue_cons]
    push_cast
    ring

/-- What all digits of a numeral are read as, divided by a power of ten for the digits behind the
point, is the number that the numeral denotes. -/
lemma ofDigitChars_append_div (whole fraction : List Char) :
    (Nat.ofDigitChars 10 (whole ++ fraction) 0 : ℚ) / 10 ^ fraction.length
      = numeralValue whole fraction := by
  rw [Nat.ofDigitChars_append, ofDigitChars_div, cast_ofDigitChars, Nat.cast_zero]
  rfl

/-! ## Positional notation -/

lemma digits_toDigits (n : Nat) : Digits (Nat.toDigits 10 n) :=
  ⟨Nat.toDigits_ne_nil, fun _ hc =>
    isDigit_iff.1 (Nat.isDigit_of_mem_toDigits (by decide) (by decide) hc)⟩

lemma digit_of_mem_zeros {n : Nat} {c : Char} (h : c ∈ List.replicate n '0') : Digit c := by
  rw [List.eq_of_mem_replicate h]
  decide

namespace Decimal

/-- The number that a decimal stands for. -/
def value (d : Decimal) : ℚ := d.coefficient * 10 ^ d.exponent

variable (coefficient n : Nat)

lemma digits_wholeDigits : Digits (wholeDigits coefficient n) := by
  obtain ⟨hne, hdigits⟩ := digits_toDigits coefficient
  refine ⟨List.append_ne_nil_of_left_ne_nil hne _, fun c hc => ?_⟩
  exact (List.mem_append.1 hc).elim (hdigits c) digit_of_mem_zeros

lemma numeralValue_wholeDigits :
    numeralValue (wholeDigits coefficient n) [] = coefficient * 10 ^ n := by
  rw [← ofDigitChars_append_div, wholeDigits, List.append_nil, Nat.ofDigitChars_append,
    Nat.ofDigitChars_ten_toDigits, Nat.ofDigitChars_replicate_zero, List.length_nil, pow_zero,
    div_one, Nat.cast_mul, Nat.cast_pow, Nat.cast_ofNat, mul_comm]

/-- Where the last `n` digits are put behind a point, it divides by a power of ten. -/
lemma numeral_take_drop {ds : List Char} (hds : ∀ c ∈ ds, Digit c) (hn : 0 < n)
    (hlength : n < ds.length) :
    ∃ whole fraction,
      Numeral (ds.take (ds.length - n) ++ '.' :: ds.drop (ds.length - n)) whole fraction ∧
      numeralValue whole fraction = Nat.ofDigitChars 10 ds 0 / 10 ^ n := by
  have hwhole : Digits (ds.take (ds.length - n)) := by
    refine ⟨List.ne_nil_of_length_pos ?_, fun c hc => hds c (List.mem_of_mem_take hc)⟩
    rw [List.length_take]
    omega
  have hfraction : Digits (ds.drop (ds.length - n)) := by
    refine ⟨List.ne_nil_of_length_pos ?_, fun c hc => hds c (List.mem_of_mem_drop hc)⟩
    rw [List.length_drop]
    omega
  refine ⟨_, _, .pointed hwhole hfraction, ?_⟩
  rw [← ofDigitChars_append_div, List.take_append_drop, List.length_drop,
    Nat.sub_sub_self hlength.le]

/-- With the zeros in front of them, the digits are enough for one on either side of the point. -/
lemma numeral_pointedDigits (hn : 0 < n) :
    ∃ whole fraction, Numeral (pointedDigits coefficient n) whole fraction ∧
      numeralValue whole fraction = coefficient / 10 ^ n := by
  set digits := Nat.toDigits 10 coefficient with hcoefficient
  set padded := List.replicate (n + 1 - digits.length) '0' ++ digits with hpadded
  have hall : ∀ c ∈ padded, Digit c := fun c hc =>
    (List.mem_append.1 hc).elim digit_of_mem_zeros ((digits_toDigits coefficient).2 c)
  have hlength : n < padded.length := by
    rw [hpadded, List.length_append, List.length_replicate]
    omega
  have hread : Nat.ofDigitChars 10 padded 0 = coefficient := by
    rw [hpadded, Nat.ofDigitChars_append, Nat.ofDigitChars_replicate_zero, Nat.mul_zero,
      hcoefficient, Nat.ofDigitChars_ten_toDigits]
  obtain ⟨whole, fraction, hnumeral, hvalue⟩ := numeral_take_drop n hall hn hlength
  rw [hread] at hvalue
  exact ⟨whole, fraction, hnumeral, hvalue⟩

/-- **Positional notation.**  A decimal number is written as a numeral, whose digits denote it. -/
theorem numeral_positional (d : Decimal) :
    ∃ whole fraction, Numeral d.positional whole fraction ∧
      numeralValue whole fraction = d.value := by
  rw [positional]
  split
  next hexponent =>
    refine ⟨_, [], .whole (digits_wholeDigits _ _), ?_⟩
    rw [numeralValue_wholeDigits, value, ← zpow_natCast, Int.toNat_of_nonneg hexponent]
  next hexponent =>
    obtain ⟨whole, fraction, hnumeral, hvalue⟩ :=
      numeral_pointedDigits d.coefficient (-d.exponent).toNat (by omega)
    refine ⟨whole, fraction, hnumeral, ?_⟩
    rw [hvalue, value, ← zpow_natCast, Int.toNat_of_nonneg (by omega), zpow_neg, div_inv_eq_mul]

end Decimal

end ScriptLexer

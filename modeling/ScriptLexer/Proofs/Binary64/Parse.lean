/-
# Numerals are numbers

What is parsed as a number is more than the numerals of the language, which are a plain case: a
numeral is always a number, and the one that its digits denote (`parse?_numeral`).
-/
import ScriptLexer.Binary64.Parse
import ScriptLexer.Proofs.Segment.First

namespace ScriptLexer.Binary64

lemma ofScaled_neg (digits : List Char) (places : Nat) :
    ofScaled digits (0 - places) = ofRatio (Nat.ofDigitChars 10 digits 0) (Nat.pow 10 places) := by
  rw [ofScaled]
  split
  next hexponent =>
    obtain rfl : places = 0 := by omega
    simp
  next hexponent =>
    have htoNat : (-(0 - (places : Int))).toNat = places := by omega
    rw [htoNat]

/-- Digits with nothing but a point among them are a number, and the one that they denote. -/
lemma decimal?_of_split {cs whole places : List Char}
    (hwhole : cs.takeWhile Char.isDigit = whole)
    (hplaces : fraction (cs.dropWhile Char.isDigit) = (places, [])) (hne : whole ≠ []) :
    decimal? cs = some (ofDigits whole places) := by
  have hsome : ¬ whole ++ places = [] := List.append_ne_nil_of_left_ne_nil hne places
  simp only [decimal?, hwhole, hplaces, if_neg hsome, exponent?, Option.map_some, ofScaled_neg]
  rfl

lemma decimal?_numeral {cs whole places : List Char} (h : Numeral cs whole places) :
    decimal? cs = some (ofDigits whole places) := by
  cases h with
  | whole hds =>
    obtain ⟨htake, hdrop⟩ := hds.run stops_nil
    rw [List.append_nil] at htake hdrop
    exact decimal?_of_split htake (by rw [hdrop]; rfl) hds.1
  | pointed hds hfs =>
    have hpoint : Stops Digit ('.' :: places) := stops_cons.2 (by decide)
    obtain ⟨htake, hdrop⟩ := hds.run hpoint
    obtain ⟨hplaces, hend⟩ := hfs.run stops_nil
    rw [List.append_nil] at hplaces hend
    exact decimal?_of_split htake (by rw [hdrop, fraction, hplaces, hend]) hds.1

/-- **A numeral is a number.**  It is parsed without fail, and as the number that its digits
denote. -/
theorem parse?_numeral {cs whole places : List Char} (h : Numeral cs whole places) :
    parse? (String.ofList cs) = some (ofDigits whole places) := by
  have hmagnitude : magnitude? cs = some (ofDigits whole places) := by
    rw [magnitude?, decimal?_numeral h, Option.some_or]
  obtain ⟨d, ds, rfl, hd⟩ := h.exists_cons
  rw [parse?, String.toList_ofList]
  -- a digit is no sign
  split
  · next heq => exact absurd hd (by rw [(List.cons.inj heq).1]; decide)
  · next heq => exact absurd hd (by rw [(List.cons.inj heq).1]; decide)
  · exact hmagnitude

end ScriptLexer.Binary64

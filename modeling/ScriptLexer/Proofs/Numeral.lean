/-
# Numbers that are read and written

The value of a number token is the number that its digits denote, rounded correctly, whatever the
number of digits and wherever there are zeros among them.  What a finite number is written as is a
numeral again, and since this numeral is rounded to the number, it is read as this number.
-/
import ScriptLexer.Proofs.Binary64.Shortest
import ScriptLexer.Proofs.Lexeme

namespace ScriptLexer

/-! ## Numbers that are read -/

lemma roundsTo_ofDigits (whole fraction : List Char) :
    Binary64.RoundsTo (numeralValue whole fraction) (.ofDigits whole fraction) := by
  have hrounds := Binary64.roundsTo_ofRatio (Nat.ofDigitChars 10 (whole ++ fraction) 0)
    (Nat.pow_pos (by decide : 0 < 10) : 0 < 10 ^ fraction.length)
  rw [Nat.cast_pow, Nat.cast_ofNat, ofDigitChars_append_div] at hrounds
  exact hrounds

/-- A number token is a numeral, and its digits are read as its value. -/
lemma exists_numeral_of_mem {source : String} {t : Token} (ht : t ∈ (scan source).tokens)
    (hnumber : t.kind = .number) :
    ∃ whole fraction, Numeral t.lexeme.toList whole fraction ∧
      t.literal = some (.number (.ofDigits whole fraction)) := by
  have hbody := mem_body_of_mem_tokens ht (by rw [hnumber]; exact TokenKind.noConfusion)
  have hseg := isSegment_of_mem_body hbody
  rw [hnumber] at hseg
  obtain ⟨whole, fraction, hn, hliteral, -⟩ := hseg.numeral
  exact ⟨whole, fraction, hn, hliteral⟩

/-- **Numbers are rounded correctly.**  The lexeme of a number token is a run of digits, or two such
runs with a point between them, and its value is the number that the digits denote, rounded
correctly.  There is no other number to which it could be rounded so. -/
theorem number_correctly_rounded {source : String} {t : Token}
    (ht : t ∈ (scan source).tokens) (hnumber : t.kind = .number) :
    ∃ whole fraction x, Numeral t.lexeme.toList whole fraction ∧ t.literal = some (.number x) ∧
      Binary64.RoundsTo (numeralValue whole fraction) x ∧
      ∀ x', Binary64.RoundsTo (numeralValue whole fraction) x' → x' = x := by
  obtain ⟨whole, fraction, hn, hliteral⟩ := exists_numeral_of_mem ht hnumber
  have hrounds := roundsTo_ofDigits whole fraction
  exact ⟨whole, fraction, _, hn, hliteral, hrounds, fun x' hx' => hx'.unique hrounds⟩

/-- One tenth lies between two numbers, and is rounded to the larger. -/
theorem number_correctly_rounded_of_tenth :
    (⟨.number, "00.10", some (.number ⟨0x3fb999999999999a#64⟩), ⟨1, 1⟩, ⟨0, 5⟩⟩ : Token)
        ∈ (scan "00.10").tokens ∧
      ∃ whole fraction x, Numeral "00.10".toList whole fraction ∧
        some (Literal.number ⟨0x3fb999999999999a#64⟩) = some (.number x) ∧
        Binary64.RoundsTo (numeralValue whole fraction) x ∧
        ∀ x', Binary64.RoundsTo (numeralValue whole fraction) x' → x' = x := by
  have hfirst : (scan "00.10").tokens[0]?
      = some ⟨.number, "00.10", some (.number ⟨0x3fb999999999999a#64⟩), ⟨1, 1⟩, ⟨0, 5⟩⟩ := by
    decide +kernel
  have hmem := List.mem_of_getElem? hfirst
  exact ⟨hmem, number_correctly_rounded hmem rfl⟩

/-! ## Numbers that are written -/

lemma toList_text {x : Binary64} (hsign : x.isNegative = false) (hfinite : x.IsFinite) :
    x.text.toList = (Binary64.decimalOfRank x.rank).positional := by
  have hrank := Binary64.isFinite_iff.1 hfinite
  have hnumber : x.isNaN = false := decide_eq_false (Nat.not_lt.2 hrank.le)
  rw [Binary64.text, hnumber, hsign, if_neg Bool.false_ne_true, if_neg hrank.ne]
  dsimp only
  rw [if_neg Bool.false_ne_true, String.toList_ofList]

/-- What a finite number with a clear sign is written as is a numeral, and is read as the number. -/
lemma isSegment_text {x : Binary64} (hsign : x.isNegative = false) (hfinite : x.IsFinite) :
    IsSegment x.text.toList (.token .number (some (.number x))) [] := by
  obtain ⟨whole, fraction, hnumeral, hvalue⟩ :=
    (Binary64.decimalOfRank x.rank).numeral_positional
  have hrounds := (Binary64.isShortest_decimalOfRank hsign hfinite).rounds
  rw [← hvalue] at hrounds
  have hread : Binary64.ofDigits whole fraction = x :=
    (roundsTo_ofDigits whole fraction).unique hrounds
  have hseg := IsSegment.number hnumeral stops_nil stops_nil fun _ => stops_nil
  rw [hread] at hseg
  rw [toList_text hsign hfinite]
  exact hseg

/-- **Numbers are read back.**  If the value of a number token is finite, then the text of the value
is one number token with nothing but the end of the text behind it, and no error.  Its lexeme is all
of the text, its value is the same bit by bit, and it is written in the same way again. -/
theorem number_read_back {source : String} {t : Token} {x : Binary64}
    (ht : t ∈ (scan source).tokens) (hnumber : t.kind = .number)
    (hliteral : t.literal = some (.number x)) (hfinite : x.IsFinite) :
    (scan (Literal.number x).text).errors = [] ∧
      ∃ u close y, (scan (Literal.number x).text).tokens = [u, close] ∧
        u.kind = .number ∧ u.lexeme = (Literal.number x).text ∧ u.literal = some (.number y) ∧
        y.bits = x.bits ∧ (Literal.number y).text = (Literal.number x).text ∧
        close.kind = .endOfFile := by
  obtain ⟨whole, fraction, -, hvalue⟩ := exists_numeral_of_mem ht hnumber
  have hsign : x.isNegative = false := by
    rw [Literal.number.inj (Option.some.inj (hliteral.symm.trans hvalue))]
    exact (roundsTo_ofDigits whole fraction).sign
  have hread := (isSegment_text hsign hfinite).readsAs
  have htokens := tokens_scan x.text
  rw [hread.body] at htokens
  exact ⟨hread.errors, _, _, x, htokens, rfl, rfl, rfl, rfl, rfl, rfl⟩

/-- One tenth is written without the zeros that it was read with. -/
theorem number_read_back_of_tenth :
    (⟨.number, "00.10", some (.number ⟨0x3fb999999999999a#64⟩), ⟨1, 1⟩, ⟨0, 5⟩⟩ : Token)
        ∈ (scan "00.10").tokens ∧
      Binary64.IsFinite ⟨0x3fb999999999999a#64⟩ ∧
      (scan "0.1").errors = [] ∧
      ∃ u close y, (scan "0.1").tokens = [u, close] ∧
        u.kind = .number ∧ u.lexeme = "0.1" ∧ u.literal = some (.number y) ∧
        y.bits = 0x3fb999999999999a#64 ∧ (Literal.number y).text = "0.1" ∧
        close.kind = .endOfFile := by
  have hfirst : (scan "00.10").tokens[0]?
      = some ⟨.number, "00.10", some (.number ⟨0x3fb999999999999a#64⟩), ⟨1, 1⟩, ⟨0, 5⟩⟩ := by
    decide +kernel
  have hmem := List.mem_of_getElem? hfirst
  have hfinite : Binary64.IsFinite ⟨0x3fb999999999999a#64⟩ := by decide
  have htext : (Literal.number ⟨0x3fb999999999999a#64⟩).text = "0.1" := by decide +kernel
  have hread := number_read_back hmem rfl rfl hfinite
  rw [htext] at hread
  exact ⟨hmem, hfinite, hread⟩

end ScriptLexer

/-
# Numbers that are parsed

A number in a text may have a sign, a point with digits on either side or on one of them, and an
exponent, and it may be called infinite or no number at all.  Anything else is no number, which
`parse?` says.
-/
import ScriptLexer.Binary64.Nearest

namespace ScriptLexer.Binary64

/-- The number with the sign reversed. -/
def negate (x : Binary64) : Binary64 := ⟨x.bits ^^^ 0x8000000000000000#64⟩

/-- The bits that are used for what is no number. -/
def notANumber : Binary64 := ⟨0x7ff8000000000000#64⟩

/-- The number with the given digits times a power of ten, rounded to the nearest. -/
def ofScaled (digits : List Char) (exponent : Int) : Binary64 :=
  let coefficient := Nat.ofDigitChars 10 digits 0
  if 0 ≤ exponent then ofRatio (coefficient * Nat.pow 10 exponent.toNat) 1
  else ofRatio coefficient (Nat.pow 10 (-exponent).toNat)

/-- The number that digits and nothing else denote. -/
def count? (cs : List Char) : Option Nat :=
  if cs ≠ [] ∧ cs.all Char.isDigit then some (Nat.ofDigitChars 10 cs 0) else none

/-- The exponent of a number, which may be left out. -/
def exponent? : List Char → Option Int
  | [] => some 0
  | mark :: cs =>
    if mark.toLower = 'e' then
      match cs with
      | '-' :: ds => (count? ds).map fun n => -(n : Int)
      | '+' :: ds => (count? ds).map Int.ofNat
      | ds => (count? ds).map Int.ofNat
    else none

/-- The digits behind the point, if there is a point, and what follows them. -/
def fraction : List Char → List Char × List Char
  | '.' :: cs => (cs.takeWhile Char.isDigit, cs.dropWhile Char.isDigit)
  | cs => ([], cs)

/-- The number that is written in digits, with at least one of them before or behind the point. -/
def decimal? (cs : List Char) : Option Binary64 :=
  let whole := cs.takeWhile Char.isDigit
  let (places, rest) := fraction (cs.dropWhile Char.isDigit)
  if whole ++ places = [] then none
  else (exponent? rest).map fun e => ofScaled (whole ++ places) (e - places.length)

/-- The number that is called by a name, in capital letters or not. -/
def named? (cs : List Char) : Option Binary64 :=
  let name := String.ofList (cs.map Char.toLower)
  if name = "inf" ∨ name = "infinity" then some infinity
  else if name = "nan" then some notANumber
  else none

/-- The number behind the sign, in digits or by name. -/
def magnitude? (cs : List Char) : Option Binary64 :=
  (decimal? cs).or (named? cs)

/-- The number that a text denotes, if it denotes one. -/
def parse? (text : String) : Option Binary64 :=
  match text.toList with
  | '-' :: cs => (magnitude? cs).map negate
  | '+' :: cs => magnitude? cs
  | cs => magnitude? cs

end ScriptLexer.Binary64

/-
# Literal values

A string token and a number token carry the value that they denote.
-/
import ScriptLexer.Binary64.Shortest

namespace ScriptLexer

/-- The value of a string token or of a number token. -/
inductive Literal
  | string (value : String)
  | number (value : Binary64)
deriving DecidableEq, Repr

namespace Literal

/-- Equality of values: strings by their characters, numbers as numbers.  A string equals no
number. -/
def equals : Literal → Literal → Bool
  | string a, string b => a == b
  | number x, number y => x == y
  | _, _ => false

instance : BEq Literal := ⟨equals⟩

/-- The text of a value: a string stands for itself. -/
def text : Literal → String
  | string value => value
  | number value => value.text

end Literal

end ScriptLexer

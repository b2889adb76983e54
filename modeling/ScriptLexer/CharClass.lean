/-
# Character classes

The scripting language is spelled in ASCII: digits, letters, the underscore and four blanks are
the only characters that open or continue a run.  Every other character, in particular every
letter or space outside ASCII, belongs to no class of this file.
-/

namespace ScriptLexer

/-- The characters that may begin a name: the ASCII letters and the underscore. -/
def startsName (c : Char) : Bool :=
  c.isAlpha || c == '_'

/-- The characters that may continue a name: those that may begin one, and the digits. -/
def continuesName (c : Char) : Bool :=
  startsName c || c.isDigit

/-- The characters between tokens that stand for nothing: space, tab, carriage return and
line feed. -/
def isBlank (c : Char) : Bool :=
  c == ' ' || c == '\t' || c == '\r' || c == '\n'

end ScriptLexer

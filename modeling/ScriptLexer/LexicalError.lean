/-
# Lexical errors

A text that breaks a rule of the language is reported by the cause and the place of the breach.
-/
import ScriptLexer.Place

namespace ScriptLexer

/-- The phases of the language that report errors. -/
inductive Phase
  | lexical
deriving DecidableEq, Repr

/-- The name under which a phase is reported. -/
def Phase.name : Phase → String
  | lexical => "LexicalPhase"

/-- Why a piece of a text is no token. -/
inductive ErrorCause
  /-- No token begins with the character. -/
  | unexpectedCharacter (c : Char)
  /-- The quotation mark has no partner. -/
  | unterminatedString
  /-- A point stands before, behind or within a numeral where none may stand. -/
  | invalidNumber
  /-- A name follows a point. -/
  | nameAfterDot
  /-- A name follows the digits of a whole number. -/
  | nameAfterDigits
  /-- A cause outside the rules of the language, in the words of whoever reports it. -/
  | described (message : String)
deriving DecidableEq, Repr

/-- The words in which a cause is reported. -/
def ErrorCause.message : ErrorCause → String
  | unexpectedCharacter c => "Unexpected character: " ++ c.toString
  | unterminatedString => "Unterminated String."
  | invalidNumber => "Invalid Number"
  | nameAfterDot => "Invalid identifier: cannot start with a dot"
  | nameAfterDigits => "Invalid identifier: cannot start with a number"
  | described message => message

/-- A breach of the lexical rules. -/
structure LexicalError where
  /-- What is wrong. -/
  cause : ErrorCause
  /-- The place of the first character that is not accepted. -/
  place : Place
deriving DecidableEq, Repr

namespace LexicalError

/-- The phase that reports an error of this kind. -/
def phase (_ : LexicalError) : Phase := .lexical

/-- The words in which the error is reported. -/
def message (e : LexicalError) : String := e.cause.message

/-- Equality of errors: they are reported in the same words, by the same phase, at the same
place. -/
def equals (e f : LexicalError) : Bool :=
  e.phase == f.phase && e.message == f.message && e.place == f.place

instance : BEq LexicalError := ⟨equals⟩

/-- The line that reports an error. -/
def text (e : LexicalError) : String :=
  "[" ++ e.phase.name ++ "]: ErrorMessage: " ++ e.message
    ++ " at line " ++ toString e.place.line ++ ", column " ++ toString e.place.column

end LexicalError

end ScriptLexer

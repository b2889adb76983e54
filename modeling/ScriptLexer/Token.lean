/-
# Tokens

A token is a piece of a text that the language gives a meaning to.
-/
import ScriptLexer.Place
import ScriptLexer.Token.Kind
import ScriptLexer.Token.Literal

namespace ScriptLexer

/-- A token of a text. -/
structure Token where
  /-- What the token is. -/
  kind : TokenKind
  /-- The characters of the text that the token consists of. -/
  lexeme : String
  /-- The value that the token denotes, for a string and for a number. -/
  literal : Option Literal
  /-- The place of its first character. -/
  place : Place
  /-- The bytes of the text that the lexeme takes up. -/
  span : Span
deriving DecidableEq, Repr

namespace Token

/-- Equality of tokens: that of the literals, and identity in every other field. -/
def equals (s t : Token) : Bool :=
  s.kind == t.kind && s.lexeme == t.lexeme && s.literal == t.literal && s.place == t.place
    && s.span == t.span

instance : BEq Token := ⟨equals⟩

/-- The token that closes a text whose last character stands just before the cursor. -/
def endOfFile (k : Cursor) : Token where
  kind := .endOfFile
  lexeme := ""
  literal := none
  place := k.place
  span := ⟨k.offset, k.offset⟩

/-- The value of a number token. -/
def number? (t : Token) : Option Binary64 :=
  match t.literal with
  | some (.number value) => some value
  | _ => none

/-- The value of a string token. -/
def string? (t : Token) : Option String :=
  match t.literal with
  | some (.string value) => some value
  | _ => none

/-- The line that reports a token; a token without a value shows `nil` for it. -/
def text (t : Token) : String :=
  "Type: " ++ t.kind.name ++ ", Lexeme: " ++ t.lexeme
    ++ ", Literal: " ++ (t.literal.map Literal.text).getD "nil"
    ++ ", Line: " ++ toString t.place.line ++ ", Column: " ++ toString t.place.column

end Token

end ScriptLexer

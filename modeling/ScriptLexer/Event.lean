/-
# Events of a scan

A scan can be followed while it happens.  It records an event for each token and for each error at
the moment it comes upon it, and one more when it is finished; blanks, comments and the end of the
text leave no trace.  A program that scans a file records the file first.
-/
import ScriptLexer.Token
import ScriptLexer.LexicalError
import ScriptLexer.Event.Level

namespace ScriptLexer

/-- Something worth recording about a scan. -/
inductive Event
  /-- A token was read. -/
  | tokenRead (kind : TokenKind) (lexeme : String) (place : Place)
  /-- An error was found. -/
  | errorFound (cause : ErrorCause) (place : Place)
  /-- A scan was finished with so many tokens, the end of the text among them, and errors. -/
  | finished (tokens errors : Nat)
  /-- The file at `path`, of the given size in bytes, is about to be scanned. -/
  | scanningFile (path : String) (bytes : Nat)
deriving DecidableEq, Repr

/-- The value of a field of an event. -/
inductive FieldValue
  /-- A text that is written as it is. -/
  | plain (text : String)
  /-- A text that is written between quotation marks. -/
  | quoted (text : String)
  /-- A number. -/
  | count (n : Nat)
deriving DecidableEq, Repr

namespace Event

/-- The weight of an event. -/
def level : Event → Level
  | tokenRead .. => .trace
  | errorFound .. => .debug
  | finished .. => .debug
  | scanningFile .. => .info

/-- What an event says. -/
def message : Event → String
  | tokenRead .. => "token"
  | errorFound cause _ => cause.message
  | finished .. => "finished scanning"
  | scanningFile .. => "scanning file"

/-- The data of an event, by name, in the order in which they are written. -/
def fields : Event → List (String × FieldValue)
  | tokenRead kind lexeme place =>
    [("kind", .plain kind.name), ("lexeme", .quoted lexeme), ("line", .count place.line),
      ("column", .count place.column)]
  | errorFound _ place => [("line", .count place.line), ("column", .count place.column)]
  | finished tokens errors => [("tokens", .count tokens), ("errors", .count errors)]
  | scanningFile path bytes => [("path", .plain path), ("bytes", .count bytes)]

end Event

end ScriptLexer

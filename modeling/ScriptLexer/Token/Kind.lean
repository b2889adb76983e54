/-
# Kinds of tokens

Tokens are told apart by kind.  The symbols and the keywords are finite alphabets with a fixed
spelling each; names, strings and numbers are open classes; one last kind marks the end of a text.
-/

namespace ScriptLexer

/-- The punctuation and the operators of the language. -/
inductive Symbol
  | leftParen | rightParen | leftBrace | rightBrace
  | comma | dot | minus | plus | semicolon | slash | star
  | bang | bangEqual
  | equal | equalEqual
  | greater | greaterEqual
  | less | lessEqual
deriving DecidableEq, Repr

namespace Symbol

/-- The name under which a symbol is reported. -/
def name : Symbol → String
  | leftParen => "LeftParen"
  | rightParen => "RightParen"
  | leftBrace => "LeftBrace"
  | rightBrace => "RightBrace"
  | comma => "Comma"
  | dot => "Dot"
  | minus => "Minus"
  | plus => "Plus"
  | semicolon => "Semicolon"
  | slash => "Slash"
  | star => "Star"
  | bang => "Bang"
  | bangEqual => "BangEqual"
  | equal => "Equal"
  | equalEqual => "EqualEqual"
  | greater => "Greater"
  | greaterEqual => "GreaterEqual"
  | less => "Less"
  | lessEqual => "LessEqual"

/-- The symbols that a character spells alone, whatever follows it. -/
def ofChar? : Char → Option Symbol
  | '(' => some leftParen
  | ')' => some rightParen
  | '{' => some leftBrace
  | '}' => some rightBrace
  | ',' => some comma
  | '-' => some minus
  | '+' => some plus
  | ';' => some semicolon
  | '*' => some star
  | _ => none

/-- The symbols that begin with the character: the one it spells alone, and the one it spells
together with an equals sign behind it. -/
def pair? : Char → Option (Symbol × Symbol)
  | '!' => some (bang, bangEqual)
  | '=' => some (equal, equalEqual)
  | '>' => some (greater, greaterEqual)
  | '<' => some (less, lessEqual)
  | _ => none

/-- Every symbol once. -/
def all : List Symbol :=
  [leftParen, rightParen, leftBrace, rightBrace, comma, dot, minus, plus, semicolon, slash, star,
    bang, bangEqual, equal, equalEqual, greater, greaterEqual, less, lessEqual]

end Symbol

/-- The reserved words of the language. -/
inductive Keyword
  | andWord | classWord | elseWord | falseWord | funWord | forWord | ifWord | nilWord
  | orWord | printWord | returnWord | superWord | thisWord | trueWord | varWord | whileWord
deriving DecidableEq, Repr

namespace Keyword

/-- The name under which a keyword is reported. -/
def name : Keyword → String
  | andWord => "And"
  | classWord => "Class"
  | elseWord => "Else"
  | falseWord => "False"
  | funWord => "Fun"
  | forWord => "For"
  | ifWord => "If"
  | nilWord => "Nil"
  | orWord => "Or"
  | printWord => "Print"
  | returnWord => "Return"
  | superWord => "Super"
  | thisWord => "This"
  | trueWord => "True"
  | varWord => "Var"
  | whileWord => "While"

/-- How a keyword is written. -/
def spelling : Keyword → String
  | andWord => "and"
  | classWord => "class"
  | elseWord => "else"
  | falseWord => "false"
  | funWord => "fun"
  | forWord => "for"
  | ifWord => "if"
  | nilWord => "nil"
  | orWord => "or"
  | printWord => "print"
  | returnWord => "return"
  | superWord => "super"
  | thisWord => "this"
  | trueWord => "true"
  | varWord => "var"
  | whileWord => "while"

/-- Every keyword once. -/
def all : List Keyword :=
  [andWord, classWord, elseWord, falseWord, funWord, forWord, ifWord, nilWord,
    orWord, printWord, returnWord, superWord, thisWord, trueWord, varWord, whileWord]

/-- The keyword that is written exactly as `word`, upper and lower case told apart. -/
def ofSpelling? (word : String) : Option Keyword :=
  all.find? fun k => k.spelling == word

end Keyword

/-- What a token is. -/
inductive TokenKind
  | symbol (s : Symbol)
  | identifier
  | string
  | number
  | keyword (k : Keyword)
  | endOfFile
deriving DecidableEq, Repr

namespace TokenKind

/-- The name under which a kind is reported. -/
def name : TokenKind → String
  | symbol s => s.name
  | identifier => "Identifier"
  | string => "String"
  | number => "Number"
  | keyword k => k.name
  | endOfFile => "Eof"

/-- Whether a kind is that of a reserved word. -/
def isKeyword : TokenKind → Bool
  | keyword _ => true
  | _ => false

/-- The kind of a word: the keyword that is spelled so, or else a name. -/
def ofWord (word : String) : TokenKind :=
  match Keyword.ofSpelling? word with
  | some k => keyword k
  | none => identifier

end TokenKind

end ScriptLexer

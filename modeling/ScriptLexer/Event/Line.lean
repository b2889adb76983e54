/-
# Log lines

An event is written on one line: the time, the level, what the event says, and its fields.  On a
terminal the time and the equals signs may be dimmed, the level coloured and the names of the
fields set in italics; the text is the same in both styles.

What an event says may repeat characters of the scanned text.  Those by which a text could take
control of a terminal are spelled out there, in either style.
-/
import ScriptLexer.Event

namespace ScriptLexer

/-! ## Styles -/

/-- How log lines are set. -/
inductive LineStyle
  | plain
  | coloured
deriving DecidableEq, Repr

namespace LineStyle

/-- Sets `text` in the graphic rendition of the given number, and goes back to the default. -/
def render (rendition : Nat) (text : String) : LineStyle → String
  | plain => text
  | coloured => "\x1b[" ++ toString rendition ++ "m" ++ text ++ "\x1b[0m"

/-- The number of the bold rendition. -/
def bold : Nat := 1

/-- The number of the dim rendition. -/
def dim : Nat := 2

/-- The number of the italic rendition. -/
def italic : Nat := 3

end LineStyle

/-- The number of the rendition that colours a level. -/
def Level.colour : Level → Nat
  | error => 31
  | warn => 33
  | info => 32
  | debug => 34
  | trace => 35

/-- The name of a level, set flush right in five columns. -/
def Level.padded (l : Level) : String :=
  String.ofList (List.replicate (5 - l.name.length) ' ') ++ l.name

/-! ## Controls -/

/-- A character by its code point in hexadecimal, between braces. -/
def codePointText (c : Char) : List Char :=
  ['\\', 'u', '\x7b'] ++ Nat.toDigits 16 c.toNat ++ ['\x7d']

/-- A character of ASCII by its code in hexadecimal, in two digits. -/
def codeText (c : Char) : List Char :=
  ['\\', 'x', Nat.digitChar (c.toNat / 16), Nat.digitChar (c.toNat % 16)]

/-- The controls of ASCII that ring, move back, clear the screen or begin a command of a terminal:
bell, backspace, form feed, escape and delete. -/
def isTerminalControl (c : Char) : Bool :=
  c == '\x07' || c == '\x08' || c == '\x0c' || c == '\x1b' || c == '\x7f'

/-- The second set of controls, which follows ASCII. -/
def isUpperControl (c : Char) : Bool :=
  0x80 ≤ c.toNat && c.toNat ≤ 0x9f

/-! ## Fields -/

namespace FieldValue

/-- How a character is written between quotation marks: the mark itself, the backslash and the
commoner controls behind a backslash, the other controls by their code point. -/
def escape (c : Char) : List Char :=
  if c = '"' then ['\\', '"']
  else if c = '\\' then ['\\', '\\']
  else if c = '\n' then ['\\', 'n']
  else if c = '\r' then ['\\', 'r']
  else if c = '\t' then ['\\', 't']
  else if c = '\x00' then ['\\', '0']
  else if c.toNat < 0x20 || c.toNat == 0x7f || isUpperControl c then codePointText c
  else [c]

/-- The text of a value in a log line. -/
def text : FieldValue → String
  | plain text => text
  | quoted text => String.ofList ('"' :: (text.toList.flatMap escape ++ ['"']))
  | count n => toString n

end FieldValue

/-! ## Lines -/

namespace Event

/-- How a character of a message is written: a control of ASCII to which a terminal reacts by its
code, one of the second set by its code point, and any other character as it is. -/
def spellOut (c : Char) : List Char :=
  if isTerminalControl c then codeText c
  else if isUpperControl c then codePointText c
  else [c]

/-- What an event says, in a log line. -/
def messageText (e : Event) : String :=
  String.ofList (e.message.toList.flatMap spellOut)

/-- The fields of an event in a log line, each behind a space. -/
def fieldsText (style : LineStyle) (fields : List (String × FieldValue)) : String :=
  String.join (fields.map fun (name, value) =>
    " " ++ style.render LineStyle.italic name ++ style.render LineStyle.dim "=" ++ value.text)

/-- The log line of an event at a given time, with the line feed that ends it. -/
def line (e : Event) (style : LineStyle) (time : String) : String :=
  style.render LineStyle.dim time ++ " " ++ style.render e.level.colour e.level.padded ++ " "
    ++ e.messageText ++ fieldsText style e.fields ++ "\n"

end Event

end ScriptLexer

/-
# Control sequences

A text for a terminal holds sequences of characters that are not shown but command the terminal.
Where the text does not go to a terminal they are taken out, and with them all single controls of
ASCII but tabs, line feeds, form feeds and carriage returns.

An escape opens a sequence, whatever stands before it, and the characters behind it tell where the
sequence ends.  Cancel and substitute break off a sequence.  A tab, a line feed, a form feed or a
carriage return within a command is shown and suspends the command: the text behind it is shown
too, up to the next control that is not shown, where the command is taken up again unless a
character outside ASCII has come between.  A string shows nothing up to its end, and the header
with which a string for a device begins has to be over before a terminator can end the string.
-/

namespace ScriptLexer

/-- How far a control sequence has come. -/
inductive ControlSequence
  /-- There is none. -/
  | closed
  /-- An escape. -/
  | escape
  /-- An escape and characters that come before its final one. -/
  | intermediate
  /-- An escape and an opening bracket: a command with parameters, up to a final letter. -/
  | command
  /-- An escape and a closing bracket: a string for the system, up to a bell. -/
  | systemString
  /-- An escape and `P`: a string for a device, before its header. -/
  | device
  /-- A string for a device, within the parameters of its header. -/
  | deviceParameters
  /-- A string for a device, behind the parameters and before the final letter of its header. -/
  | deviceIntermediate
  /-- A string for a device behind its header, or a string of another kind, up to a string
  terminator. -/
  | controlString
deriving DecidableEq, Repr

namespace ControlSequence

/-- The controls that are shown: tab, line feed, form feed and carriage return. -/
def isShownControl (c : Char) : Bool :=
  c == '\t' || c == '\n' || c == '\x0c' || c == '\r'

/-- Whether a character is shown: all but most controls of ASCII where there is no sequence, in a
sequence the controls that suspend it, and in a string nothing. -/
def shows (s : ControlSequence) (c : Char) : Bool :=
  match s with
  | closed => isShownControl c || (0x20 ≤ c.toNat && c != '\x7f')
  | escape => isShownControl c
  | intermediate => isShownControl c
  | command => isShownControl c
  | systemString => false
  | device => false
  | deviceParameters => false
  | deviceIntermediate => false
  | controlString => false

/-- Whether a control string ends with a character: the string terminator is the byte `0x9c`,
wherever it stands in the encoding of a character. -/
def terminates (c : Char) : Bool :=
  (String.utf8EncodeChar c).contains 0x9c

/-- What the character behind an escape makes of it.  A control, or a character outside ASCII,
leaves it open. -/
def behindEscape (c : Char) : ControlSequence :=
  if c.toNat < 0x20 || 0x7e < c.toNat then escape
  else if c.toNat < 0x30 then intermediate
  else if c = '[' then command
  else if c = ']' then systemString
  else if c = 'P' then device
  else if c = 'X' ∨ c = '^' ∨ c = '_' then controlString
  else closed

/-- What a character makes of a string for a device whose header is not over.  Parameters are
written in digits, colons and semicolons, and one of `<`, `=`, `>` and `?` may begin them; in any
other place these four, and a parameter behind an intermediate character, end the header as its
final letter does.  A control, or a character outside ASCII, leaves the header as it is: no string
terminator ends it. -/
def inHeader (s : ControlSequence) (c : Char) : ControlSequence :=
  if c.toNat < 0x20 || 0x7e < c.toNat then s
  else if c.toNat < 0x30 then deviceIntermediate
  else if c.toNat < 0x3c && s != deviceIntermediate then deviceParameters
  else if c.toNat < 0x40 && s == device then deviceParameters
  else controlString

/-- How far a sequence has come behind a character that is not shown. -/
def past (s : ControlSequence) (c : Char) : ControlSequence :=
  if c = '\x1b' then escape
  else if c = '\x18' ∨ c = '\x1a' then closed
  else
    match s with
    | closed => closed
    | escape => behindEscape c
    | intermediate => if 0x30 ≤ c.toNat && c.toNat ≤ 0x7e then closed else intermediate
    | command => if 0x40 ≤ c.toNat && c.toNat ≤ 0x7e then closed else command
    | systemString => if c = '\x07' then closed else systemString
    | device => device.inHeader c
    | deviceParameters => deviceParameters.inHeader c
    | deviceIntermediate => deviceIntermediate.inHeader c
    | controlString => if terminates c then closed else controlString

end ControlSequence

/-! ## Reading a text -/

/-- What has become of a text, as far as it is read. -/
structure ShownText where
  /-- The sequence that is open. -/
  sequence : ControlSequence
  /-- Whether the last character was shown, so that an open sequence is suspended. -/
  suspended : Bool
  /-- The characters that are shown, the last one first. -/
  shown : List Char
deriving DecidableEq, Repr

namespace ShownText

/-- Before the first character. -/
def start : ShownText := ⟨.closed, false, []⟩

/-- Reads one character. -/
def read (t : ShownText) (c : Char) : ShownText :=
  let sequence := if t.suspended then .closed else t.sequence
  if sequence.shows c then
    ⟨if c.toNat < 0x80 then t.sequence else .closed, true, c :: t.shown⟩
  else ⟨t.sequence.past c, false, t.shown⟩

end ShownText

/-- A text without its control sequences and the controls that are not shown. -/
def withoutControls (text : String) : String :=
  String.ofList (text.toList.foldl ShownText.read ShownText.start).shown.reverse

end ScriptLexer

/-
# Places in a text

A place is what a reader is told: a line and a column, both counted from one, the column in
characters.  A cursor is a place together with the number of bytes before it.  Both move over one
character at a time, and a line feed is the only character that starts a new line.
-/

namespace ScriptLexer

/-- A line and a column, both counted from one; columns count characters. -/
structure Place where
  /-- One more than the number of line feeds before the place. -/
  line : Nat
  /-- One more than the number of characters between the start of the line and the place. -/
  column : Nat
deriving DecidableEq, Repr

namespace Place

/-- The place of the first character of a text. -/
def start : Place := ⟨1, 1⟩

/-- The place just past the character `c`, for `c` standing at `p`. -/
def advance (p : Place) (c : Char) : Place :=
  if c = '\n' then ⟨p.line + 1, 1⟩ else ⟨p.line, p.column + 1⟩

end Place

/-- Where a scan stands: how many bytes lie behind it, and the place of the next character. -/
structure Cursor where
  /-- The number of bytes, in UTF-8, of the text before the cursor. -/
  offset : Nat
  /-- The place of the character at the cursor. -/
  place : Place
deriving DecidableEq, Repr

namespace Cursor

/-- The cursor before the first character of a text. -/
def start : Cursor := ⟨0, Place.start⟩

/-- The cursor just past the character `c`. -/
def advance (k : Cursor) (c : Char) : Cursor :=
  ⟨k.offset + c.utf8Size, k.place.advance c⟩

/-- The cursor just past the characters `cs`. -/
def past (k : Cursor) (cs : List Char) : Cursor :=
  cs.foldl advance k

@[simp] theorem past_nil (k : Cursor) : k.past [] = k := rfl

@[simp] theorem past_cons (k : Cursor) (c : Char) (cs : List Char) :
    k.past (c :: cs) = (k.advance c).past cs := rfl

theorem past_append (k : Cursor) (xs ys : List Char) :
    k.past (xs ++ ys) = (k.past xs).past ys :=
  List.foldl_append

end Cursor

/-- A range of bytes of a text, from `start` up to but not including `stop`. -/
structure Span where
  /-- The offset of the first byte. -/
  start : Nat
  /-- The offset just past the last byte. -/
  stop : Nat
deriving DecidableEq, Repr

end ScriptLexer

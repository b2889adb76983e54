/-
# Offsets in a text

A reader finds its way in a text by offsets, which count bytes.  An offset may stand within a
character, and then no text begins or ends there: to take the bytes of a range out of a text is
possible only if the range lies in the text, the right way round, between boundaries of characters
(`slice?`).
-/
import ScriptLexer.Place

namespace ScriptLexer

/-- The byte at the offset, or the end of the text, begins a character. -/
def IsBoundary (source : String) (offset : Nat) : Prop :=
  String.Pos.Raw.IsValid source ⟨offset⟩

instance (source : String) (offset : Nat) : Decidable (IsBoundary source offset) :=
  inferInstanceAs (Decidable (String.Pos.Raw.IsValid source ⟨offset⟩))

/-- The range lies in the text and begins and ends with characters of it. -/
structure Span.IsSliceOf (range : Span) (source : String) : Prop where
  /-- The range does not end before it begins. -/
  start_le : range.start ≤ range.stop
  /-- It does not end behind the text. -/
  stop_le : range.stop ≤ source.utf8ByteSize
  /-- It begins between two characters. -/
  start_boundary : IsBoundary source range.start
  /-- It ends between two characters. -/
  stop_boundary : IsBoundary source range.stop

instance (range : Span) (source : String) : Decidable (range.IsSliceOf source) :=
  decidable_of_iff (range.start ≤ range.stop ∧ range.stop ≤ source.utf8ByteSize ∧
      IsBoundary source range.start ∧ IsBoundary source range.stop)
    ⟨fun ⟨h₁, h₂, h₃, h₄⟩ => ⟨h₁, h₂, h₃, h₄⟩, fun ⟨h₁, h₂, h₃, h₄⟩ => ⟨h₁, h₂, h₃, h₄⟩⟩

/-- The bytes of the range as a text, if they are one. -/
def slice? (source : String) (range : Span) : Option String :=
  if h : range.IsSliceOf source then
    some (source.extract (source.pos ⟨range.start⟩ h.start_boundary)
      (source.pos ⟨range.stop⟩ h.stop_boundary))
  else none

/-- The characters of a text, each with the offset of its first byte, if the first of them stands at
the given offset. -/
def charIndices (offset : Nat) : List Char → List (Nat × Char)
  | [] => []
  | c :: cs => (offset, c) :: charIndices (offset + c.utf8Size) cs

end ScriptLexer

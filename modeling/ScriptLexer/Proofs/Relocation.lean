/-
# Positions that move

Two texts that are read alike may still differ in where things stand.  A relocation says what
becomes of places and of spans; tokens, errors, items and results move with them and keep whatever
else they say.

Where a relocation carries one cursor to another, wherever both go from there by the same characters
(`Relocation.Carries`), it carries what pieces stand for at the one to what they stand for at the
other.
-/
import ScriptLexer.Proofs.Segmentation

namespace ScriptLexer

/-- What becomes of positions when a text is changed around what is read in it. -/
structure Relocation where
  /-- Where a place goes. -/
  place : Place → Place
  /-- What becomes of a span. -/
  span : Span → Span

namespace Relocation

/-- A token moves with its first character and with its bytes. -/
def token (d : Relocation) (t : Token) : Token :=
  { t with place := d.place t.place, span := d.span t.span }

/-- An error moves with its place. -/
def error (d : Relocation) (e : LexicalError) : LexicalError := { e with place := d.place e.place }

/-- An item moves as the token or the error that it is. -/
def item (d : Relocation) : Item → Item
  | .token t => .token (d.token t)
  | .error e => .error (d.error e)

/-- A result moves as a whole. -/
def result (d : Relocation) (r : ScanResult) : ScanResult :=
  ⟨r.tokens.map d.token, r.errors.map d.error⟩

/-- Spans are forgotten, and places stay. -/
def unspanned : Relocation := ⟨id, fun _ => ⟨0, 0⟩⟩

variable (d : Relocation)

lemma filterMap_token?_map_item (items : List Item) :
    (items.map d.item).filterMap Item.token? = (items.filterMap Item.token?).map d.token :=
  Item.filterMap_token?_map (fun item => by cases item <;> rfl) items

lemma filterMap_error?_map_item (items : List Item) :
    (items.map d.item).filterMap Item.error? = (items.filterMap Item.error?).map d.error :=
  Item.filterMap_error?_map (fun item => by cases item <;> rfl) items

/-! ## Cursors that are carried along -/

/-- Behind the same characters, positions counted from `k` are carried to positions counted from
`k'`. -/
structure Carries (k k' : Cursor) : Prop where
  /-- Places are. -/
  place_past : ∀ cs, (k'.past cs).place = d.place (k.past cs).place
  /-- And spans are. -/
  span_past : ∀ xs ys, (⟨(k'.past xs).offset, (k'.past ys).offset⟩ : Span)
    = d.span ⟨(k.past xs).offset, (k.past ys).offset⟩

namespace Carries

variable {d : Relocation} {k k' : Cursor}

lemma past (h : d.Carries k k') (cs : List Char) : d.Carries (k.past cs) (k'.past cs) where
  place_past xs := by
    rw [← Cursor.past_append, ← Cursor.past_append, h.place_past]
  span_past xs ys := by
    simp only [← Cursor.past_append, h.span_past]

/-- A piece stands for the same item at either cursor, moved. -/
lemma item? (h : d.Carries k k') (p : Piece) : p.item? k' = (p.item? k).map d.item := by
  obtain ⟨text, outcome⟩ := p
  have hplace : k'.place = d.place k.place := h.place_past []
  cases outcome with
  | nothing => rfl
  | error cause =>
    rw [Piece.item?, Segment.item?, hplace]
    rfl
  | token kind literal =>
    have hspan : (⟨k'.offset, (k'.past text).offset⟩ : Span)
      = d.span ⟨k.offset, (k.past text).offset⟩ := h.span_past [] text
    rw [Piece.item?, Segment.item?, hplace, hspan]
    rfl

lemma itemsFrom (h : d.Carries k k') (ps : List Piece) :
    Piece.itemsFrom k' ps = (Piece.itemsFrom k ps).map d.item := by
  induction ps generalizing k k' with
  | nil => rfl
  | cons p ps ih =>
    rw [Piece.itemsFrom_cons, Piece.itemsFrom_cons, ih (h.past p.text), h.item?, List.map_append,
      Option.toList_map]

lemma endOfFile (h : d.Carries k k') : Token.endOfFile k' = d.token (.endOfFile k) := by
  have hplace : k'.place = d.place k.place := h.place_past []
  have hspan : (⟨k'.offset, k'.offset⟩ : Span) = d.span ⟨k.offset, k.offset⟩ := h.span_past [] []
  rw [Token.endOfFile, hplace, hspan]
  rfl

end Carries

end Relocation

end ScriptLexer

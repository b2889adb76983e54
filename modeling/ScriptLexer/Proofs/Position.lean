/-
# Positions

A scan moves its cursor over one character at a time.  Where the cursor stands can also be read off
the text behind it: the line from the line feeds, the column from the characters since the last of
them, the offset from the bytes.  This file proves that the two agree, whatever was passed on the
way (`past_behind`), and so that every item stands at the position of the first character of its
piece, however many items were asked for before it.  In a text without line feeds it is on the first
line.
-/
import ScriptLexer.Proofs.Segmentation

namespace ScriptLexer

/-! ## Positions read off the text before them -/

/-- The number of bytes that characters take up in UTF-8. -/
def byteSize (cs : List Char) : Nat := (String.ofList cs).utf8ByteSize

/-- The place behind the characters `before`: the line is one more than the number of line feeds,
the column one more than the number of characters that follow the last line feed, or of all if
there is none. -/
def Place.behind (before : List Char) : Place where
  line := 1 + before.count '\n'
  column := 1 + (before.reverse.takeWhile (· != '\n')).length

/-- The cursor behind the characters `before`. -/
def Cursor.behind (before : List Char) : Cursor := ⟨byteSize before, Place.behind before⟩

lemma byteSize_append (xs ys : List Char) : byteSize (xs ++ ys) = byteSize xs + byteSize ys := by
  rw [byteSize, String.ofList_append, String.utf8ByteSize_append]
  rfl

lemma byteSize_singleton (c : Char) : byteSize [c] = c.utf8Size := by
  rw [byteSize, ← String.singleton_eq_ofList, String.utf8ByteSize_singleton]

lemma byteSize_cons (c : Char) (cs : List Char) :
    byteSize (c :: cs) = c.utf8Size + byteSize cs := by
  rw [← List.singleton_append, byteSize_append, byteSize_singleton]

@[simp] lemma byteSize_toList (s : String) : byteSize s.toList = s.utf8ByteSize := by
  rw [byteSize, String.ofList_toList]

lemma byteSize_pos {cs : List Char} (h : cs ≠ []) : 0 < byteSize cs := by
  obtain ⟨c, cs, rfl⟩ := List.exists_cons_of_ne_nil h
  have hc := c.utf8Size_pos
  rw [byteSize_cons]
  omega

/-! ## The cursor -/

/-- One more character moves the place as the scan moves it. -/
lemma Place.behind_append_singleton (before : List Char) (c : Char) :
    Place.behind (before ++ [c]) = (Place.behind before).advance c := by
  rw [Place.advance, Place.behind, Place.behind, List.count_append, List.reverse_append,
    List.reverse_singleton, List.singleton_append]
  by_cases hc : c = '\n'
  · subst hc
    simp [Nat.add_assoc]
  · rw [List.takeWhile_cons_of_pos (by simpa using hc), if_neg hc]
    simp [hc, Nat.add_assoc]

lemma Cursor.behind_append_singleton (before : List Char) (c : Char) :
    Cursor.behind (before ++ [c]) = (Cursor.behind before).advance c := by
  rw [Cursor.behind, byteSize_append, byteSize_singleton, Place.behind_append_singleton]
  rfl

lemma Cursor.start_eq_behind : Cursor.start = Cursor.behind [] := rfl

/-- However the scan comes past the characters `cs`, it then stands where the text says. -/
lemma Cursor.past_behind (before cs : List Char) :
    (Cursor.behind before).past cs = Cursor.behind (before ++ cs) := by
  induction cs generalizing before with
  | nil => rw [Cursor.past_nil, List.append_nil]
  | cons c cs ih =>
    rw [Cursor.past_cons, ← Cursor.behind_append_singleton, ih, List.append_assoc,
      List.singleton_append]

lemma Cursor.offset_past (k : Cursor) (cs : List Char) :
    (k.past cs).offset = k.offset + byteSize cs := by
  induction cs generalizing k with
  | nil => rfl
  | cons c cs ih => rw [Cursor.past_cons, ih, byteSize_cons, Cursor.advance, Nat.add_assoc]

lemma Cursor.past_start (cs : List Char) : Cursor.start.past cs = Cursor.behind cs := by
  rw [Cursor.start_eq_behind, Cursor.past_behind, List.nil_append]

/-! ## The position of an item -/

/-- The place of an item. -/
def Item.place : Item → Place
  | token t => t.place
  | error e => e.place

/-- The item is read from the piece `piece` where the characters `before` stand before it: it says
what the piece says, has the place of the first character of the piece and, if it is a token, the
bytes of the piece. -/
structure Item.StandsAt (item : Item) (before : List Char) (piece : Piece) : Prop where
  /-- The item says what the piece says. -/
  reading : piece.reading? = some item.reading
  /-- The place is that of the first character of the piece. -/
  place : item.place = Place.behind before
  /-- The span of a token begins with its first byte and ends behind its last. -/
  span : ∀ t, item = .token t → t.span = ⟨byteSize before, byteSize (before ++ piece.text)⟩

lemma Piece.item?_token (before text : List Char) (kind : TokenKind) (literal : Option Literal) :
    (⟨text, .token kind literal⟩ : Piece).item? (Cursor.behind before) = some (.token {
      kind, literal
      lexeme := String.ofList text
      place := Place.behind before
      span := ⟨byteSize before, byteSize (before ++ text)⟩ }) := by
  rw [item?, Segment.item?, Cursor.past_behind]
  rfl

lemma Piece.item?_error (before text : List Char) (cause : ErrorCause) :
    (⟨text, .error cause⟩ : Piece).item? (Cursor.behind before)
      = some (.error ⟨cause, Place.behind before⟩) := rfl

/-- The item of a piece stands at the piece. -/
lemma Piece.standsAt_of_item? {p : Piece} {before : List Char} {item : Item}
    (h : p.item? (Cursor.behind before) = some item) : item.StandsAt before p := by
  have hreading : p.reading? = some item.reading := by
    rw [← map_reading_item? p (Cursor.behind before), h]
    rfl
  obtain ⟨text, outcome⟩ := p
  cases outcome with
  | nothing => exact absurd h (by simp [Piece.item?, Segment.item?])
  | token kind literal =>
    rw [item?_token] at h
    obtain rfl := Option.some.inj h
    refine ⟨hreading, rfl, fun t ht => ?_⟩
    rw [← Item.token.inj ht]
  | error cause =>
    rw [item?_error] at h
    obtain rfl := Option.some.inj h
    exact ⟨hreading, rfl, fun t ht => absurd ht (by simp)⟩

/-- The `i`-th item is that of the `i`-th piece that stands for anything. -/
lemma Piece.exists_of_getElem?_itemsFrom {ps : List Piece} {k : Cursor} {i : Nat} {item : Item}
    (h : (itemsFrom k ps)[i]? = some item) :
    ∃ before p after, ps = before ++ p :: after ∧ (before.filterMap reading?).length = i ∧
      p.item? (k.past (textOf before)) = some item := by
  induction ps generalizing k i with
  | nil => simp at h
  | cons p ps ih =>
    rw [itemsFrom_cons] at h
    rcases hitem : p.item? k with _ | first
    · rw [hitem] at h
      obtain ⟨before, q, after, rfl, hlen, hq⟩ := ih h
      refine ⟨p :: before, q, after, rfl, ?_, by rwa [textOf_cons, Cursor.past_append]⟩
      rw [List.filterMap_cons_none, hlen]
      rw [← map_reading_item? p k, hitem]
      rfl
    · rw [hitem] at h
      cases i with
      | zero =>
        obtain rfl : first = item := by simpa using h
        exact ⟨[], p, ps, rfl, rfl, hitem⟩
      | succ i =>
        obtain ⟨before, q, after, rfl, hlen, hq⟩ := ih (by simpa using h)
        refine ⟨p :: before, q, after, rfl, ?_, by rwa [textOf_cons, Cursor.past_append]⟩
        rw [List.filterMap_cons_some (b := first.reading), List.length_cons, hlen]
        rw [← map_reading_item? p k, hitem]
        rfl

/-- An item of a text stands behind the pieces before its own. -/
lemma Piece.exists_of_mem_itemsFrom {ps : List Piece} {k : Cursor} {item : Item}
    (h : item ∈ itemsFrom k ps) :
    ∃ before p after, ps = before ++ p :: after ∧
      p.item? (k.past (textOf before)) = some item := by
  obtain ⟨i, hi⟩ := List.mem_iff_getElem?.1 h
  obtain ⟨before, p, after, hps, -, hitem⟩ := exists_of_getElem?_itemsFrom hi
  exact ⟨before, p, after, hps, hitem⟩

/-- An item of a text is that of a piece, which obeys the rules in front of what follows. -/
lemma exists_piece_of_mem_items {source : String} {item : Item}
    (h : item ∈ (Scan.ofString source).items) :
    ∃ before p after, Segmentation source.toList (before ++ p :: after) ∧
      p.item? (Cursor.behind (Piece.textOf before)) = some item := by
  obtain ⟨ps, hps⟩ := Segmentation.exists_pieces source.toList
  rw [Scan.ofString, hps.items_eq] at h
  obtain ⟨before, p, after, rfl, hitem⟩ := Piece.exists_of_mem_itemsFrom h
  rw [Cursor.past_start] at hitem
  exact ⟨before, p, after, hps, hitem⟩

/-! ## Texts of one line -/

section OneLine

variable {source : String}

lemma Place.line_behind {before : List Char} (h : '\n' ∉ before) :
    (Place.behind before).line = 1 := by
  rw [Place.behind, List.count_eq_zero.2 h]

/-- On the first line the column is one more than the number of characters before. -/
lemma Place.behind_of_not_mem {before : List Char} (h : '\n' ∉ before) :
    Place.behind before = ⟨1, 1 + before.length⟩ := by
  have hall : ∀ c ∈ before.reverse, (c != '\n') = true := by
    intro c hc
    rw [bne_iff]
    rintro rfl
    exact h (List.mem_reverse.1 hc)
  rw [Place.behind, List.count_eq_zero.2 h, List.takeWhile_eq_self_iff.2 hall, List.length_reverse]

lemma Item.line_eq_one (h : '\n' ∉ source.toList) {item : Item}
    (hmem : item ∈ (Scan.ofString source).items) : item.place.line = 1 := by
  obtain ⟨before, p, after, hps, hitem⟩ := exists_piece_of_mem_items hmem
  have hbefore : '\n' ∉ Piece.textOf before := by
    rw [← hps.textOf_eq, Piece.textOf_append] at h
    exact fun hfeed => h (List.mem_append_left _ hfeed)
  rw [(Piece.standsAt_of_item? hitem).place, Place.line_behind hbefore]

/-- The tokens of a text without line feeds are on the first line, the closing one included. -/
lemma Token.line_eq_one (h : '\n' ∉ source.toList) {t : Token} (ht : t ∈ (scan source).tokens) :
    t.place.line = 1 := by
  rw [scan_eq, List.mem_append, mem_filterMap_token?_iff, List.mem_singleton] at ht
  rcases ht with ht | rfl
  · exact Item.line_eq_one h ht
  · rw [Cursor.past_start]
    exact Place.line_behind h

lemma LexicalError.line_eq_one (h : '\n' ∉ source.toList) {e : LexicalError}
    (he : e ∈ (scan source).errors) : e.place.line = 1 := by
  rw [errors_scan, mem_filterMap_error?_iff] at he
  exact Item.line_eq_one h he

end OneLine

/-! ## The position of the item with a number -/

/-- **Every item stands at the first character of its piece.**  However many items are asked for,
the one delivered as number `i` is read from the piece that is number `i` of those that stand for
anything, and has the position that the text before this piece says.  The token that closes what
is left has the position that the whole text says. -/
theorem standsAt_of_take (source : String) (n : Nat) :
    (∀ i item, ((Scan.ofString source).take n).1[i]? = some item →
      ∃ before piece after, Segmentation source.toList (before ++ piece :: after) ∧
        source.toList = Piece.textOf before ++ piece.text ++ Piece.textOf after ∧
        (before.filterMap Piece.reading?).length = i ∧
        item.StandsAt (Piece.textOf before) piece) ∧
    ((Scan.ofString source).take n).2.finish.tokens.getLast? = some {
      kind := .endOfFile
      lexeme := ""
      literal := none
      place := Place.behind source.toList
      span := ⟨source.utf8ByteSize, source.utf8ByteSize⟩ } := by
  constructor
  · intro i item h
    obtain ⟨pieces, hpieces⟩ := Segmentation.exists_pieces source.toList
    rw [Scan.take_fst, Scan.ofString, hpieces.items_eq, List.getElem?_take] at h
    obtain ⟨-, h⟩ := Option.ite_none_right_eq_some.1 h
    obtain ⟨before, piece, after, rfl, hlen, hitem⟩ := Piece.exists_of_getElem?_itemsFrom h
    rw [Cursor.past_start] at hitem
    refine ⟨before, piece, after, hpieces, ?_, hlen, Piece.standsAt_of_item? hitem⟩
    rw [← hpieces.textOf_eq, Piece.textOf_append, Piece.textOf_cons, List.append_assoc]
  · rw [Scan.finish_eq, Scan.past_rest_take, Scan.ofString, Cursor.past_start]
    simp [Token.endOfFile, Cursor.behind]

/-- Behind a string that holds a letter of two bytes and a line feed, the name stands in the third
column of the second line, and at the seventh byte. -/
theorem standsAt_behind_string :
    ((Scan.ofString "\"é\n\" x").take 2).1[1]?
        = some (.token ⟨.identifier, "x", none, ⟨2, 3⟩, ⟨6, 7⟩⟩) ∧
      ∃ before piece after, Segmentation "\"é\n\" x".toList (before ++ piece :: after) ∧
        "\"é\n\" x".toList = Piece.textOf before ++ piece.text ++ Piece.textOf after ∧
        (before.filterMap Piece.reading?).length = 1 ∧
        (Item.token ⟨.identifier, "x", none, ⟨2, 3⟩, ⟨6, 7⟩⟩).StandsAt
          (Piece.textOf before) piece := by
  have h : ((Scan.ofString "\"é\n\" x").take 2).1[1]?
      = some (.token ⟨.identifier, "x", none, ⟨2, 3⟩, ⟨6, 7⟩⟩) := by decide +kernel
  exact ⟨h, (standsAt_of_take _ 2).1 1 _ h⟩

end ScriptLexer

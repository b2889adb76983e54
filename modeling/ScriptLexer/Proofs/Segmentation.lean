/-
# Segmentation of a text

A text falls into segments from left to right: the first piece obeys the rules in front of the
rest, and so on with the rest.  Every text falls into segments in exactly one way, and the items
of a scan are what the pieces stand for, in their order.

By `Segmentation.items_eq` a property of scans may be proved by induction on the segmentation of
the text.  What a token or an error says, its position apart, is read off its piece.
-/
import ScriptLexer.Proofs.Segment.First
import ScriptLexer.Proofs.Scan.Items

namespace ScriptLexer

/-! ## Pieces -/

/-- A segment without what follows it. -/
structure Piece where
  /-- The characters of the segment. -/
  text : List Char
  /-- What they stand for. -/
  outcome : Outcome
deriving DecidableEq, Repr

namespace Piece

/-- The item that a piece at the cursor `k` stands for. -/
def item? (p : Piece) (k : Cursor) : Option Item := Segment.item? ⟨p.text, p.outcome, []⟩ k

/-- The characters of a list of pieces. -/
def textOf (ps : List Piece) : List Char := ps.flatMap text

/-- The items that the pieces stand for, the first of them at the cursor `k`. -/
def itemsFrom (k : Cursor) : List Piece → List Item
  | [] => []
  | p :: ps => (p.item? k).toList ++ itemsFrom (k.past p.text) ps

@[simp] lemma textOf_nil : textOf [] = [] := rfl

@[simp] lemma textOf_cons (p : Piece) (ps : List Piece) :
    textOf (p :: ps) = p.text ++ textOf ps := rfl

@[simp] lemma textOf_append (ps qs : List Piece) : textOf (ps ++ qs) = textOf ps ++ textOf qs :=
  List.flatMap_append

@[simp] lemma itemsFrom_nil (k : Cursor) : itemsFrom k [] = [] := rfl

@[simp] lemma itemsFrom_cons (k : Cursor) (p : Piece) (ps : List Piece) :
    itemsFrom k (p :: ps) = (p.item? k).toList ++ itemsFrom (k.past p.text) ps := rfl

lemma itemsFrom_append (k : Cursor) (ps qs : List Piece) :
    itemsFrom k (ps ++ qs) = itemsFrom k ps ++ itemsFrom (k.past (textOf ps)) qs := by
  induction ps generalizing k with
  | nil => rfl
  | cons p ps ih =>
    rw [List.cons_append, itemsFrom_cons, itemsFrom_cons, ih, textOf_cons, Cursor.past_append,
      List.append_assoc]

end Piece

/-! ## Segmentations -/

/-- The text falls into the pieces, each of which obeys the rules in front of the rest. -/
inductive Segmentation : List Char → List Piece → Prop
  /-- The empty text has no pieces. -/
  | nil : Segmentation [] []
  /-- A segment, and the pieces of the rest. -/
  | cons {text rest : List Char} {outcome : Outcome} {ps : List Piece} :
      IsSegment text outcome rest → Segmentation rest ps →
      Segmentation (text ++ rest) (⟨text, outcome⟩ :: ps)

lemma IsSegment.items_eq {text rest : List Char} {outcome : Outcome}
    (h : IsSegment text outcome rest) (k : Cursor) :
    Scan.items ⟨text ++ rest, k⟩ =
      ((⟨text, outcome⟩ : Piece).item? k).toList ++ Scan.items ⟨rest, k.past text⟩ := by
  obtain ⟨c, cs, hcs, hfirst⟩ := h.exists_first
  rw [hcs, Scan.items_cons, hfirst]
  rfl

namespace Segmentation

/-- Every text falls into segments. -/
lemma exists_pieces (cs : List Char) : ∃ ps, Segmentation cs ps := by
  induction hlen : cs.length using Nat.strong_induction_on generalizing cs with
  | _ n ih =>
    cases cs with
    | nil => exact ⟨[], .nil⟩
    | cons c cs =>
      -- what the first segment leaves behind is shorter, and falls into pieces itself
      have hlt := Segment.length_rest_first_lt c cs
      obtain ⟨ps, hps⟩ := ih _ (hlen ▸ hlt) _ rfl
      have hcons := Segmentation.cons (Segment.valid_first c cs) hps
      rw [Segment.text_append_rest_first] at hcons
      exact ⟨_, hcons⟩

lemma textOf_eq {cs : List Char} {ps : List Piece} (h : Segmentation cs ps) :
    Piece.textOf ps = cs := by
  induction h with
  | nil => rfl
  | cons _ _ ih => rw [Piece.textOf_cons, ih]

/-- A text does not fall into segments in two ways. -/
lemma unique {cs : List Char} {ps qs : List Piece} (hp : Segmentation cs ps)
    (hq : Segmentation cs qs) : ps = qs := by
  induction hp generalizing qs with
  | nil =>
    generalize hcs : ([] : List Char) = cs at hq
    cases hq with
    | nil => rfl
    | cons hseg _ =>
      exact absurd (List.append_eq_nil_iff.1 hcs.symm).1 hseg.text_ne_nil
  | @cons text rest outcome ps hseg _ ih =>
    obtain ⟨c, cs, hcs, hfirst⟩ := hseg.exists_first
    generalize htext : text ++ rest = cs' at hq
    cases hq with
    | nil => rw [hcs] at htext; exact absurd htext (List.cons_ne_nil c cs)
    | @cons text' rest' outcome' qs hseg' hqs =>
      -- both segments are the first segment of the text, so the rests agree as well
      have hfirst' := Segment.first_eq_of_isSegment hseg' (htext.symm.trans hcs)
      obtain ⟨rfl, rfl, rfl⟩ := Segment.mk.inj (hfirst.symm.trans hfirst')
      rw [ih hqs]

/-- A scan delivers the items of the pieces, one behind the other. -/
lemma items_eq {cs : List Char} {ps : List Piece} (h : Segmentation cs ps) (k : Cursor) :
    Scan.items ⟨cs, k⟩ = Piece.itemsFrom k ps := by
  induction h generalizing k with
  | nil => exact Scan.items_nil k
  | cons hseg _ ih => rw [hseg.items_eq, Piece.itemsFrom_cons, ih]

/-- The last pieces of a text are those of its last part. -/
lemma of_append {cs : List Char} {before after : List Piece}
    (h : Segmentation cs (before ++ after)) : Segmentation (Piece.textOf after) after := by
  induction before generalizing cs with
  | nil =>
    rw [List.nil_append] at h
    rwa [h.textOf_eq]
  | cons p before ih =>
    cases h with
    | cons _ hrest => exact ih hrest

/-- A piece obeys the rules in front of the pieces that follow it. -/
lemma isSegment {cs : List Char} {before after : List Piece} {p : Piece}
    (h : Segmentation cs (before ++ p :: after)) :
    IsSegment p.text p.outcome (Piece.textOf after) := by
  have hlast := h.of_append
  generalize Piece.textOf (p :: after) = ds at hlast
  cases hlast with
  | cons hseg hrest => rwa [hrest.textOf_eq]

end Segmentation

/-! ## What a whole scan finds -/

/-- The tokens without the one that closes them. -/
def ScanResult.body (r : ScanResult) : List Token := r.tokens.filter (·.kind ≠ .endOfFile)

lemma scan_eq (source : String) :
    scan source = ⟨(Scan.ofString source).items.filterMap Item.token? ++
        [.endOfFile (Cursor.start.past source.toList)],
      (Scan.ofString source).items.filterMap Item.error?⟩ :=
  Scan.finish_eq _

lemma Segmentation.kind_ne_endOfFile {cs : List Char} {ps : List Piece} {k : Cursor} {t : Token}
    (h : Segmentation cs ps) (ht : .token t ∈ Piece.itemsFrom k ps) : t.kind ≠ .endOfFile := by
  induction h generalizing k with
  | nil => simp at ht
  | @cons text rest outcome ps hseg _ ih =>
    rw [Piece.itemsFrom_cons, List.mem_append] at ht
    rcases ht with ht | ht
    · cases outcome with
      | nothing => simp [Piece.item?, Segment.item?] at ht
      | error cause => simp [Piece.item?, Segment.item?] at ht
      | token kind literal =>
        obtain rfl : t = _ := by simpa [Piece.item?, Segment.item?] using ht
        exact hseg.kind_ne_endOfFile
    · exact ih ht

lemma mem_filterMap_token?_iff {items : List Item} {t : Token} :
    t ∈ items.filterMap Item.token? ↔ .token t ∈ items := by
  rw [List.mem_filterMap]
  constructor
  · rintro ⟨item, hmem, ht⟩
    cases item with
    | token s => rwa [← Option.some.inj ht]
    | error e => exact absurd ht (by simp)
  · exact fun h => ⟨_, h, rfl⟩

lemma mem_filterMap_error?_iff {items : List Item} {e : LexicalError} :
    e ∈ items.filterMap Item.error? ↔ .error e ∈ items := by
  rw [List.mem_filterMap]
  constructor
  · rintro ⟨item, hmem, he⟩
    cases item with
    | token t => exact absurd he (by simp)
    | error d => rwa [← Option.some.inj he]
  · exact fun h => ⟨_, h, rfl⟩

lemma body_scan (source : String) :
    (scan source).body = (Scan.ofString source).items.filterMap Item.token? := by
  obtain ⟨ps, h⟩ := Segmentation.exists_pieces source.toList
  rw [scan_eq, ScanResult.body, List.filter_append, List.filter_eq_self.2]
  · exact List.append_nil _
  · intro t ht
    rw [mem_filterMap_token?_iff, Scan.ofString, h.items_eq] at ht
    simpa using h.kind_ne_endOfFile ht

lemma mem_body_of_mem_tokens {r : ScanResult} {t : Token} (ht : t ∈ r.tokens)
    (hkind : t.kind ≠ .endOfFile) : t ∈ r.body :=
  List.mem_filter.2 ⟨ht, by simpa using hkind⟩

lemma errors_scan (source : String) :
    (scan source).errors = (Scan.ofString source).items.filterMap Item.error? := by
  rw [scan_eq]

/-- Only the last token of a scan closes the text. -/
lemma tokens_scan (source : String) :
    (scan source).tokens = (scan source).body ++
      [.endOfFile (Cursor.start.past source.toList)] := by
  rw [body_scan, scan_eq]

/-! ## What is read -/

/-- What an item says, its position apart. -/
inductive Reading
  /-- A token of the given kind, lexeme and value. -/
  | token (kind : TokenKind) (lexeme : String) (literal : Option Literal)
  /-- An error that is reported in the given words. -/
  | error (message : String)
deriving DecidableEq, Repr

/-- What a token says. -/
def Token.reading (t : Token) : Reading := .token t.kind t.lexeme t.literal

/-- What an item says. -/
def Item.reading : Item → Reading
  | token t => t.reading
  | error e => .error e.message

/-- What a piece says: nothing, if it stands for nothing.  The lexeme of a token is the piece
itself, and every error has its words. -/
def Piece.reading? : Piece → Option Reading
  | ⟨_, .nothing⟩ => none
  | ⟨text, .token kind literal⟩ => some (.token kind (String.ofList text) literal)
  | ⟨_, .error (.unexpectedCharacter c)⟩ => some (.error ("Unexpected character: " ++ c.toString))
  | ⟨_, .error .unterminatedString⟩ => some (.error "Unterminated String.")
  | ⟨_, .error .invalidNumber⟩ => some (.error "Invalid Number")
  | ⟨_, .error .nameAfterDot⟩ => some (.error "Invalid identifier: cannot start with a dot")
  | ⟨_, .error .nameAfterDigits⟩ =>
    some (.error "Invalid identifier: cannot start with a number")
  | ⟨_, .error (.described message)⟩ => some (.error message)

lemma Piece.map_reading_item? (p : Piece) (k : Cursor) :
    (p.item? k).map Item.reading = p.reading? := by
  obtain ⟨text, outcome⟩ := p
  cases outcome with
  | nothing => rfl
  | token kind literal => rfl
  | error cause => cases cause <;> rfl

lemma Piece.map_reading_itemsFrom (k : Cursor) (ps : List Piece) :
    (itemsFrom k ps).map Item.reading = ps.filterMap reading? := by
  induction ps generalizing k with
  | nil => rfl
  | cons p ps ih =>
    rw [itemsFrom_cons, List.map_append, ih, List.filterMap_cons, ← map_reading_item? p k]
    cases p.item? k <;> rfl

/-- **The items of a text are those of its segmentation.**  There is exactly one way in which a
text falls into segments, its pieces cover every character once, and the items that a scan
delivers say one after the other what the pieces say. -/
theorem items_of_segmentation (source : String) :
    ∃ pieces, Segmentation source.toList pieces ∧
      (∀ others, Segmentation source.toList others → others = pieces) ∧
      Piece.textOf pieces = source.toList ∧
      (Scan.ofString source).items.map Item.reading = pieces.filterMap Piece.reading? := by
  obtain ⟨pieces, h⟩ := Segmentation.exists_pieces source.toList
  refine ⟨pieces, h, fun others ho => ho.unique h, h.textOf_eq, ?_⟩
  rw [Scan.ofString, h.items_eq, Piece.map_reading_itemsFrom]

end ScriptLexer

/-
# Lexemes

A lexeme is a text that is one token and nothing else.  What a token is does not depend on what
stands around it: the characters of a token that is cut out of any text, correct or not, are a
lexeme, and the token has the kind and the value of this lexeme.  Conversely lexemes may be put
together to a text, with a blank behind each of them and any blanks and comments behind that, and
are read back from it in their order.
-/
import ScriptLexer.Proofs.Segment.Context
import ScriptLexer.Proofs.Position

namespace ScriptLexer

/-! ## Texts that are one token -/

/-- The text `w`, scanned alone, is the token `t` and nothing else. -/
structure ReadsAs (w : String) (t : Token) : Prop where
  /-- There are no errors. -/
  errors : (scan w).errors = []
  /-- There is one token besides that which closes the text. -/
  body : (scan w).body = [t]
  /-- The token takes up the whole text. -/
  span : t.span = ⟨0, w.utf8ByteSize⟩

/-- A lexeme is a text that is one token and nothing else. -/
def IsLexeme (w : String) : Prop := ∃ t, ReadsAs w t

lemma ReadsAs.unique {w : String} {t u : Token} (ht : ReadsAs w t) (hu : ReadsAs w u) : t = u :=
  List.singleton_inj.1 (ht.body.symm.trans hu.body)

/-- A token of a whole scan is that of a piece, which obeys the rules in front of what follows. -/
lemma exists_piece_of_mem_body {source : String} {t : Token} (ht : t ∈ (scan source).body) :
    ∃ before p after, Segmentation source.toList (before ++ p :: after) ∧
      p.item? (Cursor.behind (Piece.textOf before)) = some (.token t) := by
  rw [body_scan, mem_filterMap_token?_iff] at ht
  exact exists_piece_of_mem_items ht

/-- The piece of a token has its kind, its value, its characters and its bytes. -/
lemma Piece.eq_of_item?_eq_token {p : Piece} {before : List Char} {t : Token}
    (h : p.item? (Cursor.behind before) = some (.token t)) :
    p = ⟨t.lexeme.toList, .token t.kind t.literal⟩ ∧
      t.span = ⟨byteSize before, byteSize (before ++ p.text)⟩ := by
  refine ⟨?_, (standsAt_of_item? h).span t rfl⟩
  obtain ⟨text, outcome⟩ := p
  cases outcome with
  | nothing => exact absurd h (by simp [item?, Segment.item?])
  | error cause => exact absurd h (by simp [item?, Segment.item?])
  | token kind literal =>
    rw [item?_token] at h
    obtain rfl := Item.token.inj (Option.some.inj h)
    rw [String.toList_ofList]

/-- A text that is one token obeys the rules of this token, with nothing behind it. -/
lemma ReadsAs.isSegment {w : String} {t : Token} (h : ReadsAs w t) :
    IsSegment w.toList (.token t.kind t.literal) [] := by
  have hmem : t ∈ (scan w).body := by rw [h.body]; exact List.mem_singleton_self t
  obtain ⟨before, p, after, hps, hitem⟩ := exists_piece_of_mem_body hmem
  obtain ⟨hp, hspan⟩ := Piece.eq_of_item?_eq_token hitem
  have hseg := hps.isSegment
  have htext := hps.textOf_eq
  rw [Piece.textOf_append, Piece.textOf_cons] at htext
  -- the span leaves no byte for the pieces before and after
  obtain ⟨hstart, hstop⟩ := Span.mk.inj (h.span.symm.trans hspan)
  have hsize := congrArg byteSize htext
  rw [byteSize_toList, hstop, byteSize_append, byteSize_append, byteSize_append] at hsize
  have hbefore : Piece.textOf before = [] := by
    by_contra hne
    have hpos := byteSize_pos hne
    omega
  have hafter : Piece.textOf after = [] := by
    by_contra hne
    have hpos := byteSize_pos hne
    omega
  rw [hafter] at hseg
  rw [hbefore, hafter, List.nil_append, List.append_nil] at htext
  rw [← htext, hp]
  rw [hp] at hseg
  exact hseg

/-- What obeys the rules of a token with nothing behind it is one token. -/
lemma IsSegment.readsAs {w : String} {kind : TokenKind} {literal : Option Literal}
    (h : IsSegment w.toList (.token kind literal) []) :
    ReadsAs w ⟨kind, w, literal, Place.start, ⟨0, w.utf8ByteSize⟩⟩ := by
  have hitems : (Scan.ofString w).items
      = [.token ⟨kind, w, literal, Place.start, ⟨0, w.utf8ByteSize⟩⟩] := by
    have hpiece := h.items_eq Cursor.start
    rw [List.append_nil, Scan.items_nil, Cursor.start_eq_behind, Piece.item?_token,
      List.nil_append, byteSize_toList, String.ofList_toList] at hpiece
    exact hpiece
  refine ⟨?_, ?_, rfl⟩
  · rw [errors_scan, hitems]
    rfl
  · rw [body_scan, hitems]
    rfl

/-- Every token of a whole scan but that which closes it obeys its rules with nothing behind it. -/
lemma isSegment_of_mem_body {source : String} {t : Token} (ht : t ∈ (scan source).body) :
    IsSegment t.lexeme.toList (.token t.kind t.literal) [] := by
  obtain ⟨before, p, after, hps, hitem⟩ := exists_piece_of_mem_body ht
  have hseg := hps.isSegment
  rw [(Piece.eq_of_item?_eq_token hitem).1] at hseg
  exact hseg.alone

lemma readsAs_of_mem_body {source : String} {t : Token} (ht : t ∈ (scan source).body) :
    ∃ u, ReadsAs t.lexeme u ∧ u.kind = t.kind ∧ u.literal = t.literal :=
  ⟨_, (isSegment_of_mem_body ht).readsAs, rfl, rfl⟩

end ScriptLexer
